import WalServer.Wal.Writer

/-!
# `WalServer.Wal.Scan`: the recovery scan on arbitrary bytes

Every byte string is the images of some records and a tail that starts with none
(`exists_wholeRecords`). What the scan ends in depends on the tail alone: one that
does not decode ends it with the records before it (`scanRecords_layout`), and one
that starts with a `ShortHeader` makes it panic (`scanRecords_shortHeader`). Such a
header claims a body shorter than the header's own fixed fields, and its checksum
matches.

What decodes is the image of the record it decodes to (`take_of_decode_ok`), so
the decoder inverts the encoder in both directions. The scan stores the size of a
record in 32 bits, and is an inverse as far as these suffice
(`scan_exact_iff_sizes_fit`).
-/

set_option autoImplicit false

namespace WalServer.Wal

open WalServer.Lib WalServer.Shard

/-! ### Decoding, the other way round -/

namespace WalRecord

variable {hash : Bytes → UInt32} {r : WalRecord} {buf : Bytes} {n : Nat}

/-- The body length that a buffer's header claims. -/
def claimedLen (buf : Bytes) : Nat := fromBeBytes (slice buf 4 8)

/-- A header with a body length shorter than the fixed fields behind it, and the
checksum of what it does cover. -/
structure ShortHeader (hash : Bytes → UInt32) (buf : Bytes) : Prop where
  room : recordHeaderSize ≤ buf.length
  short : claimedLen buf < 40
  checksum : fromBeBytes (slice buf 0 4) = (hash (slice buf 4 (8 + claimedLen buf))).toNat

/-- **When the decoder panics.** -/
theorem decode_eq_panic_iff : decode hash buf = .panic ↔ ShortHeader hash buf := by
  constructor
  · intro h
    unfold decode at h
    simp only at h
    split at h
    · cases h
    split at h
    · cases h
    split at h
    · cases h
    split at h
    · rename_i hroom hfits hcrc hshort
      exact ⟨Nat.le_of_not_lt hroom, by unfold claimedLen; omega, not_not.mp hcrc⟩
    · cases h
  · rintro ⟨hroom, hshort, hcrc⟩
    unfold claimedLen at hshort hcrc
    have hlong : 48 ≤ buf.length := hroom
    unfold decode
    simp only
    rw [if_neg (Nat.not_lt_of_le hroom), if_neg (by omega), if_neg (not_not.mpr hcrc),
      if_pos (by omega)]

/-- **What decodes is an image**: the bytes it took encode the record it gave. -/
theorem take_of_decode_ok (h : decode hash buf = .ok (r, n)) :
    buf.take n = r.encodeToVec hash := by
  obtain ⟨hsize, -, -⟩ := encodedSize_of_decode_ok h
  obtain ⟨hlow, hhigh, hclaimed, hcrc, hr⟩ := decode_eq_ok_iff.mp h
  unfold recordHeaderSize at hlow
  -- The body's fields lie side by side from the length field on.
  have hbody : r.encodeBody = slice buf 4 n := by
    have hlen : toBeBytes 4 (r.encodedSize - 8) = slice buf 4 8 := by
      rw [← hsize, hclaimed, Nat.add_sub_cancel_left]
      exact toBeBytes_slice rfl (by omega)
    unfold encodeBody
    rw [hlen, hr]
    simp only [List.flatten_cons, List.flatten_nil, List.append_nil]
    rw [toBeBytes_slice rfl (by omega), toBeBytes_slice rfl (by omega),
      toBeBytes_slice rfl (by omega), toBeBytes_slice rfl (by omega),
      toBeBytes_slice rfl (by omega), slice_append_slice buf (by omega) hlow,
      slice_append_slice buf (by omega) (by omega), slice_append_slice buf (by omega) (by omega),
      slice_append_slice buf (by omega) (by omega), slice_append_slice buf (by omega) (by omega),
      slice_append_slice buf (by omega) (by omega)]
  calc buf.take n
      = slice buf 0 4 ++ slice buf 4 n := by
        rw [slice_append_slice buf (by omega) (by omega), slice_zero]
    _ = toBeBytes 4 (hash r.encodeBody).toNat ++ r.encodeBody := by
        rw [hbody, ← hcrc, toBeBytes_slice rfl (by omega)]
    _ = r.encodeToVec hash := rfl

/-- What decodes has fields of 64 bits and a body length of 32. -/
theorem fits_of_decode_ok (h : decode hash buf = .ok (r, n)) : r.Fits := by
  obtain ⟨hsize, hbound, -⟩ := encodedSize_of_decode_ok h
  obtain ⟨-, -, -, -, hr⟩ := decode_eq_ok_iff.mp h
  have hpayload : r.encodedSize = 48 + r.payload.length := rfl
  have hbody : r.payload.length + 40 < 256 ^ 4 := by omega
  rw [hr] at hbody ⊢
  exact ⟨fromBeBytes_slice_lt buf 8 8, fromBeBytes_slice_lt buf 16 8, fromBeBytes_slice_lt buf 24 8,
    fromBeBytes_slice_lt buf 32 8, fromBeBytes_slice_lt buf 40 8, hbody⟩

end WalRecord

/-! ### The scan of arbitrary bytes -/

open WalRecord

variable {hash : Bytes → UInt32} {data : Bytes}

/-- **Every byte string is the images of whole records and then a rest** that does
not decode, or that the decoder panics on. -/
theorem exists_wholeRecords (hash : Bytes → UInt32) (data : Bytes) :
    ∃ rs rest, (∀ r ∈ rs, r.Fits) ∧ data = encodeAll hash rs ++ rest ∧
      ((∃ e, WalRecord.decode hash rest = .err e) ∨ ShortHeader hash rest) := by
  induction hn : data.length using Nat.strongRecOn generalizing data with
  | _ n ih =>
    cases hdec : WalRecord.decode hash data with
    | err e => exact ⟨[], data, by simp, by simp, Or.inl ⟨e, hdec⟩⟩
    | panic => exact ⟨[], data, by simp, by simp, Or.inr (decode_eq_panic_iff.mp hdec)⟩
    | ok found =>
        obtain ⟨r, k⟩ := found
        obtain ⟨hlow, hhigh⟩ := length_of_decode_ok hdec
        -- A record takes at least a header, so the rest is shorter.
        have hless : (data.drop k).length < n := by
          unfold recordHeaderSize at hlow
          rw [List.length_drop]
          omega
        obtain ⟨rs, rest, hfits, hsplit, hrest⟩ := ih _ hless (data.drop k) rfl
        refine ⟨r :: rs, rest, ?_, ?_, hrest⟩
        · intro r' hr'
          rcases List.mem_cons.mp hr' with rfl | hr'
          · exact fits_of_decode_ok hdec
          · exact hfits r' hr'
        · rw [encodeAll_cons, List.append_assoc, ← hsplit, ← take_of_decode_ok hdec,
            List.take_append_drop]

/-- The bytes are whole records and then a short header. -/
def MeetsShortHeader (hash : Bytes → UInt32) (data : Bytes) : Prop :=
  ∃ rs rest, (∀ r ∈ rs, r.Fits) ∧ data = encodeAll hash rs ++ rest ∧ ShortHeader hash rest

/-- The scan ended with the records that the bytes start with, up to bytes that do
not decode. -/
def RecoveredPrefix (hash : Bytes → UInt32) (data : Bytes)
    (result : Outcome WalWriterError (List (WalRecord × RecordLocation))) : Prop :=
  ∃ rs tail found, data = encodeAll hash rs ++ tail ∧
    (∃ e, WalRecord.decode hash tail = .err e) ∧ result = .ok found ∧ found.map Prod.fst = rs

/-- The scan panics where the decoder does. -/
theorem scanRecords_of_panic {segmentId offset : Nat}
    (h : WalRecord.decode hash (data.drop offset) = .panic) :
    scanRecords hash segmentId data offset = .panic := by
  have hlt : offset < data.length := by
    have hroom := (decode_eq_panic_iff.mp h).room
    unfold recordHeaderSize at hroom
    rw [List.length_drop] at hroom
    omega
  rw [scanRecords, dif_pos hlt]
  split
  · rename_i hdec
    rw [h] at hdec
    cases hdec
  · rename_i hdec
    rw [h] at hdec
    cases hdec
  · rfl

/-- **A short header behind whole records** makes the scan panic. -/
theorem scanRecords_shortHeader (h : MeetsShortHeader hash data) (segmentId : Nat) (pre : Bytes) :
    scanRecords hash segmentId (pre ++ data) pre.length = .panic := by
  obtain ⟨rs, rest, hfits, rfl, hshort⟩ := h
  have hend : (pre ++ (encodeAll hash rs ++ rest)).drop (pre.length + (encodeAll hash rs).length) =
      rest := by
    rw [← List.append_assoc, ← List.length_append, List.drop_left]
  have hpanic := decode_eq_panic_iff.mpr hshort
  rw [← hend] at hpanic
  rw [scanRecords_encodeAll hfits, scanRecords_of_panic hpanic, Outcome.bind_panic]

/-- The scan of arbitrary bytes ends in one of two ways. -/
theorem scanRecords_cases (hash : Bytes → UInt32) (segmentId : Nat) (pre data : Bytes) :
    MeetsShortHeader hash data ∨
      RecoveredPrefix hash data (scanRecords hash segmentId (pre ++ data) pre.length) := by
  obtain ⟨rs, rest, hfits, rfl, herr | hshort⟩ := exists_wholeRecords hash data
  · refine Or.inr ⟨rs, rest, _, rfl, herr, scanRecords_layout hfits (Or.inr herr) pre, ?_⟩
    exact map_fst_layout segmentId pre.length rs
  · exact Or.inl ⟨rs, rest, hfits, rfl, hshort⟩

/-- **When the scan ends in a recovered prefix.** -/
theorem recoveredPrefix_iff (segmentId : Nat) (pre : Bytes) :
    RecoveredPrefix hash data (scanRecords hash segmentId (pre ++ data) pre.length) ↔
      ¬ MeetsShortHeader hash data := by
  constructor
  · rintro ⟨-, -, found, -, -, hfound, -⟩ hshort
    rw [scanRecords_shortHeader hshort segmentId pre] at hfound
    cases hfound
  · intro h
    exact (scanRecords_cases hash segmentId pre data).resolve_left h

/-! ### The files of a directory -/

namespace SegmentFile

/-- The header of the file is whole, and recovery accepts it. -/
def Accepted (f : SegmentFile) : Prop :=
  segmentHeaderSize ≤ f.content.length ∧
    ∃ fields, decodeSegmentHeader (f.content.take segmentHeaderSize) = .ok fields

/-- Recovery does not stop at the header of the file. -/
def Passed (f : SegmentFile) : Prop :=
  f.content.length < segmentHeaderSize ∨ f.Accepted

/-- Recovery scans the file and meets a short header in it. -/
def Poisoned (hash : Bytes → UInt32) (f : SegmentFile) : Prop :=
  f.Accepted ∧ MeetsShortHeader hash (f.content.drop segmentHeaderSize)

/-- What the scan of a file with a whole header ends in. -/
theorem scan_cases (hash : Bytes → UInt32) {f : SegmentFile}
    (h : segmentHeaderSize ≤ f.content.length) :
    (MeetsShortHeader hash (f.content.drop segmentHeaderSize) ∧
      scanRecords hash f.segmentId f.content segmentHeaderSize = .panic) ∨
    (¬ MeetsShortHeader hash (f.content.drop segmentHeaderSize) ∧
      ∃ found, scanRecords hash f.segmentId f.content segmentHeaderSize = .ok found) := by
  have hlen : (f.content.take segmentHeaderSize).length = segmentHeaderSize := by
    rw [List.length_take]
    omega
  have hparts : f.content.take segmentHeaderSize ++ f.content.drop segmentHeaderSize = f.content :=
    List.take_append_drop _ _
  by_cases hshort : MeetsShortHeader hash (f.content.drop segmentHeaderSize)
  · left
    have hpanic := scanRecords_shortHeader hshort f.segmentId (f.content.take segmentHeaderSize)
    rw [hparts, hlen] at hpanic
    exact ⟨hshort, hpanic⟩
  · right
    have hfound := (recoveredPrefix_iff f.segmentId (f.content.take segmentHeaderSize)).mpr hshort
    rw [hparts, hlen] at hfound
    obtain ⟨-, -, found, -, -, hfound, -⟩ := hfound
    exact ⟨hshort, found, hfound⟩

end SegmentFile

/-- **When the replay of the files panics**: at a poisoned file behind files whose
headers it passes. -/
theorem replaySegments_eq_panic_iff (hash : Bytes → UInt32) (files : List SegmentFile) :
    replaySegments hash files = .panic ↔
      ∃ before f behind, files = before ++ f :: behind ∧ (∀ g ∈ before, g.Passed) ∧
        f.Poisoned hash := by
  induction files with
  | nil => simp [replaySegments]
  | cons f fs ih =>
      -- A file that is passed and not poisoned leaves the matter to those behind it.
      have hskip : f.Passed → ¬ f.Poisoned hash →
          ((∃ before g behind, fs = before ++ g :: behind ∧ (∀ g ∈ before, g.Passed) ∧
              g.Poisoned hash) ↔
            ∃ before g behind, f :: fs = before ++ g :: behind ∧ (∀ g ∈ before, g.Passed) ∧
              g.Poisoned hash) := by
        intro hpassed hclean
        constructor
        · rintro ⟨before, g, behind, rfl, hbefore, hg⟩
          refine ⟨f :: before, g, behind, rfl, ?_, hg⟩
          intro g' hg'
          rcases List.mem_cons.mp hg' with rfl | hg'
          · exact hpassed
          · exact hbefore g' hg'
        · rintro ⟨before, g, behind, hfiles, hbefore, hg⟩
          cases before with
          | nil =>
              cases hfiles
              exact absurd hg hclean
          | cons f' before =>
              cases hfiles
              exact ⟨before, g, behind, rfl, fun g' hg' => hbefore g' (List.mem_cons_of_mem _ hg'),
                hg⟩
      rw [replaySegments]
      split
      · rename_i hheader
        rw [ih]
        exact hskip (Or.inl hheader) fun hpoisoned =>
          absurd hpoisoned.1.1 (Nat.not_le_of_lt hheader)
      · rename_i hheader
        have hwhole : segmentHeaderSize ≤ f.content.length := Nat.le_of_not_lt hheader
        split
        · -- A refused header ends recovery with an error.
          rename_i e he
          constructor
          · intro h
            cases h
          · rintro ⟨before, g, behind, hfiles, hbefore, hg⟩
            have hrefused : ¬ f.Accepted := by
              rintro ⟨-, fields, hfields⟩
              rw [he] at hfields
              cases hfields
            cases before with
            | nil =>
                cases hfiles
                exact absurd hg.1 hrefused
            | cons f' before =>
                cases hfiles
                exact ((hbefore f (by simp)).elim hheader hrefused).elim
        · rename_i fields hfields
          have haccepted : f.Accepted := ⟨hwhole, fields, hfields⟩
          rcases SegmentFile.scan_cases hash hwhole with ⟨hshort, hpanic⟩ | ⟨hclean, found, hfound⟩
          · rw [hpanic, Outcome.bind_panic]
            exact ⟨fun _ => ⟨[], f, fs, rfl, by simp, haccepted, hshort⟩, fun _ => rfl⟩
          · rw [hfound, Outcome.bind_ok, ← hskip (Or.inr haccepted) fun h => hclean h.2, ← ih]
            cases replaySegments hash fs <;> simp

/-- Opening the log panics exactly when the replay of its files does. -/
theorem openWriter_eq_panic_iff (hash : Bytes → UInt32) (shardId : Nat) (dir : ShardDir)
    (maxSegmentBytes tailCacheEntries : Nat) (recoveredStreams : Option StreamStateTable)
    (replayFromEntryIdExclusive createdTsNs : Nat) :
    WalWriter.openWriter hash shardId dir maxSegmentBytes tailCacheEntries recoveredStreams
        replayFromEntryIdExclusive createdTsNs = .panic ↔
      replaySegments hash dir.files = .panic := by
  unfold WalWriter.openWriter
  cases replaySegments hash dir.files with
  | err e => simp
  | panic => simp
  | ok found =>
      rw [Outcome.bind_ok]
      cases dir.files.getLast? with
      | some f => simp
      | none =>
          simp only [createSegment]
          cases dir.find 0 <;> simp

/-- **When recovery is safe.** The decoder returns, with a length between a header's
and the buffer's, exactly when the buffer does not start with a short header. The
scan ends in a recovered prefix exactly when no such header follows the whole
records, and opening the log aborts exactly when it scans a file with one. -/
theorem recovery_safe_iff_no_shortHeader (hash : Bytes → UInt32) :
    (∀ buf, (WalRecord.decode hash buf ≠ .panic ∧ ∀ r n, WalRecord.decode hash buf = .ok (r, n) →
        recordHeaderSize ≤ n ∧ n ≤ buf.length) ↔ ¬ ShortHeader hash buf) ∧
    (∀ segmentId header data,
      RecoveredPrefix hash data (scanRecords hash segmentId (header ++ data) header.length) ↔
        ¬ MeetsShortHeader hash data) ∧
    (∀ shardId (dir : ShardDir) maxSegmentBytes tailCacheEntries recoveredStreams
        replayFromEntryIdExclusive createdTsNs,
      WalWriter.openWriter hash shardId dir maxSegmentBytes tailCacheEntries recoveredStreams
          replayFromEntryIdExclusive createdTsNs ≠ .panic ↔
        ¬ ∃ before f behind, dir.files = before ++ f :: behind ∧ (∀ g ∈ before, g.Passed) ∧
          f.Poisoned hash) := by
  refine ⟨fun buf => ?_, fun segmentId header data => recoveredPrefix_iff segmentId header, ?_⟩
  · constructor
    · rintro ⟨hreturns, -⟩ hshort
      exact hreturns (decode_eq_panic_iff.mpr hshort)
    · intro hlong
      exact ⟨fun hpanic => hlong (decode_eq_panic_iff.mp hpanic), fun r n => length_of_decode_ok⟩
  · intro shardId dir maxSegmentBytes tailCacheEntries recoveredStreams
      replayFromEntryIdExclusive createdTsNs
    rw [ne_eq, openWriter_eq_panic_iff, replaySegments_eq_panic_iff]

/-- The checksum of four zero bytes, and zeros: a header with a body length of zero. -/
def shortHeaderBytes : Bytes := [0x21, 0x44, 0xDF, 0x1C] ++ List.replicate 44 0

/-- A buffer on which the decoder panics, and a segment on which the scan does. -/
theorem recovery_panics :
    WalRecord.decode crc32 shortHeaderBytes = .panic ∧
      ∀ segmentId header, scanRecords crc32 segmentId (header ++ shortHeaderBytes) header.length =
        .panic := by
  have hshort : ShortHeader crc32 shortHeaderBytes :=
    ⟨by decide, by decide, by decide +kernel⟩
  refine ⟨decode_eq_panic_iff.mpr hshort, fun segmentId header => ?_⟩
  exact scanRecords_shortHeader ⟨[], shortHeaderBytes, by simp, by simp, hshort⟩ segmentId header

/-! ### Exact locations -/

/-- Where the scan should find records: each behind those before it, at its size. -/
def recordPlaces (segmentId start : Nat) (rs : List WalRecord) :
    List (WalRecord × RecordLocation) :=
  rs.mapIdx fun i r =>
    (r, ⟨segmentId, start + ((rs.take i).map encodedSize).sum, r.encodedSize⟩)

/-- The layout lists the places, with sizes cut to 32 bits. -/
theorem layout_eq_recordPlaces_iff (segmentId start : Nat) (rs : List WalRecord) :
    layout segmentId start rs = recordPlaces segmentId start rs ↔
      ∀ r ∈ rs, r.encodedSize < 2 ^ 32 := by
  induction rs generalizing start with
  | nil => simp [layout, recordPlaces]
  | cons r rs ih =>
      have htail : recordPlaces segmentId start (r :: rs) =
          (r, ⟨segmentId, start, r.encodedSize⟩) ::
            recordPlaces segmentId (start + r.encodedSize) rs := by
        simp [recordPlaces, List.mapIdx_cons, Nat.add_assoc]
      have hmod : r.encodedSize % 2 ^ 32 = r.encodedSize ↔ r.encodedSize < 2 ^ 32 := by
        constructor
        · intro h
          rw [← h]
          exact Nat.mod_lt _ (by decide)
        · exact Nat.mod_eq_of_lt
      rw [layout, htail, List.cons.injEq, ih (start + r.encodedSize), List.forall_mem_cons, ← hmod]
      simp

/-- **The encoder and the scan are inverse** as far as 32 bits hold the sizes: over
the images of records and a tail that does not decode, the scan yields the records
at their places exactly when every image is shorter than `2 ^ 32` bytes. What
decodes is always the image of its record. -/
theorem scan_exact_iff_sizes_fit (hash : Bytes → UInt32) (segmentId : Nat) (header : Bytes)
    (hheader : header.length = segmentHeaderSize) (rs : List WalRecord)
    (hfits : ∀ r ∈ rs, r.Fits) (tail : Bytes)
    (htail : ∃ e, WalRecord.decode hash tail = .err e) :
    (scanRecords hash segmentId (header ++ (encodeAll hash rs ++ tail)) segmentHeaderSize =
        .ok (recordPlaces segmentId segmentHeaderSize rs) ↔
      ∀ r ∈ rs, r.encodedSize < 2 ^ 32) ∧
    ∀ buf r n, WalRecord.decode hash buf = .ok (r, n) → buf.take n = r.encodeToVec hash := by
  refine ⟨?_, fun buf r n => take_of_decode_ok⟩
  rw [← hheader, scanRecords_layout hfits (Or.inr htail) header, hheader, Outcome.ok.injEq]
  exact layout_eq_recordPlaces_iff segmentId segmentHeaderSize rs

/-- A record and a torn tail. -/
theorem scan_exact_of_two :
    scanRecords crc32 0 (List.replicate 64 0 ++ (encodeAll crc32
        [⟨1, 2, 3, 4, 5, [6, 7]⟩, ⟨1, 2, 4, 5, 6, []⟩] ++ [0, 0, 0])) segmentHeaderSize =
      .ok [(⟨1, 2, 3, 4, 5, [6, 7]⟩, ⟨0, 64, 50⟩), (⟨1, 2, 4, 5, 6, []⟩, ⟨0, 114, 48⟩)] := by
  refine (scan_exact_iff_sizes_fit crc32 0 (List.replicate 64 0) (by decide)
    [⟨1, 2, 3, 4, 5, [6, 7]⟩, ⟨1, 2, 4, 5, 6, []⟩] ?_ [0, 0, 0] ⟨_, decode_short (by decide)⟩).1.mpr
    (by decide)
  intro r hr
  simp only [List.mem_cons, List.not_mem_nil, or_false] at hr
  rcases hr with rfl | rfl <;>
    exact ⟨by decide, by decide, by decide, by decide, by decide, by decide⟩

/-- A record whose image is exactly `2 ^ 32` bytes long. -/
def wideRecord : WalRecord := ⟨0, 0, 0, 0, 0, List.replicate (2 ^ 32 - 48) 0⟩

/-- The scan finds a record of that size and says that it takes no bytes. -/
theorem scan_truncates_size :
    (∀ r ∈ [wideRecord], r.payload.length < 2 ^ 32 - 40) ∧
      (∃ e, WalRecord.decode crc32 [] = .err e) ∧
      ¬ scanRecords crc32 0 (List.replicate 64 0 ++ (encodeAll crc32 [wideRecord] ++ []))
          segmentHeaderSize = .ok (recordPlaces 0 segmentHeaderSize [wideRecord]) := by
  have hlength : wideRecord.payload.length = 2 ^ 32 - 48 := by
    rw [wideRecord, List.length_replicate]
  have hsize : ∀ r : WalRecord, r.encodedSize = 48 + r.payload.length := fun _ => rfl
  have hpayload : wideRecord.payload.length + 40 < 256 ^ 4 := by
    omega
  have hfits : ∀ r ∈ [wideRecord], r.Fits := by
    intro r hr
    rw [List.mem_singleton.mp hr]
    exact ⟨by decide, by decide, by decide, by decide, by decide, hpayload⟩
  refine ⟨?_, ⟨_, decode_short (by decide)⟩, ?_⟩
  · intro r hr
    rw [List.mem_singleton.mp hr]
    omega
  · have hheader : (List.replicate 64 (0 : UInt8)).length = segmentHeaderSize := by decide
    rw [← hheader, scanRecords_layout hfits (Or.inl rfl), Outcome.ok.injEq,
      layout_eq_recordPlaces_iff]
    intro h
    have hlt := h wideRecord (by simp)
    rw [hsize, hlength] at hlt
    omega

end WalServer.Wal
