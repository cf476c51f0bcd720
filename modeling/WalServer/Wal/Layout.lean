import WalServer.Wal.Writer
import Mathlib.Data.List.Induction

/-!
# `WalServer.Wal.Layout`: what a segment file holds

A segment file that was written by appends and cut by crashes holds whole records
and then at most a torn one: `Holds` says so of a file and the list of its
records. Cutting the file keeps this, with the records that lie whole within the
cut (`wholeWithin`, `Holds.take`).

From files that hold records the recovery scan finds exactly these, each where it
lies (`replaySegments_holds`), a location the scan gives reads back as its record
(`readRecordAt_layout`), and the rebuilt index leads from a record's position to
a record of that position that is found at or after it (`indexRecords_later`).
-/

set_option autoImplicit false

namespace WalServer.Wal

open WalServer.Lib WalServer.Shard

/-- Reads a location and decodes what is there, as the reader does: the bytes of
the location must all be in the file. -/
def ShardDir.readRecordAt (hash : Bytes → UInt32) (d : ShardDir) (loc : RecordLocation) :
    Option WalRecord :=
  match d.find loc.segmentId with
  | none   => none
  | some f =>
      if f.content.length < loc.offset + loc.size then none
      else
        match WalRecord.decode hash (slice f.content loc.offset (loc.offset + loc.size)) with
        | .ok (record, _) => some record
        | _               => none

/-- The records of a list whose images lie whole within the first `k` bytes. -/
def wholeWithin : Nat → List WalRecord → List WalRecord
  | _, []      => []
  | k, r :: rs => if r.encodedSize ≤ k then r :: wholeWithin (k - r.encodedSize) rs else []

section

variable (hash : Bytes → UInt32)

/-- A strict start of a record's image. -/
def Torn (tail : Bytes) : Prop :=
  ∃ r : WalRecord, r.Fits ∧ ∃ k < r.encodedSize, tail = (r.encodeToVec hash).take k

/-- A header that is accepted, then the images of the records, then a torn one. -/
structure Whole (content : Bytes) (rs : List WalRecord) : Prop where
  fits : ∀ r ∈ rs, r.Fits
  split : ∃ header tail, header.length = segmentHeaderSize ∧
    (∃ fields, decodeSegmentHeader header = .ok fields) ∧ Torn hash tail ∧
    content = header ++ (encodeAll hash rs ++ tail)

/-- What a segment file holds: no whole header and no records, or both. -/
def Holds (f : SegmentFile) (rs : List WalRecord) : Prop :=
  (f.content.length < segmentHeaderSize ∧ rs = []) ∨ Whole hash f.content rs

end

variable {hash : Bytes → UInt32}

/-! ### Cutting -/

theorem torn_nil : Torn hash [] :=
  ⟨⟨0, 0, 0, 0, 0, []⟩, ⟨by decide, by decide, by decide, by decide, by decide, by decide⟩, 0,
    by decide, rfl⟩

theorem Torn.take {tail : Bytes} (h : Torn hash tail) (k : Nat) : Torn hash (tail.take k) := by
  obtain ⟨r, hr, j, hj, rfl⟩ := h
  exact ⟨r, hr, min k j, by omega, by rw [List.take_take]⟩

/-- Torn bytes do not decode. -/
theorem Torn.decode {tail : Bytes} (h : Torn hash tail) :
    tail = [] ∨ ∃ e, WalRecord.decode hash tail = .err e := by
  obtain ⟨r, hr, k, hk, rfl⟩ := h
  exact Or.inr ⟨_, WalRecord.decode_torn hr hk⟩

/-- The first bytes of some records and a torn one: whole records and a torn one. -/
theorem take_encodeAll {rs : List WalRecord} (hfits : ∀ r ∈ rs, r.Fits) {tail : Bytes}
    (htail : Torn hash tail) (k : Nat) :
    ∃ tail', Torn hash tail' ∧
      (encodeAll hash rs ++ tail).take k = encodeAll hash (wholeWithin k rs) ++ tail' := by
  induction rs generalizing k with
  | nil => exact ⟨tail.take k, htail.take k, rfl⟩
  | cons r rs ih =>
      have hr : r.Fits := hfits r List.mem_cons_self
      rw [wholeWithin, encodeAll_cons, List.append_assoc]
      by_cases hle : r.encodedSize ≤ k
      · -- The first record stays whole; the cut is among the rest.
        obtain ⟨tail', htail', hrest⟩ :=
          ih (fun r' hr' => hfits r' (List.mem_cons_of_mem r hr')) (k - r.encodedSize)
        refine ⟨tail', htail', ?_⟩
        rw [if_pos hle, List.take_append, WalRecord.length_encodeToVec, hrest,
          List.take_of_length_le (by rw [WalRecord.length_encodeToVec]; exact hle), encodeAll_cons,
          List.append_assoc]
      · -- The cut tears the first record.
        rw [if_neg hle]
        refine ⟨(r.encodeToVec hash).take k, ⟨r, hr, k, Nat.lt_of_not_le hle, rfl⟩, ?_⟩
        rw [List.take_append_of_le_length (by rw [WalRecord.length_encodeToVec]; omega)]
        rfl

/-- Records that lie within the cut are whole, and the cut goes on behind them. -/
theorem wholeWithin_append (rs rs' : List WalRecord) {k : Nat}
    (hle : (encodeAll hash rs).length ≤ k) :
    wholeWithin k (rs ++ rs') = rs ++ wholeWithin (k - (encodeAll hash rs).length) rs' := by
  induction rs generalizing k with
  | nil => rfl
  | cons r rs ih =>
      rw [encodeAll_cons, List.length_append, WalRecord.length_encodeToVec] at hle ⊢
      rw [List.cons_append, wholeWithin, if_pos (by omega), ih (by omega), List.cons_append]
      congr 3
      omega

variable (hash) in
/-- A cut beyond the end cuts nothing. -/
theorem wholeWithin_min (rs : List WalRecord) (k : Nat) :
    wholeWithin (min k (encodeAll hash rs).length) rs = wholeWithin k rs := by
  induction rs generalizing k with
  | nil => rfl
  | cons r rs ih =>
      rw [wholeWithin, wholeWithin, encodeAll_cons, List.length_append,
        WalRecord.length_encodeToVec]
      by_cases hle : r.encodedSize ≤ k
      · have hmin : min k (r.encodedSize + (encodeAll hash rs).length) - r.encodedSize =
            min (k - r.encodedSize) (encodeAll hash rs).length := by omega
        rw [if_pos (by omega), if_pos hle, hmin, ih]
      · rw [if_neg (by omega), if_neg hle]

/-- A cut before the first byte leaves no record. -/
theorem wholeWithin_zero (rs : List WalRecord) : wholeWithin 0 rs = [] := by
  cases rs with
  | nil => rfl
  | cons r rs =>
      have hpos := WalRecord.recordHeaderSize_le_encodedSize r
      unfold recordHeaderSize at hpos
      rw [wholeWithin, if_neg (by omega)]

/-- The records within a cut are among the records. -/
theorem mem_of_mem_wholeWithin {k : Nat} {rs : List WalRecord} {r : WalRecord}
    (h : r ∈ wholeWithin k rs) : r ∈ rs := by
  induction rs generalizing k with
  | nil => exact h
  | cons x rs ih =>
      rw [wholeWithin] at h
      split at h
      · rcases List.mem_cons.mp h with rfl | h
        · exact List.mem_cons_self
        · exact List.mem_cons_of_mem x (ih h)
      · cases h

/-- What a cut of a file with a whole header holds, when the cut keeps the header. -/
theorem Whole.take {content : Bytes} {rs : List WalRecord} (h : Whole hash content rs) {k : Nat}
    (hk : segmentHeaderSize ≤ k) :
    Whole hash (content.take k) (wholeWithin (k - segmentHeaderSize) rs) := by
  obtain ⟨header, tail, hlen, hheader, htail, rfl⟩ := h.split
  obtain ⟨tail', htail', htake⟩ := take_encodeAll h.fits htail (k - segmentHeaderSize)
  refine ⟨fun r hr => ?_, header, tail', hlen, hheader, htail', ?_⟩
  · exact h.fits r (mem_of_mem_wholeWithin hr)
  · rw [List.take_append, hlen, htake, List.take_of_length_le (by omega)]

/-- Appending a record's image to whole records without a torn one. -/
theorem Whole.append {content : Bytes} {rs : List WalRecord} (h : Whole hash content rs)
    (hclean : content.length = segmentHeaderSize + (encodeAll hash rs).length) {r : WalRecord}
    (hr : r.Fits) : Whole hash (content ++ r.encodeToVec hash) (rs ++ [r]) := by
  obtain ⟨header, tail, hlen, hheader, htail, rfl⟩ := h.split
  refine ⟨fun r' hr' => ?_, header, [], hlen, hheader, torn_nil, ?_⟩
  · rcases List.mem_append.mp hr' with hold | hnew
    · exact h.fits r' hold
    · rw [List.mem_singleton.mp hnew]
      exact hr
  · have hnil : tail = [] := by
      rw [List.length_append, List.length_append] at hclean
      exact List.eq_nil_of_length_eq_zero (by omega)
    subst hnil
    simp [encodeAll_append]

/-! ### Scanning -/

/-- The records of a file with their locations. -/
def fileLayout (f : SegmentFile) (rs : List WalRecord) : List (WalRecord × RecordLocation) :=
  layout f.segmentId segmentHeaderSize rs

/-- The recovery scan of a file with a whole header. -/
theorem scanRecords_whole {f : SegmentFile} {rs : List WalRecord}
    (h : Whole hash f.content rs) :
    scanRecords hash f.segmentId f.content segmentHeaderSize = .ok (fileLayout f rs) := by
  obtain ⟨header, tail, hlen, -, htail, hcontent⟩ := h.split
  rw [hcontent, ← hlen, fileLayout, ← hlen]
  exact scanRecords_layout h.fits htail.decode header

/-- **What recovery finds** in files that hold records. -/
theorem replaySegments_holds {files : List SegmentFile} {rss : List (List WalRecord)}
    (h : List.Forall₂ (Holds hash) files rss) :
    replaySegments hash files = .ok (List.zipWith fileLayout files rss).flatten := by
  induction h with
  | nil => rfl
  | @cons f rs files rss hf _ ih =>
      rw [replaySegments, List.zipWith_cons_cons, List.flatten_cons]
      rcases hf with ⟨hshort, rfl⟩ | hwhole
      · rw [if_pos hshort, ih]
        rfl
      · obtain ⟨header, tail, hlen, ⟨fields, hfields⟩, -, hcontent⟩ := hwhole.split
        have htake : f.content.take segmentHeaderSize = header := by
          rw [hcontent, ← hlen, List.take_left]
        have hlong : ¬ f.content.length < segmentHeaderSize := by
          rw [hcontent, List.length_append, hlen]
          omega
        rw [if_neg hlong, htake, hfields]
        simp only [scanRecords_whole hwhole, ih, Outcome.bind_ok]

/-- The records found, in order. -/
theorem map_fst_found {files : List SegmentFile} {rss : List (List WalRecord)}
    (h : List.Forall₂ (Holds hash) files rss) :
    (List.zipWith fileLayout files rss).flatten.map Prod.fst = rss.flatten := by
  induction h with
  | nil => rfl
  | cons _ _ ih =>
      rw [List.zipWith_cons_cons, List.flatten_cons, List.map_append, ih, List.flatten_cons,
        fileLayout, map_fst_layout]

/-- Where a record of a layout lies. -/
theorem mem_layout_split {segmentId offset : Nat} {rs : List WalRecord}
    {p : WalRecord × RecordLocation} (h : p ∈ layout segmentId offset rs) (hash : Bytes → UInt32) :
    ∃ rs₁ rs₂, rs = rs₁ ++ p.1 :: rs₂ ∧ p.2 = ⟨segmentId,
      offset + (encodeAll hash rs₁).length, p.1.encodedSize % 2 ^ 32⟩ := by
  induction rs generalizing offset with
  | nil => cases h
  | cons r rs ih =>
      rcases List.mem_cons.mp h with rfl | hmem
      · exact ⟨[], rs, rfl, rfl⟩
      · obtain ⟨rs₁, rs₂, hrs, hloc⟩ := ih hmem
        refine ⟨r :: rs₁, rs₂, by rw [hrs]; rfl, ?_⟩
        rw [hloc, encodeAll_cons, List.length_append, WalRecord.length_encodeToVec, Nat.add_assoc]

/-- **A location reads back as its record**, when the record's size fits the
location's field. -/
theorem readRecordAt_layout {d : ShardDir} {f : SegmentFile} (hf : f ∈ d.files)
    {rs : List WalRecord} (h : Holds hash f rs) {p : WalRecord × RecordLocation}
    (hp : p ∈ fileLayout f rs) (hsize : p.1.encodedSize < 2 ^ 32) :
    d.readRecordAt hash p.2 = some p.1 := by
  rcases h with ⟨-, rfl⟩ | hwhole
  · cases hp
  · obtain ⟨header, tail, hlen, -, -, hcontent⟩ := hwhole.split
    obtain ⟨rs₁, rs₂, hrs, hloc⟩ := mem_layout_split hp hash
    have hfits : p.1.Fits := hwhole.fits _ (by
      rw [hrs]
      exact List.mem_append_right _ List.mem_cons_self)
    have hfind : d.find p.2.segmentId = some f := by
      rw [hloc]
      exact ShardDir.find_eq_some.mpr ⟨hf, rfl⟩
    have hbytes : f.content = (header ++ encodeAll hash rs₁) ++
        (p.1.encodeToVec hash ++ (encodeAll hash rs₂ ++ tail)) := by
      rw [hcontent, hrs, encodeAll_append, encodeAll_cons]
      simp only [List.append_assoc]
    have hslice : slice f.content p.2.offset (p.2.offset + p.2.size) = p.1.encodeToVec hash := by
      rw [hbytes, hloc]
      refine slice_append_mid ?_ ?_
      · rw [List.length_append, hlen]
      · rw [WalRecord.length_encodeToVec, Nat.mod_eq_of_lt hsize]
    have hroom : ¬ f.content.length < p.2.offset + p.2.size := by
      rw [hbytes, hloc]
      simp only [List.length_append, WalRecord.length_encodeToVec, hlen, Nat.mod_eq_of_lt hsize]
      omega
    unfold ShardDir.readRecordAt
    rw [hfind]
    simp only [if_neg hroom, hslice, WalRecord.decode_encode hfits]

/-! ### The rebuilt index -/

/-- The index of one more found record. -/
theorem indexRecords_concat (found : List (WalRecord × RecordLocation))
    (p : WalRecord × RecordLocation) :
    indexRecords (found ++ [p]) =
      (indexRecords found).insert p.1.streamId p.1.streamLsn p.2 := by
  unfold indexRecords
  rw [List.foldl_append]
  rfl

/-- **The index leads to the latest record of a position.** From a record that
was found it leads to one of the same stream and position found at or after it. -/
theorem indexRecords_later (found : List (WalRecord × RecordLocation)) {i : Nat}
    {p : WalRecord × RecordLocation} (hi : found[i]? = some p) :
    ∃ j q, i ≤ j ∧ found[j]? = some q ∧ q.1.streamId = p.1.streamId ∧
      q.1.streamLsn = p.1.streamLsn ∧
      (indexRecords found).lookup p.1.streamId p.1.streamLsn = some q.2 := by
  induction found using List.reverseRecOn with
  | nil => cases hi
  | append_singleton found last ih =>
      have hlast : (found ++ [last])[found.length]? = some last := List.getElem?_concat_length
      rw [indexRecords_concat, StreamLogIndex.lookup_insert]
      by_cases hkey : p.1.streamId = last.1.streamId ∧ p.1.streamLsn = last.1.streamLsn
      · -- The last record found has the position, so the index leads to it.
        have hle : i ≤ found.length := by
          obtain ⟨hlt, -⟩ := List.getElem?_eq_some_iff.mp hi
          rw [List.length_append, List.length_singleton] at hlt
          omega
        exact ⟨found.length, last, hle, hlast, hkey.1.symm, hkey.2.symm, by rw [if_pos hkey]⟩
      · rw [if_neg hkey]
        rcases Nat.lt_or_ge i found.length with hlt | hge
        · rw [List.getElem?_append_left hlt] at hi
          obtain ⟨j, q, hij, hq, hs, hl, hlookup⟩ := ih hi
          have hjlt : j < found.length := (List.getElem?_eq_some_iff.mp hq).1
          exact ⟨j, q, hij, by rw [List.getElem?_append_left hjlt]; exact hq, hs, hl, hlookup⟩
        · exfalso
          rw [List.getElem?_append_right hge] at hi
          rw [List.mem_singleton.mp (List.mem_of_getElem? hi)] at hkey
          exact hkey ⟨rfl, rfl⟩

end WalServer.Wal
