import WalServer.Wal.Crash

/-!
# `WalServer.Wal.Recovery`: what recovery finds after any number of crashes

The invariant of the permitted histories (`LaidOut`): the full segments hold
their records and are synced; the current one holds its synced records, whole
within its synced bytes, and then the unsynced ones. `wellLaid_step` keeps it over
every step, a crash included, and `WellLaid.recovers` reads recovery off it.
-/

set_option autoImplicit false

namespace WalServer.Wal

open WalServer.Lib WalServer.Shard

/-! ### Opening a directory whose files hold records -/

section

variable {hash : Bytes → UInt32} {shardId : Nat}

/-- What was found in the files that hold the records. -/
def foundIn (files : List SegmentFile) (rss : List (List WalRecord)) :
    List (WalRecord × RecordLocation) :=
  (List.zipWith fileLayout files rss).flatten

variable (shardId) in
/-- **Opening succeeds** on files that hold records, and goes on at the end of
the last one with the index of all that was found. -/
theorem openDir_holds {d : ShardDir} {pre : List SegmentFile} {last : SegmentFile}
    (hfiles : d.files = pre ++ [last]) {rss : List (List WalRecord)}
    (hholds : List.Forall₂ (Holds hash) d.files rss) (args : OpenArgs) :
    ∃ w streams, openDir hash shardId d args =
        .ok (w, d, indexRecords (foundIn d.files rss), streams) ∧
      w.currentSegmentId = last.segmentId ∧ w.currentOffset = last.content.length ∧
      w.nextSegmentId = last.segmentId + 1 := by
  have hlast : d.files.getLast? = some last := by rw [hfiles, List.getLast?_concat]
  refine ⟨⟨shardId, last.segmentId, last.content.length, nextEntryIdOf (foundIn d.files rss),
    last.segmentId + 1, args.maxSegmentBytes⟩,
    recoverStreams (args.recoveredStreams.getD (.new args.tailCacheEntries))
      args.replayFromEntryIdExclusive ((foundIn d.files rss).map Prod.fst), ?_, rfl, rfl, rfl⟩
  unfold openDir WalWriter.openWriter
  rw [replaySegments_holds hholds, Outcome.bind_ok, hlast]
  rfl

/-- The records found come from one of the files. -/
theorem mem_foundIn {files : List SegmentFile} {rss : List (List WalRecord)}
    (hholds : List.Forall₂ (Holds hash) files rss) {p : WalRecord × RecordLocation}
    (hp : p ∈ foundIn files rss) :
    ∃ f ∈ files, ∃ rs, Holds hash f rs ∧ p ∈ fileLayout f rs := by
  induction hholds with
  | nil => cases hp
  | @cons f rs files rss hf _ ih =>
      rw [foundIn, List.zipWith_cons_cons, List.flatten_cons] at hp
      rcases List.mem_append.mp hp with hhere | hrest
      · exact ⟨f, List.mem_cons_self, rs, hf, hhere⟩
      · obtain ⟨g, hg, rest⟩ := ih hrest
        exact ⟨g, List.mem_cons_of_mem f hg, rest⟩

/-- **The index after opening** leads from a found record's position to a found
record of that position that is not older, and reading there gives this record. -/
theorem lookup_foundIn {d : ShardDir} {rss : List (List WalRecord)}
    (hholds : List.Forall₂ (Holds hash) d.files rss)
    (hsmall : ∀ r ∈ rss.flatten, r.encodedSize < 2 ^ 32) {i : Nat} {r : WalRecord}
    (hr : rss.flatten[i]? = some r) :
    ∃ (j : Nat) (r' : WalRecord) (loc : RecordLocation), i ≤ j ∧ rss.flatten[j]? = some r' ∧
      r'.streamId = r.streamId ∧ r'.streamLsn = r.streamLsn ∧
      (indexRecords (foundIn d.files rss)).lookup r.streamId r.streamLsn = some loc ∧
      d.readRecordAt hash loc = some r' := by
  rw [← map_fst_found hholds, List.getElem?_map] at hr
  obtain ⟨p, hp, rfl⟩ := Option.map_eq_some_iff.mp hr
  obtain ⟨j, q, hij, hq, hstream, hlsn, hlookup⟩ := indexRecords_later _ hp
  have hqr : rss.flatten[j]? = some q.1 := by
    rw [← map_fst_found hholds, List.getElem?_map, hq]
    rfl
  obtain ⟨f, hf, rs, hfrs, hlayout⟩ := mem_foundIn hholds (List.mem_of_getElem? hq)
  exact ⟨j, q.1, q.2, hij, hqr, hstream, hlsn, hlookup,
    readRecordAt_layout hf hfrs hlayout (hsmall _ (List.mem_of_getElem? hqr))⟩

end

/-! ### What every permitted history keeps -/

section

variable {hash : Bytes → UInt32} {shardId : Nat}

/-- How the log lies on the disk: `pre` are the full segments, which are synced,
`last` is the current one, whose synced records are `rs`. -/
structure LaidOut (hash : Bytes → UInt32) (s : WalState) (pre : List SegmentFile)
    (last : SegmentFile) (rss : List (List WalRecord)) (rs : List WalRecord) : Prop where
  files : s.dir.files = pre ++ [last]
  older : List.Forall₂ (Holds hash) pre rss
  olderSynced : ∀ f ∈ pre, f.synced = f.content.length
  current : Holds hash last (rs ++ s.unsynced)
  synced : s.synced = rss.flatten ++ rs
  kept : rs = [] ∨ segmentHeaderSize + (encodeAll hash rs).length ≤ last.synced
  segmentId : s.writer.currentSegmentId = last.segmentId
  offset : s.writer.currentOffset = last.content.length
  nextSegmentId : s.writer.nextSegmentId = last.segmentId + 1
  from_eq : s.unsyncedFrom = if s.unsynced = [] then last.content.length
    else segmentHeaderSize + (encodeAll hash rs).length
  small : ∀ r ∈ s.synced ++ s.unsynced, r.encodedSize < 2 ^ 32

/-- The invariant of the permitted histories. -/
def WellLaid (hash : Bytes → UInt32) (s : WalState) : Prop :=
  ∃ pre last rss rs, LaidOut hash s pre last rss rs

/-- A new segment holds no records. -/
theorem holds_new (shardId segmentId createdTsNs : Nat) :
    Holds hash ⟨segmentId, encodeSegmentHeader shardId segmentId createdTsNs, 0, Nat.zero_le _⟩
      [] :=
  Or.inr ⟨fun _ hr => (nomatch hr), encodeSegmentHeader shardId segmentId createdTsNs, [],
    length_encodeSegmentHeader _ _ _, decodeSegmentHeader_encode_isOk _ _ _, torn_nil, by simp⟩

theorem wellLaid_init (maxSegmentBytes createdTsNs : Nat) :
    WellLaid hash (.init shardId maxSegmentBytes createdTsNs) :=
  ⟨[], ⟨0, encodeSegmentHeader shardId 0 createdTsNs, 0, Nat.zero_le _⟩, [], [], {
    files := rfl
    older := .nil
    olderSynced := fun _ hf => (nomatch hf)
    current := holds_new shardId 0 createdTsNs
    synced := rfl
    kept := Or.inl rfl
    segmentId := rfl
    offset := (length_encodeSegmentHeader _ _ _).symm
    nextSegmentId := rfl
    from_eq := (length_encodeSegmentHeader _ _ _).symm
    small := fun _ hr => (nomatch hr) }⟩

variable {s t : WalState} {pre : List SegmentFile} {last : SegmentFile}
  {rss : List (List WalRecord)} {rs : List WalRecord}

/-- Whole records take up their bytes behind the header. -/
theorem Whole.length_le {content : Bytes} (h : Whole hash content rs) :
    segmentHeaderSize + (encodeAll hash rs).length ≤ content.length := by
  obtain ⟨header, tail, hlen, -, -, rfl⟩ := h.split
  rw [List.length_append, List.length_append, hlen]
  omega

/-- The images of records have the sizes of the records. -/
theorem length_encodeAll (rs : List WalRecord) :
    (encodeAll hash rs).length = (rs.map WalRecord.encodedSize).sum := by
  induction rs with
  | nil => rfl
  | cons r rs ih =>
      rw [encodeAll_cons, List.length_append, WalRecord.length_encodeToVec, ih, List.map_cons,
        List.sum_cons]

/-- What the file of the current segment holds, when it is clean: whole records
without a torn one. -/
theorem LaidOut.of_currentClean (h : LaidOut hash s pre last rss rs) (hc : CurrentClean hash s) :
    Whole hash last.content (rs ++ s.unsynced) ∧
      last.content.length = segmentHeaderSize + (encodeAll hash (rs ++ s.unsynced)).length := by
  unfold CurrentClean at hc
  rw [h.segmentId, ShardDir.find_last h.files] at hc
  obtain ⟨hheader, hscan⟩ := hc
  rcases h.current with ⟨hshort, -⟩ | hwhole
  · omega
  · refine ⟨hwhole, ?_⟩
    unfold scanReachesEnd at hscan
    rw [scanRecords_whole hwhole] at hscan
    have hend := of_decide_eq_true hscan
    have hsizes : (fileLayout last (rs ++ s.unsynced)).map (fun p => p.1.encodedSize) =
        (rs ++ s.unsynced).map WalRecord.encodedSize := by
      conv => rhs; rw [← map_fst_layout last.segmentId segmentHeaderSize (rs ++ s.unsynced)]
      rw [List.map_map]
      rfl
    rw [hsizes] at hend
    rw [length_encodeAll, hend]

/-! ### One step at a time -/

/-- Bringing the current segment to stable storage: its records are synced. -/
theorem LaidOut.sync (h : LaidOut hash s pre last rss rs) :
    LaidOut hash ⟨s.writer.sync s.dir, s.writer, s.synced ++ s.unsynced, [],
      s.writer.currentOffset⟩ pre last.syncData rss (rs ++ s.unsynced) where
  files := by
    rw [← ShardDir.files_modify_last h.files SegmentFile.syncData fun _ => rfl, ← h.segmentId]
    rfl
  older := h.older
  olderSynced := h.olderSynced
  current := by
    rw [List.append_nil]
    exact h.current
  synced := by
    show s.synced ++ s.unsynced = _
    rw [h.synced, List.append_assoc]
  kept := by
    rcases h.current with ⟨-, hnil⟩ | hwhole
    · exact Or.inl hnil
    · exact Or.inr hwhole.length_le
  segmentId := h.segmentId
  offset := h.offset
  nextSegmentId := h.nextSegmentId
  from_eq := h.offset
  small := fun r hr => h.small r (by rwa [List.append_nil] at hr)

/-- Going on in a new segment, which leaves a synced one behind. -/
theorem LaidOut.createSegment (h : LaidOut hash s pre last rss rs) (hnil : s.unsynced = [])
    (hsynced : last.synced = last.content.length) {w : WalWriter} {dir : ShardDir}
    {createdTsNs : Nat} (hcreate : Wal.createSegment s.dir shardId s.writer.nextSegmentId
      createdTsNs = .ok dir)
    (hid : w.currentSegmentId = s.writer.nextSegmentId) (hoff : w.currentOffset = segmentHeaderSize)
    (hnext : w.nextSegmentId = s.writer.nextSegmentId + 1) :
    WellLaid hash ⟨dir, w, s.synced, [], w.currentOffset⟩ := by
  -- The ids go up, so the new file is behind all others.
  have hlow : ∀ g ∈ s.dir.files, g.segmentId < s.writer.nextSegmentId := by
    intro g hg
    rw [h.files] at hg
    rw [h.nextSegmentId]
    rcases List.mem_append.mp hg with hpre | hlast
    · have hlt := ShardDir.lt_of_files_eq h.files hpre
      omega
    · rw [List.mem_singleton.mp hlast]
      omega
  have hdir : dir = s.dir.insert ⟨s.writer.nextSegmentId,
      encodeSegmentHeader shardId s.writer.nextSegmentId createdTsNs, 0, Nat.zero_le _⟩ := by
    unfold Wal.createSegment at hcreate
    split at hcreate
    · cases hcreate
    · cases hcreate
      rfl
  subst hdir
  refine ⟨s.dir.files, ⟨s.writer.nextSegmentId,
    encodeSegmentHeader shardId s.writer.nextSegmentId createdTsNs, 0, Nat.zero_le _⟩,
    rss ++ [rs], [], {
      files := ShardDir.files_insert_last hlow
      older := ?_
      olderSynced := ?_
      current := holds_new shardId s.writer.nextSegmentId createdTsNs
      synced := ?_
      kept := Or.inl rfl
      segmentId := hid
      offset := by rw [hoff]; exact (length_encodeSegmentHeader _ _ _).symm
      nextSegmentId := hnext
      from_eq := by rw [if_pos rfl, hoff]; exact (length_encodeSegmentHeader _ _ _).symm
      small := fun r hr => h.small r (by rwa [hnil]) }⟩
  · have hcurrent := h.current
    rw [hnil, List.append_nil] at hcurrent
    rw [h.files]
    exact List.rel_append h.older (.cons hcurrent .nil)
  · intro f hf
    rw [h.files] at hf
    rcases List.mem_append.mp hf with hpre | hlast
    · exact h.olderSynced f hpre
    · rw [List.mem_singleton.mp hlast]
      exact hsynced
  · show s.synced = _
    rw [h.synced, List.flatten_concat, List.append_nil]

/-- A rotation syncs and goes on in a new segment. -/
theorem LaidOut.rotate (h : LaidOut hash s pre last rss rs) {w : WalWriter} {dir : ShardDir}
    {createdTsNs : Nat} (hrotate : s.writer.rotate s.dir createdTsNs = .ok (w, dir)) :
    WellLaid hash ⟨dir, w, s.synced ++ s.unsynced, [], w.currentOffset⟩ := by
  obtain ⟨dir', hcreate, hret⟩ := Outcome.bind_eq_ok.mp hrotate
  cases hret
  exact h.sync.createSegment rfl rfl hcreate rfl rfl rfl

/-- A record written to a clean segment lies behind the records before it. -/
theorem LaidOut.append (h : LaidOut hash s pre last rss rs) (hc : CurrentClean hash s)
    {r : WalRecord} (hr : r.Fits) (hsize : r.encodedSize < 2 ^ 32) {w : WalWriter}
    (hid : w.currentSegmentId = s.writer.currentSegmentId)
    (hoff : w.currentOffset = s.writer.currentOffset + r.encodedSize)
    (hnext : w.nextSegmentId = s.writer.nextSegmentId) :
    LaidOut hash ⟨s.dir.modify s.writer.currentSegmentId
        (fun f => f.writeAllAt (r.encodeToVec hash) s.writer.currentOffset) fun _ => rfl,
      w, s.synced, s.unsynced ++ [r], s.unsyncedFrom⟩
      pre (last.writeAllAt (r.encodeToVec hash) s.writer.currentOffset) rss rs := by
  obtain ⟨hwhole, hend⟩ := h.of_currentClean hc
  have hcontent : (last.writeAllAt (r.encodeToVec hash) s.writer.currentOffset).content =
      last.content ++ r.encodeToVec hash := by
    rw [h.offset]
    exact writeAt_length _ _
  refine {
    files := ?_
    older := h.older
    olderSynced := h.olderSynced
    current := Or.inr ?_
    synced := h.synced
    kept := ?_
    segmentId := hid.trans h.segmentId
    offset := ?_
    nextSegmentId := hnext.trans h.nextSegmentId
    from_eq := ?_
    small := ?_ }
  · -- The current segment is the last of the files, and the others are not touched.
    rw [← ShardDir.files_modify_last h.files (fun f =>
      f.writeAllAt (r.encodeToVec hash) s.writer.currentOffset) fun _ => rfl, ← h.segmentId]
  · rw [hcontent, ← List.append_assoc]
    exact hwhole.append hend hr
  · -- The write is at the end of the file, so it leaves what is synced alone.
    have hmin : min last.synced s.writer.currentOffset = last.synced := by
      rw [h.offset]
      exact Nat.min_eq_left last.synced_le
    refine h.kept.imp id fun hkept => ?_
    show _ ≤ min last.synced s.writer.currentOffset
    rwa [hmin]
  · show w.currentOffset = _
    rw [hcontent, hoff, h.offset, List.length_append, WalRecord.length_encodeToVec]
  · -- The first record that is not synced starts where the file ended.
    show s.unsyncedFrom = _
    rw [if_neg (List.concat_ne_nil r s.unsynced), h.from_eq]
    split
    · rename_i hnil
      rw [hend, hnil, List.append_nil]
    · rfl
  · intro r' hr'
    rw [← List.append_assoc] at hr'
    rcases List.mem_append.mp hr' with hold | hnew
    · exact h.small r' hold
    · rw [List.mem_singleton.mp hnew]
      exact hsize

/-- The unsynced records that a crash keeps, by where the unsynced ones start. -/
theorem LaidOut.survivors_eq (h : LaidOut hash s pre last rss rs) (keep : Nat) :
    s.survivors keep = wholeWithin ((last.crash keep).content.length - s.unsyncedFrom)
      s.unsynced := by
  unfold WalState.survivors
  rw [ShardDir.files_crash h.files h.olderSynced, List.getLast?_concat]
  rfl

/-- **A crash and a new start.** The current segment holds its synced records and
the survivors, all on stable storage. -/
theorem LaidOut.crash (h : LaidOut hash s pre last rss rs) (keep : Nat) :
    Holds hash (last.crash keep) (rs ++ s.survivors keep) ∧
      (rs ++ s.survivors keep = [] ∨ segmentHeaderSize +
        (encodeAll hash (rs ++ s.survivors keep)).length ≤ (last.crash keep).synced) := by
  rw [h.survivors_eq]
  have hsynced : (last.crash keep).synced = (last.crash keep).content.length := rfl
  have hcontent : (last.crash keep).content = last.content.take (max last.synced keep) := rfl
  have hlength : (last.crash keep).content.length =
      min (max last.synced keep) last.content.length := by rw [hcontent, List.length_take]
  rcases h.current with ⟨hshort, hnil⟩ | hwhole
  · -- Without a whole header there is no record before the crash and none after it.
    obtain ⟨hrs, hunsynced⟩ := List.append_eq_nil_iff.mp hnil
    rw [hrs, hunsynced]
    exact ⟨Or.inl ⟨by rw [hlength]; omega, rfl⟩, Or.inl rfl⟩
  rcases Nat.lt_or_ge (max last.synced keep) segmentHeaderSize with hcut | hcut
  · -- The crash tears the header, so nothing was synced and nothing survives.
    have hrs : rs = [] := h.kept.resolve_right (by omega)
    have hnone : wholeWithin ((last.crash keep).content.length - s.unsyncedFrom)
        s.unsynced = [] := by
      rw [h.from_eq, hlength]
      split
      · rename_i hnil
        rw [hnil]
        rfl
      · rw [hrs, encodeAll_nil, List.length_nil, Nat.add_zero,
          show min (max last.synced keep) last.content.length - segmentHeaderSize = 0 by omega]
        exact wholeWithin_zero _
    rw [hrs, hnone]
    exact ⟨Or.inl ⟨by rw [hlength]; omega, rfl⟩, Or.inl rfl⟩
  · -- The header stays whole: the cut keeps the synced records and goes on behind them.
    have hrs : (encodeAll hash rs).length ≤ max last.synced keep - segmentHeaderSize := by
      rcases h.kept with hnil | hkept
      · rw [hnil]
        exact Nat.zero_le _
      · omega
    have hsame : wholeWithin ((last.crash keep).content.length - s.unsyncedFrom) s.unsynced =
        wholeWithin (max last.synced keep - segmentHeaderSize - (encodeAll hash rs).length)
          s.unsynced := by
      by_cases hnil : s.unsynced = []
      · rw [hnil]
        rfl
      · have hroom := hwhole.length_le
        rw [encodeAll_append, List.length_append] at hroom
        rw [h.from_eq, if_neg hnil, hlength,
          ← wholeWithin_min hash _ (max last.synced keep - segmentHeaderSize -
            (encodeAll hash rs).length),
          ← wholeWithin_min hash _ (min (max last.synced keep) last.content.length - _)]
        congr 1
        omega
    have htake := hwhole.take hcut
    rw [wholeWithin_append rs s.unsynced hrs, ← hsame] at htake
    exact ⟨Or.inr htake, Or.inr htake.length_le⟩

/-- **Every permitted step keeps the layout.** -/
theorem wellLaid_step {a : WalAction} (h : WellLaid hash s) (hok : walPermitted hash s a)
    (hs : s.step hash shardId a = some t) : WellLaid hash t := by
  obtain ⟨pre, last, rss, rs, h⟩ := h
  cases a with
  | append streamId epoch streamLsn entryId payload timestampNs createdTsNs =>
      obtain ⟨hclean, hfits, hsize⟩ := hok
      have happend := h.append hclean hfits hsize (w := { s.writer with
        nextEntryId := max s.writer.nextEntryId (entryId + 1)
        currentOffset := s.writer.currentOffset + WalRecord.encodedSize
          ⟨streamId, epoch, entryId, streamLsn, timestampNs, payload⟩ }) rfl rfl rfl
      simp only [WalState.step, WalWriter.appendWithLogIndex] at hs
      split at hs
      · rename_i w dir e loc hrun
        split at hrun
        · -- The append fills the segment: it is followed by a rotation, to another segment.
          obtain ⟨⟨w', dir'⟩, hrotate, hret⟩ := Outcome.bind_eq_ok.mp hrun
          cases hret
          have hnext := happend.rotate hrotate
          obtain ⟨dir₁, -, hrot⟩ := Outcome.bind_eq_ok.mp hrotate
          cases hrot
          rw [if_neg (by
            show s.writer.nextSegmentId ≠ s.writer.currentSegmentId
            rw [h.nextSegmentId, h.segmentId]
            omega)] at hs
          cases hs
          exact hnext
        · cases hrun
          rw [if_pos rfl] at hs
          cases hs
          exact ⟨pre, _, rss, rs, happend⟩
      · cases hs
  | rotate createdTsNs =>
      rw [WalState.step] at hs
      split at hs
      · rename_i w dir hrotate
        cases hs
        exact h.rotate hrotate
      · cases hs
  | sync =>
      cases hs
      exact ⟨pre, _, rss, _, h.sync⟩
  | crash keep args =>
      obtain ⟨hcurrent, hkept⟩ := h.crash keep
      -- Only the last file has lost anything, and the open reads the others as they were.
      have hfiles := ShardDir.files_crash h.files h.olderSynced keep
      have hholds : List.Forall₂ (Holds hash) (s.dir.crash keep).files
          (rss ++ [rs ++ s.survivors keep]) := by
        rw [hfiles]
        exact List.rel_append h.older (.cons hcurrent .nil)
      obtain ⟨w, streams, hopen, hid, hoff, hnext⟩ :=
        openDir_holds shardId hfiles hholds args
      rw [WalState.step, hopen] at hs
      cases hs
      refine ⟨pre, last.crash keep, rss, rs ++ s.survivors keep, {
        files := hfiles
        older := h.older
        olderSynced := h.olderSynced
        current := by rw [List.append_nil]; exact hcurrent
        synced := by rw [h.synced, List.append_assoc]
        kept := hkept
        segmentId := hid
        offset := hoff
        nextSegmentId := hnext
        from_eq := hoff
        small := fun r hr => h.small r ?_ }⟩
      rw [List.append_nil] at hr
      rcases List.mem_append.mp hr with hold | hkept
      · exact List.mem_append_left _ hold
      · exact List.mem_append_right _ (mem_of_mem_wholeWithin hkept)

/-- **Recovery from a well-laid log.** -/
theorem WellLaid.recovers (h : WellLaid hash s) (keep : Nat) (args : OpenArgs) :
    Recovers hash shardId s keep args := by
  obtain ⟨pre, last, rss, rs, h⟩ := h
  obtain ⟨hcurrent, -⟩ := h.crash keep
  have hfiles := ShardDir.files_crash h.files h.olderSynced keep
  have hholds : List.Forall₂ (Holds hash) (s.dir.crash keep).files
      (rss ++ [rs ++ s.survivors keep]) := by
    rw [hfiles]
    exact List.rel_append h.older (.cons hcurrent .nil)
  obtain ⟨w, streams, hopen, -⟩ := openDir_holds shardId hfiles hholds args
  have hrecords : (rss ++ [rs ++ s.survivors keep]).flatten = s.synced ++ s.survivors keep := by
    rw [List.flatten_concat, h.synced, List.append_assoc]
  refine ⟨w, s.dir.crash keep, _, streams, hopen, fun i r hr => ?_⟩
  rw [← hrecords]
  refine lookup_foundIn hholds (fun r' hr' => ?_) ?_
  · rw [hrecords] at hr'
    rcases List.mem_append.mp hr' with hold | hkept
    · exact h.small r' (List.mem_append_left _ hold)
    · exact h.small r' (List.mem_append_right _ (mem_of_mem_wholeWithin hkept))
  · rw [hrecords, List.getElem?_append_left (List.getElem?_eq_some_iff.mp hr).1]
    exact hr

/-- **Synced records survive any number of crashes** in the permitted histories. -/
theorem synced_records_recovered {maxSegmentBytes createdTsNs : Nat}
    (h : (walHistory hash shardId maxSegmentBytes createdTsNs).Reachable (walPermitted hash) s)
    (keep : Nat) (args : OpenArgs) : Recovers hash shardId s keep args :=
  WellLaid.recovers (h.invariant (wellLaid_init maxSegmentBytes createdTsNs)
    fun _ _ _ _ hwell hok hs => wellLaid_step hwell hok hs) keep args

end

/-- The arguments of the openings below. -/
def plainArgs : OpenArgs := ⟨4096, 0, none, 0, 0⟩

/-- A permitted history with a torn record in one segment and a torn header in
the next: both are left behind by a rotation. -/
theorem synced_records_recovered_torn :
    ∃ s, (walHistory crc32 1 4096 0).Reachable (walPermitted crc32) s ∧
      s.synced.map WalRecord.streamLsn = [0, 1, 2] ∧
      ∀ keep args, Recovers crc32 1 s keep args := by
  obtain ⟨s, hs, hsynced⟩ := System.exists_reachable_of_execute (walHistory crc32 1 4096 0)
    (walPermitted crc32)
    [.append 7 1 0 3 [1] 0 0, .sync, .append 7 1 1 4 [2] 0 0, .append 7 1 2 5 [3] 0 0,
      .crash 170 plainArgs, .rotate 0, .crash 10 plainArgs, .rotate 0, .append 7 1 2 5 [3] 0 0,
      .sync]
    (fun s => s.synced.map WalRecord.streamLsn = [0, 1, 2]) (by decide +kernel)
  exact ⟨s, hs, hsynced, synced_records_recovered hs⟩

/-! ### The histories that lose records -/

section

variable (hash : Bytes → UInt32) (shardId : Nat)

/-- Whether the log opens after a crash with something in the index for every
synced record. -/
def indexesSynced (s : WalState) (keep : Nat) (args : OpenArgs) : Bool :=
  match openDir hash shardId (s.dir.crash keep) args with
  | .ok (_, _, index, _) =>
      s.synced.all fun r => (index.lookup r.streamId r.streamLsn).isSome
  | _ => false

theorem Recovers.indexesSynced {hash : Bytes → UInt32} {shardId : Nat} {s : WalState} {keep : Nat}
    {args : OpenArgs} (h : Recovers hash shardId s keep args) :
    indexesSynced hash shardId s keep args = true := by
  obtain ⟨w, dir, index, streams, hopen, hall⟩ := h
  unfold Wal.indexesSynced
  rw [hopen]
  refine List.all_eq_true.mpr fun r hr => ?_
  obtain ⟨i, hi⟩ := List.mem_iff_getElem?.mp hr
  obtain ⟨j, r', loc, -, -, -, -, hlookup, -⟩ := hall i r hi
  rw [hlookup]
  rfl

end

/-- A crash tears an unsynced record of 100 bytes. The next record is written
behind the torn bytes and synced, and the next opening does not find it. -/
theorem torn_tail_hides_record :
    ∃ s, (walHistory crc32 1 4096 0).Reachable System.anyStep s ∧
      ¬ Recovers crc32 1 s 0 plainArgs := by
  obtain ⟨s, hs, hlost⟩ := System.exists_reachable_of_execute (walHistory crc32 1 4096 0)
    System.anyStep
    [.append 7 1 0 3 (List.replicate 100 1) 0 0, .crash 138 plainArgs, .append 7 1 0 4 [] 0 0,
      .sync]
    (fun s => indexesSynced crc32 1 s 0 plainArgs = false) (by decide +kernel)
  exact ⟨s, hs, fun h => absurd (Recovers.indexesSynced h) (by rw [hlost]; decide)⟩

/-- A crash leaves three bytes of a header. The next record is written behind
them and synced, and the log does not open any more. -/
theorem torn_header_blocks_open :
    ∃ s, (walHistory crc32 1 4096 0).Reachable System.anyStep s ∧ s.synced.length = 1 ∧
      ¬ ∃ opened, openDir crc32 1 (s.dir.crash 0) plainArgs = .ok opened := by
  obtain ⟨s, hs, hone, hopen⟩ := System.exists_reachable_of_execute (walHistory crc32 1 4096 0)
    System.anyStep [.crash 3 plainArgs, .append 7 1 0 3 (List.replicate 20 1) 0 0, .sync]
    (fun s => s.synced.length = 1 ∧ (openDir crc32 1 (s.dir.crash 0) plainArgs).isOk = false)
    (by decide +kernel)
  refine ⟨s, hs, hone, fun ⟨opened, hok⟩ => ?_⟩
  rw [hok] at hopen
  cases hopen

end WalServer.Wal
