import WalServer.Wal.Append
import WalServer.Wal.Crash

/-!
# `WalServer.Wal.Opened`: what opening any directory gives

Nothing is assumed of the files here. What the scan finds lies where it was found
(`Lies`): its location has its size as far as 32 bits can say it, and where they can
the record reads back. If `WalWriter::open` succeeds, its writer is in good order, it
removes no file, and its index leads to records that the scan has found
(`openDir_eq_ok`, `find_of_openDir`). Appending and syncing remove no file either.
-/

set_option autoImplicit false

namespace WalServer.Wal

open WalServer.Lib WalServer.Shard

variable {hash : Bytes → UInt32} {w w' : WalWriter} {dir dir' : ShardDir}

/-! ### Where the scan finds records -/

/-- A record that lies at its location. The location says how long the record is as far
as 32 bits can; where they can, the record reads back, and where they cannot the
location is shorter than a header. -/
structure Lies (hash : Bytes → UInt32) (dir : ShardDir) (p : WalRecord × RecordLocation) :
    Prop where
  small : p.1.encodedSize < 2 ^ 32 + recordHeaderSize
  size : p.2.size = p.1.encodedSize % 2 ^ 32
  reads : p.1.encodedSize < 2 ^ 32 → dir.readRecordAt hash p.2 = some p.1

theorem Lies.keeps {p : WalRecord × RecordLocation} (h : Lies hash dir p)
    (hkeeps : KeepsReadable hash dir dir') : Lies hash dir' p where
  small := h.small
  size := h.size
  reads hsize := hkeeps _ _ (h.reads hsize)

/-- Whatever a file holds, what the scan finds in it decodes where it was found. -/
theorem mem_scanRecords {segmentId : Nat} {data : Bytes} {offset : Nat}
    {found : List (WalRecord × RecordLocation)}
    (h : scanRecords hash segmentId data offset = .ok found) {p : WalRecord × RecordLocation}
    (hp : p ∈ found) :
    p.2.segmentId = segmentId ∧ ∃ consumed, p.2.size = consumed % 2 ^ 32 ∧
      WalRecord.decode hash (data.drop p.2.offset) = .ok (p.1, consumed) := by
  -- On the scan: a record, one that is refused, a panic of the decoder, the end of the data.
  induction offset using scanRecords.induct hash data generalizing found with
  | case1 offset hlt record consumed hdec ih =>
      rw [scanRecords, dif_pos hlt] at h
      split at h
      · -- A record is found at the offset, the others behind it.
        rename_i record' consumed' hdec'
        rw [hdec] at hdec'
        cases hdec'
        obtain ⟨rest, hrest, hret⟩ := Outcome.bind_eq_ok.mp h
        cases hret
        rcases List.mem_cons.mp hp with rfl | hold
        · exact ⟨rfl, consumed, rfl, hdec⟩
        · exact ih hrest hold
      · cases h
        cases hp
      · cases h
  | case2 offset hlt failure hdec =>
      rw [scanRecords, dif_pos hlt] at h
      split at h
      · rename_i hdec'
        rw [hdec] at hdec'
        cases hdec'
      · cases h
        cases hp
      · cases h
  | case3 offset hlt hdec =>
      rw [scanRecords, dif_pos hlt] at h
      split at h
      · rename_i hdec'
        rw [hdec] at hdec'
        cases hdec'
      · cases h
        cases hp
      · cases h
  | case4 offset hge =>
      rw [scanRecords, dif_neg hge] at h
      cases h
      cases hp

/-- What the loop over the files finds, the scan finds in one of them. -/
theorem mem_replaySegments {files : List SegmentFile}
    {found : List (WalRecord × RecordLocation)} (h : replaySegments hash files = .ok found)
    {p : WalRecord × RecordLocation} (hp : p ∈ found) :
    ∃ f ∈ files, f.segmentId = p.2.segmentId ∧ ∃ consumed, p.2.size = consumed % 2 ^ 32 ∧
      WalRecord.decode hash (f.content.drop p.2.offset) = .ok (p.1, consumed) := by
  induction files generalizing found with
  | nil =>
      cases h
      cases hp
  | cons f rest ih =>
      rw [replaySegments] at h
      split at h
      · -- A file without a whole header is skipped.
        obtain ⟨g, hg, hrest⟩ := ih h hp
        exact ⟨g, List.mem_cons_of_mem f hg, hrest⟩
      · split at h
        · cases h
        · obtain ⟨here, hscan, hrest⟩ := Outcome.bind_eq_ok.mp h
          obtain ⟨there, hreplay, hret⟩ := Outcome.bind_eq_ok.mp hrest
          cases hret
          rcases List.mem_append.mp hp with hhere | hthere
          · obtain ⟨hid, hdecode⟩ := mem_scanRecords hscan hhere
            exact ⟨f, List.mem_cons_self, hid.symm, hdecode⟩
          · obtain ⟨g, hg, hrest⟩ := ih hreplay hthere
            exact ⟨g, List.mem_cons_of_mem f hg, hrest⟩

/-- **What is found lies where it was found.** -/
theorem lies_of_replaySegments {found : List (WalRecord × RecordLocation)}
    (h : replaySegments hash dir.files = .ok found) {p : WalRecord × RecordLocation}
    (hp : p ∈ found) : Lies hash dir p := by
  obtain ⟨f, hf, hid, consumed, hsize, hdecode⟩ := mem_replaySegments h hp
  obtain ⟨rfl, hbound, htaken⟩ := WalRecord.encodedSize_of_decode_ok hdecode
  have hhigh := (WalRecord.length_of_decode_ok hdecode).2
  have hlow := WalRecord.recordHeaderSize_le_encodedSize p.1
  refine ⟨by unfold recordHeaderSize; omega, hsize, fun hshort => ?_⟩
  rw [Nat.mod_eq_of_lt hshort] at hsize
  rw [List.length_drop] at hhigh
  unfold recordHeaderSize at hlow
  refine readRecordAt_eq_some.mpr ⟨f, ShardDir.find_eq_some.mpr ⟨hf, hid⟩, ?_,
    p.1.encodedSize, ?_⟩
  · rw [hsize]
    omega
  · rw [hsize, slice, Nat.add_sub_cancel_left]
    exact htaken

/-- **The rebuilt index** leads to what was found, and from a position to a record
of it. -/
theorem mem_of_lookup_indexRecords {found : List (WalRecord × RecordLocation)} {id lsn : Nat}
    {loc : RecordLocation} (h : (indexRecords found).lookup id lsn = some loc) :
    ∃ p ∈ found, p.1.streamId = id ∧ p.1.streamLsn = lsn ∧ p.2 = loc := by
  induction found using List.reverseRecOn with
  | nil => cases h
  | append_singleton found last ih =>
      rw [indexRecords_concat, StreamLogIndex.lookup_insert] at h
      split at h
      · rename_i hkey
        cases h
        exact ⟨last, List.mem_append_right _ List.mem_cons_self, hkey.1.symm, hkey.2.symm, rfl⟩
      · obtain ⟨p, hp, hrest⟩ := ih h
        exact ⟨p, List.mem_append_left _ hp, hrest⟩

/-- What was found is indexed, if not there then where it was found again. -/
theorem exists_lookup_indexRecords {found : List (WalRecord × RecordLocation)}
    {p : WalRecord × RecordLocation} (hp : p ∈ found) :
    ∃ loc, (indexRecords found).lookup p.1.streamId p.1.streamLsn = some loc := by
  induction found using List.reverseRecOn with
  | nil => cases hp
  | append_singleton found last ih =>
      rw [indexRecords_concat, StreamLogIndex.lookup_insert]
      split
      · exact ⟨last.2, rfl⟩
      · rename_i hother
        rcases List.mem_append.mp hp with hold | hlast
        · exact ih hold
        · rw [List.mem_singleton.mp hlast] at hother
          exact absurd ⟨rfl, rfl⟩ hother

/-! ### Files that stay -/

/-- Every file of the first directory is in the second, with whatever content. -/
def KeepsFiles (dir dir' : ShardDir) : Prop :=
  ∀ id, (dir.find id).isSome → (dir'.find id).isSome

theorem KeepsFiles.refl (dir : ShardDir) : KeepsFiles dir dir := fun _ h => h

theorem KeepsFiles.trans {d₁ d₂ d₃ : ShardDir} (h₁₂ : KeepsFiles d₁ d₂)
    (h₂₃ : KeepsFiles d₂ d₃) : KeepsFiles d₁ d₃ :=
  fun id h => h₂₃ id (h₁₂ id h)

theorem keepsFiles_modify (id : Nat) (op : SegmentFile → SegmentFile)
    (hop : ∀ f, (op f).segmentId = f.segmentId) : KeepsFiles dir (dir.modify id op hop) := by
  intro id' h
  rw [ShardDir.find_modify]
  split
  · rename_i hid
    subst hid
    simpa using h
  · exact h

theorem keepsFiles_insert (f : SegmentFile) : KeepsFiles dir (dir.insert f) := by
  intro id h
  rw [find_insert]
  split
  · rfl
  · exact h

theorem keepsFiles_sync (w : WalWriter) : KeepsFiles dir (w.sync dir) :=
  keepsFiles_modify w.currentSegmentId SegmentFile.syncData fun _ => rfl

/-- Creating a segment removes no file. -/
theorem keepsFiles_createSegment {shardId segmentId createdTsNs : Nat}
    (h : createSegment dir shardId segmentId createdTsNs = .ok dir') : KeepsFiles dir dir' := by
  unfold createSegment at h
  split at h
  · cases h
  · cases h
    exact keepsFiles_insert _

/-- Rotating removes no file. -/
theorem keepsFiles_rotate {createdTsNs : Nat} (h : w.rotate dir createdTsNs = .ok (w', dir')) :
    KeepsFiles dir dir' := by
  obtain ⟨d, hcreate, hret⟩ := Outcome.bind_eq_ok.mp h
  cases hret
  exact (keepsFiles_sync w).trans (keepsFiles_createSegment hcreate)

/-- Appending removes no file, and returns where the record was put. -/
theorem keepsFiles_append {r : WalRecord} {createdTsNs n : Nat} {loc : RecordLocation}
    (h : w.appendWithLogIndex hash dir r.streamId r.epoch r.streamLsn r.entryId r.payload
      r.timestampNs createdTsNs = .ok (w', dir', n, loc)) :
    KeepsFiles dir dir' ∧ loc = appendLocation w r := by
  unfold WalWriter.appendWithLogIndex at h
  simp only at h
  split at h
  · obtain ⟨⟨w₁, dir₁⟩, hrotate, hret⟩ := Outcome.bind_eq_ok.mp h
    cases hret
    exact ⟨(keepsFiles_modify _ _ _).trans (keepsFiles_rotate hrotate), rfl⟩
  · cases h
    exact ⟨keepsFiles_modify _ _ _, rfl⟩

/-! ### Opening -/

/-- **What an opening that succeeds returns.** -/
theorem openDir_eq_ok {shardId : Nat} {args : OpenArgs} {index : StreamLogIndex}
    {streams : StreamStateTable}
    (h : openDir hash shardId dir args = .ok (w, dir', index, streams)) :
    ∃ found, replaySegments hash dir.files = .ok found ∧ index = indexRecords found ∧
      streams = recoverStreams (args.recoveredStreams.getD (.new args.tailCacheEntries))
        args.replayFromEntryIdExclusive (found.map Prod.fst) ∧
      WriterOk w dir' ∧ KeepsFiles dir dir' ∧ KeepsReadable hash dir dir' := by
  unfold openDir WalWriter.openWriter at h
  obtain ⟨found, hfound, hrest⟩ := Outcome.bind_eq_ok.mp h
  refine ⟨found, hfound, ?_⟩
  simp only at hrest
  split at hrest
  · -- The writer goes on at the end of the last file.
    rename_i f hlast
    cases hrest
    obtain ⟨pre, hfiles⟩ := List.getLast?_eq_some_iff.mp hlast
    refine ⟨rfl, rfl, ⟨⟨f, ShardDir.find_last hfiles, rfl⟩, fun g hg => ?_⟩, .refl _,
      fun _ _ hread => hread⟩
    rw [hfiles] at hg
    rcases List.mem_append.mp hg with hpre | hlast
    · exact Nat.lt_succ_of_lt (ShardDir.lt_of_files_eq hfiles hpre)
    · rw [List.mem_singleton.mp hlast]
      exact Nat.lt_succ_self _
  · -- There is no file, so the first one is created.
    rename_i hnone
    obtain ⟨d, hcreate, hret⟩ := Outcome.bind_eq_ok.mp hrest
    cases hret
    -- With no file there is no record either that could become unreadable.
    have hempty : dir.files = [] := List.getLast?_eq_none_iff.mp hnone
    have hnothing : KeepsReadable hash dir dir' := by
      intro loc r hread
      obtain ⟨f, hf, -⟩ := readRecordAt_eq_some.mp hread
      have hmem := (ShardDir.find_eq_some.mp hf).1
      rw [hempty] at hmem
      cases hmem
    refine ⟨rfl, rfl, ?_, keepsFiles_createSegment hcreate, hnothing⟩
    unfold createSegment at hcreate
    split at hcreate
    · cases hcreate
    · cases hcreate
      refine ⟨⟨_, by rw [find_insert, if_pos rfl], (length_encodeSegmentHeader _ _ _).symm⟩, ?_⟩
      intro g hg
      have hone : g ∈ dir.files.filter _ ++ _ :: dir.files.filter _ := hg
      rw [hempty, List.filter_nil, List.filter_nil, List.nil_append, List.mem_singleton] at hone
      rw [hone]
      exact Nat.one_pos

/-- **The index after an opening** leads into files of the directory. -/
theorem find_of_openDir {shardId : Nat} {args : OpenArgs} {index : StreamLogIndex}
    {streams : StreamStateTable}
    (h : openDir hash shardId dir args = .ok (w, dir', index, streams)) {id lsn : Nat}
    {loc : RecordLocation} (hloc : index.lookup id lsn = some loc) :
    (dir'.find loc.segmentId).isSome := by
  obtain ⟨found, hfound, rfl, -, -, hkeeps, -⟩ := openDir_eq_ok h
  obtain ⟨p, hp, -, -, rfl⟩ := mem_of_lookup_indexRecords hloc
  obtain ⟨f, hf, hid, -⟩ := mem_replaySegments hfound hp
  refine hkeeps _ ?_
  rw [ShardDir.find_eq_some.mpr ⟨hf, hid⟩]
  rfl

end WalServer.Wal
