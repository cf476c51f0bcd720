import WalServer.Wal.Layout

/-!
# `WalServer.Wal.Append`: what appending and syncing do to readable records

A writer in good order (`WriterOk`) writes at the end of its current segment, and
the segments it opens next are new. It then stays in good order, no call of it
fails, every location that reads as a record still does (`WriterOk.append`), and
the location an append returns reads as the record it wrote
(`WriterOk.readRecordAt_appended`).
-/

set_option autoImplicit false

namespace WalServer.Wal

open WalServer.Lib

/-- The writer is at the end of its current segment, and no segment has the id it
will give to the next one or a higher one. -/
structure WriterOk (w : WalWriter) (dir : ShardDir) : Prop where
  current : ∃ f, dir.find w.currentSegmentId = some f ∧ w.currentOffset = f.content.length
  below : ∀ f ∈ dir.files, f.segmentId < w.nextSegmentId

/-- Every location that reads as a record in the first directory reads as the
same record in the second. -/
def KeepsReadable (hash : Bytes → UInt32) (dir dir' : ShardDir) : Prop :=
  ∀ loc r, dir.readRecordAt hash loc = some r → dir'.readRecordAt hash loc = some r

theorem KeepsReadable.trans {hash : Bytes → UInt32} {d₁ d₂ d₃ : ShardDir}
    (h₁₂ : KeepsReadable hash d₁ d₂) (h₂₃ : KeepsReadable hash d₂ d₃) :
    KeepsReadable hash d₁ d₃ :=
  fun loc r h => h₂₃ loc r (h₁₂ loc r h)

variable {hash : Bytes → UInt32} {w : WalWriter} {dir : ShardDir}

/-- What a readable location says about its file. -/
theorem readRecordAt_eq_some {loc : RecordLocation} {r : WalRecord} :
    dir.readRecordAt hash loc = some r ↔
      ∃ f, dir.find loc.segmentId = some f ∧ loc.offset + loc.size ≤ f.content.length ∧
        ∃ n, WalRecord.decode hash (slice f.content loc.offset (loc.offset + loc.size)) =
          .ok (r, n) := by
  unfold ShardDir.readRecordAt
  cases dir.find loc.segmentId with
  | none => simp
  | some f =>
      simp only [Option.some.injEq, exists_eq_left']
      split
      · rename_i hshort
        simp only [reduceCtorEq, false_iff, not_and]
        omega
      · rename_i hroom
        cases WalRecord.decode hash (slice f.content loc.offset (loc.offset + loc.size)) with
        | ok found => simp [Prod.ext_iff]; omega
        | err e => simp
        | panic => simp

/-- A location stays readable when its file only grows. -/
theorem keepsReadable_of_grows {dir' : ShardDir}
    (h : ∀ id f, dir.find id = some f →
      ∃ f', dir'.find id = some f' ∧ f.content <+: f'.content) :
    KeepsReadable hash dir dir' := by
  intro loc r hr
  obtain ⟨f, hf, hroom, n, hdecode⟩ := readRecordAt_eq_some.mp hr
  obtain ⟨f', hf', tail, htail⟩ := h _ f hf
  refine readRecordAt_eq_some.mpr ⟨f', hf', ?_, n, ?_⟩
  · rw [← htail, List.length_append]
    omega
  · rw [← htail, slice_append_left hroom]
    exact hdecode

/-! ### Files under a new one -/

/-- A file that is put into the directory is found under its id, the others are
found as before. -/
theorem find_insert (f : SegmentFile) (id : Nat) :
    (dir.insert f).find id = if id = f.segmentId then some f else dir.find id := by
  split
  · rename_i hid
    exact ShardDir.find_eq_some.mpr
      ⟨List.mem_append_right _ List.mem_cons_self, hid.symm⟩
  · rename_i hid
    ext g
    rw [← Option.mem_def, ← Option.mem_def, Option.mem_def, Option.mem_def,
      ShardDir.find_eq_some, ShardDir.find_eq_some]
    have hmem : g ∈ (dir.insert f).files ↔ g = f ∨ (g ∈ dir.files ∧
        (g.segmentId < f.segmentId ∨ f.segmentId < g.segmentId)) := by
      show g ∈ dir.files.filter _ ++ f :: dir.files.filter _ ↔ _
      simp only [List.mem_append, List.mem_cons, List.mem_filter, decide_eq_true_eq]
      tauto
    rw [hmem]
    constructor
    · rintro ⟨rfl | ⟨hg, -⟩, hgid⟩
      · exact absurd hgid.symm hid
      · exact ⟨hg, hgid⟩
    · rintro ⟨hg, hgid⟩
      exact ⟨Or.inr ⟨hg, by omega⟩, hgid⟩

/-- The files of a rewritten directory have the ids of its files. -/
theorem segmentId_mem_modify {id : Nat} {op : SegmentFile → SegmentFile}
    {hop : ∀ f, (op f).segmentId = f.segmentId} {g : SegmentFile}
    (hg : g ∈ (dir.modify id op hop).files) : ∃ f ∈ dir.files, g.segmentId = f.segmentId := by
  obtain ⟨f, hf, rfl⟩ := List.mem_map.mp hg
  refine ⟨f, hf, ?_⟩
  split
  · exact hop f
  · rfl

/-! ### Syncing, rotating, appending -/

theorem find_sync (w : WalWriter) (id : Nat) :
    (w.sync dir).find id =
      if id = w.currentSegmentId then (dir.find id).map SegmentFile.syncData else dir.find id :=
  ShardDir.find_modify dir w.currentSegmentId SegmentFile.syncData (fun _ => rfl) id

/-- Syncing moves no byte. -/
theorem WriterOk.sync (h : WriterOk w dir) : WriterOk w (w.sync dir) where
  current := by
    obtain ⟨f, hf, hoff⟩ := h.current
    exact ⟨f.syncData, by rw [find_sync, if_pos rfl, hf]; rfl, hoff⟩
  below g hg := by
    obtain ⟨f, hf, hid⟩ := segmentId_mem_modify hg
    rw [hid]
    exact h.below f hf

theorem keepsReadable_sync (w : WalWriter) : KeepsReadable hash dir (w.sync dir) := by
  refine keepsReadable_of_grows fun id f hf => ?_
  rw [find_sync, hf]
  split
  · exact ⟨f.syncData, rfl, List.prefix_refl _⟩
  · exact ⟨f, rfl, List.prefix_refl _⟩

variable (hash) in
/-- Rotating goes on in a new segment. -/
theorem WriterOk.rotate (h : WriterOk w dir) (createdTsNs : Nat) :
    ∃ w' dir', w.rotate dir createdTsNs = .ok (w', dir') ∧ WriterOk w' dir' ∧
      KeepsReadable hash dir dir' := by
  have hsync := h.sync
  -- The next id is free, so the create cannot fail.
  have hnew : (w.sync dir).find w.nextSegmentId = none := by
    cases hfind : (w.sync dir).find w.nextSegmentId with
    | none => rfl
    | some f =>
        obtain ⟨hf, hid⟩ := ShardDir.find_eq_some.mp hfind
        have hlt := hsync.below f hf
        omega
  have hheader := length_encodeSegmentHeader w.shardId w.nextSegmentId createdTsNs
  refine ⟨_, _, by rw [WalWriter.rotate, createSegment, hnew]; rfl, ⟨?_, ?_⟩, ?_⟩
  · exact ⟨_, by rw [find_insert, if_pos rfl], hheader.symm⟩
  · intro g hg
    rcases List.mem_append.mp hg with hlow | hhigh
    · have hlt := hsync.below g (List.mem_filter.mp hlow).1
      show g.segmentId < w.nextSegmentId + 1
      omega
    · rcases List.mem_cons.mp hhigh with rfl | hrest
      · exact Nat.lt_succ_self _
      · have hlt := hsync.below g (List.mem_filter.mp hrest).1
        show g.segmentId < w.nextSegmentId + 1
        omega
  · refine (keepsReadable_sync w).trans (keepsReadable_of_grows fun id f hf => ?_)
    refine ⟨f, ?_, List.prefix_refl _⟩
    rw [find_insert, if_neg fun hid => ?_, hf]
    rw [hid] at hf
    exact absurd (hnew.symm.trans hf) (by simp)

/-- The directory after the bytes of a record were written. -/
def writtenDir (hash : Bytes → UInt32) (w : WalWriter) (dir : ShardDir) (r : WalRecord) :
    ShardDir :=
  dir.modify w.currentSegmentId (fun f => f.writeAllAt (r.encodeToVec hash) w.currentOffset)
    fun _ => rfl

theorem find_writtenDir (w : WalWriter) (r : WalRecord) (id : Nat) :
    (writtenDir hash w dir r).find id =
      if id = w.currentSegmentId then
        (dir.find id).map fun f => f.writeAllAt (r.encodeToVec hash) w.currentOffset
      else dir.find id :=
  ShardDir.find_modify dir w.currentSegmentId
    (fun f => f.writeAllAt (r.encodeToVec hash) w.currentOffset) (fun _ => rfl) id

/-- Where an append puts its record. -/
def appendLocation (w : WalWriter) (r : WalRecord) : RecordLocation :=
  ⟨w.currentSegmentId, w.currentOffset, r.encodedSize % 2 ^ 32⟩

variable (hash) in
/-- The bytes of a record go to the end of the current segment. -/
theorem WriterOk.written (h : WriterOk w dir) (r : WalRecord) :
    ∃ f f', dir.find w.currentSegmentId = some f ∧
      (writtenDir hash w dir r).find w.currentSegmentId = some f' ∧
      f'.content = f.content ++ r.encodeToVec hash ∧ w.currentOffset = f.content.length := by
  obtain ⟨f, hf, hoff⟩ := h.current
  refine ⟨f, f.writeAllAt (r.encodeToVec hash) w.currentOffset, hf, ?_, ?_, hoff⟩
  · rw [find_writtenDir, if_pos rfl, hf]
    rfl
  · rw [hoff]
    exact writeAt_length _ _

theorem WriterOk.keepsReadable_writtenDir (h : WriterOk w dir) (r : WalRecord) :
    KeepsReadable hash dir (writtenDir hash w dir r) := by
  obtain ⟨f, f', hf, hf', hcontent, -⟩ := h.written hash r
  refine keepsReadable_of_grows fun id g hg => ?_
  by_cases hid : id = w.currentSegmentId
  · subst hid
    rw [hf] at hg
    cases hg
    exact ⟨f', hf', by rw [hcontent]; exact List.prefix_append _ _⟩
  · exact ⟨g, by rw [find_writtenDir, if_neg hid, hg], List.prefix_refl _⟩

/-- **The written record** is read back from the location of the append, when its
size fits the location's field. -/
theorem WriterOk.readRecordAt_appended (h : WriterOk w dir) {r : WalRecord} (hr : r.Fits)
    (hsize : r.encodedSize < 2 ^ 32) :
    (writtenDir hash w dir r).readRecordAt hash (appendLocation w r) = some r := by
  obtain ⟨f, f', -, hf', hcontent, hoff⟩ := h.written hash r
  have hbytes : f'.content = f.content ++ (r.encodeToVec hash ++ []) := by
    rw [hcontent, List.append_nil]
  have hslice : slice f'.content w.currentOffset (w.currentOffset + r.encodedSize % 2 ^ 32) =
      r.encodeToVec hash := by
    rw [hbytes]
    exact slice_append_mid hoff.symm
      (by rw [WalRecord.length_encodeToVec, Nat.mod_eq_of_lt hsize])
  refine readRecordAt_eq_some.mpr ⟨f', hf', ?_, r.encodedSize, ?_⟩
  · show w.currentOffset + r.encodedSize % 2 ^ 32 ≤ f'.content.length
    rw [hcontent, List.length_append, WalRecord.length_encodeToVec, Nat.mod_eq_of_lt hsize, hoff]
  · show WalRecord.decode hash (slice f'.content w.currentOffset
      (w.currentOffset + r.encodedSize % 2 ^ 32)) = _
    rw [hslice, WalRecord.decode_encode hr]

variable (hash) in
/-- **Appending succeeds**, keeps the writer in good order and every readable
record readable, and returns the location of its record. -/
theorem WriterOk.append (h : WriterOk w dir) (r : WalRecord) (createdTsNs : Nat) :
    ∃ w' dir', w.appendWithLogIndex hash dir r.streamId r.epoch r.streamLsn r.entryId r.payload
        r.timestampNs createdTsNs = .ok (w', dir', r.entryId, appendLocation w r) ∧
      WriterOk w' dir' ∧ KeepsReadable hash (writtenDir hash w dir r) dir' := by
  obtain ⟨f, f', -, hf', hcontent, hoff⟩ := h.written hash r
  -- The writer behind the written record, before it may rotate.
  have hwritten : WriterOk { w with
      nextEntryId := max w.nextEntryId (r.entryId + 1)
      currentOffset := w.currentOffset + r.encodedSize } (writtenDir hash w dir r) := by
    refine ⟨⟨f', hf', ?_⟩, fun g hg => ?_⟩
    · show w.currentOffset + r.encodedSize = f'.content.length
      rw [hcontent, List.length_append, WalRecord.length_encodeToVec, hoff]
    · obtain ⟨g', hg', hid⟩ := segmentId_mem_modify hg
      rw [hid]
      exact h.below g' hg'
  unfold WalWriter.appendWithLogIndex
  simp only
  split
  · obtain ⟨w', dir', hrotate, hok, hkeeps⟩ := hwritten.rotate hash createdTsNs
    refine ⟨w', dir', ?_, hok, hkeeps⟩
    have hrotate' := hrotate
    unfold writtenDir at hrotate'
    rw [hrotate']
    rfl
  · exact ⟨_, _, rfl, hwritten, fun _ _ hread => hread⟩

/-- The writer after an append. -/
theorem writerOk_append {w' : WalWriter} {dir' : ShardDir} (h : WriterOk w dir)
    {r : WalRecord} {createdTsNs n : Nat} {loc : RecordLocation}
    (happend : w.appendWithLogIndex hash dir r.streamId r.epoch r.streamLsn r.entryId r.payload
      r.timestampNs createdTsNs = .ok (w', dir', n, loc)) : WriterOk w' dir' := by
  obtain ⟨w₁, dir₁, hrun, hok, -⟩ := h.append hash r createdTsNs
  rw [hrun] at happend
  cases happend
  exact hok

/-! ### Removing files -/

/-- The directory of the files whose ids satisfy `p`. -/
def ShardDir.keep (d : ShardDir) (p : Nat → Bool) : ShardDir where
  files := d.files.filter fun f => p f.segmentId
  sorted := d.sorted.sublist List.filter_sublist

theorem ShardDir.ext_files {d d' : ShardDir} (h : d.files = d'.files) : d = d' := by
  cases d
  cases d'
  simpa using h

/-- The kept files are found, the others are not. -/
theorem find_keep (d : ShardDir) (p : Nat → Bool) (id : Nat) :
    (d.keep p).find id = if p id then d.find id else none := by
  ext f
  rw [ShardDir.find_eq_some]
  have hmem : f ∈ (d.keep p).files ↔ f ∈ d.files ∧ p f.segmentId = true := List.mem_filter
  split
  · rename_i hp
    rw [ShardDir.find_eq_some, hmem]
    constructor
    · rintro ⟨⟨hf, -⟩, hid⟩
      exact ⟨hf, hid⟩
    · rintro ⟨hf, rfl⟩
      exact ⟨⟨hf, hp⟩, rfl⟩
  · rename_i hp
    rw [hmem]
    constructor
    · rintro ⟨⟨-, hpf⟩, rfl⟩
      exact absurd hpf hp
    · intro h
      cases h

/-- What is kept of the files without one of them. -/
theorem keep_remove (d : ShardDir) (p : Nat → Bool) (id : Nat) :
    (d.remove id).keep p = d.keep fun id' => p id' && decide (id' ≠ id) := by
  refine ShardDir.ext_files ?_
  show (d.files.filter _).filter _ = d.files.filter _
  rw [List.filter_filter]

/-- Removing files other than the current one keeps the writer in good order. -/
theorem WriterOk.keep (h : WriterOk w dir) {p : Nat → Bool} (hp : p w.currentSegmentId = true) :
    WriterOk w (dir.keep p) where
  current := by
    obtain ⟨f, hf, hoff⟩ := h.current
    exact ⟨f, by rw [find_keep, if_pos hp, hf], hoff⟩
  below f hf := h.below f (List.mem_filter.mp hf).1

/-- Locations in the kept files stay readable. -/
theorem readRecordAt_keep {p : Nat → Bool} {loc : RecordLocation} {r : WalRecord}
    (hp : p loc.segmentId = true) (h : dir.readRecordAt hash loc = some r) :
    (dir.keep p).readRecordAt hash loc = some r := by
  obtain ⟨f, hf, rest⟩ := readRecordAt_eq_some.mp h
  exact readRecordAt_eq_some.mpr ⟨f, by rw [find_keep, if_pos hp, hf], rest⟩

end WalServer.Wal
