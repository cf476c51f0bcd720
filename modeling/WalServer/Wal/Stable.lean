import WalServer.Wal.Append

/-!
# `WalServer.Wal.Stable`: what has reached stable storage

Bytes of a segment file are stable when the file has been synced up to their end, which
covers all bytes before them (`StableAt`). The record of an append is stable once the
writer has synced behind it (`WriterOk.stableAt_append`), also where the append has
rotated: then the sync is one of the next file, and it is `rotate` that has synced the
file of the record.
-/

set_option autoImplicit false

namespace WalServer.Wal

open WalServer.Lib

/-- The bytes lie in the file of a segment from an offset on, and the file has been synced up
to their end. -/
def ShardDir.StableAt (d : ShardDir) (segmentId offset : Nat) (bytes : Bytes) : Prop :=
  ∃ f, d.find segmentId = some f ∧ offset + bytes.length ≤ f.synced ∧
    slice f.content offset (offset + bytes.length) = bytes

/-- Files keep their bytes and what is synced of them. -/
def KeepsStable (dir dir' : ShardDir) : Prop :=
  ∀ id f, dir.find id = some f →
    ∃ f', dir'.find id = some f' ∧ f.content <+: f'.content ∧ f.synced ≤ f'.synced

variable {hash : Bytes → UInt32} {w w' : WalWriter} {dir dir' : ShardDir}

theorem ShardDir.StableAt.keeps {segmentId offset : Nat} {bytes : Bytes}
    (h : dir.StableAt segmentId offset bytes) (hkeeps : KeepsStable dir dir') :
    dir'.StableAt segmentId offset bytes := by
  obtain ⟨f, hf, hsynced, hbytes⟩ := h
  obtain ⟨f', hf', ⟨more, hmore⟩, hle⟩ := hkeeps segmentId f hf
  refine ⟨f', hf', hsynced.trans hle, ?_⟩
  -- What is synced of a file is there.
  have hroom := f.synced_le
  rw [← hmore, slice_append_left (by omega)]
  exact hbytes

/-- Rotating syncs the current segment and puts a new file beside the others. -/
theorem find_rotate {createdTsNs : Nat} (h : w.rotate dir createdTsNs = .ok (w', dir')) :
    w'.currentSegmentId = w.nextSegmentId ∧
      ∀ id, id ≠ w.nextSegmentId → dir'.find id = (w.sync dir).find id := by
  obtain ⟨d, hcreate, hrest⟩ := Outcome.bind_eq_ok.mp h
  cases hrest
  refine ⟨rfl, fun id hid => ?_⟩
  unfold createSegment at hcreate
  split at hcreate
  · cases hcreate
  · cases hcreate
    rw [find_insert, if_neg hid]

/-- **Syncing behind an append** leaves every file as syncing right behind the write does,
whether the append has rotated or not. -/
theorem find_sync_append {r : WalRecord} {createdTsNs n : Nat}
    {loc : RecordLocation}
    (happend : w.appendWithLogIndex hash dir r.streamId r.epoch r.streamLsn r.entryId r.payload
      r.timestampNs createdTsNs = .ok (w', dir', n, loc)) {id : Nat} (hid : id < w.nextSegmentId) :
    (w'.sync dir').find id = (w.sync (writtenDir hash w dir r)).find id := by
  unfold WalWriter.appendWithLogIndex at happend
  simp only at happend
  split at happend
  · -- The append has filled the segment: `rotate` has synced it, the sync is of the next one.
    obtain ⟨⟨w₁, dir₁⟩, hrotate, hrest⟩ := Outcome.bind_eq_ok.mp happend
    cases hrest
    obtain ⟨hcurrent, hfind⟩ := find_rotate hrotate
    have hnext : id ≠ w₁.currentSegmentId := by
      rw [hcurrent]
      exact Nat.ne_of_lt hid
    rw [find_sync, if_neg hnext, hfind id (Nat.ne_of_lt hid)]
    rfl
  · cases happend
    rfl

/-- **The record of an append is stable** once the writer has synced. -/
theorem WriterOk.stableAt_append (h : WriterOk w dir) {r : WalRecord} {createdTsNs n : Nat}
    {loc : RecordLocation}
    (happend : w.appendWithLogIndex hash dir r.streamId r.epoch r.streamLsn r.entryId r.payload
      r.timestampNs createdTsNs = .ok (w', dir', n, loc)) :
    (w'.sync dir').StableAt w.currentSegmentId w.currentOffset (r.encodeToVec hash) := by
  obtain ⟨f, f', hf, hf', hcontent, hoff⟩ := h.written hash r
  -- The current segment was created before the next one.
  have hbelow : w.currentSegmentId < w.nextSegmentId := by
    obtain ⟨hmem, hid⟩ := ShardDir.find_eq_some.mp hf
    rw [← hid]
    exact h.below f hmem
  refine ⟨f'.syncData, ?_, ?_, ?_⟩
  · rw [find_sync_append happend hbelow, find_sync, if_pos rfl, hf']
    rfl
  · show w.currentOffset + (r.encodeToVec hash).length ≤ f'.content.length
    rw [hcontent, List.length_append, hoff]
  · show slice f'.content _ _ = _
    rw [hcontent, ← List.append_nil (f.content ++ _), List.append_assoc]
    exact slice_append_mid hoff.symm rfl

/-- Appending and syncing keep what is stable. -/
theorem WriterOk.keepsStable_append (h : WriterOk w dir) {r : WalRecord} {createdTsNs n : Nat}
    {loc : RecordLocation}
    (happend : w.appendWithLogIndex hash dir r.streamId r.epoch r.streamLsn r.entryId r.payload
      r.timestampNs createdTsNs = .ok (w', dir', n, loc)) :
    KeepsStable dir (w'.sync dir') := by
  intro id g hg
  have hbelow : id < w.nextSegmentId := by
    obtain ⟨hmem, hid⟩ := ShardDir.find_eq_some.mp hg
    rw [← hid]
    exact h.below g hmem
  rw [find_sync_append happend hbelow, find_sync]
  by_cases hid : id = w.currentSegmentId
  · -- The current file has grown at its end and is synced as a whole.
    subst hid
    obtain ⟨f, f', hf, hf', hcontent, -⟩ := h.written hash r
    obtain rfl : f = g := Option.some.inj (hf.symm.trans hg)
    refine ⟨f'.syncData, by rw [if_pos rfl, hf']; rfl, ?_, ?_⟩
    · show f.content <+: f'.content
      rw [hcontent]
      exact List.prefix_append _ _
    · show f.synced ≤ f'.content.length
      rw [hcontent, List.length_append]
      have hle := f.synced_le
      omega
  · -- The other files are as they were.
    exact ⟨g, by rw [if_neg hid, find_writtenDir, if_neg hid, hg], List.prefix_refl _,
      Nat.le_refl _⟩

end WalServer.Wal
