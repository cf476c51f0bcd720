import WalServer.Shard.Advance
import WalServer.Shard.Engine
import WalServer.Wal.Append

/-!
# `WalServer.Shard.Serving`: what serving requests and collecting garbage do

One lemma for each client request and for `run_gc`, about an engine whose raft
node leads and takes proposals. They say what the call returns and which parts of
the engine it touches, in terms of the stream states `ensureStream` shows.

* `handleWrite_cases`: a write is refused for its epoch, or proposed.
* `readStream_beyond`, `readStream_cached`, `readStream_logged`,
  `readStream_lost`: a read at or above the committed position, from the tail
  cache, from the log, and of a record whose location cannot be read.
* `runGc_eq`: garbage collection drops consumed positions from the index, and
  the files that the index then does not point into, the current one excepted.
-/

set_option autoImplicit false

namespace WalServer.Wal

open WalServer.Lib

variable {hash : Bytes → UInt32} {r : WalReader} {dir : ShardDir} {index : StreamLogIndex}
  {streamId streamLsn : Nat}

/-- A position that is not indexed is not found. -/
theorem WalReader.readRecord_notFound (h : index.lookup streamId streamLsn = none) :
    r.readRecord hash dir streamId streamLsn index = (r, .err (.notFound streamLsn)) := by
  unfold WalReader.readRecord
  rw [h]

/-- A file shorter than a header does not read as a record. -/
theorem WalReader.readExactAt_short (f : SegmentFile) {loc : RecordLocation}
    (hshort : loc.size < recordHeaderSize) :
    (∃ failure, readExactAt f loc = .err failure) ∨
      ∃ buf, readExactAt f loc = .ok buf ∧ buf.length < recordHeaderSize := by
  unfold readExactAt
  split
  · exact Or.inl ⟨_, rfl⟩
  · refine Or.inr ⟨_, rfl, ?_⟩
    rw [length_slice]
    omega

variable (hash r dir) in
/-- A location that is too short for a header cannot be read. -/
theorem WalReader.readRecord_short {loc : RecordLocation}
    (h : index.lookup streamId streamLsn = some loc) (hshort : loc.size < recordHeaderSize) :
    ∃ failure, (r.readRecord hash dir streamId streamLsn index).2 = .err failure := by
  unfold WalReader.readRecord getOrOpenSegment
  rw [h]
  simp only
  cases dir.find loc.segmentId with
  | none => exact ⟨_, rfl⟩
  | some f =>
      -- Whether the file was open or not, the same bytes are read.
      have hopened : (if loc.segmentId ∈ r.segmentCache then
          (r, (Outcome.ok f : Outcome WalReaderError SegmentFile))
          else ({ r with segmentCache := loc.segmentId :: r.segmentCache }, .ok f)).2 = .ok f := by
        split <;> rfl
      simp only [hopened, Outcome.bind_ok]
      rcases readExactAt_short f hshort with ⟨failure, hread⟩ | ⟨buf, hread, hlength⟩
      · rw [hread]
        exact ⟨failure, rfl⟩
      · rw [hread, Outcome.bind_ok, WalRecord.decode_short hlength]
        exact ⟨_, rfl⟩

end WalServer.Wal

namespace WalServer.Shard

open WalServer.Lib WalServer.Protocol WalServer.Raft WalServer.Wal

namespace StreamStateTable

variable (t : StreamStateTable) (id : Nat)

/-- The tail cache of a stream, seen through `ensureStream`. -/
theorem readFromTail_eq (lsn : Nat) :
    t.readFromTail id lsn =
      (t.ensureStream id).tailCache.find? fun record => record.streamLsn = lsn := by
  unfold readFromTail ensureStream
  cases t.streams.lookup id <;> rfl

theorem currentEpoch_eq : t.currentEpoch id = (t.ensureStream id).maxEpoch := by
  unfold currentEpoch ensureStream
  cases t.streams.lookup id <;> rfl

/-- What the table knows of a stream, or that it knows nothing. -/
theorem status_eq :
    t.status id = some (t.ensureStream id).status ∨
      (t.status id = none ∧ t.ensureStream id = .new id) := by
  unfold status ensureStream
  cases t.streams.lookup id with
  | none => exact Or.inr ⟨rfl, rfl⟩
  | some st => exact Or.inl rfl

/-- The listed statuses are those of the streams, and of each only one. -/
theorem mem_allStatuses {s : StreamStatus} (h : s ∈ t.allStatuses) :
    s = (t.ensureStream s.streamId).status := by
  obtain ⟨st, hst, rfl⟩ := List.mem_map.mp h
  obtain ⟨id, hlookup⟩ := AssocMap.mem_values.mp hst
  have hid : st.streamId = id := t.keyed id st hlookup
  show st.status = (t.ensureStream st.streamId).status
  rw [hid, ensureStream, hlookup]
  rfl

end StreamStateTable

namespace ShardEngine

variable {hash : Bytes → UInt32} {e : ShardEngine} {conn id lsn : Nat}

/-! ### Writes -/

/-- **A write** on a leader that takes proposals is refused for its epoch and
answered, or proposed at the stream's next position and not answered. -/
theorem handleWrite_cases (hleader : e.raft.state = .leader) (haccepting : e.raft.accepting = true)
    (conn id epoch : Nat) (payload : Bytes) :
    (epoch < (e.core.streams.ensureStream id).maxEpoch ∧ ∃ core : ShardCore,
      e.handleWrite conn id epoch payload =
        .ok (({ e with core := core } : ShardEngine).sendResponse conn .errEpochFenced
          (e.core.streams.ensureStream id).maxEpoch 0 []) ∧
      (∀ id', core.streams.ensureStream id' = e.core.streams.ensureStream id') ∧
      core.requestSeq = e.core.requestSeq ∧ core.pendingWrites = e.core.pendingWrites) ∨
    ((e.core.streams.ensureStream id).maxEpoch ≤ epoch ∧ ∃ core : ShardCore,
      e.handleWrite conn id epoch payload = .ok { e with
        core := core
        raft := { e.raft with proposals := e.raft.proposals ++ [encodeAppendCommand
          ⟨e.core.requestSeq + 1, id, epoch, (e.core.streams.ensureStream id).nextStreamLsn,
            payload⟩] } } ∧
      (∀ id', core.streams.ensureStream id' =
        if id' = id then { e.core.streams.ensureStream id with
          maxEpoch := epoch
          nextStreamLsn := (e.core.streams.ensureStream id).nextStreamLsn + 1 }
        else e.core.streams.ensureStream id') ∧
      core.requestSeq = e.core.requestSeq + 1 ∧
      core.pendingWrites = e.core.pendingWrites.insert (e.core.requestSeq + 1)
        ⟨conn, id, epoch, (e.core.streams.ensureStream id).nextStreamLsn⟩) := by
  have hcases := e.core.admitWrite_cases conn id epoch payload
  cases hwrite : e.core.admitWrite conn id epoch payload with
  | mk core result =>
      rw [hwrite] at hcases
      rcases hcases with ⟨hresult, hstale, hrest⟩ | ⟨hresult, hfresh, hrest⟩
      · -- The admission refused the write, so nothing is proposed.
        left
        refine ⟨hstale, core, ?_, hrest⟩
        simp only at hresult
        rw [handleWrite, if_neg (not_not.mpr hleader), hwrite, hresult]
      · right
        refine ⟨hfresh, core, ?_, hrest⟩
        simp only at hresult
        rw [handleWrite, if_neg (not_not.mpr hleader), hwrite, hresult]
        exact if_pos haccepting

/-! ### Reads -/

variable (hash conn) in
/-- A read that the first check answers, or that finds nothing of its stream. -/
theorem readStream_beyond (h : (e.core.streams.ensureStream id).commitStreamLsn ≤ lsn)
    (hindex : e.index.lookup id lsn = none) :
    e.readStream hash conn id lsn = .ok (e.sendResponse conn .errNotFound
      (e.core.streams.ensureStream id).maxEpoch lsn []) := by
  unfold readStream
  rcases e.core.streams.status_eq id with hknown | ⟨hunknown, hnew⟩
  · -- The stream exists, and the position is not below its committed one.
    have hfilter : (some (e.core.streams.ensureStream id).status).filter
        (fun status => decide (status.commitStreamLsn ≤ lsn)) =
          some (e.core.streams.ensureStream id).status :=
      Option.filter_eq_some_iff.mpr ⟨rfl, decide_eq_true h⟩
    simp only [hknown, hfilter]
    rfl
  · -- The stream does not exist: neither the cache nor the index knows it.
    have htail : e.core.streams.readFromTail id lsn = none := by
      rw [StreamStateTable.readFromTail_eq, hnew]
      rfl
    simp only [hunknown, Option.filter_none, htail, WalReader.readRecord_notFound hindex,
      StreamStateTable.currentEpoch_eq]

/-- Below the committed position the first check lets a read pass. -/
theorem filter_status_eq_none (h : lsn < (e.core.streams.ensureStream id).commitStreamLsn) :
    (e.core.streams.status id).filter (fun status => decide (status.commitStreamLsn ≤ lsn)) =
      none := by
  rcases e.core.streams.status_eq id with hknown | ⟨hunknown, -⟩
  · have hpass : lsn < (e.core.streams.ensureStream id).status.commitStreamLsn := h
    rw [hknown]
    simp [hpass]
  · rw [hunknown]
    rfl

variable (hash conn) in
/-- A read from the tail cache. -/
theorem readStream_cached (h : lsn < (e.core.streams.ensureStream id).commitStreamLsn)
    {tail : TailRecord} (htail : e.core.streams.readFromTail id lsn = some tail) :
    e.readStream hash conn id lsn = .ok (e.sendResponse conn .ok
      (e.core.streams.ensureStream id).maxEpoch tail.streamLsn tail.payload) := by
  unfold readStream
  simp only [filter_status_eq_none h, htail, StreamStateTable.currentEpoch_eq]

variable (hash conn) in
/-- A read from the log. -/
theorem readStream_logged (h : lsn < (e.core.streams.ensureStream id).commitStreamLsn)
    (htail : e.core.streams.readFromTail id lsn = none) {loc : RecordLocation}
    (hindex : e.index.lookup id lsn = some loc) {record : WalRecord}
    (hread : e.dir.readRecordAt hash loc = some record) :
    ∃ walReader, e.readStream hash conn id lsn =
      .ok (({ e with walReader := walReader } : ShardEngine).sendResponse conn .ok record.epoch
        record.streamLsn record.payload) := by
  have hok : (e.walReader.readRecord hash e.dir id lsn e.index).2 = .ok record :=
    WalReader.readRecord_eq_ok.mpr ⟨loc, hindex, hread⟩
  unfold readStream
  simp only [filter_status_eq_none h, htail]
  cases hresult : e.walReader.readRecord hash e.dir id lsn e.index with
  | mk walReader result =>
      rw [hresult] at hok
      cases hok
      exact ⟨walReader, rfl⟩

variable (hash conn) in
/-- A read of a position that the reader cannot get at. -/
theorem readStream_lost (h : lsn < (e.core.streams.ensureStream id).commitStreamLsn)
    (htail : e.core.streams.readFromTail id lsn = none) {failure : WalReaderError}
    (hread : (e.walReader.readRecord hash e.dir id lsn e.index).2 = .err failure) :
    ∃ walReader, e.readStream hash conn id lsn =
      .ok (({ e with walReader := walReader } : ShardEngine).sendResponse conn .errNotFound
        (e.core.streams.ensureStream id).maxEpoch lsn []) := by
  unfold readStream
  simp only [filter_status_eq_none h, htail]
  cases hresult : e.walReader.readRecord hash e.dir id lsn e.index with
  | mk walReader result =>
      rw [hresult] at hread
      simp only at hread
      subst hread
      rw [← StreamStateTable.currentEpoch_eq]
      exact ⟨walReader, rfl⟩

/-! ### Acknowledgements and status -/

/-- **An acknowledgement** moves the consumed position and is always answered. -/
theorem handleAck_eq (e : ShardEngine) (conn id offset : Nat) :
    e.handleAck conn id offset =
      ({ e with core := { e.core with streams := (e.core.streams.advanceConsumed id offset).1 } } :
        ShardEngine).sendResponse conn .ok (e.core.streams.ensureStream id).maxEpoch
          (max (e.core.streams.ensureStream id).consumedStreamLsn offset) [] := by
  have hepoch : (e.core.streams.advanceConsumed id offset).1.currentEpoch id =
      (e.core.streams.ensureStream id).maxEpoch := by
    rw [StreamStateTable.currentEpoch_eq, StreamStateTable.ensureStream_advanceConsumed, if_pos rfl]
  rw [← hepoch]
  rfl

/-- **A status request** is answered with the stream's epoch and next position. -/
theorem handleGetStatus_eq (e : ShardEngine) (conn id : Nat) :
    ∃ payload, e.handleGetStatus conn id = e.sendResponse conn .ok
      (e.core.streams.ensureStream id).maxEpoch (e.core.streams.ensureStream id).nextStreamLsn
        payload := by
  unfold handleGetStatus
  rcases e.core.streams.status_eq id with hknown | ⟨hunknown, hnew⟩
  · rw [hknown]
    exact ⟨_, rfl⟩
  · rw [hunknown, hnew]
    exact ⟨[], rfl⟩

/-! ### Garbage collection -/

/-- What the loop over the statuses drops from the index. -/
theorem lookup_foldl_truncate (statuses : List StreamStatus) (ix : StreamLogIndex) (id lsn : Nat) :
    (statuses.foldl
      (fun ix status =>
        if 0 < status.consumedStreamLsn then
          ix.truncateStreamBefore status.streamId status.consumedStreamLsn
        else ix) ix).lookup id lsn =
      if ∃ s ∈ statuses, s.streamId = id ∧ lsn < s.consumedStreamLsn then none
      else ix.lookup id lsn := by
  induction statuses generalizing ix with
  | nil => simp
  | cons s rest ih =>
      rw [List.foldl_cons, ih]
      simp only [List.mem_cons, exists_eq_or_imp]
      by_cases hrest : ∃ s' ∈ rest, s'.streamId = id ∧ lsn < s'.consumedStreamLsn
      · rw [if_pos hrest, if_pos (Or.inr hrest)]
      · rw [if_neg hrest]
        simp only [hrest, or_false]
        split
        · rw [StreamLogIndex.lookup_truncateStreamBefore]
          simp only [eq_comm]
        · rename_i hzero
          rw [if_neg]
          omega

/-- **What garbage collection leaves in the index**: the positions that are not
consumed. -/
theorem lookup_gcIndex (e : ShardEngine) (id lsn : Nat) :
    e.gcIndex.lookup id lsn =
      if lsn < (e.core.streams.ensureStream id).consumedStreamLsn then none
      else e.index.lookup id lsn := by
  rw [gcIndex, lookup_foldl_truncate]
  by_cases hconsumed : lsn < (e.core.streams.ensureStream id).consumedStreamLsn
  · rw [if_pos hconsumed, if_pos]
    -- A stream with a consumed position is in the table, so its status is listed.
    rcases ensureStream_eq_new_or_mem e.core.streams id with hnew | hmem
    · rw [hnew] at hconsumed
      exact absurd hconsumed (Nat.not_lt_zero _)
    · refine ⟨_, hmem, ?_, hconsumed⟩
      exact StreamStateTable.streamId_ensureStream _ _
  · rw [if_neg hconsumed, if_neg]
    rintro ⟨s, hs, rfl, hlt⟩
    rw [StreamStateTable.mem_allStatuses _ hs] at hlt
    exact hconsumed hlt

/-- One step of the loop over the files of `runGc`. -/
def gcStep (liveSegments : List Nat) (e : ShardEngine) (f : SegmentFile) : ShardEngine :=
  if f.segmentId = e.walWriter.currentSegmentId then e
  else if f.segmentId ∈ liveSegments then e
  else { e with
    walReader := e.walReader.evictSegment f.segmentId
    dir := e.dir.remove f.segmentId }

/-- Which files garbage collection keeps: the current one, and those the index
still points into. -/
def gcKeeps (e : ShardEngine) (segmentId : Nat) : Bool :=
  decide (segmentId = e.walWriter.currentSegmentId ∨ segmentId ∈ e.gcIndex.liveSegmentIds)

/-- The loop over some files removes those among them that are to go. -/
theorem foldl_gcStep_keep (liveSegments : List Nat) (files : List SegmentFile) (e : ShardEngine) :
    ∃ walReader, files.foldl (gcStep liveSegments) e = { e with
      walReader := walReader
      dir := e.dir.keep fun id => decide (id = e.walWriter.currentSegmentId ∨ id ∈ liveSegments ∨
        ∀ f ∈ files, f.segmentId ≠ id) } := by
  induction files generalizing e with
  | nil =>
      refine ⟨e.walReader, ?_⟩
      have hall : (e.dir.keep fun id => decide (id = e.walWriter.currentSegmentId ∨
          id ∈ liveSegments ∨ ∀ f ∈ ([] : List SegmentFile), f.segmentId ≠ id)) = e.dir := by
        refine ShardDir.ext_files (List.filter_eq_self.mpr fun f _ => decide_eq_true ?_)
        exact Or.inr (Or.inr fun g hg => by cases hg)
      rw [hall]
      rfl
  | cons f rest ih =>
      rw [List.foldl_cons, gcStep]
      by_cases hkept : f.segmentId = e.walWriter.currentSegmentId ∨ f.segmentId ∈ liveSegments
      · -- The file stays, so whether it is among the files makes no difference.
        have hsame : (if f.segmentId = e.walWriter.currentSegmentId then e
            else if f.segmentId ∈ liveSegments then e
            else { e with
              walReader := e.walReader.evictSegment f.segmentId
              dir := e.dir.remove f.segmentId }) = e := by
          rcases hkept with hcurrent | hlive
          · rw [if_pos hcurrent]
          · rw [if_pos hlive, ite_self]
        obtain ⟨walReader, hrest⟩ := ih e
        refine ⟨walReader, ?_⟩
        rw [hsame, hrest]
        have hcongr : ∀ id, (id = e.walWriter.currentSegmentId ∨ id ∈ liveSegments ∨
            ∀ g ∈ rest, g.segmentId ≠ id) ↔ (id = e.walWriter.currentSegmentId ∨
            id ∈ liveSegments ∨ ∀ g ∈ f :: rest, g.segmentId ≠ id) := by
          intro id
          constructor
          · rintro (h | h | h)
            · exact Or.inl h
            · exact Or.inr (Or.inl h)
            · by_cases hid : f.segmentId = id
              · rw [hid] at hkept
                tauto
              · exact Or.inr (Or.inr (List.forall_mem_cons.mpr ⟨hid, h⟩))
          · rintro (h | h | h)
            · exact Or.inl h
            · exact Or.inr (Or.inl h)
            · exact Or.inr (Or.inr (List.forall_mem_cons.mp h).2)
        simp only [hcongr]
      · -- The file is removed, and the rest of the pass removes no file of another id for it.
        obtain ⟨hcurrent, hdead⟩ := not_or.mp hkept
        rw [if_neg hcurrent, if_neg hdead]
        obtain ⟨walReader, hrest⟩ := ih { e with
          walReader := e.walReader.evictSegment f.segmentId
          dir := e.dir.remove f.segmentId }
        refine ⟨walReader, ?_⟩
        rw [hrest]
        simp only [keep_remove]
        congr 2
        funext id
        by_cases hid : id = f.segmentId
        · subst hid
          simp [hcurrent, hdead]
        · simp [hid, Ne.symm hid]

/-- **What garbage collection changes**: the index, the reader, and the files. -/
theorem runGc_eq (e : ShardEngine) :
    ∃ walReader, e.runGc = { e with
      index := e.gcIndex
      walReader := walReader
      dir := e.dir.keep e.gcKeeps } := by
  obtain ⟨walReader, hfold⟩ := foldl_gcStep_keep e.gcIndex.liveSegmentIds e.dir.files
    { e with index := e.gcIndex }
  refine ⟨walReader, hfold.trans ?_⟩
  have hfiles : (e.dir.keep fun id => decide (id = e.walWriter.currentSegmentId ∨
      id ∈ e.gcIndex.liveSegmentIds ∨ ∀ f ∈ e.dir.files, f.segmentId ≠ id)) =
      e.dir.keep e.gcKeeps := by
    refine ShardDir.ext_files (List.filter_congr fun f hf => ?_)
    -- A file of the directory is among the files that are looped over.
    have hmem : ¬ ∀ g ∈ e.dir.files, g.segmentId ≠ f.segmentId := fun h => h f hf rfl
    unfold gcKeeps
    simp only [hmem, or_false]
  rw [← hfiles]

/-- What the index then points to is as readable as before. -/
theorem readRecordAt_gc {id lsn : Nat} {loc : RecordLocation} {record : WalRecord}
    (hlookup : e.gcIndex.lookup id lsn = some loc)
    (hread : e.dir.readRecordAt hash loc = some record) :
    (e.dir.keep e.gcKeeps).readRecordAt hash loc = some record :=
  readRecordAt_keep (decide_eq_true
    (Or.inr (StreamLogIndex.mem_liveSegmentIds.mpr ⟨id, lsn, loc, hlookup, rfl⟩))) hread

/-- The current file is kept. -/
theorem gcKeeps_current (e : ShardEngine) : e.gcKeeps e.walWriter.currentSegmentId = true :=
  decide_eq_true (Or.inl rfl)

end ShardEngine

end WalServer.Shard
