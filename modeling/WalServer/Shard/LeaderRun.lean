import WalServer.Lib.Transition
import WalServer.Shard.Progress
import WalServer.Shard.Serving
import WalServer.Shard.StreamLogs

/-!
# `WalServer.Shard.LeaderRun`: one leader keeps the streams' logs

An engine that starts on an empty directory and leads from then on, beside the
logs it is to keep. Client requests, the application of the next committed
proposal, garbage collections, what a cycle of the raft node stores, and the ends
of cycles and iterations come in any order. The engine's steps are the code's and
the logs' are those of `StreamLogs`; what they share is which proposal is next.

`Refines` relates the two: the stream table has the logs' epochs and positions,
proposals and pending writes are the accepted writes in order, the tail cache and
the index lead to committed writes only, and every committed position that is not
consumed is indexed. `Refines.step` is the simulation: each step succeeds, and
keeps the relation.
-/

set_option autoImplicit false

namespace WalServer.Shard

open WalServer.Lib WalServer.Protocol WalServer.Raft WalServer.Wal

/-- A leading engine and the logs it is to keep. `lastIndex` is the raft index
that was applied last. -/
structure LeaderRun where
  engine : ShardEngine
  logs : StreamLogs
  lastIndex : Nat

/-- What happens to an engine while it leads. -/
inductive LeaderAction where
  /-- A client request is handled. -/
  | request (req : ShardRequest)
  /-- The oldest proposal that was not applied is, at a raft index. -/
  | applyNext (clock : Clock) (raftIndex raftTerm : Nat)
  /-- Garbage is collected. -/
  | gc
  /-- A cycle stores and sends what the raft node has ready. -/
  | store (ready : Ready)
  /-- A cycle ends. -/
  | advance (advanced : Advanced)
  /-- A loop iteration ends. -/
  | observe

/-- The command that the `i`-th accepted write is proposed as. -/
def StreamLogs.commandOf (logs : StreamLogs) (i : Nat) (w : ShardRequest) : AppendCommand :=
  ⟨i + 1, w.request.streamId, w.request.epoch, logs.log.position streamOf i w, w.request.payload⟩

namespace LeaderRun

variable (hash : Bytes → UInt32)

/-- The engine after an action. -/
def engineStep (s : LeaderRun) : LeaderAction → Option ShardEngine
  | .request req => (s.engine.handleClientRequest hash req).toOption
  | .applyNext clock raftIndex raftTerm =>
      (s.engine.raft.proposals[s.logs.log.applied]?).bind fun data =>
        (decodeAppendCommand data).toOption.bind fun cmd =>
          (s.engine.applyAppendEntry hash clock raftIndex raftTerm cmd).toOption
  | .gc => some s.engine.runGc
  | .store ready =>
      match s.engine.raft.store.storeReady ready with
      | (store, .ok ()) => some (s.engine.afterStore store ready)
      | _               => none
  | .advance advanced => some (s.engine.advance advanced)
  | .observe => some s.engine.logRaftStateIfChanged

/-- The logs after an action. -/
def logsStep (s : LeaderRun) : LeaderAction → StreamLogs
  | .request req    => s.logs.serve req
  | .applyNext ..   => s.logs.commitNext
  | _               => s.logs

/-- The raft index that was applied last, after an action. -/
def indexStep (s : LeaderRun) : LeaderAction → Nat
  | .applyNext _ raftIndex _ => raftIndex
  | _                        => s.lastIndex

/-- An engine whose raft node has become leader. -/
def lead (e : ShardEngine) : ShardEngine :=
  { e with raft := { e.raft with state := .leader, leaderId := e.nodeId } }

/-- The runs of an engine that leads from its start. -/
def system (e : ShardEngine) : System LeaderRun LeaderAction where
  init := ⟨lead e, .empty, 0⟩
  step s a := (s.engineStep hash a).map fun e' => ⟨e', s.logsStep a, s.indexStep a⟩

/-- The raft state's file has room for the snapshot that may be due behind the next
application. -/
def SnapshotFits (s : LeaderRun) (raftIndex : Nat) : Prop :=
  s.engine.raft.store.snapshotIndex + PersistentStorage.snapshotInterval ≤ s.engine.raft.applied →
    ∀ w ∈ s.logs.log.next?, (ShardCore.applyCommand s.engine.core.streams raftIndex
      (s.logs.commandOf s.logs.log.applied w)).encodeSnapshot.length < 2 ^ 32

/-- What is assumed of an action: fields of requests, raft indexes and times are
64-bit, a payload fits its record, raft indexes rise, what the raft node has ready fits
the stored log, and the raft state fits its file; an engine whose state does not stops. -/
def Permitted (s : LeaderRun) : LeaderAction → Prop
  | .request req => req.request.op = .write →
      req.request.streamId < 256 ^ 8 ∧ req.request.epoch < 256 ^ 8 ∧
        req.request.payload.length < 2 ^ 32 - 40
  | .applyNext clock raftIndex _ => s.logs.log.next? ≠ none ∧ s.lastIndex < raftIndex ∧
      raftIndex < 256 ^ 8 ∧ clock.record raftIndex < 256 ^ 8 ∧ s.SnapshotFits raftIndex
  | .gc => True
  | .store ready => EntriesFit s.engine.raft.store.state ready ∧
      s.engine.raft.applied ≤ lastAfter s.engine.raft.store.state ready ∧
      (s.engine.raft.store.state.stored ready).Fits
  | .advance advanced => advanced.applied ≤ s.engine.raft.store.state.lastIndex
  | .observe => True

end LeaderRun

/-! ### The relation -/

namespace StreamLogs

/-- What is remembered of the `i`-th accepted write until it is applied. -/
def pendingOf (logs : StreamLogs) (i : Nat) (w : ShardRequest) : PendingClientWrite :=
  ⟨w.connectionId, w.request.streamId, w.request.epoch, logs.log.position streamOf i w⟩

/-- The table shows the logs. -/
structure Table (logs : StreamLogs) (t : StreamStateTable) : Prop where
  epoch : ∀ id, (t.ensureStream id).maxEpoch = logs.newestEpoch id
  next : ∀ id, (t.ensureStream id).nextStreamLsn = (logs.written id).length
  commit : ∀ id, (t.ensureStream id).commitStreamLsn = (logs.committed id).length
  consumed : ∀ id, (t.ensureStream id).consumedStreamLsn = logs.consumed id
  tail : ∀ id, ∀ record ∈ (t.ensureStream id).tailCache, ∃ w,
    (logs.committed id)[record.streamLsn]? = some w ∧ record.payload = w.request.payload

/-- The accepted writes are proposed in order, and those not applied are pending. -/
structure Proposed (logs : StreamLogs) (core : ShardCore) (proposals : List Bytes) : Prop where
  requestSeq : core.requestSeq = logs.log.entries.length
  proposals : proposals =
    logs.log.entries.mapIdx fun i w => encodeAppendCommand (logs.commandOf i w)
  pending : ∀ i w, logs.log.applied ≤ i → logs.log.entries[i]? = some w →
    core.pendingWrites.lookup (i + 1) = some (logs.pendingOf i w)
  fits : ∀ w ∈ logs.log.entries, w.request.streamId < 256 ^ 8 ∧ w.request.epoch < 256 ^ 8 ∧
    w.request.payload.length < 2 ^ 32 - 40

/-- A location where a write lies as a position of its stream. The location says
how long the record is as far as 32 bits can. -/
def LiesAt (hash : Bytes → UInt32) (dir : ShardDir) (w : ShardRequest) (lsn : Nat)
    (loc : RecordLocation) : Prop :=
  ∃ record : WalRecord, record.streamLsn = lsn ∧ record.payload = w.request.payload ∧
    loc.size = record.encodedSize % 2 ^ 32 ∧
    (record.encodedSize < 2 ^ 32 → dir.readRecordAt hash loc = some record)

/-- The index leads to committed writes, and to all that are not consumed. -/
structure Indexed (hash : Bytes → UInt32) (logs : StreamLogs) (index : StreamLogIndex)
    (dir : ShardDir) : Prop where
  lies : ∀ id lsn loc, index.lookup id lsn = some loc → ∃ w,
    (logs.committed id)[lsn]? = some w ∧ LiesAt hash dir w lsn loc
  complete : ∀ id lsn, logs.consumed id ≤ lsn → lsn < (logs.committed id).length →
    ∃ loc, index.lookup id lsn = some loc

end StreamLogs

/-- **The engine keeps the logs.** -/
structure LeaderRun.Refines (hash : Bytes → UInt32) (s : LeaderRun) : Prop where
  sane : s.engine.Sane
  fits : s.engine.raft.store.state.Fits
  leader : s.engine.raft.state = .leader
  accepting : s.engine.raft.accepting = true
  table : s.logs.Table s.engine.core.streams
  proposed : s.logs.Proposed s.engine.core s.engine.raft.proposals
  indexed : s.logs.Indexed hash s.engine.index s.engine.dir
  applied_le : s.logs.log.applied ≤ s.lastIndex

namespace StreamLogs

variable {hash : Bytes → UInt32} {logs : StreamLogs} {t t' : StreamStateTable}

/-! ### The table -/

/-- Tables that show the same streams show the same logs. -/
theorem Table.congr (h : logs.Table t) (hsame : ∀ id, t'.ensureStream id = t.ensureStream id) :
    logs.Table t' where
  epoch id := by rw [hsame]; exact h.epoch id
  next id := by rw [hsame]; exact h.next id
  commit id := by rw [hsame]; exact h.commit id
  consumed id := by rw [hsame]; exact h.consumed id
  tail id := by rw [hsame]; exact h.tail id

/-- Accepting a write: its stream has the write's epoch and one more position. -/
theorem Table.accept (h : logs.Table t) {w : ShardRequest}
    (hw : logs.newestEpoch (streamOf w) ≤ w.request.epoch)
    (hmoved : ∀ id, t'.ensureStream id =
      if id = streamOf w then { t.ensureStream (streamOf w) with
        maxEpoch := w.request.epoch
        nextStreamLsn := (t.ensureStream (streamOf w)).nextStreamLsn + 1 }
      else t.ensureStream id) :
    (logs.accept w hw).Table t' where
  epoch id := by
    rw [hmoved, newestEpoch_accept]
    by_cases hid : id = streamOf w
    · rw [if_pos hid, if_pos hid.symm]
    · rw [if_neg hid, if_neg (Ne.symm hid)]
      exact h.epoch id
  next id := by
    rw [hmoved, written_accept]
    by_cases hid : id = streamOf w
    · rw [if_pos hid, if_pos hid.symm, List.length_append, hid, ← h.next]
      rfl
    · rw [if_neg hid, if_neg (Ne.symm hid)]
      exact h.next id
  commit id := by
    rw [hmoved, committed_accept, ← h.commit]
    split
    · rename_i hid
      rw [hid]
    · rfl
  consumed id := by
    rw [hmoved]
    split
    · rename_i hid
      rw [hid]
      exact h.consumed (streamOf w)
    · exact h.consumed id
  tail id := by
    rw [hmoved, committed_accept]
    split
    · rename_i hid
      rw [hid]
      exact h.tail (streamOf w)
    · exact h.tail id

/-- Acknowledging: the consumed position moves, and cached records may go. -/
theorem Table.ack (h : logs.Table t) (id offset : Nat) :
    (logs.consume id offset).Table (t.advanceConsumed id offset).1 where
  epoch id' := by
    rw [StreamStateTable.ensureStream_advanceConsumed]
    split
    · rename_i hid
      rw [hid]
      exact h.epoch id
    · exact h.epoch id'
  next id' := by
    rw [nextStreamLsn_advanceConsumed]
    exact h.next id'
  commit id' := by
    rw [commitStreamLsn_advanceConsumed]
    exact h.commit id'
  consumed id' := by
    rw [StreamStateTable.ensureStream_advanceConsumed, consumed_consume]
    split
    · rw [← h.consumed id]
    · exact h.consumed id'
  tail id' := by
    rw [StreamStateTable.ensureStream_advanceConsumed]
    split
    · rename_i hid
      rw [hid]
      intro record hrecord
      exact h.tail id record ((List.dropWhile_sublist _).mem hrecord)
    · exact h.tail id'

/-- A committed write stays where it is when more are committed. -/
theorem committed_commitNext_getElem? {w v : ShardRequest} (hnext : logs.log.next? = some w)
    {id lsn : Nat} (h : (logs.committed id)[lsn]? = some v) :
    (logs.commitNext.committed id)[lsn]? = some v := by
  rw [committed_commitNext logs hnext]
  split
  · rw [List.getElem?_append_left (List.getElem?_eq_some_iff.mp h).1]
    exact h
  · exact h

/-- The newly committed write is the last of its stream. -/
theorem committed_commitNext_self {w : ShardRequest} (hnext : logs.log.next? = some w) :
    (logs.commitNext.committed (streamOf w))[(logs.committed (streamOf w)).length]? = some w := by
  rw [committed_commitNext logs hnext, if_pos rfl]
  simp

/-- Applying the next write: one more position of its stream is committed, and the
tail cache may have one more record. -/
theorem Table.apply (h : logs.Table t) {w : ShardRequest} (hnext : logs.log.next? = some w)
    (raftIndex : Nat) :
    logs.commitNext.Table
      (ShardCore.applyCommand t raftIndex (logs.commandOf logs.log.applied w)) := by
  have hlsn : (logs.commandOf logs.log.applied w).streamLsn =
      (logs.committed (streamOf w)).length := rfl
  have hstream : (logs.commandOf logs.log.applied w).streamId = streamOf w := rfl
  refine ⟨fun id => ?_, fun id => ?_, fun id => ?_, fun id => ?_, fun id => ?_⟩
  all_goals rw [ShardCore.ensureStream_applyCommand, hstream]
  · -- The epoch of a write that was accepted is not newer than the stream's.
    split
    · rename_i hid
      have hmem : w ∈ logs.written (streamOf w) :=
        List.mem_filter.mpr ⟨List.mem_of_getElem? hnext, by simp⟩
      have hle := logs.epoch_le_newestEpoch hmem
      show max (t.ensureStream (streamOf w)).maxEpoch w.request.epoch = logs.newestEpoch id
      rw [hid, h.epoch, Nat.max_eq_left hle]
    · exact h.epoch id
  · -- Its position was allocated when it was accepted.
    split
    · rename_i hid
      have hlt := KeyedLog.length_committed_lt streamOf hnext
      show max (t.ensureStream (streamOf w)).nextStreamLsn
        ((logs.committed (streamOf w)).length + 1) = (logs.written id).length
      rw [hid, h.next]
      exact Nat.max_eq_left hlt
    · exact h.next id
  · rw [committed_commitNext logs hnext]
    by_cases hid : id = streamOf w
    · rw [if_pos hid, if_pos hid.symm, List.length_append, hid]
      show max (t.ensureStream (streamOf w)).commitStreamLsn
        ((logs.committed (streamOf w)).length + 1) = (logs.committed (streamOf w)).length + 1
      rw [h.commit]
      omega
    · rw [if_neg hid, if_neg (Ne.symm hid)]
      exact h.commit id
  · split
    · rename_i hid
      rw [hid]
      exact h.consumed (streamOf w)
    · exact h.consumed id
  · intro record hrecord
    split at hrecord
    · rename_i hid
      subst hid
      -- A cached record was cached before, or is the new one.
      have hmem : record ∈ (t.ensureStream (streamOf w)).tailCache ++
          [⟨(logs.committed (streamOf w)).length, raftIndex, w.request.payload⟩] :=
        List.mem_of_mem_drop hrecord
      rcases List.mem_append.mp hmem with hold | hnew
      · obtain ⟨v, hv, hpayload⟩ := h.tail (streamOf w) record hold
        exact ⟨v, committed_commitNext_getElem? hnext hv, hpayload⟩
      · rw [List.mem_singleton.mp hnew]
        exact ⟨w, committed_commitNext_self hnext, rfl⟩
    · obtain ⟨v, hv, hpayload⟩ := h.tail id record hrecord
      exact ⟨v, committed_commitNext_getElem? hnext hv, hpayload⟩

/-! ### Proposals and pending writes -/

/-- A write is proposed as the same command whatever is accepted after it. -/
theorem commandOf_accept (w v : ShardRequest)
    (hw : logs.newestEpoch (streamOf w) ≤ w.request.epoch) {i : Nat}
    (hi : i ≤ logs.log.entries.length) :
    (logs.accept w hw).commandOf i v = logs.commandOf i v := by
  have hposition := KeyedLog.position_push streamOf logs.log w v hi
  show AppendCommand.mk (i + 1) v.request.streamId v.request.epoch
    ((logs.log.push w).position streamOf i v) v.request.payload = _
  rw [hposition]
  rfl

/-- An accepted write is proposed at the number of its stream's writes. -/
theorem position_accept (w : ShardRequest) :
    (logs.log.push w).position streamOf logs.log.entries.length w =
      (logs.written (streamOf w)).length :=
  KeyedLog.position_length streamOf logs.log w

variable {core core' : ShardCore} {proposals : List Bytes}

/-- Neither the counter of request ids nor the pending writes have changed. -/
theorem Proposed.congr (h : logs.Proposed core proposals)
    (hseq : core'.requestSeq = core.requestSeq)
    (hpending : core'.pendingWrites = core.pendingWrites) : logs.Proposed core' proposals where
  requestSeq := hseq.trans h.requestSeq
  proposals := h.proposals
  pending i w hi hw := by rw [hpending]; exact h.pending i w hi hw
  fits := h.fits

/-- Acknowledging proposes nothing. -/
theorem Proposed.consume (h : logs.Proposed core proposals) (id offset : Nat)
    (hseq : core'.requestSeq = core.requestSeq)
    (hpending : core'.pendingWrites = core.pendingWrites) :
    (logs.consume id offset).Proposed core' proposals where
  requestSeq := hseq.trans h.requestSeq
  proposals := h.proposals
  pending i w hi hw := by rw [hpending]; exact h.pending i w hi hw
  fits := h.fits

/-- Accepting a write: it is proposed last, and pending under a new request id. -/
theorem Proposed.accept (h : logs.Proposed core proposals) {w : ShardRequest}
    (hw : logs.newestEpoch (streamOf w) ≤ w.request.epoch)
    (hfits : w.request.streamId < 256 ^ 8 ∧ w.request.epoch < 256 ^ 8 ∧
      w.request.payload.length < 2 ^ 32 - 40)
    (hseq : core'.requestSeq = core.requestSeq + 1)
    (hpending : core'.pendingWrites = core.pendingWrites.insert (core.requestSeq + 1)
      ⟨w.connectionId, streamOf w, w.request.epoch, (logs.written (streamOf w)).length⟩) :
    (logs.accept w hw).Proposed core' (proposals ++ [encodeAppendCommand
      ⟨core.requestSeq + 1, streamOf w, w.request.epoch, (logs.written (streamOf w)).length,
        w.request.payload⟩]) where
  requestSeq := by
    show _ = (logs.log.entries ++ [w]).length
    rw [hseq, h.requestSeq, List.length_append]
    rfl
  proposals := by
    show _ = (logs.log.entries ++ [w]).mapIdx _
    rw [List.mapIdx_concat, h.proposals, h.requestSeq]
    congr 1
    · -- The earlier proposals are the same commands.
      refine List.mapIdx_eq_mapIdx_iff.mpr fun i hi => ?_
      rw [commandOf_accept w _ hw hi.le]
    · rw [← position_accept w]
      rfl
  pending i v hi hv := by
    have hlength : logs.log.applied ≤ logs.log.entries.length := logs.log.applied_le
    rw [hpending, AssocMap.lookup_insert_eq, h.requestSeq]
    rcases Nat.lt_or_ge i logs.log.entries.length with hlt | hge
    · -- An earlier write is pending as before.
      have hold : logs.log.entries[i]? = some v := by
        rw [← hv]
        exact (List.getElem?_append_left hlt).symm
      rw [if_neg (by omega), h.pending i v hi hold]
      show _ = some (PendingClientWrite.mk v.connectionId v.request.streamId v.request.epoch
        ((logs.log.push w).position streamOf i v))
      rw [KeyedLog.position_push streamOf logs.log w v hlt.le]
      rfl
    · have hlast : i = logs.log.entries.length ∧ w = v := by
        have hv' : (logs.log.entries ++ [w])[i]? = some v := hv
        rw [List.getElem?_append_right hge] at hv'
        obtain ⟨hi', hwv⟩ := List.getElem?_eq_some_iff.mp hv'
        simp only [List.length_cons, List.length_nil] at hi'
        refine ⟨by omega, ?_⟩
        simpa using hwv
      obtain ⟨rfl, rfl⟩ := hlast
      rw [if_pos rfl, ← position_accept w]
      rfl
  fits v hv := by
    rcases List.mem_append.mp hv with hold | hnew
    · exact h.fits v hold
    · rw [List.mem_singleton.mp hnew]
      exact hfits

/-- What the next proposal to commit is. -/
theorem Proposed.next (h : logs.Proposed core proposals) {w : ShardRequest}
    (hnext : logs.log.next? = some w) :
    proposals[logs.log.applied]? =
      some (encodeAppendCommand (logs.commandOf logs.log.applied w)) := by
  rw [h.proposals, List.getElem?_mapIdx,
    show logs.log.entries[logs.log.applied]? = some w from hnext]
  rfl

/-- Applying the next write: it is not pending any more. -/
theorem Proposed.apply (h : logs.Proposed core proposals) {w : ShardRequest}
    (hnext : logs.log.next? = some w) (raftIndex : Nat) :
    logs.commitNext.Proposed
      (core.completeAppend raftIndex (logs.commandOf logs.log.applied w)).1 proposals where
  requestSeq := h.requestSeq
  proposals := h.proposals
  pending i v hi hv := by
    have happlied := KeyedLog.applied_commitNext hnext
    have hlater : logs.log.applied + 1 ≤ i := happlied ▸ hi
    show (core.pendingWrites.erase (logs.log.applied + 1)).lookup (i + 1) = _
    rw [AssocMap.lookup_erase_eq, if_neg (by omega)]
    exact h.pending i v (by omega) hv
  fits := h.fits

/-! ### The index and the files -/

variable {index index' : StreamLogIndex} {dir dir' : ShardDir}

/-- A write lies where it lies as long as its location can be read. -/
theorem LiesAt.keeps {w : ShardRequest} {lsn : Nat} {loc : RecordLocation}
    (h : LiesAt hash dir w lsn loc)
    (hkeeps : ∀ record, dir.readRecordAt hash loc = some record →
      dir'.readRecordAt hash loc = some record) : LiesAt hash dir' w lsn loc := by
  obtain ⟨record, hlsn, hpayload, hsize, hread⟩ := h
  exact ⟨record, hlsn, hpayload, hsize, fun hfits => hkeeps record (hread hfits)⟩

/-- A write whose record the writer has just appended lies where the writer was. -/
theorem liesAt_appended {writer : WalWriter} (h : WriterOk writer dir) {record : WalRecord}
    (hfits : record.Fits) (hkeeps : KeepsReadable hash (writtenDir hash writer dir record) dir')
    (w : ShardRequest) {lsn : Nat} (hlsn : record.streamLsn = lsn)
    (hpayload : record.payload = w.request.payload) :
    LiesAt hash dir' w lsn (appendLocation writer record) :=
  ⟨record, hlsn, hpayload, rfl, fun hsize =>
    hkeeps _ _ (h.readRecordAt_appended hfits hsize)⟩

/-- Accepting a write commits nothing. -/
theorem Indexed.accept (h : logs.Indexed hash index dir) (w : ShardRequest)
    (hw : logs.newestEpoch (streamOf w) ≤ w.request.epoch) :
    (logs.accept w hw).Indexed hash index dir where
  lies id lsn loc hlookup := by
    rw [committed_accept]
    exact h.lies id lsn loc hlookup
  complete id lsn hlow hhigh := by
    rw [committed_accept] at hhigh
    exact h.complete id lsn hlow hhigh

/-- Acknowledging asks less of the index. -/
theorem Indexed.ack (h : logs.Indexed hash index dir) (id offset : Nat) :
    (logs.consume id offset).Indexed hash index dir where
  lies := h.lies
  complete id' lsn hlow hhigh := by
    refine h.complete id' lsn ?_ hhigh
    rw [consumed_consume] at hlow
    split at hlow
    · rename_i hid
      rw [hid]
      omega
    · exact hlow

/-- Applying the next write: its record is at the location the index points to. -/
theorem Indexed.apply (h : logs.Indexed hash index dir) {w : ShardRequest}
    (hnext : logs.log.next? = some w) {loc : RecordLocation}
    (hkeeps : KeepsReadable hash dir dir')
    (hlies : LiesAt hash dir' w (logs.committed (streamOf w)).length loc) :
    logs.commitNext.Indexed hash
      (index.insert (streamOf w) (logs.committed (streamOf w)).length loc) dir' where
  lies id lsn loc' hlookup := by
    rw [StreamLogIndex.lookup_insert] at hlookup
    split at hlookup
    · rename_i hself
      obtain ⟨rfl, rfl⟩ := hself
      cases hlookup
      exact ⟨w, committed_commitNext_self hnext, hlies⟩
    · obtain ⟨v, hv, hold⟩ := h.lies id lsn loc' hlookup
      exact ⟨v, committed_commitNext_getElem? hnext hv, hold.keeps (hkeeps loc')⟩
  complete id lsn hlow hhigh := by
    rw [StreamLogIndex.lookup_insert]
    split
    · exact ⟨loc, rfl⟩
    · rename_i hother
      refine h.complete id lsn hlow ?_
      rw [committed_commitNext logs hnext] at hhigh
      split at hhigh
      · -- The only new position is the one that was inserted.
        rename_i hid
        rw [List.length_append, List.length_singleton] at hhigh
        rw [hid] at hother
        omega
      · exact hhigh

/-- Collecting garbage drops consumed positions, and what is left stays readable. -/
theorem Indexed.gc (h : logs.Indexed hash index dir)
    (hlookup : ∀ id lsn, index'.lookup id lsn =
      if lsn < logs.consumed id then none else index.lookup id lsn)
    (hkeeps : ∀ id lsn loc record, index'.lookup id lsn = some loc →
      dir.readRecordAt hash loc = some record → dir'.readRecordAt hash loc = some record) :
    logs.Indexed hash index' dir' where
  lies id lsn loc hloc := by
    have hold := hloc
    rw [hlookup] at hold
    split at hold
    · cases hold
    · obtain ⟨w, hw, hlies⟩ := h.lies id lsn loc hold
      exact ⟨w, hw, hlies.keeps fun record => hkeeps id lsn loc record hloc⟩
  complete id lsn hlow hhigh := by
    rw [hlookup, if_neg (by omega)]
    exact h.complete id lsn hlow hhigh

end StreamLogs

namespace LeaderRun

variable {hash : Bytes → UInt32} {s : LeaderRun}

/-! ### Steps on the engine -/

/-- Sending a response is nothing the relation sees. -/
theorem Refines.respond (h : s.Refines hash) (walReader : WalReader)
    (responses : List ShardResponse) :
    ({ s with engine := { s.engine with
      walReader := walReader
      responses := responses } } : LeaderRun).Refines hash where
  sane := ⟨h.sane.writer, h.sane.contiguous, h.sane.covered, h.sane.applied⟩
  fits := h.fits
  leader := h.leader
  accepting := h.accepting
  table := h.table
  proposed := h.proposed
  indexed := h.indexed
  applied_le := h.applied_le

/-- What the logs allow as the engine's next step. -/
structure Simulated (hash : Bytes → UInt32) (s : LeaderRun) (logs : StreamLogs) (lastIndex : Nat)
    (answers : List ShardResponse) (e : ShardEngine) : Prop where
  refines : ({ engine := e, logs := logs, lastIndex := lastIndex } : LeaderRun).Refines hash
  responses : e.responses = s.engine.responses ++ answers

/-- **Writes** are fenced and accepted as the logs say, and not answered yet when
they are accepted. -/
theorem Refines.write (h : s.Refines hash) {req : ShardRequest} (hop : req.request.op = .write)
    (hfits : req.request.streamId < 256 ^ 8 ∧ req.request.epoch < 256 ^ 8 ∧
      req.request.payload.length < 2 ^ 32 - 40) :
    ∃ e answers, s.engine.handleClientRequest hash req = .ok e ∧
      s.logs.Answers req answers ∧
      s.Simulated hash (s.logs.serve req) s.lastIndex answers e := by
  have hcall : s.engine.handleClientRequest hash req =
      s.engine.handleWrite req.connectionId (streamOf req) req.request.epoch
        req.request.payload := by
    unfold ShardEngine.handleClientRequest
    simp only [hop]
    rfl
  have hepoch := h.table.epoch (streamOf req)
  rw [hcall]
  unfold StreamLogs.Answers StreamLogs.serve
  simp only [hop]
  rcases ShardEngine.handleWrite_cases h.leader h.accepting req.connectionId (streamOf req)
    req.request.epoch req.request.payload with
    ⟨hstale, core, hwrite, hsame, hseq, hpending⟩ | ⟨hfresh, core, hwrite, hmoved, hseq, hpending⟩
  · -- A stale epoch: the logs refuse it too.
    rw [hepoch] at hstale
    have hnot : ¬ s.logs.newestEpoch (streamOf req) ≤ req.request.epoch := Nat.not_le.mpr hstale
    rw [if_neg hnot, dif_neg hnot]
    refine ⟨_, _, hwrite, rfl, ?_, ?_⟩
    · exact {
        sane := ⟨h.sane.writer, h.sane.contiguous, h.sane.covered, h.sane.applied⟩
        fits := h.fits
        leader := h.leader
        accepting := h.accepting
        table := h.table.congr hsame
        proposed := h.proposed.congr hseq hpending
        indexed := h.indexed
        applied_le := h.applied_le }
    · rw [← hepoch]
      rfl
  · -- A fresh epoch: both accept, and at the same position.
    rw [hepoch] at hfresh
    rw [if_pos hfresh, dif_pos hfresh]
    have hnext := h.table.next (streamOf req)
    rw [hnext] at hwrite hpending
    refine ⟨_, _, hwrite, rfl, ?_, (List.append_nil _).symm⟩
    exact {
      sane := ⟨h.sane.writer, h.sane.contiguous, h.sane.covered, h.sane.applied⟩
      fits := h.fits
      leader := h.leader
      accepting := h.accepting
      table := h.table.accept hfresh hmoved
      proposed := h.proposed.accept hfresh hfits hseq hpending
      indexed := h.indexed.accept req hfresh
      applied_le := h.applied_le }

/-- **Acknowledgements** move the consumed position. -/
theorem Refines.ack (h : s.Refines hash) {req : ShardRequest} (hop : req.request.op = .ack) :
    ∃ e answers, s.engine.handleClientRequest hash req = .ok e ∧
      s.logs.Answers req answers ∧
      s.Simulated hash (s.logs.serve req) s.lastIndex answers e := by
  have hcall : s.engine.handleClientRequest hash req =
      .ok (s.engine.handleAck req.connectionId (streamOf req) req.request.offset) := by
    unfold ShardEngine.handleClientRequest
    simp only [hop]
    rfl
  have heq := ShardEngine.handleAck_eq s.engine req.connectionId (streamOf req) req.request.offset
  unfold StreamLogs.Answers StreamLogs.serve
  simp only [hop]
  refine ⟨_, _, hcall, rfl, ?_, ?_⟩
  · rw [heq]
    exact {
      sane := ⟨h.sane.writer, h.sane.contiguous, h.sane.covered, h.sane.applied⟩
      fits := h.fits
      leader := h.leader
      accepting := h.accepting
      table := h.table.ack (streamOf req) req.request.offset
      proposed := h.proposed.consume _ _ rfl rfl
      indexed := h.indexed.ack (streamOf req) req.request.offset
      applied_le := h.applied_le }
  · rw [heq, ← h.table.epoch, ← h.table.consumed]
    rfl

/-- **Status requests** change nothing. -/
theorem Refines.getStatus (h : s.Refines hash) {req : ShardRequest}
    (hop : req.request.op = .getStatus) :
    ∃ e answers, s.engine.handleClientRequest hash req = .ok e ∧
      s.logs.Answers req answers ∧
      s.Simulated hash (s.logs.serve req) s.lastIndex answers e := by
  have hcall : s.engine.handleClientRequest hash req =
      .ok (s.engine.handleGetStatus req.connectionId (streamOf req)) := by
    unfold ShardEngine.handleClientRequest
    simp only [hop]
    rfl
  obtain ⟨payload, heq⟩ :=
    ShardEngine.handleGetStatus_eq s.engine req.connectionId (streamOf req)
  unfold StreamLogs.Answers StreamLogs.serve
  simp only [hop]
  refine ⟨_, [⟨req.connectionId, ⟨.ok, s.logs.newestEpoch (streamOf req),
    (s.logs.written (streamOf req)).length, payload⟩⟩], hcall, ⟨payload, rfl⟩, ?_, ?_⟩
  · rw [heq]
    exact h.respond s.engine.walReader _
  · rw [heq, ← h.table.epoch, ← h.table.next]
    rfl

/-- **Collecting garbage** keeps what is not consumed. -/
theorem Refines.gc (h : s.Refines hash) :
    s.Simulated hash s.logs s.lastIndex [] s.engine.runGc := by
  obtain ⟨walReader, heq⟩ := s.engine.runGc_eq
  rw [heq]
  refine ⟨?_, (List.append_nil _).symm⟩
  exact {
    sane := ⟨h.sane.writer.keep s.engine.gcKeeps_current, h.sane.contiguous, h.sane.covered,
      h.sane.applied⟩
    fits := h.fits
    leader := h.leader
    accepting := h.accepting
    table := h.table
    proposed := h.proposed
    indexed := h.indexed.gc
      (fun id lsn => by rw [ShardEngine.lookup_gcIndex, h.table.consumed])
      fun _ _ _ _ hlookup hread => ShardEngine.readRecordAt_gc hlookup hread
    applied_le := h.applied_le }

/-- The end of an iteration gives nothing up while the node leads. -/
theorem Refines.observe (h : s.Refines hash) :
    s.Simulated hash s.logs s.lastIndex [] s.engine.logRaftStateIfChanged := by
  have hstay := ShardCore.logRaftStateIfChanged_stay (c := s.engine.core)
    (fun _ => h.leader) s.engine.raft.leaderId
  have hsilent : (s.engine.core.logRaftStateIfChanged s.engine.raft.state
      s.engine.raft.leaderId).2 = [] := by
    unfold ShardCore.logRaftStateIfChanged
    split
    · rw [if_neg fun hdown => hdown.2 h.leader]
    · rfl
  refine ⟨?_, ?_⟩
  · unfold ShardEngine.logRaftStateIfChanged
    simp only [hstay]
    exact {
      sane := ⟨h.sane.writer, h.sane.contiguous, h.sane.covered, h.sane.applied⟩
      fits := h.fits
      leader := h.leader
      accepting := h.accepting
      table := h.table
      proposed := h.proposed.congr rfl rfl
      indexed := h.indexed
      applied_le := h.applied_le }
  · unfold ShardEngine.logRaftStateIfChanged
    simp only [hsilent]

/-- What a cycle stores and sends is nothing the relation sees, but that the node
goes on in good order. -/
theorem Refines.store (h : s.Refines hash) {ready : Ready}
    (hentries : EntriesFit s.engine.raft.store.state ready)
    (happlied : s.engine.raft.applied ≤ lastAfter s.engine.raft.store.state ready)
    (hroom : (s.engine.raft.store.state.stored ready).Fits) :
    ∃ e, s.engineStep hash (.store ready) = some e ∧ s.Simulated hash s.logs s.lastIndex [] e := by
  obtain ⟨store, hstore⟩ := PersistentStorage.storeReady_ok h.fits hentries hroom
  obtain ⟨hsane, -⟩ := h.sane.afterStore hentries happlied hstore
  obtain ⟨outbound, stepped, hsent⟩ := ShardEngine.afterStore_eq s.engine store ready
  refine ⟨s.engine.afterStore store ready, ?_, ?_, ?_⟩
  · unfold engineStep
    simp only [hstore]
  · have hagain := hsane
    rw [hsent] at hagain ⊢
    exact {
      sane := hagain
      fits := by
        show store.state.Fits
        rw [PersistentStorage.storeReady_eq_ok hstore]
        exact hroom
      leader := h.leader
      accepting := h.accepting
      table := h.table
      proposed := h.proposed
      indexed := h.indexed
      applied_le := h.applied_le }
  · rw [hsent, List.append_nil]

/-- The end of a cycle moves counters. -/
theorem Refines.advance (h : s.Refines hash) {advanced : Advanced}
    (happlied : advanced.applied ≤ s.engine.raft.store.state.lastIndex) :
    s.Simulated hash s.logs s.lastIndex [] (s.engine.advance advanced) := by
  obtain ⟨outbound, stepped, hadvance⟩ := ShardEngine.advance_eq s.engine advanced
  rw [hadvance]
  refine ⟨?_, (List.append_nil _).symm⟩
  exact {
    sane := ⟨h.sane.writer, h.sane.contiguous, h.sane.covered, happlied⟩
    fits := h.fits
    leader := h.leader
    accepting := h.accepting
    table := h.table
    proposed := h.proposed
    indexed := h.indexed
    applied_le := h.applied_le }

/-! ### Reads -/

/-- A record whose size fits the size field of a location. -/
def Short (w : ShardRequest) : Prop := w.request.payload.length < 2 ^ 32 - 48

/-- What a read of a position answers. -/
inductive ReadOutcome (s : LeaderRun) (id lsn : Nat) : Response → Prop
  /-- The position is not committed. -/
  | beyond (hw : (s.logs.committed id)[lsn]? = none) :
      ReadOutcome s id lsn ⟨.errNotFound, s.logs.newestEpoch id, lsn, []⟩
  /-- The committed write is found: it is cached, or its location can be read. -/
  | found {w : ShardRequest} (hw : (s.logs.committed id)[lsn]? = some w) (epoch : Nat)
      (hkept : Short w ∨ (s.engine.core.streams.readFromTail id lsn).isSome = true) :
      ReadOutcome s id lsn ⟨.ok, epoch, lsn, w.request.payload⟩
  /-- The committed write is neither cached nor at a location that can be read. -/
  | lost {w : ShardRequest} (hw : (s.logs.committed id)[lsn]? = some w)
      (htail : s.engine.core.streams.readFromTail id lsn = none)
      (hlong : s.logs.consumed id ≤ lsn → ¬ Short w) :
      ReadOutcome s id lsn ⟨.errNotFound, s.logs.newestEpoch id, lsn, []⟩

/-- A read that does not find the position in the tail cache. -/
theorem Refines.readStream_uncached (h : s.Refines hash) (conn : Nat) {id lsn : Nat}
    {w : ShardRequest} (hw : (s.logs.committed id)[lsn]? = some w)
    (hbelow : lsn < (s.engine.core.streams.ensureStream id).commitStreamLsn)
    (htail : s.engine.core.streams.readFromTail id lsn = none) :
    ∃ walReader response, s.ReadOutcome id lsn response ∧
      s.engine.readStream hash conn id lsn = .ok { s.engine with
        walReader := walReader
        responses := s.engine.responses ++ [⟨conn, response⟩] } := by
  have hlost : ∀ failure : WalReaderError,
      (s.engine.walReader.readRecord hash s.engine.dir id lsn s.engine.index).2 = .err failure →
      (s.logs.consumed id ≤ lsn → ¬ Short w) →
      ∃ walReader response, s.ReadOutcome id lsn response ∧
        s.engine.readStream hash conn id lsn = .ok { s.engine with
          walReader := walReader
          responses := s.engine.responses ++ [⟨conn, response⟩] } := by
    intro failure hread hlong
    obtain ⟨walReader, hresult⟩ := ShardEngine.readStream_lost hash conn hbelow htail hread
    rw [h.table.epoch] at hresult
    exact ⟨walReader, _, .lost hw htail hlong, hresult⟩
  cases hlookup : s.engine.index.lookup id lsn with
  | none =>
      refine hlost (.notFound lsn) (by rw [WalReader.readRecord_notFound hlookup]) ?_
      -- Only a consumed position may be missing from the index.
      intro hlow
      obtain ⟨loc, hloc⟩ := h.indexed.complete id lsn hlow (List.getElem?_eq_some_iff.mp hw).1
      rw [hlookup] at hloc
      cases hloc
  | some loc =>
      obtain ⟨v, hv, record, hlsn, hpayload, hsize, hread⟩ := h.indexed.lies id lsn loc hlookup
      rw [hw] at hv
      cases hv
      have hmem : w ∈ s.logs.log.entries :=
        List.mem_of_mem_take (List.mem_filter.mp (List.mem_of_getElem? hw)).1
      have hfits := (h.proposed.fits w hmem).2.2
      have hencoded : record.encodedSize = 48 + w.request.payload.length := by
        rw [← hpayload]
        rfl
      by_cases hshort : record.encodedSize < 2 ^ 32
      · obtain ⟨walReader, hresult⟩ := ShardEngine.readStream_logged hash conn
          hbelow htail hlookup (hread hshort)
        rw [hlsn, hpayload] at hresult
        have hkept : Short w := by
          unfold Short
          omega
        exact ⟨walReader, _, .found hw record.epoch (.inl hkept), hresult⟩
      · -- The location's size has wrapped to less than a header.
        have hwrapped : loc.size < recordHeaderSize := by
          rw [hsize]
          unfold recordHeaderSize
          omega
        obtain ⟨failure, hfailure⟩ := WalReader.readRecord_short
          hash s.engine.walReader s.engine.dir hlookup hwrapped
        refine hlost failure hfailure fun _ hw => ?_
        unfold Short at hw
        omega

/-- **A read** never fails, and its answer is one of the three. -/
theorem Refines.readStream (h : s.Refines hash) (conn id lsn : Nat) :
    ∃ walReader response, s.ReadOutcome id lsn response ∧
      s.engine.readStream hash conn id lsn = .ok { s.engine with
        walReader := walReader
        responses := s.engine.responses ++ [⟨conn, response⟩] } := by
  have hcommit := h.table.commit id
  cases hw : (s.logs.committed id)[lsn]? with
  | none =>
      -- The index leads to committed writes only, so there is no entry.
      have hindex : s.engine.index.lookup id lsn = none := by
        cases hlookup : s.engine.index.lookup id lsn with
        | none => rfl
        | some loc =>
            obtain ⟨w, hsome, -⟩ := h.indexed.lies id lsn loc hlookup
            rw [hw] at hsome
            cases hsome
      have hbeyond : (s.engine.core.streams.ensureStream id).commitStreamLsn ≤ lsn := by
        rw [hcommit]
        exact List.getElem?_eq_none_iff.mp hw
      have hresult := ShardEngine.readStream_beyond hash conn hbeyond hindex
      rw [h.table.epoch] at hresult
      exact ⟨s.engine.walReader, _, .beyond hw, hresult⟩
  | some w =>
      have hbelow : lsn < (s.engine.core.streams.ensureStream id).commitStreamLsn := by
        rw [hcommit]
        exact (List.getElem?_eq_some_iff.mp hw).1
      cases htail : s.engine.core.streams.readFromTail id lsn with
      | none => exact h.readStream_uncached conn hw hbelow htail
      | some tail =>
          -- The cached record of the position is the write.
          have hresult := ShardEngine.readStream_cached hash conn hbelow htail
          have hcached := htail
          rw [StreamStateTable.readFromTail_eq] at htail
          have hlsn : tail.streamLsn = lsn := by simpa using List.find?_some htail
          obtain ⟨v, hv, hpayload⟩ := h.table.tail id tail (List.mem_of_find?_eq_some htail)
          rw [hlsn, hw] at hv
          cases hv
          rw [hlsn, hpayload] at hresult
          exact ⟨s.engine.walReader, _, .found hw _ (.inr (by rw [hcached]; rfl)), hresult⟩

/-! ### Applying -/

/-- A proposal is applied as the command it decodes to. -/
theorem engineStep_applyNext {clock : Clock} {raftIndex raftTerm : Nat} {data : Bytes}
    {cmd : AppendCommand} {e : ShardEngine}
    (hdata : s.engine.raft.proposals[s.logs.log.applied]? = some data)
    (hdecode : decodeAppendCommand data = .ok cmd)
    (happly : s.engine.applyAppendEntry hash clock raftIndex raftTerm cmd = .ok e) :
    s.engineStep hash (.applyNext clock raftIndex raftTerm) = some e := by
  unfold engineStep
  simp only [hdata, Option.bind_some, hdecode, Except.toOption, happly]
  rfl

variable (hash) in
/-- With room for the snapshot, `apply_append_entry` succeeds. -/
theorem Refines.applyNext_ok (h : s.Refines hash) (clock : Clock) {raftIndex : Nat}
    {w : ShardRequest} (hnext : s.logs.log.next? = some w) (raftTerm : Nat)
    (hroom : s.SnapshotFits raftIndex) :
    ∃ e, s.engine.applyAppendEntry hash clock raftIndex raftTerm
        (s.logs.commandOf s.logs.log.applied w) = .ok e ∧
      ShardEngine.AppliedTo hash clock s.engine raftIndex raftTerm
        (s.logs.commandOf s.logs.log.applied w) e ∧ e.raft.store.state.Fits := by
  rcases h.sane.applyAppendEntry hash clock raftIndex raftTerm
      (s.logs.commandOf s.logs.log.applied w) with ⟨e, happly, hdone, hfits⟩ | ⟨-, hlong⟩
  · exact ⟨e, happly, hdone, hfits h.fits⟩
  · -- The snapshot that would be too long is the one that there is room for.
    obtain ⟨e, hack, hdue, hlength⟩ := hlong h.fits
    obtain ⟨e', hack', hdone, hraft⟩ := h.sane.acknowledge hash clock raftIndex raftTerm
      (s.logs.commandOf s.logs.log.applied w)
    rw [hack] at hack'
    cases hack'
    rw [hraft] at hdue
    rw [hdone.core] at hlength
    exact absurd (hroom hdue w hnext) (Nat.not_lt.mpr hlength)

/-- **Applying the next proposal** succeeds, commits the next accepted write and
answers its client with the write's position. -/
theorem Refines.applyNext (h : s.Refines hash) {clock : Clock} {raftIndex raftTerm : Nat}
    (hpermitted : s.Permitted (.applyNext clock raftIndex raftTerm)) :
    ∃ w e, s.logs.log.next? = some w ∧
      s.engineStep hash (.applyNext clock raftIndex raftTerm) = some e ∧
      e.core =
        (s.engine.core.completeAppend raftIndex (s.logs.commandOf s.logs.log.applied w)).1 ∧
      s.Simulated hash s.logs.commitNext raftIndex [s.logs.completion w] e := by
  obtain ⟨hsome, hrises, hindex, htime, hroom⟩ := hpermitted
  obtain ⟨w, hnext⟩ := Option.ne_none_iff_exists'.mp hsome
  have hlsn : (s.logs.committed (streamOf w)).length ≤ s.logs.log.applied :=
    KeyedLog.length_committed_le streamOf s.logs.log (streamOf w)
  have happlied := h.applied_le
  obtain ⟨hstream, hepoch, hpayload⟩ := h.proposed.fits w (List.mem_of_getElem? hnext)
  -- What was proposed is what is decoded: raft indexes bound how many writes there are.
  have hcmd : (s.logs.commandOf s.logs.log.applied w).Fits :=
    ⟨show s.logs.log.applied + 1 < 256 ^ 8 by omega, hstream, hepoch,
      show (s.logs.committed (streamOf w)).length < 256 ^ 8 by omega,
      show w.request.payload.length < 256 ^ 4 by omega⟩
  have hdecode := decodeAppendCommand_encodeAppendCommand _ hcmd
  have hlong : w.request.payload.length + 40 < 256 ^ 4 := by omega
  have hfits := ShardEngine.recordOf_fits hcmd hindex htime hlong
  obtain ⟨e, happly, hdone, hkept⟩ := h.applyNext_ok hash clock hnext raftTerm hroom
  have hpending := h.proposed.pending s.logs.log.applied w (Nat.le_refl _) hnext
  obtain ⟨store, hraft, hlast⟩ := hdone.raft
  have hlies := StreamLogs.liesAt_appended h.sane.writer hfits hdone.readable w rfl rfl
  refine ⟨w, e, hnext, ?_, hdone.core, ?_, ?_⟩
  · exact engineStep_applyNext (h.proposed.next hnext) hdecode happly
  · exact {
      sane := hdone.sane
      fits := hkept
      leader := by rw [hraft]; exact h.leader
      accepting := by rw [hraft]; exact h.accepting
      table := by
        show s.logs.commitNext.Table e.core.streams
        rw [hdone.core]
        exact h.table.apply hnext raftIndex
      proposed := by
        show s.logs.commitNext.Proposed e.core e.raft.proposals
        rw [hdone.core, hraft]
        exact h.proposed.apply hnext raftIndex
      indexed := by
        show s.logs.commitNext.Indexed hash e.index e.dir
        rw [hdone.index]
        exact h.indexed.apply hnext
          ((h.sane.writer.keepsReadable_writtenDir _).trans hdone.readable) hlies
      applied_le := by
        show s.logs.commitNext.log.applied ≤ raftIndex
        have hcommit : s.logs.commitNext.log.applied = s.logs.log.applied + 1 :=
          KeyedLog.applied_commitNext hnext
        omega }
  · rw [hdone.responses]
    show _ ++ ShardEngine.completionOf
      (s.engine.core.pendingWrites.lookup (s.logs.log.applied + 1)) = _
    rw [hpending]
    rfl

end LeaderRun

end WalServer.Shard
