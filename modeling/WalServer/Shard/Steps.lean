import WalServer.Raft.Held
import WalServer.Shard.Progress
import WalServer.Shard.Serving
import WalServer.Wal.Opened

/-!
# `WalServer.Shard.Steps`: which parts of an engine a call changes

One inversion for each call of the engine, about calls that have returned, with
nothing assumed of the engine before. Each says what the engine is afterwards, as
the engine before with some fields set: client requests
(`handleClientRequest_eq_ok`), `apply_append_entry` (`Applies.eq`) and `open`
(`openEngine_eq_ok`). Results about runs start from these equations and never
unfold a call.
-/

set_option autoImplicit false

namespace WalServer.Shard

open WalServer.Lib WalServer.Protocol WalServer.Raft WalServer.Wal

namespace ShardEngine

variable {hash : Bytes → UInt32} {clock : Clock} {e e' : ShardEngine}

/-! ### Requests -/

/-- What a request does to the engine's core: a write on a leader is admitted or
refused, an acknowledgement moves its stream's consumed position. -/
def coreAfter (e : ShardEngine) (req : ShardRequest) : ShardCore :=
  match req.request.op with
  | .write =>
      if e.raft.state = .leader then
        (e.core.admitWrite req.connectionId req.request.streamId req.request.epoch
          req.request.payload).1
      else e.core
  | .ack => { e.core with
      streams := (e.core.streams.advanceConsumed req.request.streamId req.request.offset).1 }
  | .read | .getStatus => e.core

/-- A read may open a file, and is answered. -/
theorem readStream_eq_ok {conn id lsn : Nat} (h : e.readStream hash conn id lsn = .ok e') :
    ∃ walReader r, r.connectionId = conn ∧
      e' = { e with walReader := walReader, responses := e.responses ++ [r] } := by
  unfold readStream at h
  simp only at h
  split at h
  · cases h
    exact ⟨_, ⟨conn, _⟩, rfl, rfl⟩
  · split at h
    · cases h
      exact ⟨_, ⟨conn, _⟩, rfl, rfl⟩
    · split at h
      · cases h
        exact ⟨_, ⟨conn, _⟩, rfl, rfl⟩
      · cases h
        exact ⟨_, ⟨conn, _⟩, rfl, rfl⟩
      · cases h

/-- **What a handled request changes**: the core, the reader's open files, the
responses and the proposals. -/
theorem handleClientRequest_eq_ok {req : ShardRequest}
    (h : e.handleClientRequest hash req = .ok e') :
    ∃ walReader responses proposals, e' = { e with
      core := e.coreAfter req
      walReader := walReader
      responses := responses
      raft := { e.raft with proposals := proposals } } := by
  unfold handleClientRequest at h
  unfold coreAfter
  cases hop : req.request.op with
  | write =>
      simp only [hop] at h ⊢
      unfold handleWrite at h
      by_cases hleader : e.raft.state = .leader
      · rw [if_neg (not_not.mpr hleader)] at h
        rw [if_pos hleader]
        split at h
        · -- The write is refused for its epoch.
          rename_i hwrite
          cases h
          rw [hwrite]
          exact ⟨_, _, _, rfl⟩
        · -- The proposal may be dropped, and then the call fails.
          rename_i hwrite
          split at h
          · cases h
            rw [hwrite]
            exact ⟨_, _, _, rfl⟩
          · cases h
      · rw [if_pos hleader] at h
        rw [if_neg hleader]
        cases h
        exact ⟨_, _, _, rfl⟩
  | read =>
      simp only [hop] at h
      unfold handleRead at h
      split at h
      · cases h
        exact ⟨_, _, _, rfl⟩
      · obtain ⟨walReader, r, -, rfl⟩ := readStream_eq_ok h
        exact ⟨_, _, _, rfl⟩
  | ack =>
      simp only [hop] at h
      cases h
      exact ⟨_, _, _, rfl⟩
  | getStatus =>
      simp only [hop] at h
      cases h
      unfold handleGetStatus
      split
      · exact ⟨_, _, _, rfl⟩
      · exact ⟨_, _, _, rfl⟩

/-! ### Applying -/

/-- **What a command changes that is entered and answered.** The record is appended and
synced, and index and core are entered. -/
theorem acknowledge_eq {raftIndex raftTerm : Nat} {cmd : AppendCommand}
    (h : e.acknowledge hash clock raftIndex raftTerm cmd = .ok e') :
    ∃ w dir n,
      e.walWriter.appendWithLogIndex hash e.dir cmd.streamId cmd.epoch cmd.streamLsn raftIndex
        cmd.payload (clock.record raftIndex) (clock.segment raftIndex) =
          .ok (w, dir, n, appendLocation e.walWriter (recordOf clock raftIndex cmd)) ∧
      e' = { e with
        walWriter := w
        dir := w.sync dir
        index := e.index.insert cmd.streamId cmd.streamLsn
          (appendLocation e.walWriter (recordOf clock raftIndex cmd))
        core := (e.core.completeAppend raftIndex cmd).1
        responses := e.responses ++ completionOf (e.core.completeAppend raftIndex cmd).2
        handed := e.handed ++ [⟨raftIndex, raftTerm, cmd⟩] } := by
  obtain ⟨⟨w, dir, n, loc⟩, happend, hrest⟩ := Outcome.bind_eq_ok.mp h
  have happend' := Outcome.mapErr_eq_ok.mp happend
  obtain ⟨-, rfl⟩ := keepsFiles_append (r := recordOf clock raftIndex cmd) happend'
  rw [← Outcome.ok.inj hrest, sendCompletion_eq]
  exact ⟨w, dir, n, happend', rfl⟩

/-- A call of `apply_append_entry` has entered and answered a command, and behind that it
has succeeded, or failed. -/
def Applies (hash : Bytes → UInt32) (clock : Clock) (e : ShardEngine) (raftIndex raftTerm : Nat)
    (cmd : AppendCommand) (e' : ShardEngine) : Prop :=
  e.applyAppendEntry hash clock raftIndex raftTerm cmd = .ok e' ∨
    e.acknowledge hash clock raftIndex raftTerm cmd = .ok e'

/-- **What an application changes.** The record is appended and synced, index and core are
entered, and the storage is the one that a snapshot of the new table may have been stored
in. -/
theorem Applies.eq {raftIndex raftTerm : Nat} {cmd : AppendCommand}
    (h : e.Applies hash clock raftIndex raftTerm cmd e') :
    ∃ w dir n store responses,
      e.walWriter.appendWithLogIndex hash e.dir cmd.streamId cmd.epoch cmd.streamLsn raftIndex
        cmd.payload (clock.record raftIndex) (clock.segment raftIndex) =
          .ok (w, dir, n, appendLocation e.walWriter (recordOf clock raftIndex cmd)) ∧
      e.raft.store.SnapshotTried e.raft.applied
        (ShardCore.applyCommand e.core.streams raftIndex cmd).encodeSnapshot store ∧
      e' = { e with
        walWriter := w
        dir := w.sync dir
        index := e.index.insert cmd.streamId cmd.streamLsn
          (appendLocation e.walWriter (recordOf clock raftIndex cmd))
        core := (e.core.completeAppend raftIndex cmd).1
        responses := responses
        handed := e.handed ++ [⟨raftIndex, raftTerm, cmd⟩]
        raft := { e.raft with store := store } } := by
  rcases h with happly | hack
  · rw [applyAppendEntry_eq_acknowledge] at happly
    obtain ⟨e₁, hack, hsnapshot⟩ := Outcome.bind_eq_ok.mp happly
    obtain ⟨w, dir, n, happend, rfl⟩ := acknowledge_eq hack
    unfold maybeSnapshotRaftState at hsnapshot
    split at hsnapshot
    · rename_i store hstore
      cases hsnapshot
      exact ⟨w, dir, n, store, _, happend, Or.inr hstore, rfl⟩
    · cases hsnapshot
    · cases hsnapshot
  · obtain ⟨w, dir, n, happend, rfl⟩ := acknowledge_eq hack
    exact ⟨w, dir, n, e.raft.store, _, happend, Or.inl rfl, rfl⟩

/-- **The rule for the loop over committed entries**: what every application keeps,
the loop keeps. -/
theorem applyCommittedEntries_invariant {I : ShardEngine → Prop}
    (hstep : ∀ e e' raftIndex raftTerm cmd, I e →
      e.applyAppendEntry hash clock raftIndex raftTerm cmd = .ok e' → I e')
    {entries : List LogEntry} (he : I e)
    (h : applyCommittedEntries hash clock entries e = .ok e') : I e' := by
  induction entries generalizing e with
  | nil =>
      cases h
      exact he
  | cons entry rest ih =>
      cases hcommand : isCommand entry with
      | false =>
          rw [applyCommittedEntries_skip hcommand] at h
          exact ih he h
      | true =>
          rw [applyCommittedEntries_command hcommand] at h
          split at h
          · cases h
          · obtain ⟨e₁, happly, hrest⟩ := Outcome.bind_eq_ok.mp h
            exact ih (hstep _ _ _ _ _ he happly) hrest

/-- **The rule for a cycle**: what every application and every change of the raft
node and the outbound queue keep, a cycle keeps. -/
theorem driveReady_invariant {I : ShardEngine → Prop}
    (hraft : ∀ e outbound raft, I e → I { e with outbound := outbound, raft := raft })
    (hstep : ∀ e e' raftIndex raftTerm cmd, I e →
      e.applyAppendEntry hash clock raftIndex raftTerm cmd = .ok e' → I e')
    {ready : Ready} {advanced : Advanced} (he : I e)
    (h : e.driveReady hash clock ready advanced = .ok e') : I e' := by
  unfold driveReady at h
  split at h
  · cases h
  · cases h
  · rename_i store _
    obtain ⟨e₁, hloop, hret⟩ := Outcome.bind_eq_ok.mp h
    cases hret
    obtain ⟨outbound, stepped, hsent⟩ := afterStore_eq e store ready
    obtain ⟨outbound', stepped', hadvance⟩ := advance_eq e₁ advanced
    rw [hadvance]
    refine hraft _ _ _ (applyCommittedEntries_invariant hstep ?_ hloop)
    rw [hsent]
    exact hraft _ _ _ he

/-! ### Opening -/

/-- **What an opening that succeeds returns.** -/
theorem openEngine_eq_ok {shardId : Nat} {config : ServerConfig} {file : Option PersistentState}
    {dir : ShardDir} {createdTsNs : Nat}
    (h : openEngine hash shardId config file dir createdTsNs = .ok e) :
    ∃ recovered w dir' index streams,
      StreamStateTable.decodeSnapshot config.tailCacheEntries
        (PersistentStorage.openStorage file ⟨config.voters⟩).state.snapshot.data = .ok recovered ∧
      openDir hash shardId dir ⟨config.segmentMaxBytes, config.tailCacheEntries, some recovered,
        (PersistentStorage.openStorage file ⟨config.voters⟩).snapshotIndex, createdTsNs⟩ =
          .ok (w, dir', index, streams) ∧
      e = {
        shardId := shardId
        nodeId := config.nodeId
        walWriter := w
        dir := dir'
        walReader := .new shardId
        index := index
        core := .opened streams
        raft := ⟨.follower, 0,
          (PersistentStorage.openStorage file ⟨config.voters⟩).state.hardState.commit,
          (PersistentStorage.openStorage file ⟨config.voters⟩).state.firstIndex - 1, true,
          PersistentStorage.openStorage file ⟨config.voters⟩, [], []⟩
        responses := []
        outbound := []
        handed := [] } := by
  unfold openEngine at h
  simp only at h
  split at h
  · cases h
  · -- The table of the snapshot is what the log is replayed onto.
    rename_i recovered hdecode
    obtain ⟨⟨w, dir', index, streams⟩, hopen, hret⟩ := Outcome.bind_eq_ok.mp h
    cases hret
    exact ⟨recovered, w, dir', index, streams, hdecode, Outcome.mapErr_eq_ok.mp hopen, rfl⟩

end ShardEngine

end WalServer.Shard
