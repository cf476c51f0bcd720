import WalServer.Shard.Engine
import WalServer.Wal.Append

/-!
# `WalServer.Shard.Progress`: what applying does, and how it can fail

The engine's part in one cycle of its raft node. `Sane` says what the calls of a
cycle rely on: the writer is in good order, the stored log is contiguous and ends
no sooner than raft's applied counter.

`apply_append_entry` sends its response in the middle: the record is appended and
synced before, and a snapshot may be stored behind it. `acknowledge` is the call up
to the response. From a sane engine it does not fail, and `AppliedTo` is everything
it does (`Sane.acknowledge`). What may fail behind it is the snapshot, if it is too
long for its message (`Sane.applyAppendEntry`); and nothing else does in a cycle whose
`Ready` fits the stored log and carries entries that decode (`Sane.driveReady`).
-/

set_option autoImplicit false

namespace WalServer.Shard

open WalServer.Lib WalServer.Protocol WalServer.Raft WalServer.Wal

namespace ShardEngine

/-- What the calls of a cycle rely on. -/
structure Sane (e : ShardEngine) : Prop where
  writer : WriterOk e.walWriter e.dir
  contiguous : e.raft.store.state.Contiguous
  covered : e.raft.store.state.firstIndex ≤ e.raft.store.snapshotIndex + 1
  applied : e.raft.applied ≤ e.raft.store.state.lastIndex

/-- The record that applying a command writes. -/
def recordOf (clock : Clock) (raftIndex : Nat) (cmd : AppendCommand) : WalRecord :=
  ⟨cmd.streamId, cmd.epoch, raftIndex, cmd.streamLsn, clock.record raftIndex, cmd.payload⟩

/-- The record of a command that fits its encoding fits its own. -/
theorem recordOf_fits {clock : Clock} {raftIndex : Nat} {cmd : AppendCommand} (h : cmd.Fits)
    (hindex : raftIndex < 256 ^ 8) (htime : clock.record raftIndex < 256 ^ 8)
    (hpayload : cmd.payload.length + 40 < 256 ^ 4) : (recordOf clock raftIndex cmd).Fits :=
  ⟨h.streamId, h.epoch, hindex, h.streamLsn, htime, hpayload⟩

/-- The answer to a write that has been completed, if it was pending here. -/
def completionOf : Option PendingClientWrite → List ShardResponse
  | some pending => [⟨pending.connectionId, ⟨.ok, pending.epoch, pending.streamLsn, []⟩⟩]
  | none         => []

/-- `apply_append_entry` up to its response: the record is written and synced, index and
stream table are entered, and the client is answered. -/
def acknowledge (hash : Bytes → UInt32) (clock : Clock) (e : ShardEngine)
    (raftIndex raftTerm : Nat) (cmd : AppendCommand) : Outcome EngineError ShardEngine :=
  ((e.walWriter.appendWithLogIndex hash e.dir cmd.streamId cmd.epoch cmd.streamLsn raftIndex
    cmd.payload (clock.record raftIndex) (clock.segment raftIndex)).mapErr .wal).bind
    fun (walWriter, dir, _, loc) =>
      let completed := e.core.completeAppend raftIndex cmd
      .ok (({ e with
        walWriter := walWriter
        dir := walWriter.sync dir
        index := e.index.insert cmd.streamId cmd.streamLsn loc
        core := completed.1
        handed := e.handed ++ [HandedEntry.mk raftIndex raftTerm cmd] }).sendCompletion
          completed.2)

/-- What `apply_append_entry` makes of an engine. -/
structure AppliedTo (hash : Bytes → UInt32) (clock : Clock) (e : ShardEngine)
    (raftIndex raftTerm : Nat) (cmd : AppendCommand) (e' : ShardEngine) : Prop where
  sane : e'.Sane
  core : e'.core = (e.core.completeAppend raftIndex cmd).1
  responses : e'.responses =
    e.responses ++ completionOf (e.core.completeAppend raftIndex cmd).2
  index : e'.index = e.index.insert cmd.streamId cmd.streamLsn
    (appendLocation e.walWriter (recordOf clock raftIndex cmd))
  readable : KeepsReadable hash
    (writtenDir hash e.walWriter e.dir (recordOf clock raftIndex cmd)) e'.dir
  handed : e'.handed = e.handed ++ [⟨raftIndex, raftTerm, cmd⟩]
  shardId : e'.shardId = e.shardId
  nodeId : e'.nodeId = e.nodeId
  walReader : e'.walReader = e.walReader
  outbound : e'.outbound = e.outbound
  raft : ∃ store, e'.raft = { e.raft with store := store } ∧
    store.state.lastIndex = e.raft.store.state.lastIndex

variable {hash : Bytes → UInt32} {clock : Clock} {e : ShardEngine}

/-- The rest of `apply_append_entry` looks whether a snapshot is due. -/
theorem applyAppendEntry_eq_acknowledge (hash : Bytes → UInt32) (clock : Clock) (e : ShardEngine)
    (raftIndex raftTerm : Nat) (cmd : AppendCommand) :
    e.applyAppendEntry hash clock raftIndex raftTerm cmd =
      (e.acknowledge hash clock raftIndex raftTerm cmd).bind maybeSnapshotRaftState := by
  unfold applyAppendEntry acknowledge
  cases e.walWriter.appendWithLogIndex hash e.dir cmd.streamId cmd.epoch cmd.streamLsn raftIndex
    cmd.payload (clock.record raftIndex) (clock.segment raftIndex) <;> rfl

/-- Looking for a snapshot changes the stored raft state alone. -/
theorem maybeSnapshotRaftState_eq_ok {e' : ShardEngine} (h : e.maybeSnapshotRaftState = .ok e') :
    ∃ store, e' = { e with raft := { e.raft with store := store } } := by
  unfold maybeSnapshotRaftState at h
  split at h
  · cases h
    exact ⟨_, rfl⟩
  · cases h
  · cases h

/-- A snapshot is due that is too long for its message. -/
def SnapshotTooLong (e : ShardEngine) : Prop :=
  e.raft.store.snapshotIndex + PersistentStorage.snapshotInterval ≤ e.raft.applied ∧
    2 ^ 32 ≤ e.core.streams.encodeSnapshot.length

/-- **Looking for a snapshot** succeeds, or one is too long. -/
theorem Sane.maybeSnapshotRaftState (h : e.Sane) :
    (∃ store, e.maybeSnapshotRaftState = .ok { e with raft := { e.raft with store := store } } ∧
      ({ e with raft := { e.raft with store := store } } : ShardEngine).Sane ∧
      store.state.lastIndex = e.raft.store.state.lastIndex ∧
      (e.raft.store.state.Fits → store.state.Fits)) ∨
    (e.maybeSnapshotRaftState = .err (.storage .protobuf) ∧
      (e.raft.store.state.Fits → e.SnapshotTooLong)) := by
  unfold ShardEngine.maybeSnapshotRaftState
  rcases PersistentStorage.maybeSnapshot_cases h.contiguous h.covered h.applied
      e.core.streams.encodeSnapshot with
    ⟨store, hstore, hcontiguous, hcovered, hlast, hroom⟩ | ⟨hfails, hlong⟩
  · rw [hstore]
    exact Or.inl ⟨store, rfl, ⟨h.writer, hcontiguous, hcovered, hlast ▸ h.applied⟩, hlast, hroom⟩
  · refine Or.inr ⟨?_, hlong⟩
    cases hstore : e.raft.store.maybeSnapshot e.raft.applied e.core.streams.encodeSnapshot with
    | mk store result =>
        rw [hstore] at hfails
        rw [show result = .err .protobuf from hfails]

/-- Completing a write adds its answer to the responses and changes nothing else. -/
theorem sendCompletion_eq (e : ShardEngine) (pending : Option PendingClientWrite) :
    e.sendCompletion pending = { e with responses := e.responses ++ completionOf pending } := by
  cases pending with
  | none => rw [sendCompletion, completionOf, List.append_nil]
  | some pending => rfl

variable (hash clock) in
/-- **A committed command is entered and answered**, and `AppliedTo` is what that does. -/
theorem Sane.acknowledge (h : e.Sane) (raftIndex raftTerm : Nat) (cmd : AppendCommand) :
    ∃ e', e.acknowledge hash clock raftIndex raftTerm cmd = .ok e' ∧
      AppliedTo hash clock e raftIndex raftTerm cmd e' ∧ e'.raft = e.raft := by
  obtain ⟨w', dir', happend, hwriter, hkeeps⟩ :=
    h.writer.append hash (recordOf clock raftIndex cmd) (clock.segment raftIndex)
  have happend' : e.walWriter.appendWithLogIndex hash e.dir cmd.streamId cmd.epoch cmd.streamLsn
      raftIndex cmd.payload (clock.record raftIndex) (clock.segment raftIndex) =
        .ok (w', dir', raftIndex, appendLocation e.walWriter (recordOf clock raftIndex cmd)) :=
    happend
  unfold ShardEngine.acknowledge
  rw [happend']
  simp only [Outcome.mapErr, Outcome.bind_ok, sendCompletion_eq]
  refine ⟨_, rfl, ?_, rfl⟩
  exact {
    sane := ⟨hwriter.sync, h.contiguous, h.covered, h.applied⟩
    core := rfl
    responses := rfl
    index := rfl
    readable := hkeeps.trans (keepsReadable_sync w')
    handed := rfl
    shardId := rfl
    nodeId := rfl
    walReader := rfl
    outbound := rfl
    raft := ⟨_, rfl, rfl⟩ }

variable (hash clock) in
/-- **Applying a committed command** does what `AppliedTo` says, or the snapshot that is due
behind it is too long. -/
theorem Sane.applyAppendEntry (h : e.Sane) (raftIndex raftTerm : Nat) (cmd : AppendCommand) :
    (∃ e', e.applyAppendEntry hash clock raftIndex raftTerm cmd = .ok e' ∧
      AppliedTo hash clock e raftIndex raftTerm cmd e' ∧
      (e.raft.store.state.Fits → e'.raft.store.state.Fits)) ∨
    (e.applyAppendEntry hash clock raftIndex raftTerm cmd = .err (.storage .protobuf) ∧
      (e.raft.store.state.Fits →
        ∃ e', e.acknowledge hash clock raftIndex raftTerm cmd = .ok e' ∧
          e'.SnapshotTooLong)) := by
  obtain ⟨e₁, hack, hdone, hraft⟩ := h.acknowledge hash clock raftIndex raftTerm cmd
  rw [applyAppendEntry_eq_acknowledge, hack, Outcome.bind_ok]
  rcases hdone.sane.maybeSnapshotRaftState with
    ⟨store, hstore, hsane, hlast, hroom⟩ | ⟨hfails, hlong⟩
  · rw [hraft] at hlast hroom
    refine Or.inl ⟨_, hstore, ?_, hroom⟩
    exact { hdone with
      sane := hsane
      raft := ⟨store, by rw [hraft], hlast⟩ }
  · rw [hraft] at hlong
    exact Or.inr ⟨hfails, fun hfits => ⟨e₁, rfl, hlong hfits⟩⟩

/-! ### A whole cycle -/

/-- Entries that the state machine gets to see: normal ones with data. -/
def isCommand (entry : LogEntry) : Bool :=
  entry.data ≠ [] && entry.entryType = .entryNormal

/-- The command of a committed entry, with the entry's index. -/
def commandOf (entry : LogEntry) : Option (Nat × AppendCommand) :=
  if isCommand entry then
    match decodeAppendCommand entry.data with
    | .ok cmd  => some (entry.index, cmd)
    | .error _ => none
  else none

/-- The stream table after the commands among some committed entries. -/
def applyCommands (streams : StreamStateTable) (entries : List LogEntry) : StreamStateTable :=
  (entries.filterMap commandOf).foldl (fun t c => ShardCore.applyCommand t c.1 c.2) streams

/-- An entry that the loop hands on, as `handed` records it. -/
def handedOf (h : HandedEntry) : Nat × Nat × Except CommandError AppendCommand :=
  (h.index, h.term, .ok h.cmd)

/-- What is to be handed on of a committed entry. -/
def dueOf (entry : LogEntry) : Nat × Nat × Except CommandError AppendCommand :=
  (entry.index, entry.term, decodeAppendCommand entry.data)

/-- The loop skips an entry that is no command. -/
theorem applyCommittedEntries_skip {entry : LogEntry} (h : isCommand entry = false)
    (rest : List LogEntry) (e : ShardEngine) :
    applyCommittedEntries hash clock (entry :: rest) e =
      applyCommittedEntries hash clock rest e := by
  rw [applyCommittedEntries]
  by_cases hdata : entry.data = []
  · rw [if_pos hdata]
  · have htype : entry.entryType ≠ .entryNormal := by simpa [isCommand, hdata] using h
    rw [if_neg hdata, if_pos htype]

/-- It decodes any other one and hands its command on. -/
theorem applyCommittedEntries_command {entry : LogEntry} (h : isCommand entry = true)
    (rest : List LogEntry) (e : ShardEngine) :
    applyCommittedEntries hash clock (entry :: rest) e =
      match decodeAppendCommand entry.data with
      | .error failure => .err (.command failure)
      | .ok cmd        =>
          (e.applyAppendEntry hash clock entry.index entry.term cmd).bind
            (applyCommittedEntries hash clock rest) := by
  obtain ⟨hdata, htype⟩ : entry.data ≠ [] ∧ entry.entryType = .entryNormal := by
    simpa [isCommand] using h
  unfold applyCommittedEntries
  exact (if_neg hdata).trans (if_neg (not_not.mpr htype))

theorem commandOf_skip {entry : LogEntry} (h : isCommand entry = false) :
    commandOf entry = none := by
  rw [commandOf, if_neg (by simp [h])]

theorem commandOf_command {entry : LogEntry} (h : isCommand entry = true) {cmd : AppendCommand}
    (hdecode : decodeAppendCommand entry.data = .ok cmd) :
    commandOf entry = some (entry.index, cmd) := by
  rw [commandOf, if_pos h, hdecode]

/-- What a completed call of `apply_append_entry` did. -/
theorem applyAppendEntry_eq_ok {e' : ShardEngine} {raftIndex raftTerm : Nat} {cmd : AppendCommand}
    (h : e.applyAppendEntry hash clock raftIndex raftTerm cmd = .ok e') :
    e'.handed = e.handed ++ [⟨raftIndex, raftTerm, cmd⟩] ∧
      e'.core = (e.core.completeAppend raftIndex cmd).1 := by
  obtain ⟨⟨w, dir, _, loc⟩, -, hrest⟩ := Outcome.bind_eq_ok.mp h
  simp only [sendCompletion_eq] at hrest
  obtain ⟨store, rfl⟩ := maybeSnapshotRaftState_eq_ok hrest
  exact ⟨rfl, rfl⟩

/-- **The loop over committed entries** hands on the normal entries with data, all
of them, in order, and their commands are what it does to the stream table. -/
theorem applyCommittedEntries_eq_ok {entries : List LogEntry} {e e' : ShardEngine}
    (h : applyCommittedEntries hash clock entries e = .ok e') :
    (∃ new, e'.handed = e.handed ++ new ∧
      new.map handedOf = (entries.filter isCommand).map dueOf) ∧
    e'.core.streams = applyCommands e.core.streams entries := by
  induction entries generalizing e with
  | nil =>
      cases h
      exact ⟨⟨[], (List.append_nil _).symm, rfl⟩, rfl⟩
  | cons entry rest ih =>
      cases hcommand : isCommand entry with
      | true =>
          -- The entry is handed on, and the rest follows it.
          rw [applyCommittedEntries_command hcommand] at h
          cases hdecode : decodeAppendCommand entry.data with
          | error failure =>
              rw [hdecode] at h
              cases h
          | ok cmd =>
              rw [hdecode] at h
              obtain ⟨e₁, happly, hrest⟩ := Outcome.bind_eq_ok.mp h
              obtain ⟨hhanded, hcore⟩ := applyAppendEntry_eq_ok happly
              obtain ⟨⟨new, hnew, hdue⟩, hstreams⟩ := ih hrest
              refine ⟨⟨⟨entry.index, entry.term, cmd⟩ :: new, ?_, ?_⟩, ?_⟩
              · rw [hnew, hhanded, List.append_assoc, List.singleton_append]
              · rw [List.filter_cons_of_pos hcommand, List.map_cons, List.map_cons, hdue, handedOf,
                  dueOf, hdecode]
              · rw [hstreams, hcore, applyCommands, applyCommands,
                  List.filterMap_cons_some (commandOf_command hcommand hdecode), List.foldl_cons]
                rfl
      | false =>
          rw [applyCommittedEntries_skip hcommand] at h
          obtain ⟨⟨new, hnew, hdue⟩, hstreams⟩ := ih h
          refine ⟨⟨new, hnew, ?_⟩, ?_⟩
          · rw [List.filter_cons_of_neg (by simp [hcommand]), hdue]
          · rw [hstreams, applyCommands, applyCommands,
              List.filterMap_cons_none (commandOf_skip hcommand)]

/-- Sending messages touches the outbound queue and the raft node's inbox only. -/
theorem dispatchRaftMessages_eq (e : ShardEngine) (messages : List Message) :
    ∃ outbound stepped, e.dispatchRaftMessages messages =
      { e with outbound := outbound, raft := { e.raft with stepped := stepped } } := by
  unfold dispatchRaftMessages
  induction messages generalizing e with
  | nil => exact ⟨e.outbound, e.raft.stepped, rfl⟩
  | cons msg rest ih =>
      rw [List.foldl_cons]
      split
      · exact ih _
      · exact ih _

/-- Storing and sending leave the rest of the engine alone. -/
theorem afterStore_eq (e : ShardEngine) (store : PersistentStorage) (ready : Ready) :
    ∃ outbound stepped, e.afterStore store ready =
      { e with
        outbound := outbound
        raft := { e.raft with store := store, stepped := stepped } } := by
  obtain ⟨outbound, stepped, hsent⟩ := dispatchRaftMessages_eq
    { e with raft := { e.raft with store := store } } ready.messages
  obtain ⟨outbound', stepped', hsent'⟩ := dispatchRaftMessages_eq
    (({ e with raft := { e.raft with store := store } } : ShardEngine).dispatchRaftMessages
      ready.messages) ready.persistedMessages
  rw [hsent] at hsent'
  unfold afterStore
  rw [hsent]
  exact ⟨outbound', stepped', hsent'⟩

/-- The end of a cycle moves the counters and leaves the rest alone. -/
theorem advance_eq (e : ShardEngine) (advanced : Advanced) :
    ∃ outbound stepped, e.advance advanced =
      { e with outbound := outbound, raft := { e.raft with
        committed := advanced.committed, applied := advanced.applied, stepped := stepped } } :=
  dispatchRaftMessages_eq _ _

/-- **What a completed cycle did**: it handed on the commands among the `Ready`'s
committed entries, and those of the light ready it did not. -/
theorem driveReady_eq_ok {ready : Ready} {advanced : Advanced} {e' : ShardEngine}
    (h : e.driveReady hash clock ready advanced = .ok e') :
    (∃ new, e'.handed = e.handed ++ new ∧
      new.map handedOf = (ready.committedEntries.filter isCommand).map dueOf) ∧
    e'.core.streams = applyCommands e.core.streams ready.committedEntries := by
  unfold driveReady at h
  split at h
  · cases h
  · cases h
  · rename_i store hstore
    obtain ⟨e₁, hloop, hret⟩ := Outcome.bind_eq_ok.mp h
    cases hret
    obtain ⟨outbound, stepped, hsent⟩ := afterStore_eq e store ready
    obtain ⟨outbound', stepped', hadvance⟩ := advance_eq e₁ advanced
    rw [hsent] at hloop
    rw [hadvance]
    have hfacts := applyCommittedEntries_eq_ok hloop
    exact hfacts

variable (hash clock) in
/-- The loop over committed entries succeeds when their commands decode, or a snapshot is
too long. -/
theorem Sane.applyCommittedEntries {entries : List LogEntry} {e : ShardEngine} (h : e.Sane)
    (hdecode : ∀ entry ∈ entries, isCommand entry →
      ∃ cmd, decodeAppendCommand entry.data = .ok cmd) :
    (∃ e', ShardEngine.applyCommittedEntries hash clock entries e = .ok e' ∧ e'.Sane ∧
      e'.raft.store.state.lastIndex = e.raft.store.state.lastIndex) ∨
    ShardEngine.applyCommittedEntries hash clock entries e = .err (.storage .protobuf) := by
  induction entries generalizing e with
  | nil => exact Or.inl ⟨e, rfl, h, rfl⟩
  | cons entry rest ih =>
      have hrest := fun {e : ShardEngine} (he : e.Sane) =>
        ih he fun entry' hmem => hdecode entry' (List.mem_cons_of_mem entry hmem)
      cases hcommand : isCommand entry with
      | false =>
          rw [applyCommittedEntries_skip hcommand]
          exact hrest h
      | true =>
          obtain ⟨cmd, hcmd⟩ := hdecode entry List.mem_cons_self hcommand
          rw [applyCommittedEntries_command hcommand, hcmd]
          show (∃ e', (e.applyAppendEntry hash clock entry.index entry.term cmd).bind _ = _ ∧ _) ∨
            (e.applyAppendEntry hash clock entry.index entry.term cmd).bind _ = _
          rcases h.applyAppendEntry hash clock entry.index entry.term cmd with
            ⟨e₁, happly, happlied, -⟩ | ⟨hfails, -⟩
          · obtain ⟨store, hraft, hlast⟩ := happlied.raft
            rw [happly, Outcome.bind_ok]
            refine (hrest happlied.sane).imp_left ?_
            rintro ⟨e', hloop, hsane, hlast'⟩
            exact ⟨e', hloop, hsane, hlast'.trans (by rw [hraft]; exact hlast)⟩
          · rw [hfails]
            exact Or.inr rfl

/-- What raft promises of a cycle, by the stored log before it: the entries fit
the log and overwrite nothing applied, `advance` has nothing applied that is not
stored, and commands decode. -/
structure CycleContract (e : ShardEngine) (ready : Ready) (advanced : Advanced) : Prop where
  entries : EntriesFit e.raft.store.state ready
  applied : e.raft.applied ≤ lastAfter e.raft.store.state ready
  advanced : advanced.applied ≤ lastAfter e.raft.store.state ready
  decode : ∀ entry ∈ ready.committedEntries, isCommand entry →
    ∃ cmd, decodeAppendCommand entry.data = .ok cmd

/-- **Storing and sending** leaves the engine sane when the entries fit the log. -/
theorem Sane.afterStore (h : e.Sane) {ready : Ready}
    (hentries : EntriesFit e.raft.store.state ready)
    (happlied : e.raft.applied ≤ lastAfter e.raft.store.state ready) {store : PersistentStorage}
    (hstore : e.raft.store.storeReady ready = (store, .ok ())) :
    (e.afterStore store ready).Sane ∧
      (e.afterStore store ready).raft.store.state.lastIndex =
        lastAfter e.raft.store.state ready := by
  obtain ⟨hcontiguous, hfirst, hlast, -, hsnapshot⟩ := h.contiguous.stored hentries
  rw [← PersistentStorage.storeReady_eq_ok hstore] at hcontiguous hfirst hlast hsnapshot
  obtain ⟨outbound, stepped, hsent⟩ := afterStore_eq e store ready
  rw [hsent]
  refine ⟨⟨h.writer, hcontiguous, ?_, ?_⟩, hlast⟩
  · show store.state.firstIndex ≤ store.state.snapshot.metadata.index + 1
    rw [hfirst, hsnapshot]
    split
    · exact h.covered
    · exact Nat.le_refl _
  · show e.raft.applied ≤ store.state.lastIndex
    rw [hlast]
    exact happlied

variable (hash clock) in
/-- **A cycle succeeds** and leaves the engine sane, or its file has no room for what is to
be stored. -/
theorem Sane.driveReady (h : e.Sane) {ready : Ready} {advanced : Advanced}
    (hcycle : CycleContract e ready advanced) :
    (∃ e', e.driveReady hash clock ready advanced = .ok e' ∧ e'.Sane) ∨
      e.driveReady hash clock ready advanced = .err (.storage .protobuf) := by
  unfold ShardEngine.driveReady
  cases hcall : e.raft.store.storeReady ready with
  | mk store result =>
      have hcases := PersistentStorage.storeReady_cases hcycle.entries
      rw [hcall] at hcases
      rcases hcases with rfl | rfl
      · obtain ⟨hsane, hlast⟩ := h.afterStore hcycle.entries hcycle.applied hcall
        show (∃ e', (ShardEngine.applyCommittedEntries hash clock ready.committedEntries
          (e.afterStore store ready)).bind _ = _ ∧ _) ∨ Outcome.bind _ _ = _
        rcases hsane.applyCommittedEntries hash clock hcycle.decode with
          ⟨e₁, hloop, hsane₁, hlast₁⟩ | hfails
        · obtain ⟨outbound', stepped', hadvance⟩ := advance_eq e₁ advanced
          rw [hloop, Outcome.bind_ok]
          refine Or.inl ⟨_, rfl, ?_⟩
          rw [hadvance]
          refine ⟨hsane₁.writer, hsane₁.contiguous, hsane₁.covered, ?_⟩
          show advanced.applied ≤ e₁.raft.store.state.lastIndex
          rw [hlast₁, hlast]
          exact hcycle.advanced
        · rw [hfails]
          exact Or.inr rfl
      · exact Or.inr rfl

/-! ### The first start -/

/-- The engine that starts on an empty directory. -/
def freshEngine (shardId : Nat) (config : ServerConfig) (createdTsNs : Nat) : ShardEngine where
  shardId := shardId
  nodeId := config.nodeId
  walWriter := ⟨shardId, 0, segmentHeaderSize, 0, 1, config.segmentMaxBytes⟩
  dir := ShardDir.empty.insert
    ⟨0, encodeSegmentHeader shardId 0 createdTsNs, 0, zero_le_firstHeader shardId createdTsNs⟩
  walReader := .new shardId
  index := .new
  core := .opened (.new config.tailCacheEntries)
  raft := ⟨.follower, 0, 1, 0, true, PersistentStorage.openStorage none ⟨config.voters⟩, [], []⟩
  responses := []
  outbound := []
  handed := []

theorem openEngine_fresh (hash : Bytes → UInt32) (shardId : Nat) (config : ServerConfig)
    (createdTsNs : Nat) :
    openEngine hash shardId config none .empty createdTsNs =
      .ok (freshEngine shardId config createdTsNs) := rfl

/-- A fresh engine is in good order. -/
theorem sane_freshEngine (shardId : Nat) (config : ServerConfig) (createdTsNs : Nat) :
    (freshEngine shardId config createdTsNs).Sane where
  writer := by
    have hlength := length_encodeSegmentHeader shardId 0 createdTsNs
    refine ⟨⟨_, rfl, hlength.symm⟩, fun f hf => ?_⟩
    rw [List.mem_singleton.mp hf]
    exact Nat.zero_lt_one
  contiguous := ⟨rfl, trivial⟩
  covered := Nat.le_refl _
  applied := Nat.zero_le _

end ShardEngine

end WalServer.Shard
