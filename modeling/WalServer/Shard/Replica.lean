import WalServer.Lib.Transition
import WalServer.Raft.Held
import WalServer.Shard.Steps

/-!
# `WalServer.Shard.Replica`: one replica over processes and crashes

One replica of a shard: an engine that is handed the entries of the group's
committed log, serves clients, collects garbage, and stops at any time. It stops by
itself when a call fails, and of a call that stores raft's state or applies a command
what it did before it failed stays. A new process starts on what the stop has left: one
of the states that the raft storage's file has held, and a directory of segment files.
Raft then hands on the entries from the first one on that the stored log has, those
again which the old process had already applied.

The committed log is a parameter, a function from raft indexes to commands; an
index without one is an entry that `drive_ready` skips. What the steps are given,
the raft crate's answers and what a crash leaves of the directory, is not
restricted here. Each result says which of it it relies on.

Beside the engine a replica records what its results are about, in fields that no
step reads but `cursor`: where raft has got to, the newest index that was ever
handed on, the highest consumed positions, the positions that were committed and
not acknowledged since, and the records of the log.
-/

set_option autoImplicit false

namespace WalServer.Shard

open WalServer.Lib WalServer.Protocol WalServer.Raft WalServer.Wal

/-- A replica and its record. -/
structure Replica where
  engine : ShardEngine
  /-- The records that opening has found and that were appended since, less those in
  files that were removed. -/
  logged : List (WalRecord × RecordLocation)
  /-- The raft index that is handed on next, or a later one. -/
  cursor : Nat
  /-- The newest raft index that was handed on, in this process or an earlier one. -/
  high : Nat
  /-- The highest position of a stream that was ever acknowledged. -/
  peak : Nat → Nat
  /-- The positions that were committed and not acknowledged since. -/
  fresh : List (Nat × Nat)
  /-- A call has failed, and the process has ended. -/
  stopped : Bool

/-- What happens to a replica. -/
inductive ReplicaAction where
  /-- A client request is handled. -/
  | request (req : ShardRequest)
  /-- The raft node steps messages, ticks, campaigns. -/
  | role (state : StateRole) (leaderId committed : Nat) (accepting : Bool)
  /-- A cycle stores and sends what the raft node has ready. -/
  | store (ready : Ready)
  /-- The committed entry of a raft index is handed on. -/
  | apply (clock : Clock) (raftIndex raftTerm : Nat)
  /-- A cycle ends. -/
  | advance (advanced : Advanced)
  /-- A loop iteration ends. -/
  | observe
  /-- Garbage is collected. -/
  | gc
  /-- The process stops, and a new one starts on the given directory and the given one
  of the states that the raft storage's file has held. -/
  | restart (dir : ShardDir) (file : Nat) (config : ServerConfig) (createdTsNs : Nat)

namespace Replica

section

variable (hash : Bytes → UInt32) (log : Nat → Option AppendCommand)

/-- The stream table of a replica. -/
def table (s : Replica) : StreamStateTable := s.engine.core.streams

/-- What the replica records of a request. -/
def noteRequest (s : Replica) (req : ShardRequest) (e : ShardEngine) : Replica :=
  match req.request.op with
  | .ack => { s with
      engine := e
      peak := fun id => if id = req.request.streamId then max (s.peak id) req.request.offset
        else s.peak id
      fresh := s.fresh.filter fun p =>
        ¬ (p.1 = req.request.streamId ∧ p.2 < req.request.offset) }
  | _ => { s with engine := e }

/-- What the replica records of an applied command, and whether the process has ended behind
it. -/
def noteApplied (s : Replica) (clock : Clock) (raftIndex : Nat) (cmd : AppendCommand)
    (e : ShardEngine) (stopped : Bool) : Replica where
  engine := e
  logged := s.logged ++ [(ShardEngine.recordOf clock raftIndex cmd,
    appendLocation s.engine.walWriter (ShardEngine.recordOf clock raftIndex cmd))]
  cursor := raftIndex + 1
  high := max s.high raftIndex
  peak := s.peak
  fresh := if s.high < raftIndex then (cmd.streamId, cmd.streamLsn) :: s.fresh else s.fresh
  stopped := stopped

/-- Inputs have the widths of the source's types: raft indexes and clock readings are
64-bit, and so are the fields of a command. -/
def Typed (_ : Replica) : ReplicaAction → Prop
  | .apply clock raftIndex _ =>
      raftIndex < 256 ^ 8 ∧ clock.record raftIndex < 256 ^ 8 ∧ ∀ cmd ∈ log raftIndex, cmd.Fits
  | _ => True

instance (s : Replica) (a : ReplicaAction) : Decidable (Typed log s a) := by
  rcases a with _ | _ | _ | _ | _ | _ | _ | _ <;> dsimp only [Typed] <;> infer_instance

/-- What opening finds in a directory. -/
def foundOn (dir : ShardDir) : List (WalRecord × RecordLocation) :=
  match replaySegments hash dir.files with
  | .ok found => found
  | _         => []

/-- The replica once a `Ready` is stored. A call that fails leaves what it has stored. -/
def storeReady (s : Replica) (ready : Ready) : Replica :=
  match s.engine.raft.store.storeReady ready with
  | (store, .ok ()) => { s with engine := s.engine.afterStore store ready }
  | (store, _)      => { s with
      engine := { s.engine with raft := { s.engine.raft with store := store } }
      stopped := true }

/-- The replica once a command is applied. A call that fails behind its response leaves the
record and the response. -/
def applyAppendEntry (s : Replica) (clock : Clock) (raftIndex raftTerm : Nat)
    (cmd : AppendCommand) : Option Replica :=
  match s.engine.applyAppendEntry hash clock raftIndex raftTerm cmd with
  | .ok e => some (s.noteApplied clock raftIndex cmd e s.stopped)
  | _     => (s.engine.acknowledge hash clock raftIndex raftTerm cmd).toOption.map fun e =>
      s.noteApplied clock raftIndex cmd e true

/-- The step function of a replica. -/
def step (s : Replica) : ReplicaAction → Option Replica
  | .request req =>
      (s.engine.handleClientRequest hash req).toOption.map (s.noteRequest req)
  | .role state leaderId committed accepting =>
      some { s with engine := { s.engine with raft := { s.engine.raft with
        state := state, leaderId := leaderId, committed := committed, accepting := accepting } } }
  | .store ready => some (s.storeReady ready)
  | .apply clock raftIndex raftTerm =>
      if s.cursor ≤ raftIndex then
        match log raftIndex with
        | none     => some { s with cursor := raftIndex + 1, high := max s.high raftIndex }
        | some cmd => s.applyAppendEntry hash clock raftIndex raftTerm cmd
      else none
  | .advance advanced => some { s with engine := s.engine.advance advanced }
  | .observe => some { s with engine := s.engine.logRaftStateIfChanged }
  | .gc => some { s with
      engine := s.engine.runGc
      logged := s.logged.filter fun p => s.engine.gcKeeps p.2.segmentId }
  | .restart dir file config createdTsNs =>
      (s.engine.raft.store.written[file]?).bind fun p =>
        (ShardEngine.openEngine hash s.engine.shardId config (some p) dir
          createdTsNs).toOption.map fun e =>
            { s with
              engine := e
              logged := foundOn hash dir
              cursor := p.firstIndex
              stopped := false }

/-- A replica that starts on an empty directory. -/
def started (shardId : Nat) (config : ServerConfig) (createdTsNs : Nat) : Replica where
  engine := ShardEngine.freshEngine shardId config createdTsNs
  logged := []
  cursor := 1
  high := 0
  peak := fun _ => 0
  fresh := []
  stopped := false

end

end Replica

/-- A new process starts. -/
def ReplicaAction.restarts : ReplicaAction → Bool
  | .restart .. => true
  | _           => false

/-- The life of a replica. A process that has ended does nothing more. -/
def replica (hash : Bytes → UInt32) (log : Nat → Option AppendCommand) (shardId : Nat)
    (config : ServerConfig) (createdTsNs : Nat) : System Replica ReplicaAction where
  init := .started shardId config createdTsNs
  step s a := if s.stopped = true ∧ a.restarts = false then none else s.step hash log a

namespace Replica

variable {hash : Bytes → UInt32} {log : Nat → Option AppendCommand} {s t : Replica}

/-! ### What each step does -/

/-- What happens in a life is a step. -/
theorem step_of_replica {shardId : Nat} {config : ServerConfig} {createdTsNs : Nat}
    {a : ReplicaAction} (h : (replica hash log shardId config createdTsNs).step s a = some t) :
    s.step hash log a = some t := by
  unfold replica at h
  simp only at h
  split at h
  · cases h
  · exact h

/-- A process that has not ended takes every step. -/
theorem replica_step {shardId : Nat} {config : ServerConfig} {createdTsNs : Nat}
    {a : ReplicaAction} (hruns : s.stopped = false) (h : s.step hash log a = some t) :
    (replica hash log shardId config createdTsNs).step s a = some t := by
  unfold replica
  simp only
  rw [if_neg fun hstopped => by simp [hruns] at hstopped, h]

@[simp]
theorem engine_noteRequest (s : Replica) (req : ShardRequest) (e : ShardEngine) :
    (s.noteRequest req e).engine = e := by
  unfold noteRequest
  split <;> rfl

@[simp]
theorem logged_noteRequest (s : Replica) (req : ShardRequest) (e : ShardEngine) :
    (s.noteRequest req e).logged = s.logged := by
  unfold noteRequest
  split <;> rfl

@[simp]
theorem cursor_noteRequest (s : Replica) (req : ShardRequest) (e : ShardEngine) :
    (s.noteRequest req e).cursor = s.cursor := by
  unfold noteRequest
  split <;> rfl

@[simp]
theorem high_noteRequest (s : Replica) (req : ShardRequest) (e : ShardEngine) :
    (s.noteRequest req e).high = s.high := by
  unfold noteRequest
  split <;> rfl

/-- **A request** changes the core, the reader's open files, responses and
proposals. -/
theorem step_request {req : ShardRequest} (h : s.step hash log (.request req) = some t) :
    ∃ walReader responses proposals, t = s.noteRequest req { s.engine with
      core := s.engine.coreAfter req
      walReader := walReader
      responses := responses
      raft := { s.engine.raft with proposals := proposals } } := by
  obtain ⟨e, he, rfl⟩ := Option.map_eq_some_iff.mp h
  obtain ⟨walReader, responses, proposals, rfl⟩ :=
    ShardEngine.handleClientRequest_eq_ok (Outcome.toOption_eq_some.mp he)
  exact ⟨walReader, responses, proposals, rfl⟩

/-- **A request moves nothing in raft**: not what is stored, not what counts as applied,
not what is handed on next. -/
theorem raft_request {req : ShardRequest} (h : s.step hash log (.request req) = some t) :
    t.engine.raft.store = s.engine.raft.store ∧ t.engine.raft.applied = s.engine.raft.applied ∧
      t.cursor = s.cursor ∧ t.high = s.high := by
  obtain ⟨walReader, responses, proposals, rfl⟩ := step_request h
  simp

/-- What is recorded of an acknowledgement. -/
theorem note_ack {req : ShardRequest} (hop : req.request.op = .ack)
    (h : s.step hash log (.request req) = some t) :
    (t.peak = fun id => if id = req.request.streamId then max (s.peak id) req.request.offset
        else s.peak id) ∧
      t.fresh = s.fresh.filter fun p =>
        ¬ (p.1 = req.request.streamId ∧ p.2 < req.request.offset) := by
  obtain ⟨walReader, responses, proposals, rfl⟩ := step_request h
  unfold noteRequest
  rw [hop]
  exact ⟨rfl, rfl⟩

/-- What is recorded of other requests. -/
theorem note_other {req : ShardRequest} (hop : req.request.op ≠ .ack)
    (h : s.step hash log (.request req) = some t) : t.peak = s.peak ∧ t.fresh = s.fresh := by
  obtain ⟨walReader, responses, proposals, rfl⟩ := step_request h
  unfold noteRequest
  split
  · rename_i hack
    exact absurd hack hop
  · exact ⟨rfl, rfl⟩

/-- **Storing** changes the raft node and the outbound queue. -/
theorem step_store {ready : Ready} (h : s.step hash log (.store ready) = some t) :
    ∃ outbound stepped stopped, t = { s with
      engine := { s.engine with
        outbound := outbound
        raft := { s.engine.raft with
          store := (s.engine.raft.store.storeReady ready).1, stepped := stepped } }
      stopped := stopped } := by
  cases h
  unfold storeReady
  split
  · rename_i store hstore
    obtain ⟨outbound, stepped, hsent⟩ := ShardEngine.afterStore_eq s.engine store ready
    exact ⟨outbound, stepped, s.stopped, by rw [hsent, hstore]⟩
  · rename_i store _ _ hstore
    exact ⟨s.engine.outbound, s.engine.raft.stepped, true, by rw [hstore]⟩

/-- **The end of a cycle** changes the raft node and the outbound queue. -/
theorem step_advance {advanced : Advanced} (h : s.step hash log (.advance advanced) = some t) :
    ∃ outbound stepped, t = { s with engine := { s.engine with
      outbound := outbound
      raft := { s.engine.raft with
        committed := advanced.committed, applied := advanced.applied, stepped := stepped } } } := by
  cases h
  obtain ⟨outbound, stepped, hadvance⟩ := ShardEngine.advance_eq s.engine advanced
  exact ⟨outbound, stepped, by rw [hadvance]⟩

/-- **Handing an entry on**: it is skipped, or its command is applied. -/
theorem step_apply {clock : Clock} {raftIndex raftTerm : Nat}
    (h : s.step hash log (.apply clock raftIndex raftTerm) = some t) :
    s.cursor ≤ raftIndex ∧
      ((log raftIndex = none ∧
        t = { s with cursor := raftIndex + 1, high := max s.high raftIndex }) ∨
      ∃ cmd e stopped, log raftIndex = some cmd ∧
        s.engine.Applies hash clock raftIndex raftTerm cmd e ∧
        t = s.noteApplied clock raftIndex cmd e stopped) := by
  rw [step] at h
  split at h
  · rename_i hle
    refine ⟨hle, ?_⟩
    split at h
    · rename_i hnone
      cases h
      exact Or.inl ⟨hnone, rfl⟩
    · rename_i cmd hcmd
      unfold applyAppendEntry at h
      split at h
      · rename_i e he
        cases h
        exact Or.inr ⟨cmd, e, s.stopped, hcmd, Or.inl he, rfl⟩
      · obtain ⟨e, he, rfl⟩ := Option.map_eq_some_iff.mp h
        exact Or.inr ⟨cmd, e, true, hcmd, Or.inr (Outcome.toOption_eq_some.mp he), rfl⟩
  · cases h

/-- A command that is entered and answered makes a step, whatever comes behind it. -/
theorem exists_step_apply {clock : Clock} {raftIndex raftTerm : Nat} {cmd : AppendCommand}
    {e : ShardEngine} (hcursor : s.cursor ≤ raftIndex) (hcmd : log raftIndex = some cmd)
    (h : s.engine.acknowledge hash clock raftIndex raftTerm cmd = .ok e) :
    ∃ t, s.step hash log (.apply clock raftIndex raftTerm) = some t := by
  rw [step, if_pos hcursor, hcmd]
  simp only [applyAppendEntry]
  split
  · exact ⟨_, rfl⟩
  · rw [h]
    exact ⟨_, rfl⟩

/-- **Collecting garbage** changes the index, the reader and the files. -/
theorem step_gc (h : s.step hash log .gc = some t) :
    ∃ walReader, t = { s with
      engine := { s.engine with
        index := s.engine.gcIndex
        walReader := walReader
        dir := s.engine.dir.keep s.engine.gcKeeps }
      logged := s.logged.filter fun p => s.engine.gcKeeps p.2.segmentId } := by
  cases h
  obtain ⟨walReader, hgc⟩ := s.engine.runGc_eq
  exact ⟨walReader, by rw [hgc]⟩

/-! ### Restarts -/

/-- **What a restart makes of a replica**, from a state of the file and the files of a
directory. -/
structure Restarted (hash : Bytes → UInt32) (s t : Replica) (dir : ShardDir)
    (config : ServerConfig) (p : PersistentState) (recovered : StreamStateTable) : Prop where
  held : s.engine.raft.store.Held p
  decoded : StreamStateTable.decodeSnapshot config.tailCacheEntries p.snapshot.data = .ok recovered
  table : t.table = recoverStreams recovered p.snapshot.metadata.index (t.logged.map Prod.fst)
  pendingWrites : t.engine.core.pendingWrites = ∅
  index : t.engine.index = indexRecords t.logged
  store : t.engine.raft.store = ⟨p, [p]⟩
  applied : t.engine.raft.applied = p.firstIndex - 1
  writer : WriterOk t.engine.walWriter t.engine.dir
  logged : t.logged = foundOn hash dir
  lies : ∀ q ∈ t.logged, Lies hash t.engine.dir q
  cursor : t.cursor = p.firstIndex
  high : t.high = s.high
  peak : t.peak = s.peak
  fresh : t.fresh = s.fresh

/-- The new process holds one state. -/
theorem Restarted.held_eq {dir : ShardDir} {config : ServerConfig} {p q : PersistentState}
    {recovered : StreamStateTable} (h : s.Restarted hash t dir config p recovered)
    (hq : t.engine.raft.store.Held q) : q = p := by
  rw [h.store] at hq
  exact PersistentStorage.held_single hq

/-- **A restart** opens the engine on a state of the file and on the directory. -/
theorem step_restart {dir : ShardDir} {file : Nat} {config : ServerConfig} {createdTsNs : Nat}
    (h : s.step hash log (.restart dir file config createdTsNs) = some t) :
    ∃ p recovered, s.engine.raft.store.written[file]? = some p ∧
      s.Restarted hash t dir config p recovered := by
  obtain ⟨p, hp, hrest⟩ := Option.bind_eq_some_iff.mp h
  obtain ⟨e, he, rfl⟩ := Option.map_eq_some_iff.mp hrest
  obtain ⟨recovered, w, dir', index, streams, hdecode, hopen, rfl⟩ :=
    ShardEngine.openEngine_eq_ok (Outcome.toOption_eq_some.mp he)
  obtain ⟨found, hfound, rfl, rfl, hwriter, -, hkeeps⟩ := openDir_eq_ok hopen
  have hon : foundOn hash dir = found := by
    unfold foundOn
    rw [hfound]
  subst hon
  refine ⟨p, recovered, hp, ?_⟩
  constructor
  case held => exact Or.inr (List.mem_of_getElem? hp)
  case decoded => exact hdecode
  case writer => exact hwriter
  case lies => exact fun q hq => (lies_of_replaySegments hfound hq).keeps hkeeps
  all_goals rfl

/-! ### The log -/

/-- The files, the writer, the index and what was logged are what they were. -/
structure SameLog (s t : Replica) : Prop where
  walWriter : t.engine.walWriter = s.engine.walWriter
  dir : t.engine.dir = s.engine.dir
  index : t.engine.index = s.engine.index
  logged : t.logged = s.logged

/-- A request only reads the log. -/
theorem sameLog_request {req : ShardRequest} (h : s.step hash log (.request req) = some t) :
    s.SameLog t := by
  obtain ⟨walReader, responses, proposals, rfl⟩ := step_request h
  constructor
  all_goals simp

/-- **How a step changes the log**: not at all, by an applied command, by a collection
or by a restart. -/
inductive LogStep (hash : Bytes → UInt32) (log : Nat → Option AppendCommand) (s t : Replica) :
    ReplicaAction → Prop where
  | same {a : ReplicaAction} (same : s.SameLog t) : LogStep hash log s t a
  | apply {clock : Clock} {raftIndex raftTerm : Nat} {cmd : AppendCommand} {e : ShardEngine}
      (command : log raftIndex = some cmd)
      {stopped : Bool} (applied : s.engine.Applies hash clock raftIndex raftTerm cmd e)
      (result : t = s.noteApplied clock raftIndex cmd e stopped) :
      LogStep hash log s t (.apply clock raftIndex raftTerm)
  | gc (collected : s.step hash log .gc = some t) : LogStep hash log s t .gc
  | restart {dir : ShardDir} {file : Nat} {config : ServerConfig} {createdTsNs : Nat}
      (restarted : s.step hash log (.restart dir file config createdTsNs) = some t) :
      LogStep hash log s t (.restart dir file config createdTsNs)

/-- Every step changes the log in one of these ways. -/
theorem logStep {a : ReplicaAction} (h : s.step hash log a = some t) :
    LogStep hash log s t a := by
  cases a with
  | request req => exact .same (sameLog_request h)
  | role state leaderId committed accepting =>
      cases h
      exact .same ⟨rfl, rfl, rfl, rfl⟩
  | store ready =>
      obtain ⟨outbound, stepped, stopped, rfl⟩ := step_store h
      exact .same ⟨rfl, rfl, rfl, rfl⟩
  | apply clock raftIndex raftTerm =>
      obtain ⟨-, ⟨-, rfl⟩ | ⟨cmd, e, stopped, hcmd, happly, ht⟩⟩ := step_apply h
      · -- A skipped entry moves the cursor alone.
        exact .same ⟨rfl, rfl, rfl, rfl⟩
      · exact .apply hcmd happly ht
  | advance advanced =>
      obtain ⟨outbound, stepped, rfl⟩ := step_advance h
      exact .same ⟨rfl, rfl, rfl, rfl⟩
  | observe =>
      cases h
      exact .same ⟨rfl, rfl, rfl, rfl⟩
  | gc => exact .gc h
  | restart dir file config createdTsNs => exact .restart h

end Replica

end WalServer.Shard
