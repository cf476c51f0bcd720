import WalServer.Shard.Calls
import WalServer.Wal.Stable

/-!
# `WalServer.Shard.Acknowledged`: a write is on disk when it is acknowledged

`apply_append_entry` sends its response in the middle: the record is appended and synced
before, and a snapshot may be stored behind it. `ShardEngine.acknowledge` is the call up to
the response, so that it can be said what holds at that moment.

`Acking` is an engine with the records it has written and where. It applies one command
after the other, and in between it makes any other calls, so that clients' writes are
pending when their commands are applied. In every run from an engine that was opened, with
segments of any size, each of these records is on stable storage, and so is a record whose
response is being sent (`acknowledged_stable`).
-/

set_option autoImplicit false

namespace WalServer.Shard

open WalServer.Lib WalServer.Protocol WalServer.Raft WalServer.Wal

/-- A call of `apply_append_entry`, and the clock it reads. -/
structure ApplyCall where
  clock : Clock
  raftIndex : Nat
  raftTerm : Nat
  cmd : AppendCommand

/-- The record that the call writes. -/
def ApplyCall.record (c : ApplyCall) : WalRecord := ShardEngine.recordOf c.clock c.raftIndex c.cmd

/-- A call that applies nothing and collects no garbage. -/
def EngineCall.keepsLog : EngineCall → Bool
  | .apply _ _ | .collect => false
  | _                     => true

namespace ShardEngine

variable {hash : Bytes → UInt32} {e e' : ShardEngine}

/-- **A call that applies nothing** and collects no garbage leaves the log alone. -/
theorem call_keepsLog {c : EngineCall} (hkeeps : c.keepsLog = true) (h : e.call hash c = .ok e') :
    e'.walWriter = e.walWriter ∧ e'.dir = e.dir := by
  cases c with
  | request req =>
      obtain ⟨walReader, responses, proposals, rfl⟩ := handleClientRequest_eq_ok h
      exact ⟨rfl, rfl⟩
  | step _ | move _ | observe =>
      cases h
      exact ⟨rfl, rfl⟩
  | store ready =>
      rw [call] at h
      split at h
      · cases h
        obtain ⟨outbound, stepped, hsent⟩ := afterStore_eq e _ ready
        rw [hsent]
        exact ⟨rfl, rfl⟩
      · cases h
      · cases h
  | advance advanced =>
      cases h
      obtain ⟨outbound, stepped, hadvance⟩ := advance_eq e advanced
      rw [hadvance]
      exact ⟨rfl, rfl⟩
  | apply _ _ | collect => cases hkeeps

end ShardEngine

/-- An engine that applies commands, and the records it has written with their places. No
step reads these. -/
structure Acking where
  engine : ShardEngine
  acked : List (WalRecord × RecordLocation)

/-- What the engine does: it applies a command, or makes another call. -/
inductive AckAction where
  | apply (c : ApplyCall)
  | call (c : EngineCall)

namespace Acking

/-- Applies a command. A call that fails ends the process. -/
def apply (hash : Bytes → UInt32) (s : Acking) (c : ApplyCall) : Option Acking :=
  (s.engine.applyAppendEntry hash c.clock c.raftIndex c.raftTerm c.cmd).toOption.map fun e =>
    ⟨e, s.acked ++ [(c.record, appendLocation s.engine.walWriter c.record)]⟩

/-- One action. -/
def step (hash : Bytes → UInt32) (s : Acking) : AckAction → Option Acking
  | .apply c => s.apply hash c
  | .call c  =>
      if c.keepsLog then (s.engine.call hash c).toOption.map fun e => { s with engine := e }
      else none

/-- The runs of an engine that was opened. -/
def system (hash : Bytes → UInt32) (e : ShardEngine) : System Acking AckAction where
  init := ⟨e, []⟩
  step := step hash

/-- The records are on stable storage. -/
def Stable (hash : Bytes → UInt32) (dir : ShardDir)
    (records : List (WalRecord × RecordLocation)) : Prop :=
  ∀ p ∈ records, dir.StableAt p.2.segmentId p.2.offset (p.1.encodeToVec hash)

/-- The writer is in good order, and what was written is stable. -/
structure Durable (hash : Bytes → UInt32) (s : Acking) : Prop where
  writer : WriterOk s.engine.walWriter s.engine.dir
  stable : Stable hash s.engine.dir s.acked

variable {hash : Bytes → UInt32} {s t : Acking} {c : ApplyCall} {e : ShardEngine}

/-- **When the response is sent**, the record is stable, and those before it still are. -/
theorem Durable.acknowledge (h : s.Durable hash)
    (hack : s.engine.acknowledge hash c.clock c.raftIndex c.raftTerm c.cmd = .ok e) :
    WriterOk e.walWriter e.dir ∧ Stable hash e.dir
      (s.acked ++ [(c.record, appendLocation s.engine.walWriter c.record)]) := by
  obtain ⟨w, dir, n, happend, rfl⟩ := ShardEngine.acknowledge_eq hack
  have hwriter : WriterOk w dir := writerOk_append (r := c.record) h.writer happend
  refine ⟨hwriter.sync, fun p hp => ?_⟩
  rcases List.mem_append.mp hp with hold | hnew
  · exact (h.stable p hold).keeps (h.writer.keepsStable_append (r := c.record) happend)
  · -- The record of this call.
    obtain rfl := List.mem_singleton.mp hnew
    exact h.writer.stableAt_append (r := c.record) happend

/-- One call. -/
theorem Durable.apply (h : s.Durable hash) (hs : s.apply hash c = some t) : t.Durable hash := by
  obtain ⟨e, he, rfl⟩ := Option.map_eq_some_iff.mp hs
  have hcall := Outcome.toOption_eq_some.mp he
  rw [ShardEngine.applyAppendEntry_eq_acknowledge] at hcall
  obtain ⟨e₁, hack, hsnapshot⟩ := Outcome.bind_eq_ok.mp hcall
  obtain ⟨hwriter, hstable⟩ := h.acknowledge hack
  -- A snapshot that is due after the response does not touch the log.
  obtain ⟨store, rfl⟩ := ShardEngine.maybeSnapshotRaftState_eq_ok hsnapshot
  exact ⟨hwriter, hstable⟩

/-- Every action keeps what was written stable. -/
theorem Durable.step (h : s.Durable hash) {a : AckAction} (hs : s.step hash a = some t) :
    t.Durable hash := by
  cases a with
  | apply c => exact h.apply hs
  | call c =>
      obtain ⟨hkeeps, hcalled⟩ := Option.ite_none_right_eq_some.mp hs
      obtain ⟨e, he, rfl⟩ := Option.map_eq_some_iff.mp hcalled
      obtain ⟨hw, hdir⟩ := ShardEngine.call_keepsLog hkeeps (Outcome.toOption_eq_some.mp he)
      refine ⟨?_, ?_⟩
      · show WriterOk e.walWriter e.dir
        rw [hw, hdir]
        exact h.writer
      · show Stable hash e.dir s.acked
        rw [hdir]
        exact h.stable

/-- The writer of an engine that was opened is in good order. -/
theorem durable_of_openEngine {shardId : Nat} {config : ServerConfig}
    {file : Option PersistentState} {dir : ShardDir} {createdTsNs : Nat}
    (h : ShardEngine.openEngine hash shardId config file dir createdTsNs = .ok e) :
    (⟨e, []⟩ : Acking).Durable hash := by
  obtain ⟨recovered, w, dir', index, streams, -, hopen, rfl⟩ := ShardEngine.openEngine_eq_ok h
  obtain ⟨found, -, -, -, hwriter, -, -⟩ := openDir_eq_ok hopen
  exact ⟨hwriter, fun p hp => absurd hp (by simp)⟩

/-- **An acknowledged write is durable.** At the moment in which the response of a write is
sent, if a client waits for one, all bytes of its record and all earlier ones of its file are
on stable storage, at the place that the index has for it; and so is every record that was
written before. -/
theorem acknowledged_stable {shardId : Nat} {config : ServerConfig}
    {file : Option PersistentState} {dir : ShardDir} {createdTsNs : Nat} {opened : ShardEngine}
    (hopen : ShardEngine.openEngine hash shardId config file dir createdTsNs = .ok opened)
    (h : (system hash opened).Reachable System.anyStep s)
    (hack : s.engine.acknowledge hash c.clock c.raftIndex c.raftTerm c.cmd = .ok e) :
    e.responses = s.engine.responses ++
        ShardEngine.completionOf (s.engine.core.pendingWrites.lookup c.cmd.requestId) ∧
      e.index.lookup c.cmd.streamId c.cmd.streamLsn =
        some (appendLocation s.engine.walWriter c.record) ∧
      Stable hash e.dir
        (s.acked ++ [(c.record, appendLocation s.engine.walWriter c.record)]) := by
  have hdurable : s.Durable hash :=
    h.invariant (durable_of_openEngine hopen) fun _ _ _ _ hbefore _ hs => hbefore.step hs
  have hstable := (hdurable.acknowledge hack).2
  obtain ⟨w, dir, n, -, rfl⟩ := ShardEngine.acknowledge_eq hack
  refine ⟨rfl, ?_, hstable⟩
  show (s.engine.index.insert _ _ _).lookup _ _ = _
  rw [StreamLogIndex.lookup_insert]
  exact if_pos ⟨rfl, rfl⟩

/-- Two commands on stream 7; then the engine leads, and a client's write is pending. -/
def writePending : List AckAction :=
  [.apply ⟨⟨fun _ => 5, fun _ => 5⟩, 3, 2, ⟨1, 7, 1, 0, [42]⟩⟩,
    .apply ⟨⟨fun _ => 6, fun _ => 6⟩, 4, 2, ⟨2, 7, 1, 1, [43, 44]⟩⟩,
    .call (.move ⟨.leader, 1, 4, 4, true⟩), .call (.request ⟨9, ⟨.write, 7, 1, 0, []⟩⟩)]

/-- The command of the write. -/
def thirdCall : ApplyCall := ⟨⟨fun _ => 7, fun _ => 7⟩, 5, 2, ⟨1, 7, 1, 2, []⟩⟩

/-- In segments of 100 bytes each record fills its own. When the write's `Ok` is sent, its
file is synced, although the writer is in the next. -/
theorem acknowledged_stable_thirdCall :
    ∃ e : ShardEngine, (e.responses = [⟨9, ⟨.ok, 1, 2, []⟩⟩] ∧ e.walWriter.currentSegmentId = 3) ∧
      e.dir.StableAt 2 64 (thirdCall.record.encodeToVec fun _ => 0) := by
  obtain ⟨s, hreach, hsegment, hoffset, hnext⟩ := System.exists_reachable_of_execute
    (system (fun _ => 0) (.freshEngine 0 ⟨1, 100, 4, [1]⟩ 0)) System.anyStep writePending
    (fun s => s.engine.walWriter.currentSegmentId = 2 ∧ s.engine.walWriter.currentOffset = 64 ∧
      (s.engine.acknowledge (fun _ => 0) thirdCall.clock thirdCall.raftIndex thirdCall.raftTerm
        thirdCall.cmd).any (fun e =>
          e.responses = [⟨9, ⟨.ok, 1, 2, []⟩⟩] ∧ e.walWriter.currentSegmentId = 3) = true)
    (by decide +kernel)
  obtain ⟨e, hack, hthird⟩ := Outcome.any_eq_true.mp hnext
  -- The third call rotates as well, so its record is not in the current file.
  obtain ⟨-, -, hstable⟩ := acknowledged_stable
    (ShardEngine.openEngine_fresh (fun _ => 0) 0 ⟨1, 100, 4, [1]⟩ 0) hreach hack
  have hlast := hstable (thirdCall.record, appendLocation s.engine.walWriter thirdCall.record)
    (List.mem_append_right _ List.mem_cons_self)
  refine ⟨e, of_decide_eq_true hthird, ?_⟩
  rw [← hsegment, ← hoffset]
  exact hlast

end Acking

end WalServer.Shard
