import WalServer.Shard.KeepsLogs
import WalServer.Shard.Steps
import WalServer.Shard.StepDown

/-!
# `WalServer.Shard.Leadership`: a leadership from its start to its end

An engine leads, and then it sees at the end of an iteration that it does not lead any
more. Over the whole of it every write that was accepted is answered once: with `Ok` and
its position if it was committed before the end, with `ErrNotLeader` if it was not
(`leadership_settles`). The streams keep what was committed, and the positions of the writes that
were given up are free again.

`Leadership` is a run of a leader (`LeaderRun`) and what the clients of writes were told
in it. The code keeps no such record and no step reads it.

* `StreamLogs.confirmations`, `refusals`: what is to be told of the committed writes, and
  of those that are not.
* `OnlyPending`: nothing is pending but what is accepted and not committed.
* `settled_of_reachable`: every run tells the confirmations.
* `refusals_perm`, `rollback_committed`: what giving the pending writes up tells, and what
  it leaves of a stream.
-/

set_option autoImplicit false

namespace WalServer.Shard

open WalServer.Lib WalServer.Protocol WalServer.Raft WalServer.Wal

namespace StreamLogs

/-- What the client of the `i`-th accepted write is told when it is committed. -/
def confirmation (logs : StreamLogs) (i : Nat) (w : ShardRequest) : ShardResponse :=
  ⟨w.connectionId, ⟨.ok, w.request.epoch, logs.log.position streamOf i w, []⟩⟩

/-- What the clients of the committed writes are told. -/
def confirmations (logs : StreamLogs) : List ShardResponse :=
  (logs.log.entries.take logs.log.applied).mapIdx logs.confirmation

/-- What the client of a write is told that is given up. -/
def refusal (leaderId : Nat) (w : ShardRequest) : ShardResponse :=
  ⟨w.connectionId, ⟨.errNotLeader, w.request.epoch, leaderId, []⟩⟩

/-- What the clients of the writes are told that are not committed. -/
def refusals (logs : StreamLogs) (leaderId : Nat) : List ShardResponse :=
  (logs.log.entries.drop logs.log.applied).map (refusal leaderId)

variable {logs : StreamLogs}

/-- Accepting a write confirms nothing. -/
theorem confirmations_accept (w : ShardRequest)
    (h : logs.newestEpoch (streamOf w) ≤ w.request.epoch) :
    (logs.accept w h).confirmations = logs.confirmations := by
  have hle := logs.log.applied_le
  show ((logs.log.entries ++ [w]).take logs.log.applied).mapIdx _ = _
  rw [List.take_append_of_le_length hle]
  refine List.mapIdx_eq_mapIdx_iff.mpr fun i hi => ?_
  rw [List.length_take, Nat.min_eq_left hle] at hi
  -- The positions of earlier writes stay.
  show ShardResponse.mk _ ⟨_, _, (logs.log.push w).position streamOf i _, _⟩ = _
  rw [KeyedLog.position_push streamOf logs.log w _ (by omega)]
  rfl

/-- A client request confirms nothing. -/
theorem confirmations_serve (req : ShardRequest) :
    (logs.serve req).confirmations = logs.confirmations := by
  unfold serve
  cases req.request.op with
  | write =>
      dsimp only
      split
      · exact confirmations_accept req _
      · rfl
  | read => rfl
  | ack => rfl
  | getStatus => rfl

/-- Committing the next write confirms it. -/
theorem confirmations_commitNext {w : ShardRequest} (h : logs.log.next? = some w) :
    logs.commitNext.confirmations = logs.confirmations ++ [logs.completion w] := by
  have htake : logs.commitNext.log.entries.take logs.commitNext.log.applied =
      logs.log.entries.take logs.log.applied ++ [w] := by
    rw [show logs.commitNext.log.applied = logs.log.applied + 1 from KeyedLog.applied_commitNext h]
    show logs.log.entries.take (logs.log.applied + 1) = _
    rw [List.take_add_one, show logs.log.entries[logs.log.applied]? = some w from h]
    rfl
  have hlength : (logs.log.entries.take logs.log.applied).length = logs.log.applied := by
    rw [List.length_take, Nat.min_eq_left logs.log.applied_le]
  unfold confirmations
  rw [htake, List.mapIdx_concat, hlength]
  rfl

end StreamLogs

namespace LeaderRun

variable {hash : Bytes → UInt32} {s t : LeaderRun}

/-! ### Nothing else is pending -/

/-- Only writes that are accepted and not committed are pending. -/
def OnlyPending (s : LeaderRun) : Prop :=
  ∀ k p, s.engine.core.pendingWrites.lookup k = some p →
    ∃ i w, s.logs.log.applied ≤ i ∧ s.logs.log.entries[i]? = some w ∧ k = i + 1

/-- Nothing is pending that was not, and the logs are the same. -/
theorem OnlyPending.congr (h : s.OnlyPending)
    (hpending : t.engine.core.pendingWrites = s.engine.core.pendingWrites)
    (hlog : t.logs.log = s.logs.log) : t.OnlyPending := by
  intro k p hlookup
  rw [hpending] at hlookup
  rw [hlog]
  exact h k p hlookup

/-- An accepted write is pending under its number. -/
theorem OnlyPending.write (h : s.OnlyPending) (hrefines : s.Refines hash) {req : ShardRequest}
    (hop : req.request.op = .write) (e : ShardEngine)
    (hcore : e.core = (s.engine.core.admitWrite req.connectionId req.request.streamId
      req.request.epoch req.request.payload).1) :
    (⟨e, s.logs.serve req, s.lastIndex⟩ : LeaderRun).OnlyPending := by
  have hepoch : (s.engine.core.streams.ensureStream req.request.streamId).maxEpoch =
    s.logs.newestEpoch (streamOf req) := hrefines.table.epoch _
  have hseq := hrefines.proposed.requestSeq
  unfold StreamLogs.serve
  simp only [hop]
  rcases s.engine.core.admitWrite_cases req.connectionId req.request.streamId req.request.epoch
    req.request.payload with ⟨-, hstale, -, -, hpending⟩ | ⟨-, hfresh, -, -, hpending⟩
  · rw [hepoch] at hstale
    rw [dif_neg (Nat.not_le.mpr hstale)]
    exact h.congr (congrArg ShardCore.pendingWrites hcore |>.trans hpending) rfl
  · rw [hepoch] at hfresh
    rw [dif_pos hfresh]
    intro k p hlookup
    have hinsert : e.core.pendingWrites.lookup k = some p := hlookup
    rw [hcore, hpending, AssocMap.lookup_insert_eq] at hinsert
    split at hinsert
    · rename_i hk
      exact ⟨s.logs.log.entries.length, req, s.logs.log.applied_le,
        List.getElem?_concat_length, hk.trans (by rw [hseq])⟩
    · obtain ⟨i, w, hi, hw, hk⟩ := h k p hinsert
      exact ⟨i, w, hi,
        (List.getElem?_append_left (List.getElem?_eq_some_iff.mp hw).1).trans hw, hk⟩

/-- A write that is applied is not pending any more. -/
theorem OnlyPending.apply (h : s.OnlyPending) {w : ShardRequest}
    (hnext : s.logs.log.next? = some w) {raftIndex : Nat} (e : ShardEngine)
    (hcore : e.core =
      (s.engine.core.completeAppend raftIndex (s.logs.commandOf s.logs.log.applied w)).1) :
    (⟨e, s.logs.commitNext, raftIndex⟩ : LeaderRun).OnlyPending := by
  intro k p hlookup
  have herased : e.core.pendingWrites.lookup k = some p := hlookup
  rw [hcore] at herased
  have herased' : (s.engine.core.pendingWrites.erase (s.logs.log.applied + 1)).lookup k =
    some p := herased
  rw [AssocMap.lookup_erase_eq] at herased'
  split at herased'
  · cases herased'
  · rename_i hother
    obtain ⟨i, v, hi, hv, rfl⟩ := h k p herased'
    refine ⟨i, v, ?_, hv, rfl⟩
    show s.logs.commitNext.log.applied ≤ i
    rw [show s.logs.commitNext.log.applied = s.logs.log.applied + 1 from
      KeyedLog.applied_commitNext hnext]
    omega

/-- **Every action** leaves nothing else pending. -/
theorem OnlyPending.step (h : s.OnlyPending) (hrefines : s.Refines hash) {a : LeaderAction}
    {e : ShardEngine} (ha : s.Permitted a) (hstep : s.engineStep hash a = some e) :
    (⟨e, s.logsStep a, s.indexStep a⟩ : LeaderRun).OnlyPending := by
  cases a with
  | request req =>
      obtain ⟨walReader, responses, proposals, rfl⟩ :=
        ShardEngine.handleClientRequest_eq_ok (Outcome.toOption_eq_some.mp hstep)
      cases hop : req.request.op with
      | write =>
          refine h.write hrefines hop _ ?_
          unfold ShardEngine.coreAfter
          simp only [hop]
          rw [if_pos hrefines.leader]
      | read =>
          have hcore : s.engine.coreAfter req = s.engine.core := by
            simp only [ShardEngine.coreAfter, hop]
          have hlogs : s.logs.serve req = s.logs := by simp only [StreamLogs.serve, hop]
          exact h.congr (congrArg ShardCore.pendingWrites hcore) (congrArg StreamLogs.log hlogs)
      | ack =>
          have hcore : (s.engine.coreAfter req).pendingWrites = s.engine.core.pendingWrites := by
            simp only [ShardEngine.coreAfter, hop]
          have hlogs : (s.logs.serve req).log = s.logs.log := by
            simp only [StreamLogs.serve, hop, StreamLogs.consume]
          exact h.congr hcore hlogs
      | getStatus =>
          have hcore : s.engine.coreAfter req = s.engine.core := by
            simp only [ShardEngine.coreAfter, hop]
          have hlogs : s.logs.serve req = s.logs := by simp only [StreamLogs.serve, hop]
          exact h.congr (congrArg ShardCore.pendingWrites hcore) (congrArg StreamLogs.log hlogs)
  | applyNext clock raftIndex raftTerm =>
      obtain ⟨w, e', hnext, hstep', hcore, -⟩ := hrefines.applyNext ha
      rw [hstep] at hstep'
      cases hstep'
      exact h.apply hnext e hcore
  | gc =>
      obtain ⟨walReader, hgc⟩ := s.engine.runGc_eq
      cases hstep
      rw [hgc]
      exact h.congr rfl rfl
  | store ready =>
      unfold engineStep at hstep
      dsimp only at hstep
      split at hstep
      · cases hstep
        rename_i store _
        obtain ⟨outbound, stepped, hsent⟩ := ShardEngine.afterStore_eq s.engine store ready
        rw [hsent]
        exact h.congr rfl rfl
      · cases hstep
  | advance advanced =>
      obtain ⟨outbound, stepped, hadvance⟩ := ShardEngine.advance_eq s.engine advanced
      cases hstep
      rw [hadvance]
      exact h.congr rfl rfl
  | observe =>
      cases hstep
      have hstay := ShardCore.logRaftStateIfChanged_stay (c := s.engine.core)
        (fun _ => hrefines.leader) s.engine.raft.leaderId
      refine h.congr ?_ rfl
      unfold ShardEngine.logRaftStateIfChanged
      simp only [hstay]

/-! ### Giving the pending writes up -/

/-- What the clients of the pending writes are told that are given up: the refusals of the
accepted writes that are not committed. -/
theorem OnlyPending.refusals_perm (h : s.OnlyPending) (hrefines : s.Refines hash)
    (leaderId : Nat) :
    ((AssocMap.values s.engine.core.pendingWrites).map (ShardCore.notLeaderResponse leaderId)).Perm
      (s.logs.refusals leaderId) := by
  -- The pending writes, each under its number.
  let pendings : List (Nat × PendingClientWrite) :=
    (s.logs.log.entries.mapIdx fun i w => (i + 1, s.logs.pendingOf i w)).drop s.logs.log.applied
  have hget : ∀ i, (s.logs.log.entries.mapIdx fun i w => (i + 1, s.logs.pendingOf i w))[i]? =
      (s.logs.log.entries[i]?).map fun w => (i + 1, s.logs.pendingOf i w) :=
    fun i => List.getElem?_mapIdx
  have hkeys : (pendings.map Prod.fst).Nodup := by
    refine List.pairwise_iff_getElem.mpr fun i j hi hj hlt => ?_
    simp only [pendings, List.getElem_map, List.getElem_drop, List.getElem_mapIdx]
    omega
  have hvalues : (AssocMap.values s.engine.core.pendingWrites).Perm (pendings.map Prod.snd) := by
    refine AssocMap.values_perm_of_lookup hkeys fun k p => ?_
    constructor
    · intro hlookup
      obtain ⟨i, w, hi, hw, rfl⟩ := h k p hlookup
      rw [hrefines.proposed.pending i w hi hw] at hlookup
      cases hlookup
      refine List.mem_of_getElem? (i := i - s.logs.log.applied) ?_
      rw [List.getElem?_drop, Nat.add_sub_cancel' hi, hget, hw]
      rfl
    · intro hmem
      obtain ⟨i, hi⟩ := List.mem_iff_getElem?.mp hmem
      rw [List.getElem?_drop, hget] at hi
      obtain ⟨w, hw, heq⟩ := Option.map_eq_some_iff.mp hi
      cases heq
      exact hrefines.proposed.pending _ w (Nat.le_add_right _ _) hw
  have htold : (pendings.map Prod.snd).map (ShardCore.notLeaderResponse leaderId) =
      s.logs.refusals leaderId := by
    refine List.ext_getElem? fun i => ?_
    unfold StreamLogs.refusals
    rw [List.getElem?_map, List.getElem?_map, List.getElem?_drop, hget, List.getElem?_map,
      List.getElem?_drop]
    cases s.logs.log.entries[s.logs.log.applied + i]? with
    | none => rfl
    | some w => rfl
  exact htold ▸ hvalues.map _

/-- Giving the pending writes up leaves of a stream what is committed. -/
theorem Refines.rollback_committed (h : s.Refines hash) (id : Nat) :
    (ShardCore.rollbackAll s.engine.core.streams
      (AssocMap.values s.engine.core.pendingWrites)).ensureStream id =
      { s.engine.core.streams.ensureStream id with
        nextStreamLsn := (s.logs.committed id).length } := by
  have hcommit := h.table.commit id
  have hnext := h.table.next id
  have hle : (s.logs.committed id).length ≤ (s.logs.written id).length :=
    (KeyedLog.committed_prefix streamOf s.logs.log id).length_le
  rw [← hcommit]
  refine ShardCore.rollbackAll_complete _ _ id (by rw [hcommit, hnext]; exact hle) ?_
  intro lsn hlow hhigh
  rw [hcommit] at hlow
  rw [hnext] at hhigh
  -- The position is that of a write that is not committed, which is pending.
  obtain ⟨i, w, hi, hw, rfl, hposition⟩ := KeyedLog.exists_of_position streamOf hlow hhigh
  exact ⟨s.logs.pendingOf i w,
    AssocMap.mem_values.mpr ⟨i + 1, h.proposed.pending i w hi hw⟩, rfl, hposition⟩

end LeaderRun

/-! ### A whole leadership -/

/-- A run of a leader, and what the clients of its writes were told when their writes were
committed. -/
structure Leadership where
  run : LeaderRun
  told : List ShardResponse

namespace Leadership

variable {hash : Bytes → UInt32} {e : ShardEngine} {s t : Leadership}

/-- What the clients of writes are told by an action that leads to an engine. -/
def toldBy (s : Leadership) (e : ShardEngine) : LeaderAction → List ShardResponse
  | .applyNext .. => e.responses.drop s.run.engine.responses.length
  | _ => []

/-- The runs of an engine that leads from its start, with what is told of writes. -/
def system (hash : Bytes → UInt32) (e : ShardEngine) : System Leadership LeaderAction where
  init := ⟨(LeaderRun.system hash e).init, []⟩
  step s a := ((LeaderRun.system hash e).step s.run a).map fun run =>
    ⟨run, s.told ++ s.toldBy run.engine a⟩

/-- What is assumed of an action. -/
def Permitted (s : Leadership) (a : LeaderAction) : Prop := s.run.Permitted a

instance (s : Leadership) (a : LeaderAction) : Decidable (s.Permitted a) :=
  inferInstanceAs (Decidable (s.run.Permitted a))

/-- The engine keeps the logs, nothing else is pending, and what is committed is told. -/
structure Settled (hash : Bytes → UInt32) (s : Leadership) : Prop where
  refines : s.run.Refines hash
  onlyPending : s.run.OnlyPending
  told : s.told = s.run.logs.confirmations

/-- **Every action** tells what it commits. -/
theorem Settled.step (h : s.Settled hash) {a : LeaderAction} (ha : s.Permitted a)
    (hstep : (system hash e).step s a = some t) : t.Settled hash := by
  obtain ⟨e', answers, hengine, hsim, -⟩ := h.refines.step ha
  have hrun := LeaderRun.system_step (e := e) hengine
  have hmap : ((LeaderRun.system hash e).step s.run a).map (fun run =>
    Leadership.mk run (s.told ++ s.toldBy run.engine a)) = some t := hstep
  rw [hrun] at hmap
  cases hmap
  refine ⟨hsim.refines, h.onlyPending.step h.refines ha hengine, ?_⟩
  show s.told ++ s.toldBy e' a = (s.run.logsStep a).confirmations
  rw [h.told]
  cases a with
  | request req =>
      show _ ++ [] = (s.run.logs.serve req).confirmations
      rw [List.append_nil, StreamLogs.confirmations_serve]
  | applyNext clock raftIndex raftTerm =>
      obtain ⟨w, e'', hnext, hengine', -, hsim'⟩ := h.refines.applyNext ha
      rw [hengine] at hengine'
      cases hengine'
      show _ ++ e'.responses.drop _ = s.run.logs.commitNext.confirmations
      rw [hsim'.responses, List.drop_left, StreamLogs.confirmations_commitNext hnext]
  | gc => exact List.append_nil _
  | store ready => exact List.append_nil _
  | advance advanced => exact List.append_nil _
  | observe => exact List.append_nil _

variable {shardId createdTsNs : Nat} {config : ServerConfig}

/-- **Every run** tells what it commits. -/
theorem settled_of_reachable
    (hopen : ShardEngine.openEngine hash shardId config none .empty createdTsNs = .ok e)
    (hreach : (system hash e).Reachable Permitted s) : s.Settled hash := by
  refine hreach.invariant ⟨LeaderRun.refines_init hopen, ?_, rfl⟩
    fun s a t _ h ha hstep => h.step ha hstep
  intro k p hlookup
  rw [ShardEngine.openEngine_fresh] at hopen
  cases hopen
  cases hlookup

/-- An engine whose raft node has another role and knows another leader. -/
def deposed (e : ShardEngine) (role : StateRole) (leaderId : Nat) : ShardEngine :=
  { e with raft := { e.raft with state := role, leaderId := leaderId } }

/-- **A leadership settles all its writes.** When the engine sees the end of it, every
committed write has been answered with `Ok` and its position, every other accepted write is
answered with `ErrNotLeader`, nothing stays pending, and each stream goes on where its
committed writes end. -/
theorem leadership_settles
    (hopen : ShardEngine.openEngine hash shardId config none .empty createdTsNs = .ok e)
    (hreach : (system hash e).Reachable Permitted s)
    (hseen : s.run.engine.core.observedRole = .leader) {role : StateRole} (hrole : role ≠ .leader)
    (leaderId : Nat) :
    s.told = s.run.logs.confirmations ∧
      (∃ refused, (deposed s.run.engine role leaderId).logRaftStateIfChanged.responses =
        s.run.engine.responses ++ refused ∧ refused.Perm (s.run.logs.refusals leaderId)) ∧
      (deposed s.run.engine role leaderId).logRaftStateIfChanged.core.pendingWrites = ∅ ∧
      ∀ id, (deposed s.run.engine role leaderId).logRaftStateIfChanged.core.streams.ensureStream id
        = { s.run.engine.core.streams.ensureStream id with
            nextStreamLsn := (s.run.logs.committed id).length } := by
  have h := settled_of_reachable hopen hreach
  have hdown := ShardCore.logRaftStateIfChanged_down hseen hrole leaderId
  have hcore : (deposed s.run.engine role leaderId).logRaftStateIfChanged.core =
    (s.run.engine.core.logRaftStateIfChanged role leaderId).1 := rfl
  refine ⟨h.told, ⟨_, rfl, ?_⟩, ?_, fun id => ?_⟩
  · -- The rollback order is one of the orders of the refusals.
    show (s.run.engine.core.logRaftStateIfChanged role leaderId).2.Perm _
    rw [ShardCore.responses_logRaftStateIfChanged_down hseen hrole]
    exact ((List.mergeSort_perm _ _).map _).trans (h.onlyPending.refusals_perm h.refines leaderId)
  · rw [hcore, hdown]
  · rw [hcore, hdown]
    exact h.refines.rollback_committed id

/-- Three writes to two streams, of which the first is committed. -/
def oneCommitted : List LeaderAction :=
  [.observe, .request ⟨1, ⟨.write, 7, 1, 0, [10]⟩⟩, .request ⟨2, ⟨.write, 8, 1, 0, [20]⟩⟩,
    .request ⟨1, ⟨.write, 7, 2, 0, [11]⟩⟩, .applyNext ⟨id, id⟩ 2 1]

/-- The node has seen that it leads, and of three accepted writes one is committed. -/
def OneCommitted (s : Leadership) : Prop :=
  s.run.engine.core.observedRole = .leader ∧ s.run.logs.confirmations.length = 1 ∧
    (s.run.logs.refusals 3).length = 2

instance : DecidablePred OneCommitted := fun s => by
  unfold OneCommitted
  infer_instance

/-- One of three writes is confirmed and two are refused, and the next leader is named. -/
theorem leadership_settles_oneCommitted :
    ∃ s, (system crc32 (ShardEngine.freshEngine 5 ⟨1, 100, 1, [1]⟩ 0)).Reachable Permitted s ∧
      s.told.length = 1 ∧
      ((deposed s.run.engine .follower 3).logRaftStateIfChanged.responses.length =
        s.run.engine.responses.length + 2) := by
  obtain ⟨s, hreach, hseen, hconfirmed, hrefused⟩ := System.exists_reachable_of_execute
    (system crc32 (ShardEngine.freshEngine 5 ⟨1, 100, 1, [1]⟩ 0)) Permitted oneCommitted
    OneCommitted (by decide +kernel)
  obtain ⟨htold, ⟨refused, hresponses, hperm⟩, -⟩ :=
    leadership_settles rfl hreach hseen (show StateRole.follower ≠ .leader by decide) 3
  refine ⟨s, hreach, htold ▸ hconfirmed, ?_⟩
  rw [hresponses, List.length_append, hperm.length_eq, hrefused]

end Leadership

end WalServer.Shard
