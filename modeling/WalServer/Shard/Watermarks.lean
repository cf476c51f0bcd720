import WalServer.Shard.ReadPaths
import WalServer.Shard.Positions

/-!
# `WalServer.Shard.Watermarks`: consumed, committed and next positions stay in order

What is meant to hold of a replica: no stream has consumed more than is committed, none
has committed more than is allocated, and garbage collection keeps the index entry of
every position that was committed and not acknowledged since (`Watermarks`).

The offset of an acknowledgement comes from the network and is not looked at. The order
is kept exactly as long as no acknowledgement lies beyond the committed position of its
stream, and no command is applied for the first time at a position that is consumed
(`AcksCommitted`): in every run of such steps the watermarks are in order, and a step
that is not one breaks the order (`watermarks_of_reachable`). Within a process nothing
goes back but next positions, whatever is acknowledged.
-/

set_option autoImplicit false

namespace WalServer.Shard

open WalServer.Lib WalServer.Protocol WalServer.Raft WalServer.Wal StreamStateTable

/-- The positions of a stream are in order. -/
structure StreamReplicaState.InOrder (st : StreamReplicaState) : Prop where
  consumed : st.consumedStreamLsn ≤ st.commitStreamLsn
  committed : st.commitStreamLsn ≤ st.nextStreamLsn

namespace StreamReplicaState

variable {st st' : StreamReplicaState}

theorem inOrder_new (id : Nat) : (new id).InOrder := ⟨Nat.le_refl _, Nat.le_refl _⟩

theorem Allocates.inOrder (h : st.Allocates st') (hst : st.InOrder) : st'.InOrder where
  consumed := by rw [h.consumedStreamLsn, h.commitStreamLsn]; exact hst.consumed
  committed := h.nextStreamLsn hst.committed

end StreamReplicaState

namespace StreamStateTable

/-- The positions of all streams are in order. -/
def InOrder (t : StreamStateTable) : Prop := ∀ id, (t.ensureStream id).InOrder

variable {t : StreamStateTable}

theorem inOrder_observeRecovered (h : t.InOrder) (streamId epoch entryId lsn : Nat)
    (payload : Bytes) : (t.observeRecovered streamId epoch entryId lsn payload).InOrder := by
  intro id
  rw [ensureStream_observeRecovered]
  split
  · have hid := h streamId
    refine ⟨hid.consumed.trans (Nat.le_max_left _ _), ?_⟩
    exact Nat.max_le.mpr ⟨hid.committed.trans (Nat.le_max_left _ _), Nat.le_max_right _ _⟩
  · exact h id

theorem inOrder_recoverStreams (h : t.InOrder) (bound : Nat) (records : List WalRecord) :
    (recoverStreams t bound records).InOrder :=
  recoverStreams_invariant (P := InOrder) h fun _ _ _ _ hbefore =>
    inOrder_observeRecovered hbefore _ _ _ _ _

/-- Records consume nothing. -/
theorem consumedStreamLsn_observeRecovered (t : StreamStateTable)
    (streamId epoch entryId lsn : Nat) (payload : Bytes) (id : Nat) :
    ((t.observeRecovered streamId epoch entryId lsn payload).ensureStream id).consumedStreamLsn =
      (t.ensureStream id).consumedStreamLsn := by
  rw [ensureStream_observeRecovered]
  split
  · rename_i hid
    rw [hid]
  · rfl

theorem consumedStreamLsn_recoverStreams (t : StreamStateTable) (bound : Nat)
    (records : List WalRecord) (id : Nat) :
    ((recoverStreams t bound records).ensureStream id).consumedStreamLsn =
      (t.ensureStream id).consumedStreamLsn :=
  recoverStreams_invariant
    (P := fun t' => (t'.ensureStream id).consumedStreamLsn = (t.ensureStream id).consumedStreamLsn)
    rfl fun _ _ _ _ hbefore => (consumedStreamLsn_observeRecovered _ _ _ _ _ _ _).trans hbefore

/-- The cache bound does not show in what a snapshot decodes to. -/
theorem ensureStream_decodeSnapshot_limit {limit limit' : Nat} {data : Bytes}
    {recovered recovered' : StreamStateTable} (h : decodeSnapshot limit data = .ok recovered)
    (h' : decodeSnapshot limit' data = .ok recovered') (id : Nat) :
    recovered.ensureStream id = recovered'.ensureStream id := by
  unfold decodeSnapshot at h h'
  cases hstatuses : snapshotStatuses data with
  | error text =>
      rw [hstatuses] at h
      cases h
  | ok statuses =>
      rw [hstatuses] at h h'
      cases h
      cases h'
      exact ensureStream_ofStatuses_limit _ _ _ _

end StreamStateTable

namespace Replica

variable {hash : Bytes → UInt32} {log : Nat → Option AppendCommand} {s t : Replica}

/-- **What is meant to hold** of a replica's watermarks. -/
structure Watermarks (s : Replica) : Prop where
  inOrder : s.table.InOrder
  kept : ∀ p ∈ s.fresh, s.engine.gcIndex.lookup p.1 p.2 = s.engine.index.lookup p.1 p.2

/-- No snapshot of another node is installed, and counters do not run over their 64
bits. -/
def NoInstall (log : Nat → Option AppendCommand) (s : Replica) : ReplicaAction → Prop
  | .store ready         => ready.snapshot.isEmpty = true
  | .apply _ raftIndex _ =>
      ∀ cmd ∈ log raftIndex, Counted (ShardCore.applyCommand s.table raftIndex cmd)
  | _                    => True

instance (s : Replica) (a : ReplicaAction) : Decidable (NoInstall log s a) := by
  rcases a with _ | _ | _ | _ | _ | _ | _ | _ <;> dsimp only [NoInstall] <;> infer_instance

/-- The condition: acknowledged positions are committed, and a command that is applied
for the first time is at a position that is not consumed. -/
def AcksCommitted (log : Nat → Option AppendCommand) (s : Replica) : ReplicaAction → Prop
  | .request req         => req.request.op = .ack →
      req.request.offset ≤ (s.table.ensureStream req.request.streamId).commitStreamLsn
  | .apply _ raftIndex _ => ∀ cmd ∈ log raftIndex, s.high < raftIndex →
      (s.table.ensureStream cmd.streamId).consumedStreamLsn ≤ cmd.streamLsn
  | _                    => True

instance (s : Replica) (a : ReplicaAction) : Decidable (AcksCommitted log s a) := by
  rcases a with _ | _ | _ | _ | _ | _ | _ | _ <;> dsimp only [AcksCommitted] <;> infer_instance

/-! ### What every step keeps -/

/-- A stored snapshot is in order, and has consumed no more than the table. -/
def SnapshotInOrder (table : StreamStateTable) (p : PersistentState) : Prop :=
  ∀ limit recovered, decodeSnapshot limit p.snapshot.data = .ok recovered → ∀ id,
    (recovered.ensureStream id).InOrder ∧
      (recovered.ensureStream id).consumedStreamLsn ≤ (table.ensureStream id).consumedStreamLsn

theorem SnapshotInOrder.congr {table : StreamStateTable} {p q : PersistentState}
    (h : SnapshotInOrder table q) (hsame : p.snapshot = q.snapshot) :
    SnapshotInOrder table p := by
  unfold SnapshotInOrder
  rw [hsame]
  exact h

theorem SnapshotInOrder.onward {table table' : StreamStateTable} {p : PersistentState}
    (h : SnapshotInOrder table p) (hlater : table.Onward table') : SnapshotInOrder table' p :=
  fun limit recovered hdecode id => ⟨(h limit recovered hdecode id).1,
    (h limit recovered hdecode id).2.trans (hlater id).consumedStreamLsn⟩

/-- A snapshot of a table in order, even if streams are missing in it. -/
theorem snapshotInOrder_encode {table : StreamStateTable} {p : PersistentState}
    (hcounted : Counted table) (h : table.InOrder)
    (hdata : p.snapshot.data = table.encodeSnapshot) : SnapshotInOrder table p := by
  intro limit recovered hdecode id
  rw [hdata] at hdecode
  rcases ensureStream_of_decodeSnapshot hcounted hdecode id with hsame | ⟨-, hnew⟩
  · rw [hsame]
    exact ⟨⟨(h id).consumed, (h id).committed⟩, Nat.le_refl _⟩
  · rw [hnew]
    exact ⟨StreamReplicaState.inOrder_new id, Nat.zero_le _⟩

/-- **The invariant.** -/
structure Watermarked (s : Replica) : Prop where
  inOrder : s.table.InOrder
  stored : ∀ p, s.engine.raft.store.Held p → SnapshotInOrder s.table p
  fresh : ∀ p ∈ s.fresh, (s.table.ensureStream p.1).consumedStreamLsn ≤ p.2

/-- What is not consumed, collecting garbage keeps. -/
theorem Watermarked.watermarks (h : s.Watermarked) : s.Watermarks where
  inOrder := h.inOrder
  kept p hp := by
    rw [ShardEngine.lookup_gcIndex]
    exact if_neg (Nat.not_lt.mpr (h.fresh p hp))

/-- What only allocates, or not even that. -/
theorem Watermarked.allocates (h : s.Watermarked) (htable : s.table.Allocates t.table)
    (hstore : t.engine.raft.store = s.engine.raft.store) (hfresh : t.fresh = s.fresh) :
    t.Watermarked where
  inOrder id := (htable id).inOrder (h.inOrder id)
  stored p hp := (h.stored p (hstore ▸ hp)).onward htable.onward
  fresh p hp := by
    rw [(htable p.1).consumedStreamLsn]
    exact h.fresh p (hfresh ▸ hp)

/-- **An acknowledgement** of committed positions. -/
theorem Watermarked.ack (h : s.Watermarked) {req : ShardRequest} (hop : req.request.op = .ack)
    (hcommitted : req.request.offset ≤
      (s.table.ensureStream req.request.streamId).commitStreamLsn)
    (hs : s.step hash log (.request req) = some t) : t.Watermarked := by
  obtain ⟨hstore, -⟩ := raft_request hs
  obtain ⟨-, hnote⟩ := note_ack hop hs
  have htable : t.table =
      (s.table.advanceConsumed req.request.streamId req.request.offset).1 := by
    rcases table_request hs with ⟨-, hacked⟩ | ⟨hother, -⟩
    · exact hacked
    · exact absurd hop hother
  refine ⟨fun id => ?_, fun p hp => ?_, fun p hp => ?_⟩
  · -- The offset is not beyond what is committed, so the order of the two is kept.
    rw [htable, ensureStream_advanceConsumed]
    have hid := h.inOrder req.request.streamId
    split
    · exact ⟨Nat.max_le.mpr ⟨hid.consumed, hcommitted⟩, hid.committed⟩
    · exact h.inOrder id
  · rw [hstore] at hp
    rw [htable]
    exact (h.stored p hp).onward (onward_advanceConsumed _ _ _)
  · -- A position that stays fresh is not acknowledged.
    rw [hnote] at hp
    obtain ⟨hold, hnot⟩ := List.mem_filter.mp hp
    rw [htable, ensureStream_advanceConsumed]
    have hfresh := h.fresh p hold
    split
    · rename_i hid
      rw [hid] at hfresh
      simp only [hid, true_and, Nat.not_lt, decide_eq_true_eq] at hnot
      exact Nat.max_le.mpr ⟨hfresh, hnot⟩
    · exact hfresh

/-- **A request** of another kind. -/
theorem Watermarked.request (h : s.Watermarked) {req : ShardRequest}
    (hop : req.request.op ≠ .ack) (hs : s.step hash log (.request req) = some t) :
    t.Watermarked := by
  obtain ⟨hstore, -⟩ := raft_request hs
  obtain ⟨-, hfresh⟩ := note_other hop hs
  rcases table_request hs with ⟨hack, -⟩ | ⟨-, hallocates⟩
  · exact absurd hack hop
  · exact h.allocates hallocates hstore hfresh

/-- **Applying** commits a position and allocates up to it. -/
theorem Watermarked.apply (h : s.Watermarked) {clock : Clock} {raftIndex raftTerm : Nat}
    {cmd : AppendCommand} {e : ShardEngine} {stopped : Bool}
    (hcounted : Counted (ShardCore.applyCommand s.table raftIndex cmd))
    (hfirst : s.high < raftIndex →
      (s.table.ensureStream cmd.streamId).consumedStreamLsn ≤ cmd.streamLsn)
    (happly : s.engine.Applies hash clock raftIndex raftTerm cmd e) :
    (s.noteApplied clock raftIndex cmd e stopped).Watermarked := by
  have htable := table_noteApplied happly stopped
  have hinOrder : (ShardCore.applyCommand s.table raftIndex cmd).InOrder := by
    rw [ShardCore.applyCommand_eq_observeRecovered]
    exact inOrder_observeRecovered h.inOrder _ _ _ _ _
  -- Applying a command acknowledges nothing.
  have hconsumed : ∀ id, ((ShardCore.applyCommand s.table raftIndex cmd).ensureStream
      id).consumedStreamLsn = (s.table.ensureStream id).consumedStreamLsn := by
    intro id
    rw [ShardCore.applyCommand_eq_observeRecovered]
    exact consumedStreamLsn_observeRecovered _ _ _ _ _ _ _
  obtain ⟨w, dir, n, store, responses, -, hstore, rfl⟩ := happly.eq
  refine ⟨?_, fun p hp => ?_, fun p hp => ?_⟩
  · rw [htable]
    exact hinOrder
  · rw [htable]
    rcases PersistentStorage.snapshot_maybeSnapshot hstore hp with
      ⟨q, hq, hsame⟩ | ⟨-, hdata, -⟩
    · exact ((h.stored q hq).congr hsame).onward (onward_applyCommand _ _ _)
    · exact snapshotInOrder_encode hcounted hinOrder hdata
  · rw [htable, hconsumed]
    have hnow : p ∈ (if s.high < raftIndex then (cmd.streamId, cmd.streamLsn) :: s.fresh
        else s.fresh) := hp
    split at hnow
    · -- The position becomes fresh here, and it is not below the consumed one.
      rename_i hnew
      rcases List.mem_cons.mp hnow with rfl | hold
      · exact hfirst hnew
      · exact h.fresh p hold
    · exact h.fresh p hnow

/-- **A restart** goes back to a snapshot, which has consumed no more. -/
theorem Watermarked.restart (h : s.Watermarked) {dir : ShardDir} {file : Nat}
    {config : ServerConfig} {createdTsNs : Nat}
    (hs : s.step hash log (.restart dir file config createdTsNs) = some t) : t.Watermarked := by
  obtain ⟨p, recovered, -, hrestarted⟩ := step_restart hs
  have hstored := h.stored p hrestarted.held
  have hrecovered := hstored _ _ hrestarted.decoded
  have hconsumed : ∀ id, (t.table.ensureStream id).consumedStreamLsn =
      (recovered.ensureStream id).consumedStreamLsn := by
    intro id
    rw [hrestarted.table, consumedStreamLsn_recoverStreams]
  refine ⟨?_, fun q hq => ?_, fun q hq => ?_⟩
  · rw [hrestarted.table]
    exact inOrder_recoverStreams (fun id => (hrecovered id).1) _ _
  · rw [hrestarted.held_eq hq]
    intro limit recovered' hdecode' id
    refine ⟨(hstored _ _ hdecode' id).1, ?_⟩
    rw [hconsumed, ensureStream_decodeSnapshot_limit hdecode' hrestarted.decoded]
  · rw [hconsumed]
    rw [hrestarted.fresh] at hq
    exact (hrecovered q.1).2.trans (h.fresh q hq)

/-- **Every permitted step keeps the watermarks in order.** -/
theorem watermarked_step {a : ReplicaAction} (h : s.Watermarked) (hlocal : NoInstall log s a)
    (hok : AcksCommitted log s a) (hs : s.step hash log a = some t) : t.Watermarked := by
  cases a with
  | request req =>
      by_cases hop : req.request.op = .ack
      · exact h.ack hop (hok hop) hs
      · exact h.request hop hs
  | role state leaderId committed accepting =>
      cases hs
      exact h.allocates (.refl _) rfl rfl
  | store ready =>
      obtain ⟨outbound, stepped, stopped, rfl⟩ := step_store hs
      refine ⟨h.inOrder, fun p hp => ?_, h.fresh⟩
      obtain ⟨q, hq, hsame⟩ := PersistentStorage.snapshot_storeReady hlocal hp
      exact (h.stored q hq).congr hsame
  | apply clock raftIndex raftTerm =>
      obtain ⟨-, ⟨-, rfl⟩ | ⟨cmd, e, stopped, hcmd, happly, rfl⟩⟩ := step_apply hs
      · exact h.allocates (.refl _) rfl rfl
      · exact h.apply (hlocal cmd hcmd) (hok cmd hcmd) happly
  | advance advanced =>
      obtain ⟨outbound, stepped, rfl⟩ := step_advance hs
      exact h.allocates (.refl _) rfl rfl
  | observe =>
      have htable := allocates_observe hs
      cases hs
      exact h.allocates htable rfl rfl
  | gc =>
      obtain ⟨walReader, rfl⟩ := step_gc hs
      exact h.allocates (.refl _) rfl rfl
  | restart dir file config createdTsNs => exact h.restart hs

theorem watermarked_started (shardId : Nat) (config : ServerConfig) (createdTsNs : Nat) :
    (started shardId config createdTsNs).Watermarked where
  inOrder id := by
    show ((StreamStateTable.new config.tailCacheEntries).ensureStream id).InOrder
    rw [ensureStream_new]
    exact StreamReplicaState.inOrder_new id
  stored p hp limit recovered hdecode id := by
    rw [PersistentStorage.held_single hp] at hdecode
    cases hdecode
    rw [ofStatuses, List.foldl_nil, ensureStream_new]
    exact ⟨StreamReplicaState.inOrder_new id, Nat.zero_le _⟩
  fresh p hp := by cases hp

/-! ### Exactly which steps keep the order -/

/-- Collecting garbage drops what is consumed. -/
theorem lookup_gcIndex_consumed {id lsn : Nat}
    (h : lsn < (s.table.ensureStream id).consumedStreamLsn) :
    s.engine.gcIndex.lookup id lsn = none := by
  rw [ShardEngine.lookup_gcIndex]
  exact if_pos h

/-- **A step that keeps the order** is a permitted one. -/
theorem acksCommitted_of_watermarks {a : ReplicaAction} (h : t.Watermarks)
    (hs : s.step hash log a = some t) : AcksCommitted log s a := by
  cases a with
  | request req =>
      intro hop
      rcases table_request hs with ⟨-, hacked⟩ | ⟨hother, -⟩
      · have hid := (h.inOrder req.request.streamId).consumed
        rw [hacked, ensureStream_advanceConsumed, if_pos rfl] at hid
        exact (Nat.le_max_right _ _).trans hid
      · exact absurd hop hother
  | apply clock raftIndex raftTerm =>
      intro cmd hcmd hfirst
      obtain ⟨-, ⟨hnone, -⟩ | ⟨cmd', e, stopped, hcmd', happly, rfl⟩⟩ := step_apply hs
      · rw [hnone] at hcmd
        cases hcmd
      · rw [hcmd'] at hcmd
        cases hcmd
        have hmem : (cmd.streamId, cmd.streamLsn) ∈
            (s.noteApplied clock raftIndex cmd e stopped).fresh := by
          show _ ∈ (if s.high < raftIndex then _ else _)
          rw [if_pos hfirst]
          exact List.mem_cons_self
        by_contra hconsumed
        have hlt : cmd.streamLsn < ((s.noteApplied clock raftIndex cmd e stopped).table.ensureStream
            cmd.streamId).consumedStreamLsn := by
          rw [table_noteApplied happly, ShardCore.applyCommand_eq_observeRecovered,
            consumedStreamLsn_observeRecovered]
          exact Nat.not_le.mp hconsumed
        -- The entry was just made, so it is there to be dropped.
        have hkept := h.kept _ hmem
        rw [lookup_gcIndex_consumed hlt] at hkept
        obtain ⟨w, dir, n, store, responses, -, -, rfl⟩ :=
          happly.eq
        have hentry : (s.engine.index.insert cmd.streamId cmd.streamLsn
            (appendLocation s.engine.walWriter (ShardEngine.recordOf clock raftIndex cmd))).lookup
              cmd.streamId cmd.streamLsn = none := hkept.symm
        rw [StreamLogIndex.lookup_insert, if_pos ⟨rfl, rfl⟩] at hentry
        cases hentry
  | role state leaderId committed accepting => trivial
  | store ready => trivial
  | advance advanced => trivial
  | observe => trivial
  | gc => trivial
  | restart dir file config createdTsNs => trivial

/-- **The watermarks stay in order exactly as long as acknowledged positions are
committed**: in every run of such steps they are in order, and then a step leaves them
in order exactly if it is one. No step within a process takes a position back. -/
theorem watermarks_of_reachable {shardId : Nat} {config : ServerConfig} {createdTsNs : Nat}
    (h : (replica hash log shardId config createdTsNs).Reachable
      (fun s a => NoInstall log s a ∧ AcksCommitted log s a) s) :
    s.Watermarks ∧ ∀ a t, NoInstall log s a → s.step hash log a = some t →
      (t.Watermarks ↔ AcksCommitted log s a) ∧
        ((∀ dir file config createdTsNs, a ≠ .restart dir file config createdTsNs) →
          s.table.Onward t.table) := by
  have hwatermarked : s.Watermarked := h.invariant (I := Watermarked)
    (watermarked_started shardId config createdTsNs)
    fun _ _ _ _ hbefore hok hs => watermarked_step hbefore hok.1 hok.2 (step_of_replica hs)
  refine ⟨hwatermarked.watermarks, fun a t hlocal hs => ⟨⟨fun ht => ?_, fun hok => ?_⟩, ?_⟩⟩
  · exact acksCommitted_of_watermarks ht hs
  · exact (watermarked_step hwatermarked hlocal hok hs).watermarks
  · exact fun hprocess => onward_step hprocess hs

/-- Two writes of one stream, of which the first is acknowledged before the second is
applied. -/
theorem watermarks_acknowledged :
    ∃ s, (replica crc32 twoEpochs 5 ⟨1, 500, 2, [1]⟩ 0).Reachable
        (fun s a => NoInstall twoEpochs s a ∧ AcksCommitted twoEpochs s a) s ∧
      s.fresh = [(6, 1)] ∧ (s.table.ensureStream 6).consumedStreamLsn = 1 ∧ s.Watermarks := by
  obtain ⟨s, hreach, hfresh, hconsumed⟩ := System.exists_reachable_of_execute
    (replica crc32 twoEpochs 5 ⟨1, 500, 2, [1]⟩ 0)
    (fun s a => NoInstall twoEpochs s a ∧ AcksCommitted twoEpochs s a)
    [.apply ⟨id, id⟩ 2 1, .request ⟨9, ⟨.ack, 6, 0, 1, []⟩⟩, .apply ⟨id, id⟩ 3 2]
    (fun s => s.fresh = [(6, 1)] ∧ (s.table.ensureStream 6).consumedStreamLsn = 1)
    (by decide +kernel)
  exact ⟨s, hreach, hfresh, hconsumed, (watermarks_of_reachable hreach).1⟩

/-- A client acknowledges two positions of a stream that has none. The first write is
committed after that, and garbage collection drops it. -/
theorem watermarks_ackBeyond :
    ¬ ∀ (log : Nat → Option AppendCommand) (config : ServerConfig) (s : Replica),
      (replica crc32 log 5 config 0).Reachable (NoInstall log) s → s.Watermarks := by
  intro hall
  obtain ⟨s, hreach, hfresh, hindex, hgc⟩ := System.exists_reachable_of_execute
    (replica crc32 twoEpochs 5 ⟨1, 500, 2, [1]⟩ 0) (NoInstall twoEpochs)
    [.request ⟨9, ⟨.ack, 6, 0, 2, []⟩⟩, .apply ⟨id, id⟩ 2 1]
    (fun s => s.fresh = [(6, 0)] ∧ s.engine.index.lookup 6 0 = some firstLocation ∧
      s.engine.gcIndex.lookup 6 0 = none) (by decide +kernel)
  have hkept := (hall twoEpochs _ s hreach).kept (6, 0) (by rw [hfresh]; exact List.mem_cons_self)
  rw [hindex, hgc] at hkept
  cases hkept

end Replica

end WalServer.Shard
