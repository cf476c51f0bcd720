import WalServer.Cluster.Acks
import WalServer.Shard.Advance
import Mathlib.Order.UpperLower.Basic
import Mathlib.Data.Set.Finite.Basic

/-!
# `WalServer.Cluster.Holes`: the committed positions of a stream

What is meant to hold: the committed commands of a stream have the positions
`0 … n-1`, so a reader that goes on position by position meets every record and
never waits for one that does not come.

A position is allocated before it is committed and taken back when the write is
given up. Between the two it may be stored in a snapshot, and a restart then goes
on above a position that is lost with the leader's uncommitted entries
(`lsn_hole`). In the runs that `holesPermitted` permits this cannot happen, and
the positions are gapless (`lsns_initial_segment`). The invariant relates the
table to the log: positions below the committed one are committed, the ones
above it are pending, and a leader's log has every position below the next one.
-/

set_option autoImplicit false

namespace WalServer.Cluster

open WalServer.Lib WalServer.Raft WalServer.Shard WalServer.Wal

/-- A log has a command of the stream with the position. -/
def HasLsn (l : Log) (s lsn : Nat) : Prop :=
  ∃ e ∈ l, ∃ cmd ∈ e.data, cmd.streamId = s ∧ cmd.streamLsn = lsn

/-- Every command of a log comes after commands with all lower positions. -/
def HoleFree (l : Log) : Prop :=
  ∀ i e, l[i]? = some e → ∀ cmd ∈ e.data, ∀ lsn < cmd.streamLsn, HasLsn (l.take i) cmd.streamId lsn

/-- A position is committed by decisions of terms up to `T`. -/
def SettledLsn (L : TermLog (Option AppendCommand)) (T s lsn : Nat) : Prop :=
  ∃ pre, L.Settled T pre ∧ HasLsn pre s lsn

/-- A committed command of the stream has the position. -/
def CommittedLsn (σ : ShardGroup) (s lsn : Nat) : Prop :=
  ∃ i e, σ.terms.Committed i e ∧ ∃ cmd ∈ e.data, cmd.streamId = s ∧ cmd.streamLsn = lsn

/-- The committed positions of every stream are an initial segment. -/
def GaplessLsns (σ : ShardGroup) : Prop :=
  ∀ s, ∃ n, ∀ lsn, CommittedLsn σ s lsn ↔ lsn < n

/-- When the entry that is next is applied and a snapshot is due, no position is
allocated beyond the committed ones and the entry's own. -/
def SnapshotsClosed (x : Node) : Prop :=
  x.SnapshotDue → ∀ e ∈ x.log[x.delivered]?, ∀ cmd ∈ e.data, ∀ s ∈ x.core.streams.allStatuses,
    s.nextStreamLsn ≤ s.commitStreamLsn ∨
      (s.streamId = cmd.streamId ∧ s.nextStreamLsn ≤ cmd.streamLsn + 1)

instance (x : Node) : Decidable (SnapshotsClosed x) := by
  unfold SnapshotsClosed
  infer_instance

/-- The condition on a step. -/
def holesPermitted (σ : ShardGroup) (a : Action) : Prop :=
  let x := σ.nodes a.node
  answersPermitted σ a ∧
    match a.event with
    | .elect _     => x.core.observedRole ≠ .leader
    | .lightReady  => ∀ e ∈ x.log[x.delivered]?, e.data = none
    | .install _ _ => False
    | .handOver _  => SnapshotsClosed x
    | _            => True

instance (σ : ShardGroup) (a : Action) : Decidable (holesPermitted σ a) := by
  rcases a with ⟨node, _ | _ | _ | _ | _ | _ | _ | _ | _ | _ | _ | _ | _ | _⟩
  all_goals
    dsimp only [holesPermitted]
    infer_instance

/-- What holds of a node. -/
structure NodeHoles (L : TermLog (Option AppendCommand)) (x : Node) : Prop where
  ordered : x.core.streams.Ordered
  /-- While requests are handled the engine knows its role. -/
  phase : x.phase = .requests → x.core.observedRole = x.role
  /-- The table's committed positions are committed. -/
  committed : ∀ s lsn, lsn < (x.core.streams.ensureStream s).commitStreamLsn →
    SettledLsn L x.term s lsn
  /-- Only a leader has positions allocated beyond them, … -/
  closed : x.core.observedRole ≠ .leader → x.core.streams.Closed
  /-- … each for a pending write, … -/
  pending : ∀ s lsn, (x.core.streams.ensureStream s).commitStreamLsn ≤ lsn →
    lsn < (x.core.streams.ensureStream s).nextStreamLsn →
    ∃ rid p, x.core.pendingWrites.lookup rid = some p ∧ p.streamId = s ∧ p.streamLsn = lsn
  /-- … and its log has all of them. -/
  own : x.role = .leader → ∀ s lsn, lsn < (x.core.streams.ensureStream s).nextStreamLsn →
    HasLsn x.log s lsn
  snapshotClosed : (StreamStateTable.ofStatuses 0 x.snapshot.statuses).Closed
  snapshot : ∀ s lsn,
    lsn < ((StreamStateTable.ofStatuses 0 x.snapshot.statuses).ensureStream s).commitStreamLsn →
      SettledLsn L x.term s lsn
  wal : ∀ r ∈ x.wal, ∀ lsn ≤ r.streamLsn, SettledLsn L x.term r.streamId lsn

/-- What holds of the group. -/
structure Holes (σ : ShardGroup) : Prop where
  node : ∀ n, NodeHoles σ.terms (σ.nodes n)
  holeFree : σ.terms.EveryLedger HoleFree

/-! ### Logs -/

section Logs

variable {L L' : TermLog (Option AppendCommand)} {l l' : Log} {s lsn T T' : Nat}

theorem HasLsn.mono (h : HasLsn l s lsn) (hsub : ∀ e ∈ l, e ∈ l') : HasLsn l' s lsn := by
  obtain ⟨e, he, cmd, hcmd⟩ := h
  exact ⟨e, hsub e he, cmd, hcmd⟩

theorem HoleFree.of_isPrefix (hp : l <+: l') (h : HoleFree l') : HoleFree l := by
  intro i e he cmd hcmd lsn hlt
  obtain ⟨hi, -⟩ := List.getElem?_eq_some_iff.mp he
  have hhas := h i e (TermLog.getElem?_of_isPrefix hp he) cmd hcmd lsn hlt
  obtain ⟨rest, rfl⟩ := hp
  rwa [List.take_append_of_le_length hi.le] at hhas

/-- An entry whose lower positions the log has may be appended. -/
theorem HoleFree.concat (h : HoleFree l) {e : Entry (Option AppendCommand)}
    (he : ∀ cmd ∈ e.data, ∀ lsn < cmd.streamLsn, HasLsn l cmd.streamId lsn) :
    HoleFree (l ++ [e]) := by
  intro i x hx cmd hcmd lsn hlt
  rcases Nat.lt_or_ge i l.length with hi | hi
  · rw [List.getElem?_append_left hi] at hx
    rw [List.take_append_of_le_length hi.le]
    exact h i x hx cmd hcmd lsn hlt
  · have hlen : i = l.length := by
      obtain ⟨hlt', -⟩ := List.getElem?_eq_some_iff.mp hx
      rw [List.length_append, List.length_singleton] at hlt'
      omega
    subst hlen
    rw [List.getElem?_concat_length] at hx
    cases hx
    rw [List.take_left']
    · exact he cmd hcmd lsn hlt
    · rfl

/-- A log without holes has every position up to that of any of its commands. -/
theorem HoleFree.hasLsn_le (h : HoleFree l) {i : Nat} {e : Entry (Option AppendCommand)}
    (he : l[i]? = some e) {cmd : AppendCommand} (hcmd : cmd ∈ e.data)
    (hle : lsn ≤ cmd.streamLsn) : HasLsn (l.take (i + 1)) cmd.streamId lsn := by
  rcases Nat.lt_or_eq_of_le hle with hlt | rfl
  · exact (h i e he cmd hcmd lsn hlt).mono fun x hx =>
      (List.take_prefix_take_left (Nat.le_succ i)).subset hx
  · refine ⟨e, ?_, cmd, hcmd, rfl, rfl⟩
    rw [List.take_add_one, he]
    exact List.mem_append_right _ (List.mem_singleton.mpr rfl)

theorem SettledLsn.mono (h : SettledLsn L T s lsn) (hT : T ≤ T') : SettledLsn L T' s lsn := by
  obtain ⟨pre, hpre, hhas⟩ := h
  exact ⟨pre, hpre.mono hT, hhas⟩

theorem SettledLsn.grows (h : SettledLsn L T s lsn) (hg : L.Grows L') :
    SettledLsn L' T s lsn := by
  obtain ⟨pre, hpre, hhas⟩ := h
  exact ⟨pre, hpre.grows hg, hhas⟩

end Logs

/-! ### Steps of a node -/

section Node

variable {L L' : TermLog (Option AppendCommand)} {x : Node}

theorem NodeHoles.grows (h : NodeHoles L x) (hg : L.Grows L') : NodeHoles L' x :=
  { h with
    committed := fun s lsn hlt => (h.committed s lsn hlt).grows hg
    snapshot := fun s lsn hlt => (h.snapshot s lsn hlt).grows hg
    wal := fun r hr lsn hle => (h.wal r hr lsn hle).grows hg }

/-- A change of the table that shows in no stream's positions, with the pending
writes as they were. -/
theorem NodeHoles.with_core (h : NodeHoles L x) {core : ShardCore}
    (hnext : ∀ s, (core.streams.ensureStream s).nextStreamLsn =
      (x.core.streams.ensureStream s).nextStreamLsn)
    (hcommit : ∀ s, (core.streams.ensureStream s).commitStreamLsn =
      (x.core.streams.ensureStream s).commitStreamLsn)
    (hpending : core.pendingWrites = x.core.pendingWrites)
    (hobs : core.observedRole = x.core.observedRole) :
    NodeHoles L { x with core := core } where
  ordered s := by
    rw [hnext, hcommit]
    exact h.ordered s
  phase hp := hobs.trans (h.phase hp)
  committed s lsn hlt := h.committed s lsn (by rwa [← hcommit])
  closed hrole s := by
    rw [hnext, hcommit]
    exact h.closed (fun heq => hrole (hobs.trans heq)) s
  pending s lsn hge hlt := by
    show ∃ rid p, core.pendingWrites.lookup rid = some p ∧ _
    rw [hpending]
    exact h.pending s lsn (by rwa [← hcommit]) (by rwa [← hnext])
  own hrole s lsn hlt := h.own hrole s lsn (by rwa [← hnext])
  snapshotClosed := h.snapshotClosed
  snapshot := h.snapshot
  wal := h.wal

/-- An accepted write: the new position is pending, and the log has it. -/
theorem NodeHoles.propose (h : NodeHoles L x) {n conn s epoch : Nat} {payload : Bytes}
    {core : ShardCore} {cmd : AppendCommand} {proposals : List Proposal}
    (ha : NodeAnswered proposals n x) (hrole : x.role = .leader) (hphase : x.phase = .requests)
    (hres : x.core.admitWrite conn s epoch payload = (core, .ok cmd)) :
    NodeHoles L { x with core := core, log := x.log ++ [⟨x.term, some cmd⟩] } := by
  obtain ⟨hcmd, -, hstreams, -, hpending⟩ := ShardCore.admitWrite_eq_ok hres
  have hobs : core.observedRole = .leader := by
    have hsame := ShardCore.observedRole_admitWrite x.core conn s epoch payload
    rw [hres] at hsame
    exact hsame.trans ((h.phase hphase).trans hrole)
  have hcommit : ∀ id, (core.streams.ensureStream id).commitStreamLsn =
      (x.core.streams.ensureStream id).commitStreamLsn := by
    intro id
    rw [hstreams]
    split
    · rename_i heq
      rw [heq]
    · rfl
  -- A position below the new next one is an old one, or the new command's.
  have hnext : ∀ id lsn, lsn < (core.streams.ensureStream id).nextStreamLsn →
      lsn < (x.core.streams.ensureStream id).nextStreamLsn ∨
        (id = s ∧ lsn = (x.core.streams.ensureStream s).nextStreamLsn) := by
    intro id lsn hlt
    rw [hstreams] at hlt
    split at hlt
    · rename_i heq
      subst heq
      have hlt' : lsn < (x.core.streams.ensureStream id).nextStreamLsn + 1 := hlt
      rcases Nat.lt_or_eq_of_le (Nat.lt_succ_iff.mp hlt') with hold | hnew
      · exact Or.inl hold
      · exact Or.inr ⟨rfl, hnew⟩
    · exact Or.inl hlt
  refine ⟨(allocates_admitWrite_ok hres).ordered h.ordered, fun _ => hobs.trans hrole.symm, ?_,
    fun hne => absurd hobs hne, ?_, ?_, h.snapshotClosed, h.snapshot, h.wal⟩
  · intro id lsn hlt
    exact h.committed id lsn (by rwa [← hcommit])
  · intro id lsn hge hlt
    show ∃ rid p, core.pendingWrites.lookup rid = some p ∧ _
    simp only [hpending, AssocMap.lookup_insert_eq]
    rcases hnext id lsn hlt with hold | ⟨rfl, rfl⟩
    · obtain ⟨rid, p, hp, hps⟩ := h.pending id lsn (by rwa [← hcommit]) hold
      have hseq := ha.seq rid p hp
      exact ⟨rid, p, by rw [if_neg (by omega)]; exact hp, hps⟩
    · exact ⟨x.core.requestSeq + 1, _, if_pos rfl, rfl, rfl⟩
  · intro _ id lsn hlt
    rcases hnext id lsn hlt with hold | ⟨rfl, rfl⟩
    · exact (h.own hrole id lsn hold).mono fun e he => List.mem_append_left _ he
    · exact ⟨_, List.mem_append_right _ (List.mem_singleton.mpr rfl), cmd, rfl,
        by rw [hcmd], by rw [hcmd]⟩

/-- Applying the next committed command. -/
theorem NodeHoles.apply (h : NodeHoles L x) (hn : NodeLaws L x) {n : Nat}
    {proposals : List Proposal} (ha : NodeAnswered proposals n x) (hfree : HoleFree x.log)
    (hlt : x.delivered < x.committed) {e : Entry (Option AppendCommand)}
    (he : x.log[x.delivered]? = some e) {cmd : AppendCommand} (hdata : e.data = some cmd)
    (hok : SnapshotsClosed x) (timestampNs : Nat) :
    NodeHoles L (x.applyAppendEntry timestampNs cmd).1 := by
  have htable := ShardCore.ensureStream_applyCommand x.core.streams (x.delivered + 1) cmd
  -- The applied part of the log has the command and all positions below its own.
  have hbelow : ∀ lsn ≤ cmd.streamLsn, HasLsn (x.log.take (x.delivered + 1)) cmd.streamId lsn :=
    fun lsn hle => hfree.hasLsn_le he hdata hle
  have hsettled : ∀ lsn ≤ cmd.streamLsn, SettledLsn L x.term cmd.streamId lsn :=
    fun lsn hle => ⟨_, hn.settled.of_isPrefix (List.take_prefix_take_left hlt), hbelow lsn hle⟩
  have hcommitted : ∀ s lsn, lsn < ((ShardCore.applyCommand x.core.streams (x.delivered + 1)
      cmd).ensureStream s).commitStreamLsn → SettledLsn L x.term s lsn := by
    intro s lsn hlsn
    rw [htable] at hlsn
    split at hlsn
    · rename_i heq
      subst heq
      have hlsn' : lsn < max (x.core.streams.ensureStream cmd.streamId).commitStreamLsn
          (cmd.streamLsn + 1) := hlsn
      rcases Nat.lt_or_ge lsn (cmd.streamLsn + 1) with hnew | hold
      · exact hsettled lsn (by omega)
      · exact h.committed cmd.streamId lsn (by omega)
    · exact h.committed s lsn hlsn
  refine ⟨ordered_applyCommand h.ordered _ _, h.phase, hcommitted,
    fun hrole => closed_applyCommand (h.closed hrole) _ _, ?_, ?_, ?_, ?_, ?_⟩
  · -- A position that stays open is held by another write than the one completed.
    intro s lsn hge hlsn
    change ((ShardCore.applyCommand _ _ cmd).ensureStream s).commitStreamLsn ≤ lsn at hge
    change lsn < ((ShardCore.applyCommand _ _ cmd).ensureStream s).nextStreamLsn at hlsn
    show ∃ rid p, (x.core.pendingWrites.erase cmd.requestId).lookup rid = some p ∧ _
    simp only [AssocMap.lookup_erase_eq]
    have hkeep : (x.core.streams.ensureStream s).commitStreamLsn ≤ lsn ∧
        lsn < (x.core.streams.ensureStream s).nextStreamLsn ∧
        ¬ (s = cmd.streamId ∧ lsn = cmd.streamLsn) := by
      rw [htable] at hge hlsn
      split at hge
      · rename_i heq
        subst heq
        rw [if_pos rfl] at hlsn
        have hge' : max (x.core.streams.ensureStream cmd.streamId).commitStreamLsn
          (cmd.streamLsn + 1) ≤ lsn := hge
        have hlsn' : lsn < max (x.core.streams.ensureStream cmd.streamId).nextStreamLsn
          (cmd.streamLsn + 1) := hlsn
        exact ⟨by omega, by omega, by omega⟩
      · rename_i hne
        rw [if_neg hne] at hlsn
        exact ⟨hge, hlsn, fun heq => hne heq.1⟩
    obtain ⟨rid, p, hp, hps, hpl⟩ := h.pending s lsn hkeep.1 hkeep.2.1
    refine ⟨rid, p, ?_, hps, hpl⟩
    split
    · rename_i hrid
      exfalso
      obtain ⟨q, -, -, -, -, hqp, hopen⟩ := ha.owned rid p hp
      obtain ⟨-, hentry⟩ := hopen _ e cmd (Nat.le_refl _) he hdata hrid.symm
      rw [hentry] at hdata
      cases hdata
      subst hqp
      exact hkeep.2.2 ⟨hps.symm, hpl.symm⟩
    · exact hp
  · intro hrole s lsn hlsn
    change lsn < ((ShardCore.applyCommand _ _ cmd).ensureStream s).nextStreamLsn at hlsn
    rw [htable] at hlsn
    split at hlsn
    · rename_i heq
      subst heq
      have hlsn' : lsn < max (x.core.streams.ensureStream cmd.streamId).nextStreamLsn
          (cmd.streamLsn + 1) := hlsn
      rcases Nat.lt_or_ge lsn (cmd.streamLsn + 1) with hnew | hold
      · exact (hbelow lsn (by omega)).mono fun x hx => (List.take_prefix _ _).subset hx
      · exact h.own hrole cmd.streamId lsn (by omega)
    · exact h.own hrole s lsn hlsn
  · -- A new snapshot is of a table without open positions.
    show (StreamStateTable.ofStatuses 0
      (if x.SnapshotDue then _ else _ : StoredSnapshot).statuses).Closed
    by_cases hdue : x.SnapshotDue
    · rw [if_pos hdue]
      intro s
      change ((StreamStateTable.ofStatuses 0
        (ShardCore.applyCommand _ _ cmd).allStatuses).ensureStream s).nextStreamLsn =
          ((StreamStateTable.ofStatuses 0
            (ShardCore.applyCommand _ _ cmd).allStatuses).ensureStream s).commitStreamLsn
      rw [StreamStateTable.ensureStream_ofStatuses_allStatuses]
      show ((ShardCore.applyCommand _ _ cmd).ensureStream s).nextStreamLsn =
        ((ShardCore.applyCommand _ _ cmd).ensureStream s).commitStreamLsn
      have hord := h.ordered s
      have hopen : (x.core.streams.ensureStream s).nextStreamLsn ≤
            (x.core.streams.ensureStream s).commitStreamLsn ∨
          (s = cmd.streamId ∧
            (x.core.streams.ensureStream s).nextStreamLsn ≤ cmd.streamLsn + 1) := by
        rcases ensureStream_eq_new_or_mem x.core.streams s with hnew | hmem
        · left
          rw [hnew]
          exact Nat.le_refl _
        · have hstatus := hok hdue e he cmd hdata _ hmem
          have hid : (x.core.streams.ensureStream s).status.streamId = s :=
            StreamStateTable.streamId_ensureStream _ s
          rw [hid] at hstatus
          exact hstatus
      rw [htable]
      split
      · rename_i heq
        subst heq
        show max _ _ = max _ _
        omega
      · rename_i hne
        rcases hopen with hle | ⟨heq, -⟩
        · omega
        · exact absurd heq hne
    · rw [if_neg hdue]
      exact h.snapshotClosed
  · show ∀ s lsn, lsn < ((StreamStateTable.ofStatuses 0
      (if x.SnapshotDue then _ else _ : StoredSnapshot).statuses).ensureStream s).commitStreamLsn →
        SettledLsn L x.term s lsn
    by_cases hdue : x.SnapshotDue
    · rw [if_pos hdue]
      intro s lsn hlsn
      change lsn < ((StreamStateTable.ofStatuses 0
        (ShardCore.applyCommand _ _ cmd).allStatuses).ensureStream s).commitStreamLsn at hlsn
      rw [StreamStateTable.ensureStream_ofStatuses_allStatuses] at hlsn
      exact hcommitted s lsn hlsn
    · rw [if_neg hdue]
      exact h.snapshot
  · intro r hr lsn hle
    rcases List.mem_append.mp hr with hold | hnew
    · exact h.wal r hold lsn hle
    · rw [List.mem_singleton.mp hnew] at hle ⊢
      exact hsettled lsn hle

/-- The end of an iteration: a step-down takes back every open position. -/
theorem NodeHoles.observe (h : NodeHoles L x) :
    NodeHoles L { x with
      core := (x.core.logRaftStateIfChanged x.role x.leaderId).1, phase := .requests } := by
  by_cases hdown : x.core.observedRole = .leader ∧ x.role ≠ .leader
  · rw [ShardCore.logRaftStateIfChanged_down hdown.1 hdown.2]
    -- Each held position has its pending write, so the rollback gives all of them up.
    have hroll : ∀ s, (ShardCore.rollbackAll x.core.streams
        (AssocMap.values x.core.pendingWrites)).ensureStream s =
        { x.core.streams.ensureStream s with
          nextStreamLsn := (x.core.streams.ensureStream s).commitStreamLsn } := by
      intro s
      refine ShardCore.rollbackAll_complete _ _ s (h.ordered s) fun lsn hge hlt => ?_
      obtain ⟨rid, p, hp, hps⟩ := h.pending s lsn hge hlt
      exact ⟨p, AssocMap.mem_values.mpr ⟨rid, hp⟩, hps⟩
    refine ⟨(StreamStateTable.allocates_rollbackAll _ _).ordered h.ordered, fun _ => rfl, ?_,
      fun _ s => ?_, ?_, fun hrole => absurd hrole hdown.2, h.snapshotClosed, h.snapshot, h.wal⟩
    · intro s lsn hlt
      change lsn < ((ShardCore.rollbackAll _ _).ensureStream s).commitStreamLsn at hlt
      rw [hroll] at hlt
      exact h.committed s lsn hlt
    · show ((ShardCore.rollbackAll _ _).ensureStream s).nextStreamLsn =
        ((ShardCore.rollbackAll _ _).ensureStream s).commitStreamLsn
      rw [hroll]
    · intro s lsn hge hlt
      change ((ShardCore.rollbackAll _ _).ensureStream s).commitStreamLsn ≤ lsn at hge
      change lsn < ((ShardCore.rollbackAll _ _).ensureStream s).nextStreamLsn at hlt
      rw [hroll] at hge hlt
      exact absurd hge (Nat.not_le.mpr hlt)
  · -- The node did not step down, and the observation leaves the table alone.
    have hstay : x.core.observedRole = .leader → x.role = .leader :=
      fun hobs => not_not.mp fun hrole => hdown ⟨hobs, hrole⟩
    rw [ShardCore.logRaftStateIfChanged_stay hstay]
    exact { h with
      phase := fun _ => rfl
      closed := fun hrole => h.closed fun hobs => hrole (hstay hobs) }

/-- A restart: the snapshot and the recovered records show committed positions only. -/
theorem NodeHoles.reopen (h : NodeHoles L x) {tailCacheEntries : Nat}
    {recovered : List WalRecord} {committed compacted : Nat} (hwal : recovered.Sublist x.wal) :
    NodeHoles L (x.reopen tailCacheEntries recovered committed compacted) := by
  have hlimit := fun id => ensureStream_ofStatuses_limit tailCacheEntries 0 x.snapshot.statuses id
  have hclosed : (recoverStreams (.ofStatuses tailCacheEntries x.snapshot.statuses)
      x.snapshot.index recovered).Closed := by
    refine closed_recoverStreams (fun id => ?_) _ _
    rw [hlimit]
    exact h.snapshotClosed id
  refine ⟨fun id => (hclosed id).ge, fun _ => rfl, ?_, fun _ => hclosed, ?_,
    fun hrole => (nomatch hrole), h.snapshotClosed, h.snapshot, h.wal⟩
  · intro s lsn hlt
    rcases commitStreamLsn_recoverStreams _ _ _ hlt with hsnap | ⟨r, hr, rfl, hle⟩
    · rw [hlimit] at hsnap
      exact h.snapshot s lsn hsnap
    · exact h.wal r (hwal.subset hr) lsn hle
  · intro s lsn hge hlt
    exfalso
    have heq := hclosed s
    change ((recoverStreams _ _ _).ensureStream s).commitStreamLsn ≤ lsn at hge
    change lsn < ((recoverStreams _ _ _).ensureStream s).nextStreamLsn at hlt
    rw [heq] at hlt
    exact absurd hge (Nat.not_le.mpr hlt)

end Node

/-! ### Steps of the group -/

section Step

variable {tailCacheEntries : Nat → Nat} {σ τ : ShardGroup} {n : Nat} {ev : Event}

open ShardGroup

/-- A permitted step keeps what holds of its own node. -/
theorem Holes.step_self (hh : Holes σ) (hσ : Laws σ) (ha : Answered σ)
    (hok : holesPermitted σ ⟨n, ev⟩) (h : Step tailCacheEntries σ n (σ.nodes n) ev τ) :
    NodeHoles τ.terms (τ.nodes n) := by
  have hx := hh.node n
  have hx' : NodeHoles τ.terms (σ.nodes n) := hx.grows (hσ.step_grows h)
  have hfree : HoleFree (σ.nodes n).log :=
    hh.holeFree.recorded (fun _ _ hp h => h.of_isPrefix hp) (hσ.node n).recorded
  cases h with
  | writeRedirected => exact hx
  | writeRefused _ _ hres =>
      rw [nodes_update_self]
      obtain ⟨hstreams, -, hpending⟩ := ShardCore.admitWrite_eq_error hres
      rename_i conn s epoch _ payload _ _ _
      have hobs := ShardCore.observedRole_admitWrite (σ.nodes n).core conn s epoch payload
      rw [hres] at hobs
      exact hx.with_core (fun s => by rw [hstreams]) (fun s => by rw [hstreams]) hpending hobs
  | writeAccepted hphase hrole hres =>
      show NodeHoles _ ((σ.update n _).nodes n)
      rw [nodes_update_self]
      exact hx'.propose (ha.node n) hrole hphase hres
  | ack =>
      rw [nodes_update_self]
      exact hx.with_core (nextStreamLsn_advanceConsumed _ _ _)
        (commitStreamLsn_advanceConsumed _ _ _) rfl rfl
  | poll =>
      rw [nodes_update_self]
      exact { hx with phase := fun h => (nomatch h) }
  | follow hphase hrole hterm =>
      rw [nodes_update_self]
      exact { hx with
        phase := fun h => absurd (hphase.symm.trans h) (by decide)
        committed := fun s lsn hlt => (hx.committed s lsn hlt).mono hterm
        own := fun h => absurd h hrole
        snapshot := fun s lsn hlt => (hx.snapshot s lsn hlt).mono hterm
        wal := fun r hr lsn hle => (hx.wal r hr lsn hle).mono hterm }
  | elect hphase _ hterm hfresh hearlier =>
      show NodeHoles _ ((σ.update n _).nodes n)
      rw [nodes_update_self]
      refine { hx' with
        phase := fun h => absurd (hphase.symm.trans h) (by decide)
        committed := fun s lsn hlt => (hx'.committed s lsn hlt).mono hterm
        own := fun _ s lsn hlt => ?_
        snapshot := fun s lsn hlt => (hx'.snapshot s lsn hlt).mono hterm
        wal := fun r hr lsn hle => (hx'.wal r hr lsn hle).mono hterm }
      -- The table is closed, and what is committed is in the new leader's log.
      have hlt' : lsn < ((σ.nodes n).core.streams.ensureStream s).commitStreamLsn := by
        rw [← hx.closed hok.2 s]
        exact hlt
      obtain ⟨pre, hpre, hhas⟩ := hx.committed s lsn hlt'
      have hsub := hpre.isPrefix_of_hasEarlier hfresh hterm hearlier
      exact hhas.mono fun e he => List.mem_append_left _ (hsub.subset he)
  | replicate _ hphase hrole _ _ _ =>
      rw [nodes_update_self]
      exact { hx with own := fun h => absurd h hrole }
  | commit =>
      show NodeHoles _ ((σ.update n _).nodes n)
      rw [nodes_update_self]
      exact { hx' with }
  | learnCommit =>
      rw [nodes_update_self]
      exact { hx with }
  | install => exact hok.2.elim
  | handOverEmpty =>
      rw [nodes_update_self]
      exact { hx with }
  | handOverCommand _ hlt he hdata =>
      show NodeHoles _ ((σ.update n _).nodes n)
      rw [nodes_update_self]
      exact hx.apply (hσ.node n) (ha.node n) hfree hlt he hdata hok.2 _
  | lightReady =>
      rw [nodes_update_self]
      exact { hx with }
  | advance =>
      rw [nodes_update_self]
      exact { hx with }
  | observe =>
      show NodeHoles _ ((σ.update n _).nodes n)
      rw [nodes_update_self]
      exact hx.observe
  | restart hwal _ _ _ =>
      rw [nodes_update_self]
      exact hx.reopen hwal

/-- **A permitted step leaves no holes.** -/
theorem Holes.step (hh : Holes σ) (hσ : Laws σ) (ha : Answered σ)
    (hok : holesPermitted σ ⟨n, ev⟩) (h : Step tailCacheEntries σ n (σ.nodes n) ev τ) :
    Holes τ := by
  refine ⟨fun m => ?_, ?_⟩
  · by_cases hm : m = n
    · subst hm
      exact hh.step_self hσ ha hok h
    · rw [h.nodes_other hm]
      exact (hh.node m).grows (hσ.step_grows h)
  · have hfree : HoleFree (σ.nodes n).log :=
      hh.holeFree.recorded (fun _ _ hp h => h.of_isPrefix hp) (hσ.node n).recorded
    cases h with
    | writeAccepted _ hrole hres =>
        obtain ⟨rfl, -⟩ := ShardCore.admitWrite_eq_ok hres
        refine hh.holeFree.append (hfree.concat ?_)
        intro cmd hcmd lsn hlt
        cases hcmd
        exact (hh.node n).own hrole _ lsn hlt
    | elect =>
        refine hh.holeFree.openTerm (hfree.concat ?_)
        intro cmd hcmd
        cases hcmd
    | _ => exact hh.holeFree

end Step

/-! ### Runs -/

section Run

variable {tailCacheEntries : Nat → Nat} {σ : ShardGroup}

theorem holes_init (tailCacheEntries : Nat → Nat) : Holes (ShardGroup.init tailCacheEntries) := by
  -- No stream has any position yet.
  have hnew : ∀ limit s, ((StreamStateTable.new limit).ensureStream s).commitStreamLsn = 0 := by
    intro limit s
    rw [StreamStateTable.ensureStream_new]
    rfl
  refine ⟨fun n => ⟨StreamStateTable.ordered_new _, fun _ => rfl, ?_, fun _ => closed_new _, ?_,
    fun h => (nomatch h), closed_new 0, ?_, ?_⟩, ?_⟩
  · intro s lsn hlt
    change lsn < ((StreamStateTable.new _).ensureStream s).commitStreamLsn at hlt
    rw [hnew] at hlt
    exact absurd hlt (Nat.not_lt_zero lsn)
  · intro s lsn _ hlt
    change lsn < ((StreamStateTable.new _).ensureStream s).nextStreamLsn at hlt
    rw [closed_new, hnew] at hlt
    exact absurd hlt (Nat.not_lt_zero lsn)
  · intro s lsn hlt
    change lsn < ((StreamStateTable.new 0).ensureStream s).commitStreamLsn at hlt
    rw [hnew] at hlt
    exact absurd hlt (Nat.not_lt_zero lsn)
  · intro r hr
    cases hr
  · intro t full hfull
    have hmem : ((⟨t, full⟩ : Sigma fun _ : Nat => Log)) ∈
        (AList.singleton 1 [bootstrapEntry] : AssocMap Nat Log).entries :=
      AList.mem_lookup_iff.mp hfull
    cases List.mem_singleton.mp hmem
    intro i e he cmd hcmd
    rw [List.mem_singleton.mp (List.mem_of_getElem? he)] at hcmd
    cases hcmd

/-- **The invariant of the runs without holes.** -/
theorem holes_reachable (h : (group tailCacheEntries).Reachable holesPermitted σ) : Holes σ := by
  refine h.invariant (holes_init tailCacheEntries) ?_
  intro s a t hs hh hok hst
  have ha := answered_reachable (hs.mono fun _ _ hok => hok.1)
  exact hh.step (laws_reachable hs) ha hok (ShardGroup.step_sound hst)

/-- Below a committed position all positions are committed. -/
theorem CommittedLsn.lower (h : (group tailCacheEntries).Reachable holesPermitted σ)
    {s lsn lsn' : Nat} (hc : CommittedLsn σ s lsn) (hlt : lsn' < lsn) : CommittedLsn σ s lsn' := by
  obtain ⟨i, e, ⟨t, k, full, hk, hfull, hik, hi⟩, cmd, hcmd, rfl, rfl⟩ := hc
  obtain ⟨e', he', cmd', hcmd', hs', hl'⟩ :=
    (holes_reachable h).holeFree t full hfull i e hi cmd hcmd lsn' hlt
  obtain ⟨j, hj⟩ := List.mem_iff_getElem?.mp he'
  obtain ⟨hjlt, -⟩ := List.getElem?_eq_some_iff.mp hj
  rw [List.length_take] at hjlt
  exact ⟨j, e', ⟨t, k, full, hk, hfull, by omega,
    TermLog.getElem?_of_isPrefix (List.take_prefix i full) hj⟩, cmd', hcmd', hs', hl'⟩

/-- The committed positions are those of finitely many commands. -/
theorem finite_committedLsn (σ : ShardGroup) (s : Nat) : {lsn | CommittedLsn σ s lsn}.Finite := by
  let listed : List Nat := σ.terms.commits.flatMap fun d =>
    ((σ.terms.ledger d.1).getD []).flatMap fun e => (e.data.map AppendCommand.streamLsn).toList
  refine (List.finite_toSet listed).subset ?_
  rintro lsn ⟨i, e, ⟨t, k, full, hk, hfull, -, hi⟩, cmd, hcmd, -, rfl⟩
  refine List.mem_flatMap.mpr ⟨(t, k), hk, List.mem_flatMap.mpr ⟨e, ?_, ?_⟩⟩
  · rw [hfull]
    exact List.mem_of_getElem? hi
  · rw [Option.mem_toList, Option.mem_def.mp hcmd]
    rfl

/-- **Committed streams have no holes**, in the permitted runs. -/
theorem lsns_initial_segment (h : (group tailCacheEntries).Reachable holesPermitted σ) :
    GaplessLsns σ := by
  intro s
  have hlower : IsLowerSet {lsn | CommittedLsn σ s lsn} := by
    intro lsn lsn' hle hc
    rcases Nat.lt_or_eq_of_le hle with hlt | rfl
    · exact CommittedLsn.lower h hc hlt
    · exact hc
  rcases hlower.eq_univ_or_Iio with huniv | ⟨n, hn⟩
  · have hfin := finite_committedLsn σ s
    rw [huniv] at hfin
    exact absurd hfin Set.infinite_univ
  · exact ⟨n, fun lsn => by rw [← Set.mem_Iio, ← hn]; rfl⟩

end Run

/-- A leader writes twice and applies its writes, writes again and loses that one
to a new leader, and writes on when it leads again. -/
def rollbackRun : List Action :=
  [⟨1, .poll⟩, ⟨1, .elect 2⟩, ⟨1, .observe⟩, ⟨1, .write 11 7 1 [1]⟩, ⟨1, .write 11 7 1 [2]⟩,
   ⟨1, .poll⟩, ⟨1, .commit 4⟩, ⟨1, .handOver 0⟩, ⟨1, .handOver 0⟩, ⟨1, .handOver 0⟩,
   ⟨1, .handOver 0⟩, ⟨1, .observe⟩, ⟨1, .write 11 7 1 [3]⟩, ⟨1, .poll⟩,
   ⟨2, .poll⟩, ⟨2, .replicate 2 4⟩, ⟨2, .elect 3⟩,
   ⟨1, .follow .follower 3 2⟩, ⟨1, .replicate 3 5⟩, ⟨1, .observe⟩,
   ⟨1, .poll⟩, ⟨1, .elect 4⟩, ⟨1, .observe⟩, ⟨1, .write 11 7 1 [4]⟩, ⟨1, .poll⟩, ⟨1, .commit 7⟩]

theorem lsns_initial_segment_rollback :
    ∃ σ, (group fun _ => 8).Reachable holesPermitted σ ∧ (4, 7) ∈ σ.terms.commits ∧
      (σ.nodes 1).log[6]? = some ⟨4, some ⟨4, 7, 1, 2, [4]⟩⟩ ∧ GaplessLsns σ := by
  obtain ⟨σ, hreach, hcommits, hlog⟩ := System.exists_reachable_of_execute (group fun _ => 8)
    holesPermitted rollbackRun
    (fun s => (4, 7) ∈ s.terms.commits ∧
      (s.nodes 1).log[6]? = some ⟨4, some ⟨4, 7, 1, 2, [4]⟩⟩)
    (by decide +kernel)
  exact ⟨σ, hreach, hcommits, hlog, lsns_initial_segment hreach⟩

/-- The records a leader writes when it applies the first 64 writes of a stream. -/
def firstRecords : List WalRecord :=
  (List.range 64).map fun k => ⟨7, 1, k + 3, k, 0, [1]⟩

/-- A leader has applied 65 entries and handles one more write before it applies
the next; the snapshot stored then has the new write's position. The second node
takes over without the write, and the first restarts and leads again. -/
def frozenRun : List Action :=
  [⟨1, .poll⟩, ⟨1, .elect 2⟩, ⟨1, .observe⟩] ++ List.replicate 64 ⟨1, .write 11 7 1 [1]⟩ ++
    [⟨1, .poll⟩, ⟨1, .commit 66⟩] ++ List.replicate 65 ⟨1, .handOver 0⟩ ++
    [⟨1, .advance⟩, ⟨1, .observe⟩, ⟨1, .write 11 7 1 [2]⟩, ⟨1, .poll⟩, ⟨1, .handOver 0⟩,
     ⟨2, .poll⟩, ⟨2, .replicate 2 66⟩, ⟨2, .elect 3⟩,
     ⟨1, .restart firstRecords 66 65⟩, ⟨1, .poll⟩, ⟨1, .follow .follower 3 2⟩,
     ⟨1, .replicate 3 67⟩, ⟨1, .elect 4⟩, ⟨1, .observe⟩, ⟨1, .write 11 7 1 [3]⟩,
     ⟨1, .poll⟩, ⟨1, .commit 69⟩]

/-- **A stream with a hole.** Position 65 is committed and position 64 is not. -/
theorem lsn_hole :
    ∃ σ, (group fun _ => 8).Reachable System.anyStep σ ∧ CommittedLsn σ 7 65 ∧
      ¬ CommittedLsn σ 7 64 ∧ ¬ GaplessLsns σ := by
  obtain ⟨σ, hreach, hlog, hnone, hcommits⟩ := System.exists_reachable_of_execute
    (group fun _ => 8) System.anyStep frozenRun
    (fun s => (s.terms.ledger 4).any (fun l => l[68]? = some ⟨4, some ⟨1, 7, 1, 65, [3]⟩⟩) = true ∧
      (s.terms.commits.all fun d => ((s.terms.ledger d.1).getD []).take d.2 |>.all fun e =>
        e.data.all fun cmd => cmd.streamLsn ≠ 64) = true ∧
      (4, 69) ∈ s.terms.commits)
    (by decide +kernel)
  have hhas : CommittedLsn σ 7 65 := by
    obtain ⟨full, hfull, hget⟩ := (Option.any_eq_true _ _).mp hlog
    exact ⟨68, _, ⟨4, 69, full, hcommits, hfull, by decide, of_decide_eq_true hget⟩, _, rfl, rfl,
      rfl⟩
  have hlacks : ¬ CommittedLsn σ 7 64 := by
    rintro ⟨i, e, ⟨t, k, full, hk, hfull, hik, hi⟩, cmd, hcmd, -, hlsn⟩
    have hall := List.all_eq_true.mp hnone (t, k) hk
    rw [hfull] at hall
    have hmem : e ∈ full.take k :=
      List.mem_of_getElem? (by rw [List.getElem?_take_of_lt hik]; exact hi)
    have hone := List.all_eq_true.mp hall e hmem
    rw [Option.mem_def.mp hcmd] at hone
    exact of_decide_eq_true hone hlsn
  refine ⟨σ, hreach, hhas, hlacks, fun hgapless => ?_⟩
  obtain ⟨n, hn⟩ := hgapless 7
  have hlt : 65 < n := (hn 65).mp hhas
  exact hlacks ((hn 64).mpr (by omega))

end WalServer.Cluster
