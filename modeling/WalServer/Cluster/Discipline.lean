import WalServer.Cluster.Laws
import WalServer.Shard.Advance

/-!
# `WalServer.Cluster.Discipline`: admission against a log it has not seen

A leader decides about a write by its stream table. The table accounts for what
was handed to `apply_append_entry` and for what the leader proposed itself; the
raft log may hold more. A `Discipline` is something admission is meant to keep
along the log of a stream, stated through what a stream's state says of a
command; that stream positions are not used twice and that epochs do not fall
are two of them.

`Discipline.permits` is the condition on a run under which a discipline holds:
a write meets no command of its stream that was inherited, not handed over and
not accounted for, and no committed command bypasses the table, by a `LightReady`
or in a snapshot. `covered_reachable` is the invariant of such runs, and
`Discipline.follows_committed` what it gives for committed commands.
-/

set_option autoImplicit false

namespace WalServer.Cluster

open WalServer.Lib WalServer.Raft WalServer.Shard WalServer.Wal

/-- Something that admission keeps along the log of a stream. -/
structure Discipline where
  /-- The part of a stream's state that matters, as an order. -/
  le : StreamReplicaState → StreamReplicaState → Prop
  /-- The state accounts for a command, whatever is given up later. -/
  settled : StreamReplicaState → AppendCommand → Prop
  /-- The state accounts for a command as long as nothing is given up. -/
  held : StreamReplicaState → AppendCommand → Prop
  /-- A write with this epoch, admitted in this state, may follow the command. -/
  before : StreamReplicaState → Nat → AppendCommand → Prop
  /-- The law between a command and a later one of the same stream. -/
  follows : AppendCommand → AppendCommand → Prop
  le_of_later : ∀ st st', st.Le st' → le st st'
  settled_mono : ∀ st st' cmd, le st st' → settled st cmd → settled st' cmd
  settled_applied : ∀ st (cmd : AppendCommand), cmd.epoch ≤ st.maxEpoch →
    cmd.streamLsn < st.commitStreamLsn → settled st cmd
  held_of_settled : ∀ st cmd, st.commitStreamLsn ≤ st.nextStreamLsn → settled st cmd → held st cmd
  held_mono : ∀ st st' cmd, st.maxEpoch ≤ st'.maxEpoch → st.nextStreamLsn ≤ st'.nextStreamLsn →
    held st cmd → held st' cmd
  held_admitted : ∀ st (cmd : AppendCommand), cmd.epoch ≤ st.maxEpoch →
    cmd.streamLsn < st.nextStreamLsn → held st cmd
  before_of_held : ∀ st epoch cmd, st.maxEpoch ≤ epoch → held st cmd → before st epoch cmd
  follows_of_before : ∀ st (cmd cmd' : AppendCommand), before st cmd'.epoch cmd →
    cmd'.streamLsn = st.nextStreamLsn → follows cmd cmd'

namespace Discipline

variable (D : Discipline)

/-- The condition on a step. -/
def permits (σ : ShardGroup) (a : Action) : Prop :=
  let x := σ.nodes a.node
  match a.event with
  | .write _ s epoch _ =>
      x.role = .leader → (x.core.streams.ensureStream s).maxEpoch ≤ epoch →
        ∀ e ∈ x.log.drop x.delivered, e.term ≠ x.term → ∀ cmd ∈ e.data, cmd.streamId = s →
          D.before (x.core.streams.ensureStream s) epoch cmd
  | .lightReady =>
      ∀ e ∈ x.log[x.delivered]?, ∀ cmd ∈ e.data,
        D.settled (x.core.streams.ensureStream cmd.streamId) cmd
  | .install _ snapshot =>
      ∀ s ∈ snapshot.statuses, D.le s.restore (x.core.streams.ensureStream s.streamId)
  | _ => True

instance [∀ st st', Decidable (D.le st st')] [∀ st cmd, Decidable (D.settled st cmd)]
    [∀ st epoch cmd, Decidable (D.before st epoch cmd)] (σ : ShardGroup) (a : Action) :
    Decidable (D.permits σ a) := by
  rcases a with ⟨node, _ | _ | _ | _ | _ | _ | _ | _ | _ | _ | _ | _ | _ | _⟩
  all_goals
    dsimp only [permits]
    infer_instance

/-- The table accounts for every command of a log. -/
def Covers (t : StreamStateTable) (l : Log) : Prop :=
  ∀ e ∈ l, ∀ cmd ∈ e.data, D.settled (t.ensureStream cmd.streamId) cmd

/-- The law holds along a log. -/
def Kept (l : Log) : Prop :=
  l.Pairwise fun e e' => ∀ cmd ∈ e.data, ∀ cmd' ∈ e'.data,
    cmd.streamId = cmd'.streamId → D.follows cmd cmd'

/-- A snapshot accounts for the committed commands up to its index. -/
structure SnapshotCovers (L : TermLog (Option AppendCommand)) (snapshot : StoredSnapshot) :
    Prop where
  ordered : (StreamStateTable.ofStatuses 0 snapshot.statuses).Ordered
  covers : ∃ T pre, pre.length = snapshot.index ∧ L.Settled T pre ∧
    D.Covers (.ofStatuses 0 snapshot.statuses) pre

/-- What holds of a node. -/
structure Covered (L : TermLog (Option AppendCommand)) (x : Node) : Prop where
  ordered : x.core.streams.Ordered
  delivered : D.Covers x.core.streams (x.log.take x.delivered)
  snapshot : D.SnapshotCovers L x.snapshot
  held : x.role = .leader → ∀ e ∈ x.log, e.term = x.term → ∀ cmd ∈ e.data,
    D.held (x.core.streams.ensureStream cmd.streamId) cmd

/-- What holds of the group. -/
structure GroupCovered (σ : ShardGroup) : Prop where
  node : ∀ n, D.Covered σ.terms (σ.nodes n)
  snapshots : ∀ snapshot ∈ σ.snapshots, D.SnapshotCovers σ.terms snapshot
  kept : σ.terms.EveryLedger D.Kept

/-! ### Tables and logs -/

variable {D}

theorem Covers.mono {t t' : StreamStateTable} {l : Log} (h : D.Covers t l)
    (hle : ∀ id, D.le (t.ensureStream id) (t'.ensureStream id)) : D.Covers t' l := by
  intro e he cmd hcmd
  exact D.settled_mono _ _ _ (hle _) (h e he cmd hcmd)

theorem Covers.later {t t' : StreamStateTable} {l : Log} (h : D.Covers t l) (hle : t.Later t') :
    D.Covers t' l :=
  h.mono fun id => D.le_of_later _ _ (hle id)

theorem Covers.of_isPrefix {t : StreamStateTable} {l l' : Log} (h : D.Covers t l)
    (hp : l' <+: l) : D.Covers t l' :=
  fun e he => h e (hp.subset he)

/-- One more entry is accounted for. -/
theorem Covers.concat {t : StreamStateTable} {l : Log} {e : Entry (Option AppendCommand)}
    (h : D.Covers t l) (he : ∀ cmd ∈ e.data, D.settled (t.ensureStream cmd.streamId) cmd) :
    D.Covers t (l ++ [e]) := by
  intro e' he'
  rcases List.mem_append.mp he' with hmem | hmem
  · exact h e' hmem
  · rw [List.mem_singleton.mp hmem]
    exact he

theorem Kept.of_isPrefix {l l' : Log} (hp : l <+: l') (h : D.Kept l') : D.Kept l :=
  h.sublist hp.sublist

theorem SnapshotCovers.grows {L L' : TermLog (Option AppendCommand)} {snapshot : StoredSnapshot}
    (h : D.SnapshotCovers L snapshot) (hg : L.Grows L') : D.SnapshotCovers L' snapshot where
  ordered := h.ordered
  covers := by
    obtain ⟨T, pre, hlen, hpre, hcovers⟩ := h.covers
    exact ⟨T, pre, hlen, hpre.grows hg, hcovers⟩

/-- A snapshot of a table that accounts for a settled list accounts for it too. -/
theorem snapshotCovers_of_table {L : TermLog (Option AppendCommand)} {t : StreamStateTable}
    (hordered : t.Ordered) {T index : Nat} {pre : Log} (hpre : L.Settled T pre)
    (hlen : pre.length = index) (hcovers : D.Covers t pre) :
    D.SnapshotCovers L ⟨index, t.allStatuses⟩ := by
  have hview := fun id => StreamStateTable.ensureStream_ofStatuses_allStatuses t 0 id
  refine ⟨fun id => ?_, T, pre, hlen, hpre, hcovers.mono fun id => D.le_of_later _ _ ?_⟩
  · rw [hview]
    exact hordered id
  · rw [hview]
    exact ⟨Nat.le_refl _, Nat.le_refl _⟩

/-- A snapshot accounts for any settled list up to its index. -/
theorem SnapshotCovers.covers_settled {L : TermLog (Option AppendCommand)}
    {snapshot : StoredSnapshot} (h : D.SnapshotCovers L snapshot) (hL : L.Lawful) {T : Nat}
    {pre : Log} (hpre : L.Settled T pre) (hle : pre.length ≤ snapshot.index) :
    D.Covers (.ofStatuses 0 snapshot.statuses) pre := by
  obtain ⟨T', pre', hlen, hpre', hcovers⟩ := h.covers
  exact hcovers.of_isPrefix (hL.settled_isPrefix hpre hpre' (by omega))

/-! ### Steps of a node -/

section Node

variable {L L' : TermLog (Option AppendCommand)} {x : Node}

theorem Covered.grows (h : D.Covered L x) (hg : L.Grows L') : D.Covered L' x :=
  { h with snapshot := h.snapshot.grows hg }

/-- A change of the engine's state that takes nothing back. -/
theorem Covered.with_core (h : D.Covered L x) {core : ShardCore}
    (hlater : x.core.streams.Later core.streams) (hordered : core.streams.Ordered)
    (hnext : x.role = .leader → x.core.streams.NextLater core.streams) :
    D.Covered L { x with core := core } where
  ordered := hordered
  delivered := h.delivered.later hlater
  snapshot := h.snapshot
  held hrole e he hterm cmd hcmd :=
    D.held_mono _ _ _ (hlater _).maxEpoch (hnext hrole _) (h.held hrole e he hterm cmd hcmd)

/-- **A permitted write follows all that is in the log.** -/
theorem Covered.before_log (h : D.Covered L x) (hrole : x.role = .leader) {s epoch : Nat}
    (hepoch : (x.core.streams.ensureStream s).maxEpoch ≤ epoch)
    (hok : ∀ e ∈ x.log.drop x.delivered, e.term ≠ x.term → ∀ cmd ∈ e.data, cmd.streamId = s →
      D.before (x.core.streams.ensureStream s) epoch cmd)
    {e : Entry (Option AppendCommand)} (he : e ∈ x.log) {cmd : AppendCommand}
    (hcmd : cmd ∈ e.data) (hs : cmd.streamId = s) :
    D.before (x.core.streams.ensureStream s) epoch cmd := by
  by_cases hterm : e.term = x.term
  · -- The leader's own proposals are held by its table.
    subst hs
    exact D.before_of_held _ _ _ hepoch (h.held hrole e he hterm cmd hcmd)
  · rw [← List.take_append_drop x.delivered x.log] at he
    rcases List.mem_append.mp he with hdone | hopen
    · subst hs
      have hsettled := h.delivered e hdone cmd hcmd
      exact D.before_of_held _ _ _ hepoch (D.held_of_settled _ _ (h.ordered _) hsettled)
    · exact hok e hopen hterm cmd hcmd hs

/-- Coming into office: no entry of the fresh term is in the log. -/
theorem ne_term_of_fresh (hL : L.Lawful) (hrec : L.Recorded x.log) {term : Nat}
    (hfresh : L.ledger term = none) {e : Entry (Option AppendCommand)} (he : e ∈ x.log) :
    e.term ≠ term := by
  obtain ⟨i, hi⟩ := List.mem_iff_getElem?.mp he
  obtain ⟨own, hown, -⟩ := hL.origin_recorded hrec hi
  intro heq
  rw [heq, hfresh] at hown
  cases hown

end Node

/-! ### Steps of the group -/

section Step

variable {tailCacheEntries : Nat → Nat} {σ τ : ShardGroup} {n : Nat} {ev : Event}

open ShardGroup

/-- The entries handed over are where they were when a log is replaced above the
committed part. -/
theorem take_delivered_replicate {L : TermLog (Option AppendCommand)} {x : Node} {full : Log}
    {len : Nat} (hx : NodeLaws L x) (hkeep : x.committed ≤ len)
    (hsame : full.take x.committed = x.log.take x.committed) :
    (full.take len).take x.delivered = x.log.take x.delivered := by
  have hle := hx.delivered_le
  have hcut : ∀ l : Log, l.take x.delivered = (l.take x.committed).take x.delivered := by
    intro l
    rw [List.take_take, Nat.min_eq_left hle]
  rw [List.take_take, Nat.min_eq_left (hle.trans hkeep), hcut full, hsame, ← hcut]

/-- A permitted step keeps its own node covered. -/
theorem GroupCovered.step_self (hc : D.GroupCovered σ) (hσ : Laws σ)
    (hok : D.permits σ ⟨n, ev⟩) (h : Step tailCacheEntries σ n (σ.nodes n) ev τ) :
    D.Covered τ.terms (τ.nodes n) := by
  have hn := hσ.node n
  have hx := hc.node n
  have hx' : D.Covered τ.terms (σ.nodes n) := hx.grows (hσ.step_grows h)
  cases h with
  | writeRedirected => exact hx
  | writeRefused _ _ hres =>
      rw [nodes_update_self]
      obtain ⟨hstreams, -, -⟩ := ShardCore.admitWrite_eq_error hres
      refine hx.with_core (fun id => ?_) (fun id => ?_) (fun _ id => ?_)
      · rw [hstreams]
        exact ⟨Nat.le_refl _, Nat.le_refl _⟩
      · rw [hstreams]
        exact hx.ordered id
      · rw [hstreams]
  | writeAccepted _ hrole hres =>
      show D.Covered _ ((σ.update n _).nodes n)
      rw [nodes_update_self]
      obtain ⟨hcmd, -, hstreams, -⟩ := ShardCore.admitWrite_eq_ok hres
      have hallocates := allocates_admitWrite_ok hres
      have hcore := hx'.with_core hallocates.later (hallocates.ordered hx.ordered)
        (fun _ => nextLater_admitWrite_ok hres)
      refine ⟨hcore.ordered, ?_, hcore.snapshot, ?_⟩
      · show D.Covers _ (List.take _ (_ ++ _))
        rw [List.take_append_of_le_length (hn.delivered_le.trans hn.committed_le)]
        exact hcore.delivered
      · intro _ e he hterm c hc
        rcases List.mem_append.mp he with hold | hnew
        · exact hcore.held hrole e hold hterm c hc
        · rw [List.mem_singleton.mp hnew] at hc
          cases hc
          -- The command just admitted: the table has moved past it.
          show D.held (StreamStateTable.ensureStream _ _) _
          rw [hstreams, hcmd]
          simp only [if_true]
          exact D.held_admitted _ _ (Nat.le_refl _) (Nat.lt_succ_self _)
  | ack =>
      rw [nodes_update_self]
      exact hx.with_core (later_advanceConsumed _ _ _) (ordered_advanceConsumed hx.ordered _ _)
        (fun _ id => (nextStreamLsn_advanceConsumed _ _ _ id).ge)
  | poll =>
      rw [nodes_update_self]
      exact { hx with }
  | follow _ hrole _ =>
      rw [nodes_update_self]
      exact { hx with held := fun h => absurd h hrole }
  | elect _ _ _ hfresh _ =>
      show D.Covered _ ((σ.update n _).nodes n)
      rw [nodes_update_self]
      refine ⟨hx'.ordered, ?_, hx'.snapshot, ?_⟩
      · show D.Covers _ (List.take _ (_ ++ _))
        rw [List.take_append_of_le_length (hn.delivered_le.trans hn.committed_le)]
        exact hx'.delivered
      · intro _ e he hterm cmd hcmd
        rcases List.mem_append.mp he with hold | hnew
        · exact absurd hterm (ne_term_of_fresh hσ.lawful hn.recorded hfresh hold)
        · rw [List.mem_singleton.mp hnew] at hcmd
          cases hcmd
  | replicate _ _ hrole hkeep _ hsame =>
      rw [nodes_update_self]
      refine ⟨hx.ordered, ?_, hx.snapshot, fun h => absurd h hrole⟩
      show D.Covers _ (List.take (σ.nodes n).delivered (List.take _ _))
      rw [take_delivered_replicate hn hkeep hsame]
      exact hx.delivered
  | commit =>
      show D.Covered _ ((σ.update n _).nodes n)
      rw [nodes_update_self]
      exact { hx' with }
  | learnCommit =>
      rw [nodes_update_self]
      exact { hx with }
  | install _ _ hrole _ hmem hlen hsettled =>
      rw [nodes_update_self]
      have hsnap := hc.snapshots _ hmem
      refine ⟨hx.ordered, ?_, hsnap, fun h => absurd h hrole⟩
      show D.Covers _ (List.take (StoredSnapshot.index _) (List.take _ _))
      rw [List.take_take, Nat.min_self]
      -- The snapshot covers the installed log, and the table is not behind it.
      refine (hsnap.covers_settled hσ.lawful hsettled (List.length_take_le _ _)).mono ?_
      intro id
      rcases ensureStream_ofStatuses 0 _ id with hnew | ⟨s, hs, rfl, hrestore⟩
      · rw [hnew]
        exact D.le_of_later _ _ ⟨Nat.zero_le _, Nat.zero_le _⟩
      · rw [hrestore]
        exact hok s hs
  | handOverEmpty _ _ he hdata =>
      rw [nodes_update_self]
      refine ⟨hx.ordered, ?_, hx.snapshot, hx.held⟩
      show D.Covers _ (List.take ((σ.nodes n).delivered + 1) _)
      rw [List.take_add_one, he]
      exact hx.delivered.concat fun cmd hcmd => by rw [hdata] at hcmd; cases hcmd
  | handOverCommand _ _ he hdata =>
      rename_i e cmd _ _
      show D.Covered _ ((σ.update n _).nodes n)
      rw [nodes_update_self]
      have hlater := later_applyCommand (σ.nodes n).core.streams ((σ.nodes n).delivered + 1) cmd
      have hordered : (ShardCore.applyCommand (σ.nodes n).core.streams _ cmd).Ordered :=
        ordered_applyCommand hx.ordered ((σ.nodes n).delivered + 1) cmd
      have hdelivered : D.Covers (ShardCore.applyCommand (σ.nodes n).core.streams
          ((σ.nodes n).delivered + 1) cmd) ((σ.nodes n).log.take ((σ.nodes n).delivered + 1)) := by
        rw [List.take_add_one, he]
        refine (hx.delivered.later hlater).concat fun c hc => ?_
        rw [hdata] at hc
        cases hc
        have hself := applyCommand_self (σ.nodes n).core.streams ((σ.nodes n).delivered + 1) cmd
        exact D.settled_applied _ _ hself.1 hself.2
      refine ⟨hordered, hdelivered, ?_, fun hrole e he hterm c hc => ?_⟩
      · -- A new snapshot describes the table after the entry, so all that was applied.
        show D.SnapshotCovers _ (if (σ.nodes n).SnapshotDue then _ else _ : StoredSnapshot)
        by_cases hdue : (σ.nodes n).SnapshotDue
        · rw [if_pos hdue]
          have hle : (σ.nodes n).applied ≤ (σ.nodes n).log.length :=
            hn.applied_le.trans (hn.delivered_le.trans hn.committed_le)
          exact snapshotCovers_of_table hordered
            (hn.settled_delivered.of_isPrefix (List.take_prefix_take_left hn.applied_le))
            (by rw [List.length_take, Nat.min_eq_left hle])
            (hdelivered.of_isPrefix
              (List.take_prefix_take_left (hn.applied_le.trans (Nat.le_succ _))))
        · rw [if_neg hdue]
          exact hx.snapshot
      · exact D.held_mono _ _ _ (hlater _).maxEpoch (nextLater_applyCommand _ _ _ _)
          (hx.held hrole e he hterm c hc)
  | lightReady =>
      rw [nodes_update_self]
      refine ⟨hx.ordered, ?_, hx.snapshot, hx.held⟩
      show D.Covers _ (List.take ((σ.nodes n).delivered + 1) _)
      rw [List.take_add_one]
      intro e he cmd hcmd
      rcases List.mem_append.mp he with hold | hnew
      · exact hx.delivered e hold cmd hcmd
      · exact hok e (Option.mem_toList.mp hnew) cmd hcmd
  | advance =>
      rw [nodes_update_self]
      exact { hx with }
  | observe =>
      show D.Covered _ ((σ.update n _).nodes n)
      rw [nodes_update_self]
      have hallocates := StreamStateTable.allocates_logRaftStateIfChanged (σ.nodes n).core
        (σ.nodes n).role (σ.nodes n).leaderId
      have hcore := hx.with_core hallocates.later (hallocates.ordered hx.ordered) ?_
      · exact { hcore with }
      · -- A leader gives nothing up.
        intro hrole
        rcases StreamStateTable.streams_logRaftStateIfChanged (σ.nodes n).core (σ.nodes n).role
          (σ.nodes n).leaderId with heq | ⟨-, hdown, -⟩
        · rw [heq]
          exact fun _ => Nat.le_refl _
        · exact absurd hrole hdown
  | restart _ hsnap hcompacted hcommitted =>
      rename_i recovered committed compacted hwal
      rw [nodes_update_self]
      have hlimit := fun id => ensureStream_ofStatuses_limit (tailCacheEntries n) 0
        (σ.nodes n).snapshot.statuses id
      have hordered : (StreamStateTable.ofStatuses (tailCacheEntries n)
          (σ.nodes n).snapshot.statuses).Ordered := by
        intro id
        rw [hlimit]
        exact hx.snapshot.ordered id
      refine ⟨ordered_recoverStreams hordered _ _, ?_, hx.snapshot, fun h => (nomatch h)⟩
      -- The snapshot covers what will not be handed over again.
      have hsettled : σ.terms.Settled (σ.nodes n).term ((σ.nodes n).log.take compacted) :=
        hn.settled.of_isPrefix (List.take_prefix_take_left (hcompacted.trans hcommitted))
      have hcovers := hx.snapshot.covers_settled hσ.lawful hsettled
        ((List.length_take_le _ _).trans hsnap)
      refine Covers.later (Covers.mono hcovers fun id => ?_) (later_recoverStreams _ _ _)
      rw [hlimit]
      exact D.le_of_later _ _ ⟨Nat.le_refl _, Nat.le_refl _⟩

/-- A permitted step keeps the law along every ledger. -/
theorem GroupCovered.step_kept (hc : D.GroupCovered σ) (hσ : Laws σ)
    (hok : D.permits σ ⟨n, ev⟩) (h : Step tailCacheEntries σ n (σ.nodes n) ev τ) :
    τ.terms.EveryLedger D.Kept := by
  have hkept : D.Kept (σ.nodes n).log :=
    hc.kept.recorded (fun _ _ hp h => Kept.of_isPrefix hp h) (hσ.node n).recorded
  cases h with
  | writeAccepted _ hrole hres =>
      obtain ⟨rfl, hepoch, -⟩ := ShardCore.admitWrite_eq_ok hres
      refine hc.kept.append ?_
      refine List.pairwise_append.mpr ⟨hkept, List.pairwise_singleton _ _, ?_⟩
      intro e he e' he' c hcm c' hc' hs
      rw [List.mem_singleton.mp he'] at hc'
      cases hc'
      exact D.follows_of_before _ _ _
        ((hc.node n).before_log hrole hepoch (hok hrole hepoch) he hcm hs) rfl
  | elect =>
      refine hc.kept.openTerm ?_
      refine List.pairwise_append.mpr ⟨hkept, List.pairwise_singleton _ _, ?_⟩
      intro e he e' he' c hcm c' hc' hs
      rw [List.mem_singleton.mp he'] at hc'
      cases hc'
  | _ => exact hc.kept

/-- **A permitted step keeps the group covered.** -/
theorem GroupCovered.step (hc : D.GroupCovered σ) (hσ : Laws σ) (hok : D.permits σ ⟨n, ev⟩)
    (h : Step tailCacheEntries σ n (σ.nodes n) ev τ) : D.GroupCovered τ := by
  have hg := hσ.step_grows h
  have hself := hc.step_self hσ hok h
  refine ⟨fun m => ?_, fun snapshot hmem => ?_, hc.step_kept hσ hok h⟩
  · by_cases hm : m = n
    · subst hm
      exact hself
    · rw [h.nodes_other hm]
      exact (hc.node m).grows hg
  · cases h with
    | handOverCommand =>
        -- The one new snapshot is the node's own.
        rcases List.mem_cons.mp hmem with rfl | hold
        · have hown := hself.snapshot
          simp only [nodes_update_self] at hown
          exact hown
        · exact (hc.snapshots snapshot hold).grows hg
    | _ => exact (hc.snapshots snapshot hmem).grows hg

end Step

/-! ### Runs -/

section Run

variable {tailCacheEntries : Nat → Nat} {σ : ShardGroup}

/-- A fresh group is covered. -/
theorem covered_init (D : Discipline) (tailCacheEntries : Nat → Nat) :
    D.GroupCovered (ShardGroup.init tailCacheEntries) := by
  have hlaws := laws_init tailCacheEntries
  refine ⟨fun n => ⟨StreamStateTable.ordered_new _, ?_, ?_, fun h => (nomatch h)⟩, ?_, ?_⟩
  · intro e he
    cases he
  · refine ⟨StreamStateTable.ordered_new 0, 1, [], rfl, ?_, ?_⟩
    · exact (hlaws.node n).settled.of_isPrefix List.nil_prefix
    · intro e he
      cases he
  · intro snapshot hmem
    cases hmem
  · intro t full hfull
    have hmem : ((⟨t, full⟩ : Sigma fun _ : Nat => Log)) ∈
        (AList.singleton 1 [bootstrapEntry] : AssocMap Nat Log).entries :=
      AList.mem_lookup_iff.mp hfull
    cases List.mem_singleton.mp hmem
    exact List.pairwise_singleton _ _

/-- **The invariant of the runs that a discipline permits.** -/
theorem covered_reachable (h : (group tailCacheEntries).Reachable D.permits σ) :
    D.GroupCovered σ := by
  refine h.invariant (covered_init D tailCacheEntries) ?_
  intro s a t hs hc hok hst
  exact hc.step (laws_reachable hs) hok (ShardGroup.step_sound hst)

/-- Of two committed commands of a stream, the later one follows the earlier. -/
theorem follows_committed (h : (group tailCacheEntries).Reachable D.permits σ) {i j : Nat}
    {e e' : Entry (Option AppendCommand)} (hi : σ.terms.Committed i e)
    (hj : σ.terms.Committed j e') (hij : i < j) {cmd cmd' : AppendCommand} (hcmd : cmd ∈ e.data)
    (hcmd' : cmd' ∈ e'.data) (hs : cmd.streamId = cmd'.streamId) : D.follows cmd cmd' := by
  obtain ⟨t, full, hfull, hei, hej⟩ := (laws_reachable h).lawful.committed_common hi hj
  have hpair := List.pairwise_iff_getElem.mp ((covered_reachable h).kept t full hfull)
  obtain ⟨hilt, hie⟩ := List.getElem?_eq_some_iff.mp hei
  obtain ⟨hjlt, hje⟩ := List.getElem?_eq_some_iff.mp hej
  have hrel := hpair i j hilt hjlt hij
  rw [hie, hje] at hrel
  exact hrel cmd hcmd cmd' hcmd' hs

end Run

end Discipline

end WalServer.Cluster
