import WalServer.Cluster.Acks
import WalServer.Cluster.Discipline

/-!
# `WalServer.Cluster.Lsn`: positions of a stream are given out once

What is meant to hold: a write that a leader admits gets a position that no
command of the stream in that node's raft log carries, so that committed commands
of a stream have different positions and no two answers confirm the same one.

It does not hold of every run. A leader that has come into office handles writes
before the commands it has inherited are applied to its stream table
(`streamLsn_reused`), and gives their positions out again. It holds in the runs
that `lsnDiscipline` permits: a write meets no inherited command of its stream
that is neither handed over nor below the next position, and no committed command
bypasses the table (`streamLsn_not_reused`). That answers differ needs, beside
that, that each is for its own entry.
-/

set_option autoImplicit false

namespace WalServer.Cluster

open WalServer.Lib WalServer.Raft WalServer.Shard WalServer.Wal

/-- A write that a leader admits, in a step that `ok` permits, gets a position
that no command of the stream in the node's raft log has. -/
def FreshLsns (ok : ShardGroup → Action → Prop) (σ : ShardGroup) : Prop :=
  ∀ n conn s epoch payload, ok σ ⟨n, .write conn s epoch payload⟩ →
    (σ.nodes n).role = .leader → ∀ cmd,
      ((σ.nodes n).core.admitWrite conn s epoch payload).2 = .ok cmd →
        ∀ e ∈ (σ.nodes n).log, ∀ c ∈ e.data, c.streamId = s → c.streamLsn ≠ cmd.streamLsn

/-- Different committed commands of a stream have different positions. -/
def UniqueLsns (σ : ShardGroup) : Prop :=
  ∀ i j e e', σ.terms.Committed i e → σ.terms.Committed j e' → i ≠ j →
    ∀ cmd ∈ e.data, ∀ cmd' ∈ e'.data, cmd.streamId = cmd'.streamId →
      cmd.streamLsn ≠ cmd'.streamLsn

/-- No two answers confirm the same position of a stream. -/
def UniqueAnswers (σ : ShardGroup) : Prop :=
  σ.acks.Pairwise fun a b =>
    a.pending.streamId = b.pending.streamId → a.pending.streamLsn ≠ b.pending.streamLsn

/-- Positions of a stream are used once. -/
def lsnDiscipline : Discipline where
  le st st' := st.commitStreamLsn ≤ st'.commitStreamLsn
  settled st cmd := cmd.streamLsn < st.commitStreamLsn
  held st cmd := cmd.streamLsn < st.nextStreamLsn
  before st _ cmd := cmd.streamLsn < st.nextStreamLsn
  follows cmd cmd' := cmd.streamLsn ≠ cmd'.streamLsn
  le_of_later _ _ h := h.commitStreamLsn
  settled_mono _ _ _ hle h := Nat.lt_of_lt_of_le h hle
  settled_applied _ _ _ h := h
  held_of_settled _ _ hle h := Nat.lt_of_lt_of_le h hle
  held_mono _ _ _ _ hle h := Nat.lt_of_lt_of_le h hle
  held_admitted _ _ _ h := h
  before_of_held _ _ _ _ h := h
  follows_of_before st cmd cmd' h heq := by
    rw [heq]
    exact Nat.ne_of_lt h

instance (σ : ShardGroup) (a : Action) : Decidable (lsnDiscipline.permits σ a) :=
  have : ∀ st st', Decidable (lsnDiscipline.le st st') := fun _ _ => Nat.decLe _ _
  have : ∀ st cmd, Decidable (lsnDiscipline.settled st cmd) := fun _ _ => Nat.decLt _ _
  have : ∀ st epoch cmd, Decidable (lsnDiscipline.before st epoch cmd) := fun _ _ _ => Nat.decLt _ _
  inferInstance

/-- The runs in which positions are settled before they are given out, and each
answer is for its own entry. -/
def lsnAndAnswers (σ : ShardGroup) (a : Action) : Prop :=
  lsnDiscipline.permits σ a ∧ answersPermitted σ a

instance (σ : ShardGroup) (a : Action) : Decidable (lsnAndAnswers σ a) := instDecidableAnd

section Run

variable {tailCacheEntries : Nat → Nat} {σ : ShardGroup}

/-- A permitted write gets a new position. -/
theorem freshLsns_reachable (h : (group tailCacheEntries).Reachable lsnDiscipline.permits σ) :
    FreshLsns lsnDiscipline.permits σ := by
  intro n conn s epoch payload hok hrole cmd hres e he c hc hs
  have hadmitted : (σ.nodes n).core.admitWrite conn s epoch payload =
      (((σ.nodes n).core.admitWrite conn s epoch payload).1, .ok cmd) := by rw [← hres]
  obtain ⟨rfl, hepoch, -⟩ := ShardCore.admitWrite_eq_ok hadmitted
  have hnode := (Discipline.covered_reachable h).node n
  exact Nat.ne_of_lt (hnode.before_log hrole hepoch (hok hrole hepoch) he hc hs)

/-- Committed commands of a stream have different positions. -/
theorem uniqueLsns_reachable (h : (group tailCacheEntries).Reachable lsnDiscipline.permits σ) :
    UniqueLsns σ := by
  intro i j e e' hi hj hne cmd hcmd cmd' hcmd' hs
  rcases Nat.lt_or_gt_of_ne hne with hlt | hgt
  · exact Discipline.follows_committed h hi hj hlt hcmd hcmd' hs
  · exact Ne.symm (Discipline.follows_committed h hj hi hgt hcmd' hcmd hs.symm)

/-- Two answers for the same position would be for the same entry, which one
node proposed once and answers once. -/
theorem uniqueAnswers_reachable (h : (group tailCacheEntries).Reachable lsnAndAnswers σ) :
    UniqueAnswers σ := by
  have hanswered := answered_reachable (h.mono fun _ _ hok => hok.2)
  have hunique := uniqueLsns_reachable (h.mono fun _ _ hok => hok.1)
  refine hanswered.once.imp_of_mem ?_
  intro a b ha hb honce hs hlsn
  obtain ⟨q, hq, hqn, hqi, hqr, hqp, hqx, hqt, hqc, hca⟩ := hanswered.genuine a ha
  obtain ⟨r, hr, hrn, hri, hrr, hrp, hrx, hrt, hrc, hcb⟩ := hanswered.genuine b hb
  have hstream : a.cmd.streamId = b.cmd.streamId := by
    rw [← hqp, ← hrp] at hs
    rw [← hqc, ← hrc]
    exact hs
  have hpos : a.cmd.streamLsn = b.cmd.streamLsn := by
    rw [← hqp, ← hrp] at hlsn
    rw [← hqc, ← hrc]
    exact hlsn
  -- The two committed entries are one.
  have hindex : a.index - 1 = b.index - 1 := by
    by_contra hne
    exact hunique _ _ _ _ hca hcb hne a.cmd rfl b.cmd rfl hstream hpos
  rw [hindex] at hca
  have hentry := (laws_reachable h).lawful.committed_unique hca hcb
  have hterm : a.term = b.term := congrArg Entry.term hentry
  have hqpos := (hanswered.recorded q hq).1
  have hrpos := (hanswered.recorded r hr).1
  have hqr' : q = r := hanswered.distinct q hq r hr (by omega) (by omega)
  subst hqr'
  exact honce (hqn.symm.trans hrn) (hqi.symm.trans hri) (hqr.symm.trans hrr)

/-- **Positions are given out once**, in the runs that the discipline permits;
and answers confirm different positions in those that keep answers genuine too. -/
theorem streamLsn_not_reused (h : (group tailCacheEntries).Reachable lsnDiscipline.permits σ) :
    FreshLsns lsnDiscipline.permits σ ∧ UniqueLsns σ ∧
      ((group tailCacheEntries).Reachable lsnAndAnswers σ → UniqueAnswers σ) :=
  ⟨freshLsns_reachable h, uniqueLsns_reachable h, uniqueAnswers_reachable⟩

end Run

/-- A leader writes twice and applies what it wrote; the second node takes over,
applies what it has inherited, and writes. -/
def handoverRun : List Action :=
  [⟨1, .poll⟩, ⟨1, .elect 2⟩, ⟨1, .observe⟩, ⟨1, .write 11 7 1 [1]⟩, ⟨1, .write 11 7 1 [2]⟩,
   ⟨1, .poll⟩, ⟨1, .commit 4⟩, ⟨1, .handOver 0⟩, ⟨1, .handOver 0⟩, ⟨1, .handOver 0⟩,
   ⟨1, .handOver 0⟩, ⟨2, .poll⟩, ⟨2, .follow .follower 2 1⟩, ⟨2, .replicate 2 4⟩,
   ⟨2, .learnCommit 3⟩, ⟨2, .elect 3⟩, ⟨2, .commit 5⟩, ⟨2, .handOver 0⟩, ⟨2, .handOver 0⟩,
   ⟨2, .handOver 0⟩, ⟨2, .handOver 0⟩, ⟨2, .handOver 0⟩, ⟨2, .observe⟩, ⟨2, .write 22 7 2 [3]⟩,
   ⟨2, .poll⟩, ⟨2, .commit 6⟩, ⟨2, .handOver 0⟩]

theorem streamLsn_not_reused_handover :
    ∃ σ, (group fun _ => 8).Reachable lsnAndAnswers σ ∧
      σ.acks.map (fun a => (a.node, a.pending.streamLsn)) = [(2, 2), (1, 1), (1, 0)] ∧
      FreshLsns lsnDiscipline.permits σ ∧ UniqueLsns σ ∧ UniqueAnswers σ := by
  obtain ⟨σ, hreach, hacks⟩ := System.exists_reachable_of_execute (group fun _ => 8) lsnAndAnswers
    handoverRun (fun s => s.acks.map (fun a => (a.node, a.pending.streamLsn)) =
      [(2, 2), (1, 1), (1, 0)]) (by decide +kernel)
  have hall := streamLsn_not_reused (hreach.mono fun _ _ hok => hok.1)
  exact ⟨σ, hreach, hacks, hall.1, hall.2.1, hall.2.2 hreach⟩

/-- A leader's write is replicated to the second node, which comes into office
and admits a write before anything was applied. -/
def reuseRun : List Action :=
  [⟨1, .poll⟩, ⟨1, .elect 2⟩, ⟨1, .observe⟩, ⟨1, .write 11 7 1 [1]⟩, ⟨1, .poll⟩,
   ⟨2, .poll⟩, ⟨2, .replicate 2 3⟩, ⟨2, .elect 3⟩, ⟨2, .observe⟩]

/-- The write is admitted; all is committed, and both nodes apply the first entry. -/
def reuseRunEnd : List Action :=
  [⟨2, .write 22 7 1 [2]⟩, ⟨2, .poll⟩, ⟨2, .commit 5⟩, ⟨2, .handOver 0⟩, ⟨2, .handOver 0⟩,
   ⟨2, .handOver 0⟩, ⟨1, .follow .follower 3 2⟩, ⟨1, .replicate 3 5⟩, ⟨1, .learnCommit 5⟩,
   ⟨1, .handOver 0⟩, ⟨1, .handOver 0⟩, ⟨1, .handOver 0⟩]

/-- **Positions are given out twice.** The new leader's write gets the position of
the command it has inherited, both are committed, and two clients are told that
the position is theirs. -/
theorem streamLsn_reused :
    (∃ σ, (group fun _ => 8).Reachable System.anyStep σ ∧ ¬ FreshLsns System.anyStep σ) ∧
      ∃ σ, (group fun _ => 8).Reachable System.anyStep σ ∧ ¬ UniqueLsns σ ∧ ¬ UniqueAnswers σ := by
  constructor
  · obtain ⟨σ, hreach, hrole, hres, hlog⟩ := System.exists_reachable_of_execute
      (group fun _ => 8) System.anyStep reuseRun
      (fun s => (s.nodes 2).role = .leader ∧
        ((s.nodes 2).core.admitWrite 22 7 1 [2]).2 = .ok ⟨1, 7, 1, 0, [2]⟩ ∧
        (⟨2, some ⟨1, 7, 1, 0, [1]⟩⟩ : Entry (Option AppendCommand)) ∈ (s.nodes 2).log)
      (by decide +kernel)
    refine ⟨σ, hreach, fun hfresh => ?_⟩
    exact hfresh 2 22 7 1 [2] trivial hrole _ hres _ hlog _ rfl rfl rfl
  · obtain ⟨σ, hreach, hcommits, hledger, hacks⟩ := System.exists_reachable_of_execute
      (group fun _ => 8) System.anyStep (reuseRun ++ reuseRunEnd)
      (fun s => (3, 5) ∈ s.terms.commits ∧
        s.terms.ledger 3 = some [⟨1, none⟩, ⟨2, none⟩, ⟨2, some ⟨1, 7, 1, 0, [1]⟩⟩, ⟨3, none⟩,
          ⟨3, some ⟨1, 7, 1, 0, [2]⟩⟩] ∧
        s.acks.map Ack.pending = [⟨11, 7, 1, 0⟩, ⟨22, 7, 1, 0⟩])
      (by decide +kernel)
    refine ⟨σ, hreach, fun hunique => ?_, fun hunique => ?_⟩
    · exact hunique 2 4 _ _ ⟨3, 5, _, hcommits, hledger, by decide, rfl⟩
        ⟨3, 5, _, hcommits, hledger, by decide, rfl⟩ (by decide) _ rfl _ rfl rfl rfl
    · have hpair : (σ.acks.map Ack.pending).Pairwise fun p q =>
          p.streamId = q.streamId → p.streamLsn ≠ q.streamLsn := List.pairwise_map.mpr hunique
      rw [hacks] at hpair
      revert hpair
      decide

end WalServer.Cluster
