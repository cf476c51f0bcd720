import WalServer.Cluster.Discipline

/-!
# `WalServer.Cluster.Epoch`: epoch fencing on the committed log

The requirement: a writer whose epoch is below the newest one of the stream is
refused, so along the committed log the epochs of a stream never fall. A leader
checks a write's epoch against its stream table, and right after it has come into
office the table lags the log it has inherited (`epochs_fall`). In the runs that
`epochDiscipline` permits, where a write meets no inherited command of its stream
with a higher epoch that was not handed over, and no committed command bypasses
the table, the epochs of every stream are in order (`epochs_nondecreasing`).
-/

set_option autoImplicit false

namespace WalServer.Cluster

open WalServer.Lib WalServer.Raft WalServer.Shard WalServer.Wal

/-- The epochs of a stream's committed commands never fall along the log. -/
def EpochsInOrder (σ : ShardGroup) : Prop :=
  ∀ i j e e', σ.terms.Committed i e → σ.terms.Committed j e' → i < j →
    ∀ cmd ∈ e.data, ∀ cmd' ∈ e'.data, cmd.streamId = cmd'.streamId → cmd.epoch ≤ cmd'.epoch

/-- Epochs of a stream do not fall. -/
def epochDiscipline : Discipline where
  le st st' := st.maxEpoch ≤ st'.maxEpoch
  settled st cmd := cmd.epoch ≤ st.maxEpoch
  held st cmd := cmd.epoch ≤ st.maxEpoch
  before _ epoch cmd := cmd.epoch ≤ epoch
  follows cmd cmd' := cmd.epoch ≤ cmd'.epoch
  le_of_later _ _ h := h.maxEpoch
  settled_mono _ _ _ hle h := h.trans hle
  settled_applied _ _ h _ := h
  held_of_settled _ _ _ h := h
  held_mono _ _ _ hle _ h := h.trans hle
  held_admitted _ _ h _ := h
  before_of_held _ _ _ hle h := h.trans hle
  follows_of_before _ _ _ h _ := h

instance (σ : ShardGroup) (a : Action) : Decidable (epochDiscipline.permits σ a) :=
  have : ∀ st st', Decidable (epochDiscipline.le st st') := fun _ _ => Nat.decLe _ _
  have : ∀ st cmd, Decidable (epochDiscipline.settled st cmd) := fun _ _ => Nat.decLe _ _
  have : ∀ st epoch cmd, Decidable (epochDiscipline.before st epoch cmd) :=
    fun _ _ _ => Nat.decLe _ _
  inferInstance

/-- **Epoch fencing**, in the runs that the discipline permits. -/
theorem epochs_nondecreasing {tailCacheEntries : Nat → Nat} {σ : ShardGroup}
    (h : (group tailCacheEntries).Reachable epochDiscipline.permits σ) : EpochsInOrder σ := by
  intro i j e e' hi hj hlt cmd hcmd cmd' hcmd' hs
  exact Discipline.follows_committed h hi hj hlt hcmd hcmd' hs

/-- A leader writes in epoch 1; the second node takes over with the command in
its log, applies it, refuses a write in epoch 0 and admits one in epoch 2. -/
def fencedRun : List Action :=
  [⟨1, .poll⟩, ⟨1, .elect 2⟩, ⟨1, .observe⟩, ⟨1, .write 11 7 1 [1]⟩, ⟨1, .poll⟩,
   ⟨2, .poll⟩, ⟨2, .replicate 2 3⟩, ⟨2, .elect 3⟩, ⟨2, .commit 4⟩, ⟨2, .handOver 0⟩,
   ⟨2, .handOver 0⟩, ⟨2, .handOver 0⟩, ⟨2, .observe⟩, ⟨2, .write 22 7 0 [2]⟩,
   ⟨2, .write 22 7 2 [2]⟩, ⟨2, .poll⟩, ⟨2, .commit 5⟩]

theorem epochs_nondecreasing_fenced :
    ∃ σ, (group fun _ => 8).Reachable epochDiscipline.permits σ ∧
      (3, 5) ∈ σ.terms.commits ∧ EpochsInOrder σ := by
  obtain ⟨σ, hreach, hcommits⟩ := System.exists_reachable_of_execute (group fun _ => 8)
    epochDiscipline.permits fencedRun (fun s => (3, 5) ∈ s.terms.commits) (by decide +kernel)
  exact ⟨σ, hreach, hcommits, epochs_nondecreasing hreach⟩

/-- A leader writes in epoch 5; the second node takes over with the command in
its log and admits a write in epoch 3 before anything was applied. -/
def staleWriterRun : List Action :=
  [⟨1, .poll⟩, ⟨1, .elect 2⟩, ⟨1, .observe⟩, ⟨1, .write 11 7 5 [1]⟩, ⟨1, .poll⟩,
   ⟨2, .poll⟩, ⟨2, .replicate 2 3⟩, ⟨2, .elect 3⟩, ⟨2, .observe⟩, ⟨2, .write 22 7 3 [2]⟩,
   ⟨2, .poll⟩, ⟨2, .commit 5⟩]

/-- **Fencing fails after an election.** A command of epoch 3 is committed behind
one of epoch 5 of the same stream. -/
theorem epochs_fall :
    ∃ σ, (group fun _ => 8).Reachable System.anyStep σ ∧ ¬ EpochsInOrder σ := by
  obtain ⟨σ, hreach, hcommits, hledger⟩ := System.exists_reachable_of_execute
    (group fun _ => 8) System.anyStep staleWriterRun
    (fun s => (3, 5) ∈ s.terms.commits ∧
      s.terms.ledger 3 = some [⟨1, none⟩, ⟨2, none⟩, ⟨2, some ⟨1, 7, 5, 0, [1]⟩⟩, ⟨3, none⟩,
        ⟨3, some ⟨1, 7, 3, 0, [2]⟩⟩])
    (by decide +kernel)
  refine ⟨σ, hreach, fun horder => ?_⟩
  have hle := horder 2 4 _ _ ⟨3, 5, _, hcommits, hledger, by decide, rfl⟩
    ⟨3, 5, _, hcommits, hledger, by decide, rfl⟩ (by decide) _ rfl _ rfl rfl
  exact absurd hle (by decide)

end WalServer.Cluster
