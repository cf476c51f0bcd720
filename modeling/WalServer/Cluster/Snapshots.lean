import WalServer.Cluster.Laws
import WalServer.Shard.Advance

/-!
# `WalServer.Cluster.Snapshots`: what a stored snapshot describes

A snapshot taken at raft index `i` is meant to describe the streams after the
committed entries up to `i`: `Describes` compares it with the table that
`applyAll` builds from them. `maybe_snapshot_raft_state` runs while an entry is
being applied, after the entry has changed the table, and stores the table under
the raft log's applied counter, which `advance` moves only after the whole batch.
So the entry lies above the snapshot's index and the snapshot has its effect:
no stored snapshot describes what it is meant to (`snapshot_not_described`).
-/

set_option autoImplicit false

namespace WalServer.Cluster

open WalServer.Lib WalServer.Raft WalServer.Shard WalServer.Wal

/-- Applies the entries of a log in order, the first of them at raft index `index`. -/
def applyAll : Nat → StreamStateTable → Log → StreamStateTable
  | _,     t, []     => t
  | index, t, e :: l =>
      applyAll (index + 1)
        (match e.data with
          | none     => t
          | some cmd => ShardCore.applyCommand t index cmd) l

/-- Two states of a stream agree in what a snapshot is to preserve. -/
def SameStream (st st' : StreamReplicaState) : Prop :=
  st.maxEpoch = st'.maxEpoch ∧ st.nextStreamLsn = st'.nextStreamLsn ∧
    st.commitStreamLsn = st'.commitStreamLsn ∧ st.lastEntryId = st'.lastEntryId

/-- The snapshot restores, for every stream, what applying the log up to the
snapshot's index to an empty table gives. -/
def Describes (snapshot : StoredSnapshot) (l : Log) : Prop :=
  ∀ id, SameStream ((StreamStateTable.ofStatuses 0 snapshot.statuses).ensureStream id)
    ((applyAll 1 (.new 0) (l.take snapshot.index)).ensureStream id)

/-- A snapshot with nothing applied describes the empty log. -/
example : Describes ⟨0, []⟩ [] := fun _ => ⟨rfl, rfl, rfl, rfl⟩

/-- No stream's newest entry is above the last index applied. -/
theorem lastEntryId_applyAll (l : Log) (index : Nat) (t : StreamStateTable) (id : Nat)
    (hle : (t.ensureStream id).lastEntryId < index) :
    ((applyAll index t l).ensureStream id).lastEntryId < index + l.length := by
  induction l generalizing index t with
  | nil => exact hle
  | cons e l ih =>
      rw [applyAll, List.length_cons]
      have hstep : ((match e.data with
          | none     => t
          | some cmd => ShardCore.applyCommand t index cmd).ensureStream id).lastEntryId <
          index + 1 := by
        cases e.data with
        | none => exact Nat.lt_succ_of_lt hle
        | some cmd =>
            show ((ShardCore.applyCommand t index cmd).ensureStream id).lastEntryId < index + 1
            rw [ShardCore.ensureStream_applyCommand]
            split
            · rename_i hid
              subst hid
              show max _ _ < _
              omega
            · exact Nat.lt_succ_of_lt hle
      have hrest := ih (index + 1) _ hstep
      omega

/-- A list of the given index applies no entry above it. -/
theorem lastEntryId_applyAll_take (l : Log) (index id : Nat) :
    ((applyAll 1 (.new 0) (l.take index)).ensureStream id).lastEntryId ≤ index := by
  have hbound := lastEntryId_applyAll (l.take index) 1 (.new 0) id (by
    rw [StreamStateTable.ensureStream_new]
    exact Nat.zero_lt_one)
  have hlen := List.length_take_le index l
  omega

section Run

variable {tailCacheEntries : Nat → Nat} {ok : ShardGroup → Action → Prop} {σ τ : ShardGroup}

/-- What a step that stores a snapshot has stored: the table after the entry at
`delivered`, under the applied counter, which is at most `delivered`. -/
theorem snapshot_of_handOver (h : (group tailCacheEntries).Reachable ok σ) {n timestampNs : Nat}
    (hstep : (group tailCacheEntries).step σ ⟨n, .handOver timestampNs⟩ = some τ)
    (hstored : (τ.nodes n).snapshot ≠ (σ.nodes n).snapshot) :
    ∃ cmd, (τ.nodes n).snapshot = ⟨(σ.nodes n).applied,
        (ShardCore.applyCommand (σ.nodes n).core.streams
          ((σ.nodes n).delivered + 1) cmd).allStatuses⟩ ∧
      (σ.nodes n).applied ≤ (σ.nodes n).delivered := by
  have hsound : ShardGroup.Step tailCacheEntries σ n (σ.nodes n) (.handOver timestampNs) τ :=
    ShardGroup.step_sound (a := ⟨n, .handOver timestampNs⟩) hstep
  cases hsound with
  | handOverEmpty =>
      rw [ShardGroup.nodes_update_self] at hstored
      exact absurd rfl hstored
  | handOverCommand =>
      rename_i cmd _ _ _ _
      change ((σ.update n _).nodes n).snapshot ≠ _ at hstored
      refine ⟨cmd, ?_, ((laws_reachable h).node n).applied_le⟩
      show ((σ.update n _).nodes n).snapshot = _
      rw [ShardGroup.nodes_update_self] at hstored ⊢
      change (if (σ.nodes n).SnapshotDue then _ else _ : StoredSnapshot) ≠ _ at hstored
      show (if (σ.nodes n).SnapshotDue then _ else _ : StoredSnapshot) = _
      by_cases hdue : (σ.nodes n).SnapshotDue
      · rw [if_pos hdue]
        rfl
      · rw [if_neg hdue] at hstored
        exact absurd rfl hstored

/-- **No stored snapshot describes the log up to its index.** The stream of the
entry that was being applied has, in the snapshot, that entry as its newest one. -/
theorem snapshot_not_described (h : (group tailCacheEntries).Reachable ok σ) {n timestampNs : Nat}
    (hstep : (group tailCacheEntries).step σ ⟨n, .handOver timestampNs⟩ = some τ)
    (hstored : (τ.nodes n).snapshot ≠ (σ.nodes n).snapshot) :
    ¬ Describes (τ.nodes n).snapshot (τ.nodes n).log := by
  obtain ⟨cmd, hsnap, hle⟩ := snapshot_of_handOver h hstep hstored
  intro hdesc
  obtain ⟨-, -, -, hlast⟩ := hdesc cmd.streamId
  have hlog := lastEntryId_applyAll_take (τ.nodes n).log (τ.nodes n).snapshot.index cmd.streamId
  rw [← hlast, hsnap, StreamStateTable.ensureStream_ofStatuses_allStatuses] at hlog
  change ((ShardCore.applyCommand _ _ cmd).ensureStream cmd.streamId).lastEntryId ≤
    (σ.nodes n).applied at hlog
  rw [ShardCore.ensureStream_applyCommand, if_pos rfl] at hlog
  have hmax : (σ.nodes n).delivered + 1 ≤
      max ((σ.nodes n).core.streams.ensureStream cmd.streamId).lastEntryId
        ((σ.nodes n).delivered + 1) := Nat.le_max_right _ _
  exact absurd (hmax.trans hlog) (by omega)

end Run

/-- A leader applies 65 entries, `advance` counts them, and one more is due. -/
def snapshotRun : List Action :=
  [⟨1, .poll⟩, ⟨1, .elect 2⟩, ⟨1, .observe⟩] ++ List.replicate 64 ⟨1, .write 11 7 1 [1]⟩ ++
    [⟨1, .poll⟩, ⟨1, .commit 66⟩] ++ List.replicate 65 ⟨1, .handOver 0⟩ ++ [⟨1, .advance⟩]

theorem snapshot_not_described_run :
    ∃ σ τ, (group fun _ => 8).Reachable System.anyStep σ ∧
      (group fun _ => 8).step σ ⟨1, .handOver 0⟩ = some τ ∧ (τ.nodes 1).snapshot.index = 65 ∧
      ¬ Describes (τ.nodes 1).snapshot (τ.nodes 1).log := by
  obtain ⟨σ, hreach, hsnap, hstep⟩ := System.exists_reachable_of_execute (group fun _ => 8)
    System.anyStep snapshotRun
    (fun s => (s.nodes 1).snapshot.index = 0 ∧
      ((group fun _ => 8).step s ⟨1, .handOver 0⟩).any
        (fun t => (t.nodes 1).snapshot.index = 65) = true)
    (by decide +kernel)
  obtain ⟨τ, hτ, hindex⟩ := (Option.any_eq_true _ _).mp hstep
  have hindex' : (τ.nodes 1).snapshot.index = 65 := of_decide_eq_true hindex
  refine ⟨σ, τ, hreach, hτ, hindex', snapshot_not_described hreach hτ fun heq => ?_⟩
  rw [heq, hsnap] at hindex'
  exact absurd hindex' (by decide)

/-- **A snapshot beyond its index.** The run's last step stores a snapshot under
index 65 in which the stream has 64 positions and its newest entry at index 66;
the log up to index 65 gives 63 positions and index 65. -/
theorem snapshot_beyond_index :
    ∃ σ τ, (group fun _ => 8).Reachable System.anyStep σ ∧
      (group fun _ => 8).step σ ⟨1, .handOver 0⟩ = some τ ∧
      (τ.nodes 1).snapshot.index = 65 ∧
      (τ.nodes 1).snapshot.statuses = [⟨7, 1, 64, 64, 0, 66⟩] ∧
      ((applyAll 1 (.new 0) ((τ.nodes 1).log.take 65)).ensureStream 7).status =
        ⟨7, 1, 63, 63, 0, 65⟩ ∧
      ¬ Describes (τ.nodes 1).snapshot (τ.nodes 1).log := by
  obtain ⟨σ, hreach, hstep⟩ := System.exists_reachable_of_execute (group fun _ => 8)
    System.anyStep snapshotRun
    (fun s => ((group fun _ => 8).step s ⟨1, .handOver 0⟩).any
      (fun t => (t.nodes 1).snapshot = ⟨65, [⟨7, 1, 64, 64, 0, 66⟩]⟩ ∧
        ((applyAll 1 (.new 0) ((t.nodes 1).log.take 65)).ensureStream 7).status =
          ⟨7, 1, 63, 63, 0, 65⟩) = true)
    (by decide +kernel)
  obtain ⟨τ, hτ, hfacts⟩ := (Option.any_eq_true _ _).mp hstep
  obtain ⟨hsnap, hstatus⟩ := of_decide_eq_true hfacts
  refine ⟨σ, τ, hreach, hτ, by rw [hsnap], by rw [hsnap], hstatus, fun hdesc => ?_⟩
  obtain ⟨-, -, -, hlast⟩ := hdesc 7
  have hlog := lastEntryId_applyAll_take (τ.nodes 1).log (τ.nodes 1).snapshot.index 7
  rw [← hlast, hsnap] at hlog
  exact absurd hlog (by decide)

end WalServer.Cluster
