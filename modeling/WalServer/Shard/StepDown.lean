import WalServer.Shard.Core

/-!
# `WalServer.Shard.StepDown`: giving pending writes up on step-down

`fail_pending_writes_not_leader` drains a hash map, so the order in which it sees the
pending writes is any order (`failDrained`). `Rollbackable` says when giving them up
brings every stream back to its committed position: the allocated positions beyond it are
those of pending writes.

`failDrained_complete` is the result for every such state and every order: the streams
lose their uncommitted allocations and nothing else, every client is told once, and the
order does not show.
-/

set_option autoImplicit false

namespace WalServer.Shard

open WalServer.Lib WalServer.Protocol

namespace StreamStateTable

/-- A rollback knows the streams that were known. -/
theorem isSome_lookup_rollback (t : StreamStateTable) (id lsn id' : Nat) :
    ((t.rollbackUncommittedAppend id lsn).streams.lookup id').isSome =
      (t.streams.lookup id').isSome := by
  unfold rollbackUncommittedAppend
  cases hlookup : t.streams.lookup id with
  | none => rfl
  | some state =>
      simp only
      split
      · rw [lookup_put]
        split
        · rename_i heq
          have hid : id' = id := heq.trans (t.keyed id state hlookup)
          rw [hid, hlookup]
          rfl
        · rfl
      · rfl

@[simp] theorem tailCacheLimit_rollback (t : StreamStateTable) (id lsn : Nat) :
    (t.rollbackUncommittedAppend id lsn).tailCacheLimit = t.tailCacheLimit := by
  unfold rollbackUncommittedAppend
  split
  · rfl
  · split <;> rfl

/-- What a table has of a stream, from the view of the stream. -/
theorem lookup_eq_of_ensureStream {t t' : StreamStateTable} {id : Nat}
    {f : StreamReplicaState → StreamReplicaState}
    (hknown : (t'.streams.lookup id).isSome = (t.streams.lookup id).isSome)
    (hview : t'.ensureStream id = f (t.ensureStream id)) :
    t'.streams.lookup id = (t.streams.lookup id).map f := by
  unfold ensureStream at hview
  cases hold : t.streams.lookup id with
  | none =>
      rw [hold] at hknown
      exact Option.isSome_eq_false_iff.mp hknown |> Option.isNone_iff_eq_none.mp
  | some st =>
      rw [hold] at hknown hview
      obtain ⟨st', hst'⟩ := Option.isSome_iff_exists.mp hknown
      rw [hst'] at hview ⊢
      exact congrArg some hview

end StreamStateTable

namespace ShardCore

/-- Giving writes up knows the streams that were known. -/
theorem isSome_lookup_rollbackAll (t : StreamStateTable) (drained : List PendingClientWrite)
    (id : Nat) :
    ((rollbackAll t drained).streams.lookup id).isSome = (t.streams.lookup id).isSome := by
  unfold rollbackAll
  induction drained.mergeSort rollbackBefore generalizing t with
  | nil => rfl
  | cons p rest ih => rw [List.foldl_cons, ih, StreamStateTable.isSome_lookup_rollback]

@[simp] theorem tailCacheLimit_rollbackAll (t : StreamStateTable)
    (drained : List PendingClientWrite) :
    (rollbackAll t drained).tailCacheLimit = t.tailCacheLimit := by
  unfold rollbackAll
  induction drained.mergeSort rollbackBefore generalizing t with
  | nil => rfl
  | cons p rest ih => rw [List.foldl_cons, ih, StreamStateTable.tailCacheLimit_rollback]

/-- Gives up the pending writes and answers their clients. The map has drained them in
the given order. -/
def failDrained (c : ShardCore) (leaderId : Nat) (drained : List PendingClientWrite) :
    ShardCore × List ShardResponse :=
  ({ c with streams := rollbackAll c.streams drained, pendingWrites := ∅ },
    (drained.mergeSort rollbackBefore).map (notLeaderResponse leaderId))

/-- The order of the map's list is one of them. -/
theorem failPendingWritesNotLeader_eq (c : ShardCore) (leaderId : Nat) :
    c.failPendingWritesNotLeader leaderId =
      c.failDrained leaderId (AssocMap.values c.pendingWrites) := rfl

/-- No stream has committed beyond its next position; the pending writes of a stream hold
different positions below the next one; and every position from the committed one on is
held. -/
structure Rollbackable (c : ShardCore) : Prop where
  ordered : ∀ id, (c.streams.ensureStream id).commitStreamLsn ≤
    (c.streams.ensureStream id).nextStreamLsn
  distinct : ∀ k k' p p', c.pendingWrites.lookup k = some p → c.pendingWrites.lookup k' = some p' →
    p.streamId = p'.streamId → p.streamLsn = p'.streamLsn → k = k'
  below : ∀ k p, c.pendingWrites.lookup k = some p →
    p.streamLsn < (c.streams.ensureStream p.streamId).nextStreamLsn
  held : ∀ id lsn, (c.streams.ensureStream id).commitStreamLsn ≤ lsn →
    lsn < (c.streams.ensureStream id).nextStreamLsn →
    ∃ k p, c.pendingWrites.lookup k = some p ∧ p.streamId = id ∧ p.streamLsn = lsn

/-- Writes that come before each other hold the same position. -/
theorem rollbackBefore_antisymm {a b : PendingClientWrite} (hab : rollbackBefore a b = true)
    (hba : rollbackBefore b a = true) : a.streamId = b.streamId ∧ a.streamLsn = b.streamLsn := by
  simp only [rollbackBefore, Bool.or_eq_true, decide_eq_true_eq, Bool.and_eq_true,
    beq_iff_eq] at hab hba
  omega

/-- **The order of the map does not show**: pending writes that hold different positions
have one rollback order. -/
theorem mergeSort_eq_of_perm {drained drained' : List PendingClientWrite}
    (hperm : drained.Perm drained')
    (hdistinct : ∀ p ∈ drained, ∀ p' ∈ drained, p.streamId = p'.streamId →
      p.streamLsn = p'.streamLsn → p = p') :
    drained.mergeSort rollbackBefore = drained'.mergeSort rollbackBefore := by
  have hsorted := pairwise_mergeSort_rollbackBefore drained
  have hsorted' := pairwise_mergeSort_rollbackBefore drained'
  have hboth : (drained.mergeSort rollbackBefore).Perm (drained'.mergeSort rollbackBefore) :=
    (List.mergeSort_perm _ _).trans (hperm.trans (List.mergeSort_perm _ _).symm)
  -- Both are sorted, so they differ in ties at most, and there are none.
  refine hboth.eq_of_pairwise ?_ hsorted hsorted'
  intro a b ha hb hab hba
  obtain ⟨hid, hlsn⟩ := rollbackBefore_antisymm hab hba
  exact hdistinct a (List.mem_mergeSort.mp ha) b
    (hperm.mem_iff.mpr (List.mem_mergeSort.mp hb)) hid hlsn

variable {c : ShardCore}

/-- Pending writes that hold the same position are the same write. -/
theorem Rollbackable.eq_of_same (h : c.Rollbackable) {p p' : PendingClientWrite}
    (hp : p ∈ AssocMap.values c.pendingWrites) (hp' : p' ∈ AssocMap.values c.pendingWrites)
    (hid : p.streamId = p'.streamId) (hlsn : p.streamLsn = p'.streamLsn) : p = p' := by
  obtain ⟨k, hk⟩ := AssocMap.mem_values.mp hp
  obtain ⟨k', hk'⟩ := AssocMap.mem_values.mp hp'
  obtain rfl := h.distinct k k' p p' hk hk' hid hlsn
  exact Option.some.inj (hk.symm.trans hk')

/-- **Giving up is complete and minimal, in any order.** Every stream ends with its next
position at the committed one and is otherwise as it was; no write is pending; every
pending write has one answer, and the answers are those of any other order. -/
theorem failDrained_complete (h : c.Rollbackable) (leaderId : Nat)
    {drained : List PendingClientWrite} (hperm : drained.Perm (AssocMap.values c.pendingWrites)) :
    (∀ id, (c.failDrained leaderId drained).1.streams.streams.lookup id =
      (c.streams.streams.lookup id).map fun st => { st with nextStreamLsn := st.commitStreamLsn }) ∧
    (c.failDrained leaderId drained).1 = { c with
      streams := (c.failDrained leaderId drained).1.streams, pendingWrites := ∅ } ∧
    (c.failDrained leaderId drained).1.streams.tailCacheLimit = c.streams.tailCacheLimit ∧
    (c.failDrained leaderId drained).2.Perm
      ((AssocMap.values c.pendingWrites).map (notLeaderResponse leaderId)) ∧
    (c.failDrained leaderId drained) = c.failPendingWritesNotLeader leaderId := by
  have hmem : ∀ p, p ∈ drained ↔ p ∈ AssocMap.values c.pendingWrites := fun p => hperm.mem_iff
  refine ⟨fun id => ?_, rfl, tailCacheLimit_rollbackAll _ _, ?_, ?_⟩
  · -- Every position beyond the committed one is held, so all are taken back.
    refine StreamStateTable.lookup_eq_of_ensureStream (isSome_lookup_rollbackAll _ _ id) ?_
    refine rollbackAll_complete c.streams drained id (h.ordered id) fun lsn hge hlt => ?_
    obtain ⟨k, p, hp, hid, hlsn⟩ := h.held id lsn hge hlt
    exact ⟨p, (hmem p).mpr (AssocMap.mem_values.mpr ⟨k, hp⟩), hid, hlsn⟩
  · -- One answer a write, whatever the rollback order.
    exact ((List.mergeSort_perm _ _).trans hperm).map _
  · have hsort : drained.mergeSort rollbackBefore =
        (AssocMap.values c.pendingWrites).mergeSort rollbackBefore :=
      mergeSort_eq_of_perm hperm fun p hp p' hp' hid hlsn =>
        h.eq_of_same ((hmem p).mp hp) ((hmem p').mp hp') hid hlsn
    rw [failPendingWritesNotLeader_eq]
    unfold failDrained rollbackAll
    rw [hsort]

/-- Two writes on stream 7 and one on stream 9, none of them committed. -/
def threePending : ShardCore where
  streams := ((StreamStateTable.new 4).put ⟨7, 1, 2, 0, 0, 0, []⟩).put ⟨9, 1, 1, 0, 0, 0, []⟩
  requestSeq := 3
  pendingWrites := ((AList.insert 1 ⟨0, 7, 1, 0⟩ ∅).insert 2 ⟨1, 9, 1, 0⟩).insert 3 ⟨0, 7, 1, 1⟩
  observedRole := .leader
  observedLeaderId := 1

theorem threePending_rollbackable : threePending.Rollbackable := by
  have hstream : ∀ id, threePending.streams.ensureStream id =
      if id = 9 then ⟨9, 1, 1, 0, 0, 0, []⟩
      else if id = 7 then ⟨7, 1, 2, 0, 0, 0, []⟩ else .new id := by
    intro id
    simp [threePending]
  have hpending : ∀ k, threePending.pendingWrites.lookup k =
      if k = 3 then some ⟨0, 7, 1, 1⟩
      else if k = 2 then some ⟨1, 9, 1, 0⟩ else if k = 1 then some ⟨0, 7, 1, 0⟩ else none := by
    intro k
    simp only [threePending, AssocMap.lookup_insert_eq, AList.lookup_empty]
  constructor
  · intro id
    rw [hstream]
    split
    · decide
    · split <;> simp [StreamReplicaState.new]
  · intro k k' p p' hk hk' hid hlsn
    rw [hpending] at hk hk'
    split at hk <;> split at hk' <;> grind
  · intro k p hk
    rw [hpending] at hk
    rw [hstream]
    grind
  · intro id lsn hge hlt
    rw [hstream] at hge hlt
    -- Stream 9 has one position in flight, stream 7 has two, and no other stream has any.
    by_cases h9 : id = 9
    · rw [if_pos h9] at hlt
      exact ⟨2, _, rfl, h9.symm, by simp at hlt ⊢; omega⟩
    · rw [if_neg h9] at hlt
      by_cases h7 : id = 7
      · rw [if_pos h7] at hlt
        have hlt' : lsn < 2 := hlt
        rcases Nat.lt_or_ge lsn 1 with hzero | hone
        · exact ⟨1, _, rfl, h7.symm, by simp; omega⟩
        · exact ⟨3, _, rfl, h7.symm, by simp; omega⟩
      · rw [if_neg h7] at hlt
        exact absurd hlt (Nat.not_lt_zero lsn)

/-- The map drains the write on stream 9 first and the newer write on stream 7 last. -/
theorem failDrained_complete_threePending :
    (threePending.failDrained 2 [⟨1, 9, 1, 0⟩, ⟨0, 7, 1, 0⟩, ⟨0, 7, 1, 1⟩]).1.streams.streams.lookup
        7 = some ⟨7, 1, 0, 0, 0, 0, []⟩ ∧
      (threePending.failDrained 2 [⟨1, 9, 1, 0⟩, ⟨0, 7, 1, 0⟩, ⟨0, 7, 1, 1⟩]).2.length = 3 := by
  obtain ⟨hstreams, -, -, hanswers, -⟩ := failDrained_complete threePending_rollbackable 2
    (show [⟨1, 9, 1, 0⟩, ⟨0, 7, 1, 0⟩, ⟨0, 7, 1, 1⟩].Perm _ by decide)
  exact ⟨(hstreams 7).trans rfl, hanswers.length_eq.trans rfl⟩

end ShardCore

end WalServer.Shard
