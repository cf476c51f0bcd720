import WalServer.Raft.Storage

/-!
# `WalServer.Raft.Held`: the states a storage holds

A storage holds a state in memory and the states its file has had. What a crash
leaves is one of them, so what restarting needs is said of each (`Linked`): the log
has consecutive entries and goes on behind the snapshot without a gap.

`held_storeReady` and `held_maybeSnapshot` say what the two calls of the engine leave.
They keep the held states linked (`linked_storeReady`, `linked_maybeSnapshot`), and the
snapshots they leave were held before or have just been made (`snapshot_storeReady`,
`snapshot_maybeSnapshot`). What all held states are made of, they are made of afterwards,
if what is stored is (`made_storeReady`, `made_maybeSnapshot`).
-/

set_option autoImplicit false

namespace WalServer.Raft

open WalServer.Lib

/-- A log with consecutive entries, from an index on that the snapshot ends at or
beyond. -/
structure PersistentState.Linked (p : PersistentState) : Prop where
  contiguous : p.Contiguous
  positive : 1 ≤ p.firstIndex
  reaches : p.firstIndex ≤ p.snapshot.metadata.index + 1

namespace PersistentState

variable {p : PersistentState}

theorem linked_bootstrap (confState : ConfState) : (bootstrap confState).Linked where
  contiguous := ⟨rfl, trivial⟩
  positive := Nat.le_refl 1
  reaches := Nat.le_refl 1

/-- The hard state has no part in it. -/
theorem Linked.setHardstate (h : p.Linked) (hs : HardState) :
    ({ p with hardState := hs } : PersistentState).Linked where
  contiguous := h.contiguous
  positive := h.positive
  reaches := h.reaches

/-- A newer snapshot leaves the log where it is, or at the snapshot's end if the log
has no entries. -/
theorem Linked.snapshot (h : p.Linked) {snapshot : Snapshot}
    (hlater : p.snapshot.metadata.index ≤ snapshot.metadata.index) :
    ({ p with snapshot := snapshot } : PersistentState).Linked := by
  have hreaches := h.reaches
  by_cases hnil : p.entries = []
  · have hfirst : ({ p with snapshot := snapshot } : PersistentState).firstIndex =
        snapshot.metadata.index + 1 := by
      simp [firstIndex, hnil]
    have hnone : ConsecutiveFrom 0 ({ p with snapshot := snapshot } : PersistentState).entries := by
      show ConsecutiveFrom 0 p.entries
      rw [hnil]
      exact trivial
    refine ⟨contiguous_of_consecutiveFrom hnone, ?_, ?_⟩
    · rw [hfirst]
      exact Nat.le_add_left 1 _
    · rw [hfirst]
  · obtain ⟨hcontiguous, hfirst, -⟩ := h.contiguous.snapshot hnil snapshot
    refine ⟨hcontiguous, hfirst ▸ h.positive, ?_⟩
    rw [hfirst]
    exact hreaches.trans (Nat.succ_le_succ hlater)

end PersistentState

namespace PersistentStorage

variable {s s' : PersistentStorage} {p : PersistentState}

/-- **What storing a `Ready` without a snapshot leaves**: what was held, with another hard
state, and with the entries appended. -/
theorem held_storeReady_of_isEmpty {ready : Ready} (hempty : ready.snapshot.isEmpty = true)
    (hp : (s.storeReady ready).1.Held p) :
    s.Held p ∨ (∃ hs, p = { s.state with hardState := hs }) ∨
      ∃ hs first rest, ready.entries = first :: rest ∧
        p = ({ s.state with hardState := hs } : PersistentState).extend first ready.entries := by
  have hbefore : s.state.beforeEntries ready =
      { s.state with hardState := ready.hs.getD s.state.hardState } := if_pos hempty
  rcases held_storeReady hp with hold | ⟨hs, -, rfl⟩ | rfl | rfl
  · exact Or.inl hold
  · exact Or.inr (Or.inl ⟨hs, rfl⟩)
  · exact Or.inr (Or.inl ⟨_, hbefore⟩)
  · unfold PersistentState.stored
    rw [hbefore]
    cases ready.entries with
    | nil => exact Or.inr (Or.inl ⟨_, rfl⟩)
    | cons first rest => exact Or.inr (Or.inr ⟨_, first, rest, rfl, rfl⟩)

/-- Storing a `Ready` without a snapshot makes no snapshot. -/
theorem snapshot_storeReady {ready : Ready} (hempty : ready.snapshot.isEmpty = true)
    (hp : (s.storeReady ready).1.Held p) : ∃ q, s.Held q ∧ p.snapshot = q.snapshot := by
  rcases held_storeReady_of_isEmpty hempty hp with hold | ⟨hs, rfl⟩ | ⟨hs, first, rest, -, rfl⟩
  · exact ⟨p, hold, rfl⟩
  · exact ⟨s.state, Or.inl rfl, rfl⟩
  · exact ⟨s.state, Or.inl rfl, rfl⟩

/-- **Storing a `Ready` without a snapshot** keeps the held states linked. -/
theorem linked_storeReady (h : ∀ q, s.Held q → q.Linked) {ready : Ready}
    (hempty : ready.snapshot.isEmpty = true) (hentries : EntriesFit s.state ready)
    (hp : (s.storeReady ready).1.Held p) : p.Linked := by
  have hstate := h s.state (Or.inl rfl)
  rcases held_storeReady_of_isEmpty hempty hp with hold | ⟨hs, rfl⟩ | ⟨hs, first, rest, hents, rfl⟩
  · exact h p hold
  · exact hstate.setHardstate hs
  · -- The new log begins where the old one does.
    have hlinked := hstate.setHardstate hs
    unfold EntriesFit at hentries
    rw [hents] at hentries ⊢
    obtain ⟨hcons, hlow, hhigh⟩ := hentries
    rw [if_pos hempty] at hlow
    rw [lastBeforeEntries, if_pos hempty] at hhigh
    obtain ⟨hcontiguous, hfirst, -⟩ := hlinked.contiguous.extend hcons hlow hhigh
    exact ⟨hcontiguous, hfirst ▸ hlinked.positive, hfirst ▸ hlinked.reaches⟩

/-- The state in memory with a snapshot of the own state machine. -/
def withSnapshot (s : PersistentStorage) (applied term : Nat) (data : Bytes) : PersistentState :=
  { s.state with snapshot := ⟨data, ⟨s.state.confState, applied, term⟩⟩ }

/-- **A snapshot that is stored** had room in its message. -/
theorem createSnapshot_eq_ok {index : Nat} {data : Bytes}
    (h : s.createSnapshot index data = (s', .ok ())) :
    data.length < 2 ^ 32 ∧ ∃ term, s' = { s with
      state := s.withSnapshot index term data
      written := s.written ++ [s.withSnapshot index term data] } := by
  unfold createSnapshot at h
  split at h
  · rename_i term _
    obtain ⟨hfits, rfl⟩ := persist_eq_ok h
    exact ⟨hfits.snapshot, term, rfl⟩
  · cases h
  · cases h

/-- **A log that is compacted** is as it was, or what is left of it is written. -/
theorem held_compact {compactIndex : Nat} (h : s.compact compactIndex = (s', .ok ()))
    (hp : s'.Held p) :
    s.Held p ∨ (s.state.firstIndex ≤ compactIndex ∧ compactIndex ≤ s.state.lastIndex + 1 ∧
      p = { s.state with
        entries := s.state.entries.drop (compactIndex - s.state.firstIndex) }) := by
  unfold compact at h
  split at h
  · cases h
    exact Or.inl hp
  · split at h
    · cases h
    · split at h
      · cases h
      · rename_i hfirst hlast _
        refine (held_change (p := p) (q := { s.state with
          entries := s.state.entries.drop (compactIndex - s.state.firstIndex) }) ?_).imp_right
            fun heq => ⟨Nat.le_of_not_le hfirst, Nat.not_lt.mp hlast, heq⟩
        rw [h]
        exact hp

/-- The storage behind `maybe_snapshot_raft_state`; where that fails the process ends, and
the storage is taken as it was. -/
def SnapshotTried (s : PersistentStorage) (applied : Nat) (data : Bytes) (s' : PersistentStorage) :
    Prop :=
  s' = s ∨ s.maybeSnapshot applied data = (s', .ok ())

/-- **What taking a snapshot leaves**, if one is due: what was held, the state with the
snapshot, and this state less the entries up to it. -/
theorem held_maybeSnapshot {applied : Nat} {data : Bytes}
    (hcall : s.SnapshotTried applied data s') (hp : s'.Held p) :
    s.Held p ∨ (s.snapshotIndex + snapshotInterval ≤ applied ∧ data.length < 2 ^ 32 ∧ ∃ term,
      p = s.withSnapshot applied term data ∨
        ((s.withSnapshot applied term data).firstIndex ≤ applied + 1 ∧
          applied + 1 ≤ (s.withSnapshot applied term data).lastIndex + 1 ∧
          p = { s.withSnapshot applied term data with
            entries := (s.withSnapshot applied term data).entries.drop
              (applied + 1 - (s.withSnapshot applied term data).firstIndex) })) := by
  rcases hcall with rfl | hcall
  · exact Or.inl hp
  unfold maybeSnapshot at hcall
  split at hcall
  · rename_i hdue
    obtain ⟨s₁, hmade, hcompact⟩ := Call.andThen_eq_ok.mp hcall
    obtain ⟨hdata, term, rfl⟩ := createSnapshot_eq_ok hmade
    -- The snapshot is saved before the log is cut, and a crash may fall in between.
    rcases held_compact hcompact hp with (rfl | hwritten) | ⟨hfirst, hlast, rfl⟩
    · exact Or.inr ⟨hdue, hdata, term, Or.inl rfl⟩
    · rcases List.mem_append.mp hwritten with hold | hnew
      · exact Or.inl (Or.inr hold)
      · exact Or.inr ⟨hdue, hdata, term, Or.inl (List.mem_singleton.mp hnew)⟩
    · exact Or.inr ⟨hdue, hdata, term, Or.inr ⟨hfirst, hlast, rfl⟩⟩
  · cases hcall
    exact Or.inl hp

/-- The snapshots after taking one: those held before, and the one that is due, which had
room. -/
theorem snapshot_maybeSnapshot {applied : Nat} {data : Bytes}
    (hcall : s.SnapshotTried applied data s') (hp : s'.Held p) :
    (∃ q, s.Held q ∧ p.snapshot = q.snapshot) ∨
      (data.length < 2 ^ 32 ∧ p.snapshot.data = data ∧ p.snapshot.metadata.index = applied) := by
  rcases held_maybeSnapshot hcall hp with hold | ⟨-, hdata, term, rfl | ⟨-, -, rfl⟩⟩
  · exact Or.inl ⟨p, hold, rfl⟩
  · exact Or.inr ⟨hdata, rfl, rfl⟩
  · exact Or.inr ⟨hdata, rfl, rfl⟩

/-- **Taking a snapshot** and compacting the log behind it keep the held states linked. -/
theorem linked_maybeSnapshot (h : ∀ q, s.Held q → q.Linked) {applied : Nat} {data : Bytes}
    (hcall : s.SnapshotTried applied data s') (hp : s'.Held p) : p.Linked := by
  have hmade : ∀ term, s.snapshotIndex + snapshotInterval ≤ applied →
      (s.withSnapshot applied term data).Linked := fun term hdue =>
    (h s.state (Or.inl rfl)).snapshot ((Nat.le_add_right _ _).trans hdue)
  rcases held_maybeSnapshot hcall hp with hold | ⟨hdue, -, term, rfl | ⟨hlow, hhigh, rfl⟩⟩
  · exact h p hold
  · exact hmade term hdue
  · obtain ⟨hcontiguous, hindex, -⟩ := (hmade term hdue).contiguous.compact hlow hhigh rfl
    refine ⟨hcontiguous, ?_, ?_⟩
    · rw [hindex]
      exact Nat.le_add_left 1 applied
    · rw [hindex]
      exact Nat.le_refl _

end PersistentStorage

/-! ### What the held states are made of -/

section

variable {S : Snapshot → Prop} {E : LogEntry → Prop}

/-- The snapshot of a state is of one kind, and its entries are of another. -/
structure PersistentState.MadeOf (S : Snapshot → Prop) (E : LogEntry → Prop)
    (p : PersistentState) : Prop where
  snapshot : S p.snapshot
  entries : ∀ entry ∈ p.entries, E entry

namespace PersistentStorage

variable {s s' : PersistentStorage} {p q : PersistentState}

/-- **Storing a `Ready`** leaves states that are made of what was held and of what the
`Ready` has. -/
theorem made_storeReady (h : ∀ q, s.Held q → q.MadeOf S E) {ready : Ready}
    (hsnapshot : ready.snapshot.isEmpty = false → S ready.snapshot)
    (hentries : ∀ entry ∈ ready.entries, E entry) (hp : (s.storeReady ready).1.Held p) :
    p.MadeOf S E := by
  have hstate := h s.state (Or.inl rfl)
  have hbefore : (s.state.beforeEntries ready).MadeOf S E := by
    unfold PersistentState.beforeEntries
    split
    · exact ⟨hstate.snapshot, hstate.entries⟩
    · -- The snapshot replaces the log.
      rename_i hsome
      exact ⟨hsnapshot (Bool.eq_false_iff.mpr hsome), fun entry hentry => by cases hentry⟩
  rcases held_storeReady hp with hold | ⟨hs, -, rfl⟩ | rfl | rfl
  · exact h p hold
  · exact ⟨hstate.snapshot, hstate.entries⟩
  · exact hbefore
  · unfold PersistentState.stored
    cases hents : ready.entries with
    | nil => exact hbefore
    | cons first rest =>
        refine ⟨hbefore.snapshot, fun entry hentry => ?_⟩
        rcases List.mem_append.mp hentry with hkept | hnew
        · split at hkept
          · exact hbefore.entries entry (List.mem_of_mem_take hkept)
          · exact hbefore.entries entry hkept
        · exact hentries entry (hents ▸ hnew)

/-- **Taking a snapshot** leaves states that are made of what was held and of the data. -/
theorem made_maybeSnapshot (h : ∀ q, s.Held q → q.MadeOf S E) {applied : Nat} {data : Bytes}
    (hdata : ∀ metadata, S ⟨data, metadata⟩)
    (hcall : s.SnapshotTried applied data s') (hp : s'.Held p) : p.MadeOf S E := by
  have hstate := h s.state (Or.inl rfl)
  rcases held_maybeSnapshot hcall hp with hold | ⟨-, -, term, rfl | ⟨-, -, rfl⟩⟩
  · exact h p hold
  · exact ⟨hdata _, hstate.entries⟩
  · exact ⟨hdata _, fun entry hentry => hstate.entries entry (List.mem_of_mem_drop hentry)⟩

end PersistentStorage

end

end WalServer.Raft
