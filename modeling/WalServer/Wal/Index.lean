import WalServer.Lib.AssocMap

/-!
# `WalServer.Wal.Index`: where the records of a stream are

`wal/index.rs`: the in-memory map from a stream and a position to the location
of the record in a segment file. Each operation has an equation for `lookup`.
-/

set_option autoImplicit false

namespace WalServer.Wal

open WalServer.Lib

/-- The place of a record in the segment files. The size field is 32 bits wide. -/
structure RecordLocation where
  segmentId : Nat
  offset : Nat
  size : Nat
deriving DecidableEq, Repr

/-- The locations of all indexed records, by stream and position. -/
structure StreamLogIndex where
  entries : AssocMap Nat (AssocMap Nat RecordLocation)

namespace StreamLogIndex

/-- An index without entries. -/
def new : StreamLogIndex := ⟨∅⟩

/-- Points a position to a location, replacing an older one. -/
def insert (ix : StreamLogIndex) (streamId streamLsn : Nat) (loc : RecordLocation) :
    StreamLogIndex :=
  ⟨ix.entries.insert streamId
    (((ix.entries.lookup streamId).getD ∅).insert streamLsn loc)⟩

/-- The location of a position. -/
def lookup (ix : StreamLogIndex) (streamId streamLsn : Nat) : Option RecordLocation :=
  (ix.entries.lookup streamId).bind fun entries => entries.lookup streamLsn

/-- Drops the positions of a stream below the given one. -/
def truncateStreamBefore (ix : StreamLogIndex) (streamId streamLsn : Nat) : StreamLogIndex :=
  match ix.entries.lookup streamId with
  | none         => ix
  | some entries =>
      ⟨ix.entries.insert streamId (AssocMap.filterKeys entries fun lsn => streamLsn ≤ lsn)⟩

/-- The segments some position points into. -/
def liveSegmentIds (ix : StreamLogIndex) : List Nat :=
  (AssocMap.values ix.entries).flatMap fun entries =>
    (AssocMap.values entries).map RecordLocation.segmentId

@[simp] theorem lookup_new (s l : Nat) : new.lookup s l = none := by simp [lookup, new]

@[simp] theorem lookup_insert (ix : StreamLogIndex) (s l : Nat) (loc : RecordLocation)
    (s' l' : Nat) :
    (ix.insert s l loc).lookup s' l' =
      if s' = s ∧ l' = l then some loc else ix.lookup s' l' := by
  unfold lookup insert
  simp only [AssocMap.lookup_insert_eq]
  by_cases hs : s' = s
  · subst hs
    simp only [if_true, Option.bind_some, AssocMap.lookup_insert_eq, true_and]
    split
    · rfl
    · cases h : ix.entries.lookup s' <;> simp
  · simp [hs]

@[simp] theorem lookup_truncateStreamBefore (ix : StreamLogIndex) (s l s' l' : Nat) :
    (ix.truncateStreamBefore s l).lookup s' l' =
      if s' = s ∧ l' < l then none else ix.lookup s' l' := by
  unfold truncateStreamBefore
  cases h : ix.entries.lookup s with
  | none =>
      by_cases hs : s' = s
      · subst hs; simp [lookup, h]
      · simp [hs]
  | some entries =>
      unfold lookup
      simp only [AssocMap.lookup_insert_eq]
      by_cases hs : s' = s
      · subst hs
        by_cases hl : l' < l
        · have hle : ¬ l ≤ l' := by omega
          simp [hl, hle]
        · have hle : l ≤ l' := by omega
          simp [hl, hle, h]
      · simp [hs]

/-- The live segments are exactly those some position points into. -/
theorem mem_liveSegmentIds {ix : StreamLogIndex} {seg : Nat} :
    seg ∈ ix.liveSegmentIds ↔ ∃ s l loc, ix.lookup s l = some loc ∧ loc.segmentId = seg := by
  unfold liveSegmentIds lookup
  simp only [List.mem_flatMap, List.mem_map, AssocMap.mem_values, Option.bind_eq_some_iff]
  constructor
  · rintro ⟨entries, ⟨s, hs⟩, loc, ⟨l, hl⟩, rfl⟩
    exact ⟨s, l, loc, ⟨entries, hs, hl⟩, rfl⟩
  · rintro ⟨s, l, loc, ⟨entries, hs, hl⟩, rfl⟩
    exact ⟨entries, ⟨s, hs⟩, loc, ⟨l, hl⟩, rfl⟩

end StreamLogIndex

end WalServer.Wal
