import Mathlib.Data.List.Range

/-!
# `WalServer.Lib.Runs`: lists of numbers as runs

A list of numbers is cut into runs of successive ones, each given by its first and its last
number (`runs`). Writing the runs out again gives the list (`expand_runs`).
-/

set_option autoImplicit false

namespace WalServer.Lib

/-- The numbers from the first to the last, both included. -/
def inclusiveRange (first last : Nat) : List Nat := List.range' first (last + 1 - first)

/-- The runs of successive numbers in a list. -/
def runs : List Nat → List (Nat × Nat)
  | []      => []
  | x :: xs =>
      match runs xs with
      | []                    => [(x, x)]
      | (first, last) :: rest =>
          if x + 1 = first then (x, last) :: rest else (x, x) :: (first, last) :: rest

/-- The numbers of runs. -/
def expand (ranges : List (Nat × Nat)) : List Nat :=
  ranges.flatMap fun r => inclusiveRange r.1 r.2

@[simp] theorem inclusiveRange_self (x : Nat) : inclusiveRange x x = [x] := by
  rw [inclusiveRange, Nat.add_sub_cancel_left]
  rfl

/-- A range with its first number. -/
theorem inclusiveRange_cons {x last : Nat} (h : x < last) :
    inclusiveRange x last = x :: inclusiveRange (x + 1) last := by
  rw [inclusiveRange, inclusiveRange, show last + 1 - x = (last + 1 - (x + 1)) + 1 by omega,
    List.range'_succ]

/-- A run ends at or behind its start. -/
theorem le_of_mem_runs {xs : List Nat} {r : Nat × Nat} (h : r ∈ runs xs) : r.1 ≤ r.2 := by
  induction xs generalizing r with
  | nil => cases h
  | cons x xs ih =>
      rw [runs] at h
      split at h
      · rw [List.mem_singleton.mp h]
      · rename_i first last rest hruns
        have hfirst : first ≤ last := ih (r := (first, last)) (by rw [hruns]; simp)
        have hrest : ∀ q ∈ rest, q.1 ≤ q.2 := fun q hq => ih (by rw [hruns]; simp [hq])
        split at h
        · rcases List.mem_cons.mp h with rfl | hr
          · show x ≤ last
            omega
          · exact hrest r hr
        · rcases List.mem_cons.mp h with rfl | hr
          · exact Nat.le_refl _
          · rcases List.mem_cons.mp hr with rfl | hr
            · exact hfirst
            · exact hrest r hr

/-- **The runs of a list are the list.** -/
theorem expand_runs (xs : List Nat) : expand (runs xs) = xs := by
  induction xs with
  | nil => rfl
  | cons x xs ih =>
      rw [runs]
      split
      · rename_i hruns
        rw [hruns] at ih
        rw [expand, List.flatMap_singleton, inclusiveRange_self, ← ih]
        rfl
      · rename_i first last rest hruns
        rw [hruns] at ih
        have hle : first ≤ last := le_of_mem_runs (r := (first, last)) (by rw [hruns]; simp)
        split
        · rename_i hnext
          subst hnext
          rw [expand, List.flatMap_cons, inclusiveRange_cons (by omega), List.cons_append, ← ih]
          rfl
        · rw [expand, List.flatMap_cons, inclusiveRange_self, ← ih]
          rfl

/-- The ends of runs are numbers of the list. -/
theorem mem_of_mem_runs {xs : List Nat} {r : Nat × Nat} (h : r ∈ runs xs) :
    r.1 ∈ xs ∧ r.2 ∈ xs := by
  have hle := le_of_mem_runs h
  have hmem : ∀ x, r.1 ≤ x → x ≤ r.2 → x ∈ xs := by
    intro x hlow hhigh
    rw [← expand_runs xs]
    refine List.mem_flatMap.mpr ⟨r, h, ?_⟩
    rw [inclusiveRange, List.mem_range'_1]
    omega
  exact ⟨hmem r.1 (Nat.le_refl _) hle, hmem r.2 hle (Nat.le_refl _)⟩

end WalServer.Lib
