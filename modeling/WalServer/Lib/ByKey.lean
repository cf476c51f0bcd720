import Mathlib.Data.List.Basic
import Mathlib.Data.List.Induction
import Mathlib.Data.List.Perm.Basic
import Mathlib.Data.List.Sort

/-!
# `WalServer.Lib.ByKey`: lists whose elements have keys

What a list that is only appended to means as a map: the last element with a key counts
(`latest`). Leaving out elements that are not the last of their key changes nothing for the
others (`latest_filter`), which is what a log may do when it is compacted.

What is listed in no particular order and sorted by a key that tells the elements apart is
the one list in the order of the keys (`insertionSort_eq_of_perm`).
-/

set_option autoImplicit false

namespace WalServer.Lib

/-! ### The last element with a key -/

section

variable {α β κ : Type} [DecidableEq κ]

/-- The last element of a list that has the key. -/
def latest (key : α → κ) (k : κ) (xs : List α) : Option α :=
  (xs.filter fun x => key x = k).getLast?

variable {key : α → κ} {k : κ} {xs ys : List α}

@[simp] theorem latest_nil (key : α → κ) (k : κ) : latest key k [] = none := rfl

/-- What is behind counts first. -/
theorem latest_append (key : α → κ) (k : κ) (xs ys : List α) :
    latest key k (xs ++ ys) = (latest key k ys).or (latest key k xs) := by
  rw [latest, List.filter_append, List.getLast?_append]
  rfl

/-- One more element. -/
theorem latest_concat (key : α → κ) (k : κ) (xs : List α) (x : α) :
    latest key k (xs ++ [x]) = if key x = k then some x else latest key k xs := by
  rw [latest_append]
  by_cases h : key x = k
  · simp [latest, h]
  · simp [latest, h]

/-- The last element with a key is one. -/
theorem latest_eq_some {x : α} (h : latest key k xs = some x) : x ∈ xs ∧ key x = k := by
  obtain ⟨hmem, hkey⟩ := List.mem_filter.mp (List.mem_of_getLast? h)
  exact ⟨hmem, of_decide_eq_true hkey⟩

/-- The elements as they are seen through a function. -/
theorem latest_map (f : α → β) (key : β → κ) (k : κ) (xs : List α) :
    latest key k (xs.map f) = (latest (fun x => key (f x)) k xs).map f := by
  rw [latest, List.filter_map, List.getLast?_map]
  rfl

/-- What two lists that end alike have for a key, if they have the same before that. -/
theorem latest_append_congr {xs' : List α} (h : latest key k xs = latest key k xs')
    (ys : List α) : latest key k (xs ++ ys) = latest key k (xs' ++ ys) := by
  rw [latest_append, latest_append, h]

/-- **Compaction**: the last element with the key stays, whatever else goes. -/
theorem latest_filter {p : α → Bool} (h : ∀ x, latest key k xs = some x → p x = true) :
    latest key k (xs.filter p) = latest key k xs := by
  induction xs using List.reverseRecOn with
  | nil => rfl
  | append_singleton xs x ih =>
      rw [latest_concat] at h ⊢
      rw [List.filter_append]
      by_cases hkey : key x = k
      · have hx : p x = true := h x (if_pos hkey)
        rw [if_pos hkey, List.filter_cons_of_pos hx, List.filter_nil, latest_concat,
          if_pos hkey]
      · rw [if_neg hkey] at h ⊢
        rw [← ih h]
        cases hx : p x with
        | true =>
            rw [List.filter_cons_of_pos hx, List.filter_nil, latest_concat, if_neg hkey]
        | false =>
            rw [List.filter_cons_of_neg (by rw [hx]; decide), List.filter_nil, List.append_nil]

end

/-! ### Sorting by a key -/

/-- **Sorting gives the list in the order of its keys**, however its elements came. -/
theorem insertionSort_eq_of_perm {α : Type} (key : α → Nat) {found sorted : List α}
    (hperm : found.Perm sorted) (hsorted : sorted.Pairwise fun a b => key a < key b) :
    found.insertionSort (fun a b => key a ≤ key b) = sorted := by
  have htotal : Std.Total fun a b : α => key a ≤ key b := ⟨fun a b => Nat.le_total _ _⟩
  have htrans : IsTrans α fun a b => key a ≤ key b := ⟨fun a b c => Nat.le_trans⟩
  have hnodup : (sorted.map key).Nodup := by
    rw [List.nodup_iff_pairwise_ne, List.pairwise_map]
    exact hsorted.imp Nat.ne_of_lt
  have hsort := (List.perm_insertionSort (fun a b : α => key a ≤ key b) found).trans hperm
  refine List.Perm.eq_of_pairwise (fun a b ha hb hab hba => ?_)
    (List.pairwise_insertionSort _ found) (hsorted.imp Nat.le_of_lt) hsort
  -- Two elements of one key are one element, because the keys increase.
  exact List.inj_on_of_nodup_map hnodup (hsort.mem_iff.mp ha) hb (Nat.le_antisymm hab hba)

end WalServer.Lib
