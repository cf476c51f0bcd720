import Mathlib.Data.List.Basic
import Mathlib.Data.List.Flatten

/-!
# `WalServer.Lib.Turns`: a list handed out in turns

Items are handed to numbered receivers, and the number never goes down: a later receiver
starts when the earlier ones get nothing more. What the receivers get, one after the
other, is then the list itself (`flatMap_labelled`). If each has a first part of what it
was handed, they have a sublist of the list (`sublist_of_prefixes`): nothing twice, nothing
in another order.

Where several put items into one list, in no order among them, the list interleaves what
each has put (`Interleaves`).
-/

set_option autoImplicit false

namespace WalServer.Lib

variable {α β : Type}

section

variable {ι : Type} [DecidableEq ι]

/-- The items with a label. -/
def labelled (l : List (ι × α)) (k : ι) : List α :=
  (l.filter fun p => p.1 = k).map Prod.snd

theorem labelled_append (l m : List (ι × α)) (k : ι) :
    labelled (l ++ m) k = labelled l k ++ labelled m k := by
  unfold labelled
  rw [List.filter_append, List.map_append]

/-- Items that all have one label. -/
theorem labelled_map (j : ι) (items : List α) (k : ι) :
    labelled (items.map fun a => (j, a)) k = if j = k then items else [] := by
  unfold labelled
  rw [List.filter_map]
  by_cases h : j = k
  · simp [h, Function.comp_def]
  · simp [h, Function.comp_def]

theorem labelled_concat (l : List (ι × α)) (j : ι) (a : α) (k : ι) :
    labelled (l ++ [(j, a)]) k = labelled l k ++ if j = k then [a] else [] := by
  rw [labelled_append]
  exact congrArg (labelled l k ++ ·) (labelled_map j [a] k)

/-- A label that is used nowhere. -/
theorem labelled_eq_nil {l : List (ι × α)} {k : ι} (h : ∀ p ∈ l, p.1 ≠ k) :
    labelled l k = [] := by
  unfold labelled
  rw [List.map_eq_nil_iff, List.filter_eq_nil_iff]
  exact fun p hp => by simpa using h p hp

/-! ### Interleaving -/

/-- **An interleaving**: the items of a list with a label are its part, in order, and every
item has one. -/
def Interleaves (parts : ι → List α) (whole : List α) : Prop :=
  ∃ l : List (ι × α), l.map Prod.snd = whole ∧ ∀ k, labelled l k = parts k

namespace Interleaves

variable {parts parts' : ι → List α} {whole : List α}

theorem nil : Interleaves (fun _ : ι => ([] : List α)) [] := ⟨[], rfl, fun _ => rfl⟩

/-- More items of one part come to the end. -/
theorem append (h : Interleaves parts whole) {j : ι} {items : List α}
    (hself : parts' j = parts j ++ items) (hothers : ∀ k, k ≠ j → parts' k = parts k) :
    Interleaves parts' (whole ++ items) := by
  obtain ⟨l, hwhole, hparts⟩ := h
  refine ⟨l ++ items.map fun a => (j, a), ?_, fun k => ?_⟩
  · rw [List.map_append, hwhole, List.map_map]
    exact congrArg (whole ++ ·) (List.map_id items)
  · rw [labelled_append, labelled_map, hparts]
    by_cases hk : j = k
    · rw [if_pos hk, ← hk, hself]
    · rw [if_neg hk, List.append_nil, hothers k (Ne.symm hk)]

/-- Where all items are of one part, the list is this part. -/
theorem eq_of_single (h : Interleaves parts whole) {j : ι} (hothers : ∀ k, k ≠ j → parts k = []) :
    whole = parts j := by
  obtain ⟨l, hwhole, hparts⟩ := h
  have hall : ∀ p ∈ l, p.1 = j := by
    intro p hp
    by_contra hne
    have hmem : p.2 ∈ labelled l p.1 :=
      List.mem_map.mpr ⟨p, List.mem_filter.mpr ⟨hp, decide_eq_true rfl⟩, rfl⟩
    rw [hparts, hothers p.1 hne] at hmem
    cases hmem
  rw [← hparts j, ← hwhole, labelled,
    List.filter_eq_self.mpr fun p hp => decide_eq_true (hall p hp)]

end Interleaves

end

/-! ### In turns -/

/-- In a list in order, what is below a label and then what has it. -/
theorem filter_lt_append_eq {l : List (Nat × α)} (h : l.Pairwise fun a b => a.1 ≤ b.1) (n : Nat) :
    l.filter (fun p => p.1 < n) ++ l.filter (fun p => p.1 = n) =
      l.filter fun p => p.1 < n + 1 := by
  induction l with
  | nil => rfl
  | cons p l ih =>
      rw [List.pairwise_cons] at h
      rcases Nat.lt_trichotomy p.1 n with hlt | heq | hgt
      · rw [List.filter_cons_of_pos (by simpa using hlt),
          List.filter_cons_of_neg (by simp; omega),
          List.filter_cons_of_pos (by simpa using Nat.lt_succ_of_lt hlt), List.cons_append, ih h.2]
      · -- All that follows has the label too, or a higher one.
        have hnone : l.filter (fun p => p.1 < n) = [] := by
          rw [List.filter_eq_nil_iff]
          intro q hq
          have hle := h.1 q hq
          simp only [decide_eq_true_iff]
          omega
        have hrest := ih h.2
        rw [hnone, List.nil_append] at hrest
        rw [List.filter_cons_of_neg (by simp [heq]), List.filter_cons_of_pos (by simp [heq]),
          List.filter_cons_of_pos (by simp [heq]), hnone, List.nil_append, hrest]
      · rw [List.filter_cons_of_neg (by simp; omega), List.filter_cons_of_neg (by simp; omega),
          List.filter_cons_of_neg (by simp; omega), ih h.2]

/-- **What the receivers get in turn** is the list. -/
theorem flatMap_labelled {l : List (Nat × α)} (h : l.Pairwise fun a b => a.1 ≤ b.1) {n : Nat}
    (hbelow : ∀ p ∈ l, p.1 < n) : (List.range n).flatMap (labelled l) = l.map Prod.snd := by
  have hupto : ∀ m, (List.range m).flatMap (labelled l) =
      (l.filter fun p => p.1 < m).map Prod.snd := by
    intro m
    induction m with
    | zero => simp
    | succ m ih =>
        rw [List.range_succ, List.flatMap_append, ih, List.flatMap_singleton, labelled,
          ← List.map_append, filter_lt_append_eq h]
  rw [hupto, List.filter_eq_self.mpr fun p hp => by simpa using hbelow p hp]

/-- The same of lists that are handed out. -/
theorem flatMap_flatten_labelled {l : List (Nat × List α)}
    (h : l.Pairwise fun a b => a.1 ≤ b.1) {n : Nat} (hbelow : ∀ p ∈ l, p.1 < n) (f : α → β) :
    ((List.range n).flatMap fun k => (labelled l k).flatten.map f) =
      (l.flatMap Prod.snd).map f := by
  have hflatten : ∀ ls : List Nat, (ls.flatMap fun k => (labelled l k).flatten) =
      (ls.flatMap (labelled l)).flatten := by
    intro ls
    induction ls with
    | nil => rfl
    | cons k ls ih => rw [List.flatMap_cons, List.flatMap_cons, List.flatten_append, ih]
  rw [← List.map_flatMap, hflatten, flatMap_labelled h hbelow, List.flatMap_def]

/-- **Receivers that have first parts** of what they were handed have, in turn, a sublist. -/
theorem sublist_of_prefixes {l : List (Nat × List α)} (h : l.Pairwise fun a b => a.1 ≤ b.1)
    {n : Nat} (hbelow : ∀ p ∈ l, p.1 < n) {f : α → β} {got : Nat → List β}
    (hgot : ∀ k, got k <+: (labelled l k).flatten.map f) :
    ((List.range n).flatMap got).Sublist ((l.flatMap Prod.snd).map f) := by
  rw [← flatMap_flatten_labelled h hbelow]
  exact List.Sublist.flatMap_right _ fun k _ => (hgot k).sublist

/-- **Receivers that have all** they were handed have, in turn, everything. -/
theorem eq_of_all {l : List (Nat × List α)} (h : l.Pairwise fun a b => a.1 ≤ b.1) {n : Nat}
    (hbelow : ∀ p ∈ l, p.1 < n) {f : α → β} {got : Nat → List β}
    (hgot : ∀ k < n, got k = (labelled l k).flatten.map f) :
    (List.range n).flatMap got = (l.flatMap Prod.snd).map f := by
  rw [← flatMap_flatten_labelled h hbelow]
  exact List.flatMap_congr fun k hk => hgot k (List.mem_range.mp hk)

end WalServer.Lib
