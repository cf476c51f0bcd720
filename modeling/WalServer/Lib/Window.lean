import Mathlib.Data.List.DropRight

/-!
# `WalServer.Lib.Window`: a bounded window of a growing sequence

A queue that keeps the last elements of a sequence, each of which has a position: new
ones are pushed at its end, and elements leave at its front, when there are more than a
limit or when their positions fall below a mark that moves up.

`Window` says that such a queue is what it is meant to be. Popping keeps it
(`Window.dropWhile`) and removes everything below the mark (`Window.dropWhile_eq_filter`),
since the queue is sorted. Pushing looks at nothing, so it keeps it only if the new
position is above the others that stay and not below the mark (`Window.push_iff`).
-/

set_option autoImplicit false

namespace WalServer.Lib

variable {α : Type} {key : α → Nat} {limit lo hi : Nat} {l : List α} {x : α}

/-- The queue is strictly increasing, not longer than the limit, and its positions lie
between the mark and the end of the sequence. -/
structure Window (key : α → Nat) (limit lo hi : Nat) (l : List α) : Prop where
  increasing : l.Pairwise fun a b => key a < key b
  bounded : l.length ≤ limit
  low : ∀ a ∈ l, lo ≤ key a
  high : ∀ a ∈ l, key a < hi

theorem Window.nil : Window key limit lo hi [] where
  increasing := List.Pairwise.nil
  bounded := Nat.zero_le _
  low a ha := by cases ha
  high a ha := by cases ha

/-! ### The last elements -/

theorem mem_of_mem_rtake {n : Nat} {a : α} (h : a ∈ l.rtake n) : a ∈ l :=
  List.mem_of_mem_drop h

theorem length_rtake_le (l : List α) (n : Nat) : (l.rtake n).length ≤ n := by
  simp only [List.rtake, List.length_drop]
  omega

/-- Of the last elements and a new one, the last ones are those of the whole. -/
theorem rtake_rtake_concat (l : List α) (n : Nat) (x : α) :
    (l.rtake n ++ [x]).rtake n = (l ++ [x]).rtake n := by
  cases n with
  | zero => simp
  | succ n =>
      rw [List.rtake_concat_succ, List.rtake_concat_succ]
      congr 1
      simp only [List.rtake, List.drop_drop, List.length_drop]
      congr 1
      omega

/-! ### Popping -/

/-- **Popping finds everything below the mark**, in a queue that is sorted. -/
theorem dropWhile_eq_filter (h : l.Pairwise fun a b => key a < key b) (mark : Nat) :
    (l.dropWhile fun a => key a < mark) = l.filter fun a => mark ≤ key a := by
  induction l with
  | nil => rfl
  | cons a l ih =>
      rw [List.pairwise_cons] at h
      by_cases ha : key a < mark
      · have hnot : ¬ mark ≤ key a := by omega
        simp only [List.dropWhile_cons, List.filter_cons, ha, hnot, decide_true, decide_false,
          if_true, Bool.false_eq_true, if_false]
        exact ih h.2
      · -- The first one that stays is the lowest, so all behind it stay as well.
        have hstays : ∀ b ∈ a :: l, mark ≤ key b := by
          intro b hb
          rcases List.mem_cons.mp hb with rfl | hrest
          · omega
          · have hlt := h.1 b hrest
            omega
        have hall : (a :: l).filter (fun b => mark ≤ key b) = a :: l := by
          simpa using hstays
        rw [hall]
        simp [ha]

/-- **Popping keeps the window**, and moves its mark. -/
theorem Window.dropWhile (h : Window key limit lo hi l) (mark : Nat) :
    Window key limit mark hi (l.dropWhile fun a => key a < mark) := by
  rw [dropWhile_eq_filter h.increasing]
  constructor
  case increasing => exact h.increasing.sublist List.filter_sublist
  case bounded => exact (List.length_filter_le _ _).trans h.bounded
  case low =>
    intro a ha
    simpa using (List.mem_filter.mp ha).2
  case high =>
    intro a ha
    exact h.high a (List.mem_filter.mp ha).1

/-! ### Pushing -/

/-- The new position continues the queue: it is not below the mark, and above the
positions that stay beside it. -/
def Continues (key : α → Nat) (limit lo : Nat) (l : List α) (position : Nat) : Prop :=
  limit = 0 ∨ (lo ≤ position ∧ ∀ a ∈ l.rtake (limit - 1), key a < position)

instance (l : List α) (position : Nat) : Decidable (Continues key limit lo l position) := by
  unfold Continues
  infer_instance

/-- **What pushing keeps**: the queue is a window again exactly if the new element
continues it. -/
theorem Window.push_iff (h : Window key limit lo hi l) {hi' : Nat} (hhi : hi ≤ hi')
    (hx : key x < hi') :
    Window key limit lo hi' ((l ++ [x]).rtake limit) ↔ Continues key limit lo l (key x) := by
  cases limit with
  | zero => simp [Continues, Window.nil]
  | succ n =>
      rw [List.rtake_concat_succ]
      simp only [Continues, Nat.add_sub_cancel, Nat.succ_ne_zero, false_or]
      have hstay : ∀ a ∈ l.rtake n, a ∈ l := fun a ha => mem_of_mem_rtake ha
      constructor
      · intro hpushed
        refine ⟨hpushed.low x (by simp), fun a ha => ?_⟩
        exact (List.pairwise_append.mp hpushed.increasing).2.2 a ha x List.mem_cons_self
      · rintro ⟨hlow, habove⟩
        constructor
        case increasing =>
          rw [List.pairwise_append]
          refine ⟨h.increasing.sublist (List.drop_sublist _ _), List.pairwise_singleton _ _, ?_⟩
          intro a ha b hb
          rw [List.mem_singleton.mp hb]
          exact habove a ha
        case bounded =>
          have hlength := length_rtake_le l n
          rw [List.length_append, List.length_singleton]
          omega
        case low =>
          intro a ha
          rcases List.mem_append.mp ha with hold | hnew
          · exact h.low a (hstay a hold)
          · rw [List.mem_singleton.mp hnew]
            exact hlow
        case high =>
          intro a ha
          rcases List.mem_append.mp ha with hold | hnew
          · exact (h.high a (hstay a hold)).trans_le hhi
          · rw [List.mem_singleton.mp hnew]
            exact hx

end WalServer.Lib
