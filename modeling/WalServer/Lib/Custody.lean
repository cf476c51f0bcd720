import Mathlib.Data.List.Forall2
import Mathlib.Logic.Function.Basic

/-!
# `WalServer.Lib.Custody`: tokens that pass from queue to queue

A token stands for a piece of work that is handed on: it is in one of several queues,
and moves from the head of one to the end of another. `Arranged R before` says that the
tokens of a queue are related by `R` in their order, and so are the tokens of any two
queues of which one is before the other.

* With inequality for both relations, no token is anywhere twice (`Distinct`).
* With queues in a line, a token that advances along it keeps the arrangement
  (`Arranged.advance`): what it passes on its way is all that has to be looked at.
-/

set_option autoImplicit false

namespace WalServer.Lib

/-- The queue of tokens at each place. -/
abbrev Custody (π τ : Type) := π → List τ

namespace Custody

variable {π τ : Type} [DecidableEq π]

/-- A token is put at the end of a queue. -/
def enter (m : Custody π τ) (p : π) (t : τ) : Custody π τ := Function.update m p (m p ++ [t])

/-- Of a queue only some tokens are kept. -/
def keep (m : Custody π τ) (p : π) (l : List τ) : Custody π τ := Function.update m p l

/-- The head of one queue goes to the end of another. -/
def pass (m : Custody π τ) (p q : π) : Custody π τ :=
  match m p with
  | []        => m
  | t :: rest => (m.keep p rest).enter q t

/-- The tokens are in order, within the queues and from queue to queue. -/
structure Arranged (R : τ → τ → Prop) (before : π → π → Prop) (m : Custody π τ) : Prop where
  within : ∀ p, (m p).Pairwise R
  across : ∀ p q, before p q → ∀ a ∈ m p, ∀ b ∈ m q, R a b

/-- No token is anywhere twice. -/
def Distinct (m : Custody π τ) : Prop := m.Arranged (· ≠ ·) (· ≠ ·)

variable {R : τ → τ → Prop} {before : π → π → Prop} {m : Custody π τ} {p q x : π} {t : τ}
  {rest : List τ}

/-! ### What is where -/

@[simp] theorem enter_self (m : Custody π τ) (p : π) (t : τ) : m.enter p t p = m p ++ [t] :=
  Function.update_self ..

theorem enter_of_ne (h : x ≠ p) (m : Custody π τ) (t : τ) : m.enter p t x = m x :=
  Function.update_of_ne h ..

@[simp] theorem keep_self (m : Custody π τ) (p : π) (l : List τ) : m.keep p l p = l :=
  Function.update_self ..

theorem keep_of_ne (h : x ≠ p) (m : Custody π τ) (l : List τ) : m.keep p l x = m x :=
  Function.update_of_ne h ..

theorem pass_of_cons (h : m p = t :: rest) (q : π) : m.pass p q = (m.keep p rest).enter q t := by
  unfold pass
  rw [h]

theorem pass_of_nil (h : m p = []) (q : π) : m.pass p q = m := by
  unfold pass
  rw [h]

/-- The queue that a token leaves. -/
theorem pass_source (hne : p ≠ q) (m : Custody π τ) : m.pass p q p = (m p).tail := by
  cases h : m p with
  | nil => rw [pass_of_nil h, h, List.tail_nil]
  | cons t rest => rw [pass_of_cons h, enter_of_ne hne, keep_self, List.tail_cons]

/-- The queue that it goes to. -/
theorem pass_target (hne : p ≠ q) (m : Custody π τ) :
    m.pass p q q = m q ++ (m p).head?.toList := by
  cases h : m p with
  | nil => rw [pass_of_nil h, List.head?_nil, Option.toList_none, List.append_nil]
  | cons t rest => rw [pass_of_cons h, enter_self, keep_of_ne hne.symm]; rfl

/-- Any other queue. -/
theorem pass_of_ne (hp : x ≠ p) (hq : x ≠ q) (m : Custody π τ) : m.pass p q x = m x := by
  cases h : m p with
  | nil => rw [pass_of_nil h]
  | cons t rest => rw [pass_of_cons h, enter_of_ne hq, keep_of_ne hp]

/-- What is somewhere after a token was put down. -/
theorem mem_enter {a : τ} : a ∈ m.enter p t x ↔ a ∈ m x ∨ (x = p ∧ a = t) := by
  by_cases h : x = p
  · subst h
    simp
  · simp [enter_of_ne h, h]

/-- Passing on loses no token. -/
theorem exists_mem_pass {a : τ} (h : a ∈ m x) (p q : π) : ∃ y, a ∈ m.pass p q y := by
  cases hp : m p with
  | nil => exact ⟨x, by rw [pass_of_nil hp]; exact h⟩
  | cons t rest =>
      rw [pass_of_cons hp]
      by_cases hx : x = p
      · subst hx
        rw [hp] at h
        rcases List.mem_cons.mp h with rfl | hrest
        · exact ⟨q, mem_enter.mpr (Or.inr ⟨rfl, rfl⟩)⟩
        · exact ⟨x, mem_enter.mpr (Or.inl (by rw [keep_self]; exact hrest))⟩
      · exact ⟨x, mem_enter.mpr (Or.inl (by rw [keep_of_ne hx]; exact h))⟩

/-- What is somewhere after a token was passed on was there before, or is that token. -/
theorem mem_of_mem_pass {a : τ} (h : a ∈ m.pass p q x) :
    a ∈ m x ∨ (x = q ∧ (m p).head? = some a) := by
  cases hp : m p with
  | nil =>
      rw [pass_of_nil hp] at h
      exact Or.inl h
  | cons t rest =>
      rw [pass_of_cons hp] at h
      rcases mem_enter.mp h with hold | ⟨rfl, rfl⟩
      · left
        by_cases hx : x = p
        · subst hx
          rw [keep_self] at hold
          rw [hp]
          exact List.mem_cons_of_mem _ hold
        · rw [keep_of_ne hx] at hold
          exact hold
      · exact Or.inr ⟨rfl, rfl⟩

/-! ### What keeps an arrangement -/

/-- Tokens may be taken away. -/
theorem Arranged.keep (h : m.Arranged R before) {l : List τ} (hsub : l.Sublist (m p)) :
    (m.keep p l).Arranged R before := by
  have hmem : ∀ x, ∀ a ∈ m.keep p l x, a ∈ m x := by
    intro x a ha
    by_cases hx : x = p
    · subst hx
      rw [keep_self] at ha
      exact hsub.subset ha
    · rw [keep_of_ne hx] at ha
      exact ha
  refine ⟨fun x => ?_, fun x y hxy a ha b hb => h.across x y hxy a (hmem x a ha) b (hmem y b hb)⟩
  by_cases hx : x = p
  · subst hx
    rw [keep_self]
    exact (h.within x).sublist hsub
  · rw [keep_of_ne hx]
    exact h.within x

/-- A token may be put where it is in order with all that is there, before and after. -/
theorem Arranged.enter (h : m.Arranged R before) (hp : ¬ before p p)
    (hwithin : ∀ b ∈ m p, R b t) (hin : ∀ x, before x p → ∀ b ∈ m x, R b t)
    (hout : ∀ y, before p y → ∀ b ∈ m y, R t b) : (m.enter p t).Arranged R before where
  within x := by
    by_cases hx : x = p
    · subst hx
      rw [enter_self, List.pairwise_append]
      exact ⟨h.within x, List.pairwise_singleton _ _,
        fun a ha b hb => by rw [List.mem_singleton.mp hb]; exact hwithin a ha⟩
    · rw [enter_of_ne hx]
      exact h.within x
  across x y hxy a ha b hb := by
    rcases mem_enter.mp ha with hold | ⟨rfl, rfl⟩
    · rcases mem_enter.mp hb with hold' | ⟨rfl, rfl⟩
      · exact h.across x y hxy a hold b hold'
      · exact hin x hxy a hold
    · rcases mem_enter.mp hb with hold' | ⟨rfl, rfl⟩
      · exact hout y hxy b hold'
      · exact absurd hxy hp

/-- **A new token** is distinct from all others. -/
theorem Distinct.enter (h : m.Distinct) (hfresh : ∀ x, t ∉ m x) : (m.enter p t).Distinct := by
  have hne : ∀ x, ∀ b ∈ m x, b ≠ t := fun x b hb heq => hfresh x (heq ▸ hb)
  exact Arranged.enter h (fun hp => hp rfl) (hne p) (fun x _ => hne x)
    fun y _ b hb => (hne y b hb).symm

/-- **A token that is passed on** stays distinct from all others. -/
theorem Distinct.pass (h : m.Distinct) (p q : π) : (m.pass p q).Distinct := by
  cases hp : m p with
  | nil => rwa [pass_of_nil hp]
  | cons t rest =>
      rw [pass_of_cons hp]
      have hsub : rest.Sublist (m p) := by
        rw [hp]
        exact List.sublist_cons_self _ _
      refine Distinct.enter (Arranged.keep h hsub) fun x ht => ?_
      by_cases hx : x = p
      · subst hx
        rw [keep_self] at ht
        have hnodup := h.within x
        rw [hp, List.pairwise_cons] at hnodup
        exact hnodup.1 t ht rfl
      · rw [keep_of_ne hx] at ht
        exact h.across x p hx t ht t (by rw [hp]; exact List.mem_cons_self ..) rfl

/-- **A token that advances** along a line of queues stays in order, if it is in order
with what it passes: the other queues up to the one it comes from. -/
theorem Arranged.advance {rank : π → Nat} (h : m.Arranged R fun x y => rank x < rank y)
    (hrank : rank q < rank p)
    (hpassed : ∀ y, y ≠ p → rank q < rank y → rank y ≤ rank p →
      ∀ a ∈ m p, ∀ b ∈ m y, R a b) :
    (m.pass p q).Arranged R fun x y => rank x < rank y := by
  cases hp : m p with
  | nil => rwa [pass_of_nil hp]
  | cons t rest =>
      rw [pass_of_cons hp]
      have hhead : t ∈ m p := by
        rw [hp]
        exact List.mem_cons_self ..
      have hne : q ≠ p := fun heq => by
        rw [heq] at hrank
        exact Nat.lt_irrefl _ hrank
      -- The token is taken from its place and entered at the other one.
      refine (h.keep (by rw [hp]; exact List.sublist_cons_self _ _)).enter (Nat.lt_irrefl _)
        (fun b hb => ?_) (fun x hx b hb => ?_) fun y hy b hb => ?_
      · rw [keep_of_ne hne] at hb
        exact h.across q p hrank b hb t hhead
      · have hx' : x ≠ p := fun heq => by
          rw [heq] at hx
          exact Nat.lt_asymm hx hrank
        rw [keep_of_ne hx'] at hb
        exact h.across x p (Nat.lt_trans hx hrank) b hb t hhead
      · by_cases hy' : y = p
        · -- It was ahead of the tokens that stay.
          subst hy'
          rw [keep_self] at hb
          have hwithin := h.within y
          rw [hp, List.pairwise_cons] at hwithin
          exact hwithin.1 b hb
        · rw [keep_of_ne hy'] at hb
          rcases Nat.lt_or_ge (rank p) (rank y) with hlt | hle
          · exact h.across p y hlt t hhead b hb
          · exact hpassed y hy' hy hle t hhead b hb

/-! ### Tokens beside what they are of -/

section

variable {α : Type} {S : τ → α → Prop} {tokens : List τ} {things : List α}

theorem forall₂_tail (h : List.Forall₂ S tokens things) :
    List.Forall₂ S tokens.tail things.tail := by
  cases h with
  | nil => exact .nil
  | cons _ hrest => exact hrest

theorem forall₂_head? (h : List.Forall₂ S tokens things) :
    List.Forall₂ S tokens.head?.toList things.head?.toList := by
  cases h with
  | nil => exact .nil
  | cons hhead _ => exact .cons hhead .nil

theorem forall₂_eraseIdx (h : List.Forall₂ S tokens things) (n : Nat) :
    List.Forall₂ S (tokens.eraseIdx n) (things.eraseIdx n) := by
  induction h generalizing n with
  | nil => exact .nil
  | cons hhead hrest ih =>
      cases n with
      | zero => exact hrest
      | succ n => exact .cons hhead (ih n)

/-- The token of the one thing that there is. -/
theorem forall₂_singleton {a : α} (h : List.Forall₂ S tokens [a]) :
    ∃ t, tokens = [t] ∧ S t a := by
  cases h with
  | cons hhead hrest =>
      cases hrest
      exact ⟨_, rfl, hhead⟩

end

end Custody

end WalServer.Lib
