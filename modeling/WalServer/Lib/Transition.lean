import Mathlib.Data.Option.Basic

/-!
# `WalServer.Lib.Transition`: runs of an executable transition system

A system is an initial state and a partial step function: `step s a` is the
state after the action `a`, or `none` when `a` cannot happen in `s`. A run is
guarded by a condition `ok` on the state before each step and its action; the
condition that always holds gives the plain runs.

* `Reachable.invariant`: what holds initially and is preserved by every
  permitted step holds of every state a permitted run reaches. The step case
  may use that the state is reachable, so that invariants are proved one on
  top of the other.
* `Reachable.mono`: a stronger condition permits fewer runs.
* `Reachable.trans`: runs are continued from the states they reach (`startingFrom`).
* `exists_reachable_of_execute`: the interpreter `execute` produces runs, so a
  concrete run is exhibited by evaluating it.
* `execute_simulates`: where each step of one system is simulated by the other's step of the
  same action, so are its runs, action by action.
-/

set_option autoImplicit false

namespace WalServer.Lib

/-- A transition system with an executable, partial step. -/
structure System (σ α : Type) where
  init : σ
  step : σ → α → Option σ

namespace System

variable {σ α : Type}

/-- The states that runs reach whose every step meets the condition `ok`. -/
inductive Reachable (S : System σ α) (ok : σ → α → Prop) : σ → Prop
  | init : Reachable S ok S.init
  | step {s t : σ} {a : α} (h : Reachable S ok s) (hok : ok s a) (hs : S.step s a = some t) :
      Reachable S ok t

/-- The condition that permits every step. -/
def anyStep : σ → α → Prop := fun _ _ => True

instance (s : σ) (a : α) : Decidable (anyStep s a) := inferInstanceAs (Decidable True)

/-- The invariant rule: an invariant holds initially and every permitted step
from a reachable state preserves it. -/
theorem Reachable.invariant {S : System σ α} {ok : σ → α → Prop} {I : σ → Prop}
    (hinit : I S.init)
    (hstep : ∀ s a t, S.Reachable ok s → I s → ok s a → S.step s a = some t → I t)
    {s : σ} (h : S.Reachable ok s) : I s := by
  induction h with
  | init => exact hinit
  | step hs hok hst ih => exact hstep _ _ _ hs ih hok hst

/-- A run that meets the stronger condition meets the weaker one. -/
theorem Reachable.mono {S : System σ α} {ok ok' : σ → α → Prop}
    (himp : ∀ s a, ok s a → ok' s a) {s : σ} (h : S.Reachable ok s) : S.Reachable ok' s := by
  induction h with
  | init => exact .init
  | step _ hok hst ih => exact ih.step (himp _ _ hok) hst

/-- The system that goes on from a given state. -/
def startingFrom (S : System σ α) (s : σ) : System σ α := { S with init := s }

/-- What a continued run reaches is reachable. -/
theorem Reachable.trans {S : System σ α} {ok : σ → α → Prop} {s t : σ} (h : S.Reachable ok s)
    (h' : (S.startingFrom s).Reachable ok t) : S.Reachable ok t := by
  induction h' with
  | init => exact h
  | step _ hok hst ih => exact ih.step hok hst

/-- The state after a list of actions, each of which must be permitted. -/
def execute (S : System σ α) (ok : σ → α → Prop) [∀ s a, Decidable (ok s a)] :
    σ → List α → Option σ
  | s, []      => some s
  | s, a :: as => if ok s a then (S.step s a).bind fun t => execute S ok t as else none

/-- What the interpreter reaches from a reachable state is reachable. -/
theorem reachable_of_execute (S : System σ α) (ok : σ → α → Prop) [∀ s a, Decidable (ok s a)]
    {s t : σ} {as : List α} (hs : S.Reachable ok s) (h : execute S ok s as = some t) :
    S.Reachable ok t := by
  induction as generalizing s with
  | nil =>
      cases h
      exact hs
  | cons a as ih =>
      rw [execute] at h
      split at h
      · rename_i hok
        obtain ⟨u, hu, hrest⟩ := Option.bind_eq_some_iff.mp h
        exact ih (hs.step hok hu) hrest
      · cases h

/-- A run that ends in a state with the property `P` shows that such a state can
be reached. -/
theorem exists_reachable_of_execute (S : System σ α) (ok : σ → α → Prop)
    [∀ s a, Decidable (ok s a)] (as : List α) (P : σ → Prop) [DecidablePred P]
    (h : (execute S ok S.init as).any (fun s => decide (P s)) = true) :
    ∃ s, S.Reachable ok s ∧ P s := by
  cases hrun : execute S ok S.init as with
  | none =>
      rw [hrun] at h
      cases h
  | some s =>
      rw [hrun] at h
      exact ⟨s, reachable_of_execute S ok .init hrun, of_decide_eq_true h⟩

/-- **Simulation**: two systems whose steps of every action keep a relation keep it over
every sequence of actions. -/
theorem execute_simulates {τ : Type} {S : System σ α} {ok : σ → α → Prop}
    [∀ s a, Decidable (ok s a)] (T : System τ α) (ok' : τ → α → Prop)
    [∀ t a, Decidable (ok' t a)] (R : σ → τ → Prop)
    (hstep : ∀ s t a s', R s t → ok s a → S.step s a = some s' →
      ok' t a ∧ ∃ t', T.step t a = some t' ∧ R s' t')
    {s s' : σ} {t : τ} {as : List α} (hrel : R s t) (h : execute S ok s as = some s') :
    ∃ t', execute T ok' t as = some t' ∧ R s' t' := by
  induction as generalizing s t with
  | nil =>
      cases h
      exact ⟨t, rfl, hrel⟩
  | cons a as ih =>
      rw [execute] at h ⊢
      split at h
      · rename_i hok
        obtain ⟨u, hu, hrest⟩ := Option.bind_eq_some_iff.mp h
        obtain ⟨hok', v, hv, hrel'⟩ := hstep _ _ _ _ hrel hok hu
        obtain ⟨t', ht', hfinal⟩ := ih hrel' hrest
        exact ⟨t', by rw [if_pos hok', hv, Option.bind_some, ht'], hfinal⟩
      · cases h

end System

end WalServer.Lib
