/-!
# `WalServer.Lib.Outcome`: what a call can end in

A Rust function that returns a `Result` has three ways to end: with a value,
with an error value, or in a panic. `Except` has no room for the third, which
must not be confused with an error the caller handles.
-/

set_option autoImplicit false

namespace WalServer.Lib

/-- The end of a call: a value, an error, or a panic. -/
inductive Outcome (ε α : Type) where
  | ok (a : α)
  | err (e : ε)
  | panic
deriving DecidableEq, Repr

namespace Outcome

variable {ε ε' α β : Type}

/-- The `?` operator: an error and a panic end the caller too. -/
def bind (x : Outcome ε α) (f : α → Outcome ε β) : Outcome ε β :=
  match x with
  | .ok a  => f a
  | .err e => .err e
  | .panic => .panic

/-- Converts the error, as `map_err` does. -/
def mapErr (x : Outcome ε α) (f : ε → ε') : Outcome ε' α :=
  match x with
  | .ok a  => .ok a
  | .err e => .err (f e)
  | .panic => .panic

/-- Whether the call returned a value. -/
def isOk (x : Outcome ε α) : Bool :=
  match x with
  | .ok _ => true
  | _     => false

/-- The value of a call that returned one. -/
def toOption (x : Outcome ε α) : Option α :=
  match x with
  | .ok a => some a
  | _     => none

/-- Whether the call returned a value of the given kind. -/
def any (x : Outcome ε α) (p : α → Bool) : Bool :=
  match x with
  | .ok a => p a
  | _     => false

@[simp] theorem bind_ok (a : α) (f : α → Outcome ε β) : (ok a : Outcome ε α).bind f = f a := rfl
@[simp] theorem bind_err (e : ε) (f : α → Outcome ε β) :
    (err e : Outcome ε α).bind f = .err e := rfl
@[simp] theorem bind_panic (f : α → Outcome ε β) : (panic : Outcome ε α).bind f = .panic := rfl

/-- A sequence that ends with a value got one from each part. -/
theorem bind_eq_ok {x : Outcome ε α} {f : α → Outcome ε β} {b : β} :
    x.bind f = .ok b ↔ ∃ a, x = .ok a ∧ f a = .ok b := by
  cases x <;> simp

theorem toOption_ok (a : α) : (ok a : Outcome ε α).toOption = some a := rfl

/-- The value of a call, as an option. -/
theorem toOption_eq_some {x : Outcome ε α} {a : α} : x.toOption = some a ↔ x = .ok a := by
  cases x <;> simp [toOption]

/-- A converted error leaves the values alone. -/
theorem mapErr_eq_ok {x : Outcome ε α} {f : ε → ε'} {a : α} : x.mapErr f = .ok a ↔ x = .ok a := by
  cases x <;> simp [mapErr]

/-- The value of a call that returned one of the given kind. -/
theorem any_eq_true {x : Outcome ε α} {p : α → Bool} :
    x.any p = true ↔ ∃ a, x = .ok a ∧ p a = true := by
  cases x <;> simp [any]

end Outcome

end WalServer.Lib
