import Mathlib.Data.Option.Basic

/-!
# `WalServer.Lib.RefCell`: a value that one thread borrows by turns

A cell counts the borrows that are out. An exclusive one can be taken when there
is no other, a shared one when there is no exclusive one; `none` is the panic
that ends the thread otherwise.

A borrow that begins and ends before anything else runs is one operation here:
`update` for an exclusive one and `peek` for a shared one. `lock` is an exclusive
borrow that lasts until `unlock`. A cell that is only ever updated and peeked at
stays `Free`, so neither can fail (`update_of_free`, `peek_of_free`).
-/

set_option autoImplicit false

namespace WalServer.Lib

/-- The borrows of a cell that are out. -/
inductive BorrowState where
  | unused
  | shared (count : Nat)
  | exclusive
deriving DecidableEq, Repr

/-- A value and the borrows of it. -/
structure RefCell (α : Type) where
  value : α
  borrows : BorrowState
deriving DecidableEq, Repr

namespace RefCell

variable {α : Type}

/-- A cell that is not borrowed. -/
def new (value : α) : RefCell α := ⟨value, .unused⟩

/-- Takes an exclusive borrow. -/
def lock (c : RefCell α) : Option (RefCell α) :=
  match c.borrows with
  | .unused => some { c with borrows := .exclusive }
  | _       => none

/-- Ends an exclusive borrow, which leaves a value behind. -/
def unlock (c : RefCell α) : RefCell α := { c with borrows := .unused }

/-- Changes the value under an exclusive borrow that ends at once. -/
def update (c : RefCell α) (f : α → α) : Option (RefCell α) :=
  c.lock.map fun c' => { c' with value := f c'.value }.unlock

/-- Reads the value under a shared borrow that ends at once. -/
def peek (c : RefCell α) : Option α :=
  match c.borrows with
  | .exclusive => none
  | _          => some c.value

/-- No borrow is out. -/
def Free (c : RefCell α) : Prop := c.borrows = .unused

/-- An exclusive borrow is out. -/
def Locked (c : RefCell α) : Prop := c.borrows = .exclusive

variable {c : RefCell α}

@[simp] theorem free_new (value : α) : (new value).Free := rfl

@[simp] theorem value_new (value : α) : (new value).value = value := rfl

@[simp] theorem value_unlock (c : RefCell α) : c.unlock.value = c.value := rfl

@[simp] theorem free_unlock (c : RefCell α) : c.unlock.Free := rfl

/-- A free cell can be locked. -/
theorem lock_of_free (h : c.Free) : c.lock = some { c with borrows := .exclusive } := by
  unfold lock
  rw [show c.borrows = .unused from h]

/-- A locked cell cannot be locked again. -/
theorem lock_of_locked (h : c.Locked) : c.lock = none := by
  unfold lock
  rw [show c.borrows = .exclusive from h]

/-- A free cell can be updated, and is free again. -/
theorem update_of_free (h : c.Free) (f : α → α) : c.update f = some (new (f c.value)) := by
  unfold update
  rw [lock_of_free h]
  rfl

/-- A locked cell cannot be updated. -/
theorem update_of_locked (h : c.Locked) (f : α → α) : c.update f = none := by
  unfold update
  rw [lock_of_locked h]
  rfl

/-- A free cell can be read. -/
theorem peek_of_free (h : c.Free) : c.peek = some c.value := by
  unfold peek
  rw [show c.borrows = .unused from h]

end RefCell

end WalServer.Lib
