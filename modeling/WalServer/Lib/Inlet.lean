import Mathlib.Algebra.Ring.Nat

/-!
# `WalServer.Lib.Inlet`: a queue with a wake-up

An eventfd is a counter: a write adds to it, a read takes all of it and finds nothing
at zero. A write that would pass the largest value is refused, and leaves a counter
that is not zero.

An `Inlet` is a bounded queue whose producers first send and then notify, as two
steps, and whose consumer waits for the eventfd. It is awake (`Inlet.Awake`) as long as
a message in it has its wake-up ahead. Producers keep it awake whatever the consumer
does; the consumer makes it so by leaving nothing in the queue.
-/

set_option autoImplicit false

namespace WalServer.Lib

/-- The largest value of an eventfd. -/
def eventfdMax : Nat := 2 ^ 64 - 2

/-- The counter of an eventfd. -/
structure Eventfd where
  counter : Nat
  bounded : counter ≤ eventfdMax
deriving DecidableEq

namespace Eventfd

/-- A new eventfd. -/
def new : Eventfd := ⟨0, Nat.zero_le _⟩

/-- A write, which is refused when there is no room for it. -/
def write (fd : Eventfd) (n : Nat) : Eventfd :=
  if h : fd.counter + n ≤ eventfdMax then ⟨fd.counter + n, h⟩ else fd

/-- A read, which takes the counter if there is anything to take. -/
def read (fd : Eventfd) : Option (Nat × Eventfd) :=
  if fd.counter = 0 then none else some (fd.counter, new)

/-- A read whose result nobody looks at. -/
def drain (fd : Eventfd) : Eventfd :=
  match fd.read with
  | some (_, fd') => fd'
  | none          => fd

/-- **Taken or refused, a write leaves something to read.** -/
theorem counter_write_pos (fd : Eventfd) {n : Nat} (hpos : 0 < n) (hroom : n ≤ eventfdMax) :
    0 < (fd.write n).counter := by
  unfold write
  split
  · show 0 < fd.counter + n
    omega
  · omega

/-- There is something to read exactly when the counter is positive. -/
theorem isSome_read {fd : Eventfd} : fd.read.isSome = true ↔ 0 < fd.counter := by
  unfold read
  split
  · rename_i hzero
    simp [hzero]
  · rename_i hne
    simp [Nat.pos_of_ne_zero hne]

end Eventfd

/-- A bounded queue, its eventfd, and how many producers have sent and not notified yet. -/
structure Inlet (α : Type) where
  queue : List α
  eventfd : Eventfd
  unnotified : Nat
deriving DecidableEq

namespace Inlet

variable {α : Type}

/-- A new inlet. -/
def new : Inlet α := ⟨[], .new, 0⟩

/-- A producer sends, if there is room. -/
def send (i : Inlet α) (capacity : Nat) (a : α) : Option (Inlet α) :=
  if i.queue.length < capacity then
    some { i with queue := i.queue ++ [a], unnotified := i.unnotified + 1 }
  else none

/-- A producer that has sent notifies. -/
def notify (i : Inlet α) : Option (Inlet α) :=
  if i.unnotified = 0 then none
  else some { i with eventfd := i.eventfd.write 1, unnotified := i.unnotified - 1 }

/-- The consumer's wait ends with a read. -/
def wake (i : Inlet α) : Option (Inlet α) :=
  i.eventfd.read.map fun r => { i with eventfd := r.2 }

/-- The consumer drains the eventfd. -/
def drain (i : Inlet α) : Inlet α := { i with eventfd := i.eventfd.drain }

/-- The consumer takes the first message. -/
def receive (i : Inlet α) : Option (α × Inlet α) :=
  match i.queue with
  | []        => none
  | a :: rest => some (a, { i with queue := rest })

/-- A message in the queue has its wake-up ahead: it can be read, or a producer is about
to write it. -/
def Awake (i : Inlet α) : Prop :=
  i.queue ≠ [] → 0 < i.eventfd.counter ∨ 0 < i.unnotified

theorem awake_new : (new : Inlet α).Awake := fun hqueue => absurd rfl hqueue

/-- A message that was just sent will be notified. -/
theorem awake_send {i j : Inlet α} {capacity : Nat} {a : α} (h : i.send capacity a = some j) :
    j.Awake := by
  intro _
  unfold send at h
  split at h
  · cases h
    exact Or.inr (Nat.succ_pos _)
  · cases h

/-- A notification wakes the consumer for all that is in the queue. -/
theorem awake_notify {i j : Inlet α} (h : i.notify = some j) : j.Awake := by
  intro _
  unfold notify at h
  split at h
  · cases h
  · cases h
    exact Or.inl (i.eventfd.counter_write_pos Nat.one_pos (by decide))

/-- An inlet that was emptied needs no wake-up. -/
theorem awake_of_receive {i : Inlet α} (h : i.receive = none) : i.Awake := by
  intro hqueue
  unfold receive at h
  split at h
  · rename_i hempty
    exact absurd hempty hqueue
  · cases h

/-- A consumer that waits for an awake inlet with a message can go on, or will be able
to when a producer has notified. -/
theorem Awake.wake {i : Inlet α} (h : i.Awake) (hqueue : i.queue ≠ []) :
    i.wake.isSome = true ∨ 0 < i.unnotified := by
  rcases h hqueue with hpos | hahead
  · left
    unfold Inlet.wake
    rw [Option.isSome_map]
    exact Eventfd.isSome_read.mpr hpos
  · exact Or.inr hahead

end Inlet

end WalServer.Lib
