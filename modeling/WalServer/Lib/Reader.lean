import Mathlib.Data.List.Basic

/-!
# `WalServer.Lib.Reader`: reading a buffer with a cursor

A `Reader` takes a value from a buffer at a cursor and says where the cursor is behind
it, or refuses. It *delimits* an image of a value when it reads the value wherever the
image lies and whatever follows, and refuses every buffer that ends within the image.

A format is put together from parts, and so is the proof that its reader delimits its
images: `Delimits.andThen` for one part behind another, `Delimits.times` for a number of
parts of one kind. A reader that delimits its images needs no mark for the end of a
value and takes no part of one for a whole.
-/

set_option autoImplicit false

namespace WalServer.Lib

/-- Reads a value from a buffer at a cursor, and moves the cursor behind it. -/
abbrev Reader (β α ε : Type) := List β → Nat → Except ε (α × Nat)

namespace Reader

variable {β α α' ε : Type}

/-- Reads nothing. -/
def done (a : α) : Reader β α ε := fun _ cursor => .ok (a, cursor)

/-- Reads one value and, at the cursor behind it, the next. -/
def andThen (read : Reader β α ε) (next : α → Reader β α' ε) : Reader β α' ε :=
  fun data cursor =>
    match read data cursor with
    | .error e         => .error e
    | .ok (a, cursor') => next a data cursor'

/-- Reads a number of values, one after the other. -/
def times (read : Reader β α ε) : Nat → Reader β (List α) ε
  | 0         => done []
  | count + 1 => read.andThen fun a => (times read count).andThen fun rest => done (a :: rest)

/-- The reader finds the value of an image in every buffer that has the image at the
cursor, and refuses a buffer that ends within the image. -/
structure Delimits (read : Reader β α ε) (image : List β) (a : α) : Prop where
  whole : ∀ front back,
    read (front ++ (image ++ back)) front.length = .ok (a, front.length + image.length)
  torn : ∀ front part, part <+: image → part ≠ image →
    ∃ e, read (front ++ part) front.length = .error e

/-- A part of two lists ends within the first or within the second. -/
theorem prefix_append_cases {part xs ys : List β} (h : part <+: xs ++ ys)
    (hne : part ≠ xs ++ ys) :
    (part <+: xs ∧ part ≠ xs) ∨ ∃ rest, part = xs ++ rest ∧ rest <+: ys ∧ rest ≠ ys := by
  rcases List.prefix_or_prefix_of_prefix h (List.prefix_append xs ys) with hshort | hlong
  · by_cases heq : part = xs
    · right
      -- The first list is there as a whole, and nothing of the second.
      refine ⟨[], by rw [heq, List.append_nil], List.nil_prefix, fun hnil => hne ?_⟩
      rw [heq, ← hnil, List.append_nil]
    · exact Or.inl ⟨hshort, heq⟩
  · obtain ⟨rest, rfl⟩ := hlong
    right
    exact ⟨rest, rfl, (List.prefix_append_right_inj xs).mp h, fun heq => hne (by rw [heq])⟩

variable {read : Reader β α ε} {next : α → Reader β α' ε} {xs ys : List β} {a : α} {b : α'}

/-- Reading nothing delimits the empty image. -/
theorem delimits_done (a : α) : (done a : Reader β α ε).Delimits [] a where
  whole _ _ := rfl
  torn _ _ hpart hne := absurd (List.prefix_nil.mp hpart) hne

/-- **One part behind another.** -/
theorem Delimits.andThen (h : read.Delimits xs a) (h' : (next a).Delimits ys b) :
    (read.andThen next).Delimits (xs ++ ys) b where
  whole front back := by
    have hnext := h'.whole (front ++ xs) back
    rw [List.append_assoc, List.length_append] at hnext
    rw [Reader.andThen, List.append_assoc, h.whole]
    simp only
    rw [hnext, List.length_append, Nat.add_assoc]
  torn front part hpart hne := by
    unfold Reader.andThen
    rcases prefix_append_cases hpart hne with ⟨hfirst, hpartial⟩ | ⟨rest, rfl, hsecond, hpartial⟩
    · -- The buffer ends within the first part.
      obtain ⟨e, he⟩ := h.torn front part hfirst hpartial
      exact ⟨e, by rw [he]⟩
    · obtain ⟨e, he⟩ := h'.torn (front ++ xs) rest hsecond hpartial
      rw [List.append_assoc, List.length_append] at he
      exact ⟨e, by rw [h.whole]; exact he⟩

/-- A value that is made of the one that is read. -/
theorem Delimits.map (h : read.Delimits xs a) (f : α → α') :
    (read.andThen fun x => done (f x)).Delimits xs (f a) := by
  have hdone : (done (f a) : Reader β α' ε).Delimits [] (f a) := delimits_done (f a)
  have hboth : (read.andThen fun x => done (f x)).Delimits (xs ++ []) (f a) := h.andThen hdone
  rwa [List.append_nil] at hboth

/-- **A number of parts of one kind.** -/
theorem Delimits.times {image : α → List β} {values : List α}
    (h : ∀ x ∈ values, read.Delimits (image x) x) :
    (read.times values.length).Delimits (values.flatMap image) values := by
  induction values with
  | nil => exact delimits_done []
  | cons x rest ih =>
      have hfirst := h x List.mem_cons_self
      have hrest := ih fun y hy => h y (List.mem_cons_of_mem x hy)
      rw [List.length_cons, Reader.times, List.flatMap_cons]
      exact hfirst.andThen (hrest.map (x :: ·))

end Reader

end WalServer.Lib
