import Mathlib.Data.List.Induction

/-!
# `WalServer.Lib.KeyedLog`: one log that many keys share

A `KeyedLog` is a list of accepted entries, of which a first part is committed.
Seen from one key it is an append-only log of that key's entries: `accepted` are
all of them, `committed` those in the first part, and the position of an entry is
how many entries of its key were accepted before it.

* `accepted_push`, `committed_push`: accepting appends to one key's entries and
  commits none.
* `committed_commitNext`: committing goes on with the oldest entry that is not
  committed, which appends to its key's committed entries at its position.
* `exists_of_position`: behind a key's committed entries lie its entries that are not.
* `committed_prefix`: a key's committed entries are its first accepted ones, so
  no entry ever moves.
-/

set_option autoImplicit false

namespace WalServer.Lib

variable {α κ : Type}

/-- The entries of one key, in order. -/
def entriesOf [DecidableEq κ] (key : α → κ) (k : κ) (l : List α) : List α :=
  l.filter fun a => key a = k

section EntriesOf

variable [DecidableEq κ] (key : α → κ)

@[simp] theorem entriesOf_nil (k : κ) : entriesOf key k [] = [] := rfl

theorem entriesOf_concat (k : κ) (l : List α) (a : α) :
    entriesOf key k (l ++ [a]) =
      if key a = k then entriesOf key k l ++ [a] else entriesOf key k l := by
  unfold entriesOf
  rw [List.filter_append]
  by_cases h : key a = k
  · simp [h]
  · simp [h]

/-- The entries of a key in a first part of a list come first in the whole. -/
theorem entriesOf_take_prefix (k : κ) (l : List α) (n : Nat) :
    entriesOf key k (l.take n) <+: entriesOf key k l :=
  (List.take_prefix n l).filter _

/-- Each entry of a key is somewhere in the list, behind the entries of its key before it. -/
theorem exists_of_lt_entriesOf {k : κ} {n : Nat} {l : List α}
    (h : n < (entriesOf key k l).length) :
    ∃ i a, l[i]? = some a ∧ key a = k ∧ (entriesOf key k (l.take i)).length = n := by
  induction l using List.reverseRecOn with
  | nil => exact absurd h (Nat.not_lt_zero n)
  | append_singleton l last ih =>
      by_cases hlt : n < (entriesOf key k l).length
      · obtain ⟨i, a, hi, ha, hn⟩ := ih hlt
        have hbound := (List.getElem?_eq_some_iff.mp hi).1
        refine ⟨i, a, ?_, ha, ?_⟩
        · rw [List.getElem?_append_left hbound]
          exact hi
        · rw [List.take_append_of_le_length (Nat.le_of_lt hbound)]
          exact hn
      · -- The entry is the last one of the list, so it is of the key.
        rw [entriesOf_concat] at h
        split at h
        · rename_i hlast
          rw [List.length_append, List.length_singleton] at h
          refine ⟨l.length, last, by simp, hlast, ?_⟩
          rw [List.take_append_of_le_length (Nat.le_refl _), List.take_length]
          omega
        · exact absurd h hlt

end EntriesOf

/-- A list of accepted entries of which the first ones are committed. -/
structure KeyedLog (α : Type) where
  entries : List α
  applied : Nat
  applied_le : applied ≤ entries.length

namespace KeyedLog

/-- A log without entries. -/
def empty : KeyedLog α where
  entries := []
  applied := 0
  applied_le := Nat.le_refl 0

/-- Accepts an entry. -/
def push (log : KeyedLog α) (a : α) : KeyedLog α where
  entries := log.entries ++ [a]
  applied := log.applied
  applied_le := by
    have h := log.applied_le
    simp
    omega

/-- The oldest entry that is not committed. -/
def next? (log : KeyedLog α) : Option α := log.entries[log.applied]?

/-- Commits the oldest entry that is not, if there is one. -/
def commitNext (log : KeyedLog α) : KeyedLog α where
  entries := log.entries
  applied := min (log.applied + 1) log.entries.length
  applied_le := Nat.min_le_right _ _

theorem applied_commitNext {log : KeyedLog α} {a : α} (h : log.next? = some a) :
    log.commitNext.applied = log.applied + 1 := by
  have hlt := (List.getElem?_eq_some_iff.mp h).1
  show min (log.applied + 1) log.entries.length = log.applied + 1
  omega

variable [DecidableEq κ] (key : α → κ)

/-- The entries of a key. -/
def accepted (log : KeyedLog α) (k : κ) : List α := entriesOf key k log.entries

/-- The committed entries of a key. -/
def committed (log : KeyedLog α) (k : κ) : List α :=
  entriesOf key k (log.entries.take log.applied)

/-- How many entries of the key of the `i`-th entry were accepted before it. -/
def position (log : KeyedLog α) (i : Nat) (a : α) : Nat :=
  (entriesOf key (key a) (log.entries.take i)).length

@[simp] theorem accepted_empty (k : κ) : (empty : KeyedLog α).accepted key k = [] := rfl

@[simp] theorem committed_empty (k : κ) : (empty : KeyedLog α).committed key k = [] := rfl

/-- **Accepting an entry** appends it to its key's entries. -/
theorem accepted_push (log : KeyedLog α) (a : α) (k : κ) :
    (log.push a).accepted key k =
      if key a = k then log.accepted key k ++ [a] else log.accepted key k :=
  entriesOf_concat key k log.entries a

/-- Accepting commits nothing. -/
@[simp] theorem committed_push (log : KeyedLog α) (a : α) (k : κ) :
    (log.push a).committed key k = log.committed key k := by
  show entriesOf key k ((log.entries ++ [a]).take log.applied) = _
  rw [List.take_append_of_le_length log.applied_le]
  rfl

/-- An entry keeps its position while others are accepted. -/
theorem position_push (log : KeyedLog α) (a b : α) {i : Nat} (hi : i ≤ log.entries.length) :
    (log.push a).position key i b = log.position key i b := by
  show (entriesOf key (key b) ((log.entries ++ [a]).take i)).length = _
  rw [List.take_append_of_le_length hi]
  rfl

/-- The position of a new entry is the number of its key's entries. -/
theorem position_length (log : KeyedLog α) (a : α) :
    (log.push a).position key log.entries.length a = (log.accepted key (key a)).length := by
  rw [position_push key log a a (Nat.le_refl _), position, List.take_length]
  rfl

@[simp] theorem accepted_commitNext (log : KeyedLog α) (k : κ) :
    log.commitNext.accepted key k = log.accepted key k := rfl

/-- **Committing an entry** appends it to its key's committed entries. -/
theorem committed_commitNext {log : KeyedLog α} {a : α} (h : log.next? = some a) (k : κ) :
    log.commitNext.committed key k =
      if key a = k then log.committed key k ++ [a] else log.committed key k := by
  have htake : log.commitNext.entries.take log.commitNext.applied =
      log.entries.take log.applied ++ [a] := by
    rw [applied_commitNext h]
    show log.entries.take (log.applied + 1) = _
    rw [List.take_add_one, show log.entries[log.applied]? = some a from h]
    rfl
  show entriesOf key k (log.commitNext.entries.take log.commitNext.applied) = _
  rw [htake]
  exact entriesOf_concat key k _ a

/-- **An entry is found at its position** among its key's entries. -/
theorem accepted_position {log : KeyedLog α} {i : Nat} {a : α} (h : log.entries[i]? = some a) :
    (log.accepted key (key a))[log.position key i a]? = some a := by
  have htake : entriesOf key (key a) (log.entries.take (i + 1)) =
      entriesOf key (key a) (log.entries.take i) ++ [a] := by
    rw [List.take_add_one, h]
    exact (entriesOf_concat key (key a) _ a).trans (if_pos rfl)
  obtain ⟨rest, hrest⟩ := entriesOf_take_prefix key (key a) log.entries (i + 1)
  have hfound : (entriesOf key (key a) (log.entries.take (i + 1)))[log.position key i a]? =
      some a := by
    rw [htake, position]
    simp
  unfold accepted
  rw [← hrest, List.getElem?_append_left (List.getElem?_eq_some_iff.mp hfound).1]
  exact hfound

/-- A committed entry lies among the committed entries of its key. -/
theorem position_lt_committed {log : KeyedLog α} {i : Nat} {a : α}
    (h : log.entries[i]? = some a) (hi : i < log.applied) :
    log.position key i a < (log.committed key (key a)).length := by
  have htake : entriesOf key (key a) (log.entries.take (i + 1)) =
      entriesOf key (key a) (log.entries.take i) ++ [a] := by
    rw [List.take_add_one, h]
    exact (entriesOf_concat key (key a) _ a).trans (if_pos rfl)
  have hprefix := List.IsPrefix.length_le <|
    entriesOf_take_prefix key (key a) (log.entries.take log.applied) (i + 1)
  rw [List.take_take, Nat.min_eq_left hi, htake, List.length_append,
    List.length_singleton] at hprefix
  exact hprefix

/-- **Every position of a key is some entry's**, and one behind the committed entries of
the key is that of an entry that is not committed. -/
theorem exists_of_position {log : KeyedLog α} {k : κ} {n : Nat}
    (hlow : (log.committed key k).length ≤ n) (hhigh : n < (log.accepted key k).length) :
    ∃ i a, log.applied ≤ i ∧ log.entries[i]? = some a ∧ key a = k ∧
      log.position key i a = n := by
  obtain ⟨i, a, hi, rfl, hn⟩ := exists_of_lt_entriesOf key hhigh
  refine ⟨i, a, ?_, hi, rfl, hn⟩
  by_contra hearly
  have hlt := position_lt_committed key hi (Nat.lt_of_not_le hearly)
  have hposition : log.position key i a = n := hn
  omega

/-- **No entry moves**: a key's committed entries are the first of its entries. -/
theorem committed_prefix (log : KeyedLog α) (k : κ) :
    log.committed key k <+: log.accepted key k :=
  entriesOf_take_prefix key k log.entries log.applied

/-- There are no more committed entries of a key than committed entries. -/
theorem length_committed_le (log : KeyedLog α) (k : κ) :
    (log.committed key k).length ≤ log.applied := by
  have hfilter : (log.committed key k).length ≤ (log.entries.take log.applied).length :=
    List.length_filter_le _ _
  have htake := List.length_take_le log.applied log.entries
  omega

/-- The next entry to commit is accepted behind the committed ones of its key. -/
theorem length_committed_lt {log : KeyedLog α} {a : α} (h : log.next? = some a) :
    (log.committed key (key a)).length < (log.accepted key (key a)).length := by
  have hprefix := (log.commitNext.committed_prefix key (key a)).length_le
  rw [committed_commitNext key h, if_pos rfl, List.length_append, accepted_commitNext] at hprefix
  simp only [List.length_cons, List.length_nil] at hprefix
  omega

end KeyedLog

end WalServer.Lib
