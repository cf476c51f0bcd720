import Mathlib.Data.List.DropRight

/-!
# `WalServer.Lib.Decimal`: numbers in texts

A text is a list of characters. Numbers are written in decimal, padded to a width or not
(`padded`), and read with a bound on what the reader's type holds, after an optional sign
(`parseUnsigned`). What was written is read back (`parseUnsigned_padded`). `splitOnce` cuts
a text at the first of some characters, and `trim` takes the white space off both ends.
-/

set_option autoImplicit false

namespace WalServer.Lib

/-- A text. -/
abbrev Text := List Char

/-- The number that a text of digits denotes, if it is below the bound. -/
def parseDigits (bound : Nat) (s : Text) : Option Nat :=
  if s ≠ [] ∧ s.all Char.isDigit then
    if Nat.ofDigitChars 10 s 0 < bound then some (Nat.ofDigitChars 10 s 0) else none
  else none

/-- Reads an unsigned number that is below the bound. -/
def parseUnsigned (bound : Nat) : Text → Option Nat
  | '+' :: s => parseDigits bound s
  | s        => parseDigits bound s

/-- A number with zeros in front of it, up to the width. -/
def padded (width n : Nat) : Text :=
  List.replicate (width - (Nat.toDigits 10 n).length) '0' ++ Nat.toDigits 10 n

/-- Cuts a text at the first place with the character. -/
def splitOnce (sep : Char) : Text → Option (Text × Text)
  | []     => none
  | c :: s => if c = sep then some ([], s) else (splitOnce sep s).map fun p => (c :: p.1, p.2)

/-- The characters that count as white space: the Unicode property of that name. -/
def isWhitespace (c : Char) : Bool :=
  let n := c.toNat
  (9 ≤ n && n ≤ 13) || n == 0x20 || n == 0x85 || n == 0xA0 || n == 0x1680 ||
    (0x2000 ≤ n && n ≤ 0x200A) || n == 0x2028 || n == 0x2029 || n == 0x202F || n == 0x205F ||
    n == 0x3000

/-- Takes the white space off both ends of a text. -/
def trim (s : Text) : Text := (s.dropWhile isWhitespace).rdropWhile isWhitespace

/-- A written number consists of digits. -/
theorem isDigit_of_mem_padded {width n : Nat} {c : Char} (h : c ∈ padded width n) :
    c.isDigit = true := by
  rcases List.mem_append.mp h with hzero | hdigit
  · rw [List.eq_of_mem_replicate hzero]
    rfl
  · exact Nat.isDigit_of_mem_toDigits (by decide) (by decide) hdigit

theorem padded_ne_nil (width n : Nat) : padded width n ≠ [] :=
  List.append_ne_nil_of_right_ne_nil _ Nat.toDigits_ne_nil

/-- A text that starts with no sign. -/
theorem parseUnsigned_of_digits (bound : Nat) {s : Text} (h : ∀ c ∈ s, c.isDigit = true) :
    parseUnsigned bound s = parseDigits bound s := by
  unfold parseUnsigned
  split
  · exact absurd (h '+' List.mem_cons_self) (by decide)
  · rfl

/-- **A written number is read back**, if it is below the bound. -/
theorem parseUnsigned_padded {bound n : Nat} (h : n < bound) (width : Nat) :
    parseUnsigned bound (padded width n) = some n := by
  have hvalue : Nat.ofDigitChars 10 (padded width n) 0 = n := by
    rw [padded, Nat.ofDigitChars_append, Nat.ofDigitChars_replicate_zero, Nat.mul_zero,
      Nat.ofDigitChars_ten_toDigits]
  rw [parseUnsigned_of_digits bound fun c hc => isDigit_of_mem_padded hc, parseDigits,
    if_pos ⟨padded_ne_nil width n, List.all_eq_true.mpr fun c hc => isDigit_of_mem_padded hc⟩,
    hvalue, if_pos h]

/-- The same without padding. -/
theorem parseUnsigned_toDigits {bound n : Nat} (h : n < bound) :
    parseUnsigned bound (Nat.toDigits 10 n) = some n := by
  have hpadded : padded 0 n = Nat.toDigits 10 n := by
    rw [padded, Nat.zero_sub, List.replicate_zero, List.nil_append]
  rw [← hpadded]
  exact parseUnsigned_padded h 0

/-- **The first place** with the character is where it was put. -/
theorem splitOnce_append {sep : Char} {s : Text} (h : sep ∉ s) (t : Text) :
    splitOnce sep (s ++ sep :: t) = some (s, t) := by
  induction s with
  | nil => rw [List.nil_append, splitOnce, if_pos rfl]
  | cons c s ih =>
      rw [List.mem_cons, not_or] at h
      rw [List.cons_append, splitOnce, if_neg (Ne.symm h.1), ih h.2]
      rfl

/-- A text without the character is not cut. -/
theorem splitOnce_of_notMem {sep : Char} {s : Text} (h : sep ∉ s) : splitOnce sep s = none := by
  induction s with
  | nil => rfl
  | cons c s ih =>
      rw [List.mem_cons, not_or] at h
      rw [splitOnce, if_neg (Ne.symm h.1), ih h.2]
      rfl

/-- A digit is no white space. -/
theorem isWhitespace_of_isDigit {c : Char} (h : c.isDigit = true) : isWhitespace c = false := by
  have hrange : 48 ≤ c.toNat ∧ c.toNat ≤ 57 := by
    simp only [Char.isDigit, Bool.and_eq_true, decide_eq_true_eq] at h
    exact h
  simp only [isWhitespace, Bool.or_eq_false_iff, Bool.and_eq_false_iff, decide_eq_false_iff_not,
    beq_eq_false_iff_ne]
  omega

/-- **Trimming** takes off the white space behind a text that has none in it. -/
theorem trim_append {s w : Text} (hs : ∀ c ∈ s, isWhitespace c = false)
    (hw : ∀ c ∈ w, isWhitespace c = true) : trim (s ++ w) = s := by
  have hback : (s ++ w).rdropWhile isWhitespace = s :=
    calc (s ++ w).rdropWhile isWhitespace
        = ((w.reverse ++ s.reverse).dropWhile isWhitespace).reverse := by
          rw [List.rdropWhile, List.reverse_append]
      _ = s.rdropWhile isWhitespace := by
          rw [List.dropWhile_append_of_pos fun c hc => hw c (List.mem_reverse.mp hc),
            List.rdropWhile]
      _ = s := List.rdropWhile_eq_self_iff.mpr fun hne => by
          rw [hs _ (List.getLast_mem hne)]
          decide
  cases s with
  | nil => rw [trim, List.nil_append, List.dropWhile_eq_nil_iff.mpr hw, List.rdropWhile_nil]
  | cons c s =>
      have hc := hs c List.mem_cons_self
      rw [trim, List.cons_append, List.dropWhile_cons_of_neg (by rw [hc]; decide)]
      exact hback

end WalServer.Lib
