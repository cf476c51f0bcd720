import Mathlib.Data.List.Basic
import Mathlib.Tactic.Ring

/-!
# `WalServer.Lib.BigEndian`: fixed-width big-endian integers in byte lists

`toBeBytes w n` is the `w`-byte big-endian image of `n` (its residue modulo
`256 ^ w`) and `fromBeBytes` reads a byte list back as a number. The theorems:

* `fromBeBytes_toBeBytes`: reading an image back gives the residue, so the
  number itself when it fits (`fromBeBytes_toBeBytes_of_lt`).
* `toBeBytes_fromBeBytes`: every byte list is the image of its own value.
* `slice_flatten`: the window of a record that lies exactly over one of its
  parts is that part. A decoder that reads fields at fixed offsets is verified
  against a concatenating encoder with this lemma alone.
* `slice_append_slice`, `toBeBytes_slice`: the other way round, the images of the
  fields that were read make up what they were read from.
-/

set_option autoImplicit false

namespace WalServer.Lib

/-- A byte string. -/
abbrev Bytes := List UInt8

/-- The `w`-byte big-endian image of `n`, most significant byte first. -/
def toBeBytes : Nat → Nat → Bytes
  | 0,     _ => []
  | w + 1, n => UInt8.ofNat (n / 256 ^ w) :: toBeBytes w n

/-- The number a byte list denotes, most significant byte first. -/
def fromBeBytes : Bytes → Nat
  | []      => 0
  | b :: bs => b.toNat * 256 ^ bs.length + fromBeBytes bs

/-- The window `[i, j)` of a byte list, the Rust slice `buf[i..j]`. -/
def slice (buf : Bytes) (i j : Nat) : Bytes := (buf.drop i).take (j - i)

@[simp] theorem length_toBeBytes (w n : Nat) : (toBeBytes w n).length = w := by
  induction w with
  | zero => rfl
  | succ w ih => simp [toBeBytes, ih]

/-- A byte list's value is smaller than its own width. -/
theorem fromBeBytes_lt (bs : Bytes) : fromBeBytes bs < 256 ^ bs.length := by
  induction bs with
  | nil => simp [fromBeBytes]
  | cons b bs ih =>
      have hb : b.toNat ≤ 255 := by have := b.toNat_lt; omega
      have hmul : b.toNat * 256 ^ bs.length ≤ 255 * 256 ^ bs.length :=
        Nat.mul_le_mul_right _ hb
      rw [fromBeBytes, List.length_cons, Nat.pow_succ]
      omega

/-- Reading an image back gives the residue modulo the width. -/
theorem fromBeBytes_toBeBytes (w n : Nat) :
    fromBeBytes (toBeBytes w n) = n % 256 ^ w := by
  induction w with
  | zero => simp [toBeBytes, fromBeBytes, Nat.mod_one]
  | succ w ih =>
      have hsplit : n % 256 ^ (w + 1) = n % 256 ^ w + 256 ^ w * (n / 256 ^ w % 256) := by
        rw [Nat.pow_succ 256 w]
        exact Nat.mod_mul
      rw [toBeBytes, fromBeBytes, length_toBeBytes, ih, UInt8.toNat_ofNat', hsplit,
        Nat.mul_comm (256 ^ w), Nat.add_comm]

/-- Reading back the image of a number that fits gives the number. -/
theorem fromBeBytes_toBeBytes_of_lt {w n : Nat} (h : n < 256 ^ w) :
    fromBeBytes (toBeBytes w n) = n := by
  rw [fromBeBytes_toBeBytes, Nat.mod_eq_of_lt h]

/-- The image depends on the residue modulo the width only. -/
theorem toBeBytes_add_mul (w n k : Nat) : toBeBytes w (k * 256 ^ w + n) = toBeBytes w n := by
  induction w generalizing k with
  | zero => rfl
  | succ w ih =>
      have hpow : k * 256 ^ (w + 1) = k * 256 * 256 ^ w := by rw [Nat.pow_succ]; ring
      have hpos : 0 < 256 ^ w := Nat.pow_pos (by omega)
      rw [toBeBytes, toBeBytes, hpow, ih (k * 256), Nat.add_comm, Nat.add_mul_div_right _ _ hpos]
      congr 1
      apply UInt8.toNat_inj.mp
      rw [UInt8.toNat_ofNat', UInt8.toNat_ofNat']
      omega

/-- Every byte list is the image of its own value. -/
theorem toBeBytes_fromBeBytes (bs : Bytes) :
    toBeBytes bs.length (fromBeBytes bs) = bs := by
  induction bs with
  | nil => rfl
  | cons b bs ih =>
      have hlt := fromBeBytes_lt bs
      have hpos : 0 < 256 ^ bs.length := Nat.pow_pos (by omega)
      have hdiv : fromBeBytes (b :: bs) / 256 ^ bs.length = b.toNat := by
        rw [fromBeBytes, Nat.add_comm, Nat.add_mul_div_right _ _ hpos, Nat.div_eq_of_lt hlt,
          Nat.zero_add]
      rw [List.length_cons, toBeBytes, hdiv, UInt8.ofNat_toNat, fromBeBytes,
        toBeBytes_add_mul, ih]

/-! ### Windows of a concatenation -/

@[simp] theorem length_slice (buf : Bytes) (i j : Nat) :
    (slice buf i j).length = min (j - i) (buf.length - i) := by
  simp [slice]

/-- A window's value fits the window's width. -/
theorem fromBeBytes_slice_lt (buf : Bytes) (i w : Nat) :
    fromBeBytes (slice buf i (i + w)) < 256 ^ w := by
  have hlt := fromBeBytes_lt (slice buf i (i + w))
  have hwidth : (slice buf i (i + w)).length ≤ w := by
    rw [length_slice]
    omega
  exact hlt.trans_le (Nat.pow_le_pow_right (by decide) hwidth)

/-- The window over the middle part of a concatenation is that part. -/
theorem slice_append_mid {pre mid post : Bytes} {i j : Nat}
    (hi : pre.length = i) (hj : i + mid.length = j) :
    slice (pre ++ (mid ++ post)) i j = mid := by
  have hlen : j - i = mid.length := by omega
  rw [slice, hlen, ← hi, List.drop_left, List.take_left]

/-- The window over one part of a record laid out as a list of parts. -/
theorem slice_flatten (pre : List Bytes) (mid : Bytes) (post : List Bytes) {i j : Nat}
    (hi : (pre.map List.length).sum = i) (hj : i + mid.length = j) :
    slice (pre ++ mid :: post).flatten i j = mid := by
  rw [List.flatten_append, List.flatten_cons]
  exact slice_append_mid (by rw [List.length_flatten, hi]) hj

/-- A window that ends inside the first part does not see the second. -/
theorem slice_append_left {xs ys : Bytes} {i j : Nat} (h : j ≤ xs.length) :
    slice (xs ++ ys) i j = slice xs i j := by
  rcases Nat.lt_or_ge j i with hij | hij
  · have h0 : j - i = 0 := by omega
    simp [slice, h0]
  · rw [slice, slice, List.drop_append_of_le_length (by omega),
      List.take_append_of_le_length (by rw [List.length_drop]; omega)]

/-- A window that ends before a cut does not see the cut. -/
theorem slice_take {xs : Bytes} {i j n : Nat} (hj : j ≤ n) :
    slice (xs.take n) i j = slice xs i j := by
  rw [slice, slice, List.drop_take, List.take_take]
  congr 1
  omega

/-- A window from the start is a prefix. -/
theorem slice_zero (buf : Bytes) (j : Nat) : slice buf 0 j = buf.take j := rfl

/-- Windows that meet make one window. -/
theorem slice_append_slice (buf : Bytes) {i j k : Nat} (hij : i ≤ j) (hjk : j ≤ k) :
    slice buf i j ++ slice buf j k = slice buf i k := by
  have hsum : k - i = (j - i) + (k - j) := by omega
  have hdrop : buf.drop j = (buf.drop i).drop (j - i) := by
    rw [List.drop_drop]
    congr 1
    omega
  rw [slice, slice, slice, hsum, hdrop, ← List.take_add]

/-- The window over two bytes. -/
theorem slice_two {buf : Bytes} {i : Nat} (h : i + 2 ≤ buf.length) :
    slice buf i (i + 2) = [buf.getD i 0, buf.getD (i + 1) 0] := by
  have hwidth : i + 2 - i = 2 := by omega
  have hbyte : ∀ k, k < buf.length → buf.drop k = buf.getD k 0 :: buf.drop (k + 1) := by
    intro k hk
    rw [List.drop_eq_getElem_cons hk, List.getD_eq_getElem?_getD, List.getElem?_eq_getElem hk,
      Option.getD_some]
  rw [slice, hwidth, hbyte i (by omega), hbyte (i + 1) (by omega)]
  rfl

/-- A number that was read from a window has the window as its image. -/
theorem toBeBytes_slice {buf : Bytes} {w i j : Nat} (hw : i + w = j) (hj : j ≤ buf.length) :
    toBeBytes w (fromBeBytes (slice buf i j)) = slice buf i j := by
  have hlen : (slice buf i j).length = w := by
    rw [length_slice]
    omega
  conv => lhs; rw [← hlen]
  exact toBeBytes_fromBeBytes _

end WalServer.Lib
