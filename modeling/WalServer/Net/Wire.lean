import WalServer.Net.Traffic

/-!
# `WalServer.Net.Wire`: the client wire format

What a client sends and what it gets back, as streams of frames. `decode_response`
reads frames as `decode_request` does (`responseFraming`), except that it calls a frame
that is not complete an error, `BufferTooSmall`.

`clientWire_bijective` is the format both ways: what was encoded is decoded whatever
follows it, no part of it is, and a buffer that is decoded begins with the image of
what it is decoded to.
-/

set_option autoImplicit false

namespace WalServer.Net

open WalServer.Lib WalServer.Protocol

/-! ### Responses as frames -/

/-- A response takes the length of its image. -/
theorem length_of_decodeResponse {buf : Bytes} {resp : Response}
    (h : decodeResponse buf = .ok resp) :
    responseHeaderSize ≤ (encodeResponse resp).length ∧
      (encodeResponse resp).length ≤ buf.length :=
  ⟨by rw [length_encodeResponse]; omega, (take_of_decodeResponse h).1⟩

/-- **What was decoded stays decoded** when more follows. -/
theorem decodeResponse_append {buf : Bytes} (more : Bytes)
    (h : decodeResponse buf ≠ .error .bufferTooSmall) :
    decodeResponse (buf ++ more) = decodeResponse buf := by
  by_cases hshort : buf.length < responseHeaderSize
  · exact absurd (by unfold decodeResponse; rw [if_pos hshort]) h
  · have hwindow : ∀ i j, j ≤ responseHeaderSize → slice (buf ++ more) i j = slice buf i j :=
      fun i j hj => slice_append_left (by omega)
    have hbyte : ∀ i, i < responseHeaderSize → (buf ++ more).getD i 0 = buf.getD i 0 := by
      intro i hi
      rw [List.getD_eq_getElem?_getD, List.getElem?_append_left (by omega),
        ← List.getD_eq_getElem?_getD]
    have hlong : ¬ (buf ++ more).length < responseHeaderSize := by
      rw [List.length_append]
      omega
    unfold decodeResponse at h ⊢
    simp only [if_neg hshort, if_neg hlong, hwindow 0 4 (by decide), hbyte 4 (by decide),
      hbyte 5 (by decide), hwindow 6 14 (by decide), hwindow 14 22 (by decide),
      hwindow 22 26 (by decide)] at h ⊢
    split
    · rfl
    rename_i hmagicOk
    rw [if_neg hmagicOk] at h
    split
    · rfl
    rename_i hversionOk
    rw [if_neg hversionOk] at h
    split
    · rfl
    rename_i status hstatusOk
    simp only [hstatusOk] at h
    -- The payload was there, so it still is.
    by_cases hroom : buf.length < responseHeaderSize + fromBeBytes (slice buf 22 26)
    · rw [if_pos hroom] at h
      exact absurd rfl h
    · have hroom' : ¬ (buf ++ more).length <
          responseHeaderSize + fromBeBytes (slice buf 22 26) := by
        rw [List.length_append]
        omega
      rw [if_neg hroom, if_neg hroom', slice_append_left (Nat.le_of_not_lt hroom)]

/-- What `decode_response` says of a buffer. The length of a response is that of its
image. -/
def decodedResponse (buf : Bytes) : Decoded Response ProtocolError :=
  match decodeResponse buf with
  | .ok resp               => .frame resp (encodeResponse resp).length
  | .error .bufferTooSmall => .more
  | .error e               => .bad e

theorem decodedResponse_frame {buf : Bytes} {resp : Response} {n : Nat} :
    decodedResponse buf = .frame resp n ↔
      decodeResponse buf = .ok resp ∧ n = (encodeResponse resp).length := by
  unfold decodedResponse
  split <;> simp_all
  exact fun _ => eq_comm

theorem decodedResponse_more {buf : Bytes} :
    decodedResponse buf = .more ↔ decodeResponse buf = .error .bufferTooSmall := by
  unfold decodedResponse
  split <;> simp_all

theorem decodedResponse_bad {buf : Bytes} {e : ProtocolError} :
    decodedResponse buf = .bad e ↔ decodeResponse buf = .error e ∧ e ≠ .bufferTooSmall := by
  unfold decodedResponse
  split
  · simp_all
  · simp_all
  · rename_i e' hne hdecode
    simp only [Decoded.bad.injEq, hdecode, Except.error.injEq]
    constructor
    · rintro rfl
      exact ⟨rfl, fun heq => hne (by rw [heq])⟩
    · exact fun h => h.1

/-- Responses as the frames of a stream. -/
def responseFraming : Framing UInt8 Response ProtocolError where
  decode := decodedResponse
  decode_nil := rfl
  takes h := by
    obtain ⟨hdecode, rfl⟩ := decodedResponse_frame.mp h
    obtain ⟨hlow, hhigh⟩ := length_of_decodeResponse hdecode
    unfold responseHeaderSize at hlow
    exact ⟨by omega, hhigh⟩
  frame_append more h := by
    obtain ⟨hdecode, hlength⟩ := decodedResponse_frame.mp h
    rw [decodedResponse_frame, decodeResponse_append more (by rw [hdecode]; simp)]
    exact ⟨hdecode, hlength⟩
  bad_append more h := by
    obtain ⟨hdecode, hne⟩ := decodedResponse_bad.mp h
    rw [decodedResponse_bad, decodeResponse_append more (by rw [hdecode]; simpa using hne)]
    exact ⟨hdecode, hne⟩

theorem decode_responseFraming (buf : Bytes) :
    responseFraming.decode buf = decodedResponse buf := rfl

/-! ### The format -/

/-- A part of a request's image is not complete. -/
theorem decodeRequest_of_prefix {req : Request} (h : req.Fits) {part : Bytes}
    (hpart : part <+: encodeRequest req) (hne : part ≠ encodeRequest req) :
    decodeRequest part = .ok none := by
  have hframe : requestFraming.decode (encodeRequest req) =
      .frame req (encodeRequest req).length := by
    rw [decode_requestFraming, decodedRequest_frame]
    exact decodeRequest_encodeRequest h
  have hmore := Framing.more_of_prefix hframe hpart hne
  rwa [decode_requestFraming, decodedRequest_more] at hmore

/-- A part of a response's image is too small. -/
theorem decodeResponse_of_prefix {resp : Response} (h : resp.Fits) {part : Bytes}
    (hpart : part <+: encodeResponse resp) (hne : part ≠ encodeResponse resp) :
    decodeResponse part = .error .bufferTooSmall := by
  have hframe : responseFraming.decode (encodeResponse resp) =
      .frame resp (encodeResponse resp).length := by
    rw [decode_responseFraming, decodedResponse_frame]
    exact ⟨decodeResponse_encodeResponse h, rfl⟩
  have hmore := Framing.more_of_prefix hframe hpart hne
  rwa [decode_responseFraming, decodedResponse_more] at hmore

/-- A buffer begins with what its first bytes are. -/
theorem prefix_of_take_eq {buf image : Bytes} {n : Nat} (h : buf.take n = image) :
    image <+: buf :=
  h ▸ List.take_prefix n buf

/-- **The client wire format** loses nothing and has no frame within another. -/
theorem clientWire_bijective :
    (∀ req : Request, req.Fits →
      (∀ t, decodeRequest (encodeRequest req ++ t) =
        .ok (some (req, (encodeRequest req).length))) ∧
      ∀ part, part <+: encodeRequest req → part ≠ encodeRequest req →
        decodeRequest part = .ok none) ∧
    (∀ buf req n, decodeRequest buf = .ok (some (req, n)) →
      n = (encodeRequest req).length ∧ encodeRequest req <+: buf) ∧
    (∀ resp : Response, resp.Fits →
      (∀ t, decodeResponse (encodeResponse resp ++ t) = .ok resp) ∧
      ∀ part, part <+: encodeResponse resp → part ≠ encodeResponse resp →
        decodeResponse part = .error .bufferTooSmall) ∧
    ∀ buf resp, decodeResponse buf = .ok resp → encodeResponse resp <+: buf := by
  refine ⟨fun req h => ⟨fun t => ?_, fun part => decodeRequest_of_prefix h⟩, ?_,
    fun resp h => ⟨fun t => ?_, fun part => decodeResponse_of_prefix h⟩, ?_⟩
  · have hdecode := decodeRequest_encodeRequest h
    rw [decodeRequest_append t (by rw [hdecode]; simp), hdecode]
  · intro buf req n h
    obtain ⟨hlength, htake⟩ := take_of_decodeRequest h
    exact ⟨hlength, prefix_of_take_eq htake⟩
  · have hdecode := decodeResponse_encodeResponse h
    rw [decodeResponse_append t (by rw [hdecode]; simp), hdecode]
  · intro buf resp h
    exact prefix_of_take_eq (take_of_decodeResponse h).2

/-- An append of three bytes with the start of another behind it, and the answer to it. -/
theorem clientWire_bijective_append :
    decodeRequest (encodeRequest ⟨.write, 99, 7, 0, [1, 2, 3]⟩ ++ [0x57, 0x41]) =
        .ok (some (⟨.write, 99, 7, 0, [1, 2, 3]⟩, 37)) ∧
      decodeResponse (encodeResponse ⟨.ok, 7, 42, []⟩ ++ [0x57]) = .ok ⟨.ok, 7, 42, []⟩ :=
  ⟨(clientWire_bijective.1 ⟨.write, 99, 7, 0, [1, 2, 3]⟩
      ⟨by decide, by decide, by decide, by decide⟩).1 [0x57, 0x41],
    (clientWire_bijective.2.2.1 ⟨.ok, 7, 42, []⟩ ⟨by decide, by decide, by decide⟩).1 [0x57]⟩

end WalServer.Net
