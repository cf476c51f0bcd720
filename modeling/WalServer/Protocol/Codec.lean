import WalServer.Protocol.Types

/-!
# `WalServer.Protocol.Codec`: byte images of the client protocol

`protocol/codec.rs`: requests, responses and the body of a status response, encoded
and decoded. The server decodes a request from the front of a connection's buffer, a
client a response from the front of its own. The round trips are here, for fields that
fit (`decodeRequest_encodeRequest`, `decodeResponse_encodeResponse`,
`decodeStreamStatusPayload_encode`), and so is the way back: a buffer from which a
message was decoded begins with the image of that message (`take_of_decodeRequest`,
`take_of_decodeResponse`).
-/

set_option autoImplicit false

namespace WalServer.Protocol

open WalServer.Lib

/-- Why bytes are refused. -/
inductive ProtocolError where
  | badMagic (magic : Nat)
  | badVersion (version : UInt8)
  | badOpCode (op : UInt8)
  | bufferTooSmall
deriving DecidableEq, Repr

/-- The first four bytes of a frame, `WALS` in ASCII. -/
def magic : Nat := 0x57414C53

/-- The version of the protocol. -/
def version : UInt8 := 1

/-- Magic, version, operation, stream id, epoch, offset and payload length. -/
def requestHeaderSize : Nat := 34

/-- Magic, version, status, epoch, offset and payload length. -/
def responseHeaderSize : Nat := 26

/-- Decodes a request from the front of a buffer, and says how many bytes it took.
A frame that is not complete yet is no error. -/
def decodeRequest (buf : Bytes) : Except ProtocolError (Option (Request × Nat)) :=
  if buf.length < requestHeaderSize then .ok none
  else if fromBeBytes (slice buf 0 4) ≠ magic then .error (.badMagic (fromBeBytes (slice buf 0 4)))
  else if buf.getD 4 0 ≠ version then .error (.badVersion (buf.getD 4 0))
  else
    match OpCode.fromU8 (buf.getD 5 0) with
    | none    => .error (.badOpCode (buf.getD 5 0))
    | some op =>
        let payloadLen := fromBeBytes (slice buf 30 34)
        let total := requestHeaderSize + payloadLen
        if buf.length < total then .ok none
        else .ok (some ({
          op := op
          streamId := fromBeBytes (slice buf 6 14)
          epoch := fromBeBytes (slice buf 14 22)
          offset := fromBeBytes (slice buf 22 30)
          payload := slice buf requestHeaderSize total }, total))

/-- The byte image of a request. -/
def encodeRequest (req : Request) : Bytes :=
  List.flatten [toBeBytes 4 magic, [version, req.op.toU8], toBeBytes 8 req.streamId,
    toBeBytes 8 req.epoch, toBeBytes 8 req.offset, toBeBytes 4 req.payload.length, req.payload]

/-- The byte image of a response. -/
def encodeResponse (resp : Response) : Bytes :=
  List.flatten [toBeBytes 4 magic, [version, resp.status.toU8], toBeBytes 8 resp.epoch,
    toBeBytes 8 resp.offset, toBeBytes 4 resp.payload.length, resp.payload]

/-- Decodes a response from the front of a buffer. -/
def decodeResponse (buf : Bytes) : Except ProtocolError Response :=
  if buf.length < responseHeaderSize then .error .bufferTooSmall
  else if fromBeBytes (slice buf 0 4) ≠ magic then .error (.badMagic (fromBeBytes (slice buf 0 4)))
  else if buf.getD 4 0 ≠ version then .error (.badVersion (buf.getD 4 0))
  else
    match Status.fromU8 (buf.getD 5 0) with
    | none        => .error (.badOpCode (buf.getD 5 0))
    | some status =>
        let payloadLen := fromBeBytes (slice buf 22 26)
        if buf.length < responseHeaderSize + payloadLen then .error .bufferTooSmall
        else .ok {
          status := status
          epoch := fromBeBytes (slice buf 6 14)
          offset := fromBeBytes (slice buf 14 22)
          payload := slice buf responseHeaderSize (responseHeaderSize + payloadLen) }

/-- The byte image of a status response's body. -/
def encodeStreamStatusPayload (p : StreamStatusPayload) : Bytes :=
  List.flatten [toBeBytes 8 p.nextStreamLsn, toBeBytes 8 p.commitStreamLsn,
    toBeBytes 8 p.consumedStreamLsn, toBeBytes 8 p.commitIndex, toBeBytes 8 p.lastApplied]

/-- Reads a status response's body from the start of a buffer. -/
def decodeStreamStatusPayload (buf : Bytes) : Except ProtocolError StreamStatusPayload :=
  if buf.length < 40 then .error .bufferTooSmall
  else .ok {
    nextStreamLsn := fromBeBytes (slice buf 0 8)
    commitStreamLsn := fromBeBytes (slice buf 8 16)
    consumedStreamLsn := fromBeBytes (slice buf 16 24)
    commitIndex := fromBeBytes (slice buf 24 32)
    lastApplied := fromBeBytes (slice buf 32 40) }

/-- The image of a request is its header and its payload. -/
theorem length_encodeRequest (req : Request) :
    (encodeRequest req).length = requestHeaderSize + req.payload.length := by
  simp [encodeRequest, requestHeaderSize]
  omega

/-- **The request round trip.** -/
theorem decodeRequest_encodeRequest {req : Request} (h : req.Fits) :
    decodeRequest (encodeRequest req) = .ok (some (req, (encodeRequest req).length)) := by
  have hlen := length_encodeRequest req
  have hmagic : slice (encodeRequest req) 0 4 = toBeBytes 4 magic :=
    slice_flatten [] _ _ (by simp) (by simp)
  have hversion : (encodeRequest req).getD 4 0 = version := rfl
  have hop : (encodeRequest req).getD 5 0 = req.op.toU8 := rfl
  have hstream : slice (encodeRequest req) 6 14 = toBeBytes 8 req.streamId :=
    slice_flatten [toBeBytes 4 magic, [version, req.op.toU8]] _ _ (by simp) (by simp)
  have hepoch : slice (encodeRequest req) 14 22 = toBeBytes 8 req.epoch :=
    slice_flatten [toBeBytes 4 magic, [version, req.op.toU8], toBeBytes 8 req.streamId] _ _
      (by simp) (by simp)
  have hoffset : slice (encodeRequest req) 22 30 = toBeBytes 8 req.offset :=
    slice_flatten [toBeBytes 4 magic, [version, req.op.toU8], toBeBytes 8 req.streamId,
      toBeBytes 8 req.epoch] _ _ (by simp) (by simp)
  have hsize : slice (encodeRequest req) 30 34 = toBeBytes 4 req.payload.length :=
    slice_flatten [toBeBytes 4 magic, [version, req.op.toU8], toBeBytes 8 req.streamId,
      toBeBytes 8 req.epoch, toBeBytes 8 req.offset] _ _ (by simp) (by simp)
  have hpayload : slice (encodeRequest req) requestHeaderSize
      (requestHeaderSize + req.payload.length) = req.payload :=
    slice_flatten [toBeBytes 4 magic, [version, req.op.toU8], toBeBytes 8 req.streamId,
      toBeBytes 8 req.epoch, toBeBytes 8 req.offset, toBeBytes 4 req.payload.length] _ _
      (by simp [requestHeaderSize]) rfl
  have hmagicOk : fromBeBytes (toBeBytes 4 magic) = magic := by decide
  unfold decodeRequest
  simp only [hmagic, hmagicOk, hversion, hop, OpCode.fromU8_toU8, hsize,
    fromBeBytes_toBeBytes_of_lt h.payload, hstream, hepoch, hoffset, hpayload,
    fromBeBytes_toBeBytes_of_lt h.streamId, fromBeBytes_toBeBytes_of_lt h.epoch,
    fromBeBytes_toBeBytes_of_lt h.offset, hlen]
  rw [if_neg (by omega), if_neg (by simp), if_neg (by simp), if_neg (by omega)]

/-- The image of a response is its header and its payload. -/
theorem length_encodeResponse (resp : Response) :
    (encodeResponse resp).length = responseHeaderSize + resp.payload.length := by
  simp [encodeResponse, responseHeaderSize]
  omega

/-- **The response round trip.** -/
theorem decodeResponse_encodeResponse {resp : Response} (h : resp.Fits) :
    decodeResponse (encodeResponse resp) = .ok resp := by
  have hlen := length_encodeResponse resp
  have hmagic : slice (encodeResponse resp) 0 4 = toBeBytes 4 magic :=
    slice_flatten [] _ _ (by simp) (by simp)
  have hversion : (encodeResponse resp).getD 4 0 = version := rfl
  have hstatus : (encodeResponse resp).getD 5 0 = resp.status.toU8 := rfl
  have hepoch : slice (encodeResponse resp) 6 14 = toBeBytes 8 resp.epoch :=
    slice_flatten [toBeBytes 4 magic, [version, resp.status.toU8]] _ _ (by simp) (by simp)
  have hoffset : slice (encodeResponse resp) 14 22 = toBeBytes 8 resp.offset :=
    slice_flatten [toBeBytes 4 magic, [version, resp.status.toU8], toBeBytes 8 resp.epoch] _ _
      (by simp) (by simp)
  have hsize : slice (encodeResponse resp) 22 26 = toBeBytes 4 resp.payload.length :=
    slice_flatten [toBeBytes 4 magic, [version, resp.status.toU8], toBeBytes 8 resp.epoch,
      toBeBytes 8 resp.offset] _ _ (by simp) (by simp)
  have hpayload : slice (encodeResponse resp) responseHeaderSize
      (responseHeaderSize + resp.payload.length) = resp.payload :=
    slice_flatten [toBeBytes 4 magic, [version, resp.status.toU8], toBeBytes 8 resp.epoch,
      toBeBytes 8 resp.offset, toBeBytes 4 resp.payload.length] _ _
      (by simp [responseHeaderSize]) rfl
  have hmagicOk : fromBeBytes (toBeBytes 4 magic) = magic := by decide
  unfold decodeResponse
  simp only [hmagic, hmagicOk, hversion, hstatus, Status.fromU8_toU8, hsize,
    fromBeBytes_toBeBytes_of_lt h.payload, hepoch, hoffset, hpayload,
    fromBeBytes_toBeBytes_of_lt h.epoch, fromBeBytes_toBeBytes_of_lt h.offset, hlen]
  rw [if_neg (by omega), if_neg (by simp), if_neg (by simp), if_neg (by omega)]

/-- **What an accepted buffer begins with**: a header whose magic, version and operation
are known, and a payload of the length it says. -/
theorem decodeRequest_eq_ok {buf : Bytes} {req : Request} {n : Nat}
    (h : decodeRequest buf = .ok (some (req, n))) :
    fromBeBytes (slice buf 0 4) = magic ∧ buf.getD 4 0 = version ∧
      buf.getD 5 0 = req.op.toU8 ∧ n = 34 + fromBeBytes (slice buf 30 34) ∧ n ≤ buf.length ∧
      req = ⟨req.op, fromBeBytes (slice buf 6 14), fromBeBytes (slice buf 14 22),
        fromBeBytes (slice buf 22 30), slice buf 34 n⟩ := by
  -- The checks in the order of the source; a buffer that is too short is not accepted.
  unfold decodeRequest at h
  simp only at h
  split at h
  · cases h
  split at h
  · cases h
  rename_i hmagic
  split at h
  · cases h
  rename_i hversion
  split at h
  · cases h
  rename_i op hop
  split at h
  · cases h
  rename_i hroom
  cases h
  exact ⟨Classical.not_not.mp hmagic, Classical.not_not.mp hversion,
    (OpCode.toU8_of_fromU8 hop).symm, rfl, Nat.le_of_not_lt hroom, rfl⟩

/-- **What a request was decoded from** is its image. -/
theorem take_of_decodeRequest {buf : Bytes} {req : Request} {n : Nat}
    (h : decodeRequest buf = .ok (some (req, n))) :
    n = (encodeRequest req).length ∧ buf.take n = encodeRequest req := by
  obtain ⟨hmagic, hversion, hop, hn, hroom, hreq⟩ := decodeRequest_eq_ok h
  have hpayload : req.payload = slice buf 34 n := by rw [hreq]
  have hlen : req.payload.length = fromBeBytes (slice buf 30 34) := by
    rw [hpayload, length_slice]
    omega
  have hsize : requestHeaderSize = 34 := rfl
  refine ⟨by rw [length_encodeRequest, hsize, hlen, hn], ?_⟩
  -- The fields are windows that meet, from the front of the buffer to the payload's end.
  have hbytes : slice buf 4 6 = [version, req.op.toU8] := by
    rw [slice_two (by omega), hversion, hop]
  rw [encodeRequest, hlen, hpayload, ← hbytes, ← hmagic, hreq]
  simp only [List.flatten_cons, List.flatten_nil, List.append_nil]
  rw [toBeBytes_slice rfl (by omega), toBeBytes_slice rfl (by omega),
    toBeBytes_slice rfl (by omega), toBeBytes_slice rfl (by omega),
    toBeBytes_slice rfl (by omega), slice_append_slice _ (by omega) (by omega),
    slice_append_slice _ (by omega) (by omega), slice_append_slice _ (by omega) (by omega),
    slice_append_slice _ (by omega) (by omega), slice_append_slice _ (by omega) (by omega),
    slice_append_slice _ (by omega) (by omega), slice_zero]

/-- A decoded request fits, since its fields were read from their widths. -/
theorem fits_of_decodeRequest {buf : Bytes} {req : Request} {n : Nat}
    (h : decodeRequest buf = .ok (some (req, n))) : req.Fits := by
  obtain ⟨-, -, -, hn, -, hreq⟩ := decodeRequest_eq_ok h
  have hfield : fromBeBytes (slice buf 30 34) < 256 ^ 4 := fromBeBytes_slice_lt buf 30 4
  rw [hreq]
  refine ⟨fromBeBytes_slice_lt buf 6 8, fromBeBytes_slice_lt buf 14 8,
    fromBeBytes_slice_lt buf 22 8, ?_⟩
  show (slice buf 34 n).length < 256 ^ 4
  rw [length_slice]
  omega

/-- **What a response was decoded from** is its image. -/
theorem take_of_decodeResponse {buf : Bytes} {resp : Response}
    (h : decodeResponse buf = .ok resp) :
    (encodeResponse resp).length ≤ buf.length ∧
      buf.take (encodeResponse resp).length = encodeResponse resp := by
  unfold decodeResponse at h
  have hsize : responseHeaderSize = 26 := rfl
  simp only at h
  split at h
  · cases h
  split at h
  · cases h
  rename_i hmagic
  split at h
  · cases h
  rename_i hversion
  split at h
  · cases h
  rename_i status hstatus
  split at h
  · cases h
  cases h
  rw [hsize]
  have hlen : (slice buf 26 (26 + fromBeBytes (slice buf 22 26))).length =
      fromBeBytes (slice buf 22 26) := by
    rw [length_slice]
    omega
  have hbytes : slice buf 4 6 = [version, status.toU8] := by
    rw [slice_two (by omega), Classical.not_not.mp hversion, Status.toU8_of_fromU8 hstatus]
  rw [length_encodeResponse, hsize, hlen]
  refine ⟨by omega, ?_⟩
  rw [encodeResponse]
  simp only [List.flatten_cons, List.flatten_nil, List.append_nil, hlen]
  rw [← Classical.not_not.mp hmagic, toBeBytes_slice rfl (by omega), ← hbytes,
    toBeBytes_slice rfl (by omega), toBeBytes_slice rfl (by omega), toBeBytes_slice rfl (by omega),
    slice_append_slice _ (by omega) (by omega), slice_append_slice _ (by omega) (by omega),
    slice_append_slice _ (by omega) (by omega), slice_append_slice _ (by omega) (by omega),
    slice_append_slice _ (by omega) (by omega), slice_zero]

/-- The status body round trip, for fields of 64 bits. -/
theorem decodeStreamStatusPayload_encode (p : StreamStatusPayload)
    (hnext : p.nextStreamLsn < 256 ^ 8) (hcommit : p.commitStreamLsn < 256 ^ 8)
    (hconsumed : p.consumedStreamLsn < 256 ^ 8) (hindex : p.commitIndex < 256 ^ 8)
    (happlied : p.lastApplied < 256 ^ 8) :
    decodeStreamStatusPayload (encodeStreamStatusPayload p) = .ok p := by
  have h0 : slice (encodeStreamStatusPayload p) 0 8 = toBeBytes 8 p.nextStreamLsn :=
    slice_flatten [] _ _ (by simp) (by simp)
  have h1 : slice (encodeStreamStatusPayload p) 8 16 = toBeBytes 8 p.commitStreamLsn :=
    slice_flatten [toBeBytes 8 p.nextStreamLsn] _ _ (by simp) (by simp)
  have h2 : slice (encodeStreamStatusPayload p) 16 24 = toBeBytes 8 p.consumedStreamLsn :=
    slice_flatten [toBeBytes 8 p.nextStreamLsn, toBeBytes 8 p.commitStreamLsn] _ _
      (by simp) (by simp)
  have h3 : slice (encodeStreamStatusPayload p) 24 32 = toBeBytes 8 p.commitIndex :=
    slice_flatten [toBeBytes 8 p.nextStreamLsn, toBeBytes 8 p.commitStreamLsn,
      toBeBytes 8 p.consumedStreamLsn] _ _ (by simp) (by simp)
  have h4 : slice (encodeStreamStatusPayload p) 32 40 = toBeBytes 8 p.lastApplied :=
    slice_flatten [toBeBytes 8 p.nextStreamLsn, toBeBytes 8 p.commitStreamLsn,
      toBeBytes 8 p.consumedStreamLsn, toBeBytes 8 p.commitIndex] _ _ (by simp) (by simp)
  unfold decodeStreamStatusPayload
  rw [if_neg (by simp [encodeStreamStatusPayload]), h0, h1, h2, h3, h4,
    fromBeBytes_toBeBytes_of_lt hnext, fromBeBytes_toBeBytes_of_lt hcommit,
    fromBeBytes_toBeBytes_of_lt hconsumed, fromBeBytes_toBeBytes_of_lt hindex,
    fromBeBytes_toBeBytes_of_lt happlied]

end WalServer.Protocol
