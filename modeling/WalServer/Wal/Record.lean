import WalServer.Lib.BigEndian
import WalServer.Lib.Outcome

/-!
# `WalServer.Wal.Record`: records of the write-ahead log

`wal/record.rs`: a record, its byte image

    [crc32][total_len][stream_id][epoch][entry_id][stream_lsn][timestamp_ns][payload]

and the decoder that the recovery scan and the reader run. The checksum comes
from a library, so every function takes it as the parameter `hash`; `crc32` is
the checksum of that library, for runs on concrete bytes.

* `decode_encode_append`: an image decodes to its record whatever follows it,
  when its fields are 64-bit and its body length fits 32 bits.
* `decode_torn`: no strict prefix of an image decodes.
* `length_of_decode_ok`: what decodes is at least a header and lies in the
  buffer.
-/

set_option autoImplicit false

namespace WalServer.Wal

open WalServer.Lib

/-- The fixed part of a record's image. -/
def recordHeaderSize : Nat := 48

/-- A record of the write-ahead log. -/
structure WalRecord where
  streamId : Nat
  epoch : Nat
  entryId : Nat
  streamLsn : Nat
  timestampNs : Nat
  payload : Bytes
deriving DecidableEq, Repr

/-- Why a buffer does not start with a record. The source declares a third
error, for keys, which nothing raises. -/
inductive WalRecordError where
  | bufferTooSmall
  | crcMismatch (expected actual : Nat)
deriving DecidableEq, Repr

/-- The reflected CRC-32 register after some more bits. -/
def crc32Bits : Nat → UInt32 → UInt32
  | 0,     crc => crc
  | n + 1, crc =>
      if crc &&& 1 = 1 then crc32Bits n ((crc >>> 1) ^^^ 0xEDB88320) else crc32Bits n (crc >>> 1)

/-- The register after one more byte. -/
def crc32Update (crc : UInt32) (b : UInt8) : UInt32 := crc32Bits 8 (crc ^^^ b.toUInt32)

/-- The checksum `crc32fast::hash`. -/
def crc32 (bs : Bytes) : UInt32 := ~~~ (bs.foldl crc32Update 0xFFFFFFFF)

example : crc32 [49, 50, 51, 52, 53, 54, 55, 56, 57] = 0xCBF43926 := by decide +kernel

namespace WalRecord

/-- The size of a record's image. -/
def encodedSize (r : WalRecord) : Nat := recordHeaderSize + r.payload.length

/-- The image of a record from its length field on, which the checksum covers.
The length field is 32 bits wide. -/
def encodeBody (r : WalRecord) : Bytes :=
  List.flatten [toBeBytes 4 (r.encodedSize - 8), toBeBytes 8 r.streamId, toBeBytes 8 r.epoch,
    toBeBytes 8 r.entryId, toBeBytes 8 r.streamLsn, toBeBytes 8 r.timestampNs, r.payload]

/-- The image of a record. -/
def encodeToVec (hash : Bytes → UInt32) (r : WalRecord) : Bytes :=
  toBeBytes 4 (hash r.encodeBody).toNat ++ r.encodeBody

/-- Reads a record from the start of a buffer, with the number of bytes it takes. -/
def decode (hash : Bytes → UInt32) (buf : Bytes) : Outcome WalRecordError (WalRecord × Nat) :=
  if buf.length < recordHeaderSize then .err .bufferTooSmall
  else
    let storedCrc := fromBeBytes (slice buf 0 4)
    let bodyLen := fromBeBytes (slice buf 4 8)
    let totalSize := 8 + bodyLen
    if buf.length < totalSize then .err .bufferTooSmall
    else
      let computedCrc := (hash (slice buf 4 totalSize)).toNat
      if storedCrc ≠ computedCrc then .err (.crcMismatch storedCrc computedCrc)
      -- `buf[48..total_size]` with a start past its end
      else if totalSize < 48 then .panic
      else .ok ({
        streamId := fromBeBytes (slice buf 8 16)
        epoch := fromBeBytes (slice buf 16 24)
        entryId := fromBeBytes (slice buf 24 32)
        streamLsn := fromBeBytes (slice buf 32 40)
        timestampNs := fromBeBytes (slice buf 40 48)
        payload := slice buf 48 totalSize }, totalSize)

/-- The fields of a record are 64-bit and its body length fits its field. -/
structure Fits (r : WalRecord) : Prop where
  streamId : r.streamId < 256 ^ 8
  epoch : r.epoch < 256 ^ 8
  entryId : r.entryId < 256 ^ 8
  streamLsn : r.streamLsn < 256 ^ 8
  timestampNs : r.timestampNs < 256 ^ 8
  payload : r.payload.length + 40 < 256 ^ 4

section

variable (hash : Bytes → UInt32) (r : WalRecord)

@[simp] theorem length_encodeBody : r.encodeBody.length = 44 + r.payload.length := by
  simp [encodeBody]
  omega

@[simp] theorem length_encodeToVec : (r.encodeToVec hash).length = r.encodedSize := by
  simp [encodeToVec, encodedSize, recordHeaderSize]
  omega

/-- An image has at least a header's length. -/
theorem recordHeaderSize_le_encodedSize : recordHeaderSize ≤ r.encodedSize :=
  Nat.le_add_right _ _

end

section

variable {hash : Bytes → UInt32} {r : WalRecord}

/-- The length field of an image, once the buffer has it. -/
theorem bodyLen_encodeToVec_take (h : r.Fits) {k : Nat} (hk : 8 ≤ k) :
    fromBeBytes (slice ((r.encodeToVec hash).take k) 4 8) = r.encodedSize - 8 := by
  have hsize : (r.encodedSize - 8) < 256 ^ 4 := by
    have hp := h.payload
    unfold encodedSize recordHeaderSize
    omega
  have hmid : slice (r.encodeToVec hash) 4 8 = toBeBytes 4 (r.encodedSize - 8) :=
    slice_flatten [toBeBytes 4 (hash r.encodeBody).toNat] _ _ (by simp) (by simp)
  have htake : slice ((r.encodeToVec hash).take k) 4 8 = slice (r.encodeToVec hash) 4 8 := by
    have hlen : 48 ≤ (r.encodeToVec hash).length := by
      rw [length_encodeToVec]; exact recordHeaderSize_le_encodedSize r
    conv => rhs; rw [← List.take_append_drop k (r.encodeToVec hash)]
    exact (slice_append_left (by rw [List.length_take]; omega)).symm
  rw [htake, hmid, fromBeBytes_toBeBytes_of_lt hsize]

/-- **No strict prefix of an image decodes.** -/
theorem decode_torn (h : r.Fits) {k : Nat} (hk : k < r.encodedSize) :
    decode hash ((r.encodeToVec hash).take k) = .err .bufferTooSmall := by
  have hlen : ((r.encodeToVec hash).take k).length = k := by
    rw [List.length_take, length_encodeToVec]; omega
  unfold decode
  rw [hlen]
  by_cases h48 : k < recordHeaderSize
  · rw [if_pos h48]
  · have h8 : 8 ≤ k := by unfold recordHeaderSize at h48; omega
    have hmin := recordHeaderSize_le_encodedSize r
    rw [if_neg h48, bodyLen_encodeToVec_take h h8]
    exact if_pos (by unfold recordHeaderSize at hmin; omega)

/-- **The record round trip**, whatever bytes follow the image. -/
theorem decode_encode_append (h : r.Fits) (tail : Bytes) :
    decode hash (r.encodeToVec hash ++ tail) = .ok (r, r.encodedSize) := by
  have hsize : r.encodedSize = 48 + r.payload.length := rfl
  have hlen : (r.encodeToVec hash).length = 48 + r.payload.length := by
    rw [length_encodeToVec, hsize]
  -- Every window of the decoder lies inside the image.
  have hwin : ∀ i j, j ≤ 48 + r.payload.length →
      slice (r.encodeToVec hash ++ tail) i j = slice (r.encodeToVec hash) i j :=
    fun i j hj => slice_append_left (by omega)
  have hcrc : slice (r.encodeToVec hash) 0 4 = toBeBytes 4 (hash r.encodeBody).toNat :=
    slice_flatten [] _ _ (by simp) (by simp)
  have hbody : slice (r.encodeToVec hash) 4 (48 + r.payload.length) = r.encodeBody := by
    have h0 : slice (toBeBytes 4 (hash r.encodeBody).toNat ++ (r.encodeBody ++ [])) 4
        (48 + r.payload.length) = r.encodeBody := slice_append_mid (by simp) (by simp; omega)
    simpa [encodeToVec] using h0
  have hlenField : fromBeBytes (slice (r.encodeToVec hash) 4 8) = 40 + r.payload.length := by
    have h0 : fromBeBytes (slice ((r.encodeToVec hash).take r.encodedSize) 4 8) =
        r.encodedSize - 8 := bodyLen_encodeToVec_take h (by omega)
    rw [List.take_of_length_le (by rw [length_encodeToVec])] at h0
    omega
  have hstream : slice (r.encodeToVec hash) 8 16 = toBeBytes 8 r.streamId :=
    slice_flatten [toBeBytes 4 (hash r.encodeBody).toNat, toBeBytes 4 (r.encodedSize - 8)] _ _
      (by simp) (by simp)
  have hepoch : slice (r.encodeToVec hash) 16 24 = toBeBytes 8 r.epoch :=
    slice_flatten [toBeBytes 4 (hash r.encodeBody).toNat, toBeBytes 4 (r.encodedSize - 8),
      toBeBytes 8 r.streamId] _ _ (by simp) (by simp)
  have hentry : slice (r.encodeToVec hash) 24 32 = toBeBytes 8 r.entryId :=
    slice_flatten [toBeBytes 4 (hash r.encodeBody).toNat, toBeBytes 4 (r.encodedSize - 8),
      toBeBytes 8 r.streamId, toBeBytes 8 r.epoch] _ _ (by simp) (by simp)
  have hlsn : slice (r.encodeToVec hash) 32 40 = toBeBytes 8 r.streamLsn :=
    slice_flatten [toBeBytes 4 (hash r.encodeBody).toNat, toBeBytes 4 (r.encodedSize - 8),
      toBeBytes 8 r.streamId, toBeBytes 8 r.epoch, toBeBytes 8 r.entryId] _ _
      (by simp) (by simp)
  have htime : slice (r.encodeToVec hash) 40 48 = toBeBytes 8 r.timestampNs :=
    slice_flatten [toBeBytes 4 (hash r.encodeBody).toNat, toBeBytes 4 (r.encodedSize - 8),
      toBeBytes 8 r.streamId, toBeBytes 8 r.epoch, toBeBytes 8 r.entryId,
      toBeBytes 8 r.streamLsn] _ _ (by simp) (by simp)
  have hpayload : slice (r.encodeToVec hash) 48 (48 + r.payload.length) = r.payload :=
    slice_flatten [toBeBytes 4 (hash r.encodeBody).toNat, toBeBytes 4 (r.encodedSize - 8),
      toBeBytes 8 r.streamId, toBeBytes 8 r.epoch, toBeBytes 8 r.entryId,
      toBeBytes 8 r.streamLsn, toBeBytes 8 r.timestampNs] _ _ (by simp) rfl
  have htotal : 8 + (40 + r.payload.length) = 48 + r.payload.length := by omega
  have hcrcLt : (hash r.encodeBody).toNat < 256 ^ 4 := (hash r.encodeBody).toNat_lt
  unfold decode
  simp only [hwin 0 4 (by omega), hwin 4 8 (by omega), hwin 8 16 (by omega),
    hwin 16 24 (by omega), hwin 24 32 (by omega), hwin 32 40 (by omega), hwin 40 48 (by omega),
    hlenField, htotal, hwin 4 (48 + r.payload.length) (by omega),
    hwin 48 (48 + r.payload.length) (by omega), hcrc, hbody, hstream, hepoch, hentry, hlsn,
    htime, hpayload, List.length_append, hlen, recordHeaderSize]
  rw [if_neg (by omega), if_neg (by omega),
    if_neg (by rw [fromBeBytes_toBeBytes_of_lt hcrcLt]; simp), if_neg (by omega),
    fromBeBytes_toBeBytes_of_lt h.streamId, fromBeBytes_toBeBytes_of_lt h.epoch,
    fromBeBytes_toBeBytes_of_lt h.entryId, fromBeBytes_toBeBytes_of_lt h.streamLsn,
    fromBeBytes_toBeBytes_of_lt h.timestampNs, hsize]

/-- The round trip on the image alone. -/
theorem decode_encode (h : r.Fits) : decode hash (r.encodeToVec hash) = .ok (r, r.encodedSize) := by
  have h0 : decode hash (r.encodeToVec hash ++ []) = .ok (r, r.encodedSize) :=
    decode_encode_append h []
  rwa [List.append_nil] at h0

/-- **When a buffer decodes**: it has the length that its header claims, which is a header's
at least, and the checksum is that of what it covers. -/
theorem decode_eq_ok_iff {buf : Bytes} {n : Nat} :
    decode hash buf = .ok (r, n) ↔
      recordHeaderSize ≤ n ∧ n ≤ buf.length ∧ n = 8 + fromBeBytes (slice buf 4 8) ∧
        fromBeBytes (slice buf 0 4) = (hash (slice buf 4 n)).toNat ∧
        r = ⟨fromBeBytes (slice buf 8 16), fromBeBytes (slice buf 16 24),
          fromBeBytes (slice buf 24 32), fromBeBytes (slice buf 32 40),
          fromBeBytes (slice buf 40 48), slice buf 48 n⟩ := by
  have hsize : recordHeaderSize = 48 := rfl
  unfold decode
  simp only
  constructor
  · intro h
    split at h
    · cases h
    split at h
    · cases h
    split at h
    · cases h
    split at h
    · cases h
    -- All four checks have passed.
    rename_i hroom hfits hcrc hlong
    cases h
    exact ⟨Nat.le_of_not_lt hlong, Nat.le_of_not_lt hfits, rfl, Classical.not_not.mp hcrc, rfl⟩
  · rintro ⟨hlow, hhigh, hn, hcrc, hr⟩
    rw [← hn, if_neg (by omega), if_neg (by omega), if_neg (not_not_intro hcrc),
      if_neg (by omega), hr]

/-- What decodes is at least a header long and lies in the buffer. -/
theorem length_of_decode_ok {buf : Bytes} {n : Nat} (h : decode hash buf = .ok (r, n)) :
    recordHeaderSize ≤ n ∧ n ≤ buf.length := by
  obtain ⟨hlow, hhigh, -⟩ := decode_eq_ok_iff.mp h
  exact ⟨hlow, hhigh⟩

/-- **What decodes** takes as many bytes as its image has, and decodes from these
bytes alone. -/
theorem encodedSize_of_decode_ok {buf : Bytes} {n : Nat} (h : decode hash buf = .ok (r, n)) :
    n = r.encodedSize ∧ n < 2 ^ 32 + 8 ∧ decode hash (buf.take n) = .ok (r, n) := by
  obtain ⟨hlow, hhigh, hn, hcrc, hr⟩ := decode_eq_ok_iff.mp h
  have hsize : recordHeaderSize = 48 := rfl
  -- The decoder looks at nothing from the length it reports on.
  have hwindow : ∀ i j, j ≤ n → slice (buf.take n) i j = slice buf i j :=
    fun i j hj => slice_take hj
  have hbody : fromBeBytes (slice buf 4 8) < 256 ^ 4 := fromBeBytes_slice_lt buf 4 4
  have htaken : (buf.take n).length = n := by
    rw [List.length_take]
    omega
  refine ⟨?_, by omega, ?_⟩
  · rw [hr, encodedSize, length_slice]
    omega
  · rw [decode_eq_ok_iff, htaken, hwindow 4 8 (by omega), hwindow 0 4 (by omega),
      hwindow 8 16 (by omega), hwindow 16 24 (by omega), hwindow 24 32 (by omega),
      hwindow 32 40 (by omega), hwindow 40 48 (by omega), hwindow _ _ (Nat.le_refl _),
      hwindow _ _ (Nat.le_refl _)]
    exact ⟨hlow, Nat.le_refl _, hn, hcrc, hr⟩

/-- A buffer too short for a header does not decode. -/
theorem decode_short {buf : Bytes} (h : buf.length < recordHeaderSize) :
    decode hash buf = .err .bufferTooSmall := by
  unfold decode
  rw [if_pos h]

end

end WalRecord

end WalServer.Wal
