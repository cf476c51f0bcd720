import WalServer.Lib.BigEndian

/-!
# `WalServer.Raft.Command`: the replicated append command

`raft/command.rs`: the one command the shard replicates, its byte image and the
decoder that `drive_ready` runs on every committed entry.
`decodeAppendCommand_encodeAppendCommand` is the round trip for commands whose
fields are 64-bit and whose payload length fits the 32-bit length field.
-/

set_option autoImplicit false

namespace WalServer.Raft

open WalServer.Lib

/-- The command that appends one record to one stream. -/
structure AppendCommand where
  requestId : Nat
  streamId : Nat
  epoch : Nat
  streamLsn : Nat
  payload : Bytes
deriving DecidableEq, Repr

/-- Why a committed entry's data is not a command. -/
inductive CommandError where
  | invalidTag (tag : UInt8)
  | bufferTooSmall
deriving DecidableEq, Repr

/-- The tag byte of an append command. -/
def appendTag : UInt8 := 1

/-- The byte image of a command. The length field is 32 bits wide. -/
def encodeAppendCommand (cmd : AppendCommand) : Bytes :=
  List.flatten [[appendTag], toBeBytes 8 cmd.requestId, toBeBytes 8 cmd.streamId,
    toBeBytes 8 cmd.epoch, toBeBytes 8 cmd.streamLsn, toBeBytes 4 cmd.payload.length,
    cmd.payload]

/-- Reads a command from the start of a buffer. -/
def decodeAppendCommand (buf : Bytes) : Except CommandError AppendCommand :=
  if buf.length < 1 + 8 * 4 + 4 then .error .bufferTooSmall
  else if buf.head? ≠ some appendTag then .error (.invalidTag (buf.headD 0))
  else
    let payloadLen := fromBeBytes (slice buf 33 37)
    if buf.length < 37 + payloadLen then .error .bufferTooSmall
    else .ok {
      requestId := fromBeBytes (slice buf 1 9)
      streamId := fromBeBytes (slice buf 9 17)
      epoch := fromBeBytes (slice buf 17 25)
      streamLsn := fromBeBytes (slice buf 25 33)
      payload := slice buf 37 (37 + payloadLen) }

/-- The fields of a command fit their wire widths. -/
structure AppendCommand.Fits (cmd : AppendCommand) : Prop where
  requestId : cmd.requestId < 256 ^ 8
  streamId : cmd.streamId < 256 ^ 8
  epoch : cmd.epoch < 256 ^ 8
  streamLsn : cmd.streamLsn < 256 ^ 8
  payload : cmd.payload.length < 256 ^ 4

instance (cmd : AppendCommand) : Decidable cmd.Fits :=
  decidable_of_iff (cmd.requestId < 256 ^ 8 ∧ cmd.streamId < 256 ^ 8 ∧ cmd.epoch < 256 ^ 8 ∧
    cmd.streamLsn < 256 ^ 8 ∧ cmd.payload.length < 256 ^ 4)
    ⟨fun ⟨h₁, h₂, h₃, h₄, h₅⟩ => ⟨h₁, h₂, h₃, h₄, h₅⟩,
      fun ⟨h₁, h₂, h₃, h₄, h₅⟩ => ⟨h₁, h₂, h₃, h₄, h₅⟩⟩

@[simp] theorem length_encodeAppendCommand (cmd : AppendCommand) :
    (encodeAppendCommand cmd).length = 37 + cmd.payload.length := by
  simp [encodeAppendCommand]
  omega

/-- **The command round trip.** -/
theorem decodeAppendCommand_encodeAppendCommand (cmd : AppendCommand) (h : cmd.Fits) :
    decodeAppendCommand (encodeAppendCommand cmd) = .ok cmd := by
  have hlen := length_encodeAppendCommand cmd
  have htag : (encodeAppendCommand cmd).head? = some appendTag := rfl
  have hreq : slice (encodeAppendCommand cmd) 1 9 = toBeBytes 8 cmd.requestId :=
    slice_flatten [[appendTag]] _ _ (by simp) (by simp)
  have hstream : slice (encodeAppendCommand cmd) 9 17 = toBeBytes 8 cmd.streamId :=
    slice_flatten [[appendTag], toBeBytes 8 cmd.requestId] _ _ (by simp) (by simp)
  have hepoch : slice (encodeAppendCommand cmd) 17 25 = toBeBytes 8 cmd.epoch :=
    slice_flatten [[appendTag], toBeBytes 8 cmd.requestId, toBeBytes 8 cmd.streamId] _ _
      (by simp) (by simp)
  have hlsn : slice (encodeAppendCommand cmd) 25 33 = toBeBytes 8 cmd.streamLsn :=
    slice_flatten [[appendTag], toBeBytes 8 cmd.requestId, toBeBytes 8 cmd.streamId,
      toBeBytes 8 cmd.epoch] _ _ (by simp) (by simp)
  have hsize : slice (encodeAppendCommand cmd) 33 37 = toBeBytes 4 cmd.payload.length :=
    slice_flatten [[appendTag], toBeBytes 8 cmd.requestId, toBeBytes 8 cmd.streamId,
      toBeBytes 8 cmd.epoch, toBeBytes 8 cmd.streamLsn] _ _ (by simp) (by simp)
  have hpayload : slice (encodeAppendCommand cmd) 37 (37 + cmd.payload.length) = cmd.payload :=
    slice_flatten [[appendTag], toBeBytes 8 cmd.requestId, toBeBytes 8 cmd.streamId,
      toBeBytes 8 cmd.epoch, toBeBytes 8 cmd.streamLsn, toBeBytes 4 cmd.payload.length] _ _
      (by simp) rfl
  unfold decodeAppendCommand
  rw [if_neg (by omega), if_neg (by simp [htag]), hsize,
    fromBeBytes_toBeBytes_of_lt h.payload, if_neg (by omega), hreq, hstream, hepoch, hlsn,
    hpayload, fromBeBytes_toBeBytes_of_lt h.requestId, fromBeBytes_toBeBytes_of_lt h.streamId,
    fromBeBytes_toBeBytes_of_lt h.epoch, fromBeBytes_toBeBytes_of_lt h.streamLsn]

/-- A decoded command fits, since its fields were read from their widths. -/
theorem fits_of_decodeAppendCommand {buf : Bytes} {cmd : AppendCommand}
    (h : decodeAppendCommand buf = .ok cmd) : cmd.Fits := by
  have hsize : fromBeBytes (slice buf 33 37) < 256 ^ 4 := fromBeBytes_slice_lt buf 33 4
  unfold decodeAppendCommand at h
  simp only at h
  split at h
  · cases h
  · split at h
    · cases h
    · split at h
      · cases h
      · rename_i hlength
        cases h
        refine ⟨fromBeBytes_slice_lt buf 1 8, fromBeBytes_slice_lt buf 9 8,
          fromBeBytes_slice_lt buf 17 8, fromBeBytes_slice_lt buf 25 8, ?_⟩
        show (slice buf 37 _).length < 256 ^ 4
        rw [length_slice]
        omega

/-- What is decoded from the image of a command is of its stream, also if the payload does
not fit. -/
theorem streamId_of_decodeAppendCommand {cmd cmd' : AppendCommand}
    (hwidth : cmd.streamId < 256 ^ 8)
    (h : decodeAppendCommand (encodeAppendCommand cmd) = .ok cmd') :
    cmd'.streamId = cmd.streamId := by
  have hstream : slice (encodeAppendCommand cmd) 9 17 = toBeBytes 8 cmd.streamId :=
    slice_flatten [[appendTag], toBeBytes 8 cmd.requestId] _ _ (by simp) (by simp)
  unfold decodeAppendCommand at h
  simp only at h
  split at h
  · cases h
  · split at h
    · cases h
    · split at h
      · cases h
      · cases h
        show fromBeBytes (slice _ 9 17) = _
        rw [hstream, fromBeBytes_toBeBytes_of_lt hwidth]

end WalServer.Raft
