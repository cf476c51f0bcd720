import WalServer.Lib.BigEndian

/-!
# `WalServer.Protocol.Types`: requests and responses

The vocabulary of `protocol/types.rs` and of the two message types of
`channel/mod.rs` that carry a request to a shard and a response back.
-/

set_option autoImplicit false

namespace WalServer.Protocol

open WalServer.Lib

/-- What a client asks for. -/
inductive OpCode where
  | write
  | read
  | ack
  | getStatus
deriving DecidableEq, Repr

/-- The byte of an operation. -/
def OpCode.toU8 : OpCode → UInt8
  | .write     => 1
  | .read      => 2
  | .ack       => 3
  | .getStatus => 4

/-- The operation of a byte. -/
def OpCode.fromU8 : UInt8 → Option OpCode
  | 1 => some .write
  | 2 => some .read
  | 3 => some .ack
  | 4 => some .getStatus
  | _ => none

@[simp] theorem OpCode.fromU8_toU8 (op : OpCode) : OpCode.fromU8 op.toU8 = some op := by
  cases op <;> rfl

/-- An operation has one byte. -/
theorem OpCode.toU8_of_fromU8 {v : UInt8} {op : OpCode} (h : OpCode.fromU8 v = some op) :
    op.toU8 = v := by
  unfold OpCode.fromU8 at h
  split at h <;> cases h <;> rfl

/-- The outcome a response reports. -/
inductive Status where
  | ok
  | errInvalidRequest
  | errShardUnavailable
  | errNotFound
  | errEpochFenced
  | errNotLeader
  | errInternal
deriving DecidableEq, Repr

/-- The byte of an outcome. -/
def Status.toU8 : Status → UInt8
  | .ok                  => 0
  | .errInvalidRequest   => 1
  | .errShardUnavailable => 2
  | .errNotFound         => 3
  | .errEpochFenced      => 4
  | .errNotLeader        => 5
  | .errInternal         => 255

/-- The outcome that a byte stands for. -/
def Status.fromU8 : UInt8 → Option Status
  | 0   => some .ok
  | 1   => some .errInvalidRequest
  | 2   => some .errShardUnavailable
  | 3   => some .errNotFound
  | 4   => some .errEpochFenced
  | 5   => some .errNotLeader
  | 255 => some .errInternal
  | _   => none

@[simp] theorem Status.fromU8_toU8 (status : Status) :
    Status.fromU8 status.toU8 = some status := by
  cases status <;> rfl

/-- An outcome has one byte. -/
theorem Status.toU8_of_fromU8 {v : UInt8} {status : Status}
    (h : Status.fromU8 v = some status) : status.toU8 = v := by
  unfold Status.fromU8 at h
  split at h <;> cases h <;> rfl

/-- A client request. Writes ignore the offset. -/
structure Request where
  op : OpCode
  streamId : Nat
  epoch : Nat
  offset : Nat
  payload : Bytes
deriving DecidableEq, Repr

/-- The fields of a request fit their 64 bits, and its length its 32 bits. -/
structure Request.Fits (req : Request) : Prop where
  streamId : req.streamId < 256 ^ 8
  epoch : req.epoch < 256 ^ 8
  offset : req.offset < 256 ^ 8
  payload : req.payload.length < 256 ^ 4

/-- The answer to a request. -/
structure Response where
  status : Status
  epoch : Nat
  offset : Nat
  payload : Bytes
deriving DecidableEq, Repr

/-- The fields of a response fit their 64 bits, and its length its 32 bits. -/
structure Response.Fits (resp : Response) : Prop where
  epoch : resp.epoch < 256 ^ 8
  offset : resp.offset < 256 ^ 8
  payload : resp.payload.length < 256 ^ 4

/-- A request on its way from a connection to a shard. -/
structure ShardRequest where
  connectionId : Nat
  request : Request
deriving DecidableEq, Repr

/-- A response on its way from a shard to a connection. -/
structure ShardResponse where
  connectionId : Nat
  response : Response
deriving DecidableEq, Repr

/-- The body of a status response. -/
structure StreamStatusPayload where
  nextStreamLsn : Nat
  commitStreamLsn : Nat
  consumedStreamLsn : Nat
  commitIndex : Nat
  lastApplied : Nat
deriving DecidableEq, Repr

end WalServer.Protocol
