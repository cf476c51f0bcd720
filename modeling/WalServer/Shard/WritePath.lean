import WalServer.Protocol.Codec
import WalServer.Shard.Progress
import WalServer.Shard.Serving

/-!
# `WalServer.Shard.WritePath`: the way of a payload

A write's payload is copied five times between the request that brings it and the
response that gives it back: into the command that is replicated, out of it again,
into the record of the log, out of that again, and into a response
(`payloadBack`). Each copy goes with a length, and each length is stored in 32 bits
(`storedLengths`). A snapshot that may be stored behind the record is not on the path, and
an engine that has stored one reads the same.

A request's own length field has 32 bits too, but the record is 48 bytes longer than the
payload. `payloadBack_eq_iff`: a payload comes back exactly when its record's size fits
32 bits, and then no length on the path wraps.
-/

set_option autoImplicit false

namespace WalServer.Shard

open WalServer.Lib WalServer.Protocol WalServer.Raft WalServer.Wal

/-- What the server gives a write beside its request: the id and the position from the
leader, index and term from raft, and a clock to date the record. All are machine
integers. -/
structure Admission where
  requestId : Nat
  streamLsn : Nat
  raftIndex : Nat
  raftTerm : Nat
  clock : Clock
  requestId_lt : requestId < 256 ^ 8
  streamLsn_lt : streamLsn < 256 ^ 8
  raftIndex_lt : raftIndex < 256 ^ 8
  timestamp_lt : clock.record raftIndex < 256 ^ 8

namespace Admission

variable (a : Admission) (req : Request)

/-- The command that is replicated for a write. -/
def command : AppendCommand :=
  ⟨a.requestId, req.streamId, req.epoch, a.streamLsn, req.payload⟩

/-- The record that a replica writes for it. -/
def record : WalRecord := ShardEngine.recordOf a.clock a.raftIndex (a.command req)

/-- The answer to a reader of the record. -/
def response : Response := ⟨.ok, req.epoch, a.streamLsn, req.payload⟩

/-- The lengths on the path, each of which the source narrows with `as u32`: of the
command's payload, of the record's body, of the location, and of the response's payload. -/
def storedLengths : List Nat :=
  [(a.command req).payload.length, (a.record req).encodedSize - 8, (a.record req).encodedSize,
    (a.response req).payload.length]

end Admission

/-- What a client makes of the answer to its read. -/
def answeredPayload (read : Outcome WalReaderError WalRecord) : Option Bytes :=
  read.toOption.bind fun record =>
    (decodeResponse (encodeResponse
      ⟨.ok, record.epoch, record.streamLsn, record.payload⟩)).toOption.map Response.payload

/-- What a client reads of the write's position: the reader decodes what lies where the index
leads, and the client decodes the response. -/
def readBack (hash : Bytes → UInt32) (e : ShardEngine) (a : Admission) (req : Request) :
    Option Bytes :=
  answeredPayload (e.walReader.readRecord hash e.dir req.streamId a.streamLsn e.index).2

/-- The payload that a client reads back: the command is encoded and decoded, the engine
appends its record and indexes the location, and the client reads. -/
def payloadBack (hash : Bytes → UInt32) (e : ShardEngine) (a : Admission) (req : Request) :
    Option Bytes :=
  (decodeAppendCommand (encodeAppendCommand (a.command req))).toOption.bind fun cmd =>
    (e.acknowledge hash a.clock a.raftIndex a.raftTerm cmd).toOption.bind fun e' =>
      readBack hash e' a req

variable {hash : Bytes → UInt32} {e : ShardEngine} {req : Request} (a : Admission)

theorem Admission.command_fits (h : req.Fits) : (a.command req).Fits where
  requestId := a.requestId_lt
  streamId := h.streamId
  epoch := h.epoch
  streamLsn := a.streamLsn_lt
  payload := h.payload

theorem Admission.response_fits (h : req.Fits) : (a.response req).Fits where
  epoch := h.epoch
  offset := a.streamLsn_lt
  payload := h.payload

/-- A record is 48 bytes longer than its payload. -/
theorem Admission.encodedSize_record (req : Request) :
    (a.record req).encodedSize = 48 + req.payload.length := rfl

/-- The value of a decoder that accepts. -/
theorem toOption_decoded {ε α : Type} (x : α) : (Except.ok x : Except ε α).toOption = some x := rfl

/-- A client that decodes the response has its payload. -/
theorem answeredPayload_of_decode {record : WalRecord} {resp : Response}
    (h : decodeResponse (encodeResponse ⟨.ok, record.epoch, record.streamLsn, record.payload⟩) =
      .ok resp) : answeredPayload (.ok record) = some resp.payload := by
  unfold answeredPayload
  rw [Outcome.toOption_ok, Option.bind_some, h, toOption_decoded, Option.map_some]

/-- The fields of a record that a reader is told. -/
theorem Admission.response_record (req : Request) :
    (⟨.ok, (a.record req).epoch, (a.record req).streamLsn, (a.record req).payload⟩ : Response) =
      a.response req := by
  rw [Admission.response]
  rfl

/-- The record is answered with its payload. -/
theorem Admission.answeredPayload_record (h : req.Fits) :
    answeredPayload (.ok (a.record req)) = some req.payload := by
  have hresponse := decodeResponse_encodeResponse (a.response_fits h)
  rw [← a.response_record] at hresponse
  exact answeredPayload_of_decode hresponse

variable (hash) in
/-- **The part of the path that never wraps**: the command round trip succeeds, the engine
appends, and the reader is led to where the record was put. -/
theorem payloadBack_of_acknowledged (h : e.Sane) (hreq : req.Fits) :
    ∃ e' : ShardEngine,
      e.acknowledge hash a.clock a.raftIndex a.raftTerm (a.command req) = .ok e' ∧
      e'.index.lookup req.streamId a.streamLsn =
        some (appendLocation e.walWriter (a.record req)) ∧
      KeepsReadable hash (writtenDir hash e.walWriter e.dir (a.record req)) e'.dir ∧
      payloadBack hash e a req = readBack hash e' a req := by
  have hcommand := decodeAppendCommand_encodeAppendCommand (a.command req) (a.command_fits hreq)
  obtain ⟨e', hack, hdone, -⟩ :=
    h.acknowledge hash a.clock a.raftIndex a.raftTerm (a.command req)
  refine ⟨e', hack, ?_, hdone.readable, ?_⟩
  · rw [hdone.index, StreamLogIndex.lookup_insert]
    exact if_pos ⟨rfl, rfl⟩
  · unfold payloadBack
    rw [hcommand, toOption_decoded, Option.bind_some, hack, Outcome.toOption_ok, Option.bind_some]

/-- A payload whose record's size fits 32 bits comes back. -/
theorem payloadBack_of_short (h : e.Sane) (hreq : req.Fits)
    (hshort : req.payload.length + 48 < 2 ^ 32) :
    payloadBack hash e a req = some req.payload := by
  have hsize := a.encodedSize_record req
  have hrecord : (a.record req).Fits :=
    ShardEngine.recordOf_fits (a.command_fits hreq) a.raftIndex_lt a.timestamp_lt
      (show req.payload.length + 40 < 256 ^ 4 by omega)
  obtain ⟨e', -, hlookup, hkeeps, hback⟩ := payloadBack_of_acknowledged hash a h hreq
  -- What was appended is what the reader finds.
  have hread : (e'.walReader.readRecord hash e'.dir req.streamId a.streamLsn e'.index).2 =
      .ok (a.record req) := by
    rw [WalReader.readRecord_eq_ok]
    exact ⟨_, hlookup, hkeeps _ _ (h.writer.readRecordAt_appended hrecord (by omega))⟩
  rw [hback, readBack, hread]
  exact a.answeredPayload_record hreq

/-- A longer payload does not: the size in its location wraps to less than a header. -/
theorem payloadBack_of_long (h : e.Sane) (hreq : req.Fits)
    (hlong : 2 ^ 32 ≤ req.payload.length + 48) : payloadBack hash e a req = none := by
  have hpayload := hreq.payload
  have hsize := a.encodedSize_record req
  obtain ⟨e', -, hlookup, -, hback⟩ := payloadBack_of_acknowledged hash a h hreq
  -- The size lies within 48 bytes above 2^32, since the payload itself fits its field.
  have hwraps : (appendLocation e.walWriter (a.record req)).size < recordHeaderSize := by
    show (a.record req).encodedSize % 2 ^ 32 < 48
    omega
  obtain ⟨failure, hread⟩ := WalReader.readRecord_short hash e'.walReader e'.dir hlookup hwraps
  rw [hback, readBack, hread]
  rfl

/-- The size of the record is the longest of the lengths. -/
theorem storedLengths_lt (req : Request) :
    (∀ n ∈ a.storedLengths req, n % 2 ^ 32 = n) ↔ req.payload.length + 48 < 2 ^ 32 := by
  have hsize := a.encodedSize_record req
  constructor
  · intro h
    -- The length that wraps first is that of the location.
    have hlocation := h (a.record req).encodedSize (by simp [Admission.storedLengths])
    omega
  · intro hshort n hn
    have hle : n ≤ (a.record req).encodedSize := by
      simp only [Admission.storedLengths, List.mem_cons, List.not_mem_nil, or_false] at hn
      rcases hn with rfl | rfl | rfl | rfl
      · show req.payload.length ≤ _
        omega
      · exact Nat.sub_le _ _
      · exact Nat.le_refl _
      · show req.payload.length ≤ _
        omega
    exact Nat.mod_eq_of_lt (by omega)

/-- An engine that has looked for a snapshot behind the record reads the same. -/
theorem readBack_of_applied (h : e.Sane) (hreq : req.Fits) {e' : ShardEngine}
    (happly : e.applyAppendEntry hash a.clock a.raftIndex a.raftTerm (a.command req) = .ok e') :
    readBack hash e' a req = payloadBack hash e a req := by
  obtain ⟨e₁, hack, -, -, hback⟩ := payloadBack_of_acknowledged hash a h hreq
  rw [ShardEngine.applyAppendEntry_eq_acknowledge, hack, Outcome.bind_ok] at happly
  -- Storing the snapshot changes the raft node alone.
  obtain ⟨store, rfl⟩ := ShardEngine.maybeSnapshotRaftState_eq_ok happly
  exact hback.symm

/-- **What survives the write path**: of the payloads that the wire admits, exactly those
shorter than 2^32 - 48 bytes, whether or not a snapshot is stored behind them. -/
theorem payloadBack_eq_iff {buf : Bytes} {n : Nat} (h : e.Sane)
    (hdecode : decodeRequest buf = .ok (some (req, n))) :
    (payloadBack hash e a req = some req.payload ↔ req.payload.length + 48 < 2 ^ 32) ∧
      ((∀ n ∈ a.storedLengths req, n % 2 ^ 32 = n) ↔ req.payload.length + 48 < 2 ^ 32) ∧
      ∀ e', e.applyAppendEntry hash a.clock a.raftIndex a.raftTerm (a.command req) = .ok e' →
        (readBack hash e' a req = some req.payload ↔ req.payload.length + 48 < 2 ^ 32) := by
  have hreq := fits_of_decodeRequest hdecode
  have hiff : payloadBack hash e a req = some req.payload ↔ req.payload.length + 48 < 2 ^ 32 := by
    refine ⟨fun hback => ?_, payloadBack_of_short a h hreq⟩
    by_contra hlong
    rw [payloadBack_of_long a h hreq (Nat.le_of_not_lt hlong)] at hback
    cases hback
  refine ⟨hiff, storedLengths_lt a req, fun e' happly => ?_⟩
  rw [readBack_of_applied a h hreq happly]
  exact hiff

/-- The first write of a fresh shard. -/
def firstAdmission : Admission where
  requestId := 1
  streamLsn := 0
  raftIndex := 2
  raftTerm := 1
  clock := ⟨fun _ => 0, fun _ => 0⟩
  requestId_lt := by decide
  streamLsn_lt := by decide
  raftIndex_lt := by decide
  timestamp_lt := by decide

/-- An append of three bytes. -/
theorem payloadBack_eq_append :
    payloadBack crc32 (.freshEngine 0 ⟨1, 100, 4, [1]⟩ 0) firstAdmission
      ⟨.write, 7, 1, 0, [1, 2, 3]⟩ = some [1, 2, 3] :=
  (payloadBack_eq_iff firstAdmission (ShardEngine.sane_freshEngine 0 ⟨1, 100, 4, [1]⟩ 0)
    (decodeRequest_encodeRequest (show (⟨.write, 7, 1, 0, [1, 2, 3]⟩ : Request).Fits from
      ⟨by decide, by decide, by decide, by decide⟩))).1.mpr (by decide)

/-- **A payload that is lost**: one of 2^32 - 48 bytes, with which the size of the record is
2^32. -/
theorem longPayload_lost :
    ¬ ∀ (buf : Bytes) (req : Request) (n : Nat), decodeRequest buf = .ok (some (req, n)) →
      req.op = .write → ∀ (hash : Bytes → UInt32) (e : ShardEngine) (a : Admission), e.Sane →
        payloadBack hash e a req = some req.payload := by
  intro hclaim
  -- Of the payload nothing but its length is looked at.
  have hlength : (List.replicate (2 ^ 32 - 48) (0 : UInt8)).length = 2 ^ 32 - 48 :=
    List.length_replicate
  have hreq : (⟨.write, 7, 1, 0, List.replicate (2 ^ 32 - 48) 0⟩ : Request).Fits :=
    ⟨show 7 < 256 ^ 8 by decide, show 1 < 256 ^ 8 by decide, show 0 < 256 ^ 8 by decide,
      hlength.trans_lt (by decide)⟩
  have hlong : 2 ^ 32 ≤ (List.replicate (2 ^ 32 - 48) (0 : UInt8)).length + 48 := by
    rw [hlength]
    decide
  have hsane := ShardEngine.sane_freshEngine 0 ⟨1, 100, 4, [1]⟩ 0
  have hback := hclaim _ _ _ (decodeRequest_encodeRequest hreq) rfl crc32 _ firstAdmission hsane
  rw [payloadBack_of_long firstAdmission hsane hreq hlong] at hback
  cases hback

end WalServer.Shard
