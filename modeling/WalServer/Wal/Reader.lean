import WalServer.Wal.Layout

/-!
# `WalServer.Wal.Reader`: reading a record through the index

`wal/reader.rs`. The reader keeps the segment files it has opened. A handle reads
its file as it is now, so the cache is the list of the open segments; whoever
removes a file evicts its handle first.
-/

set_option autoImplicit false

namespace WalServer.Wal

open WalServer.Lib

/-- Why a read fails. A file shorter than the location is an input error. -/
inductive WalReaderError where
  | unexpectedEof
  | notFound (what : Nat)
  | corrupt (e : WalRecordError)
deriving DecidableEq, Repr

/-- The reader of a shard's log. -/
structure WalReader where
  shardId : Nat
  segmentCache : List Nat
deriving DecidableEq, Repr

namespace WalReader

/-- A reader without open files. -/
def new (shardId : Nat) : WalReader := ⟨shardId, []⟩

/-- The file of a segment, opened if it is not open yet. -/
def getOrOpenSegment (r : WalReader) (dir : ShardDir) (segmentId : Nat) :
    WalReader × Outcome WalReaderError SegmentFile :=
  match dir.find segmentId with
  | none   => (r, .err (.notFound segmentId))
  | some f =>
      if segmentId ∈ r.segmentCache then (r, .ok f)
      else ({ r with segmentCache := segmentId :: r.segmentCache }, .ok f)

/-- Reads the bytes of a location, all of which the file must have. -/
def readExactAt (f : SegmentFile) (loc : RecordLocation) : Outcome WalReaderError Bytes :=
  if f.content.length < loc.offset + loc.size then .err .unexpectedEof
  else .ok (slice f.content loc.offset (loc.offset + loc.size))

/-- Reads the record of a position of a stream. -/
def readRecord (hash : Bytes → UInt32) (r : WalReader) (dir : ShardDir)
    (streamId streamLsn : Nat) (index : StreamLogIndex) :
    WalReader × Outcome WalReaderError WalRecord :=
  match index.lookup streamId streamLsn with
  | none     => (r, .err (.notFound streamLsn))
  | some loc =>
      let (r', file) := r.getOrOpenSegment dir loc.segmentId
      (r', file.bind fun f => (readExactAt f loc).bind fun buf =>
        match WalRecord.decode hash buf with
        | .ok (record, _) => .ok record
        | .err e          => .err (.corrupt e)
        | .panic          => .panic)

/-- Closes the file of a segment. -/
def evictSegment (r : WalReader) (segmentId : Nat) : WalReader :=
  { r with segmentCache := r.segmentCache.filter (· ≠ segmentId) }

/-- **A read succeeds** exactly with the record that lies at the position's
location. -/
theorem readRecord_eq_ok {hash : Bytes → UInt32} {r : WalReader} {dir : ShardDir}
    {streamId streamLsn : Nat} {index : StreamLogIndex} {record : WalRecord} :
    (r.readRecord hash dir streamId streamLsn index).2 = .ok record ↔
      ∃ loc, index.lookup streamId streamLsn = some loc ∧
        dir.readRecordAt hash loc = some record := by
  unfold readRecord ShardDir.readRecordAt
  cases index.lookup streamId streamLsn with
  | none => simp
  | some loc =>
      unfold getOrOpenSegment
      cases hfile : dir.find loc.segmentId with
      | none => simp [hfile]
      | some f =>
          -- Whether the file was open or not, the same bytes are read.
          have hopened : (if loc.segmentId ∈ r.segmentCache then
              (r, (Outcome.ok f : Outcome WalReaderError SegmentFile))
              else ({ r with segmentCache := loc.segmentId :: r.segmentCache }, .ok f)).2 =
              .ok f := by
            split <;> rfl
          simp only [hopened, Outcome.bind_ok, readExactAt, Option.some.injEq, exists_eq_left',
            hfile]
          split
          · simp
          · simp only [Outcome.bind_ok]
            cases WalRecord.decode hash (slice f.content loc.offset (loc.offset + loc.size)) with
            | ok found => simp
            | err e => simp
            | panic => simp

end WalReader

end WalServer.Wal
