import WalServer.Shard.StreamState
import WalServer.Wal.Index
import WalServer.Wal.Record
import WalServer.Wal.Segment

/-!
# `WalServer.Wal.Writer`: appending to, rotating and reopening the log

`wal/writer.rs` over a directory of segment files. A writer holds the id of its
current segment and the offset it writes at; the directory is threaded through
every function. Disk input and output succeed; what remains of the source's
errors is a segment file that already exists and a header that is refused.

`WalWriter.openWriter` is the source's `open`: `scanRecords` is its inner loop,
`replaySegments` the loop over the files, and the three folds over what they
found build the next entry id, the index and the stream table. The scan of a
segment that holds whole records and then bytes that do not decode yields
exactly these records (`scanRecords_layout`).
-/

set_option autoImplicit false

namespace WalServer.Wal

open WalServer.Lib WalServer.Shard

/-- Why a writer operation fails. -/
inductive WalWriterError where
  | alreadyExists (segmentId : Nat)
  | segment (e : SegmentError)
deriving DecidableEq, Repr

/-- The writer of a shard's log. -/
structure WalWriter where
  shardId : Nat
  currentSegmentId : Nat
  currentOffset : Nat
  nextEntryId : Nat
  nextSegmentId : Nat
  maxSegmentBytes : Nat
deriving DecidableEq, Repr

/-- Creates a segment file that does not exist yet and writes its header. -/
def createSegment (dir : ShardDir) (shardId segmentId createdTsNs : Nat) :
    Outcome WalWriterError ShardDir :=
  match dir.find segmentId with
  | some _ => .err (.alreadyExists segmentId)
  | none   => .ok (dir.insert
      ⟨segmentId, encodeSegmentHeader shardId segmentId createdTsNs, 0, Nat.zero_le _⟩)

namespace WalWriter

/-- Brings the current segment to stable storage. -/
def sync (w : WalWriter) (dir : ShardDir) : ShardDir :=
  dir.modify w.currentSegmentId SegmentFile.syncData fun _ => rfl

/-- Syncs the current segment and goes on in a new one. -/
def rotate (w : WalWriter) (dir : ShardDir) (createdTsNs : Nat) :
    Outcome WalWriterError (WalWriter × ShardDir) :=
  let newSegmentId := w.nextSegmentId
  (createSegment (w.sync dir) w.shardId newSegmentId createdTsNs).bind fun dir' =>
    .ok ({ w with
      nextSegmentId := w.nextSegmentId + 1
      currentSegmentId := newSegmentId
      currentOffset := segmentHeaderSize }, dir')

/-- Appends a record to the current segment and rotates when that filled it.
Returns the entry id and the location of the record. -/
def appendWithLogIndex (hash : Bytes → UInt32) (w : WalWriter) (dir : ShardDir)
    (streamId epoch streamLsn entryId : Nat) (payload : Bytes)
    (timestampNs createdTsNs : Nat) :
    Outcome WalWriterError (WalWriter × ShardDir × Nat × RecordLocation) :=
  let record : WalRecord := ⟨streamId, epoch, entryId, streamLsn, timestampNs, payload⟩
  let data := record.encodeToVec hash
  let offset := w.currentOffset
  let dir' := dir.modify w.currentSegmentId (fun f => f.writeAllAt data offset) fun _ => rfl
  let loc : RecordLocation := ⟨w.currentSegmentId, offset, record.encodedSize % 2 ^ 32⟩
  let w' := { w with
    nextEntryId := max w.nextEntryId (entryId + 1)
    currentOffset := w.currentOffset + record.encodedSize }
  if w'.maxSegmentBytes ≤ w'.currentOffset then
    (w'.rotate dir' createdTsNs).bind fun (w'', dir'') => .ok (w'', dir'', entryId, loc)
  else .ok (w', dir', entryId, loc)

end WalWriter

/-! ### Reopening -/

/-- The inner loop of `open`: the records of a segment from an offset on, each
with its location, up to the first bytes that do not decode. -/
def scanRecords (hash : Bytes → UInt32) (segmentId : Nat) (data : Bytes) (offset : Nat) :
    Outcome WalWriterError (List (WalRecord × RecordLocation)) :=
  if _hlt : offset < data.length then
    match hdec : WalRecord.decode hash (data.drop offset) with
    | .ok (record, consumed) =>
        (scanRecords hash segmentId data (offset + consumed)).bind fun rest =>
          .ok ((record, ⟨segmentId, offset, consumed % 2 ^ 32⟩) :: rest)
    | .err _ => .ok []
    | .panic => .panic
  else .ok []
termination_by data.length - offset
decreasing_by
  have h := WalRecord.length_of_decode_ok hdec
  unfold recordHeaderSize at h
  omega

/-- The loop of `open` over the segment files. A file without a whole header is
skipped. -/
def replaySegments (hash : Bytes → UInt32) :
    List SegmentFile → Outcome WalWriterError (List (WalRecord × RecordLocation))
  | []      => .ok []
  | f :: fs =>
      if f.content.length < segmentHeaderSize then replaySegments hash fs
      else
        match decodeSegmentHeader (f.content.take segmentHeaderSize) with
        | .error e => .err (.segment e)
        | .ok _    =>
            (scanRecords hash f.segmentId f.content segmentHeaderSize).bind fun found =>
              (replaySegments hash fs).bind fun rest => .ok (found ++ rest)

/-- The stream table after recovery has shown it the records above the bound. -/
def recoverStreams (streams : StreamStateTable) (replayFromEntryIdExclusive : Nat)
    (records : List WalRecord) : StreamStateTable :=
  records.foldl
    (fun t r => if replayFromEntryIdExclusive < r.entryId then
      t.observeRecovered r.streamId r.epoch r.entryId r.streamLsn r.payload else t)
    streams

/-- **The rule for recovery**: what holds of the table before, and every record above the
bound keeps, holds of the recovered table. -/
theorem recoverStreams_invariant {P : StreamStateTable → Prop} {t : StreamStateTable} {bound : Nat}
    {records : List WalRecord} (h : P t)
    (hkeeps : ∀ t r, r ∈ records → bound < r.entryId → P t →
      P (t.observeRecovered r.streamId r.epoch r.entryId r.streamLsn r.payload)) :
    P (recoverStreams t bound records) := by
  unfold recoverStreams
  induction records generalizing t with
  | nil => exact h
  | cons r records ih =>
      rw [List.foldl_cons]
      refine ih ?_ fun t r' hr' => hkeeps t r' (List.mem_cons_of_mem r hr')
      split
      · rename_i hbeyond
        exact hkeeps t r List.mem_cons_self hbeyond h
      · exact h

/-- The index that points every found record's position to its location. -/
def indexRecords (found : List (WalRecord × RecordLocation)) : StreamLogIndex :=
  found.foldl (fun ix p => ix.insert p.1.streamId p.1.streamLsn p.2) StreamLogIndex.new

/-- The entry id above all found ones. -/
def nextEntryIdOf (found : List (WalRecord × RecordLocation)) : Nat :=
  found.foldl (fun n p => if n ≤ p.1.entryId then p.1.entryId + 1 else n) 0

/-- Opens or creates the log of a shard: the source's `WalWriter::open`. -/
def WalWriter.openWriter (hash : Bytes → UInt32) (shardId : Nat) (dir : ShardDir)
    (maxSegmentBytes tailCacheEntries : Nat) (recoveredStreams : Option StreamStateTable)
    (replayFromEntryIdExclusive createdTsNs : Nat) :
    Outcome WalWriterError (WalWriter × ShardDir × StreamLogIndex × StreamStateTable) :=
  let start := recoveredStreams.getD (StreamStateTable.new tailCacheEntries)
  (replaySegments hash dir.files).bind fun found =>
    let index := indexRecords found
    let streams := recoverStreams start replayFromEntryIdExclusive (found.map Prod.fst)
    match dir.files.getLast? with
    | some f =>
        .ok (⟨shardId, f.segmentId, f.content.length, nextEntryIdOf found, f.segmentId + 1,
          maxSegmentBytes⟩, dir, index, streams)
    | none =>
        (createSegment dir shardId 0 createdTsNs).bind fun dir' =>
          .ok (⟨shardId, 0, segmentHeaderSize, nextEntryIdOf found, 1, maxSegmentBytes⟩, dir',
            index, streams)

/-! ### What the scan finds -/

/-- Where records that are written one after the other lie. -/
def layout (segmentId : Nat) : Nat → List WalRecord → List (WalRecord × RecordLocation)
  | _,      []      => []
  | offset, r :: rs =>
      (r, ⟨segmentId, offset, r.encodedSize % 2 ^ 32⟩) ::
        layout segmentId (offset + r.encodedSize) rs

/-- The images of records, one after the other. -/
def encodeAll (hash : Bytes → UInt32) (rs : List WalRecord) : Bytes :=
  (rs.map (WalRecord.encodeToVec hash)).flatten

@[simp] theorem encodeAll_nil (hash : Bytes → UInt32) : encodeAll hash [] = [] := rfl

@[simp] theorem encodeAll_cons (hash : Bytes → UInt32) (r : WalRecord) (rs : List WalRecord) :
    encodeAll hash (r :: rs) = r.encodeToVec hash ++ encodeAll hash rs := rfl

theorem encodeAll_append (hash : Bytes → UInt32) (rs rs' : List WalRecord) :
    encodeAll hash (rs ++ rs') = encodeAll hash rs ++ encodeAll hash rs' := by
  simp [encodeAll]

/-- The layout of two groups of records: the second starts where the first ends. -/
theorem layout_append (hash : Bytes → UInt32) (segmentId offset : Nat) (rs rs' : List WalRecord) :
    layout segmentId offset (rs ++ rs') =
      layout segmentId offset rs ++
        layout segmentId (offset + (encodeAll hash rs).length) rs' := by
  induction rs generalizing offset with
  | nil => rfl
  | cons r rs ih =>
      rw [List.cons_append, layout, layout, ih, encodeAll_cons, List.length_append,
        WalRecord.length_encodeToVec, Nat.add_assoc, List.cons_append]

/-- Records that the layout lists are records of the list, at their segment. -/
theorem mem_layout {segmentId offset : Nat} {rs : List WalRecord} {p : WalRecord × RecordLocation}
    (h : p ∈ layout segmentId offset rs) : p.1 ∈ rs ∧ p.2.segmentId = segmentId := by
  induction rs generalizing offset with
  | nil => exact absurd h (by simp [layout])
  | cons r rs ih =>
      rcases List.mem_cons.mp h with rfl | h
      · exact ⟨by simp, rfl⟩
      · exact ⟨List.mem_cons_of_mem _ (ih h).1, (ih h).2⟩

/-- The layout lists the records in order. -/
theorem map_fst_layout (segmentId offset : Nat) (rs : List WalRecord) :
    (layout segmentId offset rs).map Prod.fst = rs := by
  induction rs generalizing offset with
  | nil => rfl
  | cons r rs ih => rw [layout, List.map_cons, ih]

/-- Bytes that do not decode end the scan. -/
theorem scanRecords_of_err {hash : Bytes → UInt32} {segmentId offset : Nat} {data : Bytes}
    {e : WalRecordError} (h : WalRecord.decode hash (data.drop offset) = .err e) :
    scanRecords hash segmentId data offset = .ok [] := by
  rw [scanRecords]
  split
  · split
    · rename_i hdec
      rw [h] at hdec
      cases hdec
    · rfl
    · rename_i hdec
      rw [h] at hdec
      cases hdec
  · rfl

/-- A record that decodes is found where it lies, and the scan goes on behind it. -/
theorem scanRecords_of_ok {hash : Bytes → UInt32} {segmentId offset consumed : Nat}
    {data : Bytes} {record : WalRecord}
    (h : WalRecord.decode hash (data.drop offset) = .ok (record, consumed)) :
    scanRecords hash segmentId data offset =
      (scanRecords hash segmentId data (offset + consumed)).bind fun rest =>
        .ok ((record, ⟨segmentId, offset, consumed % 2 ^ 32⟩) :: rest) := by
  have hlt : offset < data.length := by
    obtain ⟨hlow, hhigh⟩ := WalRecord.length_of_decode_ok h
    unfold recordHeaderSize at hlow
    rw [List.length_drop] at hhigh
    omega
  rw [scanRecords, dif_pos hlt]
  split
  · rename_i record' consumed' hdec
    rw [h] at hdec
    cases hdec
    rfl
  · rename_i hdec
    rw [h] at hdec
    cases hdec
  · rename_i hdec
    rw [h] at hdec
    cases hdec

/-- **The scan goes over whole records**, whatever follows them. -/
theorem scanRecords_encodeAll {hash : Bytes → UInt32} {segmentId : Nat} {rs : List WalRecord}
    (hfits : ∀ r ∈ rs, r.Fits) (pre rest : Bytes) :
    scanRecords hash segmentId (pre ++ (encodeAll hash rs ++ rest)) pre.length =
      (scanRecords hash segmentId (pre ++ (encodeAll hash rs ++ rest))
        (pre.length + (encodeAll hash rs).length)).bind fun found =>
          .ok (layout segmentId pre.length rs ++ found) := by
  induction rs generalizing pre with
  | nil =>
      rw [encodeAll_nil, List.length_nil, Nat.add_zero]
      cases scanRecords hash segmentId (pre ++ ([] ++ rest)) pre.length <;> rfl
  | cons r rs ih =>
      have hr : r.Fits := hfits r (by simp)
      have hdecode : WalRecord.decode hash
          ((pre ++ (encodeAll hash (r :: rs) ++ rest)).drop pre.length) =
            .ok (r, r.encodedSize) := by
        rw [List.drop_left, encodeAll_cons, List.append_assoc]
        exact WalRecord.decode_encode_append hr _
      -- The rest of the scan is the scan with this record moved to the front part.
      have hrest := ih (fun r' hr' => hfits r' (by simp [hr'])) (pre ++ r.encodeToVec hash)
      rw [List.append_assoc, ← List.append_assoc (r.encodeToVec hash), ← encodeAll_cons,
        List.length_append, WalRecord.length_encodeToVec, Nat.add_assoc] at hrest
      rw [scanRecords_of_ok hdecode, hrest, encodeAll_cons, List.length_append,
        WalRecord.length_encodeToVec]
      cases scanRecords hash segmentId (pre ++ (r.encodeToVec hash ++ encodeAll hash rs ++ rest))
        (pre.length + (r.encodedSize + (encodeAll hash rs).length)) <;> rfl

/-- **What the scan finds.** Whole records followed by bytes that do not decode
are found exactly, each where it lies. -/
theorem scanRecords_layout {hash : Bytes → UInt32} {segmentId : Nat} {rs : List WalRecord}
    (hfits : ∀ r ∈ rs, r.Fits) {tail : Bytes}
    (htail : tail = [] ∨ ∃ e, WalRecord.decode hash tail = .err e) (pre : Bytes) :
    scanRecords hash segmentId (pre ++ (encodeAll hash rs ++ tail)) pre.length =
      .ok (layout segmentId pre.length rs) := by
  have herr : ∃ e, WalRecord.decode hash tail = .err e := by
    rcases htail with rfl | herr
    · exact ⟨_, WalRecord.decode_short (by decide)⟩
    · exact herr
  obtain ⟨e, he⟩ := herr
  have hend : (pre ++ (encodeAll hash rs ++ tail)).drop (pre.length + (encodeAll hash rs).length) =
      tail := by
    rw [← List.append_assoc, ← List.length_append, List.drop_left]
  rw [← hend] at he
  rw [scanRecords_encodeAll hfits, scanRecords_of_err he, Outcome.bind_ok, List.append_nil]

end WalServer.Wal
