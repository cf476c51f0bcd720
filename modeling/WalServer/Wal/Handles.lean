import WalServer.Wal.Crash
import WalServer.Wal.Disk
import WalServer.Wal.Reader
import WalServer.Shard.Engine

/-!
# `WalServer.Wal.Handles`: the log on names and open files

The writer of a log keeps its current segment open, and the reader keeps every segment open
that it has read from. Both find segments by reading the names in the directory. The other
modules have none of this: there a segment is its number, and the reader's cache is a list
of numbers that plays no part in what it reads.

`LogFiles` is the log with names and open files, `PlainLog` the log of the other modules.
`logFiles_refine` shows that the one is as good as the other: over appends with their
rotations, reads, garbage collections and restarts, in any order and with the names in any
order, the same calls give the same outputs. That a cached file is the one its segment would
be found with rests on `run_gc`, which closes a file before it removes it. Files that are
none of the shard's stay as they are.
-/

set_option autoImplicit false

namespace WalServer.Wal

open WalServer.Lib WalServer.Shard

/-- Creates the file of a segment, which must not exist yet, and writes its header. -/
def createSegmentFile (disk : Disk) (shardId segmentId createdTsNs : Nat) :
    Outcome WalWriterError (Nat × Disk) :=
  match disk.createNew (segmentFilename shardId segmentId) with
  | none              => .err (.alreadyExists segmentId)
  | some (file, disk) => .ok (file, disk.update file fun i =>
      i.writeAllAt (encodeSegmentHeader shardId segmentId createdTsNs) 0)

/-- A writer with the file it has open. -/
structure FileWriter where
  writer : WalWriter
  currentFile : Nat

namespace FileWriter

/-- Brings the open file to stable storage. -/
def sync (w : FileWriter) (disk : Disk) : Disk :=
  disk.update w.currentFile Inode.syncData

/-- Syncs the open file and goes on in a new one. -/
def rotate (w : FileWriter) (disk : Disk) (createdTsNs : Nat) :
    Outcome WalWriterError (FileWriter × Disk) :=
  let newSegmentId := w.writer.nextSegmentId
  (createSegmentFile (w.sync disk) w.writer.shardId newSegmentId createdTsNs).bind
    fun (file, disk') => .ok (⟨{ w.writer with
      nextSegmentId := w.writer.nextSegmentId + 1
      currentSegmentId := newSegmentId
      currentOffset := segmentHeaderSize }, file⟩, disk')

/-- Appends a record to the open file and rotates when that filled it. -/
def appendWithLogIndex (hash : Bytes → UInt32) (w : FileWriter) (disk : Disk)
    (streamId epoch streamLsn entryId : Nat) (payload : Bytes)
    (timestampNs createdTsNs : Nat) :
    Outcome WalWriterError (FileWriter × Disk × Nat × RecordLocation) :=
  let record : WalRecord := ⟨streamId, epoch, entryId, streamLsn, timestampNs, payload⟩
  let data := record.encodeToVec hash
  let offset := w.writer.currentOffset
  let disk' := disk.update w.currentFile fun i => i.writeAllAt data offset
  let loc : RecordLocation := ⟨w.writer.currentSegmentId, offset, record.encodedSize % 2 ^ 32⟩
  let w' : FileWriter := { w with writer := { w.writer with
    nextEntryId := max w.writer.nextEntryId (entryId + 1)
    currentOffset := w.writer.currentOffset + record.encodedSize } }
  if w'.writer.maxSegmentBytes ≤ w'.writer.currentOffset then
    (w'.rotate disk' createdTsNs).bind fun (w'', disk'') => .ok (w'', disk'', entryId, loc)
  else .ok (w', disk', entryId, loc)

/-- Opens or creates the log of a shard on the names that the directory lists. -/
def openWriter (hash : Bytes → UInt32) (shardId : Nat) (disk : Disk)
    (listing : List (Text × Nat)) (args : OpenArgs) :
    Outcome WalWriterError (FileWriter × Disk × StreamLogIndex × StreamStateTable) :=
  let start := args.recoveredStreams.getD (StreamStateTable.new args.tailCacheEntries)
  let segments := listSegments listing shardId
  (replaySegments hash
      (segments.map fun seg => (disk.inodes seg.2.2).toFile seg.1)).bind fun found =>
    let index := indexRecords found
    let streams := recoverStreams start args.replayFromEntryIdExclusive (found.map Prod.fst)
    match segments.getLast? with
    | some (segmentId, (_, file)) =>
        .ok (⟨⟨shardId, segmentId, (disk.inodes file).content.length, nextEntryIdOf found,
          segmentId + 1, args.maxSegmentBytes⟩, file⟩, disk, index, streams)
    | none =>
        (createSegmentFile disk shardId 0 args.createdTsNs).bind fun (file, disk') =>
          .ok (⟨⟨shardId, 0, segmentHeaderSize, nextEntryIdOf found, 1, args.maxSegmentBytes⟩,
            file⟩, disk', index, streams)

end FileWriter

/-- A reader with the files it has open. -/
structure FileReader where
  shardId : Nat
  segmentCache : List (Nat × Nat)

namespace FileReader

/-- A reader without open files. -/
def new (shardId : Nat) : FileReader := ⟨shardId, []⟩

/-- The file of a segment: the one that is open, or else the one its name leads to. -/
def getOrOpenSegment (r : FileReader) (listing : List (Text × Nat)) (segmentId : Nat) :
    FileReader × Outcome WalReaderError Nat :=
  match r.segmentCache.lookup segmentId with
  | some file => (r, .ok file)
  | none      =>
      match (listSegments listing r.shardId).find? fun seg => seg.1 = segmentId with
      | none                => (r, .err (.notFound segmentId))
      | some (_, (_, file)) =>
          ({ r with segmentCache := (segmentId, file) :: r.segmentCache }, .ok file)

/-- Reads the record of a position of a stream. -/
def readRecord (hash : Bytes → UInt32) (r : FileReader) (disk : Disk)
    (listing : List (Text × Nat)) (streamId streamLsn : Nat) (index : StreamLogIndex) :
    FileReader × Outcome WalReaderError WalRecord :=
  match index.lookup streamId streamLsn with
  | none     => (r, .err (.notFound streamLsn))
  | some loc =>
      let (r', file) := r.getOrOpenSegment listing loc.segmentId
      (r', file.bind fun file =>
        (WalReader.readExactAt ((disk.inodes file).toFile loc.segmentId) loc).bind fun buf =>
          match WalRecord.decode hash buf with
          | .ok (record, _) => .ok record
          | .err e          => .err (.corrupt e)
          | .panic          => .panic)

/-- Closes the file of a segment. -/
def evictSegment (r : FileReader) (segmentId : Nat) : FileReader :=
  { r with segmentCache := r.segmentCache.filter fun p => p.1 ≠ segmentId }

end FileReader

/-! ### The log with its files, and the plain log -/

/-- What a call on the log gives back. -/
inductive LogOutput where
  | appended (entryId : Nat) (loc : RecordLocation)
  | read (result : Outcome WalReaderError WalRecord)
  | opened (index : StreamLogIndex) (streams : StreamStateTable)

/-- A call on the log. Where the names of the directory are read, they come in the order of
the listing. A garbage collection is given the segments that are live. -/
inductive LogCall where
  | append (streamId epoch streamLsn entryId : Nat) (payload : Bytes)
      (timestampNs createdTsNs : Nat)
  | sync
  | read (listing : List (Text × Nat)) (index : StreamLogIndex) (streamId streamLsn : Nat)
  | collect (listing : List (Text × Nat)) (live : List Nat)
  /-- The process ends, and another one opens the log. -/
  | reopen (listing : List (Text × Nat)) (args : OpenArgs)

/-- The log of a shard with names and open files. -/
structure LogFiles where
  disk : Disk
  writer : FileWriter
  reader : FileReader
  outputs : List LogOutput

/-- The log of a shard without them. -/
structure PlainLog where
  dir : ShardDir
  writer : WalWriter
  reader : WalReader
  outputs : List LogOutput

section

variable (hash : Bytes → UInt32) (shardId : Nat)

namespace LogFiles

/-- Opens the log on a disk. -/
def openFiles (disk : Disk) (outputs : List LogOutput) (listing : List (Text × Nat))
    (args : OpenArgs) : Option LogFiles :=
  match FileWriter.openWriter hash shardId disk listing args with
  | .ok (w, disk, index, streams) =>
      some ⟨disk, w, FileReader.new shardId, outputs ++ [.opened index streams]⟩
  | _ => none

/-- Closes and removes the files of segments that are not live, the current one excepted. -/
def collectFiles (current : Nat) (live : List Nat) (segments : List (Nat × (Text × Nat)))
    (disk : Disk) (reader : FileReader) : Disk × FileReader :=
  segments.foldl
    (fun p seg =>
      if seg.1 = current then p
      else if seg.1 ∈ live then p
      else (p.1.remove seg.2.1, p.2.evictSegment seg.1))
    (disk, reader)

/-- What a call does. -/
def step (s : LogFiles) : LogCall → Option LogFiles
  | .append streamId epoch streamLsn entryId payload timestampNs createdTsNs =>
      match s.writer.appendWithLogIndex hash s.disk streamId epoch streamLsn entryId payload
        timestampNs createdTsNs with
      | .ok (w, disk, n, loc) => some { s with
          disk := disk
          writer := w
          outputs := s.outputs ++ [.appended n loc] }
      | _ => none
  | .sync => some { s with disk := s.writer.sync s.disk }
  | .read listing index streamId streamLsn =>
      let (reader, result) := s.reader.readRecord hash s.disk listing streamId streamLsn index
      some { s with reader := reader, outputs := s.outputs ++ [.read result] }
  | .collect listing live =>
      let (disk, reader) := collectFiles s.writer.writer.currentSegmentId live
        (listSegments listing shardId) s.disk s.reader
      some { s with disk := disk, reader := reader }
  | .reopen listing args => openFiles hash shardId s.disk s.outputs listing args

/-- The runs of a log that was opened. -/
def system (s₀ : LogFiles) : System LogFiles LogCall where
  init := s₀
  step := step hash shardId

/-- A listing has the names of the directory, and the segment numbers have not run out. -/
def listed (s : LogFiles) : LogCall → Prop
  | .append ..            => s.writer.writer.nextSegmentId < 2 ^ 64
  | .sync                 => True
  | .read listing _ _ _   => listing.Perm s.disk.entries
  | .collect listing _    => listing.Perm s.disk.entries
  | .reopen listing _     => listing.Perm s.disk.entries

instance (s : LogFiles) (a : LogCall) : Decidable (s.listed a) := by
  cases a <;> dsimp only [listed] <;> infer_instance

end LogFiles

namespace PlainLog

/-- Opens the log on a directory. -/
def openPlain (dir : ShardDir) (outputs : List LogOutput) (args : OpenArgs) : Option PlainLog :=
  match openDir hash shardId dir args with
  | .ok (w, dir, index, streams) =>
      some ⟨dir, w, WalReader.new shardId, outputs ++ [.opened index streams]⟩
  | _ => none

/-- The files that `run_gc` removes, and the entries that it evicts. -/
def collectDir (current : Nat) (live : List Nat) (files : List SegmentFile) (dir : ShardDir)
    (reader : WalReader) : ShardDir × WalReader :=
  files.foldl
    (fun p f =>
      if f.segmentId = current then p
      else if f.segmentId ∈ live then p
      else (p.1.remove f.segmentId, p.2.evictSegment f.segmentId))
    (dir, reader)

/-- What a call does. -/
def step (p : PlainLog) : LogCall → Option PlainLog
  | .append streamId epoch streamLsn entryId payload timestampNs createdTsNs =>
      match p.writer.appendWithLogIndex hash p.dir streamId epoch streamLsn entryId payload
        timestampNs createdTsNs with
      | .ok (w, dir, n, loc) => some { p with
          dir := dir
          writer := w
          outputs := p.outputs ++ [.appended n loc] }
      | _ => none
  | .sync => some { p with dir := p.writer.sync p.dir }
  | .read _ index streamId streamLsn =>
      let (reader, result) := p.reader.readRecord hash p.dir streamId streamLsn index
      some { p with reader := reader, outputs := p.outputs ++ [.read result] }
  | .collect _ live =>
      let (dir, reader) := collectDir p.writer.currentSegmentId live p.dir.files p.dir p.reader
      some { p with dir := dir, reader := reader }
  | .reopen _ args => openPlain hash shardId p.dir p.outputs args

/-- The runs of a plain log that was opened. -/
def system (p₀ : PlainLog) : System PlainLog LogCall where
  init := p₀
  step := step hash shardId

end PlainLog

end

/-- **The plain log's garbage collection is the engine's.** -/
theorem runGc_eq_collectDir (e : ShardEngine) : e.runGc = { e with
    index := e.gcIndex
    dir := (PlainLog.collectDir e.walWriter.currentSegmentId e.gcIndex.liveSegmentIds e.dir.files
      e.dir e.walReader).1
    walReader := (PlainLog.collectDir e.walWriter.currentSegmentId e.gcIndex.liveSegmentIds
      e.dir.files e.dir e.walReader).2 } := by
  -- The engine's loop carries the whole engine, of which it changes these two parts.
  have hfold : ∀ (files : List SegmentFile) (dir : ShardDir) (reader : WalReader),
      files.foldl
        (fun (e' : ShardEngine) f =>
          if f.segmentId = e'.walWriter.currentSegmentId then e'
          else if f.segmentId ∈ e.gcIndex.liveSegmentIds then e'
          else { e' with
            walReader := e'.walReader.evictSegment f.segmentId
            dir := e'.dir.remove f.segmentId })
        { e with index := e.gcIndex, dir := dir, walReader := reader } =
      { e with
        index := e.gcIndex
        dir := (PlainLog.collectDir e.walWriter.currentSegmentId e.gcIndex.liveSegmentIds files
          dir reader).1
        walReader := (PlainLog.collectDir e.walWriter.currentSegmentId e.gcIndex.liveSegmentIds
          files dir reader).2 } := by
    intro files
    induction files with
    | nil => exact fun _ _ => rfl
    | cons f files ih =>
        intro dir reader
        rw [PlainLog.collectDir, List.foldl_cons, List.foldl_cons]
        by_cases hcurrent : f.segmentId = e.walWriter.currentSegmentId
        · rw [if_pos hcurrent, if_pos hcurrent]
          exact ih dir reader
        · by_cases hlive : f.segmentId ∈ e.gcIndex.liveSegmentIds
          · rw [if_neg hcurrent, if_neg hcurrent, if_pos hlive, if_pos hlive]
            exact ih dir reader
          · rw [if_neg hcurrent, if_neg hcurrent, if_neg hlive, if_neg hlive]
            exact ih (dir.remove f.segmentId) (reader.evictSegment f.segmentId)
  exact hfold e.dir.files e.dir e.walReader

/-! ### The writer and its open file -/

section

variable {hash : Bytes → UInt32} {shardId : Nat} {others : List (Text × Nat)}
  {given : Nat → Inode} {disk disk' : Disk} {dir dir' dir'' : ShardDir}
  {inodeOf inodeOf' inodeOf'' : Nat → Nat}

/-- The segments that were there are there, each with its file. -/
def Extends (dir : ShardDir) (inodeOf : Nat → Nat) (dir' : ShardDir) (inodeOf' : Nat → Nat) :
    Prop :=
  ∀ segmentId, (dir.find segmentId).isSome →
    (dir'.find segmentId).isSome ∧ inodeOf' segmentId = inodeOf segmentId

theorem Extends.trans (h : Extends dir inodeOf dir' inodeOf')
    (h' : Extends dir' inodeOf' dir'' inodeOf'') : Extends dir inodeOf dir'' inodeOf'' := by
  intro segmentId hfind
  obtain ⟨hfind', heq⟩ := h segmentId hfind
  obtain ⟨hfind'', heq'⟩ := h' segmentId hfind'
  exact ⟨hfind'', heq'.trans heq⟩

/-- Rewriting a file leaves all files there. -/
theorem extends_modify (dir : ShardDir) (inodeOf : Nat → Nat) (segmentId : Nat)
    (op : SegmentFile → SegmentFile) (hop : ∀ f, (op f).segmentId = f.segmentId) :
    Extends dir inodeOf (dir.modify segmentId op hop) inodeOf := by
  intro id hfind
  refine ⟨?_, rfl⟩
  rw [ShardDir.find_modify]
  split
  · rw [Option.isSome_map]
    exact hfind
  · exact hfind

/-- **Creating a segment** under its name is creating it in the directory. -/
theorem Stores.createSegmentFile (h : Stores shardId others given disk dir inodeOf)
    {segmentId createdTsNs file : Nat} (hsmall : segmentId < 2 ^ 64)
    (hcreate : Wal.createSegmentFile disk shardId segmentId createdTsNs = .ok (file, disk')) :
    ∃ dir', createSegment dir shardId segmentId createdTsNs = .ok dir' ∧
      Stores shardId others given disk' dir' (Function.update inodeOf segmentId file) ∧
      Extends dir inodeOf dir' (Function.update inodeOf segmentId file) ∧
      (dir'.find segmentId).isSome := by
  unfold Wal.createSegmentFile Disk.createNew at hcreate
  cases hlookup : disk.entries.lookup (segmentFilename shardId segmentId) with
  | some _ =>
      rw [hlookup] at hcreate
      cases hcreate
  | none =>
      rw [hlookup] at hcreate
      simp only [Outcome.ok.injEq, Prod.mk.injEq] at hcreate
      obtain ⟨rfl, rfl⟩ := hcreate
      have hnone := h.find_eq_none hlookup
      have hperm : (dir.insert ⟨segmentId, encodeSegmentHeader shardId segmentId createdTsNs, 0,
          Nat.zero_le _⟩).files.Perm (_ :: dir.files) := ShardDir.files_insert_perm hnone
      -- A file that was just created and written at its start has what was written.
      have hwritten : Inode.empty.writeAllAt
          (encodeSegmentHeader shardId segmentId createdTsNs) 0 =
            ⟨encodeSegmentHeader shardId segmentId createdTsNs, 0, Nat.zero_le _⟩ := by
        simp [Inode.writeAllAt, Inode.empty, writeAt]
      refine ⟨_, by rw [createSegment, hnone], ?_, fun id hfind => ?_, ?_⟩
      · have hcreated := h.create hsmall hnone
          ⟨encodeSegmentHeader shardId segmentId createdTsNs, 0, Nat.zero_le _⟩
        unfold Disk.update
        simp only [Function.update_self, Function.update_idem, hwritten]
        exact hcreated
      · obtain ⟨f, hf⟩ := Option.isSome_iff_exists.mp hfind
        obtain ⟨hmem, hid⟩ := ShardDir.find_eq_some.mp hf
        refine ⟨?_, Function.update_of_ne (fun heq => ?_) ..⟩
        · rw [ShardDir.find_eq_some.mpr
            ⟨hperm.mem_iff.mpr (List.mem_cons_of_mem _ hmem), hid⟩]
          rfl
        · rw [heq, hnone] at hf
          cases hf
      · rw [ShardDir.find_eq_some.mpr ⟨hperm.mem_iff.mpr List.mem_cons_self, rfl⟩]
        rfl

/-- The writer has the file of its current segment open. -/
structure Writes (shardId : Nat) (others : List (Text × Nat)) (given : Nat → Inode)
    (w : FileWriter) (disk : Disk) (dir : ShardDir) (inodeOf : Nat → Nat) : Prop where
  stores : Stores shardId others given disk dir inodeOf
  shard : w.writer.shardId = shardId
  current : (dir.find w.writer.currentSegmentId).isSome
  file : w.currentFile = inodeOf w.writer.currentSegmentId

variable {w w' : FileWriter}

/-- **What the writer does to its open file** it does to the current segment. -/
theorem Writes.update (h : Writes shardId others given w disk dir inodeOf) (op : Inode → Inode)
    (op' : SegmentFile → SegmentFile) (hop' : ∀ f, (op' f).segmentId = f.segmentId)
    (hop : ∀ i id, (op i).toFile id = op' (i.toFile id)) :
    Writes shardId others given w (disk.update w.currentFile op)
      (dir.modify w.writer.currentSegmentId op' hop') inodeOf where
  stores := by
    rw [h.file]
    exact h.stores.update hop' hop h.current
  shard := h.shard
  current := (extends_modify dir inodeOf _ op' hop' _ h.current).1
  file := h.file

theorem Writes.sync (h : Writes shardId others given w disk dir inodeOf) :
    Writes shardId others given w (w.sync disk) (w.writer.sync dir) inodeOf :=
  h.update Inode.syncData SegmentFile.syncData (fun _ => rfl) fun _ _ => rfl

/-- **Rotating** goes on in the file that the new segment's name leads to. -/
theorem Writes.rotate (h : Writes shardId others given w disk dir inodeOf)
    (hsmall : w.writer.nextSegmentId < 2 ^ 64) {createdTsNs : Nat}
    (hrotate : w.rotate disk createdTsNs = .ok (w', disk')) :
    ∃ dir' inodeOf', w.writer.rotate dir createdTsNs = .ok (w'.writer, dir') ∧
      Writes shardId others given w' disk' dir' inodeOf' ∧
      Extends dir inodeOf dir' inodeOf' := by
  obtain ⟨⟨file, disk₁⟩, hcreate, hw'⟩ := Outcome.bind_eq_ok.mp hrotate
  cases hw'
  rw [h.shard] at hcreate
  obtain ⟨dir', hplain, hstores, hextends, hnew⟩ :=
    h.sync.stores.createSegmentFile hsmall hcreate
  refine ⟨dir', _, ?_, ⟨hstores, h.shard, hnew, ?_⟩, (extends_modify _ _ _ _ _).trans hextends⟩
  · rw [← h.shard] at hplain
    rw [WalWriter.rotate, hplain]
    rfl
  · exact (Function.update_self w.writer.nextSegmentId file inodeOf).symm

/-- **Appending** to the open file is appending to the current segment. -/
theorem Writes.append (h : Writes shardId others given w disk dir inodeOf)
    (hsmall : w.writer.nextSegmentId < 2 ^ 64)
    {streamId epoch streamLsn entryId timestampNs createdTsNs n : Nat} {payload : Bytes}
    {loc : RecordLocation}
    (happend : w.appendWithLogIndex hash disk streamId epoch streamLsn entryId payload timestampNs
      createdTsNs = .ok (w', disk', n, loc)) :
    ∃ dir' inodeOf', w.writer.appendWithLogIndex hash dir streamId epoch streamLsn entryId payload
        timestampNs createdTsNs = .ok (w'.writer, dir', n, loc) ∧
      Writes shardId others given w' disk' dir' inodeOf' ∧
      Extends dir inodeOf dir' inodeOf' := by
  -- The record is written first, whether or not the segment is full then.
  have hwritten := h.update
    (fun i => i.writeAllAt (WalRecord.encodeToVec hash
      ⟨streamId, epoch, entryId, streamLsn, timestampNs, payload⟩) w.writer.currentOffset)
    (fun f => f.writeAllAt (WalRecord.encodeToVec hash
      ⟨streamId, epoch, entryId, streamLsn, timestampNs, payload⟩) w.writer.currentOffset)
    (fun _ => rfl) fun _ _ => rfl
  have hmoved : Writes shardId others given
      { w with writer := { w.writer with
        nextEntryId := max w.writer.nextEntryId (entryId + 1)
        currentOffset := w.writer.currentOffset +
          WalRecord.encodedSize ⟨streamId, epoch, entryId, streamLsn, timestampNs, payload⟩ } }
      _ _ inodeOf :=
    ⟨hwritten.stores, hwritten.shard, hwritten.current, hwritten.file⟩
  have hextends := extends_modify dir inodeOf w.writer.currentSegmentId
    (fun f => f.writeAllAt (WalRecord.encodeToVec hash
      ⟨streamId, epoch, entryId, streamLsn, timestampNs, payload⟩) w.writer.currentOffset)
    fun _ => rfl
  unfold FileWriter.appendWithLogIndex at happend
  unfold WalWriter.appendWithLogIndex
  simp only at happend ⊢
  split at happend
  · rename_i hfull
    obtain ⟨⟨w₁, disk₁⟩, hrotate, hok⟩ := Outcome.bind_eq_ok.mp happend
    cases hok
    obtain ⟨dir', inodeOf', hplain, hwrites, hextends'⟩ := hmoved.rotate hsmall hrotate
    refine ⟨dir', inodeOf', ?_, hwrites, hextends.trans hextends'⟩
    rw [if_pos hfull, hplain, Outcome.bind_ok]
  · rename_i hroom
    cases happend
    exact ⟨_, inodeOf, by rw [if_neg hroom], hmoved, hextends⟩

/-- **Opening** the log on the names of its files is opening the plain log. -/
theorem Stores.openWriter (h : Stores shardId others given disk dir inodeOf)
    (hshard : shardId < 2 ^ 16) {listing : List (Text × Nat)}
    (hlisting : listing.Perm disk.entries) {args : OpenArgs} {index : StreamLogIndex}
    {streams : StreamStateTable}
    (hopen : FileWriter.openWriter hash shardId disk listing args =
      .ok (w, disk', index, streams)) :
    ∃ dir' inodeOf', openDir hash shardId dir args = .ok (w.writer, dir', index, streams) ∧
      Writes shardId others given w disk' dir' inodeOf' := by
  have hfiles : (listSegments listing shardId).map
      (fun seg => (disk.inodes seg.2.2).toFile seg.1) = dir.files := by
    rw [h.listSegments_eq_files hshard hlisting, List.map_map]
    conv => rhs; rw [← List.map_id dir.files]
    exact List.map_congr_left fun f hf => h.content f hf
  unfold FileWriter.openWriter at hopen
  simp only [hfiles] at hopen
  obtain ⟨found, hfound, hrest⟩ := Outcome.bind_eq_ok.mp hopen
  unfold openDir WalWriter.openWriter
  rw [hfound, Outcome.bind_ok]
  rw [h.listSegments_eq_files hshard hlisting, List.getLast?_map] at hrest
  cases hlast : dir.files.getLast? with
  | some f =>
      rw [hlast] at hrest
      cases hrest
      have hf : f ∈ dir.files := List.mem_of_getLast? hlast
      have hcontent := congrArg SegmentFile.content (h.content f hf)
      refine ⟨dir, inodeOf, ?_, h, rfl, ?_, rfl⟩
      · show Outcome.ok _ = Outcome.ok _
        rw [← hcontent]
        rfl
      · rw [ShardDir.find_eq_some.mpr ⟨hf, rfl⟩]
        rfl
  | none =>
      rw [hlast] at hrest
      obtain ⟨⟨file, disk₁⟩, hcreate, hok⟩ := Outcome.bind_eq_ok.mp hrest
      cases hok
      obtain ⟨dir', hplain, hstores, -, hnew⟩ := h.createSegmentFile (by decide) hcreate
      refine ⟨dir', _, ?_, hstores, rfl, hnew, (Function.update_self 0 file inodeOf).symm⟩
      show (createSegment dir shardId 0 args.createdTsNs).bind _ = _
      rw [hplain]
      rfl

/-! ### The reader and its open files -/

/-- What the reader has open are the files of the segments. -/
structure Caches (dir : ShardDir) (inodeOf : Nat → Nat) (r : FileReader) (plain : WalReader) :
    Prop where
  shard : r.shardId = plain.shardId
  keys : r.segmentCache.map Prod.fst = plain.segmentCache
  files : ∀ p ∈ r.segmentCache, (dir.find p.1).isSome ∧ p.2 = inodeOf p.1

variable {r : FileReader} {plain : WalReader}

theorem caches_new (shardId : Nat) : Caches dir inodeOf (.new shardId) (.new shardId) :=
  ⟨rfl, rfl, fun _ hp => nomatch hp⟩

/-- More segments, or more in them, do not matter to what is open. -/
theorem Caches.extends (h : Caches dir inodeOf r plain)
    (hextends : Extends dir inodeOf dir' inodeOf') : Caches dir' inodeOf' r plain where
  shard := h.shard
  keys := h.keys
  files p hp := by
    obtain ⟨hfind, hfile⟩ := h.files p hp
    obtain ⟨hfind', heq⟩ := hextends p.1 hfind
    exact ⟨hfind', hfile.trans heq.symm⟩

/-- What the cache has for a segment. -/
theorem lookup_segmentCache {cache : List (Nat × Nat)} {segmentId : Nat} :
    (cache.lookup segmentId = none ↔ segmentId ∉ cache.map Prod.fst) ∧
      ∀ file, cache.lookup segmentId = some file → (segmentId, file) ∈ cache := by
  constructor
  · simp only [List.lookup_eq_none_iff, List.mem_map, not_exists, not_and, bne_iff_ne]
    exact ⟨fun h p hp heq => h p hp heq.symm, fun h p hp heq => h p hp heq.symm⟩
  · intro file hfile
    induction cache with
    | nil => cases hfile
    | cons p cache ih =>
        rw [List.lookup_cons] at hfile
        split at hfile
        · rename_i heq
          cases hfile
          rw [beq_iff_eq.mp heq]
          exact List.mem_cons_self
        · exact List.mem_cons_of_mem _ (ih hfile)

/-- **The file of a segment**, from the cache or through its name, is the one that the
directory has for it. -/
theorem Caches.getOrOpenSegment (h : Caches dir inodeOf r plain)
    (hstores : Stores shardId others given disk dir inodeOf) (hshard : shardId < 2 ^ 16)
    (hreader : r.shardId = shardId) {listing : List (Text × Nat)}
    (hlisting : listing.Perm disk.entries) (segmentId : Nat) :
    Caches dir inodeOf (r.getOrOpenSegment listing segmentId).1
        (plain.getOrOpenSegment dir segmentId).1 ∧
      ((r.getOrOpenSegment listing segmentId).2.bind fun file =>
        .ok ((disk.inodes file).toFile segmentId)) = (plain.getOrOpenSegment dir segmentId).2 := by
  unfold FileReader.getOrOpenSegment WalReader.getOrOpenSegment
  cases hcached : r.segmentCache.lookup segmentId with
  | some file =>
      -- A cached segment has a file, and the cache leads to it.
      have hmem := lookup_segmentCache.2 file hcached
      obtain ⟨hfind, hfile⟩ := h.files _ hmem
      obtain ⟨f, hf⟩ := Option.isSome_iff_exists.mp hfind
      obtain ⟨hfiles, hid⟩ := ShardDir.find_eq_some.mp hf
      have hkey : segmentId ∈ plain.segmentCache := by
        rw [← h.keys]
        exact List.mem_map_of_mem hmem
      simp only at hf hfile hid
      rw [hf]
      simp only [if_pos hkey, Outcome.bind_ok]
      refine ⟨h, ?_⟩
      rw [hfile, ← hid, hstores.content f hfiles]
  | none =>
      have hkey : segmentId ∉ plain.segmentCache := by
        rw [← h.keys]
        exact lookup_segmentCache.1.mp hcached
      have hfound : (listSegments listing r.shardId).find? (fun seg => seg.1 = segmentId) =
          (dir.find segmentId).map fun f =>
            (f.segmentId, (segmentFilename shardId f.segmentId, inodeOf f.segmentId)) := by
        rw [hreader, hstores.listSegments_eq_files hshard hlisting, List.find?_map]
        rfl
      simp only [hfound]
      cases hf : dir.find segmentId with
      | none => exact ⟨h, rfl⟩
      | some f =>
          obtain ⟨hfiles, rfl⟩ := ShardDir.find_eq_some.mp hf
          simp only [Option.map_some, if_neg hkey, Outcome.bind_ok]
          refine ⟨⟨h.shard, ?_, fun p hp => ?_⟩, ?_⟩
          · rw [List.map_cons, h.keys]
          · rcases List.mem_cons.mp hp with rfl | hp
            · exact ⟨by rw [hf]; rfl, rfl⟩
            · exact h.files p hp
          · rw [hstores.content f hfiles]

/-- **A read** gives what the plain reader reads. -/
theorem Caches.readRecord (h : Caches dir inodeOf r plain)
    (hstores : Stores shardId others given disk dir inodeOf) (hshard : shardId < 2 ^ 16)
    (hreader : r.shardId = shardId) {listing : List (Text × Nat)}
    (hlisting : listing.Perm disk.entries) (streamId streamLsn : Nat) (index : StreamLogIndex) :
    Caches dir inodeOf (r.readRecord hash disk listing streamId streamLsn index).1
        (plain.readRecord hash dir streamId streamLsn index).1 ∧
      (r.readRecord hash disk listing streamId streamLsn index).2 =
        (plain.readRecord hash dir streamId streamLsn index).2 := by
  unfold FileReader.readRecord WalReader.readRecord
  cases index.lookup streamId streamLsn with
  | none => exact ⟨h, rfl⟩
  | some loc =>
      obtain ⟨hcaches, hfile⟩ := h.getOrOpenSegment hstores hshard hreader hlisting loc.segmentId
      refine ⟨hcaches, ?_⟩
      simp only [← hfile]
      cases (r.getOrOpenSegment listing loc.segmentId).2 <;> rfl

/-- Reading and evicting change what is open, not whose reader it is. -/
theorem shardId_readRecord (r : FileReader) (disk : Disk) (listing : List (Text × Nat))
    (streamId streamLsn : Nat) (index : StreamLogIndex) :
    (r.readRecord hash disk listing streamId streamLsn index).1.shardId = r.shardId := by
  unfold FileReader.readRecord FileReader.getOrOpenSegment
  cases index.lookup streamId streamLsn with
  | none => rfl
  | some loc =>
      simp only
      split
      · rfl
      · split <;> rfl

/-! ### Garbage collection -/

/-- What is left when the file of a segment is removed. -/
theorem find_remove_of_ne {segmentId segmentId' : Nat} (hne : segmentId' ≠ segmentId) :
    (dir.remove segmentId).find segmentId' = dir.find segmentId' := by
  ext f
  rw [ShardDir.find_eq_some, ShardDir.find_eq_some]
  show f ∈ dir.files.filter _ ∧ _ ↔ _
  rw [List.mem_filter]
  constructor
  · rintro ⟨⟨hf, -⟩, hid⟩
    exact ⟨hf, hid⟩
  · rintro ⟨hf, rfl⟩
    exact ⟨⟨hf, decide_eq_true hne⟩, rfl⟩

/-- **A file is closed before it is removed**, so what is open stays in the directory. -/
theorem Caches.remove (h : Caches dir inodeOf r plain) (segmentId : Nat) :
    Caches (dir.remove segmentId) inodeOf (r.evictSegment segmentId)
      (plain.evictSegment segmentId) where
  shard := h.shard
  keys := by
    show (r.segmentCache.filter _).map Prod.fst = plain.segmentCache.filter _
    rw [← h.keys, List.filter_map]
    rfl
  files p hp := by
    obtain ⟨hmem, hne⟩ := List.mem_filter.mp hp
    obtain ⟨hfind, hfile⟩ := h.files p hmem
    rw [find_remove_of_ne (of_decide_eq_true hne)]
    exact ⟨hfind, hfile⟩

/-- **Garbage collection** goes over the same segments and removes the same files. -/
theorem collect_refines (hshard : shardId < 2 ^ 16) (live : List Nat) {files : List SegmentFile}
    (hw : Writes shardId others given w disk dir inodeOf) (hr : Caches dir inodeOf r plain)
    (hreader : r.shardId = shardId) (hsmall : ∀ f ∈ files, f.segmentId < 2 ^ 64) :
    Writes shardId others given w
        (LogFiles.collectFiles w.writer.currentSegmentId live (files.map fun f =>
          (f.segmentId, (segmentFilename shardId f.segmentId, inodeOf f.segmentId))) disk r).1
        (PlainLog.collectDir w.writer.currentSegmentId live files dir plain).1 inodeOf ∧
      Caches (PlainLog.collectDir w.writer.currentSegmentId live files dir plain).1 inodeOf
        (LogFiles.collectFiles w.writer.currentSegmentId live (files.map fun f =>
          (f.segmentId, (segmentFilename shardId f.segmentId, inodeOf f.segmentId))) disk r).2
        (PlainLog.collectDir w.writer.currentSegmentId live files dir plain).2 ∧
      (LogFiles.collectFiles w.writer.currentSegmentId live (files.map fun f =>
          (f.segmentId, (segmentFilename shardId f.segmentId, inodeOf f.segmentId))) disk
        r).2.shardId = shardId := by
  induction files generalizing disk dir r plain with
  | nil => exact ⟨hw, hr, hreader⟩
  | cons f files ih =>
      have hrest : ∀ g ∈ files, g.segmentId < 2 ^ 64 :=
        fun g hg => hsmall g (List.mem_cons_of_mem f hg)
      rw [List.map_cons, LogFiles.collectFiles, PlainLog.collectDir, List.foldl_cons,
        List.foldl_cons]
      by_cases hcurrent : f.segmentId = w.writer.currentSegmentId
      · rw [if_pos hcurrent, if_pos hcurrent]
        exact ih hw hr hreader hrest
      · by_cases hlive : f.segmentId ∈ live
        · rw [if_neg hcurrent, if_neg hcurrent, if_pos hlive, if_pos hlive]
          exact ih hw hr hreader hrest
        · rw [if_neg hcurrent, if_neg hcurrent, if_neg hlive, if_neg hlive]
          refine ih ⟨hw.stores.remove hshard (hsmall f List.mem_cons_self), hw.shard, ?_, hw.file⟩
            (hr.remove f.segmentId) hreader hrest
          rw [find_remove_of_ne (Ne.symm hcurrent)]
          exact hw.current

end

/-! ### Runs -/

section

variable {hash : Bytes → UInt32} {shardId : Nat} {others : List (Text × Nat)}
  {given : Nat → Inode}

/-- **What every run keeps**: the disk has the files of the plain log's directory, and what
the writer and the reader have open are these. -/
structure Refines (shardId : Nat) (others : List (Text × Nat)) (given : Nat → Inode)
    (s : LogFiles) (p : PlainLog) (inodeOf : Nat → Nat) : Prop where
  writes : Writes shardId others given s.writer s.disk p.dir inodeOf
  caches : Caches p.dir inodeOf s.reader p.reader
  writer : s.writer.writer = p.writer
  reader : s.reader.shardId = shardId
  outputs : s.outputs = p.outputs

variable {s t : LogFiles} {p : PlainLog} {inodeOf : Nat → Nat}

/-- **Opening.** -/
theorem Stores.openFiles {disk : Disk} {dir : ShardDir}
    (h : Stores shardId others given disk dir inodeOf) (hshard : shardId < 2 ^ 16)
    {listing : List (Text × Nat)} (hlisting : listing.Perm disk.entries) {args : OpenArgs}
    {outputs : List LogOutput}
    (hopen : LogFiles.openFiles hash shardId disk outputs listing args = some s) :
    ∃ p inodeOf', PlainLog.openPlain hash shardId dir outputs args = some p ∧
      Refines shardId others given s p inodeOf' := by
  unfold LogFiles.openFiles at hopen
  split at hopen
  · rename_i w disk' index streams hwriter
    cases hopen
    obtain ⟨dir', inodeOf', hplain, hwrites⟩ := h.openWriter hshard hlisting hwriter
    refine ⟨⟨dir', w.writer, .new shardId, outputs ++ [.opened index streams]⟩, inodeOf', ?_,
      hwrites, caches_new shardId, rfl, rfl, rfl⟩
    rw [PlainLog.openPlain, hplain]
  · cases hopen

/-- **Every call does on the files what it does on the plain log**, and gives back the
same. -/
theorem Refines.step (h : Refines shardId others given s p inodeOf) (hshard : shardId < 2 ^ 16)
    {a : LogCall} (hok : s.listed a) (hs : s.step hash shardId a = some t) :
    ∃ p' inodeOf', p.step hash shardId a = some p' ∧
      Refines shardId others given t p' inodeOf' := by
  cases a with
  | append streamId epoch streamLsn entryId payload timestampNs createdTsNs =>
      simp only [LogFiles.step] at hs
      split at hs
      · rename_i w disk n loc happend
        cases hs
        obtain ⟨dir', inodeOf', hplain, hwrites, hextends⟩ := h.writes.append hok happend
        rw [h.writer] at hplain
        refine ⟨{ p with
          dir := dir'
          writer := w.writer
          outputs := p.outputs ++ [.appended n loc] }, inodeOf', ?_, hwrites,
          h.caches.extends hextends, rfl, h.reader, ?_⟩
        · simp only [PlainLog.step, hplain]
        · rw [h.outputs]
      · cases hs
  | sync =>
      cases hs
      refine ⟨_, inodeOf, rfl, ?_, ?_, h.writer, h.reader, h.outputs⟩
      · rw [← h.writer]
        exact h.writes.sync
      · exact h.caches.extends (extends_modify _ _ _ SegmentFile.syncData fun _ => rfl)
  | read listing index streamId streamLsn =>
      have ht : t = { s with
          reader := (s.reader.readRecord hash s.disk listing streamId streamLsn index).1
          outputs := s.outputs ++
            [.read (s.reader.readRecord hash s.disk listing streamId streamLsn index).2] } :=
        (Option.some.inj hs).symm
      subst ht
      obtain ⟨hcaches, hresult⟩ := h.caches.readRecord h.writes.stores hshard
        h.reader hok streamId streamLsn index
      refine ⟨{ p with
        reader := (p.reader.readRecord hash p.dir streamId streamLsn index).1
        outputs := p.outputs ++
          [.read (p.reader.readRecord hash p.dir streamId streamLsn index).2] }, inodeOf, rfl,
        h.writes, hcaches, h.writer, ?_, ?_⟩
      · exact (shardId_readRecord s.reader s.disk listing streamId streamLsn index).trans h.reader
      · show s.outputs ++ _ = p.outputs ++ _
        rw [h.outputs, hresult]
  | collect listing live =>
      cases hs
      obtain ⟨hwrites, hcaches, hreader⟩ := collect_refines hshard live h.writes h.caches
        h.reader h.writes.stores.small
      refine ⟨_, inodeOf, rfl, ?_, ?_, h.writer, ?_, h.outputs⟩
      · rw [h.writes.stores.listSegments_eq_files hshard hok, ← h.writer]
        exact hwrites
      · rw [h.writes.stores.listSegments_eq_files hshard hok, ← h.writer]
        exact hcaches
      · rw [h.writes.stores.listSegments_eq_files hshard hok]
        exact hreader
  | reopen listing args =>
      have hopened := h.writes.stores.openFiles hshard hok hs
      rw [h.outputs] at hopened
      exact hopened

/-- **The log on names and open files is as good as the plain one.** A disk has the files of
a directory, among others that are none of the shard's. Whatever is called after an opening,
the same calls on the plain log of the directory succeed and give back the same; the disk has
the plain log's files, the writer is the same, and the other files are as they were. -/
theorem logFiles_refine (hshard : shardId < 2 ^ 16) {disk₀ : Disk} {dir₀ : ShardDir}
    {inodeOf₀ : Nat → Nat} (hstores : Stores shardId others given disk₀ dir₀ inodeOf₀)
    {listing : List (Text × Nat)} (hlisting : listing.Perm disk₀.entries) {args : OpenArgs}
    {s₀ : LogFiles} (hopen : LogFiles.openFiles hash shardId disk₀ [] listing args = some s₀)
    {calls : List LogCall}
    (h : System.execute (LogFiles.system hash shardId s₀) LogFiles.listed s₀ calls = some s) :
    ∃ p₀ p inodeOf, PlainLog.openPlain hash shardId dir₀ [] args = some p₀ ∧
      System.execute (PlainLog.system hash shardId p₀) System.anyStep p₀ calls = some p ∧
      s.outputs = p.outputs ∧ s.writer.writer = p.writer ∧
      Stores shardId others given s.disk p.dir inodeOf := by
  obtain ⟨p₀, inodeOf₁, hplain, hstart⟩ := hstores.openFiles hshard hlisting hopen
  obtain ⟨p, hp, inodeOf, hrefines⟩ := System.execute_simulates
    (PlainLog.system hash shardId p₀) System.anyStep
    (fun s p => ∃ inodeOf, Refines shardId others given s p inodeOf)
    (fun s p a t ⟨inodeOf, hrefines⟩ hok hs => by
      obtain ⟨p', inodeOf', hstep, hrefines'⟩ := hrefines.step hshard hok hs
      exact ⟨trivial, p', hstep, inodeOf', hrefines'⟩) ⟨inodeOf₁, hstart⟩ h
  exact ⟨p₀, p, inodeOf, hplain, hp, hrefines.outputs, hrefines.writer, hrefines.writes.stores⟩

end

/-- A directory with a file that is no segment and one of another shard. -/
def sharedDisk : Disk where
  entries := [(['n', 'o', 't', 'e'], 0), (segmentFilename 4 0, 1)]
  inodes := fun _ => .empty
  nextInode := 2

theorem stores_sharedDisk :
    Stores 5 sharedDisk.entries sharedDisk.inodes sharedDisk .empty id where
  entries := .refl _
  content _ hf := nomatch hf
  inodes := by decide
  old := by decide
  small _ hf := nomatch hf
  foreign := by
    have hparsed : ∀ entry ∈ sharedDisk.entries,
        parseSegmentFilename entry.1 = none ∨ parseSegmentFilename entry.1 = some (4, 0) := by
      decide +kernel
    intro entry hentry segmentId hparse
    rcases hparsed entry hentry with h | h
    · rw [hparse] at h
      cases h
    · rw [hparse] at h
      cases h
  given _ _ := rfl

/-- The names in the directory after a first rotation. -/
def rotatedEntries : List (Text × Nat) :=
  (segmentFilename 5 1, 3) :: (segmentFilename 5 0, 2) :: sharedDisk.entries

/-- A record is read from a cached file of a segment that is full by then, the segment is
collected, and the log is opened again. The names come in some other order each time. -/
def cachedAndCollected : List LogCall :=
  [.append 7 1 0 0 [10] 0 0,
    .read ((segmentFilename 5 0, 2) :: sharedDisk.entries)
      (StreamLogIndex.new.insert 7 0 ⟨0, 64, 49⟩) 7 0,
    .append 7 1 1 1 [11] 0 0,
    .read rotatedEntries.reverse (StreamLogIndex.new.insert 7 0 ⟨0, 64, 49⟩) 7 0,
    .collect rotatedEntries.reverse [],
    .reopen (((segmentFilename 5 1, 3) :: sharedDisk.entries).reverse) ⟨130, 2, none, 0, 0⟩]

theorem logFiles_refine_sharedDisk :
    ∃ s₀ s p₀ p inodeOf,
      LogFiles.openFiles crc32 5 sharedDisk [] sharedDisk.entries.reverse
        ⟨130, 2, none, 0, 0⟩ = some s₀ ∧
      System.execute (LogFiles.system crc32 5 s₀) LogFiles.listed s₀ cachedAndCollected = some s ∧
      s.disk.entries = (segmentFilename 5 1, 3) :: sharedDisk.entries ∧
      PlainLog.openPlain crc32 5 .empty [] ⟨130, 2, none, 0, 0⟩ = some p₀ ∧
      System.execute (PlainLog.system crc32 5 p₀) System.anyStep p₀ cachedAndCollected = some p ∧
      s.outputs = p.outputs ∧ s.writer.writer = p.writer ∧
      Stores 5 sharedDisk.entries sharedDisk.inodes s.disk p.dir inodeOf := by
  have hrun : ((LogFiles.openFiles crc32 5 sharedDisk [] sharedDisk.entries.reverse
      ⟨130, 2, none, 0, 0⟩).bind fun s₀ => System.execute (LogFiles.system crc32 5 s₀)
        LogFiles.listed s₀ cachedAndCollected).any fun s =>
          decide (s.disk.entries = (segmentFilename 5 1, 3) :: sharedDisk.entries) := by
    decide +kernel
  obtain ⟨s, hs, hentries⟩ := (Option.any_eq_true _ _).mp hrun
  obtain ⟨s₀, hopen, hcalls⟩ := Option.bind_eq_some_iff.mp hs
  obtain ⟨p₀, p, inodeOf, hplain, hp, houtputs, hwriter, hstores⟩ := logFiles_refine (by decide)
    stores_sharedDisk (List.reverse_perm _) hopen hcalls
  exact ⟨s₀, s, p₀, p, inodeOf, hopen, hcalls, of_decide_eq_true hentries, hplain, hp, houtputs,
    hwriter, hstores⟩

end WalServer.Wal
