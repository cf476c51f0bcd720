import WalServer.Lib.Transition
import WalServer.Shard.Core
import WalServer.Wal.Found

/-!
# `WalServer.Wal.Rebuild`: recovery rebuilds what the live path built

The part of an engine that lives in the log: writer, segment files, index and
stream table. A step appends a record and enters it in index and table, as
`apply_append_entry` does, or closes the log and opens it again. No write is
torn and no file is removed.

The live path and the scan of `WalWriter::open` are two programs that build the
same four things. They agree because each of them folds the same three functions
over the same list: the records that are found in the files, each with its
location. An append adds its record at the end of that list and folds it in
(`Rebuilt.append`); opening folds the whole list (`CleanLog.openWriter`). So
opening at any time returns writer, files, index and table as they are
(`openDir_liveLog`).
-/

set_option autoImplicit false

namespace WalServer.Wal

open WalServer.Lib WalServer.Raft WalServer.Shard

/-! ### The live log -/

/-- What an engine keeps in and about its log. -/
structure LiveLog where
  writer : WalWriter
  dir : ShardDir
  index : StreamLogIndex
  streams : StreamStateTable

/-- A step of the history: a command is applied under an entry id, or the log is
closed and opened with a new configuration. -/
inductive LogAction where
  | append (entryId : Nat) (cmd : AppendCommand) (timestampNs createdTsNs : Nat)
  | reopen (maxSegmentBytes tailCacheEntries createdTsNs : Nat)

section

variable (hash : Bytes → UInt32)

namespace LiveLog

/-- Opens the log of a shard on its files, with an empty table and for all
entries. -/
def openLog (shardId : Nat) (dir : ShardDir)
    (maxSegmentBytes tailCacheEntries createdTsNs : Nat) : Option LiveLog :=
  match openDir hash shardId dir ⟨maxSegmentBytes, tailCacheEntries, none, 0, createdTsNs⟩ with
  | .ok (writer, dir', index, streams) => some ⟨writer, dir', index, streams⟩
  | _                                  => none

/-- The step function of the history. -/
def step (s : LiveLog) : LogAction → Option LiveLog
  | .append entryId cmd timestampNs createdTsNs =>
      match s.writer.appendWithLogIndex hash s.dir cmd.streamId cmd.epoch cmd.streamLsn entryId
        cmd.payload timestampNs createdTsNs with
      | .ok (writer, dir, _, loc) =>
          some ⟨writer, writer.sync dir, s.index.insert cmd.streamId cmd.streamLsn loc,
            ShardCore.applyCommand s.streams entryId cmd⟩
      | _ => none
  | .reopen maxSegmentBytes tailCacheEntries createdTsNs =>
      openLog hash s.writer.shardId s.dir maxSegmentBytes tailCacheEntries createdTsNs

/-- The log of a shard that has no files yet, after it was opened. -/
def created (shardId maxSegmentBytes tailCacheEntries createdTsNs : Nat) : LiveLog where
  writer := ⟨shardId, 0, segmentHeaderSize, 0, 1, maxSegmentBytes⟩
  dir := ShardDir.empty.insert (newSegment shardId 0 createdTsNs)
  index := StreamLogIndex.new
  streams := .new tailCacheEntries

end LiveLog

/-- The history of a log as a transition system. -/
def liveLog (shardId maxSegmentBytes tailCacheEntries createdTsNs : Nat) :
    System LiveLog LogAction where
  init := .created shardId maxSegmentBytes tailCacheEntries createdTsNs
  step := LiveLog.step hash

/-- The history starts with what opening makes of a directory without files. -/
theorem LiveLog.openLog_empty (shardId maxSegmentBytes tailCacheEntries createdTsNs : Nat) :
    openLog hash shardId .empty maxSegmentBytes tailCacheEntries createdTsNs =
      some (.created shardId maxSegmentBytes tailCacheEntries createdTsNs) := rfl

end

/-- What is asked of a step: an appended record has a positive entry id, 64-bit
fields, and a body length that fits its field. -/
def logPermitted (_ : LiveLog) : LogAction → Prop
  | .append entryId cmd timestampNs _ =>
      1 ≤ entryId ∧
        WalRecord.Fits ⟨cmd.streamId, cmd.epoch, entryId, cmd.streamLsn, timestampNs, cmd.payload⟩
  | .reopen _ _ _ => True

instance (s : LiveLog) (a : LogAction) : Decidable (logPermitted s a) := by
  unfold logPermitted
  split <;> infer_instance

/-! ### Folding in one more record -/

/-- The next entry id after one more found record. -/
theorem nextEntryIdOf_concat (found : List (WalRecord × RecordLocation))
    (p : WalRecord × RecordLocation) :
    nextEntryIdOf (found ++ [p]) = max (nextEntryIdOf found) (p.1.entryId + 1) := by
  unfold nextEntryIdOf
  rw [List.foldl_append, List.foldl_cons, List.foldl_nil]
  split <;> omega

/-- The table after one more recovered record. -/
theorem recoverStreams_concat (t : StreamStateTable) (bound : Nat) (records : List WalRecord)
    (r : WalRecord) :
    recoverStreams t bound (records ++ [r]) =
      if bound < r.entryId then
        (recoverStreams t bound records).observeRecovered r.streamId r.epoch r.entryId r.streamLsn
          r.payload
      else recoverStreams t bound records := by
  unfold recoverStreams
  rw [List.foldl_append]
  rfl

/-! ### What every history keeps -/

/-- The files are clean, and writer, index and table are the folds over what is
found in them. -/
structure Rebuilt (hash : Bytes → UInt32) (s : LiveLog) : Prop where
  log : CleanLog hash s.writer s.dir
  nextEntryId : s.writer.nextEntryId = nextEntryIdOf (s.dir.found hash)
  index : s.index = indexRecords (s.dir.found hash)
  streams : s.streams = recoverStreams (.new s.streams.tailCacheLimit) 0
    ((s.dir.found hash).map Prod.fst)

variable {hash : Bytes → UInt32} {s t : LiveLog}

variable (hash) in
/-- A new log is clean, and nothing is found in it. -/
theorem cleanLog_created (shardId maxSegmentBytes tailCacheEntries createdTsNs : Nat) :
    CleanLog hash (LiveLog.created shardId maxSegmentBytes tailCacheEntries createdTsNs).writer
        (LiveLog.created shardId maxSegmentBytes tailCacheEntries createdTsNs).dir ∧
      (LiveLog.created shardId maxSegmentBytes tailCacheEntries createdTsNs).dir.found hash =
        [] := by
  obtain ⟨hclean, hempty⟩ := clean_newSegment hash shardId 0 createdTsNs
  have hfiles : (LiveLog.created shardId maxSegmentBytes tailCacheEntries createdTsNs).dir.files =
      [] ++ [newSegment shardId 0 createdTsNs] := rfl
  constructor
  · refine ⟨fun f hf => ?_, ⟨[], _, hfiles, rfl, ?_⟩, rfl⟩
    · rw [hfiles, List.nil_append, List.mem_singleton] at hf
      rw [hf]
      exact hclean
    · exact (length_encodeSegmentHeader _ _ _).symm
  · rw [found_of_files hfiles, hempty]
    rfl

/-- A new log is rebuilt from nothing. -/
theorem rebuilt_created (shardId maxSegmentBytes tailCacheEntries createdTsNs : Nat) :
    Rebuilt hash (.created shardId maxSegmentBytes tailCacheEntries createdTsNs) := by
  obtain ⟨hclean, hfound⟩ :=
    cleanLog_created hash shardId maxSegmentBytes tailCacheEntries createdTsNs
  refine ⟨hclean, ?_, ?_, ?_⟩
  all_goals
    rw [hfound]
    rfl

/-- **An append** folds its record in. -/
theorem Rebuilt.append (h : Rebuilt hash s) {entryId : Nat} {cmd : AppendCommand}
    {timestampNs createdTsNs : Nat}
    (hok : logPermitted s (.append entryId cmd timestampNs createdTsNs))
    (hs : s.step hash (.append entryId cmd timestampNs createdTsNs) = some t) :
    Rebuilt hash t := by
  obtain ⟨hpositive, hfits⟩ := hok
  obtain ⟨w, dir, happend, hlog, hfound, hnext, -, -⟩ := h.log.append hfits createdTsNs
  obtain ⟨hsynced, hsame⟩ := hlog.sync
  rw [LiveLog.step, happend] at hs
  cases hs
  have hall := hsame.trans hfound
  refine ⟨hsynced, ?_, ?_, ?_⟩
  · show w.nextEntryId = nextEntryIdOf ((w.sync dir).found hash)
    rw [hall, nextEntryIdOf_concat, hnext, h.nextEntryId]
  · show s.index.insert _ _ _ = indexRecords ((w.sync dir).found hash)
    rw [hall, indexRecords_concat, ← h.index]
  · show ShardCore.applyCommand s.streams entryId cmd =
      recoverStreams (.new s.streams.tailCacheLimit) 0 (((w.sync dir).found hash).map Prod.fst)
    rw [hall, List.map_append, List.map_singleton, recoverStreams_concat,
      if_pos (show 0 < entryId from hpositive), ← h.streams,
      ShardCore.applyCommand_eq_observeRecovered]

/-- **Opening a rebuilt log** returns it, with the configuration it is opened
with: the table is the one that was there if it is opened with the same limit. -/
theorem Rebuilt.openDir (h : Rebuilt hash s) (maxSegmentBytes createdTsNs : Nat)
    {start : Option StreamStateTable} {tailCacheEntries : Nat}
    (hstart : start.getD (.new tailCacheEntries) = .new tailCacheEntries) :
    openDir hash s.writer.shardId s.dir
        ⟨maxSegmentBytes, tailCacheEntries, start, 0, createdTsNs⟩ =
      .ok ({ s.writer with maxSegmentBytes := maxSegmentBytes }, s.dir, s.index,
        recoverStreams (.new tailCacheEntries) 0 ((s.dir.found hash).map Prod.fst)) := by
  rw [h.log.openWriter, ← h.nextEntryId, ← h.index, hstart]

/-- Recovery keeps the limit of the table it starts from. -/
@[simp] theorem tailCacheLimit_recoverStreams (t : StreamStateTable) (bound : Nat)
    (records : List WalRecord) :
    (recoverStreams t bound records).tailCacheLimit = t.tailCacheLimit := by
  induction records using List.reverseRecOn with
  | nil => rfl
  | append_singleton records r ih =>
      rw [recoverStreams_concat]
      split
      · exact ih
      · exact ih

/-- **Every permitted step keeps the log rebuilt.** -/
theorem rebuilt_step {a : LogAction} (h : Rebuilt hash s) (hok : logPermitted s a)
    (hs : s.step hash a = some t) : Rebuilt hash t := by
  cases a with
  | append entryId cmd timestampNs createdTsNs => exact h.append hok hs
  | reopen maxSegmentBytes tailCacheEntries createdTsNs =>
      rw [LiveLog.step, LiveLog.openLog, h.openDir maxSegmentBytes createdTsNs rfl] at hs
      cases hs
      refine ⟨⟨h.log.clean, h.log.last, h.log.next⟩, h.nextEntryId, h.index, ?_⟩
      rw [tailCacheLimit_recoverStreams]
      rfl

/-- **Recovery rebuilds what the live path built.** After any history, opening
the files from an empty table and for all entries gives the writer, the index and
the table that are there. -/
theorem openDir_liveLog {shardId maxSegmentBytes tailCacheEntries createdTsNs : Nat}
    (h : (liveLog hash shardId maxSegmentBytes tailCacheEntries createdTsNs).Reachable
      logPermitted s)
    {start : Option StreamStateTable}
    (hstart : start.getD (.new s.streams.tailCacheLimit) = .new s.streams.tailCacheLimit)
    (reopenedTsNs : Nat) :
    openDir hash s.writer.shardId s.dir ⟨s.writer.maxSegmentBytes, s.streams.tailCacheLimit,
        start, 0, reopenedTsNs⟩ =
      .ok (s.writer, s.dir, s.index, s.streams) := by
  have hrebuilt : Rebuilt hash s :=
    h.invariant (rebuilt_created shardId maxSegmentBytes tailCacheEntries createdTsNs)
      fun _ _ _ _ hr hok hs => rebuilt_step hr hok hs
  rw [hrebuilt.openDir s.writer.maxSegmentBytes reopenedTsNs hstart, ← hrebuilt.streams]

/-- Two streams over four segments, a position that is written twice, a cache
that drops a record and a reopening in between. -/
theorem openDir_liveLog_fourSegments :
    ∃ s, (liveLog crc32 1 130 2 0).Reachable logPermitted s ∧ s.writer.currentSegmentId = 3 ∧
      (s.streams.ensureStream 7).tailCache.map TailRecord.streamLsn = [1, 1] ∧
      openDir crc32 s.writer.shardId s.dir ⟨s.writer.maxSegmentBytes, s.streams.tailCacheLimit,
        none, 0, 9⟩ = .ok (s.writer, s.dir, s.index, s.streams) := by
  obtain ⟨s, hs, hsegment, htail⟩ := System.exists_reachable_of_execute (liveLog crc32 1 130 2 0)
    logPermitted
    [.append 1 ⟨1, 7, 1, 0, [10]⟩ 5 5, .append 2 ⟨2, 7, 1, 1, [11]⟩ 6 6,
      .append 3 ⟨1, 8, 4, 0, [12]⟩ 7 7, .reopen 130 2 8, .append 3 ⟨2, 7, 1, 1, [11]⟩ 7 7,
      .append 5 ⟨2, 8, 4, 1, List.replicate 30 1⟩ 8 8]
    (fun s => s.writer.currentSegmentId = 3 ∧
      (s.streams.ensureStream 7).tailCache.map TailRecord.streamLsn = [1, 1]) (by decide +kernel)
  exact ⟨s, hs, hsegment, htail, openDir_liveLog hs rfl 9⟩

end WalServer.Wal
