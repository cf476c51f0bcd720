import WalServer.Lib.ByKey
import WalServer.Wal.Found
import WalServer.Wal.Opened
import WalServer.Shard.Serving

/-!
# `WalServer.Wal.Retention`: what the log keeps over crashes and collections

`Wal.Crash` has the log without garbage collection, and no step of it removes a file. Here
is the log with its index: a record is written, then synced and indexed, as
`apply_append_entry` does; a collection drops the consumed positions from the index and
removes the files that no entry is left for (`collectIndex`, `collectDir`; the engine's
`run_gc` is this, `runGc_collects`); and a crash may come at any moment, also between the
writing of a record and its sync, in the middle of a write, before a segment that it has
filled is left, and in the middle of a collection, with some files still there.

A log with a collector is a map from positions to records, of which only positions that
were consumed may get lost: in every permitted run, reading an unconsumed position through
the index gives the last record written at it, and it does so again after any crash, with
what the crash has kept of the last writes (`unconsumed_records_kept`). A position may be
written several times and the older copies may be collected: a file goes only when the
index leads to a copy elsewhere, and that copy is on stable storage by then.
-/

set_option autoImplicit false

namespace WalServer.Wal

open WalServer.Lib WalServer.Shard

/-- The position of a record. -/
def WalRecord.position (r : WalRecord) : Nat × Nat := (r.streamId, r.streamLsn)

/-- Enters a record in the index. -/
def insertFound (ix : StreamLogIndex) (p : WalRecord × RecordLocation) : StreamLogIndex :=
  ix.insert p.1.streamId p.1.streamLsn p.2

/-! ### Garbage collection -/

/-- The index without the positions that the streams have consumed. -/
def collectIndex (statuses : List (Nat × Nat)) (ix : StreamLogIndex) : StreamLogIndex :=
  statuses.foldl
    (fun ix p => if 0 < p.2 then ix.truncateStreamBefore p.1 p.2 else ix) ix

/-- The segments that stay: the current one, those that the index leads into, and those that
a collection has not come to. -/
def keepsSegment (ix : StreamLogIndex) (current : Nat) (left : List Nat) (segmentId : Nat) :
    Bool :=
  decide (segmentId = current ∨ segmentId ∈ ix.liveSegmentIds ∨ segmentId ∈ left)

/-- The directory without the files that no index entry is left for, but for some. -/
def collectDir (ix : StreamLogIndex) (current : Nat) (left : List Nat) (dir : ShardDir) :
    ShardDir :=
  dir.keep (keepsSegment ix current left)

/-- The highest position below which a stream's records were ever collected. -/
def collectConsumed (statuses : List (Nat × Nat)) (consumed : Nat → Nat) : Nat → Nat :=
  statuses.foldl (fun c p => Function.update c p.1 (max (c p.1) p.2)) consumed

/-- How far the streams of an engine are consumed. -/
def watermarks (e : ShardEngine) : List (Nat × Nat) :=
  e.core.streams.allStatuses.map fun st => (st.streamId, st.consumedStreamLsn)

/-- **The engine's garbage collection** is this one. -/
theorem runGc_collects (e : ShardEngine) :
    e.runGc.index = collectIndex (watermarks e) e.index ∧
      e.runGc.dir = collectDir (collectIndex (watermarks e) e.index)
        e.walWriter.currentSegmentId [] e.dir := by
  have hindex : collectIndex (watermarks e) e.index = e.gcIndex := by
    rw [collectIndex, watermarks, List.foldl_map]
    rfl
  obtain ⟨walReader, hgc⟩ := e.runGc_eq
  rw [hgc, hindex]
  refine ⟨rfl, congrArg e.dir.keep (funext fun segmentId => ?_)⟩
  simp [keepsSegment, ShardEngine.gcKeeps]

/-! ### The log with its index -/

/-- The log of a shard with its index. Entries for the `unindexed` records are to be made
once they are synced. `recorded` and `consumed` are records of what happened: all that was
ever on stable storage, and how far the streams' records were collected. -/
structure RecordStore where
  log : WalState
  index : StreamLogIndex
  unindexed : List (WalRecord × RecordLocation)
  recorded : List WalRecord
  consumed : Nat → Nat

namespace RecordStore

/-- What happens to the log. -/
inductive Action where
  /-- A record is written. -/
  | write (r : WalRecord) (createdTsNs : Nat)
  /-- What was written is synced and indexed. -/
  | finish
  /-- Garbage is collected, with what the streams have consumed. -/
  | collect (statuses : List (Nat × Nat))
  /-- The process ends, some unsynced bytes get lost, and the log is opened again. -/
  | crash (keep : Nat) (args : OpenArgs)
  /-- The same in the middle of a write, before a segment that it has filled is left. -/
  | crashInWrite (r : WalRecord) (keep : Nat) (args : OpenArgs)
  /-- The same in the middle of a collection, which has left some files. -/
  | crashInCollect (statuses : List (Nat × Nat)) (left : List Nat) (keep : Nat) (args : OpenArgs)

/-- An end of the process, at whatever moment. -/
def Action.crashes : Action → Bool
  | .crash _ _ | .crashInWrite _ _ _ | .crashInCollect _ _ _ _ => true
  | .write _ _ | .finish | .collect _                          => false

/-- The append of a record. -/
def appendOf (r : WalRecord) (createdTsNs : Nat) : WalAction :=
  .append r.streamId r.epoch r.streamLsn r.entryId r.payload r.timestampNs createdTsNs

section

variable (hash : Bytes → UInt32) (shardId : Nat)

/-- The state with a log that has gone on. -/
def goOn (s : RecordStore) (log : WalState) : RecordStore :=
  { s with log := log, recorded := s.recorded ++ log.synced.drop s.log.synced.length }

/-- The state after the bytes of a record were written to the current segment. -/
def written (s : RecordStore) (r : WalRecord) : RecordStore :=
  { s with
    log := { s.log with
      dir := writtenDir hash s.log.writer s.log.dir r
      writer := { s.log.writer with
        nextEntryId := max s.log.writer.nextEntryId (r.entryId + 1)
        currentOffset := s.log.writer.currentOffset + r.encodedSize }
      unsynced := s.log.unsynced ++ [r] }
    unindexed := s.unindexed ++ [(r, appendLocation s.log.writer r)] }

/-- The state after a collection that has left some files. -/
def collected (s : RecordStore) (statuses : List (Nat × Nat)) (left : List Nat) : RecordStore :=
  let index := collectIndex statuses s.index
  let dir := collectDir index s.log.writer.currentSegmentId left s.log.dir
  { s with
    log := { s.log with dir := dir, synced := (dir.found hash).map Prod.fst }
    index := index
    consumed := collectConsumed statuses s.consumed }

/-- The state after the process has ended and the log was opened again. -/
def crashed (s : RecordStore) (keep : Nat) (args : OpenArgs) : Option RecordStore :=
  match openDir hash shardId (s.log.dir.crash keep) args with
  | .ok (_, _, index, _) =>
      (s.log.step hash shardId (.crash keep args)).map fun log =>
        { s.goOn log with index := index, unindexed := [] }
  | _ => none

/-- What an action does. -/
def step (s : RecordStore) : Action → Option RecordStore
  | .write r createdTsNs =>
      (s.log.step hash shardId (appendOf r createdTsNs)).map fun log =>
        { s.goOn log with unindexed := s.unindexed ++ [(r, appendLocation s.log.writer r)] }
  | .finish =>
      (s.log.step hash shardId .sync).map fun log =>
        { s.goOn log with index := s.unindexed.foldl insertFound s.index, unindexed := [] }
  | .collect statuses => some (s.collected hash statuses [])
  | .crash keep args => s.crashed hash shardId keep args
  | .crashInWrite r keep args => (s.written hash r).crashed hash shardId keep args
  | .crashInCollect statuses left keep args =>
      (s.collected hash statuses left).crashed hash shardId keep args

/-- The runs of a log that was just created. -/
def system (maxSegmentBytes createdTsNs : Nat) : System RecordStore Action where
  init := ⟨.init shardId maxSegmentBytes createdTsNs, .new, [], [], fun _ => 0⟩
  step := step hash shardId

/-- The condition on an action: a record is written to a clean segment and its size fits 32
bits, and garbage is not collected in the middle of an append. -/
def permitted (s : RecordStore) : Action → Prop
  | .write r createdTsNs      => walPermitted hash s.log (appendOf r createdTsNs)
  | .crashInWrite r _ _       => walPermitted hash s.log (appendOf r 0)
  | .collect _                => s.unindexed = []
  | .crashInCollect _ _ _ _   => s.unindexed = []
  | _                         => True

instance (s : RecordStore) (a : Action) : Decidable (s.permitted hash a) := by
  cases a <;> dsimp only [permitted] <;> infer_instance

end

end RecordStore

/-! ### The index and what is found -/

section

variable {hash : Bytes → UInt32}

/-- **The index of what was found** leads to the last record of a position. -/
theorem lookup_indexRecords (found : List (WalRecord × RecordLocation)) (streamId streamLsn : Nat) :
    (indexRecords found).lookup streamId streamLsn =
      (latest (fun p => p.1.position) (streamId, streamLsn) found).map Prod.snd := by
  induction found using List.reverseRecOn with
  | nil => rfl
  | append_singleton found p ih =>
      rw [indexRecords_concat, StreamLogIndex.lookup_insert, latest_concat, ih]
      have hkey : (streamId = p.1.streamId ∧ streamLsn = p.1.streamLsn) ↔
          p.1.position = (streamId, streamLsn) := by
        rw [WalRecord.position, Prod.mk.injEq, eq_comm, @eq_comm _ streamLsn]
      simp only [hkey]
      split <;> rfl

/-- **Reading through the index** gives the last record of a position, if what was found
can be read. -/
theorem read_indexRecords {dir : ShardDir} {found : List (WalRecord × RecordLocation)}
    (hread : ∀ p ∈ found, dir.readRecordAt hash p.2 = some p.1) (streamId streamLsn : Nat) :
    ((indexRecords found).lookup streamId streamLsn).bind (dir.readRecordAt hash) =
      latest WalRecord.position (streamId, streamLsn) (found.map Prod.fst) := by
  rw [lookup_indexRecords, latest_map]
  cases hlatest : latest (fun p : WalRecord × RecordLocation => p.1.position)
      (streamId, streamLsn) found with
  | none => rfl
  | some p => exact hread p (latest_eq_some hlatest).1

/-- What is found in a file that holds records. -/
theorem fileFound_holds {f : SegmentFile} {rs : List WalRecord} (h : Holds hash f rs) :
    fileFound hash f = fileLayout f rs := by
  rcases h with ⟨hshort, rfl⟩ | hwhole
  · unfold fileFound
    rw [scanRecords, dif_neg (by omega)]
    rfl
  · exact fileFound_whole hwhole

/-- What is found in files that hold records. -/
theorem found_holds {dir : ShardDir} {rss : List (List WalRecord)}
    (h : List.Forall₂ (Holds hash) dir.files rss) : dir.found hash = foundIn dir.files rss := by
  unfold ShardDir.found foundIn
  generalize dir.files = files at h ⊢
  induction h with
  | nil => rfl
  | cons hf _ ih =>
      rw [List.flatMap_cons, List.zipWith_cons_cons, List.flatten_cons, ih, fileFound_holds hf]

/-- What is found in a file, whatever it holds, is found at a location in the file. -/
theorem segmentId_of_mem_found {f : SegmentFile} {p : WalRecord × RecordLocation}
    (hp : p ∈ fileFound hash f) : p.2.segmentId = f.segmentId := by
  unfold fileFound at hp
  split at hp
  · rename_i found hscan
    exact (mem_scanRecords hscan hp).1
  · cases hp

/-- **What is left to be found** when some files are removed. -/
theorem found_keep (dir : ShardDir) (p : Nat → Bool) :
    (dir.keep p).found hash = (dir.found hash).filter fun q => p q.2.segmentId := by
  show (dir.files.filter fun f => p f.segmentId).flatMap _ = (dir.files.flatMap _).filter _
  induction dir.files with
  | nil => rfl
  | cons f files ih =>
      rw [List.flatMap_cons, List.filter_append, ← ih]
      have hsegment : (fileFound hash f).filter (fun q => p q.2.segmentId) =
          (fileFound hash f).filter fun _ => p f.segmentId :=
        List.filter_congr fun q hq => by rw [segmentId_of_mem_found hq]
      rw [hsegment]
      cases hp : p f.segmentId with
      | true => rw [List.filter_cons_of_pos (by exact hp), List.flatMap_cons, List.filter_true]
      | false =>
          rw [List.filter_cons_of_neg (by rw [hp]; decide), List.filter_false, List.nil_append]

/-- Syncing changes nothing that is found. -/
theorem found_sync (w : WalWriter) (dir : ShardDir) :
    (w.sync dir).found hash = dir.found hash := by
  show (dir.files.map _).flatMap _ = dir.files.flatMap _
  rw [List.flatMap_map]
  refine List.flatMap_congr fun f _ => ?_
  split <;> rfl

/-! ### What the steps of the log do to what is found -/

variable {shardId : Nat} {log log' : WalState} {pre : List SegmentFile} {last : SegmentFile}
  {rss : List (List WalRecord)} {rs : List WalRecord}

/-- All files of a laid out log hold their records. -/
theorem LaidOut.holds (h : LaidOut hash log pre last rss rs) :
    List.Forall₂ (Holds hash) log.dir.files (rss ++ [rs ++ log.unsynced]) := by
  rw [h.files]
  exact List.rel_append h.older (.cons h.current .nil)

/-- **What is found in a laid out log** are its records, and all of it can be read. -/
theorem WellLaid.found (h : WellLaid hash log) :
    (log.dir.found hash).map Prod.fst = log.synced ++ log.unsynced ∧
      ∀ p ∈ log.dir.found hash, log.dir.readRecordAt hash p.2 = some p.1 := by
  obtain ⟨pre, last, rss, rs, h⟩ := h
  have hrecords : (log.dir.found hash).map Prod.fst = log.synced ++ log.unsynced := by
    rw [found_holds h.holds, foundIn, map_fst_found h.holds, List.flatten_concat, h.synced,
      List.append_assoc]
  refine ⟨hrecords, fun p hp => ?_⟩
  have hsmall : p.1.encodedSize < 2 ^ 32 :=
    h.small p.1 (hrecords ▸ List.mem_map_of_mem hp)
  rw [found_holds h.holds] at hp
  obtain ⟨f, hf, rs', hholds, hlayout⟩ := mem_foundIn h.holds hp
  exact readRecordAt_layout hf hholds hlayout hsmall

variable (shardId) in
/-- **Opening after a crash** builds the index of what is found then: the synced records and
those that the crash has kept. -/
theorem WellLaid.openDir_crash (h : WellLaid hash log) (keep : Nat) (args : OpenArgs) :
    ∃ w streams, openDir hash shardId (log.dir.crash keep) args =
        .ok (w, log.dir.crash keep, indexRecords ((log.dir.crash keep).found hash), streams) ∧
      ((log.dir.crash keep).found hash).map Prod.fst = log.synced ++ log.survivors keep ∧
      ∀ p ∈ (log.dir.crash keep).found hash,
        (log.dir.crash keep).readRecordAt hash p.2 = some p.1 := by
  obtain ⟨pre, last, rss, rs, h⟩ := h
  obtain ⟨hcurrent, -⟩ := h.crash keep
  have hfiles := ShardDir.files_crash h.files h.olderSynced keep
  have hholds : List.Forall₂ (Holds hash) (log.dir.crash keep).files
      (rss ++ [rs ++ log.survivors keep]) := by
    rw [hfiles]
    exact List.rel_append h.older (.cons hcurrent .nil)
  obtain ⟨w, streams, hopen, -⟩ := openDir_holds shardId hfiles hholds args
  have hrecords : ((log.dir.crash keep).found hash).map Prod.fst =
      log.synced ++ log.survivors keep := by
    rw [found_holds hholds, foundIn, map_fst_found hholds, List.flatten_concat, h.synced,
      List.append_assoc]
  refine ⟨w, streams, by rw [hopen, found_holds hholds], hrecords, fun p hp => ?_⟩
  have hsmall : p.1.encodedSize < 2 ^ 32 := by
    have hmem : p.1 ∈ log.synced ++ log.survivors keep := hrecords ▸ List.mem_map_of_mem hp
    rcases List.mem_append.mp hmem with hold | hkept
    · exact h.small p.1 (List.mem_append_left _ hold)
    · exact h.small p.1 (List.mem_append_right _ (mem_of_mem_wholeWithin hkept))
  rw [found_holds hholds] at hp
  obtain ⟨f, hf, rs', hfrs, hlayout⟩ := mem_foundIn hholds hp
  exact readRecordAt_layout hf hfrs hlayout hsmall

/-- A record written to a clean segment is found behind the records before it. -/
theorem LaidOut.found_written (h : LaidOut hash log pre last rss rs)
    (hc : CurrentClean hash log) {r : WalRecord} (hr : r.Fits) (hsize : r.encodedSize < 2 ^ 32) :
    (writtenDir hash log.writer log.dir r).found hash =
      log.dir.found hash ++ [(r, appendLocation log.writer r)] := by
  have happend := h.append hc hr hsize (w := { log.writer with
    currentOffset := log.writer.currentOffset + r.encodedSize }) rfl rfl rfl
  have hend := (h.of_currentClean hc).2
  have hwritten : (writtenDir hash log.writer log.dir r).files =
      pre ++ [last.writeAllAt (r.encodeToVec hash) log.writer.currentOffset] := happend.files
  rw [found_of_files hwritten, found_of_files h.files, fileFound_holds happend.current,
    fileFound_holds h.current, ← List.append_assoc rs, fileLayout, fileLayout,
    layout_append hash, List.append_assoc]
  show _ = _ ++ (_ ++ [(r, RecordLocation.mk log.writer.currentSegmentId
    log.writer.currentOffset _)])
  rw [h.segmentId, h.offset, hend]
  rfl

/-- Rotating changes nothing that is found. -/
theorem LaidOut.found_rotate (h : LaidOut hash log pre last rss rs) {w : WalWriter}
    {dir : ShardDir} {createdTsNs : Nat}
    (hrotate : log.writer.rotate log.dir createdTsNs = .ok (w, dir)) :
    dir.found hash = log.dir.found hash := by
  obtain ⟨dir', hcreate, hret⟩ := Outcome.bind_eq_ok.mp hrotate
  cases hret
  have hsync := h.sync
  have hbelow : ∀ g ∈ (log.writer.sync log.dir).files, g.segmentId < log.writer.nextSegmentId := by
    intro g hg
    rw [h.nextSegmentId]
    rw [hsync.files] at hg
    rcases List.mem_append.mp hg with hpre | hlast
    · exact Nat.lt_succ_of_lt (ShardDir.lt_of_files_eq hsync.files hpre)
    · rw [List.mem_singleton.mp hlast]
      exact Nat.lt_succ_self _
  unfold Wal.createSegment at hcreate
  split at hcreate
  · cases hcreate
  · cases hcreate
    have hfiles := ShardDir.files_insert_last
      (f := newSegment log.writer.shardId log.writer.nextSegmentId createdTsNs) hbelow
    have hnew := (clean_newSegment hash log.writer.shardId log.writer.nextSegmentId createdTsNs).2
    have hfound := @found_of_files hash _ _ _ hfiles
    rw [hnew, List.append_nil] at hfound
    exact hfound.trans (found_sync log.writer log.dir)

/-- **A write** adds its record to what is found, whether or not it has filled the segment. -/
theorem WellLaid.found_write (h : WellLaid hash log) {r : WalRecord} {createdTsNs : Nat}
    (hok : walPermitted hash log (RecordStore.appendOf r createdTsNs))
    (hs : log.step hash shardId (RecordStore.appendOf r createdTsNs) = some log') :
    log'.dir.found hash = log.dir.found hash ++ [(r, appendLocation log.writer r)] := by
  obtain ⟨pre, last, rss, rs, h⟩ := h
  obtain ⟨hclean, hfits, hsize⟩ := hok
  have hfound := h.found_written hclean hfits hsize
  have happend := h.append hclean hfits hsize (w := { log.writer with
    nextEntryId := max log.writer.nextEntryId (r.entryId + 1)
    currentOffset := log.writer.currentOffset + r.encodedSize }) rfl rfl rfl
  simp only [RecordStore.appendOf, WalState.step, WalWriter.appendWithLogIndex] at hs
  split at hs
  · rename_i w dir e loc hrun
    split at hrun
    · -- The append fills the segment and is followed by a rotation.
      obtain ⟨⟨w', dir'⟩, hrotate, hret⟩ := Outcome.bind_eq_ok.mp hrun
      cases hret
      have hsame := (happend.found_rotate hrotate).trans hfound
      split at hs
      · cases hs
        exact hsame
      · cases hs
        exact hsame
    · cases hrun
      rw [if_pos rfl] at hs
      cases hs
      exact hfound
  · cases hs

/-- What is on stable storage stays there. -/
theorem synced_step {a : WalAction} (hs : log.step hash shardId a = some log') :
    ∃ records, log'.synced = log.synced ++ records := by
  cases a with
  | append streamId epoch streamLsn entryId payload timestampNs createdTsNs =>
      simp only [WalState.step] at hs
      split at hs
      · split at hs
        · cases hs
          exact ⟨[], (List.append_nil _).symm⟩
        · cases hs
          exact ⟨_, rfl⟩
      · cases hs
  | rotate createdTsNs =>
      rw [WalState.step] at hs
      split at hs
      · cases hs
        exact ⟨_, rfl⟩
      · cases hs
  | sync =>
      cases hs
      exact ⟨_, rfl⟩
  | crash keep args =>
      rw [WalState.step] at hs
      split at hs
      · cases hs
        exact ⟨_, rfl⟩
      · cases hs

end

/-! ### What every run keeps -/

namespace RecordStore

variable {hash : Bytes → UInt32} {shardId : Nat} {s t : RecordStore}

/-- **What every run keeps.** At unconsumed positions the index, with the entries that are
still to be made, is the one of what is found in the files, and the last record found is the
last one ever recorded. -/
structure Retains (hash : Bytes → UInt32) (s : RecordStore) : Prop where
  laid : WellLaid hash s.log
  index : ∀ streamId streamLsn, s.consumed streamId ≤ streamLsn →
    (s.unindexed.foldl insertFound s.index).lookup streamId streamLsn =
      (indexRecords (s.log.dir.found hash)).lookup streamId streamLsn
  recorded : ∀ streamId streamLsn, s.consumed streamId ≤ streamLsn →
    latest WalRecord.position (streamId, streamLsn) s.log.synced =
      latest WalRecord.position (streamId, streamLsn) s.recorded
  settled : s.unindexed = [] → s.log.unsynced = []

/-- What the log has put on stable storage is recorded. -/
theorem Retains.goOn (h : Retains hash s) {log : WalState} {a : WalAction}
    (hlog : s.log.step hash shardId a = some log) (streamId streamLsn : Nat)
    (hconsumed : s.consumed streamId ≤ streamLsn) :
    latest WalRecord.position (streamId, streamLsn) log.synced =
      latest WalRecord.position (streamId, streamLsn) (s.goOn log).recorded := by
  obtain ⟨records, hrecords⟩ := synced_step hlog
  show _ = latest _ _ (s.recorded ++ log.synced.drop s.log.synced.length)
  rw [hrecords, List.drop_left]
  exact latest_append_congr (h.recorded streamId streamLsn hconsumed) records

/-- **Writing** a record. -/
theorem Retains.write (h : Retains hash s) {r : WalRecord} {createdTsNs : Nat}
    (hok : s.permitted hash (.write r createdTsNs))
    (hs : s.step hash shardId (.write r createdTsNs) = some t) : Retains hash t := by
  obtain ⟨log, hlog, rfl⟩ := Option.map_eq_some_iff.mp hs
  have hlaid : walPermitted hash s.log (appendOf r createdTsNs) := hok
  refine ⟨wellLaid_step h.laid hlaid hlog, fun streamId streamLsn hconsumed => ?_,
    h.goOn hlog, fun hnil => absurd hnil (List.concat_ne_nil _ _)⟩
  show ((s.unindexed ++ [(r, appendLocation s.log.writer r)]).foldl insertFound s.index).lookup
    streamId streamLsn = (indexRecords (log.dir.found hash)).lookup streamId streamLsn
  rw [List.foldl_append, h.laid.found_write hlaid hlog, indexRecords_concat,
    StreamLogIndex.lookup_insert, ← h.index streamId streamLsn hconsumed]
  exact StreamLogIndex.lookup_insert ..

/-- **The bytes of a record** on their own. -/
theorem Retains.written (h : Retains hash s) {r : WalRecord}
    (hok : walPermitted hash s.log (appendOf r 0)) : Retains hash (s.written hash r) := by
  obtain ⟨hclean, hfits, hsize⟩ := hok
  obtain ⟨pre, last, rss, rs, hlaid⟩ := h.laid
  refine ⟨⟨pre, _, rss, rs, hlaid.append hclean hfits hsize rfl rfl rfl⟩,
    fun streamId streamLsn hconsumed => ?_, h.recorded,
    fun hnil => absurd hnil (List.concat_ne_nil _ _)⟩
  show ((s.unindexed ++ [(r, appendLocation s.log.writer r)]).foldl insertFound s.index).lookup
    streamId streamLsn =
      (indexRecords ((writtenDir hash s.log.writer s.log.dir r).found hash)).lookup streamId
        streamLsn
  rw [List.foldl_append, hlaid.found_written hclean hfits hsize, indexRecords_concat,
    StreamLogIndex.lookup_insert, ← h.index streamId streamLsn hconsumed]
  exact StreamLogIndex.lookup_insert ..

/-- **Syncing and indexing** what was written. -/
theorem Retains.finish (h : Retains hash s) (hs : s.step hash shardId .finish = some t) :
    Retains hash t := by
  have hsync : (s.log.step hash shardId .sync).map (fun log =>
      { s.goOn log with index := s.unindexed.foldl insertFound s.index, unindexed := [] }) =
        some t := hs
  obtain ⟨log, hlog, rfl⟩ := Option.map_eq_some_iff.mp hsync
  have hlaid : walPermitted hash s.log .sync := trivial
  refine ⟨wellLaid_step h.laid hlaid hlog, fun streamId streamLsn hconsumed => ?_,
    h.goOn hlog, fun _ => ?_⟩
  · cases hlog
    show (s.unindexed.foldl insertFound s.index).lookup streamId streamLsn =
      (indexRecords ((s.log.writer.sync s.log.dir).found hash)).lookup streamId streamLsn
    rw [found_sync, h.index streamId streamLsn hconsumed]
  · cases hlog
    rfl

/-- **A crash** rebuilds the index of what it has left. -/
theorem Retains.crash (h : Retains hash s) {keep : Nat} {args : OpenArgs}
    (hs : s.crashed hash shardId keep args = some t) : Retains hash t := by
  obtain ⟨w, streams, hopen, -, -⟩ := h.laid.openDir_crash shardId keep args
  rw [crashed, hopen] at hs
  obtain ⟨log, hlog, rfl⟩ := Option.map_eq_some_iff.mp hs
  have hlaid : walPermitted hash s.log (.crash keep args) := trivial
  refine ⟨wellLaid_step h.laid hlaid hlog, fun streamId streamLsn _ => ?_, h.goOn hlog,
    fun _ => ?_⟩
  · rw [WalState.step, hopen] at hlog
    cases hlog
    rfl
  · rw [WalState.step, hopen] at hlog
    cases hlog
    rfl

/-- The log always opens again. -/
theorem Retains.exists_crashed (h : Retains hash s) (shardId keep : Nat) (args : OpenArgs) :
    ∃ t, s.crashed hash shardId keep args = some t := by
  obtain ⟨w, streams, hopen, -, -⟩ := h.laid.openDir_crash shardId keep args
  simp only [crashed, hopen, WalState.step]
  exact ⟨_, rfl⟩

/-- What was consumed at a collection, or at one before it. -/
theorem le_of_collectConsumed_le {statuses : List (Nat × Nat)} {consumed : Nat → Nat}
    {streamId streamLsn : Nat} (h : collectConsumed statuses consumed streamId ≤ streamLsn) :
    consumed streamId ≤ streamLsn ∧ ∀ p ∈ statuses, p.1 = streamId → p.2 ≤ streamLsn := by
  induction statuses generalizing consumed with
  | nil => exact ⟨h, fun _ hp => nomatch hp⟩
  | cons p statuses ih =>
      obtain ⟨hhere, hrest⟩ := ih h
      change Function.update consumed p.1 (max (consumed p.1) p.2) streamId ≤ streamLsn at hhere
      by_cases hp : p.1 = streamId
      · subst hp
        rw [Function.update_self, max_le_iff] at hhere
        refine ⟨hhere.1, fun q hq hstream => ?_⟩
        rcases List.mem_cons.mp hq with rfl | hq
        · exact hhere.2
        · exact hrest q hq hstream
      · rw [Function.update_of_ne (Ne.symm hp)] at hhere
        refine ⟨hhere, fun q hq hstream => ?_⟩
        rcases List.mem_cons.mp hq with rfl | hq
        · exact absurd hstream hp
        · exact hrest q hq hstream

/-- Positions that are not consumed keep their entries. -/
theorem lookup_collectIndex {statuses : List (Nat × Nat)} {streamId streamLsn : Nat}
    (h : ∀ p ∈ statuses, p.1 = streamId → p.2 ≤ streamLsn) (ix : StreamLogIndex) :
    (collectIndex statuses ix).lookup streamId streamLsn = ix.lookup streamId streamLsn := by
  unfold collectIndex
  induction statuses generalizing ix with
  | nil => rfl
  | cons p statuses ih =>
      rw [List.foldl_cons, ih fun q hq => h q (List.mem_cons_of_mem p hq)]
      split
      · rw [StreamLogIndex.lookup_truncateStreamBefore, if_neg]
        rintro ⟨rfl, hlt⟩
        have := h p List.mem_cons_self rfl
        omega
      · rfl

/-- The files that stay hold what they have held. -/
theorem exists_holds_filter (p : Nat → Bool) {files : List SegmentFile}
    {rss : List (List WalRecord)} (h : List.Forall₂ (Holds hash) files rss) :
    ∃ rss', List.Forall₂ (Holds hash) (files.filter fun f => p f.segmentId) rss' ∧
      ∀ r ∈ rss'.flatten, r ∈ rss.flatten := by
  induction h with
  | nil => exact ⟨[], .nil, fun _ hr => hr⟩
  | @cons f rs files rss hf _ ih =>
      obtain ⟨rss', hholds, hsub⟩ := ih
      by_cases hpf : p f.segmentId = true
      · refine ⟨rs :: rss', ?_, fun r hr => ?_⟩
        · rw [List.filter_cons_of_pos (by exact hpf)]
          exact .cons hf hholds
        · rw [List.flatten_cons] at hr ⊢
          rcases List.mem_append.mp hr with hhere | hrest
          · exact List.mem_append_left _ hhere
          · exact List.mem_append_right _ (hsub r hrest)
      · refine ⟨rss', ?_, fun r hr => ?_⟩
        · rw [List.filter_cons_of_neg (by exact hpf)]
          exact hholds
        · rw [List.flatten_cons]
          exact List.mem_append_right _ (hsub r hr)

/-- A laid out log whose records are all synced, without the files of some segments: what is
left to be found is what lies in the others. -/
theorem keep_laid {log : WalState} (h : WellLaid hash log) (hsynced : log.unsynced = [])
    {p : Nat → Bool} (hp : p log.writer.currentSegmentId = true) :
    WellLaid hash { log with
      dir := log.dir.keep p
      synced := ((log.dir.keep p).found hash).map Prod.fst } := by
  obtain ⟨pre, last, rss, rs, h⟩ := h
  have hlast : p last.segmentId = true := by rw [← h.segmentId]; exact hp
  have hfiles : (log.dir.keep p).files = (pre.filter fun f => p f.segmentId) ++ [last] := by
    show log.dir.files.filter _ = _
    rw [h.files, List.filter_append, List.filter_cons_of_pos (by exact hlast), List.filter_nil]
  obtain ⟨rss', hholds, hsub⟩ := exists_holds_filter p h.older
  have hcurrent := h.current
  rw [hsynced, List.append_nil] at hcurrent
  have hfound : ((log.dir.keep p).found hash).map Prod.fst = rss'.flatten ++ rs := by
    have hkept : List.Forall₂ (Holds hash) (log.dir.keep p).files (rss' ++ [rs]) := by
      rw [hfiles]
      exact List.rel_append hholds (.cons hcurrent .nil)
    rw [found_holds hkept, foundIn, map_fst_found hkept, List.flatten_concat]
  refine ⟨_, last, rss', rs, {
    files := hfiles
    older := hholds
    olderSynced := fun f hf => h.olderSynced f (List.mem_of_mem_filter hf)
    current := h.current
    synced := hfound
    kept := h.kept
    segmentId := h.segmentId
    offset := h.offset
    nextSegmentId := h.nextSegmentId
    from_eq := h.from_eq
    small := fun r hr => h.small r ?_ }⟩
  have hr' : r ∈ (rss'.flatten ++ rs) ++ log.unsynced := by rw [← hfound]; exact hr
  rw [h.synced]
  rcases List.mem_append.mp hr' with hold | hnew
  · rcases List.mem_append.mp hold with hfull | hcur
    · exact List.mem_append_left _ (List.mem_append_left _ (hsub r hfull))
    · exact List.mem_append_left _ (List.mem_append_right _ hcur)
  · exact List.mem_append_right _ hnew

/-- **Collecting garbage.** The last record of an unconsumed position lies in a segment that
the index leads into, and that segment stays. -/
theorem Retains.collect (h : Retains hash s) (hnil : s.unindexed = [])
    (statuses : List (Nat × Nat)) (left : List Nat) :
    Retains hash (s.collected hash statuses left) := by
  have hsynced := h.settled hnil
  have hfound := @found_keep hash s.log.dir
    (keepsSegment (collectIndex statuses s.index) s.log.writer.currentSegmentId left)
  -- At an unconsumed position the index leads to the last record found, and still does.
  have hindex : ∀ streamId streamLsn,
      collectConsumed statuses s.consumed streamId ≤ streamLsn →
      (collectIndex statuses s.index).lookup streamId streamLsn =
        (latest (fun p => p.1.position) (streamId, streamLsn) (s.log.dir.found hash)).map
          Prod.snd := by
    intro streamId streamLsn hconsumed
    obtain ⟨hbefore, hstatuses⟩ := le_of_collectConsumed_le hconsumed
    have hsame := h.index streamId streamLsn hbefore
    rw [hnil, List.foldl_nil] at hsame
    rw [lookup_collectIndex hstatuses, hsame, lookup_indexRecords]
  have hlatest : ∀ streamId streamLsn,
      collectConsumed statuses s.consumed streamId ≤ streamLsn →
      latest (fun p => p.1.position) (streamId, streamLsn)
          ((collectDir (collectIndex statuses s.index) s.log.writer.currentSegmentId left
            s.log.dir).found hash) =
        latest (fun p => p.1.position) (streamId, streamLsn) (s.log.dir.found hash) := by
    intro streamId streamLsn hconsumed
    rw [collectDir, hfound]
    refine latest_filter fun p hp => ?_
    have hlookup := hindex streamId streamLsn hconsumed
    rw [hp, Option.map_some] at hlookup
    exact decide_eq_true
      (Or.inr (Or.inl (StreamLogIndex.mem_liveSegmentIds.mpr ⟨_, _, _, hlookup, rfl⟩)))
  refine ⟨keep_laid h.laid hsynced (decide_eq_true (Or.inl rfl)),
    fun streamId streamLsn hconsumed => ?_, fun streamId streamLsn hconsumed => ?_,
    fun _ => hsynced⟩
  · show (s.unindexed.foldl insertFound (collectIndex statuses s.index)).lookup _ _ = _
    rw [hnil, List.foldl_nil, hindex streamId streamLsn hconsumed, lookup_indexRecords]
    exact congrArg (Option.map Prod.snd) (hlatest streamId streamLsn hconsumed).symm
  · show latest WalRecord.position _ (((collectDir _ _ left s.log.dir).found hash).map Prod.fst) = _
    obtain ⟨hbefore, -⟩ := le_of_collectConsumed_le hconsumed
    have hrecords := h.laid.found.1
    rw [hsynced, List.append_nil] at hrecords
    rw [latest_map, hlatest streamId streamLsn hconsumed, ← latest_map, hrecords]
    exact h.recorded streamId streamLsn hbefore

/-- **Every permitted action keeps it.** -/
theorem retains_step {a : Action} (h : Retains hash s) (hok : s.permitted hash a)
    (hs : s.step hash shardId a = some t) : Retains hash t := by
  cases a with
  | write r createdTsNs => exact h.write hok hs
  | finish => exact h.finish hs
  | collect statuses =>
      cases hs
      exact h.collect hok statuses []
  | crash keep args => exact h.crash hs
  | crashInWrite r keep args => exact (h.written hok).crash hs
  | crashInCollect statuses left keep args => exact (h.collect hok statuses left).crash hs

/-- **Every permitted run keeps it.** -/
theorem retains_of_reachable {maxSegmentBytes createdTsNs : Nat}
    (h : (system hash shardId maxSegmentBytes createdTsNs).Reachable (permitted hash) s) :
    Retains hash s := by
  refine h.invariant ⟨wellLaid_init maxSegmentBytes createdTsNs, fun _ _ _ => ?_,
    fun _ _ _ => rfl, fun _ => rfl⟩ fun _ _ _ _ hkept hok hs => retains_step hkept hok hs
  -- Nothing is found in a log that was just created.
  have hlaid : WellLaid hash (.init shardId maxSegmentBytes createdTsNs) :=
    wellLaid_init maxSegmentBytes createdTsNs
  show StreamLogIndex.new.lookup _ _ = (indexRecords
    ((WalState.init shardId maxSegmentBytes createdTsNs).dir.found hash)).lookup _ _
  rw [List.map_eq_nil_iff.mp hlaid.found.1]
  rfl

/-- **Unconsumed records are kept.** In every permitted run, an unconsumed position reads as
the last record written to it once that is indexed. It does so after any crash, too: the log
opens, and its index leads to the last record at the position that was on stable storage or
that the crash has kept, and to none if there was none. It also opens, and the run goes on,
after a crash in the middle of a write or of a collection. -/
theorem unconsumed_records_kept {maxSegmentBytes createdTsNs : Nat}
    (h : (system hash shardId maxSegmentBytes createdTsNs).Reachable (permitted hash) s) :
    (s.unindexed = [] → ∀ streamId streamLsn, s.consumed streamId ≤ streamLsn →
      (s.index.lookup streamId streamLsn).bind (s.log.dir.readRecordAt hash) =
        latest WalRecord.position (streamId, streamLsn) s.recorded) ∧
    (∀ keep args, ∃ w dir index streams,
      openDir hash shardId (s.log.dir.crash keep) args = .ok (w, dir, index, streams) ∧
      ∀ streamId streamLsn, s.consumed streamId ≤ streamLsn →
        (index.lookup streamId streamLsn).bind (dir.readRecordAt hash) =
          latest WalRecord.position (streamId, streamLsn)
            (s.recorded ++ s.log.survivors keep)) ∧
    ∀ a : Action, a.crashes → s.permitted hash a → ∃ t, s.step hash shardId a = some t := by
  have hretains := retains_of_reachable h
  refine ⟨?_, ?_, fun a hcrashes hok => ?_⟩
  · intro hnil streamId streamLsn hconsumed
    have hindex := hretains.index streamId streamLsn hconsumed
    rw [hnil, List.foldl_nil] at hindex
    obtain ⟨hrecords, hread⟩ := hretains.laid.found
    rw [hretains.settled hnil, List.append_nil] at hrecords
    rw [hindex, read_indexRecords hread, hrecords]
    exact hretains.recorded streamId streamLsn hconsumed
  · intro keep args
    obtain ⟨w, streams, hopen, hrecords, hread⟩ := hretains.laid.openDir_crash shardId keep args
    refine ⟨w, _, _, streams, hopen, fun streamId streamLsn hconsumed => ?_⟩
    rw [read_indexRecords hread, hrecords]
    exact latest_append_congr (hretains.recorded streamId streamLsn hconsumed) _
  · cases a with
    | crash keep args => exact hretains.exists_crashed shardId keep args
    | crashInWrite r keep args => exact (hretains.written hok).exists_crashed shardId keep args
    | crashInCollect statuses left keep args =>
        exact (hretains.collect hok statuses left).exists_crashed shardId keep args
    | _ => cases hcrashes

/-- A run whose collection is cut short, with a file left that it would have removed, and
whose last write is cut short in a segment that it has filled. -/
def cutShort : List Action :=
  [.write ⟨7, 1, 1, 0, 0, [10]⟩ 0, .finish, .write ⟨8, 1, 2, 0, 0, [20]⟩ 0, .finish,
    .write ⟨8, 1, 2, 0, 0, [20]⟩ 0, .finish, .write ⟨7, 1, 3, 1, 0, [11]⟩ 0, .finish,
    .crashInCollect [(7, 1), (8, 0)] [0] 64 ⟨130, 0, none, 0, 0⟩, .collect [(7, 1), (8, 0)],
    .write ⟨7, 1, 4, 2, 0, [12]⟩ 0, .finish,
    .crashInWrite ⟨7, 1, 5, 3, 0, [13]⟩ 162 ⟨130, 0, none, 0, 0⟩]

/-- A position is written twice, the segment of the older copy is collected with the records
that were consumed, and the last record survives although its write was cut short. -/
theorem unconsumed_records_kept_twoCopies :
    ∃ s, (system crc32 1 130 0).Reachable (permitted crc32) s ∧
      s.log.dir.files.map SegmentFile.segmentId = [1, 2] ∧ s.consumed 7 = 1 ∧
      s.recorded.map WalRecord.position = [(7, 0), (8, 0), (8, 0), (7, 1), (7, 2), (7, 3)] ∧
      (s.unindexed = [] → ∀ streamId streamLsn, s.consumed streamId ≤ streamLsn →
        (s.index.lookup streamId streamLsn).bind (s.log.dir.readRecordAt crc32) =
          latest WalRecord.position (streamId, streamLsn) s.recorded) ∧
      (∀ keep args, ∃ w dir index streams,
        openDir crc32 1 (s.log.dir.crash keep) args = .ok (w, dir, index, streams) ∧
        ∀ streamId streamLsn, s.consumed streamId ≤ streamLsn →
          (index.lookup streamId streamLsn).bind (dir.readRecordAt crc32) =
            latest WalRecord.position (streamId, streamLsn)
              (s.recorded ++ s.log.survivors keep)) ∧
      ∀ a : Action, a.crashes → s.permitted crc32 a → ∃ t, s.step crc32 1 a = some t := by
  obtain ⟨s, hs, hfiles, hconsumed, hrecorded⟩ := System.exists_reachable_of_execute
    (system crc32 1 130 0) (permitted crc32) cutShort
    (fun s => s.log.dir.files.map SegmentFile.segmentId = [1, 2] ∧ s.consumed 7 = 1 ∧
      s.recorded.map WalRecord.position = [(7, 0), (8, 0), (8, 0), (7, 1), (7, 2), (7, 3)])
    (by decide +kernel)
  exact ⟨s, hs, hfiles, hconsumed, hrecorded, unconsumed_records_kept hs⟩

end RecordStore

end WalServer.Wal
