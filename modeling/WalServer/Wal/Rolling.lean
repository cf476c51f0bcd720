import WalServer.Wal.Rebuild
import WalServer.Wal.Retention

/-!
# `WalServer.Wal.Rolling`: the numbers and the sizes that the writer gives out

A writer that is not told an entry id takes its own (`WalWriter.append`), and rolls over to
a new segment once the current one is full. Both are counters in memory, which a start
takes from what it finds on the disk.

Over all permitted runs of the log, with collections and crashes (`RecordStore`):

* `entry_ids_rise`: the id that `append` takes is above those of all records in the log,
  and where no write is told an older one, ids rise along the log.
* `segments_filled`: under one limit, a segment that was left holds at least as many bytes
  as the limit, and its last record begins below it; the current one is below the limit or
  holds no record, unless the process has ended right after it was filled.
-/

set_option autoImplicit false

namespace WalServer.Wal

open WalServer.Lib WalServer.Shard

namespace WalWriter

/-- Appends a record under the next entry id. -/
def append (hash : Bytes → UInt32) (w : WalWriter) (dir : ShardDir)
    (streamId epoch streamLsn : Nat) (payload : Bytes) (timestampNs createdTsNs : Nat) :
    Outcome WalWriterError (WalWriter × ShardDir × Nat × RecordLocation) :=
  let entryId := w.nextEntryId
  let w' := { w with nextEntryId := w.nextEntryId + 1 }
  w'.appendWithLogIndex hash dir streamId epoch streamLsn entryId payload timestampNs createdTsNs

/-- Taking the next id is being told it. -/
theorem append_eq (hash : Bytes → UInt32) (w : WalWriter) (dir : ShardDir)
    (streamId epoch streamLsn : Nat) (payload : Bytes) (timestampNs createdTsNs : Nat) :
    w.append hash dir streamId epoch streamLsn payload timestampNs createdTsNs =
      w.appendWithLogIndex hash dir streamId epoch streamLsn w.nextEntryId payload timestampNs
        createdTsNs := by
  unfold append appendWithLogIndex
  simp only [Nat.max_self, Nat.max_eq_right (Nat.le_succ w.nextEntryId)]

end WalWriter

/-! ### What a start finds -/

section

variable {hash : Bytes → UInt32}

/-- What the loop over the files returns, is what is found in them. -/
theorem found_of_replaySegments {files : List SegmentFile}
    {found : List (WalRecord × RecordLocation)} (h : replaySegments hash files = .ok found) :
    found = files.flatMap (fileFound hash) := by
  induction files generalizing found with
  | nil =>
      cases h
      rfl
  | cons f files ih =>
      rw [replaySegments] at h
      rw [List.flatMap_cons]
      split at h
      · -- A file without a whole header is skipped, and its scan would end at once.
        rename_i hshort
        have hnone : fileFound hash f = [] := by
          unfold fileFound
          rw [scanRecords, dif_neg (by omega)]
        rw [hnone, List.nil_append]
        exact ih h
      · split at h
        · cases h
        · obtain ⟨here, hscan, hrest⟩ := Outcome.bind_eq_ok.mp h
          obtain ⟨rest, hreplay, hret⟩ := Outcome.bind_eq_ok.mp hrest
          cases hret
          rw [ih hreplay]
          unfold fileFound
          rw [hscan]

/-- **The writer after a start**: its next id is the one above what was found, and it goes on
at the end of the last file. -/
theorem writer_of_openDir {shardId : Nat} {dir dir' : ShardDir} {args : OpenArgs} {w : WalWriter}
    {index : StreamLogIndex} {streams : StreamStateTable} {pre : List SegmentFile}
    {last : SegmentFile} (hfiles : dir.files = pre ++ [last])
    (h : openDir hash shardId dir args = .ok (w, dir', index, streams)) :
    dir' = dir ∧ w = ⟨shardId, last.segmentId, last.content.length,
      nextEntryIdOf (dir.found hash), last.segmentId + 1, args.maxSegmentBytes⟩ := by
  have hlast : dir.files.getLast? = some last := by rw [hfiles, List.getLast?_concat]
  unfold openDir WalWriter.openWriter at h
  obtain ⟨found, hreplay, hrest⟩ := Outcome.bind_eq_ok.mp h
  have hfound := found_of_replaySegments hreplay
  simp only [hlast] at hrest
  cases hrest
  exact ⟨rfl, by rw [hfound]; rfl⟩

/-- The next id is above all that was found. -/
theorem lt_nextEntryIdOf {found : List (WalRecord × RecordLocation)}
    {p : WalRecord × RecordLocation} (h : p ∈ found) : p.1.entryId < nextEntryIdOf found := by
  induction found using List.reverseRecOn with
  | nil => cases h
  | append_singleton found q ih =>
      rw [nextEntryIdOf_concat]
      rcases List.mem_append.mp h with hold | hnew
      · have hlt := ih hold
        omega
      · rw [List.mem_singleton.mp hnew]
        omega

/-- The records that a crash keeps are the first of those that were written. -/
theorem sublist_wholeWithin (k : Nat) (rs : List WalRecord) :
    (wholeWithin k rs).Sublist rs := by
  induction rs generalizing k with
  | nil => exact List.Sublist.refl []
  | cons r rs ih =>
      rw [wholeWithin]
      split
      · exact (ih _).cons_cons r
      · exact List.nil_sublist _

/-! ### What a write does to the files -/

variable {shardId : Nat} {log log' : WalState}

/-- **What a write does**: the record is put at the end of the current file, and when that
has filled the segment, the file is synced and a new one is the current one. -/
inductive Written (hash : Bytes → UInt32) (log : WalState) (r : WalRecord) (createdTsNs : Nat) :
    WalState → Prop
  | stays (hroom : log.writer.currentOffset + r.encodedSize < log.writer.maxSegmentBytes)
      (log' : WalState) (hdir : log'.dir = writtenDir hash log.writer log.dir r)
      (hwriter : log'.writer = { log.writer with
        nextEntryId := max log.writer.nextEntryId (r.entryId + 1)
        currentOffset := log.writer.currentOffset + r.encodedSize }) :
      Written hash log r createdTsNs log'
  | rolls (hfull : log.writer.maxSegmentBytes ≤ log.writer.currentOffset + r.encodedSize)
      (log' : WalState)
      (hdir : log'.dir = (log.writer.sync (writtenDir hash log.writer log.dir r)).insert
        (newSegment log.writer.shardId log.writer.nextSegmentId createdTsNs))
      (hwriter : log'.writer = { log.writer with
        nextEntryId := max log.writer.nextEntryId (r.entryId + 1)
        nextSegmentId := log.writer.nextSegmentId + 1
        currentSegmentId := log.writer.nextSegmentId
        currentOffset := segmentHeaderSize }) :
      Written hash log r createdTsNs log'

theorem written_of_step {r : WalRecord} {createdTsNs : Nat}
    (hs : log.step hash shardId (RecordStore.appendOf r createdTsNs) = some log') :
    Written hash log r createdTsNs log' := by
  simp only [RecordStore.appendOf, WalState.step, WalWriter.appendWithLogIndex] at hs
  split at hs
  · rename_i w dir e loc hrun
    split at hrun
    · rename_i hfull
      obtain ⟨⟨w', dir'⟩, hrotate, hret⟩ := Outcome.bind_eq_ok.mp hrun
      cases hret
      obtain ⟨dir₁, hcreate, hret⟩ := Outcome.bind_eq_ok.mp hrotate
      cases hret
      unfold createSegment at hcreate
      split at hcreate
      · cases hcreate
      · cases hcreate
        -- Whichever way the history notes it, directory and writer are these.
        split at hs
        · cases hs
          exact .rolls hfull _ rfl rfl
        · cases hs
          exact .rolls hfull _ rfl rfl
    · rename_i hroom
      cases hrun
      rw [if_pos rfl] at hs
      cases hs
      exact .stays (Nat.lt_of_not_le hroom) _ rfl rfl
  · cases hs

/-- The next entry id after a write. -/
theorem nextEntryId_written {r : WalRecord} {createdTsNs : Nat}
    (h : Written hash log r createdTsNs log') :
    log'.writer.nextEntryId = max log.writer.nextEntryId (r.entryId + 1) := by
  cases h with
  | stays _ _ _ hwriter => rw [hwriter]
  | rolls _ _ _ hwriter => rw [hwriter]

end

namespace RecordStore

variable {hash : Bytes → UInt32} {shardId : Nat} {s t : RecordStore}

/-! ### Entry ids -/

/-- The entry ids of the records in the log, in the order of the log. -/
def entryIds (hash : Bytes → UInt32) (s : RecordStore) : List Nat :=
  (s.log.dir.found hash).map fun p => p.1.entryId

/-- No write is told an entry id that was given out before. -/
def numbersOn (s : RecordStore) : Action → Prop
  | .write r _          => s.log.writer.nextEntryId ≤ r.entryId
  | .crashInWrite r _ _ => s.log.writer.nextEntryId ≤ r.entryId
  | _                   => True

instance (s : RecordStore) : (a : Action) → Decidable (s.numbersOn a)
  | .write r _              => Nat.decLe s.log.writer.nextEntryId r.entryId
  | .finish                 => .isTrue trivial
  | .collect _              => .isTrue trivial
  | .crash _ _              => .isTrue trivial
  | .crashInWrite r _ _     => Nat.decLe s.log.writer.nextEntryId r.entryId
  | .crashInCollect _ _ _ _ => .isTrue trivial

/-- What a crash leaves to be found is the beginning of what was found before, and the next
id is the one above it. -/
theorem found_crashed (h : Retains hash s) {keep : Nat} {args : OpenArgs}
    (hs : s.crashed hash shardId keep args = some t) :
    (entryIds hash t).Sublist (entryIds hash s) ∧
      t.log.writer.nextEntryId = nextEntryIdOf (t.log.dir.found hash) := by
  obtain ⟨w, streams, hopen, hrecords, -⟩ := h.laid.openDir_crash shardId keep args
  rw [crashed, hopen] at hs
  obtain ⟨log, hlog, rfl⟩ := Option.map_eq_some_iff.mp hs
  rw [WalState.step, hopen] at hlog
  cases hlog
  constructor
  · have hkept : ((s.log.dir.crash keep).found hash).map Prod.fst |>.Sublist
        ((s.log.dir.found hash).map Prod.fst) := by
      rw [hrecords, h.laid.found.1]
      exact List.Sublist.append (List.Sublist.refl _) (sublist_wholeWithin _ _)
    have hids := hkept.map WalRecord.entryId
    rw [List.map_map, List.map_map] at hids
    exact hids
  · obtain ⟨pre, last, rss, rs, hlaid⟩ := h.laid
    have hfiles := ShardDir.files_crash hlaid.files hlaid.olderSynced keep
    obtain ⟨-, rfl⟩ := writer_of_openDir hfiles hopen
    rfl

variable (hash s) in
/-- A collection adds nothing to what is found. -/
theorem found_collected (statuses : List (Nat × Nat)) (left : List Nat) :
    (entryIds hash (s.collected hash statuses left)).Sublist (entryIds hash s) := by
  show ((collectDir _ _ left s.log.dir).found hash).map _ |>.Sublist _
  rw [collectDir, found_keep]
  exact List.filter_sublist.map _

/-- The bytes of a record add it to what is found. -/
theorem found_written (h : Retains hash s) {r : WalRecord}
    (hok : walPermitted hash s.log (appendOf r 0)) :
    entryIds hash (s.written hash r) = entryIds hash s ++ [r.entryId] := by
  obtain ⟨hclean, hfits, hsize⟩ := hok
  obtain ⟨pre, last, rss, rs, hlaid⟩ := h.laid
  show ((writtenDir hash s.log.writer s.log.dir r).found hash).map _ = _
  rw [hlaid.found_written hclean hfits hsize, List.map_append]
  rfl

/-- The ids of the records that an action writes. -/
def Action.writes : Action → List Nat
  | .write r _          => [r.entryId]
  | .crashInWrite r _ _ => [r.entryId]
  | _                   => []

/-- What an action does to what is found: it adds nothing but the record of its write, at the
end. The next id stays above what it was above, or is the one above what is found. -/
theorem found_step {a : Action} (h : Retains hash s) (hok : s.permitted hash a)
    (hs : s.step hash shardId a = some t) :
    (entryIds hash t).Sublist (entryIds hash s ++ a.writes) ∧
      (s.log.writer.nextEntryId ≤ t.log.writer.nextEntryId ∧
          (∀ id ∈ a.writes, id < t.log.writer.nextEntryId) ∨
        t.log.writer.nextEntryId = nextEntryIdOf (t.log.dir.found hash)) := by
  have hnone : ∀ u : RecordStore, (entryIds hash u).Sublist (entryIds hash s) →
      (entryIds hash u).Sublist (entryIds hash s ++ []) := by
    intro u hsub
    rwa [List.append_nil]
  cases a with
  | write r createdTsNs =>
      obtain ⟨log, hlog, rfl⟩ := Option.map_eq_some_iff.mp hs
      have hlaid : walPermitted hash s.log (appendOf r createdTsNs) := hok
      have hnext := nextEntryId_written (written_of_step hlog)
      refine ⟨?_, .inl ⟨hnext ▸ Nat.le_max_left _ _, fun id hid => ?_⟩⟩
      · show ((log.dir.found hash).map _).Sublist _
        rw [h.laid.found_write hlaid hlog, List.map_append]
        exact List.Sublist.refl _
      · rw [List.mem_singleton.mp hid]
        exact hnext ▸ Nat.le_max_right _ _
  | finish =>
      cases hs
      refine ⟨hnone _ ?_, .inl ⟨Nat.le_refl _, fun _ hid => nomatch hid⟩⟩
      show ((s.log.writer.sync s.log.dir).found hash).map _ |>.Sublist _
      rw [found_sync]
      exact List.Sublist.refl _
  | collect statuses =>
      cases hs
      exact ⟨hnone _ (found_collected hash s statuses []),
        .inl ⟨Nat.le_refl _, fun _ hid => nomatch hid⟩⟩
  | crash keep args =>
      obtain ⟨hids, hnext⟩ := found_crashed h hs
      exact ⟨hnone _ hids, .inr hnext⟩
  | crashInWrite r keep args =>
      obtain ⟨hids, hnext⟩ := found_crashed (h.written hok) hs
      rw [found_written h hok] at hids
      exact ⟨hids, .inr hnext⟩
  | crashInCollect statuses left keep args =>
      obtain ⟨hids, hnext⟩ := found_crashed (h.collect hok statuses left) hs
      exact ⟨hnone _ (hids.trans (found_collected hash s statuses left)), .inr hnext⟩

/-- The next entry id is above all ids in the log. -/
def IdsBelow (hash : Bytes → UInt32) (s : RecordStore) : Prop :=
  ∀ id ∈ entryIds hash s, id < s.log.writer.nextEntryId

/-- Every action keeps the next entry id above all ids in the log. -/
theorem IdsBelow.step {a : Action} (h : IdsBelow hash s) (hr : Retains hash s)
    (hok : s.permitted hash a) (hs : s.step hash shardId a = some t) : IdsBelow hash t := by
  intro id hid
  obtain ⟨hsub, ⟨hle, hwrites⟩ | hfound⟩ := found_step hr hok hs
  · rcases List.mem_append.mp (hsub.mem hid) with hold | hnew
    · exact Nat.lt_of_lt_of_le (h id hold) hle
    · exact hwrites id hnew
  · rw [hfound]
    obtain ⟨p, hp, rfl⟩ := List.mem_map.mp hid
    exact lt_nextEntryIdOf hp

/-- Every action whose write, if it is one, is not told an older id keeps the ids rising. -/
theorem ids_rise_step {a : Action} (h : (entryIds hash s).Pairwise (· < ·))
    (hbelow : IdsBelow hash s) (hr : Retains hash s) (hok : s.permitted hash a)
    (hon : s.numbersOn a) (hs : s.step hash shardId a = some t) :
    (entryIds hash t).Pairwise (· < ·) := by
  have hnumbered : ∀ id ∈ a.writes, s.log.writer.nextEntryId ≤ id := by
    intro id hid
    cases a with
    | write r createdTsNs =>
        rw [List.mem_singleton.mp hid]
        exact hon
    | crashInWrite r keep args =>
        rw [List.mem_singleton.mp hid]
        exact hon
    | _ => cases hid
  have hone : a.writes.Pairwise (· < ·) := by
    cases a with
    | write r createdTsNs => exact List.pairwise_singleton _ _
    | crashInWrite r keep args => exact List.pairwise_singleton _ _
    | _ => exact List.Pairwise.nil
  refine List.Pairwise.sublist (found_step hr hok hs).1
    (List.pairwise_append.mpr ⟨h, hone, fun id hid id' hid' => ?_⟩)
  exact Nat.lt_of_lt_of_le (hbelow id hid) (hnumbered id' hid')

variable (shardId) in
/-- Appending under the next id is a write of the history. -/
theorem exists_step_of_append {log : WalState} {streamId epoch streamLsn : Nat} {payload : Bytes}
    {timestampNs createdTsNs id : Nat} {w : WalWriter} {dir : ShardDir} {loc : RecordLocation}
    (h : log.writer.append hash log.dir streamId epoch streamLsn payload timestampNs createdTsNs =
      .ok (w, dir, id, loc)) :
    id = log.writer.nextEntryId ∧ ∃ log', log'.dir = dir ∧
      log.step hash shardId (appendOf ⟨streamId, epoch, log.writer.nextEntryId, streamLsn,
        timestampNs, payload⟩ createdTsNs) = some log' := by
  rw [WalWriter.append_eq] at h
  have hid : id = log.writer.nextEntryId := by
    have hrun := h
    unfold WalWriter.appendWithLogIndex at hrun
    dsimp only at hrun
    split at hrun
    · obtain ⟨_, -, hret⟩ := Outcome.bind_eq_ok.mp hrun
      cases hret
      rfl
    · cases hrun
      rfl
  refine ⟨hid, ?_⟩
  simp only [appendOf, WalState.step, h]
  split
  · exact ⟨_, rfl, rfl⟩
  · exact ⟨_, rfl, rfl⟩

variable {maxSegmentBytes createdTsNs : Nat}

variable (hash shardId maxSegmentBytes createdTsNs) in
/-- Nothing is found in a log that was just created. -/
theorem entryIds_init :
    entryIds hash (system hash shardId maxSegmentBytes createdTsNs).init = [] := by
  have hlaid : WellLaid hash (.init shardId maxSegmentBytes createdTsNs) :=
    wellLaid_init maxSegmentBytes createdTsNs
  exact List.map_eq_nil_iff.mpr (List.map_eq_nil_iff.mp hlaid.found.1)

/-- Every permitted run keeps the next entry id above all ids in the log. -/
theorem idsBelow_of_reachable
    (h : (system hash shardId maxSegmentBytes createdTsNs).Reachable (permitted hash) s) :
    IdsBelow hash s := by
  refine h.invariant (I := IdsBelow hash) ?_ fun s a t hreach hbelow hok hs =>
    hbelow.step (retains_of_reachable hreach) hok hs
  intro id hid
  rw [entryIds_init] at hid
  cases hid

/-- **Entry ids rise.** In every permitted run the id that `append` takes is above those of
all records in the log, among which the new record is the last; and where no write was told
an older id, the ids rise along the log, also over collections and crashes. -/
theorem entry_ids_rise
    (h : (system hash shardId maxSegmentBytes createdTsNs).Reachable (permitted hash) s) :
    (∀ streamId epoch streamLsn payload timestampNs createdTsNs w dir id loc,
      s.permitted hash (.write ⟨streamId, epoch, s.log.writer.nextEntryId, streamLsn, timestampNs,
        payload⟩ createdTsNs) →
      s.log.writer.append hash s.log.dir streamId epoch streamLsn payload timestampNs
        createdTsNs = .ok (w, dir, id, loc) →
      (∀ older ∈ entryIds hash s, older < id) ∧
        (dir.found hash).map (fun p => p.1.entryId) = entryIds hash s ++ [id]) ∧
    ((system hash shardId maxSegmentBytes createdTsNs).Reachable
        (fun s a => s.permitted hash a ∧ s.numbersOn a) s →
      (entryIds hash s).Pairwise (· < ·)) := by
  constructor
  · intro streamId epoch streamLsn payload timestampNs createdTsNs w dir id loc hok happend
    obtain ⟨rfl, log', rfl, hstep⟩ := exists_step_of_append shardId happend
    have hlaid : walPermitted hash s.log (appendOf ⟨streamId, epoch, s.log.writer.nextEntryId,
      streamLsn, timestampNs, payload⟩ createdTsNs) := hok
    refine ⟨idsBelow_of_reachable h, ?_⟩
    rw [(retains_of_reachable h).laid.found_write hlaid hstep, List.map_append]
    rfl
  · intro hnumbered
    refine hnumbered.invariant (I := fun s => (entryIds hash s).Pairwise (· < ·)) ?_
      fun s a t hreach hrise hok hs => ?_
    · rw [entryIds_init]
      exact List.Pairwise.nil
    · have hplain := hreach.mono fun _ _ hboth => hboth.1
      exact ids_rise_step hrise (idsBelow_of_reachable hplain) (retains_of_reachable hplain)
        hok.1 hok.2 hs

/-- A run that rolls over twice, collects the first segment, and loses a record in a crash. -/
def collectedAndLost : List Action :=
  [.write ⟨7, 1, 0, 0, 0, [10]⟩ 0, .finish, .write ⟨8, 1, 1, 0, 0, [20]⟩ 0, .finish,
    .write ⟨7, 1, 2, 1, 0, [11]⟩ 0, .finish, .collect [(7, 1), (8, 1)],
    .write ⟨7, 1, 3, 2, 0, [12]⟩ 0, .write ⟨7, 1, 4, 3, 0, [13]⟩ 0,
    .crash 64 ⟨130, 0, none, 0, 0⟩]

/-- Two records are left, and one can be appended. -/
def TwoLeft (s : RecordStore) : Prop :=
  entryIds crc32 s = [2, 3] ∧
    s.permitted crc32 (.write ⟨9, 1, s.log.writer.nextEntryId, 0, 0, [30]⟩ 0) ∧
    (s.log.writer.append crc32 s.log.dir 9 1 0 [30] 0 0).toOption.isSome = true

instance : DecidablePred TwoLeft := fun s => by
  unfold TwoLeft
  infer_instance

/-- The id of the lost record is taken again: it is above those of the two that are left. -/
theorem entry_ids_rise_collectedAndLost :
    ∃ s w dir id loc, (system crc32 1 130 0).Reachable (permitted crc32) s ∧
      s.log.writer.append crc32 s.log.dir 9 1 0 [30] 0 0 = .ok (w, dir, id, loc) ∧
      (dir.found crc32).map (fun p => p.1.entryId) = [2, 3, id] ∧ 3 < id ∧
      (entryIds crc32 s).Pairwise (· < ·) := by
  obtain ⟨s, hreach, hids, hok, hsome⟩ := System.exists_reachable_of_execute (system crc32 1 130 0)
    (fun s a => s.permitted crc32 a ∧ s.numbersOn a) collectedAndLost TwoLeft (by decide +kernel)
  have hplain := hreach.mono fun _ _ hboth => hboth.1
  obtain ⟨⟨w, dir, id, loc⟩, happend⟩ := Option.isSome_iff_exists.mp hsome
  have hrun := Outcome.toOption_eq_some.mp happend
  obtain ⟨hnew, hfound⟩ := (entry_ids_rise hplain).1 9 1 0 [30] 0 0 w dir id loc hok hrun
  refine ⟨s, w, dir, id, loc, hplain, hrun, ?_, hnew 3 (by rw [hids]; decide),
    (entry_ids_rise hplain).2 hreach⟩
  rw [hfound, hids]
  rfl

/-! ### Segment sizes -/

/-- A segment as it is left: as long as the limit, with a last record that begins below it or
is the only one. -/
def Filled (hash : Bytes → UInt32) (limit : Nat) (f : SegmentFile) : Prop :=
  ∃ before r loc, fileFound hash f = before ++ [(r, loc)] ∧
    f.content.length = loc.offset + r.encodedSize ∧ limit ≤ f.content.length ∧
    (loc.offset < limit ∨ before = [])

/-- The log is always opened with the same limit, and the process does not end between the
write that fills a segment and the change to a new one. -/
def underLimit (limit : Nat) (s : RecordStore) : Action → Prop
  | .crash _ args              => args.maxSegmentBytes = limit
  | .crashInWrite r _ args     => args.maxSegmentBytes = limit ∧
      s.log.writer.currentOffset + r.encodedSize < limit
  | .crashInCollect _ _ _ args => args.maxSegmentBytes = limit
  | _                          => True

instance (limit : Nat) (s : RecordStore) : (a : Action) → Decidable (underLimit limit s a)
  | .write _ _                 => .isTrue trivial
  | .finish                    => .isTrue trivial
  | .collect _                 => .isTrue trivial
  | .crash _ args              => Nat.decEq args.maxSegmentBytes limit
  | .crashInWrite r _ args     => inferInstanceAs (Decidable (args.maxSegmentBytes = limit ∧
      s.log.writer.currentOffset + r.encodedSize < limit))
  | .crashInCollect _ _ _ args => Nat.decEq args.maxSegmentBytes limit

/-- The segments that were left are filled, and the current one is not, or holds no record. -/
structure Sized (hash : Bytes → UInt32) (limit : Nat) (s : RecordStore) : Prop where
  limit_eq : s.log.writer.maxSegmentBytes = limit
  left : ∀ f ∈ s.log.dir.files, f.segmentId ≠ s.log.writer.currentSegmentId → Filled hash limit f
  current : s.log.writer.currentOffset < limit ∨ s.log.writer.currentOffset ≤ segmentHeaderSize

variable {limit : Nat} {pre : List SegmentFile} {last : SegmentFile}
  {rss : List (List WalRecord)} {rs : List WalRecord} {log : WalState}

/-- Records without bytes are none. -/
theorem eq_nil_of_encodeAll {rs : List WalRecord} (h : (encodeAll hash rs).length = 0) :
    rs = [] := by
  cases rs with
  | nil => rfl
  | cons r rs =>
      rw [encodeAll_cons, List.length_append, WalRecord.length_encodeToVec] at h
      have hsize : r.encodedSize = recordHeaderSize + r.payload.length := rfl
      unfold recordHeaderSize at hsize
      omega

/-- **The file of a record that has filled its segment** is filled. -/
theorem filled_written (h : LaidOut hash log pre last rss rs) (hc : CurrentClean hash log)
    {r : WalRecord} (hr : r.Fits) (hsize : r.encodedSize < 2 ^ 32)
    (hcurrent : log.writer.currentOffset < limit ∨
      log.writer.currentOffset ≤ segmentHeaderSize)
    (hfull : limit ≤ log.writer.currentOffset + r.encodedSize) :
    Filled hash limit
      (last.writeAllAt (r.encodeToVec hash) log.writer.currentOffset).syncData := by
  have happend := h.append hc hr hsize (w := { log.writer with
    currentOffset := log.writer.currentOffset + r.encodedSize }) rfl rfl rfl
  have hend := (h.of_currentClean hc).2
  have hlength : (last.writeAllAt (r.encodeToVec hash) log.writer.currentOffset).content.length =
      log.writer.currentOffset + r.encodedSize := happend.offset.symm
  refine ⟨fileLayout last (rs ++ log.unsynced), r,
    ⟨last.segmentId, log.writer.currentOffset, r.encodedSize % 2 ^ 32⟩, ?_, hlength,
    hlength ▸ hfull, ?_⟩
  · rw [fileFound_syncData, fileFound_holds happend.current, ← List.append_assoc, fileLayout,
      layout_append hash, h.offset, hend]
    rfl
  · -- A segment at its header holds no record.
    refine hcurrent.imp id fun hheader => ?_
    rw [h.offset, hend] at hheader
    have hzero : (encodeAll hash (rs ++ log.unsynced)).length = 0 := by omega
    rw [eq_nil_of_encodeAll hzero]
    rfl

/-- **Writing** leaves a segment only when it is filled. -/
theorem Sized.write (h : Sized hash limit s) (hr : Retains hash s) {r : WalRecord}
    {createdTsNs : Nat} (hok : s.permitted hash (.write r createdTsNs))
    (hwritten : Written hash s.log r createdTsNs t.log) : Sized hash limit t := by
  obtain ⟨pre, last, rss, rs, hlaid⟩ := hr.laid
  obtain ⟨hclean, hfits, hsize⟩ := (show walPermitted hash s.log (appendOf r createdTsNs) from hok)
  have happend := hlaid.append hclean hfits hsize (w := { s.log.writer with
    currentOffset := s.log.writer.currentOffset + r.encodedSize }) rfl rfl rfl
  -- The files before the current one were left before.
  have hpre : ∀ f ∈ pre, Filled hash limit f := by
    intro f hf
    refine h.left f (by rw [hlaid.files]; exact List.mem_append_left _ hf) ?_
    rw [hlaid.segmentId]
    exact (ShardDir.lt_of_files_eq hlaid.files hf).ne
  cases hwritten with
  | stays hroom _ hdir hwriter =>
      rw [h.limit_eq] at hroom
      have hfiles : t.log.dir.files = _ := (congrArg ShardDir.files hdir).trans happend.files
      refine ⟨by rw [hwriter]; exact h.limit_eq, fun f hf hid => ?_,
        .inl (by rw [hwriter]; exact hroom)⟩
      rw [hfiles] at hf
      rw [hwriter] at hid
      rcases List.mem_append.mp hf with hold | hlast
      · exact hpre f hold
      · rw [List.mem_singleton.mp hlast] at hid
        exact absurd hlaid.segmentId.symm hid
  | rolls hfull _ hdir hwriter =>
      rw [h.limit_eq] at hfull
      have hsync : (s.log.writer.sync (writtenDir hash s.log.writer s.log.dir r)).files = _ :=
        happend.sync.files
      refine ⟨by rw [hwriter]; exact h.limit_eq, fun f hf hid => ?_,
        .inr (by rw [hwriter])⟩
      rw [hwriter] at hid
      have hmem : f ∈ (s.log.writer.sync (writtenDir hash s.log.writer s.log.dir r)).files := by
        rw [hdir] at hf
        rcases List.mem_append.mp hf with hlow | hhigh
        · exact List.mem_of_mem_filter hlow
        · rcases List.mem_cons.mp hhigh with rfl | hhigh
          · exact absurd rfl hid
          · exact List.mem_of_mem_filter hhigh
      rw [hsync] at hmem
      rcases List.mem_append.mp hmem with hold | hlast
      · exact hpre f hold
      · rw [List.mem_singleton.mp hlast]
        exact filled_written hlaid hclean hfits hsize h.current hfull

/-- **The bytes of a record** that does not fill the segment. -/
theorem Sized.written (h : Sized hash limit s) (hr : Retains hash s) {r : WalRecord}
    (hok : walPermitted hash s.log (appendOf r 0))
    (hroom : s.log.writer.currentOffset + r.encodedSize < limit) :
    Sized hash limit (s.written hash r) :=
  h.write hr (show s.permitted hash (.write r 0) from hok)
    (.stays (by rwa [h.limit_eq]) _ rfl rfl)

/-- **A collection** removes files. -/
theorem Sized.collected (h : Sized hash limit s) (statuses : List (Nat × Nat)) (left : List Nat) :
    Sized hash limit (s.collected hash statuses left) :=
  ⟨h.limit_eq, fun f hf hid => h.left f (List.mem_of_mem_filter hf) hid, h.current⟩

/-- **A crash** cuts the current file only. -/
theorem Sized.crashed (h : Sized hash limit s) (hr : Retains hash s) {keep : Nat} {args : OpenArgs}
    (hlimit : args.maxSegmentBytes = limit)
    (hs : s.crashed hash shardId keep args = some t) : Sized hash limit t := by
  obtain ⟨pre, last, rss, rs, hlaid⟩ := hr.laid
  obtain ⟨w, streams, hopen, -, -⟩ := hr.laid.openDir_crash shardId keep args
  rw [RecordStore.crashed, hopen] at hs
  obtain ⟨log, hlog, rfl⟩ := Option.map_eq_some_iff.mp hs
  rw [WalState.step, hopen] at hlog
  cases hlog
  have hfiles := ShardDir.files_crash hlaid.files hlaid.olderSynced keep
  obtain ⟨-, rfl⟩ := writer_of_openDir hfiles hopen
  refine ⟨hlimit, fun f hf hid => ?_, ?_⟩
  · have hf' : f ∈ pre ++ [last.crash keep] := hfiles ▸ hf
    rcases List.mem_append.mp hf' with hold | hlast
    · refine h.left f (by rw [hlaid.files]; exact List.mem_append_left _ hold) ?_
      rw [hlaid.segmentId]
      exact (ShardDir.lt_of_files_eq hlaid.files hold).ne
    · rw [List.mem_singleton.mp hlast] at hid
      exact absurd rfl hid
  · have hcut : (last.crash keep).content.length ≤ s.log.writer.currentOffset := by
      rw [hlaid.offset]
      show (last.content.take _).length ≤ _
      rw [List.length_take]
      exact Nat.min_le_right _ _
    show (last.crash keep).content.length < limit ∨
      (last.crash keep).content.length ≤ segmentHeaderSize
    exact h.current.imp (Nat.lt_of_le_of_lt hcut) (Nat.le_trans hcut)

/-- **Every action** leaves only segments that are filled. -/
theorem Sized.step {a : Action} (h : Sized hash limit s) (hr : Retains hash s)
    (hok : s.permitted hash a) (hlimit : underLimit limit s a)
    (hs : s.step hash shardId a = some t) : Sized hash limit t := by
  cases a with
  | write r createdTsNs =>
      obtain ⟨log, hlog, rfl⟩ := Option.map_eq_some_iff.mp hs
      exact h.write hr hok (written_of_step hlog)
  | finish =>
      cases hs
      refine ⟨h.limit_eq, fun f hf hid => ?_, h.current⟩
      obtain ⟨g, hg, rfl⟩ := List.mem_map.mp hf
      split at hid
      · rename_i hcurrent
        exact absurd hcurrent hid
      · rename_i hother
        rw [if_neg hother]
        exact h.left g hg hother
  | collect statuses =>
      cases hs
      exact h.collected statuses []
  | crash keep args => exact h.crashed hr hlimit hs
  | crashInWrite r keep args =>
      exact (h.written hr hok hlimit.2).crashed (hr.written hok) hlimit.1 hs
  | crashInCollect statuses left keep args =>
      exact (h.collected statuses left).crashed (hr.collect hok statuses left) hlimit hs

/-- **Segments are left when they are filled.** In every permitted run under one limit, in
which the process does not end between the write that fills a segment and the change to a
new one, every file but the current one is as long as the limit and its last record begins
below it, or is the only one; and the current one is shorter than the limit, or holds no
record. -/
theorem segments_filled
    (h : (system hash shardId maxSegmentBytes createdTsNs).Reachable
      (fun s a => s.permitted hash a ∧ underLimit maxSegmentBytes s a) s) :
    (∀ f ∈ s.log.dir.files, f.segmentId ≠ s.log.writer.currentSegmentId →
      Filled hash maxSegmentBytes f) ∧
    ∃ f ∈ s.log.dir.files, f.segmentId = s.log.writer.currentSegmentId ∧
      (f.content.length < maxSegmentBytes ∨ f.content.length ≤ segmentHeaderSize) := by
  have hsized : Sized hash maxSegmentBytes s := by
    refine h.invariant (I := Sized hash maxSegmentBytes)
      ⟨rfl, fun f hf hid => ?_, .inr (Nat.le_refl _)⟩ fun s a t hreach hkept hok hs =>
        hkept.step (retains_of_reachable (hreach.mono fun _ _ hboth => hboth.1)) hok.1 hok.2 hs
    rw [List.mem_singleton.mp hf] at hid
    exact absurd rfl hid
  obtain ⟨pre, last, rss, rs, hlaid⟩ :=
    (retains_of_reachable (h.mono fun _ _ hboth => hboth.1)).laid
  refine ⟨hsized.left, last, by rw [hlaid.files]; simp, hlaid.segmentId.symm, ?_⟩
  rw [← hlaid.offset]
  exact hsized.current

/-- One segment is filled, the current one is not. -/
theorem segments_filled_collectedAndLost :
    ∃ s, (system crc32 1 130 0).Reachable (permitted crc32) s ∧
      s.log.dir.files.map SegmentFile.segmentId = [1, 2] ∧
      ∀ f ∈ s.log.dir.files, f.segmentId ≠ s.log.writer.currentSegmentId →
        Filled crc32 130 f := by
  obtain ⟨s, hreach, hfiles⟩ := System.exists_reachable_of_execute (system crc32 1 130 0)
    (fun s a => s.permitted crc32 a ∧ underLimit 130 s a) collectedAndLost
    (fun s => s.log.dir.files.map SegmentFile.segmentId = [1, 2]) (by decide +kernel)
  exact ⟨s, hreach.mono fun _ _ hboth => hboth.1, hfiles, (segments_filled hreach).1⟩

end RecordStore

end WalServer.Wal
