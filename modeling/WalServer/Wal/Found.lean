import WalServer.Wal.Append
import WalServer.Wal.Recovery

/-!
# `WalServer.Wal.Found`: a clean log as the list of what recovery finds in it

Where no write has been torn, a segment file is a header and whole records
(`Clean`), and the directory stands for the list of the records that recovery
finds in it, each with its location (`found`). `CleanLog` adds that the writer is
at the end of the last file.

Every operation of the writer has an equation for `found`: an append adds its
record at the end (`CleanLog.append`), syncing and rotating change nothing, and
removing files filters out what was found in them (`CleanLog.keep`). Opening
succeeds, goes on at the end of the last file, and builds index and table from
what was found (`CleanLog.openWriter`). A found location reads back as its record
if the record's size fits the location's field, and is too short for a record if
it does not (`CleanLog.read`).
-/

set_option autoImplicit false

namespace WalServer.Wal

open WalServer.Lib WalServer.Shard

/-- A header, and whole records up to the end of the file. -/
def Clean (hash : Bytes → UInt32) (f : SegmentFile) : Prop :=
  ∃ rs, Whole hash f.content rs ∧
    f.content.length = segmentHeaderSize + (encodeAll hash rs).length

/-- What recovery finds in a file. -/
def fileFound (hash : Bytes → UInt32) (f : SegmentFile) : List (WalRecord × RecordLocation) :=
  match scanRecords hash f.segmentId f.content segmentHeaderSize with
  | .ok found => found
  | _         => []

/-- What recovery finds in a directory, file by file. -/
def ShardDir.found (hash : Bytes → UInt32) (d : ShardDir) : List (WalRecord × RecordLocation) :=
  d.files.flatMap (fileFound hash)

/-- All files are clean, and the writer is at the end of the last one. -/
structure CleanLog (hash : Bytes → UInt32) (w : WalWriter) (dir : ShardDir) : Prop where
  clean : ∀ f ∈ dir.files, Clean hash f
  last : ∃ pre f, dir.files = pre ++ [f] ∧ w.currentSegmentId = f.segmentId ∧
    w.currentOffset = f.content.length
  next : w.nextSegmentId = w.currentSegmentId + 1

variable {hash : Bytes → UInt32} {w : WalWriter} {dir : ShardDir}

/-! ### One file -/

/-- What is found in a file of whole records. -/
theorem fileFound_whole {f : SegmentFile} {rs : List WalRecord} (h : Whole hash f.content rs) :
    fileFound hash f = fileLayout f rs := by
  unfold fileFound
  rw [scanRecords_whole h]

/-- What is found in a file, is found at a location in the file. -/
theorem segmentId_of_mem_fileFound {f : SegmentFile} {p : WalRecord × RecordLocation}
    (hf : Clean hash f) (hp : p ∈ fileFound hash f) : p.2.segmentId = f.segmentId := by
  obtain ⟨rs, hwhole, -⟩ := hf
  rw [fileFound_whole hwhole] at hp
  exact (mem_layout hp).2

/-- Bringing a file to stable storage moves no byte. -/
theorem clean_syncData {f : SegmentFile} (h : Clean hash f) : Clean hash f.syncData := h

@[simp] theorem fileFound_syncData (f : SegmentFile) :
    fileFound hash f.syncData = fileFound hash f := rfl

/-- A new file: its header. -/
def newSegment (shardId segmentId createdTsNs : Nat) : SegmentFile where
  segmentId := segmentId
  content := encodeSegmentHeader shardId segmentId createdTsNs
  synced := 0
  synced_le := zero_le_header shardId segmentId createdTsNs

variable (hash) in
/-- A new file is clean, and nothing is found in it. -/
theorem clean_newSegment (shardId segmentId createdTsNs : Nat) :
    Clean hash (newSegment shardId segmentId createdTsNs) ∧
      fileFound hash (newSegment shardId segmentId createdTsNs) = [] := by
  have hlength := length_encodeSegmentHeader shardId segmentId createdTsNs
  have hwhole : Whole hash (newSegment shardId segmentId createdTsNs).content [] := by
    refine ⟨(fun r hr => by cases hr), encodeSegmentHeader shardId segmentId createdTsNs, [],
      hlength, decodeSegmentHeader_encode_isOk _ _ _, torn_nil, ?_⟩
    rw [encodeAll_nil, List.append_nil, List.append_nil]
    rfl
  refine ⟨⟨[], hwhole, ?_⟩, fileFound_whole hwhole⟩
  rw [encodeAll_nil]
  exact hlength

/-- **A record written at the end of a clean file** leaves it clean, and is found
behind the records before it. -/
theorem Clean.write {f : SegmentFile} (h : Clean hash f) {r : WalRecord} (hr : r.Fits) :
    Clean hash (f.writeAllAt (r.encodeToVec hash) f.content.length) ∧
      fileFound hash (f.writeAllAt (r.encodeToVec hash) f.content.length) =
        fileFound hash f ++
          [(r, ⟨f.segmentId, f.content.length, r.encodedSize % 2 ^ 32⟩)] := by
  obtain ⟨rs, hwhole, hlength⟩ := h
  have hcontent : (f.writeAllAt (r.encodeToVec hash) f.content.length).content =
      f.content ++ r.encodeToVec hash := writeAt_length _ _
  have hwhole' : Whole hash (f.writeAllAt (r.encodeToVec hash) f.content.length).content
      (rs ++ [r]) := by
    rw [hcontent]
    exact hwhole.append hlength hr
  constructor
  · refine ⟨rs ++ [r], hwhole', ?_⟩
    rw [hcontent, List.length_append, hlength, encodeAll_append, List.length_append,
      encodeAll_cons, encodeAll_nil, List.append_nil, Nat.add_assoc]
  · rw [fileFound_whole hwhole', fileFound_whole hwhole, fileLayout, fileLayout,
      layout_append hash, hlength]
    rfl

/-! ### The directory -/

/-- A directory whose last file is replaced. -/
theorem found_of_files {d : ShardDir} {pre : List SegmentFile} {f : SegmentFile}
    (h : d.files = pre ++ [f]) :
    d.found hash = pre.flatMap (fileFound hash) ++ fileFound hash f := by
  unfold ShardDir.found
  rw [h, List.flatMap_append, List.flatMap_singleton]

/-- What recovery finds in clean files is what its loop over the files returns. -/
theorem replaySegments_clean {files : List SegmentFile} (h : ∀ f ∈ files, Clean hash f) :
    replaySegments hash files = .ok (files.flatMap (fileFound hash)) := by
  induction files with
  | nil => rfl
  | cons f files ih =>
      obtain ⟨rs, hwhole, hlength⟩ := h f List.mem_cons_self
      obtain ⟨header, tail, hlen, ⟨fields, hfields⟩, -, hcontent⟩ := hwhole.split
      have htake : f.content.take segmentHeaderSize = header := by
        rw [hcontent, ← hlen, List.take_left]
      rw [replaySegments, if_neg (by omega), htake, hfields]
      simp only [scanRecords_whole hwhole, Outcome.bind_ok,
        ih fun g hg => h g (List.mem_cons_of_mem f hg), List.flatMap_cons, fileFound_whole hwhole]

/-- **Reading what was found**: the record, if its size fits the location's field.
If it does not fit, the location is shorter than the header of a record. -/
theorem CleanLog.read (h : CleanLog hash w dir) {p : WalRecord × RecordLocation}
    (hp : p ∈ dir.found hash) :
    p.1.Fits ∧ p.2.size = p.1.encodedSize % 2 ^ 32 ∧
      (p.1.encodedSize < 2 ^ 32 → dir.readRecordAt hash p.2 = some p.1) := by
  obtain ⟨f, hf, hpf⟩ := List.mem_flatMap.mp hp
  obtain ⟨rs, hwhole, -⟩ := h.clean f hf
  rw [fileFound_whole hwhole] at hpf
  refine ⟨hwhole.fits _ (mem_layout hpf).1, ?_, readRecordAt_layout hf (Or.inr hwhole) hpf⟩
  obtain ⟨rs₁, rs₂, -, hloc⟩ := mem_layout_split hpf hash
  rw [hloc]

/-! ### The operations of the writer -/

/-- Files below a bound on their ids, of which the last one is the current one. -/
theorem CleanLog.writerOk (h : CleanLog hash w dir) : WriterOk w dir := by
  obtain ⟨pre, f, hfiles, hid, hoffset⟩ := h.last
  refine ⟨⟨f, ?_, hoffset⟩, fun g hg => ?_⟩
  · rw [hid]
    exact ShardDir.find_last hfiles
  · rw [h.next, hid]
    rw [hfiles] at hg
    rcases List.mem_append.mp hg with hpre | hlast
    · exact Nat.lt_succ_of_lt (ShardDir.lt_of_files_eq hfiles hpre)
    · rw [List.mem_singleton.mp hlast]
      exact Nat.lt_succ_self _

/-- **Syncing** changes nothing that is found. -/
theorem CleanLog.sync (h : CleanLog hash w dir) :
    CleanLog hash w (w.sync dir) ∧ (w.sync dir).found hash = dir.found hash := by
  obtain ⟨pre, f, hfiles, hid, hoffset⟩ := h.last
  have hsynced : (w.sync dir).files = pre ++ [f.syncData] := by
    rw [← ShardDir.files_modify_last hfiles SegmentFile.syncData fun _ => rfl, ← hid]
    rfl
  refine ⟨⟨fun g hg => ?_, ⟨pre, f.syncData, hsynced, hid, hoffset⟩, h.next⟩, ?_⟩
  · rw [hsynced] at hg
    rcases List.mem_append.mp hg with hpre | hlast
    · exact h.clean g (by rw [hfiles]; exact List.mem_append_left _ hpre)
    · rw [List.mem_singleton.mp hlast]
      exact clean_syncData (h.clean f (by rw [hfiles]; simp))
  · rw [found_of_files hsynced, found_of_files hfiles, fileFound_syncData]

/-- **Rotating** goes on in a new file, in which nothing is found. -/
theorem CleanLog.rotate (h : CleanLog hash w dir) (createdTsNs : Nat) :
    ∃ w' dir', w.rotate dir createdTsNs = .ok (w', dir') ∧ CleanLog hash w' dir' ∧
      dir'.found hash = dir.found hash ∧ w'.nextEntryId = w.nextEntryId ∧
      w'.shardId = w.shardId ∧ w'.maxSegmentBytes = w.maxSegmentBytes := by
  obtain ⟨hsync, hfound⟩ := h.sync
  have hbelow := hsync.writerOk.below
  -- The next id is beyond all files, so the create cannot fail.
  have hnew : (w.sync dir).find w.nextSegmentId = none := by
    cases hfind : (w.sync dir).find w.nextSegmentId with
    | none => rfl
    | some f =>
        obtain ⟨hf, hid⟩ := ShardDir.find_eq_some.mp hfind
        exact absurd (hbelow f hf) (by omega)
  obtain ⟨hclean, hempty⟩ := clean_newSegment hash w.shardId w.nextSegmentId createdTsNs
  have hfiles := ShardDir.files_insert_last
    (f := newSegment w.shardId w.nextSegmentId createdTsNs) hbelow
  refine ⟨{ w with
    nextSegmentId := w.nextSegmentId + 1
    currentSegmentId := w.nextSegmentId
    currentOffset := segmentHeaderSize },
    (w.sync dir).insert (newSegment w.shardId w.nextSegmentId createdTsNs), ?_,
    ⟨fun g hg => ?_, ?_, rfl⟩, ?_, rfl, rfl, rfl⟩
  · rw [WalWriter.rotate, createSegment, hnew]
    rfl
  · rw [hfiles] at hg
    rcases List.mem_append.mp hg with hold | hlast
    · exact hsync.clean g hold
    · rw [List.mem_singleton.mp hlast]
      exact hclean
  · exact ⟨_, _, hfiles, rfl, (length_encodeSegmentHeader _ _ _).symm⟩
  · rw [found_of_files hfiles, hempty, List.append_nil]
    exact hfound

/-- The directory behind the bytes of a record. -/
theorem CleanLog.written (h : CleanLog hash w dir) {r : WalRecord} (hr : r.Fits)
    (nextEntryId : Nat) :
    CleanLog hash { w with
        nextEntryId := nextEntryId
        currentOffset := w.currentOffset + r.encodedSize } (writtenDir hash w dir r) ∧
      (writtenDir hash w dir r).found hash = dir.found hash ++ [(r, appendLocation w r)] := by
  obtain ⟨pre, f, hfiles, hid, hoffset⟩ := h.last
  obtain ⟨hclean, hfound⟩ := (h.clean f (by rw [hfiles]; simp)).write hr
  have hwritten : (writtenDir hash w dir r).files =
      pre ++ [f.writeAllAt (r.encodeToVec hash) f.content.length] := by
    rw [← hoffset, ← ShardDir.files_modify_last hfiles (fun f =>
      f.writeAllAt (r.encodeToVec hash) w.currentOffset) fun _ => rfl, ← hid]
    rfl
  refine ⟨⟨fun g hg => ?_, ⟨pre, _, hwritten, hid, ?_⟩, h.next⟩, ?_⟩
  · rw [hwritten] at hg
    rcases List.mem_append.mp hg with hpre | hlast
    · exact h.clean g (by rw [hfiles]; exact List.mem_append_left _ hpre)
    · rw [List.mem_singleton.mp hlast]
      exact hclean
  · show w.currentOffset + r.encodedSize = (writeAt f.content f.content.length _).length
    rw [writeAt_length, List.length_append, WalRecord.length_encodeToVec, hoffset]
  · rw [found_of_files hwritten, found_of_files hfiles, hfound, List.append_assoc]
    unfold appendLocation
    rw [hid, hoffset]

/-- **Appending** succeeds and adds the record behind all that was found. -/
theorem CleanLog.append (h : CleanLog hash w dir) {r : WalRecord} (hr : r.Fits)
    (createdTsNs : Nat) :
    ∃ w' dir', w.appendWithLogIndex hash dir r.streamId r.epoch r.streamLsn r.entryId r.payload
        r.timestampNs createdTsNs = .ok (w', dir', r.entryId, appendLocation w r) ∧
      CleanLog hash w' dir' ∧
      dir'.found hash = dir.found hash ++ [(r, appendLocation w r)] ∧
      w'.nextEntryId = max w.nextEntryId (r.entryId + 1) ∧
      w'.shardId = w.shardId ∧ w'.maxSegmentBytes = w.maxSegmentBytes := by
  obtain ⟨hwritten, hfound⟩ := h.written hr (max w.nextEntryId (r.entryId + 1))
  unfold WalWriter.appendWithLogIndex
  simp only
  split
  · -- The record has filled the segment.
    obtain ⟨w', dir', hrotate, hclean, hsame, hnext, hshard, hmax⟩ := hwritten.rotate createdTsNs
    unfold writtenDir at hrotate
    rw [hrotate]
    exact ⟨w', dir', rfl, hclean, hsame.trans hfound, hnext, hshard, hmax⟩
  · exact ⟨_, _, rfl, hwritten, hfound, rfl, rfl, rfl⟩

/-- In some of the files, what lies in them is found. -/
theorem flatMap_fileFound_filter {files : List SegmentFile} (h : ∀ f ∈ files, Clean hash f)
    (p : Nat → Bool) :
    (files.filter fun f => p f.segmentId).flatMap (fileFound hash) =
      (files.flatMap (fileFound hash)).filter fun q => p q.2.segmentId := by
  induction files with
  | nil => rfl
  | cons g files ih =>
      have hrest := ih fun g' hg' => h g' (List.mem_cons_of_mem g hg')
      have hsegment : ∀ q ∈ fileFound hash g, q.2.segmentId = g.segmentId :=
        fun q hq => segmentId_of_mem_fileFound (h g List.mem_cons_self) hq
      rw [List.flatMap_cons, List.filter_append, ← hrest]
      by_cases hg : p g.segmentId = true
      · have hall : (fileFound hash g).filter (fun q => p q.2.segmentId) = fileFound hash g := by
          rw [List.filter_eq_self]
          intro q hq
          rw [hsegment q hq, hg]
        rw [List.filter_cons_of_pos (by exact hg), List.flatMap_cons, hall]
      · -- Everything in a removed file goes.
        have hnone : (fileFound hash g).filter (fun q => p q.2.segmentId) = [] := by
          rw [List.filter_eq_nil_iff]
          intro q hq
          rw [hsegment q hq]
          exact hg
        rw [List.filter_cons_of_neg (by exact hg), hnone, List.nil_append]

/-- **Removing files** other than the current one removes what was found in them. -/
theorem CleanLog.keep (h : CleanLog hash w dir) {p : Nat → Bool}
    (hp : p w.currentSegmentId = true) :
    CleanLog hash w (dir.keep p) ∧
      (dir.keep p).found hash = (dir.found hash).filter fun q => p q.2.segmentId := by
  obtain ⟨pre, f, hfiles, hid, hoffset⟩ := h.last
  constructor
  · refine ⟨fun g hg => h.clean g (List.mem_filter.mp hg).1, ?_, h.next⟩
    refine ⟨pre.filter (fun g => p g.segmentId), f, ?_, hid, hoffset⟩
    show dir.files.filter _ = _
    rw [hfiles, List.filter_append, List.filter_cons_of_pos (by rw [hid] at hp; exact hp),
      List.filter_nil]
  · exact flatMap_fileFound_filter h.clean p

/-- **Opening** a clean log succeeds, whatever the writer was: it goes on at the end
of the last file, and index, table and entry ids are those of what was found. -/
theorem CleanLog.openWriter (h : CleanLog hash w dir) (shardId : Nat) (args : OpenArgs) :
    openDir hash shardId dir args =
        .ok (⟨shardId, w.currentSegmentId, w.currentOffset, nextEntryIdOf (dir.found hash),
            w.nextSegmentId, args.maxSegmentBytes⟩, dir, indexRecords (dir.found hash),
          recoverStreams (args.recoveredStreams.getD (.new args.tailCacheEntries))
            args.replayFromEntryIdExclusive ((dir.found hash).map Prod.fst)) := by
  obtain ⟨pre, f, hfiles, hid, hoffset⟩ := h.last
  have hlast : dir.files.getLast? = some f := by rw [hfiles, List.getLast?_concat]
  unfold openDir WalWriter.openWriter
  rw [replaySegments_clean h.clean, Outcome.bind_ok, hlast, h.next, hid, hoffset]
  rfl

end WalServer.Wal
