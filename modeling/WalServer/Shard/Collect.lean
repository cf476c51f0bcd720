import WalServer.Shard.Delivery

/-!
# `WalServer.Shard.Collect`: garbage collection is exact and safe

`Collects` is what a garbage collection is for: the index keeps the positions that
are not consumed, the current segment stays, and another segment goes exactly if no
index entry is left that points into it. `run_gc` does this to any engine
(`collects_runGc`).

It is safe because index entries point into files. This is kept by everything that
happens to a shard: the steps of a process, appends and rotations of the log alone,
applications one by one, and openings of whatever the disk holds
(`inFiles_step`).
-/

set_option autoImplicit false

namespace WalServer.Shard

open WalServer.Lib WalServer.Protocol WalServer.Raft WalServer.Wal

namespace ShardEngine

/-- Every index entry points into a segment file of the directory. -/
def PointsIntoFiles (e : ShardEngine) : Prop :=
  ∀ id lsn loc, e.index.lookup id lsn = some loc → (e.dir.find loc.segmentId).isSome

/-- **What is meant to hold** of an engine and the same engine after its garbage
was collected. A stream without a table entry has consumed nothing. -/
structure Collects (e e' : ShardEngine) : Prop where
  entries : ∀ id lsn loc, e'.index.lookup id lsn = some loc ↔
    e.index.lookup id lsn = some loc ∧
      ∀ st, e.core.streams.streams.lookup id = some st → st.consumedStreamLsn ≤ lsn
  current : e'.walWriter = e.walWriter ∧
    e'.dir.find e.walWriter.currentSegmentId = e.dir.find e.walWriter.currentSegmentId
  removed : ∀ segmentId f, segmentId ≠ e.walWriter.currentSegmentId →
    e.dir.find segmentId = some f →
    (e'.dir.find segmentId = none ↔
      ¬ ∃ id lsn loc, e'.index.lookup id lsn = some loc ∧ loc.segmentId = segmentId)
  kept : ∀ segmentId f, e'.dir.find segmentId = some f → e.dir.find segmentId = some f
  streams : e'.core = e.core

/-- Not being consumed, seen through `ensureStream` or in the table. -/
theorem consumedStreamLsn_le_iff (t : StreamStateTable) (id lsn : Nat) :
    (t.ensureStream id).consumedStreamLsn ≤ lsn ↔
      ∀ st, t.streams.lookup id = some st → st.consumedStreamLsn ≤ lsn := by
  unfold StreamStateTable.ensureStream
  cases t.streams.lookup id with
  | none => simp [StreamReplicaState.new]
  | some st => simp

/-- **Garbage collection is exact**, whatever the engine. -/
theorem collects_runGc (e : ShardEngine) : Collects e e.runGc := by
  obtain ⟨walReader, hgc⟩ := e.runGc_eq
  have hindex : e.runGc.index = e.gcIndex := by rw [hgc]
  have hdir : e.runGc.dir = e.dir.keep e.gcKeeps := by rw [hgc]
  have hlive : ∀ segmentId, segmentId ∈ e.gcIndex.liveSegmentIds ↔
      ∃ id lsn loc, e.runGc.index.lookup id lsn = some loc ∧ loc.segmentId = segmentId := by
    intro segmentId
    rw [hindex]
    exact StreamLogIndex.mem_liveSegmentIds
  refine ⟨fun id lsn loc => ?_, ⟨by rw [hgc], ?_⟩, fun segmentId f hother hf => ?_,
    fun segmentId f hf => ?_, by rw [hgc]⟩
  · rw [hindex, lookup_gcIndex, ← consumedStreamLsn_le_iff]
    by_cases hconsumed : lsn < (e.core.streams.ensureStream id).consumedStreamLsn
    · simp [hconsumed]
    · simp [hconsumed, Nat.not_lt.mp hconsumed]
  · rw [hdir, find_keep, if_pos e.gcKeeps_current]
  · rw [hdir, find_keep, ← hlive]
    by_cases hkeep : segmentId ∈ e.gcIndex.liveSegmentIds
    · simp [gcKeeps, hkeep, hf]
    · simp [gcKeeps, hkeep, hother]
  · rw [hdir, find_keep] at hf
    split at hf
    · exact hf
    · cases hf

end ShardEngine

/-! ### Everything that happens to a shard -/

/-- A step in the life of a shard's files. -/
inductive ShardAction where
  /-- The engine does something. -/
  | perform (a : ProcessAction)
  /-- A committed command is applied. -/
  | apply (clock : Clock) (raftIndex raftTerm : Nat) (cmd : AppendCommand)
  /-- The log gets a record that is not indexed. -/
  | append (record : WalRecord) (createdTsNs : Nat)
  /-- The log goes on in a new segment. -/
  | rotate (createdTsNs : Nat)
  /-- The engine is closed and opened again on its files. -/
  | reopen (config : ServerConfig) (file : Option PersistentState) (createdTsNs : Nat)

namespace ShardEngine

section

variable (hash : Bytes → UInt32)

/-- The step function of a shard's life. -/
def live (e : ShardEngine) : ShardAction → Option ShardEngine
  | .perform a => (e.perform hash a).toOption
  | .apply clock raftIndex raftTerm cmd =>
      (e.applyAppendEntry hash clock raftIndex raftTerm cmd).toOption
  | .append r createdTsNs =>
      match e.walWriter.appendWithLogIndex hash e.dir r.streamId r.epoch r.streamLsn r.entryId
        r.payload r.timestampNs createdTsNs with
      | .ok (walWriter, dir, _, _) => some { e with walWriter := walWriter, dir := dir }
      | _                          => none
  | .rotate createdTsNs =>
      match e.walWriter.rotate e.dir createdTsNs with
      | .ok (walWriter, dir) => some { e with walWriter := walWriter, dir := dir }
      | _                    => none
  | .reopen config file createdTsNs =>
      (openEngine hash e.shardId config file e.dir createdTsNs).toOption

/-- The life of a shard that starts with the given engine. -/
def lifeOf (e : ShardEngine) : System ShardEngine ShardAction where
  init := e
  step := live hash

end

/-- The index points into files, and the writer is at the end of one. -/
structure InFiles (e : ShardEngine) : Prop where
  writer : WriterOk e.walWriter e.dir
  points : e.PointsIntoFiles

variable {hash : Bytes → UInt32} {e e' : ShardEngine}

/-- What happens to neither writer, files nor index. -/
theorem InFiles.congr (h : e.InFiles) (hwriter : e'.walWriter = e.walWriter)
    (hdir : e'.dir = e.dir) (hindex : e'.index = e.index) : e'.InFiles where
  writer := by rw [hwriter, hdir]; exact h.writer
  points id lsn loc hloc := by rw [hdir]; exact h.points id lsn loc (hindex ▸ hloc)

/-- **Applying** indexes a location in the segment that was current before it, even
if the append has gone on to another one. -/
theorem InFiles.apply (h : e.InFiles) {clock : Clock} {raftIndex raftTerm : Nat}
    {cmd : AppendCommand}
    (happly : e.applyAppendEntry hash clock raftIndex raftTerm cmd = .ok e') : e'.InFiles := by
  obtain ⟨w, dir, n, store, responses, happend, -, rfl⟩ := Applies.eq (Or.inl happly)
  obtain ⟨hkeeps, -⟩ := keepsFiles_append (r := recordOf clock raftIndex cmd) happend
  have hfiles : KeepsFiles e.dir (w.sync dir) := hkeeps.trans (keepsFiles_sync w)
  have hwriter : WriterOk w dir :=
    writerOk_append (r := recordOf clock raftIndex cmd) h.writer happend
  refine ⟨hwriter.sync, fun id lsn loc hloc => ?_⟩
  have hlookup : (e.index.insert cmd.streamId cmd.streamLsn
    (appendLocation e.walWriter (recordOf clock raftIndex cmd))).lookup id lsn = some loc := hloc
  rw [StreamLogIndex.lookup_insert] at hlookup
  split at hlookup
  · cases hlookup
    obtain ⟨f, hf, -⟩ := h.writer.current
    refine hfiles _ ?_
    show (e.dir.find e.walWriter.currentSegmentId).isSome
    rw [hf]
    rfl
  · exact hfiles _ (h.points id lsn loc hlookup)

/-- **Collecting garbage** removes no file that an entry is left for. -/
theorem InFiles.gc (h : e.InFiles) : e.runGc.InFiles := by
  have hgc := e.collects_runGc
  obtain ⟨walReader, heq⟩ := e.runGc_eq
  refine ⟨?_, fun id lsn loc hloc => ?_⟩
  · rw [heq]
    exact h.writer.keep e.gcKeeps_current
  · obtain ⟨f, hf⟩ := Option.isSome_iff_exists.mp
      (h.points id lsn loc ((hgc.entries id lsn loc).mp hloc).1)
    by_cases hcurrent : loc.segmentId = e.walWriter.currentSegmentId
    · rw [hcurrent, hgc.current.2, ← hcurrent, hf]
      rfl
    · rw [Option.isSome_iff_ne_none]
      intro hnone
      exact (hgc.removed _ f hcurrent hf).mp hnone ⟨id, lsn, loc, hloc, rfl⟩

/-- **Opening** builds an index that points into files, whatever they hold. -/
theorem inFiles_openEngine {shardId : Nat} {config : ServerConfig}
    {file : Option PersistentState} {dir : ShardDir} {createdTsNs : Nat}
    (hopen : openEngine hash shardId config file dir createdTsNs = .ok e) : e.InFiles := by
  obtain ⟨recovered, w, dir', index, streams, -, hdir, rfl⟩ := openEngine_eq_ok hopen
  obtain ⟨-, -, -, -, hwriter, -⟩ := openDir_eq_ok hdir
  exact ⟨hwriter, fun id lsn loc hloc => find_of_openDir hdir hloc⟩

/-- What the engine does keeps the index in the files. -/
theorem InFiles.perform (h : e.InFiles) {a : ProcessAction}
    (hperform : e.perform hash a = .ok e') : e'.InFiles := by
  cases a with
  | request req =>
      obtain ⟨walReader, responses, proposals, rfl⟩ := handleClientRequest_eq_ok hperform
      exact h.congr rfl rfl rfl
  | raft state leaderId committed accepting =>
      cases hperform
      exact h.congr rfl rfl rfl
  | cycle clock ready advanced =>
      exact driveReady_invariant (I := InFiles) (fun _ _ _ he => he.congr rfl rfl rfl)
        (fun _ _ _ _ _ he happly => he.apply happly) h hperform
  | observe =>
      cases hperform
      exact h.congr rfl rfl rfl
  | gc =>
      cases hperform
      exact h.gc

/-- **Every step keeps the index in the files.** -/
theorem inFiles_step {a : ShardAction} (h : e.InFiles) (hs : e.live hash a = some e') :
    e'.InFiles := by
  cases a with
  | perform a =>
      exact h.perform (Outcome.toOption_eq_some.mp hs)
  | apply clock raftIndex raftTerm cmd =>
      exact h.apply (Outcome.toOption_eq_some.mp hs)
  -- Appending removes no file, so all older locations are still in one.
  | append r createdTsNs =>
      rw [live] at hs
      split at hs
      · rename_i w dir n loc happend
        cases hs
        obtain ⟨hkeeps, -⟩ := keepsFiles_append happend
        exact ⟨writerOk_append h.writer happend,
          fun id lsn loc hloc => hkeeps _ (h.points id lsn loc hloc)⟩
      · cases hs
  | rotate createdTsNs =>
      rw [live] at hs
      split at hs
      · rename_i w dir hrotate
        cases hs
        obtain ⟨w₁, dir₁, hrun, hok, -⟩ := h.writer.rotate hash createdTsNs
        rw [hrun] at hrotate
        cases hrotate
        exact ⟨hok, fun id lsn loc hloc => keepsFiles_rotate hrun _ (h.points id lsn loc hloc)⟩
      · cases hs
  | reopen config file createdTsNs =>
      exact inFiles_openEngine (Outcome.toOption_eq_some.mp hs)

/-- **Garbage collection is exact and safe.** In the life of a shard that starts with
an opening, every index entry points into a file, and a garbage collection does what
it is for. -/
theorem collects_of_reachable {shardId : Nat} {config : ServerConfig}
    {file : Option PersistentState} {dir : ShardDir} {createdTsNs : Nat} {e₀ : ShardEngine}
    (hopen : openEngine hash shardId config file dir createdTsNs = .ok e₀)
    (h : (lifeOf hash e₀).Reachable System.anyStep e) :
    e.PointsIntoFiles ∧ (e.dir.find e.walWriter.currentSegmentId).isSome ∧
      Collects e e.runGc := by
  have hfiles : e.InFiles :=
    h.invariant (inFiles_openEngine hopen) fun _ _ _ _ he _ hs => inFiles_step he hs
  obtain ⟨f, hf, -⟩ := hfiles.writer.current
  exact ⟨hfiles.points, by rw [hf]; rfl, e.collects_runGc⟩

/-- Two streams share the first segment. When only the one has consumed its record a
collection keeps the file, after both have it goes, and the log is opened without it. -/
theorem collects_of_reachable_twoStreams :
    ∃ e₀ e, openEngine crc32 5 ⟨1, 130, 2, [1]⟩ none .empty 0 = .ok e₀ ∧
      (lifeOf crc32 e₀).Reachable System.anyStep e ∧
      e.dir.files.map SegmentFile.segmentId = [1, 2] ∧
      e.PointsIntoFiles ∧ (e.dir.find e.walWriter.currentSegmentId).isSome ∧
      Collects e e.runGc := by
  obtain ⟨e, he, hfiles⟩ := System.exists_reachable_of_execute
    (lifeOf crc32 (freshEngine 5 ⟨1, 130, 2, [1]⟩ 0)) System.anyStep
    [.apply ⟨id, id⟩ 3 1 ⟨1, 7, 1, 0, [10]⟩, .apply ⟨id, id⟩ 4 1 ⟨2, 8, 1, 0, [11]⟩,
      .apply ⟨id, id⟩ 5 1 ⟨3, 7, 1, 1, [12]⟩, .perform (.request ⟨9, ⟨.ack, 7, 0, 1, []⟩⟩),
      .perform .gc, .append ⟨0, 0, 6, 0, 6, [13]⟩ 6,
      .perform (.request ⟨9, ⟨.ack, 8, 0, 1, []⟩⟩), .perform .gc, .reopen ⟨1, 130, 2, [1]⟩ none 7]
    (fun e => e.dir.files.map SegmentFile.segmentId = [1, 2]) (by decide +kernel)
  obtain ⟨hpoints, hcurrent, hcollects⟩ :=
    collects_of_reachable (openEngine_fresh crc32 5 ⟨1, 130, 2, [1]⟩ 0) he
  exact ⟨_, e, openEngine_fresh crc32 5 ⟨1, 130, 2, [1]⟩ 0, he, hfiles, hpoints, hcurrent,
    hcollects⟩

end ShardEngine

end WalServer.Shard
