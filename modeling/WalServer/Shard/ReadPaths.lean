import WalServer.Shard.Replica

/-!
# `WalServer.Shard.ReadPaths`: when the cache and the log answer the same

`read_stream` answers a committed position from the tail cache, or from the log where
the cache does not have it (`cachedResponse`, `loggedResponse`). The index leads from a
position to a record that was logged for it (`Indexed`), whatever happens to a replica,
so what the log answers is known: the record, if its size fits the location, and its
own epoch. The cache answers with the stream's newest epoch. The two are the same
exactly if the record is short enough, was written under the newest epoch and has the
cached payload (`cachedResponse_eq_iff`).
-/

set_option autoImplicit false

namespace WalServer.Shard

open WalServer.Lib WalServer.Protocol WalServer.Raft WalServer.Wal

namespace ShardEngine

/-- What `read_stream` answers from the tail cache. -/
def cachedResponse (e : ShardEngine) (streamId : Nat) (tail : TailRecord) : Response :=
  ⟨.ok, e.core.streams.currentEpoch streamId, tail.streamLsn, tail.payload⟩

/-- What `read_stream` answers from the log, if the reader does not panic. -/
def loggedResponse (hash : Bytes → UInt32) (e : ShardEngine) (streamId streamLsn : Nat) :
    Option Response :=
  match (e.walReader.readRecord hash e.dir streamId streamLsn e.index).2 with
  | .ok record => some ⟨.ok, record.epoch, record.streamLsn, record.payload⟩
  | .err _     => some ⟨.errNotFound, e.core.streams.currentEpoch streamId, streamLsn, []⟩
  | .panic     => none

variable {hash : Bytes → UInt32} {e : ShardEngine} {conn id lsn : Nat}

/-- The cached answer is that of `read_stream` where the cache has the position. -/
theorem readStream_cachedResponse (h : lsn < (e.core.streams.ensureStream id).commitStreamLsn)
    {tail : TailRecord} (htail : e.core.streams.readFromTail id lsn = some tail) :
    e.readStream hash conn id lsn =
      .ok { e with responses := e.responses ++ [⟨conn, e.cachedResponse id tail⟩] } := by
  rw [readStream_cached hash conn h htail, ← StreamStateTable.currentEpoch_eq]
  rfl

/-- The logged answer is that of `read_stream` where the cache does not have the
position. -/
theorem readStream_loggedResponse (h : lsn < (e.core.streams.ensureStream id).commitStreamLsn)
    (htail : e.core.streams.readFromTail id lsn = none) {response : Response}
    (hresponse : e.loggedResponse hash id lsn = some response) :
    ∃ walReader, e.readStream hash conn id lsn = .ok { e with
      walReader := walReader
      responses := e.responses ++ [⟨conn, response⟩] } := by
  unfold loggedResponse at hresponse
  unfold readStream
  simp only [filter_status_eq_none h, htail]
  cases hread : e.walReader.readRecord hash e.dir id lsn e.index with
  | mk walReader result =>
      rw [hread] at hresponse
      cases result with
      | ok record =>
          cases hresponse
          exact ⟨walReader, rfl⟩
      | err failure =>
          cases hresponse
          exact ⟨walReader, rfl⟩
      | panic => cases hresponse

/-- **Reading a record** that lies where the index says succeeds if its size fits the
location's field, and fails if it has wrapped around. -/
theorem readRecord_of_lies {q : WalRecord × RecordLocation} (hlies : Lies hash e.dir q)
    (hlookup : e.index.lookup id lsn = some q.2) :
    (q.1.encodedSize < 2 ^ 32 →
      (e.walReader.readRecord hash e.dir id lsn e.index).2 = .ok q.1) ∧
    (2 ^ 32 ≤ q.1.encodedSize →
      ∃ failure, (e.walReader.readRecord hash e.dir id lsn e.index).2 = .err failure) := by
  constructor
  · intro hshort
    exact WalReader.readRecord_eq_ok.mpr ⟨q.2, hlookup, hlies.reads hshort⟩
  · -- The wrapped size is less than a header's.
    intro hlong
    have hsmall := hlies.small
    have hwrapped : q.2.size < recordHeaderSize := by
      rw [hlies.size]
      unfold recordHeaderSize at hsmall ⊢
      omega
    obtain ⟨failure, hread⟩ :=
      WalReader.readRecord_short hash e.walReader e.dir hlookup hwrapped
    exact ⟨failure, by rw [hread]⟩

/-- **What the log answers** of a record that lies where the index says: the record if
it is short enough for the size of its location, and that it was not found if not. -/
theorem loggedResponse_of_lies {q : WalRecord × RecordLocation} (hlies : Lies hash e.dir q)
    (hlookup : e.index.lookup id lsn = some q.2) :
    e.loggedResponse hash id lsn =
      if q.1.encodedSize < 2 ^ 32 then some ⟨.ok, q.1.epoch, q.1.streamLsn, q.1.payload⟩
      else some ⟨.errNotFound, e.core.streams.currentEpoch id, lsn, []⟩ := by
  obtain ⟨hreads, hfails⟩ := readRecord_of_lies hlies hlookup
  unfold loggedResponse
  by_cases hshort : q.1.encodedSize < 2 ^ 32
  · rw [if_pos hshort, hreads hshort]
  · obtain ⟨failure, hread⟩ := hfails (Nat.not_lt.mp hshort)
    rw [if_neg hshort, hread]

end ShardEngine

namespace Replica

variable {hash : Bytes → UInt32} {log : Nat → Option AppendCommand} {s t : Replica}

/-! ### The index and the log -/

/-- The index leads from a position to a record that was logged for it, and what was
logged lies where it was. -/
structure Indexed (hash : Bytes → UInt32) (s : Replica) : Prop where
  writer : WriterOk s.engine.walWriter s.engine.dir
  lies : ∀ q ∈ s.logged, Lies hash s.engine.dir q
  index : ∀ id lsn loc, s.engine.index.lookup id lsn = some loc →
    ∃ q ∈ s.logged, q.1.streamId = id ∧ q.1.streamLsn = lsn ∧ q.2 = loc

/-- What happens to neither log nor index. -/
theorem Indexed.same (h : s.Indexed hash) (hsame : s.SameLog t) : t.Indexed hash where
  writer := by rw [hsame.walWriter, hsame.dir]; exact h.writer
  lies q hq := by rw [hsame.dir]; exact h.lies q (hsame.logged ▸ hq)
  index id lsn loc hloc := by rw [hsame.logged]; exact h.index id lsn loc (hsame.index ▸ hloc)

/-- A record that was just appended lies where the append says. -/
theorem lies_appended {w : WalWriter} {dir dir' : ShardDir} (hwriter : WriterOk w dir)
    {clock : Clock} {raftIndex : Nat} {cmd : AppendCommand} (hfits : cmd.Fits)
    (hindex : raftIndex < 256 ^ 8) (htime : clock.record raftIndex < 256 ^ 8)
    (hkeeps : KeepsReadable hash
      (writtenDir hash w dir (ShardEngine.recordOf clock raftIndex cmd)) dir') :
    Lies hash dir' (ShardEngine.recordOf clock raftIndex cmd,
      appendLocation w (ShardEngine.recordOf clock raftIndex cmd)) where
  small := by
    have hpayload := hfits.payload
    unfold WalRecord.encodedSize
    show recordHeaderSize + cmd.payload.length < _
    omega
  size := rfl
  reads hshort := by
    have hsize : recordHeaderSize + cmd.payload.length < 2 ^ 32 := hshort
    unfold recordHeaderSize at hsize
    exact hkeeps _ _ (hwriter.readRecordAt_appended
      (ShardEngine.recordOf_fits hfits hindex htime (by omega)) hshort)

/-- **Applying** logs the record and indexes it. -/
theorem Indexed.apply (h : s.Indexed hash) {clock : Clock} {raftIndex raftTerm : Nat}
    {cmd : AppendCommand} {e : ShardEngine} {stopped : Bool} (hfits : cmd.Fits)
    (hindex : raftIndex < 256 ^ 8) (htime : clock.record raftIndex < 256 ^ 8)
    (happly : s.engine.Applies hash clock raftIndex raftTerm cmd e) :
    (s.noteApplied clock raftIndex cmd e stopped).Indexed hash := by
  obtain ⟨w, dir, n, store, responses, happend, -, rfl⟩ := happly.eq
  obtain ⟨w₁, dir₁, hrun, hwriter, hkeeps⟩ :=
    h.writer.append hash (ShardEngine.recordOf clock raftIndex cmd) (clock.segment raftIndex)
  -- Appending is a function, so this is the append that the call made.
  have hsame : w₁ = w ∧ dir₁ = dir := by
    have happend' : Outcome.ok (w₁, dir₁, raftIndex, appendLocation s.engine.walWriter
        (ShardEngine.recordOf clock raftIndex cmd)) = .ok (w, dir, n, _) := hrun.symm.trans happend
    cases happend'
    exact ⟨rfl, rfl⟩
  obtain ⟨rfl, rfl⟩ := hsame
  have hreadable := hkeeps.trans (keepsReadable_sync w₁)
  refine ⟨hwriter.sync, fun q hq => ?_, fun id lsn loc hloc => ?_⟩
  · rcases List.mem_append.mp hq with hold | hnew
    · exact (h.lies q hold).keeps
        ((h.writer.keepsReadable_writtenDir _).trans hreadable)
    · rw [List.mem_singleton.mp hnew]
      exact lies_appended h.writer hfits hindex htime hreadable
  · -- The lookup finds the entry that was just inserted, or an older one.
    have hlookup : (s.engine.index.insert cmd.streamId cmd.streamLsn
      (appendLocation s.engine.walWriter (ShardEngine.recordOf clock raftIndex cmd))).lookup
        id lsn = some loc := hloc
    rw [StreamLogIndex.lookup_insert] at hlookup
    split at hlookup
    · rename_i hkey
      cases hlookup
      exact ⟨_, List.mem_append_right _ List.mem_cons_self, hkey.1.symm, hkey.2.symm, rfl⟩
    · obtain ⟨q, hq, hrest⟩ := h.index id lsn loc hlookup
      exact ⟨q, List.mem_append_left _ hq, hrest⟩

/-- **Collecting garbage** keeps the files of what stays indexed. -/
theorem Indexed.gc (h : s.Indexed hash) (hs : s.step hash log .gc = some t) : t.Indexed hash := by
  obtain ⟨walReader, rfl⟩ := step_gc hs
  refine ⟨h.writer.keep s.engine.gcKeeps_current, fun q hq => ?_, fun id lsn loc hloc => ?_⟩
  · obtain ⟨hold, hkept⟩ := List.mem_filter.mp hq
    have hlies := h.lies q hold
    exact ⟨hlies.small, hlies.size, fun hshort => readRecordAt_keep hkept (hlies.reads hshort)⟩
  · have hlookup : s.engine.gcIndex.lookup id lsn = some loc := hloc
    have hlive : s.engine.gcKeeps loc.segmentId = true := decide_eq_true
      (Or.inr (StreamLogIndex.mem_liveSegmentIds.mpr ⟨id, lsn, loc, hlookup, rfl⟩))
    rw [ShardEngine.lookup_gcIndex] at hlookup
    split at hlookup
    · cases hlookup
    · obtain ⟨q, hq, hstream, hlsn, rfl⟩ := h.index id lsn loc hlookup
      exact ⟨q, List.mem_filter.mpr ⟨hq, hlive⟩, hstream, hlsn, rfl⟩

/-- **A restart** indexes what it finds. -/
theorem indexed_restart {dir : ShardDir} {file : Nat} {config : ServerConfig} {createdTsNs : Nat}
    (hs : s.step hash log (.restart dir file config createdTsNs) = some t) : t.Indexed hash := by
  obtain ⟨p, recovered, -, hrestarted⟩ := step_restart hs
  refine ⟨hrestarted.writer, hrestarted.lies, fun id lsn loc hloc => ?_⟩
  rw [hrestarted.index] at hloc
  exact mem_of_lookup_indexRecords hloc

/-- **Every step keeps the index on the log.** -/
theorem indexed_step {a : ReplicaAction} (h : s.Indexed hash) (hok : Typed log s a)
    (hs : s.step hash log a = some t) : t.Indexed hash := by
  cases logStep hs with
  | same hsame => exact h.same hsame
  | apply hcmd happly ht =>
      obtain ⟨hindex, htime, hfits⟩ := hok
      rw [ht]
      exact h.apply (hfits _ hcmd) hindex htime happly
  | gc hgc => exact h.gc hgc
  | restart hrestart => exact indexed_restart hrestart

theorem indexed_started (shardId : Nat) (config : ServerConfig) (createdTsNs : Nat) :
    (started shardId config createdTsNs).Indexed hash where
  writer := (ShardEngine.sane_freshEngine shardId config createdTsNs).writer
  lies q hq := by cases hq
  index id lsn loc hloc := by cases hloc

/-! ### The two answers -/

/-- **Exactly when the cache and the log answer the same.** A committed position is
cached and indexed: its record in the log must be short enough for the size of its
location, written under the newest epoch of its stream, and carry the cached payload. -/
theorem cachedResponse_eq_iff {shardId : Nat} {config : ServerConfig} {createdTsNs : Nat}
    (h : (replica hash log shardId config createdTsNs).Reachable (Typed log) s)
    {id lsn : Nat} {tail : TailRecord} {loc : RecordLocation}
    (htail : s.table.readFromTail id lsn = some tail)
    (hloc : s.engine.index.lookup id lsn = some loc) :
    s.engine.loggedResponse hash id lsn = some (s.engine.cachedResponse id tail) ↔
      ∀ q ∈ s.logged, q.2 = loc → q.1.encodedSize < 2 ^ 32 ∧
        q.1.epoch = (s.table.ensureStream id).maxEpoch ∧ q.1.payload = tail.payload := by
  have hindexed : s.Indexed hash := h.invariant (indexed_started shardId config createdTsNs)
    fun _ _ _ _ hr hok hs => indexed_step hr hok (step_of_replica hs)
  have hlsn : tail.streamLsn = lsn := by
    rw [StreamStateTable.readFromTail_eq] at htail
    simpa using List.find?_some htail
  have hcached : s.engine.cachedResponse id tail =
      ⟨.ok, (s.table.ensureStream id).maxEpoch, lsn, tail.payload⟩ := by
    unfold ShardEngine.cachedResponse table
    rw [StreamStateTable.currentEpoch_eq, hlsn]
  rw [hcached]
  constructor
  · intro hsame q hq hat
    rw [ShardEngine.loggedResponse_of_lies (hindexed.lies q hq) (hat ▸ hloc)] at hsame
    split at hsame
    · rename_i hshort
      simp only [Option.some.injEq, Response.mk.injEq] at hsame
      obtain ⟨-, hepoch, -, hpayload⟩ := hsame
      exact ⟨hshort, hepoch, hpayload⟩
    · -- not found is another status than ok
      simp only [Option.some.injEq, Response.mk.injEq, reduceCtorEq, false_and] at hsame
  · intro hall
    obtain ⟨q, hq, -, hstreamLsn, hat⟩ := hindexed.index id lsn loc hloc
    obtain ⟨hshort, hepoch, hpayload⟩ := hall q hq hat
    rw [ShardEngine.loggedResponse_of_lies (hindexed.lies q hq) (hat ▸ hloc), if_pos hshort,
      hepoch, hstreamLsn, hpayload]

/-! ### Two writers of one stream -/

/-- Two writes of one stream: the first under epoch one, the second under epoch two. -/
def twoEpochs : Nat → Option AppendCommand
  | 2 => some ⟨1, 6, 1, 0, [10]⟩
  | 3 => some ⟨1, 6, 2, 1, [11]⟩
  | _ => none

/-- Both are handed on. -/
def bothHandedOn : List ReplicaAction :=
  [.apply ⟨id, id⟩ 1 1, .apply ⟨id, id⟩ 2 1, .apply ⟨id, id⟩ 3 2]

/-- Where the records of the two writes are. -/
def firstLocation : RecordLocation := ⟨0, 64, 49⟩

@[inherit_doc firstLocation] def secondLocation : RecordLocation := ⟨0, 113, 49⟩

/-- The second write is cached and indexed, and its record is of the newest epoch. -/
def SecondAlike (s : Replica) : Prop :=
  s.table.readFromTail 6 1 = some ⟨1, 3, [11]⟩ ∧ s.engine.index.lookup 6 1 = some secondLocation ∧
    ∀ q ∈ s.logged, q.2 = secondLocation → q.1.encodedSize < 2 ^ 32 ∧
      q.1.epoch = (s.table.ensureStream 6).maxEpoch ∧ q.1.payload = [11]

instance : DecidablePred SecondAlike := fun s => by
  unfold SecondAlike
  infer_instance

/-- The second write of the stream is answered the same by both. -/
theorem cachedResponse_eq_secondWrite :
    ∃ s, (replica crc32 twoEpochs 5 ⟨1, 500, 2, [1]⟩ 0).Reachable (Typed twoEpochs) s ∧
      s.engine.loggedResponse crc32 6 1 = some (s.engine.cachedResponse 6 ⟨1, 3, [11]⟩) := by
  obtain ⟨s, hreach, htail, hloc, halike⟩ := System.exists_reachable_of_execute
    (replica crc32 twoEpochs 5 ⟨1, 500, 2, [1]⟩ 0) (Typed twoEpochs) bothHandedOn SecondAlike
    (by decide +kernel)
  exact ⟨s, hreach, (cachedResponse_eq_iff hreach htail hloc).mpr halike⟩

/-- The first write is committed, cached and indexed, and the log answers with its own
epoch. -/
def FirstDiffers (s : Replica) : Prop :=
  0 < (s.table.ensureStream 6).commitStreamLsn ∧
    s.table.readFromTail 6 0 = some ⟨0, 2, [10]⟩ ∧
    s.engine.index.lookup 6 0 = some firstLocation ∧
    s.engine.loggedResponse crc32 6 0 ≠ some (s.engine.cachedResponse 6 ⟨0, 2, [10]⟩)

instance : DecidablePred FirstDiffers := fun s => by
  unfold FirstDiffers
  infer_instance

/-- The first write is answered with epoch two while it is cached, and with epoch one
from the log. -/
theorem cachedResponse_ne_firstWrite :
    ¬ ∀ (log : Nat → Option AppendCommand) (config : ServerConfig) (s : Replica),
      (replica crc32 log 5 config 0).Reachable (Typed log) s →
      ∀ id lsn tail loc, lsn < (s.table.ensureStream id).commitStreamLsn →
        s.table.readFromTail id lsn = some tail → s.engine.index.lookup id lsn = some loc →
        s.engine.loggedResponse crc32 id lsn = some (s.engine.cachedResponse id tail) := by
  intro hsame
  obtain ⟨s, hreach, hcommit, htail, hloc, hdiffers⟩ := System.exists_reachable_of_execute
    (replica crc32 twoEpochs 5 ⟨1, 500, 2, [1]⟩ 0) (Typed twoEpochs) bothHandedOn FirstDiffers
    (by decide +kernel)
  exact hdiffers (hsame twoEpochs _ s hreach 6 0 _ _ hcommit htail hloc)

end Replica

end WalServer.Shard
