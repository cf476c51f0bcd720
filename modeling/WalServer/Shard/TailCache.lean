import WalServer.Lib.Window
import WalServer.Shard.Redelivery
import WalServer.Shard.StepDown
import WalServer.Shard.Watermarks

/-!
# `WalServer.Shard.TailCache`: the tail cache as a window of the stream

What is meant to hold of every tail cache (`CachesExact`): it is strictly increasing,
holds at most `tail_cache_limit` records, all of them committed and not consumed, and an
acknowledgement removes all that it consumes.

Two paths push into the queue, applying and recovery, and neither looks at what is in it
or at the consumed position. An acknowledgement only pops. So the caches are exact as
long as what is pushed continues them (`CacheContinues`): a command that is applied has a
position above the records that stay beside its own and not below the consumed one, and
of the records that a restart replays the last ones of each stream are in order. In every
run of such steps the caches are exact, and a step from there that is none of them breaks
one (`tailCache_exact_of_reachable`).
-/

set_option autoImplicit false

namespace WalServer.Shard

open WalServer.Lib WalServer.Protocol WalServer.Raft WalServer.Wal

namespace StreamStateTable

variable {t t' : StreamStateTable}

/-- The tail cache of each stream is a window of its committed positions that are not
consumed. -/
def Windows (t : StreamStateTable) : Prop :=
  ∀ id, Window TailRecord.streamLsn t.tailCacheLimit (t.ensureStream id).consumedStreamLsn
    (t.ensureStream id).commitStreamLsn (t.ensureStream id).tailCache

/-- **What is meant to hold** of the tail caches. -/
structure CachesExact (t : StreamStateTable) : Prop where
  windows : t.Windows
  removed : ∀ id consumed,
    ((t.advanceConsumed id consumed).1.ensureStream id).tailCache =
      (t.ensureStream id).tailCache.filter fun record =>
        (t.advanceConsumed id consumed).2 ≤ record.streamLsn

/-- Removing all that is consumed takes no more than a sorted queue. -/
theorem cachesExact_iff : t.CachesExact ↔ t.Windows := by
  constructor
  · intro h
    exact h.windows
  · intro h
    refine ⟨h, fun id consumed => ?_⟩
    rw [ensureStream_advanceConsumed, if_pos rfl]
    exact dropWhile_eq_filter (h id).increasing _

theorem windows_new (limit : Nat) : (new limit).Windows := by
  intro id
  rw [ensureStream_new]
  exact Window.nil

/-- What allocates, or not even that, leaves the caches alone. -/
theorem Windows.allocates (h : t.Windows) (hallocates : t.Allocates t')
    (hlimit : t'.tailCacheLimit = t.tailCacheLimit) : t'.Windows := by
  intro id
  have hid := hallocates id
  rw [hlimit, hid.consumedStreamLsn, hid.commitStreamLsn, hid.tailCache]
  exact h id

/-- **An acknowledgement** keeps the caches windows. -/
theorem Windows.advanceConsumed (h : t.Windows) (streamId offset : Nat) :
    (t.advanceConsumed streamId offset).1.Windows := by
  intro id
  show Window _ t.tailCacheLimit _ _ _
  rw [ensureStream_advanceConsumed]
  split
  · exact (h streamId).dropWhile _
  · exact h id

/-! ### Applying -/

/-- The position continues the tail cache of the stream. -/
def ContinuesCache (t : StreamStateTable) (id lsn : Nat) : Prop :=
  Continues TailRecord.streamLsn t.tailCacheLimit (t.ensureStream id).consumedStreamLsn
    (t.ensureStream id).tailCache lsn

instance (t : StreamStateTable) (id lsn : Nat) : Decidable (t.ContinuesCache id lsn) :=
  inferInstanceAs (Decidable (Continues _ _ _ _ _))

/-- **Applying a command** keeps the caches windows exactly if it continues its
stream's. -/
theorem windows_applyCommand_iff (h : t.Windows) (raftIndex : Nat) (cmd : AppendCommand) :
    (ShardCore.applyCommand t raftIndex cmd).Windows ↔
      t.ContinuesCache cmd.streamId cmd.streamLsn := by
  have hlimit : (ShardCore.applyCommand t raftIndex cmd).tailCacheLimit = t.tailCacheLimit := rfl
  -- The committed position rises above the command or stays where it is.
  have hpush := (h cmd.streamId).push_iff (x := ⟨cmd.streamLsn, raftIndex, cmd.payload⟩)
    (Nat.le_max_left _ (cmd.streamLsn + 1)) (Nat.le_max_right _ (cmd.streamLsn + 1))
  constructor
  · intro happlied
    have hstream := happlied cmd.streamId
    rw [hlimit, ShardCore.ensureStream_applyCommand, if_pos rfl] at hstream
    exact hpush.mp hstream
  · intro hcontinues id
    rw [hlimit, ShardCore.ensureStream_applyCommand]
    split
    · exact hpush.mpr hcontinues
    · exact h id

/-! ### Recovery -/

/-- What the replay of records pushes into the tail cache of a stream. -/
def replayed (bound : Nat) (records : List WalRecord) (id : Nat) : List TailRecord :=
  (records.filter fun r => bound < r.entryId ∧ r.streamId = id).map fun r =>
    ⟨r.streamLsn, r.entryId, r.payload⟩

theorem replayed_concat (bound : Nat) (records : List WalRecord) (r : WalRecord) (id : Nat) :
    replayed bound (records ++ [r]) id =
      if bound < r.entryId ∧ r.streamId = id then
        replayed bound records id ++ [⟨r.streamLsn, r.entryId, r.payload⟩]
      else replayed bound records id := by
  simp only [replayed, List.filter_append, List.map_append]
  split
  · rename_i hpushed
    simp [hpushed]
  · rename_i hnot
    simpa using hnot

/-- **The cache that recovery builds**: the last records of the stream that are replayed. -/
theorem tailCache_recoverStreams {id : Nat} (hempty : (t.ensureStream id).tailCache = [])
    (bound : Nat) (records : List WalRecord) :
    ((recoverStreams t bound records).ensureStream id).tailCache =
      (replayed bound records id).rtake t.tailCacheLimit := by
  -- From the last record backwards: what is pushed last decides what is dropped.
  induction records using List.reverseRecOn with
  | nil =>
      show (t.ensureStream id).tailCache = _
      rw [hempty]
      simp [replayed]
  | append_singleton records r ih =>
      rw [recoverStreams_concat, replayed_concat]
      by_cases hbeyond : bound < r.entryId
      · by_cases hid : r.streamId = id
        · subst hid
          rw [if_pos hbeyond, if_pos ⟨hbeyond, rfl⟩, ensureStream_observeRecovered, if_pos rfl,
            tailCacheLimit_recoverStreams, ih]
          exact rtake_rtake_concat _ _ _
        · rw [if_pos hbeyond, if_neg (fun hboth => hid hboth.2), ensureStream_observeRecovered,
            if_neg (Ne.symm hid), ih]
      · rw [if_neg hbeyond, if_neg (fun hboth => hbeyond hboth.1), ih]

/-- What is replayed is committed. -/
theorem lt_commitStreamLsn_of_replayed {bound id : Nat} {records : List WalRecord}
    {record : TailRecord} (h : record ∈ replayed bound records id) :
    record.streamLsn < ((recoverStreams t bound records).ensureStream id).commitStreamLsn := by
  obtain ⟨r, hr, rfl⟩ := List.mem_map.mp h
  obtain ⟨hmem, hfilter⟩ := List.mem_filter.mp hr
  simp only [decide_eq_true_eq] at hfilter
  obtain ⟨hbeyond, rfl⟩ := hfilter
  exact (knows_recoverStreams hmem hbeyond [] 0).commitStreamLsn

/-- Of the records that are replayed, the last ones of each stream are in order, and none
of them is consumed. -/
def ReplaysInOrder (t : StreamStateTable) (bound : Nat) (records : List WalRecord) : Prop :=
  ∀ r ∈ records,
    let last := (replayed bound records r.streamId).rtake t.tailCacheLimit
    (last.Pairwise fun a b => a.streamLsn < b.streamLsn) ∧
      ∀ record ∈ last, (t.ensureStream r.streamId).consumedStreamLsn ≤ record.streamLsn

instance (t : StreamStateTable) (bound : Nat) (records : List WalRecord) :
    Decidable (t.ReplaysInOrder bound records) := by
  unfold ReplaysInOrder
  infer_instance

/-- **Recovery** makes the caches windows exactly if what it replays is in order. -/
theorem windows_recoverStreams_iff (hempty : ∀ id, (t.ensureStream id).tailCache = [])
    (bound : Nat) (records : List WalRecord) :
    (recoverStreams t bound records).Windows ↔ t.ReplaysInOrder bound records := by
  constructor
  · intro h r hr
    have hstream := h r.streamId
    rw [tailCache_recoverStreams (hempty _), consumedStreamLsn_recoverStreams] at hstream
    exact ⟨hstream.increasing, hstream.low⟩
  · intro h id
    rw [tailCache_recoverStreams (hempty id), consumedStreamLsn_recoverStreams,
      tailCacheLimit_recoverStreams]
    -- A stream without records has an empty cache.
    by_cases hany : ∃ r ∈ records, r.streamId = id
    · obtain ⟨r, hr, rfl⟩ := hany
      obtain ⟨hincreasing, hlow⟩ := h r hr
      refine ⟨hincreasing, length_rtake_le _ _, hlow, fun record hrecord => ?_⟩
      exact lt_commitStreamLsn_of_replayed (mem_of_mem_rtake hrecord)
    · have hnone : replayed bound records id = [] := by
        simp only [not_exists, not_and] at hany
        simp only [replayed, List.map_eq_nil_iff, List.filter_eq_nil_iff, decide_eq_true_eq]
        exact fun r hr hboth => hany r hr hboth.2
      rw [hnone, List.rtake_nil]
      exact Window.nil

/-- A snapshot brings no cache. -/
theorem tailCache_of_decodeSnapshot {limit : Nat} {data : Bytes}
    (h : decodeSnapshot limit data = .ok t) :
    t.tailCacheLimit = limit ∧ ∀ id, (t.ensureStream id).tailCache = [] := by
  unfold decodeSnapshot at h
  cases hstatuses : snapshotStatuses data with
  | error text =>
      rw [hstatuses] at h
      cases h
  | ok statuses =>
      rw [hstatuses] at h
      cases h
      refine ⟨tailCacheLimit_ofStatuses _ _, fun id => ?_⟩
      rcases ensureStream_ofStatuses limit statuses id with hnew | ⟨status, -, -, hrestored⟩
      · rw [hnew]
        rfl
      · rw [hrestored]
        rfl

/-! ### Limits -/

theorem tailCacheLimit_admitWrite (c : ShardCore) (conn id epoch : Nat) (payload : Bytes) :
    (c.admitWrite conn id epoch payload).1.streams.tailCacheLimit = c.streams.tailCacheLimit := by
  have hallocate : (c.streams.allocateAppend id epoch).1.tailCacheLimit =
      c.streams.tailCacheLimit := by
    unfold allocateAppend
    simp only
    split <;> rfl
  rw [← hallocate]
  unfold ShardCore.admitWrite
  split <;> simp_all

theorem tailCacheLimit_logRaftStateIfChanged (c : ShardCore) (role : StateRole)
    (leaderId : Nat) :
    (c.logRaftStateIfChanged role leaderId).1.streams.tailCacheLimit =
      c.streams.tailCacheLimit := by
  by_cases hdown : c.observedRole = .leader ∧ role ≠ .leader
  · rw [ShardCore.logRaftStateIfChanged_down hdown.1 hdown.2]
    exact ShardCore.tailCacheLimit_rollbackAll _ _
  · rw [ShardCore.logRaftStateIfChanged_stay fun hobs =>
      Classical.not_not.mp fun hrole => hdown ⟨hobs, hrole⟩]

end StreamStateTable

open StreamStateTable

namespace Replica

variable {hash : Bytes → UInt32} {log : Nat → Option AppendCommand} {s t : Replica}

/-- The condition: what a step pushes into the tail caches continues them. -/
def CacheContinues (hash : Bytes → UInt32) (log : Nat → Option AppendCommand) (s : Replica) :
    ReplicaAction → Prop
  | .apply _ raftIndex _       =>
      ∀ cmd ∈ log raftIndex, s.table.ContinuesCache cmd.streamId cmd.streamLsn
  | .restart dir file config _ => ∀ p ∈ s.engine.raft.store.written[file]?,
      ∀ recovered ∈ (decodeSnapshot config.tailCacheEntries p.snapshot.data).toOption,
        recovered.ReplaysInOrder p.snapshot.metadata.index ((foundOn hash dir).map Prod.fst)
  | _                          => True

instance (s : Replica) (a : ReplicaAction) : Decidable (CacheContinues hash log s a) := by
  rcases a with _ | _ | _ | _ | _ | _ | _ | _ <;> dsimp only [CacheContinues] <;> infer_instance

/-- No request changes the limit. -/
theorem tailCacheLimit_request {req : ShardRequest}
    (hs : s.step hash log (.request req) = some t) :
    t.table.tailCacheLimit = s.table.tailCacheLimit := by
  obtain ⟨walReader, responses, proposals, rfl⟩ := step_request hs
  unfold table
  rw [engine_noteRequest]
  show (s.engine.coreAfter req).streams.tailCacheLimit = _
  unfold ShardEngine.coreAfter
  cases req.request.op with
  | write =>
      show (ite _ _ _ : ShardCore).streams.tailCacheLimit = _
      split
      · exact tailCacheLimit_admitWrite _ _ _ _ _
      · rfl
  | ack => rfl
  | read => rfl
  | getStatus => rfl

/-- **What every step keeps**: it leaves the caches windows exactly if what it pushes
continues them. -/
theorem windows_step_iff {a : ReplicaAction} (h : s.table.Windows)
    (hs : s.step hash log a = some t) : t.table.Windows ↔ CacheContinues hash log s a := by
  cases a with
  | request req =>
      have hlimit := tailCacheLimit_request hs
      refine iff_of_true ?_ trivial
      -- An acknowledgement pops; any other request allocates at most.
      rcases table_request hs with ⟨-, hacked⟩ | ⟨-, hallocates⟩
      · rw [hacked]
        exact h.advanceConsumed _ _
      · exact h.allocates hallocates hlimit
  | role state leaderId committed accepting =>
      cases hs
      exact iff_of_true h trivial
  | store ready =>
      obtain ⟨outbound, stepped, stopped, rfl⟩ := step_store hs
      exact iff_of_true h trivial
  | apply clock raftIndex raftTerm =>
      show _ ↔ ∀ cmd ∈ log raftIndex, _
      -- raft hands a command on, or an entry without one.
      obtain ⟨-, ⟨hnone, rfl⟩ | ⟨cmd, e, stopped, hcmd, happly, rfl⟩⟩ := step_apply hs
      · rw [hnone]
        exact iff_of_true h fun cmd hcmd => by cases hcmd
      · rw [table_noteApplied happly, windows_applyCommand_iff h, hcmd]
        simp
  | advance advanced =>
      obtain ⟨outbound, stepped, rfl⟩ := step_advance hs
      exact iff_of_true h trivial
  | observe =>
      have hallocates := allocates_observe hs
      cases hs
      exact iff_of_true (h.allocates hallocates (tailCacheLimit_logRaftStateIfChanged _ _ _))
        trivial
  | gc =>
      obtain ⟨walReader, rfl⟩ := step_gc hs
      exact iff_of_true h trivial
  | restart dir file config createdTsNs =>
      -- The new process starts with empty caches, and the replay fills them.
      obtain ⟨p, recovered, hp, hrestarted⟩ := step_restart hs
      have hempty := (tailCache_of_decodeSnapshot hrestarted.decoded).2
      rw [hrestarted.table, windows_recoverStreams_iff hempty, hrestarted.logged]
      show _ ↔ ∀ p ∈ s.engine.raft.store.written[file]?, ∀ recovered ∈ Except.toOption _, _
      rw [hp]
      constructor
      · intro hreplays q hq recovered' hdecoded
        cases hq
        rw [hrestarted.decoded] at hdecoded
        cases hdecoded
        exact hreplays
      · intro hcontinues
        refine hcontinues p rfl recovered ?_
        rw [hrestarted.decoded]
        rfl

/-- **The tail caches are exact as long as what is pushed continues them**: in every run
of such steps, and from there a step keeps them exact only if it is one. -/
theorem tailCache_exact_of_reachable {shardId : Nat} {config : ServerConfig} {createdTsNs : Nat}
    (h : (replica hash log shardId config createdTsNs).Reachable (CacheContinues hash log) s) :
    s.table.CachesExact ∧ ∀ a t, s.step hash log a = some t →
      (t.table.CachesExact ↔ CacheContinues hash log s a) := by
  have hwindows : s.table.Windows := h.invariant (I := fun s => s.table.Windows)
    (windows_new config.tailCacheEntries)
    fun _ _ _ _ hbefore hok hs => (windows_step_iff hbefore (step_of_replica hs)).mpr hok
  refine ⟨cachesExact_iff.mpr hwindows, fun a t hs => ?_⟩
  rw [cachesExact_iff]
  exact windows_step_iff hwindows hs

/-- Both writes are cached, and the first is acknowledged. -/
def firstConsumed : List ReplicaAction :=
  bothHandedOn ++ [.request ⟨9, ⟨.ack, 6, 0, 1, []⟩⟩]

theorem tailCache_exact_firstConsumed :
    ∃ s, (replica crc32 twoEpochs 5 ⟨1, 500, 2, [1]⟩ 0).Reachable
        (CacheContinues crc32 twoEpochs) s ∧
      (s.table.ensureStream 6).tailCache = [⟨1, 3, [11]⟩] ∧ s.table.CachesExact := by
  obtain ⟨s, hreach, hcache⟩ := System.exists_reachable_of_execute
    (replica crc32 twoEpochs 5 ⟨1, 500, 2, [1]⟩ 0) (CacheContinues crc32 twoEpochs) firstConsumed
    (fun s => (s.table.ensureStream 6).tailCache = [⟨1, 3, [11]⟩]) (by decide +kernel)
  exact ⟨s, hreach, hcache, (tailCache_exact_of_reachable hreach).1⟩

/-- Both writes are handed on, the process stops and starts again on its own files, and
raft hands both on again. -/
theorem exists_recached :
    ∃ s, (replica crc32 twoEpochs 5 ⟨1, 500, 4, [1]⟩ 0).Reachable (Crashing twoEpochs) s ∧
      (s.table.ensureStream 6).consumedStreamLsn = 0 ∧
      (s.table.ensureStream 6).tailCache =
        [⟨0, 2, [10]⟩, ⟨1, 3, [11]⟩, ⟨0, 2, [10]⟩, ⟨1, 3, [11]⟩] := by
  -- The restart is on the files that the first run has left, so it is a run of its own.
  obtain ⟨s, hreach, hagain⟩ := System.exists_reachable_of_execute
    (replica crc32 twoEpochs 5 ⟨1, 500, 4, [1]⟩ 0) (Crashing twoEpochs) bothHandedOn
    (fun s => (System.execute (replica crc32 twoEpochs 5 ⟨1, 500, 4, [1]⟩ 0) (Crashing twoEpochs) s
        (.restart s.engine.dir 0 ⟨1, 500, 4, [1]⟩ 9 :: bothHandedOn)).any
      (fun t => decide ((t.table.ensureStream 6).consumedStreamLsn = 0 ∧
        (t.table.ensureStream 6).tailCache =
          [⟨0, 2, [10]⟩, ⟨1, 3, [11]⟩, ⟨0, 2, [10]⟩, ⟨1, 3, [11]⟩])) = true)
    (by decide +kernel)
  obtain ⟨t, hrun, ht⟩ := (Option.any_eq_true _ _).mp hagain
  exact ⟨t, System.reachable_of_execute _ _ hreach hrun, of_decide_eq_true ht⟩

/-- **A tail cache that is no window**: what was recovered is pushed a second time, and an
acknowledgement of the first position leaves its second record in the cache. -/
theorem tailCache_not_exact :
    ¬ ∀ (log : Nat → Option AppendCommand) (config : ServerConfig) (s : Replica),
      (replica crc32 log 5 config 0).Reachable (Crashing log) s → s.table.CachesExact := by
  intro hclaim
  obtain ⟨s, hreach, hconsumed, hcache⟩ := exists_recached
  have hremoved := (hclaim _ _ s hreach).removed 6 1
  have hmark : (s.table.advanceConsumed 6 1).2 = 1 := by
    show max (s.table.ensureStream 6).consumedStreamLsn 1 = 1
    rw [hconsumed]
    rfl
  rw [ensureStream_advanceConsumed, if_pos rfl, hmark, hconsumed, hcache] at hremoved
  -- The second record of position 0 stands behind one that stays.
  have hleft : ([⟨1, 3, [11]⟩, ⟨0, 2, [10]⟩, ⟨1, 3, [11]⟩] : List TailRecord) =
      [⟨1, 3, [11]⟩, ⟨1, 3, [11]⟩] := hremoved
  exact absurd hleft (by decide)

end Replica

end WalServer.Shard
