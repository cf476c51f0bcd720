import WalServer.Lib.AssocMap
import WalServer.Lib.BigEndian

/-!
# `WalServer.Shard.StreamState`: the per-stream state table

The table of `shard/stream_state.rs`: for every stream its newest epoch, its
next, committed and consumed positions, the newest raft index applied to it and
a bounded cache of its last records. The functions carry the source's names and
do what the source does, on numbers instead of 64-bit counters.

A table is keyed by the stream id its states carry, which is a field of the
structure. `ensureStream` is the source's function and at the same time the view
through which every operation is described: each one has an equation that says
what `ensureStream` sees after it, at any stream. Proofs use these equations and
never unfold an operation.
-/

set_option autoImplicit false

namespace WalServer.Shard

open WalServer.Lib

/-- A record kept in the tail cache of a stream. -/
structure TailRecord where
  streamLsn : Nat
  entryId : Nat
  payload : Bytes
deriving DecidableEq, Repr

/-- The state of one stream on this replica. -/
structure StreamReplicaState where
  streamId : Nat
  maxEpoch : Nat
  nextStreamLsn : Nat
  commitStreamLsn : Nat
  consumedStreamLsn : Nat
  lastEntryId : Nat
  tailCache : List TailRecord
deriving DecidableEq, Repr

/-- What a status request and a snapshot tell about one stream. -/
structure StreamStatus where
  streamId : Nat
  maxEpoch : Nat
  nextStreamLsn : Nat
  commitStreamLsn : Nat
  consumedStreamLsn : Nat
  lastEntryId : Nat
deriving DecidableEq, Repr

/-- The refusal of a write whose epoch is below the stream's newest one. -/
inductive EpochFenceError where
  | stale (currentEpoch requestEpoch : Nat)
deriving DecidableEq, Repr

/-- A stream that has seen nothing yet. -/
def StreamReplicaState.new (streamId : Nat) : StreamReplicaState where
  streamId := streamId
  maxEpoch := 0
  nextStreamLsn := 0
  commitStreamLsn := 0
  consumedStreamLsn := 0
  lastEntryId := 0
  tailCache := []

/-- The status of a stream: its state less the tail cache. -/
def StreamReplicaState.status (st : StreamReplicaState) : StreamStatus where
  streamId := st.streamId
  maxEpoch := st.maxEpoch
  nextStreamLsn := st.nextStreamLsn
  commitStreamLsn := st.commitStreamLsn
  consumedStreamLsn := st.consumedStreamLsn
  lastEntryId := st.lastEntryId

/-- The state a snapshot's status is restored to. -/
def StreamStatus.restore (s : StreamStatus) : StreamReplicaState where
  streamId := s.streamId
  maxEpoch := s.maxEpoch
  nextStreamLsn := s.nextStreamLsn
  commitStreamLsn := s.commitStreamLsn
  consumedStreamLsn := s.consumedStreamLsn
  lastEntryId := s.lastEntryId
  tailCache := []

/-- The table of all streams of a shard. -/
structure StreamStateTable where
  streams : AssocMap Nat StreamReplicaState
  tailCacheLimit : Nat
  keyed : ∀ id st, streams.lookup id = some st → st.streamId = id

namespace StreamStateTable

/-- An empty table. -/
def new (tailCacheLimit : Nat) : StreamStateTable where
  streams := ∅
  tailCacheLimit := tailCacheLimit
  keyed := by simp

/-- The state of a stream, a new one if the table has none. -/
def ensureStream (t : StreamStateTable) (streamId : Nat) : StreamReplicaState :=
  (t.streams.lookup streamId).getD (StreamReplicaState.new streamId)

/-- Writes a state back under its stream id. -/
def put (t : StreamStateTable) (st : StreamReplicaState) : StreamStateTable where
  streams := t.streams.insert st.streamId st
  tailCacheLimit := t.tailCacheLimit
  keyed id st' h := by
    rw [AssocMap.lookup_insert_eq] at h
    split at h
    · rename_i hid
      cases h
      exact hid.symm
    · exact t.keyed id st' h

/-- The tail cache after its loop has popped the records over the limit. -/
def trimTail (limit : Nat) (tail : List TailRecord) : List TailRecord :=
  tail.drop (tail.length - limit)

/-- Allocates the next position of a stream for a write of the given epoch. A
stale epoch is refused; the stream then exists in the table all the same. -/
def allocateAppend (t : StreamStateTable) (streamId epoch : Nat) :
    StreamStateTable × Except EpochFenceError Nat :=
  let state := t.ensureStream streamId
  let streamLsn := state.nextStreamLsn
  if epoch < state.maxEpoch then
    (t.put state, .error (.stale state.maxEpoch epoch))
  else
    (t.put { state with maxEpoch := epoch, nextStreamLsn := state.nextStreamLsn + 1 },
      .ok streamLsn)

/-- Takes back an allocation, if it is the stream's last and not yet committed. -/
def rollbackUncommittedAppend (t : StreamStateTable) (streamId streamLsn : Nat) :
    StreamStateTable :=
  match t.streams.lookup streamId with
  | none       => t
  | some state =>
      if state.nextStreamLsn = streamLsn + 1 ∧ state.commitStreamLsn ≤ streamLsn then
        t.put { state with nextStreamLsn := streamLsn }
      else t

/-- Records an applied append in the stream's positions and its tail cache. -/
def markAppended (t : StreamStateTable) (streamId epoch entryId streamLsn : Nat)
    (payload : Bytes) : StreamStateTable :=
  let state := t.ensureStream streamId
  t.put { state with
    maxEpoch := max state.maxEpoch epoch
    lastEntryId := max state.lastEntryId entryId
    nextStreamLsn := max state.nextStreamLsn (streamLsn + 1)
    tailCache := trimTail t.tailCacheLimit (state.tailCache ++ [⟨streamLsn, entryId, payload⟩]) }

/-- Records that a position of the stream is committed. -/
def markCommitted (t : StreamStateTable) (streamId entryId streamLsn : Nat) :
    StreamStateTable :=
  let state := t.ensureStream streamId
  t.put { state with
    lastEntryId := max state.lastEntryId entryId
    commitStreamLsn := max state.commitStreamLsn (streamLsn + 1) }

/-- Moves the consumed position of a stream forward and drops the consumed
records from the front of its tail cache. Returns the position. -/
def advanceConsumed (t : StreamStateTable) (streamId consumedStreamLsn : Nat) :
    StreamStateTable × Nat :=
  let state := t.ensureStream streamId
  let consumed := max state.consumedStreamLsn consumedStreamLsn
  (t.put { state with
    consumedStreamLsn := consumed
    tailCache := state.tailCache.dropWhile fun record => record.streamLsn < consumed },
   consumed)

/-- The cached record of a position, if the tail cache still has it. -/
def readFromTail (t : StreamStateTable) (streamId streamLsn : Nat) : Option TailRecord :=
  (t.streams.lookup streamId).bind fun state =>
    state.tailCache.find? fun record => record.streamLsn = streamLsn

/-- Records an append found in the write-ahead log during recovery. -/
def observeRecovered (t : StreamStateTable) (streamId epoch entryId streamLsn : Nat)
    (payload : Bytes) : StreamStateTable :=
  let state := t.ensureStream streamId
  t.put { state with
    maxEpoch := max state.maxEpoch epoch
    lastEntryId := max state.lastEntryId entryId
    nextStreamLsn := max state.nextStreamLsn (streamLsn + 1)
    commitStreamLsn := max state.commitStreamLsn (streamLsn + 1)
    tailCache := trimTail t.tailCacheLimit (state.tailCache ++ [⟨streamLsn, entryId, payload⟩]) }

/-- The status of a stream the table knows. -/
def status (t : StreamStateTable) (streamId : Nat) : Option StreamStatus :=
  (t.streams.lookup streamId).map StreamReplicaState.status

/-- The newest epoch of a stream, zero for an unknown one. -/
def currentEpoch (t : StreamStateTable) (streamId : Nat) : Nat :=
  ((t.streams.lookup streamId).map StreamReplicaState.maxEpoch).getD 0

/-- The statuses of all streams, in the map's iteration order. -/
def allStatuses (t : StreamStateTable) : List StreamStatus :=
  (AssocMap.values t.streams).map StreamReplicaState.status

/-- The table a list of statuses restores to, the loop of `decode_snapshot` on
the decoded statuses. -/
def ofStatuses (tailCacheLimit : Nat) (statuses : List StreamStatus) : StreamStateTable :=
  statuses.foldl (fun t s => t.put s.restore) (new tailCacheLimit)

/-! ### What the view sees -/

@[simp] theorem ensureStream_new (limit id : Nat) :
    (new limit).ensureStream id = StreamReplicaState.new id := by
  simp [ensureStream, new]

@[simp] theorem streamId_ensureStream (t : StreamStateTable) (id : Nat) :
    (t.ensureStream id).streamId = id := by
  unfold ensureStream
  cases h : t.streams.lookup id with
  | none => rfl
  | some st => exact t.keyed id st h

theorem lookup_put (t : StreamStateTable) (st : StreamReplicaState) (id : Nat) :
    (t.put st).streams.lookup id = if id = st.streamId then some st else t.streams.lookup id :=
  AssocMap.lookup_insert_eq t.streams st.streamId id st

@[simp] theorem ensureStream_put (t : StreamStateTable) (st : StreamReplicaState) (id : Nat) :
    (t.put st).ensureStream id = if id = st.streamId then st else t.ensureStream id := by
  unfold ensureStream
  rw [lookup_put]
  split <;> rfl

@[simp] theorem tailCacheLimit_put (t : StreamStateTable) (st : StreamReplicaState) :
    (t.put st).tailCacheLimit = t.tailCacheLimit := rfl

/-- What a write's allocation does: a stale epoch changes no stream's state, an
accepted one moves the stream's epoch and next position. -/
theorem allocateAppend_cases (t : StreamStateTable) (id epoch : Nat) :
    (epoch < (t.ensureStream id).maxEpoch ∧
      (t.allocateAppend id epoch).2 = .error (.stale (t.ensureStream id).maxEpoch epoch) ∧
      ∀ id', (t.allocateAppend id epoch).1.ensureStream id' = t.ensureStream id') ∨
    ((t.ensureStream id).maxEpoch ≤ epoch ∧
      (t.allocateAppend id epoch).2 = .ok (t.ensureStream id).nextStreamLsn ∧
      ∀ id', (t.allocateAppend id epoch).1.ensureStream id' =
        if id' = id then { t.ensureStream id with
          maxEpoch := epoch, nextStreamLsn := (t.ensureStream id).nextStreamLsn + 1 }
        else t.ensureStream id') := by
  unfold allocateAppend
  by_cases h : epoch < (t.ensureStream id).maxEpoch
  · refine Or.inl ⟨h, by simp [h], fun id' => ?_⟩
    simp only [h, if_true, ensureStream_put, streamId_ensureStream]
    split
    · rename_i heq; rw [heq]
    · rfl
  · exact Or.inr ⟨by omega, by simp [h], fun id' => by simp [h]⟩

/-- A rollback changes one stream at most, and of it the next position only,
which it moves down by one when that gives up an uncommitted position. -/
theorem ensureStream_rollbackUncommittedAppend (t : StreamStateTable) (id lsn id' : Nat) :
    (t.rollbackUncommittedAppend id lsn).ensureStream id' =
      if id' = id ∧ (t.ensureStream id).nextStreamLsn = lsn + 1 ∧
          (t.ensureStream id).commitStreamLsn ≤ lsn then
        { t.ensureStream id with nextStreamLsn := lsn }
      else t.ensureStream id' := by
  unfold rollbackUncommittedAppend
  cases h : t.streams.lookup id with
  | none => simp [ensureStream, h, StreamReplicaState.new]
  | some st =>
      have hst : t.ensureStream id = st := by simp [ensureStream, h]
      have hid : st.streamId = id := t.keyed id st h
      rw [hst]
      by_cases hc : st.nextStreamLsn = lsn + 1 ∧ st.commitStreamLsn ≤ lsn
      · by_cases hi : id' = id <;> simp [hc, hi, hid]
      · by_cases hi : id' = id <;> simp [hc, hi]

@[simp] theorem ensureStream_markAppended (t : StreamStateTable) (id epoch entryId lsn : Nat)
    (payload : Bytes) (id' : Nat) :
    (t.markAppended id epoch entryId lsn payload).ensureStream id' =
      if id' = id then { t.ensureStream id with
        maxEpoch := max (t.ensureStream id).maxEpoch epoch
        lastEntryId := max (t.ensureStream id).lastEntryId entryId
        nextStreamLsn := max (t.ensureStream id).nextStreamLsn (lsn + 1)
        tailCache := trimTail t.tailCacheLimit
          ((t.ensureStream id).tailCache ++ [⟨lsn, entryId, payload⟩]) }
      else t.ensureStream id' := by
  simp [markAppended]

@[simp] theorem ensureStream_markCommitted (t : StreamStateTable) (id entryId lsn id' : Nat) :
    (t.markCommitted id entryId lsn).ensureStream id' =
      if id' = id then { t.ensureStream id with
        lastEntryId := max (t.ensureStream id).lastEntryId entryId
        commitStreamLsn := max (t.ensureStream id).commitStreamLsn (lsn + 1) }
      else t.ensureStream id' := by
  simp [markCommitted]

@[simp] theorem ensureStream_advanceConsumed (t : StreamStateTable) (id consumed id' : Nat) :
    (t.advanceConsumed id consumed).1.ensureStream id' =
      if id' = id then { t.ensureStream id with
        consumedStreamLsn := max (t.ensureStream id).consumedStreamLsn consumed
        tailCache := (t.ensureStream id).tailCache.dropWhile fun record =>
          record.streamLsn < max (t.ensureStream id).consumedStreamLsn consumed }
      else t.ensureStream id' := by
  simp [advanceConsumed]

@[simp] theorem ensureStream_observeRecovered (t : StreamStateTable)
    (id epoch entryId lsn : Nat) (payload : Bytes) (id' : Nat) :
    (t.observeRecovered id epoch entryId lsn payload).ensureStream id' =
      if id' = id then { t.ensureStream id with
        maxEpoch := max (t.ensureStream id).maxEpoch epoch
        lastEntryId := max (t.ensureStream id).lastEntryId entryId
        nextStreamLsn := max (t.ensureStream id).nextStreamLsn (lsn + 1)
        commitStreamLsn := max (t.ensureStream id).commitStreamLsn (lsn + 1)
        tailCache := trimTail t.tailCacheLimit
          ((t.ensureStream id).tailCache ++ [⟨lsn, entryId, payload⟩]) }
      else t.ensureStream id' := by
  simp [observeRecovered]

/-! ### Statuses and back -/

/-- The first listed status of a stream is the one the table gives for it. -/
theorem find?_allStatuses (t : StreamStateTable) (id : Nat) :
    t.allStatuses.find? (fun s => s.streamId = id) = t.status id := by
  have key : ∀ l : List (Sigma fun _ : Nat => StreamReplicaState),
      (∀ e ∈ l, e.2.streamId = e.1) →
      ((l.map Sigma.snd).map StreamReplicaState.status).find? (fun s => s.streamId = id) =
        (l.dlookup id).map StreamReplicaState.status := by
    intro l
    induction l with
    | nil => intro _; rfl
    | cons e l ih =>
        intro hkeyed
        obtain ⟨k, st⟩ := e
        have hk : st.streamId = k := hkeyed ⟨k, st⟩ (by simp)
        have hrest := ih fun e he => hkeyed e (by simp [he])
        by_cases h : k = id
        · subst h
          simp [StreamReplicaState.status, hk]
        · rw [List.dlookup_cons_ne _ _ (Ne.symm h), ← hrest]
          simp [StreamReplicaState.status, hk, h]
  exact key t.streams.entries fun e he =>
    t.keyed e.1 e.2 (AList.mem_lookup_iff.mpr he)

/-- No stream is listed twice. -/
theorem nodup_allStatuses (t : StreamStateTable) :
    (t.allStatuses.map StreamStatus.streamId).Nodup := by
  have hkeys : t.allStatuses.map StreamStatus.streamId = t.streams.keys := by
    simp only [allStatuses, AssocMap.values, AList.keys, List.keys, List.map_map]
    refine List.map_congr_left fun e he => ?_
    exact t.keyed e.1 e.2 (AList.mem_lookup_iff.mpr he)
  rw [hkeys]
  exact t.streams.keys_nodup

/-- What restoring a list of distinct streams leaves in the table. -/
theorem lookup_foldl_put (l : List StreamStatus) (t : StreamStateTable) (id : Nat)
    (hnodup : (l.map StreamStatus.streamId).Nodup) :
    (l.foldl (fun t s => t.put s.restore) t).streams.lookup id =
      ((l.find? fun s => s.streamId = id).map StreamStatus.restore).or
        (t.streams.lookup id) := by
  induction l generalizing t with
  | nil => simp
  | cons s l ih =>
      rw [List.map_cons, List.nodup_cons] at hnodup
      rw [List.foldl_cons, ih _ hnodup.2, lookup_put]
      by_cases h : s.streamId = id
      · subst h
        have hnone : l.find? (fun s' => s'.streamId = s.streamId) = none := by
          rw [List.find?_eq_none]
          intro s' hs' heq
          exact hnodup.1 (List.mem_map.mpr ⟨s', hs', by simpa using heq⟩)
        simp [hnone, StreamStatus.restore]
      · have hne : id ≠ s.restore.streamId := fun h' => h h'.symm
        simp [h, hne]

/-- Restoring the listed statuses gives back every stream less its tail cache. -/
theorem lookup_ofStatuses_allStatuses (t : StreamStateTable) (limit id : Nat) :
    (ofStatuses limit t.allStatuses).streams.lookup id =
      (t.streams.lookup id).map fun st => { st with tailCache := [] } := by
  rw [ofStatuses, lookup_foldl_put _ _ _ t.nodup_allStatuses, find?_allStatuses, status]
  cases t.streams.lookup id with
  | none => simp [new]
  | some st => simp [StreamReplicaState.status, StreamStatus.restore]

/-- The view of a restored table: the saved one with empty tail caches. -/
theorem ensureStream_ofStatuses_allStatuses (t : StreamStateTable) (limit id : Nat) :
    (ofStatuses limit t.allStatuses).ensureStream id =
      { t.ensureStream id with tailCache := [] } := by
  unfold ensureStream
  rw [lookup_ofStatuses_allStatuses]
  cases t.streams.lookup id <;> rfl

end StreamStateTable

end WalServer.Shard
