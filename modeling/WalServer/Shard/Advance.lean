import WalServer.Shard.Core
import WalServer.Wal.Writer

/-!
# `WalServer.Shard.Advance`: what no operation takes back

What the operations of a shard engine do to the streams of its table, as relations
between the table before and the table after. Applying, consuming and recovering move a
stream `Onward`: its epoch, its committed and consumed positions and its last entry id
only go forward. Admitting writes and giving them up moves epochs onward and next
positions about, never below a committed one, and touches nothing else (`Allocates`).

The group's invariants read epochs and committed positions only (`Later`). The next
position is different, because giving up writes moves it back; what every operation keeps
is that it is not below the committed position (`Ordered`).

The relations are stated for tables as a whole and proved once for each operation.
Invariants use these lemmas and no definition of an operation.
-/

set_option autoImplicit false

namespace WalServer.Shard

open WalServer.Lib WalServer.Raft WalServer.Wal

/-- A later state of a stream, as far as epoch and committed position show it. -/
structure StreamReplicaState.Le (st st' : StreamReplicaState) : Prop where
  maxEpoch : st.maxEpoch ≤ st'.maxEpoch
  commitStreamLsn : st.commitStreamLsn ≤ st'.commitStreamLsn

/-- A stream's state after operations that commit, consume and cache nothing. -/
structure StreamReplicaState.Allocates (st st' : StreamReplicaState) : Prop where
  maxEpoch : st.maxEpoch ≤ st'.maxEpoch
  nextStreamLsn : st.commitStreamLsn ≤ st.nextStreamLsn →
    st'.commitStreamLsn ≤ st'.nextStreamLsn
  commitStreamLsn : st'.commitStreamLsn = st.commitStreamLsn
  consumedStreamLsn : st'.consumedStreamLsn = st.consumedStreamLsn
  lastEntryId : st'.lastEntryId = st.lastEntryId
  tailCache : st'.tailCache = st.tailCache

/-- A stream's state of which nothing but the next position has gone back. -/
structure StreamReplicaState.Onward (st st' : StreamReplicaState) : Prop where
  maxEpoch : st.maxEpoch ≤ st'.maxEpoch
  commitStreamLsn : st.commitStreamLsn ≤ st'.commitStreamLsn
  consumedStreamLsn : st.consumedStreamLsn ≤ st'.consumedStreamLsn
  lastEntryId : st.lastEntryId ≤ st'.lastEntryId

namespace StreamReplicaState

variable {st st' st'' : StreamReplicaState}

theorem Allocates.refl (st : StreamReplicaState) : st.Allocates st :=
  ⟨Nat.le_refl _, id, rfl, rfl, rfl, rfl⟩

theorem Allocates.trans (h : st.Allocates st') (h' : st'.Allocates st'') : st.Allocates st'' where
  maxEpoch := h.maxEpoch.trans h'.maxEpoch
  nextStreamLsn := h'.nextStreamLsn ∘ h.nextStreamLsn
  commitStreamLsn := h'.commitStreamLsn.trans h.commitStreamLsn
  consumedStreamLsn := h'.consumedStreamLsn.trans h.consumedStreamLsn
  lastEntryId := h'.lastEntryId.trans h.lastEntryId
  tailCache := h'.tailCache.trans h.tailCache

theorem Onward.refl (st : StreamReplicaState) : st.Onward st :=
  ⟨Nat.le_refl _, Nat.le_refl _, Nat.le_refl _, Nat.le_refl _⟩

theorem Onward.trans (h : st.Onward st') (h' : st'.Onward st'') : st.Onward st'' where
  maxEpoch := h.maxEpoch.trans h'.maxEpoch
  commitStreamLsn := h.commitStreamLsn.trans h'.commitStreamLsn
  consumedStreamLsn := h.consumedStreamLsn.trans h'.consumedStreamLsn
  lastEntryId := h.lastEntryId.trans h'.lastEntryId

theorem Allocates.onward (h : st.Allocates st') : st.Onward st' where
  maxEpoch := h.maxEpoch
  commitStreamLsn := Nat.le_of_eq h.commitStreamLsn.symm
  consumedStreamLsn := Nat.le_of_eq h.consumedStreamLsn.symm
  lastEntryId := Nat.le_of_eq h.lastEntryId.symm

end StreamReplicaState

namespace StreamStateTable

/-- A later table: no stream's epoch or committed position has gone back. -/
def Later (t t' : StreamStateTable) : Prop := ∀ id, (t.ensureStream id).Le (t'.ensureStream id)

/-- No stream's next position is below its committed one. -/
def Ordered (t : StreamStateTable) : Prop :=
  ∀ id, (t.ensureStream id).commitStreamLsn ≤ (t.ensureStream id).nextStreamLsn

/-- No stream's next position has gone back. -/
def NextLater (t t' : StreamStateTable) : Prop :=
  ∀ id, (t.ensureStream id).nextStreamLsn ≤ (t'.ensureStream id).nextStreamLsn

/-- No stream has a position allocated beyond its committed ones. -/
def Closed (t : StreamStateTable) : Prop :=
  ∀ id, (t.ensureStream id).nextStreamLsn = (t.ensureStream id).commitStreamLsn

/-- A table after operations that commit, consume and cache nothing. -/
def Allocates (t t' : StreamStateTable) : Prop :=
  ∀ id, (t.ensureStream id).Allocates (t'.ensureStream id)

/-- A table of which nothing but next positions has gone back. -/
def Onward (t t' : StreamStateTable) : Prop :=
  ∀ id, (t.ensureStream id).Onward (t'.ensureStream id)

variable {t t' t'' : StreamStateTable}

theorem Later.refl (t : StreamStateTable) : t.Later t := fun _ => ⟨Nat.le_refl _, Nat.le_refl _⟩

theorem Later.trans (h : t.Later t') (h' : t'.Later t'') : t.Later t'' :=
  fun id => ⟨(h id).maxEpoch.trans (h' id).maxEpoch,
    (h id).commitStreamLsn.trans (h' id).commitStreamLsn⟩

theorem Allocates.refl (t : StreamStateTable) : t.Allocates t := fun _ => .refl _

theorem Allocates.trans (h : t.Allocates t') (h' : t'.Allocates t'') : t.Allocates t'' :=
  fun id => (h id).trans (h' id)

theorem Allocates.onward (h : t.Allocates t') : t.Onward t' := fun id => (h id).onward

theorem Allocates.ordered (h : t.Allocates t') (ht : t.Ordered) : t'.Ordered :=
  fun id => (h id).nextStreamLsn (ht id)

theorem Onward.refl (t : StreamStateTable) : t.Onward t := fun _ => .refl _

theorem Onward.trans (h : t.Onward t') (h' : t'.Onward t'') : t.Onward t'' :=
  fun id => (h id).trans (h' id)

theorem Onward.later (h : t.Onward t') : t.Later t' :=
  fun id => ⟨(h id).maxEpoch, (h id).commitStreamLsn⟩

theorem Allocates.later (h : t.Allocates t') : t.Later t' := h.onward.later

theorem ordered_new (limit : Nat) : (new limit).Ordered := by
  intro id
  simp [StreamReplicaState.new]

/-! ### Allocating and giving up -/

theorem allocates_allocateAppend (t : StreamStateTable) (streamId epoch : Nat) :
    t.Allocates (t.allocateAppend streamId epoch).1 := by
  intro id
  rcases t.allocateAppend_cases streamId epoch with ⟨-, -, hsame⟩ | ⟨hepoch, -, hmoved⟩
  · rw [hsame]
    exact .refl _
  · rw [hmoved]
    split
    · rename_i hid
      subst hid
      exact ⟨hepoch, fun hle => hle.trans (Nat.le_succ _), rfl, rfl, rfl, rfl⟩
    · exact .refl _

theorem allocates_rollbackUncommittedAppend (t : StreamStateTable) (streamId streamLsn : Nat) :
    t.Allocates (t.rollbackUncommittedAppend streamId streamLsn) := by
  intro id
  rw [ensureStream_rollbackUncommittedAppend]
  split
  · rename_i hback
    obtain ⟨rfl, -, hfloor⟩ := hback
    exact ⟨Nat.le_refl _, fun _ => hfloor, rfl, rfl, rfl, rfl⟩
  · exact .refl _

theorem allocates_rollbackAll (t : StreamStateTable) (drained : List PendingClientWrite) :
    t.Allocates (ShardCore.rollbackAll t drained) := by
  unfold ShardCore.rollbackAll
  induction drained.mergeSort ShardCore.rollbackBefore generalizing t with
  | nil => exact .refl t
  | cons p rest ih =>
      rw [List.foldl_cons]
      exact (allocates_rollbackUncommittedAppend t p.streamId p.streamLsn).trans (ih _)

theorem allocates_admitWrite (c : ShardCore) (conn streamId epoch : Nat) (payload : Bytes) :
    c.streams.Allocates (c.admitWrite conn streamId epoch payload).1.streams := by
  have hallocates := allocates_allocateAppend c.streams streamId epoch
  unfold ShardCore.admitWrite
  split
  · rename_i hresult
    rw [hresult] at hallocates
    exact hallocates
  · rename_i hresult
    rw [hresult] at hallocates
    exact hallocates

/-- The end of an iteration gives writes up or leaves the table alone. -/
theorem streams_logRaftStateIfChanged (c : ShardCore) (role : StateRole) (leaderId : Nat) :
    (c.logRaftStateIfChanged role leaderId).1.streams = c.streams ∨
      (c.observedRole = .leader ∧ role ≠ .leader ∧
        (c.logRaftStateIfChanged role leaderId).1.streams =
          ShardCore.rollbackAll c.streams (AssocMap.values c.pendingWrites)) := by
  by_cases hdown : c.observedRole = .leader ∧ role ≠ .leader
  · right
    rw [ShardCore.logRaftStateIfChanged_down hdown.1 hdown.2]
    exact ⟨hdown.1, hdown.2, rfl⟩
  · left
    rw [ShardCore.logRaftStateIfChanged_stay
      fun hobs => not_not.mp fun hrole => hdown ⟨hobs, hrole⟩]

theorem allocates_logRaftStateIfChanged (c : ShardCore) (role : StateRole) (leaderId : Nat) :
    c.streams.Allocates (c.logRaftStateIfChanged role leaderId).1.streams := by
  rcases streams_logRaftStateIfChanged c role leaderId with hsame | ⟨-, -, hback⟩
  · rw [hsame]
    exact .refl _
  · rw [hback]
    exact allocates_rollbackAll _ _

/-! ### Moving onward -/

theorem onward_advanceConsumed (t : StreamStateTable) (streamId consumed : Nat) :
    t.Onward (t.advanceConsumed streamId consumed).1 := by
  intro id
  rw [ensureStream_advanceConsumed]
  split
  · rename_i hid
    subst hid
    exact ⟨Nat.le_refl _, Nat.le_refl _, Nat.le_max_left _ _, Nat.le_refl _⟩
  · exact .refl _

theorem onward_observeRecovered (t : StreamStateTable) (streamId epoch entryId lsn : Nat)
    (payload : Bytes) : t.Onward (t.observeRecovered streamId epoch entryId lsn payload) := by
  intro id
  rw [ensureStream_observeRecovered]
  split
  · rename_i hid
    subst hid
    exact ⟨Nat.le_max_left _ _, Nat.le_max_left _ _, Nat.le_refl _, Nat.le_max_left _ _⟩
  · exact .refl _

theorem onward_applyCommand (t : StreamStateTable) (raftIndex : Nat) (cmd : AppendCommand) :
    t.Onward (ShardCore.applyCommand t raftIndex cmd) := by
  rw [ShardCore.applyCommand_eq_observeRecovered]
  exact onward_observeRecovered t _ _ _ _ _

theorem onward_recoverStreams (t : StreamStateTable) (bound : Nat) (records : List WalRecord) :
    t.Onward (recoverStreams t bound records) :=
  recoverStreams_invariant (P := t.Onward) (.refl t) fun _ _ _ _ h =>
    h.trans (onward_observeRecovered _ _ _ _ _ _)

end StreamStateTable

open StreamStateTable

/-! ### Later tables -/

section Later

variable (t : StreamStateTable)

theorem later_advanceConsumed (id consumed : Nat) : t.Later (t.advanceConsumed id consumed).1 :=
  (onward_advanceConsumed t id consumed).later

theorem later_applyCommand (index : Nat) (cmd : AppendCommand) :
    t.Later (ShardCore.applyCommand t index cmd) :=
  (onward_applyCommand t index cmd).later

theorem later_recoverStreams (bound : Nat) (records : List WalRecord) :
    t.Later (recoverStreams t bound records) :=
  (onward_recoverStreams t bound records).later

theorem nextLater_applyCommand (index : Nat) (cmd : AppendCommand) :
    t.NextLater (ShardCore.applyCommand t index cmd) := by
  intro id
  rw [ShardCore.ensureStream_applyCommand]
  split
  · rename_i h
    subst h
    exact Nat.le_max_left _ _
  · exact Nat.le_refl _

/-- What applying a command leaves of its stream. -/
theorem applyCommand_self (index : Nat) (cmd : AppendCommand) :
    cmd.epoch ≤ ((ShardCore.applyCommand t index cmd).ensureStream cmd.streamId).maxEpoch ∧
      cmd.streamLsn <
        ((ShardCore.applyCommand t index cmd).ensureStream cmd.streamId).commitStreamLsn := by
  rw [ShardCore.ensureStream_applyCommand, if_pos rfl]
  exact ⟨Nat.le_max_right _ _, Nat.le_max_right _ _⟩

end Later

/-! ### Ordered and closed tables -/

section Ordered

variable (t : StreamStateTable)

theorem nextStreamLsn_advanceConsumed (id consumed id' : Nat) :
    ((t.advanceConsumed id consumed).1.ensureStream id').nextStreamLsn =
      (t.ensureStream id').nextStreamLsn := by
  rw [ensureStream_advanceConsumed]
  split
  · rename_i h
    subst h
    rfl
  · rfl

theorem commitStreamLsn_advanceConsumed (id consumed id' : Nat) :
    ((t.advanceConsumed id consumed).1.ensureStream id').commitStreamLsn =
      (t.ensureStream id').commitStreamLsn := by
  rw [ensureStream_advanceConsumed]
  split
  · rename_i h
    subst h
    rfl
  · rfl

variable {t}

theorem ordered_advanceConsumed (h : t.Ordered) (id consumed : Nat) :
    (t.advanceConsumed id consumed).1.Ordered := by
  intro id'
  rw [nextStreamLsn_advanceConsumed, commitStreamLsn_advanceConsumed]
  exact h id'

theorem ordered_observeRecovered (h : t.Ordered) (id epoch entryId lsn : Nat) (payload : Bytes) :
    (t.observeRecovered id epoch entryId lsn payload).Ordered := by
  intro id'
  rw [ensureStream_observeRecovered]
  split
  · have hid := h id
    show max _ _ ≤ max _ _
    omega
  · exact h id'

theorem ordered_applyCommand (h : t.Ordered) (index : Nat) (cmd : AppendCommand) :
    (ShardCore.applyCommand t index cmd).Ordered := by
  rw [ShardCore.applyCommand_eq_observeRecovered]
  exact ordered_observeRecovered h _ _ _ _ _

theorem ordered_recoverStreams (h : t.Ordered) (bound : Nat) (records : List WalRecord) :
    (recoverStreams t bound records).Ordered :=
  recoverStreams_invariant (P := Ordered) h fun _ _ _ _ ht =>
    ordered_observeRecovered ht _ _ _ _ _

theorem closed_new (limit : Nat) : (new limit).Closed := by
  intro id
  simp [StreamReplicaState.new]

theorem closed_observeRecovered (h : t.Closed) (id epoch entryId lsn : Nat) (payload : Bytes) :
    (t.observeRecovered id epoch entryId lsn payload).Closed := by
  intro id'
  rw [ensureStream_observeRecovered]
  split
  · show max _ _ = max _ _
    rw [h id]
  · exact h id'

theorem closed_applyCommand (h : t.Closed) (index : Nat) (cmd : AppendCommand) :
    (ShardCore.applyCommand t index cmd).Closed := by
  rw [ShardCore.applyCommand_eq_observeRecovered]
  exact closed_observeRecovered h _ _ _ _ _

theorem closed_recoverStreams (h : t.Closed) (bound : Nat) (records : List WalRecord) :
    (recoverStreams t bound records).Closed :=
  recoverStreams_invariant (P := Closed) h fun _ _ _ _ ht => closed_observeRecovered ht _ _ _ _ _

/-- A position that recovery shows committed was committed before, or is not
above the position of a recovered record of the stream. -/
theorem commitStreamLsn_recoverStreams (t : StreamStateTable) (bound : Nat)
    (records : List WalRecord) {id j : Nat}
    (hj : j < ((recoverStreams t bound records).ensureStream id).commitStreamLsn) :
    j < (t.ensureStream id).commitStreamLsn ∨
      ∃ r ∈ records, r.streamId = id ∧ j ≤ r.streamLsn := by
  refine recoverStreams_invariant
    (P := fun t' => j < (t'.ensureStream id).commitStreamLsn →
      j < (t.ensureStream id).commitStreamLsn ∨ ∃ r ∈ records, r.streamId = id ∧ j ≤ r.streamLsn)
    Or.inl (fun t' r hr _ ih hlt => ?_) hj
  rw [ensureStream_observeRecovered] at hlt
  split at hlt
  · rename_i hid
    subst hid
    -- The record moves the committed position to just above its own, or not at all.
    have hmax : j < max (t'.ensureStream r.streamId).commitStreamLsn (r.streamLsn + 1) := hlt
    rcases Nat.lt_or_ge j (t'.ensureStream r.streamId).commitStreamLsn with hold | hnew
    · exact ih hold
    · exact Or.inr ⟨r, hr, rfl, by omega⟩
  · exact ih hlt

/-- The table has a state for the stream, or knows nothing of it. -/
theorem ensureStream_eq_new_or_mem (t : StreamStateTable) (id : Nat) :
    t.ensureStream id = .new id ∨ (t.ensureStream id).status ∈ t.allStatuses := by
  unfold ensureStream
  cases h : t.streams.lookup id with
  | none => exact Or.inl rfl
  | some st =>
      right
      exact List.mem_map_of_mem (AssocMap.mem_values.mpr ⟨id, h⟩)

end Ordered

/-! ### Admission and observation -/

section Core

variable {c c' : ShardCore}

/-- An accepted write allocates. -/
theorem allocates_admitWrite_ok {conn id epoch : Nat} {payload : Bytes} {cmd : AppendCommand}
    (h : c.admitWrite conn id epoch payload = (c', .ok cmd)) : c.streams.Allocates c'.streams := by
  have hallocates := allocates_admitWrite c conn id epoch payload
  rw [h] at hallocates
  exact hallocates

theorem nextLater_admitWrite_ok {conn id epoch : Nat} {payload : Bytes} {cmd : AppendCommand}
    (h : c.admitWrite conn id epoch payload = (c', .ok cmd)) : c.streams.NextLater c'.streams := by
  obtain ⟨-, -, hstreams, -⟩ := ShardCore.admitWrite_eq_ok h
  intro id'
  rw [hstreams]
  split
  · rename_i heq
    subst heq
    exact Nat.le_succ _
  · exact Nat.le_refl _

end Core

/-! ### Restored tables -/

/-- What a list of statuses restores to: each stream is new or as some status of
it says. -/
theorem ensureStream_ofStatuses (limit : Nat) (statuses : List StreamStatus) (id : Nat) :
    (ofStatuses limit statuses).ensureStream id = .new id ∨
      ∃ s ∈ statuses, s.streamId = id ∧
        (ofStatuses limit statuses).ensureStream id = s.restore := by
  have key : ∀ (l : List StreamStatus) (t : StreamStateTable),
      (l.foldl (fun t s => t.put s.restore) t).ensureStream id = t.ensureStream id ∨
        ∃ s ∈ l, s.streamId = id ∧
          (l.foldl (fun t s => t.put s.restore) t).ensureStream id = s.restore := by
    intro l
    induction l with
    | nil => exact fun _ => Or.inl rfl
    | cons s l ih =>
        intro t
        rw [List.foldl_cons]
        rcases ih (t.put s.restore) with h | ⟨s', hs', hid, h⟩
        · rw [h, ensureStream_put]
          split
          · rename_i hid
            exact Or.inr ⟨s, List.mem_cons_self, hid.symm, rfl⟩
          · exact Or.inl rfl
        · exact Or.inr ⟨s', List.mem_cons_of_mem s hs', hid, h⟩
  have h := key statuses (new limit)
  rwa [ensureStream_new] at h

/-- The cache bound does not show in a restored table. -/
theorem ensureStream_ofStatuses_limit (limit limit' : Nat) (statuses : List StreamStatus)
    (id : Nat) :
    (ofStatuses limit statuses).ensureStream id = (ofStatuses limit' statuses).ensureStream id := by
  have key : ∀ (l : List StreamStatus) (t t' : StreamStateTable),
      t.ensureStream id = t'.ensureStream id →
        (l.foldl (fun t s => t.put s.restore) t).ensureStream id =
          (l.foldl (fun t s => t.put s.restore) t').ensureStream id := by
    intro l
    induction l with
    | nil => exact fun _ _ h => h
    | cons s l ih =>
        intro t t' h
        rw [List.foldl_cons, List.foldl_cons]
        refine ih _ _ ?_
        rw [ensureStream_put, ensureStream_put, h]
  exact key statuses _ _ (by rw [ensureStream_new, ensureStream_new])

end WalServer.Shard
