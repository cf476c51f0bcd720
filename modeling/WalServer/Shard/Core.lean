import WalServer.Protocol.Types
import WalServer.Raft.Command
import WalServer.Shard.StreamState
import Mathlib.Data.List.Sort

/-!
# `WalServer.Shard.Core`: admitting, completing and failing writes

The part of `ShardEngine` that needs neither disk nor raft: the stream table,
the counter of request ids, the pending client writes and the role the engine
has last observed. A write passes through three functions.

* `admitWrite` allocates its position and registers it as pending, or refuses
  it for its epoch; the command it returns is what the engine proposes.
* `completeAppend` is what applying a committed command does to this state; the
  pending write it returns is the one whose client is told `Ok`.
* `failPendingWritesNotLeader` gives every pending write up, in an order that
  undoes the allocations of a stream from the newest to the oldest.

Giving up one write changes at most the next position of its stream
(`ensureStream_rollbackUncommittedAppend`). `rollbackAll_complete` says that the
next position falls back to the committed one when the pending writes hold every
position between the two.
-/

set_option autoImplicit false

namespace WalServer.Shard

open WalServer.Lib WalServer.Raft WalServer.Protocol

/-- The role of a raft node. -/
inductive StateRole where
  | follower
  | candidate
  | leader
  | preCandidate
deriving DecidableEq, Repr

/-- What the engine remembers of a proposed write until it is applied. -/
structure PendingClientWrite where
  connectionId : Nat
  streamId : Nat
  epoch : Nat
  streamLsn : Nat
deriving DecidableEq, Repr

/-- The state of a shard engine that admitting and completing writes touches. -/
structure ShardCore where
  streams : StreamStateTable
  requestSeq : Nat
  pendingWrites : AssocMap Nat PendingClientWrite
  observedRole : StateRole
  observedLeaderId : Nat

namespace ShardCore

/-- The state `ShardEngine::open` starts from, over a recovered table. -/
def opened (streams : StreamStateTable) : ShardCore where
  streams := streams
  requestSeq := 0
  pendingWrites := ∅
  observedRole := .follower
  observedLeaderId := 0

/-- Handles a client's write on a leader, up to the proposal. A refusal carries
the stream's newest epoch. -/
def admitWrite (c : ShardCore) (connectionId streamId epoch : Nat) (payload : Bytes) :
    ShardCore × Except Nat AppendCommand :=
  match c.streams.allocateAppend streamId epoch with
  | (streams, .error (.stale currentEpoch _)) =>
      ({ c with streams := streams }, .error currentEpoch)
  | (streams, .ok streamLsn) =>
      let requestId := c.requestSeq + 1
      ({ c with
          streams := streams
          requestSeq := requestId
          pendingWrites := c.pendingWrites.insert requestId
            ⟨connectionId, streamId, epoch, streamLsn⟩ },
        .ok ⟨requestId, streamId, epoch, streamLsn, payload⟩)

/-- What applying a committed command does to the stream table. -/
def applyCommand (streams : StreamStateTable) (raftIndex : Nat) (cmd : AppendCommand) :
    StreamStateTable :=
  (streams.markAppended cmd.streamId cmd.epoch raftIndex cmd.streamLsn cmd.payload).markCommitted
    cmd.streamId raftIndex cmd.streamLsn

/-- Applies a committed command. The pending write under its request id, if
there is one, is the write whose client gets the answer. -/
def completeAppend (c : ShardCore) (raftIndex : Nat) (cmd : AppendCommand) :
    ShardCore × Option PendingClientWrite :=
  ({ c with
      streams := applyCommand c.streams raftIndex cmd
      pendingWrites := c.pendingWrites.erase cmd.requestId },
    c.pendingWrites.lookup cmd.requestId)

/-- The order in which pending writes are given up: by stream, and within a
stream from the highest position down. -/
def rollbackBefore (a b : PendingClientWrite) : Bool :=
  a.streamId < b.streamId || (a.streamId == b.streamId && b.streamLsn ≤ a.streamLsn)

/-- Gives up the drained pending writes, in rollback order. -/
def rollbackAll (streams : StreamStateTable) (drained : List PendingClientWrite) :
    StreamStateTable :=
  (drained.mergeSort rollbackBefore).foldl
    (fun t p => t.rollbackUncommittedAppend p.streamId p.streamLsn) streams

/-- The pending writes with their request ids, in the order in which they are given up. -/
def givenUp (c : ShardCore) : List (Σ _ : Nat, PendingClientWrite) :=
  c.pendingWrites.entries.mergeSort fun a b => rollbackBefore a.2 b.2

/-- The answer to a write that is given up. -/
def notLeaderResponse (leaderId : Nat) (p : PendingClientWrite) : ShardResponse :=
  ⟨p.connectionId, ⟨.errNotLeader, p.epoch, leaderId, []⟩⟩

/-- Gives up every pending write and answers its client. -/
def failPendingWritesNotLeader (c : ShardCore) (leaderId : Nat) :
    ShardCore × List ShardResponse :=
  let drained := AssocMap.values c.pendingWrites
  ({ c with streams := rollbackAll c.streams drained, pendingWrites := ∅ },
    (drained.mergeSort rollbackBefore).map (notLeaderResponse leaderId))

/-- The end of a loop iteration: a lost leadership fails the pending writes. -/
def logRaftStateIfChanged (c : ShardCore) (role : StateRole) (leaderId : Nat) :
    ShardCore × List ShardResponse :=
  if role ≠ c.observedRole ∨ leaderId ≠ c.observedLeaderId then
    let (c', responses) :=
      if c.observedRole = .leader ∧ role ≠ .leader then c.failPendingWritesNotLeader leaderId
      else (c, [])
    ({ c' with observedRole := role, observedLeaderId := leaderId }, responses)
  else (c, [])

/-! ### What admission and completion do -/

/-- A write is refused for its epoch and changes no stream's state, or it is
accepted at the stream's next position and is pending under a new request id. -/
theorem admitWrite_cases (c : ShardCore) (conn id epoch : Nat) (payload : Bytes) :
    ((c.admitWrite conn id epoch payload).2 = .error (c.streams.ensureStream id).maxEpoch ∧
      epoch < (c.streams.ensureStream id).maxEpoch ∧
      (∀ id', (c.admitWrite conn id epoch payload).1.streams.ensureStream id' =
        c.streams.ensureStream id') ∧
      (c.admitWrite conn id epoch payload).1.requestSeq = c.requestSeq ∧
      (c.admitWrite conn id epoch payload).1.pendingWrites = c.pendingWrites) ∨
    ((c.admitWrite conn id epoch payload).2 =
        .ok ⟨c.requestSeq + 1, id, epoch, (c.streams.ensureStream id).nextStreamLsn, payload⟩ ∧
      (c.streams.ensureStream id).maxEpoch ≤ epoch ∧
      (∀ id', (c.admitWrite conn id epoch payload).1.streams.ensureStream id' =
        if id' = id then { c.streams.ensureStream id with
          maxEpoch := epoch, nextStreamLsn := (c.streams.ensureStream id).nextStreamLsn + 1 }
        else c.streams.ensureStream id') ∧
      (c.admitWrite conn id epoch payload).1.requestSeq = c.requestSeq + 1 ∧
      (c.admitWrite conn id epoch payload).1.pendingWrites =
        c.pendingWrites.insert (c.requestSeq + 1)
          ⟨conn, id, epoch, (c.streams.ensureStream id).nextStreamLsn⟩) := by
  unfold admitWrite
  -- The table decides: it refuses the epoch or gives out the next position.
  rcases c.streams.allocateAppend_cases id epoch with ⟨hlt, herr, hsame⟩ | ⟨hle, hok, hnext⟩
  · left
    cases hres : c.streams.allocateAppend id epoch with
    | mk t r =>
        rw [hres] at herr hsame
        cases herr
        exact ⟨rfl, hlt, hsame, rfl, rfl⟩
  · right
    cases hres : c.streams.allocateAppend id epoch with
    | mk t r =>
        rw [hres] at hok hnext
        cases hok
        exact ⟨rfl, hle, hnext, rfl, rfl⟩

/-- Admission leaves the observed role alone. -/
@[simp] theorem observedRole_admitWrite (c : ShardCore) (conn id epoch : Nat) (payload : Bytes) :
    (c.admitWrite conn id epoch payload).1.observedRole = c.observedRole := by
  unfold admitWrite
  split <;> rfl

/-- What an accepted write says about the state before and after it. -/
theorem admitWrite_eq_ok {c c' : ShardCore} {conn id epoch : Nat} {payload : Bytes}
    {cmd : AppendCommand} (h : c.admitWrite conn id epoch payload = (c', .ok cmd)) :
    cmd = ⟨c.requestSeq + 1, id, epoch, (c.streams.ensureStream id).nextStreamLsn, payload⟩ ∧
      (c.streams.ensureStream id).maxEpoch ≤ epoch ∧
      (∀ id', c'.streams.ensureStream id' =
        if id' = id then { c.streams.ensureStream id with
          maxEpoch := epoch, nextStreamLsn := (c.streams.ensureStream id).nextStreamLsn + 1 }
        else c.streams.ensureStream id') ∧
      c'.requestSeq = c.requestSeq + 1 ∧
      c'.pendingWrites = c.pendingWrites.insert (c.requestSeq + 1)
        ⟨conn, id, epoch, (c.streams.ensureStream id).nextStreamLsn⟩ := by
  have hcases := c.admitWrite_cases conn id epoch payload
  rw [h] at hcases
  rcases hcases with ⟨herr, -⟩ | ⟨hok, hrest⟩
  · cases herr
  · cases hok
    exact ⟨rfl, hrest⟩

/-- A refused write leaves every stream's state and the pending writes alone. -/
theorem admitWrite_eq_error {c c' : ShardCore} {conn id epoch current : Nat} {payload : Bytes}
    (h : c.admitWrite conn id epoch payload = (c', .error current)) :
    (∀ id', c'.streams.ensureStream id' = c.streams.ensureStream id') ∧
      c'.requestSeq = c.requestSeq ∧ c'.pendingWrites = c.pendingWrites := by
  have hcases := c.admitWrite_cases conn id epoch payload
  rw [h] at hcases
  rcases hcases with ⟨-, -, hrest⟩ | ⟨hok, -⟩
  · exact hrest
  · cases hok

/-- What applying a command does to the stream states. -/
@[simp] theorem ensureStream_applyCommand (t : StreamStateTable) (raftIndex : Nat)
    (cmd : AppendCommand) (id : Nat) :
    (applyCommand t raftIndex cmd).ensureStream id =
      if id = cmd.streamId then { t.ensureStream cmd.streamId with
        maxEpoch := max (t.ensureStream cmd.streamId).maxEpoch cmd.epoch
        lastEntryId := max (t.ensureStream cmd.streamId).lastEntryId raftIndex
        nextStreamLsn := max (t.ensureStream cmd.streamId).nextStreamLsn (cmd.streamLsn + 1)
        commitStreamLsn := max (t.ensureStream cmd.streamId).commitStreamLsn (cmd.streamLsn + 1)
        tailCache := StreamStateTable.trimTail t.tailCacheLimit
          ((t.ensureStream cmd.streamId).tailCache ++ [⟨cmd.streamLsn, raftIndex, cmd.payload⟩]) }
      else t.ensureStream id := by
  unfold applyCommand
  rw [StreamStateTable.ensureStream_markCommitted]
  by_cases h : id = cmd.streamId
  · subst h
    simp
  · simp [h]

/-- **The two ways into the table agree**: marking a command appended and then
committed is what recovery does with its record. -/
theorem applyCommand_eq_observeRecovered (t : StreamStateTable) (raftIndex : Nat)
    (cmd : AppendCommand) :
    applyCommand t raftIndex cmd =
      t.observeRecovered cmd.streamId cmd.epoch raftIndex cmd.streamLsn cmd.payload := by
  unfold applyCommand StreamStateTable.observeRecovered StreamStateTable.markCommitted
  rw [StreamStateTable.ensureStream_markAppended, if_pos rfl]
  simp [StreamStateTable.markAppended, StreamStateTable.put, AList.insert_insert]

/-- The end of an iteration that is no step-down only notes role and leader. -/
theorem logRaftStateIfChanged_stay {c : ShardCore} {role : StateRole}
    (h : c.observedRole = .leader → role = .leader) (leaderId : Nat) :
    (c.logRaftStateIfChanged role leaderId).1 =
      { c with observedRole := role, observedLeaderId := leaderId } := by
  unfold logRaftStateIfChanged
  by_cases hchange : role ≠ c.observedRole ∨ leaderId ≠ c.observedLeaderId
  · rw [if_pos hchange, if_neg fun hdown => hdown.2 (h hdown.1)]
  · rw [if_neg hchange]
    rw [not_or, not_not, not_not] at hchange
    rw [hchange.1, hchange.2]

/-- A step-down gives every pending write up. -/
theorem logRaftStateIfChanged_down {c : ShardCore} {role : StateRole}
    (hobs : c.observedRole = .leader) (hrole : role ≠ .leader) (leaderId : Nat) :
    (c.logRaftStateIfChanged role leaderId).1 =
      { c with
        streams := rollbackAll c.streams (AssocMap.values c.pendingWrites)
        pendingWrites := ∅
        observedRole := role
        observedLeaderId := leaderId } := by
  unfold logRaftStateIfChanged
  rw [if_pos (Or.inl fun heq => hrole (heq.trans hobs)), if_pos ⟨hobs, hrole⟩]
  rfl

/-- A step-down answers every pending write. -/
theorem responses_logRaftStateIfChanged_down {c : ShardCore} {role : StateRole}
    (hobs : c.observedRole = .leader) (hrole : role ≠ .leader) (leaderId : Nat) :
    (c.logRaftStateIfChanged role leaderId).2 =
      ((AssocMap.values c.pendingWrites).mergeSort rollbackBefore).map
        (notLeaderResponse leaderId) := by
  unfold logRaftStateIfChanged
  rw [if_pos (Or.inl fun heq => hrole (heq.trans hobs)), if_pos ⟨hobs, hrole⟩]
  rfl

/-- With their request ids, the answers go in the order in which the writes are given up. -/
theorem map_snd_givenUp (c : ShardCore) :
    c.givenUp.map Sigma.snd = (AssocMap.values c.pendingWrites).mergeSort rollbackBefore := by
  unfold givenUp AssocMap.values
  exact List.map_mergeSort fun _ _ _ _ => rfl

/-! ### What giving up writes leaves -/

/-- Rollback order is total and transitive, so sorting establishes it. -/
theorem pairwise_mergeSort_rollbackBefore (drained : List PendingClientWrite) :
    (drained.mergeSort rollbackBefore).Pairwise (fun a b => rollbackBefore a b = true) := by
  refine List.pairwise_mergeSort (fun a b c hab hbc => ?_) (fun a b => ?_) drained
  · simp only [rollbackBefore, Bool.or_eq_true, decide_eq_true_eq, Bool.and_eq_true,
      beq_iff_eq] at hab hbc ⊢
    omega
  · simp only [rollbackBefore, Bool.or_eq_true, decide_eq_true_eq, Bool.and_eq_true, beq_iff_eq]
    omega

/-- Folding rollbacks from the highest position of a stream down brings its next
position to the committed one, when the list holds every position between. -/
theorem foldl_rollback_complete (l : List PendingClientWrite) (t : StreamStateTable) (id : Nat)
    (hsorted : l.Pairwise fun a b => rollbackBefore a b = true)
    (hle : (t.ensureStream id).commitStreamLsn ≤ (t.ensureStream id).nextStreamLsn)
    (hcover : ∀ lsn, (t.ensureStream id).commitStreamLsn ≤ lsn →
      lsn < (t.ensureStream id).nextStreamLsn → ∃ p ∈ l, p.streamId = id ∧ p.streamLsn = lsn) :
    (l.foldl (fun t p => t.rollbackUncommittedAppend p.streamId p.streamLsn) t).ensureStream id =
      { t.ensureStream id with nextStreamLsn := (t.ensureStream id).commitStreamLsn } := by
  induction l generalizing t with
  | nil =>
      have heq : (t.ensureStream id).nextStreamLsn = (t.ensureStream id).commitStreamLsn := by
        -- A position that is still held would need a write to hold it.
        by_contra hne
        obtain ⟨p, hp, -⟩ := hcover (t.ensureStream id).commitStreamLsn (Nat.le_refl _) (by omega)
        exact absurd hp (by simp)
      rw [List.foldl_nil, ← heq]
  | cons p l ih =>
      rw [List.pairwise_cons] at hsorted
      rw [List.foldl_cons]
      have hstep := t.ensureStream_rollbackUncommittedAppend p.streamId p.streamLsn id
      split at hstep
      · -- `p` holds the last allocation of the stream, which is given up.
        rename_i hc
        obtain ⟨rfl, hnext, hcommit⟩ := hc
        rw [ih _ hsorted.2 (by rw [hstep]; exact hcommit) ?_, hstep]
        intro lsn hge hlt
        rw [hstep] at hge hlt
        have hlt' : lsn < p.streamLsn := hlt
        obtain ⟨q, hq, hid, hlsn⟩ := hcover lsn hge (by omega)
        rcases List.mem_cons.mp hq with rfl | hq
        · omega
        · exact ⟨q, hq, hid, hlsn⟩
      · -- `p` gives nothing up, so whatever is still held is held by the rest.
        rename_i hc
        rw [ih _ hsorted.2 (by rw [hstep]; exact hle) ?_, hstep]
        intro lsn hge hlt
        rw [hstep] at hge hlt
        obtain ⟨q, hq, hid, hlsn⟩ := hcover lsn hge hlt
        rcases List.mem_cons.mp hq with rfl | hq
        · -- The highest held position is the last allocation, which comes first.
          exfalso
          obtain ⟨q', hq', hid', hlsn'⟩ :=
            hcover ((t.ensureStream id).nextStreamLsn - 1) (by omega) (by omega)
          rcases List.mem_cons.mp hq' with rfl | hq'
          · exact hc ⟨hid.symm, by rw [hid]; omega, by rw [hid]; omega⟩
          · have hord := hsorted.1 q' hq'
            simp only [rollbackBefore, Bool.or_eq_true, decide_eq_true_eq, Bool.and_eq_true,
              beq_iff_eq] at hord
            exact hc ⟨hid.symm, by rw [hid]; omega, by rw [hid]; omega⟩
        · exact ⟨q, hq, hid, hlsn⟩

/-- **Giving up is complete.** When the drained writes hold every position of a
stream between its committed and its next one, the stream ends with no position
allocated beyond the committed ones. -/
theorem rollbackAll_complete (t : StreamStateTable) (drained : List PendingClientWrite) (id : Nat)
    (hle : (t.ensureStream id).commitStreamLsn ≤ (t.ensureStream id).nextStreamLsn)
    (hcover : ∀ lsn, (t.ensureStream id).commitStreamLsn ≤ lsn →
      lsn < (t.ensureStream id).nextStreamLsn →
      ∃ p ∈ drained, p.streamId = id ∧ p.streamLsn = lsn) :
    (rollbackAll t drained).ensureStream id =
      { t.ensureStream id with nextStreamLsn := (t.ensureStream id).commitStreamLsn } := by
  refine foldl_rollback_complete _ t id (pairwise_mergeSort_rollbackBefore drained) hle ?_
  intro lsn hge hlt
  obtain ⟨p, hp, hid, hlsn⟩ := hcover lsn hge hlt
  exact ⟨p, List.mem_mergeSort.mpr hp, hid, hlsn⟩

end ShardCore

end WalServer.Shard
