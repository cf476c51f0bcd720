import WalServer.Lib.Settled
import WalServer.Lib.Transition
import WalServer.Shard.Core
import WalServer.Wal.Writer

/-!
# `WalServer.Cluster.Model`: a shard group over any number of nodes

The replicas of one shard group as one transition system. A node is the part of
its `ShardEngine` that decides about writes (`ShardCore`), what the engine reads
of its raft node, and what it has on disk. Every event is a piece of the loop
`ShardEngine::run` on one node, so that every interleaving of the nodes' loops
is a run.

**The loop.** An iteration has two phases. In `requests` the engine handles
client requests; there the role does not change. `poll` ends it: from then on
messages are stepped, the clock ticks, an election may be won, and `drive_ready`
hands committed entries over. `observe` is `log_raft_state_if_changed`, the end
of the iteration.

**The raft crate.** Its state is what the library's `TermLog` describes: the
log of each term's leader and the commit decisions. A node's log may at any time
become the start of any leader's log that keeps what the node knows committed,
a node may come into office in any term that has had no leader provided its log
has what earlier terms committed, and a leader may declare any part of its log
committed that the leaders of later terms have. These are election safety, log
matching and leader completeness, and nothing else is asked: which messages are
sent, who votes and when anything happens is left open.

**Delivery.** The raft node gives out committed entries in index order, each
once per process: `delivered` counts them. An entry in `Ready` is handed to
`apply_append_entry` (`handOver`); one that comes in the `LightReady` of
`advance` is dropped by `drive_ready` (`lightReady`). `applied` is the counter
the raft log keeps, which `advance` moves. A snapshot that another node sends
replaces the raft log's start (`install`); the stream table is left as it is.

**Disk.** The write-ahead log is the list of the records written, the snapshot
is the list of stream statuses that its data encodes. A restart reads back some
of the records (a torn tail or removed segments lose others), knows as committed
what the stored hard state says, and gets committed entries again from some
index that the snapshot covers; it is the snapshot's own index unless the
process died between storing the snapshot and compacting. Raft entries that were
not stored yet are lost as a follower's are, by `replicate`.

Log positions are counted from zero, raft indexes from one: the entry at
position `i` has index `i + 1`. Logs are kept whole here; compaction shows in
the index a restart gets entries from. `proposals`, `acks` and `failures` are
records of what happened that no step reads.
-/

set_option autoImplicit false

namespace WalServer.Cluster

open WalServer.Lib WalServer.Raft WalServer.Shard WalServer.Wal WalServer.Protocol

/-- A raft log: each entry carries a command, or no data (the bootstrap entry
and the entry a leader creates on coming into office). -/
abbrev Log := List (Entry (Option AppendCommand))

/-- Where a node's loop is. -/
inductive LoopPhase where
  | requests
  | raft
deriving DecidableEq, Repr

/-- The stored raft snapshot: its index and what its data describes. -/
structure StoredSnapshot where
  index : Nat
  statuses : List StreamStatus
deriving DecidableEq, Repr

/-- One replica. -/
structure Node where
  /-- Role, term and known leader, as the engine reads them of raft. -/
  role : StateRole
  term : Nat
  leaderId : Nat
  /-- The raft log and the counters on it. -/
  log : Log
  committed : Nat
  delivered : Nat
  applied : Nat
  /-- What is on disk beside the raft log. -/
  snapshot : StoredSnapshot
  wal : List WalRecord
  /-- The running engine. -/
  core : ShardCore
  phase : LoopPhase
  incarnation : Nat

/-- A write that a leader accepted: who handled it, for which client, and where
in the raft log its command went. -/
structure Proposal where
  node : Nat
  incarnation : Nat
  connectionId : Nat
  index : Nat
  term : Nat
  cmd : AppendCommand
deriving DecidableEq, Repr

/-- An `Ok` sent to a write's client: the pending write it was sent for, and the
committed entry that was being applied. -/
structure Ack where
  node : Nat
  incarnation : Nat
  requestId : Nat
  pending : PendingClientWrite
  index : Nat
  term : Nat
  cmd : AppendCommand
deriving DecidableEq, Repr

/-- A response sent for a pending write when it was given up. -/
structure Failure where
  node : Nat
  incarnation : Nat
  requestId : Nat
  pending : PendingClientWrite
  response : ShardResponse
deriving DecidableEq, Repr

/-- The shard group. A snapshot that a node has stored may reach any other node
at any later time. -/
structure ShardGroup where
  nodes : Nat → Node
  terms : TermLog (Option AppendCommand)
  snapshots : List StoredSnapshot
  proposals : List Proposal
  acks : List Ack
  failures : List Failure

/-- What can happen on a node. -/
inductive Event where
  /-- A client's write is handled. -/
  | write (connectionId streamId epoch : Nat) (payload : Bytes)
  /-- A client's acknowledgement is handled. -/
  | ack (streamId offset : Nat)
  /-- The loop leaves the handling of client requests. -/
  | poll
  /-- The node is not, or no longer, a leader. -/
  | follow (role : StateRole) (term leaderId : Nat)
  /-- The node comes into office. -/
  | elect (term : Nat)
  /-- The node's log becomes the start of a leader's log. -/
  | replicate (term len : Nat)
  /-- The leader declares a part of its log committed. -/
  | commit (len : Nat)
  /-- The node learns that a part of its log is committed. -/
  | learnCommit (len : Nat)
  /-- A snapshot from another node is installed. -/
  | install (term : Nat) (snapshot : StoredSnapshot)
  /-- The next committed entry is in `Ready`. -/
  | handOver (timestampNs : Nat)
  /-- The next committed entry is in `LightReady`. -/
  | lightReady
  /-- `advance` moves the applied counter. -/
  | advance
  /-- The loop iteration ends. -/
  | observe
  /-- The process ends and the engine is opened again. -/
  | restart (recovered : List WalRecord) (committed compacted : Nat)

/-- An event on one of the nodes. -/
structure Action where
  node : Nat
  event : Event

/-- The entry a fresh storage starts with. -/
def bootstrapEntry : Entry (Option AppendCommand) := ⟨1, none⟩

/-- A node with a fresh data directory. -/
def Node.init (tailCacheEntries : Nat) : Node where
  role := .follower
  term := 1
  leaderId := 0
  log := [bootstrapEntry]
  committed := 1
  delivered := 0
  applied := 0
  snapshot := ⟨0, []⟩
  wal := []
  core := .opened (.new tailCacheEntries)
  phase := .requests
  incarnation := 0

/-- A group of fresh nodes. `tailCacheEntries` gives each node's cache bound. -/
def ShardGroup.init (tailCacheEntries : Nat → Nat) : ShardGroup where
  nodes n := .init (tailCacheEntries n)
  terms := ⟨AList.singleton 1 [bootstrapEntry], [(1, 1)]⟩
  snapshots := []
  proposals := []
  acks := []
  failures := []

/-- How many entries must be applied before the next snapshot. -/
def snapshotInterval : Nat := 64

namespace Node

/-- The condition of `maybe_snapshot_raft_state`: enough was applied, by the raft
log's counter, since the last snapshot. -/
def SnapshotDue (x : Node) : Prop := x.snapshot.index + snapshotInterval ≤ x.applied

instance (x : Node) : Decidable x.SnapshotDue := Nat.decLe _ _

/-- `maybe_snapshot_raft_state`: stores the state of the streams under the raft
log's applied counter. -/
def maybeSnapshotRaftState (x : Node) : Node :=
  { x with
    snapshot := if x.SnapshotDue then ⟨x.applied, x.core.streams.allStatuses⟩ else x.snapshot }

/-- The record that applying a command writes. -/
def recordOf (index timestampNs : Nat) (cmd : AppendCommand) : WalRecord :=
  ⟨cmd.streamId, cmd.epoch, index, cmd.streamLsn, timestampNs, cmd.payload⟩

/-- `apply_append_entry` on the next committed entry, with the pending write
whose client gets the `Ok`. -/
def applyAppendEntry (x : Node) (timestampNs : Nat) (cmd : AppendCommand) :
    Node × Option PendingClientWrite :=
  let index := x.delivered + 1
  let done := x.core.completeAppend index cmd
  (maybeSnapshotRaftState { x with
    delivered := index
    wal := x.wal ++ [recordOf index timestampNs cmd]
    core := done.1 }, done.2)

/-- `ShardEngine::open` over what the disk gave back: the records the scan of
the write-ahead log found, the commit index of the hard state, and the index up
to which the raft log is compacted. -/
def reopen (x : Node) (tailCacheEntries : Nat) (recovered : List WalRecord)
    (committed compacted : Nat) : Node :=
  { x with
    role := .follower
    leaderId := 0
    committed := committed
    delivered := compacted
    applied := compacted
    core := .opened (recoverStreams (.ofStatuses tailCacheEntries x.snapshot.statuses)
      x.snapshot.index recovered)
    phase := .requests
    incarnation := x.incarnation + 1 }

/-- A snapshot from another node replaces the raft log up to its index. The
entries below it are not handed over, and the stream table is not touched. -/
def install (x : Node) (log : Log) (snapshot : StoredSnapshot) : Node :=
  { x with
    log := log
    committed := snapshot.index
    delivered := snapshot.index
    applied := snapshot.index
    snapshot := snapshot }

end Node

namespace ShardGroup

/-- Replaces the state of one node. -/
def update (σ : ShardGroup) (n : Nat) (x : Node) : ShardGroup :=
  { σ with nodes := fun m => if m = n then x else σ.nodes m }

/-- Handles a write. Only a leader admits it, and a leader proposes what it
admits, which appends it to the raft log. -/
def handleWrite (σ : ShardGroup) (n connectionId streamId epoch : Nat) (payload : Bytes) :
    ShardGroup :=
  let x := σ.nodes n
  if x.role ≠ .leader then σ
  else
    match x.core.admitWrite connectionId streamId epoch payload with
    | (core, .error _) => σ.update n { x with core := core }
    | (core, .ok cmd)  =>
        let e : Entry (Option AppendCommand) := ⟨x.term, some cmd⟩
        { σ.update n { x with core := core, log := x.log ++ [e] } with
          terms := σ.terms.append x.term x.log e
          proposals := ⟨n, x.incarnation, connectionId, x.log.length + 1, x.term, cmd⟩ ::
            σ.proposals }

/-- The acknowledgement that completing a pending write sends, if there is one. -/
def ackOf (n : Nat) (x : Node) (term : Nat) (cmd : AppendCommand) :
    Option PendingClientWrite → List Ack
  | none         => []
  | some pending => [⟨n, x.incarnation, cmd.requestId, pending, x.delivered + 1, term, cmd⟩]

/-- Hands the next committed entry over: an entry without data is skipped. -/
def handOverEntry (σ : ShardGroup) (n timestampNs : Nat) (e : Entry (Option AppendCommand)) :
    ShardGroup :=
  let x := σ.nodes n
  match e.data with
  | none     => σ.update n { x with delivered := x.delivered + 1 }
  | some cmd =>
      let done := x.applyAppendEntry timestampNs cmd
      { σ.update n done.1 with
        snapshots := done.1.snapshot :: σ.snapshots
        acks := ackOf n x e.term cmd done.2 ++ σ.acks }

/-- The responses of an observed step-down, with the pending writes they are for. -/
def failuresOf (n : Nat) (x : Node) : List Failure :=
  List.zipWith (fun p response => ⟨n, x.incarnation, p.1, p.2, response⟩) x.core.givenUp
    (x.core.logRaftStateIfChanged x.role x.leaderId).2

/-- The step function of the group. -/
def step (tailCacheEntries : Nat → Nat) (σ : ShardGroup) (a : Action) : Option ShardGroup :=
  let n := a.node
  let x := σ.nodes n
  match a.event with
  | .write conn s epoch payload =>
      if x.phase = .requests then some (σ.handleWrite n conn s epoch payload) else none
  | .ack s offset =>
      if x.phase = .requests then
        some (σ.update n { x with
          core := { x.core with streams := (x.core.streams.advanceConsumed s offset).1 } })
      else none
  | .poll => if x.phase = .requests then some (σ.update n { x with phase := .raft }) else none
  | .follow role term leaderId =>
      if x.phase = .raft ∧ role ≠ .leader ∧ x.term ≤ term then
        some (σ.update n { x with role := role, term := term, leaderId := leaderId })
      else none
  | .elect term =>
      if x.phase = .raft ∧ x.role ≠ .leader ∧ x.term ≤ term ∧ σ.terms.ledger term = none ∧
          σ.terms.HasEarlier term x.log then
        let e : Entry (Option AppendCommand) := ⟨term, none⟩
        some { σ.update n { x with
            role := .leader, term := term, leaderId := n, log := x.log ++ [e] } with
          terms := σ.terms.openTerm term x.log e }
      else none
  | .replicate term len =>
      match σ.terms.ledger term with
      | none      => none
      | some full =>
          if x.phase = .raft ∧ x.role ≠ .leader ∧ x.committed ≤ len ∧ len ≤ full.length ∧
              full.take x.committed = x.log.take x.committed then
            some (σ.update n { x with log := full.take len })
          else none
  | .commit len =>
      if x.phase = .raft ∧ x.role = .leader ∧ x.committed ≤ len ∧ len ≤ x.log.length ∧
          σ.terms.InLater x.term (x.log.take len) then
        some { σ.update n { x with committed := len } with terms := σ.terms.commit x.term len }
      else none
  | .learnCommit len =>
      if x.phase = .raft ∧ x.committed ≤ len ∧ len ≤ x.log.length ∧
          σ.terms.Settled x.term (x.log.take len) then
        some (σ.update n { x with committed := len })
      else none
  | .install term snapshot =>
      match σ.terms.ledger term with
      | none      => none
      | some full =>
          if x.phase = .raft ∧ x.role ≠ .leader ∧ x.committed < snapshot.index ∧
              snapshot ∈ σ.snapshots ∧ snapshot.index ≤ full.length ∧
              σ.terms.Settled x.term (full.take snapshot.index) then
            some (σ.update n (x.install (full.take snapshot.index) snapshot))
          else none
  | .handOver timestampNs =>
      match x.log[x.delivered]? with
      | none   => none
      | some e =>
          if x.phase = .raft ∧ x.delivered < x.committed then
            some (σ.handOverEntry n timestampNs e)
          else none
  | .lightReady =>
      if x.phase = .raft ∧ x.delivered < x.committed then
        some (σ.update n { x with delivered := x.delivered + 1 })
      else none
  | .advance =>
      if x.phase = .raft then some (σ.update n { x with applied := x.delivered }) else none
  | .observe =>
      if x.phase = .raft then
        some { σ.update n { x with
            core := (x.core.logRaftStateIfChanged x.role x.leaderId).1, phase := .requests } with
          failures := failuresOf n x ++ σ.failures }
      else none
  | .restart recovered committed compacted =>
      if recovered.Sublist x.wal ∧ compacted ≤ x.snapshot.index ∧ compacted ≤ committed ∧
          committed ≤ x.committed then
        some (σ.update n (x.reopen (tailCacheEntries n) recovered committed compacted))
      else none

end ShardGroup

/-- The shard group as a transition system. -/
def group (tailCacheEntries : Nat → Nat) : System ShardGroup Action where
  init := .init tailCacheEntries
  step := ShardGroup.step tailCacheEntries

end WalServer.Cluster
