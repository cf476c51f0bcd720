import WalServer.Protocol.Codec
import WalServer.Raft.Storage
import WalServer.Shard.Core
import WalServer.Shard.StreamSnapshot
import WalServer.Wal.Reader

/-!
# `WalServer.Shard.Engine`: the shard engine

`shard/engine.rs` as a whole: `ShardCore` joined with the write-ahead log, its
index and reader, the directory of segment files, and what the engine sees of
its raft node. The raft crate itself is not modelled. What it does between two
calls is in the caller's hands, who sets the node's role and counters and says
what `ready` and `advance` return.

A call that ends in an error or a panic ends the process. The clock is read once
for a record and once for a segment header, so both readings are arguments, by
raft index where a call applies several entries. The response and the outbound
channel are the lists of what was sent; `handed` is a record of the calls of
`apply_append_entry` that no step reads.
-/

set_option autoImplicit false

namespace WalServer.Shard

open WalServer.Lib WalServer.Protocol WalServer.Raft WalServer.Wal

/-- A message on its way to a peer. -/
structure RaftOutbound where
  groupId : Nat
  targetId : Nat
  message : Message
deriving DecidableEq, Repr

/-- What the engine reads of its raft node, whether the node takes a proposal
now, the messages that are stepped into it, and the data that was proposed. -/
structure RawNode where
  state : StateRole
  leaderId : Nat
  committed : Nat
  applied : Nat
  accepting : Bool
  store : PersistentStorage
  stepped : List Message
  proposals : List Bytes

/-- What `advance` returns, and the node's counters after it. -/
structure Advanced where
  light : LightReady
  committed : Nat
  applied : Nat

/-- The part of the configuration that the engine reads. -/
structure ServerConfig where
  nodeId : Nat
  segmentMaxBytes : Nat
  tailCacheEntries : Nat
  voters : List Nat
deriving DecidableEq, Repr

/-- Why the engine stops. -/
inductive EngineError where
  | wal (e : WalWriterError)
  | storage (e : StorageError)
  | command (e : CommandError)
  | snapshot (text : String)
  | proposalDropped
deriving DecidableEq, Repr

/-- A committed entry as `drive_ready` passes it on. -/
structure HandedEntry where
  index : Nat
  term : Nat
  cmd : AppendCommand
deriving DecidableEq, Repr

/-- A clock: what it shows while the entry of a raft index is applied, for its
record and for the header of a segment it may open. -/
structure Clock where
  record : Nat → Nat
  segment : Nat → Nat

/-- The engine of one shard. -/
structure ShardEngine where
  shardId : Nat
  nodeId : Nat
  walWriter : WalWriter
  dir : ShardDir
  walReader : WalReader
  index : StreamLogIndex
  core : ShardCore
  raft : RawNode
  responses : List ShardResponse
  outbound : List RaftOutbound
  handed : List HandedEntry

namespace ShardEngine

/-- Opens the engine on what the disk holds: the file of the raft storage, if
there is one, and the directory of segment files. -/
def openEngine (hash : Bytes → UInt32) (shardId : Nat) (config : ServerConfig)
    (file : Option PersistentState) (dir : ShardDir) (createdTsNs : Nat) :
    Outcome EngineError ShardEngine :=
  let storage := PersistentStorage.openStorage file ⟨config.voters⟩
  let snapshotIndex := storage.snapshotIndex
  match StreamStateTable.decodeSnapshot config.tailCacheEntries storage.state.snapshot.data with
  | .error text         => .err (.snapshot text)
  | .ok recoveredStreams =>
      ((WalWriter.openWriter hash shardId dir config.segmentMaxBytes config.tailCacheEntries
        (some recoveredStreams) snapshotIndex createdTsNs).mapErr .wal).bind
        fun (walWriter, dir', index, streams) => .ok {
          shardId := shardId
          nodeId := config.nodeId
          walWriter := walWriter
          dir := dir'
          walReader := .new shardId
          index := index
          core := .opened streams
          raft := ⟨.follower, 0, storage.state.hardState.commit, storage.state.firstIndex - 1,
            true, storage, [], []⟩
          responses := []
          outbound := []
          handed := [] }

/-- Puts a response into the response channel. -/
def sendResponse (e : ShardEngine) (connectionId : Nat) (status : Status) (epoch offset : Nat)
    (payload : Bytes) : ShardEngine :=
  { e with responses := e.responses ++ [⟨connectionId, ⟨status, epoch, offset, payload⟩⟩] }

/-- Tells a client which node leads. -/
def sendNotLeader (e : ShardEngine) (connectionId : Nat) : ShardEngine :=
  e.sendResponse connectionId .errNotLeader 0 e.raft.leaderId []

/-! ### Client requests -/

/-- Handles a write. A proposal that the node drops ends the process. -/
def handleWrite (e : ShardEngine) (connectionId streamId epoch : Nat) (payload : Bytes) :
    Outcome EngineError ShardEngine :=
  if e.raft.state ≠ .leader then .ok (e.sendNotLeader connectionId)
  else
    match e.core.admitWrite connectionId streamId epoch payload with
    | (core, .error currentEpoch) =>
        .ok (({ e with core := core }).sendResponse connectionId .errEpochFenced currentEpoch 0 [])
    | (core, .ok cmd)             =>
        if e.raft.accepting then
          .ok { e with
            core := core
            raft := { e.raft with proposals := e.raft.proposals ++ [encodeAppendCommand cmd] } }
        else .err .proposalDropped

/-- Answers a read from the tail cache or from the write-ahead log. -/
def readStream (hash : Bytes → UInt32) (e : ShardEngine)
    (connectionId streamId streamLsn : Nat) : Outcome EngineError ShardEngine :=
  let streams := e.core.streams
  match (streams.status streamId).filter fun status => status.commitStreamLsn ≤ streamLsn with
  | some status =>
      .ok (e.sendResponse connectionId .errNotFound status.maxEpoch streamLsn [])
  | none        =>
      match streams.readFromTail streamId streamLsn with
      | some tail =>
          .ok (e.sendResponse connectionId .ok (streams.currentEpoch streamId) tail.streamLsn
            tail.payload)
      | none      =>
          match e.walReader.readRecord hash e.dir streamId streamLsn e.index with
          | (walReader, .ok record) =>
              .ok (({ e with walReader := walReader }).sendResponse connectionId .ok record.epoch
                record.streamLsn record.payload)
          | (walReader, .err _)     =>
              .ok (({ e with walReader := walReader }).sendResponse connectionId .errNotFound
                (streams.currentEpoch streamId) streamLsn [])
          | (_, .panic)             => .panic

/-- Handles a read. -/
def handleRead (hash : Bytes → UInt32) (e : ShardEngine)
    (connectionId streamId streamLsn : Nat) : Outcome EngineError ShardEngine :=
  if e.raft.state ≠ .leader then .ok (e.sendNotLeader connectionId)
  else e.readStream hash connectionId streamId streamLsn

/-- Handles an acknowledgement, on a leader or not. -/
def handleAck (e : ShardEngine) (connectionId streamId offset : Nat) : ShardEngine :=
  let advanced := e.core.streams.advanceConsumed streamId offset
  ({ e with core := { e.core with streams := advanced.1 } }).sendResponse connectionId .ok
    (advanced.1.currentEpoch streamId) advanced.2 []

/-- Handles a request for the status of a stream. -/
def handleGetStatus (e : ShardEngine) (connectionId streamId : Nat) : ShardEngine :=
  match e.core.streams.status streamId with
  | some status =>
      e.sendResponse connectionId .ok status.maxEpoch status.nextStreamLsn
        (encodeStreamStatusPayload ⟨status.nextStreamLsn, status.commitStreamLsn,
          status.consumedStreamLsn, e.raft.committed, e.raft.applied⟩)
  | none        => e.sendResponse connectionId .ok 0 0 []

/-- Handles a client request. -/
def handleClientRequest (hash : Bytes → UInt32) (e : ShardEngine) (req : ShardRequest) :
    Outcome EngineError ShardEngine :=
  let r := req.request
  match r.op with
  | .write     => e.handleWrite req.connectionId r.streamId r.epoch r.payload
  | .read      => e.handleRead hash req.connectionId r.streamId r.offset
  | .ack       => .ok (e.handleAck req.connectionId r.streamId r.offset)
  | .getStatus => .ok (e.handleGetStatus req.connectionId r.streamId)

/-! ### Applying committed entries -/

/-- Stores a snapshot when enough was applied since the last one. -/
def maybeSnapshotRaftState (e : ShardEngine) : Outcome EngineError ShardEngine :=
  match e.raft.store.maybeSnapshot e.raft.applied e.core.streams.encodeSnapshot with
  | (store, .ok ())   => .ok { e with raft := { e.raft with store := store } }
  | (_, .err failure) => .err (.storage failure)
  | (_, .panic)       => .panic

/-- Sends the `Ok` of a write that has been completed, if it was pending here. -/
def sendCompletion (e : ShardEngine) : Option PendingClientWrite → ShardEngine
  | some pending => e.sendResponse pending.connectionId .ok pending.epoch pending.streamLsn []
  | none         => e

/-- Applies a committed command: writes and syncs its record, enters it in the
index and the stream table, and answers its client. -/
def applyAppendEntry (hash : Bytes → UInt32) (clock : Clock) (e : ShardEngine)
    (raftIndex raftTerm : Nat) (cmd : AppendCommand) : Outcome EngineError ShardEngine :=
  ((e.walWriter.appendWithLogIndex hash e.dir cmd.streamId cmd.epoch cmd.streamLsn raftIndex
    cmd.payload (clock.record raftIndex) (clock.segment raftIndex)).mapErr .wal).bind
    fun (walWriter, dir, _, loc) =>
      let completed := e.core.completeAppend raftIndex cmd
      (({ e with
        walWriter := walWriter
        dir := walWriter.sync dir
        index := e.index.insert cmd.streamId cmd.streamLsn loc
        core := completed.1
        handed := e.handed ++ [HandedEntry.mk raftIndex raftTerm cmd] }).sendCompletion
          completed.2).maybeSnapshotRaftState

/-- The loop of `drive_ready` over committed entries: entries without data and
entries that are no normal ones are skipped. -/
def applyCommittedEntries (hash : Bytes → UInt32) (clock : Clock) :
    List LogEntry → ShardEngine → Outcome EngineError ShardEngine
  | [],            e => .ok e
  | entry :: rest, e =>
      if entry.data = [] then applyCommittedEntries hash clock rest e
      else if entry.entryType ≠ .entryNormal then applyCommittedEntries hash clock rest e
      else
        match decodeAppendCommand entry.data with
        | .error failure => .err (.command failure)
        | .ok cmd        =>
            (e.applyAppendEntry hash clock entry.index entry.term cmd).bind
              (applyCommittedEntries hash clock rest)

/-- Sends messages to their targets; a message to the node itself is stepped. -/
def dispatchRaftMessages (e : ShardEngine) (messages : List Message) : ShardEngine :=
  messages.foldl
    (fun e msg =>
      if msg.toNode = e.nodeId then
        { e with raft := { e.raft with stepped := e.raft.stepped ++ [msg] } }
      else { e with outbound := e.outbound ++ [⟨e.shardId, msg.toNode, msg⟩] }) e

/-- The engine once a `Ready` is stored and its messages are sent. -/
def afterStore (e : ShardEngine) (store : PersistentStorage) (ready : Ready) : ShardEngine :=
  (({ e with raft := { e.raft with store := store } } : ShardEngine).dispatchRaftMessages
    ready.messages).dispatchRaftMessages ready.persistedMessages

/-- The end of a cycle: `advance` moves the node's counters, and the messages of
the light ready are sent. Its committed entries are not looked at. -/
def advance (e : ShardEngine) (advanced : Advanced) : ShardEngine :=
  ({ e with raft := { e.raft with
    committed := advanced.committed
    applied := advanced.applied } } : ShardEngine).dispatchRaftMessages advanced.light.messages

/-- One cycle of the raft node that has something ready: store, send, apply and
advance. -/
def driveReady (hash : Bytes → UInt32) (clock : Clock) (e : ShardEngine) (ready : Ready)
    (advanced : Advanced) : Outcome EngineError ShardEngine :=
  match e.raft.store.storeReady ready with
  | (_, .err failure) => .err (.storage failure)
  | (_, .panic)       => .panic
  | (store, .ok ())   =>
      (applyCommittedEntries hash clock ready.committedEntries (e.afterStore store ready)).bind
        fun e' => .ok (e'.advance advanced)

/-! ### The rest of an iteration -/

/-- The end of an iteration: a lost leadership fails the pending writes. -/
def logRaftStateIfChanged (e : ShardEngine) : ShardEngine :=
  let logged := e.core.logRaftStateIfChanged e.raft.state e.raft.leaderId
  { e with core := logged.1, responses := e.responses ++ logged.2 }

/-- The index after garbage collection has dropped the consumed positions. -/
def gcIndex (e : ShardEngine) : StreamLogIndex :=
  e.core.streams.allStatuses.foldl
    (fun ix status =>
      if 0 < status.consumedStreamLsn then
        ix.truncateStreamBefore status.streamId status.consumedStreamLsn
      else ix) e.index

/-- Removes the files of consumed segments: those no index entry points into,
the current one excepted. -/
def runGc (e : ShardEngine) : ShardEngine :=
  let index := e.gcIndex
  let liveSegments := index.liveSegmentIds
  e.dir.files.foldl
    (fun e f =>
      if f.segmentId = e.walWriter.currentSegmentId then e
      else if f.segmentId ∈ liveSegments then e
      else { e with
        walReader := e.walReader.evictSegment f.segmentId
        dir := e.dir.remove f.segmentId })
    { e with index := index }

end ShardEngine

end WalServer.Shard
