import WalServer.Lib.AssocMap
import WalServer.Lib.RefCell
import WalServer.Lib.Transition
import WalServer.Protocol.Codec

/-!
# `WalServer.Net.Acceptor`: the tasks of the acceptor thread

`net/acceptor.rs`: the accept loop, the drainer of responses and one task for each
connection share a thread. A task keeps the thread until it awaits something that
is not there, so a step here is what a task does between two awaits, or a part of
it where it meets the channels of the shards, which other threads use meanwhile:
one frame of the parse loop, or one response of the drainer. `Thread` says who has
the thread in between.

A write to a socket may take until the client reads, or end at once. It always
suspends its task here, which the next step may wake. While a flush is suspended,
the guard of its response queue is alive and the responses it has drained wait in
`flushing`. The map of queues and the counter of connection ids are cells too. What
the hash of the router is, and when shards send and take, is left open.
-/

set_option autoImplicit false

namespace WalServer.Net

open WalServer.Lib WalServer.Protocol

/-- Where the task of a connection waits. -/
inductive TaskState where
  /-- It has not run yet. -/
  | spawned
  /-- In the write of a flush, with the responses that are still to be written. -/
  | flushing (rest : List ShardResponse)
  /-- In the select over a read and a sleep. -/
  | reading
  /-- It does not wait: it goes through the frames of its buffer. -/
  | parsing
  /-- In the write of a refusal, with the length of the refused frame. -/
  | replying (consumed : Nat)
deriving DecidableEq, Repr

/-- The task of a connection, its queue of responses, and what was passed to its
socket, write by write. -/
structure Connection where
  task : TaskState
  parseBuf : Bytes
  respQueue : RefCell (List ShardResponse)
  socket : List Bytes
deriving DecidableEq, Repr

/-- What ends the thread. -/
inductive AcceptorPanic where
  | alreadyBorrowed
  | indexOutOfRange
  | remainderByZero
deriving DecidableEq, Repr

/-- Who has the thread. -/
inductive Thread where
  /-- All tasks wait. -/
  | idle
  /-- The drainer looks into the channel of a shard. -/
  | draining (shard : Nat) (anyWork : Bool)
  /-- The task of a connection looks for a frame. -/
  | parsing (connId : Nat)
  | panicked (reason : AcceptorPanic)
deriving DecidableEq, Repr

/-- How a select ends: the read does, or the sleep. -/
inductive Selected where
  | eof
  | received (bytes : Bytes)
  | failed
  | slept
deriving DecidableEq, Repr

/-- What the acceptor is started with. The number of shards is a 16-bit number, and
the hash is that of the router's library. -/
structure AcceptorConfig where
  numShards : Nat
  channelCapacity : Nat
  xxh3 : Bytes → Nat

/-- The acceptor, with the channels to and from the shards. The map of response
queues is the set of connections whose queue it has. -/
structure Acceptor where
  thread : Thread
  nextConnId : RefCell Nat
  responseMap : RefCell (List Nat)
  connections : AssocMap Nat Connection
  requests : List (List ShardRequest)
  responses : List (List ShardResponse)

/-- The shard of a stream, if there are shards. -/
def AcceptorConfig.routeStream (config : AcceptorConfig) (streamId : Nat) : Option Nat :=
  if config.numShards = 0 then none
  else some (config.xxh3 (toBeBytes 8 streamId) % config.numShards % 2 ^ 16)

namespace Acceptor

/-- The acceptor before the first connection, with channels to a number of shards. -/
def start (shards : Nat) : Acceptor where
  thread := .idle
  nextConnId := .new 0
  responseMap := .new []
  connections := ∅
  requests := List.replicate shards []
  responses := List.replicate shards []

/-- The thread panics. -/
def panic (s : Acceptor) (reason : AcceptorPanic) : Acceptor :=
  { s with thread := .panicked reason }

/-- Writes back the state of a connection, and passes the thread on. -/
def put (s : Acceptor) (connId : Nat) (c : Connection) (thread : Thread) : Acceptor :=
  { s with connections := s.connections.insert connId c, thread := thread }

/-! ### The accept loop -/

/-- A connection is accepted: it gets an id, a queue in the map, and a task. -/
def accept (s : Acceptor) : Acceptor :=
  let connId := s.nextConnId.value
  match s.nextConnId.update (· + 1) with
  | none            => s.panic .alreadyBorrowed
  | some nextConnId =>
      match s.responseMap.update (connId :: ·) with
      | none             => { s with nextConnId := nextConnId }.panic .alreadyBorrowed
      | some responseMap =>
          { s with
            nextConnId := nextConnId
            responseMap := responseMap
            connections := s.connections.insert connId ⟨.spawned, [], .new [], []⟩ }

/-! ### The task of a connection -/

/-- The task ends: its queue leaves the map. -/
def close (s : Acceptor) (connId : Nat) : Acceptor :=
  match s.responseMap.update (·.filter (· ≠ connId)) with
  | none             => s.panic .alreadyBorrowed
  | some responseMap =>
      { s with
        responseMap := responseMap
        connections := s.connections.erase connId
        thread := .idle }

/-- The flush loop, from the next response on. Behind the last one the guard is
dropped, and the task waits in its select. -/
def flushNext (s : Acceptor) (connId : Nat) (c : Connection) : List ShardResponse → Acceptor
  | []        => s.put connId { c with task := .reading, respQueue := c.respQueue.unlock } .idle
  | r :: rest => s.put connId { c with
      task := .flushing rest
      socket := c.socket ++ [encodeResponse r.response] } .idle

/-- The top of the loop: the queue is borrowed and drained. -/
def flush (s : Acceptor) (connId : Nat) (c : Connection) : Acceptor :=
  match c.respQueue.lock with
  | none           => s.panic .alreadyBorrowed
  | some respQueue =>
      s.flushNext connId { c with respQueue := { respQueue with value := [] } } respQueue.value

/-- The write that a task waits in ends. -/
def written (s : Acceptor) (connId : Nat) (c : Connection) (ok : Bool) : Option Acceptor :=
  match c.task with
  | .flushing rest     => some (if ok then s.flushNext connId c rest else s.close connId)
  | .replying consumed => some (if ok then
        s.put connId { c with task := .parsing, parseBuf := c.parseBuf.drop consumed }
          (.parsing connId)
      else s.close connId)
  | _                  => none

/-- The select that a task waits in ends. -/
def selected (s : Acceptor) (connId : Nat) (c : Connection) : Selected → Option Acceptor
  | result =>
    if c.task = .reading then
      match result with
      | .eof            => some (s.close connId)
      | .failed         => some (s.close connId)
      | .received bytes => some (s.put connId
            { c with task := .parsing, parseBuf := c.parseBuf ++ bytes } (.parsing connId))
      | .slept          => some (s.flush connId c)
    else none

/-- What a shard that cannot take a request is answered for. -/
def shardUnavailable : Response := ⟨.errShardUnavailable, 0, 0, []⟩

/-- One turn of the parse loop. A request that the channel of its shard takes is
sent, and any other is refused. -/
def parse (config : AcceptorConfig) (s : Acceptor) (connId : Nat) (c : Connection)
    (connected : Bool) : Acceptor :=
  match decodeRequest c.parseBuf with
  | .error _                  => s.close connId
  | .ok none                  => s.flush connId c
  | .ok (some (req, consumed)) =>
      match config.routeStream req.streamId with
      | none       => s.panic .remainderByZero
      | some shard =>
          match s.requests[shard]? with
          | none         => s.panic .indexOutOfRange
          | some channel =>
              if connected ∧ channel.length < config.channelCapacity then
                { s with
                  requests := s.requests.set shard (channel ++ [ShardRequest.mk connId req]) }.put
                  connId { c with parseBuf := c.parseBuf.drop consumed } (.parsing connId)
              else s.put connId { c with
                task := .replying consumed
                socket := c.socket ++ [encodeResponse shardUnavailable] } .idle

/-! ### The drainer -/

/-- A response goes to the queue of its connection, if that is still there. -/
def dispatch (s : Acceptor) (r : ShardResponse) : Acceptor :=
  match s.responseMap.peek with
  | none     => s.panic .alreadyBorrowed
  | some map =>
      if r.connectionId ∈ map then
        match s.connections.lookup r.connectionId with
        | none   => s
        | some c =>
            match c.respQueue.update (· ++ [r]) with
            | none           => s.panic .alreadyBorrowed
            | some respQueue =>
                s.put r.connectionId { c with respQueue := respQueue } s.thread
      else s

/-- The drainer looks for a response in the channel of a shard. Behind the last
shard it begins anew, or sleeps if there was nothing. -/
def drain (s : Acceptor) (shard : Nat) (anyWork : Bool) : Acceptor :=
  match s.responses[shard]? with
  | none          => { s with thread := if anyWork then .draining 0 false else .idle }
  | some []       => { s with thread := .draining (shard + 1) anyWork }
  | some (r :: rest) =>
      { s with
        responses := s.responses.set shard rest
        thread := .draining shard true }.dispatch r

/-! ### Steps -/

/-- What happens on the acceptor's thread and around it. -/
inductive Action where
  /-- The accept loop gets a connection. -/
  | accept
  /-- The task of a connection runs for the first time. -/
  | spawn (connId : Nat)
  /-- The write of a connection's task ends. -/
  | written (connId : Nat) (ok : Bool)
  /-- The select of a connection's task ends. -/
  | selected (connId : Nat) (result : Selected)
  /-- The parse loop goes on; its shard's channel may have been closed. -/
  | parse (connected : Bool)
  /-- The sleep of the drainer ends. -/
  | wakeDrainer
  /-- The drainer goes on. -/
  | drain
  /-- A shard takes its next request. -/
  | takeRequest (shard : Nat)
  /-- A shard sends a response. -/
  | respond (shard : Nat) (r : ShardResponse)
deriving DecidableEq, Repr

/-- What an action of one of the tasks does, where it can happen. -/
def step (config : AcceptorConfig) (s : Acceptor) : Action → Option Acceptor
  | .accept => if s.thread = .idle then some s.accept else none
  | .spawn connId =>
      if s.thread = .idle then
        (s.connections.lookup connId).bind fun c =>
          if c.task = .spawned then some (s.flush connId c) else none
      else none
  | .written connId ok =>
      if s.thread = .idle then
        (s.connections.lookup connId).bind fun c => s.written connId c ok
      else none
  | .selected connId result =>
      if s.thread = .idle then
        (s.connections.lookup connId).bind fun c => s.selected connId c result
      else none
  | .parse connected =>
      match s.thread with
      | .parsing connId =>
          (s.connections.lookup connId).map fun c => s.parse config connId c connected
      | _               => none
  | .wakeDrainer => if s.thread = .idle then some { s with thread := .draining 0 false } else none
  | .drain =>
      match s.thread with
      | .draining shard anyWork => some (s.drain shard anyWork)
      | _                       => none
  | .takeRequest shard =>
      s.requests[shard]?.map fun channel =>
        { s with requests := s.requests.set shard channel.tail }
  | .respond shard r =>
      s.responses[shard]?.bind fun channel =>
        if channel.length < config.channelCapacity then
          some { s with responses := s.responses.set shard (channel ++ [r]) }
        else none

/-- The runs of an acceptor. -/
def system (config : AcceptorConfig) (shards : Nat) : System Acceptor Action where
  init := start shards
  step := step config

end Acceptor

end WalServer.Net
