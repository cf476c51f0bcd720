import WalServer.Net.Peer
import WalServer.Shard.Calls

/-!
# `WalServer.Shard.Iteration`: one turn of the engine's loop, and what an error leaves

`ShardEngine::run` as turns of its loop over two queues, with the raft crate as a
parameter (`RaftCrate`). A call says what it leaves of the engine as well as how it ends,
so that it can be compared with what was there before: the `?` behind a call ends the
turn, and with it the loop.

Two calls of the crate may fail on what others send. A proposal that the node drops ends
the loop with the write half admitted (`Undone`, `dropped_proposal_not_undone`). A message
that the node rejects ends it as well, and `goesOn_iff_accepts` says that a queue of
messages is gone through exactly when it has no such message.
-/

set_option autoImplicit false

namespace WalServer.Shard

open WalServer.Lib WalServer.Protocol WalServer.Raft
open WalServer.Net.Peer (RaftInbound)

/-- A raft node: what the crate keeps of it to itself, and what the engine sees. -/
structure RaftNode (ν : Type) where
  hidden : ν
  seen : RawNode

/-- The raft crate: its calls on a node, and their errors. What `ready` and `advance`
return in a cycle, and the node behind it, depend on the node before the cycle. -/
structure RaftCrate (ν ε : Type) where
  propose : RaftNode ν → Bytes → RaftNode ν × Except ε Unit
  step : RaftNode ν → Message → RaftNode ν × Except ε Unit
  tick : RaftNode ν → RaftNode ν
  campaign : RaftNode ν → RaftNode ν × Except ε Unit
  ready : RaftNode ν → Option (Ready × Advanced)
  cycled : RaftNode ν → RaftNode ν → ν × NodeView

/-- The node takes a proposal when it accepts one, and is as it was when it does not. -/
def RaftCrate.ProposesAs {ν ε : Type} (crate : RaftCrate ν ε) (e : ε) : Prop :=
  ∀ node data, crate.propose node data =
    if node.seen.accepting then
      (⟨node.hidden, { node.seen with proposals := node.seen.proposals ++ [data] }⟩, .ok ())
    else (node, .error e)

/-- Why the loop ends: an error of the engine's own, or one of the raft crate. -/
inductive LoopError (ε : Type) where
  | engine (e : EngineError)
  | raft (e : ε)
deriving DecidableEq, Repr

/-- The loop between two awaits: the engine, the rest of its raft node, its two queues,
and whether it has campaigned at the start. -/
structure LoopState (ν : Type) where
  engine : ShardEngine
  hidden : ν
  requests : List ShardRequest
  messages : List (RaftInbound Message)
  campaigned : Bool

/-- Which of the three waits wins the select. -/
inductive Woken where
  | requests
  | messages
  | timer
deriving DecidableEq, Repr

/-- What a turn meets: what has arrived since the last one, the wait that wins, which
of the timers have run out, and the clock. -/
structure Turn where
  requests : List ShardRequest
  messages : List (RaftInbound Message)
  woken : Woken
  tickDue : Bool
  campaignDue : Bool
  gcDue : Bool
  clock : Clock

namespace LoopState

variable {ν ε : Type}

/-- What a call leaves, and how it ends. -/
abbrev Call (ν ε : Type) := LoopState ν × Outcome (LoopError ε) Unit

/-- The `?` operator between two calls. -/
def Call.andThen (call : Call ν ε) (next : LoopState ν → Call ν ε) : Call ν ε :=
  match call with
  | (s, .ok ())  => next s
  | (s, failure) => (s, failure)

/-- The raft node of the engine. -/
def node (s : LoopState ν) : RaftNode ν := ⟨s.hidden, s.engine.raft⟩

/-- The engine with another raft node. -/
def withNode (s : LoopState ν) (node : RaftNode ν) : LoopState ν :=
  { s with engine := { s.engine with raft := node.seen }, hidden := node.hidden }

/-- How a call of the raft crate ends. -/
def ended (result : Except ε Unit) : Outcome (LoopError ε) Unit :=
  match result with
  | .ok ()   => .ok ()
  | .error e => .err (.raft e)

/-- How a call of the engine ends, with the engine that it leaves. Of a call that fails it is
not followed what it leaves. -/
def ofEngine (s : LoopState ν) (result : Outcome EngineError ShardEngine) : Call ν ε :=
  match result with
  | .ok e        => ({ s with engine := e }, .ok ())
  | .err failure => (s, .err (.engine failure))
  | .panic       => (s, .panic)

section

variable (crate : RaftCrate ν ε) (hash : Bytes → UInt32)

/-- Handles a write. What admits it is kept when the proposal fails. -/
def handleWrite (s : LoopState ν) (connectionId streamId epoch : Nat) (payload : Bytes) :
    Call ν ε :=
  if s.engine.raft.state ≠ .leader then
    ({ s with engine := s.engine.sendNotLeader connectionId }, .ok ())
  else
    match s.engine.core.admitWrite connectionId streamId epoch payload with
    | (core, .error currentEpoch) =>
        ({ s with engine := (({ s.engine with core := core } : ShardEngine).sendResponse
          connectionId .errEpochFenced currentEpoch 0 []) }, .ok ())
    | (core, .ok cmd)             =>
        let proposed := crate.propose s.node (encodeAppendCommand cmd)
        (({ s with engine := { s.engine with core := core } } : LoopState ν).withNode proposed.1,
          ended proposed.2)

/-- Handles a client request. -/
def handleClientRequest (s : LoopState ν) (req : ShardRequest) : Call ν ε :=
  match req.request.op with
  | .write => s.handleWrite crate req.connectionId req.request.streamId req.request.epoch
      req.request.payload
  | _      => s.ofEngine (s.engine.handleClientRequest hash req)

/-- Takes the requests off their queue and handles them. -/
def processClientRequests : List ShardRequest → LoopState ν → Call ν ε
  | [],          s => ({ s with requests := [] }, .ok ())
  | req :: rest, s =>
      Call.andThen (({ s with requests := rest } : LoopState ν).handleClientRequest crate hash req)
        (processClientRequests rest)

/-- Takes the messages off their queue and steps them into the raft node. -/
def processRaftMessages : List (RaftInbound Message) → LoopState ν → Call ν ε
  | [],              s => ({ s with messages := [] }, .ok ())
  | inbound :: rest, s =>
      let stepped := crate.step s.node inbound.message
      Call.andThen (({ s with messages := rest } : LoopState ν).withNode stepped.1,
        ended stepped.2) (processRaftMessages rest)

/-- The select, and what its branch does. -/
def select (woken : Woken) (s : LoopState ν) : Call ν ε :=
  match woken with
  | .requests => processClientRequests crate hash s.requests s
  | .messages => processRaftMessages crate s.messages s
  | .timer    => (s, .ok ())

/-- The first campaign, on the node with the id 1. -/
def campaignIfDue (due : Bool) (s : LoopState ν) : Call ν ε :=
  if due ∧ ¬ s.campaigned ∧ s.engine.nodeId = 1 then
    let campaign := crate.campaign s.node
    Call.andThen (s.withNode campaign.1, ended campaign.2)
      fun s' => ({ s' with campaigned := true }, .ok ())
  else (s, .ok ())

/-- A cycle, if the node has something ready. -/
def driveReady (clock : Clock) (s : LoopState ν) : Call ν ε :=
  match crate.ready s.node with
  | none                   => (s, .ok ())
  | some (ready, advanced) =>
      Call.andThen (s.ofEngine (s.engine.driveReady hash clock ready advanced)) fun s' =>
        let behind := crate.cycled s.node s'.node
        (s'.withNode ⟨behind.1, s'.engine.raft.withView behind.2⟩, .ok ())

/-- The part of a turn behind the select. -/
def finish (turn : Turn) (s : LoopState ν) : Call ν ε :=
  Call.andThen (campaignIfDue crate turn.campaignDue
      (if turn.tickDue then s.withNode (crate.tick s.node) else s)) fun s =>
  Call.andThen (driveReady crate hash turn.clock s) fun s =>
    let observed := s.engine.logRaftStateIfChanged
    ({ s with engine := if turn.gcDue then observed.runGc else observed }, .ok ())

/-- One turn of the loop. -/
def turn (t : Turn) (s : LoopState ν) : Call ν ε :=
  Call.andThen (select crate hash t.woken
      { s with requests := s.requests ++ t.requests, messages := s.messages ++ t.messages })
    (finish crate hash t)

/-- The loop: turns, until one fails. -/
def run : List Turn → LoopState ν → Call ν ε
  | [],        s => (s, .ok ())
  | t :: rest, s => Call.andThen (turn crate hash t s) (run rest)

end

variable {crate : RaftCrate ν ε} {hash : Bytes → UInt32} {s : LoopState ν}

@[simp] theorem andThen_ok (s : LoopState ν) (next : LoopState ν → Call ν ε) :
    Call.andThen (s, .ok ()) next = next s := rfl

@[simp] theorem andThen_err (s : LoopState ν) (e : LoopError ε) (next : LoopState ν → Call ν ε) :
    Call.andThen (s, .err e) next = (s, .err e) := rfl

/-! ### Proposals -/

/-- **Requests are handled as the engine handles them**, where the node takes proposals as
the engine says. -/
theorem handleClientRequest_eq_ok {e : ε} (h : crate.ProposesAs e) (req : ShardRequest)
    {engine : ShardEngine} (hok : s.engine.handleClientRequest hash req = .ok engine) :
    s.handleClientRequest crate hash req = ({ s with engine := engine }, .ok ()) := by
  unfold handleClientRequest
  cases hop : req.request.op with
  | write =>
      simp only [ShardEngine.handleClientRequest, hop, ShardEngine.handleWrite] at hok
      show s.handleWrite crate _ _ _ _ = _
      unfold handleWrite
      by_cases hleader : s.engine.raft.state ≠ .leader
      · rw [if_pos hleader] at hok ⊢
        rw [Outcome.ok.inj hok]
      · rw [if_neg hleader] at hok ⊢
        -- The stream table decides, and then the node.
        cases hadmitted : s.engine.core.admitWrite req.connectionId req.request.streamId
            req.request.epoch req.request.payload with
        | mk core result =>
            rw [hadmitted] at hok
            cases result with
            | error currentEpoch =>
                simp only at hok ⊢
                rw [Outcome.ok.inj hok]
            | ok cmd =>
                simp only at hok ⊢
                by_cases haccepting : s.engine.raft.accepting = true
                · have hpropose := h s.node (encodeAppendCommand cmd)
                  rw [if_pos (show s.node.seen.accepting = true from haccepting)] at hpropose
                  rw [if_pos haccepting] at hok
                  rw [hpropose, ← Outcome.ok.inj hok]
                  rfl
                · rw [if_neg haccepting] at hok
                  cases hok
  | read =>
      show s.ofEngine _ = _
      rw [hok]
      rfl
  | ack =>
      show s.ofEngine _ = _
      rw [hok]
      rfl
  | getStatus =>
      show s.ofEngine _ = _
      rw [hok]
      rfl

/-- The write is admitted, and the node refuses its proposal. -/
def ProposalFails (crate : RaftCrate ν ε) (s : LoopState ν) (req : ShardRequest) (e : ε) : Prop :=
  ∃ core cmd, s.engine.core.admitWrite req.connectionId req.request.streamId req.request.epoch
      req.request.payload = (core, .ok cmd) ∧
    (crate.propose s.node (encodeAppendCommand cmd)).2 = .error e

/-- A request leaves the streams' positions and epochs, the pending writes and the raft
node as they were, its client is told of an error, and the requests behind it are served. -/
structure Undone (crate : RaftCrate ν ε) (hash : Bytes → UInt32) (s : LoopState ν)
    (req : ShardRequest) : Prop where
  streams : ∀ id,
    ((s.handleClientRequest crate hash req).1.engine.core.streams.ensureStream id).nextStreamLsn =
      (s.engine.core.streams.ensureStream id).nextStreamLsn ∧
    ((s.handleClientRequest crate hash req).1.engine.core.streams.ensureStream id).maxEpoch =
      (s.engine.core.streams.ensureStream id).maxEpoch
  pending : (s.handleClientRequest crate hash req).1.engine.core.pendingWrites =
    s.engine.core.pendingWrites
  node : (s.handleClientRequest crate hash req).1.node = s.node
  answered : ∃ r, (s.handleClientRequest crate hash req).1.engine.responses =
      s.engine.responses ++ [r] ∧ r.connectionId = req.connectionId ∧ r.response.status ≠ .ok
  served : ∀ rest, processClientRequests crate hash (req :: rest) s =
    processClientRequests crate hash rest
      { (s.handleClientRequest crate hash req).1 with requests := rest }

/-- What a refused proposal leaves: the engine with the write admitted, and the error. -/
theorem handleClientRequest_of_proposalFails (hash : Bytes → UInt32) {req : ShardRequest} {e : ε}
    (hleader : s.engine.raft.state = .leader) (hop : req.request.op = .write)
    {core : ShardCore} {cmd : AppendCommand}
    (hadmitted : s.engine.core.admitWrite req.connectionId req.request.streamId req.request.epoch
      req.request.payload = (core, .ok cmd))
    (hfails : (crate.propose s.node (encodeAppendCommand cmd)).2 = .error e) :
    s.handleClientRequest crate hash req =
      (({ s with engine := { s.engine with core := core } } : LoopState ν).withNode
        (crate.propose s.node (encodeAppendCommand cmd)).1, .err (.raft e)) := by
  unfold handleClientRequest
  rw [hop]
  show s.handleWrite crate _ _ _ _ = _
  unfold handleWrite
  rw [if_neg (by simp [hleader]), hadmitted]
  simp only
  rw [hfails]
  rfl

/-- **A refused proposal is not undone**, whatever the engine: the position is gone, the
client hears nothing, and the loop ends in front of the requests that are left. -/
theorem dropped_proposal_not_undone {req : ShardRequest} {e : ε}
    (hleader : s.engine.raft.state = .leader) (hop : req.request.op = .write)
    (hfails : ProposalFails crate s req e) :
    ¬ Undone crate hash s req ∧
      ((s.handleClientRequest crate hash req).1.engine.core.streams.ensureStream
          req.request.streamId).nextStreamLsn =
        (s.engine.core.streams.ensureStream req.request.streamId).nextStreamLsn + 1 ∧
      (s.handleClientRequest crate hash req).1.engine.core.pendingWrites =
        s.engine.core.pendingWrites.insert (s.engine.core.requestSeq + 1)
          ⟨req.connectionId, req.request.streamId, req.request.epoch,
            (s.engine.core.streams.ensureStream req.request.streamId).nextStreamLsn⟩ ∧
      (s.handleClientRequest crate hash req).1.engine.responses = s.engine.responses ∧
      ∀ rest, ∃ left, processClientRequests crate hash (req :: rest) s =
        (left, .err (.raft e)) ∧ left.requests = rest := by
  obtain ⟨core, cmd, hadmitted, hpropose⟩ := hfails
  have hleft := handleClientRequest_of_proposalFails hash hleader hop hadmitted hpropose
  -- All this is done before `propose` is called.
  obtain ⟨-, -, hstreams, -, hpending⟩ := ShardCore.admitWrite_eq_ok hadmitted
  have hnext : ((s.handleClientRequest crate hash req).1.engine.core.streams.ensureStream
      req.request.streamId).nextStreamLsn =
        (s.engine.core.streams.ensureStream req.request.streamId).nextStreamLsn + 1 := by
    rw [hleft]
    show (core.streams.ensureStream req.request.streamId).nextStreamLsn = _
    rw [hstreams, if_pos rfl]
  refine ⟨fun hundone => ?_, hnext, ?_, ?_, fun rest => ?_⟩
  · -- A position that was allocated is not given back.
    have hsame := (hundone.streams req.request.streamId).1
    omega
  · rw [hleft]
    exact hpending
  · rw [hleft]
    rfl
  · -- The requests behind it are still in the queue when the loop ends.
    have hrest := handleClientRequest_of_proposalFails (s := { s with requests := rest }) hash
      hleader hop hadmitted hpropose
    exact ⟨_, by rw [processClientRequests, hrest, andThen_err], rfl⟩

/-- The errors of the raft crate that matter here. -/
inductive RaftError where
  | proposalDropped
  | stepLocalMsg
deriving DecidableEq, Repr

/-- A node that takes proposals as the engine says and has nothing ready. Of the messages it
refuses the default one, which is of a local type. -/
def quietCrate : RaftCrate Unit RaftError where
  propose node data :=
    if node.seen.accepting then
      (⟨(), { node.seen with proposals := node.seen.proposals ++ [data] }⟩, .ok ())
    else (node, .error .proposalDropped)
  step node message :=
    if message.body = [] then (node, .error .stepLocalMsg)
    else (⟨(), { node.seen with stepped := node.seen.stepped ++ [message] }⟩, .ok ())
  tick node := node
  campaign node := (node, .ok ())
  ready _ := none
  cycled _ node := ((), ⟨node.seen.state, node.seen.leaderId, node.seen.committed,
    node.seen.applied, node.seen.accepting⟩)

/-- Node 1 of two leads, and is about to hand its leadership over: it drops proposals. -/
def handingOver : LoopState Unit where
  engine :=
    { ShardEngine.freshEngine 0 ⟨1, 64, 4, [1, 2]⟩ 0 with
      raft := ⟨.leader, 1, 1, 1, false, PersistentStorage.openStorage none ⟨[1, 2]⟩, [], []⟩ }
  hidden := ()
  requests := []
  messages := []
  campaigned := true

/-- A write in this state: its position is gone, although nothing was proposed. -/
theorem dropped_proposal_kept :
    ¬ ∀ (crate : RaftCrate Unit RaftError) (hash : Bytes → UInt32) (s : LoopState Unit)
      (req : ShardRequest) (e : RaftError), s.engine.raft.state = .leader →
      req.request.op = .write → ProposalFails crate s req e → Undone crate hash s req := by
  intro hclaim
  have hundone := hclaim quietCrate (fun _ => 0) handingOver ⟨0, ⟨.write, 7, 1, 0, [42]⟩⟩
    .proposalDropped rfl rfl ⟨_, _, rfl, rfl⟩
  have hsame := (hundone.streams 7).1
  revert hsame
  decide

/-- The request behind it is not served. -/
theorem dropped_proposal_not_undone_handingOver :
    ∃ left, LoopState.processClientRequests quietCrate (fun _ => 0)
        [⟨0, ⟨.write, 7, 1, 0, [42]⟩⟩, ⟨1, ⟨.getStatus, 7, 0, 0, []⟩⟩] handingOver =
      (left, .err (.raft .proposalDropped)) ∧
      left.requests = [⟨1, ⟨.getStatus, 7, 0, 0, []⟩⟩] :=
  (dropped_proposal_not_undone (e := RaftError.proposalDropped) rfl rfl ⟨_, _, rfl, rfl⟩).2.2.2.2 _

/-! ### Messages -/

/-- The node behind all messages, each of them stepped. -/
def stepAll (crate : RaftCrate ν ε) (messages : List (RaftInbound Message))
    (node : RaftNode ν) : RaftNode ν :=
  messages.foldl (fun node inbound => (crate.step node inbound.message).1) node

/-- The node accepts every message, behind those in front of it. -/
def Accepts (crate : RaftCrate ν ε) : List (RaftInbound Message) → RaftNode ν → Prop
  | [],              _    => True
  | inbound :: rest, node =>
      (crate.step node inbound.message).2 = .ok () ∧
        Accepts crate rest (crate.step node inbound.message).1

/-- The messages that the node accepts. -/
def accepted (crate : RaftCrate ν ε) :
    List (RaftInbound Message) → RaftNode ν → List (RaftInbound Message)
  | [],              _    => []
  | inbound :: rest, node =>
      match crate.step node inbound.message with
      | (node', .ok ())   => inbound :: accepted crate rest node'
      | (node', .error _) => accepted crate rest node'

/-- The messages of the queue are all stepped, in order, and the loop goes on as if those
that were rejected had not arrived. -/
structure GoesOn (crate : RaftCrate ν ε) (hash : Bytes → UInt32) (s : LoopState ν) : Prop where
  steps : processRaftMessages crate s.messages s =
    ({ s.withNode (stepAll crate s.messages s.node) with messages := [] }, .ok ())
  unseen : ∀ t turns, run crate hash (t :: turns) s =
    run crate hash (t :: turns) { s with messages := accepted crate s.messages s.node }

/-- **A queue without a rejected message** is stepped as a whole. -/
theorem processRaftMessages_of_accepts {messages : List (RaftInbound Message)}
    (h : Accepts crate messages s.node) :
    processRaftMessages crate messages s =
      ({ s.withNode (stepAll crate messages s.node) with messages := [] }, .ok ()) := by
  induction messages generalizing s with
  | nil => rfl
  | cons inbound rest ih =>
      obtain ⟨hok, hrest⟩ := h
      rw [processRaftMessages, hok]
      show processRaftMessages crate rest _ = _
      rw [ih (by exact hrest)]
      rfl

/-- A queue that is gone through has no rejected message. -/
theorem accepts_of_processRaftMessages {messages : List (RaftInbound Message)}
    {left : LoopState ν} (h : processRaftMessages crate messages s = (left, .ok ())) :
    Accepts crate messages s.node := by
  induction messages generalizing s with
  | nil => trivial
  | cons inbound rest ih =>
      rw [processRaftMessages] at h
      cases hstep : (crate.step s.node inbound.message).2 with
      | ok =>
          rw [hstep] at h
          exact ⟨hstep, ih h⟩
      | error e =>
          -- The error ends the loop.
          rw [hstep] at h
          cases h

/-- Without a rejected message, the accepted ones are all. -/
theorem accepted_of_accepts {messages : List (RaftInbound Message)} {node : RaftNode ν}
    (h : Accepts crate messages node) : accepted crate messages node = messages := by
  induction messages generalizing node with
  | nil => rfl
  | cons inbound rest ih =>
      obtain ⟨hok, hrest⟩ := h
      rw [accepted]
      split
      · rename_i node' hstep
        rw [hstep] at hrest
        rw [ih hrest]
      · rename_i node' e hstep
        rw [hstep] at hok
        cases hok

/-- **When a queue of messages does not stop the shard**: exactly when the node rejects none
of them. -/
theorem goesOn_iff_accepts (crate : RaftCrate ν ε) (hash : Bytes → UInt32) (s : LoopState ν) :
    GoesOn crate hash s ↔ Accepts crate s.messages s.node := by
  constructor
  · intro h
    exact accepts_of_processRaftMessages h.steps
  · intro h
    -- No message is missing in either run, so they are one.
    refine ⟨processRaftMessages_of_accepts h, fun t turns => ?_⟩
    rw [accepted_of_accepts h]

/-- A follower that has got an empty frame, which is the default message, and behind it a
heartbeat of an earlier term. -/
def emptyFrame : LoopState Unit where
  engine := ShardEngine.freshEngine 0 ⟨1, 64, 4, [1, 2]⟩ 0
  hidden := ()
  requests := []
  messages := [⟨0, ⟨0, []⟩⟩, ⟨0, ⟨1, [0x08, 8, 0x20, 1]⟩⟩]
  campaigned := false

/-- The loop ends at the empty frame, although a node that rejects a message is as it was. -/
theorem rejected_message_stops :
    ¬ ∀ (crate : RaftCrate Unit RaftError) (hash : Bytes → UInt32) (s : LoopState Unit),
      (∀ node message e, (crate.step node message).2 = .error e →
        (crate.step node message).1 = node) → GoesOn crate hash s := by
  intro hclaim
  have hrejects : ∀ node message e, (quietCrate.step node message).2 = .error e →
      (quietCrate.step node message).1 = node := by
    intro node message e herror
    simp only [quietCrate] at herror ⊢
    split
    · rfl
    · rename_i hbody
      rw [if_neg hbody] at herror
      cases herror
  have hsteps := (hclaim quietCrate (fun _ => 0) emptyFrame hrejects).steps
  have haccepts := accepts_of_processRaftMessages hsteps
  cases haccepts.1

end LoopState

end WalServer.Shard
