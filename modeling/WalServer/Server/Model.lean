import WalServer.Lib.Custody
import WalServer.Net.Moves
import WalServer.Shard.Answers

/-!
# `WalServer.Server.Model`: the acceptor and its shards

`server.rs` puts an acceptor and the engines of its shards together: they share the
channels of requests and responses. The acceptor's tasks and the shards take their steps
in any order, and a shard its calls. A shard that has answered tries to send each
response by itself, before its next call; a response that finds the channel full is
dropped.

Every request that a connection has dispatched is a ticket. A record, which no step
reads, has where the ticket is (`custody`): with the request in its shard's channel, with
a pending write, with the response on its way to the connection, or with what was written
to the socket. Other records have the tickets that were once with a pending write
(`waited`), and the responses that the drainer has taken (`drained`).
-/

set_option autoImplicit false

namespace WalServer

open Lib Protocol Net Shard

/-- A dispatched request: the connection, its number among what the connection has
dispatched, and the request with what became of it. -/
structure Ticket where
  connId : Nat
  number : Nat
  dispatch : Dispatch
deriving DecidableEq, Repr

/-- Where a ticket is. -/
inductive Place where
  /-- In the channel of requests. -/
  | requests (shard : Nat)
  /-- With a pending write. -/
  | pending (shard requestId : Nat)
  /-- With a response in the channel of responses, or that is still to be sent. -/
  | answers (shard : Nat)
  /-- With a response in the queue of a connection, or drained from it and not written. -/
  | queue (connId : Nat)
  /-- With what was written to the socket. -/
  | written (connId : Nat)
deriving DecidableEq, Repr

/-- A response that was issued for a ticket: the answer to a pending write, under its
request id, or to the request that was handled, or a refusal. -/
structure Issue where
  ticket : Ticket
  tag : Option Nat
  response : ShardResponse
deriving DecidableEq, Repr

/-- A shard: its engine with its record, and how many responses it has tried to send. -/
structure ServerShard extends Answering where
  sent : Nat

/-- The responses that are still to be sent. -/
def ServerShard.unsent (sh : ServerShard) : List ShardResponse :=
  sh.engine.responses.drop sh.sent

/-- The next response is the first one that is still to be sent. -/
theorem ServerShard.unsent_of_next {sh : ServerShard} {r : ShardResponse}
    (h : sh.engine.responses[sh.sent]? = some r) :
    sh.unsent = r :: ServerShard.unsent { sh with sent := sh.sent + 1 } := by
  unfold unsent
  obtain ⟨hlt, hget⟩ := List.getElem?_eq_some_iff.mp h
  rw [List.drop_eq_getElem_cons hlt, hget]

/-- A shard that has sent all its responses has none to send. -/
theorem ServerShard.unsent_of_sent {sh : ServerShard} (h : sh.sent = sh.engine.responses.length) :
    sh.unsent = [] := by
  unfold unsent
  rw [h, List.drop_length]

/-- The server and its records. -/
structure Server where
  traffic : Traffic
  shards : List ServerShard
  custody : Custody Place Ticket
  /-- The responses that were issued, with their tickets. -/
  issued : List Issue
  /-- The tickets that have been with a pending write. -/
  waited : List Ticket
  /-- The responses that the drainer has taken, with their shards. -/
  drained : List (Nat × ShardResponse)

/-- What happens in the server. -/
inductive ServerAction where
  /-- A task of the acceptor goes on. -/
  | thread (a : Acceptor.Action)
  /-- A shard takes its next request and handles it. -/
  | handle (shard : Nat)
  /-- A shard makes another call. -/
  | call (shard : Nat) (c : EngineCall)
  /-- A shard tries to send its next response. -/
  | send (shard : Nat)

namespace Server

/-- The acceptor of the server. -/
def acceptor (s : Server) : Acceptor := s.traffic.acceptor

section

variable (hash : Bytes → UInt32) (config : AcceptorConfig)

/-! ### Tickets -/

/-- Where the ticket of a response comes from: from the pending write that it answers, or
from the request that is handled. -/
def source (shard : Nat) : Option Nat → Place
  | some requestId => .pending shard requestId
  | none           => .requests shard

/-- The ticket of a write that a call leaves pending. -/
def admitted (shard : Nat) (e : ShardEngine) (c : EngineCall) (m : Custody Place Ticket) :
    List Ticket :=
  match c with
  | .request req => if e.Admits req then (m (.requests shard)).head?.toList else []
  | _            => []

/-- The tickets when a call has let a write in. -/
def letIn (shard : Nat) (e : ShardEngine) (c : EngineCall) (m : Custody Place Ticket) :
    Custody Place Ticket :=
  match c with
  | .request req =>
      if e.Admits req then m.pass (.requests shard) (.pending shard (e.core.requestSeq + 1)) else m
  | _            => m

/-- The tickets after a call of a shard. -/
def settle (shard : Nat) (e : ShardEngine) (c : EngineCall) (m : Custody Place Ticket) :
    Custody Place Ticket :=
  (e.answers c).foldl (fun m tag => m.pass (source shard tag) (.answers shard)) (letIn shard e c m)

/-- Responses are issued, each for the ticket of what it answers. -/
def issue (shard : Nat) : List (Option Nat × ShardResponse) → Custody Place Ticket → List Issue
  | [],               _ => []
  | (tag, r) :: more, m =>
      (m (source shard tag)).head?.toList.map (⟨·, tag, r⟩) ++
        issue shard more (m.pass (source shard tag) (.answers shard))

/-- The responses of a call that leaves the engine `e'`, with their tickets. -/
def issues (shard : Nat) (e : ShardEngine) (c : EngineCall) (e' : ShardEngine)
    (m : Custody Place Ticket) : List Issue :=
  issue shard ((e.answers c).zip (e'.responses.drop e.responses.length)) (letIn shard e c m)

/-- The tickets after a step of the acceptor's thread that ends in `t`. -/
def carry (s : Server) (a : Acceptor.Action) (t : Acceptor) : Custody Place Ticket :=
  match s.acceptor.dispatches config a with
  | some (connId, d) =>
      s.custody.enter (if d.taken then .requests d.shard else .written connId)
        ⟨connId, (s.traffic.dispatched connId).length, d⟩
  | none =>
      match s.acceptor.flushes a with
      | some connId => s.custody.pass (.queue connId) (.written connId)
      | none        =>
          match s.acceptor.drains a with
          | some (shard, r) =>
              if t.Delivered r.connectionId then
                s.custody.pass (.answers shard) (.queue r.connectionId)
              else s.custody.keep (.answers shard) (s.custody (.answers shard)).tail
          | none            => s.custody

/-- A request that is refused is answered at once. -/
def refusals (s : Server) (a : Acceptor.Action) : List Issue :=
  match s.acceptor.dispatches config a with
  | some (connId, d) =>
      if d.taken then []
      else [⟨⟨connId, (s.traffic.dispatched connId).length, d⟩, none,
        ⟨connId, Acceptor.shardUnavailable⟩⟩]
  | none             => []

/-! ### Steps -/

/-- The acceptor's thread has made a step that ends in `t`. -/
def move (s : Server) (a : Acceptor.Action) (t : Acceptor) : Server where
  traffic := s.traffic.record config a t
  shards := s.shards
  custody := s.carry config a t
  issued := s.issued ++ s.refusals config a
  waited := s.waited
  drained := s.drained ++ (s.acceptor.drains a).toList

/-- A shard that has sent all its responses makes a call. -/
def callShard (s : Server) (i : Nat) (sh : ServerShard) (c : EngineCall) : Option Server :=
  if sh.sent = sh.engine.responses.length then
    (sh.engine.call hash c).toOption.map fun e =>
      { s with
        shards := s.shards.set i { sh with toAnswering := sh.toAnswering.note c e }
        custody := settle i sh.engine c s.custody
        issued := s.issued ++ issues i sh.engine c e s.custody
        waited := s.waited ++ admitted i sh.engine c s.custody }
  else none

/-- A shard tries to send a response: the channel takes it, or it is dropped. -/
def trySend (s : Server) (i : Nat) (sh : ServerShard) (r : ShardResponse) : Server :=
  let shards := s.shards.set i { sh with sent := sh.sent + 1 }
  match Acceptor.step config s.acceptor (.respond i r) with
  | some t => { s with traffic := s.traffic.record config (.respond i r) t, shards := shards }
  | none   =>
      { s with
        shards := shards
        custody := s.custody.keep (.answers i) ((s.custody (.answers i)).eraseIdx
          (s.acceptor.responses.getD i []).length) }

/-- What an action does, where it can happen. -/
def step (s : Server) : ServerAction → Option Server
  | .thread a =>
      if a.ofThread then (Acceptor.step config s.acceptor a).map (s.move config a) else none
  | .handle i =>
      s.shards[i]?.bind fun sh => (s.acceptor.requests[i]?.bind List.head?).bind fun req =>
        (Acceptor.step config s.acceptor (.takeRequest i)).bind fun t =>
          { s with traffic := s.traffic.record config (.takeRequest i) t }.callShard hash i sh
            (.request req)
  | .call i c => if c.isRequest then none else s.shards[i]?.bind fun sh => s.callShard hash i sh c
  | .send i =>
      s.shards[i]?.bind fun sh => sh.engine.responses[sh.sent]?.map (s.trySend config i sh)

/-- The server before the first connection, over engines that were opened. -/
def start (engines : List ShardEngine) : Server where
  traffic := (Traffic.system config engines.length).init
  shards := engines.map fun e => ⟨.opened e, 0⟩
  custody := fun _ => []
  issued := []
  waited := []
  drained := []

/-- The runs of a server. -/
def system (engines : List ShardEngine) : System Server ServerAction where
  init := start config engines
  step := step hash config

end

/-- Engines as they are when the server starts. -/
def Opened (hash : Bytes → UInt32) (engines : List ShardEngine) : Prop :=
  ∀ e ∈ engines, ∃ shardId config file dir createdTsNs,
    ShardEngine.openEngine hash shardId config file dir createdTsNs = .ok e

variable {hash : Bytes → UInt32} {config : AcceptorConfig} {s t : Server} {a : ServerAction}
  {engines : List ShardEngine}

/-! ### The ticket of a step -/

section

variable {b : Acceptor.Action} {connId : Nat} (u : Acceptor)

/-- A request that is dispatched gets a ticket. -/
theorem carry_of_dispatches {d : Dispatch}
    (h : s.acceptor.dispatches config b = some (connId, d)) :
    s.carry config b u = s.custody.enter (if d.taken then .requests d.shard else .written connId)
      ⟨connId, (s.traffic.dispatched connId).length, d⟩ := by
  unfold carry
  simp only [h]

/-- A response that is written takes its ticket along. -/
theorem carry_of_flushes (hdispatches : s.acceptor.dispatches config b = none)
    (hflushes : s.acceptor.flushes b = some connId) :
    s.carry config b u = s.custody.pass (.queue connId) (.written connId) := by
  unfold carry
  simp only [hdispatches, hflushes]

/-- So does one that is drained, if it is delivered. -/
theorem carry_of_drains {shard : Nat} {r : ShardResponse}
    (hdispatches : s.acceptor.dispatches config b = none)
    (hflushes : s.acceptor.flushes b = none) (hdrains : s.acceptor.drains b = some (shard, r)) :
    s.carry config b u =
      if u.Delivered r.connectionId then s.custody.pass (.answers shard) (.queue r.connectionId)
      else s.custody.keep (.answers shard) (s.custody (.answers shard)).tail := by
  unfold carry
  simp only [hdispatches, hflushes, hdrains]

/-- Any other step leaves the tickets where they are. -/
theorem carry_of_none (hdispatches : s.acceptor.dispatches config b = none)
    (hflushes : s.acceptor.flushes b = none) (hdrains : s.acceptor.drains b = none) :
    s.carry config b u = s.custody := by
  unfold carry
  simp only [hdispatches, hflushes, hdrains]

/-- A request that its channel takes is not refused. -/
theorem refusals_of_taken {d : Dispatch} (h : s.acceptor.dispatches config b = some (connId, d))
    (htaken : d.taken = true) : s.refusals config b = [] := by
  unfold refusals
  simp only [h, if_pos htaken]

/-- A request that it does not take is refused. -/
theorem refusals_of_refused {d : Dispatch} (h : s.acceptor.dispatches config b = some (connId, d))
    (htaken : d.taken = false) :
    s.refusals config b = [⟨⟨connId, (s.traffic.dispatched connId).length, d⟩, none,
      ⟨connId, Acceptor.shardUnavailable⟩⟩] := by
  unfold refusals
  simp only [h, htaken]
  rfl

theorem refusals_of_none (h : s.acceptor.dispatches config b = none) :
    s.refusals config b = [] := by
  unfold refusals
  simp only [h]

end

/-! ### What a step can be -/

/-- What is in a list after one element was written over. -/
theorem getElem?_set_cases {α : Type} {l : List α} {i j : Nat} {x y : α}
    (h : (l.set i x)[j]? = some y) : (j = i ∧ y = x) ∨ (j ≠ i ∧ l[j]? = some y) := by
  by_cases hij : j = i
  · subst hij
    rw [List.getElem?_set] at h
    split at h
    · split at h
      · cases h
        exact Or.inl ⟨rfl, rfl⟩
      · cases h
    · exact Or.inr ⟨by simp_all, h⟩
  · rw [List.getElem?_set_ne (Ne.symm hij)] at h
    exact Or.inr ⟨hij, h⟩

/-- A shard takes a request. -/
theorem step_takeRequest (config : AcceptorConfig) {acceptor : Acceptor} {i : Nat}
    {req : ShardRequest} {rest : List ShardRequest}
    (h : acceptor.requests[i]? = some (req :: rest)) :
    Acceptor.step config acceptor (.takeRequest i) =
      some { acceptor with requests := acceptor.requests.set i rest } := by
  simp [Acceptor.step, h]

/-- A shard puts a response into a channel that has room. -/
theorem step_respond {acceptor : Acceptor} {i : Nat} {channel : List ShardResponse}
    (h : acceptor.responses[i]? = some channel) (hroom : channel.length < config.channelCapacity)
    (r : ShardResponse) :
    Acceptor.step config acceptor (.respond i r) =
      some { acceptor with responses := acceptor.responses.set i (channel ++ [r]) } := by
  simp [Acceptor.step, h, hroom]

/-- A shard's call that returns. -/
theorem callShard_eq_some {i : Nat} {sh : ServerShard} {c : EngineCall}
    (h : s.callShard hash i sh c = some t) :
    sh.sent = sh.engine.responses.length ∧ ∃ e, sh.engine.call hash c = .ok e ∧
      t = { s with
        shards := s.shards.set i { sh with toAnswering := sh.toAnswering.note c e }
        custody := settle i sh.engine c s.custody
        issued := s.issued ++ issues i sh.engine c e s.custody
        waited := s.waited ++ admitted i sh.engine c s.custody } := by
  obtain ⟨hsent, hcalled⟩ := Option.ite_none_right_eq_some.mp h
  obtain ⟨e, hcall, rfl⟩ := Option.map_eq_some_iff.mp hcalled
  exact ⟨hsent, e, Outcome.toOption_eq_some.mp hcall, rfl⟩

/-- **What a step of the server can be.** -/
inductive Ran (hash : Bytes → UInt32) (config : AcceptorConfig) (s : Server) :
    ServerAction → Server → Prop
  /-- A step of the acceptor's thread. -/
  | moved {a : Acceptor.Action} {t : Acceptor} (hthread : a.ofThread = true)
      (hstep : Acceptor.step config s.acceptor a = some t) :
      Ran hash config s (.thread a) (s.move config a t)
  /-- A shard takes a request and handles it. -/
  | handled {i : Nat} {sh : ServerShard} {req : ShardRequest} {rest : List ShardRequest}
      {e : ShardEngine} (hshard : s.shards[i]? = some sh)
      (hchannel : s.acceptor.requests[i]? = some (req :: rest))
      (hsent : sh.sent = sh.engine.responses.length)
      (hcall : sh.engine.call hash (.request req) = .ok e) :
      Ran hash config s (.handle i) { s with
        traffic := { s.traffic with
          acceptor := { s.acceptor with requests := s.acceptor.requests.set i rest }
          takenBy := Function.update s.traffic.takenBy i (s.traffic.takenBy i ++ [req]) }
        shards := s.shards.set i { sh with toAnswering := sh.toAnswering.note (.request req) e }
        custody := settle i sh.engine (.request req) s.custody
        issued := s.issued ++ issues i sh.engine (.request req) e s.custody
        waited := s.waited ++ admitted i sh.engine (.request req) s.custody }
  /-- A shard makes another call. -/
  | called {i : Nat} {sh : ServerShard} {c : EngineCall} {e : ShardEngine}
      (hrequest : c.isRequest = false) (hshard : s.shards[i]? = some sh)
      (hsent : sh.sent = sh.engine.responses.length) (hcall : sh.engine.call hash c = .ok e) :
      Ran hash config s (.call i c) { s with
        shards := s.shards.set i { sh with toAnswering := sh.toAnswering.note c e }
        custody := settle i sh.engine c s.custody
        issued := s.issued ++ issues i sh.engine c e s.custody
        waited := s.waited ++ admitted i sh.engine c s.custody }
  /-- A response is sent. -/
  | sent {i : Nat} {sh : ServerShard} {r : ShardResponse} {channel : List ShardResponse}
      (hshard : s.shards[i]? = some sh) (hnext : sh.engine.responses[sh.sent]? = some r)
      (hchannel : s.acceptor.responses[i]? = some channel)
      (hroom : channel.length < config.channelCapacity) :
      Ran hash config s (.send i) { s with
        traffic := { s.traffic with
          acceptor := { s.acceptor with
            responses := s.acceptor.responses.set i (channel ++ [r]) } }
        shards := s.shards.set i { sh with sent := sh.sent + 1 } }
  /-- A response is dropped. -/
  | dropped {i : Nat} {sh : ServerShard} {r : ShardResponse} (hshard : s.shards[i]? = some sh)
      (hnext : sh.engine.responses[sh.sent]? = some r)
      (hfull : ∀ channel, s.acceptor.responses[i]? = some channel →
        config.channelCapacity ≤ channel.length) :
      Ran hash config s (.send i) { s with
        shards := s.shards.set i { sh with sent := sh.sent + 1 }
        custody := s.custody.keep (.answers i) ((s.custody (.answers i)).eraseIdx
          (s.acceptor.responses.getD i []).length) }

/-- **Every step is one of these.** -/
theorem ran_of_step (h : s.step hash config a = some t) : Ran hash config s a t := by
  cases a with
  | thread a =>
      obtain ⟨hthread, hmove⟩ := Option.ite_none_right_eq_some.mp h
      obtain ⟨u, hstep, rfl⟩ := Option.map_eq_some_iff.mp hmove
      exact .moved hthread hstep
  | handle i =>
      obtain ⟨sh, hshard, hrest⟩ := Option.bind_eq_some_iff.mp h
      obtain ⟨req, hhead, hrest⟩ := Option.bind_eq_some_iff.mp hrest
      obtain ⟨channel, hchannel, hhead⟩ := Option.bind_eq_some_iff.mp hhead
      obtain ⟨u, hstep, hcalled⟩ := Option.bind_eq_some_iff.mp hrest
      obtain ⟨hsent, e, hcall, rfl⟩ := callShard_eq_some hcalled
      cases channel with
      | nil => cases hhead
      | cons req' rest =>
          cases hhead
          rw [step_takeRequest config hchannel] at hstep
          cases hstep
          rw [Traffic.record_takeRequest _ hchannel]
          exact .handled hshard hchannel hsent hcall
  | call i c =>
      obtain ⟨hrequest, hrest⟩ := Option.ite_none_left_eq_some.mp h
      obtain ⟨sh, hshard, hcalled⟩ := Option.bind_eq_some_iff.mp hrest
      obtain ⟨hsent, e, hcall, rfl⟩ := callShard_eq_some hcalled
      exact .called (by simpa using hrequest) hshard hsent hcall
  | send i =>
      obtain ⟨sh, hshard, hrest⟩ := Option.bind_eq_some_iff.mp h
      obtain ⟨r, hnext, rfl⟩ := Option.map_eq_some_iff.mp hrest
      -- Whether the channel has room decides between the two steps.
      unfold trySend
      cases hstep : Acceptor.step config s.acceptor (.respond i r) with
      | some u =>
          obtain ⟨channel, hchannel, hput⟩ := Option.bind_eq_some_iff.mp hstep
          obtain ⟨hroom, hu⟩ := Option.ite_none_right_eq_some.mp hput
          cases hu
          exact .sent hshard hnext hchannel hroom
      | none =>
          refine .dropped hshard hnext fun channel hchannel => ?_
          by_contra hroom
          rw [step_respond hchannel (Nat.lt_of_not_le hroom)] at hstep
          cases hstep

end Server

end WalServer
