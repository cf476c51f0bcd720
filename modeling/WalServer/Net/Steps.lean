import WalServer.Net.Acceptor

/-!
# `WalServer.Net.Steps`: what a step of the acceptor can be

The paths through the acceptor's step function, each with the guards that lead to
it and the state it ends in (`Ran`). Invariants go by cases on these paths
(`ran_of_step`) and do not look into the step function.
-/

set_option autoImplicit false

namespace WalServer.Net

open WalServer.Lib WalServer.Protocol

namespace Acceptor

/-- The connections after one was written back. -/
theorem lookup_put {s : Acceptor} {connId id : Nat} {c d : Connection} {thread : Thread}
    (h : (s.put connId c thread).connections.lookup id = some d) :
    (id = connId ∧ d = c) ∨ (id ≠ connId ∧ s.connections.lookup id = some d) := by
  have h' : (s.connections.insert connId c).lookup id = some d := h
  rw [AssocMap.lookup_insert_eq] at h'
  split at h'
  · rename_i hid
    cases h'
    exact Or.inl ⟨hid, rfl⟩
  · rename_i hid
    exact Or.inr ⟨hid, h'⟩

/-- The paths of a step. -/
inductive Ran (config : AcceptorConfig) (s : Acceptor) : Action → Acceptor → Prop
  | accepted (hidle : s.thread = .idle) : Ran config s .accept s.accept
  | spawned {connId : Nat} {c : Connection} (hidle : s.thread = .idle)
      (hlookup : s.connections.lookup connId = some c) (htask : c.task = .spawned) :
      Ran config s (.spawn connId) (s.flush connId c)
  | flushed {connId : Nat} {c : Connection} {rest : List ShardResponse} (hidle : s.thread = .idle)
      (hlookup : s.connections.lookup connId = some c) (htask : c.task = .flushing rest) :
      Ran config s (.written connId true) (s.flushNext connId c rest)
  | replied {connId consumed : Nat} {c : Connection} (hidle : s.thread = .idle)
      (hlookup : s.connections.lookup connId = some c) (htask : c.task = .replying consumed) :
      Ran config s (.written connId true)
        (s.put connId { c with task := .parsing, parseBuf := c.parseBuf.drop consumed }
          (.parsing connId))
  | writeFailed {connId : Nat} {c : Connection} (hidle : s.thread = .idle)
      (hlookup : s.connections.lookup connId = some c) :
      Ran config s (.written connId false) (s.close connId)
  | readEnded {connId : Nat} {c : Connection} {result : Selected} (hidle : s.thread = .idle)
      (hlookup : s.connections.lookup connId = some c) (htask : c.task = .reading)
      (hresult : result = .eof ∨ result = .failed) :
      Ran config s (.selected connId result) (s.close connId)
  | received {connId : Nat} {c : Connection} {bytes : Bytes} (hidle : s.thread = .idle)
      (hlookup : s.connections.lookup connId = some c) (htask : c.task = .reading) :
      Ran config s (.selected connId (.received bytes))
        (s.put connId { c with task := .parsing, parseBuf := c.parseBuf ++ bytes }
          (.parsing connId))
  | slept {connId : Nat} {c : Connection} (hidle : s.thread = .idle)
      (hlookup : s.connections.lookup connId = some c) (htask : c.task = .reading) :
      Ran config s (.selected connId .slept) (s.flush connId c)
  | malformed {connId : Nat} {c : Connection} {connected : Bool} {e : ProtocolError}
      (hthread : s.thread = .parsing connId) (hlookup : s.connections.lookup connId = some c)
      (hdecode : decodeRequest c.parseBuf = .error e) :
      Ran config s (.parse connected) (s.close connId)
  | parsed {connId : Nat} {c : Connection} {connected : Bool}
      (hthread : s.thread = .parsing connId) (hlookup : s.connections.lookup connId = some c)
      (hdecode : decodeRequest c.parseBuf = .ok none) :
      Ran config s (.parse connected) (s.flush connId c)
  | noRouter {connId consumed : Nat} {c : Connection} {connected : Bool} {req : Request}
      (hthread : s.thread = .parsing connId) (hlookup : s.connections.lookup connId = some c)
      (hdecode : decodeRequest c.parseBuf = .ok (some (req, consumed)))
      (hroute : config.routeStream req.streamId = none) :
      Ran config s (.parse connected) (s.panic .remainderByZero)
  | noChannel {connId consumed shard : Nat} {c : Connection} {connected : Bool} {req : Request}
      (hthread : s.thread = .parsing connId) (hlookup : s.connections.lookup connId = some c)
      (hdecode : decodeRequest c.parseBuf = .ok (some (req, consumed)))
      (hroute : config.routeStream req.streamId = some shard)
      (hchannel : s.requests[shard]? = none) :
      Ran config s (.parse connected) (s.panic .indexOutOfRange)
  | sent {connId consumed shard : Nat} {c : Connection} {connected : Bool} {req : Request}
      {channel : List ShardRequest}
      (hthread : s.thread = .parsing connId) (hlookup : s.connections.lookup connId = some c)
      (hdecode : decodeRequest c.parseBuf = .ok (some (req, consumed)))
      (hroute : config.routeStream req.streamId = some shard)
      (hchannel : s.requests[shard]? = some channel)
      (hroom : connected = true ∧ channel.length < config.channelCapacity) :
      Ran config s (.parse connected)
        ({ s with requests := s.requests.set shard (channel ++ [ShardRequest.mk connId req]) }.put
          connId { c with parseBuf := c.parseBuf.drop consumed } (.parsing connId))
  | refused {connId consumed shard : Nat} {c : Connection} {connected : Bool} {req : Request}
      {channel : List ShardRequest}
      (hthread : s.thread = .parsing connId) (hlookup : s.connections.lookup connId = some c)
      (hdecode : decodeRequest c.parseBuf = .ok (some (req, consumed)))
      (hroute : config.routeStream req.streamId = some shard)
      (hchannel : s.requests[shard]? = some channel)
      (hroom : ¬ (connected = true ∧ channel.length < config.channelCapacity)) :
      Ran config s (.parse connected)
        (s.put connId { c with
          task := .replying consumed
          socket := c.socket ++ [encodeResponse shardUnavailable] } .idle)
  | woken (hidle : s.thread = .idle) :
      Ran config s .wakeDrainer { s with thread := .draining 0 false }
  | drainedAll {shard : Nat} {anyWork : Bool} (hthread : s.thread = .draining shard anyWork)
      (hchannel : s.responses[shard]? = none) :
      Ran config s .drain { s with thread := if anyWork then .draining 0 false else .idle }
  | drainedShard {shard : Nat} {anyWork : Bool} (hthread : s.thread = .draining shard anyWork)
      (hchannel : s.responses[shard]? = some []) :
      Ran config s .drain { s with thread := .draining (shard + 1) anyWork }
  | drained {shard : Nat} {anyWork : Bool} {r : ShardResponse} {rest : List ShardResponse}
      (hthread : s.thread = .draining shard anyWork)
      (hchannel : s.responses[shard]? = some (r :: rest)) :
      Ran config s .drain ({ s with
        responses := s.responses.set shard rest
        thread := .draining shard true }.dispatch r)
  | requestTaken {shard : Nat} {channel : List ShardRequest}
      (hchannel : s.requests[shard]? = some channel) :
      Ran config s (.takeRequest shard) { s with requests := s.requests.set shard channel.tail }
  | responseSent {shard : Nat} {r : ShardResponse} {channel : List ShardResponse}
      (hchannel : s.responses[shard]? = some channel)
      (hroom : channel.length < config.channelCapacity) :
      Ran config s (.respond shard r) { s with responses := s.responses.set shard (channel ++ [r]) }

/-- A turn of the parse loop takes one of the paths of `parse`. -/
theorem ran_of_parse {config : AcceptorConfig} {s : Acceptor} {connId : Nat} {c : Connection}
    (hthread : s.thread = .parsing connId) (hlookup : s.connections.lookup connId = some c)
    (connected : Bool) : Ran config s (.parse connected) (s.parse config connId c connected) := by
  unfold parse
  split
  · rename_i hdecode
    exact .malformed hthread hlookup hdecode
  · rename_i hdecode
    exact .parsed hthread hlookup hdecode
  · rename_i hdecode
    split
    · rename_i hroute
      exact .noRouter hthread hlookup hdecode hroute
    · rename_i hroute
      split
      · rename_i hchannel
        exact .noChannel hthread hlookup hdecode hroute hchannel
      · rename_i hchannel
        split
        · rename_i hroom
          exact .sent hthread hlookup hdecode hroute hchannel hroom
        · rename_i hroom
          exact .refused hthread hlookup hdecode hroute hchannel hroom

/-- **Every step takes one of the paths.** -/
theorem ran_of_step {config : AcceptorConfig} {s t : Acceptor} {a : Action}
    (h : step config s a = some t) : Ran config s a t := by
  cases a with
  | accept =>
      obtain ⟨hidle, hrun⟩ := Option.ite_none_right_eq_some.mp h
      cases hrun
      exact .accepted hidle
  | spawn connId =>
      obtain ⟨hidle, hrun⟩ := Option.ite_none_right_eq_some.mp h
      obtain ⟨c, hlookup, hrun⟩ := Option.bind_eq_some_iff.mp hrun
      obtain ⟨htask, hrun⟩ := Option.ite_none_right_eq_some.mp hrun
      cases hrun
      exact .spawned hidle hlookup htask
  | written connId ok =>
      obtain ⟨hidle, hrun⟩ := Option.ite_none_right_eq_some.mp h
      obtain ⟨c, hlookup, hrun⟩ := Option.bind_eq_some_iff.mp hrun
      -- The write ends a flush or a direct reply; no other task waits for it.
      unfold written at hrun
      split at hrun
      · rename_i htask
        cases hrun
        cases ok with
        | true => exact .flushed hidle hlookup htask
        | false => exact .writeFailed hidle hlookup
      · rename_i htask
        cases hrun
        cases ok with
        | true => exact .replied hidle hlookup htask
        | false => exact .writeFailed hidle hlookup
      · cases hrun
  | selected connId result =>
      obtain ⟨hidle, hrun⟩ := Option.ite_none_right_eq_some.mp h
      obtain ⟨c, hlookup, hrun⟩ := Option.bind_eq_some_iff.mp hrun
      obtain ⟨htask, hrun⟩ := Option.ite_none_right_eq_some.mp hrun
      cases result with
      | eof => cases hrun; exact .readEnded hidle hlookup htask (Or.inl rfl)
      | failed => cases hrun; exact .readEnded hidle hlookup htask (Or.inr rfl)
      | received bytes => cases hrun; exact .received hidle hlookup htask
      | slept => cases hrun; exact .slept hidle hlookup htask
  | parse connected =>
      cases hthread : s.thread with
      | parsing connId =>
          simp only [step, hthread] at h
          obtain ⟨c, hlookup, rfl⟩ := Option.map_eq_some_iff.mp h
          exact ran_of_parse hthread hlookup connected
      -- Parsing goes on only where it was left off.
      | idle => simp only [step, hthread] at h; cases h
      | draining shard anyWork => simp only [step, hthread] at h; cases h
      | panicked reason => simp only [step, hthread] at h; cases h
  | wakeDrainer =>
      obtain ⟨hidle, hrun⟩ := Option.ite_none_right_eq_some.mp h
      cases hrun
      exact .woken hidle
  | drain =>
      cases hthread : s.thread with
      | draining shard anyWork =>
          simp only [step, hthread, Option.some.injEq] at h
          subst h
          unfold drain
          split
          · rename_i hchannel
            exact .drainedAll hthread hchannel
          · rename_i hchannel
            exact .drainedShard hthread hchannel
          · rename_i hchannel
            exact .drained hthread hchannel
      | idle => simp only [step, hthread] at h; cases h
      | parsing connId => simp only [step, hthread] at h; cases h
      | panicked reason => simp only [step, hthread] at h; cases h
  | takeRequest shard =>
      obtain ⟨channel, hchannel, rfl⟩ := Option.map_eq_some_iff.mp h
      exact .requestTaken hchannel
  | respond shard r =>
      obtain ⟨channel, hchannel, hsend⟩ := Option.bind_eq_some_iff.mp h
      obtain ⟨hroom, hsend⟩ := Option.ite_none_right_eq_some.mp hsend
      cases hsend
      exact .responseSent hchannel hroom

end Acceptor

end WalServer.Net
