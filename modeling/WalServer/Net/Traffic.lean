import WalServer.Lib.Framing
import WalServer.Net.Steps

/-!
# `WalServer.Net.Traffic`: what a connection receives and dispatches

`decode_request` as a decoder of frames (`requestFraming`): once it has refused a
buffer or found a request in it, bytes that follow do not change that, and a request
takes a header's length at least.

`Traffic` is the acceptor with a record of what each connection has received, what
its task has dispatched, and the error it has ended with, and of what each shard has
taken. No step reads the record. In every run, what a connection has dispatched and what
it has left are those of its whole stream parsed at once (`framed_of_reachable`).
-/

set_option autoImplicit false

namespace WalServer.Net

open WalServer.Lib WalServer.Protocol

/-! ### Requests as frames -/

/-- The fields of a header do not depend on what follows it. -/
theorem header_append {buf : Bytes} (h : requestHeaderSize ≤ buf.length) (more : Bytes) :
    slice (buf ++ more) 0 4 = slice buf 0 4 ∧ (buf ++ more).getD 4 0 = buf.getD 4 0 ∧
      (buf ++ more).getD 5 0 = buf.getD 5 0 ∧ slice (buf ++ more) 6 14 = slice buf 6 14 ∧
      slice (buf ++ more) 14 22 = slice buf 14 22 ∧ slice (buf ++ more) 22 30 = slice buf 22 30 ∧
      slice (buf ++ more) 30 34 = slice buf 30 34 := by
  unfold requestHeaderSize at h
  have hwindow : ∀ i j, j ≤ 34 → slice (buf ++ more) i j = slice buf i j :=
    fun i j hj => slice_append_left (by omega)
  have hbyte : ∀ i, i < 34 → (buf ++ more).getD i 0 = buf.getD i 0 := by
    intro i hi
    rw [List.getD_eq_getElem?_getD, List.getElem?_append_left (by omega),
      ← List.getD_eq_getElem?_getD]
  exact ⟨hwindow 0 4 (by omega), hbyte 4 (by omega), hbyte 5 (by omega), hwindow 6 14 (by omega),
    hwindow 14 22 (by omega), hwindow 22 30 (by omega), hwindow 30 34 (by omega)⟩

/-- **A request takes a whole header at least**, and no more than there is. -/
theorem length_of_decodeRequest {buf : Bytes} {req : Request} {n : Nat}
    (h : decodeRequest buf = .ok (some (req, n))) : requestHeaderSize ≤ n ∧ n ≤ buf.length := by
  obtain ⟨-, -, -, hn, hroom, -⟩ := decodeRequest_eq_ok h
  unfold requestHeaderSize
  omega

/-- **What was decoded stays decoded** when more follows. -/
theorem decodeRequest_append {buf : Bytes} (more : Bytes)
    (h : decodeRequest buf ≠ .ok none) : decodeRequest (buf ++ more) = decodeRequest buf := by
  by_cases hshort : buf.length < requestHeaderSize
  · exact absurd (by unfold decodeRequest; rw [if_pos hshort]) h
  · obtain ⟨hmagic, hversion, hop, hstream, hepoch, hoffset, hlen⟩ :=
      header_append (Nat.le_of_not_lt hshort) more
    have hlong : ¬ (buf ++ more).length < requestHeaderSize := by
      rw [List.length_append]
      omega
    unfold decodeRequest at h ⊢
    simp only [if_neg hshort, if_neg hlong, hmagic, hversion, hop, hstream, hepoch, hoffset,
      hlen] at h ⊢
    split
    · rfl
    rename_i hmagicOk
    rw [if_neg hmagicOk] at h
    split
    · rfl
    rename_i hversionOk
    rw [if_neg hversionOk] at h
    split
    · rfl
    rename_i op hopOk
    simp only [hopOk] at h
    -- The payload was there, so it still is.
    by_cases hroom : buf.length < requestHeaderSize + fromBeBytes (slice buf 30 34)
    · rw [if_pos hroom] at h
      exact absurd rfl h
    · have hroom' : ¬ (buf ++ more).length < requestHeaderSize + fromBeBytes (slice buf 30 34) := by
        rw [List.length_append]
        omega
      rw [if_neg hroom, if_neg hroom', slice_append_left (Nat.le_of_not_lt hroom)]

/-- What `decode_request` says of a buffer. -/
def decodedRequest (buf : Bytes) : Decoded Request ProtocolError :=
  match decodeRequest buf with
  | .ok (some (req, consumed)) => .frame req consumed
  | .ok none                   => .more
  | .error e                   => .bad e

theorem decodedRequest_frame {buf : Bytes} {req : Request} {n : Nat} :
    decodedRequest buf = .frame req n ↔ decodeRequest buf = .ok (some (req, n)) := by
  unfold decodedRequest
  split <;> simp_all

theorem decodedRequest_more {buf : Bytes} :
    decodedRequest buf = .more ↔ decodeRequest buf = .ok none := by
  unfold decodedRequest
  split <;> simp_all

theorem decodedRequest_bad {buf : Bytes} {e : ProtocolError} :
    decodedRequest buf = .bad e ↔ decodeRequest buf = .error e := by
  unfold decodedRequest
  split <;> simp_all

/-- Requests as the frames of a stream. -/
def requestFraming : Framing UInt8 Request ProtocolError where
  decode := decodedRequest
  decode_nil := rfl
  takes h := by
    obtain ⟨hlow, hhigh⟩ := length_of_decodeRequest (decodedRequest_frame.mp h)
    unfold requestHeaderSize at hlow
    exact ⟨by omega, hhigh⟩
  frame_append more h := by
    have hdecode := decodedRequest_frame.mp h
    rw [decodedRequest_frame, decodeRequest_append more (by rw [hdecode]; simp), hdecode]
  bad_append more h := by
    have hdecode := decodedRequest_bad.mp h
    rw [decodedRequest_bad, decodeRequest_append more (by rw [hdecode]; simp), hdecode]

theorem decode_requestFraming (buf : Bytes) : requestFraming.decode buf = decodedRequest buf := rfl

/-- **Requests that a client has encoded** one after the other are the frames of what it
sends. -/
theorem parseAll_encodeRequest {reqs : List Request} (h : ∀ req ∈ reqs, req.Fits) :
    requestFraming.parseAll (reqs.map encodeRequest).flatten = ⟨reqs, .ok []⟩ := by
  have hencode : ∀ req ∈ reqs, ∀ rest, requestFraming.decode (encodeRequest req ++ rest) =
      .frame req (encodeRequest req).length := by
    intro req hreq rest
    have hdecode := decodeRequest_encodeRequest (h req hreq)
    rw [decode_requestFraming, decodedRequest_frame,
      decodeRequest_append rest (by rw [hdecode]; simp), hdecode]
  have hparsed := Framing.parseAll_encoded hencode []
  rw [List.append_nil, Framing.parseAll_nil] at hparsed
  rw [hparsed]
  simp [Parsed.after]

/-! ### The record -/

/-- A request that a task has passed on: to its shard's channel, or refused because the
channel did not take it. -/
structure Dispatch where
  request : Request
  shard : Nat
  taken : Bool
deriving DecidableEq, Repr

/-- The acceptor, with what its connections have received, dispatched and ended with, and
what its shards have taken from their channels. -/
structure Traffic where
  acceptor : Acceptor
  received : Nat → Bytes
  dispatched : Nat → List Dispatch
  ended : Nat → Option ProtocolError
  takenBy : Nat → List ShardRequest

namespace Acceptor

/-- What a turn of the parse loop finds in the buffer. -/
def found (s : Acceptor) : Option (Nat × Decoded Request ProtocolError) :=
  match s.thread with
  | .parsing connId =>
      (s.connections.lookup connId).map fun c => (connId, decodedRequest c.parseBuf)
  | _               => none

/-- What a turn of the parse loop dispatches. -/
def dispatches (config : AcceptorConfig) (s : Acceptor) : Action → Option (Nat × Dispatch)
  | .parse connected =>
      match s.found with
      | some (connId, .frame req _) =>
          (config.routeStream req.streamId).bind fun shard =>
            s.requests[shard]?.map fun channel => (connId,
              ⟨req, shard, connected && decide (channel.length < config.channelCapacity)⟩)
      | _                           => none
  | _                => none

/-- The error that a turn of the parse loop ends its connection with. -/
def refuses (s : Acceptor) : Action → Option (Nat × ProtocolError)
  | .parse _ =>
      match s.found with
      | some (connId, .bad e) => some (connId, e)
      | _                     => none
  | _        => none

/-- What an action brings a connection. -/
def receives : Action → Option (Nat × Bytes)
  | .selected connId (.received bytes) => some (connId, bytes)
  | _                                  => none

/-- The shard that an action takes a request for, and the request. -/
def takes (s : Acceptor) : Action → Option (Nat × ShardRequest)
  | .takeRequest shard => (s.requests[shard]?.bind List.head?).map fun req => (shard, req)
  | _                  => none

end Acceptor

namespace Traffic

/-- The record after an action that takes the acceptor to `t`. -/
def record (config : AcceptorConfig) (s : Traffic) (a : Acceptor.Action) (t : Acceptor) :
    Traffic where
  acceptor := t
  received :=
    match Acceptor.receives a with
    | some (connId, bytes) => Function.update s.received connId (s.received connId ++ bytes)
    | none                 => s.received
  dispatched :=
    match s.acceptor.dispatches config a with
    | some (connId, d) => Function.update s.dispatched connId (s.dispatched connId ++ [d])
    | none             => s.dispatched
  ended :=
    match s.acceptor.refuses a with
    | some (connId, e) => Function.update s.ended connId (some e)
    | none             => s.ended
  takenBy :=
    match s.acceptor.takes a with
    | some (shard, req) => Function.update s.takenBy shard (s.takenBy shard ++ [req])
    | none              => s.takenBy

section

variable {config : AcceptorConfig} {s : Traffic} {a : Acceptor.Action} {connId : Nat}
  (t : Acceptor)

/-- The record of what was dispatched. -/
theorem dispatched_of_some {d : Dispatch}
    (h : s.acceptor.dispatches config a = some (connId, d)) :
    (s.record config a t).dispatched =
      Function.update s.dispatched connId (s.dispatched connId ++ [d]) := by
  unfold record
  simp only [h]

theorem dispatched_of_none (h : s.acceptor.dispatches config a = none) :
    (s.record config a t).dispatched = s.dispatched := by
  unfold record
  simp only [h]

/-- The record when a shard has taken a request. -/
theorem record_takeRequest {shard : Nat} {req : ShardRequest} {rest : List ShardRequest}
    (h : s.acceptor.requests[shard]? = some (req :: rest)) :
    s.record config (.takeRequest shard) t = { s with
      acceptor := t
      takenBy := Function.update s.takenBy shard (s.takenBy shard ++ [req]) } := by
  unfold record Acceptor.takes
  simp only [h]
  rfl

end

/-- The runs of an acceptor with the record. -/
def system (config : AcceptorConfig) (shards : Nat) : System Traffic Acceptor.Action where
  init := ⟨.start shards, fun _ => [], fun _ => [], fun _ => none, fun _ => []⟩
  step s a := (Acceptor.step config s.acceptor a).map (s.record config a)

/-- The requests that a connection has dispatched. -/
def requests (s : Traffic) (connId : Nat) : List Request :=
  (s.dispatched connId).map Dispatch.request

end Traffic

/-- The task has been through all frames of its buffer. -/
def TaskState.Waits : TaskState → Prop
  | .spawned | .flushing _ | .reading => True
  | .parsing | .replying _            => False

/-- What of the buffer is still to be parsed. A refused frame stays in the buffer until
its refusal is written. -/
def Connection.unparsed (c : Connection) : Bytes :=
  match c.task with
  | .replying consumed => c.parseBuf.drop consumed
  | _                  => c.parseBuf

/-- A task that waits has its whole buffer to parse when more arrives. -/
theorem Connection.unparsed_of_waits {c : Connection} (h : c.task.Waits) :
    c.unparsed = c.parseBuf := by
  unfold unparsed
  cases htask : c.task with
  | replying consumed =>
      rw [htask] at h
      cases h
  | _ => rfl

namespace Traffic

/-- **The record matches the buffers**: what a connection has dispatched are the first
requests of its stream, and its buffer holds the others. -/
structure Framed (config : AcceptorConfig) (s : Traffic) : Prop where
  parsed : ∀ id c, s.acceptor.connections.lookup id = some c →
    requestFraming.parseAll (s.received id) =
      (requestFraming.parseAll c.unparsed).after (s.requests id)
  waiting : ∀ id c, s.acceptor.connections.lookup id = some c → c.task.Waits →
    decodeRequest c.parseBuf = .ok none
  parsing : ∀ id c, s.acceptor.thread = .parsing id →
    s.acceptor.connections.lookup id = some c → c.task = .parsing
  known : ∀ id c, s.acceptor.connections.lookup id = some c →
    id < s.acceptor.nextConnId.value
  fresh : ∀ id, s.acceptor.nextConnId.value ≤ id → s.received id = [] ∧ s.dispatched id = []
  begun : ∀ id, ∃ rest, (requestFraming.parseAll (s.received id)).frames = s.requests id ++ rest
  ended : ∀ id e, s.ended id = some e →
    requestFraming.parseAll (s.received id) = ⟨s.requests id, .error e⟩
  routed : ∀ id, ∀ d ∈ s.dispatched id, config.routeStream d.request.streamId = some d.shard

/-- What the shards take is no matter of frames. -/
theorem Framed.took {config : AcceptorConfig} {s : Traffic} (h : s.Framed config)
    (takenBy : Nat → List ShardRequest) : ({ s with takenBy := takenBy } : Traffic).Framed config :=
  ⟨h.parsed, h.waiting, h.parsing, h.known, h.fresh, h.begun, h.ended, h.routed⟩

/-! ### Steps that leave the record alone -/

/-- The connections have the same to parse, and those that wait have not been given
anything since they were through with it. -/
structure KeepsBuffers (s t : Acceptor) : Prop where
  next : s.nextConnId.value ≤ t.nextConnId.value
  connections : ∀ id c', t.connections.lookup id = some c' →
    ∃ c, s.connections.lookup id = some c ∧ c'.unparsed = c.unparsed ∧
      (c'.task.Waits → c'.parseBuf = c.parseBuf ∧
        (c.task.Waits ∨ decodeRequest c.parseBuf = .ok none))
  parsing : ∀ id c', t.thread = .parsing id → t.connections.lookup id = some c' →
    c'.task = .parsing

/-- What keeps the buffers keeps the record right. -/
theorem Framed.keep {config : AcceptorConfig} {s : Traffic} {t : Acceptor} (h : s.Framed config)
    (hkeep : KeepsBuffers s.acceptor t) :
    ({ s with acceptor := t } : Traffic).Framed config where
  parsed id c' hlookup := by
    obtain ⟨c, hold, hunparsed, -⟩ := hkeep.connections id c' hlookup
    rw [hunparsed]
    exact h.parsed id c hold
  waiting id c' hlookup hwaits := by
    obtain ⟨c, hold, -, hbuffer⟩ := hkeep.connections id c' hlookup
    obtain ⟨hsame, hwas | hmore⟩ := hbuffer hwaits
    · rw [hsame]
      exact h.waiting id c hold hwas
    · rw [hsame, hmore]
  parsing := hkeep.parsing
  known id c' hlookup := by
    obtain ⟨c, hold, -, -⟩ := hkeep.connections id c' hlookup
    exact Nat.lt_of_lt_of_le (h.known id c hold) hkeep.next
  fresh id hid := h.fresh id (Nat.le_trans hkeep.next hid)
  begun := h.begun
  ended := h.ended
  routed := h.routed

section

variable {s t : Acceptor} {connId : Nat} {c c' : Connection}

/-- Connections that are as they were, and a thread that parses none. -/
theorem KeepsBuffers.same (hconnections : t.connections = s.connections)
    (hnext : s.nextConnId.value ≤ t.nextConnId.value)
    (hthread : ∀ id, t.thread ≠ .parsing id) : KeepsBuffers s t where
  next := hnext
  connections id c' hlookup := by
    rw [hconnections] at hlookup
    exact ⟨c', hlookup, rfl, fun hwaits => ⟨rfl, Or.inl hwaits⟩⟩
  parsing id c' hparsing := absurd hparsing (hthread id)

/-- One connection is written back. -/
theorem KeepsBuffers.put (hlookup : s.connections.lookup connId = some c)
    (hunparsed : c'.unparsed = c.unparsed)
    (hwaits : c'.task.Waits → c'.parseBuf = c.parseBuf ∧
      (c.task.Waits ∨ decodeRequest c.parseBuf = .ok none))
    {thread : Thread} (hparsing : ∀ id, thread = .parsing id → id = connId ∧ c'.task = .parsing) :
    KeepsBuffers s (s.put connId c' thread) where
  next := Nat.le_refl _
  connections id d hd := by
    rcases Acceptor.lookup_put hd with ⟨rfl, rfl⟩ | ⟨-, hold⟩
    · exact ⟨c, hlookup, hunparsed, hwaits⟩
    · exact ⟨d, hold, rfl, fun hwait => ⟨rfl, Or.inl hwait⟩⟩
  parsing id d hthread hd := by
    obtain ⟨rfl, htask⟩ := hparsing id hthread
    rcases Acceptor.lookup_put hd with ⟨-, rfl⟩ | ⟨hne, -⟩
    · exact htask
    · exact absurd rfl hne

/-- The flush loop looks at no frames. -/
theorem KeepsBuffers.flushNext (hlookup : s.connections.lookup connId = some c)
    (hc' : c'.parseBuf = c.parseBuf) (hunparsed : c.unparsed = c.parseBuf)
    (hwaits : c.task.Waits ∨ decodeRequest c.parseBuf = .ok none) (rest : List ShardResponse) :
    KeepsBuffers s (s.flushNext connId c' rest) := by
  cases rest with
  | nil =>
      show KeepsBuffers s (s.put connId
        { c' with task := .reading, respQueue := c'.respQueue.unlock } .idle)
      refine .put hlookup ?_ ?_ ?_
      · rw [hunparsed]
        exact hc'
      · exact fun _ => ⟨hc', hwaits⟩
      · intro id hthread
        cases hthread
  | cons r rest =>
      show KeepsBuffers s (s.put connId { c' with
        task := .flushing rest
        socket := c'.socket ++ [encodeResponse r.response] } .idle)
      refine .put hlookup ?_ ?_ ?_
      · rw [hunparsed]
        exact hc'
      · exact fun _ => ⟨hc', hwaits⟩
      · intro id hthread
        cases hthread

theorem KeepsBuffers.flush (hlookup : s.connections.lookup connId = some c)
    (hunparsed : c.unparsed = c.parseBuf)
    (hwaits : c.task.Waits ∨ decodeRequest c.parseBuf = .ok none) :
    KeepsBuffers s (s.flush connId c) := by
  unfold Acceptor.flush
  split
  · exact .same rfl (Nat.le_refl _) fun id hthread => by cases hthread
  · refine .flushNext hlookup ?_ hunparsed hwaits _
    rfl

/-- A connection that is closed has nothing more to parse. -/
theorem KeepsBuffers.close (s : Acceptor) (connId : Nat) : KeepsBuffers s (s.close connId) := by
  unfold Acceptor.close
  split
  · exact .same rfl (Nat.le_refl _) fun id hthread => by cases hthread
  · exact {
      next := Nat.le_refl _
      connections := fun id d hd => by
        have hd' : (s.connections.erase connId).lookup id = some d := hd
        rw [AssocMap.lookup_erase_eq] at hd'
        split at hd'
        · cases hd'
        · exact ⟨d, hd', rfl, fun hwait => ⟨rfl, Or.inl hwait⟩⟩
      parsing := fun id d hthread => by cases hthread }

/-- A response is no matter of frames. -/
theorem KeepsBuffers.dispatch (hthread : ∀ id, s.thread ≠ .parsing id) (r : ShardResponse) :
    KeepsBuffers s (s.dispatch r) := by
  unfold Acceptor.dispatch
  split
  · exact .same rfl (Nat.le_refl _) fun id hpanic => by cases hpanic
  · split
    · split
      · exact .same rfl (Nat.le_refl _) hthread
      · rename_i c hlookup
        split
        · exact .same rfl (Nat.le_refl _) fun id hpanic => by cases hpanic
        · refine .put hlookup ?_ ?_ fun id hparsing => absurd hparsing (hthread id)
          · rfl
          · exact fun hwait => ⟨rfl, Or.inl hwait⟩
    · exact .same rfl (Nat.le_refl _) hthread

end

/-! ### Steps that the record is about -/

variable {config : AcceptorConfig} {shards : Nat} {s : Traffic} {t : Acceptor}

/-- What a turn of the parse loop finds. -/
theorem found_eq {s : Acceptor} {connId : Nat} {c : Connection}
    (hthread : s.thread = .parsing connId) (hlookup : s.connections.lookup connId = some c) :
    s.found = some (connId, decodedRequest c.parseBuf) := by
  unfold Acceptor.found
  rw [hthread]
  simp only [hlookup, Option.map_some]

/-- A connection is accepted under an id that was not given before. -/
theorem Framed.accept (h : s.Framed config) (hidle : s.acceptor.thread = .idle) :
    ({ s with acceptor := s.acceptor.accept } : Traffic).Framed config := by
  unfold Acceptor.accept
  simp only
  split
  · exact h.keep (.same rfl (Nat.le_refl _) fun id hthread => by cases hthread)
  · rename_i nextConnId hnext
    -- The counter can be stepped only while its borrow is free.
    have hvalue : nextConnId.value = s.acceptor.nextConnId.value + 1 := by
      unfold RefCell.update at hnext
      obtain ⟨locked, hlock, rfl⟩ := Option.map_eq_some_iff.mp hnext
      unfold RefCell.lock at hlock
      split at hlock
      · cases hlock
        rfl
      · cases hlock
    split
    · refine h.keep (.same rfl ?_ fun id hthread => by cases hthread)
      show s.acceptor.nextConnId.value ≤ nextConnId.value
      omega
    · -- The new connection has received nothing, and its buffer is empty.
      obtain ⟨hreceived, hdispatched⟩ := h.fresh _ (Nat.le_refl _)
      have hcases : ∀ id c, (s.acceptor.connections.insert s.acceptor.nextConnId.value
            ⟨.spawned, [], .new [], []⟩).lookup id = some c →
          (id = s.acceptor.nextConnId.value ∧ c = ⟨.spawned, [], .new [], []⟩) ∨
            s.acceptor.connections.lookup id = some c := by
        intro id c hlookup
        rw [AssocMap.lookup_insert_eq] at hlookup
        split at hlookup
        · rename_i hid
          cases hlookup
          exact Or.inl ⟨hid, rfl⟩
        · exact Or.inr hlookup
      exact {
        parsed := fun id c hlookup => by
          rcases hcases id c hlookup with ⟨rfl, rfl⟩ | hold
          · show requestFraming.parseAll (s.received _) = _
            rw [hreceived]
            unfold requests
            rw [show ({ s with acceptor := _ } : Traffic).dispatched _ = [] from hdispatched]
            rfl
          · exact h.parsed id c hold
        waiting := fun id c hlookup hwaits => by
          rcases hcases id c hlookup with ⟨rfl, rfl⟩ | hold
          · rfl
          · exact h.waiting id c hold hwaits
        parsing := fun id c hthread hlookup => by
          rw [show s.acceptor.thread = .parsing id from hthread] at hidle
          cases hidle
        known := fun id c hlookup => by
          show id < nextConnId.value
          rcases hcases id c hlookup with ⟨rfl, rfl⟩ | hold
          · omega
          · have hlt := h.known id c hold
            omega
        fresh := fun id hid => by
          have hid' : nextConnId.value ≤ id := hid
          exact h.fresh id (by omega)
        begun := h.begun
        ended := h.ended
        routed := h.routed }

/-- **Bytes arrive** at the end of a buffer that holds no whole frame. -/
theorem Framed.receive (h : s.Framed config) {connId : Nat} {c : Connection} {bytes : Bytes}
    (hlookup : s.acceptor.connections.lookup connId = some c) (hwaits : c.task.Waits) :
    ({ s with
      acceptor := s.acceptor.put connId
        { c with task := .parsing, parseBuf := c.parseBuf ++ bytes } (.parsing connId)
      received := Function.update s.received connId (s.received connId ++ bytes) } :
        Traffic).Framed config := by
  have hbuffer := h.parsed connId c hlookup
  rw [Connection.unparsed_of_waits hwaits] at hbuffer
  -- The buffer is where parsing stopped, so what is appended continues it.
  have hgrown : requestFraming.parseAll (s.received connId ++ bytes) =
      (requestFraming.parseAll (c.parseBuf ++ bytes)).after (s.requests connId) := by
    rw [Framing.parseAll_append, hbuffer, Framing.feed_after, ← Framing.parseAll_append]
  exact {
    parsed := fun id c' hc' => by
      rcases Acceptor.lookup_put hc' with ⟨rfl, rfl⟩ | ⟨hid, hold⟩
      · show requestFraming.parseAll (Function.update s.received id _ id) = _
        rw [Function.update_self]
        exact hgrown
      · show requestFraming.parseAll (Function.update s.received connId _ id) = _
        rw [Function.update_of_ne hid]
        exact h.parsed id c' hold
    waiting := fun id c' hc' hwait => by
      rcases Acceptor.lookup_put hc' with ⟨rfl, rfl⟩ | ⟨hid, hold⟩
      · cases hwait
      · exact h.waiting id c' hold hwait
    parsing := fun id c' hthread hc' => by
      cases hthread
      rcases Acceptor.lookup_put hc' with ⟨-, rfl⟩ | ⟨hid, -⟩
      · rfl
      · exact absurd rfl hid
    known := fun id c' hc' => by
      rcases Acceptor.lookup_put hc' with ⟨rfl, rfl⟩ | ⟨hid, hold⟩
      · exact h.known id c hlookup
      · exact h.known id c' hold
    fresh := fun id hid => by
      have hne : id ≠ connId := by
        have hlt := h.known connId c hlookup
        have hid' : s.acceptor.nextConnId.value ≤ id := hid
        omega
      show Function.update s.received connId _ id = [] ∧ _
      rw [Function.update_of_ne hne]
      exact h.fresh id hid
    begun := fun id => by
      show ∃ rest, (requestFraming.parseAll (Function.update s.received connId _ id)).frames = _
      by_cases hid : id = connId
      · subst hid
        rw [Function.update_self, hgrown]
        exact ⟨_, rfl⟩
      · rw [Function.update_of_ne hid]
        exact h.begun id
    ended := fun id e he => by
      show requestFraming.parseAll (Function.update s.received connId _ id) = _
      by_cases hid : id = connId
      · -- A stream that was refused stays refused.
        subst hid
        rw [Function.update_self, Framing.parseAll_append, h.ended id e he]
        rfl
      · rw [Function.update_of_ne hid]
        exact h.ended id e he
    routed := h.routed }

/-- **A request is dispatched**, to its shard or to nobody, and its frame leaves what is
still to be parsed. -/
theorem Framed.dispatched (h : s.Framed config) {connId consumed shard : Nat} {c : Connection}
    {req : Request} (c' : Connection) (thread : Thread) (channels : List (List ShardRequest))
    (taken : Bool) (hthread : s.acceptor.thread = .parsing connId)
    (hlookup : s.acceptor.connections.lookup connId = some c)
    (hdecode : decodeRequest c.parseBuf = .ok (some (req, consumed)))
    (hroute : config.routeStream req.streamId = some shard)
    (hunparsed : c'.unparsed = c.parseBuf.drop consumed) (hbusy : ¬ c'.task.Waits)
    (hthread' : ∀ id, thread = .parsing id → id = connId ∧ c'.task = .parsing) :
    ({ s with
      acceptor := { s.acceptor with requests := channels }.put connId c' thread
      dispatched := Function.update s.dispatched connId
        (s.dispatched connId ++ [⟨req, shard, taken⟩]) } : Traffic).Framed config := by
  have htask := h.parsing connId c hthread hlookup
  -- The decoder takes one frame off the buffer, so the whole stream parses to one request more.
  have hbuffer : requestFraming.parseAll (s.received connId) =
      (requestFraming.parseAll (c.parseBuf.drop consumed)).after (s.requests connId ++ [req]) := by
    have hparsed := h.parsed connId c hlookup
    have hbuf : c.unparsed = c.parseBuf := by
      unfold Connection.unparsed
      rw [htask]
    have hframe : requestFraming.decode c.parseBuf = .frame req consumed :=
      decodedRequest_frame.mpr hdecode
    rw [hparsed, hbuf, Framing.parseAll_frame hframe, Framing.after_after]
  have hrequests : ∀ id, (Function.update s.dispatched connId
        (s.dispatched connId ++ [⟨req, shard, taken⟩]) id).map Dispatch.request =
      if id = connId then s.requests connId ++ [req] else s.requests id := by
    intro id
    by_cases hid : id = connId
    · subst hid
      rw [Function.update_self, if_pos rfl, List.map_append]
      rfl
    · rw [Function.update_of_ne hid, if_neg hid]
      rfl
  exact {
    parsed := fun id d hd => by
      unfold requests
      rw [hrequests]
      rcases Acceptor.lookup_put hd with ⟨rfl, rfl⟩ | ⟨hid, hold⟩
      · rw [if_pos rfl, hunparsed]
        exact hbuffer
      · rw [if_neg hid]
        exact h.parsed id d hold
    waiting := fun id d hd hwaits => by
      rcases Acceptor.lookup_put hd with ⟨rfl, rfl⟩ | ⟨hid, hold⟩
      · exact absurd hwaits hbusy
      · exact h.waiting id d hold hwaits
    parsing := fun id d hid hd => by
      obtain ⟨rfl, htask'⟩ := hthread' id hid
      rcases Acceptor.lookup_put hd with ⟨-, rfl⟩ | ⟨hne, -⟩
      · exact htask'
      · exact absurd rfl hne
    known := fun id d hd => by
      rcases Acceptor.lookup_put hd with ⟨rfl, rfl⟩ | ⟨hid, hold⟩
      · exact h.known id c hlookup
      · exact h.known id d hold
    fresh := fun id hid => by
      have hne : id ≠ connId := by
        have hlt := h.known connId c hlookup
        have hid' : s.acceptor.nextConnId.value ≤ id := hid
        omega
      show _ ∧ Function.update s.dispatched connId _ id = []
      rw [Function.update_of_ne hne]
      exact h.fresh id hid
    begun := fun id => by
      unfold requests
      rw [hrequests]
      by_cases hid : id = connId
      · subst hid
        rw [if_pos rfl]
        exact ⟨_, congrArg Parsed.frames hbuffer⟩
      · rw [if_neg hid]
        exact h.begun id
    ended := fun id e he => by
      unfold requests
      rw [hrequests]
      by_cases hid : id = connId
      · -- A refused stream has no further request.
        subst hid
        have hrefused := h.ended id e he
        rw [hbuffer] at hrefused
        have hlength := congrArg (fun p => p.frames.length) hrefused
        simp [Parsed.after] at hlength
      · rw [if_neg hid]
        exact h.ended id e he
    routed := fun id d hd => by
      have hd' : d ∈ Function.update s.dispatched connId
        (s.dispatched connId ++ [⟨req, shard, taken⟩]) id := hd
      by_cases hid : id = connId
      · subst hid
        rw [Function.update_self] at hd'
        rcases List.mem_append.mp hd' with hold | hnew
        · exact h.routed id d hold
        · rw [List.mem_singleton.mp hnew]
          exact hroute
      · rw [Function.update_of_ne hid] at hd'
        exact h.routed id d hd' }

/-- **A stream is refused**, and its connection closed. -/
theorem Framed.refuse (h : s.Framed config) {connId : Nat} {c : Connection} {e : ProtocolError}
    (hthread : s.acceptor.thread = .parsing connId)
    (hlookup : s.acceptor.connections.lookup connId = some c)
    (hdecode : decodeRequest c.parseBuf = .error e) :
    ({ s with
      acceptor := s.acceptor.close connId
      ended := Function.update s.ended connId (some e) } : Traffic).Framed config := by
  have hclosed := h.keep (.close s.acceptor connId)
  refine ⟨hclosed.parsed, hclosed.waiting, hclosed.parsing, hclosed.known, hclosed.fresh,
    hclosed.begun, fun id e' he' => ?_, hclosed.routed⟩
  have he : Function.update s.ended connId (some e) id = some e' := he'
  by_cases hid : id = connId
  · subst hid
    rw [Function.update_self, Option.some.injEq] at he
    subst he
    have hbuf : c.unparsed = c.parseBuf := by
      unfold Connection.unparsed
      rw [h.parsing id c hthread hlookup]
    have hbad : requestFraming.decode c.parseBuf = .bad e := decodedRequest_bad.mpr hdecode
    have hparsed := h.parsed id c hlookup
    rw [hbuf, Framing.parseAll_bad hbad] at hparsed
    rw [show requestFraming.parseAll (s.received id) = _ from hparsed]
    simp [Parsed.after, requests]
  · rw [Function.update_of_ne hid] at he
    exact h.ended id e' he

/-! ### Every run -/

/-- **One step** keeps the record right. -/
theorem Framed.step (h : s.Framed config) {a : Acceptor.Action}
    (hstep : Acceptor.step config s.acceptor a = some t) : (s.record config a t).Framed config := by
  -- A path that brings, dispatches and refuses nothing leaves the record alone.
  have hquiet : Acceptor.receives a = none → s.acceptor.dispatches config a = none →
      s.acceptor.refuses a = none → KeepsBuffers s.acceptor t →
        (s.record config a t).Framed config := by
    intro hreceives hdispatches hrefuses hkeep
    unfold record
    simp only [hreceives, hdispatches, hrefuses]
    exact (h.keep hkeep).took _
  have hunparsed : ∀ c : Connection, c.task = .parsing → c.unparsed = c.parseBuf := by
    intro c htask
    unfold Connection.unparsed
    rw [htask]
  have hwaiting : ∀ {c : Connection}, c.task.Waits → c.unparsed = c.parseBuf :=
    fun hwaits => Connection.unparsed_of_waits hwaits
  cases Acceptor.ran_of_step hstep with
  | accepted hidle => exact h.accept hidle
  | @spawned connId c _ hlookup htask =>
      have hwaits : c.task.Waits := by
        rw [htask]
        trivial
      exact hquiet rfl rfl rfl (.flush hlookup (hwaiting hwaits) (Or.inl hwaits))
  | @flushed connId c rest _ hlookup htask =>
      have hwaits : c.task.Waits := by
        rw [htask]
        trivial
      exact hquiet rfl rfl rfl (.flushNext hlookup rfl (hwaiting hwaits) (Or.inl hwaits) _)
  | @replied connId consumed c _ hlookup htask =>
      refine hquiet rfl rfl rfl (.put hlookup ?_ (fun hwaits => by cases hwaits) fun id hid => ?_)
      · unfold Connection.unparsed
        rw [htask]
      · cases hid
        exact ⟨rfl, rfl⟩
  | writeFailed _ _ => exact hquiet rfl rfl rfl (.close _ _)
  | readEnded _ _ _ hresult =>
      rcases hresult with rfl | rfl
      · exact hquiet rfl rfl rfl (.close _ _)
      · exact hquiet rfl rfl rfl (.close _ _)
  | received _ hlookup htask => exact h.receive hlookup (by rw [htask]; trivial)
  | @slept connId c _ hlookup htask =>
      have hwaits : c.task.Waits := by
        rw [htask]
        trivial
      exact hquiet rfl rfl rfl (.flush hlookup (hwaiting hwaits) (Or.inl hwaits))
  | malformed hthread hlookup hdecode =>
      have hrefused := h.refuse hthread hlookup hdecode
      unfold record Acceptor.receives Acceptor.dispatches Acceptor.refuses
      simp only [found_eq hthread hlookup, decodedRequest_bad.mpr hdecode]
      exact hrefused
  | parsed hthread hlookup hdecode =>
      refine hquiet rfl ?_ ?_ (.flush hlookup
        (hunparsed _ (h.parsing _ _ hthread hlookup)) (Or.inr hdecode))
      · unfold Acceptor.dispatches
        simp only [found_eq hthread hlookup, decodedRequest_more.mpr hdecode]
      · unfold Acceptor.refuses
        simp only [found_eq hthread hlookup, decodedRequest_more.mpr hdecode]
  | noRouter hthread hlookup hdecode hroute =>
      refine hquiet rfl ?_ ?_ (.same rfl (Nat.le_refl _) fun id hid => by cases hid)
      · unfold Acceptor.dispatches
        simp only [found_eq hthread hlookup, decodedRequest_frame.mpr hdecode, hroute,
          Option.bind_none]
      · unfold Acceptor.refuses
        simp only [found_eq hthread hlookup, decodedRequest_frame.mpr hdecode]
  | noChannel hthread hlookup hdecode hroute hchannel =>
      refine hquiet rfl ?_ ?_ (.same rfl (Nat.le_refl _) fun id hid => by cases hid)
      · unfold Acceptor.dispatches
        simp only [found_eq hthread hlookup, decodedRequest_frame.mpr hdecode, hroute, hchannel,
          Option.bind_some, Option.map_none]
      · unfold Acceptor.refuses
        simp only [found_eq hthread hlookup, decodedRequest_frame.mpr hdecode]
  | @sent connId consumed shard c connected req channel hthread hlookup hdecode hroute hchannel
      hroom =>
      have htask := h.parsing connId c hthread hlookup
      have hbusy : ¬ c.task.Waits := by
        rw [htask]
        exact not_false
      have hsent := h.dispatched { c with parseBuf := c.parseBuf.drop consumed } (.parsing connId)
        (s.acceptor.requests.set shard (channel ++ [ShardRequest.mk connId req]))
        (connected && decide (channel.length < config.channelCapacity)) hthread hlookup hdecode
        hroute (hunparsed _ htask) hbusy fun id hid => by cases hid; exact ⟨rfl, htask⟩
      unfold record Acceptor.receives Acceptor.dispatches Acceptor.refuses
      simp only [found_eq hthread hlookup, decodedRequest_frame.mpr hdecode, hroute, hchannel,
        Option.bind_some, Option.map_some]
      exact hsent
  | @refused connId consumed shard c connected req channel hthread hlookup hdecode hroute hchannel
      hroom =>
      have hrefused := h.dispatched { c with
          task := .replying consumed
          socket := c.socket ++ [encodeResponse Acceptor.shardUnavailable] } .idle
        s.acceptor.requests (connected && decide (channel.length < config.channelCapacity)) hthread
        hlookup hdecode hroute rfl not_false fun id hid => by cases hid
      unfold record Acceptor.receives Acceptor.dispatches Acceptor.refuses
      simp only [found_eq hthread hlookup, decodedRequest_frame.mpr hdecode, hroute, hchannel,
        Option.bind_some, Option.map_some]
      exact hrefused
  | woken _ =>
      exact hquiet rfl rfl rfl (.same rfl (Nat.le_refl _) fun id hid => by cases hid)
  | @drainedAll shard anyWork _ _ =>
      refine hquiet rfl rfl rfl (.same rfl (Nat.le_refl _) fun id hid => ?_)
      cases anyWork <;> cases hid
  | drainedShard _ _ =>
      exact hquiet rfl rfl rfl (.same rfl (Nat.le_refl _) fun id hid => by cases hid)
  | @drained shard anyWork r rest _ _ =>
      have hdelivered : KeepsBuffers { s.acceptor with
          responses := s.acceptor.responses.set shard rest
          thread := .draining shard true } _ := .dispatch (fun id hid => by cases hid) r
      exact hquiet rfl rfl rfl ⟨hdelivered.next, hdelivered.connections, hdelivered.parsing⟩
  | requestTaken _ =>
      exact hquiet rfl rfl rfl ⟨Nat.le_refl _,
        fun id c hc => ⟨c, hc, rfl, fun hwait => ⟨rfl, Or.inl hwait⟩⟩, h.parsing⟩
  | responseSent _ _ =>
      exact hquiet rfl rfl rfl ⟨Nat.le_refl _,
        fun id c hc => ⟨c, hc, rfl, fun hwait => ⟨rfl, Or.inl hwait⟩⟩, h.parsing⟩

/-- The record is right in every run. -/
theorem framed_of_reachable (h : (system config shards).Reachable System.anyStep s) :
    s.Framed config := by
  refine h.invariant ?_ fun s a t _ hframed _ hstep => ?_
  · exact {
      parsed := fun id c hlookup => by cases hlookup
      waiting := fun id c hlookup => by cases hlookup
      parsing := fun id c hthread => by cases hthread
      known := fun id c hlookup => by cases hlookup
      fresh := fun id _ => ⟨rfl, rfl⟩
      begun := fun id => ⟨_, rfl⟩
      ended := fun id e he => by cases he
      routed := fun id d hd => by cases hd }
  · obtain ⟨t', ht', rfl⟩ := Option.map_eq_some_iff.mp hstep
    exact hframed.step ht'

/-- **What a client has sent is what is dispatched.** A connection that has received a part
of the images of some requests has dispatched the first of these requests, in order. -/
theorem requests_of_encoded (h : (system config shards).Reachable System.anyStep s)
    {connId : Nat} {reqs : List Request} (hfits : ∀ req ∈ reqs, req.Fits)
    (hreceived : s.received connId <+: (reqs.map encodeRequest).flatten) :
    s.requests connId <+: reqs := by
  obtain ⟨more, hmore⟩ := hreceived
  obtain ⟨rest, hbegun⟩ := (framed_of_reachable h).begun connId
  have hframes := requestFraming.frames_append (s.received connId) more
  rw [hmore, parseAll_encodeRequest hfits, hbegun] at hframes
  exact (List.prefix_append ..).trans hframes

end Traffic

end WalServer.Net
