import WalServer.Net.Steps

/-!
# `WalServer.Net.Borrows`: who borrows the acceptor's cells

A task that is suspended keeps its borrows. The only borrow that an await crosses
is the one of a response queue in the flush loop of its connection: `Orderly` says
that a queue is locked exactly while its connection waits in the write of a flush,
and that the map and the counter are free.

The drainer borrows the queue of the connection that its next response is for
(`recipient`). So a borrow fails exactly when that connection is flushing. Runs in
which this does not happen (`Calm`) never panic over a borrow, and the first step
that is not calm does (`borrows_iff_calm`).
-/

set_option autoImplicit false

namespace WalServer.Net

open WalServer.Lib WalServer.Protocol

/-- The task waits in the write of a flush. -/
def TaskState.isFlushing : TaskState → Bool
  | .flushing _ => true
  | _           => false

/-- The queue is locked while the connection is flushing, and free otherwise. -/
structure Connection.BorrowsMatch (c : Connection) : Prop where
  locked : c.task.isFlushing = true → c.respQueue.Locked
  free : c.task.isFlushing = false → c.respQueue.Free

namespace Acceptor

/-- The connection that the drainer's next response is for. -/
def recipient (s : Acceptor) : Option Connection :=
  match s.thread with
  | .draining shard _ =>
      (s.responses[shard]?.bind List.head?).bind fun r => s.connections.lookup r.connectionId
  | _                 => none

/-- The drainer does not take a response for a connection that is flushing. -/
def Calm (s : Acceptor) : Action → Prop
  | .drain => ∀ c ∈ s.recipient, c.task.isFlushing = false
  | _      => True

instance (s : Acceptor) (a : Action) : Decidable (s.Calm a) := by
  cases a <;> unfold Calm <;> infer_instance

/-- **Borrows match the tasks.** -/
structure Orderly (s : Acceptor) : Prop where
  counter : s.nextConnId.Free
  map : s.responseMap.Free
  queues : ∀ id c, s.connections.lookup id = some c → c.BorrowsMatch
  mapped : ∀ id, id ∈ s.responseMap.value ↔ (s.connections.lookup id).isSome = true
  parsing : ∀ id c, s.thread = .parsing id → s.connections.lookup id = some c →
    c.task.isFlushing = false
  running : s.thread ≠ .panicked .alreadyBorrowed

variable {s : Acceptor} {connId : Nat} {c : Connection}

/-! ### One task -/

/-- Another thread than before, or another panic, that is not about a borrow. -/
theorem Orderly.withThread (h : s.Orderly) {thread : Thread}
    (hparsing : ∀ id, thread ≠ .parsing id) (hrunning : thread ≠ .panicked .alreadyBorrowed) :
    ({ s with thread := thread } : Acceptor).Orderly where
  counter := h.counter
  map := h.map
  queues := h.queues
  mapped := h.mapped
  parsing id _ hthread := absurd hthread (hparsing id)
  running := hrunning

/-- The channels are no cells. -/
theorem Orderly.withChannels (h : s.Orderly) (requests : List (List ShardRequest))
    (responses : List (List ShardResponse)) :
    ({ s with requests := requests, responses := responses } : Acceptor).Orderly :=
  ⟨h.counter, h.map, h.queues, h.mapped, h.parsing, h.running⟩

/-- Writing back a connection that is known, with borrows that match its task. -/
theorem Orderly.put (h : s.Orderly) (hknown : (s.connections.lookup connId).isSome = true)
    (hmatch : c.BorrowsMatch) {thread : Thread}
    (hparsing : ∀ id, thread = .parsing id → id = connId ∧ c.task.isFlushing = false)
    (hrunning : thread ≠ .panicked .alreadyBorrowed) : (s.put connId c thread).Orderly where
  counter := h.counter
  map := h.map
  queues id c' hlookup := by
    have hlookup' : (s.connections.insert connId c).lookup id = some c' := hlookup
    rw [AssocMap.lookup_insert_eq] at hlookup'
    split at hlookup'
    · cases hlookup'
      exact hmatch
    · exact h.queues id c' hlookup'
  -- The connection was known before, so the two maps still have the same keys.
  mapped id := by
    show id ∈ s.responseMap.value ↔ ((s.connections.insert connId c).lookup id).isSome = true
    rw [h.mapped, AssocMap.lookup_insert_eq]
    split
    · rename_i hid
      rw [hid, hknown]
      simp
    · rfl
  parsing id c' hthread hlookup := by
    obtain ⟨rfl, hidle⟩ := hparsing id hthread
    have hlookup' : (s.connections.insert id c).lookup id = some c' := hlookup
    rw [AssocMap.lookup_insert_eq, if_pos rfl] at hlookup'
    cases hlookup'
    exact hidle
  running := hrunning

/-- A task that suspends gives the thread up. -/
theorem Orderly.suspend (h : s.Orderly) (hknown : (s.connections.lookup connId).isSome = true)
    (hmatch : c.BorrowsMatch) : (s.put connId c .idle).Orderly :=
  h.put hknown hmatch (fun _ hthread => by cases hthread) fun hthread => by cases hthread

/-- A task that goes on with its frames keeps the thread. -/
theorem Orderly.goOn (h : s.Orderly) (hknown : (s.connections.lookup connId).isSome = true)
    (hidle : c.task.isFlushing = false) (hfree : c.respQueue.Free) :
    (s.put connId c (.parsing connId)).Orderly := by
  refine h.put hknown ⟨fun hflushing => ?_, fun _ => hfree⟩ (fun id hthread => ?_)
    fun hthread => by cases hthread
  · rw [hidle] at hflushing
    cases hflushing
  · cases hthread
    exact ⟨rfl, hidle⟩

/-- A task that ends leaves the map. -/
theorem Orderly.close (h : s.Orderly) (connId : Nat) : (s.close connId).Orderly := by
  unfold Acceptor.close
  rw [RefCell.update_of_free h.map]
  exact {
    counter := h.counter
    map := RefCell.free_new _
    queues := fun id c hlookup => by
      have hlookup' : (s.connections.erase connId).lookup id = some c := hlookup
      rw [AssocMap.lookup_erase_eq] at hlookup'
      split at hlookup'
      · cases hlookup'
      · exact h.queues id c hlookup'
    mapped := fun id => by
      show id ∈ s.responseMap.value.filter (· ≠ connId) ↔
        ((s.connections.erase connId).lookup id).isSome = true
      rw [List.mem_filter, h.mapped, AssocMap.lookup_erase_eq]
      by_cases hid : id = connId
      · simp [hid]
      · simp [hid]
    parsing := fun id c hthread => by cases hthread
    running := fun hthread => by cases hthread }

/-- The flush loop goes on under its lock. -/
theorem Orderly.flushNext (h : s.Orderly) (hknown : (s.connections.lookup connId).isSome = true)
    (hlocked : c.respQueue.Locked) (rest : List ShardResponse) :
    (s.flushNext connId c rest).Orderly := by
  cases rest with
  | nil =>
      -- The guard is dropped.
      exact h.suspend hknown ⟨(fun hflushing => by cases hflushing), fun _ => RefCell.free_unlock _⟩
  | cons r rest =>
      exact h.suspend hknown ⟨fun _ => hlocked, fun hidle => by cases hidle⟩

/-- **A flush** of a free queue locks it. -/
theorem Orderly.flush (h : s.Orderly) (hknown : (s.connections.lookup connId).isSome = true)
    (hfree : c.respQueue.Free) : (s.flush connId c).Orderly := by
  unfold Acceptor.flush
  rw [RefCell.lock_of_free hfree]
  refine h.flushNext hknown ?_ _
  rfl

/-- The accept loop adds a connection whose queue is new. -/
theorem Orderly.accept (h : s.Orderly) (hidle : s.thread = .idle) : s.accept.Orderly := by
  unfold Acceptor.accept
  simp only [RefCell.update_of_free h.counter, RefCell.update_of_free h.map]
  exact {
    counter := RefCell.free_new _
    map := RefCell.free_new _
    queues := fun id c hlookup => by
      have hlookup' : (s.connections.insert s.nextConnId.value
        ⟨.spawned, [], .new [], []⟩).lookup id = some c := hlookup
      rw [AssocMap.lookup_insert_eq] at hlookup'
      split at hlookup'
      · cases hlookup'
        exact ⟨(fun hflushing => by cases hflushing), fun _ => RefCell.free_new _⟩
      · exact h.queues id c hlookup'
    mapped := fun id => by
      show id ∈ s.nextConnId.value :: s.responseMap.value ↔
        ((s.connections.insert s.nextConnId.value ⟨.spawned, [], .new [], []⟩).lookup id).isSome =
          true
      rw [List.mem_cons, h.mapped, AssocMap.lookup_insert_eq]
      by_cases hid : id = s.nextConnId.value
      · simp [hid]
      · simp [hid]
    parsing := fun id c hthread => by
      rw [show s.thread = .parsing id from hthread] at hidle
      cases hidle
    running := h.running }

/-! ### The drainer -/

/-- A response goes to a queue that is free, or to no queue. -/
theorem Orderly.dispatch (h : s.Orderly) (hparsing : ∀ id, s.thread ≠ .parsing id)
    {r : ShardResponse}
    (hcalm : ∀ c, s.connections.lookup r.connectionId = some c → c.task.isFlushing = false) :
    (s.dispatch r).Orderly := by
  unfold Acceptor.dispatch
  rw [RefCell.peek_of_free h.map]
  simp only
  split
  · cases hlookup : s.connections.lookup r.connectionId with
    | none => exact h
    | some c =>
        have hidle := hcalm c hlookup
        have hfree := (h.queues r.connectionId c hlookup).free hidle
        simp only [RefCell.update_of_free hfree]
        refine h.put (by rw [hlookup]; rfl) ⟨fun hflushing => ?_, fun _ => RefCell.free_new _⟩
          (fun id hthread => absurd hthread (hparsing id)) h.running
        rw [show c.task.isFlushing = true from hflushing] at hidle
        cases hidle
  · exact h

/-- **A response for a connection that is flushing** ends the thread. -/
theorem Orderly.dispatch_flushing (h : s.Orderly) {r : ShardResponse}
    (hlookup : s.connections.lookup r.connectionId = some c)
    (hflushing : c.task.isFlushing = true) :
    (s.dispatch r).thread = .panicked .alreadyBorrowed := by
  have hmapped : r.connectionId ∈ s.responseMap.value := by
    rw [h.mapped, hlookup]
    rfl
  have hlocked := (h.queues r.connectionId c hlookup).locked hflushing
  unfold Acceptor.dispatch
  rw [RefCell.peek_of_free h.map]
  simp only [if_pos hmapped, hlookup, RefCell.update_of_locked hlocked]
  rfl

/-- The drainer's next response, and what is left of its channel. -/
theorem recipient_eq {shard : Nat} {anyWork : Bool} (hthread : s.thread = .draining shard anyWork)
    {r : ShardResponse} {rest : List ShardResponse}
    (hhead : s.responses[shard]? = some (r :: rest)) :
    s.recipient = s.connections.lookup r.connectionId := by
  unfold recipient
  rw [hthread]
  simp only [hhead, Option.bind_some, List.head?_cons]

/-- **The drainer with a response** keeps the borrows in order if it is calm, and
panics over a borrow if it is not. -/
theorem Orderly.drained (h : s.Orderly) {shard : Nat} {anyWork : Bool} {r : ShardResponse}
    {rest : List ShardResponse} (hthread : s.thread = .draining shard anyWork)
    (hchannel : s.responses[shard]? = some (r :: rest)) :
    let taken : Acceptor := { s with
      responses := s.responses.set shard rest
      thread := .draining shard true }
    (s.Calm .drain → (taken.dispatch r).Orderly) ∧
      (¬ s.Calm .drain → (taken.dispatch r).thread = .panicked .alreadyBorrowed) := by
  intro taken
  have hrecipient := recipient_eq hthread hchannel
  -- Taking the response out of its channel is no matter of borrows.
  have htaken : taken.Orderly :=
    (h.withChannels s.requests (s.responses.set shard rest)).withThread
      (fun id hid => by cases hid) fun hpanic => by cases hpanic
  constructor
  · intro hcalm
    refine htaken.dispatch (fun id hid => by cases hid) fun c hlookup => ?_
    exact hcalm c (by rw [hrecipient]; exact hlookup)
  · intro hnot
    unfold Calm at hnot
    rw [hrecipient] at hnot
    push Not at hnot
    obtain ⟨c, hlookup, hflushing⟩ := hnot
    exact htaken.dispatch_flushing hlookup (by simpa using hflushing)

/-! ### Every run -/

/-- **One step**: a calm one keeps the borrows in order, any other panics over one. -/
theorem Orderly.step (h : s.Orderly) (config : AcceptorConfig) {a : Action} {t : Acceptor}
    (hstep : Acceptor.step config s a = some t) :
    (s.Calm a → t.Orderly) ∧ (¬ s.Calm a → t.thread = .panicked .alreadyBorrowed) := by
  have hknown : ∀ {id : Nat} {c : Connection}, s.connections.lookup id = some c →
      (s.connections.lookup id).isSome = true := by
    intro id c hlookup
    rw [hlookup]
    rfl
  have hfree : ∀ {id : Nat} {c : Connection}, s.connections.lookup id = some c →
      c.task.isFlushing = false → c.respQueue.Free :=
    fun hlookup => (h.queues _ _ hlookup).free
  -- Only the drainer can fail to be calm.
  have hcalm : t.Orderly → s.Calm a →
      (s.Calm a → t.Orderly) ∧ (¬ s.Calm a → t.thread = .panicked .alreadyBorrowed) :=
    fun hkeeps hquiet => ⟨fun _ => hkeeps, fun hnot => absurd hquiet hnot⟩
  have hnobody : s.recipient = none → s.Calm .drain := by
    intro hnone c hc
    rw [hnone] at hc
    cases hc
  cases ran_of_step hstep with
  | accepted hidle => exact hcalm (h.accept hidle) trivial
  | spawned _ hlookup htask =>
      exact hcalm (h.flush (hknown hlookup) (hfree hlookup (by rw [htask]; rfl))) trivial
  | flushed _ hlookup htask =>
      exact hcalm (h.flushNext (hknown hlookup)
        ((h.queues _ _ hlookup).locked (by rw [htask]; rfl)) _) trivial
  | replied _ hlookup htask =>
      have hunlocked := hfree hlookup (by rw [htask]; rfl)
      exact hcalm (h.goOn (hknown hlookup) rfl hunlocked) trivial
  | writeFailed _ _ => exact hcalm (h.close _) trivial
  | readEnded _ _ _ _ => exact hcalm (h.close _) trivial
  | received _ hlookup htask =>
      have hunlocked := hfree hlookup (by rw [htask]; rfl)
      exact hcalm (h.goOn (hknown hlookup) rfl hunlocked) trivial
  | slept _ hlookup htask =>
      exact hcalm (h.flush (hknown hlookup) (hfree hlookup (by rw [htask]; rfl))) trivial
  | malformed _ _ _ => exact hcalm (h.close _) trivial
  | parsed hthread hlookup _ =>
      have hidle := h.parsing _ _ hthread hlookup
      exact hcalm (h.flush (hknown hlookup) (hfree hlookup hidle)) trivial
  | noRouter _ _ _ _ =>
      exact hcalm (h.withThread (fun id hthread => by cases hthread)
        fun hthread => by cases hthread) trivial
  | noChannel _ _ _ _ _ =>
      exact hcalm (h.withThread (fun id hthread => by cases hthread)
        fun hthread => by cases hthread) trivial
  | sent hthread hlookup _ _ _ _ =>
      -- The request is sent, and the loop goes on.
      have hidle := h.parsing _ _ hthread hlookup
      have hunlocked := hfree hlookup hidle
      exact hcalm ((h.withChannels _ s.responses).goOn (hknown hlookup) hidle hunlocked) trivial
  | refused hthread hlookup _ _ _ _ =>
      -- The refusal is written without a borrow.
      have hunlocked := hfree hlookup (h.parsing _ _ hthread hlookup)
      exact hcalm (h.suspend (hknown hlookup)
        ⟨(fun hflushing => by cases hflushing), fun _ => hunlocked⟩) trivial
  | woken _ =>
      exact hcalm (h.withThread (fun id hthread => by cases hthread)
        fun hthread => by cases hthread) trivial
  | drainedAll hthread hchannel =>
      -- Behind the last shard there is nobody to deliver to.
      refine hcalm (h.withThread (fun id hid => ?_) fun hpanic => ?_) (hnobody ?_)
      · split at hid <;> cases hid
      · split at hpanic <;> cases hpanic
      · unfold recipient
        rw [hthread]
        simp [hchannel]
  | drainedShard hthread hchannel =>
      refine hcalm (h.withThread (fun id hid => by cases hid) fun hpanic => by cases hpanic)
        (hnobody ?_)
      unfold recipient
      rw [hthread]
      simp [hchannel]
  | drained hthread hchannel => exact h.drained hthread hchannel
  | requestTaken _ => exact hcalm (h.withChannels _ s.responses) trivial
  | responseSent _ _ => exact hcalm (h.withChannels s.requests _) trivial

/-- **Calm runs keep the borrows in order.** -/
theorem orderly_of_reachable {config : AcceptorConfig} {shards : Nat}
    (h : (system config shards).Reachable Calm s) : s.Orderly := by
  refine h.invariant ?_ fun s a t _ horderly hcalm hstep => (horderly.step config hstep).1 hcalm
  exact {
    counter := RefCell.free_new _
    map := RefCell.free_new _
    queues := fun id c hlookup => by cases hlookup
    mapped := fun id => by simp [system, start]
    parsing := fun id c hthread => by cases hthread
    running := fun hthread => by cases hthread }

/-- **As long as no response is taken for a connection that is flushing**, the
acceptor's thread does not panic over a borrow; the next step does exactly if it
takes one. -/
theorem borrows_iff_calm {config : AcceptorConfig} {shards : Nat}
    (hreach : (system config shards).Reachable Calm s) :
    s.thread ≠ .panicked .alreadyBorrowed ∧
      ∀ a t, (system config shards).step s a = some t →
        (t.thread = .panicked .alreadyBorrowed ↔ ¬ s.Calm a) := by
  have horderly := orderly_of_reachable hreach
  refine ⟨horderly.running, fun a t hstep => ?_⟩
  obtain ⟨hkeeps, hpanics⟩ := horderly.step config hstep
  exact ⟨fun hpanic hcalm => (hkeeps hcalm).running hpanic, hpanics⟩

/-- One shard, and a router that sends every stream to it. -/
def oneShard : AcceptorConfig := ⟨1, 8, fun _ => 0⟩

/-- A client asks for the status of a stream twice at once, and the shard has
answered the first request; the connection writes that answer. -/
def firstAnswerWritten : List Action :=
  let request := encodeRequest ⟨.getStatus, 7, 0, 0, []⟩
  let answer : ShardResponse := ⟨0, ⟨.ok, 0, 0, []⟩⟩
  [.accept, .spawn 0, .selected 0 (.received (request ++ request)), .parse true, .parse true,
    .parse true, .takeRequest 0, .respond 0 answer, .wakeDrainer, .drain, .drain, .drain, .drain,
    .drain, .selected 0 .slept, .takeRequest 0, .respond 0 answer]

/-- The client reads the first answer before the second one is taken. -/
def answersWritten : List Action :=
  firstAnswerWritten ++ [.written 0 true, .wakeDrainer, .drain, .drain, .drain, .drain, .drain,
    .selected 0 .slept, .written 0 true]

/-- A connection whose client has been written two answers. -/
def TwoAnswers (s : Acceptor) : Prop :=
  s.thread = .idle ∧ (s.connections.lookup 0).map (fun c => c.socket.length) = some 2

instance : DecidablePred TwoAnswers := fun s => by
  unfold TwoAnswers
  infer_instance

/-- A calm run in which a client gets two answers. -/
theorem borrows_answersWritten :
    ∃ s, (system oneShard 1).Reachable Calm s ∧ s.TwoAnswers ∧
      s.thread ≠ .panicked .alreadyBorrowed := by
  obtain ⟨s, hreach, hanswers⟩ := System.exists_reachable_of_execute (system oneShard 1) Calm
    answersWritten TwoAnswers (by decide +kernel)
  exact ⟨s, hreach, hanswers, (borrows_iff_calm hreach).1⟩

/-- The client is slow to read the first answer, and the second one is taken. -/
def secondAnswerTaken : List Action := firstAnswerWritten ++ [.wakeDrainer, .drain]

/-- **Two pipelined requests and a slow client** end the acceptor's thread: the
drainer borrows the queue that the flush loop has borrowed across its write. -/
theorem queue_borrowed_twice :
    ∃ s, (system oneShard 1).Reachable System.anyStep s ∧
      s.thread = .panicked .alreadyBorrowed :=
  System.exists_reachable_of_execute (system oneShard 1) System.anyStep secondAnswerTaken
    (fun s => s.thread = .panicked .alreadyBorrowed) (by decide +kernel)

end Acceptor

end WalServer.Net
