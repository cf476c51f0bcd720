import WalServer.Net.Borrows
import WalServer.Net.Traffic

/-!
# `WalServer.Net.Moves`: where the acceptor takes responses

A step of the acceptor's thread moves at most one thing: a request into its shard's
channel, a refusal onto a socket, a response from a shard's channel into the queue of
its connection, or a response from there onto the socket (`Moved`). What waits in the
queue of a connection is seen here together with what its flush loop has drained and
not written yet (`Connection.waiting`).

The result is about an acceptor whose borrows are in order; one whose thread has
panicked makes no step of its own.
-/

set_option autoImplicit false

namespace WalServer.Net

open WalServer.Lib WalServer.Protocol

/-- What the task of a connection has drained and is still to write. -/
def TaskState.drained : TaskState → List ShardResponse
  | .flushing rest => rest
  | _              => []

/-- The responses of a connection that are not written yet. -/
def Connection.waiting (c : Connection) : List ShardResponse :=
  c.task.drained ++ c.respQueue.value

theorem TaskState.drained_of_not_flushing {task : TaskState} (h : task.isFlushing = false) :
    task.drained = [] := by
  cases task with
  | flushing rest => cases h
  | _ => rfl

namespace Acceptor

/-- The thread has panicked. -/
def Panicked (s : Acceptor) : Prop := ∃ reason, s.thread = .panicked reason

instance (s : Acceptor) : Decidable s.Panicked :=
  match h : s.thread with
  | .panicked reason => isTrue ⟨reason, h⟩
  | .idle            => isFalse fun ⟨_, hp⟩ => by rw [h] at hp; cases hp
  | .draining _ _    => isFalse fun ⟨_, hp⟩ => by rw [h] at hp; cases hp
  | .parsing _       => isFalse fun ⟨_, hp⟩ => by rw [h] at hp; cases hp

/-- An action of one of the tasks, and not of a shard. -/
def Action.ofThread : Action → Bool
  | .takeRequest _ | .respond _ _ => false
  | _                             => true

/-- The connection that an action writes a response for, if there is one to write. -/
def flushes (s : Acceptor) : Action → Option Nat
  | .spawn connId           => some connId
  | .selected connId .slept => some connId
  | .written connId true    =>
      match (s.connections.lookup connId).map Connection.task with
      | some (.flushing (_ :: _)) => some connId
      | _                         => none
  | .parse _                =>
      match s.found with
      | some (connId, .more) => some connId
      | _                    => none
  | _                       => none

/-- The shard that an action takes a response from, and the response. -/
def drains (s : Acceptor) : Action → Option (Nat × ShardResponse)
  | .drain =>
      match s.thread with
      | .draining shard _ => (s.responses[shard]?.bind List.head?).map fun r => (shard, r)
      | _                 => none
  | _      => none

/-- A response that was just taken for this connection is in its queue: the connection is
there, and the borrow of its queue has not failed. -/
def Delivered (t : Acceptor) (connId : Nat) : Prop :=
  (t.connections.lookup connId).isSome = true ∧ ¬ t.Panicked

instance (t : Acceptor) (connId : Nat) : Decidable (t.Delivered connId) := by
  unfold Delivered
  infer_instance

/-- A connection of `t` was one of `s`, with the same responses waiting and written, or it
is new. -/
def KeepsQueue (s t : Acceptor) (connId : Nat) : Prop :=
  ∀ c', t.connections.lookup connId = some c' →
    (∃ c, s.connections.lookup connId = some c ∧ c'.waiting = c.waiting ∧ c'.socket = c.socket) ∨
      (connId = s.nextConnId.value ∧ c'.waiting = [] ∧ c'.socket = [])

/-- **What a step of the acceptor's thread moves.** -/
inductive Moved (config : AcceptorConfig) (s : Acceptor) (a : Action) (t : Acceptor) : Prop
  /-- Nothing. -/
  | quiet (hdispatches : s.dispatches config a = none) (hflushes : s.flushes a = none)
      (hdrains : s.drains a = none) (hrequests : t.requests = s.requests)
      (hresponses : t.responses = s.responses) (hkeeps : ∀ id, KeepsQueue s t id)
  /-- A request goes to its shard. -/
  | sent {connId : Nat} {d : Dispatch} {channel : List ShardRequest}
      (hdispatches : s.dispatches config a = some (connId, d)) (htaken : d.taken = true)
      (hchannel : s.requests[d.shard]? = some channel)
      (hrequests : t.requests = s.requests.set d.shard (channel ++ [⟨connId, d.request⟩]))
      (hresponses : t.responses = s.responses) (hkeeps : ∀ id, KeepsQueue s t id)
  /-- A request is refused. -/
  | refused {connId : Nat} {d : Dispatch}
      (hdispatches : s.dispatches config a = some (connId, d)) (htaken : d.taken = false)
      (hrequests : t.requests = s.requests) (hresponses : t.responses = s.responses)
      (hself : ∀ c', t.connections.lookup connId = some c' →
        ∃ c, s.connections.lookup connId = some c ∧ c'.waiting = c.waiting ∧
          c'.socket = c.socket ++ [encodeResponse shardUnavailable])
      (hkeeps : ∀ id, id ≠ connId → KeepsQueue s t id)
  /-- The next response of a connection, if there is one, is written. -/
  | flushed {connId : Nat} (hdispatches : s.dispatches config a = none)
      (hflushes : s.flushes a = some connId)
      (hrequests : t.requests = s.requests) (hresponses : t.responses = s.responses)
      (hself : ∀ c', t.connections.lookup connId = some c' →
        ∃ c, s.connections.lookup connId = some c ∧ c'.waiting = c.waiting.tail ∧
          c'.socket = c.socket ++
            (c.waiting.head?.map fun r => encodeResponse r.response).toList)
      (hkeeps : ∀ id, id ≠ connId → KeepsQueue s t id)
  /-- A response is taken from its shard, and delivered if that can be. -/
  | drained {shard : Nat} {r : ShardResponse} {rest : List ShardResponse}
      (hdispatches : s.dispatches config a = none) (hflushes : s.flushes a = none)
      (hdrains : s.drains a = some (shard, r)) (hrequests : t.requests = s.requests)
      (hchannel : s.responses[shard]? = some (r :: rest))
      (hresponses : t.responses = s.responses.set shard rest)
      (hself : ∀ c', t.connections.lookup r.connectionId = some c' →
        ∃ c, s.connections.lookup r.connectionId = some c ∧ c'.socket = c.socket ∧
          c'.waiting = if t.Panicked then c.waiting else c.waiting ++ [r])
      (hkeeps : ∀ id, id ≠ r.connectionId → KeepsQueue s t id)

variable {config : AcceptorConfig} {s t : Acceptor} {a : Action} {connId : Nat}
  {c c' : Connection}

/-! ### Queues that stay -/

theorem keepsQueue_of_eq (h : t.connections = s.connections) (id : Nat) : KeepsQueue s t id := by
  intro c' hlookup
  rw [h] at hlookup
  exact Or.inl ⟨c', hlookup, rfl, rfl⟩

/-- A connection that is written back does not concern the others. -/
theorem keepsQueue_put_of_ne {thread : Thread} {id : Nat} (h : id ≠ connId) :
    KeepsQueue s (s.put connId c thread) id := by
  intro d hd
  rcases lookup_put hd with ⟨heq, -⟩ | ⟨-, hold⟩
  · exact absurd heq h
  · exact Or.inl ⟨d, hold, rfl, rfl⟩

/-- One that is written back with the same responses keeps its queue. -/
theorem keepsQueue_put {thread : Thread} (hlookup : s.connections.lookup connId = some c)
    (hwaiting : c'.waiting = c.waiting) (hsocket : c'.socket = c.socket) (id : Nat) :
    KeepsQueue s (s.put connId c' thread) id := by
  intro d hd
  rcases lookup_put hd with ⟨rfl, rfl⟩ | ⟨-, hold⟩
  · exact Or.inl ⟨c, hlookup, hwaiting, hsocket⟩
  · exact Or.inl ⟨d, hold, rfl, rfl⟩

/-- A connection that is closed is gone, and the others stay. -/
theorem keepsQueue_close (id : Nat) : KeepsQueue s (s.close connId) id := by
  unfold close
  split
  · exact keepsQueue_of_eq rfl id
  · intro d hd
    have hd' : (s.connections.erase connId).lookup id = some d := hd
    rw [AssocMap.lookup_erase_eq] at hd'
    split at hd'
    · cases hd'
    · exact Or.inl ⟨d, hd', rfl, rfl⟩

theorem channels_close (s : Acceptor) (connId : Nat) :
    (s.close connId).requests = s.requests ∧ (s.close connId).responses = s.responses := by
  unfold close
  split
  · exact ⟨rfl, rfl⟩
  · exact ⟨rfl, rfl⟩

/-! ### The flush loop -/

/-- The flush loop leaves the channels and the other connections alone. -/
theorem flushNext_frame (s : Acceptor) (connId : Nat) (c : Connection)
    (rest : List ShardResponse) :
    (s.flushNext connId c rest).requests = s.requests ∧
      (s.flushNext connId c rest).responses = s.responses ∧
      ∀ id, id ≠ connId → KeepsQueue s (s.flushNext connId c rest) id := by
  cases rest with
  | nil => exact ⟨rfl, rfl, fun id hid => keepsQueue_put_of_ne hid⟩
  | cons r rest => exact ⟨rfl, rfl, fun id hid => keepsQueue_put_of_ne hid⟩

/-- **The flush loop** writes the first of what it has drained. -/
theorem flushNext_self {rest : List ShardResponse}
    (h : (s.flushNext connId c rest).connections.lookup connId = some c') :
    c'.waiting = rest.tail ++ c.respQueue.value ∧
      c'.socket = c.socket ++ (rest.head?.map fun r => encodeResponse r.response).toList := by
  cases rest with
  | nil =>
      rcases lookup_put h with ⟨-, rfl⟩ | ⟨hne, -⟩
      · exact ⟨rfl, (List.append_nil _).symm⟩
      · exact absurd rfl hne
  | cons r rest =>
      rcases lookup_put h with ⟨-, rfl⟩ | ⟨hne, -⟩
      · exact ⟨rfl, rfl⟩
      · exact absurd rfl hne

/-- **A flush** of a task that was not flushing writes the first response in its queue. -/
theorem moved_flush (horderly : s.Orderly) (hlookup : s.connections.lookup connId = some c)
    (hidle : c.task.isFlushing = false) (hdispatches : s.dispatches config a = none)
    (hflushes : s.flushes a = some connId) : Moved config s a (s.flush connId c) := by
  have hfree := (horderly.queues _ _ hlookup).free hidle
  have hwaiting : c.waiting = c.respQueue.value := by
    unfold Connection.waiting
    rw [TaskState.drained_of_not_flushing hidle, List.nil_append]
  unfold flush
  rw [RefCell.lock_of_free hfree]
  obtain ⟨hrequests, hresponses, hothers⟩ := s.flushNext_frame connId
    { c with respQueue := { value := [], borrows := .exclusive } } c.respQueue.value
  refine .flushed hdispatches hflushes hrequests hresponses (fun c' hc' => ?_) hothers
  obtain ⟨hrest, hsocket⟩ := flushNext_self hc'
  refine ⟨c, hlookup, ?_, ?_⟩
  · rw [hrest, hwaiting]
    exact List.append_nil _
  · rw [hsocket, hwaiting]

/-! ### Every step -/

/-- A connection is closed. -/
theorem moved_close (hdispatches : s.dispatches config a = none) (hflushes : s.flushes a = none)
    (hdrains : s.drains a = none) : Moved config s a (s.close connId) :=
  .quiet hdispatches hflushes hdrains (s.channels_close connId).1 (s.channels_close connId).2
    keepsQueue_close

/-- The drainer takes a response. -/
theorem moved_drained (horderly : s.Orderly) {shard : Nat} {anyWork : Bool} {r : ShardResponse}
    {rest : List ShardResponse} (hthread : s.thread = .draining shard anyWork)
    (hchannel : s.responses[shard]? = some (r :: rest)) :
    Moved config s .drain ({ s with
      responses := s.responses.set shard rest
      thread := .draining shard true }.dispatch r) := by
  have hdrains : s.drains .drain = some (shard, r) := by
    unfold drains
    simp only [hthread, hchannel]
    rfl
  have hnotPanicked : ∀ u : Acceptor, u.thread = .draining shard true → ¬ u.Panicked := by
    rintro u hu ⟨reason, hp⟩
    rw [hu] at hp
    cases hp
  unfold dispatch
  simp only [RefCell.peek_of_free horderly.map]
  split
  · rename_i hmapped
    obtain ⟨c, hlookup⟩ := Option.isSome_iff_exists.mp ((horderly.mapped _).mp hmapped)
    simp only [hlookup]
    cases hupdate : c.respQueue.update (· ++ [r]) with
    | none =>
        -- The queue is borrowed, and the thread panics.
        refine .drained rfl rfl hdrains rfl hchannel rfl (fun c' hc' => ?_)
          fun id _ => keepsQueue_of_eq rfl id
        have hsame : s.connections.lookup r.connectionId = some c' := hc'
        refine ⟨c', hsame, rfl, ?_⟩
        rw [if_pos ⟨_, rfl⟩]
    | some respQueue =>
        refine .drained rfl rfl hdrains rfl hchannel rfl (fun c' hc' => ?_)
          fun id hid => ?_
        · rcases lookup_put hc' with ⟨-, rfl⟩ | ⟨hne, -⟩
          · refine ⟨c, hlookup, rfl, ?_⟩
            have hvalue : respQueue.value = c.respQueue.value ++ [r] := by
              unfold RefCell.update at hupdate
              obtain ⟨locked, hlock, rfl⟩ := Option.map_eq_some_iff.mp hupdate
              unfold RefCell.lock at hlock
              split at hlock
              · cases hlock
                rfl
              · cases hlock
            rw [if_neg (hnotPanicked _ rfl)]
            unfold Connection.waiting
            rw [hvalue, List.append_assoc]
          · exact absurd rfl hne
        · intro d hd
          rcases lookup_put hd with ⟨heq, -⟩ | ⟨-, hold⟩
          · exact absurd heq hid
          · exact Or.inl ⟨d, hold, rfl, rfl⟩
  · -- The connection is closed.
    rename_i hunmapped
    have hgone : s.connections.lookup r.connectionId = none := by
      rw [← Option.not_isSome_iff_eq_none]
      exact fun hsome => hunmapped ((horderly.mapped _).mpr hsome)
    refine .drained rfl rfl hdrains rfl hchannel rfl (fun c' hc' => ?_)
      fun id _ => keepsQueue_of_eq rfl id
    have hc'' : s.connections.lookup r.connectionId = some c' := hc'
    rw [hgone] at hc''
    cases hc''

/-- **Every step of the acceptor's thread** moves at most one thing. -/
theorem moved_of_step (horderly : s.Orderly) (hthread : a.ofThread = true)
    (hparsing : ∀ id c, s.thread = .parsing id → s.connections.lookup id = some c →
      c.task = .parsing)
    (hstep : Acceptor.step config s a = some t) : Moved config s a t := by
  cases ran_of_step hstep with
  | accepted hidle =>
      refine .quiet rfl rfl rfl ?_ ?_ fun id => ?_
      all_goals
        unfold accept
        simp only [RefCell.update_of_free horderly.counter, RefCell.update_of_free horderly.map]
      intro d hd
      have hd' : (s.connections.insert s.nextConnId.value ⟨.spawned, [], .new [], []⟩).lookup id =
          some d := hd
      rw [AssocMap.lookup_insert_eq] at hd'
      split at hd'
      · rename_i hid
        cases hd'
        exact Or.inr ⟨hid, rfl, rfl⟩
      · exact Or.inl ⟨d, hd', rfl, rfl⟩
  | spawned hidle hlookup htask =>
      exact moved_flush horderly hlookup (by rw [htask]; rfl) rfl rfl
  | @flushed connId c rest hidle hlookup htask =>
      obtain ⟨hrequests, hresponses, hothers⟩ := s.flushNext_frame connId c rest
      have hwaiting : c.waiting = rest ++ c.respQueue.value := by
        unfold Connection.waiting
        rw [htask]
        rfl
      cases rest with
      | nil =>
          -- Behind the last response, the loop ends.
          refine .quiet rfl ?_ rfl hrequests hresponses fun id => ?_
          · unfold flushes
            simp only [hlookup, Option.map_some, htask]
          · refine keepsQueue_put hlookup ?_ ?_ id
            · rw [hwaiting]
              rfl
            · rfl
      | cons r rest =>
          have hflushes : s.flushes (.written connId true) = some connId := by
            unfold flushes
            simp only [hlookup, Option.map_some, htask]
          refine .flushed rfl hflushes hrequests hresponses (fun c' hc' => ?_) hothers
          obtain ⟨hrest, hsocket⟩ := flushNext_self hc'
          refine ⟨c, hlookup, ?_, ?_⟩
          · rw [hrest, hwaiting]
            rfl
          · rw [hsocket, hwaiting]
            rfl
  | @replied connId consumed c hidle hlookup htask =>
      refine .quiet rfl ?_ rfl rfl rfl fun id => keepsQueue_put hlookup ?_ ?_ id
      · unfold flushes
        simp only [hlookup, Option.map_some, htask]
      · unfold Connection.waiting
        rw [htask]
        rfl
      · rfl
  | writeFailed hidle hlookup => exact moved_close rfl rfl rfl
  | readEnded hidle hlookup htask hresult =>
      rcases hresult with rfl | rfl
      · exact moved_close rfl rfl rfl
      · exact moved_close rfl rfl rfl
  | received hidle hlookup htask =>
      refine .quiet rfl rfl rfl rfl rfl fun id => keepsQueue_put hlookup ?_ ?_ id
      · unfold Connection.waiting
        rw [htask]
        rfl
      · rfl
  | slept hidle hlookup htask =>
      exact moved_flush horderly hlookup (by rw [htask]; rfl) rfl rfl
  | malformed hparse hlookup hdecode =>
      refine moved_close ?_ ?_ rfl
      · unfold dispatches
        simp only [Traffic.found_eq hparse hlookup, decodedRequest_bad.mpr hdecode]
      · unfold flushes
        simp only [Traffic.found_eq hparse hlookup, decodedRequest_bad.mpr hdecode]
  | parsed hparse hlookup hdecode =>
      refine moved_flush horderly hlookup (horderly.parsing _ _ hparse hlookup) ?_ ?_
      · unfold dispatches
        simp only [Traffic.found_eq hparse hlookup, decodedRequest_more.mpr hdecode]
      · unfold flushes
        simp only [Traffic.found_eq hparse hlookup, decodedRequest_more.mpr hdecode]
  | noRouter hparse hlookup hdecode hroute =>
      refine .quiet ?_ ?_ rfl rfl rfl fun id => keepsQueue_of_eq rfl id
      · unfold dispatches
        simp only [Traffic.found_eq hparse hlookup, decodedRequest_frame.mpr hdecode, hroute,
          Option.bind_none]
      · unfold flushes
        simp only [Traffic.found_eq hparse hlookup, decodedRequest_frame.mpr hdecode]
  | noChannel hparse hlookup hdecode hroute hchannel =>
      refine .quiet ?_ ?_ rfl rfl rfl fun id => keepsQueue_of_eq rfl id
      · unfold dispatches
        simp only [Traffic.found_eq hparse hlookup, decodedRequest_frame.mpr hdecode, hroute,
          hchannel, Option.bind_some, Option.map_none]
      · unfold flushes
        simp only [Traffic.found_eq hparse hlookup, decodedRequest_frame.mpr hdecode]
  | @sent connId consumed shard c connected req channel hparse hlookup hdecode hroute hchannel
      hroom =>
      refine .sent (d := ⟨req, shard, true⟩) ?_ rfl hchannel rfl rfl fun id => ?_
      · unfold dispatches
        simp only [Traffic.found_eq hparse hlookup, decodedRequest_frame.mpr hdecode, hroute,
          hchannel, Option.bind_some, Option.map_some, hroom, decide_true, Bool.and_self]
      · intro d hd
        rcases lookup_put hd with ⟨rfl, rfl⟩ | ⟨-, hold⟩
        · exact Or.inl ⟨c, hlookup, rfl, rfl⟩
        · exact Or.inl ⟨d, hold, rfl, rfl⟩
  | @refused connId consumed shard c connected req channel hparse hlookup hdecode hroute hchannel
      hroom =>
      refine .refused (d := ⟨req, shard, false⟩) ?_ rfl rfl rfl (fun c' hc' => ?_)
        fun id hid => keepsQueue_put_of_ne hid
      · have hfull : (connected && decide (channel.length < config.channelCapacity)) = false := by
          simpa using hroom
        unfold dispatches
        simp only [Traffic.found_eq hparse hlookup, decodedRequest_frame.mpr hdecode, hroute,
          hchannel, Option.bind_some, Option.map_some, hfull]
      · rcases lookup_put hc' with ⟨-, rfl⟩ | ⟨hne, -⟩
        · refine ⟨c, hlookup, ?_, rfl⟩
          unfold Connection.waiting
          rw [hparsing _ _ hparse hlookup]
          rfl
        · exact absurd rfl hne
  | woken hidle => exact .quiet rfl rfl rfl rfl rfl fun id => keepsQueue_of_eq rfl id
  | drainedAll hdraining hchannel =>
      refine .quiet rfl rfl ?_ rfl rfl fun id => keepsQueue_of_eq rfl id
      unfold drains
      simp [hdraining, hchannel]
  | drainedShard hdraining hchannel =>
      refine .quiet rfl rfl ?_ rfl rfl fun id => keepsQueue_of_eq rfl id
      unfold drains
      simp [hdraining, hchannel]
  | drained hdraining hchannel => exact moved_drained horderly hdraining hchannel
  | requestTaken hchannel => cases hthread
  | responseSent hchannel hroom => cases hthread

/-- A turn of the parse loop drains nothing. -/
theorem drains_of_dispatches {found : Nat × Dispatch} (h : s.dispatches config a = some found) :
    s.drains a = none := by
  cases a with
  | drain => cases h
  | _ => rfl

/-- Neither does a flush. -/
theorem drains_of_flushes (h : s.flushes a = some connId) : s.drains a = none := by
  cases a with
  | drain => cases h
  | _ => rfl

/-- The thread panics over a response only if it finds a queue borrowed. -/
theorem thread_of_panicked {taken : Nat × ShardResponse} (hdrains : s.drains a = some taken)
    (hstep : Acceptor.step config s a = some t) (hpanicked : t.Panicked) :
    t.thread = .panicked .alreadyBorrowed := by
  obtain ⟨reason, hthread⟩ := hpanicked
  cases ran_of_step hstep with
  | drainedAll hdraining hchannel =>
      unfold drains at hdrains
      simp [hdraining, hchannel] at hdrains
  | drainedShard hdraining hchannel =>
      unfold drains at hdrains
      simp [hdraining, hchannel] at hdrains
  | drained hdraining hchannel =>
      unfold dispatch at hthread ⊢
      split
      · rfl
      · split
        · split
          · simp_all
          · split
            · rfl
            · simp_all [put]
        · simp_all
  | _ => cases hdrains

/-- A connection that is open was open, or it is new. -/
theorem Moved.exists_or_new (h : Moved config s a t)
    (hlookup : t.connections.lookup connId = some c') :
    (∃ c, s.connections.lookup connId = some c) ∨ connId = s.nextConnId.value := by
  have hkept : KeepsQueue s t connId →
      (∃ c, s.connections.lookup connId = some c) ∨ connId = s.nextConnId.value := by
    intro hkeeps
    rcases hkeeps c' hlookup with ⟨c, hold, -, -⟩ | ⟨hnew, -, -⟩
    · exact Or.inl ⟨c, hold⟩
    · exact Or.inr hnew
  cases h with
  | quiet _ _ _ _ _ hkeeps => exact hkept (hkeeps connId)
  | sent _ _ _ _ _ hkeeps => exact hkept (hkeeps connId)
  | @refused connId' d hdispatches htaken hrequests hresponses hself hkeeps =>
      by_cases hid : connId = connId'
      · subst hid
        obtain ⟨c, hold, -⟩ := hself c' hlookup
        exact Or.inl ⟨c, hold⟩
      · exact hkept (hkeeps connId hid)
  | @flushed connId' hdispatches hflushes hrequests hresponses hself hkeeps =>
      by_cases hid : connId = connId'
      · subst hid
        obtain ⟨c, hold, -⟩ := hself c' hlookup
        exact Or.inl ⟨c, hold⟩
      · exact hkept (hkeeps connId hid)
  | @drained shard r rest hdispatches hflushes hdrains hrequests hchannel hresponses hself hkeeps =>
      by_cases hid : connId = r.connectionId
      · subst hid
        obtain ⟨c, hold, -⟩ := hself c' hlookup
        exact Or.inl ⟨c, hold⟩
      · exact hkept (hkeeps connId hid)

/-! ### Runs with and without a panic -/

/-- The borrows are in order, or the thread has panicked. -/
def Steady (s : Acceptor) : Prop := s.Orderly ∨ s.Panicked

/-- A thread that has panicked makes no step. -/
theorem not_panicked_of_step (hthread : a.ofThread = true)
    (hstep : Acceptor.step config s a = some t) : ¬ s.Panicked := by
  rintro ⟨reason, hpanicked⟩
  cases ran_of_step hstep with
  | requestTaken _ => cases hthread
  | responseSent _ _ => cases hthread
  | accepted hidle | woken hidle => rw [hpanicked] at hidle; cases hidle
  | spawned hidle _ _ | flushed hidle _ _ | replied hidle _ _ | writeFailed hidle _
  | readEnded hidle _ _ _ | received hidle _ _ | slept hidle _ _ =>
      rw [hpanicked] at hidle
      cases hidle
  | malformed hparse _ _ | parsed hparse _ _ | noRouter hparse _ _ _ | noChannel hparse _ _ _ _
  | sent hparse _ _ _ _ _ | refused hparse _ _ _ _ _ =>
      rw [hpanicked] at hparse
      cases hparse
  | drainedAll hdraining _ | drainedShard hdraining _ | drained hdraining _ =>
      rw [hpanicked] at hdraining
      cases hdraining

/-- **Every step** leaves the borrows in order or the thread panicked. -/
theorem Steady.step (h : s.Steady) (hstep : Acceptor.step config s a = some t) : t.Steady := by
  rcases h with horderly | ⟨reason, hpanicked⟩
  · by_cases hcalm : s.Calm a
    · exact Or.inl ((horderly.step config hstep).1 hcalm)
    · exact Or.inr ⟨_, (horderly.step config hstep).2 hcalm⟩
  · right
    cases hthread : a.ofThread with
    | true => exact absurd ⟨reason, hpanicked⟩ (not_panicked_of_step hthread hstep)
    | false =>
        -- The channels are all that a shard changes.
        cases ran_of_step hstep with
        | requestTaken _ => exact ⟨reason, hpanicked⟩
        | responseSent _ _ => exact ⟨reason, hpanicked⟩
        | _ => cases hthread

end Acceptor

end WalServer.Net
