import WalServer.Net.Moves

/-!
# `WalServer.Net.Handed`: where dispatched requests go

`Handed` says that what the record has as dispatched is what the shards get. A request
that a channel took is in the channel, or its shard has taken it from there, with the
requests of each connection in their order and nothing else; and one that no channel
took was answered by a refusal on its socket. With the framing of the stream this is what
the loop that reads, decodes and drains does (`framing_of_reachable`).
-/

set_option autoImplicit false

namespace WalServer.Net

open WalServer.Lib WalServer.Protocol

/-- A dispatched request is for a shard that has a channel. -/
theorem Acceptor.shard_of_dispatches {config : AcceptorConfig} {s : Acceptor}
    {a : Acceptor.Action} {connId : Nat} {d : Dispatch}
    (h : s.dispatches config a = some (connId, d)) : d.shard < s.requests.length := by
  cases a with
  | parse connected =>
      simp only [dispatches] at h
      split at h
      · obtain ⟨shard, -, hfound⟩ := Option.bind_eq_some_iff.mp h
        obtain ⟨channel, hchannel, hd⟩ := Option.map_eq_some_iff.mp hfound
        cases hd
        exact (List.getElem?_eq_some_iff.mp hchannel).1
      · cases h
  | _ => cases h

namespace Traffic

/-- The requests of a connection that were handed to a shard. -/
def handed (s : Traffic) (connId shard : Nat) : List Request :=
  ((s.dispatched connId).filter fun d => d.taken ∧ d.shard = shard).map Dispatch.request

/-- How many requests of a connection were refused. -/
def refused (s : Traffic) (connId : Nat) : Nat :=
  (s.dispatched connId).countP fun d => !d.taken

/-- The requests of a connection among those of a shard. -/
def requestsOf (connId : Nat) (l : List ShardRequest) : List Request :=
  (l.filter fun req => req.connectionId = connId).map ShardRequest.request

@[simp] theorem requestsOf_append (connId : Nat) (l m : List ShardRequest) :
    requestsOf connId (l ++ m) = requestsOf connId l ++ requestsOf connId m := by
  simp [requestsOf]

/-- **What was dispatched is with the shards**, or was refused. -/
structure Handed (s : Traffic) : Prop where
  channels : ∀ shard channel, s.acceptor.requests[shard]? = some channel → ∀ connId,
    requestsOf connId (s.takenBy shard ++ channel) = s.handed connId shard
  inRange : ∀ connId, ∀ d ∈ s.dispatched connId, d.shard < s.acceptor.requests.length
  refusals : ∀ connId c, s.acceptor.connections.lookup connId = some c →
    (List.replicate (s.refused connId) (encodeResponse Acceptor.shardUnavailable)).Sublist c.socket

variable {config : AcceptorConfig} {shards : Nat} {s : Traffic} {a : Acceptor.Action}
  {t : Acceptor}

/-- The tasks of the acceptor take no requests. -/
theorem takenBy_of_thread (h : a.ofThread = true) (t : Acceptor) :
    (s.record config a t).takenBy = s.takenBy := by
  cases a with
  | takeRequest _ => cases h
  | _ => rfl

/-- A connection whose queue a step keeps has its refusals on its socket. -/
theorem Handed.keep (h : s.Handed) (hframed : s.Framed config) {connId : Nat} {c : Connection}
    (hkeeps : s.acceptor.KeepsQueue t connId) (hlookup : t.connections.lookup connId = some c) :
    (List.replicate (s.refused connId) (encodeResponse Acceptor.shardUnavailable)).Sublist
      c.socket := by
  rcases hkeeps c hlookup with ⟨c₀, hold, -, hsocket⟩ | ⟨hnew, -, -⟩
  · rw [hsocket]
    exact h.refusals connId c₀ hold
  · -- A new connection has dispatched nothing.
    unfold refused
    rw [(hframed.fresh connId (Nat.le_of_eq hnew.symm)).2]
    exact List.nil_sublist _

/-- A step that dispatches nothing and leaves the channels of requests alone. -/
theorem Handed.quiet (h : s.Handed) (hdispatched : (s.record config a t).dispatched = s.dispatched)
    (htakenBy : (s.record config a t).takenBy = s.takenBy)
    (hrequests : t.requests = s.acceptor.requests)
    (hrefusals : ∀ connId c, t.connections.lookup connId = some c →
      (List.replicate (s.refused connId) (encodeResponse Acceptor.shardUnavailable)).Sublist
        c.socket) : (s.record config a t).Handed where
  channels shard channel hchannel connId := by
    unfold handed
    rw [hdispatched, htakenBy]
    exact h.channels shard channel (hrequests ▸ hchannel) connId
  inRange connId d hd := by
    rw [hdispatched] at hd
    show d.shard < t.requests.length
    rw [hrequests]
    exact h.inRange connId d hd
  refusals connId c hlookup := by
    unfold refused
    rw [hdispatched]
    exact hrefusals connId c hlookup

/-- **A request is dispatched**: it is the last of its connection, in its channel or
refused. -/
theorem Handed.dispatch (h : s.Handed) {connId : Nat} {d : Dispatch}
    (hdispatched : (s.record config a t).dispatched =
      Function.update s.dispatched connId (s.dispatched connId ++ [d]))
    (htakenBy : (s.record config a t).takenBy = s.takenBy)
    (hlength : t.requests.length = s.acceptor.requests.length)
    (hshard : d.shard < s.acceptor.requests.length)
    (hchannels : ∀ shard channel, t.requests[shard]? = some channel →
      ∃ old, s.acceptor.requests[shard]? = some old ∧
        channel = old ++ if d.taken ∧ d.shard = shard then [⟨connId, d.request⟩] else [])
    (hrefusals : ∀ id c, t.connections.lookup id = some c →
      (List.replicate (s.refused id + if id = connId ∧ d.taken = false then 1 else 0)
        (encodeResponse Acceptor.shardUnavailable)).Sublist c.socket) :
    (s.record config a t).Handed where
  channels shard channel hchannel id := by
    obtain ⟨old, hold, rfl⟩ := hchannels shard channel hchannel
    have hbefore := h.channels shard old hold id
    unfold handed at hbefore ⊢
    rw [hdispatched, htakenBy, ← List.append_assoc, requestsOf_append, hbefore]
    by_cases hid : id = connId
    · subst hid
      rw [Function.update_self, List.filter_append, List.map_append]
      by_cases hd : d.taken = true ∧ d.shard = shard
      · simp [requestsOf, hd]
      · simp [requestsOf, hd]
    · rw [Function.update_of_ne hid]
      split
      · simp [requestsOf, Ne.symm hid]
      · exact List.append_nil _
  inRange id d' hd' := by
    show d'.shard < t.requests.length
    rw [hlength]
    rw [hdispatched] at hd'
    by_cases hid : id = connId
    · subst hid
      rw [Function.update_self] at hd'
      rcases List.mem_append.mp hd' with hold | hnew
      · exact h.inRange id d' hold
      · rwa [List.mem_singleton.mp hnew]
    · rw [Function.update_of_ne hid] at hd'
      exact h.inRange id d' hd'
  refusals id c hlookup := by
    have hcount : (s.record config a t).refused id =
        s.refused id + if id = connId ∧ d.taken = false then 1 else 0 := by
      unfold refused
      rw [hdispatched]
      by_cases hid : id = connId
      · subst hid
        rw [Function.update_self, List.countP_append]
        cases htaken : d.taken <;> simp [htaken]
      · rw [Function.update_of_ne hid, if_neg fun hboth => hid hboth.1, Nat.add_zero]
    rw [hcount]
    exact hrefusals id c hlookup

/-- A step of the acceptor's thread. -/
theorem Handed.moved (h : s.Handed) (hframed : s.Framed config) (hthread : a.ofThread = true)
    (hmoved : Acceptor.Moved config s.acceptor a t) : (s.record config a t).Handed := by
  have htakenBy : (s.record config a t).takenBy = s.takenBy := takenBy_of_thread hthread t
  cases hmoved with
  | quiet hdispatches _ _ hrequests _ hkeeps =>
      exact h.quiet (dispatched_of_none t hdispatches) htakenBy hrequests
        fun connId c hlookup => h.keep hframed (hkeeps connId) hlookup
  | @sent connId d channel hdispatches htaken hchannel hrequests _ hkeeps =>
      refine h.dispatch (dispatched_of_some t hdispatches) htakenBy ?_
        (Acceptor.shard_of_dispatches hdispatches) (fun shard channel' hchannel' => ?_)
        fun id c hlookup => ?_
      · rw [hrequests, List.length_set]
      · rw [hrequests, List.getElem?_set] at hchannel'
        split at hchannel'
        · rename_i hshard
          subst hshard
          split at hchannel'
          · cases hchannel'
            exact ⟨channel, hchannel, by simp [htaken]⟩
          · cases hchannel'
        · rename_i hshard
          exact ⟨channel', hchannel', by simp [hshard]⟩
      · rw [if_neg (by simp [htaken]), Nat.add_zero]
        exact h.keep hframed (hkeeps id) hlookup
  | @refused connId d hdispatches htaken hrequests _ hself hkeeps =>
      refine h.dispatch (dispatched_of_some t hdispatches) htakenBy (by rw [hrequests])
        (Acceptor.shard_of_dispatches hdispatches)
        (fun shard channel hchannel => ?_) fun id c hlookup => ?_
      · exact ⟨channel, hrequests ▸ hchannel, by simp [htaken]⟩
      · by_cases hid : id = connId
        · -- The refusal is the last thing on the socket.
          subst hid
          obtain ⟨c₀, hold, -, hsocket⟩ := hself c hlookup
          rw [if_pos ⟨rfl, htaken⟩, List.replicate_succ', hsocket]
          exact (h.refusals id c₀ hold).append (List.Sublist.refl _)
        · rw [if_neg fun hboth => hid hboth.1, Nat.add_zero]
          exact h.keep hframed (hkeeps id hid) hlookup
  | @flushed connId hdispatches _ hrequests _ hself hkeeps =>
      refine h.quiet (dispatched_of_none t hdispatches) htakenBy hrequests fun id c hlookup => ?_
      by_cases hid : id = connId
      · subst hid
        obtain ⟨c₀, hold, -, hsocket⟩ := hself c hlookup
        rw [hsocket]
        exact (h.refusals id c₀ hold).trans (List.sublist_append_left ..)
      · exact h.keep hframed (hkeeps id hid) hlookup
  | @drained shard r rest hdispatches _ _ hrequests _ _ hself hkeeps =>
      refine h.quiet (dispatched_of_none t hdispatches) htakenBy hrequests fun id c hlookup => ?_
      by_cases hid : id = r.connectionId
      · subst hid
        obtain ⟨c₀, hold, hsocket, -⟩ := hself c hlookup
        rw [hsocket]
        exact h.refusals _ c₀ hold
      · exact h.keep hframed (hkeeps id hid) hlookup

/-- A shard takes a request from the head of its channel. -/
theorem Handed.takeRequest (h : s.Handed) {shard : Nat} {channel : List ShardRequest}
    (hchannel : s.acceptor.requests[shard]? = some channel) :
    (s.record config (.takeRequest shard) { s.acceptor with
      requests := s.acceptor.requests.set shard channel.tail }).Handed where
  channels i rest hrest connId := by
    -- What leaves the channel is the next that the shard has taken.
    have htakenBy : (s.record config (.takeRequest shard) { s.acceptor with
        requests := s.acceptor.requests.set shard channel.tail }).takenBy =
          Function.update s.takenBy shard (s.takenBy shard ++ channel.head?.toList) := by
      unfold record Acceptor.takes
      simp only [hchannel, Option.bind_some]
      cases channel with
      | nil => simp
      | cons req rest => rfl
    rw [htakenBy]
    have hrest' : (s.acceptor.requests.set shard channel.tail)[i]? = some rest := hrest
    rw [List.getElem?_set] at hrest'
    split at hrest'
    · rename_i hi
      subst hi
      split at hrest'
      · cases hrest'
        rw [Function.update_self, List.append_assoc]
        have hsame : channel.head?.toList ++ channel.tail = channel := by
          cases channel <;> rfl
        rw [hsame]
        exact h.channels shard channel hchannel connId
      · cases hrest'
    · rename_i hi
      rw [Function.update_of_ne (Ne.symm hi)]
      exact h.channels i rest hrest' connId
  inRange connId d hd := by
    show d.shard < (s.acceptor.requests.set shard channel.tail).length
    rw [List.length_set]
    exact h.inRange connId d hd
  refusals := h.refusals

/-- **One step** keeps what was dispatched with the shards. -/
theorem Handed.step (h : s.Handed) (hframed : s.Framed config) (hsteady : s.acceptor.Steady)
    (hstep : Acceptor.step config s.acceptor a = some t) : (s.record config a t).Handed := by
  cases hthread : a.ofThread with
  | true =>
      have horderly : s.acceptor.Orderly :=
        hsteady.resolve_right (Acceptor.not_panicked_of_step hthread hstep)
      exact h.moved hframed hthread
        (Acceptor.moved_of_step horderly hthread hframed.parsing hstep)
  | false =>
      cases Acceptor.ran_of_step hstep with
      | requestTaken hchannel => exact h.takeRequest hchannel
      | responseSent _ _ => exact h.quiet rfl rfl rfl h.refusals
      | _ => cases hthread

/-- A request that arrives in two pieces, cut in its header, and is taken by its shard; and
one that arrives when the shard is gone. -/
def twoPieces : List Acceptor.Action :=
  let request := encodeRequest ⟨.getStatus, 7, 0, 0, []⟩
  [.accept, .spawn 0, .selected 0 (.received (request.take 5)), .parse true,
    .selected 0 (.received (request.drop 5)), .parse true, .parse true, .takeRequest 0,
    .selected 0 (.received (encodeRequest ⟨.getStatus, 8, 0, 0, []⟩)), .parse false]

end Traffic

end WalServer.Net
