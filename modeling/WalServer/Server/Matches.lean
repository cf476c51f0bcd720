import WalServer.Server.Tickets

/-!
# `WalServer.Server.Matches`: what the tickets are of

`Matches` says that the tickets of a place are those of what is there, in the same order:
requests in a channel and pending writes, each that of its ticket; and responses on their
way and what was written to a socket, each the response that was issued for its ticket.
One lemma for each kind of step says that it stays so, if the responses of the step are
issued: a step of the acceptor's thread (`Matches.moved`), a request that is handled
(`Matches.handle`), another call of a shard (`Matches.call`), and a response that is sent
or dropped (`Matches.send`, `Matches.drop`).
-/

set_option autoImplicit false

namespace WalServer

open Lib Protocol Net Shard

namespace Ticket

/-- The request of a ticket, on its way to its shard. -/
def Asks (t : Ticket) (req : ShardRequest) : Prop := req = ⟨t.connId, t.dispatch.request⟩

/-- The pending write that the request of a ticket has left. -/
def Waits (t : Ticket) (p : PendingClientWrite) : Prop :=
  p.connectionId = t.connId ∧ p.streamId = t.dispatch.request.streamId ∧
    p.epoch = t.dispatch.request.epoch

/-- A response that was issued for the ticket, to its connection. -/
def Gets (issued : List Issue) (t : Ticket) (r : ShardResponse) : Prop :=
  r.connectionId = t.connId ∧ ∃ tag, ⟨t, tag, r⟩ ∈ issued

/-- What was written to answer a ticket: the bytes of such a response. -/
def WrittenAs (issued : List Issue) (t : Ticket) (bytes : Bytes) : Prop :=
  ∃ r, t.Gets issued r ∧ bytes = encodeResponse r.response

theorem Gets.mono {issued more : List Issue} {t : Ticket} {r : ShardResponse}
    (h : t.Gets issued r) (hsub : issued ⊆ more) : t.Gets more r := by
  obtain ⟨hconn, tag, hmem⟩ := h
  exact ⟨hconn, tag, hsub hmem⟩

end Ticket

namespace Server

/-- **The tickets of a place are those of what is there.** -/
structure Matches (s : Server) (issued : List Issue) : Prop where
  sizes : s.acceptor.responses.length = s.shards.length
  requests : ∀ i channel, s.acceptor.requests[i]? = some channel →
    List.Forall₂ Ticket.Asks (s.custody (.requests i)) channel
  pending : ∀ (i : Nat) (sh : ServerShard), s.shards[i]? = some sh → ∀ requestId,
    List.Forall₂ Ticket.Waits (s.custody (.pending i requestId))
      (sh.engine.core.pendingWrites.lookup requestId).toList
  answers : ∀ (i : Nat) (sh : ServerShard) channel, s.shards[i]? = some sh →
    s.acceptor.responses[i]? = some channel →
    List.Forall₂ (Ticket.Gets issued) (s.custody (.answers i)) (channel ++ sh.unsent)
  queue : ∀ connId c, s.acceptor.connections.lookup connId = some c →
    List.Forall₂ (Ticket.Gets issued) (s.custody (.queue connId)) c.waiting
  written : ∀ connId c, s.acceptor.connections.lookup connId = some c →
    List.Forall₂ (Ticket.WrittenAs issued) (s.custody (.written connId)) c.socket

variable {config : AcceptorConfig} {s : Server} {issued more : List Issue}

/-- The more was issued, the better it matches. -/
theorem Matches.mono (h : s.Matches issued) (hsub : issued ⊆ more) : s.Matches more where
  sizes := h.sizes
  requests := h.requests
  pending := h.pending
  answers i sh channel hi hc := (h.answers i sh channel hi hc).imp fun _ _ hgets => hgets.mono hsub
  queue connId c hc := (h.queue connId c hc).imp fun _ _ hgets => hgets.mono hsub
  written connId c hc := (h.written connId c hc).imp fun _ _ hwritten => by
    obtain ⟨r, hgets, hbytes⟩ := hwritten
    exact ⟨r, hgets.mono hsub, hbytes⟩

/-- A channel of responses is that of a shard. -/
theorem Matches.exists_shard (h : s.Matches issued) {i : Nat} {channel : List ShardResponse}
    (hchannel : s.acceptor.responses[i]? = some channel) : ∃ sh, s.shards[i]? = some sh := by
  have hlt := (List.getElem?_eq_some_iff.mp hchannel).1
  rw [h.sizes] at hlt
  exact ⟨_, List.getElem?_eq_getElem hlt⟩

/-! ### A step of the acceptor's thread -/

/-- **The tickets of a connection**: those in its queue, and those of what was written. -/
def AtConnection (issued : List Issue) (m : Custody Place Ticket) (connId : Nat)
    (c : Connection) : Prop :=
  List.Forall₂ (Ticket.Gets issued) (m (.queue connId)) c.waiting ∧
    List.Forall₂ (Ticket.WrittenAs issued) (m (.written connId)) c.socket

/-- A connection that a step does not touch, with tickets that stay where they are. -/
theorem Matches.keep (h : s.Matches issued)
    (htickets : Tickets s.traffic.dispatched s.waited s.custody)
    (hframed : s.traffic.Framed config) {u : Acceptor} {connId : Nat} {c : Connection}
    (hkeeps : s.acceptor.KeepsQueue u connId) (hlookup : u.connections.lookup connId = some c)
    {m : Custody Place Ticket} (hqueue : m (.queue connId) = s.custody (.queue connId))
    (hwritten : m (.written connId) = s.custody (.written connId)) :
    AtConnection issued m connId c := by
  unfold AtConnection
  rw [hqueue, hwritten]
  rcases hkeeps c hlookup with ⟨c₀, hold, hwaiting, hsocket⟩ | ⟨hnew, hwaiting, hsocket⟩
  · rw [hwaiting, hsocket]
    exact ⟨h.queue connId c₀ hold, h.written connId c₀ hold⟩
  · -- The connection is new, and no ticket is its.
    obtain ⟨hnone, hnone'⟩ := htickets.fresh (hframed.fresh connId (Nat.le_of_eq hnew.symm)).2
    rw [hwaiting, hsocket, hnone, hnone']
    exact ⟨.nil, .nil⟩

section

variable {a : Acceptor.Action} {u : Acceptor}

/-- A step that leaves the pending writes alone, put together. -/
theorem Matches.move (h : s.Matches issued)
    (hsizes : u.responses.length = s.acceptor.responses.length)
    (hrequests : ∀ i channel, u.requests[i]? = some channel →
      List.Forall₂ Ticket.Asks (s.carry config a u (.requests i)) channel)
    (hpending : ∀ i requestId, s.carry config a u (.pending i requestId) =
      s.custody (.pending i requestId))
    (hanswers : ∀ (i : Nat) (sh : ServerShard) channel, s.shards[i]? = some sh →
      u.responses[i]? = some channel →
      List.Forall₂ (Ticket.Gets issued) (s.carry config a u (.answers i)) (channel ++ sh.unsent))
    (hconnections : ∀ id c, u.connections.lookup id = some c →
      AtConnection issued (s.carry config a u) id c) : (s.move config a u).Matches issued where
  sizes := hsizes.trans h.sizes
  requests := hrequests
  pending i sh hi requestId := by
    show List.Forall₂ _ (s.carry config a u (.pending i requestId)) _
    rw [hpending]
    exact h.pending i sh hi requestId
  answers := hanswers
  queue id c hc := (hconnections id c hc).1
  written id c hc := (hconnections id c hc).2

/-- A step that moves tickets of connections only. -/
theorem Matches.move_connections (h : s.Matches issued)
    (hrequests : u.requests = s.acceptor.requests)
    (hresponses : u.responses = s.acceptor.responses)
    (hothers : ∀ x : Place, 2 ≤ x.rank → s.carry config a u x = s.custody x)
    (hconnections : ∀ id c, u.connections.lookup id = some c →
      AtConnection issued (s.carry config a u) id c) : (s.move config a u).Matches issued := by
  refine h.move (congrArg List.length hresponses) (fun i channel hi => ?_)
    (fun i requestId => hothers _ (by simp)) (fun i sh channel hi hc => ?_) hconnections
  · rw [hothers _ (by simp)]
    exact h.requests i channel (hrequests ▸ hi)
  · rw [hothers _ (by simp)]
    exact h.answers i sh channel hi (hresponses ▸ hc)

/-- The ticket of the response that a flush writes is the first one in the queue. -/
theorem Matches.written_head (h : s.Matches issued) {connId : Nat} {c : Connection}
    (hlookup : s.acceptor.connections.lookup connId = some c) :
    List.Forall₂ (Ticket.WrittenAs issued) (s.custody (.queue connId)).head?.toList
      (c.waiting.head?.map fun r => encodeResponse r.response).toList := by
  have hhead := Custody.forall₂_head? (h.queue connId c hlookup)
  cases hfirst : c.waiting.head? with
  | none =>
      rw [hfirst] at hhead
      rw [List.forall₂_nil_right_iff.mp hhead]
      exact .nil
  | some r =>
      rw [hfirst] at hhead
      obtain ⟨t, ht, hgets⟩ := Custody.forall₂_singleton hhead
      rw [ht]
      exact .cons ⟨r, hgets, rfl⟩ .nil

/-- **A step of the acceptor's thread** keeps the tickets with what they are of. -/
theorem Matches.moved (h : s.Matches issued)
    (htickets : Tickets s.traffic.dispatched s.waited s.custody)
    (hframed : s.traffic.Framed config) (hrefusals : s.refusals config a ⊆ issued)
    (hmoved : Acceptor.Moved config s.acceptor a u) : (s.move config a u).Matches issued := by
  have hkeep := fun {connId : Nat} {c : Connection}
    (hkeeps : s.acceptor.KeepsQueue u connId) (hlookup : u.connections.lookup connId = some c) =>
      h.keep htickets hframed hkeeps hlookup (m := s.carry config a u)
  cases hmoved with
  | quiet hdispatches hflushes hdrains hrequests hresponses hkeeps =>
      have hcarry := carry_of_none u hdispatches hflushes hdrains
      exact h.move_connections hrequests hresponses (fun x _ => by rw [hcarry]) fun id c hc =>
        hkeep (hkeeps id) hc (by rw [hcarry]) (by rw [hcarry])
  | @sent connId d channel hdispatches htaken hchannel hrequests hresponses hkeeps =>
      have hcarry := carry_of_dispatches u hdispatches
      rw [if_pos htaken] at hcarry
      have hothers : ∀ x, x ≠ .requests d.shard → s.carry config a u x = s.custody x := by
        intro x hx
        rw [hcarry, Custody.enter_of_ne hx]
      refine h.move (congrArg List.length hresponses) (fun i channel' hi => ?_)
        (fun i requestId => hothers _ (by simp)) (fun i sh channel' hi hc => ?_) fun id c hc => ?_
      · rw [hrequests] at hi
        rcases getElem?_set_cases hi with ⟨rfl, rfl⟩ | ⟨hne, hold⟩
        · rw [hcarry, Custody.enter_self]
          exact List.rel_append (h.requests d.shard channel hchannel) (.cons rfl .nil)
        · rw [hothers _ (by simpa using hne)]
          exact h.requests i channel' hold
      · rw [hothers _ (by simp)]
        exact h.answers i sh channel' hi (hresponses ▸ hc)
      · exact hkeep (hkeeps id) hc (hothers _ (by simp)) (hothers _ (by simp))
  | @refused connId d hdispatches htaken hrequests hresponses hself hkeeps =>
      have hcarry := carry_of_dispatches u hdispatches
      rw [if_neg (by rw [htaken]; exact Bool.false_ne_true)] at hcarry
      have hothers : ∀ x, x ≠ .written connId → s.carry config a u x = s.custody x := by
        intro x hx
        rw [hcarry, Custody.enter_of_ne hx]
      refine h.move_connections hrequests hresponses (fun x hx => hothers x ?_) fun id c hc => ?_
      · rintro rfl
        simp at hx
      · by_cases hid : id = connId
        · -- The refusal answers the ticket.
          subst hid
          obtain ⟨c₀, hold, hwaiting, hsocket⟩ := hself c hc
          unfold AtConnection
          rw [hothers _ (by simp), hcarry, Custody.enter_self, hwaiting, hsocket]
          refine ⟨h.queue id c₀ hold,
            List.rel_append (h.written id c₀ hold)
              (.cons ⟨⟨id, Acceptor.shardUnavailable⟩, ⟨rfl, none, ?_⟩, rfl⟩ .nil)⟩
          rw [refusals_of_refused hdispatches htaken] at hrefusals
          exact hrefusals (List.mem_singleton_self _)
        · exact hkeep (hkeeps id hid) hc (hothers _ (by simp)) (hothers _ (by simpa using hid))
  | @flushed connId hdispatches hflushes hrequests hresponses hself hkeeps =>
      have hcarry := carry_of_flushes u hdispatches hflushes
      have hothers : ∀ x, x ≠ .queue connId → x ≠ .written connId →
          s.carry config a u x = s.custody x := by
        intro x hx hx'
        rw [hcarry, Custody.pass_of_ne hx hx']
      refine h.move_connections hrequests hresponses (fun x hx => hothers x ?_ ?_)
        fun id c hc => ?_
      · rintro rfl
        simp at hx
      · rintro rfl
        simp at hx
      · by_cases hid : id = connId
        · -- The head of the queue is written.
          subst hid
          obtain ⟨c₀, hold, hwaiting, hsocket⟩ := hself c hc
          unfold AtConnection
          rw [hcarry, Custody.pass_source (by simp), Custody.pass_target (by simp), hwaiting,
            hsocket]
          exact ⟨Custody.forall₂_tail (h.queue id c₀ hold),
            List.rel_append (h.written id c₀ hold) (h.written_head hold)⟩
        · exact hkeep (hkeeps id hid) hc (hothers _ (by simpa using hid) (by simp))
            (hothers _ (by simp) (by simpa using hid))
  | @drained shard r rest hdispatches hflushes hdrains hrequests hchannel hresponses hself hkeeps =>
      have hcarry := carry_of_drains u hdispatches hflushes hdrains
      -- Either way the ticket leaves its shard, and only the connection may get it.
      have hothers : ∀ x, x ≠ .answers shard → x ≠ .queue r.connectionId →
          s.carry config a u x = s.custody x := by
        intro x hx hx'
        rw [hcarry]
        split
        · exact Custody.pass_of_ne hx hx' _
        · exact Custody.keep_of_ne hx _ _
      have hleft : s.carry config a u (.answers shard) = (s.custody (.answers shard)).tail := by
        rw [hcarry]
        split
        · exact Custody.pass_source (by simp) _
        · exact Custody.keep_self ..
      refine h.move (by rw [hresponses, List.length_set]) (fun i channel hi => ?_)
        (fun i requestId => hothers _ (by simp) (by simp)) (fun i sh channel hi hc => ?_)
        fun id c hc => ?_
      · rw [hothers _ (by simp) (by simp)]
        exact h.requests i channel (hrequests ▸ hi)
      · rw [hresponses] at hc
        rcases getElem?_set_cases hc with ⟨rfl, rfl⟩ | ⟨hne, hold⟩
        · rw [hleft]
          exact Custody.forall₂_tail (h.answers i sh _ hi hchannel)
        · rw [hothers _ (by simpa using hne) (by simp)]
          exact h.answers i sh channel hi hold
      · by_cases hid : id = r.connectionId
        · subst hid
          obtain ⟨c₀, hold, hsocket, hwaiting⟩ := hself c hc
          unfold AtConnection
          rw [hothers (.written _) (by simp) (by simp), hsocket, hcarry, hwaiting]
          refine ⟨?_, h.written _ c₀ hold⟩
          by_cases hpanicked : u.Panicked
          · rw [if_neg fun hdelivered => hdelivered.2 hpanicked, if_pos hpanicked,
              Custody.keep_of_ne (by simp)]
            exact h.queue _ c₀ hold
          · rw [if_pos ⟨by rw [hc]; rfl, hpanicked⟩, if_neg hpanicked,
              Custody.pass_target (by simp)]
            refine List.rel_append (h.queue _ c₀ hold) ?_
            obtain ⟨sh, hsh⟩ := h.exists_shard hchannel
            exact Custody.forall₂_head? (h.answers shard sh _ hsh hchannel)
        · exact hkeep (hkeeps id hid) hc (hothers _ (by simp) (by simpa using hid))
            (hothers _ (by simp) (by simp))

end

/-! ### A call of a shard -/

/-- The places that a call does not settle keep their tickets. -/
theorem foldl_pass_of_ne {i : Nat} {x : Place} (tags : List (Option Nat))
    (m : Custody Place Ticket) (hanswers : x ≠ .answers i)
    (hsource : ∀ tag ∈ tags, x ≠ source i tag) :
    tags.foldl (fun m tag => m.pass (source i tag) (.answers i)) m x = m x := by
  induction tags generalizing m with
  | nil => rfl
  | cons tag tags ih =>
      obtain ⟨htag, hrest⟩ := List.forall_mem_cons.mp hsource
      rw [List.foldl_cons, ih _ hrest, Custody.pass_of_ne htag hanswers]

/-- The tickets of other writes stay where they are. -/
theorem pass_pending_of_ne {i : Nat} {w v : Σ _ : Nat, PendingClientWrite} (hne : w.1 ≠ v.1)
    (m : Custody Place Ticket) :
    m.pass (.pending i w.1) (.answers i) (.pending i v.1) = m (.pending i v.1) :=
  Custody.pass_of_ne (by simpa using hne.symm) (by simp) m

/-- **Pending writes are answered** in the order of their list: their tickets go with the
responses. -/
theorem forall₂_settled {i : Nat} {respond : PendingClientWrite → ShardResponse}
    (hrespond : ∀ p, (respond p).connectionId = p.connectionId)
    {gone : List (Σ _ : Nat, PendingClientWrite)} (hgone : gone.NodupKeys)
    {m : Custody Place Ticket}
    (hpending : ∀ w ∈ gone, List.Forall₂ Ticket.Waits (m (.pending i w.1)) [w.2])
    (hissued : ∀ w ∈ gone, ∀ t ∈ m (.pending i w.1), ⟨t, some w.1, respond w.2⟩ ∈ issued)
    {base : List ShardResponse} (hbase : List.Forall₂ (Ticket.Gets issued) (m (.answers i)) base) :
    List.Forall₂ (Ticket.Gets issued)
      ((gone.map fun w => some w.1).foldl
        (fun m tag => m.pass (source i tag) (.answers i)) m (.answers i))
      (base ++ gone.map fun w => respond w.2) := by
  induction gone generalizing m base with
  | nil => simpa using hbase
  | cons w gone ih =>
      obtain ⟨hw, hnodup⟩ := List.nodupKeys_cons.mp hgone
      obtain ⟨t, ht, hwaits⟩ := Custody.forall₂_singleton (hpending w (List.mem_cons_self ..))
      have hbase' : List.Forall₂ (Ticket.Gets issued)
          (m.pass (.pending i w.1) (.answers i) (.answers i)) (base ++ [respond w.2]) := by
        rw [Custody.pass_target (by simp), ht]
        refine List.rel_append hbase (.cons ⟨(hrespond w.2).trans hwaits.1, some w.1, ?_⟩ .nil)
        exact hissued w (List.mem_cons_self ..) t (by rw [ht]; exact List.mem_singleton_self t)
      have hanswers := ih hnodup (m := m.pass (.pending i w.1) (.answers i))
        (fun v hv => by
          rw [pass_pending_of_ne (List.ne_key.mp hw v hv)]
          exact hpending v (List.mem_cons_of_mem _ hv))
        (fun v hv t ht => by
          rw [pass_pending_of_ne (List.ne_key.mp hw v hv)] at ht
          exact hissued v (List.mem_cons_of_mem _ hv) t ht) hbase'
      rw [List.append_assoc] at hanswers
      exact hanswers

/-- Behind that no ticket is left with them. -/
theorem settled_eq_nil {i : Nat} {gone : List (Σ _ : Nat, PendingClientWrite)}
    (hgone : gone.NodupKeys) {m : Custody Place Ticket}
    (hpending : ∀ w ∈ gone, List.Forall₂ Ticket.Waits (m (.pending i w.1)) [w.2]) :
    ∀ w ∈ gone, (gone.map fun w => some w.1).foldl
      (fun m tag => m.pass (source i tag) (.answers i)) m (.pending i w.1) = [] := by
  induction gone generalizing m with
  | nil => exact fun w hw => by cases hw
  | cons w gone ih =>
      obtain ⟨hw, hnodup⟩ := List.nodupKeys_cons.mp hgone
      refine List.forall_mem_cons.mpr ⟨?_, ih hnodup fun v hv => ?_⟩
      · rw [List.map_cons, List.foldl_cons, foldl_pass_of_ne _ _ (by simp) fun tag htag => ?_]
        · obtain ⟨t, ht, -⟩ := Custody.forall₂_singleton (hpending w (List.mem_cons_self ..))
          rw [source, Custody.pass_source (by simp), ht]
          rfl
        · obtain ⟨v, hv, rfl⟩ := List.mem_map.mp htag
          have hne := List.ne_key.mp hw v hv
          simpa [source] using hne
      · show List.Forall₂ _ (m.pass (.pending i w.1) (.answers i) (.pending i v.1)) _
        rw [pass_pending_of_ne (List.ne_key.mp hw v hv)]
        exact hpending v (List.mem_cons_of_mem _ hv)

/-- **A call of a shard**, put together: what has become of its requests, its pending
writes and its responses. -/
theorem Matches.called (h : s.Matches issued) {i : Nat} {sh : ServerShard} {c : EngineCall}
    {e : ShardEngine} {traffic : Traffic} {m : Custody Place Ticket} {record : List Issue}
    {waited : List Ticket} (requests : List (List ShardRequest))
    (htraffic : traffic.acceptor = { s.acceptor with requests := requests })
    (new : List ShardResponse) (hshard : s.shards[i]? = some sh)
    (hsent : sh.sent = sh.engine.responses.length)
    (hrequests : ∀ j channel, requests[j]? = some channel →
      List.Forall₂ Ticket.Asks (m (.requests j)) channel)
    (hpending : ∀ requestId, List.Forall₂ Ticket.Waits (m (.pending i requestId))
      (e.core.pendingWrites.lookup requestId).toList)
    (hresponses : e.responses = sh.engine.responses ++ new)
    (hanswers : ∀ base, List.Forall₂ (Ticket.Gets issued) (s.custody (.answers i)) base →
      List.Forall₂ (Ticket.Gets issued) (m (.answers i)) (base ++ new))
    (hothers : ∀ x, (∀ j, x ≠ .requests j) → (∀ requestId, x ≠ .pending i requestId) →
      x ≠ .answers i → m x = s.custody x) :
    Matches ⟨traffic, s.shards.set i { sh with toAnswering := sh.toAnswering.note c e }, m, record,
      waited, s.drained⟩ issued where
  sizes := by
    unfold acceptor
    rw [htraffic]
    exact h.sizes.trans (List.length_set ..).symm
  requests j channel hj := by
    unfold acceptor at hj
    rw [htraffic] at hj
    exact hrequests j channel hj
  -- Another shard keeps what it has: its places are none of those that moved.
  pending j sh' hj requestId := by
    rcases getElem?_set_cases hj with ⟨rfl, rfl⟩ | ⟨hne, hold⟩
    · exact hpending requestId
    · have hplace : ∀ k, Place.pending j requestId ≠ .pending i k := by simp [hne]
      show List.Forall₂ _ (m (.pending j requestId)) _
      rw [hothers _ (by simp) hplace (by simp)]
      exact h.pending j sh' hold requestId
  answers j sh' channel hj hc := by
    unfold acceptor at hc
    rw [htraffic] at hc
    rcases getElem?_set_cases hj with ⟨rfl, rfl⟩ | ⟨hne, hold⟩
    · -- All earlier responses were sent, so those that are to be sent are the new ones.
      have hbefore := h.answers j sh channel hshard hc
      have hunsent : ServerShard.unsent { sh with toAnswering := sh.toAnswering.note c e } =
          new := by
        show e.responses.drop sh.sent = new
        rw [hsent, hresponses, List.drop_left]
      rw [hunsent]
      rw [ServerShard.unsent_of_sent hsent, List.append_nil] at hbefore
      exact hanswers channel hbefore
    · show List.Forall₂ _ (m (.answers j)) _
      rw [hothers _ (by simp) (by simp) (by simpa using hne)]
      exact h.answers j sh' channel hold hc
  queue connId c hc := by
    unfold acceptor at hc
    rw [htraffic] at hc
    show List.Forall₂ _ (m (.queue connId)) _
    rw [hothers _ (by simp) (by simp) (by simp)]
    exact h.queue connId c hc
  written connId c hc := by
    unfold acceptor at hc
    rw [htraffic] at hc
    show List.Forall₂ _ (m (.written connId)) _
    rw [hothers _ (by simp) (by simp) (by simp)]
    exact h.written connId c hc

/-- What is issued when pending writes are settled: to the ticket of each the response to
it. -/
theorem issue_settled {i : Nat} {respond : PendingClientWrite → ShardResponse}
    {gone : List (Σ _ : Nat, PendingClientWrite)} (hgone : gone.NodupKeys)
    {m : Custody Place Ticket}
    (hpending : ∀ w ∈ gone, List.Forall₂ Ticket.Waits (m (.pending i w.1)) [w.2]) :
    issue i (gone.map fun w => (some w.1, respond w.2)) m =
      gone.flatMap fun w => (m (.pending i w.1)).map (⟨·, some w.1, respond w.2⟩) := by
  induction gone generalizing m with
  | nil => rfl
  | cons w gone ih =>
      obtain ⟨hw, hnodup⟩ := List.nodupKeys_cons.mp hgone
      obtain ⟨t, ht, -⟩ := Custody.forall₂_singleton (hpending w (List.mem_cons_self ..))
      have hothers : ∀ v ∈ gone, m.pass (.pending i w.1) (.answers i) (.pending i v.1) =
          m (.pending i v.1) := fun v hv => pass_pending_of_ne (List.ne_key.mp hw v hv) m
      have hrest := ih hnodup (m := m.pass (.pending i w.1) (.answers i)) fun v hv => by
        rw [hothers v hv]
        exact hpending v (List.mem_cons_of_mem _ hv)
      rw [List.map_cons, issue, source, ht, hrest, List.flatMap_cons, ht]
      congr 1
      exact List.flatMap_congr fun v hv => by rw [hothers v hv]

/-- The settled writes of a call were pending, each with the one ticket of its request. -/
theorem Matches.waits (h : s.Matches issued) {i : Nat} {sh : ServerShard} {c : EngineCall}
    {e : ShardEngine} {gone : List (Σ _ : Nat, PendingClientWrite)}
    {respond : PendingClientWrite → ShardResponse} (hshard : s.shards[i]? = some sh)
    (hsettled : sh.engine.Settled c e gone respond) :
    ∀ w ∈ gone, List.Forall₂ Ticket.Waits (s.custody (.pending i w.1)) [w.2] := by
  intro w hw
  have hpend := h.pending i sh hshard w.1
  rwa [hsettled.wasPending w hw] at hpend

/-- A call that handles no request lets no write in. -/
theorem letIn_of_not_request {c : EngineCall} (h : c.isRequest = false) (i : Nat)
    (e : ShardEngine) (m : Custody Place Ticket) : letIn i e c m = m := by
  cases c with
  | request req => cases h
  | _ => rfl

/-- **What a call issues** that handles no request. -/
theorem Matches.issues_call (h : s.Matches issued) {i : Nat} {sh : ServerShard} {c : EngineCall}
    {e : ShardEngine} {gone : List (Σ _ : Nat, PendingClientWrite)}
    {respond : PendingClientWrite → ShardResponse} (hshard : s.shards[i]? = some sh)
    (hrequest : c.isRequest = false) (hsettled : sh.engine.Settled c e gone respond) :
    issues i sh.engine c e s.custody = gone.flatMap fun w =>
      (s.custody (.pending i w.1)).map (⟨·, some w.1, respond w.2⟩) := by
  unfold issues
  rw [letIn_of_not_request hrequest, hsettled.answers, hsettled.responses, List.drop_left,
    List.zip_map']
  exact issue_settled hsettled.distinct (h.waits hshard hsettled)

/-- **A call that handles no request** keeps the tickets with what they are of. -/
theorem Matches.call (h : s.Matches issued) {i : Nat} {sh : ServerShard} {c : EngineCall}
    {e : ShardEngine} (hshard : s.shards[i]? = some sh)
    (hsent : sh.sent = sh.engine.responses.length) (hrequest : c.isRequest = false)
    (hsettles : sh.engine.Settles c e) (hissued : issues i sh.engine c e s.custody ⊆ issued)
    {record : List Issue} {waited : List Ticket} :
    Matches ⟨s.traffic, s.shards.set i { sh with toAnswering := sh.toAnswering.note c e },
      settle i sh.engine c s.custody, record, waited, s.drained⟩ issued := by
  obtain ⟨gone, respond, hsettled⟩ := hsettles.settled hrequest
  -- The tickets of the settled writes move to the answers one after the other.
  have hsettle : settle i sh.engine c s.custody = (gone.map fun w => some w.1).foldl
      (fun m tag => m.pass (source i tag) (.answers i)) s.custody := by
    unfold settle
    rw [hsettled.answers, letIn_of_not_request hrequest]
  have hwaits := h.waits hshard hsettled
  have hanswered : ∀ w ∈ gone, ∀ t ∈ s.custody (.pending i w.1),
      ⟨t, some w.1, respond w.2⟩ ∈ issued := by
    intro w hw t ht
    rw [h.issues_call hshard hrequest hsettled] at hissued
    exact hissued (List.mem_flatMap.mpr ⟨w, hw, List.mem_map_of_mem ht⟩)
  rw [hsettle]
  refine h.called s.acceptor.requests rfl _ hshard hsent (fun j channel hj => ?_)
    (fun requestId => ?_) hsettled.responses
    (fun base hbase => forall₂_settled (fun p => (hsettled.answered p).connectionId_eq)
      hsettled.distinct hwaits hanswered hbase) fun x hrequests hpending hanswers => ?_
  · rw [foldl_pass_of_ne _ _ (by simp) fun tag htag => ?_]
    · exact h.requests j channel hj
    · obtain ⟨w, hw, rfl⟩ := List.mem_map.mp htag
      simp [source]
  · rw [hsettled.pending]
    by_cases hkey : requestId ∈ gone.keys
    · obtain ⟨w, hw, rfl⟩ := List.mem_map.mp hkey
      rw [if_pos hkey, settled_eq_nil hsettled.distinct hwaits w hw]
      exact .nil
    · rw [if_neg hkey, foldl_pass_of_ne _ _ (by simp) fun tag htag => ?_]
      · exact h.pending i sh hshard requestId
      · obtain ⟨w, hw, rfl⟩ := List.mem_map.mp htag
        have hne := List.ne_key.mp hkey w hw
        simpa [source] using hne
  · refine foldl_pass_of_ne _ _ hanswers fun tag htag => ?_
    obtain ⟨w, hw, rfl⟩ := List.mem_map.mp htag
    exact hpending w.1

/-- The channel of requests after a shard has taken the first one. -/
theorem Matches.takeRequest (h : s.Matches issued) {i : Nat} {req : ShardRequest}
    {rest : List ShardRequest} (hchannel : s.acceptor.requests[i]? = some (req :: rest))
    {m : Custody Place Ticket} (htail : m (.requests i) = (s.custody (.requests i)).tail)
    (hothers : ∀ j, j ≠ i → m (.requests j) = s.custody (.requests j)) :
    ∀ j channel, (s.acceptor.requests.set i rest)[j]? = some channel →
      List.Forall₂ Ticket.Asks (m (.requests j)) channel := by
  intro j channel hj
  rcases getElem?_set_cases hj with ⟨rfl, rfl⟩ | ⟨hne, hold⟩
  · rw [htail]
    exact Custody.forall₂_tail (h.requests j _ hchannel)
  · rw [hothers j hne]
    exact h.requests j channel hold

/-- **What a request issues** that is answered as it is handled. -/
theorem issues_answered {i : Nat} {e e' : ShardEngine} {req : ShardRequest} {r : ShardResponse}
    (hnot : ¬ e.Admits req) (hresponses : e'.responses = e.responses ++ [r])
    (m : Custody Place Ticket) :
    issues i e (.request req) e' m = (m (.requests i)).head?.toList.map (⟨·, none, r⟩) := by
  unfold issues letIn ShardEngine.answers
  simp only [if_neg hnot]
  rw [hresponses, List.drop_left]
  exact List.append_nil _

/-- An admitted request issues nothing. -/
theorem issues_admitted {i : Nat} {e e' : ShardEngine} {req : ShardRequest}
    (hadmits : e.Admits req) (m : Custody Place Ticket) :
    issues i e (.request req) e' m = [] := by
  unfold issues ShardEngine.answers
  simp only [if_pos hadmits]
  rfl

/-- **A request is handled**: its ticket goes with its response, or with a pending write. -/
theorem Matches.handle (h : s.Matches issued) {i : Nat} {sh : ServerShard} {req : ShardRequest}
    {rest : List ShardRequest} {e : ShardEngine} (hshard : s.shards[i]? = some sh)
    (hchannel : s.acceptor.requests[i]? = some (req :: rest))
    (hsent : sh.sent = sh.engine.responses.length) (haccounts : sh.Accounts)
    (hsettles : sh.engine.Settles (.request req) e)
    (hissued : issues i sh.engine (.request req) e s.custody ⊆ issued) {traffic : Traffic}
    (htraffic : traffic.acceptor =
      { s.acceptor with requests := s.acceptor.requests.set i rest })
    {record : List Issue} {waited : List Ticket} :
    Matches ⟨traffic,
      s.shards.set i { sh with toAnswering := sh.toAnswering.note (.request req) e },
      settle i sh.engine (.request req) s.custody, record, waited, s.drained⟩ issued := by
  -- The first ticket of the shard is that of the request.
  obtain ⟨ticket, tickets, hasks, -, htickets⟩ :=
    List.forall₂_cons_right_iff.mp (h.requests i _ hchannel)
  cases hsettles with
  | @answered _ r _ hnot hconn hbooks =>
      have hpending : e.core.pendingWrites = sh.engine.core.pendingWrites :=
        congrArg Books.pending hbooks
      have hsettle : settle i sh.engine (.request req) s.custody =
          s.custody.pass (.requests i) (.answers i) := by
        unfold settle letIn ShardEngine.answers
        simp only [if_neg hnot]
        rfl
      rw [hsettle]
      refine h.called _ htraffic _ hshard hsent
        (h.takeRequest hchannel (Custody.pass_source (by simp) _)
          fun j hj => Custody.pass_of_ne (by simpa using hj) (by simp) _)
        (fun requestId => ?_) (congrArg Books.responses hbooks) (fun base hbase => ?_)
        fun x hx _ hx' => Custody.pass_of_ne (hx i) hx' _
      · rw [Custody.pass_of_ne (by simp) (by simp), hpending]
        exact h.pending i sh hshard requestId
      · rw [Custody.pass_target (by simp), htickets]
        refine List.rel_append hbase (.cons ⟨?_, none, ?_⟩ .nil)
        · rw [hconn, show req = _ from hasks]
        · rw [issues_answered hnot (congrArg Books.responses hbooks), htickets] at hissued
          exact hissued (List.mem_singleton_self _)
  | admitted hadmits hbooks =>
      have hpending : e.core.pendingWrites =
          sh.engine.core.pendingWrites.insert (sh.engine.core.requestSeq + 1)
            (sh.engine.pendingOf req) := congrArg Books.pending hbooks
      have hsettle : settle i sh.engine (.request req) s.custody =
          s.custody.pass (.requests i) (.pending i (sh.engine.core.requestSeq + 1)) := by
        unfold settle letIn ShardEngine.answers
        simp only [if_pos hadmits]
        rfl
      rw [hsettle]
      refine h.called _ htraffic [] hshard hsent
        (h.takeRequest hchannel (Custody.pass_source (by simp) _)
          fun j hj => Custody.pass_of_ne (by simpa using hj) (by simp) _)
        (fun requestId => ?_)
        ((congrArg Books.responses hbooks).trans (List.append_nil _).symm) (fun base hbase => ?_)
        fun x hx hx' _ => Custody.pass_of_ne (hx i) (hx' _) _
      · rw [hpending, AssocMap.lookup_insert_eq]
        by_cases hid : requestId = sh.engine.core.requestSeq + 1
        · -- Nothing was pending under the new request id.
          subst hid
          have hnone := h.pending i sh hshard (sh.engine.core.requestSeq + 1)
          rw [AList.lookup_eq_none.mpr haccounts.next_notMem] at hnone
          rw [if_pos rfl, Custody.pass_target (by simp), htickets,
            List.forall₂_nil_right_iff.mp hnone]
          refine .cons ?_ .nil
          rw [show req = _ from hasks]
          exact ⟨rfl, rfl, rfl⟩
        · rw [if_neg hid, Custody.pass_of_ne (by simp) (by simpa using hid)]
          exact h.pending i sh hshard requestId
      · rw [Custody.pass_of_ne (by simp) (by simp), List.append_nil]
        exact hbase
  | quiet _ hnot _ _ => exact absurd rfl (hnot req)

/-! ### Sending -/

/-- **A response is sent**: it changes from what is to be sent into the channel. -/
theorem Matches.send (h : s.Matches issued) {i : Nat} {sh : ServerShard} {r : ShardResponse}
    {channel : List ShardResponse} (hshard : s.shards[i]? = some sh)
    (hnext : sh.engine.responses[sh.sent]? = some r)
    (hchannel : s.acceptor.responses[i]? = some channel) :
    Matches { s with
      traffic := { s.traffic with
        acceptor := { s.acceptor with responses := s.acceptor.responses.set i (channel ++ [r]) } }
      shards := s.shards.set i { sh with sent := sh.sent + 1 } } issued := by
  have hunsent := ServerShard.unsent_of_next hnext
  refine ⟨?_, h.requests, fun j sh' hj requestId => ?_, fun j sh' channel' hj hc => ?_, h.queue,
    h.written⟩
  · rw [List.length_set]
    exact (List.length_set ..).trans h.sizes
  · rcases getElem?_set_cases hj with ⟨rfl, rfl⟩ | ⟨hne, hold⟩
    · exact h.pending j sh hshard requestId
    · exact h.pending j sh' hold requestId
  · rcases getElem?_set_cases hj with ⟨rfl, rfl⟩ | ⟨hne, hold⟩
    · rcases getElem?_set_cases hc with ⟨-, rfl⟩ | ⟨hne, -⟩
      · rw [List.append_assoc, List.singleton_append, ← hunsent]
        exact h.answers j sh channel hshard hchannel
      · exact absurd rfl hne
    · rcases getElem?_set_cases hc with ⟨heq, -⟩ | ⟨-, hold'⟩
      · exact absurd heq hne
      · exact h.answers j sh' channel' hold hold'

/-- **A response is dropped**, and its ticket with it. -/
theorem Matches.drop (h : s.Matches issued) {i : Nat} {sh : ServerShard} {r : ShardResponse}
    (hshard : s.shards[i]? = some sh) (hnext : sh.engine.responses[sh.sent]? = some r) :
    Matches { s with
      shards := s.shards.set i { sh with sent := sh.sent + 1 }
      custody := s.custody.keep (.answers i) ((s.custody (.answers i)).eraseIdx
        (s.acceptor.responses.getD i []).length) } issued := by
  refine ⟨h.sizes.trans (List.length_set ..).symm, fun j channel hj => ?_,
    fun j sh' hj requestId => ?_, fun j sh' channel hj hc => ?_, fun connId c hc => ?_,
    fun connId c hc => ?_⟩
  all_goals dsimp only
  · rw [Custody.keep_of_ne (by simp)]
    exact h.requests j channel hj
  · rw [Custody.keep_of_ne (by simp)]
    rcases getElem?_set_cases hj with ⟨rfl, rfl⟩ | ⟨hne, hold⟩
    · exact h.pending j sh hshard requestId
    · exact h.pending j sh' hold requestId
  · rcases getElem?_set_cases hj with ⟨rfl, rfl⟩ | ⟨hne, hold⟩
    · have hbefore := Custody.forall₂_eraseIdx (h.answers j sh channel hshard hc) channel.length
      -- The response is the first behind those in the channel, and its ticket goes with it.
      have hrest : (channel ++ sh.unsent).eraseIdx channel.length =
          channel ++ ServerShard.unsent { sh with sent := sh.sent + 1 } := by
        rw [ServerShard.unsent_of_next hnext, List.eraseIdx_append_of_length_le (Nat.le_refl _),
          Nat.sub_self]
        rfl
      have hlength : (s.acceptor.responses.getD j []).length = channel.length := by
        have hc' : s.acceptor.responses[j]? = some channel := hc
        rw [List.getD_eq_getElem?_getD, hc']
        rfl
      rw [Custody.keep_self, hlength, ← hrest]
      exact hbefore
    · rw [Custody.keep_of_ne (by simpa using hne)]
      exact h.answers j sh' channel hold hc
  · rw [Custody.keep_of_ne (by simp)]
    exact h.queue connId c hc
  · rw [Custody.keep_of_ne (by simp)]
    exact h.written connId c hc

end Server

end WalServer
