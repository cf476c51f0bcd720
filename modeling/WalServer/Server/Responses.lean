import WalServer.Server.Issues

/-!
# `WalServer.Server.Responses`: whose responses a socket gets

In every run of the server the tickets are right and match what is there, and so are the
responses that were issued for them (`consistent_of_reachable`).

* `responses_answer_own_requests`: what is written to a socket are the responses that were
  issued for requests that were decoded from it, each at most once.
* `responses_in_order`: they are written in the order of the requests, but for requests
  that went different ways, and for pending writes, which may be overtaken.
-/

set_option autoImplicit false

namespace WalServer

open Lib Protocol Net Shard

variable {hash : Bytes → UInt32} {config : AcceptorConfig} {s t : Server} {issued : List Issue}

/-! ### The tickets of a step -/

/-- **A step of the acceptor's thread** keeps the tickets right. -/
theorem Tickets.carry (h : Tickets s.traffic.dispatched s.waited s.custody)
    (hmatch : s.Matches issued) {a : Acceptor.Action} {u : Acceptor}
    (hmoved : Acceptor.Moved config s.acceptor a u) :
    Tickets (s.traffic.record config a u).dispatched s.waited (s.carry config a u) := by
  cases hmoved with
  | quiet hdispatches hflushes hdrains _ _ _ =>
      rw [Server.carry_of_none u hdispatches hflushes hdrains,
        Traffic.dispatched_of_none u hdispatches]
      exact h
  | @sent connId d channel hdispatches _ _ _ _ _ =>
      rw [Server.carry_of_dispatches u hdispatches, Traffic.dispatched_of_some u hdispatches]
      exact h.enter connId d
  | @refused connId d hdispatches _ _ _ _ _ =>
      rw [Server.carry_of_dispatches u hdispatches, Traffic.dispatched_of_some u hdispatches]
      exact h.enter connId d
  | @flushed connId hdispatches hflushes _ _ _ _ =>
      rw [Server.carry_of_flushes u hdispatches hflushes,
        Traffic.dispatched_of_none u hdispatches]
      exact h.pass (.written connId) fun t ht =>
        (h.fits (.queue connId) t (List.mem_of_head? ht)).2
  | @drained shard r rest hdispatches hflushes hdrains _ hchannel _ _ _ =>
      rw [Server.carry_of_drains u hdispatches hflushes hdrains,
        Traffic.dispatched_of_none u hdispatches]
      split
      · -- The ticket is of the connection that the response is for.
        refine h.pass (.delivered shard r.connectionId) fun t ht => ?_
        obtain ⟨sh, hsh⟩ := hmatch.exists_shard hchannel
        have hgets := Custody.forall₂_head? (hmatch.answers shard sh _ hsh hchannel)
        rw [ht] at hgets
        obtain ⟨hhead, -⟩ := List.forall₂_cons.mp hgets
        exact ⟨(h.fits (.answers shard) t (List.mem_of_head? ht)).1, hhead.1.symm⟩
      · exact h.keep (List.tail_sublist _)

/-- **A call of a shard** keeps the tickets right. -/
theorem Tickets.settle {dispatched : Nat → List Dispatch} {waited : List Ticket}
    {m : Custody Place Ticket} (h : Tickets dispatched waited m) (i : Nat) (e : ShardEngine)
    (c : EngineCall) :
    Tickets dispatched (waited ++ Server.admitted i e c m) (Server.settle i e c m) := by
  unfold Server.settle
  refine Tickets.passAll ?_ i _
  have hwait := h.wait (Server.admitted i e c m)
  unfold Server.letIn
  cases c with
  | request req =>
      dsimp only
      split
      · rename_i hadmits
        refine hwait.pass (.admitted i _) fun t ht => ?_
        obtain ⟨htaken, hshard⟩ := h.fits (.requests i) t (List.mem_of_head? ht)
        refine ⟨htaken, hshard, List.mem_append_right _ ?_⟩
        unfold Server.admitted
        simp only [if_pos hadmits, ht]
        exact List.mem_singleton_self t
      · exact hwait
  | _ => exact hwait

namespace Server

/-! ### Every run -/

/-- **What holds in every run** of the server. -/
structure Consistent (hash : Bytes → UInt32) (config : AcceptorConfig) (s : Server) : Prop where
  steady : s.acceptor.Steady
  framed : s.traffic.Framed config
  accounts : ∀ sh ∈ s.shards, sh.Accounts
  inUse : ∀ sh ∈ s.shards, sh.engine.InUse hash
  tickets : Tickets s.traffic.dispatched s.waited s.custody
  isMatch : s.Matches s.issued
  issues : s.Issues hash
  writes : ∀ t ∈ s.waited, t.dispatch.request.op = .write

/-- The next connection has dispatched nothing. -/
theorem Consistent.dispatched_next (h : s.Consistent hash config) :
    s.traffic.dispatched s.acceptor.nextConnId.value = [] :=
  (h.framed.fresh _ (Nat.le_refl _)).2

/-- What begins to wait is the ticket of a write. -/
theorem Matches.write_of_admitted (h : s.Matches issued) {i : Nat} {req : ShardRequest}
    {rest : List ShardRequest} (hchannel : s.acceptor.requests[i]? = some (req :: rest))
    {e : ShardEngine} {t : Ticket} (ht : t ∈ admitted i e (.request req) s.custody) :
    t.dispatch.request.op = .write := by
  unfold admitted at ht
  dsimp only at ht
  split at ht
  · rename_i hadmits
    obtain ⟨ticket, tickets, hasks, -, htickets⟩ :=
      List.forall₂_cons_right_iff.mp (h.requests i _ hchannel)
    rw [htickets] at ht
    have hop := hadmits.1
    rw [show req = _ from hasks] at hop
    rwa [List.mem_singleton.mp ht]
  · cases ht

/-- Other calls leave no write pending. -/
theorem admitted_eq_nil {c : EngineCall} (h : c.isRequest = false) (i : Nat) (e : ShardEngine)
    (m : Custody Place Ticket) : admitted i e c m = [] := by
  cases c with
  | request req => cases h
  | _ => rfl

/-- What holds of all shards, and of what one of them becomes, holds of all again. -/
theorem forall_mem_set {P : ServerShard → Prop} {shards : List ServerShard}
    (h : ∀ sh ∈ shards, P sh) {x : ServerShard} (hx : P x) (i : Nat) :
    ∀ sh ∈ shards.set i x, P sh := by
  intro sh hsh
  rcases List.mem_or_eq_of_mem_set hsh with hold | rfl
  · exact h sh hold
  · exact hx

/-- A shard that sends keeps its record. -/
theorem grows_of_sent {i : Nat} {sh : ServerShard} (hshard : s.shards[i]? = some sh)
    {traffic : Traffic} {custody : Custody Place Ticket} :
    s.Grows hash { s with
      traffic := traffic
      shards := s.shards.set i { sh with sent := sh.sent + 1 }
      custody := custody } := by
  intro j sh' hj
  by_cases hij : j = i
  · subst hij
    rw [hshard] at hj
    cases hj
    exact ⟨_, List.getElem?_set_self (List.getElem?_eq_some_iff.mp hshard).1,
      List.Subset.refl _, List.prefix_rfl, [], rfl⟩
  · exact ⟨sh', (List.getElem?_set_ne (Ne.symm hij)).trans hj, List.Subset.refl _,
      List.prefix_rfl, [], rfl⟩

theorem answered_of_sent {i : Nat} {sh : ServerShard} (hshard : s.shards[i]? = some sh)
    (h : ∀ (j : Nat) (sh : ServerShard), s.shards[j]? = some sh → s.issuedBy j = sh.answered)
    (j : Nat) (sh' : ServerShard)
    (hj : (s.shards.set i { sh with sent := sh.sent + 1 })[j]? = some sh') :
    s.issuedBy j = sh'.answered := by
  rcases getElem?_set_cases hj with ⟨rfl, rfl⟩ | ⟨-, hold⟩
  · exact h j sh hshard
  · exact h j sh' hold

/-- **Every step** keeps it. -/
theorem Consistent.step (h : s.Consistent hash config) {a : ServerAction}
    (hstep : s.step hash config a = some t) : t.Consistent hash config := by
  cases ran_of_step hstep with
  | @moved a u hthread hmove =>
      -- A thread that has panicked takes no step, so before this one all was in order.
      have horderly : s.acceptor.Orderly :=
        h.steady.resolve_right (Acceptor.not_panicked_of_step hthread hmove)
      have hmoved := Acceptor.moved_of_step horderly hthread h.framed.parsing hmove
      exact {
        steady := h.steady.step hmove
        framed := h.framed.step hmove
        accounts := h.accounts
        inUse := h.inUse
        tickets := h.tickets.carry h.isMatch hmoved
        isMatch := (h.isMatch.mono (List.subset_append_left ..)).moved h.tickets h.framed
          (List.subset_append_right ..) hmoved
        issues := h.issues.moved h.tickets a u
        writes := h.writes }
  -- The request leaves its channel and its ticket goes where the call puts it.
  | @handled i sh req rest e hshard hchannel hsent hcall =>
      have haccounts := h.accounts sh (List.mem_of_getElem? hshard)
      have hinUse := h.inUse sh (List.mem_of_getElem? hshard)
      have hsettles := ShardEngine.settles_of_call hcall
      have htickets := h.tickets.settle i sh.engine (.request req)
      exact {
        steady := h.steady.step (step_takeRequest config hchannel)
        framed := (h.framed.step (step_takeRequest config hchannel)).took _
        accounts := forall_mem_set h.accounts (haccounts.note hsettles) i
        inUse := forall_mem_set h.inUse (hinUse.call hcall) i
        tickets := htickets
        isMatch := (h.isMatch.mono (List.subset_append_left ..)).handle hshard hchannel hsent
          haccounts hsettles (List.subset_append_right ..) rfl
        issues := h.issues.handle h.tickets h.isMatch hshard hinUse hchannel hcall
          htickets.distinct (by rfl)
        writes := fun t ht => by
          rcases List.mem_append.mp ht with hold | hnew
          · exact h.writes t hold
          · exact h.isMatch.write_of_admitted hchannel hnew }
  | @called i sh c e hrequest hshard hsent hcall =>
      have haccounts := h.accounts sh (List.mem_of_getElem? hshard)
      have hsettles := ShardEngine.settles_of_call hcall
      have htickets := h.tickets.settle i sh.engine c
      exact {
        steady := h.steady
        framed := h.framed
        accounts := forall_mem_set h.accounts (haccounts.note hsettles) i
        inUse := forall_mem_set h.inUse
          ((h.inUse sh (List.mem_of_getElem? hshard)).call hcall) i
        tickets := htickets
        isMatch := (h.isMatch.mono (List.subset_append_left ..)).call hshard hsent hrequest
          hsettles (List.subset_append_right ..)
        issues := h.issues.call h.tickets h.isMatch haccounts hshard hrequest hcall
          htickets.distinct
        writes := by
          rw [admitted_eq_nil hrequest, List.append_nil]
          exact h.writes }
  | @sent i sh r channel hshard hnext hchannel hroom =>
      exact {
        steady := h.steady.step (step_respond hchannel hroom r)
        framed := h.framed.step (step_respond hchannel hroom r)
        accounts := forall_mem_set (x := { sh with sent := sh.sent + 1 }) h.accounts
          (h.accounts sh (List.mem_of_getElem? hshard)) i
        inUse := forall_mem_set (x := { sh with sent := sh.sent + 1 }) h.inUse
          (h.inUse sh (List.mem_of_getElem? hshard)) i
        tickets := h.tickets
        isMatch := h.isMatch.send hshard hnext hchannel
        issues := h.issues.quiet rfl (fun _ => List.prefix_rfl) (grows_of_sent hshard) h.issues.done
          (answered_of_sent hshard h.issues.answered)
        writes := h.writes }
  -- The channel is full: the response and its ticket are both gone.
  | @dropped i sh r hshard hnext hfull =>
      exact {
        steady := h.steady
        framed := h.framed
        accounts := forall_mem_set (x := { sh with sent := sh.sent + 1 }) h.accounts
          (h.accounts sh (List.mem_of_getElem? hshard)) i
        inUse := forall_mem_set (x := { sh with sent := sh.sent + 1 }) h.inUse
          (h.inUse sh (List.mem_of_getElem? hshard)) i
        tickets := h.tickets.keep (List.eraseIdx_sublist _ _)
        isMatch := h.isMatch.drop hshard hnext
        issues := by
          refine h.issues.quiet rfl (fun _ => List.prefix_rfl) (grows_of_sent hshard)
            (fun x hx p hp => ?_) (answered_of_sent hshard h.issues.answered)
          -- The place that the ticket leaves is behind those of requests and pending writes.
          have hne : p ≠ .answers i := by
            rintro rfl
            simp at hp
          show x.ticket ∉ s.custody.keep _ _ p
          rw [Custody.keep_of_ne hne]
          exact h.issues.done x hx p hp
        writes := h.writes }

/-- The server starts so. -/
theorem consistent_start {engines : List ShardEngine} (hopened : Opened hash engines) :
    (start config engines).Consistent hash config where
  steady := by
    have hinit : (Acceptor.system config engines.length).Reachable Acceptor.Calm
        (Acceptor.start engines.length) := .init
    exact Or.inl (Acceptor.orderly_of_reachable hinit)
  framed := Traffic.framed_of_reachable .init
  accounts sh hsh := by
    obtain ⟨e, he, rfl⟩ := List.mem_map.mp hsh
    obtain ⟨shardId, config', file, dir, createdTsNs, hopen⟩ := hopened e he
    obtain ⟨recovered, w, dir', index, streams, -, -, rfl⟩ := ShardEngine.openEngine_eq_ok hopen
    exact Answering.accounts_opened rfl rfl
  inUse sh hsh := by
    obtain ⟨e, he, rfl⟩ := List.mem_map.mp hsh
    obtain ⟨shardId, config', file, dir, createdTsNs, hopen⟩ := hopened e he
    exact ⟨shardId, config', file, dir, createdTsNs, e, [], hopen, rfl⟩
  tickets := Tickets.empty
  writes t ht := by cases ht
  issues := by
    refine ⟨fun x hx => (by cases hx), List.nodup_nil, fun x hx => (by cases hx),
      fun x hx => (by cases hx), fun i sh hi => ?_⟩
    obtain ⟨e, -, rfl⟩ := List.mem_map.mp (List.mem_of_getElem? hi)
    rfl
  isMatch := by
    have hshard : ∀ (i : Nat) (sh : ServerShard), (start config engines).shards[i]? = some sh →
        ∃ e ∈ engines, sh = ⟨.opened e, 0⟩ := by
      intro i sh hi
      obtain ⟨e, he, rfl⟩ := List.mem_map.mp (List.mem_of_getElem? hi)
      exact ⟨e, he, rfl⟩
    -- A shard that was just opened has no write pending and no response to send.
    have hempty : ∀ e ∈ engines, e.core.pendingWrites = ∅ ∧ e.responses = [] := by
      intro e he
      obtain ⟨shardId, config', file, dir, createdTsNs, hopen⟩ := hopened e he
      obtain ⟨recovered, w, dir', index, streams, -, -, rfl⟩ := ShardEngine.openEngine_eq_ok hopen
      exact ⟨rfl, rfl⟩
    have hchannel : ∀ {α : Type} {i : Nat} {channel : List α},
        (List.replicate engines.length ([] : List α))[i]? = some channel → channel = [] := by
      intro α i channel hi
      exact List.eq_of_mem_replicate (List.mem_of_getElem? hi)
    refine ⟨?_, fun i channel hi => ?_, fun i sh hi requestId => ?_,
      fun i sh channel hi hc => ?_, fun connId c hc => (by cases hc),
      fun connId c hc => (by cases hc)⟩
    · exact (List.length_replicate ..).trans (List.length_map ..).symm
    · rw [hchannel hi]
      exact .nil
    · obtain ⟨e, he, rfl⟩ := hshard i sh hi
      show List.Forall₂ _ _ (e.core.pendingWrites.lookup requestId).toList
      rw [(hempty e he).1]
      exact .nil
    · obtain ⟨e, he, rfl⟩ := hshard i sh hi
      have hunsent : ServerShard.unsent ⟨.opened e, 0⟩ = [] := by
        show e.responses.drop 0 = []
        rw [(hempty e he).2]
        rfl
      rw [hchannel hc, hunsent]
      exact .nil

/-- Every run of the server keeps it. -/
theorem consistent_of_reachable {engines : List ShardEngine} (hopened : Opened hash engines)
    (h : (system hash config engines).Reachable System.anyStep s) : s.Consistent hash config :=
  h.invariant (I := fun s => s.Consistent hash config) (consistent_start hopened)
    fun _ _ _ _ hconsistent _ hstep => hconsistent.step hstep

/-! ### Connections that come later -/

/-- What a connection has dispatched stays so. -/
theorem dispatched_of_step {a : ServerAction} (hstep : s.step hash config a = some t)
    (connId : Nat) : s.traffic.dispatched connId <+: t.traffic.dispatched connId := by
  cases ran_of_step hstep with
  | @moved a u _ _ => exact dispatched_of_record s a u connId
  | handled _ _ _ _ => exact List.prefix_rfl
  | called _ _ _ _ => exact List.prefix_rfl
  | sent _ _ _ _ => exact List.prefix_rfl
  | dropped _ _ _ => exact List.prefix_rfl

/-- A connection that is open after a step was open, or it gets the next id. -/
theorem exists_or_new_of_step (h : s.Consistent hash config) {a : ServerAction}
    (hstep : s.step hash config a = some t) {connId : Nat} {c : Connection}
    (hlookup : t.acceptor.connections.lookup connId = some c) :
    (∃ c, s.acceptor.connections.lookup connId = some c) ∨
      connId = s.acceptor.nextConnId.value := by
  cases ran_of_step hstep with
  | moved hthread hmove =>
      have horderly : s.acceptor.Orderly :=
        h.steady.resolve_right (Acceptor.not_panicked_of_step hthread hmove)
      exact (Acceptor.moved_of_step horderly hthread h.framed.parsing hmove).exists_or_new hlookup
  | handled _ _ _ _ => exact Or.inl ⟨c, hlookup⟩
  | called _ _ _ _ => exact Or.inl ⟨c, hlookup⟩
  | sent _ _ _ _ => exact Or.inl ⟨c, hlookup⟩
  | dropped _ _ _ => exact Or.inl ⟨c, hlookup⟩

/-- **A connection that came later** has no id of a ticket that was there before. -/
theorem connId_ne_of_later (h : s.Consistent hash config) {engines : List ShardEngine}
    (hrun : ((system hash config engines).startingFrom s).Reachable System.anyStep t)
    {connId : Nat} (hlater : s.acceptor.connections.lookup connId = none)
    {c : Connection} (hopen : t.acceptor.connections.lookup connId = some c) {p : Place}
    {ticket : Ticket} (hticket : ticket ∈ s.custody p) : ticket.connId ≠ connId := by
  -- The records of the connections that have dispatched something only grow, so none of
  -- them is the one that the next connection starts.
  have hinv : t.Consistent hash config ∧
      (∀ id, s.traffic.dispatched id <+: t.traffic.dispatched id) ∧
      ∀ c, t.acceptor.connections.lookup connId = some c → ticket.connId ≠ connId := by
    refine hrun.invariant (I := fun t => t.Consistent hash config ∧
      (∀ id, s.traffic.dispatched id <+: t.traffic.dispatched id) ∧
      ∀ c, t.acceptor.connections.lookup connId = some c → ticket.connId ≠ connId) ?_ ?_
    · refine ⟨h, fun id => List.prefix_rfl, fun c hlookup => ?_⟩
      rw [show s.acceptor.connections.lookup connId = some c from hlookup] at hlater
      cases hlater
    · rintro u a v - ⟨hconsistent, hgrown, hnever⟩ - hstep
      refine ⟨hconsistent.step hstep,
        fun id => (hgrown id).trans (dispatched_of_step hstep id), fun c hlookup => ?_⟩
      rcases exists_or_new_of_step hconsistent hstep hlookup with ⟨c₀, hold⟩ | rfl
      · exact hnever c₀ hold
      · intro heq
        have hgrew := hgrown ticket.connId
        have hlt := h.tickets.number_lt hticket
        rw [heq] at hgrew hlt
        rw [hconsistent.dispatched_next] at hgrew
        rw [List.prefix_nil.mp hgrew] at hlt
        exact Nat.not_lt_zero _ hlt
  exact hinv.2.2 c hopen

/-! ### Whose responses a socket gets -/

/-- **What was written to a socket** are the responses that were issued for requests that
were decoded from it, each of them at most once. -/
structure AnswersOwnRequests (s : Server) (connId : Nat) : Prop where
  /-- What was dispatched was decoded from what the socket has received. -/
  decoded : s.traffic.requests connId <+:
    (requestFraming.parseAll (s.traffic.received connId)).frames
  own : ∀ t ∈ s.custody (.written connId),
    t.connId = connId ∧ (s.traffic.dispatched connId)[t.number]? = some t.dispatch
  once : ((s.custody (.written connId)).map Ticket.number).Nodup
  written : ∀ c, s.acceptor.connections.lookup connId = some c →
    List.Forall₂ (Ticket.WrittenAs s.issued) (s.custody (.written connId)) c.socket

theorem Consistent.answersOwnRequests (h : s.Consistent hash config) (connId : Nat) :
    s.AnswersOwnRequests connId := by
  have hown : ∀ t ∈ s.custody (.written connId), t.connId = connId :=
    fun t ht => h.tickets.fits (.written connId) t ht
  refine ⟨?_, fun t ht => ⟨hown t ht, ?_⟩, ?_, h.isMatch.written connId⟩
  · obtain ⟨rest, hframes⟩ := h.framed.begun connId
    exact ⟨rest, hframes.symm⟩
  · have hknown := h.tickets.known (.written connId) t ht
    rwa [hown t ht] at hknown
  · -- Two tickets of the connection with one number would be the same one.
    refine List.pairwise_map.mpr ((h.tickets.distinct.within _).imp_of_mem ?_)
    intro a b ha hb hne hnumber
    have hconn := (hown a ha).trans (hown b hb).symm
    exact hne (h.tickets.eq_of_number ha hb hconn hnumber)

/-- In every run of the server, each response that is written to a socket is the one that
was issued for a request that was decoded from it, no two for the same one. What is
issued is due: a refusal, what the engine of the request's shard has answered as it
handled it, or the answer to the pending write that it has left; and these are all
responses of the engines, in order. What is on its way when a connection is not there is
never for that connection if it is accepted later. -/
theorem responses_answer_own_requests {engines : List ShardEngine}
    (hopened : Opened hash engines)
    (h : (system hash config engines).Reachable System.anyStep s) :
    (∀ connId, s.AnswersOwnRequests connId) ∧ s.Issues hash ∧
      (∀ (i : Nat) (sh : ServerShard), s.shards[i]? = some sh →
        (s.issuedBy i).map Prod.snd = sh.engine.responses) ∧
      ∀ t, ((system hash config engines).startingFrom s).Reachable System.anyStep t →
        ∀ connId c, s.acceptor.connections.lookup connId = none →
          t.acceptor.connections.lookup connId = some c →
          ∀ p, ∀ ticket ∈ s.custody p,
            ticket ∉ t.custody (.queue connId) ∧ ticket ∉ t.custody (.written connId) := by
  have hconsistent := consistent_of_reachable hopened h
  refine ⟨hconsistent.answersOwnRequests, hconsistent.issues, fun i sh hi => ?_,
    fun t hrun connId c hlater hopen p ticket hticket => ?_⟩
  · rw [hconsistent.issues.answered i sh hi]
    exact (hconsistent.accounts sh (List.mem_of_getElem? hi)).sent
  have hne := connId_ne_of_later hconsistent hrun hlater hopen hticket
  have htickets := (consistent_of_reachable hopened (h.trans hrun)).tickets
  exact ⟨fun hmem => hne (htickets.fits _ _ hmem).2, fun hmem => hne (htickets.fits _ _ hmem)⟩

/-! ### Concrete runs -/

/-- A client connects, and sends its requests at once. -/
def pipelined (requests : List Request) : List ServerAction :=
  [.thread .accept, .thread (.spawn 0),
    .thread (.selected 0 (.received (requests.flatMap encodeRequest)))] ++
    List.replicate (requests.length + 1) (.thread (.parse true))

/-- The drainer wakes up, and takes so many responses from the channels. -/
def delivery (shards responses : Nat) : List ServerAction :=
  .thread .wakeDrainer :: List.replicate (responses + 2 * shards + 2) (.thread .drain)

/-- The task of the client's connection writes two responses. -/
def bothWritten : List ServerAction :=
  [.thread (.selected 0 .slept), .thread (.written 0 true)]

/-- An engine of node 1 as it is opened for the first time. -/
def nodeOne (shardId : Nat) : ShardEngine := ShardEngine.freshEngine shardId ⟨1, 64, 4, [1]⟩ 0

theorem opened_nodeOne (hash : Bytes → UInt32) (shardIds : List Nat) :
    Opened hash (shardIds.map nodeOne) := by
  intro e he
  obtain ⟨shardId, -, rfl⟩ := List.mem_map.mp he
  exact ⟨shardId, _, _, _, _, ShardEngine.openEngine_fresh hash shardId _ 0⟩

/-- A pending write is applied before the next request is handled. -/
def appliedFirst : List ServerAction :=
  [.call 0 (.move ⟨.leader, 1, 0, 0, true⟩), .handle 0,
    .call 0 (.apply ⟨fun _ => 0, fun _ => 0⟩
      ⟨.entryNormal, 1, 1, Raft.encodeAppendCommand ⟨1, 7, 0, 0, []⟩⟩),
    .send 0, .handle 0, .send 0] ++ delivery 1 2 ++ bothWritten

/-- Two requests of the status, answered one after the other. -/
def twoStatuses : List ServerAction :=
  pipelined [⟨.getStatus, 7, 0, 0, []⟩, ⟨.getStatus, 8, 0, 0, []⟩] ++
    [.handle 0, .send 0, .handle 0, .send 0] ++ delivery 1 2 ++ bothWritten

/-- A write that is applied, and a status behind it, each written with the response that
was issued for it. -/
theorem responses_answer_own_requests_applied :
    ∃ s, (system (fun _ => 0) ⟨1, 8, fun _ => 0⟩ ([0].map nodeOne)).Reachable System.anyStep s ∧
      ((s.custody (.written 0)).map Ticket.number = [0, 1] ∧
        s.issued.map (fun x => (x.ticket.number, x.tag)) = [(0, some 1), (1, none)]) ∧
      s.AnswersOwnRequests 0 ∧ s.Issues fun _ => 0 := by
  obtain ⟨s, hreach, hissued⟩ := System.exists_reachable_of_execute
    (system (fun _ => 0) ⟨1, 8, fun _ => 0⟩ ([0].map nodeOne)) System.anyStep
    (pipelined [⟨.write, 7, 0, 0, []⟩, ⟨.getStatus, 7, 0, 0, []⟩] ++ appliedFirst)
    (fun s => (s.custody (.written 0)).map Ticket.number = [0, 1] ∧
      s.issued.map (fun x => (x.ticket.number, x.tag)) = [(0, some 1), (1, none)])
    (by decide +kernel)
  obtain ⟨hown, hissues, -, -⟩ := responses_answer_own_requests (opened_nodeOne _ _) hreach
  exact ⟨s, hreach, hissued, hown 0, hissues⟩

/-! ### The order of responses -/

/-- In every run of the server, the responses on a socket, each the one that was issued
for its request, are in the order of the requests, but for a request that was refused or
went to another shard, which may be answered before an earlier one, and for a write that
was left pending, which any later request may be answered before. -/
theorem responses_in_order {engines : List ShardEngine} (hopened : Opened hash engines)
    (h : (system hash config engines).Reachable System.anyStep s) (connId : Nat) :
    (s.custody (.written connId)).Pairwise (Ticket.InOrder s.waited) ∧
      (∀ t ∈ s.custody (.written connId),
        t.connId = connId ∧ (s.traffic.dispatched connId)[t.number]? = some t.dispatch) ∧
      (∀ c, s.acceptor.connections.lookup connId = some c →
        List.Forall₂ (Ticket.WrittenAs s.issued) (s.custody (.written connId)) c.socket) ∧
      s.Issues hash ∧ ∀ t ∈ s.waited, t.dispatch.request.op = .write := by
  have hconsistent := consistent_of_reachable hopened h
  have hown := hconsistent.answersOwnRequests connId
  exact ⟨hconsistent.tickets.ordered.within _, hown.own, hown.written, hconsistent.issues,
    hconsistent.writes⟩

/-- The two requests of the status are answered in their order. -/
theorem responses_in_order_twoStatuses :
    ∃ s, (system (fun _ => 0) ⟨1, 8, fun _ => 0⟩ ([0].map nodeOne)).Reachable System.anyStep s ∧
      (s.custody (.written 0)).map Ticket.number = [0, 1] ∧
      (s.custody (.written 0)).Pairwise (Ticket.InOrder s.waited) ∧ s.Issues fun _ => 0 := by
  obtain ⟨s, hreach, hnumbers⟩ := System.exists_reachable_of_execute
    (system (fun _ => 0) ⟨1, 8, fun _ => 0⟩ ([0].map nodeOne)) System.anyStep twoStatuses
    (fun s => (s.custody (.written 0)).map Ticket.number = [0, 1]) (by decide +kernel)
  obtain ⟨hordered, -, -, hissues, -⟩ := responses_in_order (opened_nodeOne _ _) hreach 0
  exact ⟨s, hreach, hnumbers, hordered, hissues⟩

/-- A run in which a client sends two requests at once, and the second one is answered
first. -/
def Overtaken (config : AcceptorConfig) (shardIds : List Nat) (first second : Request) : Prop :=
  ∃ s, (system (fun _ => 0) config (shardIds.map nodeOne)).Reachable System.anyStep s ∧
    s.traffic.requests 0 = [first, second] ∧
    (s.custody (.written 0)).map Ticket.number = [1, 0] ∧
    (s.acceptor.connections.lookup 0).map (fun c => c.socket.length) = some 2

theorem overtaken_of_execute {config : AcceptorConfig} {shardIds : List Nat}
    {first second : Request} (as : List ServerAction)
    (h : (System.execute (system (fun _ => 0) config (shardIds.map nodeOne)) System.anyStep
      (start config (shardIds.map nodeOne)) as).any (fun s =>
        decide (s.traffic.requests 0 = [first, second] ∧
          (s.custody (.written 0)).map Ticket.number = [1, 0] ∧
          (s.acceptor.connections.lookup 0).map (fun c => c.socket.length) = some 2)) = true) :
    Overtaken config shardIds first second :=
  System.exists_reachable_of_execute
    (system (fun _ => 0) config (shardIds.map nodeOne)) System.anyStep as _ h

/-- A write is applied when the status has been answered. -/
def statusFirst : List ServerAction :=
  pipelined [⟨.write, 7, 0, 0, []⟩, ⟨.getStatus, 7, 0, 0, []⟩] ++
    [.call 0 (.move ⟨.leader, 1, 0, 0, true⟩), .handle 0, .handle 0, .send 0,
      .call 0 (.apply ⟨fun _ => 0, fun _ => 0⟩
        ⟨.entryNormal, 1, 1, Raft.encodeAppendCommand ⟨1, 7, 0, 0, []⟩⟩),
      .send 0] ++ delivery 1 2 ++ bothWritten

/-- A write is applied when a later one has been refused for its epoch. -/
def staleWriteFirst : List ServerAction :=
  pipelined [⟨.write, 7, 5, 0, []⟩, ⟨.write, 7, 3, 0, []⟩] ++
    [.call 0 (.move ⟨.leader, 1, 0, 0, true⟩), .handle 0, .handle 0, .send 0,
      .call 0 (.apply ⟨fun _ => 0, fun _ => 0⟩
        ⟨.entryNormal, 1, 1, Raft.encodeAppendCommand ⟨1, 7, 5, 0, []⟩⟩),
      .send 0] ++ delivery 1 2 ++ bothWritten

/-- The second shard answers first. -/
def secondShardFirst : List ServerAction :=
  pipelined [⟨.getStatus, 2, 0, 0, []⟩, ⟨.getStatus, 3, 0, 0, []⟩] ++
    [.handle 1, .send 1] ++ delivery 2 1 ++ [.handle 0, .send 0] ++ delivery 2 1 ++ bothWritten

/-- The channel holds one request, and the second one is refused at once. -/
def refusalFirst : List ServerAction :=
  [.thread .accept, .thread (.spawn 0),
    .thread (.selected 0 (.received (encodeRequest ⟨.getStatus, 7, 0, 0, []⟩ ++
      encodeRequest ⟨.getStatus, 7, 0, 0, []⟩))),
    .thread (.parse true), .thread (.parse true), .thread (.written 0 true),
    .thread (.parse true), .handle 0, .send 0] ++ delivery 1 1 ++ [.thread (.selected 0 .slept)]

/-- **Responses out of order**, in each of the ways that are left open: a pending write is
answered after a later status, and after a later write; a request after one of another
shard, and after one that was refused. -/
theorem responses_out_of_order :
    Overtaken ⟨1, 8, fun _ => 0⟩ [0] ⟨.write, 7, 0, 0, []⟩ ⟨.getStatus, 7, 0, 0, []⟩ ∧
      Overtaken ⟨1, 8, fun _ => 0⟩ [0] ⟨.write, 7, 5, 0, []⟩ ⟨.write, 7, 3, 0, []⟩ ∧
      Overtaken ⟨2, 8, fun bytes => (bytes.getLastD 0).toNat⟩ [0, 1]
        ⟨.getStatus, 2, 0, 0, []⟩ ⟨.getStatus, 3, 0, 0, []⟩ ∧
      Overtaken ⟨1, 1, fun _ => 0⟩ [0] ⟨.getStatus, 7, 0, 0, []⟩ ⟨.getStatus, 7, 0, 0, []⟩ :=
  ⟨overtaken_of_execute statusFirst (by decide +kernel),
    overtaken_of_execute staleWriteFirst (by decide +kernel),
    overtaken_of_execute secondShardFirst (by decide +kernel),
    overtaken_of_execute refusalFirst (by decide +kernel)⟩

end Server

end WalServer
