import WalServer.Server.Responses

/-!
# `WalServer.Server.Delivery`: what becomes of a response

`send_response` drops a response that finds the channel full, and the drainer panics over
one whose connection is writing. In the runs in which neither happens (`Unhindered`) the
server loses no response (`responses_kept`): what a shard has answered is drained, in the
channel, or still to be sent, in this order; what was drained for an open connection
waits there or was written; and every request that the connection has dispatched is still
somewhere. A run in which the channel is full loses the answer to a committed write
(`response_lost`).
-/

set_option autoImplicit false

namespace WalServer.Server

open WalServer.Lib WalServer.Protocol WalServer.Net WalServer.Shard

/-- The responses of a shard that the drainer has taken. -/
def drainedOf (s : Server) (i : Nat) : List ShardResponse :=
  (s.drained.filter (·.1 = i)).map Prod.snd

/-- The responses for a connection that the drainer has taken. -/
def drainedFor (s : Server) (connId : Nat) : List ShardResponse :=
  (s.drained.map Prod.snd).filter (·.connectionId = connId)

/-- A shard finds room in the channel for the response that it sends, and the drainer takes
none for a connection that is writing. -/
def Unhindered (config : AcceptorConfig) (s : Server) : ServerAction → Prop
  | .thread a => s.acceptor.Calm a
  | .send i   => (s.acceptor.responses.getD i []).length < config.channelCapacity
  | _         => True

instance (config : AcceptorConfig) (s : Server) (a : ServerAction) :
    Decidable (s.Unhindered config a) := by
  cases a <;> unfold Unhindered <;> infer_instance

/-- **The server has lost no response.** -/
structure LosesNone (s : Server) : Prop where
  /-- What a shard has answered is drained, in the channel, or still to be sent. -/
  sent : ∀ (i : Nat) (sh : ServerShard) channel, s.shards[i]? = some sh →
    s.acceptor.responses[i]? = some channel →
    s.drainedOf i ++ channel ++ sh.unsent = sh.engine.responses
  /-- A write that was ever pending is pending, or one of these responses answers it. -/
  accounts : ∀ sh ∈ s.shards, sh.Accounts
  /-- What was drained for an open connection waits there, or was written. -/
  delivered : ∀ connId c, s.acceptor.connections.lookup connId = some c →
    ∃ flushed, s.drainedFor connId = flushed ++ c.waiting ∧
      (flushed.map fun r => encodeResponse r.response).Sublist c.socket
  /-- Every request that an open connection has dispatched is somewhere. -/
  kept : ∀ connId c, s.acceptor.connections.lookup connId = some c → ∀ number d,
    (s.traffic.dispatched connId)[number]? = some d → ∃ p, ⟨connId, number, d⟩ ∈ s.custody p

variable {hash : Bytes → UInt32} {config : AcceptorConfig} {s t : Server}

/-! ### What a step of the acceptor's thread drains -/

theorem drainedOf_move (config : AcceptorConfig) (s : Server) (a : Acceptor.Action)
    (u : Acceptor) (i : Nat) :
    (s.move config a u).drainedOf i = s.drainedOf i ++
      ((s.acceptor.drains a).toList.filter (·.1 = i)).map Prod.snd := by
  unfold drainedOf
  rw [move, List.filter_append, List.map_append]

theorem drainedFor_move (config : AcceptorConfig) (s : Server) (a : Acceptor.Action)
    (u : Acceptor) (connId : Nat) :
    (s.move config a u).drainedFor connId = s.drainedFor connId ++
      ((s.acceptor.drains a).toList.map Prod.snd).filter (·.connectionId = connId) := by
  unfold drainedFor
  rw [move, List.map_append, List.filter_append]

/-! ### The channels of responses -/

/-- The channels and the shards agree on what was drained. -/
def Sends (s : Server) : Prop :=
  ∀ (i : Nat) (sh : ServerShard) channel, s.shards[i]? = some sh →
    s.acceptor.responses[i]? = some channel →
    s.drainedOf i ++ channel ++ sh.unsent = sh.engine.responses

/-- **A step of the acceptor's thread** drains from the head of a channel, or nothing. -/
theorem Sends.moved (h : s.Sends) {a : Acceptor.Action} {u : Acceptor}
    (hmoved : Acceptor.Moved config s.acceptor a u) : (s.move config a u).Sends := by
  have hsame : s.acceptor.drains a = none → u.responses = s.acceptor.responses →
      (s.move config a u).Sends := by
    intro hdrains hresponses i sh channel hshard hchannel
    rw [drainedOf_move, hdrains]
    have hold : s.acceptor.responses[i]? = some channel := by
      rw [← hresponses]
      exact hchannel
    simpa using h i sh channel hshard hold
  cases hmoved with
  | quiet _ _ hdrains _ hresponses _ => exact hsame hdrains hresponses
  | sent hdispatches _ _ _ hresponses _ =>
      exact hsame (Acceptor.drains_of_dispatches hdispatches) hresponses
  | refused hdispatches _ _ hresponses _ _ =>
      exact hsame (Acceptor.drains_of_dispatches hdispatches) hresponses
  | flushed _ hflushes _ hresponses _ _ =>
      exact hsame (Acceptor.drains_of_flushes hflushes) hresponses
  | @drained shard r rest _ _ hdrains _ hold hresponses _ _ =>
      intro i sh channel hshard hchannel
      have hchannel' : u.responses[i]? = some channel := hchannel
      rw [hresponses] at hchannel'
      rw [drainedOf_move, hdrains]
      rcases getElem?_set_cases hchannel' with ⟨rfl, rfl⟩ | ⟨hne, hsame⟩
      · -- The response changes from the channel to what is drained.
        simpa using h i sh (r :: channel) hshard hold
      · simpa [Ne.symm hne] using h i sh channel hshard hsame

/-- **A call of a shard** adds what is to be sent. -/
theorem Sends.called (h : s.Sends) {i : Nat} {sh : ServerShard} {c : EngineCall}
    {e : ShardEngine} (hshard : s.shards[i]? = some sh)
    (hsent : sh.sent = sh.engine.responses.length) (hsettles : sh.engine.Settles c e)
    {u : Server} (hresponses : u.acceptor.responses = s.acceptor.responses)
    (hdrained : u.drained = s.drained)
    (hshards : u.shards = s.shards.set i { sh with toAnswering := sh.toAnswering.note c e }) :
    u.Sends := by
  intro j sh' channel hj hchannel
  rw [hresponses] at hchannel
  rw [hshards] at hj
  have hdrainedOf : u.drainedOf j = s.drainedOf j := by
    unfold drainedOf
    rw [hdrained]
  rw [hdrainedOf]
  rcases getElem?_set_cases hj with ⟨rfl, rfl⟩ | ⟨-, hold⟩
  · obtain ⟨new, hnew⟩ := hsettles.exists_responses
    have hbefore := h j sh channel hshard hchannel
    rw [ServerShard.unsent_of_sent hsent, List.append_nil] at hbefore
    show _ ++ e.responses.drop sh.sent = e.responses
    rw [hbefore, hnew, hsent, List.drop_left]
  · exact h j sh' channel hold hchannel

/-- **A response that is sent** is the first one that was to be sent. -/
theorem Sends.send (h : s.Sends) {i : Nat} {sh : ServerShard} {r : ShardResponse}
    {channel : List ShardResponse} (hshard : s.shards[i]? = some sh)
    (hnext : sh.engine.responses[sh.sent]? = some r)
    (hchannel : s.acceptor.responses[i]? = some channel) :
    Sends { s with
      traffic := { s.traffic with
        acceptor := { s.acceptor with responses := s.acceptor.responses.set i (channel ++ [r]) } }
      shards := s.shards.set i { sh with sent := sh.sent + 1 } } := by
  intro j sh' channel' hj hc
  rcases getElem?_set_cases hj with ⟨rfl, rfl⟩ | ⟨hne, hold⟩
  · rcases getElem?_set_cases hc with ⟨-, rfl⟩ | ⟨hne, -⟩
    · have hbefore := h j sh channel hshard hchannel
      rw [ServerShard.unsent_of_next hnext] at hbefore
      rw [← List.append_assoc, List.append_assoc _ [r]]
      exact hbefore
    · exact absurd rfl hne
  · rcases getElem?_set_cases hc with ⟨heq, -⟩ | ⟨-, hold'⟩
    · exact absurd heq hne
    · exact h j sh' channel' hold hold'

/-! ### The queues of connections -/

/-- What was drained for a connection waits in its queue, or was written. -/
def DeliversTo (s : Server) (connId : Nat) : Prop :=
  ∀ c, s.acceptor.connections.lookup connId = some c →
    ∃ flushed, s.drainedFor connId = flushed ++ c.waiting ∧
      (flushed.map fun r => encodeResponse r.response).Sublist c.socket

/-- What was drained is for connections that have dispatched something. -/
def DrainsKnown (s : Server) : Prop :=
  ∀ taken ∈ s.drained, s.traffic.dispatched taken.2.connectionId ≠ []

theorem drainedFor_eq_nil (h : s.DrainsKnown) {connId : Nat}
    (hnone : s.traffic.dispatched connId = []) : s.drainedFor connId = [] := by
  unfold drainedFor
  rw [List.filter_eq_nil_iff]
  intro r hr hconn
  obtain ⟨taken, htaken, rfl⟩ := List.mem_map.mp hr
  have hid : taken.2.connectionId = connId := by simpa using hconn
  exact h taken htaken (hid ▸ hnone)

/-- A connection that a step does not touch. -/
theorem DeliversTo.keep {connId : Nat} (h : s.DeliversTo connId) (hknown : s.DrainsKnown)
    (hconsistent : s.Consistent hash config) {u : Server}
    (hkeeps : s.acceptor.KeepsQueue u.acceptor connId)
    (hdrained : u.drainedFor connId = s.drainedFor connId) : u.DeliversTo connId := by
  intro c hlookup
  rw [hdrained]
  rcases hkeeps c hlookup with ⟨c₀, hold, hwaiting, hsocket⟩ | ⟨rfl, hwaiting, hsocket⟩
  · rw [hwaiting, hsocket]
    exact h c₀ hold
  · -- Nothing was drained for a connection that is new.
    have hnone := drainedFor_eq_nil hknown hconsistent.dispatched_next
    exact ⟨[], by rw [hnone, hwaiting]; rfl, List.nil_sublist _⟩

/-- **A step of the acceptor's thread** that finds no queue borrowed. -/
theorem DeliversTo.moved (h : ∀ connId, s.DeliversTo connId) (hknown : s.DrainsKnown)
    (hconsistent : s.Consistent hash config) {a : Acceptor.Action} {u : Acceptor}
    (hmoved : Acceptor.Moved config s.acceptor a u)
    (hcalm : (s.acceptor.drains a).isSome = true → ¬ u.Panicked) (connId : Nat) :
    (s.move config a u).DeliversTo connId := by
  have hsame : s.acceptor.drains a = none →
      (s.move config a u).drainedFor connId = s.drainedFor connId := by
    intro hdrains
    rw [drainedFor_move, hdrains]
    simp
  cases hmoved with
  | quiet _ _ hdrains _ _ hkeeps =>
      exact (h connId).keep hknown hconsistent (hkeeps connId) (hsame hdrains)
  | sent hdispatches _ _ _ _ hkeeps =>
      exact (h connId).keep hknown hconsistent (hkeeps connId)
        (hsame (Acceptor.drains_of_dispatches hdispatches))
  | @refused refusedId d hdispatches _ _ _ hself hkeeps =>
      have hdrained := hsame (Acceptor.drains_of_dispatches hdispatches)
      by_cases hid : connId = refusedId
      · -- The refusal is written besides.
        subst hid
        intro c hlookup
        obtain ⟨c₀, hold, hwaiting, hsocket⟩ := hself c hlookup
        obtain ⟨flushed, hflushed, hsub⟩ := h connId c₀ hold
        rw [hdrained, hwaiting, hsocket]
        exact ⟨flushed, hflushed, hsub.trans (List.sublist_append_left ..)⟩
      · exact (h connId).keep hknown hconsistent (hkeeps connId hid) hdrained
  | @flushed flushedId _ hflushes _ _ hself hkeeps =>
      have hdrained := hsame (Acceptor.drains_of_flushes hflushes)
      by_cases hid : connId = flushedId
      · subst hid
        intro c hlookup
        obtain ⟨c₀, hold, hwaiting, hsocket⟩ := hself c hlookup
        obtain ⟨flushed, hflushed, hsub⟩ := h connId c₀ hold
        rw [hdrained, hwaiting, hsocket]
        -- The head of what waits changes over to what was written.
        cases hqueue : c₀.waiting with
        | nil =>
            rw [hqueue] at hflushed
            exact ⟨flushed, hflushed, by simpa using hsub⟩
        | cons r rest =>
            rw [hqueue] at hflushed
            refine ⟨flushed ++ [r], by simpa using hflushed, ?_⟩
            rw [List.map_append]
            exact hsub.append (List.Sublist.refl _)
      · exact (h connId).keep hknown hconsistent (hkeeps connId hid) hdrained
  | @drained shard r rest _ _ hdrains _ _ _ hself hkeeps =>
      have hdrained := drainedFor_move config s a u connId
      rw [hdrains] at hdrained hcalm
      by_cases hid : connId = r.connectionId
      · subst hid
        intro c hlookup
        obtain ⟨c₀, hold, hsocket, hwaiting⟩ := hself c hlookup
        obtain ⟨flushed, hflushed, hsub⟩ := h r.connectionId c₀ hold
        rw [if_neg (hcalm rfl)] at hwaiting
        rw [hdrained, hflushed, hwaiting, hsocket]
        exact ⟨flushed, by simp, hsub⟩
      · refine (h connId).keep hknown hconsistent (hkeeps connId hid) ?_
        rw [hdrained]
        simpa using Ne.symm hid

/-- What is drained is of a ticket. -/
theorem DrainsKnown.moved (h : s.DrainsKnown) (hconsistent : s.Consistent hash config)
    {a : Acceptor.Action} {u : Acceptor} (hmoved : Acceptor.Moved config s.acceptor a u)
    (hgrown : ∀ connId, s.traffic.dispatched connId <+:
      (s.move config a u).traffic.dispatched connId) : (s.move config a u).DrainsKnown := by
  have hkept : ∀ connId, s.traffic.dispatched connId ≠ [] →
      (s.move config a u).traffic.dispatched connId ≠ [] := by
    intro connId hsome hnone
    have hprefix := hgrown connId
    rw [hnone] at hprefix
    exact hsome (List.prefix_nil.mp hprefix)
  intro taken htaken
  rcases List.mem_append.mp htaken with hold | hnew
  · exact hkept _ (h taken hold)
  · have hdrains : s.acceptor.drains a = some taken := Option.mem_toList.mp hnew
    cases hmoved with
    | quiet _ _ hnone _ _ _ =>
        rw [hnone] at hdrains
        cases hdrains
    | sent hdispatches _ _ _ _ _ =>
        rw [Acceptor.drains_of_dispatches hdispatches] at hdrains
        cases hdrains
    | refused hdispatches _ _ _ _ _ =>
        rw [Acceptor.drains_of_dispatches hdispatches] at hdrains
        cases hdrains
    | flushed _ hflushes _ _ _ _ =>
        rw [Acceptor.drains_of_flushes hflushes] at hdrains
        cases hdrains
    | @drained shard r rest _ _ hsome _ hchannel _ _ _ =>
        rw [hsome] at hdrains
        cases hdrains
        obtain ⟨sh, hshard⟩ := hconsistent.isMatch.exists_shard hchannel
        -- The response is at the head of its channel, and so is the ticket that it answers.
        obtain ⟨ticket, tickets, hgets, -, htickets⟩ :=
          List.forall₂_cons_right_iff.mp (hconsistent.isMatch.answers shard sh _ hshard hchannel)
        have hmem : ticket ∈ s.custody (.answers shard) := by
          rw [htickets]
          exact List.mem_cons_self ..
        refine hkept _ fun hnone => ?_
        have hlt := hconsistent.tickets.number_lt hmem
        rw [show r.connectionId = ticket.connId from hgets.1] at hnone
        rw [hnone] at hlt
        exact Nat.not_lt_zero _ hlt

/-! ### The tickets -/

/-- Every request that an open connection has dispatched has its ticket somewhere. -/
def Keeps (s : Server) : Prop :=
  ∀ connId c, s.acceptor.connections.lookup connId = some c → ∀ number d,
    (s.traffic.dispatched connId)[number]? = some d → ∃ p, ⟨connId, number, d⟩ ∈ s.custody p

/-- **A step of the acceptor's thread** loses the ticket of a closed connection at most. -/
theorem exists_mem_carry (hconsistent : s.Consistent hash config) {a : Acceptor.Action}
    {u : Acceptor} (hmoved : Acceptor.Moved config s.acceptor a u)
    (hcalm : (s.acceptor.drains a).isSome = true → ¬ u.Panicked) {ticket : Ticket} {p : Place}
    (hmem : ticket ∈ s.custody p)
    (hopen : (u.connections.lookup ticket.connId).isSome = true) :
    ∃ q, ticket ∈ s.carry config a u q := by
  cases hmoved with
  | quiet hdispatches hflushes hdrains _ _ _ =>
      rw [carry_of_none u hdispatches hflushes hdrains]
      exact ⟨p, hmem⟩
  | sent hdispatches _ _ _ _ _ =>
      rw [carry_of_dispatches u hdispatches]
      exact ⟨p, Custody.mem_enter.mpr (Or.inl hmem)⟩
  | refused hdispatches _ _ _ _ _ =>
      rw [carry_of_dispatches u hdispatches]
      exact ⟨p, Custody.mem_enter.mpr (Or.inl hmem)⟩
  | flushed hdispatches hflushes _ _ _ _ =>
      rw [carry_of_flushes u hdispatches hflushes]
      exact Custody.exists_mem_pass hmem _ _
  -- Only a drain loses a ticket: that of a response whose connection is gone.
  | @drained shard r rest hdispatches hflushes hdrains _ hchannel _ _ _ =>
      rw [carry_of_drains u hdispatches hflushes hdrains]
      split
      · exact Custody.exists_mem_pass hmem _ _
      · rename_i hlost
        by_cases hp : p = .answers shard
        · subst hp
          obtain ⟨sh, hshard⟩ := hconsistent.isMatch.exists_shard hchannel
          obtain ⟨head, tickets, hgets, -, htickets⟩ :=
            List.forall₂_cons_right_iff.mp (hconsistent.isMatch.answers shard sh _ hshard hchannel)
          rw [htickets] at hmem ⊢
          rcases List.mem_cons.mp hmem with rfl | hrest
          · -- The response would have been delivered.
            have hid : r.connectionId = ticket.connId := hgets.1
            rw [hdrains] at hcalm
            exact absurd ⟨hid ▸ hopen, hcalm rfl⟩ hlost
          · refine ⟨.answers shard, ?_⟩
            rw [Custody.keep_self]
            exact hrest
        · refine ⟨p, ?_⟩
          rw [Custody.keep_of_ne hp]
          exact hmem

theorem Keeps.moved (h : s.Keeps) (hconsistent : s.Consistent hash config) {a : Acceptor.Action}
    {u : Acceptor} (hmoved : Acceptor.Moved config s.acceptor a u)
    (hcalm : (s.acceptor.drains a).isSome = true → ¬ u.Panicked) :
    (s.move config a u).Keeps := by
  intro connId c hlookup number d hknown
  -- A request that was dispatched before keeps its ticket through the move.
  have hold : (s.traffic.dispatched connId)[number]? = some d →
      ∃ p, ⟨connId, number, d⟩ ∈ s.carry config a u p := by
    intro hget
    have hopen : (u.connections.lookup connId).isSome = true := by
      rw [show u.connections.lookup connId = some c from hlookup]
      rfl
    rcases hmoved.exists_or_new hlookup with ⟨c₀, hwas⟩ | rfl
    · obtain ⟨p, hmem⟩ := h connId c₀ hwas number d hget
      exact exists_mem_carry hconsistent hmoved hcalm hmem hopen
    · -- A connection that is new has dispatched nothing.
      rw [hconsistent.dispatched_next] at hget
      cases hget
  have hknown' : ((s.traffic.record config a u).dispatched connId)[number]? = some d := hknown
  cases hdispatches : s.acceptor.dispatches config a with
  | none =>
      rw [Traffic.dispatched_of_none u hdispatches] at hknown'
      exact hold hknown'
  | some found =>
      rw [Traffic.dispatched_of_some u hdispatches] at hknown'
      by_cases hid : connId = found.1
      · subst hid
        rw [Function.update_self] at hknown'
        rw [List.getElem?_append] at hknown'
        split at hknown'
        · exact hold hknown'
        · -- The request that is dispatched gets its ticket.
          rename_i hge
          obtain ⟨hlt, rfl⟩ := List.getElem?_eq_some_iff.mp hknown'
          rw [List.length_singleton] at hlt
          have hnumber : number = (s.traffic.dispatched found.1).length := by omega
          refine ⟨if found.2.taken then .requests found.2.shard else .written found.1, ?_⟩
          show _ ∈ s.carry config a u _
          rw [carry_of_dispatches u hdispatches]
          exact Custody.mem_enter.mpr (Or.inr ⟨rfl, by simp [hnumber]⟩)
      · rw [Function.update_of_ne hid] at hknown'
        exact hold hknown'

/-- A call of a shard loses no ticket. -/
theorem exists_mem_settle {m : Custody Place Ticket} {ticket : Ticket} {p : Place}
    (hmem : ticket ∈ m p) (i : Nat) (e : ShardEngine) (c : EngineCall) :
    ∃ q, ticket ∈ settle i e c m q := by
  have hfold : ∀ (tags : List (Option Nat)) (m : Custody Place Ticket), (∃ q, ticket ∈ m q) →
      ∃ q, ticket ∈ tags.foldl (fun m tag => m.pass (source i tag) (.answers i)) m q := by
    intro tags
    induction tags with
    | nil => exact fun m hmem => hmem
    | cons tag tags ih =>
        rintro m ⟨q, hq⟩
        exact ih _ (Custody.exists_mem_pass hq _ _)
  unfold settle
  refine hfold _ _ ?_
  unfold letIn
  cases c with
  | request req =>
      dsimp only
      split
      · exact Custody.exists_mem_pass hmem _ _
      · exact ⟨p, hmem⟩
  | _ => exact ⟨p, hmem⟩

/-! ### Runs -/

/-- What holds in the runs in which the server loses no response. -/
structure Sound (config : AcceptorConfig) (s : Server) : Prop where
  orderly : s.acceptor.Orderly
  sends : s.Sends
  drains : s.DrainsKnown
  delivers : ∀ connId, s.DeliversTo connId
  keeps : s.Keeps

/-- **Every step** that is not hindered loses none. -/
theorem Sound.step (h : s.Sound config) (hconsistent : s.Consistent hash config) {a : ServerAction}
    (hfree : s.Unhindered config a) (hstep : s.step hash config a = some t) :
    t.Sound config := by
  have hgrown := dispatched_of_step hstep
  cases ran_of_step hstep with
  | @moved a u hthread hmove =>
      have hmoved := Acceptor.moved_of_step h.orderly hthread hconsistent.framed.parsing hmove
      have horderly := (h.orderly.step config hmove).1 hfree
      have hcalm : (s.acceptor.drains a).isSome = true → ¬ u.Panicked := by
        intro hdrains hpanicked
        obtain ⟨taken, htaken⟩ := Option.isSome_iff_exists.mp hdrains
        exact horderly.running (Acceptor.thread_of_panicked htaken hmove hpanicked)
      exact {
        orderly := horderly
        sends := h.sends.moved hmoved
        drains := h.drains.moved hconsistent hmoved hgrown
        delivers := DeliversTo.moved h.delivers h.drains hconsistent hmoved hcalm
        keeps := h.keeps.moved hconsistent hmoved hcalm }
  | @handled i sh req rest e hshard hchannel hsent hcall =>
      exact {
        orderly := (h.orderly.step config (step_takeRequest config hchannel)).1 trivial
        sends := h.sends.called hshard hsent (ShardEngine.settles_of_call hcall) rfl rfl rfl
        drains := h.drains
        delivers := h.delivers
        keeps := fun connId c hlookup number d hget => by
          obtain ⟨p, hmem⟩ := h.keeps connId c hlookup number d hget
          exact exists_mem_settle hmem i sh.engine (.request req) }
  | @called i sh c e hrequest hshard hsent hcall =>
      exact {
        orderly := h.orderly
        sends := h.sends.called hshard hsent (ShardEngine.settles_of_call hcall) rfl rfl rfl
        drains := h.drains
        delivers := h.delivers
        keeps := fun connId c' hlookup number d hget => by
          obtain ⟨p, hmem⟩ := h.keeps connId c' hlookup number d hget
          exact exists_mem_settle hmem i sh.engine c }
  | @sent i sh r channel hshard hnext hchannel hroom =>
      exact {
        orderly := (h.orderly.step config (step_respond hchannel hroom r)).1 trivial
        sends := h.sends.send hshard hnext hchannel
        drains := h.drains
        delivers := h.delivers
        keeps := h.keeps }
  | @dropped i sh r hshard hnext hfull =>
      -- The channel of the shard has room.
      have hlt : i < s.acceptor.responses.length := by
        rw [hconsistent.isMatch.sizes]
        exact (List.getElem?_eq_some_iff.mp hshard).1
      have hroom : (s.acceptor.responses.getD i []).length < config.channelCapacity := hfree
      have hcapacity := hfull _ (List.getElem?_eq_getElem hlt)
      rw [List.getD_eq_getElem?_getD, List.getElem?_eq_getElem hlt] at hroom
      exact absurd hcapacity (Nat.not_le.mpr hroom)

theorem sound_start (engines : List ShardEngine) : (start config engines).Sound config where
  orderly := by
    have hinit : (Acceptor.system config engines.length).Reachable Acceptor.Calm
        (Acceptor.start engines.length) := .init
    exact Acceptor.orderly_of_reachable hinit
  sends i sh channel hshard hchannel := by
    have hempty : channel = [] := List.eq_of_mem_replicate (List.mem_of_getElem? hchannel)
    obtain ⟨e, he, rfl⟩ := List.mem_map.mp (List.mem_of_getElem? hshard)
    rw [hempty]
    rfl
  drains taken htaken := by cases htaken
  delivers connId c hlookup := by cases hlookup
  keeps connId c hlookup := by cases hlookup

/-- The answer to a write that is no longer pending is on its way, or was delivered to its
connection if that is still open. -/
theorem LosesNone.settled (h : s.LosesNone) {i : Nat} {sh : ServerShard}
    {channel : List ShardResponse} (hshard : s.shards[i]? = some sh)
    (hchannel : s.acceptor.responses[i]? = some channel) {w : Σ _ : Nat, PendingClientWrite}
    (hw : w ∈ sh.entered) (hdone : sh.engine.core.pendingWrites.lookup w.1 = none) :
    ∃ r, sh.answersTo w.1 = [r] ∧ w.2.AnsweredBy r ∧
      (r ∈ sh.unsent ∨ r ∈ channel ∨ r ∈ s.drainedOf i ∧
        ∀ c, s.acceptor.connections.lookup w.2.connectionId = some c →
          r ∈ c.waiting ∨ encodeResponse r.response ∈ c.socket) := by
  have haccounts := h.accounts sh (List.mem_of_getElem? hshard)
  rcases haccounts.accounted w hw with ⟨hpending, -⟩ | ⟨-, r, hanswers, hby⟩
  · rw [hdone] at hpending
    cases hpending
  · refine ⟨r, hanswers, hby, ?_⟩
    have hanswered : r ∈ sh.engine.responses := by
      have hmem : r ∈ sh.answersTo w.1 := by
        rw [hanswers]
        exact List.mem_singleton_self r
      obtain ⟨answer, hanswer, rfl⟩ := List.mem_map.mp hmem
      rw [← haccounts.sent]
      exact List.mem_map_of_mem (List.mem_filter.mp hanswer).1
    rw [← h.sent i sh channel hshard hchannel] at hanswered
    rcases List.mem_append.mp hanswered with hleft | hunsent
    · rcases List.mem_append.mp hleft with hdrained | hwaits
      · refine Or.inr (Or.inr ⟨hdrained, fun c hlookup => ?_⟩)
        -- What was drained of the shard was drained for the connection.
        have hfor : r ∈ s.drainedFor w.2.connectionId := by
          obtain ⟨taken, htaken, rfl⟩ := List.mem_map.mp hdrained
          refine List.mem_filter.mpr ⟨List.mem_map_of_mem (List.mem_filter.mp htaken).1, ?_⟩
          exact decide_eq_true hby.connectionId_eq
        obtain ⟨flushed, hflushed, hsub⟩ := h.delivered _ c hlookup
        rw [hflushed] at hfor
        rcases List.mem_append.mp hfor with hwritten | hwaiting
        · exact Or.inr (hsub.subset (List.mem_map_of_mem hwritten))
        · exact Or.inl hwaiting
      · exact Or.inr (Or.inl hwaits)
    · exact Or.inl hunsent

/-- **No response is lost** in the runs in which every response that is sent finds room in
the channel, and every one that is drained finds its connection not writing. -/
theorem responses_kept {engines : List ShardEngine} (hopened : Opened hash engines)
    (h : (system hash config engines).Reachable (Unhindered config) s) :
    s.LosesNone ∧ ∀ (i : Nat) (sh : ServerShard) channel, s.shards[i]? = some sh →
      s.acceptor.responses[i]? = some channel → ∀ w ∈ sh.entered,
        sh.engine.core.pendingWrites.lookup w.1 = none → ∃ r, sh.answersTo w.1 = [r] ∧
          w.2.AnsweredBy r ∧ (r ∈ sh.unsent ∨ r ∈ channel ∨ r ∈ s.drainedOf i ∧
            ∀ c, s.acceptor.connections.lookup w.2.connectionId = some c →
              r ∈ c.waiting ∨ encodeResponse r.response ∈ c.socket) := by
  have hany : (system hash config engines).Reachable System.anyStep s :=
    h.mono fun _ _ _ => trivial
  have hsound : s.Sound config := by
    refine h.invariant (I := fun s => s.Sound config) (sound_start engines) ?_
    intro s a t hreach hsound hfree hstep
    have hconsistent : s.Consistent hash config :=
      consistent_of_reachable hopened (hreach.mono fun _ _ _ => trivial)
    exact hsound.step hconsistent hfree hstep
  have hloses : s.LosesNone := {
    sent := hsound.sends
    accounts := (consistent_of_reachable hopened hany).accounts
    delivered := hsound.delivers
    kept := hsound.keeps }
  exact ⟨hloses, fun i sh channel hshard hchannel w hw hdone =>
    hloses.settled hshard hchannel hw hdone⟩

/-- The run in which a write is applied behind a status loses neither answer. -/
theorem responses_kept_statusFirst :
    ∃ s, (system (fun _ => 0) ⟨1, 8, fun _ => 0⟩ ([0].map nodeOne)).Reachable
        (Unhindered ⟨1, 8, fun _ => 0⟩) s ∧
      (s.drainedFor 0).length = 2 ∧ s.LosesNone := by
  obtain ⟨s, hreach, hlength⟩ := System.exists_reachable_of_execute
    (system (fun _ => 0) ⟨1, 8, fun _ => 0⟩ ([0].map nodeOne))
    (Unhindered ⟨1, 8, fun _ => 0⟩) statusFirst
    (fun s => (s.drainedFor 0).length = 2) (by decide +kernel)
  exact ⟨s, hreach, hlength, (responses_kept (opened_nodeOne _ _) hreach).1⟩

/-! ### A full channel -/

/-- Two writes are applied before the drainer runs, and the channel holds one response. -/
def channelFull : List ServerAction :=
  [.thread .accept, .thread (.spawn 0),
    .thread (.selected 0 (.received (encodeRequest ⟨.write, 7, 0, 0, []⟩ ++
      encodeRequest ⟨.write, 7, 0, 0, []⟩))),
    .call 0 (.move ⟨.leader, 1, 0, 0, true⟩), .thread (.parse true), .handle 0,
    .thread (.parse true), .handle 0, .thread (.parse true),
    .call 0 (.apply ⟨fun _ => 0, fun _ => 0⟩
      ⟨.entryNormal, 1, 1, Raft.encodeAppendCommand ⟨1, 7, 0, 0, []⟩⟩), .send 0,
    .call 0 (.apply ⟨fun _ => 0, fun _ => 0⟩
      ⟨.entryNormal, 1, 2, Raft.encodeAppendCommand ⟨2, 7, 0, 1, []⟩⟩), .send 0] ++
    delivery 1 1 ++ [.thread (.selected 0 .slept), .thread (.written 0 true)]

/-- Both writes are committed and their connection is open. The first one's answer was
written, and nothing is left of the second one's. -/
theorem response_lost :
    ∃ s sh c, (system (fun _ => 0) ⟨1, 1, fun _ => 0⟩ ([0].map nodeOne)).Reachable
        System.anyStep s ∧
      s.shards[0]? = some sh ∧ s.acceptor.connections.lookup 0 = some c ∧
      sh.engine.responses.map (fun r => (r.connectionId, r.response.status)) =
        [(0, .ok), (0, .ok)] ∧
      sh.unsent = [] ∧ s.acceptor.responses = [[]] ∧ c.waiting = [] ∧ c.socket.length = 1 ∧
      ¬ s.LosesNone := by
  obtain ⟨s, hreach, hshards, hchannels, hconnection, hdrained⟩ :=
    System.exists_reachable_of_execute
      (system (fun _ => 0) ⟨1, 1, fun _ => 0⟩ ([0].map nodeOne)) System.anyStep channelFull
      (fun s => (s.shards[0]?.map fun sh =>
          (sh.engine.responses.map (fun r => (r.connectionId, r.response.status)),
            sh.unsent)) = some ([(0, .ok), (0, .ok)], []) ∧
        s.acceptor.responses = [[]] ∧
        ((s.acceptor.connections.lookup 0).map fun c => (c.waiting, c.socket.length)) =
          some ([], 1) ∧ (s.drainedOf 0).length = 1) (by decide +kernel)
  obtain ⟨sh, hshard, hanswers⟩ := Option.map_eq_some_iff.mp hshards
  obtain ⟨c, hlookup, hc⟩ := Option.map_eq_some_iff.mp hconnection
  obtain ⟨hresponses, hunsent⟩ := Prod.mk.inj hanswers
  obtain ⟨hwaiting, hsocket⟩ := Prod.mk.inj hc
  refine ⟨s, sh, c, hreach, hshard, hlookup, hresponses, hunsent, hchannels, hwaiting, hsocket,
    fun hloses => ?_⟩
  -- Two responses were produced, and the drain has taken one only.
  have hchannel : s.acceptor.responses[0]? = some [] := by
    rw [hchannels]
    rfl
  have hsent := hloses.sent 0 sh [] hshard hchannel
  rw [hunsent, List.append_nil, List.append_nil] at hsent
  have htwo : sh.engine.responses.length = 2 := by
    rw [← List.length_map, hresponses]
    rfl
  rw [← hsent, hdrained] at htwo
  cases htwo

end WalServer.Server
