import WalServer.Server.Matches

/-!
# `WalServer.Server.Issues`: what is issued for a ticket

A response is issued for a ticket when its request is refused or handled, or when the
pending write that it has left is settled. `Issues` says that the record has each of these
responses with the right ticket (`Issue.Due`), no ticket twice, and what a shard has
answered in its order; a ticket with a response is behind all places in which it could
get another one. One lemma for each kind of step says that it stays so (`Issues.moved`,
`Issues.handle`, `Issues.call`, `Issues.quiet`).
-/

set_option autoImplicit false

namespace WalServer

open Lib Protocol Net Shard

/-- **Why a response was issued for a ticket.** -/
inductive Issue.Due (hash : Bytes → UInt32) (s : Server) : Issue → Prop
  /-- The request was refused. -/
  | refused {t : Ticket} (hrefused : t.dispatch.taken = false) :
      Issue.Due hash s ⟨t, none, ⟨t.connId, Acceptor.shardUnavailable⟩⟩
  /-- The engine of its shard has answered the request as it handled it, and has gone on
  from there. -/
  | handled {t : Ticket} {r : ShardResponse} {sh : ServerShard} {e e' : ShardEngine}
      {later : List EngineCall} (htaken : t.dispatch.taken = true)
      (hshard : s.shards[t.dispatch.shard]? = some sh) (hinUse : e.InUse hash)
      (hcall : e.handleClientRequest hash ⟨t.connId, t.dispatch.request⟩ = .ok e')
      (hresponses : e'.responses = e.responses ++ [r])
      (hlater : ShardEngine.callAll hash later e' = .ok sh.engine)
      (hstays : e'.responses <+: sh.engine.responses) : Issue.Due hash s ⟨t, none, r⟩
  /-- The pending write of the request was settled. -/
  | settled {t : Ticket} {requestId : Nat} {p : PendingClientWrite} {r : ShardResponse}
      {sh : ServerShard} (htaken : t.dispatch.taken = true)
      (hshard : s.shards[t.dispatch.shard]? = some sh) (hentered : ⟨requestId, p⟩ ∈ sh.entered)
      (hwaits : t.Waits p) (hanswered : p.AnsweredBy r) :
      Issue.Due hash s ⟨t, some requestId, r⟩

namespace Server

/-- What was issued for the tickets of a shard. -/
def issuedBy (s : Server) (i : Nat) : List (Option Nat × ShardResponse) :=
  (s.issued.filter fun x => x.ticket.dispatch.taken ∧ x.ticket.dispatch.shard = i).map
    fun x => (x.tag, x.response)

/-- **The issued responses are right.** -/
structure Issues (hash : Bytes → UInt32) (s : Server) : Prop where
  known : ∀ x ∈ s.issued,
    (s.traffic.dispatched x.ticket.connId)[x.ticket.number]? = some x.ticket.dispatch
  once : (s.issued.map Issue.ticket).Nodup
  done : ∀ x ∈ s.issued, ∀ p : Place, 3 ≤ p.rank → x.ticket ∉ s.custody p
  due : ∀ x ∈ s.issued, x.Due hash s
  answered : ∀ (i : Nat) (sh : ServerShard), s.shards[i]? = some sh → s.issuedBy i = sh.answered

/-- The shards have made calls, and their records have grown. -/
def Grows (hash : Bytes → UInt32) (s t : Server) : Prop :=
  ∀ (i : Nat) (sh : ServerShard), s.shards[i]? = some sh →
    ∃ sh', t.shards[i]? = some sh' ∧ sh.entered ⊆ sh'.entered ∧
      sh.engine.responses <+: sh'.engine.responses ∧
      ∃ calls, ShardEngine.callAll hash calls sh.engine = .ok sh'.engine

variable {hash : Bytes → UInt32} {config : AcceptorConfig} {s t : Server}

theorem grows_of_eq (h : t.shards = s.shards) : s.Grows hash t := by
  intro i sh hi
  exact ⟨sh, h ▸ hi, List.Subset.refl _, List.prefix_rfl, [], rfl⟩

/-- What was due stays due. -/
theorem Grows.due (h : s.Grows hash t) {x : Issue} (hx : x.Due hash s) : x.Due hash t := by
  cases hx with
  | refused hrefused => exact .refused hrefused
  | @handled ticket r sh e e' later htaken hshard hinUse hcall hresponses hlater hstays =>
      obtain ⟨sh', hshard', -, hgrown, calls, hcalls⟩ := h _ _ hshard
      have hon : ShardEngine.callAll hash (later ++ calls) e' = .ok sh'.engine := by
        rw [ShardEngine.callAll_append, hlater, Outcome.bind_ok, hcalls]
      exact .handled htaken hshard' hinUse hcall hresponses hon (hstays.trans hgrown)
  | settled htaken hshard hentered hwaits hanswered =>
      obtain ⟨sh', hshard', hgrown, -⟩ := h _ _ hshard
      exact .settled htaken hshard' (hgrown hentered) hwaits hanswered

/-- **More responses are issued**, each for a ticket that had none and now is behind the
places where it could get one. -/
theorem Issues.extend (h : s.Issues hash) {new : List Issue} (hissued : t.issued = s.issued ++ new)
    (hdispatched : ∀ id, s.traffic.dispatched id <+: t.traffic.dispatched id)
    (hgrows : s.Grows hash t)
    (hdone : ∀ x ∈ s.issued, ∀ p : Place, 3 ≤ p.rank → x.ticket ∉ t.custody p)
    (hknown : ∀ x ∈ new,
      (t.traffic.dispatched x.ticket.connId)[x.ticket.number]? = some x.ticket.dispatch)
    (hfresh : ∀ x ∈ s.issued, ∀ y ∈ new, x.ticket ≠ y.ticket)
    (honce : (new.map Issue.ticket).Nodup)
    (hdone' : ∀ x ∈ new, ∀ p : Place, 3 ≤ p.rank → x.ticket ∉ t.custody p)
    (hdue : ∀ x ∈ new, x.Due hash t)
    (hanswered : ∀ (i : Nat) (sh : ServerShard), t.shards[i]? = some sh →
      t.issuedBy i = sh.answered) : t.Issues hash := by
  refine ⟨?_, ?_, ?_, ?_, hanswered⟩
  all_goals rw [hissued]
  · refine List.forall_mem_append.mpr ⟨fun x hx => ?_, hknown⟩
    obtain ⟨more, hmore⟩ := hdispatched x.ticket.connId
    have hold := h.known x hx
    rw [← hmore, List.getElem?_append_left (List.getElem?_eq_some_iff.mp hold).1]
    exact hold
  · rw [List.map_append, List.nodup_append]
    refine ⟨h.once, honce, fun a ha b hb => ?_⟩
    obtain ⟨x, hx, rfl⟩ := List.mem_map.mp ha
    obtain ⟨y, hy, rfl⟩ := List.mem_map.mp hb
    exact hfresh x hx y hy
  · exact List.forall_mem_append.mpr ⟨hdone, hdone'⟩
  · exact List.forall_mem_append.mpr ⟨fun x hx => hgrows.due (h.due x hx), hdue⟩

/-- **A step that issues nothing** and brings no ticket up. -/
theorem Issues.quiet (h : s.Issues hash) (hissued : t.issued = s.issued)
    (hdispatched : ∀ id, s.traffic.dispatched id <+: t.traffic.dispatched id)
    (hgrows : s.Grows hash t)
    (hdone : ∀ x ∈ s.issued, ∀ p : Place, 3 ≤ p.rank → x.ticket ∉ t.custody p)
    (hanswered : ∀ (i : Nat) (sh : ServerShard), t.shards[i]? = some sh →
      s.issuedBy i = sh.answered) : t.Issues hash := by
  refine @Issues.extend _ _ t h [] (by rw [hissued, List.append_nil]) hdispatched hgrows hdone
    (fun x hx => by cases hx) (fun x _ y hy => by cases hy) List.nodup_nil
    (fun x hx => by cases hx) (fun x hx => by cases hx) fun i sh hi => ?_
  rw [← hanswered i sh hi]
  unfold issuedBy
  rw [hissued]

/-! ### A step of the acceptor's thread -/

section

variable {a : Acceptor.Action}

/-- What a connection has dispatched stays so. -/
theorem dispatched_of_record (s : Server) (a : Acceptor.Action) (u : Acceptor) (connId : Nat) :
    s.traffic.dispatched connId <+: (s.traffic.record config a u).dispatched connId := by
  cases hdispatches : s.traffic.acceptor.dispatches config a with
  | none => exact ⟨[], by rw [Traffic.dispatched_of_none u hdispatches, List.append_nil]⟩
  | some found =>
      rw [Traffic.dispatched_of_some u hdispatches]
      by_cases hid : connId = found.1
      · subst hid
        rw [Function.update_self]
        exact List.prefix_append ..
      · exact ⟨[], by rw [Function.update_of_ne hid, List.append_nil]⟩

/-- A step that dispatches nothing leaves the requests and the pending writes alone. -/
theorem carry_of_rank (h : s.acceptor.dispatches config a = none) (u : Acceptor) {p : Place}
    (hp : 3 ≤ p.rank) : s.carry config a u p = s.custody p := by
  have hqueue : ∀ connId, p ≠ .queue connId := by rintro connId rfl; simp at hp
  have hwritten : ∀ connId, p ≠ .written connId := by rintro connId rfl; simp at hp
  have hanswers : ∀ shard, p ≠ .answers shard := by rintro shard rfl; simp at hp
  cases hflushes : s.acceptor.flushes a with
  | some connId =>
      rw [carry_of_flushes u h hflushes]
      exact Custody.pass_of_ne (hqueue connId) (hwritten connId) _
  | none =>
      cases hdrains : s.acceptor.drains a with
      | some found =>
          rw [carry_of_drains u h hflushes hdrains]
          split
          · exact Custody.pass_of_ne (hanswers _) (hqueue _) _
          · exact Custody.keep_of_ne (hanswers _) _ _
      | none => rw [carry_of_none u h hflushes hdrains]

/-- The tickets of what was issued are among those that were given out. -/
theorem Issues.number_lt (h : s.Issues hash) {x : Issue} (hx : x ∈ s.issued) :
    x.ticket.number < (s.traffic.dispatched x.ticket.connId).length :=
  (List.getElem?_eq_some_iff.mp (h.known x hx)).1

/-- **A step of the acceptor's thread** issues a refusal, or nothing. -/
theorem Issues.moved (h : s.Issues hash)
    (htickets : Tickets s.traffic.dispatched s.waited s.custody) (a : Acceptor.Action)
    (u : Acceptor) : (s.move config a u).Issues hash := by
  have hgrown : ∀ id, s.traffic.dispatched id <+: (s.move config a u).traffic.dispatched id :=
    fun id => dispatched_of_record s a u id
  have hshards : s.Grows hash (s.move config a u) := grows_of_eq rfl
  cases hdispatches : s.acceptor.dispatches config a with
  | none =>
      refine h.quiet ?_ hgrown hshards (fun x hx p hp => ?_) h.answered
      · show s.issued ++ s.refusals config a = _
        rw [refusals_of_none hdispatches, List.append_nil]
      · show x.ticket ∉ s.carry config a u p
        rw [carry_of_rank hdispatches u hp]
        exact h.done x hx p hp
  | some found =>
      obtain ⟨connId, d⟩ := found
      have hcarry := carry_of_dispatches u hdispatches
      -- The new ticket has a number that none has had.
      have hold : ∀ x ∈ s.issued, x.ticket ≠ ⟨connId, (s.traffic.dispatched connId).length, d⟩ := by
        intro x hx heq
        have hlt := h.number_lt hx
        rw [heq] at hlt
        exact Nat.lt_irrefl _ hlt
      have hdone : ∀ x ∈ s.issued, ∀ p : Place, 3 ≤ p.rank → x.ticket ∉ s.carry config a u p := by
        intro x hx p hp hmem
        rw [hcarry] at hmem
        rcases Custody.mem_enter.mp hmem with hthere | ⟨-, heq⟩
        · exact h.done x hx p hp hthere
        · exact hold x hx heq
      cases htaken : d.taken with
      | true =>
          refine h.quiet ?_ hgrown hshards hdone h.answered
          show s.issued ++ s.refusals config a = _
          rw [refusals_of_taken hdispatches htaken, List.append_nil]
      | false =>
          have hrefusals := refusals_of_refused hdispatches htaken
          have hissued : (s.move config a u).issued = s.issued ++ [⟨⟨connId,
              (s.traffic.dispatched connId).length, d⟩, none,
              ⟨connId, Acceptor.shardUnavailable⟩⟩] := by
            rw [← hrefusals]
            rfl
          refine h.extend hissued hgrown hshards hdone ?_ (fun x hx y hy => ?_)
            (List.nodup_singleton _) ?_ ?_ fun i sh hi => ?_
          · refine List.forall_mem_singleton.mpr ?_
            show ((s.traffic.record config a u).dispatched connId)[_]? = _
            rw [Traffic.dispatched_of_some u hdispatches, Function.update_self]
            exact List.getElem?_concat_length ..
          · rw [List.mem_singleton.mp hy]
            exact hold x hx
          · refine List.forall_mem_singleton.mpr fun p hp hmem => ?_
            have hmem' : _ ∈ s.carry config a u p := hmem
            rw [hcarry, if_neg (by rw [htaken]; exact Bool.false_ne_true)] at hmem'
            rcases Custody.mem_enter.mp hmem' with hthere | ⟨rfl, -⟩
            · exact Nat.lt_irrefl _ (htickets.number_lt hthere)
            · simp at hp
          · exact List.forall_mem_singleton.mpr (.refused htaken)
          · rw [← h.answered i sh hi]
            unfold issuedBy
            rw [hissued, List.filter_append, List.filter_cons_of_neg (by simp [htaken]),
              List.filter_nil, List.append_nil]

end

/-! ### A call of a shard -/

theorem source_ne_answers (i : Nat) (tag : Option Nat) : source i tag ≠ .answers i := by
  cases tag <;> simp [source]

/-- What is with the answers stays there. -/
theorem mem_foldl_answers {i : Nat} (tags : List (Option Nat)) {m : Custody Place Ticket}
    {ticket : Ticket} (h : ticket ∈ m (.answers i)) :
    ticket ∈ tags.foldl (fun m tag => m.pass (source i tag) (.answers i)) m (.answers i) := by
  induction tags generalizing m with
  | nil => exact h
  | cons tag tags ih =>
      refine ih ?_
      show ticket ∈ m.pass (source i tag) (.answers i) (.answers i)
      rw [Custody.pass_target (source_ne_answers i tag)]
      exact List.mem_append_left _ h

/-- A ticket that is not with an answer was where it is before the fold. -/
theorem mem_of_mem_foldl {i : Nat} {p : Place} (hp : p ≠ .answers i) (tags : List (Option Nat))
    {m : Custody Place Ticket} {ticket : Ticket}
    (h : ticket ∈ tags.foldl (fun m tag => m.pass (source i tag) (.answers i)) m p) :
    ticket ∈ m p := by
  induction tags generalizing m with
  | nil => exact h
  | cons tag tags ih =>
      rcases Custody.mem_of_mem_pass (ih h) with hold | ⟨heq, -⟩
      · exact hold
      · exact absurd heq hp

/-- A ticket with a request or a pending write was with one before the call. -/
theorem exists_of_mem_settle {i : Nat} {e : ShardEngine} {c : EngineCall}
    {m : Custody Place Ticket} {ticket : Ticket} {p : Place} (hp : 3 ≤ p.rank)
    (h : ticket ∈ settle i e c m p) : ∃ q : Place, 3 ≤ q.rank ∧ ticket ∈ m q := by
  have hne : p ≠ .answers i := by
    rintro rfl
    simp at hp
  have hadmit := mem_of_mem_foldl hne (e.answers c) h
  cases c with
  | request req =>
      unfold letIn at hadmit
      dsimp only at hadmit
      split at hadmit
      · rcases Custody.mem_of_mem_pass hadmit with hold | ⟨-, hhead⟩
        · exact ⟨p, hp, hold⟩
        · exact ⟨.requests i, by simp, List.mem_of_head? hhead⟩
      · exact ⟨p, hp, hadmit⟩
  | _ => exact ⟨p, hp, hadmit⟩

/-- **A call**, put together: the tickets that it answers were with a request or a pending
write, and are with the answers behind it. -/
theorem Issues.called (h : s.Issues hash)
    (htickets : Tickets s.traffic.dispatched s.waited s.custody) {i : Nat} {sh : ServerShard}
    {c : EngineCall} {e : ShardEngine} (hshard : s.shards[i]? = some sh)
    (hcall : sh.engine.call hash c = .ok e)
    (hresponses : sh.engine.responses <+: e.responses)
    (hdistinct : (settle i sh.engine c s.custody).Distinct) {traffic : Traffic}
    (htraffic : traffic.dispatched = s.traffic.dispatched) {waited : List Ticket}
    (new : List Issue) (hnew : issues i sh.engine c e s.custody = new)
    (hfrom : ∀ x ∈ new, ∃ p : Place, 3 ≤ p.rank ∧ x.ticket ∈ s.custody p ∧
      x.ticket.dispatch.taken = true ∧ x.ticket.dispatch.shard = i)
    (hto : ∀ x ∈ new, x.ticket ∈ settle i sh.engine c s.custody (.answers i))
    (honce : (new.map Issue.ticket).Nodup)
    (hpairs : new.map (fun x => (x.tag, x.response)) =
      (sh.engine.answers c).zip (e.responses.drop sh.engine.responses.length))
    (hdue : ∀ x ∈ new, ∀ t : Server,
      t.shards[i]? = some { sh with toAnswering := sh.toAnswering.note c e } → x.Due hash t) :
    Issues hash ⟨traffic, s.shards.set i { sh with toAnswering := sh.toAnswering.note c e },
      settle i sh.engine c s.custody, s.issued ++ issues i sh.engine c e s.custody, waited,
      s.drained⟩ := by
  subst hnew
  have hself : (s.shards.set i { sh with toAnswering := sh.toAnswering.note c e })[i]? =
      some { sh with toAnswering := sh.toAnswering.note c e } := by
    rw [List.getElem?_set_self (List.getElem?_eq_some_iff.mp hshard).1]
  refine h.extend rfl (fun id => htraffic ▸ List.prefix_rfl) (fun j sh' hj => ?_)
    (fun x hx p hp hmem => ?_) (fun x hx => ?_) (fun x hx y hy heq => ?_) honce
    (fun x hx p hp hmem => ?_) (fun x hx => hdue x hx _ hself) fun j sh' hj => ?_
  · -- Only the shard that makes the call goes on.
    by_cases hij : j = i
    · subst hij
      rw [hshard] at hj
      cases hj
      exact ⟨_, hself, List.subset_append_left .., hresponses, [c],
        (ShardEngine.callAll_singleton c _).trans hcall⟩
    · refine ⟨sh', ?_, List.Subset.refl _, List.prefix_rfl, [], rfl⟩
      show (s.shards.set i _)[j]? = some sh'
      rw [List.getElem?_set_ne (Ne.symm hij)]
      exact hj
  · -- A ticket with a response does not come back to a request or a pending write.
    obtain ⟨q, hq, hold⟩ := exists_of_mem_settle hp hmem
    exact h.done x hx q hq hold
  · obtain ⟨p, -, hp, -⟩ := hfrom x hx
    show (traffic.dispatched _)[_]? = _
    rw [htraffic]
    exact htickets.known p _ hp
  · -- A ticket that had a response was with neither, so it gets no other one.
    obtain ⟨p, hp, hmem, -⟩ := hfrom y hy
    exact h.done x hx p hp (heq ▸ hmem)
  · -- It is with the answers, so nowhere else.
    have hne : Place.answers i ≠ p := by
      rintro rfl
      simp at hp
    exact hdistinct.across _ _ hne _ (hto x hx) _ hmem rfl
  · have hsplit : issuedBy ⟨traffic,
        s.shards.set i { sh with toAnswering := sh.toAnswering.note c e },
        settle i sh.engine c s.custody, s.issued ++ issues i sh.engine c e s.custody, waited,
        s.drained⟩ j = s.issuedBy j ++
          if j = i then (issues i sh.engine c e s.custody).map (fun x => (x.tag, x.response))
          else [] := by
      unfold issuedBy
      rw [List.filter_append, List.map_append]
      congr 1
      split
      · rename_i hij
        subst hij
        rw [List.filter_eq_self.mpr]
        intro x hx
        obtain ⟨-, -, -, hboth⟩ := hfrom x hx
        simpa using hboth
      · rename_i hij
        rw [List.filter_eq_nil_iff.mpr]
        · rfl
        · intro x hx
          obtain ⟨-, -, -, -, hshard'⟩ := hfrom x hx
          simp [hshard', Ne.symm hij]
    rw [hsplit]
    rcases getElem?_set_cases hj with ⟨rfl, rfl⟩ | ⟨hne, hold⟩
    · rw [if_pos rfl, hpairs, h.answered j sh hshard]
      rfl
    · rw [if_neg hne, List.append_nil]
      exact h.answered j sh' hold

/-- **A request is handled**: the answer is issued for its ticket, or it waits. -/
theorem Issues.handle (h : s.Issues hash)
    (htickets : Tickets s.traffic.dispatched s.waited s.custody) {issued : List Issue}
    (hmatch : s.Matches issued) {i : Nat} {sh : ServerShard} {req : ShardRequest}
    {rest : List ShardRequest} {e : ShardEngine} (hshard : s.shards[i]? = some sh)
    (hinUse : sh.engine.InUse hash) (hchannel : s.acceptor.requests[i]? = some (req :: rest))
    (hcall : sh.engine.call hash (.request req) = .ok e)
    (hdistinct : (settle i sh.engine (.request req) s.custody).Distinct) {traffic : Traffic}
    (htraffic : traffic.dispatched = s.traffic.dispatched) {waited : List Ticket} :
    Issues hash
      ⟨traffic, s.shards.set i { sh with toAnswering := sh.toAnswering.note (.request req) e },
        settle i sh.engine (.request req) s.custody,
        s.issued ++ issues i sh.engine (.request req) e s.custody, waited, s.drained⟩ := by
  obtain ⟨ticket, tickets, hasks, -, hfirst⟩ :=
    List.forall₂_cons_right_iff.mp (hmatch.requests i _ hchannel)
  have hthere : ticket ∈ s.custody (.requests i) := by
    rw [hfirst]
    exact List.mem_cons_self ..
  have hfits := htickets.fits _ ticket hthere
  cases ShardEngine.settles_of_call hcall with
  | @answered _ r _ hnot hconn hbooks =>
      have hresponses : e.responses = sh.engine.responses ++ [r] := congrArg Books.responses hbooks
      refine h.called htickets hshard hcall ⟨_, hresponses.symm⟩ hdistinct htraffic
        [⟨ticket, none, r⟩] ?_ ?_ ?_ (List.nodup_singleton _) ?_ ?_
      · rw [issues_answered hnot hresponses, hfirst]
        rfl
      · exact List.forall_mem_singleton.mpr ⟨_, by simp, hthere, hfits⟩
      · refine List.forall_mem_singleton.mpr ?_
        unfold settle letIn ShardEngine.answers
        simp only [if_neg hnot]
        show ticket ∈ s.custody.pass (.requests i) (.answers i) (.answers i)
        rw [Custody.pass_target (by simp), hfirst]
        exact List.mem_append_right _ (List.mem_singleton_self _)
      · unfold ShardEngine.answers
        simp only [if_neg hnot]
        rw [hresponses, List.drop_left]
        rfl
      · refine List.forall_mem_singleton.mpr fun t ht => ?_
        refine .handled hfits.1 (by rw [hfits.2]; exact ht) hinUse ?_ hresponses
          (show ShardEngine.callAll hash [] e = .ok e from rfl) List.prefix_rfl
        rw [← show req = _ from hasks]
        exact hcall
  | admitted hadmits hbooks =>
      have hresponses : e.responses = sh.engine.responses := congrArg Books.responses hbooks
      refine h.called htickets hshard hcall (hresponses ▸ List.prefix_rfl) hdistinct htraffic []
        (issues_admitted hadmits _) ?_ ?_ List.nodup_nil ?_ ?_
      · exact fun x hx => by cases hx
      · exact fun x hx => by cases hx
      · unfold ShardEngine.answers
        simp only [if_pos hadmits]
        rfl
      · exact fun x hx => by cases hx
  | quiet _ hnot _ _ => exact absurd rfl (hnot req)

/-- The tickets of settled writes come to the answers. -/
theorem mem_settled {i : Nat} {gone : List (Σ _ : Nat, PendingClientWrite)}
    (hgone : gone.NodupKeys) {m : Custody Place Ticket}
    (hpending : ∀ w ∈ gone, List.Forall₂ Ticket.Waits (m (.pending i w.1)) [w.2]) :
    ∀ w ∈ gone, ∀ ticket ∈ m (.pending i w.1), ticket ∈ (gone.map fun w => some w.1).foldl
      (fun m tag => m.pass (source i tag) (.answers i)) m (.answers i) := by
  induction gone generalizing m with
  | nil => exact fun w hw => by cases hw
  | cons w gone ih =>
      obtain ⟨hw, hnodup⟩ := List.nodupKeys_cons.mp hgone
      have hothers : ∀ v ∈ gone, m.pass (.pending i w.1) (.answers i) (.pending i v.1) =
          m (.pending i v.1) := fun v hv => pass_pending_of_ne (List.ne_key.mp hw v hv) m
      refine List.forall_mem_cons.mpr ⟨fun ticket hticket => ?_, fun v hv ticket hticket => ?_⟩
      · -- It is the one ticket of the first write, and stays where it comes to.
        obtain ⟨t, ht, -⟩ := Custody.forall₂_singleton (hpending w (List.mem_cons_self ..))
        refine mem_foldl_answers _ (m := m.pass (.pending i w.1) (.answers i)) ?_
        show ticket ∈ m.pass (.pending i w.1) (.answers i) (.answers i)
        rw [Custody.pass_target (by simp), ht]
        rw [ht] at hticket
        exact List.mem_append_right _ hticket
      · refine ih hnodup (m := m.pass (.pending i w.1) (.answers i)) (fun u hu => ?_) v hv ticket ?_
        · rw [hothers u hu]
          exact hpending u (List.mem_cons_of_mem _ hu)
        · rw [hothers v hv]
          exact hticket

/-- **Another call**: responses are issued for the tickets of the writes that it settles. -/
theorem Issues.call (h : s.Issues hash)
    (htickets : Tickets s.traffic.dispatched s.waited s.custody) {issued : List Issue}
    (hmatch : s.Matches issued) {i : Nat} {sh : ServerShard} (haccounts : sh.Accounts)
    {c : EngineCall} {e : ShardEngine} (hshard : s.shards[i]? = some sh)
    (hrequest : c.isRequest = false) (hcall : sh.engine.call hash c = .ok e)
    (hdistinct : (settle i sh.engine c s.custody).Distinct) {waited : List Ticket} :
    Issues hash ⟨s.traffic, s.shards.set i { sh with toAnswering := sh.toAnswering.note c e },
      settle i sh.engine c s.custody, s.issued ++ issues i sh.engine c e s.custody, waited,
      s.drained⟩ := by
  obtain ⟨gone, respond, hsettled⟩ := (ShardEngine.settles_of_call hcall).settled hrequest
  have hwaits := hmatch.waits hshard hsettled
  -- Each settled write has one ticket, and these are different.
  have hone : ∀ w ∈ gone, ∃ t, s.custody (.pending i w.1) = [t] ∧ t.Waits w.2 :=
    fun w hw => Custody.forall₂_singleton (hwaits w hw)
  have hmem : ∀ {x : Issue}, x ∈ (gone.flatMap fun w =>
      (s.custody (.pending i w.1)).map fun t => (⟨t, some w.1, respond w.2⟩ : Issue)) →
        ∃ w ∈ gone, ∃ t ∈ s.custody (.pending i w.1), x = ⟨t, some w.1, respond w.2⟩ := by
    intro x hx
    obtain ⟨w, hw, hx'⟩ := List.mem_flatMap.mp hx
    obtain ⟨t, ht, rfl⟩ := List.mem_map.mp hx'
    exact ⟨w, hw, t, ht, rfl⟩
  refine h.called htickets hshard hcall ⟨_, hsettled.responses.symm⟩ hdistinct rfl _
    (hmatch.issues_call hshard hrequest hsettled) (fun x hx => ?_) (fun x hx => ?_) ?_ ?_
    fun x hx t ht => ?_
  · obtain ⟨w, hw, t, ht, rfl⟩ := hmem hx
    have hfits := htickets.fits _ t ht
    exact ⟨_, by simp, ht, hfits.1, hfits.2.1⟩
  · obtain ⟨w, hw, t, ht, rfl⟩ := hmem hx
    unfold settle
    rw [hsettled.answers, letIn_of_not_request hrequest]
    exact mem_settled hsettled.distinct hwaits w hw t ht
  · rw [List.map_flatMap, List.nodup_flatMap]
    refine ⟨fun w hw => ?_, ?_⟩
    · obtain ⟨t, ht, -⟩ := hone w hw
      rw [ht]
      exact List.nodup_singleton _
    · refine (List.pairwise_map.mp hsettled.distinct).imp_of_mem fun {v w} _ _ hne => ?_
      intro ticket hv hw
      simp only [List.mem_map, exists_exists_and_eq_and, exists_eq_right] at hv hw
      exact htickets.distinct.across (.pending i v.1) (.pending i w.1) (by simpa using hne) _ hv _
        hw rfl
  · rw [hsettled.answers, hsettled.responses, List.drop_left, List.zip_map', List.map_flatMap]
    rw [List.map_eq_flatMap]
    refine List.flatMap_congr fun w hw => ?_
    obtain ⟨t, ht, -⟩ := hone w hw
    rw [ht]
    rfl
  · obtain ⟨w, hw, ticket, hticket, rfl⟩ := hmem hx
    have hfits := htickets.fits _ ticket hticket
    obtain ⟨t', ht', hwait⟩ := hone w hw
    rw [ht'] at hticket
    rw [List.mem_singleton.mp hticket] at hfits ⊢
    -- What is pending was entered into the shard's record when it was admitted.
    refine .settled hfits.1 (by rw [hfits.2.1]; exact ht) ?_ hwait (hsettled.answered w.2)
    have hentered := haccounts.pending w (AList.mem_lookup_iff.mp (hsettled.wasPending w hw))
    exact List.mem_append_left _ hentered

end Server

end WalServer
