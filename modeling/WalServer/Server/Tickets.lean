import WalServer.Server.Model

/-!
# `WalServer.Server.Tickets`: the way of a ticket

`Tickets` says of the tickets alone that each is of a request that its connection has
dispatched, that none is anywhere twice, that it is where it belongs (`Place.Fits`), and
that they are in order along their way: a ticket that is ahead of another one of the same
connection has the smaller number, unless it went another way or the one behind is of a
write that was left pending (`Ticket.InOrder`).

A ticket takes few ways (`Place.Leads`), and what it can pass on them is always exempt
(`inOrder_of_passed`). So whatever moves along them keeps this (`Tickets.pass`).
-/

set_option autoImplicit false

namespace WalServer

open Lib Protocol Net Shard

/-- Two requests of one connection are in order if the second one was refused, or if both
were taken by one shard and the second one has not been a pending write. -/
def Ticket.InOrder (waited : List Ticket) (a b : Ticket) : Prop :=
  a.connId = b.connId →
    (b.dispatch.taken = true →
      a.dispatch.taken = true ∧ a.dispatch.shard = b.dispatch.shard ∧ b ∉ waited) →
    a.number < b.number

/-- The more tickets have waited, the fewer have to be in order. -/
theorem Ticket.InOrder.mono {waited more : List Ticket} {a b : Ticket} (h : a.InOrder waited b)
    (hsub : waited ⊆ more) : a.InOrder more b := by
  intro hconn hexempt
  refine h hconn fun htaken => ?_
  obtain ⟨htaken', hshard, hwaited⟩ := hexempt htaken
  exact ⟨htaken', hshard, fun hmem => hwaited (hsub hmem)⟩

namespace Place

/-- How far a place is from the socket. -/
@[simp] def rank : Place → Nat
  | .written _   => 0
  | .queue _     => 1
  | .answers _   => 2
  | .pending _ _ => 3
  | .requests _  => 4

/-- Which tickets belong to a place. -/
def Fits (waited : List Ticket) : Place → Ticket → Prop
  | .requests shard,  t => t.dispatch.taken = true ∧ t.dispatch.shard = shard
  | .pending shard _, t => t.dispatch.taken = true ∧ t.dispatch.shard = shard ∧ t ∈ waited
  | .answers shard,   t => t.dispatch.taken = true ∧ t.dispatch.shard = shard
  | .queue connId,    t => t.dispatch.taken = true ∧ t.connId = connId
  | .written connId,  t => t.connId = connId

/-- The ways of a ticket. -/
inductive Leads : Place → Place → Prop
  | admitted (shard requestId : Nat) : Leads (.requests shard) (.pending shard requestId)
  | answered (shard : Nat) : Leads (.requests shard) (.answers shard)
  | settled (shard requestId : Nat) : Leads (.pending shard requestId) (.answers shard)
  | delivered (shard connId : Nat) : Leads (.answers shard) (.queue connId)
  | written (connId : Nat) : Leads (.queue connId) (.written connId)

theorem Leads.rank_lt {p q : Place} (h : p.Leads q) : q.rank < p.rank := by
  cases h <;> simp

theorem Leads.ne {p q : Place} (h : p.Leads q) : p ≠ q := by
  rintro rfl
  exact Nat.lt_irrefl _ h.rank_lt

/-- **What a ticket passes** on its way is exempt from the order: it is of another shard
or connection, or it waits. -/
theorem inOrder_of_passed {waited : List Ticket} {p q y : Place} (h : p.Leads q) (hne : y ≠ p)
    (hlow : q.rank < y.rank) (hhigh : y.rank ≤ p.rank) {a b : Ticket} (ha : p.Fits waited a)
    (hb : y.Fits waited b) : a.InOrder waited b := by
  intro hconn hexempt
  -- One case for each way. The ranks leave only the places in between.
  cases h with
  | admitted shard requestId =>
      cases y with
      | requests other =>
          obtain ⟨-, hsame, -⟩ := hexempt hb.1
          exact absurd (by rw [← hb.2, ← hsame, ha.2]) hne
      | pending _ _ => exact absurd hlow (by simp)
      | answers _ | queue _ | written _ => exact absurd hlow (by simp)
  | answered shard =>
      cases y with
      | requests other =>
          obtain ⟨-, hsame, -⟩ := hexempt hb.1
          exact absurd (by rw [← hb.2, ← hsame, ha.2]) hne
      -- A status or a read may pass a write that waits, and this is the exemption.
      | pending other requestId => exact absurd hb.2.2 (hexempt hb.1).2.2
      | answers _ | queue _ | written _ => exact absurd hlow (by simp)
  | settled shard requestId =>
      cases y with
      | requests _ => exact absurd hhigh (by simp)
      | pending other requestId => exact absurd hb.2.2 (hexempt hb.1).2.2
      | answers _ | queue _ | written _ => exact absurd hlow (by simp)
  | delivered shard connId =>
      cases y with
      | requests _ | pending _ _ => exact absurd hhigh (by simp)
      | answers other =>
          obtain ⟨-, hsame, -⟩ := hexempt hb.1
          exact absurd (by rw [← hb.2, ← hsame, ha.2]) hne
      | queue _ | written _ => exact absurd hlow (by simp)
  | written connId =>
      cases y with
      | requests _ | pending _ _ | answers _ => exact absurd hhigh (by simp)
      | queue other => exact absurd (by rw [← hb.2, ← hconn, ha.2]) hne
      | written _ => exact absurd hlow (by simp)

end Place

/-- **The tickets are right.** -/
structure Tickets (dispatched : Nat → List Dispatch) (waited : List Ticket)
    (m : Custody Place Ticket) : Prop where
  fits : ∀ p, ∀ t ∈ m p, p.Fits waited t
  known : ∀ p, ∀ t ∈ m p, (dispatched t.connId)[t.number]? = some t.dispatch
  distinct : m.Distinct
  ordered : m.Arranged (Ticket.InOrder waited) fun p q => p.rank < q.rank

namespace Tickets

variable {dispatched : Nat → List Dispatch} {waited : List Ticket} {m : Custody Place Ticket}
  {p q : Place}

/-- Before the first connection there are none. -/
theorem empty : Tickets dispatched waited fun _ => [] where
  fits _ _ ht := by cases ht
  known _ _ ht := by cases ht
  distinct := ⟨fun _ => List.Pairwise.nil, fun _ _ _ _ ha => by cases ha⟩
  ordered := ⟨fun _ => List.Pairwise.nil, fun _ _ _ _ ha => by cases ha⟩

/-- **A ticket goes on its way.** -/
theorem pass (h : Tickets dispatched waited m) (hleads : p.Leads q)
    (hfits : ∀ t, (m p).head? = some t → q.Fits waited t) :
    Tickets dispatched waited (m.pass p q) where
  fits x t ht := by
    rcases Custody.mem_of_mem_pass ht with hold | ⟨rfl, hhead⟩
    · exact h.fits x t hold
    · exact hfits t hhead
  known x t ht := by
    rcases Custody.mem_of_mem_pass ht with hold | ⟨rfl, hhead⟩
    · exact h.known x t hold
    · exact h.known p t (List.mem_of_head? hhead)
  distinct := h.distinct.pass p q
  ordered := h.ordered.advance hleads.rank_lt fun y hne hlow hhigh a ha b hb =>
    Place.inOrder_of_passed hleads hne hlow hhigh (h.fits p a ha) (h.fits y b hb)

/-- Tickets get lost. -/
theorem keep (h : Tickets dispatched waited m) {l : List Ticket} (hsub : l.Sublist (m p)) :
    Tickets dispatched waited (m.keep p l) := by
  have hmem : ∀ x, ∀ t ∈ m.keep p l x, t ∈ m x := by
    intro x t ht
    by_cases hx : x = p
    · subst hx
      rw [Custody.keep_self] at ht
      exact hsub.subset ht
    · rw [Custody.keep_of_ne hx] at ht
      exact ht
  exact ⟨fun x t ht => h.fits x t (hmem x t ht), fun x t ht => h.known x t (hmem x t ht),
    Custody.Arranged.keep h.distinct hsub, h.ordered.keep hsub⟩

/-- The number of a ticket is below the number of requests that were dispatched. -/
theorem number_lt (h : Tickets dispatched waited m) {t : Ticket} (ht : t ∈ m p) :
    t.number < (dispatched t.connId).length := by
  have hknown := h.known p t ht
  exact (List.getElem?_eq_some_iff.mp hknown).1

/-- **A request is dispatched**: it gets the next ticket of its connection. -/
theorem enter (h : Tickets dispatched waited m) (connId : Nat) (d : Dispatch) :
    Tickets (Function.update dispatched connId (dispatched connId ++ [d])) waited
      (m.enter (if d.taken then .requests d.shard else .written connId)
        ⟨connId, (dispatched connId).length, d⟩) := by
  -- The tickets of the connection that there are have smaller numbers.
  have hnumber : ∀ x, ∀ b ∈ m x, b.connId = connId → b.number < (dispatched connId).length := by
    intro x b hb hconn
    rw [← hconn]
    exact h.number_lt hb
  have hbehind : ∀ x, ∀ b ∈ m x, b.InOrder waited ⟨connId, (dispatched connId).length, d⟩ :=
    fun x b hb hconn _ => hnumber x b hb hconn
  refine ⟨fun x t ht => ?_, fun x t ht => ?_, ?_, ?_⟩
  · rcases Custody.mem_enter.mp ht with hold | ⟨rfl, rfl⟩
    · exact h.fits x t hold
    · split
      · rename_i htaken
        exact ⟨htaken, rfl⟩
      · rfl
  · rcases Custody.mem_enter.mp ht with hold | ⟨-, rfl⟩
    · have hknown := h.known x t hold
      by_cases hconn : t.connId = connId
      · rw [hconn] at hknown ⊢
        rw [Function.update_self, List.getElem?_append_left (hnumber x t hold hconn)]
        exact hknown
      · rw [Function.update_of_ne hconn]
        exact hknown
    · rw [Function.update_self]
      exact List.getElem?_concat_length ..
  · refine h.distinct.enter fun x hx => ?_
    exact Nat.lt_irrefl _ (hnumber x _ hx rfl)
  · refine h.ordered.enter (Nat.lt_irrefl _) (hbehind _) (fun x _ => hbehind x)
      fun y hy b hb => ?_
    -- Nothing is behind a request that a channel takes; and a refused one may be ahead of
    -- those that were taken.
    have hfits := h.fits y b hb
    intro hconn hexempt
    split at hy
    · cases y with
      | requests _ | pending _ _ | answers _ | queue _ | written _ => exact absurd hy (by simp)
    · rename_i hrefused
      exfalso
      cases y with
      | requests _ | answers _ | queue _ => exact hrefused (hexempt hfits.1).1
      | pending _ _ => exact hrefused (hexempt hfits.1).1
      | written _ => exact absurd hy (by simp)

/-- **Tickets begin to wait.** -/
theorem wait (h : Tickets dispatched waited m) (more : List Ticket) :
    Tickets dispatched (waited ++ more) m where
  fits x t ht := by
    have hfits := h.fits x t ht
    cases x with
    | pending shard requestId =>
        exact ⟨hfits.1, hfits.2.1, List.mem_append_left _ hfits.2.2⟩
    | requests _ | answers _ | queue _ | written _ => exact hfits
  known := h.known
  distinct := h.distinct
  ordered :=
    ⟨fun x => (h.ordered.within x).imp fun hab => hab.mono (List.subset_append_left ..),
      fun x y hxy a ha b hb => (h.ordered.across x y hxy a ha b hb).mono
        (List.subset_append_left ..)⟩

/-- **A call settles requests and writes of its shard.** -/
theorem passAll (h : Tickets dispatched waited m) (shard : Nat) (tags : List (Option Nat)) :
    Tickets dispatched waited
      (tags.foldl (fun m tag => m.pass (Server.source shard tag) (.answers shard)) m) := by
  induction tags generalizing m with
  | nil => exact h
  | cons tag tags ih =>
      rw [List.foldl_cons]
      refine ih (h.pass ?_ fun t ht => ?_)
      · cases tag with
        | none => exact .answered shard
        | some requestId => exact .settled shard requestId
      · have hfits := h.fits _ t (List.mem_of_head? ht)
        cases tag with
        | none => exact hfits
        | some requestId => exact ⟨hfits.1, hfits.2.1⟩

/-- A connection that does not exist yet has no tickets. -/
theorem fresh (h : Tickets dispatched waited m) {connId : Nat} (hnone : dispatched connId = []) :
    m (.queue connId) = [] ∧ m (.written connId) = [] := by
  have hempty : ∀ x, (∀ t ∈ m x, t.connId = connId) → m x = [] := by
    intro x hconn
    rw [List.eq_nil_iff_forall_not_mem]
    intro t ht
    have hknown := h.known x t ht
    rw [hconn t ht, hnone] at hknown
    cases hknown
  exact ⟨hempty _ fun t ht => (h.fits _ t ht).2, hempty _ fun t ht => h.fits _ t ht⟩

/-- The tickets of one connection with equal numbers are equal. -/
theorem eq_of_number (h : Tickets dispatched waited m) {a b : Ticket} (ha : a ∈ m p) (hb : b ∈ m q)
    (hconn : a.connId = b.connId) (hnumber : a.number = b.number) : a = b := by
  have hknown := h.known p a ha
  rw [hconn, hnumber, h.known q b hb, Option.some.injEq] at hknown
  cases a
  cases b
  simp_all

end Tickets

end WalServer
