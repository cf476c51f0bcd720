import WalServer.Cluster.Epoch
import WalServer.Cluster.Lsn

/-!
# `WalServer.Cluster.InTime`: answers are in the order in which clients see them

A client that has its `Ok` before another client sends its write sees the one before the
other. That committed commands of a stream follow a discipline along the log says nothing
about that by itself: a leader that was deposed long ago still handles writes, and puts them
at low positions of a log that nobody goes on with.

What was committed in a state lies below whatever is proposed later and is committed at all
(`index_lt_of_later`). So along any run, over any number of leaders, the commands of answered
writes follow each other as the answers and the writes do in time (`follows_in_time`). Two
disciplines give two results. The position of a write that was handled after another one was
answered is the higher one (`lsns_in_time`). And once a write in an epoch is answered, no write
in an older epoch that comes later ever is (`epochs_in_time`).
-/

set_option autoImplicit false

namespace WalServer.Cluster

open WalServer.Lib WalServer.Raft WalServer.Shard WalServer.Wal

/-- The write that is answered was not handled yet in a state. -/
def Ack.LaterThan (b : Ack) (σ : ShardGroup) : Prop :=
  ∀ q ∈ σ.proposals, ¬ (q.node = b.node ∧ q.incarnation = b.incarnation ∧
    q.cmd.requestId = b.requestId)

instance (b : Ack) (σ : ShardGroup) : Decidable (b.LaterThan σ) := by
  unfold Ack.LaterThan
  infer_instance

section Run

variable {tailCacheEntries : Nat → Nat} {ok : ShardGroup → Action → Prop} {σ₀ σ : ShardGroup}

/-! ### What is proposed later lies beyond the ledgers of before -/

/-- Since a state the ledgers have grown, and what was proposed since then lies beyond what the
ledger of its term was. -/
structure Since (σ₀ σ : ShardGroup) : Prop where
  grows : σ₀.terms.Grows σ.terms
  beyond : ∀ q ∈ σ.proposals, q ∉ σ₀.proposals → ∀ full,
    σ₀.terms.ledger q.term = some full → full.length < q.index

/-- A proposal is put at the end of its leader's ledger. -/
theorem Since.step {τ : ShardGroup} (h : Since σ₀ σ) (hσ : Laws σ) {n : Nat} {ev : Event}
    (hstep : ShardGroup.Step tailCacheEntries σ n (σ.nodes n) ev τ) : Since σ₀ τ := by
  have hgrows := hσ.step_grows hstep
  refine ⟨⟨fun d hd => hgrows.commits d (h.grows.commits d hd), fun t full hfull => ?_⟩, ?_⟩
  · obtain ⟨full', hfull', hprefix⟩ := h.grows.ledgers t full hfull
    obtain ⟨full'', hfull'', hprefix'⟩ := hgrows.ledgers t full' hfull'
    exact ⟨full'', hfull'', hprefix.trans hprefix'⟩
  · cases hstep with
    | writeAccepted _ hrole _ =>
        intro q hq hnew full hfull
        rcases List.mem_cons.mp hq with rfl | hold
        · obtain ⟨full', hfull', hprefix⟩ := h.grows.ledgers _ full hfull
          rw [(hσ.node n).ownLedger hrole] at hfull'
          cases hfull'
          exact Nat.lt_succ_of_le hprefix.length_le
        · exact h.beyond q hold hnew full hfull
    | _ => exact h.beyond

/-- What goes on from a state has grown since. -/
theorem since_of_reachable (h₀ : (group tailCacheEntries).Reachable ok σ₀)
    (h : ((group tailCacheEntries).startingFrom σ₀).Reachable ok σ) : Since σ₀ σ := by
  refine h.invariant ⟨.refl _, fun q hq hnew => absurd hq hnew⟩ fun σ a τ hσ hsince _ hstep => ?_
  exact hsince.step (laws_reachable (h₀.trans hσ)) (ShardGroup.step_sound hstep)

/-- **What was committed lies below what is proposed later** and committed at all: its position
had its entry already, and was not free in the ledger of any term. -/
theorem index_lt_of_later (hσ₀ : Laws σ₀) (hσ : Laws σ) (hsince : Since σ₀ σ) {i : Nat}
    {e : Entry (Option AppendCommand)} (hi : σ₀.terms.Committed i e) {q : Proposal}
    (hq : q ∈ σ.proposals) (hnew : q ∉ σ₀.proposals)
    (hcommitted : σ.terms.Committed (q.index - 1) q.entry) : i < q.index - 1 := by
  by_contra hle
  obtain ⟨t, k, full, hk, hfull, hik, hie⟩ := hi
  have hlt : q.index - 1 < full.length := by
    have := (List.getElem?_eq_some_iff.mp hie).1
    omega
  -- The entry that was committed there before is the proposal's.
  have hbefore : σ₀.terms.Committed (q.index - 1) full[q.index - 1] :=
    ⟨t, k, full, hk, hfull, by omega, List.getElem?_eq_getElem hlt⟩
  have hsame : full[q.index - 1] = q.entry :=
    hσ.lawful.committed_unique (hbefore.grows hsince.grows) hcommitted
  have hentry : full[q.index - 1]? = some q.entry := by
    rw [List.getElem?_eq_getElem hlt, hsame]
  obtain ⟨own, hown, hprefix⟩ := hσ₀.lawful.origin t full _ q.entry hfull hentry
  have hbeyond := hsince.beyond q hq hnew own hown
  have hlength := hprefix.length_le
  rw [List.length_take] at hlength
  omega

/-! ### Answers in time -/

/-- **Answered writes follow each other in time** as a discipline says: the command of a write
that was handled after another one was answered follows that one's. -/
theorem follows_in_time (D : Discipline)
    (h₀ : (group tailCacheEntries).Reachable (fun σ a => D.permits σ a ∧ answersPermitted σ a) σ₀)
    (h : ((group tailCacheEntries).startingFrom σ₀).Reachable
      (fun σ a => D.permits σ a ∧ answersPermitted σ a) σ)
    {a b : Ack} (ha : a ∈ σ₀.acks) (hb : b ∈ σ.acks) (hlater : b.LaterThan σ₀)
    (hstream : a.cmd.streamId = b.cmd.streamId) : D.follows a.cmd b.cmd := by
  have hall := h₀.trans h
  have hsince := since_of_reachable h₀ h
  obtain ⟨q, -, -, -, -, -, -, -, -, hcommitted⟩ :=
    (answered_reachable (h₀.mono fun _ _ hok => hok.2)).genuine a ha
  obtain ⟨r, hr, hnode, hincarnation, hrequest, -, hindex, hterm, hcmd, hcommitted'⟩ :=
    (answered_reachable (hall.mono fun _ _ hok => hok.2)).genuine b hb
  have hnew : r ∉ σ₀.proposals := fun hold => hlater r hold ⟨hnode, hincarnation, hrequest⟩
  have hentry : r.entry = ⟨b.term, some b.cmd⟩ := by
    rw [Proposal.entry, hterm, hcmd]
  have hlt := index_lt_of_later (laws_reachable h₀) (laws_reachable hall) hsince hcommitted hr hnew
    (by rw [hindex, hentry]; exact hcommitted')
  rw [hindex] at hlt
  exact Discipline.follows_committed (hall.mono fun _ _ hok => hok.1)
    (hcommitted.grows hsince.grows) hcommitted' hlt rfl rfl hstream

/-- An answer is for the command that its entry carries. -/
theorem pending_of_genuine {a : Ack} (h : a.Genuine σ) :
    a.pending.streamId = a.cmd.streamId ∧ a.pending.epoch = a.cmd.epoch ∧
      a.pending.streamLsn = a.cmd.streamLsn := by
  obtain ⟨q, -, -, -, -, hpending, -, -, hcmd, -⟩ := h
  rw [← hpending, ← hcmd]
  exact ⟨rfl, rfl, rfl⟩

/-- A leader's write is answered. -/
def firstAnswer : List Action :=
  [⟨1, .poll⟩, ⟨1, .elect 2⟩, ⟨1, .observe⟩, ⟨1, .write 11 7 1 [1]⟩, ⟨1, .poll⟩, ⟨1, .commit 3⟩,
   ⟨1, .handOver 0⟩, ⟨1, .handOver 0⟩, ⟨1, .handOver 0⟩, ⟨1, .observe⟩]

/-- The second node takes over, applies what it has inherited, and answers a write, while the
first one still handles writes of its own. -/
def afterHandover : List Action :=
  [⟨2, .poll⟩, ⟨2, .replicate 2 3⟩, ⟨2, .elect 3⟩, ⟨2, .commit 4⟩, ⟨2, .handOver 0⟩,
   ⟨2, .handOver 0⟩, ⟨2, .handOver 0⟩, ⟨2, .handOver 0⟩, ⟨2, .observe⟩, ⟨1, .write 11 7 1 [2]⟩,
   ⟨2, .write 22 7 2 [3]⟩, ⟨2, .poll⟩, ⟨2, .commit 5⟩, ⟨2, .handOver 0⟩]

/-- The answers of both. -/
def ackOfFirst : Ack := ⟨1, 0, 1, ⟨11, 7, 1, 0⟩, 3, 2, ⟨1, 7, 1, 0, [1]⟩⟩

def ackOfSecond : Ack := ⟨2, 0, 1, ⟨22, 7, 2, 1⟩, 5, 3, ⟨1, 7, 2, 1, [3]⟩⟩

/-- The two answers are given, and the second write came after the first answer. -/
def BothAnswered (ok : ShardGroup → Action → Prop) [∀ σ a, Decidable (ok σ a)] (σ₀ : ShardGroup) :
    Prop :=
  ackOfFirst ∈ σ₀.acks ∧ ackOfSecond.LaterThan σ₀ ∧
    (((group fun _ => 8).startingFrom σ₀).execute ok σ₀ afterHandover).any
      (fun σ => decide (ackOfSecond ∈ σ.acks)) = true

instance (ok : ShardGroup → Action → Prop) [∀ σ a, Decidable (ok σ a)] (σ₀ : ShardGroup) :
    Decidable (BothAnswered ok σ₀) := instDecidableAnd

/-- What goes on from such a state. -/
theorem BothAnswered.exists_second {ok : ShardGroup → Action → Prop} [∀ σ a, Decidable (ok σ a)]
    {σ₀ : ShardGroup} (h : BothAnswered ok σ₀) :
    ∃ σ, ((group fun _ => 8).startingFrom σ₀).Reachable ok σ ∧ ackOfSecond ∈ σ.acks := by
  obtain ⟨-, -, hrest⟩ := h
  exact System.exists_reachable_of_execute ((group fun _ => 8).startingFrom σ₀) ok afterHandover
    (fun σ => ackOfSecond ∈ σ.acks) hrest

/-- The runs in which epochs are settled before writes are admitted, and each answer is for its
own entry. -/
def epochsAndAnswers (σ : ShardGroup) (a : Action) : Prop :=
  epochDiscipline.permits σ a ∧ answersPermitted σ a

instance (σ : ShardGroup) (a : Action) : Decidable (epochsAndAnswers σ a) := instDecidableAnd

/-- **Fencing in time.** Once a write in an epoch is answered, no write of the stream in an older
epoch that is handled later is ever answered, whichever nodes lead. -/
theorem epochs_in_time (h₀ : (group tailCacheEntries).Reachable epochsAndAnswers σ₀)
    (h : ((group tailCacheEntries).startingFrom σ₀).Reachable epochsAndAnswers σ) {a b : Ack}
    (ha : a ∈ σ₀.acks) (hb : b ∈ σ.acks) (hlater : b.LaterThan σ₀)
    (hstream : a.pending.streamId = b.pending.streamId) : a.pending.epoch ≤ b.pending.epoch := by
  obtain ⟨haid, haepoch, -⟩ := pending_of_genuine
    ((answered_reachable (h₀.mono fun _ _ hok => hok.2)).genuine a ha)
  obtain ⟨hbid, hbepoch, -⟩ := pending_of_genuine
    ((answered_reachable ((h₀.trans h).mono fun _ _ hok => hok.2)).genuine b hb)
  rw [haid, hbid] at hstream
  rw [haepoch, hbepoch]
  exact follows_in_time epochDiscipline h₀ h ha hb hlater hstream

theorem epochs_in_time_deposed :
    ∃ σ₀ σ, (group fun _ => 8).Reachable epochsAndAnswers σ₀ ∧ ackOfFirst ∈ σ₀.acks ∧
      ((group fun _ => 8).startingFrom σ₀).Reachable epochsAndAnswers σ ∧ ackOfSecond ∈ σ.acks ∧
      ackOfFirst.pending.epoch ≤ ackOfSecond.pending.epoch := by
  obtain ⟨σ₀, h₀, hboth⟩ := System.exists_reachable_of_execute (group fun _ => 8) epochsAndAnswers
    firstAnswer (BothAnswered epochsAndAnswers) (by decide +kernel)
  obtain ⟨σ, h, hsecond⟩ := hboth.exists_second
  exact ⟨σ₀, σ, h₀, hboth.1, h, hsecond, epochs_in_time h₀ h hboth.1 hsecond hboth.2.1 rfl⟩

end Run

end WalServer.Cluster
