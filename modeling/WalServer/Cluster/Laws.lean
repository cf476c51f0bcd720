import WalServer.Cluster.Step

/-!
# `WalServer.Cluster.Laws`: what holds in every run of the group

The laws of the replicated log in the group's own terms. `Laws` says that the
ledgers are lawful, that a term has one leader at most, and of every node that
its log is the start of a ledger, that a leader's log is its ledger, that its
counters are in order and that what it knows committed is settled by decisions
of its own term or earlier ones. Every run keeps all this (`laws_reachable`), so
election safety, log matching and leader completeness hold of the model
(`Laws.leader_unique`, `Laws.log_matching`, `NodeLaws.settled`).

`Laws.step_grows` and `Laws.step_ledger_other` carry what is known of other nodes
over a step.
-/

set_option autoImplicit false

namespace WalServer.Cluster

open WalServer.Lib WalServer.Raft WalServer.Shard WalServer.Wal

/-- What holds of a node, given the ledgers and decisions. -/
structure NodeLaws (L : TermLog (Option AppendCommand)) (x : Node) : Prop where
  recorded : L.Recorded x.log
  ownLedger : x.role = .leader → L.ledger x.term = some x.log
  applied_le : x.applied ≤ x.delivered
  delivered_le : x.delivered ≤ x.committed
  committed_le : x.committed ≤ x.log.length
  settled : L.Settled x.term (x.log.take x.committed)
  snapshot : ∃ pre, pre.length = x.snapshot.index ∧ L.Settled x.term pre

/-- What holds of the group. -/
structure Laws (σ : ShardGroup) : Prop where
  lawful : σ.terms.Lawful
  node : ∀ n, NodeLaws σ.terms (σ.nodes n)
  leader_unique : ∀ m n, (σ.nodes m).role = .leader → (σ.nodes n).role = .leader →
    (σ.nodes m).term = (σ.nodes n).term → m = n

/-! ### Single nodes -/

/-- A node that leads no longer, or whose own ledger is as before, keeps its laws
when the ledgers grow. -/
theorem NodeLaws.grows {L L' : TermLog (Option AppendCommand)} {x : Node} (h : NodeLaws L x)
    (hg : L.Grows L') (hown : x.role = .leader → L'.ledger x.term = L.ledger x.term) :
    NodeLaws L' x where
  recorded := h.recorded.grows hg
  ownLedger hrole := by rw [hown hrole, h.ownLedger hrole]
  applied_le := h.applied_le
  delivered_le := h.delivered_le
  committed_le := h.committed_le
  settled := h.settled.grows hg
  snapshot := by
    obtain ⟨pre, hlen, hpre⟩ := h.snapshot
    exact ⟨pre, hlen, hpre.grows hg⟩

/-- What was handed over to a node is settled. -/
theorem NodeLaws.settled_delivered {L : TermLog (Option AppendCommand)} {x : Node}
    (h : NodeLaws L x) : L.Settled x.term (x.log.take x.delivered) :=
  h.settled.of_isPrefix (List.take_prefix_take_left h.delivered_le)

/-- **Log matching.** Two nodes that have an entry of the same term at the same position
have the same log up to there. -/
theorem Laws.log_matching {σ : ShardGroup} (hσ : Laws σ) {m n i : Nat}
    {e e' : Entry (Option AppendCommand)} (hm : (σ.nodes m).log[i]? = some e)
    (hn : (σ.nodes n).log[i]? = some e') (hterm : e.term = e'.term) :
    (σ.nodes m).log.take (i + 1) = (σ.nodes n).log.take (i + 1) :=
  hσ.lawful.log_matching (hσ.node m).recorded (hσ.node n).recorded hm hn hterm

/-! ### Steps -/

section Step

variable {tailCacheEntries : Nat → Nat} {σ τ : ShardGroup} {n : Nat} {ev : Event}

open ShardGroup

/-- The ledgers grow with every step. -/
theorem Laws.step_grows (hσ : Laws σ) (h : Step tailCacheEntries σ n (σ.nodes n) ev τ) :
    σ.terms.Grows τ.terms := by
  cases h with
  | writeAccepted _ hrole _ => exact TermLog.Grows.append ((hσ.node n).ownLedger hrole) _
  | elect _ _ _ hfresh _    => exact TermLog.Grows.openTerm hfresh _ _
  | commit                  => exact TermLog.Grows.commit _ _ _
  | _                       => exact TermLog.Grows.refl _

/-- A step keeps the ledger of every other node that leads. -/
theorem Laws.step_ledger_other (hσ : Laws σ) (h : Step tailCacheEntries σ n (σ.nodes n) ev τ)
    {m : Nat} (hm : m ≠ n) (hlead : (σ.nodes m).role = .leader) :
    τ.terms.ledger (σ.nodes m).term = σ.terms.ledger (σ.nodes m).term := by
  cases h with
  | writeAccepted _ hrole _ =>
      have hne : (σ.nodes m).term ≠ (σ.nodes n).term :=
        fun heq => hm (hσ.leader_unique m n hlead hrole heq)
      show (σ.terms.append _ _ _).ledger _ = _
      rw [TermLog.ledger_append, if_neg hne]
  | elect _ _ _ hfresh _ =>
      -- A term with a leader has a ledger, so it is not the fresh one.
      rename_i term _ _ _ _
      have hne : (σ.nodes m).term ≠ term := by
        intro heq
        rw [← heq, (hσ.node m).ownLedger hlead] at hfresh
        cases hfresh
      show (σ.terms.openTerm _ _ _).ledger _ = _
      rw [TermLog.ledger_openTerm, if_neg hne]
  | _ => rfl

/-- A step keeps the laws of the ledgers. -/
theorem Laws.step_lawful (hσ : Laws σ) (h : Step tailCacheEntries σ n (σ.nodes n) ev τ) :
    τ.terms.Lawful := by
  cases h with
  | writeAccepted _ hrole _ => exact hσ.lawful.append ((hσ.node n).ownLedger hrole) rfl
  | elect _ _ _ hfresh hearlier =>
      exact hσ.lawful.openTerm hfresh (hσ.node n).recorded rfl hearlier
  | commit _ hrole _ hlen hlater =>
      exact hσ.lawful.commit ((hσ.node n).ownLedger hrole) hlen hlater
  | _ => exact hσ.lawful

/-- A step keeps the laws of its own node. -/
theorem Laws.step_self (hσ : Laws σ) (h : Step tailCacheEntries σ n (σ.nodes n) ev τ) :
    NodeLaws τ.terms (τ.nodes n) := by
  have hn := hσ.node n
  have hg := hσ.step_grows h
  obtain ⟨pre, hpre, hpreSettled⟩ := hn.snapshot
  cases h with
  | writeRedirected => exact hn
  | writeRefused =>
      rw [nodes_update_self]
      exact { hn with }
  | writeAccepted _ hrole _ =>
      show NodeLaws _ ((σ.update n _).nodes n)
      rw [nodes_update_self]
      have hown := TermLog.ledger_append_self σ.terms (σ.nodes n).term (σ.nodes n).log
      refine ⟨⟨_, _, hown _, List.prefix_refl _⟩, fun _ => hown _, hn.applied_le,
        hn.delivered_le, ?_, ?_, pre, hpre, hpreSettled.grows hg⟩
      · exact hn.committed_le.trans (by simp)
      · show (TermLog.append _ _ _ _).Settled _ (List.take _ (_ ++ _))
        rw [List.take_append_of_le_length hn.committed_le]
        exact hn.settled.grows hg
  | ack =>
      rw [nodes_update_self]
      exact { hn with }
  | poll =>
      rw [nodes_update_self]
      exact { hn with }
  | follow _ hrole hterm =>
      rw [nodes_update_self]
      exact ⟨hn.recorded, fun h => absurd h hrole, hn.applied_le, hn.delivered_le,
        hn.committed_le, hn.settled.mono hterm, pre, hpre, hpreSettled.mono hterm⟩
  | elect _ _ hterm hfresh hearlier =>
      show NodeLaws _ ((σ.update n _).nodes n)
      rw [nodes_update_self]
      have hown := TermLog.ledger_openTerm_self σ.terms
      refine ⟨⟨_, _, hown _ _ _, List.prefix_refl _⟩, fun _ => hown _ _ _, hn.applied_le,
        hn.delivered_le, ?_, ?_, pre, hpre, (hpreSettled.mono hterm).grows hg⟩
      · exact hn.committed_le.trans (by simp)
      · show (TermLog.openTerm _ _ _ _).Settled _ (List.take _ (_ ++ _))
        rw [List.take_append_of_le_length hn.committed_le]
        exact (hn.settled.mono hterm).grows hg
  | replicate hfull _ hrole hkeep hlen hsame =>
      rw [nodes_update_self]
      refine ⟨⟨_, _, hfull, List.take_prefix _ _⟩, fun h => absurd h hrole, hn.applied_le,
        hn.delivered_le, ?_, ?_, pre, hpre, hpreSettled⟩
      · show (σ.nodes n).committed ≤ (List.take _ _).length
        rw [List.length_take]
        omega
      · show σ.terms.Settled _ (List.take _ (List.take _ _))
        rw [List.take_take, Nat.min_eq_left hkeep, hsame]
        exact hn.settled
  | commit _ hrole hkeep hlen _ =>
      show NodeLaws _ ((σ.update n _).nodes n)
      rw [nodes_update_self]
      refine ⟨hn.recorded.grows hg, fun h => hn.ownLedger h, hn.applied_le,
        hn.delivered_le.trans hkeep, hlen, ?_, pre, hpre, hpreSettled.grows hg⟩
      -- The decision itself settles the part it declares committed.
      exact ⟨_, _, _, Nat.le_refl _, List.mem_cons_self, hn.ownLedger hrole, List.prefix_refl _⟩
  | learnCommit _ hkeep hlen hsettled =>
      rw [nodes_update_self]
      exact ⟨hn.recorded, hn.ownLedger, hn.applied_le, hn.delivered_le.trans hkeep, hlen,
        hsettled, pre, hpre, hpreSettled⟩
  | install hfull _ hrole _ _ hlen hsettled =>
      rw [nodes_update_self]
      refine ⟨⟨_, _, hfull, List.take_prefix _ _⟩, fun h => absurd h hrole, Nat.le_refl _,
        Nat.le_refl _, ?_, ?_, _, ?_, hsettled⟩
      · show _ ≤ (List.take _ _).length
        rw [List.length_take, Nat.min_eq_left hlen]
        exact Nat.le_refl _
      · show σ.terms.Settled _ (List.take (StoredSnapshot.index _) (List.take _ _))
        rw [List.take_take, Nat.min_self]
        exact hsettled
      · rw [List.length_take, Nat.min_eq_left hlen]
        rfl
  | handOverEmpty _ hlt =>
      rw [nodes_update_self]
      exact ⟨hn.recorded, hn.ownLedger, hn.applied_le.trans (Nat.le_succ _), hlt,
        hn.committed_le, hn.settled, pre, hpre, hpreSettled⟩
  | handOverCommand _ hlt =>
      show NodeLaws _ ((σ.update n _).nodes n)
      rw [nodes_update_self]
      refine ⟨hn.recorded, hn.ownLedger, hn.applied_le.trans (Nat.le_succ _), hlt,
        hn.committed_le, hn.settled, ?_⟩
      -- A new snapshot is of the applied part of the log, which is settled.
      by_cases hdue : (σ.nodes n).SnapshotDue
      · refine ⟨(σ.nodes n).log.take (σ.nodes n).applied, ?_, ?_⟩
        · have h1 := hn.applied_le
          have h2 := hn.delivered_le
          have h3 := hn.committed_le
          show _ = (if (σ.nodes n).SnapshotDue then _ else _ : StoredSnapshot).index
          rw [if_pos hdue, List.length_take]
          show _ = (σ.nodes n).applied
          omega
        · exact hn.settled_delivered.of_isPrefix (List.take_prefix_take_left hn.applied_le)
      · refine ⟨pre, ?_, hpreSettled⟩
        show _ = (if (σ.nodes n).SnapshotDue then _ else _ : StoredSnapshot).index
        rw [if_neg hdue, hpre]
  | lightReady _ hlt =>
      rw [nodes_update_self]
      exact ⟨hn.recorded, hn.ownLedger, hn.applied_le.trans (Nat.le_succ _), hlt,
        hn.committed_le, hn.settled, pre, hpre, hpreSettled⟩
  | advance =>
      rw [nodes_update_self]
      exact { hn with applied_le := Nat.le_refl _ }
  | observe =>
      show NodeLaws _ ((σ.update n _).nodes n)
      rw [nodes_update_self]
      exact { hn with }
  | restart _ hsnap hcompacted hcommitted =>
      rw [nodes_update_self]
      exact ⟨hn.recorded, fun h => (nomatch h), Nat.le_refl _, hcompacted,
        hcommitted.trans hn.committed_le,
        hn.settled.of_isPrefix (List.take_prefix_take_left hcommitted), pre, hpre, hpreSettled⟩

/-- After a step that lets its node lead, either the node led before or the term
is a fresh one. -/
theorem ShardGroup.Step.leader_before (h : Step tailCacheEntries σ n (σ.nodes n) ev τ)
    (hlead : (τ.nodes n).role = .leader) :
    ((σ.nodes n).role = .leader ∧ (τ.nodes n).term = (σ.nodes n).term) ∨
      σ.terms.ledger (τ.nodes n).term = none := by
  cases h with
  | writeRedirected => exact Or.inl ⟨hlead, rfl⟩
  | follow _ hrole _ =>
      rw [nodes_update_self] at hlead
      exact absurd hlead hrole
  -- A node is elected in a term that no other has opened.
  | elect _ _ _ hfresh _ =>
      right
      show σ.terms.ledger ((σ.update n _).nodes n).term = none
      rw [nodes_update_self]
      exact hfresh
  | restart =>
      rw [nodes_update_self] at hlead
      cases hlead
  | install =>
      left
      simp only [nodes_update_self] at hlead ⊢
      exact ⟨hlead, rfl⟩
  | handOverCommand =>
      left
      simp only [nodes_update_self] at hlead ⊢
      exact ⟨hlead, rfl⟩
  | _ =>
      left
      simp only [nodes_update_self] at hlead ⊢
      exact ⟨hlead, trivial⟩

/-- **Every step keeps the laws.** -/
theorem Laws.step (hσ : Laws σ) (h : Step tailCacheEntries σ n (σ.nodes n) ev τ) : Laws τ where
  lawful := hσ.step_lawful h
  node m := by
    by_cases hm : m = n
    · subst hm
      exact hσ.step_self h
    · rw [h.nodes_other hm]
      exact (hσ.node m).grows (hσ.step_grows h) (hσ.step_ledger_other h hm)
  leader_unique := by
    -- A node that has just come into office leads a term without a ledger before.
    have hfresh : ∀ m, m ≠ n → (τ.nodes n).role = .leader → (τ.nodes m).role = .leader →
        (τ.nodes m).term = (τ.nodes n).term → False := by
      intro m hm hn hlead heq
      rw [h.nodes_other hm] at hlead heq
      rcases h.leader_before hn with ⟨hrole, hterm⟩ | hnone
      · exact hm (hσ.leader_unique m n hlead hrole (heq.trans hterm))
      · rw [← heq, (hσ.node m).ownLedger hlead] at hnone
        cases hnone
    intro m m' hlead hlead' heq
    by_cases hm : m = n
    · subst hm
      by_contra hne
      exact hfresh m' (Ne.symm hne) hlead hlead' heq.symm
    · by_cases hm' : m' = n
      · subst hm'
        exact (hfresh m hm hlead' hlead heq).elim
      · rw [h.nodes_other hm] at hlead heq
        rw [h.nodes_other hm'] at hlead' heq
        exact hσ.leader_unique m m' hlead hlead' heq

end Step

/-! ### Runs -/

section Run

variable {tailCacheEntries : Nat → Nat} {ok : ShardGroup → Action → Prop} {σ : ShardGroup}

/-- The laws hold of a fresh group. -/
theorem laws_init (tailCacheEntries : Nat → Nat) : Laws (ShardGroup.init tailCacheEntries) := by
  have hledger : ∀ t, (ShardGroup.init tailCacheEntries).terms.ledger t =
      if t = 1 then some [bootstrapEntry] else none := by
    intro t
    show AList.lookup t (AList.insert 1 [bootstrapEntry] (∅ : AssocMap Nat Log)) = _
    rw [AssocMap.lookup_insert_eq, AList.lookup_empty]
  -- The only term on record is the one of the bootstrap entry.
  have hone : ∀ t full, (ShardGroup.init tailCacheEntries).terms.ledger t = some full →
      t = 1 ∧ full = [bootstrapEntry] := by
    intro t full hfull
    rw [hledger] at hfull
    split at hfull
    · rename_i ht
      cases hfull
      exact ⟨ht, rfl⟩
    · cases hfull
  have hsettled : (ShardGroup.init tailCacheEntries).terms.Settled 1 [bootstrapEntry] :=
    ⟨1, 1, [bootstrapEntry], Nat.le_refl 1, List.mem_singleton.mpr rfl, by rw [hledger]; rfl,
      List.prefix_refl _⟩
  refine ⟨⟨?_, ?_, ?_⟩, fun n => ?_, ?_⟩
  · intro t k hk
    cases List.mem_singleton.mp hk
    exact ⟨[bootstrapEntry], by rw [hledger]; rfl, Nat.le_refl 1⟩
  · intro t k full t' full' hk hfull hlt hfull'
    have h1 := (hone t full hfull).1
    have h2 := (hone t' full' hfull').1
    omega
  · intro t full i e hfull hi
    obtain ⟨rfl, rfl⟩ := hone t full hfull
    have he : e = bootstrapEntry := List.mem_singleton.mp (List.mem_of_getElem? hi)
    subst he
    exact ⟨[bootstrapEntry], by rw [hledger]; rfl, List.take_prefix _ _⟩
  · refine ⟨hsettled.recorded, fun h => (nomatch h), Nat.le_refl _, Nat.zero_le _, Nat.le_refl _,
      hsettled, [], rfl, hsettled.of_isPrefix (List.nil_prefix)⟩
  · intro m n hlead
    cases hlead

/-- **The laws hold in every run.** -/
theorem laws_reachable (h : (group tailCacheEntries).Reachable ok σ) : Laws σ := by
  refine h.invariant (laws_init tailCacheEntries) ?_
  intro s a t _ hs _ hstep
  exact hs.step (ShardGroup.step_sound hstep)

end Run

end WalServer.Cluster
