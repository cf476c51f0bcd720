import WalServer.Cluster.Acks

/-!
# `WalServer.Cluster.GivenUp`: writes that were answered `ErrNotLeader`

A node that is no leader refuses a write before anything of it exists. A leader that
steps down gives the same answer to its pending writes. It takes back the positions they
were given, but not the entries it proposed: they are in its raft log, and may be in the
logs of others. If the next leader has such an entry, it commits it, and every replica
applies the write whose client was told that it had failed (`givenUp_applied`).

An entry is out of the way once the group has committed another one at its raft index, or
below it, than the log has to which the entry was proposed (`TermLog.Excluded`). If nodes
give their pending writes up only then, no write that was given up is ever committed
(`givenUp_not_applied`). Earlier is too early: a run can go on so that a write which is
not excluded is applied (`excluded_iff`).
-/

set_option autoImplicit false

namespace WalServer.Cluster

open WalServer.Lib WalServer.Raft WalServer.Shard WalServer.Wal

/-- The write of a proposal was answered `ErrNotLeader` after it was proposed. -/
def Proposal.GivenUp (σ : ShardGroup) (q : Proposal) : Prop :=
  ∃ f ∈ σ.failures, f.node = q.node ∧ f.incarnation = q.incarnation ∧
    f.requestId = q.cmd.requestId

/-- The entry of a proposal is committed, and a replica has written its record. -/
def Proposal.Applied (σ : ShardGroup) (q : Proposal) : Prop :=
  σ.terms.Committed (q.index - 1) q.entry ∧
    ∃ n, ∃ r ∈ (σ.nodes n).wal, r = Node.recordOf q.index r.timestampNs q.cmd

/-- The condition on the end of an iteration: if the node leads no longer, the entry of
each write that is pending is excluded. -/
def givesUpExcluded (σ : ShardGroup) (a : Action) : Prop :=
  let x := σ.nodes a.node
  match a.event with
  | .observe =>
      x.core.observedRole = .leader → x.role ≠ .leader → ∀ q ∈ σ.proposals, q.node = a.node →
        q.incarnation = x.incarnation → (x.core.pendingWrites.lookup q.cmd.requestId).isSome →
          σ.terms.Excluded q.term q.index
  | _ => True

instance (σ : ShardGroup) (a : Action) : Decidable (givesUpExcluded σ a) := by
  rcases a with ⟨node, _ | _ | _ | _ | _ | _ | _ | _ | _ | _ | _ | _ | _ | _⟩
  all_goals dsimp only [givesUpExcluded]
  case observe =>
    exact @instDecidableForall _ _ inferInstance
      (@instDecidableForall _ _ inferInstance inferInstance)
  all_goals infer_instance

/-- A request id that was given out by a process of a node, now or earlier. -/
def UsedBy (x : Node) (incarnation requestId : Nat) : Prop :=
  incarnation ≤ x.incarnation ∧ (incarnation = x.incarnation → requestId ≤ x.core.requestSeq)

/-- **The invariant.** -/
structure GivesUp (σ : ShardGroup) : Prop where
  recorded : ProposalsRecorded σ
  pending : ∀ n rid p, (σ.nodes n).core.pendingWrites.lookup rid = some p →
    rid ≤ (σ.nodes n).core.requestSeq
  used : ∀ f ∈ σ.failures, UsedBy (σ.nodes f.node) f.incarnation f.requestId
  excluded : ∀ q ∈ σ.proposals, q.GivenUp σ → σ.terms.Excluded q.term q.index

/-! ### Steps -/

section Step

variable {tailCacheEntries : Nat → Nat} {σ τ : ShardGroup} {n : Nat} {ev : Event}

open ShardGroup

/-- Pending writes have request ids that were given out. -/
theorem ShardGroup.Step.pending_le (h : Step tailCacheEntries σ n (σ.nodes n) ev τ)
    (hseq : ∀ rid p, (σ.nodes n).core.pendingWrites.lookup rid = some p →
      rid ≤ (σ.nodes n).core.requestSeq) {rid : Nat} {p : PendingClientWrite}
    (hp : (τ.nodes n).core.pendingWrites.lookup rid = some p) :
    rid ≤ (τ.nodes n).core.requestSeq := by
  cases h with
  | writeRedirected => exact hseq rid p hp
  | writeRefused _ _ hres =>
      obtain ⟨-, hsame, hpending⟩ := ShardCore.admitWrite_eq_error hres
      simp only [nodes_update_self] at hp ⊢
      rw [hpending] at hp
      exact (hseq rid p hp).trans hsame.ge
  | writeAccepted _ _ hres =>
      obtain ⟨-, -, -, hnext, hpending⟩ := ShardCore.admitWrite_eq_ok hres
      simp only [nodes_update_self] at hp ⊢
      rw [hpending, AssocMap.lookup_insert_eq] at hp
      rw [hnext]
      split at hp
      · rename_i hnew
        exact hnew.le
      · exact (hseq rid p hp).trans (Nat.le_succ _)
  -- Handing over takes a write off the list and adds none.
  | handOverCommand =>
      simp only [nodes_update_self] at hp ⊢
      change ((σ.nodes n).core.pendingWrites.erase _).lookup rid = some p at hp
      rw [AssocMap.lookup_erase_eq] at hp
      split at hp
      · cases hp
      · exact hseq rid p hp
  | observe =>
      simp only [nodes_update_self] at hp ⊢
      by_cases hdown : (σ.nodes n).core.observedRole = .leader ∧ (σ.nodes n).role ≠ .leader
      · -- A step-down leaves nothing pending.
        rw [ShardCore.logRaftStateIfChanged_down hdown.1 hdown.2] at hp
        change AList.lookup rid (∅ : AssocMap Nat PendingClientWrite) = some p at hp
        rw [AList.lookup_empty] at hp
        cases hp
      · rw [ShardCore.logRaftStateIfChanged_stay
          fun hobs => not_not.mp fun hrole => hdown ⟨hobs, hrole⟩] at hp ⊢
        exact hseq rid p hp
  -- A restart begins with no pending write.
  | restart =>
      rw [nodes_update_self] at hp
      change AList.lookup rid (∅ : AssocMap Nat PendingClientWrite) = some p at hp
      rw [AList.lookup_empty] at hp
      cases hp
  | _ =>
      simp only [nodes_update_self] at hp ⊢
      exact hseq rid p hp

/-- A used request id stays used. -/
theorem ShardGroup.Step.usedBy (h : Step tailCacheEntries σ n (σ.nodes n) ev τ) {m : Nat}
    {incarnation requestId : Nat} (hused : UsedBy (σ.nodes m) incarnation requestId) :
    UsedBy (τ.nodes m) incarnation requestId := by
  by_cases hm : m = n
  · subst hm
    obtain ⟨hle, hid⟩ := hused
    rcases h.pending_none with hnew | ⟨hsame, hseq, -⟩
    · exact ⟨by omega, fun heq => by omega⟩
    · exact ⟨by omega, fun heq => (hid (by omega)).trans hseq⟩
  · rw [h.nodes_other hm]
    exact hused

/-- **Who is told what.** A step-down tells the clients of all pending writes, and no others,
that the node is not the leader. -/
theorem mem_failuresOf {x : Node} {f : Failure} :
    f ∈ failuresOf n x ↔ x.core.observedRole = .leader ∧ x.role ≠ .leader ∧
      ∃ rid p, x.core.pendingWrites.lookup rid = some p ∧
        f = ⟨n, x.incarnation, rid, p, ShardCore.notLeaderResponse x.leaderId p⟩ := by
  unfold failuresOf
  by_cases hdown : x.core.observedRole = .leader ∧ x.role ≠ .leader
  · obtain ⟨hobs, hrole⟩ := hdown
    rw [ShardCore.responses_logRaftStateIfChanged_down hobs hrole, ← ShardCore.map_snd_givenUp,
      List.map_map, List.zipWith_map_right, List.zipWith_self, List.mem_map]
    constructor
    · rintro ⟨⟨rid, p⟩, hp, rfl⟩
      have hentry : ⟨rid, p⟩ ∈ x.core.pendingWrites.entries :=
        (List.mergeSort_perm _ _).mem_iff.mp hp
      exact ⟨hobs, hrole, rid, p, AList.mem_lookup_iff.mpr hentry, rfl⟩
    · rintro ⟨-, -, rid, p, hp, rfl⟩
      exact ⟨⟨rid, p⟩, (List.mergeSort_perm _ _).mem_iff.mpr (AList.mem_lookup_iff.mp hp), rfl⟩
  · -- No write is given up, and nobody is told.
    have hnone : (x.core.logRaftStateIfChanged x.role x.leaderId).2 = [] := by
      unfold ShardCore.logRaftStateIfChanged
      rw [if_neg hdown]
      split <;> rfl
    rw [hnone, List.zipWith_nil_right]
    constructor
    · intro hf
      cases hf
    · rintro ⟨hobs, hrole, -⟩
      exact absurd ⟨hobs, hrole⟩ hdown

/-- The failures after a step: those before it, and those of the writes that were pending
when a step-down was observed. -/
theorem ShardGroup.Step.failures (h : Step tailCacheEntries σ n (σ.nodes n) ev τ) {f : Failure}
    (hf : f ∈ τ.failures) :
    f ∈ σ.failures ∨
      (ev = .observe ∧ (σ.nodes n).core.observedRole = .leader ∧ (σ.nodes n).role ≠ .leader ∧
        f.node = n ∧ f.incarnation = (σ.nodes n).incarnation ∧
        ∃ p, (σ.nodes n).core.pendingWrites.lookup f.requestId = some p) := by
  cases h with
  | observe =>
      rcases List.mem_append.mp hf with hnew | hold
      · right
        obtain ⟨hobs, hrole, rid, p, hp, rfl⟩ := mem_failuresOf.mp hnew
        exact ⟨rfl, hobs, hrole, rfl, rfl, p, hp⟩
      · exact Or.inl hold
  | _ => exact Or.inl hf

/-- The proposals after a step: those before it, and that of an accepted write, under a
request id that is new. -/
theorem ShardGroup.Step.proposals (h : Step tailCacheEntries σ n (σ.nodes n) ev τ) {q : Proposal}
    (hq : q ∈ τ.proposals) :
    q ∈ σ.proposals ∨ (τ.failures = σ.failures ∧ q.node = n ∧
      q.incarnation = (σ.nodes n).incarnation ∧
      (σ.nodes n).core.requestSeq < q.cmd.requestId) := by
  cases h with
  | writeAccepted _ _ hres =>
      rcases List.mem_cons.mp hq with rfl | hold
      · obtain ⟨rfl, -⟩ := ShardCore.admitWrite_eq_ok hres
        exact Or.inr ⟨rfl, rfl, rfl, Nat.lt_succ_self _⟩
      · exact Or.inl hold
  | _ => exact Or.inl hq

/-- **A permitted step keeps the invariant.** -/
theorem GivesUp.step (hg : GivesUp σ) (hσ : Laws σ) (hok : givesUpExcluded σ ⟨n, ev⟩)
    (h : Step tailCacheEntries σ n (σ.nodes n) ev τ) : GivesUp τ := by
  refine ⟨hg.recorded.step hσ h, fun m rid p hp => ?_, fun f hf => ?_, fun q hq hgiven => ?_⟩
  · by_cases hm : m = n
    · subst hm
      exact h.pending_le (hg.pending m) hp
    · rw [h.nodes_other hm] at hp ⊢
      exact hg.pending m rid p hp
  · rcases h.failures hf with hold | ⟨-, -, -, hnode, hinc, p, hp⟩
    · exact h.usedBy (hg.used f hold)
    · refine h.usedBy ?_
      rw [hnode, hinc]
      exact ⟨Nat.le_refl _, fun _ => hg.pending n _ p hp⟩
  · obtain ⟨f, hf, hnode, hinc, hid⟩ := hgiven
    rcases h.proposals hq with hold | ⟨hsame, hqnode, hqinc, hnew⟩
    · -- The entry is excluded in the state before, and so it is in the one after.
      have hbefore : σ.terms.Excluded q.term q.index := by
        rcases h.failures hf with hfold | ⟨rfl, hobs, hrole, hfnode, hfinc, p, hp⟩
        · exact hg.excluded q hold ⟨f, hfold, hnode, hinc, hid⟩
        · refine hok hobs hrole q hold (hnode.symm.trans hfnode) (hinc.symm.trans hfinc) ?_
          rw [← hid]
          exact Option.isSome_iff_exists.mpr ⟨p, hp⟩
      obtain ⟨hpos, full, hfull, he⟩ := hg.recorded q hold
      obtain ⟨hlt, -⟩ := List.getElem?_eq_some_iff.mp he
      exact hbefore.grows (hσ.step_grows h) hfull (by omega)
    · -- A failure has a request id that was used, and the new proposal's was not.
      rw [hsame] at hf
      have hused := (hg.used f hf).2
      rw [hnode, hqnode, hinc, hqinc, hid] at hused
      exact absurd (hused rfl) (Nat.not_le.mpr hnew)

end Step

/-! ### Runs -/

section Run

variable {tailCacheEntries : Nat → Nat} {σ : ShardGroup}

theorem givesUp_reachable (h : (group tailCacheEntries).Reachable givesUpExcluded σ) :
    GivesUp σ := by
  refine h.invariant (I := GivesUp) ⟨?_, fun n rid p hp => ?_, ?_, ?_⟩ ?_
  · intro q hq
    cases hq
  · change AList.lookup rid (∅ : AssocMap Nat PendingClientWrite) = some p at hp
    rw [AList.lookup_empty] at hp
    cases hp
  · intro f hf
    cases hf
  · intro q hq
    cases hq
  · intro s a t hs hg hok hst
    exact hg.step (laws_reachable hs) hok (ShardGroup.step_sound hst)

/-- **No write that was given up is committed or applied**, in the runs in which nodes
give up only what is excluded. And a write that is refused on admission leaves the group
as it is. -/
theorem givenUp_not_applied (h : (group tailCacheEntries).Reachable givesUpExcluded σ) :
    (∀ q ∈ σ.proposals, q.GivenUp σ →
      ¬ σ.terms.Committed (q.index - 1) q.entry ∧ ¬ q.Applied σ) ∧
    ∀ n connectionId streamId epoch payload, (σ.nodes n).role ≠ .leader →
      σ.handleWrite n connectionId streamId epoch payload = σ := by
  constructor
  · intro q hq hgiven
    have hg := givesUp_reachable h
    have hpos := (hg.recorded q hq).1
    have hnever := (hg.excluded q hq hgiven).not_committed (laws_reachable h).lawful
      (j := q.index - 1) (e := q.entry) (by omega) rfl
    exact ⟨hnever, fun happlied => hnever happlied.1⟩
  · intro n connectionId streamId epoch payload hrole
    exact if_pos hrole

end Run

/-- A write that a leader has proposed, and what its client is answered in the end. -/
def firstWrite : Proposal := ⟨1, 0, 11, 3, 2, ⟨1, 7, 1, 0, [1]⟩⟩

def firstFailure : Failure :=
  ⟨1, 0, 1, ⟨11, 7, 1, 0⟩, ShardCore.notLeaderResponse 2 ⟨11, 7, 1, 0⟩⟩

/-- A leader proposes a write. The second node, which does not have it, comes into office
and commits an entry of its own. The first one learns of it and gives the write up. -/
def excludedRun : List Action :=
  [⟨1, .poll⟩, ⟨1, .elect 2⟩, ⟨1, .observe⟩, ⟨1, .write 11 7 1 [1]⟩, ⟨1, .poll⟩,
   ⟨2, .poll⟩, ⟨2, .elect 3⟩, ⟨2, .commit 2⟩, ⟨1, .follow .follower 3 2⟩, ⟨1, .observe⟩]

theorem givenUp_not_applied_excluded :
    ∃ σ, (group fun _ => 8).Reachable givesUpExcluded σ ∧ firstWrite ∈ σ.proposals ∧
      firstWrite.GivenUp σ ∧ ¬ firstWrite.Applied σ := by
  obtain ⟨σ, hreach, hproposals, hfailures⟩ := System.exists_reachable_of_execute
    (group fun _ => 8) givesUpExcluded excludedRun
    (fun s => s.proposals = [firstWrite] ∧ s.failures = [firstFailure])
    (by decide +kernel)
  have hmem : firstWrite ∈ σ.proposals := by
    rw [hproposals]
    exact List.mem_cons_self
  have hgiven : firstWrite.GivenUp σ := by
    refine ⟨firstFailure, ?_, rfl, rfl, rfl⟩
    rw [hfailures]
    exact List.mem_cons_self
  exact ⟨σ, hreach, hmem, hgiven, ((givenUp_not_applied hreach).1 _ hmem hgiven).2⟩

/-- A leader's write is replicated to the second node. The leader steps down and gives
the write up, the second node comes into office, commits what it has and applies it. -/
def givenUpRun : List Action :=
  [⟨1, .poll⟩, ⟨1, .elect 2⟩, ⟨1, .observe⟩, ⟨1, .write 11 7 1 [1]⟩, ⟨1, .poll⟩,
   ⟨2, .poll⟩, ⟨2, .replicate 2 3⟩, ⟨1, .follow .follower 3 2⟩, ⟨1, .observe⟩, ⟨2, .elect 3⟩,
   ⟨2, .commit 4⟩, ⟨2, .handOver 0⟩, ⟨2, .handOver 0⟩, ⟨2, .handOver 0⟩]

/-- **A write that was given up is applied.** -/
theorem givenUp_applied :
    ¬ ∀ σ, (group fun _ => 8).Reachable System.anyStep σ →
      ∀ q ∈ σ.proposals, q.GivenUp σ → ¬ q.Applied σ := by
  intro hnever
  obtain ⟨σ, hreach, hproposals, hfailures, hcommits, hledger, hwal⟩ :=
    System.exists_reachable_of_execute (group fun _ => 8) System.anyStep givenUpRun
      (fun s => s.proposals = [firstWrite] ∧ s.failures = [firstFailure] ∧
        (3, 4) ∈ s.terms.commits ∧
        s.terms.ledger 3 = some [bootstrapEntry, ⟨2, none⟩, firstWrite.entry, ⟨3, none⟩] ∧
        (s.nodes 2).wal = [⟨7, 1, 3, 0, 0, [1]⟩])
      (by decide +kernel)
  refine hnever σ hreach firstWrite ?_ ?_ ⟨?_, 2, ⟨7, 1, 3, 0, 0, [1]⟩, ?_, rfl⟩
  · rw [hproposals]
    exact List.mem_cons_self
  · refine ⟨firstFailure, ?_, rfl, rfl, rfl⟩
    rw [hfailures]
    exact List.mem_cons_self
  · exact ⟨3, 4, _, hcommits, hledger, by decide, rfl⟩
  · rw [hwal]
    exact List.mem_cons_self

/-! ### What is not excluded can still be applied -/

section Continued

variable {tailCacheEntries : Nat → Nat} {ok : ShardGroup → Action → Prop} {σ τ υ : ShardGroup}
  {n : Nat}

open ShardGroup System

/-- One more event of a continued run. -/
theorem continued (h : ((group tailCacheEntries).startingFrom σ).Reachable anyStep τ)
    {ev : Event} (hstep : Step tailCacheEntries τ n (τ.nodes n) ev υ) :
    ((group tailCacheEntries).startingFrom σ).Reachable anyStep υ :=
  h.step trivial (step_complete hstep)

/-- A run has left almost all nodes as they were. -/
theorem exists_untouched (h : (group tailCacheEntries).Reachable ok σ) :
    ∃ n, σ.nodes n = .init (tailCacheEntries n) := by
  have hbeyond : ∃ N, ∀ n, N ≤ n → σ.nodes n = .init (tailCacheEntries n) := by
    refine h.invariant (I := fun s => ∃ N, ∀ n, N ≤ n → s.nodes n = .init (tailCacheEntries n))
      ⟨0, fun _ _ => rfl⟩ ?_
    rintro s a t - ⟨N, hN⟩ - hst
    refine ⟨max N (a.node + 1), fun n hn => ?_⟩
    rw [(step_sound hst).nodes_other (by omega)]
    exact hN n (by omega)
  obtain ⟨N, hN⟩ := hbeyond
  exact ⟨N, hN N (Nat.le_refl N)⟩

/-- A node that has some of a log committed and the first of it handed over. -/
structure HandsOver (τ : ShardGroup) (n : Nat) (log : Log) (delivered : Nat) : Prop where
  phase : (τ.nodes n).phase = .raft
  holds : log <+: (τ.nodes n).log
  committed : log.length ≤ (τ.nodes n).committed
  delivered : (τ.nodes n).delivered = delivered

variable (tailCacheEntries) in
/-- **The next entry is handed over**, and if it has a command, its record is written. -/
theorem HandsOver.next {log : Log} {delivered : Nat} (h : HandsOver τ n log delivered)
    {e : Entry (Option AppendCommand)} (he : log[delivered]? = some e) :
    ∃ ev υ, Step tailCacheEntries τ n (τ.nodes n) ev υ ∧ υ.terms = τ.terms ∧
      HandsOver υ n log (delivered + 1) ∧
      ∀ cmd ∈ e.data, Node.recordOf (delivered + 1) 0 cmd ∈ (υ.nodes n).wal := by
  obtain ⟨hbelow, -⟩ := List.getElem?_eq_some_iff.mp he
  -- What is to be handed over is committed, so the node has an entry at its cursor.
  have hlt : (τ.nodes n).delivered < (τ.nodes n).committed := by
    rw [h.delivered]
    exact Nat.lt_of_lt_of_le hbelow h.committed
  have hentry : (τ.nodes n).log[(τ.nodes n).delivered]? = some e := by
    rw [h.delivered]
    exact TermLog.getElem?_of_isPrefix h.holds he
  cases hdata : e.data with
  | none =>
      refine ⟨.handOver 0, _, .handOverEmpty h.phase hlt hentry hdata, rfl, ?_, ?_⟩
      · rw [← h.delivered]
        constructor <;> rw [nodes_update_self]
        · exact h.phase
        · exact h.holds
        · exact h.committed
      · intro cmd hcmd
        cases hcmd
  | some cmd =>
      refine ⟨.handOver 0, _, .handOverCommand h.phase hlt hentry hdata, rfl, ?_, ?_⟩
      · rw [← h.delivered]
        constructor <;> simp only [nodes_update_self]
        · exact h.phase
        · exact h.holds
        · exact h.committed
        · rfl
      · intro cmd' hcmd'
        cases hcmd'
        simp only [nodes_update_self]
        rw [← h.delivered]
        exact List.mem_append_right _ List.mem_cons_self

/-- A node that has a log committed can be handed all of it. -/
theorem HandsOver.all {log : Log} (h : HandsOver τ n log 0)
    (hrun : ((group tailCacheEntries).startingFrom σ).Reachable anyStep τ) {count : Nat}
    (hcount : count ≤ log.length) :
    ∃ υ, ((group tailCacheEntries).startingFrom σ).Reachable anyStep υ ∧ υ.terms = τ.terms ∧
      HandsOver υ n log count := by
  induction count with
  | zero => exact ⟨τ, hrun, rfl, h⟩
  | succ count ih =>
      obtain ⟨υ, hυ, hterms, hover⟩ := ih (Nat.le_of_succ_le hcount)
      obtain ⟨ev, φ, hstep, hsame, hnext, -⟩ :=
        hover.next tailCacheEntries (List.getElem?_eq_getElem (Nat.lt_of_succ_le hcount))
      exact ⟨φ, continued hυ hstep, hsame.trans hterms, hnext⟩

/-- A node that has the entry of a proposal committed, and nothing handed over yet, can
still apply it. -/
theorem HandsOver.exists_applied {log : Log} (h : HandsOver τ n log 0)
    (hrun : ((group tailCacheEntries).startingFrom σ).Reachable anyStep τ) {q : Proposal}
    (hpos : 0 < q.index) (hentry : log[q.index - 1]? = some q.entry)
    (hcommitted : τ.terms.Committed (q.index - 1) q.entry) :
    ∃ υ, ((group tailCacheEntries).startingFrom σ).Reachable anyStep υ ∧ q.Applied υ := by
  obtain ⟨hlt, -⟩ := List.getElem?_eq_some_iff.mp hentry
  obtain ⟨υ, hυ, hterms, hover⟩ := h.all hrun hlt.le
  obtain ⟨ev, φ, hstep, hsame, -, hrecord⟩ :=
    hover.next tailCacheEntries hentry
  refine ⟨φ, continued hυ hstep, ?_, n, _, hrecord q.cmd rfl, ?_⟩
  · rw [hsame, hterms]
    exact hcommitted
  · rw [Nat.sub_add_cancel hpos]
    rfl

/-- One more event that changes its own node alone. -/
theorem continued_update {x : Node}
    (h : ((group tailCacheEntries).startingFrom σ).Reachable anyStep τ) {ev : Event}
    (hstep : Step tailCacheEntries τ n (τ.nodes n) ev (τ.update n x)) :
    ∃ υ, ((group tailCacheEntries).startingFrom σ).Reachable anyStep υ ∧ υ.nodes n = x ∧
      υ.terms = τ.terms :=
  ⟨_, continued h hstep, nodes_update_self _ _ _, rfl⟩

/-- A fresh node that has left the handling of requests. -/
def polled (tailCacheEntries : Nat) : Node :=
  { Node.init tailCacheEntries with phase := .raft }

/-- **An untouched node takes the start of a ledger**, if that begins as its own log. -/
theorem exists_replicated (h : σ.nodes n = .init (tailCacheEntries n)) {t k : Nat} {full : Log}
    (hfull : σ.terms.ledger t = some full) (hlen : k ≤ full.length)
    (hfirst : [bootstrapEntry] <+: full.take k) :
    ∃ τ, ((group tailCacheEntries).startingFrom σ).Reachable anyStep τ ∧
      τ.nodes n = { polled (tailCacheEntries n) with log := full.take k } ∧
      τ.terms = σ.terms := by
  have hpos : 1 ≤ k := hfirst.length_le.trans (List.length_take_le _ _)
  have hsame : full.take 1 = [bootstrapEntry].take 1 :=
    (List.prefix_iff_eq_take.mp (hfirst.trans (List.take_prefix _ _))).symm
  have hpoll : Step tailCacheEntries σ n (σ.nodes n) .poll
      (σ.update n (polled (tailCacheEntries n))) := by
    rw [h]
    exact .poll rfl
  obtain ⟨τ, hτ, hx, hterms⟩ := continued_update .init hpoll
  have hreplicate : Step tailCacheEntries τ n (τ.nodes n) (.replicate t k)
      (τ.update n { polled (tailCacheEntries n) with log := full.take k }) := by
    rw [hx]
    exact .replicate (by rw [hterms]; exact hfull) rfl (fun hrole => nomatch hrole) hpos hlen hsame
  obtain ⟨υ, hυ, hy, hsameTerms⟩ := continued_update hτ hreplicate
  exact ⟨υ, hυ, hy, hsameTerms.trans hterms⟩

/-- What an untouched node has in its log is settled. -/
theorem settled_untouched (hlaws : Laws σ) (h : σ.nodes n = .init (tailCacheEntries n)) :
    σ.terms.Settled 1 [bootstrapEntry] := by
  have hsettled := (hlaws.node n).settled
  rw [h] at hsettled
  exact hsettled

/-- **An untouched node learns** what a decision has committed. -/
theorem exists_learned (hlaws : Laws σ) (h : σ.nodes n = .init (tailCacheEntries n))
    {t k : Nat} {full : Log} (hk : (t, k) ∈ σ.terms.commits)
    (hfull : σ.terms.ledger t = some full) (hlen : k ≤ full.length) (hpos : 0 < k) :
    ∃ τ, ((group tailCacheEntries).startingFrom σ).Reachable anyStep τ ∧ τ.terms = σ.terms ∧
      HandsOver τ n (full.take k) 0 := by
  have hlength : (full.take k).length = k := by
    rw [List.length_take]
    omega
  have hsettled : σ.terms.Settled t (full.take k) :=
    ⟨t, k, full, Nat.le_refl t, hk, hfull, List.prefix_refl _⟩
  have hfirst : [bootstrapEntry] <+: full.take k :=
    hlaws.lawful.settled_isPrefix (settled_untouched hlaws h) hsettled (by rw [hlength]; exact hpos)
  obtain ⟨τ, hτ, hx, hterms⟩ := exists_replicated h hfull hlen hfirst
  -- It hears of the deciding term, and then of the decision.
  have hfollow : Step tailCacheEntries τ n (τ.nodes n) (.follow .follower (max t 1) 0)
      (τ.update n { polled (tailCacheEntries n) with
        log := full.take k, role := .follower, term := max t 1, leaderId := 0 }) := by
    rw [hx]
    exact .follow rfl (fun hrole => nomatch hrole) (Nat.le_max_right _ _)
  obtain ⟨υ, hυ, hy, hterms₂⟩ := continued_update hτ hfollow
  have hlearn : Step tailCacheEntries υ n (υ.nodes n) (.learnCommit k)
      (υ.update n { polled (tailCacheEntries n) with
        log := full.take k, role := .follower, term := max t 1, leaderId := 0,
        committed := k }) := by
    rw [hy]
    refine .learnCommit rfl hpos hlength.ge ?_
    rw [hterms₂, hterms]
    exact (hsettled.of_isPrefix (List.take_prefix _ _)).mono (Nat.le_max_left _ _)
  obtain ⟨φ, hφ, hz, hterms₃⟩ := continued_update hυ hlearn
  refine ⟨φ, hφ, hterms₃.trans (hterms₂.trans hterms), ?_⟩
  constructor
  · rw [hz]
    rfl
  · rw [hz]
  · rw [hz]
    exact hlength.le
  · rw [hz]
    rfl

/-- **An untouched node comes into office** with the start of a ledger that has all that
is settled, and commits it. -/
theorem exists_elected (h : σ.nodes n = .init (tailCacheEntries n)) (hlaws : Laws σ)
    {t k : Nat} {full : Log} (hfull : σ.terms.ledger t = some full) (hlen : k ≤ full.length)
    (hsettled : ∀ T pre, σ.terms.Settled T pre → pre <+: full.take k) :
    ∃ τ T own, ((group tailCacheEntries).startingFrom σ).Reachable anyStep τ ∧
      (T, k) ∈ τ.terms.commits ∧ τ.terms.ledger T = some own ∧ full.take k <+: own ∧
      HandsOver τ n (full.take k) 0 := by
  have hfirst : [bootstrapEntry] <+: full.take k := hsettled _ _ (settled_untouched hlaws h)
  have hpos : 1 ≤ k := hfirst.length_le.trans (List.length_take_le _ _)
  have hlength : (full.take k).length = k := by
    rw [List.length_take]
    omega
  obtain ⟨τ, hτ, hx, hterms⟩ := exists_replicated h hfull hlen hfirst
  -- No leader has been in office in the term that it takes, or in a later one.
  obtain ⟨bound, hbound⟩ := σ.terms.exists_fresh
  let T := max bound 1
  have hfresh : ∀ u, T ≤ u → τ.terms.ledger u = none := by
    intro u hu
    rw [hterms]
    exact hbound u ((Nat.le_max_left _ _).trans hu)
  let own : Log := full.take k ++ [⟨T, none⟩]
  let leading : Node := { polled (tailCacheEntries n) with
    log := own, role := .leader, term := T, leaderId := n }
  have helect : Step tailCacheEntries τ n (τ.nodes n) (.elect T)
      { τ.update n leading with terms := τ.terms.openTerm T (full.take k) ⟨T, none⟩ } := by
    rw [hx]
    refine .elect rfl (fun hrole => nomatch hrole) (Nat.le_max_right _ _)
      (hfresh T (Nat.le_refl T)) ?_
    intro u j decided hj _ hdecided
    rw [hterms] at hj hdecided
    exact hsettled u _ ⟨u, j, decided, Nat.le_refl u, hj, hdecided, List.prefix_refl _⟩
  obtain ⟨υ, hυ, hy, hterms₂⟩ : ∃ υ, ((group tailCacheEntries).startingFrom σ).Reachable anyStep υ ∧
      υ.nodes n = leading ∧ υ.terms = τ.terms.openTerm T (full.take k) ⟨T, none⟩ :=
    ⟨_, continued hτ helect, nodes_update_self _ _ _, rfl⟩
  have hcommit : Step tailCacheEntries υ n (υ.nodes n) (.commit k)
      { υ.update n { leading with committed := k } with terms := υ.terms.commit T k } := by
    rw [hy]
    refine .commit rfl rfl hpos ?_ ?_
    · show k ≤ (full.take k ++ [_]).length
      rw [List.length_append, hlength]
      exact Nat.le_succ _
    · intro u later hu hlater
      have hne : u ≠ T := (show T < u from hu).ne'
      rw [hterms₂, TermLog.ledger_openTerm, if_neg hne, hfresh u (show T < u from hu).le] at hlater
      cases hlater
  refine ⟨_, T, own, continued hυ hcommit, List.mem_cons_self, ?_, List.prefix_append _ _, ?_⟩
  · show (υ.terms.commit T k).ledger T = some own
    rw [TermLog.ledger_commit, hterms₂]
    exact TermLog.ledger_openTerm_self _ _ _ _
  · constructor <;> simp only [nodes_update_self]
    · rfl
    · exact List.prefix_append _ _
    · exact hlength.le
    · rfl

/-- **A write that is not excluded can still be applied.** -/
theorem exists_applied (hlaws : Laws σ) (hrecorded : ProposalsRecorded σ)
    (hreach : (group tailCacheEntries).Reachable ok σ) {q : Proposal} (hq : q ∈ σ.proposals)
    (hnot : ¬ σ.terms.Excluded q.term q.index) :
    ∃ τ, ((group tailCacheEntries).startingFrom σ).Reachable anyStep τ ∧ q.Applied τ := by
  obtain ⟨hpos, full, hfull, he⟩ := hrecorded q hq
  obtain ⟨hbelow, -⟩ := List.getElem?_eq_some_iff.mp he
  have hlen : q.index ≤ full.length := by omega
  obtain ⟨n, hn⟩ := exists_untouched hreach
  have hentry : (full.take q.index)[q.index - 1]? = some q.entry := by
    rw [List.getElem?_take_of_lt (by omega), he]
  by_cases hlong : ∃ t k decided, (t, k) ∈ σ.terms.commits ∧ σ.terms.ledger t = some decided ∧
      q.index ≤ k
  · -- A decision reaches up to the entry, so it is committed already.
    obtain ⟨t, k, decided, hk, hdecided, hreaches⟩ := hlong
    have hsettled : σ.terms.Settled t (decided.take k) :=
      ⟨t, k, decided, Nat.le_refl t, hk, hdecided, List.prefix_refl _⟩
    have hle : k ≤ decided.length := by
      obtain ⟨decided', hdecided', hle⟩ := hlaws.lawful.decided t k hk
      rw [hdecided] at hdecided'
      cases hdecided'
      exact hle
    have hstart := TermLog.isPrefix_of_not_excluded hnot hfull hsettled
    have hsame : full.take q.index <+: decided.take k := by
      have heq : (decided.take k).take q.index = full.take q.index := by
        refine hstart.eq_of_length_le ?_
        rw [List.length_take, List.length_take, List.length_take]
        omega
      rw [← heq]
      exact List.take_prefix _ _
    have hhas := TermLog.getElem?_of_isPrefix hsame hentry
    obtain ⟨τ, hτ, hterms, hover⟩ := exists_learned hlaws hn hk hdecided hle (by omega)
    refine hover.exists_applied hτ hpos hhas ?_
    rw [hterms]
    exact hsettled.committed hhas
  · -- All decisions are of a part of what comes before the entry.
    have hshort : ∀ T pre, σ.terms.Settled T pre → pre <+: full.take q.index := by
      intro T pre hpre
      obtain ⟨t, k, decided, -, hk, hdecided, hp⟩ := id hpre
      have hkq : k < q.index := by
        by_contra hge
        exact hlong ⟨t, k, decided, hk, hdecided, Nat.not_lt.mp hge⟩
      have hle : pre.length ≤ q.index :=
        hp.length_le.trans ((List.length_take_le _ _).trans hkq.le)
      have hstart := TermLog.isPrefix_of_not_excluded hnot hfull hpre
      rwa [List.take_of_length_le hle] at hstart
    obtain ⟨τ, T, own, hτ, hk, hown, hp, hover⟩ := exists_elected hn hlaws hfull hlen hshort
    refine hover.exists_applied hτ hpos hentry ?_
    exact ⟨T, q.index, own, hk, hown, by omega, TermLog.getElem?_of_isPrefix hp hentry⟩

/-- An excluded write stays so, however the run goes on. -/
theorem excluded_continued (hlaws : Laws σ) {t k : Nat} {full : Log}
    (hfull : σ.terms.ledger t = some full) (hk : k ≤ full.length) (h : σ.terms.Excluded t k)
    (hrun : ((group tailCacheEntries).startingFrom σ).Reachable anyStep τ) :
    Laws τ ∧ τ.terms.Excluded t k := by
  have hall : Laws τ ∧ τ.terms.Excluded t k ∧ ∃ full, τ.terms.ledger t = some full ∧
      k ≤ full.length := by
    refine hrun.invariant (I := fun τ => Laws τ ∧ τ.terms.Excluded t k ∧
      ∃ full, τ.terms.ledger t = some full ∧ k ≤ full.length) ⟨hlaws, h, full, hfull, hk⟩ ?_
    rintro s a u - ⟨hs, hexcluded, now, hnow, hlen⟩ - hst
    have hstep := step_sound hst
    have hgrows := hs.step_grows hstep
    obtain ⟨next, hnext, hp⟩ := hgrows.ledgers t now hnow
    exact ⟨hs.step hstep, hexcluded.grows hgrows hnow hlen, next, hnext, hlen.trans hp.length_le⟩
  exact ⟨hall.1, hall.2.1⟩

/-- **A write is never applied, however a run goes on, exactly if it is excluded.** So a
node that gives up a write earlier cannot know that it will not be applied. -/
theorem excluded_iff (h : (group tailCacheEntries).Reachable ok σ) {q : Proposal}
    (hq : q ∈ σ.proposals) :
    σ.terms.Excluded q.term q.index ↔
      ∀ τ, ((group tailCacheEntries).startingFrom σ).Reachable anyStep τ → ¬ q.Applied τ := by
  have hlaws := laws_reachable h
  have hrecorded := proposalsRecorded_reachable h
  constructor
  · rintro hexcluded τ hτ ⟨hcommitted, -⟩
    obtain ⟨hpos, full, hfull, he⟩ := hrecorded q hq
    obtain ⟨hlt, -⟩ := List.getElem?_eq_some_iff.mp he
    obtain ⟨hlaws', hexcluded'⟩ := excluded_continued hlaws hfull (by omega) hexcluded hτ
    exact hexcluded'.not_committed hlaws'.lawful (j := q.index - 1) (by omega) rfl hcommitted
  · intro hnever
    by_contra hnot
    obtain ⟨τ, hτ, happlied⟩ := exists_applied hlaws hrecorded h hq hnot
    exact hnever τ hτ happlied

end Continued

end WalServer.Cluster
