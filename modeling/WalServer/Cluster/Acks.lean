import WalServer.Cluster.Laws

/-!
# `WalServer.Cluster.Acks`: which entry an answer is for

A leader remembers a write under a request id, a counter of its process, and the
id travels in the replicated command. An applied command completes the pending
write under its id, whoever proposed it. `Ack.Genuine` says of an `Ok` that the
committed entry it was sent for is the one proposed for that very write.

`answersPermitted` is the condition under which that holds: no request id is
given out that an entry of the log, not yet handed over, carries already, and no
entry that carries a pending id comes in from another log. `answered_reachable`
is the invariant of such runs; `Answered.owned` is its core.
-/

set_option autoImplicit false

namespace WalServer.Cluster

open WalServer.Lib WalServer.Raft WalServer.Shard WalServer.Wal

/-- The pending write that is registered when the proposal is made. -/
def Proposal.pending (q : Proposal) : PendingClientWrite :=
  ⟨q.connectionId, q.cmd.streamId, q.cmd.epoch, q.cmd.streamLsn⟩

/-- The raft entry of a proposal. -/
def Proposal.entry (q : Proposal) : Entry (Option AppendCommand) := ⟨q.term, some q.cmd⟩

/-- The entry an answer was sent for is the one its node proposed, in the same
process, for the write it answers, and it is committed. -/
def Ack.Genuine (σ : ShardGroup) (a : Ack) : Prop :=
  ∃ q ∈ σ.proposals, q.node = a.node ∧ q.incarnation = a.incarnation ∧
    q.cmd.requestId = a.requestId ∧ q.pending = a.pending ∧ q.index = a.index ∧
    q.term = a.term ∧ q.cmd = a.cmd ∧ σ.terms.Committed (a.index - 1) ⟨a.term, some a.cmd⟩

/-- The start of another log brings nothing new, beyond what was handed over,
under the id of a pending write. -/
def BringsNothing (x : Node) (l : Log) : Prop :=
  ∀ i < l.length, ∀ e ∈ l[i]?, ∀ cmd ∈ e.data,
    x.delivered ≤ i ∧ (x.core.pendingWrites.lookup cmd.requestId).isSome → x.log[i]? = some e

instance (x : Node) (l : Log) : Decidable (BringsNothing x l) := by
  unfold BringsNothing
  infer_instance

/-- The condition on a step. -/
def answersPermitted (σ : ShardGroup) (a : Action) : Prop :=
  let x := σ.nodes a.node
  match a.event with
  | .write _ s epoch _ =>
      x.role = .leader → (x.core.streams.ensureStream s).maxEpoch ≤ epoch →
        ∀ e ∈ x.log.drop x.delivered, ∀ cmd ∈ e.data, cmd.requestId ≠ x.core.requestSeq + 1
  | .replicate term len => ∀ full ∈ σ.terms.ledger term, BringsNothing x (full.take len)
  | _ => True

instance (σ : ShardGroup) (a : Action) : Decidable (answersPermitted σ a) := by
  rcases a with ⟨node, _ | _ | _ | _ | _ | _ | _ | _ | _ | _ | _ | _ | _ | _⟩
  all_goals
    dsimp only [answersPermitted]
    infer_instance

/-- A pending write of a node is owned: it was proposed, and an entry that is yet
to be handed over and carries its id is that proposal. -/
def Owned (proposals : List Proposal) (n : Nat) (x : Node) (rid : Nat)
    (p : PendingClientWrite) : Prop :=
  ∃ q ∈ proposals, q.node = n ∧ q.incarnation = x.incarnation ∧ q.cmd.requestId = rid ∧
    q.pending = p ∧ ∀ i e cmd, x.delivered ≤ i → x.log[i]? = some e → cmd ∈ e.data →
      cmd.requestId = rid → i + 1 = q.index ∧ e = q.entry

/-- What holds of a node's pending writes. -/
structure NodeAnswered (proposals : List Proposal) (n : Nat) (x : Node) : Prop where
  seq : ∀ rid p, x.core.pendingWrites.lookup rid = some p → rid ≤ x.core.requestSeq
  owned : ∀ rid p, x.core.pendingWrites.lookup rid = some p → Owned proposals n x rid p

/-- Every proposal is recorded in the ledger of its term. -/
def ProposalsRecorded (σ : ShardGroup) : Prop :=
  ∀ q ∈ σ.proposals, 0 < q.index ∧
    ∃ full, σ.terms.ledger q.term = some full ∧ full[q.index - 1]? = some q.entry

/-- A sent answer is final: its write is pending no longer, and its id is used. -/
def Ack.Final (σ : ShardGroup) (a : Ack) : Prop :=
  let x := σ.nodes a.node
  a.incarnation ≤ x.incarnation ∧
    (a.incarnation = x.incarnation →
      x.core.pendingWrites.lookup a.requestId = none ∧ a.requestId ≤ x.core.requestSeq)

/-- What holds of the group. -/
structure Answered (σ : ShardGroup) : Prop where
  node : ∀ n, NodeAnswered σ.proposals n (σ.nodes n)
  recorded : ∀ q ∈ σ.proposals, 0 < q.index ∧
    ∃ full, σ.terms.ledger q.term = some full ∧ full[q.index - 1]? = some q.entry
  distinct : ∀ q ∈ σ.proposals, ∀ q' ∈ σ.proposals, q.term = q'.term → q.index = q'.index → q = q'
  genuine : ∀ a ∈ σ.acks, a.Genuine σ
  final : ∀ a ∈ σ.acks, a.Final σ
  once : σ.acks.Pairwise fun a b =>
    a.node = b.node → a.incarnation = b.incarnation → a.requestId ≠ b.requestId

/-! ### Steps -/

section Step

variable {tailCacheEntries : Nat → Nat} {σ τ : ShardGroup} {n : Nat} {ev : Event}

open ShardGroup

/-- Owned writes stay owned when proposals are added and nothing is added to what
is yet to be handed over under their id. -/
theorem Owned.mono {proposals proposals' : List Proposal} {x x' : Node} {rid : Nat}
    {p : PendingClientWrite} (h : Owned proposals n x rid p)
    (hsub : ∀ q ∈ proposals, q ∈ proposals') (hinc : x'.incarnation = x.incarnation)
    (hlog : ∀ i e cmd, x'.delivered ≤ i → x'.log[i]? = some e → cmd ∈ e.data →
      cmd.requestId = rid → x.delivered ≤ i ∧ x.log[i]? = some e) :
    Owned proposals' n x' rid p := by
  obtain ⟨q, hq, hnode, hqinc, hrid, hpending, hopen⟩ := h
  refine ⟨q, hsub q hq, hnode, hqinc.trans hinc.symm, hrid, hpending, ?_⟩
  intro i e cmd hi he hcmd hid
  obtain ⟨hi', he'⟩ := hlog i e cmd hi he hcmd hid
  exact hopen i e cmd hi' he' hcmd hid

/-- A node whose pending writes are a part of what they were, over a log that
brings nothing new under their ids. -/
theorem NodeAnswered.mono {proposals : List Proposal} {x x' : Node}
    (h : NodeAnswered proposals n x) (hinc : x'.incarnation = x.incarnation)
    (hseq : x'.core.requestSeq = x.core.requestSeq)
    (hpending : ∀ rid p, x'.core.pendingWrites.lookup rid = some p →
      x.core.pendingWrites.lookup rid = some p)
    (hlog : ∀ i e cmd, x'.delivered ≤ i → x'.log[i]? = some e → cmd ∈ e.data →
      (x'.core.pendingWrites.lookup cmd.requestId).isSome →
      x.delivered ≤ i ∧ x.log[i]? = some e) :
    NodeAnswered proposals n x' where
  seq rid p hp := by
    rw [hseq]
    exact h.seq rid p (hpending rid p hp)
  owned rid p hp := by
    refine (h.owned rid p (hpending rid p hp)).mono (fun _ hq => hq) hinc ?_
    intro i e cmd hi he hcmd hid
    exact hlog i e cmd hi he hcmd (by rw [hid, hp]; rfl)

/-- A node whose log and handed-over entries are as before. -/
theorem NodeAnswered.with_core {proposals : List Proposal} {x : Node} {core : ShardCore}
    (h : NodeAnswered proposals n x) (hseq : core.requestSeq = x.core.requestSeq)
    (hpending : ∀ rid p, core.pendingWrites.lookup rid = some p →
      x.core.pendingWrites.lookup rid = some p) :
    NodeAnswered proposals n { x with core := core } :=
  h.mono rfl hseq hpending fun _ _ _ hi he _ _ => ⟨hi, he⟩

/-- A new proposal is owned by the write it was made for, under a new id. -/
theorem NodeAnswered.propose {proposals : List Proposal} {x : Node} {conn s epoch : Nat}
    {payload : Bytes} {core : ShardCore} {cmd : AppendCommand} (h : NodeAnswered proposals n x)
    (hres : x.core.admitWrite conn s epoch payload = (core, .ok cmd))
    (hok : ∀ e ∈ x.log.drop x.delivered, ∀ cmd ∈ e.data, cmd.requestId ≠ x.core.requestSeq + 1) :
    NodeAnswered (⟨n, x.incarnation, conn, x.log.length + 1, x.term, cmd⟩ :: proposals) n
      { x with core := core, log := x.log ++ [⟨x.term, some cmd⟩] } := by
  obtain ⟨hcmd, -, -, hseq, hpending⟩ := ShardCore.admitWrite_eq_ok hres
  have hlookup : ∀ rid, core.pendingWrites.lookup rid =
      if rid = x.core.requestSeq + 1 then
        some ⟨conn, s, epoch, (x.core.streams.ensureStream s).nextStreamLsn⟩
      else x.core.pendingWrites.lookup rid := by
    intro rid
    rw [hpending, AssocMap.lookup_insert_eq]
  -- An entry of the longer log is an old one or the proposal.
  have hentry : ∀ i e, (x.log ++ [⟨x.term, some cmd⟩])[i]? = some e →
      x.log[i]? = some e ∨ (i = x.log.length ∧ e = ⟨x.term, some cmd⟩) := by
    intro i e he
    rcases Nat.lt_trichotomy i x.log.length with hlt | heq | hgt
    · rw [List.getElem?_append_left hlt] at he
      exact Or.inl he
    · subst heq
      rw [List.getElem?_concat_length] at he
      exact Or.inr ⟨rfl, (Option.some.inj he).symm⟩
    · rw [List.getElem?_eq_none (by rw [List.length_append, List.length_singleton]; omega)] at he
      cases he
  refine ⟨fun rid p hp => ?_, fun rid p hp => ?_⟩
  · change core.pendingWrites.lookup rid = some p at hp
    show rid ≤ core.requestSeq
    rw [hlookup] at hp
    rw [hseq]
    split at hp
    · omega
    · have hle := h.seq rid p hp
      omega
  · change core.pendingWrites.lookup rid = some p at hp
    rw [hlookup] at hp
    split at hp
    · -- The new write: nothing that is yet to be handed over carries its id.
      rename_i hrid
      cases hp
      refine ⟨_, List.mem_cons_self, rfl, rfl, by rw [hcmd, hrid], by rw [hcmd]; rfl, ?_⟩
      intro i e c hi he hc hid
      rcases hentry i e he with hold | ⟨rfl, rfl⟩
      · exfalso
        refine hok e ?_ c hc (by rw [hid, hrid])
        exact List.mem_of_getElem? (by
          rw [List.getElem?_drop, Nat.add_sub_cancel' hi]; exact hold)
      · exact ⟨rfl, rfl⟩
    · rename_i hrid
      have hle := h.seq rid p hp
      refine (h.owned rid p hp).mono (fun _ hq => List.mem_cons_of_mem _ hq) rfl ?_
      intro i e c hi he hc hid
      rcases hentry i e he with hold | ⟨rfl, rfl⟩
      · exact ⟨hi, hold⟩
      · exfalso
        cases hc
        rw [hcmd] at hid
        change x.core.requestSeq + 1 = rid at hid
        omega

/-- A permitted step keeps the pending writes of its own node owned. -/
theorem Answered.step_self (ha : Answered σ) (hok : answersPermitted σ ⟨n, ev⟩)
    (h : Step tailCacheEntries σ n (σ.nodes n) ev τ) :
    NodeAnswered τ.proposals n (τ.nodes n) := by
  have hx := ha.node n
  cases h with
  | writeRedirected => exact hx
  | writeRefused _ _ hres =>
      rw [nodes_update_self]
      obtain ⟨-, hseq, hpending⟩ := ShardCore.admitWrite_eq_error hres
      exact hx.with_core hseq fun rid p hp => by rwa [hpending] at hp
  | writeAccepted _ hrole hres =>
      show NodeAnswered _ n ((σ.update n _).nodes n)
      rw [nodes_update_self]
      exact hx.propose hres (hok hrole (ShardCore.admitWrite_eq_ok hres).2.1)
  | ack =>
      rw [nodes_update_self]
      exact hx.with_core rfl fun _ _ hp => hp
  | elect =>
      show NodeAnswered _ n ((σ.update n _).nodes n)
      rw [nodes_update_self]
      refine hx.mono rfl rfl (fun _ _ hp => hp) fun i e cmd hi he hcmd _ => ⟨hi, ?_⟩
      -- The entry of the new term carries no command.
      change ((σ.nodes n).log ++ _)[i]? = some e at he
      rcases Nat.lt_or_ge i (σ.nodes n).log.length with hlt | hge
      · rwa [List.getElem?_append_left hlt] at he
      · rw [List.getElem?_append_right hge] at he
        rw [List.mem_singleton.mp (List.mem_of_getElem? he)] at hcmd
        cases hcmd
  | replicate hfull _ _ _ _ _ =>
      rw [nodes_update_self]
      refine hx.mono rfl rfl (fun _ _ hp => hp) fun i e cmd hi he hcmd hid => ⟨hi, ?_⟩
      obtain ⟨hlt, -⟩ := List.getElem?_eq_some_iff.mp he
      exact hok _ hfull i hlt e he cmd hcmd ⟨hi, hid⟩
  | install _ _ _ _ _ hlen' _ =>
      rw [nodes_update_self]
      refine hx.mono rfl rfl (fun _ _ hp => hp) fun i e cmd hi he _ _ => ?_
      -- Everything in the log counts as handed over.
      exfalso
      obtain ⟨hlt, -⟩ := List.getElem?_eq_some_iff.mp he
      change i < (List.take (StoredSnapshot.index _) _).length at hlt
      change StoredSnapshot.index _ ≤ i at hi
      rw [List.length_take] at hlt
      omega
  | handOverEmpty =>
      rw [nodes_update_self]
      exact hx.mono rfl rfl (fun _ _ hp => hp)
        fun _ _ _ hi he _ _ => ⟨(Nat.le_succ _).trans hi, he⟩
  | handOverCommand =>
      show NodeAnswered _ n ((σ.update n _).nodes n)
      rw [nodes_update_self]
      refine hx.mono rfl rfl (fun rid p hp => ?_)
        fun _ _ _ hi he _ _ => ⟨(Nat.le_succ _).trans hi, he⟩
      change ((σ.nodes n).core.pendingWrites.erase _).lookup rid = some p at hp
      rw [AssocMap.lookup_erase_eq] at hp
      split at hp
      · cases hp
      · exact hp
  | lightReady =>
      rw [nodes_update_self]
      exact hx.mono rfl rfl (fun _ _ hp => hp)
        fun _ _ _ hi he _ _ => ⟨(Nat.le_succ _).trans hi, he⟩
  | observe =>
      show NodeAnswered _ n ((σ.update n _).nodes n)
      rw [nodes_update_self]
      by_cases hdown : (σ.nodes n).core.observedRole = .leader ∧ (σ.nodes n).role ≠ .leader
      · rw [ShardCore.logRaftStateIfChanged_down hdown.1 hdown.2]
        refine hx.mono rfl rfl (fun rid p hp => ?_) fun _ _ _ hi he _ _ => ⟨hi, he⟩
        change AList.lookup rid (∅ : AssocMap Nat PendingClientWrite) = some p at hp
        rw [AList.lookup_empty] at hp
        cases hp
      · rw [ShardCore.logRaftStateIfChanged_stay
          fun hobs => not_not.mp fun hrole => hdown ⟨hobs, hrole⟩]
        exact hx.mono rfl rfl (fun _ _ hp => hp) fun _ _ _ hi he _ _ => ⟨hi, he⟩
  | restart =>
      rw [nodes_update_self]
      refine ⟨fun rid p hp => ?_, fun rid p hp => ?_⟩
      all_goals
        change AList.lookup rid (∅ : AssocMap Nat PendingClientWrite) = some p at hp
        rw [AList.lookup_empty] at hp
        cases hp
  | _ =>
      simp only [nodes_update_self]
      exact hx.mono rfl rfl (fun _ _ hp => hp) fun _ _ _ hi he _ _ => ⟨hi, he⟩

/-- A step starts the process anew, or keeps what is not pending that way under
the ids given out so far. -/
theorem ShardGroup.Step.pending_none (h : Step tailCacheEntries σ n (σ.nodes n) ev τ) :
    (τ.nodes n).incarnation = (σ.nodes n).incarnation + 1 ∨
      ((τ.nodes n).incarnation = (σ.nodes n).incarnation ∧
        (σ.nodes n).core.requestSeq ≤ (τ.nodes n).core.requestSeq ∧
        ∀ rid ≤ (σ.nodes n).core.requestSeq,
          (σ.nodes n).core.pendingWrites.lookup rid = none →
            (τ.nodes n).core.pendingWrites.lookup rid = none) := by
  cases h with
  | writeRedirected => exact Or.inr ⟨rfl, Nat.le_refl _, fun _ _ h => h⟩
  | writeRefused _ _ hres =>
      right
      obtain ⟨-, hseq, hpending⟩ := ShardCore.admitWrite_eq_error hres
      rw [nodes_update_self]
      exact ⟨rfl, hseq.ge, fun rid _ h => by show AList.lookup rid _ = none; rwa [hpending]⟩
  -- The new write has an id of its own, above all those that are asked about.
  | writeAccepted _ _ hres =>
      right
      obtain ⟨-, -, -, hseq, hpending⟩ := ShardCore.admitWrite_eq_ok hres
      simp only [nodes_update_self]
      refine ⟨trivial, by omega, fun rid hle h => ?_⟩
      rw [hpending, AssocMap.lookup_insert_eq, if_neg (by omega)]
      exact h
  | handOverCommand =>
      right
      simp only [nodes_update_self]
      refine ⟨rfl, Nat.le_refl _, fun rid _ h => ?_⟩
      show AList.lookup rid (AList.erase _ _) = none
      rw [AssocMap.lookup_erase_eq]
      split
      · rfl
      · exact h
  | observe =>
      right
      simp only [nodes_update_self]
      by_cases hdown : (σ.nodes n).core.observedRole = .leader ∧ (σ.nodes n).role ≠ .leader
      · rw [ShardCore.logRaftStateIfChanged_down hdown.1 hdown.2]
        exact ⟨trivial, Nat.le_refl _, fun rid _ _ => AList.lookup_empty rid⟩
      · rw [ShardCore.logRaftStateIfChanged_stay
          fun hobs => not_not.mp fun hrole => hdown ⟨hobs, hrole⟩]
        exact ⟨by trivial, Nat.le_refl _, fun _ _ h => h⟩
  -- Only a restart begins a new incarnation.
  | restart =>
      left
      rw [nodes_update_self]
      rfl
  | _ =>
      right
      simp only [nodes_update_self]
      exact ⟨by trivial, Nat.le_refl _, fun _ _ h => h⟩

/-- **Proposals stay recorded**, and an accepted write's is. -/
theorem ProposalsRecorded.step (hrecorded : ProposalsRecorded σ) (hσ : Laws σ)
    (h : Step tailCacheEntries σ n (σ.nodes n) ev τ) : ProposalsRecorded τ := by
  have hold : ∀ q ∈ σ.proposals, 0 < q.index ∧
      ∃ full, τ.terms.ledger q.term = some full ∧ full[q.index - 1]? = some q.entry := by
    intro q hq
    obtain ⟨hpos, full, hfull, he⟩ := hrecorded q hq
    obtain ⟨full', hfull', hp⟩ := (hσ.step_grows h).ledgers _ _ hfull
    exact ⟨hpos, full', hfull', TermLog.getElem?_of_isPrefix hp he⟩
  cases h with
  | writeAccepted _ hrole _ =>
      intro q hq
      rcases List.mem_cons.mp hq with rfl | hq
      · refine ⟨Nat.succ_pos _, _, TermLog.ledger_append_self _ _ _ _, ?_⟩
        exact List.getElem?_concat_length
      · exact hold q hq
  | _ => exact hold

/-- The proposals that a step leaves: the old ones, and the accepted write's. -/
theorem Answered.step_proposals (ha : Answered σ) (hσ : Laws σ)
    (h : Step tailCacheEntries σ n (σ.nodes n) ev τ) :
    (∀ q ∈ σ.proposals, q ∈ τ.proposals) ∧ ProposalsRecorded τ ∧
    (∀ q ∈ τ.proposals, ∀ q' ∈ τ.proposals, q.term = q'.term → q.index = q'.index → q = q') := by
  have hrecorded : ProposalsRecorded τ := ProposalsRecorded.step ha.recorded hσ h
  cases h with
  | writeAccepted _ hrole _ =>
      rename_i conn s epoch payload core cmd _ _
      have hown := (hσ.node n).ownLedger hrole
      -- Earlier proposals of the term lie in the log, so at lower positions.
      have hbelow : ∀ q ∈ σ.proposals, q.term = (σ.nodes n).term →
          q.index ≤ (σ.nodes n).log.length := by
        intro q hq hterm
        obtain ⟨hpos, full, hfull, he⟩ := ha.recorded q hq
        rw [hterm, hown] at hfull
        cases hfull
        obtain ⟨hlt, -⟩ := List.getElem?_eq_some_iff.mp he
        omega
      refine ⟨fun q hq => List.mem_cons_of_mem _ hq, hrecorded, fun q hq q' hq' ht hi => ?_⟩
      rcases List.mem_cons.mp hq with rfl | hq
      · rcases List.mem_cons.mp hq' with rfl | hq'
        · rfl
        · have hle := hbelow q' hq' ht.symm
          change (σ.nodes n).log.length + 1 = q'.index at hi
          omega
      · rcases List.mem_cons.mp hq' with rfl | hq'
        · have hle := hbelow q hq ht
          change q.index = (σ.nodes n).log.length + 1 at hi
          omega
        · exact ha.distinct q hq q' hq' ht hi
  | _ => exact ⟨fun q hq => hq, hrecorded, ha.distinct⟩

/-- The answer that completing a write sends is for the write's own entry. -/
theorem Answered.genuine_ackOf (ha : Answered σ) (hσ : Laws σ)
    (hlt : (σ.nodes n).delivered < (σ.nodes n).committed) {e : Entry (Option AppendCommand)}
    (he : (σ.nodes n).log[(σ.nodes n).delivered]? = some e) {cmd : AppendCommand}
    (hdata : e.data = some cmd) {p : PendingClientWrite}
    (hp : (σ.nodes n).core.pendingWrites.lookup cmd.requestId = some p) :
    Ack.Genuine σ ⟨n, (σ.nodes n).incarnation, cmd.requestId, p, (σ.nodes n).delivered + 1, e.term,
      cmd⟩ := by
  obtain ⟨q, hq, hnode, hinc, hrid, hpending, hopen⟩ := (ha.node n).owned _ _ hp
  obtain ⟨hindex, hentry⟩ := hopen _ e cmd (Nat.le_refl _) he hdata rfl
  subst hentry
  cases hdata
  refine ⟨q, hq, hnode, hinc, hrid, hpending, hindex.symm, rfl, rfl, ?_⟩
  refine (hσ.node n).settled.committed ?_
  rw [Nat.add_sub_cancel, List.getElem?_take_of_lt hlt, he]
  rfl

/-- **A permitted step keeps answers genuine.** -/
theorem Answered.step (ha : Answered σ) (hσ : Laws σ) (hok : answersPermitted σ ⟨n, ev⟩)
    (h : Step tailCacheEntries σ n (σ.nodes n) ev τ) : Answered τ := by
  obtain ⟨hsub, hrecorded, hdistinct⟩ := ha.step_proposals hσ h
  have hg := hσ.step_grows h
  have hgenuine : ∀ a : Ack, a.Genuine σ → a.Genuine τ := by
    rintro a ⟨q, hq, h1, h2, h3, h4, h5, h6, h7, hcommitted⟩
    exact ⟨q, hsub q hq, h1, h2, h3, h4, h5, h6, h7, hcommitted.grows hg⟩
  have hfinal : ∀ a : Ack, a.Final σ → a.Final τ := by
    intro a hfin
    unfold Ack.Final at hfin ⊢
    by_cases hm : a.node = n
    · subst hm
      rcases h.pending_none with hinc | ⟨hinc, hseq, hnone⟩
      · exact ⟨by omega, fun heq => absurd hfin.1 (by omega)⟩
      · refine ⟨hinc ▸ hfin.1, fun heq => ?_⟩
        obtain ⟨hlookup, hle⟩ := hfin.2 (heq.trans hinc)
        exact ⟨hnone _ hle hlookup, hle.trans hseq⟩
    · simp only [h.nodes_other hm]
      exact hfin
  have hnode : ∀ m, NodeAnswered τ.proposals m (τ.nodes m) := by
    intro m
    by_cases hm : m = n
    · subst hm
      exact ha.step_self hok h
    · rw [h.nodes_other hm]
      refine ⟨(ha.node m).seq, fun rid p hp => ?_⟩
      exact ((ha.node m).owned rid p hp).mono hsub rfl fun _ _ _ hi he _ _ => ⟨hi, he⟩
  cases h with
  | handOverCommand _ hlt he hdata =>
      rename_i timestampNs e cmd hphase
      cases hp : (σ.nodes n).core.pendingWrites.lookup cmd.requestId with
      | none =>
          have hacks : ackOf n (σ.nodes n) e.term cmd
              ((σ.nodes n).applyAppendEntry timestampNs cmd).2 = [] := by
            show ackOf _ _ _ _ ((σ.nodes n).core.pendingWrites.lookup cmd.requestId) = []
            rw [hp]
            rfl
          refine ⟨hnode, hrecorded, hdistinct, ?_, ?_, ?_⟩
          · rw [hacks]
            exact fun a hmem => hgenuine a (ha.genuine a hmem)
          · rw [hacks]
            exact fun a hmem => hfinal a (ha.final a hmem)
          · rw [hacks]
            exact ha.once
      | some p =>
          have hacks : ackOf n (σ.nodes n) e.term cmd
              ((σ.nodes n).applyAppendEntry timestampNs cmd).2 =
                [⟨n, (σ.nodes n).incarnation, cmd.requestId, p, (σ.nodes n).delivered + 1,
                  e.term, cmd⟩] := by
            show ackOf _ _ _ _ ((σ.nodes n).core.pendingWrites.lookup cmd.requestId) = _
            rw [hp]
            rfl
          have hseq := (ha.node n).seq _ _ hp
          refine ⟨hnode, hrecorded, hdistinct, ?_, ?_, ?_⟩
          · rw [hacks]
            intro a hmem
            rcases List.mem_cons.mp hmem with rfl | hmem
            · exact hgenuine _ (ha.genuine_ackOf hσ hlt he hdata hp)
            · exact hgenuine a (ha.genuine a hmem)
          · rw [hacks]
            intro a hmem
            rcases List.mem_cons.mp hmem with rfl | hmem
            · unfold Ack.Final
              simp only [nodes_update_self]
              refine ⟨Nat.le_refl _, fun _ => ⟨?_, hseq⟩⟩
              show AList.lookup _ (AList.erase _ _) = none
              rw [AssocMap.lookup_erase_eq, if_pos rfl]
            · exact hfinal a (ha.final a hmem)
          · rw [hacks]
            refine List.pairwise_cons.mpr ⟨fun b hb hnb hib hrb => ?_, ha.once⟩
            -- An answer under this id would have left nothing pending under it.
            have hfin := ha.final b hb
            unfold Ack.Final at hfin
            rw [← hnb, ← hib, ← hrb] at hfin
            rw [(hfin.2 rfl).1] at hp
            cases hp
  | _ => exact ⟨hnode, hrecorded, hdistinct, fun a hmem => hgenuine a (ha.genuine a hmem),
      fun a hmem => hfinal a (ha.final a hmem), ha.once⟩

end Step

/-! ### Runs -/

section Run

variable {tailCacheEntries : Nat → Nat} {σ : ShardGroup}

/-- Every run records its proposals. -/
theorem proposalsRecorded_reachable {ok : ShardGroup → Action → Prop}
    (h : (group tailCacheEntries).Reachable ok σ) : ProposalsRecorded σ := by
  refine h.invariant (I := ProposalsRecorded) ?_ ?_
  · intro q hq
    cases hq
  · intro s a t hs hrecorded _ hst
    exact hrecorded.step (laws_reachable hs) (ShardGroup.step_sound hst)

theorem answered_init (tailCacheEntries : Nat → Nat) :
    Answered (ShardGroup.init tailCacheEntries) := by
  refine ⟨fun n => ⟨fun rid p hp => ?_, fun rid p hp => ?_⟩, ?_, ?_, ?_, ?_, List.Pairwise.nil⟩
  · change AList.lookup rid (∅ : AssocMap Nat PendingClientWrite) = some p at hp
    rw [AList.lookup_empty] at hp
    cases hp
  · change AList.lookup rid (∅ : AssocMap Nat PendingClientWrite) = some p at hp
    rw [AList.lookup_empty] at hp
    cases hp
  all_goals
    intro a hmem
    cases hmem

/-- **The invariant of the runs whose answers are permitted.** -/
theorem answered_reachable (h : (group tailCacheEntries).Reachable answersPermitted σ) :
    Answered σ := by
  refine h.invariant (answered_init tailCacheEntries) ?_
  intro s a t hs ha hok hst
  exact ha.step (laws_reachable hs) hok (ShardGroup.step_sound hst)

/-- **An `Ok` means that very write is committed**, in the runs whose answers are
permitted: the entry that was applied is the one proposed for the write, and no
other node or process proposed it. -/
theorem ok_for_own_entry (h : (group tailCacheEntries).Reachable answersPermitted σ) :
    ∀ a ∈ σ.acks, a.Genuine σ ∧
      ∀ q ∈ σ.proposals, q.index = a.index → q.term = a.term →
        q.node = a.node ∧ q.incarnation = a.incarnation := by
  intro a ha
  have hanswered := answered_reachable h
  refine ⟨hanswered.genuine a ha, fun q hq hindex hterm => ?_⟩
  obtain ⟨r, hr, hnode, hinc, -, -, hrindex, hrterm, -⟩ := hanswered.genuine a ha
  have heq : q = r := hanswered.distinct q hq r hr (hterm.trans hrterm.symm)
    (hindex.trans hrindex.symm)
  rw [heq]
  exact ⟨hnode, hinc⟩

end Run

/-- A leader writes, and answers when it has applied the entry; the second node
takes over, applies what it has inherited, and does the same. -/
def answeredRun : List Action :=
  [⟨1, .poll⟩, ⟨1, .elect 2⟩, ⟨1, .observe⟩, ⟨1, .write 11 7 1 [1]⟩, ⟨1, .poll⟩, ⟨1, .commit 3⟩,
   ⟨1, .handOver 0⟩, ⟨1, .handOver 0⟩, ⟨1, .handOver 0⟩, ⟨2, .poll⟩, ⟨2, .replicate 2 3⟩,
   ⟨2, .elect 3⟩, ⟨2, .commit 4⟩, ⟨2, .handOver 0⟩, ⟨2, .handOver 0⟩, ⟨2, .handOver 0⟩,
   ⟨2, .observe⟩, ⟨2, .write 22 7 1 [2]⟩, ⟨2, .poll⟩, ⟨2, .commit 5⟩, ⟨2, .handOver 0⟩,
   ⟨2, .handOver 0⟩]

theorem ok_for_own_entry_answered :
    ∃ σ, (group fun _ => 8).Reachable answersPermitted σ ∧
      (⟨2, 0, 1, ⟨22, 7, 1, 1⟩, 5, 3, ⟨1, 7, 1, 1, [2]⟩⟩ : Ack) ∈ σ.acks ∧
      Ack.Genuine σ ⟨2, 0, 1, ⟨22, 7, 1, 1⟩, 5, 3, ⟨1, 7, 1, 1, [2]⟩⟩ := by
  obtain ⟨σ, hreach, hmem⟩ := System.exists_reachable_of_execute (group fun _ => 8)
    answersPermitted answeredRun
    (fun s => (⟨2, 0, 1, ⟨22, 7, 1, 1⟩, 5, 3, ⟨1, 7, 1, 1, [2]⟩⟩ : Ack) ∈ s.acks)
    (by decide +kernel)
  exact ⟨σ, hreach, hmem, (ok_for_own_entry hreach _ hmem).1⟩

/-- A leader's write is replicated to the second node, which comes into office,
admits a write of its own, and then applies the first one. -/
def foreignAnswerRun : List Action :=
  [⟨1, .poll⟩, ⟨1, .elect 2⟩, ⟨1, .observe⟩, ⟨1, .write 11 7 1 [1]⟩, ⟨1, .poll⟩,
   ⟨2, .poll⟩, ⟨2, .replicate 2 3⟩, ⟨2, .elect 3⟩, ⟨2, .observe⟩, ⟨2, .write 22 7 1 [2]⟩,
   ⟨2, .poll⟩, ⟨2, .commit 4⟩, ⟨2, .handOver 0⟩, ⟨2, .handOver 0⟩, ⟨2, .handOver 0⟩]

/-- **An `Ok` for another node's entry.** The second node answers its own client
when it applies the entry that the first node proposed; the client's own entry is
not committed. -/
theorem ok_for_foreign_entry :
    ∃ σ, (group fun _ => 8).Reachable System.anyStep σ ∧ ∃ a ∈ σ.acks, ¬ a.Genuine σ := by
  obtain ⟨σ, hreach, hacks, hproposals⟩ := System.exists_reachable_of_execute
    (group fun _ => 8) System.anyStep foreignAnswerRun
    (fun s => s.acks = [⟨2, 0, 1, ⟨22, 7, 1, 0⟩, 3, 2, ⟨1, 7, 1, 0, [1]⟩⟩] ∧
      s.proposals.map (fun q => (q.node, q.index)) = [(2, 5), (1, 3)])
    (by decide +kernel)
  refine ⟨σ, hreach, _, by rw [hacks]; exact List.mem_singleton.mpr rfl, ?_⟩
  rintro ⟨q, hq, hnode, -, -, -, hindex, -⟩
  have hpair : (q.node, q.index) ∈ σ.proposals.map fun q => (q.node, q.index) :=
    List.mem_map_of_mem hq
  rw [hproposals, hnode, hindex] at hpair
  exact absurd hpair (by decide)

end WalServer.Cluster
