import WalServer.Shard.Calls

/-!
# `WalServer.Shard.Answers`: every pending write is answered once

`Answering` is an engine with a record of the writes that were ever pending and of its
responses, each with what it answers. `Accounts` says that the record is right: request
ids are not given twice, and a write that was ever pending is pending and unanswered, or
it is not pending and has one answer. Every call keeps this (`Accounts.note`).
-/

set_option autoImplicit false

namespace WalServer.Shard

open WalServer.Lib WalServer.Protocol WalServer.Raft

/-- An engine and its record. -/
structure Answering where
  engine : ShardEngine
  /-- The writes that were ever pending, under their request ids. -/
  entered : List (Σ _ : Nat, PendingClientWrite)
  /-- The responses, each with the pending write that it answers. -/
  answered : List (Option Nat × ShardResponse)

namespace Answering

/-- The record of an engine that has just been opened. -/
def opened (e : ShardEngine) : Answering := ⟨e, [], []⟩

/-- The record after a call that leaves the engine `e`. -/
def note (s : Answering) (c : EngineCall) (e : ShardEngine) : Answering where
  engine := e
  entered := s.entered ++
    e.core.pendingWrites.entries.filter (· ∉ s.engine.core.pendingWrites.entries)
  answered := s.answered ++ (s.engine.answers c).zip (e.responses.drop s.engine.responses.length)

/-- The responses to the pending write of a request id. -/
def answersTo (s : Answering) (requestId : Nat) : List ShardResponse :=
  (s.answered.filter (·.1 = some requestId)).map Prod.snd

/-- **The record is right.** -/
structure Accounts (s : Answering) : Prop where
  sent : s.answered.map Prod.snd = s.engine.responses
  distinct : s.entered.NodupKeys
  numbered : ∀ w ∈ s.entered, w.1 ≤ s.engine.core.requestSeq
  pending : ∀ w ∈ s.engine.core.pendingWrites.entries, w ∈ s.entered
  tagged : ∀ requestId, ∀ r, (some requestId, r) ∈ s.answered →
    requestId ≤ s.engine.core.requestSeq
  accounted : ∀ w ∈ s.entered,
    (s.engine.core.pendingWrites.lookup w.1 = some w.2 ∧ s.answersTo w.1 = []) ∨
    (s.engine.core.pendingWrites.lookup w.1 = none ∧
      ∃ r, s.answersTo w.1 = [r] ∧ w.2.AnsweredBy r)

/-- An opened engine has no pending writes and has answered nothing. -/
theorem accounts_opened {e : ShardEngine} (hpending : e.core.pendingWrites = ∅)
    (hresponses : e.responses = []) : (opened e).Accounts where
  sent := hresponses.symm
  distinct := List.nodup_nil
  numbered _ hw := by cases hw
  pending w hw := by
    have hw' : w ∈ e.core.pendingWrites.entries := hw
    rw [hpending] at hw'
    cases hw'
  tagged _ _ hr := by cases hr
  accounted _ hw := by cases hw

variable {s : Answering} {c : EngineCall} {e : ShardEngine}

/-- A call after which no other writes are pending than before, and that has sent the
responses `new`. -/
theorem note_of_subset {new : List ShardResponse}
    (hsub : ∀ w ∈ e.core.pendingWrites.entries, w ∈ s.engine.core.pendingWrites.entries)
    (hresponses : e.responses = s.engine.responses ++ new) :
    s.note c e = ⟨e, s.entered, s.answered ++ (s.engine.answers c).zip new⟩ := by
  have hnone : e.core.pendingWrites.entries.filter
      (· ∉ s.engine.core.pendingWrites.entries) = [] := by
    rw [List.filter_eq_nil_iff]
    intro w hw
    simpa using hsub w hw
  unfold note
  rw [hnone, List.append_nil, hresponses, List.drop_left]

/-- The answers to a write after more responses. -/
theorem answersTo_append (engine : ShardEngine)
    (entered : List (Σ _ : Nat, PendingClientWrite))
    (answered more : List (Option Nat × ShardResponse)) (requestId : Nat) :
    (Answering.mk engine entered (answered ++ more)).answersTo requestId =
      (Answering.mk engine entered answered).answersTo requestId ++
        (more.filter (·.1 = some requestId)).map Prod.snd := by
  unfold answersTo
  rw [List.filter_append, List.map_append]

/-- Of writes under distinct request ids only one has a given id. -/
theorem filter_key_eq {l : List (Σ _ : Nat, PendingClientWrite)} (hl : l.NodupKeys)
    {w : Σ _ : Nat, PendingClientWrite} (hw : w ∈ l) : l.filter (·.1 = w.1) = [w] := by
  induction l with
  | nil => cases hw
  | cons v rest ih =>
      obtain ⟨hv, hrest⟩ := List.nodupKeys_cons.mp hl
      rcases List.mem_cons.mp hw with rfl | hmem
      · have hnone : rest.filter (·.1 = w.1) = [] := by
          rw [List.filter_eq_nil_iff]
          intro u hu
          have hne := List.ne_key.mp hv u hu
          simpa using hne.symm
        rw [List.filter_cons_of_pos (by simp), hnone]
      · have hne : v.1 ≠ w.1 := List.ne_key.mp hv w hmem
        rw [List.filter_cons_of_neg (by simpa using hne)]
        exact ih hrest hmem

/-! ### One call -/

/-- A call that leaves the pending writes alone and answers none of them. -/
theorem Accounts.quiet (h : s.Accounts) (new : List (Option Nat × ShardResponse))
    (hpending : e.core.pendingWrites = s.engine.core.pendingWrites)
    (hseq : e.core.requestSeq = s.engine.core.requestSeq)
    (hresponses : e.responses = s.engine.responses ++ new.map Prod.snd)
    (hnew : ∀ a ∈ new, a.1 = none) :
    (Answering.mk e s.entered (s.answered ++ new)).Accounts where
  sent := by
    show (s.answered ++ new).map Prod.snd = e.responses
    rw [List.map_append, h.sent, hresponses]
  distinct := h.distinct
  numbered w hw := by
    show w.1 ≤ e.core.requestSeq
    rw [hseq]
    exact h.numbered w hw
  pending w hw := by
    have hw' : w ∈ e.core.pendingWrites.entries := hw
    rw [hpending] at hw'
    exact h.pending w hw'
  tagged requestId r hr := by
    show requestId ≤ e.core.requestSeq
    rw [hseq]
    rcases List.mem_append.mp hr with hold | hr
    · exact h.tagged requestId r hold
    · cases hnew _ hr
  -- No new response is for a write, so every count stays.
  accounted w hw := by
    have hnone : new.filter (·.1 = some w.1) = [] := by
      rw [List.filter_eq_nil_iff]
      intro a ha
      simp [hnew a ha]
    simp only [answersTo_append, hnone, List.map_nil, List.append_nil, hpending]
    exact h.accounted w hw

/-- The next request id is not in use. -/
theorem Accounts.next_notMem (h : s.Accounts) :
    s.engine.core.requestSeq + 1 ∉ s.engine.core.pendingWrites := by
  intro hmem
  obtain ⟨w, hw, hid⟩ := List.mem_map.mp hmem
  have hle := h.numbered w (h.pending w hw)
  omega

/-- **A write becomes pending**, under an id that no write has had. -/
theorem Accounts.admit (h : s.Accounts) {p : PendingClientWrite}
    (hpending : e.core.pendingWrites =
      s.engine.core.pendingWrites.insert (s.engine.core.requestSeq + 1) p)
    (hseq : e.core.requestSeq = s.engine.core.requestSeq + 1)
    (hresponses : e.responses = s.engine.responses) :
    (Answering.mk e (s.entered ++ [⟨s.engine.core.requestSeq + 1, p⟩]) s.answered).Accounts where
  sent := h.sent.trans hresponses.symm
  distinct := by
    show List.NodupKeys (s.entered ++ _)
    -- The new id is beyond all that were given out before.
    have hfresh : s.engine.core.requestSeq + 1 ∉ s.entered.keys := by
      rw [List.ne_key]
      intro w hw
      have hle := h.numbered w hw
      omega
    rw [List.NodupKeys, List.keys, List.map_append, List.nodup_append]
    refine ⟨h.distinct, List.nodup_singleton _, ?_⟩
    intro id hid id' hid' heq
    rw [List.mem_singleton.mp hid'] at heq
    subst heq
    exact hfresh hid
  numbered w hw := by
    show w.1 ≤ e.core.requestSeq
    rw [hseq]
    rcases List.mem_append.mp hw with hold | hnew
    · exact Nat.le_succ_of_le (h.numbered w hold)
    · rw [List.mem_singleton.mp hnew]
  pending w hw := by
    have hw' : w ∈ e.core.pendingWrites.entries := hw
    rw [hpending, AList.entries_insert] at hw'
    rcases List.mem_cons.mp hw' with rfl | hold
    · exact List.mem_append_right _ (List.mem_singleton.mpr rfl)
    · exact List.mem_append_left _ (h.pending w ((List.kerase_sublist _ _).subset hold))
  tagged requestId r hr := by
    show requestId ≤ e.core.requestSeq
    rw [hseq]
    exact Nat.le_succ_of_le (h.tagged requestId r hr)
  accounted w hw := by
    simp only [hpending, AssocMap.lookup_insert_eq]
    rcases List.mem_append.mp hw with hold | hnew
    · have hne : w.1 ≠ s.engine.core.requestSeq + 1 := by
        have hle := h.numbered w hold
        omega
      rw [if_neg hne]
      exact h.accounted w hold
    · -- No response has answered the new write yet.
      rw [List.mem_singleton.mp hnew, if_pos rfl]
      refine Or.inl ⟨rfl, ?_⟩
      unfold answersTo
      rw [List.map_eq_nil_iff, List.filter_eq_nil_iff]
      rintro ⟨tag, r⟩ hr htag
      have htag' : tag = some (s.engine.core.requestSeq + 1) := by simpa using htag
      subst htag'
      have hle := h.tagged _ r hr
      omega

/-- **Pending writes are settled**, each with one response. -/
theorem Accounts.settle (h : s.Accounts) {gone : List (Σ _ : Nat, PendingClientWrite)}
    {respond : PendingClientWrite → ShardResponse}
    (hsettled : s.engine.Settled c e gone respond) :
    (Answering.mk e s.entered
      (s.answered ++ gone.map fun w => (some w.1, respond w.2))).Accounts where
  sent := by
    show (s.answered ++ _).map Prod.snd = e.responses
    rw [List.map_append, h.sent, hsettled.responses, List.map_map]
    rfl
  distinct := h.distinct
  numbered w hw := by
    show w.1 ≤ e.core.requestSeq
    rw [hsettled.requestSeq]
    exact h.numbered w hw
  pending w hw := by
    have hw' : e.core.pendingWrites.lookup w.1 = some w.2 := AList.mem_lookup_iff.mpr hw
    rw [hsettled.pending] at hw'
    split at hw'
    · cases hw'
    · exact h.pending w (AList.mem_lookup_iff.mp hw')
  tagged requestId r hr := by
    show requestId ≤ e.core.requestSeq
    rw [hsettled.requestSeq]
    rcases List.mem_append.mp hr with hold | hnew
    · exact h.tagged requestId r hold
    · obtain ⟨w, hw, heq⟩ := List.mem_map.mp hnew
      cases heq
      exact h.numbered w (h.pending w (AList.mem_lookup_iff.mp (hsettled.wasPending w hw)))
  -- A write is answered by this call exactly when it is among those that are settled.
  accounted w hw := by
    have hnew : ((gone.map fun v => ((some v.1 : Option Nat), respond v.2)).filter
        (·.1 = some w.1)).map Prod.snd = (gone.filter (·.1 = w.1)).map fun v => respond v.2 := by
      rw [List.filter_map, List.map_map]
      have hpred : ((fun a : Option Nat × ShardResponse => decide (a.1 = some w.1)) ∘
          fun v : Σ _ : Nat, PendingClientWrite => (some v.1, respond v.2)) =
            fun v => decide (v.1 = w.1) := by
        funext v
        simp
      rw [hpred]
      rfl
    simp only [answersTo_append, hnew, hsettled.pending]
    by_cases hkey : w.1 ∈ gone.keys
    · -- The write is settled, and nothing had answered it.
      obtain ⟨v, hv, hid⟩ := List.mem_map.mp hkey
      have hlookup := hsettled.wasPending v hv
      rw [hid] at hlookup
      rcases h.accounted w hw with ⟨hstill, hnone⟩ | ⟨habsent, -⟩
      · rw [hlookup, Option.some.injEq] at hstill
        have hwv : w = v := Sigma.ext hid.symm (heq_of_eq hstill.symm)
        subst hwv
        rw [if_pos hkey]
        refine Or.inr ⟨rfl, respond w.2, ?_, hsettled.answered w.2⟩
        rw [show (Answering.mk e s.entered s.answered).answersTo w.1 = [] from hnone,
          filter_key_eq hsettled.distinct hv]
        rfl
      · rw [hlookup] at habsent
        cases habsent
    · -- The call is not about this write.
      have hnone : gone.filter (·.1 = w.1) = [] := by
        rw [List.filter_eq_nil_iff]
        intro v hv
        have hne := List.ne_key.mp hkey v hv
        simpa using hne.symm
      rw [if_neg hkey, hnone, List.map_nil, List.append_nil]
      exact h.accounted w hw

/-- **Every call** keeps the record right. -/
theorem Accounts.note (h : s.Accounts) (hsettles : s.engine.Settles c e) :
    (s.note c e).Accounts := by
  cases hrequest : c.isRequest with
  | false =>
      obtain ⟨gone, respond, hsettled⟩ := hsettles.settled hrequest
      have hsub : ∀ w ∈ e.core.pendingWrites.entries,
          w ∈ s.engine.core.pendingWrites.entries := by
        intro w hw
        have hlookup : e.core.pendingWrites.lookup w.1 = some w.2 := AList.mem_lookup_iff.mpr hw
        rw [hsettled.pending] at hlookup
        split at hlookup
        · cases hlookup
        · exact AList.mem_lookup_iff.mp hlookup
      rw [note_of_subset hsub hsettled.responses, hsettled.answers, List.zip_map']
      exact h.settle hsettled
  | true =>
      cases hsettles with
      | @answered req r _ hnot hconn hbooks =>
          have hpending : e.core.pendingWrites = s.engine.core.pendingWrites :=
            congrArg Books.pending hbooks
          have hresponses : e.responses = s.engine.responses ++ [r] :=
            congrArg Books.responses hbooks
          have hquiet := h.quiet [(none, r)] hpending (congrArg Books.requestSeq hbooks)
            hresponses (by simp)
          rw [note_of_subset (by rw [hpending]; exact fun _ hw => hw) hresponses]
          simpa [ShardEngine.answers, hnot] using hquiet
      | @admitted req _ hadmits hbooks =>
          have hpending : e.core.pendingWrites =
              s.engine.core.pendingWrites.insert (s.engine.core.requestSeq + 1)
                (s.engine.pendingOf req) := congrArg Books.pending hbooks
          have hresponses : e.responses = s.engine.responses := congrArg Books.responses hbooks
          have hadmit := h.admit hpending (congrArg Books.requestSeq hbooks) hresponses
          have habsent := h.next_notMem
          -- The new write is the one that was not pending before.
          have hnew : e.core.pendingWrites.entries.filter
              (· ∉ s.engine.core.pendingWrites.entries) =
                [⟨s.engine.core.requestSeq + 1, s.engine.pendingOf req⟩] := by
            have hfresh : (⟨s.engine.core.requestSeq + 1, s.engine.pendingOf req⟩ :
                Σ _ : Nat, PendingClientWrite) ∉ s.engine.core.pendingWrites.entries :=
              fun hmem => habsent (List.mem_map_of_mem (f := Sigma.fst) hmem)
            rw [hpending, AList.entries_insert_of_notMem habsent,
              List.filter_cons_of_pos (by simpa using hfresh),
              List.filter_eq_nil_iff.mpr (by simp)]
          unfold Answering.note
          rw [hnew, hresponses]
          simpa [ShardEngine.answers, hadmits] using hadmit
      | completed _ _ _ => cases hrequest
      | steppedDown _ _ => cases hrequest
      | observed _ _ => cases hrequest
      | moved _ => cases hrequest
      | @quiet c _ _ hnot _ _ =>
          cases c with
          | request req => exact absurd rfl (hnot req)
          | _ => cases hrequest

end Answering

end WalServer.Shard
