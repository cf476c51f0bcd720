import WalServer.Lib.TermLog

/-!
# `WalServer.Lib.Settled`: committed starts of a replicated log

What a replica knows to be committed is a list: the first entries of its log, of
a snapshot or of what it has applied. `Settled L T pre` says of such a list that
decisions of terms up to `T` have committed it. The bound matters to a leader: it
has everything that terms before its own committed, and nothing obliges it to
have what later terms did.

* `Lawful.settled_ledger`: the ledger of a term has what terms up to it settled.
* `Lawful.settled_total`: of two settled lists one is the start of the other.
* `Grows`: ledgers get longer and decisions are added. Everything said of settled
  and recorded lists survives that, which is how a replica's knowledge survives
  the steps of others.
* `Excluded`: a start of a ledger that a committed entry contradicts. Its last entry
  will never be committed (`Excluded.not_committed`, `Excluded.grows`), and a start that
  is not excluded agrees with all that is settled (`isPrefix_of_not_excluded`).
-/

set_option autoImplicit false

namespace WalServer.Lib

namespace TermLog

variable {α : Type}

/-- The list `pre` is the start of a log that decisions of terms up to `T` have
committed. -/
def Settled (L : TermLog α) (T : Nat) (pre : List (Entry α)) : Prop :=
  ∃ t k full, t ≤ T ∧ (t, k) ∈ L.commits ∧ L.ledger t = some full ∧ pre <+: full.take k

instance [DecidableEq α] (L : TermLog α) (T : Nat) (pre : List (Entry α)) :
    Decidable (L.Settled T pre) :=
  decidable_of_iff
    (∃ d ∈ L.commits, d.1 ≤ T ∧ ∃ full ∈ L.ledger d.1, pre <+: full.take d.2)
    ⟨fun ⟨d, hd, hT, full, hfull, hp⟩ => ⟨d.1, d.2, full, hT, hd, hfull, hp⟩,
      fun ⟨t, k, full, hT, hk, hfull, hp⟩ => ⟨(t, k), hk, hT, full, hfull, hp⟩⟩

/-- Ledgers get longer and decisions are added. -/
structure Grows (L L' : TermLog α) : Prop where
  commits : ∀ d ∈ L.commits, d ∈ L'.commits
  ledgers : ∀ t full, L.ledger t = some full → ∃ full', L'.ledger t = some full' ∧ full <+: full'

section Settled

variable {L : TermLog α} {T T' : Nat} {pre pre' : List (Entry α)}

/-- A later bound admits more decisions. -/
theorem Settled.mono (h : L.Settled T pre) (hT : T ≤ T') : L.Settled T' pre := by
  obtain ⟨t, k, full, ht, hk, hfull, hp⟩ := h
  exact ⟨t, k, full, ht.trans hT, hk, hfull, hp⟩

/-- The start of a settled list is settled. -/
theorem Settled.of_isPrefix (h : L.Settled T pre) (hp : pre' <+: pre) : L.Settled T pre' := by
  obtain ⟨t, k, full, ht, hk, hfull, hpre⟩ := h
  exact ⟨t, k, full, ht, hk, hfull, hp.trans hpre⟩

/-- The entries of a settled list are committed. -/
theorem Settled.committed (h : L.Settled T pre) {i : Nat} {e : Entry α} (hi : pre[i]? = some e) :
    L.Committed i e := by
  obtain ⟨t, k, full, -, hk, hfull, hp⟩ := h
  have hget : (full.take k)[i]? = some e := getElem?_of_isPrefix hp hi
  obtain ⟨hlt, -⟩ := List.getElem?_eq_some_iff.mp hget
  rw [List.length_take] at hlt
  exact ⟨t, k, full, hk, hfull, by omega, getElem?_of_isPrefix (List.take_prefix k full) hget⟩

/-- A committed entry lies in a settled list. -/
theorem Committed.settled {i : Nat} {e : Entry α} (h : L.Committed i e) :
    ∃ T pre, L.Settled T pre ∧ pre[i]? = some e := by
  obtain ⟨t, k, full, hk, hfull, hik, hi⟩ := h
  exact ⟨t, full.take k, ⟨t, k, full, Nat.le_refl t, hk, hfull, List.prefix_refl _⟩,
    by rw [List.getElem?_take_of_lt hik, hi]⟩

/-- A settled list is recorded. -/
theorem Settled.recorded (h : L.Settled T pre) : L.Recorded pre := by
  obtain ⟨t, k, full, -, -, hfull, hp⟩ := h
  exact ⟨t, full, hfull, hp.trans (List.take_prefix k full)⟩

/-- **A ledger has what terms up to its own settled.** -/
theorem Lawful.settled_ledger (hL : L.Lawful) (h : L.Settled T pre) {t : Nat}
    {full : List (Entry α)} (hT : T ≤ t) (hfull : L.ledger t = some full) : pre <+: full := by
  obtain ⟨t', k, full', ht', hk, hfull', hp⟩ := h
  rcases Nat.lt_or_eq_of_le (ht'.trans hT) with hlt | heq
  · exact hp.trans (hL.complete t' k full' t full hk hfull' hlt hfull)
  · subst heq
    rw [hfull] at hfull'
    cases hfull'
    exact hp.trans (List.take_prefix k full)

/-- A log with what earlier terms committed has what they settled. -/
theorem Settled.isPrefix_of_hasEarlier (h : L.Settled T pre) {t : Nat} {log : List (Entry α)}
    (hfresh : L.ledger t = none) (hT : T ≤ t) (hlog : L.HasEarlier t log) : pre <+: log := by
  obtain ⟨t', k, full, ht', hk, hfull, hp⟩ := h
  have hne : t' ≠ t := fun heq => by rw [heq, hfresh] at hfull; cases hfull
  exact hp.trans (hlog t' k full hk (by omega) hfull)

/-- **Settled lists agree.** -/
theorem Lawful.settled_total (hL : L.Lawful) (h : L.Settled T pre) (h' : L.Settled T' pre') :
    pre <+: pre' ∨ pre' <+: pre := by
  -- The ledger of the later of the two deciding terms has both.
  obtain ⟨t, k, full, -, hk, hfull, hp⟩ := h
  obtain ⟨t', k', full', -, hk', hfull', hp'⟩ := h'
  have hset : L.Settled t pre := ⟨t, k, full, Nat.le_refl t, hk, hfull, hp⟩
  have hset' : L.Settled t' pre' := ⟨t', k', full', Nat.le_refl t', hk', hfull', hp'⟩
  rcases Nat.le_total t t' with hle | hle
  · exact List.prefix_or_prefix_of_prefix (hL.settled_ledger hset hle hfull')
      (hp'.trans (List.take_prefix k' full'))
  · exact List.prefix_or_prefix_of_prefix (hp.trans (List.take_prefix k full))
      (hL.settled_ledger hset' hle hfull)

/-- The shorter of two settled lists is the start of the longer. -/
theorem Lawful.settled_isPrefix (hL : L.Lawful) (h : L.Settled T pre) (h' : L.Settled T' pre')
    (hle : pre.length ≤ pre'.length) : pre <+: pre' := by
  rcases hL.settled_total h h' with hp | hp
  · exact hp
  · rw [hp.eq_of_length_le hle]

end Settled

/-! ### Growth -/

section Grows

variable {L L' : TermLog α} {T : Nat} {pre : List (Entry α)}

theorem Grows.refl (L : TermLog α) : L.Grows L where
  commits _ hd := hd
  ledgers _ full hfull := ⟨full, hfull, List.prefix_refl full⟩

/-- Coming into office in a fresh term is growth. -/
theorem Grows.openTerm {t : Nat} (hfresh : L.ledger t = none) (log : List (Entry α))
    (e : Entry α) : L.Grows (L.openTerm t log e) where
  commits _ hd := hd
  ledgers u full hfull := by
    have hne : u ≠ t := fun h => by rw [h, hfresh] at hfull; cases hfull
    exact ⟨full, by rw [ledger_openTerm, if_neg hne, hfull], List.prefix_refl full⟩

/-- An append to the leader's own ledger is growth. -/
theorem Grows.append {t : Nat} {log : List (Entry α)} (hlog : L.ledger t = some log)
    (e : Entry α) : L.Grows (L.append t log e) where
  commits _ hd := hd
  ledgers u full hfull := by
    by_cases h : u = t
    · subst h
      rw [hlog] at hfull
      cases hfull
      exact ⟨log ++ [e], by simp, List.prefix_append log [e]⟩
    · exact ⟨full, by rw [ledger_append, if_neg h, hfull], List.prefix_refl full⟩

/-- A commit decision is growth. -/
theorem Grows.commit (L : TermLog α) (t k : Nat) : L.Grows (L.commit t k) where
  commits _ hd := List.mem_cons_of_mem _ hd
  ledgers _ full hfull := ⟨full, hfull, List.prefix_refl full⟩

theorem Settled.grows (h : L.Settled T pre) (hg : L.Grows L') : L'.Settled T pre := by
  obtain ⟨t, k, full, ht, hk, hfull, hp⟩ := h
  obtain ⟨full', hfull', hpre⟩ := hg.ledgers t full hfull
  exact ⟨t, k, full', ht, hg.commits _ hk, hfull', hp.trans (hpre.take k)⟩

theorem Committed.grows {i : Nat} {e : Entry α} (h : L.Committed i e) (hg : L.Grows L') :
    L'.Committed i e := by
  obtain ⟨T, pre, hpre, hi⟩ := h.settled
  exact (hpre.grows hg).committed hi

theorem Recorded.grows (h : L.Recorded pre) (hg : L.Grows L') : L'.Recorded pre := by
  obtain ⟨t, full, hfull, hp⟩ := h
  obtain ⟨full', hfull', hpre⟩ := hg.ledgers t full hfull
  exact ⟨t, full', hfull', hp.trans hpre⟩

end Grows

/-! ### Starts that can no longer be committed -/

/-- An entry is committed below position `k` where the ledger of term `t` has another. -/
def Excluded (L : TermLog α) (t k : Nat) : Prop :=
  ∃ i e, i < k ∧ L.Committed i e ∧ ∀ full, L.ledger t = some full → full[i]? ≠ some e

instance [DecidableEq α] (L : TermLog α) (t k : Nat) : Decidable (L.Excluded t k) :=
  decidable_of_iff
    (∃ i < k, ∃ d ∈ L.commits, i < d.2 ∧ ∃ decided ∈ L.ledger d.1, ∃ e ∈ decided[i]?,
      ∀ full ∈ L.ledger t, full[i]? ≠ some e)
    ⟨fun ⟨i, hi, d, hd, hlt, decided, hdecided, e, he, hother⟩ =>
        ⟨i, e, hi, ⟨d.1, d.2, decided, hd, hdecided, hlt, he⟩, hother⟩,
      fun ⟨i, e, hi, ⟨t', k', decided, hd, hdecided, hlt, he⟩, hother⟩ =>
        ⟨i, hi, (t', k'), hd, hlt, decided, hdecided, e, he, hother⟩⟩

section Excluded

variable {L L' : TermLog α} {t k : Nat} {full : List (Entry α)}

/-- **What is excluded stays excluded.** -/
theorem Excluded.grows (h : L.Excluded t k) (hg : L.Grows L') (hfull : L.ledger t = some full)
    (hk : k ≤ full.length) : L'.Excluded t k := by
  obtain ⟨i, e, hi, hcommitted, hother⟩ := h
  refine ⟨i, e, hi, hcommitted.grows hg, fun full' hfull' => ?_⟩
  obtain ⟨longer, hlonger, hp⟩ := hg.ledgers t full hfull
  rw [hfull'] at hlonger
  cases hlonger
  rw [getElem?_eq_of_isPrefix hp (Nat.lt_of_lt_of_le hi hk)]
  exact hother full hfull

/-- **No entry of the term is committed** at the end of an excluded start, or above it. -/
theorem Excluded.not_committed (h : L.Excluded t k) (hL : L.Lawful) {j : Nat} {e : Entry α}
    (hj : k ≤ j + 1) (ht : e.term = t) : ¬ L.Committed j e := by
  intro hcommitted
  obtain ⟨i, e', hi, hcommitted', hother⟩ := h
  obtain ⟨T, common, hcommon, hie, hje⟩ := hL.committed_common hcommitted' hcommitted
  -- The ledger of the entry's term has all that is below the entry.
  obtain ⟨own, hown, hp⟩ := hL.origin T common j e hcommon hje
  rw [ht] at hown
  refine hother own hown (getElem?_of_isPrefix hp ?_)
  rw [List.getElem?_take_of_lt (Nat.lt_of_lt_of_le hi hj), hie]

/-- **What is not excluded agrees with all that is settled**, as far as both go. -/
theorem isPrefix_of_not_excluded (h : ¬ L.Excluded t k) (hfull : L.ledger t = some full)
    {T : Nat} {pre : List (Entry α)} (hpre : L.Settled T pre) :
    pre.take k <+: full.take k := by
  have hbelow : ∀ i < k, ∀ e, pre[i]? = some e → full[i]? = some e := by
    intro i hi e he
    by_contra hne
    refine h ⟨i, e, hi, hpre.committed he, fun full' hfull' => ?_⟩
    rw [hfull] at hfull'
    cases hfull'
    exact hne
  refine List.prefix_iff_getElem?.mpr fun i hi => ?_
  have hik : i < k := Nat.lt_of_lt_of_le hi (List.length_take_le _ _)
  have hget : pre[i]? = some (pre.take k)[i] := by
    rw [List.getElem_take]
    exact List.getElem?_eq_getElem _
  rw [List.getElem?_take_of_lt hik]
  exact hbelow i hik _ hget

end Excluded

end TermLog

end WalServer.Lib
