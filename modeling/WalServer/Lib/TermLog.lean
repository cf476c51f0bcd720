import WalServer.Lib.AssocMap
import Mathlib.Data.List.Infix

/-!
# `WalServer.Lib.TermLog`: logs replicated under one leader per term

The state of a replicated log as a consensus protocol with terms sees it: for
every term that has had a leader, that leader's log (its *ledger*), and the
commit decisions, each a term and a length. A replica's log is always the
start of some ledger.

The three operations are what such a protocol does to this state:

* `openTerm`: a leader comes into office with a log that is the start of a
  ledger, and opens its own ledger with that log and one entry of its term;
* `append`: the leader of a term appends an entry of its term;
* `commit`: the leader of a term declares a length of its log committed.

`Lawful` is the conjunction of the laws they keep. `openTerm` needs a fresh
term (election safety) and a log that has what earlier terms committed, and
`commit` needs that the ledgers of later terms have it (leader completeness);
that is all the protocol is asked for. From the laws follow log matching
(`Lawful.log_matching`) and that committed entries lie in one log
(`Lawful.committed_common`). `EveryLedger` with its three preservation rules
carries a property of logs from the entries a leader appends to every ledger.
-/

set_option autoImplicit false

namespace WalServer.Lib

/-- A log entry: the term of the leader that created it, and its data. -/
structure Entry (α : Type) where
  term : Nat
  data : α
deriving DecidableEq, Repr

/-- The ledgers of all terms that have had a leader, and the commit decisions. -/
structure TermLog (α : Type) where
  ledgers : AssocMap Nat (List (Entry α))
  commits : List (Nat × Nat)

namespace TermLog

variable {α : Type}

/-- The log of the leader of term `t`, if the term has had one. -/
def ledger (L : TermLog α) (t : Nat) : Option (List (Entry α)) := L.ledgers.lookup t

/-- A log that is the start of some term's ledger. -/
def Recorded (L : TermLog α) (log : List (Entry α)) : Prop :=
  ∃ t full, L.ledger t = some full ∧ log <+: full

/-- The entry `e` is committed at position `i` (counted from zero). -/
def Committed (L : TermLog α) (i : Nat) (e : Entry α) : Prop :=
  ∃ t k full, (t, k) ∈ L.commits ∧ L.ledger t = some full ∧ i < k ∧ full[i]? = some e

/-- A leader comes into office in term `t` with the log `log` and creates the
entry `e` in it. -/
def openTerm (L : TermLog α) (t : Nat) (log : List (Entry α)) (e : Entry α) : TermLog α :=
  { L with ledgers := L.ledgers.insert t (log ++ [e]) }

/-- The leader of term `t`, whose log is `log`, appends the entry `e`. -/
def append (L : TermLog α) (t : Nat) (log : List (Entry α)) (e : Entry α) : TermLog α :=
  { L with ledgers := L.ledgers.insert t (log ++ [e]) }

/-- The leader of term `t` declares the first `k` entries of its log committed. -/
def commit (L : TermLog α) (t k : Nat) : TermLog α :=
  { L with commits := (t, k) :: L.commits }

/-- The log has what every term before `t` committed. -/
def HasEarlier (L : TermLog α) (t : Nat) (log : List (Entry α)) : Prop :=
  ∀ t' k full, (t', k) ∈ L.commits → t' < t → L.ledger t' = some full → full.take k <+: log

/-- The leaders of the terms after `t` have the list `pre`. -/
def InLater (L : TermLog α) (t : Nat) (pre : List (Entry α)) : Prop :=
  ∀ t' full, t < t' → L.ledger t' = some full → pre <+: full

instance [DecidableEq α] (L : TermLog α) (t : Nat) (log : List (Entry α)) :
    Decidable (L.HasEarlier t log) :=
  decidable_of_iff
    (∀ d ∈ L.commits, d.1 < t → ∀ full ∈ L.ledger d.1, full.take d.2 <+: log)
    ⟨fun h t' k full hk hlt hfull => h (t', k) hk hlt full hfull,
      fun h d hd hlt full hfull => h d.1 d.2 full hd hlt hfull⟩

instance [DecidableEq α] (L : TermLog α) (t : Nat) (pre : List (Entry α)) :
    Decidable (L.InLater t pre) :=
  decidable_of_iff (∀ l ∈ L.ledgers.entries, t < l.1 → pre <+: l.2)
    ⟨fun h t' full hlt hfull => h ⟨t', full⟩ (AList.mem_lookup_iff.mp hfull) hlt,
      fun h l hl hlt => h l.1 l.2 hlt (AList.mem_lookup_iff.mpr hl)⟩

/-- The laws of a replicated log. -/
structure Lawful (L : TermLog α) : Prop where
  /-- A commit decision concerns entries of the deciding leader's ledger. -/
  decided : ∀ t k, (t, k) ∈ L.commits → ∃ full, L.ledger t = some full ∧ k ≤ full.length
  /-- Leader completeness: later leaders have what earlier terms committed. -/
  complete : ∀ t k full t' full', (t, k) ∈ L.commits → L.ledger t = some full → t < t' →
    L.ledger t' = some full' → full.take k <+: full'
  /-- An entry of term `u`, wherever it is recorded, sits in the ledger of `u`
  above the same entries. -/
  origin : ∀ t full i e, L.ledger t = some full → full[i]? = some e →
    ∃ own, L.ledger e.term = some own ∧ full.take (i + 1) <+: own

/-! ### What the laws say about logs -/

/-- A prefix of a recorded log is recorded. -/
theorem Recorded.of_isPrefix {L : TermLog α} {log log' : List (Entry α)} (h : L.Recorded log)
    (hp : log' <+: log) : L.Recorded log' := by
  obtain ⟨t, full, hfull, hlog⟩ := h
  exact ⟨t, full, hfull, hp.trans hlog⟩

/-- A prefix reads the same entries as far as it goes. -/
theorem getElem?_of_isPrefix {β : Type} {l l' : List β} (h : l <+: l') {i : Nat} {b : β}
    (hi : l[i]? = some b) : l'[i]? = some b := by
  obtain ⟨s, rfl⟩ := h
  obtain ⟨hlt, -⟩ := List.getElem?_eq_some_iff.mp hi
  rw [List.getElem?_append_left hlt, hi]

/-- A log and one of its extensions read the same below the shorter length. -/
theorem getElem?_eq_of_isPrefix {β : Type} {l l' : List β} (h : l <+: l') {i : Nat}
    (hi : i < l.length) : l'[i]? = l[i]? := by
  obtain ⟨s, rfl⟩ := h
  exact List.getElem?_append_left hi

/-- The entries of a recorded log have the origin the laws give. -/
theorem Lawful.origin_recorded {L : TermLog α} (hL : L.Lawful) {log : List (Entry α)}
    (hlog : L.Recorded log) {i : Nat} {e : Entry α} (hi : log[i]? = some e) :
    ∃ own, L.ledger e.term = some own ∧ log.take (i + 1) <+: own := by
  obtain ⟨t, full, hfull, hp⟩ := hlog
  obtain ⟨own, hown, hpre⟩ := hL.origin t full i e hfull (getElem?_of_isPrefix hp hi)
  obtain ⟨hlt, -⟩ := List.getElem?_eq_some_iff.mp hi
  refine ⟨own, hown, List.IsPrefix.trans ?_ hpre⟩
  obtain ⟨s, rfl⟩ := hp
  rw [List.take_append_of_le_length (by omega)]

/-- **Log matching.** Two recorded logs with an entry of the same term at the
same position agree up to that position. -/
theorem Lawful.log_matching {L : TermLog α} (hL : L.Lawful) {l l' : List (Entry α)}
    (hl : L.Recorded l) (hl' : L.Recorded l') {i : Nat} {e e' : Entry α}
    (hi : l[i]? = some e) (hi' : l'[i]? = some e') (hterm : e.term = e'.term) :
    l.take (i + 1) = l'.take (i + 1) := by
  obtain ⟨own, hown, hp⟩ := hL.origin_recorded hl hi
  obtain ⟨own', hown', hp'⟩ := hL.origin_recorded hl' hi'
  rw [← hterm, hown] at hown'
  cases hown'
  obtain ⟨hlt, -⟩ := List.getElem?_eq_some_iff.mp hi
  obtain ⟨hlt', -⟩ := List.getElem?_eq_some_iff.mp hi'
  have hlen : (l.take (i + 1)).length = (l'.take (i + 1)).length := by
    rw [List.length_take, List.length_take]; omega
  exact (List.prefix_of_prefix_length_le hp hp' hlen.le).eq_of_length hlen

/-- **Committed entries lie in one log.** Some ledger has any two of them. -/
theorem Lawful.committed_common {L : TermLog α} (hL : L.Lawful) {i j : Nat} {e e' : Entry α}
    (hi : L.Committed i e) (hj : L.Committed j e') :
    ∃ t full, L.ledger t = some full ∧ full[i]? = some e ∧ full[j]? = some e' := by
  obtain ⟨t, k, full, hk, hfull, hik, hie⟩ := hi
  obtain ⟨t', k', full', hk', hfull', hjk, hje⟩ := hj
  have htake {l : List (Entry α)} {i k : Nat} {e : Entry α} (hik : i < k)
      (hie : l[i]? = some e) : (l.take k)[i]? = some e := by
    rw [List.getElem?_take_of_lt hik, hie]
  rcases Nat.lt_trichotomy t t' with hlt | heq | hgt
  · have hp := hL.complete t k full t' full' hk hfull hlt hfull'
    exact ⟨t', full', hfull', getElem?_of_isPrefix hp (htake hik hie), hje⟩
  · subst heq
    rw [hfull] at hfull'
    cases hfull'
    exact ⟨t, full, hfull, hie, hje⟩
  · have hp := hL.complete t' k' full' t full hk' hfull' hgt hfull
    exact ⟨t, full, hfull, hie, getElem?_of_isPrefix hp (htake hjk hje)⟩

/-- A position holds one committed entry. -/
theorem Lawful.committed_unique {L : TermLog α} (hL : L.Lawful) {i : Nat} {e e' : Entry α}
    (hi : L.Committed i e) (hi' : L.Committed i e') : e = e' := by
  obtain ⟨t, full, -, he, he'⟩ := hL.committed_common hi hi'
  rw [he] at he'
  exact Option.some.inj he'

/-- Terms from some one on have had no leader. -/
theorem exists_fresh (L : TermLog α) : ∃ T, ∀ t, T ≤ t → L.ledger t = none := by
  have hbound : ∀ l : List (Sigma fun _ : Nat => List (Entry α)), ∃ T, ∀ d ∈ l, d.1 < T := by
    intro l
    induction l with
    | nil => exact ⟨0, fun d hd => by cases hd⟩
    | cons d l ih =>
        obtain ⟨T, hT⟩ := ih
        refine ⟨max T (d.1 + 1), fun d' hd' => ?_⟩
        rcases List.mem_cons.mp hd' with rfl | hold
        · omega
        · have hlt := hT d' hold
          omega
  obtain ⟨T, hT⟩ := hbound L.ledgers.entries
  refine ⟨T, fun t ht => ?_⟩
  cases hledger : L.ledger t with
  | none => rfl
  | some full =>
      have hlt := hT ⟨t, full⟩ (AList.mem_lookup_iff.mp hledger)
      exact absurd hlt (Nat.not_lt.mpr ht)

/-! ### The operations keep the laws -/

@[simp] theorem ledger_openTerm (L : TermLog α) (t : Nat) (log : List (Entry α)) (e : Entry α)
    (u : Nat) :
    (L.openTerm t log e).ledger u = if u = t then some (log ++ [e]) else L.ledger u :=
  AssocMap.lookup_insert_eq L.ledgers t u (log ++ [e])

@[simp] theorem ledger_append (L : TermLog α) (t : Nat) (log : List (Entry α)) (e : Entry α)
    (u : Nat) :
    (L.append t log e).ledger u = if u = t then some (log ++ [e]) else L.ledger u :=
  AssocMap.lookup_insert_eq L.ledgers t u (log ++ [e])

theorem ledger_openTerm_self (L : TermLog α) (t : Nat) (log : List (Entry α)) (e : Entry α) :
    (L.openTerm t log e).ledger t = some (log ++ [e]) := by
  rw [ledger_openTerm, if_pos rfl]

theorem ledger_append_self (L : TermLog α) (t : Nat) (log : List (Entry α)) (e : Entry α) :
    (L.append t log e).ledger t = some (log ++ [e]) := by
  rw [ledger_append, if_pos rfl]

@[simp] theorem ledger_commit (L : TermLog α) (t k u : Nat) :
    (L.commit t k).ledger u = L.ledger u := rfl

/-- A new entry of term `t` on top of the log of `t` keeps the origin law. The
two ways to extend a ledger, coming into office and appending, share it. -/
private theorem origin_extend {L : TermLog α} {t : Nat} {log : List (Entry α)} {e : Entry α}
    (he : e.term = t)
    (hold : ∀ i x, log[i]? = some x →
      ∃ own, (L.openTerm t log e).ledger x.term = some own ∧ log.take (i + 1) <+: own)
    {i : Nat} {x : Entry α} (hx : (log ++ [e])[i]? = some x) :
    ∃ own, (L.openTerm t log e).ledger x.term = some own ∧
      (log ++ [e]).take (i + 1) <+: own := by
  rcases Nat.lt_or_ge i log.length with hlt | hge
  · rw [List.getElem?_append_left hlt] at hx
    obtain ⟨own, hown, hp⟩ := hold i x hx
    exact ⟨own, hown, by rwa [List.take_append_of_le_length (by omega)]⟩
  · -- The new entry itself: its own ledger is the one that is written.
    have hi : i = log.length := by
      obtain ⟨hlt, -⟩ := List.getElem?_eq_some_iff.mp hx
      rw [List.length_append, List.length_singleton] at hlt
      omega
    subst hi
    rw [List.getElem?_concat_length] at hx
    cases hx
    refine ⟨log ++ [e], by simp [he], ?_⟩
    exact List.take_prefix _ _

/-- Coming into office in a fresh term, with a recorded log that has what every
earlier term committed, keeps the laws. -/
theorem Lawful.openTerm {L : TermLog α} (hL : L.Lawful) {t : Nat} {log : List (Entry α)}
    {e : Entry α} (hfresh : L.ledger t = none) (hlog : L.Recorded log) (he : e.term = t)
    (hcomplete : L.HasEarlier t log) : (L.openTerm t log e).Lawful where
  decided u k hk := by
    obtain ⟨full, hfull, hle⟩ := hL.decided u k hk
    have hne : u ≠ t := fun h => by rw [h, hfresh] at hfull; cases hfull
    exact ⟨full, by simp [hne, hfull], hle⟩
  complete u k full u' full' hk hu hlt hu' := by
    obtain ⟨old, hold, -⟩ := hL.decided u k hk
    have hne : u ≠ t := fun h => by rw [h, hfresh] at hold; cases hold
    rw [ledger_openTerm, if_neg hne] at hu
    rw [ledger_openTerm] at hu'
    split at hu'
    · -- The term that is opened extends a log with all earlier decisions.
      rename_i heq
      subst heq
      cases hu'
      exact (hcomplete u k full hk hlt hu).trans (List.prefix_append _ _)
    · exact hL.complete u k full u' full' hk hu hlt hu'
  origin u full i x hu hx := by
    -- Entries of older terms keep the origin they had.
    have hold : ∀ own (y : Entry α), L.ledger y.term = some own →
        (L.openTerm t log e).ledger y.term = some own := by
      intro own y hy
      have hne : y.term ≠ t := fun h => by rw [h, hfresh] at hy; cases hy
      simp [hne, hy]
    rw [ledger_openTerm] at hu
    split at hu
    · cases hu
      refine origin_extend he (fun i x hx => ?_) hx
      obtain ⟨own, hown, hp⟩ := hL.origin_recorded hlog hx
      exact ⟨own, hold own x hown, hp⟩
    · obtain ⟨own, hown, hp⟩ := hL.origin u full i x hu hx
      exact ⟨own, hold own x hown, hp⟩

/-- Appending to the leader's own ledger keeps the laws. -/
theorem Lawful.append {L : TermLog α} (hL : L.Lawful) {t : Nat} {log : List (Entry α)}
    {e : Entry α} (hlog : L.ledger t = some log) (he : e.term = t) :
    (L.append t log e).Lawful := by
  -- Every ledger is the old one or one entry longer, so old prefixes stay prefixes.
  have hgrow : ∀ u full, L.ledger u = some full →
      ∃ full', (L.append t log e).ledger u = some full' ∧ full <+: full' := by
    intro u full hu
    by_cases h : u = t
    · subst h
      rw [hlog] at hu
      cases hu
      exact ⟨log ++ [e], by simp, List.prefix_append _ _⟩
    · exact ⟨full, by simp [h, hu], List.prefix_refl _⟩
  refine ⟨fun u k hk => ?_, fun u k full u' full' hk hu hlt hu' => ?_,
    fun u full i x hu hx => ?_⟩
  · obtain ⟨full, hfull, hle⟩ := hL.decided u k hk
    obtain ⟨full', hfull', hp⟩ := hgrow u full hfull
    exact ⟨full', hfull', hle.trans hp.length_le⟩
  · obtain ⟨old, hold, hle⟩ := hL.decided u k hk
    obtain ⟨old', hold', hp⟩ := hgrow u old hold
    rw [hu] at hold'
    cases hold'
    have htake : full.take k = old.take k := by
      obtain ⟨s, rfl⟩ := hp
      exact List.take_append_of_le_length hle
    rw [htake]
    rw [ledger_append] at hu'
    split at hu'
    · rename_i heq
      subst heq
      cases hu'
      exact (hL.complete u k old u' log hk hold hlt hlog).trans (List.prefix_append _ _)
    · exact hL.complete u k old u' full' hk hold hlt hu'
  · have hold : ∀ u full i x, L.ledger u = some full → full[i]? = some x →
        ∃ own, (L.append t log e).ledger x.term = some own ∧ full.take (i + 1) <+: own := by
      intro u full i x hu hx
      obtain ⟨own, hown, hp⟩ := hL.origin u full i x hu hx
      obtain ⟨own', hown', hp'⟩ := hgrow x.term own hown
      exact ⟨own', hown', hp.trans hp'⟩
    rw [ledger_append] at hu
    split at hu
    · cases hu
      exact origin_extend he (fun i x hx => hold t log i x hlog hx) hx
    · exact hold u full i x hu hx

/-- A commit decision that the ledgers of later terms already have keeps the laws. -/
theorem Lawful.commit {L : TermLog α} (hL : L.Lawful) {t k : Nat} {log : List (Entry α)}
    (hlog : L.ledger t = some log) (hk : k ≤ log.length) (hlater : L.InLater t (log.take k)) :
    (L.commit t k).Lawful where
  decided u j hj := by
    rcases List.mem_cons.mp hj with h | h
    · cases h
      exact ⟨log, hlog, hk⟩
    · exact hL.decided u j h
  complete u j full u' full' hj hu hlt hu' := by
    rcases List.mem_cons.mp hj with h | h
    · cases h
      rw [ledger_commit, hlog] at hu
      cases hu
      exact hlater u' full' hlt hu'
    · exact hL.complete u j full u' full' h hu hlt hu'
  origin := hL.origin

/-! ### Properties that every ledger has -/

/-- Every ledger has the property `P`. -/
def EveryLedger (L : TermLog α) (P : List (Entry α) → Prop) : Prop :=
  ∀ t full, L.ledger t = some full → P full

section EveryLedger

variable {L : TermLog α} {P : List (Entry α) → Prop}

/-- A property that prefixes inherit holds of every recorded log. -/
theorem EveryLedger.recorded (h : L.EveryLedger P)
    (hpre : ∀ l l', l <+: l' → P l' → P l) {log : List (Entry α)} (hlog : L.Recorded log) :
    P log := by
  obtain ⟨t, full, hfull, hp⟩ := hlog
  exact hpre log full hp (h t full hfull)

/-- The property survives a leader coming into office. -/
theorem EveryLedger.openTerm (h : L.EveryLedger P) {t : Nat} {log : List (Entry α)}
    {e : Entry α} (hnew : P (log ++ [e])) : (L.openTerm t log e).EveryLedger P := by
  intro u full hu
  rw [ledger_openTerm] at hu
  split at hu
  · cases hu
    exact hnew
  · exact h u full hu

/-- The property survives an append. -/
theorem EveryLedger.append (h : L.EveryLedger P) {t : Nat} {log : List (Entry α)}
    {e : Entry α} (hnew : P (log ++ [e])) : (L.append t log e).EveryLedger P :=
  EveryLedger.openTerm h hnew

end EveryLedger

end TermLog

end WalServer.Lib
