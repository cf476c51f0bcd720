import WalServer.Lib.Transition
import WalServer.Raft.Storage

/-!
# `WalServer.Raft.Contract`: the stored log as raft sees it

A `RaftLog` is what raft expects of a storage: entries with consecutive indexes
behind a base, of which the index and the term are remembered. `overwrite`
replaces a suffix, `compact` moves the base up to an entry, and `restart` begins
anew behind a snapshot; `entryAt_overwrite` and `entryAt_compact` say which
entries that leaves where.

`system` runs the calls of `PersistentStorage` beside the operations of a
`RaftLog`, with the two halves of a snapshot and a crash behind any call; a call whose
state is not written ends the process too. The storage always has the log's entries
(`Tracks`). It answers for the log exactly while its snapshot agrees with it
(`Tracks.implements_iff`): the storage keeps no term for the base but takes the
snapshot's, and it looks at the snapshot before it looks at the entries.
-/

set_option autoImplicit false

namespace WalServer.Raft

open WalServer.Lib

/-- A log from a base on. -/
structure RaftLog where
  base : Nat
  baseTerm : Nat
  entries : List LogEntry
  consecutive : ConsecutiveFrom (base + 1) entries

namespace RaftLog

/-- The index of the last entry, or of the base if there is none. -/
def last (l : RaftLog) : Nat := l.base + l.entries.length

/-- The entry at an index. -/
def entryAt (l : RaftLog) (i : Nat) : Option LogEntry :=
  if i ≤ l.base then none else l.entries[i - (l.base + 1)]?

/-- What a storage is to answer when it is asked for the term at an index. -/
def term (l : RaftLog) (i : Nat) : Outcome StorageError Nat :=
  if i < l.base then .err .compacted
  else if i = l.base then .ok l.baseTerm
  else
    match l.entryAt i with
    | some entry => .ok entry.term
    | none       => .err .unavailable

/-- The entries from one index up to another, which is not included. -/
def range (l : RaftLog) (low high : Nat) : List LogEntry :=
  (List.range' low (high - low)).filterMap l.entryAt

/-- The log with new entries in place of all from their first index on. -/
def overwrite (l : RaftLog) (first : LogEntry) (rest : List LogEntry)
    (h : ConsecutiveFrom first.index (first :: rest) ∧ l.base < first.index ∧
      first.index ≤ l.last + 1) : RaftLog where
  base := l.base
  baseTerm := l.baseTerm
  entries := l.entries.take (first.index - (l.base + 1)) ++ first :: rest
  consecutive := by
    obtain ⟨hcons, hlow, hhigh⟩ := h
    refine (l.consecutive.take _).append ?_
    unfold last at hhigh
    rwa [List.length_take, Nat.min_eq_left (by omega), Nat.add_sub_cancel' hlow]

/-- Appends entries that fit the log, in place of those at their indexes and behind. -/
def append (l : RaftLog) : List LogEntry → RaftLog
  | []            => l
  | first :: rest =>
      if h : ConsecutiveFrom first.index (first :: rest) ∧ l.base < first.index ∧
          first.index ≤ l.last + 1 then l.overwrite first rest h
      else l

/-- Moves the base to the entry at an index, whose term is remembered. -/
def compact (l : RaftLog) (i : Nat) : RaftLog :=
  if h : l.base < i ∧ i ≤ l.last then {
    base := i
    baseTerm := ((l.entryAt i).map LogEntry.term).getD l.baseTerm
    entries := l.entries.drop (i - l.base)
    consecutive := by
      have hdrop := l.consecutive.drop (i - l.base)
      rwa [Nat.add_right_comm, Nat.add_sub_cancel' h.1.le] at hdrop }
  else l

/-- An empty log behind a snapshot. -/
def restart (metadata : SnapshotMetadata) : RaftLog where
  base := metadata.index
  baseTerm := metadata.term
  entries := []
  consecutive := trivial

/-- The log of a group that starts: one entry. -/
def bootstrap : RaftLog where
  base := 0
  baseTerm := 0
  entries := [⟨.entryNormal, 1, 1, []⟩]
  consecutive := ⟨rfl, trivial⟩

variable {l : RaftLog}

/-- **Overwriting** puts the new entries at their indexes, and keeps all before them. -/
theorem entryAt_overwrite {first : LogEntry} {rest : List LogEntry}
    (h : ConsecutiveFrom first.index (first :: rest) ∧ l.base < first.index ∧
      first.index ≤ l.last + 1) (i : Nat) :
    (l.overwrite first rest h).entryAt i =
      if i < first.index then l.entryAt i else (first :: rest)[i - first.index]? := by
  obtain ⟨-, hlow, hhigh⟩ := h
  unfold last at hhigh
  have hkept : (l.entries.take (first.index - (l.base + 1))).length =
      first.index - (l.base + 1) := by
    rw [List.length_take]
    omega
  unfold entryAt overwrite
  by_cases hbelow : i ≤ l.base
  · simp only [if_pos hbelow, if_pos (show i < first.index by omega)]
  · simp only [if_neg hbelow]
    by_cases hbefore : i < first.index
    · -- An earlier entry is in the part that is kept.
      rw [if_pos hbefore, List.getElem?_append_left (by omega),
        List.getElem?_take_of_lt (by omega)]
    · rw [if_neg hbefore, List.getElem?_append_right (by omega), hkept]
      congr 1
      omega

/-- **Compacting** keeps all entries behind the new base. -/
theorem entryAt_compact {i : Nat} (hlow : l.base < i) (hhigh : i ≤ l.last) (k : Nat) :
    (l.compact i).entryAt k = if k ≤ i then none else l.entryAt k := by
  unfold compact
  rw [dif_pos ⟨hlow, hhigh⟩]
  unfold entryAt
  by_cases hk : k ≤ i
  · simp only [if_pos hk]
  · simp only [if_neg hk, if_neg (show ¬ k ≤ l.base by omega), List.getElem?_drop]
    congr 1
    omega

/-- Entries of the log are found from the base on. -/
theorem entryAt_add (l : RaftLog) (n : Nat) : l.entryAt (l.base + 1 + n) = l.entries[n]? := by
  unfold entryAt
  rw [if_neg (by omega), Nat.add_sub_cancel_left]

/-- A range of the log is a slice of its entries. -/
theorem range_eq (l : RaftLog) (n m : Nat) (hm : m ≤ l.entries.length) :
    l.range (l.base + 1 + n) (l.base + 1 + m) = (l.entries.take m).drop n := by
  unfold range
  rw [Nat.add_sub_add_left]
  induction hlen : m - n generalizing n with
  | zero =>
      rw [List.drop_eq_nil_of_le (by rw [List.length_take]; omega)]
      rfl
  | succ k ih =>
      have hlt : n < (l.entries.take m).length := by
        rw [List.length_take]
        omega
      have hfound : l.entryAt (l.base + 1 + n) = some (l.entries.take m)[n] := by
        rw [entryAt_add, List.getElem_take, List.getElem?_eq_getElem]
      rw [List.range'_succ, List.filterMap_cons_some hfound, List.drop_eq_getElem_cons hlt,
        Nat.add_assoc, ih (n + 1) (by omega)]

end RaftLog

/-! ### What raft asks the storage -/

namespace PersistentStorage

/-- The entries from one index up to another, `Storage::entries`. How raft cuts
them down to a size is a parameter. -/
def entries (limitSize : List LogEntry → Option Nat → List LogEntry) (s : PersistentStorage)
    (low high : Nat) (maxSize : Option Nat) : Outcome StorageError (List LogEntry) :=
  let first := s.state.firstIndex
  if low < first then .err .compacted
  else if s.state.lastIndex + 1 < high then .err .unavailable
  else if s.state.entries = [] then .ok []
  else if low ≤ high ∧ high - first ≤ s.state.entries.length then
    .ok (limitSize ((s.state.entries.take (high - first)).drop (low - first)) maxSize)
  else .panic

end PersistentStorage

/-- A storage beside the log it is to keep. -/
structure StorageRun where
  storage : PersistentStorage
  log : RaftLog

/-- The calls on a storage. -/
inductive StorageAction where
  | setHardstate (hs : HardState)
  | append (ents : List LogEntry)
  | createSnapshot (index : Nat) (data : Bytes)
  | compact (compactIndex : Nat)
  | applySnapshot (snapshot : Snapshot)
  /-- The process ends behind some call, and the next one reads the file. -/
  | reopen
deriving DecidableEq, Repr

namespace StorageRun

/-- The next process, which reads the file. -/
def reopened (confState : ConfState) (s : StorageRun) : StorageRun :=
  { s with storage := .openStorage s.storage.written.getLast? confState }

/-- A run after a call that makes the given log. A state that the file has no room for ends
the process, and the next one reads what is there. -/
def afterCall (confState : ConfState) (s : StorageRun) (log : RaftLog) :
    PersistentStorage.Call → Option StorageRun
  | (_, .panic)         => none
  | (_, .err .protobuf) => some (s.reopened confState)
  | (storage, _)        => some ⟨storage, log⟩

/-- The step function of a storage and its log. -/
def step (confState : ConfState) (s : StorageRun) : StorageAction → Option StorageRun
  | .setHardstate hs           => s.afterCall confState s.log (s.storage.setHardstate hs)
  | .append ents               => s.afterCall confState (s.log.append ents) (s.storage.append ents)
  | .createSnapshot index data =>
      s.afterCall confState s.log (s.storage.createSnapshot index data)
  | .compact compactIndex      =>
      s.afterCall confState (s.log.compact (compactIndex - 1)) (s.storage.compact compactIndex)
  | .applySnapshot snapshot    =>
      s.afterCall confState (.restart snapshot.metadata) (s.storage.applySnapshot snapshot)
  | .reopen                    => some (s.reopened confState)

/-- The runs of a storage from its first start. -/
def system (confState : ConfState) : System StorageRun StorageAction where
  init := ⟨.openStorage none confState, .bootstrap⟩
  step := step confState

/-- The calls raft and the engine make: entries fit the log, snapshots of the own
state machine do not go back, the log is compacted behind its snapshot, and a
snapshot of another node goes beyond the log. -/
def Permitted (s : StorageRun) : StorageAction → Prop
  | .append [] => True
  | .append (first :: rest) => ConsecutiveFrom first.index (first :: rest) ∧
      s.storage.state.firstIndex ≤ first.index ∧ first.index ≤ s.storage.state.lastIndex + 1
  | .createSnapshot index _ =>
      s.storage.snapshotIndex ≤ index ∧ index ≤ s.storage.state.lastIndex
  | .compact compactIndex => compactIndex = s.storage.snapshotIndex + 1
  | .applySnapshot snapshot => s.storage.state.lastIndex < snapshot.metadata.index
  | _ => True

instance (s : StorageRun) (a : StorageAction) : Decidable (s.Permitted a) := by
  cases a with
  | append ents => cases ents <;> unfold Permitted <;> infer_instance
  | _ => unfold Permitted; infer_instance

/-- **The storage keeps the log's entries**, and its snapshot is not below the base. -/
structure Tracks (s : StorageRun) : Prop where
  entries : s.storage.state.entries = s.log.entries
  base_le : s.log.base ≤ s.storage.snapshotIndex
  of_nil : s.log.entries = [] → s.storage.snapshotIndex = s.log.base
  stored : s.storage.written.getLast? = some s.storage.state

variable {s : StorageRun}

theorem Tracks.firstIndex (h : s.Tracks) : s.storage.state.firstIndex = s.log.base + 1 := by
  unfold PersistentState.firstIndex
  rw [h.entries]
  cases hentries : s.log.entries with
  | nil =>
      -- Without entries the log begins behind the snapshot, which is at the base.
      have hsnapshot := h.of_nil hentries
      unfold PersistentStorage.snapshotIndex at hsnapshot
      simp [hsnapshot]
  | cons first rest =>
      have hcons := s.log.consecutive
      rw [hentries] at hcons
      exact hcons.1

theorem Tracks.contiguous (h : s.Tracks) : s.storage.state.Contiguous := by
  unfold PersistentState.Contiguous
  rw [h.firstIndex, h.entries]
  exact s.log.consecutive

theorem Tracks.lastIndex (h : s.Tracks) : s.storage.state.lastIndex = s.log.last := by
  have hlast := h.contiguous.lastIndex_add_one
  rw [h.firstIndex, h.entries] at hlast
  unfold RaftLog.last
  omega

/-! ### Steps -/

/-- What appending leaves is what overwriting the log leaves. -/
theorem Tracks.extend (h : s.Tracks) {first : LogEntry} {rest : List LogEntry}
    (hfits : ConsecutiveFrom first.index (first :: rest) ∧ s.log.base < first.index ∧
      first.index ≤ s.log.last + 1) :
    (s.storage.state.extend first (first :: rest)).entries =
      (s.log.overwrite first rest hfits).entries := by
  have hhigh := hfits.2.2
  unfold PersistentState.extend RaftLog.overwrite
  simp only [h.firstIndex, h.lastIndex, h.entries]
  unfold RaftLog.last at hhigh ⊢
  split
  · rfl
  · -- Entries right behind the log cut nothing off.
    rw [List.take_of_length_le (by omega)]

/-- Reopening finds what was stored last. -/
theorem Tracks.reopened (h : s.Tracks) (confState : ConfState) :
    (s.reopened confState).Tracks := by
  unfold StorageRun.reopened
  rw [h.stored]
  exact ⟨h.entries, h.base_le, h.of_nil, rfl⟩

/-- **A call that ends in `persist`** leaves the new log, or the next process finds the
old one. -/
theorem Tracks.afterCall_persist (h : s.Tracks) (confState : ConfState)
    {storage : PersistentStorage} {log : RaftLog}
    (hnew : (⟨{ storage with written := storage.written ++ [storage.state] }, log⟩ :
      StorageRun).Tracks) :
    ∃ t, s.afterCall confState log storage.persist = some t ∧ t.Tracks := by
  unfold PersistentStorage.persist
  split
  · exact ⟨_, rfl, hnew⟩
  · exact ⟨_, rfl, h.reopened confState⟩

/-- **Appending** entries that fit overwrites the log. -/
theorem Tracks.append (h : s.Tracks) (confState : ConfState) {ents : List LogEntry}
    (hfits : s.Permitted (.append ents)) :
    ∃ t, s.step confState (.append ents) = some t ∧ t.Tracks := by
  cases ents with
  | nil => exact ⟨s, rfl, h⟩
  | cons first rest =>
      obtain ⟨hcons, hlow, hhigh⟩ := hfits
      have hfrom := hlow
      rw [h.firstIndex] at hlow
      rw [h.lastIndex] at hhigh
      have hlog : s.log.append (first :: rest) =
          s.log.overwrite first rest ⟨hcons, hlow, hhigh⟩ := by
        rw [RaftLog.append, dif_pos]
      rw [StorageRun.step, PersistentStorage.append, if_neg (Nat.not_lt.mpr hfrom), hlog]
      refine h.afterCall_persist confState ?_
      exact {
        entries := h.extend ⟨hcons, hlow, hhigh⟩
        base_le := h.base_le
        of_nil := fun hnil => by simp [RaftLog.overwrite] at hnil
        stored := List.getLast?_concat }

/-- **Storing a snapshot** leaves the log as it is. -/
theorem Tracks.createSnapshot (h : s.Tracks) (confState : ConfState) {index : Nat} {data : Bytes}
    (hfits : s.Permitted (.createSnapshot index data)) :
    ∃ t, s.step confState (.createSnapshot index data) = some t ∧ t.Tracks := by
  obtain ⟨hlow, hhigh⟩ := hfits
  have hbase := h.base_le
  obtain ⟨term, hterm⟩ := h.contiguous.term_eq_ok (by rw [h.firstIndex]; omega) hhigh
  rw [h.lastIndex] at hhigh
  rw [StorageRun.step, PersistentStorage.createSnapshot, hterm]
  refine h.afterCall_persist confState ?_
  exact {
    entries := h.entries
    base_le := Nat.le_trans hbase hlow
    of_nil := fun hnil => by
      have hold : s.storage.snapshotIndex = s.log.base := h.of_nil hnil
      have hend : s.log.last = s.log.base := by
        unfold RaftLog.last
        rw [show s.log.entries = [] from hnil, List.length_nil, Nat.add_zero]
      show index = s.log.base
      omega
    stored := List.getLast?_concat }

/-- **Compacting** behind the snapshot moves the base up to it; if the log does not
reach so far, or begins there already, nothing happens. -/
theorem Tracks.compact (h : s.Tracks) (confState : ConfState) {compactIndex : Nat}
    (hfits : s.Permitted (.compact compactIndex)) :
    ∃ t, s.step confState (.compact compactIndex) = some t ∧ t.Tracks := by
  have hbase := h.base_le
  have hindex : compactIndex - 1 = s.storage.snapshotIndex := by
    rw [show compactIndex = s.storage.snapshotIndex + 1 from hfits, Nat.add_sub_cancel]
  rw [StorageRun.step, hindex]
  unfold PersistentStorage.compact RaftLog.compact
  rw [h.firstIndex, h.lastIndex, show compactIndex = s.storage.snapshotIndex + 1 from hfits]
  by_cases hbegins : s.storage.snapshotIndex + 1 ≤ s.log.base + 1
  · rw [if_pos hbegins, dif_neg (by omega)]
    exact ⟨s, rfl, h⟩
  · rw [if_neg hbegins]
    by_cases hbeyond : s.log.last + 1 < s.storage.snapshotIndex + 1
    · rw [if_pos hbeyond, dif_neg (by omega)]
      exact ⟨s, rfl, h⟩
    · have hlength : ¬ s.storage.state.entries.length <
          s.storage.snapshotIndex + 1 - (s.log.base + 1) := by
        unfold RaftLog.last at hbeyond
        rw [h.entries]
        omega
      rw [if_neg hbeyond, if_neg hlength, dif_pos (by omega)]
      refine h.afterCall_persist confState ?_
      exact {
        entries := by
          show s.storage.state.entries.drop _ = s.log.entries.drop _
          rw [h.entries, Nat.add_sub_add_right]
        base_le := Nat.le_refl _
        of_nil := fun _ => rfl
        stored := List.getLast?_concat }

/-- **One call**: it does not panic, and the storage goes on keeping the log. -/
theorem Tracks.step (h : s.Tracks) (confState : ConfState) {a : StorageAction}
    (ha : s.Permitted a) : ∃ t, (system confState).step s a = some t ∧ t.Tracks := by
  cases a with
  | setHardstate hs =>
      exact h.afterCall_persist confState ⟨h.entries, h.base_le, h.of_nil, List.getLast?_concat⟩
  | append ents => exact h.append confState ha
  | createSnapshot index data => exact h.createSnapshot confState ha
  | compact compactIndex => exact h.compact confState ha
  | applySnapshot snapshot =>
      exact h.afterCall_persist confState
        ⟨rfl, Nat.le_refl _, fun _ => rfl, List.getLast?_concat⟩
  | reopen => exact ⟨_, rfl, h.reopened confState⟩

/-- **Every run keeps the log's entries.** -/
theorem tracks_of_reachable {confState : ConfState}
    (h : (system confState).Reachable Permitted s) : s.Tracks := by
  refine h.invariant ?_ fun s a t _ htracks ha hstep => ?_
  · exact ⟨rfl, Nat.le_refl 0, fun _ => rfl, rfl⟩
  · obtain ⟨t', hstep', htracks'⟩ := htracks.step confState ha
    rw [hstep] at hstep'
    cases hstep'
    exact htracks'

/-! ### Answers -/

/-- **Raft's log contract**: the storage answers for the log. -/
structure Implements (limitSize : List LogEntry → Option Nat → List LogEntry) (s : StorageRun) :
    Prop where
  entries : s.storage.state.entries = s.log.entries
  firstIndex : s.storage.state.firstIndex = s.log.base + 1
  lastIndex : s.storage.state.lastIndex = s.log.last
  term : ∀ i, s.storage.state.term i = s.log.term i
  range : ∀ low high, s.log.base + 1 ≤ low → low ≤ high → high ≤ s.log.last + 1 →
    s.storage.entries limitSize low high none = .ok (s.log.range low high)

/-- The snapshot agrees with the log: its term is that of the base, and that of the
entry at its index, where it is still stored. -/
def SnapshotAgrees (s : StorageRun) : Prop :=
  s.storage.state.snapshot.metadata.term = s.log.baseTerm ∧
    (s.log.base < s.storage.snapshotIndex →
      ∃ entry, s.log.entryAt s.storage.snapshotIndex = some entry ∧
        s.storage.state.snapshot.metadata.term = entry.term)

/-- Ranges are answered whatever the snapshot. -/
theorem Tracks.range (h : s.Tracks) {limitSize : List LogEntry → Option Nat → List LogEntry}
    (hlimit : ∀ ents, limitSize ents none = ents) {low high : Nat} (hlow : s.log.base + 1 ≤ low)
    (horder : low ≤ high) (hhigh : high ≤ s.log.last + 1) :
    s.storage.entries limitSize low high none = .ok (s.log.range low high) := by
  unfold RaftLog.last at hhigh
  obtain ⟨n, rfl⟩ := Nat.exists_eq_add_of_le hlow
  obtain ⟨m, rfl⟩ := Nat.exists_eq_add_of_le (hlow.trans horder)
  rw [s.log.range_eq n m (by omega)]
  unfold PersistentStorage.entries
  rw [h.firstIndex, h.lastIndex, h.entries]
  unfold RaftLog.last
  simp only [Nat.add_sub_cancel_left]
  rw [if_neg (by omega), if_neg (by omega)]
  by_cases hnil : s.log.entries = []
  · rw [if_pos hnil, hnil]
    simp
  · rw [if_neg hnil, if_pos ⟨horder, by omega⟩, hlimit]

/-- Terms are answered for the log while the snapshot agrees with it. -/
theorem Tracks.term (h : s.Tracks) (hagrees : s.SnapshotAgrees) (i : Nat) :
    s.storage.state.term i = s.log.term i := by
  obtain ⟨hbaseTerm, hentry⟩ := hagrees
  have hbase := h.base_le
  unfold PersistentState.term
  by_cases hsnapshot : i = s.storage.state.snapshot.metadata.index
  · -- The snapshot is asked first.
    rw [if_pos hsnapshot, show i = s.storage.snapshotIndex from hsnapshot]
    unfold RaftLog.term
    rw [if_neg (Nat.not_lt.mpr hbase)]
    by_cases hat : s.storage.snapshotIndex = s.log.base
    · rw [if_pos hat, hbaseTerm]
    · obtain ⟨entry, hfound, hterm⟩ := hentry (by omega)
      rw [if_neg hat, hfound, hterm]
  · -- The others are found by their distance from the first entry.
    rw [if_neg hsnapshot, h.firstIndex, h.lastIndex, h.entries]
    unfold RaftLog.term
    simp only [Nat.add_sub_cancel]
    by_cases hbelow : i < s.log.base
    · rw [if_pos hbelow, if_pos hbelow]
    · rw [if_neg hbelow, if_neg hbelow]
      by_cases hat : i = s.log.base
      · rw [if_pos (by omega), if_pos hat, hbaseTerm]
      · rw [if_neg (by omega), if_neg hat]
        unfold RaftLog.entryAt RaftLog.last
        rw [if_neg (show ¬ i ≤ s.log.base by omega)]
        by_cases hbeyond : s.log.base + s.log.entries.length < i
        · rw [if_pos hbeyond, List.getElem?_eq_none (by omega)]
        · rw [if_neg hbeyond, List.getElem?_eq_getElem (by omega)]

/-- **The storage implements the log exactly while its snapshot agrees with it.** -/
theorem Tracks.implements_iff (h : s.Tracks)
    {limitSize : List LogEntry → Option Nat → List LogEntry}
    (hlimit : ∀ ents, limitSize ents none = ents) :
    s.Implements limitSize ↔ s.SnapshotAgrees := by
  constructor
  · intro hall
    have hbase := h.base_le
    have hsnapshot : s.log.term s.storage.snapshotIndex =
        .ok s.storage.state.snapshot.metadata.term := by
      rw [← hall.term]
      unfold PersistentState.term
      exact if_pos rfl
    unfold RaftLog.term at hsnapshot
    rw [if_neg (Nat.not_lt.mpr hbase)] at hsnapshot
    by_cases hat : s.storage.snapshotIndex = s.log.base
    · rw [if_pos hat] at hsnapshot
      exact ⟨(Outcome.ok.inj hsnapshot).symm, fun hlt => by omega⟩
    · rw [if_neg hat] at hsnapshot
      -- The term of the base comes from the snapshot too.
      have hterm : s.storage.state.term s.log.base = .ok s.log.baseTerm := by
        rw [hall.term]
        unfold RaftLog.term
        rw [if_neg (Nat.lt_irrefl _), if_pos rfl]
      unfold PersistentState.term at hterm
      rw [if_neg (show s.log.base ≠ s.storage.state.snapshot.metadata.index from Ne.symm hat),
        h.firstIndex] at hterm
      simp only [Nat.add_sub_cancel, Nat.lt_irrefl, if_false, Nat.lt_add_one, if_true] at hterm
      refine ⟨Outcome.ok.inj hterm, fun _ => ?_⟩
      cases hfound : s.log.entryAt s.storage.snapshotIndex with
      | none =>
          rw [hfound] at hsnapshot
          cases hsnapshot
      | some entry =>
          rw [hfound] at hsnapshot
          exact ⟨entry, rfl, (Outcome.ok.inj hsnapshot).symm⟩
  · intro hagrees
    exact ⟨h.entries, h.firstIndex, h.lastIndex, h.term hagrees, fun _ _ => h.range hlimit⟩

/-- **In every run the storage implements raft's log exactly while its snapshot
agrees with the log.** -/
theorem implements_iff_snapshotAgrees {confState : ConfState}
    {limitSize : List LogEntry → Option Nat → List LogEntry}
    (hlimit : ∀ ents, limitSize ents none = ents)
    (hreach : (system confState).Reachable Permitted s) :
    s.Implements limitSize ↔ s.SnapshotAgrees :=
  (tracks_of_reachable hreach).implements_iff hlimit

/-- Entries of one term. -/
def entriesOfTerm (term : Nat) (indexes : List Nat) : List LogEntry :=
  indexes.map fun i => ⟨.entryNormal, term, i, [1]⟩

/-- A log that is cut, and overwritten, and compacted behind a snapshot. -/
def snapshotTaken : List StorageAction :=
  [.append (entriesOfTerm 1 [2, 3, 4]), .append (entriesOfTerm 2 [4, 5]), .createSnapshot 5 [7],
    .compact 6, .append (entriesOfTerm 3 [6, 7])]

/-- The next snapshot is stored, and the process ends before the log is compacted. -/
def snapshotHalfTaken : List StorageAction :=
  snapshotTaken ++ [.createSnapshot 7 [8], .reopen]

/-- A decidable view of `SnapshotAgrees`, behind a compaction. -/
def CompactedAt (index : Nat) (s : StorageRun) : Prop :=
  s.log.base = index ∧ s.storage.snapshotIndex = index ∧
    s.storage.state.snapshot.metadata.term = s.log.baseTerm

instance (index : Nat) : DecidablePred (CompactedAt index) := fun s => by
  unfold CompactedAt
  infer_instance

/-- A storage whose log has been compacted behind its snapshot. -/
theorem implements_snapshotTaken :
    ∃ s, (system ⟨[1, 2, 3]⟩).Reachable Permitted s ∧ s.log.base = 5 ∧
      s.Implements fun ents _ => ents := by
  obtain ⟨s, hreach, hbase, hsnapshot, hterm⟩ := System.exists_reachable_of_execute
    (system ⟨[1, 2, 3]⟩) Permitted snapshotTaken (CompactedAt 5) (by decide +kernel)
  refine ⟨s, hreach, hbase, (implements_iff_snapshotAgrees (fun _ => rfl) hreach).mpr ⟨hterm, ?_⟩⟩
  intro hlt
  omega

/-- What a storage between the halves of a snapshot answers for the base. -/
def BaseMistaken (s : StorageRun) : Prop :=
  s.log.base = 5 ∧ s.log.baseTerm = 2 ∧ s.storage.state.firstIndex = 6 ∧
    s.storage.state.term 5 = .ok 3

instance : DecidablePred BaseMistaken := fun s => by
  unfold BaseMistaken
  infer_instance

/-- **Between the halves of a snapshot** the storage answers for the index before
its first entry with the term of the new snapshot, where raft compares the term
that was there: the log was compacted at index 5 of term 2, and the answer is 3. -/
theorem base_term_mistaken :
    ∃ s, (system ⟨[1, 2, 3]⟩).Reachable Permitted s ∧ s.BaseMistaken ∧
      ¬ s.Implements fun ents _ => ents := by
  obtain ⟨s, hreach, hmistaken⟩ := System.exists_reachable_of_execute
    (system ⟨[1, 2, 3]⟩) Permitted snapshotHalfTaken BaseMistaken (by decide +kernel)
  refine ⟨s, hreach, hmistaken, fun hall => ?_⟩
  obtain ⟨hbase, hbaseTerm, -, hanswer⟩ := hmistaken
  have hexpected := hall.term 5
  unfold RaftLog.term at hexpected
  rw [hanswer, hbase, hbaseTerm] at hexpected
  simp at hexpected

end StorageRun

end WalServer.Raft
