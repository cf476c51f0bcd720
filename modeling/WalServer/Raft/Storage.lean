import WalServer.Lib.Outcome
import WalServer.Raft.Types

/-!
# `WalServer.Raft.Storage`: the stored raft state

`raft/storage.rs`: the state a node keeps for the raft crate and the calls that
change it. Every change ends in `persist`, which replaces the file as a whole;
`written` is the list of the states the file has held, in order, so that a crash
after any single `persist` leaves one of them. A call that fails keeps what it
wrote before, so calls return the storage together with how they ended. Disk
input and output succeed, but the file's format has room for 32-bit sizes only, and
a state beyond them is not written (`PersistentState.Fits`).

A log is `Contiguous` when its entries have consecutive indexes. For such a log
each change has an equation for the first and the last index it leaves.
-/

set_option autoImplicit false

namespace WalServer.Raft

open WalServer.Lib

/-- Why a call on the storage fails: an answer of raft's `StorageError`, a message
that the protobuf library does not write, or a text of this repository. -/
inductive StorageError where
  | compacted
  | unavailable
  | protobuf
  | message (text : String)
deriving DecidableEq, Repr

/-- What the storage keeps, in memory and in its file. -/
structure PersistentState where
  hardState : HardState
  confState : ConfState
  entries : List LogEntry
  snapshot : Snapshot
deriving DecidableEq, Repr

namespace PersistentState

/-- The index of the first entry the log still has. -/
def firstIndex (s : PersistentState) : Nat :=
  match s.entries.head? with
  | some entry => entry.index
  | none       => s.snapshot.metadata.index + 1

/-- The index of the last entry the log has. -/
def lastIndex (s : PersistentState) : Nat :=
  match s.entries.getLast? with
  | some entry => entry.index
  | none       => s.snapshot.metadata.index

/-- The term of the entry at an index. An index below the last one that the
entries do not reach is an index out of range. -/
def term (s : PersistentState) (idx : Nat) : Outcome StorageError Nat :=
  if idx = s.snapshot.metadata.index then .ok s.snapshot.metadata.term
  else
    let first := s.firstIndex
    if idx < first - 1 then .err .compacted
    else if idx < first then .ok s.snapshot.metadata.term
    else if s.lastIndex < idx then .err .unavailable
    else
      match s.entries[idx - first]? with
      | some entry => .ok entry.term
      | none       => .panic

/-- The state a fresh storage starts with: one entry, which is committed. -/
def bootstrap (confState : ConfState) : PersistentState where
  hardState := ⟨1, 0, 1⟩
  confState := confState
  entries := [⟨.entryNormal, 1, 1, []⟩]
  snapshot := ⟨[], ⟨confState, 0, 0⟩⟩

/-- `append` on the state: entries from the first new index on are replaced. -/
def extend (s : PersistentState) (first : LogEntry) (ents : List LogEntry) : PersistentState :=
  { s with
    entries :=
      (if first.index ≤ s.lastIndex then s.entries.take (first.index - s.firstIndex)
        else s.entries) ++ ents }

/-- `apply_snapshot` on the state: the snapshot replaces the log. -/
def restore (s : PersistentState) (snapshot : Snapshot) : PersistentState where
  snapshot := snapshot
  confState := snapshot.metadata.confState
  hardState := { s.hardState with
    commit := snapshot.metadata.index
    term := max s.hardState.term snapshot.metadata.term }
  entries := []

/-- What the file has room for. A message is at least as long as its data, and one of
2^32 bytes or more is not written; the entries are counted in 32 bits. More entries than
that, whose number the source would cut off, are not written here either. -/
structure Fits (s : PersistentState) : Prop where
  snapshot : s.snapshot.data.length < 2 ^ 32
  entries : ∀ entry ∈ s.entries, entry.data.length < 2 ^ 32
  count : s.entries.length < 2 ^ 32

instance (s : PersistentState) : Decidable s.Fits :=
  decidable_of_iff (s.snapshot.data.length < 2 ^ 32 ∧
      (∀ entry ∈ s.entries, entry.data.length < 2 ^ 32) ∧ s.entries.length < 2 ^ 32)
    ⟨fun ⟨snapshot, entries, count⟩ => ⟨snapshot, entries, count⟩,
      fun h => ⟨h.snapshot, h.entries, h.count⟩⟩

end PersistentState

/-- The storage: the state in memory, and what its file has held. -/
structure PersistentStorage where
  state : PersistentState
  written : List PersistentState
deriving DecidableEq, Repr

namespace PersistentStorage

/-- What a call leaves of the storage, and how it ends. -/
abbrev Call := PersistentStorage × Outcome StorageError Unit

/-- The `?` operator between two calls. -/
def Call.andThen (call : Call) (next : PersistentStorage → Call) : Call :=
  match call with
  | (s, .ok ())  => next s
  | (s, failure) => (s, failure)

/-- Replaces the file by the state in memory, if it has room for it. -/
def persist (s : PersistentStorage) : Call :=
  if s.state.Fits then ({ s with written := s.written ++ [s.state] }, .ok ())
  else (s, .err .protobuf)

/-- Reads the state back from its file, or starts with a fresh one, which fits
(`persist_bootstrap`). -/
def openStorage (file : Option PersistentState) (confState : ConfState) : PersistentStorage :=
  match file with
  | some loaded => ⟨loaded, [loaded]⟩
  | none        => (persist ⟨.bootstrap confState, []⟩).1

/-- Stores a hard state. -/
def setHardstate (s : PersistentStorage) (hs : HardState) : Call :=
  persist { s with state := { s.state with hardState := hs } }

/-- Appends entries, replacing what the log has from their first index on. -/
def append (s : PersistentStorage) : List LogEntry → Call
  | []            => (s, .ok ())
  | first :: rest =>
      if first.index < s.state.firstIndex then
        (s, .err (.message "attempted to overwrite compacted raft entries"))
      else persist { s with state := s.state.extend first (first :: rest) }

/-- Installs a snapshot that came from another node. -/
def applySnapshot (s : PersistentStorage) (snapshot : Snapshot) : Call :=
  persist { s with state := s.state.restore snapshot }

/-- Stores a snapshot of the own state machine. -/
def createSnapshot (s : PersistentStorage) (index : Nat) (data : Bytes) : Call :=
  match s.state.term index with
  | .ok term => persist { s with
      state := { s.state with snapshot := ⟨data, ⟨s.state.confState, index, term⟩⟩ } }
  | .err e   => (s, .err e)
  | .panic   => (s, .panic)

/-- Drops the entries below an index. Draining more entries than there are is a
panic. -/
def compact (s : PersistentStorage) (compactIndex : Nat) : Call :=
  if compactIndex ≤ s.state.firstIndex then (s, .ok ())
  else if s.state.lastIndex + 1 < compactIndex then
    (s, .err (.message "compact index beyond last raft log index"))
  else if s.state.entries.length < compactIndex - s.state.firstIndex then (s, .panic)
  else
    persist { s with state := { s.state with
      entries := s.state.entries.drop (compactIndex - s.state.firstIndex) } }

/-- The index of the stored snapshot. -/
def snapshotIndex (s : PersistentStorage) : Nat := s.state.snapshot.metadata.index

/-- Stores the hard state of a `Ready`, if it has one. -/
def storeHs (s : PersistentStorage) : Option HardState → Call
  | some hs => s.setHardstate hs
  | none    => (s, .ok ())

/-- What `drive_ready` stores before the entries: the hard state, then the
snapshot. -/
def storeBeforeEntries (s : PersistentStorage) (ready : Ready) : Call :=
  if ready.snapshot.isEmpty then s.storeHs ready.hs
  else (s.storeHs ready.hs).andThen fun s' => s'.applySnapshot ready.snapshot

/-- The part of `drive_ready` that stores. -/
def storeReady (s : PersistentStorage) (ready : Ready) : Call :=
  if ready.entries = [] then s.storeBeforeEntries ready
  else (s.storeBeforeEntries ready).andThen fun s' => s'.append ready.entries

/-- How many entries must be applied before the next snapshot. -/
def snapshotInterval : Nat := 64

/-- `maybe_snapshot_raft_state` on the storage: stores a snapshot of the given
data and drops the log below it. -/
def maybeSnapshot (s : PersistentStorage) (applied : Nat) (data : Bytes) : Call :=
  if s.snapshotIndex + snapshotInterval ≤ applied then
    (s.createSnapshot applied data).andThen fun s' => s'.compact (applied + 1)
  else (s, .ok ())

end PersistentStorage

/-! ### Contiguous logs -/

/-- Entries with consecutive indexes from a given one on. -/
def ConsecutiveFrom : Nat → List LogEntry → Prop
  | _,     []        => True
  | index, e :: rest => e.index = index ∧ ConsecutiveFrom (index + 1) rest

instance ConsecutiveFrom.decidable : ∀ index ents, Decidable (ConsecutiveFrom index ents)
  | _,     []        => isTrue trivial
  | index, _ :: rest => @instDecidableAnd _ _ _ (ConsecutiveFrom.decidable (index + 1) rest)

theorem ConsecutiveFrom.append {index : Nat} {ents ents' : List LogEntry}
    (h : ConsecutiveFrom index ents) (h' : ConsecutiveFrom (index + ents.length) ents') :
    ConsecutiveFrom index (ents ++ ents') := by
  induction ents generalizing index with
  | nil => exact h'
  | cons e rest ih =>
      refine ⟨h.1, ih h.2 ?_⟩
      rwa [List.length_cons, ← Nat.add_assoc, Nat.add_right_comm] at h'

theorem ConsecutiveFrom.take {index : Nat} {ents : List LogEntry}
    (h : ConsecutiveFrom index ents) (n : Nat) : ConsecutiveFrom index (ents.take n) := by
  induction ents generalizing index n with
  | nil => simp [ConsecutiveFrom]
  | cons e rest ih =>
      cases n with
      | zero => exact trivial
      | succ n => exact ⟨h.1, ih h.2 n⟩

theorem ConsecutiveFrom.drop {index : Nat} {ents : List LogEntry}
    (h : ConsecutiveFrom index ents) (n : Nat) : ConsecutiveFrom (index + n) (ents.drop n) := by
  induction ents generalizing index n with
  | nil => simp [ConsecutiveFrom]
  | cons e rest ih =>
      cases n with
      | zero => exact h
      | succ n =>
          have hrest := ih h.2 n
          rwa [Nat.add_assoc, Nat.add_comm 1 n] at hrest

/-- The last of some entries with consecutive indexes. -/
theorem ConsecutiveFrom.getLast? {index : Nat} {ents : List LogEntry}
    (h : ConsecutiveFrom index ents) {e : LogEntry} (he : ents.getLast? = some e) :
    e.index + 1 = index + ents.length := by
  induction ents generalizing index with
  | nil => cases he
  | cons e' rest ih =>
      rw [List.length_cons]
      cases rest with
      | nil =>
          cases he
          show e'.index + 1 = index + 1
          rw [h.1]
      | cons e'' rest =>
          rw [List.getLast?_cons_cons] at he
          have hlast := ih h.2 he
          omega

namespace PersistentState

variable {s : PersistentState}

/-- The entries of the log have consecutive indexes. -/
def Contiguous (s : PersistentState) : Prop := ConsecutiveFrom s.firstIndex s.entries

instance (s : PersistentState) : Decidable s.Contiguous :=
  inferInstanceAs (Decidable (ConsecutiveFrom s.firstIndex s.entries))

/-- The last index of a contiguous log, by its first one. -/
theorem Contiguous.lastIndex_add_one (h : s.Contiguous) :
    s.lastIndex + 1 = s.firstIndex + s.entries.length := by
  unfold lastIndex
  cases hlast : s.entries.getLast? with
  | none =>
      have hnil := List.getLast?_eq_none_iff.mp hlast
      simp [firstIndex, hnil]
  | some e => exact ConsecutiveFrom.getLast? h hlast

/-- The first index of a log that has entries. -/
theorem firstIndex_of_consecutiveFrom {index : Nat} (h : ConsecutiveFrom index s.entries)
    (hne : s.entries ≠ []) : s.firstIndex = index := by
  unfold firstIndex
  cases hentries : s.entries with
  | nil => exact absurd hentries hne
  | cons e rest =>
      rw [hentries] at h
      exact h.1

/-- Entries with consecutive indexes make a contiguous log. -/
theorem contiguous_of_consecutiveFrom {index : Nat} (h : ConsecutiveFrom index s.entries) :
    s.Contiguous := by
  unfold Contiguous
  by_cases hnil : s.entries = []
  · rw [hnil]
    exact trivial
  · rwa [firstIndex_of_consecutiveFrom h hnil]

/-- **Appending.** Entries that start within the log, or right behind it, leave
its first index and end it with their last. -/
theorem Contiguous.extend (h : s.Contiguous) {first : LogEntry} {rest : List LogEntry}
    (hents : ConsecutiveFrom first.index (first :: rest)) (hlow : s.firstIndex ≤ first.index)
    (hhigh : first.index ≤ s.lastIndex + 1) :
    (s.extend first (first :: rest)).Contiguous ∧
      (s.extend first (first :: rest)).firstIndex = s.firstIndex ∧
      (s.extend first (first :: rest)).lastIndex + 1 = first.index + (rest.length + 1) := by
  have hlast := h.lastIndex_add_one
  -- Whether the log is cut or not, what is kept reaches up to the first new entry.
  have hkept : ∃ kept, (s.extend first (first :: rest)).entries = kept ++ first :: rest ∧
      ConsecutiveFrom s.firstIndex kept ∧ s.firstIndex + kept.length = first.index := by
    unfold PersistentState.extend
    by_cases hcut : first.index ≤ s.lastIndex
    · refine ⟨s.entries.take (first.index - s.firstIndex), ?_, ConsecutiveFrom.take h _, ?_⟩
      · simp only [if_pos hcut]
      · rw [List.length_take]
        omega
    · exact ⟨s.entries, by simp only [if_neg hcut], h, by omega⟩
  obtain ⟨kept, hentries, hcons, hlength⟩ := hkept
  have hall : ConsecutiveFrom s.firstIndex (s.extend first (first :: rest)).entries := by
    rw [hentries]
    exact hcons.append (by rwa [hlength])
  have hcontiguous := contiguous_of_consecutiveFrom hall
  have hfirst := firstIndex_of_consecutiveFrom hall (by rw [hentries]; simp)
  refine ⟨hcontiguous, hfirst, ?_⟩
  rw [hcontiguous.lastIndex_add_one, hfirst, hentries, List.length_append, List.length_cons]
  omega

/-- **Compacting** up to the index of the snapshot leaves the log from there on. -/
theorem Contiguous.compact (h : s.Contiguous) {compactIndex : Nat}
    (hlow : s.firstIndex ≤ compactIndex) (hhigh : compactIndex ≤ s.lastIndex + 1)
    (hsnapshot : s.snapshot.metadata.index + 1 = compactIndex) :
    ({ s with entries := s.entries.drop (compactIndex - s.firstIndex) } :
        PersistentState).Contiguous ∧
      ({ s with entries := s.entries.drop (compactIndex - s.firstIndex) } :
        PersistentState).firstIndex = compactIndex ∧
      ({ s with entries := s.entries.drop (compactIndex - s.firstIndex) } :
        PersistentState).lastIndex = s.lastIndex := by
  have hlast := h.lastIndex_add_one
  have hall : ConsecutiveFrom compactIndex (s.entries.drop (compactIndex - s.firstIndex)) := by
    have hdrop := ConsecutiveFrom.drop h (compactIndex - s.firstIndex)
    rwa [Nat.add_sub_cancel' hlow] at hdrop
  have hcontiguous := contiguous_of_consecutiveFrom
    (s := { s with entries := s.entries.drop (compactIndex - s.firstIndex) }) hall
  have hfirst : ({ s with entries := s.entries.drop (compactIndex - s.firstIndex) } :
      PersistentState).firstIndex = compactIndex := by
    by_cases hnil : s.entries.drop (compactIndex - s.firstIndex) = []
    · -- Nothing is left, so the first index is the one behind the snapshot.
      rw [PersistentState.firstIndex, hnil]
      exact hsnapshot
    · exact firstIndex_of_consecutiveFrom hall hnil
  have hend := hcontiguous.lastIndex_add_one
  rw [hfirst, List.length_drop] at hend
  exact ⟨hcontiguous, hfirst, by omega⟩

/-- **Terms.** A contiguous log knows the term of every index from the one before
its first entry to its last. -/
theorem Contiguous.term_eq_ok (h : s.Contiguous) {idx : Nat} (hlow : s.firstIndex - 1 ≤ idx)
    (hhigh : idx ≤ s.lastIndex) : ∃ t, s.term idx = .ok t := by
  have hlast := h.lastIndex_add_one
  unfold term
  by_cases hsnapshot : idx = s.snapshot.metadata.index
  · exact ⟨_, by rw [if_pos hsnapshot]⟩
  · rw [if_neg hsnapshot]
    simp only
    rw [if_neg (by omega)]
    by_cases hbefore : idx < s.firstIndex
    · exact ⟨_, by rw [if_pos hbefore]⟩
    · have hlt : idx - s.firstIndex < s.entries.length := by omega
      rw [if_neg hbefore, if_neg (by omega), List.getElem?_eq_getElem hlt]
      exact ⟨_, rfl⟩

/-- Below that the log has been compacted, unless the snapshot ends there. -/
theorem term_eq_compacted {idx : Nat} (hlow : idx < s.firstIndex - 1)
    (hsnapshot : idx ≠ s.snapshot.metadata.index) : s.term idx = .err .compacted := by
  unfold term
  rw [if_neg hsnapshot]
  simp only
  rw [if_pos hlow]

/-- A snapshot of the own state machine does not move the ends of a log that has
entries. -/
theorem Contiguous.snapshot (h : s.Contiguous) (hne : s.entries ≠ []) (snapshot : Snapshot) :
    ({ s with snapshot := snapshot } : PersistentState).Contiguous ∧
      ({ s with snapshot := snapshot } : PersistentState).firstIndex = s.firstIndex ∧
      ({ s with snapshot := snapshot } : PersistentState).lastIndex = s.lastIndex := by
  have hentries : ConsecutiveFrom s.firstIndex s.entries := h
  have hcontiguous := contiguous_of_consecutiveFrom (s := { s with snapshot := snapshot }) hentries
  have hfirst : ({ s with snapshot := snapshot } : PersistentState).firstIndex = s.firstIndex :=
    firstIndex_of_consecutiveFrom hentries hne
  have hafter := hcontiguous.lastIndex_add_one
  have hbefore := h.lastIndex_add_one
  rw [hfirst] at hafter
  exact ⟨hcontiguous, hfirst, Nat.succ.inj (hafter.trans hbefore.symm)⟩

end PersistentState

/-! ### What a `Ready` does to the log -/

namespace PersistentState

/-- The state before the entries of a `Ready` are appended. -/
def beforeEntries (s : PersistentState) (ready : Ready) : PersistentState :=
  if ready.snapshot.isEmpty then { s with hardState := ready.hs.getD s.hardState }
  else ({ s with hardState := ready.hs.getD s.hardState } : PersistentState).restore ready.snapshot

/-- The state once a `Ready` is stored as a whole. -/
def stored (s : PersistentState) (ready : Ready) : PersistentState :=
  match ready.entries with
  | []            => s.beforeEntries ready
  | first :: rest => (s.beforeEntries ready).extend first (first :: rest)

end PersistentState

/-- Where the log ends once a `Ready`'s snapshot is stored. -/
def lastBeforeEntries (s : PersistentState) (ready : Ready) : Nat :=
  if ready.snapshot.isEmpty then s.lastIndex else ready.snapshot.metadata.index

/-- Where the log ends once a `Ready` is stored as a whole. -/
def lastAfter (s : PersistentState) (ready : Ready) : Nat :=
  (ready.entries.getLast?.map LogEntry.index).getD (lastBeforeEntries s ready)

/-- The entries of a `Ready` have consecutive indexes; they start behind its
snapshot, or within the log or right behind it. -/
def EntriesFit (s : PersistentState) (ready : Ready) : Prop :=
  match ready.entries with
  | []            => True
  | first :: rest => ConsecutiveFrom first.index (first :: rest) ∧
      (if ready.snapshot.isEmpty then s.firstIndex ≤ first.index
        else ready.snapshot.metadata.index < first.index) ∧
      first.index ≤ lastBeforeEntries s ready + 1

instance (s : PersistentState) (ready : Ready) : Decidable (EntriesFit s ready) := by
  unfold EntriesFit
  split <;> infer_instance

/-- The entries of a `Ready` end behind its snapshot and behind where they start. -/
theorem lastBeforeEntries_le_lastAfter {s : PersistentState} {ready : Ready}
    (h : EntriesFit s ready) (hfull : ready.snapshot.isEmpty = false) :
    lastBeforeEntries s ready ≤ lastAfter s ready := by
  unfold EntriesFit at h
  unfold lastAfter
  cases hents : ready.entries with
  | nil => exact Nat.le_refl _
  | cons first rest =>
      rw [hents] at h
      obtain ⟨hcons, hlow, -⟩ := h
      obtain ⟨e, he⟩ : ∃ e, (first :: rest).getLast? = some e :=
        ⟨_, List.getLast?_eq_getLast_of_ne_nil (List.cons_ne_nil first rest)⟩
      have hend := hcons.getLast? he
      rw [hfull, if_neg (by decide)] at hlow
      rw [List.length_cons] at hend
      rw [he, lastBeforeEntries, hfull, if_neg (by decide)]
      show ready.snapshot.metadata.index ≤ e.index
      omega

namespace PersistentState

variable {s : PersistentState}

/-- The entries of a `Ready` do not start before the log that they are appended to. -/
theorem firstIndex_beforeEntries_le {ready : Ready} (hentries : EntriesFit s ready)
    {first : LogEntry} {rest : List LogEntry} (hents : ready.entries = first :: rest) :
    (s.beforeEntries ready).firstIndex ≤ first.index := by
  unfold EntriesFit at hentries
  rw [hents] at hentries
  obtain ⟨-, hlow, -⟩ := hentries
  unfold beforeEntries
  split
  · rename_i hempty
    rw [if_pos hempty] at hlow
    exact hlow
  · rename_i hfull
    rw [if_neg hfull] at hlow
    exact hlow

/-- **Storing a `Ready`** whose entries fit the log, and what it leaves. -/
theorem Contiguous.stored (h : s.Contiguous) {ready : Ready} (hentries : EntriesFit s ready) :
    (s.stored ready).Contiguous ∧
      (s.stored ready).firstIndex =
        (if ready.snapshot.isEmpty then s.firstIndex else ready.snapshot.metadata.index + 1) ∧
      (s.stored ready).lastIndex = lastAfter s ready ∧
      (s.stored ready).hardState.commit =
        (if ready.snapshot.isEmpty then (ready.hs.getD s.hardState).commit
          else ready.snapshot.metadata.index) ∧
      (s.stored ready).snapshot =
        (if ready.snapshot.isEmpty then s.snapshot else ready.snapshot) := by
  -- The state before the entries: the log as it was, or an empty one behind the snapshot.
  obtain ⟨hcontiguous, hfirst, hlast, hcommit, hsnapshot⟩ :
      (s.beforeEntries ready).Contiguous ∧
      (s.beforeEntries ready).firstIndex =
        (if ready.snapshot.isEmpty then s.firstIndex else ready.snapshot.metadata.index + 1) ∧
      (s.beforeEntries ready).lastIndex = lastBeforeEntries s ready ∧
      (s.beforeEntries ready).hardState.commit =
        (if ready.snapshot.isEmpty then (ready.hs.getD s.hardState).commit
          else ready.snapshot.metadata.index) ∧
      (s.beforeEntries ready).snapshot =
        (if ready.snapshot.isEmpty then s.snapshot else ready.snapshot) := by
    unfold beforeEntries lastBeforeEntries
    split
    · exact ⟨h, rfl, rfl, rfl, rfl⟩
    · exact ⟨trivial, rfl, rfl, rfl, rfl⟩
  have hfits := hentries
  unfold EntriesFit at hfits
  unfold PersistentState.stored lastAfter
  cases hents : ready.entries with
  | nil => exact ⟨hcontiguous, hfirst, hlast, hcommit, hsnapshot⟩
  | cons first rest =>
      have hfrom := firstIndex_beforeEntries_le hentries hents
      rw [hents] at hfits
      obtain ⟨hcons, -, hhigh⟩ := hfits
      obtain ⟨hcontiguous', hfirst', hlast'⟩ :=
        hcontiguous.extend hcons hfrom (by rw [hlast]; exact hhigh)
      obtain ⟨e, he⟩ : ∃ e, (first :: rest).getLast? = some e :=
        ⟨_, List.getLast?_eq_getLast_of_ne_nil (List.cons_ne_nil first rest)⟩
      have hend := hcons.getLast? he
      rw [List.length_cons] at hend
      rw [he]
      refine ⟨hcontiguous', hfirst'.trans hfirst, ?_, hcommit, hsnapshot⟩
      show ((s.beforeEntries ready).extend first (first :: rest)).lastIndex = e.index
      omega

/-- What has room as a whole has room before the entries. -/
theorem Fits.beforeEntries (h : s.Fits) {ready : Ready} (hstored : (s.stored ready).Fits) :
    (s.beforeEntries ready).Fits := by
  have hsnapshot : (s.stored ready).snapshot = (s.beforeEntries ready).snapshot := by
    unfold PersistentState.stored
    split <;> rfl
  have hdata := hstored.snapshot
  rw [hsnapshot] at hdata
  unfold PersistentState.beforeEntries at hdata ⊢
  split
  · exact ⟨h.snapshot, h.entries, h.count⟩
  · rename_i hfull
    rw [if_neg hfull] at hdata
    exact ⟨hdata, fun entry hentry => absurd hentry List.not_mem_nil, Nat.two_pow_pos 32⟩

end PersistentState

/-! ### What a call leaves -/

namespace PersistentStorage

variable {s s' : PersistentStorage} {p q : PersistentState}

/-- The storage holds a state, in memory or in one of the contents of its file. -/
def Held (s : PersistentStorage) (p : PersistentState) : Prop := p = s.state ∨ p ∈ s.written

/-- What a storage holds whose file has had one state. -/
theorem held_single (h : (⟨p, [p]⟩ : PersistentStorage).Held q) : q = p :=
  h.elim (fun heq => heq) List.mem_singleton.mp

/-- Two calls that succeed, one after the other. -/
theorem Call.andThen_eq_ok {call : Call} {next : PersistentStorage → Call} :
    call.andThen next = (s', .ok ()) ↔ ∃ s₁, call = (s₁, .ok ()) ∧ next s₁ = (s', .ok ()) := by
  rcases call with ⟨s₁, _ | _ | _⟩ <;> simp [Call.andThen]

/-- Whichever call fails, what is held is what one of them leaves. -/
theorem Call.held_andThen {call : Call} {next : PersistentStorage → Call}
    (h : (call.andThen next).1.Held p) :
    call.1.Held p ∨ ∃ s₁, call = (s₁, .ok ()) ∧ (next s₁).1.Held p := by
  rcases call with ⟨s₁, _ | _ | _⟩
  · exact Or.inr ⟨s₁, rfl, h⟩
  · exact Or.inl h
  · exact Or.inl h

@[simp] theorem state_persist (s : PersistentStorage) : s.persist.1.state = s.state := by
  unfold persist
  split <;> rfl

/-- A state that the file has room for is written. -/
theorem persist_of_fits (h : s.state.Fits) :
    s.persist = ({ s with written := s.written ++ [s.state] }, .ok ()) := if_pos h

/-- What is written had room. -/
theorem persist_eq_ok (h : s.persist = (s', .ok ())) :
    s.state.Fits ∧ s' = { s with written := s.written ++ [s.state] } := by
  unfold persist at h
  split at h
  · rename_i hfits
    cases h
    exact ⟨hfits, rfl⟩
  · cases h

/-- A state is written, or the protobuf library has refused it. -/
theorem persist_cases (s : PersistentStorage) :
    s.persist.2 = .ok () ∨ s.persist.2 = .err .protobuf := by
  unfold persist
  split
  · exact Or.inl rfl
  · exact Or.inr rfl

/-- The state of a fresh storage is written. -/
theorem persist_bootstrap (confState : ConfState) :
    persist ⟨.bootstrap confState, []⟩ =
      (⟨.bootstrap confState, [.bootstrap confState]⟩, .ok ()) := rfl

theorem held_persist : s.persist.1.Held p ↔ s.Held p := by
  unfold persist Held
  split
  · show p = s.state ∨ p ∈ s.written ++ [s.state] ↔ _
    rw [List.mem_append, List.mem_singleton]
    tauto
  · rfl

/-- What is held after a change of the state. -/
theorem held_change (h : (persist { s with state := q }).1.Held p) : s.Held p ∨ p = q :=
  (held_persist.mp h).elim Or.inr fun hwritten => Or.inl (Or.inr hwritten)

/-- An appended log is held beside what was. -/
theorem held_append {ents : List LogEntry} (hp : (s.append ents).1.Held p) :
    s.Held p ∨ ∃ first rest, ents = first :: rest ∧ s.state.firstIndex ≤ first.index ∧
      p = s.state.extend first ents := by
  cases ents with
  | nil => exact Or.inl hp
  | cons first rest =>
      rw [append] at hp
      split at hp
      · exact Or.inl hp
      · rename_i hlow
        exact (held_change hp).imp_right fun heq => ⟨first, rest, rfl, Nat.not_lt.mp hlow, heq⟩

/-- The hard state of a `Ready` is held once it is stored. -/
theorem held_storeHs {hs : Option HardState} (hp : (s.storeHs hs).1.Held p) :
    s.Held p ∨ ∃ hs' ∈ hs, p = { s.state with hardState := hs' } := by
  cases hs with
  | none => exact Or.inl hp
  | some hs => exact (held_change hp).imp_right fun heq => ⟨hs, rfl, heq⟩

/-- The state once the hard state of a `Ready` is stored. -/
theorem state_storeHs {hs : Option HardState} {result : Outcome StorageError Unit}
    (h : s.storeHs hs = (s', result)) :
    s'.state = { s.state with hardState := hs.getD s.state.hardState } := by
  rw [show s' = (s.storeHs hs).1 by rw [h]]
  cases hs with
  | none => rfl
  | some hs => exact state_persist _

/-- What is held before the entries of a `Ready` are appended. -/
theorem held_storeBeforeEntries {ready : Ready} (hp : (s.storeBeforeEntries ready).1.Held p) :
    s.Held p ∨ (∃ hs ∈ ready.hs, p = { s.state with hardState := hs }) ∨
      p = s.state.beforeEntries ready := by
  rw [← or_assoc]
  unfold storeBeforeEntries at hp
  split at hp
  · exact Or.inl (held_storeHs hp)
  · rename_i hfull
    rcases Call.held_andThen hp with hhs | ⟨s₁, hcall, hsnapshot⟩
    · exact Or.inl (held_storeHs hhs)
    · have hstate := state_storeHs hcall
      rcases held_change hsnapshot with hhs | rfl
      · exact Or.inl (held_storeHs (by rw [hcall]; exact hhs))
      · refine Or.inr ?_
        unfold PersistentState.beforeEntries
        rw [if_neg hfull]
        exact congrArg (PersistentState.restore · ready.snapshot) hstate

/-- The state before the entries, if nothing has failed. -/
theorem state_storeBeforeEntries {ready : Ready}
    (h : s.storeBeforeEntries ready = (s', .ok ())) :
    s'.state = s.state.beforeEntries ready := by
  unfold storeBeforeEntries at h
  unfold PersistentState.beforeEntries
  split at h
  · rename_i hempty
    rw [if_pos hempty, state_storeHs h]
  · rename_i hfull
    obtain ⟨s₁, hcall, hsnapshot⟩ := Call.andThen_eq_ok.mp h
    obtain ⟨-, rfl⟩ := persist_eq_ok hsnapshot
    rw [if_neg hfull, ← state_storeHs hcall]

theorem storeReady_eq (s : PersistentStorage) (ready : Ready) :
    s.storeReady ready =
      (s.storeBeforeEntries ready).andThen fun s' => s'.append ready.entries := by
  unfold storeReady
  cases ready.entries with
  | nil => rcases s.storeBeforeEntries ready with ⟨s₁, _ | _ | _⟩ <;> rfl
  | cons first rest => rw [if_neg (List.cons_ne_nil _ _)]

/-- **What is held once a `Ready` is stored**, or as much of it as could be: the hard
state by itself, the state before the entries, and the whole. -/
theorem held_storeReady {ready : Ready} (hp : (s.storeReady ready).1.Held p) :
    s.Held p ∨ (∃ hs ∈ ready.hs, p = { s.state with hardState := hs }) ∨
      p = s.state.beforeEntries ready ∨ p = s.state.stored ready := by
  have hbefore : (s.storeBeforeEntries ready).1.Held p → s.Held p ∨
      (∃ hs ∈ ready.hs, p = { s.state with hardState := hs }) ∨
      p = s.state.beforeEntries ready ∨ p = s.state.stored ready := fun hheld =>
    (held_storeBeforeEntries hheld).imp_right (Or.imp_right Or.inl)
  rw [storeReady_eq] at hp
  rcases Call.held_andThen hp with hfailed | ⟨s₁, hcall, happended⟩
  · exact hbefore hfailed
  · rcases held_append happended with hheld | ⟨first, rest, hents, -, rfl⟩
    · exact hbefore (by rw [hcall]; exact hheld)
    · refine Or.inr (Or.inr (Or.inr ?_))
      rw [state_storeBeforeEntries hcall, PersistentState.stored, hents]

/-- **What a `Ready` that is stored leaves in memory.** -/
theorem storeReady_eq_ok {ready : Ready} (h : s.storeReady ready = (s', .ok ())) :
    s'.state = s.state.stored ready := by
  rw [storeReady_eq] at h
  obtain ⟨s₁, hcall, happend⟩ := Call.andThen_eq_ok.mp h
  have hbefore := state_storeBeforeEntries hcall
  unfold PersistentState.stored
  cases hents : ready.entries with
  | nil =>
      rw [hents] at happend
      cases happend
      exact hbefore
  | cons first rest =>
      rw [hents, append] at happend
      split at happend
      · cases happend
      · obtain ⟨-, rfl⟩ := persist_eq_ok happend
        rw [← hbefore]

/-- The call that stores the hard state fails with the protobuf library alone. -/
theorem storeHs_cases (s : PersistentStorage) (hs : Option HardState) :
    (s.storeHs hs).2 = .ok () ∨ (s.storeHs hs).2 = .err .protobuf := by
  cases hs with
  | none => exact Or.inl rfl
  | some hs => exact persist_cases _

/-- **Storing a `Ready`** whose entries fit the log fails with the protobuf library alone. -/
theorem storeReady_cases {ready : Ready} (hentries : EntriesFit s.state ready) :
    (s.storeReady ready).2 = .ok () ∨ (s.storeReady ready).2 = .err .protobuf := by
  -- A failure of the first call is one of the second.
  have hthen : ∀ (call : Call) (next : PersistentStorage → Call),
      (call.2 = .ok () ∨ call.2 = .err .protobuf) →
      (∀ s₁, call = (s₁, .ok ()) → (next s₁).2 = .ok () ∨ (next s₁).2 = .err .protobuf) →
      (call.andThen next).2 = .ok () ∨ (call.andThen next).2 = .err .protobuf := by
    rintro ⟨s₁, result⟩ next (rfl | rfl) hnext
    · exact hnext s₁ rfl
    · exact Or.inr rfl
  rw [storeReady_eq]
  refine hthen _ _ ?_ fun s₁ hcall => ?_
  · unfold storeBeforeEntries
    split
    · exact storeHs_cases s ready.hs
    · exact hthen _ _ (storeHs_cases s ready.hs) fun s₁ _ => persist_cases _
  · cases hents : ready.entries with
    | nil => exact Or.inl rfl
    | cons first rest =>
        have hlow := PersistentState.firstIndex_beforeEntries_le hentries hents
        rw [← state_storeBeforeEntries hcall] at hlow
        rw [append, if_neg (Nat.not_lt.mpr hlow)]
        exact persist_cases _

/-- A hard state is stored where there was room before. -/
theorem storeHs_of_fits (h : s.state.Fits) (hs : Option HardState) :
    ∃ s₁, s.storeHs hs = (s₁, .ok ()) := by
  cases hs with
  | none => exact ⟨s, rfl⟩
  | some hs =>
      exact ⟨_, persist_of_fits (s := { s with state := { s.state with hardState := hs } })
        ⟨h.snapshot, h.entries, h.count⟩⟩

/-- **Storing a `Ready`** succeeds when its entries fit the log, and the file has room for
the whole. -/
theorem storeReady_ok (h : s.state.Fits) {ready : Ready} (hentries : EntriesFit s.state ready)
    (hroom : (s.state.stored ready).Fits) : ∃ s', s.storeReady ready = (s', .ok ()) := by
  obtain ⟨s₁, hhs⟩ := storeHs_of_fits h ready.hs
  obtain ⟨s₂, hbefore⟩ : ∃ s₂, s.storeBeforeEntries ready = (s₂, .ok ()) := by
    unfold storeBeforeEntries
    split
    · exact ⟨s₁, hhs⟩
    · rename_i hfull
      have hfits := h.beforeEntries hroom
      rw [PersistentState.beforeEntries, if_neg hfull, ← state_storeHs hhs] at hfits
      rw [hhs]
      exact ⟨_, persist_of_fits (s := { s₁ with state := s₁.state.restore ready.snapshot }) hfits⟩
  have hstate := state_storeBeforeEntries hbefore
  rw [storeReady_eq, hbefore]
  show ∃ s', s₂.append ready.entries = (s', .ok ())
  unfold PersistentState.stored at hroom
  cases hents : ready.entries with
  | nil => exact ⟨s₂, rfl⟩
  | cons first rest =>
      have hlow := PersistentState.firstIndex_beforeEntries_le hentries hents
      rw [hents] at hroom
      rw [← hstate] at hroom hlow
      rw [append, if_neg (Nat.not_lt.mpr hlow)]
      exact ⟨_, persist_of_fits
        (s := { s₂ with state := s₂.state.extend first (first :: rest) }) hroom⟩

/-! ### Snapshots of contiguous logs -/

/-- **A snapshot** of the own state machine is made at an index that the log has and that
is far enough beyond the last snapshot. -/
theorem createSnapshot_eq (h : s.state.Contiguous) {applied : Nat} (data : Bytes)
    (hdue : s.snapshotIndex + snapshotInterval ≤ applied) (hlow : s.state.firstIndex - 1 ≤ applied)
    (hhigh : applied ≤ s.state.lastIndex) :
    ∃ s' : PersistentStorage, s.createSnapshot applied data = s'.persist ∧
      s'.written = s.written ∧ s'.state.Contiguous ∧ s'.state.hardState = s.state.hardState ∧
      s'.state.firstIndex = s.state.firstIndex ∧ s'.state.lastIndex = s.state.lastIndex ∧
      s'.state.snapshot.metadata.index = applied ∧
      (s.state.Fits → data.length < 2 ^ 32 → s'.state.Fits) := by
  -- The log reaches beyond the stored snapshot, so it has entries.
  have hne : s.state.entries ≠ [] := by
    intro hnil
    have hlast : s.state.lastIndex = s.snapshotIndex := by
      unfold PersistentState.lastIndex
      rw [hnil]
      rfl
    unfold snapshotInterval at hdue
    omega
  obtain ⟨term, hterm⟩ := h.term_eq_ok hlow hhigh
  obtain ⟨hcontiguous, hfirst, hlast⟩ :=
    h.snapshot hne ⟨data, ⟨s.state.confState, applied, term⟩⟩
  unfold createSnapshot
  rw [hterm]
  exact ⟨{ s with state := { s.state with
    snapshot := ⟨data, ⟨s.state.confState, applied, term⟩⟩ } }, rfl, rfl, hcontiguous, rfl, hfirst,
    hlast, rfl, fun hfits hdata => ⟨hdata, hfits.entries, hfits.count⟩⟩

/-- **Compacting** behind the stored snapshot leaves the log from there on, which has room
where the whole had. -/
theorem compact_eq (h : s.state.Contiguous) {index : Nat}
    (hsnapshot : s.state.snapshot.metadata.index = index) (hlow : s.state.firstIndex ≤ index)
    (hhigh : index ≤ s.state.lastIndex) :
    ∃ s' : PersistentStorage, s.compact (index + 1) = s'.persist ∧
      s'.written = s.written ∧ s'.state.Contiguous ∧ s'.state.hardState = s.state.hardState ∧
      s'.state.firstIndex = index + 1 ∧ s'.state.lastIndex = s.state.lastIndex ∧
      s'.state.snapshot = s.state.snapshot ∧ (s.state.Fits → s'.state.Fits) := by
  have hends := h.lastIndex_add_one
  have hfrom : s.state.firstIndex ≤ index + 1 := by omega
  obtain ⟨hcontiguous, hfirst, hlast⟩ := h.compact hfrom (by omega) (by rw [hsnapshot])
  unfold compact
  rw [if_neg (by omega), if_neg (by omega), if_neg (by omega)]
  refine ⟨{ s with state := { s.state with
    entries := s.state.entries.drop (index + 1 - s.state.firstIndex) } }, rfl, rfl,
    hcontiguous, rfl, hfirst, hlast, rfl, fun hfits => ?_⟩
  refine ⟨hfits.snapshot, fun entry hentry => hfits.entries entry (List.mem_of_mem_drop hentry), ?_⟩
  exact Nat.lt_of_le_of_lt (List.length_drop ▸ Nat.sub_le _ _) hfits.count

/-- **A snapshot that is due** is stored and the log compacted behind it, or the snapshot is
too long for its message. -/
theorem maybeSnapshot_cases (h : s.state.Contiguous)
    (hcovered : s.state.firstIndex ≤ s.snapshotIndex + 1) {applied : Nat}
    (happlied : applied ≤ s.state.lastIndex) (data : Bytes) :
    (∃ s', s.maybeSnapshot applied data = (s', .ok ()) ∧ s'.state.Contiguous ∧
      s'.state.firstIndex ≤ s'.snapshotIndex + 1 ∧ s'.state.lastIndex = s.state.lastIndex ∧
      (s.state.Fits → s'.state.Fits)) ∨
    ((s.maybeSnapshot applied data).2 = .err .protobuf ∧
      (s.state.Fits → s.snapshotIndex + snapshotInterval ≤ applied ∧ 2 ^ 32 ≤ data.length)) := by
  unfold maybeSnapshot
  by_cases hdue : s.snapshotIndex + snapshotInterval ≤ applied
  · obtain ⟨s₁, hs₁, -, hcontiguous, -, hfirst, hlast, hsnapshot, hroom⟩ :=
      createSnapshot_eq h data hdue (by omega) happlied
    rw [if_pos hdue, hs₁]
    by_cases hfits : s₁.state.Fits
    · rw [persist_of_fits hfits]
      refine Or.inl ?_
      by_cases hshort : applied + 1 ≤ s₁.state.firstIndex
      · -- The log has nothing below the snapshot any more.
        refine ⟨_, if_pos hshort, hcontiguous, ?_, hlast, fun _ => hfits⟩
        show s₁.state.firstIndex ≤ s₁.state.snapshot.metadata.index + 1
        omega
      · obtain ⟨s₂, hs₂, -, hcontiguous', -, hfirst', hlast', hsnapshot', hroom'⟩ :=
          compact_eq (s := { s₁ with written := s₁.written ++ [s₁.state] }) hcontiguous hsnapshot
            (Nat.lt_succ_iff.mp (Nat.lt_of_not_le hshort)) (by rw [hlast]; exact happlied)
        rw [persist_of_fits (hroom' hfits)] at hs₂
        refine ⟨_, hs₂, hcontiguous', ?_, hlast'.trans hlast, fun _ => hroom' hfits⟩
        show s₂.state.firstIndex ≤ s₂.state.snapshot.metadata.index + 1
        rw [hsnapshot', hsnapshot, hfirst']
    · refine Or.inr ⟨?_, fun hbefore => ⟨hdue, Nat.le_of_not_lt fun hdata => ?_⟩⟩
      · rw [persist, if_neg hfits]
        rfl
      · exact hfits (hroom hbefore hdata)
  · rw [if_neg hdue]
    exact Or.inl ⟨s, rfl, h, hcovered, rfl, id⟩

end PersistentStorage

end WalServer.Raft
