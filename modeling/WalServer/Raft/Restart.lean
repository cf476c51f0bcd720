import WalServer.Lib.Transition
import WalServer.Raft.Storage

/-!
# `WalServer.Raft.Restart`: can a node start again from what it stored

A node refuses to start from a state whose commit index lies outside
`[first_index - 1, last_index]` (`Restartable`). The history of one node's
storage: the `Ready`s that `drive_ready` stores, the calls of
`maybe_snapshot_raft_state`, and crashes after any `persist` of the last call,
each followed by an opening.

`drive_ready` stores the hard state first. Its commit index may cover entries
that the same `Ready` carries, and until these are stored too the file cannot be
started from (`commit_before_entries`). The other way out of the range is to
compact the log up to raft's applied counter when the stored commit index is
behind it. `storePermitted` excludes both, exactly (`restartable_storeReady_iff`,
`restartable_maybeSnapshot_iff`), and in the histories it permits every state the
file has held can be started from (`written_restartable`).
-/

set_option autoImplicit false

namespace WalServer.Raft

open WalServer.Lib

/-- The range of commit indexes a raft node starts with. -/
def Restartable (s : PersistentState) : Prop :=
  s.firstIndex - 1 ≤ s.hardState.commit ∧ s.hardState.commit ≤ s.lastIndex

instance (s : PersistentState) : Decidable (Restartable s) := instDecidableAnd

/-! ### What raft promises of a `Ready` -/

/-- What the raft crate promises of a `Ready`: the commit index never goes back,
and never beyond the end of the log with what this `Ready` adds to it. -/
def ReadyContract (s : PersistentState) (ready : Ready) : Prop :=
  (∀ hs ∈ ready.hs, s.hardState.commit ≤ hs.commit) ∧
    (ready.hs.getD s.hardState).commit ≤ lastAfter s ready ∧ EntriesFit s ready

instance (s : PersistentState) (ready : Ready) : Decidable (ReadyContract s ready) :=
  instDecidableAnd

/-! ### The history of a storage -/

/-- A node's storage, raft's applied counter, how many states the file had held
before the last call, and whether the process still runs. -/
structure StoreHistory where
  storage : PersistentStorage
  applied : Nat
  before : Nat
  running : Bool
deriving DecidableEq, Repr

/-- A step of the history. -/
inductive StoreAction where
  | handleReady (ready : Ready)
  | maybeSnapshot (data : Bytes)
  | advance (applied : Nat)
  | crash (survivor : Nat)

namespace StoreHistory

/-- The history after a call; a call that fails ends the process. -/
def afterCall (h : StoreHistory) (call : PersistentStorage.Call) : StoreHistory :=
  { h with
    storage := call.1
    before := h.storage.written.length
    running := call.2.isOk }

/-- A new process over the state a crash left in the file, which is one of those
that the last call wrote or the one before it. Raft counts as applied what the
log no longer has. -/
def reopen (h : StoreHistory) (survivor : Nat) (loaded : PersistentState) : StoreHistory where
  storage := ⟨(PersistentStorage.openStorage (some loaded) loaded.confState).state,
    h.storage.written.take (survivor + 1)⟩
  applied := loaded.firstIndex - 1
  before := survivor + 1
  running := true

/-- The step function of the history. -/
def step (h : StoreHistory) : StoreAction → Option StoreHistory
  | .handleReady ready  =>
      if h.running = true ∧ ReadyContract h.storage.state ready then
        some (h.afterCall (h.storage.storeReady ready))
      else none
  | .maybeSnapshot data =>
      if h.running = true then some (h.afterCall (h.storage.maybeSnapshot h.applied data))
      else none
  | .advance applied    =>
      if h.running = true ∧ h.applied ≤ applied then some { h with applied := applied } else none
  | .crash survivor     =>
      match h.storage.written[survivor]? with
      | some loaded => if h.before ≤ survivor + 1 then some (h.reopen survivor loaded) else none
      | none        => none

end StoreHistory

/-- The history of a node that starts on a fresh directory. -/
def storeHistory (confState : ConfState) : System StoreHistory StoreAction where
  init := ⟨PersistentStorage.openStorage none confState, 0, 0, true⟩
  step := StoreHistory.step

/-- The condition on a step: a hard state's commit index lies within the log that
is stored before its `Ready`, and a snapshot is taken no further than the stored
commit index. -/
def storePermitted (h : StoreHistory) : StoreAction → Prop
  | .handleReady ready => ∀ hs ∈ ready.hs, hs.commit ≤ h.storage.state.lastIndex
  | .maybeSnapshot _   =>
      h.storage.snapshotIndex + PersistentStorage.snapshotInterval ≤ h.applied →
        h.applied ≤ h.storage.state.hardState.commit
  | _ => True

instance (h : StoreHistory) (a : StoreAction) : Decidable (storePermitted h a) := by
  unfold storePermitted
  split <;> infer_instance

/-! ### One call at a time -/

namespace PersistentState

variable {s : PersistentState}

/-- A state the invariant allows in the file. -/
structure Sound (s : PersistentState) : Prop where
  contiguous : s.Contiguous
  restartable : Restartable s

/-- The first index of a log that a snapshot has just replaced. -/
@[simp] theorem firstIndex_restore (snapshot : Snapshot) :
    (s.restore snapshot).firstIndex = snapshot.metadata.index + 1 := rfl

@[simp] theorem lastIndex_restore (snapshot : Snapshot) :
    (s.restore snapshot).lastIndex = snapshot.metadata.index := rfl

theorem sound_restore (snapshot : Snapshot) : (s.restore snapshot).Sound where
  contiguous := trivial
  restartable := ⟨Nat.le_refl _, Nat.le_refl _⟩

/-- A new hard state is sound exactly when its commit index is in the log. -/
theorem Sound.setHardstate (h : s.Sound) {hs : HardState}
    (hmono : s.hardState.commit ≤ hs.commit) :
    Restartable { s with hardState := hs } ↔ hs.commit ≤ s.lastIndex :=
  ⟨fun hr => hr.2, fun hle => ⟨h.restartable.1.trans hmono, hle⟩⟩

end PersistentState

namespace PersistentStorage

variable {s : PersistentStorage}

/-- The state in memory and every state the file has held are sound. -/
def Sound (s : PersistentStorage) : Prop := ∀ p, s.Held p → p.Sound

/-- **Storing a permitted `Ready`** leaves only states a node can start from. -/
theorem Sound.storeReady (h : s.Sound) {ready : Ready} (hcontract : ReadyContract s.state ready)
    (hok : ∀ hs ∈ ready.hs, hs.commit ≤ s.state.lastIndex) :
    (s.storeReady ready).1.Sound := by
  obtain ⟨hmono, hcommit, hentries⟩ := hcontract
  have hstate := h s.state (Or.inl rfl)
  obtain ⟨hcontiguous, hfirst, hlast, hhard, -⟩ := hstate.contiguous.stored hentries
  intro p hp
  rcases held_storeReady hp with hold | ⟨hs, hhs, rfl⟩ | rfl | rfl
  · exact h p hold
  · exact ⟨hstate.contiguous, (hstate.setHardstate (hmono hs hhs)).mpr (hok hs hhs)⟩
  · -- Before the entries there is the hard state by itself, or the snapshot.
    unfold PersistentState.beforeEntries
    split
    · cases hready : ready.hs with
      | none => exact hstate
      | some hs =>
          exact ⟨hstate.contiguous, (hstate.setHardstate (hmono hs hready)).mpr (hok hs hready)⟩
    · exact PersistentState.sound_restore _
  · -- In the end the commit index is the snapshot's or the hard state's, both in the log.
    refine ⟨hcontiguous, ?_⟩
    rw [Restartable, hfirst, hlast, hhard]
    split
    · refine ⟨?_, hcommit⟩
      cases hready : ready.hs with
      | none => exact hstate.restartable.1
      | some hs => exact hstate.restartable.1.trans (hmono hs hready)
    · rename_i hfull
      refine ⟨Nat.le_refl _, ?_⟩
      have hlow := lastBeforeEntries_le_lastAfter hentries (Bool.eq_false_iff.mpr hfull)
      rwa [lastBeforeEntries, if_neg hfull] at hlow

/-- A hard state that `drive_ready` stores is in the file before anything else of
its `Ready`. -/
theorem setHardstate_mem_written (hfits : s.state.Fits) {ready : Ready} {hs : HardState}
    (hhs : ready.hs = some hs) :
    { s.state with hardState := hs } ∈ (s.storeReady ready).1.written := by
  -- No later call takes it out of the file again.
  have hkeeps : ∀ {s₁ : PersistentStorage} {p : PersistentState}, p ∈ s₁.written →
      p ∈ s₁.persist.1.written := by
    intro s₁ p hp
    unfold PersistentStorage.persist
    split
    · exact List.mem_append_left _ hp
    · exact hp
  have hstored : s.storeHs ready.hs = (⟨{ s.state with hardState := hs },
      s.written ++ [{ s.state with hardState := hs }]⟩, .ok ()) := by
    rw [hhs]
    exact persist_of_fits (s := { s with state := { s.state with hardState := hs } })
      ⟨hfits.snapshot, hfits.entries, hfits.count⟩
  have hbefore : { s.state with hardState := hs } ∈ (s.storeBeforeEntries ready).1.written := by
    unfold PersistentStorage.storeBeforeEntries
    rw [hstored]
    split
    · exact List.mem_append_right _ List.mem_cons_self
    · exact hkeeps (List.mem_append_right _ List.mem_cons_self)
  rw [storeReady_eq]
  cases hcall : s.storeBeforeEntries ready with
  | mk s₁ result =>
      rw [hcall] at hbefore
      cases result with
      | err e => exact hbefore
      | panic => exact hbefore
      | ok u =>
          show _ ∈ (s₁.append ready.entries).1.written
          cases ready.entries with
          | nil => exact hbefore
          | cons first rest =>
              rw [append]
              split
              · exact hbefore
              · exact hkeeps hbefore

/-- **Exactly which `Ready`s are safe to store**: those whose commit index lies
within the log stored before. -/
theorem restartable_storeReady_iff (h : s.Sound) (hfits : s.state.Fits) {ready : Ready}
    (hcontract : ReadyContract s.state ready) :
    (∀ p ∈ (s.storeReady ready).1.written, Restartable p) ↔
      ∀ hs ∈ ready.hs, hs.commit ≤ s.state.lastIndex := by
  constructor
  · intro hall hs hhs
    exact ((h _ (Or.inl rfl)).setHardstate (hcontract.1 hs hhs)).mp
      (hall _ (setHardstate_mem_written hfits (Option.mem_def.mp hhs)))
  · intro hok p hp
    exact (h.storeReady hcontract hok p (Or.inr hp)).restartable

/-- **A permitted snapshot** leaves only states a node can start from. -/
theorem Sound.maybeSnapshot (h : s.Sound) {applied : Nat} (data : Bytes)
    (hok : s.snapshotIndex + snapshotInterval ≤ applied →
      applied ≤ s.state.hardState.commit) :
    (s.maybeSnapshot applied data).1.Sound := by
  have hstate := h s.state (Or.inl rfl)
  unfold PersistentStorage.maybeSnapshot
  by_cases hdue : s.snapshotIndex + snapshotInterval ≤ applied
  · obtain ⟨-, hhigh⟩ := hstate.restartable
    have hcommit := hok hdue
    rw [if_pos hdue]
    -- A snapshot below the first entry of the log cannot be made any more.
    by_cases hlow : s.state.firstIndex - 1 ≤ applied
    · obtain ⟨s', hs', hwritten, hcontiguous, hhard, hfirst, hlast, hsnapshot, -⟩ :=
        createSnapshot_eq hstate.contiguous data hdue hlow (hcommit.trans hhigh)
      have hnew : s'.state.Sound := by
        refine ⟨hcontiguous, ?_⟩
        rw [Restartable, hfirst, hlast, hhard]
        exact hstate.restartable
      have hsound : s'.Sound := fun p hp =>
        hp.elim (fun heq => heq ▸ hnew) fun hmem => h p (Or.inr (hwritten ▸ hmem))
      rw [hs']
      intro p hp
      rcases Call.held_andThen hp with hmade | ⟨s₁, hcall, hcompacted⟩
      · exact hsound p (held_persist.mp hmade)
      · obtain ⟨-, rfl⟩ := persist_eq_ok hcall
        have hsound₁ : PersistentStorage.Sound { s' with written := s'.written ++ [s'.state] } :=
          fun q hq => hsound q (hq.elim Or.inl fun hmem =>
            (List.mem_append.mp hmem).elim Or.inr fun hlast => Or.inl (List.mem_singleton.mp hlast))
        by_cases hshort : applied + 1 ≤ s'.state.firstIndex
        · rw [compact, if_pos hshort] at hcompacted
          exact hsound₁ p hcompacted
        · obtain ⟨s'', hs'', hwritten', hcontiguous', hhard', hfirst', hlast', -⟩ :=
            compact_eq (s := { s' with written := s'.written ++ [s'.state] }) hcontiguous hsnapshot
              (Nat.lt_succ_iff.mp (Nat.lt_of_not_le hshort))
              (by rw [hlast]; exact hcommit.trans hhigh)
          rw [hs''] at hcompacted
          rcases held_persist.mp hcompacted with rfl | hmem
          · refine ⟨hcontiguous', ?_⟩
            rw [Restartable, hfirst', hlast', hhard', hlast, hhard]
            exact ⟨hcommit, hhigh⟩
          · exact hsound₁ p (Or.inr (hwritten' ▸ hmem))
    · -- The log below the snapshot is gone already, and the call fails without writing.
      have hgone : s.state.term applied = .err .compacted :=
        PersistentState.term_eq_compacted (by omega) fun heq => by
          have hindex : s.snapshotIndex = applied := heq.symm
          unfold snapshotInterval at hdue
          omega
      unfold PersistentStorage.createSnapshot
      rw [hgone]
      exact h
  · rw [if_neg hdue]
    exact h

/-- **Exactly which snapshots are safe to take**, of those that the log reaches and that
the file has room for: those no further than the stored commit index. -/
theorem restartable_maybeSnapshot_iff (h : s.Sound) (hfits : s.state.Fits) {applied : Nat}
    {data : Bytes} (hdata : data.length < 2 ^ 32) (hreach : applied ≤ s.state.lastIndex) :
    (∀ p ∈ (s.maybeSnapshot applied data).1.written, Restartable p) ↔
      (s.snapshotIndex + snapshotInterval ≤ applied → applied ≤ s.state.hardState.commit) := by
  have hstate := h s.state (Or.inl rfl)
  constructor
  · intro hall hdue
    by_contra hbeyond
    have hrange := hstate.restartable.1
    obtain ⟨s', hs', -, hcontiguous, hhard, hfirst, hlast, hsnapshot, hroom⟩ :=
      createSnapshot_eq hstate.contiguous data hdue (by omega) hreach
    rw [persist_of_fits (hroom hfits hdata)] at hs'
    obtain ⟨s'', hs'', -, -, hhard', hfirst', -, -, hroom'⟩ :=
      compact_eq (s := { s' with written := s'.written ++ [s'.state] }) hcontiguous hsnapshot
        (by show s'.state.firstIndex ≤ applied; omega) (by show applied ≤ s'.state.lastIndex; omega)
    rw [persist_of_fits (hroom' (hroom hfits hdata))] at hs''
    -- What compacting leaves in the file starts behind the commit index.
    have hcall : s.maybeSnapshot applied data =
        ({ s'' with written := s''.written ++ [s''.state] }, .ok ()) := by
      unfold PersistentStorage.maybeSnapshot
      rw [if_pos hdue, hs']
      exact hs''
    have hlost := (hall s''.state (by
      rw [hcall]
      exact List.mem_append_right _ (List.mem_singleton.mpr rfl))).1
    rw [hfirst', hhard', hhard] at hlost
    omega
  · intro hok p hp
    exact (h.maybeSnapshot data hok p (Or.inr hp)).restartable

end PersistentStorage

/-! ### Every permitted history -/

theorem PersistentState.sound_bootstrap (confState : ConfState) :
    (PersistentState.bootstrap confState).Sound where
  contiguous := ⟨rfl, trivial⟩
  restartable := ⟨Nat.zero_le _, Nat.le_refl _⟩

/-- **Every permitted step keeps the file startable.** -/
theorem sound_step {h t : StoreHistory} {a : StoreAction} (hsound : h.storage.Sound)
    (hok : storePermitted h a) (hs : h.step a = some t) : t.storage.Sound := by
  cases a with
  | handleReady ready =>
      rw [StoreHistory.step] at hs
      split at hs
      · rename_i hguard
        cases hs
        exact hsound.storeReady hguard.2 hok
      · cases hs
  | maybeSnapshot data =>
      rw [StoreHistory.step] at hs
      split at hs
      · cases hs
        exact hsound.maybeSnapshot data hok
      · cases hs
  | advance applied =>
      rw [StoreHistory.step] at hs
      split at hs
      · cases hs
        exact hsound
      · cases hs
  -- What a crash leaves is one of the states that were written.
  | crash survivor =>
      rw [StoreHistory.step] at hs
      split at hs
      · rename_i loaded hloaded
        split at hs
        · cases hs
          have hkept := hsound loaded (Or.inr (List.mem_of_getElem? hloaded))
          exact fun p hp => hp.elim (fun heq => heq ▸ hkept)
            fun hmem => hsound p (Or.inr (List.mem_of_mem_take hmem))
        · cases hs
      · cases hs

/-- **A permitted history can be restarted after every `persist`**: whatever state
the file has held, `open` reads back one whose commit index is in its log. -/
theorem written_restartable {confState : ConfState} {h : StoreHistory}
    (hreach : (storeHistory confState).Reachable storePermitted h) :
    ∀ p ∈ h.storage.written, ∀ confState',
      Restartable (PersistentStorage.openStorage (some p) confState').state := by
  have hsound : h.storage.Sound := hreach.invariant
    (fun p hp => PersistentStorage.held_single hp ▸ PersistentState.sound_bootstrap confState)
    fun _ _ _ _ hsound hok hs => sound_step hsound hok hs
  exact fun p hp _ => (hsound p (Or.inr hp)).restartable

/-- The entries of term 2 with the given indexes. -/
def entriesOfTermTwo (first count : Nat) : List LogEntry :=
  (List.range' first count).map fun index => ⟨.entryNormal, 2, index, [1]⟩

/-- A permitted history with a snapshot: entries up to index 70, the commit index
behind them, a snapshot at 66, a crash before the log is compacted, and the next
`Ready` of the new process. -/
theorem written_restartable_snapshot :
    ∃ h, (storeHistory ⟨[1, 2, 3]⟩).Reachable storePermitted h ∧
      h.storage.snapshotIndex = 66 ∧ h.storage.state.lastIndex = 72 ∧
      ∀ p ∈ h.storage.written, ∀ confState',
        Restartable (PersistentStorage.openStorage (some p) confState').state := by
  obtain ⟨h, hreach, hindex, hlast⟩ :=
    System.exists_reachable_of_execute (storeHistory ⟨[1, 2, 3]⟩) storePermitted
      [.handleReady { Ready.empty with hs := some ⟨2, 0, 1⟩, entries := entriesOfTermTwo 2 69 },
        .handleReady { Ready.empty with hs := some ⟨2, 0, 68⟩ }, .advance 66, .maybeSnapshot [7],
        .crash 4, .handleReady { Ready.empty with entries := entriesOfTermTwo 71 2 }]
      (fun h => h.storage.snapshotIndex = 66 ∧ h.storage.state.lastIndex = 72)
      (by decide +kernel)
  exact ⟨h, hreach, hindex, hlast, written_restartable hreach⟩

/-- A follower gets two entries and their commit index in one `Ready`. The hard
state is stored first, and a crash then leaves a commit index of 3 over a log that
ends at 1. -/
theorem commit_before_entries :
    ∃ h, (storeHistory ⟨[1, 2, 3]⟩).Reachable System.anyStep h ∧
      ∃ p ∈ h.storage.written,
        ¬ Restartable (PersistentStorage.openStorage (some p) ⟨[1, 2, 3]⟩).state :=
  System.exists_reachable_of_execute (storeHistory ⟨[1, 2, 3]⟩) System.anyStep
    [.handleReady
      { Ready.empty with hs := some ⟨2, 0, 3⟩, entries := entriesOfTermTwo 2 2 }]
    (fun h => ∃ p ∈ h.storage.written,
      ¬ Restartable (PersistentStorage.openStorage (some p) ⟨[1, 2, 3]⟩).state)
    (by decide +kernel)

end WalServer.Raft
