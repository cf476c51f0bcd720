import WalServer.Shard.Advance
import WalServer.Shard.Delivery

/-!
# `WalServer.Shard.Install`: installing a snapshot from another node

A `Ready` may carry a snapshot, which stands for a part of the log this node will
never apply. `drive_ready` hands it to the raft storage and to nothing else, so
the stream table learns of it only at the next start. What is meant to hold after
the cycle is `Installed`: the table has at least the snapshot's values for every
stream the snapshot describes, and allocates and fences accordingly from then on.
It does exactly if the values were reached without the snapshot, by the table as
it was or by the commands of the same `Ready` (`installed_iff_covered`).
-/

set_option autoImplicit false

namespace WalServer.Shard

open WalServer.Lib WalServer.Protocol WalServer.Raft WalServer.Wal

namespace StreamStateTable

/-- A table that came from another one by the engine's operations on it. -/
inductive Evolves (t : StreamStateTable) : StreamStateTable → Prop
  | refl : Evolves t t
  | allocate {t' : StreamStateTable} (h : Evolves t t') (streamId epoch : Nat) :
      Evolves t (t'.allocateAppend streamId epoch).1
  | rollback {t' : StreamStateTable} (h : Evolves t t') (streamId streamLsn : Nat) :
      Evolves t (t'.rollbackUncommittedAppend streamId streamLsn)
  | apply {t' : StreamStateTable} (h : Evolves t t') (raftIndex : Nat) (cmd : AppendCommand) :
      Evolves t (ShardCore.applyCommand t' raftIndex cmd)
  | ack {t' : StreamStateTable} (h : Evolves t t') (streamId consumed : Nat) :
      Evolves t (t'.advanceConsumed streamId consumed).1

/-- **What is meant to hold** of the table once a snapshot is installed. -/
structure Installed (t snapshot : StreamStateTable) : Prop where
  values : ∀ st ∈ AssocMap.values snapshot.streams,
    st.maxEpoch ≤ (t.ensureStream st.streamId).maxEpoch ∧
      st.nextStreamLsn ≤ (t.ensureStream st.streamId).nextStreamLsn ∧
      st.commitStreamLsn ≤ (t.ensureStream st.streamId).commitStreamLsn ∧
      st.lastEntryId ≤ (t.ensureStream st.streamId).lastEntryId
  allocates : ∀ st ∈ AssocMap.values snapshot.streams, ∀ t', Evolves t t' → ∀ epoch lsn,
    (t'.allocateAppend st.streamId epoch).2 = .ok lsn → st.commitStreamLsn ≤ lsn
  fences : ∀ st ∈ AssocMap.values snapshot.streams, ∀ t', Evolves t t' → ∀ epoch,
    epoch < st.maxEpoch → ∃ current,
      (t'.allocateAppend st.streamId epoch).2 = .error (.stale current epoch)

/-- A value is reached by a stream's state or by one of the stream's commands. -/
def Reaches (value known : Nat) (commands : List (Nat × AppendCommand)) (streamId : Nat)
    (brings : Nat × AppendCommand → Nat) : Prop :=
  value ≤ known ∨ ∃ c ∈ commands, c.2.streamId = streamId ∧ value ≤ brings c

instance (value known : Nat) (commands : List (Nat × AppendCommand)) (streamId : Nat)
    (brings : Nat × AppendCommand → Nat) :
    Decidable (Reaches value known commands streamId brings) :=
  instDecidableOr

/-- The condition: whatever the snapshot says of a stream is reached without it. -/
def Covered (t : StreamStateTable) (commands : List (Nat × AppendCommand))
    (snapshot : StreamStateTable) : Prop :=
  ∀ st ∈ AssocMap.values snapshot.streams,
    Reaches st.maxEpoch (t.ensureStream st.streamId).maxEpoch commands st.streamId
        (fun c => c.2.epoch) ∧
      Reaches (max st.nextStreamLsn st.commitStreamLsn)
        (t.ensureStream st.streamId).nextStreamLsn commands st.streamId
        (fun c => c.2.streamLsn + 1) ∧
      Reaches st.commitStreamLsn (t.ensureStream st.streamId).commitStreamLsn commands
        st.streamId (fun c => c.2.streamLsn + 1) ∧
      Reaches st.lastEntryId (t.ensureStream st.streamId).lastEntryId commands st.streamId
        (fun c => c.1)

instance (t : StreamStateTable) (commands : List (Nat × AppendCommand))
    (snapshot : StreamStateTable) : Decidable (Covered t commands snapshot) :=
  List.decidableBAll _ _

/-! ### What commands reach -/

/-- A field that a command raises to what it brings reaches a value exactly if it
had it or a command brings it. -/
theorem le_foldl_applyCommand_iff (field : StreamReplicaState → Nat)
    (brings : Nat × AppendCommand → Nat)
    (hfield : ∀ (t : StreamStateTable) (c : Nat × AppendCommand) (id : Nat),
      field ((ShardCore.applyCommand t c.1 c.2).ensureStream id) =
        if id = c.2.streamId then max (field (t.ensureStream id)) (brings c)
        else field (t.ensureStream id))
    (commands : List (Nat × AppendCommand)) (t : StreamStateTable) (id value : Nat) :
    value ≤ field ((commands.foldl (fun t c => ShardCore.applyCommand t c.1 c.2) t
      ).ensureStream id) ↔
      Reaches value (field (t.ensureStream id)) commands id brings := by
  unfold Reaches
  induction commands generalizing t with
  | nil => simp
  | cons c rest ih =>
      rw [List.foldl_cons, ih, hfield]
      simp only [List.mem_cons, exists_eq_or_imp]
      split
      · rename_i hid
        rw [le_max_iff]
        simp only [hid, true_and]
        tauto
      · rename_i hid
        have hne : ¬ c.2.streamId = id := fun h => hid h.symm
        simp only [hne, false_and, false_or]

/-- The four fields of a stream that a snapshot speaks of, as the commands leave them. -/
theorem le_applied_iff (t : StreamStateTable) (commands : List (Nat × AppendCommand))
    (id value : Nat) :
    let applied := (commands.foldl (fun t c => ShardCore.applyCommand t c.1 c.2) t).ensureStream id
    (value ≤ applied.maxEpoch ↔
        Reaches value (t.ensureStream id).maxEpoch commands id fun c => c.2.epoch) ∧
      (value ≤ applied.nextStreamLsn ↔
        Reaches value (t.ensureStream id).nextStreamLsn commands id fun c => c.2.streamLsn + 1) ∧
      (value ≤ applied.commitStreamLsn ↔
        Reaches value (t.ensureStream id).commitStreamLsn commands id fun c => c.2.streamLsn + 1) ∧
      (value ≤ applied.lastEntryId ↔
        Reaches value (t.ensureStream id).lastEntryId commands id fun c => c.1) := by
  refine ⟨le_foldl_applyCommand_iff StreamReplicaState.maxEpoch (fun c => c.2.epoch) ?_ ..,
    le_foldl_applyCommand_iff StreamReplicaState.nextStreamLsn (fun c => c.2.streamLsn + 1) ?_ ..,
    le_foldl_applyCommand_iff StreamReplicaState.commitStreamLsn (fun c => c.2.streamLsn + 1) ?_ ..,
    le_foldl_applyCommand_iff StreamReplicaState.lastEntryId (fun c => c.1) ?_ ..⟩ <;>
  · intro t c id
    rw [ShardCore.ensureStream_applyCommand]
    split <;> simp [*]

/-! ### What later operations keep -/

/-- Single operations take neither epoch nor committed position back, and leave no
stream's next position below a committed one it was not below before. -/
theorem Evolves.keeps {t t' : StreamStateTable} (h : Evolves t t') {id epoch commit : Nat}
    (hepoch : epoch ≤ (t.ensureStream id).maxEpoch)
    (hcommit : commit ≤ (t.ensureStream id).commitStreamLsn)
    (hnext : commit ≤ (t.ensureStream id).nextStreamLsn) :
    epoch ≤ (t'.ensureStream id).maxEpoch ∧ commit ≤ (t'.ensureStream id).commitStreamLsn ∧
      commit ≤ (t'.ensureStream id).nextStreamLsn := by
  induction h with
  | refl => exact ⟨hepoch, hcommit, hnext⟩
  | @allocate t' h streamId newEpoch ih =>
      obtain ⟨ihepoch, ihcommit, ihnext⟩ := ih
      rcases t'.allocateAppend_cases streamId newEpoch with ⟨-, -, hsame⟩ | ⟨hle, -, hmoved⟩
      · rw [hsame]
        exact ⟨ihepoch, ihcommit, ihnext⟩
      · rw [hmoved]
        split
        · -- An allocation moves the next position up and takes no older epoch.
          rename_i hid
          subst hid
          exact ⟨ihepoch.trans hle, ihcommit, ihnext.trans (Nat.le_succ _)⟩
        · exact ⟨ihepoch, ihcommit, ihnext⟩
  | @rollback t' h streamId streamLsn ih =>
      obtain ⟨ihepoch, ihcommit, ihnext⟩ := ih
      rw [ensureStream_rollbackUncommittedAppend]
      split
      · -- The next position falls to one that is still not below the committed one.
        rename_i hback
        obtain ⟨rfl, -, hfloor⟩ := hback
        exact ⟨ihepoch, ihcommit, ihcommit.trans hfloor⟩
      · exact ⟨ihepoch, ihcommit, ihnext⟩
  | @apply t' h raftIndex cmd ih =>
      obtain ⟨ihepoch, ihcommit, ihnext⟩ := ih
      have hlater := later_applyCommand t' raftIndex cmd id
      exact ⟨ihepoch.trans hlater.maxEpoch, ihcommit.trans hlater.commitStreamLsn,
        ihnext.trans (nextLater_applyCommand t' raftIndex cmd id)⟩
  -- An acknowledgement changes the consumed position alone.
  | @ack t' h streamId consumed ih =>
      obtain ⟨ihepoch, ihcommit, ihnext⟩ := ih
      have hlater := later_advanceConsumed t' streamId consumed id
      rw [nextStreamLsn_advanceConsumed]
      exact ⟨ihepoch.trans hlater.maxEpoch, ihcommit.trans hlater.commitStreamLsn, ihnext⟩

/-- **The values carry the rest**: a table fences and allocates as the snapshot
demands exactly if it has the snapshot's values, and its next position is not
below the snapshot's committed one. -/
theorem installed_iff_values (t snapshot : StreamStateTable) :
    Installed t snapshot ↔ ∀ st ∈ AssocMap.values snapshot.streams,
      st.maxEpoch ≤ (t.ensureStream st.streamId).maxEpoch ∧
        max st.nextStreamLsn st.commitStreamLsn ≤ (t.ensureStream st.streamId).nextStreamLsn ∧
        st.commitStreamLsn ≤ (t.ensureStream st.streamId).commitStreamLsn ∧
        st.lastEntryId ≤ (t.ensureStream st.streamId).lastEntryId := by
  constructor
  · intro h st hst
    obtain ⟨hepoch, hnext, hcommit, hlast⟩ := h.values st hst
    refine ⟨hepoch, Nat.max_le.mpr ⟨hnext, ?_⟩, hcommit, hlast⟩
    -- A write of the newest epoch is given the next position.
    have hgiven := h.allocates st hst t .refl (t.ensureStream st.streamId).maxEpoch
    rcases t.allocateAppend_cases st.streamId (t.ensureStream st.streamId).maxEpoch with
      ⟨hlt, -⟩ | ⟨-, hok, -⟩
    · exact absurd hlt (Nat.lt_irrefl _)
    · exact hgiven _ hok
  · intro h
    refine ⟨fun st hst => ?_, fun st hst t' hlater epoch lsn hok => ?_,
      fun st hst t' hlater epoch hstale => ?_⟩
    · obtain ⟨hepoch, hnext, hcommit, hlast⟩ := h st hst
      exact ⟨hepoch, (Nat.le_max_left _ _).trans hnext, hcommit, hlast⟩
    all_goals
      obtain ⟨hepoch, hnext, hcommit, -⟩ := h st hst
      obtain ⟨hepoch', -, hnext'⟩ :=
        hlater.keeps hepoch hcommit ((Nat.le_max_right _ _).trans hnext)
      rcases t'.allocateAppend_cases st.streamId epoch with ⟨hlt, herror, -⟩ | ⟨hge, hok', -⟩
    · rw [herror] at hok
      cases hok
    · rw [hok'] at hok
      cases hok
      exact hnext'
    · exact ⟨_, herror⟩
    · omega

/-- **What a cycle must have reached** for the table after it to stand for the
snapshot. -/
theorem installed_applied_iff (t : StreamStateTable) (commands : List (Nat × AppendCommand))
    (snapshot : StreamStateTable) :
    Installed (commands.foldl (fun t c => ShardCore.applyCommand t c.1 c.2) t) snapshot ↔
      Covered t commands snapshot := by
  rw [installed_iff_values]
  refine forall₂_congr fun st _ => ?_
  have hfields := fun value => le_applied_iff t commands st.streamId value
  exact and_congr (hfields _).1 (and_congr (hfields _).2.1
    (and_congr (hfields _).2.2.1 (hfields _).2.2.2))

end StreamStateTable

namespace ShardEngine

variable {hash : Bytes → UInt32} {clock : Clock}

/-- **A cycle installs the snapshot it stores exactly if it is covered**: by the
table before the cycle, or by the commands of the same `Ready`. -/
theorem installed_iff_covered {e e' : ShardEngine} {ready : Ready} {advanced : Advanced}
    (hcycle : e.driveReady hash clock ready advanced = .ok e') :
    ready.snapshot.isEmpty = false → ∀ limit described,
      StreamStateTable.decodeSnapshot limit ready.snapshot.data = .ok described →
      (StreamStateTable.Installed e'.core.streams described ↔
        StreamStateTable.Covered e.core.streams (ready.committedEntries.filterMap commandOf)
          described) := by
  intro _ limit described _
  rw [(driveReady_eq_ok hcycle).2]
  exact StreamStateTable.installed_applied_iff _ _ _

/-- A `Ready` that brings a snapshot of one stream and nothing else. -/
def snapshotReady (index : Nat) (status : StreamStatus) : Ready :=
  { Ready.empty with snapshot :=
    ⟨(StreamStateTable.ofStatuses 8 [status]).encodeSnapshot, ⟨⟨[1, 2, 3]⟩, index, 2⟩⟩ }

/-- Such a snapshot describes that stream. -/
theorem decodeSnapshot_snapshotReady (index : Nat) (status : StreamStatus) (h : status.Fits)
    (limit : Nat) :
    StreamStateTable.decodeSnapshot limit (snapshotReady index status).snapshot.data =
      .ok (.ofStatuses limit [status]) := by
  have hone : (StreamStateTable.ofStatuses 8 [status]).allStatuses = [status] := rfl
  have hround := StreamStateTable.decodeSnapshot_encodeSnapshot
    (t := .ofStatuses 8 [status]) (by simpa [hone] using h) (by simp [hone]) limit
  rwa [hone] at hround

/-- What a node with one applied write is sent once the leader has added an empty
entry and compacted its log. -/
def coveredReady : Ready := snapshotReady 4 ⟨7, 1, 1, 1, 0, 3⟩

/-- What a node that has missed five writes is sent. -/
def missedReady : Ready := snapshotReady 10 ⟨7, 3, 5, 5, 0, 9⟩

/-- A node that has applied what the snapshot stands for. -/
theorem installed_coveredReady :
    ∃ e₀ e e' described, freshNode [1, 2, 3] = .ok e₀ ∧
      runProcess crc32 quorumProcess e₀ = .ok e ∧
      e.driveReady crc32 ⟨id, id⟩ coveredReady ⟨⟨none, [], []⟩, 4, 4⟩ = .ok e' ∧
      StreamStateTable.decodeSnapshot 8 coveredReady.snapshot.data = .ok described ∧
      StreamStateTable.Installed e'.core.streams described := by
  have hrun : ((freshNode [1, 2, 3]).bind (runProcess crc32 quorumProcess)).any
      (fun e => (e.driveReady crc32 ⟨id, id⟩ coveredReady ⟨⟨none, [], []⟩, 4, 4⟩).any fun _ =>
        StreamStateTable.Covered e.core.streams
          (coveredReady.committedEntries.filterMap commandOf)
          (.ofStatuses 8 [⟨7, 1, 1, 1, 0, 3⟩])) = true := by
    decide +kernel
  obtain ⟨e, hbind, hchecked⟩ := Outcome.any_eq_true.mp hrun
  obtain ⟨e₀, hopen, hprocess⟩ := Outcome.bind_eq_ok.mp hbind
  obtain ⟨e', hcycle, hcovered⟩ := Outcome.any_eq_true.mp hchecked
  have hdata := decodeSnapshot_snapshotReady 4 ⟨7, 1, 1, 1, 0, 3⟩
    ⟨by decide, by decide, by decide, by decide, by decide, by decide⟩ 8
  exact ⟨e₀, e, e', _, hopen, hprocess, hcycle, hdata,
    (installed_iff_covered hcycle rfl 8 _ hdata).mpr (of_decide_eq_true hcovered)⟩

/-- **A follower that is sent a snapshot knows nothing of it**: its raft storage
has the snapshot, and the table gives out a position that the snapshot holds
committed, to an epoch that the snapshot fences. -/
theorem snapshot_not_installed :
    ∃ e e' described, freshNode [1, 2, 3] = .ok e ∧
      e.driveReady crc32 ⟨id, id⟩ missedReady ⟨⟨none, [], []⟩, 10, 10⟩ = .ok e' ∧
      missedReady.snapshot.isEmpty = false ∧
      StreamStateTable.decodeSnapshot 8 missedReady.snapshot.data = .ok described ∧
      e'.raft.store.snapshotIndex = 10 ∧
      (e'.core.streams.allocateAppend 7 1).2.toOption = some 0 ∧
      ¬ StreamStateTable.Installed e'.core.streams described := by
  have hrun : (freshNode [1, 2, 3]).any (fun e =>
      (e.driveReady crc32 ⟨id, id⟩ missedReady ⟨⟨none, [], []⟩, 10, 10⟩).any fun e' =>
        e'.raft.store.snapshotIndex = 10 ∧
          (e'.core.streams.allocateAppend 7 1).2.toOption = some 0 ∧
          (e'.core.streams.ensureStream 7).maxEpoch = 0) = true := by
    decide +kernel
  obtain ⟨e, hopen, hcycled⟩ := Outcome.any_eq_true.mp hrun
  obtain ⟨e', hcycle, hchecked⟩ := Outcome.any_eq_true.mp hcycled
  obtain ⟨hstored, hgiven, hepoch⟩ := of_decide_eq_true hchecked
  refine ⟨e, e', _, hopen, hcycle, rfl, decodeSnapshot_snapshotReady 10 ⟨7, 3, 5, 5, 0, 9⟩
    ⟨by decide, by decide, by decide, by decide, by decide, by decide⟩ 8, hstored, hgiven, ?_⟩
  intro hinstalled
  have hfenced := (hinstalled.values ⟨7, 3, 5, 5, 0, 9, []⟩ List.mem_cons_self).1
  rw [hepoch] at hfenced
  exact absurd hfenced (by decide)

end ShardEngine

end WalServer.Shard
