import WalServer.Shard.Positions
import WalServer.Shard.ReadPaths

/-!
# `WalServer.Shard.Traced`: where everything in a replica comes from

A replica commits, caches and logs nothing but the commands of the committed log, and
consumes nothing but what was acknowledged (`Traced`, `FromLog`). In the other direction
`Positioned` says that what was committed is known, and `Complete` that what was not
acknowledged is indexed. Together they leave nothing of a replica's own doings in what
`Traceable` describes: acknowledgements, collections, snapshots and restarts may come at
any time.
-/

set_option autoImplicit false

namespace WalServer.Shard

open WalServer.Lib WalServer.Protocol WalServer.Raft WalServer.Wal

/-! ### Tables -/

namespace StreamStateTable

variable {log : Nat → Option AppendCommand} {last last' raftIndex : Nat} {cmd : AppendCommand}
  {peak peak' : Nat → Nat} {t t' : StreamStateTable}

/-- Applying commands to an empty table gives a table that knows them. -/
theorem knows_appliedUpTo (hrange : 1 ≤ raftIndex ∧ raftIndex ≤ last)
    (hcmd : log raftIndex = some cmd) : (appliedUpTo log last).Knows raftIndex cmd := by
  have hmem : (raftIndex, cmd) ∈ commandsUpTo log last := mem_commandsUpTo.mpr ⟨hrange, hcmd⟩
  have hreaches := fun value =>
    le_applied_iff (.new 0) (commandsUpTo log last) cmd.streamId value
  constructor
  · exact (hreaches _).1.mpr (Or.inr ⟨_, hmem, rfl, Nat.le_refl _⟩)
  · exact (hreaches _).2.2.1.mpr (Or.inr ⟨_, hmem, rfl, Nat.le_refl _⟩)
  · exact (hreaches _).2.2.2.mpr (Or.inr ⟨_, hmem, rfl, Nat.le_refl _⟩)

/-- More commands bring a stream no less far. -/
theorem appliedUpTo_notBehind (h : last ≤ last') (id : Nat) :
    ((appliedUpTo log last).ensureStream id).NotBehind
      ((appliedUpTo log last').ensureStream id) := by
  refine notBehind_of_knowsBelow (fun raftIndex cmd hpositive hbelow hcmd => ?_) ?_ id
  · exact knows_appliedUpTo ⟨hpositive, (Nat.lt_succ_iff.mp hbelow).trans h⟩ hcmd
  · unfold appliedUpTo
    induction commandsUpTo log last' using List.reverseRecOn with
    | nil => exact ordered_new 0
    | append_singleton commands c ih =>
        rw [List.foldl_append]
        exact ordered_applyCommand ih _ _

/-- Of each stream the table has no more than the commands up to a raft index and the
acknowledgements account for. -/
structure Traced (log : Nat → Option AppendCommand) (last : Nat) (peak : Nat → Nat)
    (t : StreamStateTable) : Prop where
  commitStreamLsn : ∀ id, (t.ensureStream id).commitStreamLsn ≤
    ((appliedUpTo log last).ensureStream id).commitStreamLsn
  lastEntryId : ∀ id, (t.ensureStream id).lastEntryId ≤
    ((appliedUpTo log last).ensureStream id).lastEntryId
  consumedStreamLsn : ∀ id, (t.ensureStream id).consumedStreamLsn ≤ peak id
  tailCache : ∀ id, ∀ record ∈ (t.ensureStream id).tailCache, ∃ raftIndex cmd,
    log raftIndex = some cmd ∧ cmd.streamId = id ∧ cmd.streamLsn = record.streamLsn ∧
      cmd.payload = record.payload

theorem traced_new (log : Nat → Option AppendCommand) (last : Nat) (peak : Nat → Nat)
    (limit : Nat) : (new limit).Traced log last peak := by
  constructor
  · intro id
    rw [ensureStream_new]
    exact Nat.zero_le _
  · intro id
    rw [ensureStream_new]
    exact Nat.zero_le _
  · intro id
    rw [ensureStream_new]
    exact Nat.zero_le _
  · intro id record hrecord
    rw [ensureStream_new] at hrecord
    cases hrecord

/-- More commands and higher acknowledgements account for no less. -/
theorem Traced.mono (h : t.Traced log last peak) (hlast : last ≤ last')
    (hpeak : ∀ id, peak id ≤ peak' id) : t.Traced log last' peak' where
  commitStreamLsn id :=
    (h.commitStreamLsn id).trans (appliedUpTo_notBehind hlast id).commitStreamLsn
  lastEntryId id := (h.lastEntryId id).trans (appliedUpTo_notBehind hlast id).lastEntryId
  consumedStreamLsn id := (h.consumedStreamLsn id).trans (hpeak id)
  tailCache := h.tailCache

/-- Allocating adds nothing. -/
theorem Traced.allocates (h : t.Traced log last peak) (ht : t.Allocates t') :
    t'.Traced log last peak where
  commitStreamLsn id := by rw [(ht id).commitStreamLsn]; exact h.commitStreamLsn id
  lastEntryId id := by rw [(ht id).lastEntryId]; exact h.lastEntryId id
  consumedStreamLsn id := by rw [(ht id).consumedStreamLsn]; exact h.consumedStreamLsn id
  tailCache id := by rw [(ht id).tailCache]; exact h.tailCache id

/-- An acknowledgement is accounted for by its offset. -/
theorem Traced.advanceConsumed (h : t.Traced log last peak) {streamId offset : Nat}
    (hoffset : offset ≤ peak streamId) :
    (t.advanceConsumed streamId offset).1.Traced log last peak where
  commitStreamLsn id := by
    rw [commitStreamLsn_advanceConsumed]
    exact h.commitStreamLsn id
  lastEntryId id := by
    rw [ensureStream_advanceConsumed]
    split
    · rename_i hid
      subst hid
      exact h.lastEntryId id
    · exact h.lastEntryId id
  consumedStreamLsn id := by
    rw [ensureStream_advanceConsumed]
    split
    · rename_i hid
      subst hid
      exact Nat.max_le.mpr ⟨h.consumedStreamLsn id, hoffset⟩
    · exact h.consumedStreamLsn id
  tailCache id record hrecord := by
    rw [ensureStream_advanceConsumed] at hrecord
    split at hrecord
    · rename_i hid
      subst hid
      exact h.tailCache id record ((List.dropWhile_sublist _).subset hrecord)
    · exact h.tailCache id record hrecord

/-- A command of the log accounts for its record. -/
theorem Traced.observeRecovered (h : t.Traced log last peak)
    (hrange : 1 ≤ raftIndex ∧ raftIndex ≤ last) (hcmd : log raftIndex = some cmd) :
    (t.observeRecovered cmd.streamId cmd.epoch raftIndex cmd.streamLsn cmd.payload).Traced log
      last peak where
  commitStreamLsn id := by
    rw [ensureStream_observeRecovered]
    split
    · rename_i hid
      subst hid
      exact Nat.max_le.mpr ⟨h.commitStreamLsn _, (knows_appliedUpTo hrange hcmd).commitStreamLsn⟩
    · exact h.commitStreamLsn id
  lastEntryId id := by
    rw [ensureStream_observeRecovered]
    split
    · rename_i hid
      subst hid
      exact Nat.max_le.mpr ⟨h.lastEntryId _, (knows_appliedUpTo hrange hcmd).lastEntryId⟩
    · exact h.lastEntryId id
  consumedStreamLsn id := by
    rw [ensureStream_observeRecovered]
    split
    · rename_i hid
      subst hid
      exact h.consumedStreamLsn _
    · exact h.consumedStreamLsn id
  tailCache id record hrecord := by
    rw [ensureStream_observeRecovered] at hrecord
    split at hrecord
    · rename_i hid
      subst hid
      -- The cache drops what is over its limit. What is left was there or is the new record.
      rcases List.mem_append.mp ((List.drop_sublist _ _).subset hrecord) with hold | hnew
      · exact h.tailCache _ record hold
      · rw [List.mem_singleton.mp hnew]
        exact ⟨raftIndex, cmd, hcmd, rfl, rfl, rfl⟩
    · exact h.tailCache id record hrecord

/-- A restored table has no more of a stream than the saved one. -/
theorem Traced.restored (h : t.Traced log last peak)
    (hsame : ∀ id, t'.ensureStream id = { t.ensureStream id with tailCache := [] }) :
    t'.Traced log last peak where
  commitStreamLsn id := by rw [hsame]; exact h.commitStreamLsn id
  lastEntryId id := by rw [hsame]; exact h.lastEntryId id
  consumedStreamLsn id := by rw [hsame]; exact h.consumedStreamLsn id
  tailCache id record hrecord := by
    rw [hsame] at hrecord
    cases hrecord

end StreamStateTable

open StreamStateTable

namespace Replica

variable {hash : Bytes → UInt32} {log : Nat → Option AppendCommand} {s t : Replica}
  {last last' : Nat} {peak peak' : Nat → Nat}

/-! ### Logs and snapshots -/

/-- The records are those of commands of the log up to a raft index. -/
def FromLog (log : Nat → Option AppendCommand) (last : Nat)
    (logged : List (WalRecord × RecordLocation)) : Prop :=
  ∀ q ∈ logged, ∃ clock raftIndex cmd, (1 ≤ raftIndex ∧ raftIndex ≤ last) ∧
    log raftIndex = some cmd ∧ q.1 = ShardEngine.recordOf clock raftIndex cmd

theorem FromLog.mono {logged : List (WalRecord × RecordLocation)} (h : FromLog log last logged)
    (hlast : last ≤ last') : FromLog log last' logged := by
  intro q hq
  obtain ⟨clock, raftIndex, cmd, ⟨hpositive, hle⟩, hcmd, hrecord⟩ := h q hq
  exact ⟨clock, raftIndex, cmd, ⟨hpositive, hle.trans hlast⟩, hcmd, hrecord⟩

/-- **Recovery** adds nothing but commands of the log. -/
theorem traced_recoverStreams {table : StreamStateTable} (h : table.Traced log last peak)
    {logged : List (WalRecord × RecordLocation)} (hlogged : FromLog log last logged)
    (bound : Nat) : (recoverStreams table bound (logged.map Prod.fst)).Traced log last peak := by
  refine recoverStreams_invariant (P := Traced log last peak) h fun t r hr _ ht => ?_
  obtain ⟨q, hq, rfl⟩ := List.mem_map.mp hr
  obtain ⟨clock, raftIndex, cmd, hrange, hcmd, hrecord⟩ := hlogged q hq
  rw [hrecord]
  exact ht.observeRecovered hrange hcmd

/-- A stored snapshot reaches no further than what was handed on, and what is restored
from it is accounted for. -/
structure SnapshotTraced (log : Nat → Option AppendCommand) (last : Nat) (peak : Nat → Nat)
    (p : PersistentState) : Prop where
  index : p.snapshot.metadata.index ≤ last
  table : ∀ limit recovered, decodeSnapshot limit p.snapshot.data = .ok recovered →
    recovered.Traced log last peak

theorem SnapshotTraced.congr {p q : PersistentState} (h : SnapshotTraced log last peak q)
    (hsame : p.snapshot = q.snapshot) : SnapshotTraced log last peak p where
  index := by rw [hsame]; exact h.index
  table := by rw [hsame]; exact h.table

theorem SnapshotTraced.mono {p : PersistentState} (h : SnapshotTraced log last peak p)
    (hlast : last ≤ last') (hpeak : ∀ id, peak id ≤ peak' id) :
    SnapshotTraced log last' peak' p where
  index := h.index.trans hlast
  table limit recovered hdecode := (h.table limit recovered hdecode).mono hlast hpeak

/-- A snapshot of a table, even if streams are missing in it. -/
theorem snapshotTraced_encode {table : StreamStateTable} {p : PersistentState}
    (hcounted : Counted table) (h : table.Traced log last peak)
    (hdata : p.snapshot.data = table.encodeSnapshot) (hindex : p.snapshot.metadata.index ≤ last) :
    SnapshotTraced log last peak p := by
  refine ⟨hindex, fun limit recovered hdecode => ?_⟩
  rw [hdata] at hdecode
  -- A stream comes back as it was but for its tail cache, or it was not in the table at all.
  have hview : ∀ id, recovered.ensureStream id = { table.ensureStream id with tailCache := [] } ∨
      recovered.ensureStream id = (new 0).ensureStream id := by
    intro id
    rw [ensureStream_new]
    exact (ensureStream_of_decodeSnapshot hcounted hdecode id).imp_right And.right
  have hnew := traced_new log last peak 0
  constructor
  · intro id
    rcases hview id with hid | hid
    · rw [hid]
      exact h.commitStreamLsn id
    · rw [hid]
      exact hnew.commitStreamLsn id
  · intro id
    rcases hview id with hid | hid
    · rw [hid]
      exact h.lastEntryId id
    · rw [hid]
      exact hnew.lastEntryId id
  · intro id
    rcases hview id with hid | hid
    · rw [hid]
      exact h.consumedStreamLsn id
    · rw [hid]
      exact hnew.consumedStreamLsn id
  · intro id record hrecord
    rcases hview id with hid | hid
    · rw [hid] at hrecord
      cases hrecord
    · rw [hid] at hrecord
      exact hnew.tailCache id record hrecord

/-! ### What every step keeps -/

/-- Every command that was handed on and whose position is not acknowledged is indexed. -/
def Complete (log : Nat → Option AppendCommand) (s : Replica) : Prop :=
  ∀ raftIndex cmd, 1 ≤ raftIndex → raftIndex ≤ s.high → log raftIndex = some cmd →
    s.peak cmd.streamId ≤ cmd.streamLsn →
      ∃ loc, s.engine.index.lookup cmd.streamId cmd.streamLsn = some loc

/-- **The invariant.** -/
structure Traceable (log : Nat → Option AppendCommand) (s : Replica) : Prop where
  table : s.table.Traced log s.high s.peak
  stored : ∀ p, s.engine.raft.store.Held p → SnapshotTraced log s.high s.peak p
  fromLog : FromLog log s.high s.logged
  complete : s.Complete log
  reached : s.cursor ≤ s.high + 1

/-- What only allocates, or not even that. -/
theorem Traceable.allocates (h : s.Traceable log) (htable : s.table.Allocates t.table)
    (hstore : t.engine.raft.store = s.engine.raft.store) (hindex : t.engine.index = s.engine.index)
    (hlogged : t.logged = s.logged) (hhigh : t.high = s.high) (hpeak : t.peak = s.peak)
    (hcursor : t.cursor = s.cursor) : t.Traceable log where
  table := by rw [hhigh, hpeak]; exact h.table.allocates htable
  stored := by rw [hstore, hhigh, hpeak]; exact h.stored
  fromLog := by rw [hlogged, hhigh]; exact h.fromLog
  complete := by
    unfold Complete
    rw [hindex, hhigh, hpeak]
    exact h.complete
  reached := by rw [hcursor, hhigh]; exact h.reached

/-- **An acknowledgement** raises the peak of its stream. -/
theorem Traceable.ack (h : s.Traceable log) {req : ShardRequest} (hop : req.request.op = .ack)
    (hacked : t.table = (s.table.advanceConsumed req.request.streamId req.request.offset).1)
    (hs : s.step hash log (.request req) = some t) : t.Traceable log := by
  obtain ⟨hstore, -, hcursor, hhigh⟩ := raft_request hs
  have hlog := sameLog_request hs
  obtain ⟨hnote, -⟩ := note_ack hop hs
  -- The peak is the highest offset that was acknowledged, so it covers this one.
  have hpeak : ∀ id, s.peak id ≤ t.peak id := by
    intro id
    rw [hnote]
    show _ ≤ ite _ _ _
    split
    · exact Nat.le_max_left _ _
    · exact Nat.le_refl _
  have hoffset : req.request.offset ≤ t.peak req.request.streamId := by
    rw [hnote]
    show _ ≤ ite _ _ _
    rw [if_pos rfl]
    exact Nat.le_max_right _ _
  constructor
  · rw [hacked, hhigh]
    exact (h.table.mono (Nat.le_refl _) hpeak).advanceConsumed hoffset
  · intro p hp
    rw [hstore] at hp
    rw [hhigh]
    exact (h.stored p hp).mono (Nat.le_refl _) hpeak
  · rw [hlog.logged, hhigh]
    exact h.fromLog
  · intro raftIndex cmd hpositive hle hcmd hlsn
    rw [hhigh] at hle
    rw [hlog.index]
    exact h.complete raftIndex cmd hpositive hle hcmd ((hpeak _).trans hlsn)
  · rw [hcursor, hhigh]
    exact h.reached

/-- **A request** consumes no more than it acknowledges. -/
theorem Traceable.request (h : s.Traceable log) {req : ShardRequest}
    (hs : s.step hash log (.request req) = some t) : t.Traceable log := by
  rcases table_request hs with ⟨hop, hacked⟩ | ⟨hop, hallocates⟩
  · exact h.ack hop hacked hs
  · obtain ⟨hstore, -, hcursor, hhigh⟩ := raft_request hs
    have hlog := sameLog_request hs
    obtain ⟨hpeak, -⟩ := note_other hop hs
    exact h.allocates hallocates hstore hlog.index hlog.logged hhigh hpeak hcursor

/-- **Applying** adds a command of the log. -/
theorem Traceable.apply (h : s.Traceable log) {clock : Clock} {raftIndex raftTerm : Nat}
    {cmd : AppendCommand} {e : ShardEngine} {stopped : Bool}
    (happlied : s.engine.raft.applied < s.cursor)
    (hcursor : raftIndex = s.cursor) (hcmd : log raftIndex = some cmd)
    (hcounted : Counted (ShardCore.applyCommand s.table raftIndex cmd))
    (happly : s.engine.Applies hash clock raftIndex raftTerm cmd e) :
    (s.noteApplied clock raftIndex cmd e stopped).Traceable log := by
  have hreached := h.reached
  have hlast : s.high ≤ max s.high raftIndex := Nat.le_max_left _ _
  have hrange : 1 ≤ raftIndex ∧ raftIndex ≤ max s.high raftIndex :=
    ⟨by omega, Nat.le_max_right _ _⟩
  have htraced : (ShardCore.applyCommand s.table raftIndex cmd).Traced log (max s.high raftIndex)
      s.peak := by
    rw [ShardCore.applyCommand_eq_observeRecovered]
    exact (h.table.mono hlast fun _ => Nat.le_refl _).observeRecovered hrange hcmd
  have htable := table_noteApplied happly stopped
  obtain ⟨w, dir, n, store, responses, -, hstore, rfl⟩ := happly.eq
  refine ⟨?_, fun p hp => ?_, fun q hq => ?_, ?_, ?_⟩
  · rw [htable]
    exact htraced
  · -- The snapshot is an older one, or it was taken of the table as it is now.
    rcases PersistentStorage.snapshot_maybeSnapshot hstore hp with
      ⟨q, hq, hsame⟩ | ⟨-, hdata, hindex⟩
    · exact ((h.stored q hq).congr hsame).mono hlast fun _ => Nat.le_refl _
    · refine snapshotTraced_encode hcounted htraced hdata ?_
      rw [hindex]
      show s.engine.raft.applied ≤ max s.high raftIndex
      omega
  · rcases List.mem_append.mp hq with hold | hnew
    · exact h.fromLog.mono hlast q hold
    · rw [List.mem_singleton.mp hnew]
      exact ⟨clock, raftIndex, cmd, hrange, hcmd, rfl⟩
  · intro i c hi hle hc hlsn
    show ∃ loc, (s.engine.index.insert cmd.streamId cmd.streamLsn _).lookup c.streamId c.streamLsn =
      some loc
    rw [StreamLogIndex.lookup_insert]
    split
    · exact ⟨_, rfl⟩
    · rename_i hother
      have hle' : i ≤ max s.high raftIndex := hle
      by_cases hold : i ≤ s.high
      · exact h.complete i c hi hold hc hlsn
      · -- The command that is new is at the position that was just indexed.
        have hnew : i = raftIndex := by omega
        rw [hnew, hcmd] at hc
        cases hc
        exact absurd ⟨rfl, rfl⟩ hother
  · show raftIndex + 1 ≤ max s.high raftIndex + 1
    omega

/-- **Collecting garbage** drops no position that is not acknowledged. -/
theorem Traceable.gc (h : s.Traceable log) (hs : s.step hash log .gc = some t) :
    t.Traceable log := by
  obtain ⟨walReader, rfl⟩ := step_gc hs
  refine ⟨h.table, h.stored, fun q hq => h.fromLog q (List.mem_filter.mp hq).1, ?_, h.reached⟩
  intro raftIndex cmd hpositive hle hcmd hlsn
  obtain ⟨loc, hloc⟩ := h.complete raftIndex cmd hpositive hle hcmd hlsn
  refine ⟨loc, ?_⟩
  show s.engine.gcIndex.lookup cmd.streamId cmd.streamLsn = some loc
  rw [ShardEngine.lookup_gcIndex]
  have hconsumed := (h.table.consumedStreamLsn cmd.streamId).trans hlsn
  exact (if_neg (Nat.not_lt.mpr hconsumed)).trans hloc

/-- **A restart** on the own files finds again what was logged. -/
theorem Traceable.restart (h : s.Traceable log) (hpositioned : s.Positioned log)
    (hown : s.OwnLog hash) (hindexed : s.Indexed hash) {file : Nat} {config : ServerConfig}
    {createdTsNs : Nat}
    (hs : s.step hash log (.restart s.engine.dir file config createdTsNs) = some t) :
    t.Traceable log := by
  obtain ⟨p, recovered, -, hrestarted⟩ := step_restart hs
  have hlogged : t.logged = s.logged := hrestarted.logged.trans hown.foundOn_eq
  have hstored := h.stored p hrestarted.held
  constructor
  · rw [hrestarted.table, hrestarted.high, hrestarted.peak, hlogged]
    exact traced_recoverStreams (hstored.table _ _ hrestarted.decoded) h.fromLog _
  · intro q hq
    rw [hrestarted.held_eq hq, hrestarted.high, hrestarted.peak]
    exact hstored
  · rw [hlogged, hrestarted.high]
    exact h.fromLog
  · intro raftIndex cmd hpositive hle hcmd hlsn
    rw [hrestarted.high] at hle
    rw [hrestarted.peak] at hlsn
    rw [hrestarted.index, hlogged]
    obtain ⟨loc, hloc⟩ := h.complete raftIndex cmd hpositive hle hcmd hlsn
    obtain ⟨q, hq, hstream, hposition, -⟩ := hindexed.index _ _ loc hloc
    rw [← hstream, ← hposition]
    exact exists_lookup_indexRecords hq
  · rw [hrestarted.cursor, hrestarted.high]
    exact (hpositioned.linked p hrestarted.held).reaches.trans (Nat.succ_le_succ hstored.index)

/-- What the results about what a replica holds ask of its steps. -/
def Orderly (log : Nat → Option AppendCommand) (s : Replica) (a : ReplicaAction) : Prop :=
  Promised log s a ∧ Typed log s a ∧ OnOwnFiles log s a

instance (s : Replica) (a : ReplicaAction) : Decidable (Orderly log s a) := instDecidableAnd

/-- **Every orderly step keeps a replica traceable.** -/
theorem traceable_step {a : ReplicaAction} (h : s.Traceable log) (hpositioned : s.Positioned log)
    (hown : s.OwnLog hash) (hindexed : s.Indexed hash) (hok : Orderly log s a)
    (hs : s.step hash log a = some t) : t.Traceable log := by
  obtain ⟨hpromised, -, hfiles⟩ := hok
  cases a with
  | request req => exact h.request hs
  | role state leaderId committed accepting =>
      cases hs
      exact h.allocates (.refl _) rfl rfl rfl rfl rfl rfl
  -- The ready batch has no snapshot, so the one that is stored stays.
  | store ready =>
      obtain ⟨hempty, -⟩ := hpromised
      obtain ⟨outbound, stepped, stopped, rfl⟩ := step_store hs
      refine ⟨h.table, fun p hp => ?_, h.fromLog, h.complete, h.reached⟩
      obtain ⟨q, hq, hsame⟩ := PersistentStorage.snapshot_storeReady hempty hp
      exact (h.stored q hq).congr hsame
  | apply clock raftIndex raftTerm =>
      obtain ⟨hcursor, hcounted⟩ := hpromised
      obtain ⟨-, ⟨hnone, rfl⟩ | ⟨cmd, e, stopped, hcmd, happly, rfl⟩⟩ := step_apply hs
      · -- An entry without a command moves the counters alone.
        have hreached := h.reached
        have hlast : s.high ≤ max s.high raftIndex := Nat.le_max_left _ _
        refine ⟨h.table.mono hlast fun _ => Nat.le_refl _,
          fun p hp => (h.stored p hp).mono hlast fun _ => Nat.le_refl _,
          h.fromLog.mono hlast, fun i c hi hle hc hlsn => ?_, ?_⟩
        · have hle' : i ≤ max s.high raftIndex := hle
          by_cases hold : i ≤ s.high
          · exact h.complete i c hi hold hc hlsn
          · have hnew : i = raftIndex := by omega
            rw [hnew, hnone] at hc
            cases hc
        · show raftIndex + 1 ≤ max s.high raftIndex + 1
          omega
      · exact h.apply hpositioned.applied hcursor hcmd (hcounted cmd hcmd) happly
  | advance advanced =>
      obtain ⟨outbound, stepped, rfl⟩ := step_advance hs
      exact h.allocates (.refl _) rfl rfl rfl rfl rfl rfl
  | observe =>
      have htable := allocates_observe hs
      cases hs
      exact h.allocates htable rfl rfl rfl rfl rfl rfl
  | gc => exact h.gc hs
  | restart dir file config createdTsNs =>
      cases hfiles
      exact h.restart hpositioned hown hindexed hs

theorem traceable_started (log : Nat → Option AppendCommand) (shardId : Nat)
    (config : ServerConfig) (createdTsNs : Nat) :
    (started shardId config createdTsNs).Traceable log where
  table := traced_new _ _ _ _
  stored p hp := by
    rw [PersistentStorage.held_single hp]
    refine ⟨Nat.le_refl 0, fun limit recovered hdecode => ?_⟩
    cases hdecode
    exact traced_new _ _ _ _
  fromLog q hq := by cases hq
  complete raftIndex cmd hpositive hle _ _ := absurd hle (Nat.not_le.mpr hpositive)
  reached := Nat.le_refl 1

/-- What holds of a replica after a run of orderly steps. -/
structure Accounted (hash : Bytes → UInt32) (log : Nat → Option AppendCommand) (s : Replica) :
    Prop where
  positioned : s.Positioned log
  own : s.OwnLog hash
  indexed : s.Indexed hash
  traceable : s.Traceable log

/-- **Runs of orderly steps** leave a replica accounted for. -/
theorem accounted_of_reachable {shardId : Nat} {config : ServerConfig} {createdTsNs : Nat}
    (h : (replica hash log shardId config createdTsNs).Reachable (Orderly log) s) :
    s.Accounted hash log :=
  h.invariant (I := Accounted hash log)
    ⟨positioned_started log shardId config createdTsNs,
      ownLog_started hash shardId config createdTsNs, indexed_started shardId config createdTsNs,
      traceable_started log shardId config createdTsNs⟩
    fun _ _ _ _ hi hok hstep =>
      have hs := step_of_replica hstep
      ⟨positioned_step hi.positioned hok.1 hs, ownLog_step hi.own hok.2.1 hok.2.2 hs,
        indexed_step hi.indexed hok.2.1 hs,
        traceable_step hi.traceable hi.positioned hi.own hi.indexed hok hs⟩

end Replica

end WalServer.Shard
