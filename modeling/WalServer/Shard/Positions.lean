import WalServer.Shard.Install
import WalServer.Shard.OwnLog

/-!
# `WalServer.Shard.Positions`: no restart moves a stream's position back

What a replica knows of an applied command is in its table, in a snapshot, in a record
of the log or in the raft entry, and each of these goes at some time: tables with
processes, records with garbage, entries with compaction. What stays is that the
stored snapshot knows every command up to its index, that the stored raft log goes on
behind it without a gap, and that the table knows every command that was handed on
(`Positioned`). So once raft has handed on again what it has, the positions of all
streams are where the commands have brought them (`notBehind_of_reachable`).

The number of streams in a snapshot is 32 bits wide. A snapshot of more streams is not
stored: its message would be longer than the raft state's file has room for, and the
process ends before the log is compacted behind it (`allStatuses_lt_of_encodeSnapshot`).
-/

set_option autoImplicit false

namespace WalServer.Shard

open WalServer.Lib WalServer.Protocol WalServer.Raft WalServer.Wal

/-! ### What a table knows of commands -/

/-- No position of a stream lies before the one that the first state has. -/
structure StreamReplicaState.NotBehind (st st' : StreamReplicaState) : Prop where
  nextStreamLsn : st.nextStreamLsn ≤ st'.nextStreamLsn
  commitStreamLsn : st.commitStreamLsn ≤ st'.commitStreamLsn
  maxEpoch : st.maxEpoch ≤ st'.maxEpoch
  lastEntryId : st.lastEntryId ≤ st'.lastEntryId

namespace StreamStateTable

/-- The table is where the command of a raft index has brought its stream. -/
structure Knows (t : StreamStateTable) (raftIndex : Nat) (cmd : AppendCommand) : Prop where
  maxEpoch : cmd.epoch ≤ (t.ensureStream cmd.streamId).maxEpoch
  commitStreamLsn : cmd.streamLsn + 1 ≤ (t.ensureStream cmd.streamId).commitStreamLsn
  lastEntryId : raftIndex ≤ (t.ensureStream cmd.streamId).lastEntryId

/-- The table knows the commands of a log below a raft index. -/
def KnowsBelow (log : Nat → Option AppendCommand) (t : StreamStateTable) (bound : Nat) : Prop :=
  ∀ raftIndex cmd, 1 ≤ raftIndex → raftIndex < bound → log raftIndex = some cmd →
    t.Knows raftIndex cmd

variable {t t' : StreamStateTable} {raftIndex bound : Nat} {cmd : AppendCommand}
  {log : Nat → Option AppendCommand}

theorem Knows.onward (h : t.Knows raftIndex cmd) (hlater : t.Onward t') :
    t'.Knows raftIndex cmd where
  maxEpoch := h.maxEpoch.trans (hlater _).maxEpoch
  commitStreamLsn := h.commitStreamLsn.trans (hlater _).commitStreamLsn
  lastEntryId := h.lastEntryId.trans (hlater _).lastEntryId

theorem KnowsBelow.onward (h : t.KnowsBelow log bound) (hlater : t.Onward t') :
    t'.KnowsBelow log bound :=
  fun raftIndex cmd hpositive hbelow hcmd =>
    (h raftIndex cmd hpositive hbelow hcmd).onward hlater

/-- An applied command is known. -/
theorem knows_applyCommand (t : StreamStateTable) (raftIndex : Nat) (cmd : AppendCommand) :
    (ShardCore.applyCommand t raftIndex cmd).Knows raftIndex cmd := by
  constructor
  all_goals
    rw [ShardCore.ensureStream_applyCommand, if_pos rfl]
    exact Nat.le_max_right _ _

/-- What tables with the same states but for the tail caches know. -/
theorem KnowsBelow.restored (h : t.KnowsBelow log bound)
    (hsame : ∀ id, t'.ensureStream id = { t.ensureStream id with tailCache := [] }) :
    t'.KnowsBelow log bound := by
  refine h.onward fun id => ?_
  rw [hsame]
  exact ⟨Nat.le_refl _, Nat.le_refl _, Nat.le_refl _, Nat.le_refl _⟩

/-- The commands of a log up to a raft index, each with its own. -/
def commandsUpTo (log : Nat → Option AppendCommand) (last : Nat) : List (Nat × AppendCommand) :=
  (List.range' 1 last).filterMap fun raftIndex => (log raftIndex).map fun cmd => (raftIndex, cmd)

theorem mem_commandsUpTo {last : Nat} :
    (raftIndex, cmd) ∈ commandsUpTo log last ↔
      (1 ≤ raftIndex ∧ raftIndex ≤ last) ∧ log raftIndex = some cmd := by
  unfold commandsUpTo
  simp only [List.mem_filterMap, List.mem_range'_1, Option.map_eq_some_iff, Prod.mk.injEq]
  constructor
  · rintro ⟨i, hrange, cmd', hcmd, rfl, rfl⟩
    exact ⟨by omega, hcmd⟩
  · rintro ⟨hrange, hcmd⟩
    exact ⟨raftIndex, by omega, cmd, hcmd, rfl, rfl⟩

/-- What applying the commands of a log up to a raft index to an empty table gives. -/
def appliedUpTo (log : Nat → Option AppendCommand) (last : Nat) : StreamStateTable :=
  (commandsUpTo log last).foldl (fun t c => ShardCore.applyCommand t c.1 c.2) (.new 0)

/-- What commands reach from nothing, a state has that none of them is beyond. -/
theorem le_of_reaches {value known id reached : Nat} {commands : List (Nat × AppendCommand)}
    {brings : Nat × AppendCommand → Nat} (h : Reaches value known commands id brings)
    (hknown : known = 0) (hbrings : ∀ c ∈ commands, c.2.streamId = id → brings c ≤ reached) :
    value ≤ reached := by
  rcases h with hnothing | ⟨c, hc, hid, hvalue⟩
  · omega
  · exact hvalue.trans (hbrings c hc hid)

/-- **A table that knows the commands is where they bring an empty one**, or beyond. -/
theorem notBehind_of_knowsBelow {last : Nat} (h : t.KnowsBelow log (last + 1))
    (hordered : t.Ordered) (id : Nat) :
    ((appliedUpTo log last).ensureStream id).NotBehind (t.ensureStream id) := by
  have hknows : ∀ c ∈ commandsUpTo log last, c.2.streamId = id →
      c.2.epoch ≤ (t.ensureStream id).maxEpoch ∧
        c.2.streamLsn + 1 ≤ (t.ensureStream id).commitStreamLsn ∧
        c.1 ≤ (t.ensureStream id).lastEntryId := by
    rintro ⟨raftIndex, cmd⟩ hc rfl
    obtain ⟨⟨hpositive, hlast⟩, hcmd⟩ := mem_commandsUpTo.mp hc
    have hknown := h raftIndex cmd hpositive (Nat.lt_succ_of_le hlast) hcmd
    exact ⟨hknown.maxEpoch, hknown.commitStreamLsn, hknown.lastEntryId⟩
  have hreaches := fun value => le_applied_iff (.new 0) (commandsUpTo log last) id value
  constructor
  · refine le_of_reaches ((hreaches _).2.1.mp (Nat.le_refl _)) (by rw [ensureStream_new]; rfl) ?_
    intro c hc hid
    exact (hknows c hc hid).2.1.trans (hordered id)
  · refine le_of_reaches ((hreaches _).2.2.1.mp (Nat.le_refl _)) (by rw [ensureStream_new]; rfl) ?_
    intro c hc hid
    exact (hknows c hc hid).2.1
  · refine le_of_reaches ((hreaches _).1.mp (Nat.le_refl _)) (by rw [ensureStream_new]; rfl) ?_
    intro c hc hid
    exact (hknows c hc hid).1
  · refine le_of_reaches ((hreaches _).2.2.2.mp (Nat.le_refl _)) (by rw [ensureStream_new]; rfl) ?_
    intro c hc hid
    exact (hknows c hc hid).2.2

end StreamStateTable

open StreamStateTable

namespace Replica

variable {hash : Bytes → UInt32} {log : Nat → Option AppendCommand} {s t : Replica}

/-! ### What raft promises -/

/-- The counters of a table are 64 bits wide. -/
def Counted (t : StreamStateTable) : Prop := ∀ status ∈ t.allStatuses, status.Fits

/-- What the raft crate and the disk promise: entries are handed on in order, each from
the one on that the log has first; a `Ready` without a snapshot fits the stored log;
nothing counts as applied that was not handed on; a process finds the files of the
process before. The counters of streams do not run over their 64 bits. -/
def Promised (log : Nat → Option AppendCommand) (s : Replica) : ReplicaAction → Prop
  | .store ready         => ready.snapshot.isEmpty = true ∧
      EntriesFit s.engine.raft.store.state ready
  | .apply _ raftIndex _ => raftIndex = s.cursor ∧
      ∀ cmd ∈ log raftIndex, Counted (ShardCore.applyCommand s.table raftIndex cmd)
  | .advance advanced    => advanced.applied < s.cursor
  | .restart dir _ _ _   => dir = s.engine.dir
  | _                    => True

instance (t : StreamStateTable) : Decidable (Counted t) := List.decidableBAll _ _

instance (s : Replica) (a : ReplicaAction) : Decidable (Promised log s a) := by
  rcases a with _ | _ | _ | _ | _ | _ | _ | _ <;> dsimp only [Promised] <;> infer_instance

/-! ### What every step keeps -/

/-- A stored snapshot can be read, and knows every command up to its index. -/
def SnapshotKnows (log : Nat → Option AppendCommand) (p : PersistentState) : Prop :=
  ∀ limit, ∃ recovered, decodeSnapshot limit p.snapshot.data = .ok recovered ∧
    recovered.Ordered ∧ recovered.KnowsBelow log (p.snapshot.metadata.index + 1)

theorem SnapshotKnows.congr {p q : PersistentState} (h : SnapshotKnows log q)
    (hsame : p.snapshot = q.snapshot) : SnapshotKnows log p := by
  unfold SnapshotKnows
  rw [hsame]
  exact h

/-- What is restored from such a snapshot. -/
theorem SnapshotKnows.of_decoded {p : PersistentState} (h : SnapshotKnows log p) {limit : Nat}
    {recovered : StreamStateTable}
    (hdecode : decodeSnapshot limit p.snapshot.data = .ok recovered) :
    recovered.Ordered ∧ recovered.KnowsBelow log (p.snapshot.metadata.index + 1) := by
  obtain ⟨recovered', hdecode', hordered, hknows⟩ := h limit
  rw [hdecode] at hdecode'
  cases hdecode'
  exact ⟨hordered, hknows⟩

/-- A snapshot that has room in its message has fewer than 2^32 streams. -/
theorem allStatuses_lt_of_encodeSnapshot {table : StreamStateTable}
    (hroom : table.encodeSnapshot.length < 2 ^ 32) : table.allStatuses.length < 2 ^ 32 := by
  rw [encodeSnapshot_eq_snapshotBytes, length_snapshotBytes] at hroom
  omega

/-- A snapshot that was just made and stored knows what its table does. -/
theorem snapshotKnows_encode {table : StreamStateTable} {p : PersistentState} {bound : Nat}
    (hcounted : Counted table) (hroom : table.encodeSnapshot.length < 2 ^ 32)
    (hordered : table.Ordered) (hknows : table.KnowsBelow log bound)
    (hdata : p.snapshot.data = table.encodeSnapshot)
    (hindex : p.snapshot.metadata.index < bound) : SnapshotKnows log p := by
  intro limit
  have hsame := ensureStream_ofStatuses_allStatuses table limit
  have hfew := allStatuses_lt_of_encodeSnapshot hroom
  refine ⟨_, by rw [hdata]; exact decodeSnapshot_encodeSnapshot hcounted hfew limit, ?_, ?_⟩
  · intro id
    rw [hsame]
    exact hordered id
  · intro raftIndex cmd hpositive hbelow hcmd
    exact hknows.restored hsame raftIndex cmd hpositive (Nat.lt_of_lt_of_le hbelow hindex) hcmd

/-- **The invariant over the three stores.** -/
structure Positioned (log : Nat → Option AppendCommand) (s : Replica) : Prop where
  linked : ∀ p, s.engine.raft.store.Held p → p.Linked
  stored : ∀ p, s.engine.raft.store.Held p → SnapshotKnows log p
  applied : s.engine.raft.applied < s.cursor
  ordered : s.table.Ordered
  knows : s.table.KnowsBelow log s.cursor

/-- What moves no position back and stores nothing. -/
theorem Positioned.onward (h : s.Positioned log) (htable : s.table.Onward t.table)
    (hordered : t.table.Ordered) (hstore : t.engine.raft.store = s.engine.raft.store)
    (happlied : t.engine.raft.applied = s.engine.raft.applied) (hcursor : t.cursor = s.cursor) :
    t.Positioned log where
  linked := by rw [hstore]; exact h.linked
  stored := by rw [hstore]; exact h.stored
  applied := by rw [happlied, hcursor]; exact h.applied
  ordered := hordered
  knows := by rw [hcursor]; exact h.knows.onward htable

/-- What only allocates, or not even that. -/
theorem Positioned.allocates (h : s.Positioned log) (htable : s.table.Allocates t.table)
    (hstore : t.engine.raft.store = s.engine.raft.store)
    (happlied : t.engine.raft.applied = s.engine.raft.applied) (hcursor : t.cursor = s.cursor) :
    t.Positioned log :=
  h.onward htable.onward (htable.ordered h.ordered) hstore happlied hcursor

/-- **A request** consumes or allocates at most. -/
theorem Positioned.request (h : s.Positioned log) {req : ShardRequest}
    (hs : s.step hash log (.request req) = some t) : t.Positioned log := by
  obtain ⟨hstore, happlied, hcursor, -⟩ := raft_request hs
  rcases table_request hs with ⟨-, hacked⟩ | ⟨-, hallocates⟩
  · refine h.onward ?_ ?_ hstore happlied hcursor
    · rw [hacked]
      exact onward_advanceConsumed _ _ _
    · rw [hacked]
      exact ordered_advanceConsumed h.ordered _ _
  · exact h.allocates hallocates hstore happlied hcursor

/-- **Storing** what raft has ready adds entries behind the snapshot. -/
theorem Positioned.store (h : s.Positioned log) {ready : Ready}
    (hok : Promised log s (.store ready)) (hs : s.step hash log (.store ready) = some t) :
    t.Positioned log := by
  obtain ⟨hempty, hentries⟩ := hok
  obtain ⟨outbound, stepped, stopped, rfl⟩ := step_store hs
  refine ⟨fun p hp => PersistentStorage.linked_storeReady h.linked hempty hentries hp,
    fun p hp => ?_, h.applied, h.ordered, h.knows⟩
  obtain ⟨q, hq, hsame⟩ := PersistentStorage.snapshot_storeReady hempty hp
  exact (h.stored q hq).congr hsame

/-- **Applying**: the table knows the command, and a snapshot that is due is made of this
table, with an index below it. -/
theorem Positioned.apply (h : s.Positioned log) {clock : Clock} {raftTerm : Nat}
    {cmd : AppendCommand} {e : ShardEngine} {stopped : Bool} (hcmd : log s.cursor = some cmd)
    (hcounted : Counted (ShardCore.applyCommand s.table s.cursor cmd))
    (happly : s.engine.Applies hash clock s.cursor raftTerm cmd e) :
    (s.noteApplied clock s.cursor cmd e stopped).Positioned log := by
  have htable := table_noteApplied happly stopped
  have hordered := ordered_applyCommand h.ordered s.cursor cmd
  have hknows : (ShardCore.applyCommand s.table s.cursor cmd).KnowsBelow log (s.cursor + 1) := by
    intro raftIndex cmd' hpositive hbelow hcmd'
    rcases Nat.lt_succ_iff_lt_or_eq.mp hbelow with hold | rfl
    · exact (h.knows raftIndex cmd' hpositive hold hcmd').onward (onward_applyCommand _ _ _)
    · rw [hcmd] at hcmd'
      cases hcmd'
      exact knows_applyCommand _ _ _
  obtain ⟨w, dir, n, store, responses, -, hstore, rfl⟩ := happly.eq
  refine ⟨fun p hp => PersistentStorage.linked_maybeSnapshot h.linked hstore hp,
    fun p hp => ?_, Nat.lt_succ_of_lt h.applied, ?_, ?_⟩
  · rcases PersistentStorage.snapshot_maybeSnapshot hstore hp with
      ⟨q, hq, hsame⟩ | ⟨hroom, hdata, hindex⟩
    · exact (h.stored q hq).congr hsame
    · refine snapshotKnows_encode hcounted hroom hordered hknows hdata ?_
      rw [hindex]
      exact Nat.lt_succ_of_lt h.applied
  · rw [htable]
    exact hordered
  · rw [htable]
    exact hknows

/-- **A restart** begins with the snapshot, behind which the log goes on. -/
theorem Positioned.restart (h : s.Positioned log) {dir : ShardDir} {file : Nat}
    {config : ServerConfig} {createdTsNs : Nat}
    (hs : s.step hash log (.restart dir file config createdTsNs) = some t) :
    t.Positioned log := by
  obtain ⟨p, recovered, -, hrestarted⟩ := step_restart hs
  have hlinked := h.linked p hrestarted.held
  obtain ⟨hordered, hknows⟩ := (h.stored p hrestarted.held).of_decoded hrestarted.decoded
  refine ⟨fun q hq => hrestarted.held_eq hq ▸ hlinked,
    fun q hq => hrestarted.held_eq hq ▸ h.stored p hrestarted.held, ?_, ?_, ?_⟩
  · have hpositive := hlinked.positive
    rw [hrestarted.applied, hrestarted.cursor]
    omega
  · rw [hrestarted.table]
    exact ordered_recoverStreams hordered _ _
  · rw [hrestarted.table, hrestarted.cursor]
    intro raftIndex cmd hpositive hbelow hcmd
    exact (hknows raftIndex cmd hpositive (Nat.lt_of_lt_of_le hbelow hlinked.reaches)
      hcmd).onward (onward_recoverStreams _ _ _)

/-- **Every promised step keeps the invariant.** -/
theorem positioned_step {a : ReplicaAction} (h : s.Positioned log) (hpromised : Promised log s a)
    (hs : s.step hash log a = some t) : t.Positioned log := by
  cases a with
  | request req => exact h.request hs
  | role state leaderId committed accepting =>
      cases hs
      exact h.allocates (.refl _) rfl rfl rfl
  | store ready => exact h.store hpromised hs
  | apply clock raftIndex raftTerm =>
      obtain ⟨rfl, hcounted⟩ := hpromised
      obtain ⟨-, ⟨hnone, rfl⟩ | ⟨cmd, e, stopped, hcmd, happly, rfl⟩⟩ := step_apply hs
      · -- A skipped entry has no command to be known.
        refine ⟨h.linked, h.stored, Nat.lt_succ_of_lt h.applied, h.ordered, ?_⟩
        intro raftIndex cmd hpositive hbelow hcmd
        rcases Nat.lt_succ_iff_lt_or_eq.mp hbelow with hold | rfl
        · exact h.knows raftIndex cmd hpositive hold hcmd
        · rw [hnone] at hcmd
          cases hcmd
      · exact h.apply hcmd (hcounted cmd hcmd) happly
  -- The counters move within what was promised, and the table stays.
  | advance advanced =>
      obtain ⟨outbound, stepped, rfl⟩ := step_advance hs
      exact ⟨h.linked, h.stored, hpromised, h.ordered, h.knows⟩
  | observe =>
      have htable := allocates_observe hs
      cases hs
      exact h.allocates htable rfl rfl rfl
  | gc =>
      obtain ⟨walReader, rfl⟩ := step_gc hs
      exact h.allocates (.refl _) rfl rfl rfl
  | restart dir file config createdTsNs => exact h.restart hs

theorem positioned_started (log : Nat → Option AppendCommand) (shardId : Nat)
    (config : ServerConfig) (createdTsNs : Nat) :
    (started shardId config createdTsNs).Positioned log where
  linked p hp := by
    rw [PersistentStorage.held_single hp]
    exact PersistentState.linked_bootstrap _
  stored p hp limit := by
    rw [PersistentStorage.held_single hp]
    refine ⟨.new limit, rfl, ordered_new limit, fun raftIndex cmd hpositive hbelow _ => ?_⟩
    exact absurd hbelow (Nat.not_lt.mpr hpositive)
  applied := Nat.one_pos
  ordered := ordered_new _
  knows raftIndex cmd hpositive hbelow _ := absurd hbelow (Nat.not_lt.mpr hpositive)

/-! ### No position goes back -/

/-- Every stream is where the commands that were ever handed on have brought it. -/
def NotBehind (log : Nat → Option AppendCommand) (s : Replica) : Prop :=
  ∀ id, ((appliedUpTo log s.high).ensureStream id).NotBehind (s.table.ensureStream id)

theorem positioned_of_reachable {shardId : Nat} {config : ServerConfig} {createdTsNs : Nat}
    (h : (replica hash log shardId config createdTsNs).Reachable (Promised log) s) :
    s.Positioned log :=
  h.invariant (positioned_started log shardId config createdTsNs)
    fun _ _ _ _ hpositioned hok hs => positioned_step hpositioned hok (step_of_replica hs)

/-- **A process can start again** on the own files, whenever the one before stops. -/
theorem Positioned.exists_restart (h : s.Positioned log) (hlog : s.OwnLog hash) {file : Nat}
    {p : PersistentState} (hfile : s.engine.raft.store.written[file]? = some p)
    (config : ServerConfig) (createdTsNs : Nat) :
    ∃ t, s.step hash log (.restart s.engine.dir file config createdTsNs) = some t := by
  have hheld : s.engine.raft.store.Held p := Or.inr (List.mem_of_getElem? hfile)
  obtain ⟨recovered, hdecode, -⟩ := h.stored p hheld config.tailCacheEntries
  obtain ⟨t, hs, -⟩ := hlog.exists_restart log config createdTsNs hfile hdecode
  exact ⟨t, hs⟩

/-- **The next entry can be handed on**, if the stored log has what counts as applied. -/
theorem Positioned.exists_handOn (h : s.Positioned log) (hlog : s.OwnLog hash)
    (hlast : s.engine.raft.applied ≤ s.engine.raft.store.state.lastIndex) (clock : Clock)
    (raftTerm : Nat) : ∃ t, s.step hash log (.apply clock s.cursor raftTerm) = some t := by
  have hlinked := h.linked _ (Or.inl rfl)
  have hsane : s.engine.Sane :=
    ⟨hlog.clean.writerOk, hlinked.contiguous, hlinked.reaches, hlast⟩
  cases hcmd : log s.cursor with
  | none =>
      rw [step, if_pos (Nat.le_refl _), hcmd]
      exact ⟨_, rfl⟩
  | some cmd =>
      obtain ⟨e, hack, -⟩ := hsane.acknowledge hash clock s.cursor raftTerm cmd
      exact exists_step_apply (Nat.le_refl _) hcmd hack

/-- **No restart moves a position back.** In every run of promised steps, once
everything that was ever handed on is handed on again, no stream is behind. -/
theorem notBehind_of_reachable {shardId : Nat} {config : ServerConfig} {createdTsNs : Nat}
    (h : (replica hash log shardId config createdTsNs).Reachable (Promised log) s)
    (hcaughtUp : s.high < s.cursor) : s.NotBehind log := by
  have hpositioned := positioned_of_reachable h
  intro id
  refine notBehind_of_knowsBelow (fun raftIndex cmd hpositive hbelow hcmd => ?_)
    hpositioned.ordered id
  exact hpositioned.knows raftIndex cmd hpositive (Nat.lt_of_lt_of_le hbelow hcaughtUp) hcmd

/-- A stream with one command early in the log and one late, and another stream. -/
def earlyAndLate : Nat → Option AppendCommand
  | 2  => some ⟨1, 7, 1, 0, [10]⟩
  | 3  => some ⟨2, 8, 1, 0, [20]⟩
  | 66 => some ⟨3, 8, 1, 1, [21]⟩
  | _  => none

/-- A `Ready` with the raft entries up to an index, behind the first one. -/
def entriesReady (last : Nat) : Ready :=
  { Ready.empty with
    entries := (List.range' 2 (last - 1)).map fun index => ⟨.entryNormal, 1, index, [1]⟩ }

/-- The entries up to an index are stored, and all but the last are handed on and count
as applied. -/
def upToLast (last : Nat) : List ReplicaAction :=
  .store (entriesReady last) ::
    (List.range' 1 (last - 1)).map (fun raftIndex => .apply ⟨id, id⟩ raftIndex 1) ++
    [.advance ⟨⟨none, [], []⟩, last, last - 1⟩]

/-- The first stream is consumed and its file collected, and the last entry makes a
snapshot and compacts the log. -/
def compacted : List ReplicaAction :=
  upToLast 66 ++ [.request ⟨9, ⟨.ack, 7, 0, 1, []⟩⟩, .gc, .apply ⟨id, id⟩ 66 1]

/-- The files that a run leaves. -/
def dirAfter (actions : List ReplicaAction) : ShardDir :=
  ((System.execute (replica crc32 earlyAndLate 5 ⟨1, 100, 1, [1]⟩ 0) System.anyStep
    (replica crc32 earlyAndLate 5 ⟨1, 100, 1, [1]⟩ 0).init actions).map
      fun s => s.engine.dir).getD .empty

/-- A collection, a snapshot, a compaction and a restart, after which the last entry is
handed on again. -/
theorem notBehind_compacted :
    ∃ s, (replica crc32 earlyAndLate 5 ⟨1, 100, 1, [1]⟩ 0).Reachable (Promised earlyAndLate) s ∧
      s.engine.dir.files.map SegmentFile.segmentId = [1, 2, 3, 4] ∧
      s.engine.raft.store.snapshotIndex = 65 ∧ s.NotBehind earlyAndLate := by
  obtain ⟨s, hreach, hfiles, hsnapshot, hcaughtUp⟩ := System.exists_reachable_of_execute
    (replica crc32 earlyAndLate 5 ⟨1, 100, 1, [1]⟩ 0) (Promised earlyAndLate)
    (compacted ++ [.restart (dirAfter compacted) 3 ⟨1, 100, 1, [1]⟩ 9, .apply ⟨id, id⟩ 66 1])
    (fun s => s.engine.dir.files.map SegmentFile.segmentId = [1, 2, 3, 4] ∧
      s.engine.raft.store.snapshotIndex = 65 ∧ s.high < s.cursor) (by decide +kernel)
  exact ⟨s, hreach, hfiles, hsnapshot, notBehind_of_reachable hreach hcaughtUp⟩

end Replica

end WalServer.Shard
