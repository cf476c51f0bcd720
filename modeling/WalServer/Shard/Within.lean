import WalServer.Raft.Held
import WalServer.Shard.Calls
import WalServer.Shard.StepDown
import WalServer.Wal.Rebuild

/-!
# `WalServer.Shard.Within`: which streams an engine has to do with

An engine learns of a stream from a client that asks for it, from an entry of its raft
group that names it, or from a snapshot of the group that has it. It does not learn of one
in any other way, and forgets none into another's place.

`ShardEngine.Within` says of a set of streams that the engine has to do with these only:
its table, its pending writes, its index, the records of its log, what it has proposed and
handed on, and all states that its raft storage holds. What is opened on nothing is within
every set (`within_freshEngine`), a call whose input is within the set keeps the engine
there (`Within.call`), and so does a start on its own files (`Within.openEngine`).
-/

set_option autoImplicit false

namespace WalServer.Shard

open WalServer.Lib WalServer.Protocol WalServer.Raft WalServer.Wal

variable {P : Nat → Prop}

/-! ### The stream table -/

namespace StreamStateTable

variable {t : StreamStateTable} {id : Nat}

/-- The table has the stream. -/
def Has (t : StreamStateTable) (id : Nat) : Prop := (t.streams.lookup id).isSome = true

/-- The table has streams of a set only. -/
def Within (P : Nat → Prop) (t : StreamStateTable) : Prop := ∀ id, t.Has id → P id

theorem within_new (P : Nat → Prop) (limit : Nat) : (new limit).Within P := by
  intro id hhas
  cases hhas

theorem Within.put (h : t.Within P) {st : StreamReplicaState} (hid : P st.streamId) :
    (t.put st).Within P := by
  intro id hhas
  unfold Has at hhas
  rw [lookup_put] at hhas
  split at hhas
  · rename_i heq
    exact heq ▸ hid
  · exact h id hhas

/-- Whatever is written for a stream of the set. -/
theorem Within.put_ensureStream (h : t.Within P) (hid : P id) {st : StreamReplicaState}
    (hst : st.streamId = (t.ensureStream id).streamId) : (t.put st).Within P := by
  refine h.put ?_
  rw [hst, streamId_ensureStream]
  exact hid

theorem Within.allocateAppend (h : t.Within P) (hid : P id) (epoch : Nat) :
    (t.allocateAppend id epoch).1.Within P := by
  unfold StreamStateTable.allocateAppend
  simp only
  split
  · exact h.put_ensureStream hid rfl
  · exact h.put_ensureStream hid rfl

theorem Within.advanceConsumed (h : t.Within P) (hid : P id) (consumed : Nat) :
    (t.advanceConsumed id consumed).1.Within P :=
  h.put_ensureStream hid rfl

theorem Within.observeRecovered (h : t.Within P) (hid : P id) (epoch entryId lsn : Nat)
    (payload : Bytes) : (t.observeRecovered id epoch entryId lsn payload).Within P :=
  h.put_ensureStream hid rfl

theorem Within.applyCommand (h : t.Within P) {cmd : AppendCommand} (hid : P cmd.streamId)
    (raftIndex : Nat) : (ShardCore.applyCommand t raftIndex cmd).Within P := by
  have happended : (t.markAppended cmd.streamId cmd.epoch raftIndex cmd.streamLsn
      cmd.payload).Within P := h.put_ensureStream hid rfl
  exact happended.put_ensureStream hid rfl

theorem Within.rollbackAll (h : t.Within P) (drained : List PendingClientWrite) :
    (ShardCore.rollbackAll t drained).Within P := by
  intro id hhas
  unfold Has at hhas
  rw [ShardCore.isSome_lookup_rollbackAll] at hhas
  exact h id hhas

/-! ### Snapshots of a table -/

/-- A status that is listed is that of a stream in the table. -/
theorem has_of_mem_allStatuses {s : StreamStatus} (hs : s ∈ t.allStatuses) :
    t.Has s.streamId := by
  have hfind := find?_allStatuses t s.streamId
  have hsome : (t.allStatuses.find? fun s' => s'.streamId = s.streamId).isSome = true :=
    List.find?_isSome.mpr ⟨s, hs, by simp⟩
  rw [hfind, status, Option.isSome_map] at hsome
  exact hsome

/-- A table that is restored from statuses has the listed streams. -/
theorem Within.restoreAll {statuses : List StreamStatus} (h : t.Within P)
    (hall : ∀ s ∈ statuses, P s.streamId) :
    (statuses.foldl (fun t s => t.put s.restore) t).Within P := by
  induction statuses generalizing t with
  | nil => exact h
  | cons s statuses ih =>
      rw [List.foldl_cons]
      refine ih (h.put ?_) fun s' hs' => hall s' (List.mem_cons_of_mem s hs')
      exact hall s List.mem_cons_self

/-- Decoding gives the ids of the statuses that were encoded, as far as it is told to go. -/
theorem streamIds_of_decodeStatuses {statuses decoded : List StreamStatus} {count : Nat}
    (hcount : count ≤ statuses.length) (hwidth : ∀ s ∈ statuses, s.streamId < 256 ^ 8)
    (h : decodeStatuses count (encodeStatuses statuses) = .ok decoded) :
    ∀ s ∈ decoded, ∃ s' ∈ statuses, s.streamId = s'.streamId := by
  induction statuses generalizing count decoded with
  | nil =>
      obtain rfl := Nat.le_zero.mp hcount
      cases h
      intro s hs
      cases hs
  | cons first statuses ih =>
      cases count with
      | zero =>
          cases h
          intro s hs
          cases hs
      | succ count =>
          have himage : encodeStatuses (first :: statuses) =
              first.encode ++ encodeStatuses statuses := by simp [encodeStatuses]
          have hid : (StreamStatus.decode (first.encode ++ encodeStatuses statuses)).streamId =
              first.streamId := by
            have hfield : slice first.encode 0 8 = toBeBytes 8 first.streamId :=
              slice_flatten [] _ _ (by simp) (by simp)
            show fromBeBytes (slice _ 0 8) = _
            rw [slice_append_left (by simp), hfield,
              fromBeBytes_toBeBytes_of_lt (hwidth first List.mem_cons_self)]
          rw [himage, decodeStatuses, if_neg (by simp),
            List.drop_left' (StreamStatus.length_encode first)] at h
          cases hrest : decodeStatuses count (encodeStatuses statuses) with
          | error text =>
              rw [hrest] at h
              cases h
          | ok rest =>
              rw [hrest] at h
              cases h
              intro s hs
              rcases List.mem_cons.mp hs with rfl | htail
              · exact ⟨first, List.mem_cons_self, hid⟩
              · obtain ⟨s', hs', heq⟩ := ih (Nat.le_of_succ_le_succ hcount)
                  (fun s hs => hwidth s (List.mem_cons_of_mem first hs)) hrest s htail
                exact ⟨s', List.mem_cons_of_mem first hs', heq⟩

/-- **The snapshot of a table** describes streams of the table only, even when its count
of streams has run over 32 bits. -/
theorem Within.decodeSnapshot (h : t.Within P) (hwidth : ∀ id, P id → id < 256 ^ 8)
    {limit : Nat} {recovered : StreamStateTable}
    (hdecode : decodeSnapshot limit t.encodeSnapshot = .ok recovered) : recovered.Within P := by
  have hlisted : ∀ s ∈ t.allStatuses, P s.streamId := fun s hs =>
    h s.streamId (has_of_mem_allStatuses hs)
  unfold StreamStateTable.decodeSnapshot snapshotStatuses at hdecode
  split at hdecode
  · cases hdecode
    exact within_new P limit
  · split at hdecode
    · cases hdecode
    · have hcount : slice t.encodeSnapshot 0 4 = toBeBytes 4 t.allStatuses.length := by
        rw [encodeSnapshot, slice_zero]
        exact List.take_left' (length_toBeBytes 4 _)
      have hbody : t.encodeSnapshot.drop 4 = encodeStatuses t.allStatuses :=
        List.drop_left' (length_toBeBytes 4 _)
      rw [hcount, hbody, fromBeBytes_toBeBytes] at hdecode
      cases hstatuses : decodeStatuses (t.allStatuses.length % 256 ^ 4)
          (encodeStatuses t.allStatuses) with
      | error text =>
          rw [hstatuses] at hdecode
          cases hdecode
      | ok decoded =>
          rw [hstatuses] at hdecode
          cases hdecode
          refine (within_new P limit).restoreAll fun s hs => ?_
          obtain ⟨s', hs', heq⟩ := streamIds_of_decodeStatuses (Nat.mod_le _ _)
            (fun s hs => hwidth _ (hlisted s hs)) hstatuses s hs
          rw [heq]
          exact hlisted s' hs'

end StreamStateTable

/-! ### The core -/

namespace ShardCore

variable {c : ShardCore}

/-- The table and the pending writes are of a set of streams only. -/
structure Within (P : Nat → Prop) (c : ShardCore) : Prop where
  table : c.streams.Within P
  pending : ∀ requestId p, c.pendingWrites.lookup requestId = some p → P p.streamId

theorem Within.admitWrite (h : c.Within P) {id : Nat} (hid : P id) (conn epoch : Nat)
    (payload : Bytes) : (c.admitWrite conn id epoch payload).1.Within P := by
  have htable := h.table.allocateAppend hid epoch
  unfold ShardCore.admitWrite
  cases hallocate : c.streams.allocateAppend id epoch with
  | mk streams result =>
      rw [hallocate] at htable
      cases result with
      | error failure =>
          cases failure
          exact ⟨htable, h.pending⟩
      | ok lsn =>
          refine ⟨htable, fun requestId p hp => ?_⟩
          rw [AssocMap.lookup_insert_eq] at hp
          split at hp
          · cases hp
            exact hid
          · exact h.pending requestId p hp

theorem Within.completeAppend (h : c.Within P) {cmd : AppendCommand} (hid : P cmd.streamId)
    (raftIndex : Nat) : (c.completeAppend raftIndex cmd).1.Within P := by
  refine ⟨h.table.applyCommand hid raftIndex, fun requestId p hp => ?_⟩
  have hlookup : (c.pendingWrites.erase cmd.requestId).lookup requestId = some p := hp
  rw [AssocMap.lookup_erase_eq] at hlookup
  split at hlookup
  · cases hlookup
  · exact h.pending requestId p hlookup

theorem Within.logRaftStateIfChanged (h : c.Within P) (role : StateRole) (leaderId : Nat) :
    (c.logRaftStateIfChanged role leaderId).1.Within P := by
  by_cases hdown : c.observedRole = .leader ∧ role ≠ .leader
  · -- The pending writes are given up.
    rw [logRaftStateIfChanged_down hdown.1 hdown.2]
    exact ⟨h.table.rollbackAll _, fun requestId p hp => by cases hp⟩
  · rw [logRaftStateIfChanged_stay fun hobs => by_contra fun hrole => hdown ⟨hobs, hrole⟩]
    exact ⟨h.table, h.pending⟩

end ShardCore

/-! ### The engine -/

/-- The data of a snapshot describes streams of a set only. -/
def SnapshotWithin (P : Nat → Prop) (snapshot : Snapshot) : Prop :=
  ∀ limit t, StreamStateTable.decodeSnapshot limit snapshot.data = .ok t → t.Within P

/-- The command of an entry, if it has one, is of a stream of a set. -/
def EntryWithin (P : Nat → Prop) (entry : LogEntry) : Prop :=
  ∀ raftIndex cmd, ShardEngine.commandOf entry = some (raftIndex, cmd) → P cmd.streamId

/-- What a call brings from outside is of a set of streams only. -/
def EngineCall.For (P : Nat → Prop) : EngineCall → Prop
  | .request req   => P req.request.streamId
  | .store ready   =>
      (ready.snapshot.isEmpty = false → SnapshotWithin P ready.snapshot) ∧
        ∀ entry ∈ ready.entries, EntryWithin P entry
  | .apply _ entry => EntryWithin P entry
  | _              => True

/-- Raft indexes and clock readings are 64-bit, and the payloads of commands are short
enough for the length field of a record. -/
def EngineCall.Typed : EngineCall → Prop
  | .apply clock entry => ∀ command ∈ ShardEngine.commandOf entry,
      command.1 < 256 ^ 8 ∧ clock.record command.1 < 256 ^ 8 ∧
        command.2.payload.length < 2 ^ 32 - 40
  | _                  => True

instance : (c : EngineCall) → Decidable c.Typed
  | .apply clock entry => inferInstanceAs (Decidable (∀ command ∈ ShardEngine.commandOf entry,
      command.1 < 256 ^ 8 ∧ clock.record command.1 < 256 ^ 8 ∧
        command.2.payload.length < 2 ^ 32 - 40))
  | .request _         => .isTrue trivial
  | .step _            => .isTrue trivial
  | .move _            => .isTrue trivial
  | .store _           => .isTrue trivial
  | .advance _         => .isTrue trivial
  | .observe           => .isTrue trivial
  | .collect           => .isTrue trivial

namespace ShardEngine

/-- **The engine has to do with a set of streams only**, and its log is clean, so that
what it has written is what a start finds. -/
structure Within (hash : Bytes → UInt32) (P : Nat → Prop) (e : ShardEngine) : Prop where
  core : e.core.Within P
  index : ∀ id lsn loc, e.index.lookup id lsn = some loc → P id
  clean : CleanLog hash e.walWriter e.dir
  records : ∀ p ∈ e.dir.found hash, P p.1.streamId
  handed : ∀ x ∈ e.handed, P x.cmd.streamId
  proposed : ∀ data ∈ e.raft.proposals, ∀ cmd, decodeAppendCommand data = .ok cmd →
    P cmd.streamId
  states : ∀ p, e.raft.store.Held p → p.MadeOf (SnapshotWithin P) (EntryWithin P)

variable {hash : Bytes → UInt32} {e e' : ShardEngine}

/-- What a request proposes is a command of its stream. -/
theorem proposals_request {req : ShardRequest} (h : e.handleClientRequest hash req = .ok e')
    {data : Bytes} (hdata : data ∈ e'.raft.proposals) :
    data ∈ e.raft.proposals ∨
      ∃ cmd, data = encodeAppendCommand cmd ∧ cmd.streamId = req.request.streamId := by
  unfold handleClientRequest at h
  cases hop : req.request.op with
  | write =>
      simp only [hop] at h
      unfold handleWrite at h
      split at h
      · cases h
        exact Or.inl hdata
      · split at h
        · cases h
          exact Or.inl hdata
        · rename_i core cmd hwrite
          split at h
          · cases h
            rcases List.mem_append.mp hdata with hold | hnew
            · exact Or.inl hold
            · refine Or.inr ⟨cmd, List.mem_singleton.mp hnew, ?_⟩
              rw [(ShardCore.admitWrite_eq_ok hwrite).1]
          · cases h
  | read =>
      simp only [hop] at h
      unfold handleRead at h
      split at h
      · cases h
        exact Or.inl hdata
      · obtain ⟨walReader, r, -, rfl⟩ := readStream_eq_ok h
        exact Or.inl hdata
  | ack =>
      simp only [hop] at h
      cases h
      exact Or.inl hdata
  | getStatus =>
      simp only [hop] at h
      cases h
      unfold handleGetStatus at hdata
      split at hdata
      · exact Or.inl hdata
      · exact Or.inl hdata

/-- **A request** for a stream of the set. -/
theorem Within.request (h : e.Within hash P) (hwidth : ∀ id, P id → id < 256 ^ 8)
    {req : ShardRequest} (hid : P req.request.streamId)
    (hcall : e.handleClientRequest hash req = .ok e') : e'.Within hash P := by
  have hproposed : ∀ data ∈ e'.raft.proposals, ∀ cmd, decodeAppendCommand data = .ok cmd →
      P cmd.streamId := by
    intro data hdata cmd hdecode
    rcases proposals_request hcall hdata with hold | ⟨own, rfl, hown⟩
    · exact h.proposed data hold cmd hdecode
    · rw [streamId_of_decodeAppendCommand (hown ▸ hwidth _ hid) hdecode, hown]
      exact hid
  have hcore : (e.coreAfter req).Within P := by
    unfold coreAfter
    cases req.request.op with
    | write =>
        dsimp only
        split
        · exact h.core.admitWrite hid _ _ _
        · exact h.core
    | ack => exact ⟨h.core.table.advanceConsumed hid _, h.core.pending⟩
    | read => exact h.core
    | getStatus => exact h.core
  obtain ⟨walReader, responses, proposals, rfl⟩ := handleClientRequest_eq_ok hcall
  exact ⟨hcore, h.index, h.clean, h.records, h.handed, hproposed, h.states⟩

/-- **Applying** a command of a stream of the set. -/
theorem Within.apply (h : e.Within hash P) (hwidth : ∀ id, P id → id < 256 ^ 8) {clock : Clock}
    {raftIndex raftTerm : Nat} {cmd : AppendCommand} (hid : P cmd.streamId) (hfits : cmd.Fits)
    (hpayload : cmd.payload.length < 2 ^ 32 - 40) (hindex : raftIndex < 256 ^ 8)
    (htime : clock.record raftIndex < 256 ^ 8)
    (hcall : e.applyAppendEntry hash clock raftIndex raftTerm cmd = .ok e') :
    e'.Within hash P := by
  have hrecord := recordOf_fits hfits hindex htime (by omega)
  obtain ⟨w, dir, n, store, responses, happend, hstore, rfl⟩ := Applies.eq (Or.inl hcall)
  obtain ⟨w₁, dir₁, hrun, hclean, hfound, -⟩ := h.clean.append hrecord (clock.segment raftIndex)
  have hsame : Outcome.ok (w₁, dir₁, raftIndex, appendLocation e.walWriter
      (recordOf clock raftIndex cmd)) = .ok (w, dir, n, _) := hrun.symm.trans happend
  cases hsame
  obtain ⟨hsynced, hall⟩ := hclean.sync
  have htable := h.core.table.applyCommand hid raftIndex
  refine ⟨h.core.completeAppend hid raftIndex, fun id lsn loc hloc => ?_, hsynced,
    fun p hp => ?_, fun x hx => ?_, h.proposed, fun p hp => ?_⟩
  · rw [StreamLogIndex.lookup_insert] at hloc
    split at hloc
    · rename_i hkey
      exact hkey.1 ▸ hid
    · exact h.index id lsn loc hloc
  · have hp' : p ∈ (w.sync dir).found hash := hp
    rw [hall, hfound] at hp'
    rcases List.mem_append.mp hp' with hold | hnew
    · exact h.records p hold
    · rw [List.mem_singleton.mp hnew]
      exact hid
  · rcases List.mem_append.mp hx with hold | hnew
    · exact h.handed x hold
    · rw [List.mem_singleton.mp hnew]
      exact hid
  · -- The snapshot that is taken is that of the new table.
    exact PersistentStorage.made_maybeSnapshot h.states
      (fun _ _ _ hdecode => htable.decodeSnapshot hwidth hdecode) hstore hp

/-- **Garbage collection** takes from the index and from the files. -/
theorem Within.gc (h : e.Within hash P) : e.runGc.Within hash P := by
  obtain ⟨walReader, heq⟩ := runGc_eq e
  obtain ⟨hclean, hfound⟩ := h.clean.keep e.gcKeeps_current
  rw [heq]
  refine ⟨h.core, fun id lsn loc hloc => ?_, hclean, fun p hp => ?_, h.handed, h.proposed,
    h.states⟩
  · have hlookup : e.gcIndex.lookup id lsn = some loc := hloc
    rw [lookup_gcIndex] at hlookup
    split at hlookup
    · cases hlookup
    · exact h.index id lsn loc hlookup
  · have hkept : p ∈ (e.dir.keep e.gcKeeps).found hash := hp
    rw [hfound] at hkept
    exact h.records p (List.mem_of_mem_filter hkept)

/-- **Every call** whose input is within the set keeps the engine there. -/
theorem Within.call (h : e.Within hash P) (hwidth : ∀ id, P id → id < 256 ^ 8) {c : EngineCall}
    (hfor : c.For P) (htyped : c.Typed) (hcall : e.call hash c = .ok e') :
    e'.Within hash P := by
  cases c with
  | request req => exact h.request hwidth hfor hcall
  | step message =>
      cases hcall
      exact ⟨h.core, h.index, h.clean, h.records, h.handed, h.proposed, h.states⟩
  | move view =>
      cases hcall
      exact ⟨h.core, h.index, h.clean, h.records, h.handed, h.proposed, h.states⟩
  | store ready =>
      unfold ShardEngine.call at hcall
      simp only at hcall
      split at hcall
      · rename_i store hstore
        cases hcall
        obtain ⟨outbound, stepped, heq⟩ := afterStore_eq e store ready
        rw [heq]
        refine ⟨h.core, h.index, h.clean, h.records, h.handed, h.proposed, fun p hp => ?_⟩
        have hheld : (e.raft.store.storeReady ready).1.Held p := by
          rw [hstore]
          exact hp
        exact PersistentStorage.made_storeReady h.states hfor.1 hfor.2 hheld
      · cases hcall
      · cases hcall
  | apply clock entry =>
      have hrun : applyCommittedEntries hash clock [entry] e = .ok e' := hcall
      cases hcommand : isCommand entry with
      | false =>
          rw [applyCommittedEntries_skip hcommand] at hrun
          cases hrun
          exact h
      | true =>
          rw [applyCommittedEntries_command hcommand] at hrun
          cases hdecode : decodeAppendCommand entry.data with
          | error failure =>
              rw [hdecode] at hrun
              cases hrun
          | ok cmd =>
              rw [hdecode] at hrun
              obtain ⟨e₁, happly, hret⟩ := Outcome.bind_eq_ok.mp hrun
              cases hret
              have hcmd := commandOf_command hcommand hdecode
              obtain ⟨hindex, htime, hpayload⟩ := htyped _ hcmd
              exact h.apply hwidth (hfor _ _ hcmd) (fits_of_decodeAppendCommand hdecode) hpayload
                hindex htime happly
  | advance advanced =>
      cases hcall
      obtain ⟨outbound, stepped, heq⟩ := advance_eq e advanced
      rw [heq]
      exact ⟨h.core, h.index, h.clean, h.records, h.handed, h.proposed, h.states⟩
  | observe =>
      cases hcall
      exact ⟨h.core.logRaftStateIfChanged _ _, h.index, h.clean, h.records, h.handed, h.proposed,
        h.states⟩
  | collect =>
      cases hcall
      exact h.gc

/-! ### Starts -/

/-- An engine that starts on an empty directory has to do with no stream. -/
theorem within_freshEngine (hash : Bytes → UInt32) (P : Nat → Prop) (shardId : Nat)
    (config : ServerConfig) (createdTsNs : Nat) :
    (freshEngine shardId config createdTsNs).Within hash P := by
  obtain ⟨hclean, hfound⟩ := cleanLog_created hash shardId config.segmentMaxBytes
    config.tailCacheEntries createdTsNs
  refine ⟨⟨StreamStateTable.within_new P _, fun _ _ hp => by cases hp⟩,
    (fun _ _ _ hloc => by cases hloc), hclean, fun p hp => ?_, (fun _ hx => by cases hx),
    (fun _ hdata => by cases hdata), fun p hp => ?_⟩
  · have hnone : p ∈ (LiveLog.created shardId config.segmentMaxBytes config.tailCacheEntries
        createdTsNs).dir.found hash := hp
    rw [hfound] at hnone
    cases hnone
  · -- The storage holds the state that it starts with.
    rw [PersistentStorage.held_single hp]
    refine ⟨fun limit t hdecode => ?_, fun entry hentry => ?_⟩
    · cases hdecode
      exact StreamStateTable.within_new P limit
    · rw [List.mem_singleton.mp hentry]
      intro raftIndex cmd hcommand
      cases hcommand

/-- **A start** on the files of an engine, from one of the states that its raft storage has
held. -/
theorem Within.openEngine (h : e.Within hash P) {shardId : Nat} {config : ServerConfig}
    {p : PersistentState} {createdTsNs : Nat} (hp : e.raft.store.Held p)
    (hopen : ShardEngine.openEngine hash shardId config (some p) e.dir createdTsNs = .ok e') :
    e'.Within hash P := by
  obtain ⟨recovered, w, dir', index, streams, hdecode, hdir, rfl⟩ := openEngine_eq_ok hopen
  rw [h.clean.openWriter] at hdir
  cases hdir
  have hmade := h.states p hp
  have htable : (recoverStreams recovered p.snapshot.metadata.index
      ((e.dir.found hash).map Prod.fst)).Within P := by
    refine recoverStreams_invariant (P := fun t => t.Within P)
      (hmade.snapshot _ _ hdecode) fun t r hr _ ht => ?_
    obtain ⟨q, hq, rfl⟩ := List.mem_map.mp hr
    exact ht.observeRecovered (h.records q hq) _ _ _ _
  refine ⟨⟨htable, fun _ _ hp => by cases hp⟩, fun id lsn loc hloc => ?_,
    ⟨h.clean.clean, h.clean.last, h.clean.next⟩, h.records, (fun _ hx => by cases hx),
    (fun _ hdata => by cases hdata), fun q hq => ?_⟩
  · obtain ⟨q, hq, hid, -, -⟩ := mem_of_lookup_indexRecords hloc
    exact hid ▸ h.records q hq
  · rw [PersistentStorage.held_single hq]
    exact hmade

end ShardEngine

end WalServer.Shard
