import WalServer.Shard.Positions

/-!
# `WalServer.Shard.Redelivery`: entries that are handed on a second time

The engine opens its raft node without an applied index. So raft hands on again every
committed entry that the stored log has, those too whose records recovery has just
replayed. `apply_append_entry` does not ask whether the log has the record of an entry:
it appends the record and pushes it onto the tail cache each time.

What a stream's status says is a maximum over commands, so the second time leaves every
status as recovery rebuilt it (`status_redelivered`). A tail cache gets the record once
more, and the log has then two records of one raft index. What is meant to hold of
redelivery (`Idempotent`) therefore holds exactly if nothing is handed on that has a
command (`idempotent_iff`).
-/

set_option autoImplicit false

namespace WalServer.Shard

open WalServer.Lib WalServer.Protocol WalServer.Raft WalServer.Wal

/-- Without pending writes the end of an iteration gives nothing up. -/
theorem ShardCore.idle_logRaftStateIfChanged {c : ShardCore} (h : c.pendingWrites = ∅)
    (role : StateRole) (leaderId : Nat) :
    (c.logRaftStateIfChanged role leaderId).1.streams = c.streams ∧
      (c.logRaftStateIfChanged role leaderId).1.pendingWrites = ∅ := by
  by_cases hdown : c.observedRole = .leader ∧ role ≠ .leader
  · rw [logRaftStateIfChanged_down hdown.1 hdown.2, h]
    refine ⟨?_, rfl⟩
    show rollbackAll c.streams [] = c.streams
    unfold rollbackAll
    rw [List.mergeSort_nil, List.foldl_nil]
  · unfold logRaftStateIfChanged
    rw [if_neg hdown]
    split
    · exact ⟨rfl, h⟩
    · exact ⟨rfl, h⟩

/-! ### Commands that a table knows -/

namespace StreamStateTable

variable {t : StreamStateTable} {raftIndex bound : Nat} {cmd : AppendCommand}

/-- The stream of a known command is in the table. -/
theorem Knows.lookup (h : t.Knows raftIndex cmd) :
    t.streams.lookup cmd.streamId = some (t.ensureStream cmd.streamId) := by
  have hcommit := h.commitStreamLsn
  unfold ensureStream at hcommit ⊢
  cases hlookup : t.streams.lookup cmd.streamId with
  | none =>
      -- A stream that is not there has nothing committed.
      rw [hlookup] at hcommit
      exact absurd hcommit (Nat.not_succ_le_zero _)
  | some st => rfl

/-- **Applying a known command** changes no status: each of its maxima is reached. -/
theorem status_applyCommand (h : t.Knows raftIndex cmd) (hordered : t.Ordered) (id : Nat) :
    (ShardCore.applyCommand t raftIndex cmd).status id = t.status id := by
  have hnext : cmd.streamLsn + 1 ≤ (t.ensureStream cmd.streamId).nextStreamLsn :=
    h.commitStreamLsn.trans (hordered _)
  rw [ShardCore.applyCommand_eq_observeRecovered]
  unfold status observeRecovered
  rw [lookup_put]
  split
  · rename_i hid
    have hsame : id = cmd.streamId := hid.trans (streamId_ensureStream t cmd.streamId)
    rw [hsame, h.lookup]
    simp [StreamReplicaState.status, Nat.max_eq_left h.maxEpoch, Nat.max_eq_left hnext,
      Nat.max_eq_left h.commitStreamLsn, Nat.max_eq_left h.lastEntryId]
  · rfl

/-- Known commands change no status, one after the other. -/
theorem status_foldl_applyCommand {commands : List (Nat × AppendCommand)}
    (h : ∀ c ∈ commands, t.Knows c.1 c.2) (hordered : t.Ordered) (id : Nat) :
    (commands.foldl (fun t c => ShardCore.applyCommand t c.1 c.2) t).status id = t.status id := by
  induction commands generalizing t with
  | nil => rfl
  | cons c rest ih =>
      have hrest : ∀ c' ∈ rest, (ShardCore.applyCommand t c.1 c.2).Knows c'.1 c'.2 :=
        fun c' hc' => (h c' (List.mem_cons_of_mem c hc')).onward (onward_applyCommand _ _ _)
      rw [List.foldl_cons, ih hrest (ordered_applyCommand hordered _ _)]
      exact status_applyCommand (h c List.mem_cons_self) hordered id

/-- **A replayed record** makes its command known. -/
theorem knows_recoverStreams {records : List WalRecord} {r : WalRecord} (hr : r ∈ records)
    (hbeyond : bound < r.entryId) (payload : Bytes) (requestId : Nat) :
    (recoverStreams t bound records).Knows r.entryId
      ⟨requestId, r.streamId, r.epoch, r.streamLsn, payload⟩ := by
  induction records using List.reverseRecOn with
  | nil => cases hr
  | append_singleton records last ih =>
      rw [recoverStreams_concat]
      rcases List.mem_append.mp hr with hold | hlast
      · split
        · exact (ih hold).onward (onward_observeRecovered _ _ _ _ _ _)
        · exact ih hold
      · -- The last record is the one: it is replayed, and all maxima include it.
        have hsame : r = last := List.mem_singleton.mp hlast
        subst hsame
        rw [if_pos hbeyond]
        constructor
        all_goals
          rw [ensureStream_observeRecovered, if_pos rfl]
          exact Nat.le_max_right _ _

end StreamStateTable

open StreamStateTable

namespace Replica

variable {hash : Bytes → UInt32} {log : Nat → Option AppendCommand} {s s' t u : Replica}

/-! ### What is meant to hold -/

/-- The log has at most one record for each raft index. -/
def OneRecord (s : Replica) : Prop := (s.logged.map fun q => q.1.entryId).Nodup

instance (s : Replica) : Decidable s.OneRecord := inferInstanceAs (Decidable (List.Nodup _))

/-- **What is meant to hold** of a replica that has recovered, and of what it is once
raft has handed entries on again. -/
structure Idempotent (s t : Replica) : Prop where
  status : ∀ id, t.table.status id = s.table.status id
  tailCache : ∀ id, (t.table.ensureStream id).tailCache = (s.table.ensureStream id).tailCache
  logged : t.OneRecord

/-- The command with its raft index that an action hands on. -/
def handedOn (log : Nat → Option AppendCommand) : ReplicaAction → Option (Nat × AppendCommand)
  | .apply _ raftIndex _ => (log raftIndex).map fun cmd => (raftIndex, cmd)
  | _                    => none

/-- The log has the record of a command. -/
def Recorded (s : Replica) (c : Nat × AppendCommand) : Prop :=
  ∃ q ∈ s.logged,
    q.1 = ⟨c.2.streamId, c.2.epoch, c.1, c.2.streamLsn, q.1.timestampNs, c.2.payload⟩

instance (s : Replica) (c : Nat × AppendCommand) : Decidable (s.Recorded c) := by
  unfold Recorded
  infer_instance

/-- The cycles of a process that serves no client yet: what they hand on again has its
record in the log that was recovered. -/
def Redelivers (log : Nat → Option AppendCommand) (s : Replica) (a : ReplicaAction) : Prop :=
  (∀ c ∈ handedOn log a, s.Recorded c) ∧
    match a with
    | .request _ | .gc | .restart _ _ _ _ => False
    | _                                   => True

instance (s : Replica) (a : ReplicaAction) : Decidable (Redelivers log s a) := by
  rcases a with _ | _ | _ | _ | _ | _ | _ | _ <;> dsimp only [Redelivers] <;> infer_instance

/-- The promises, in runs whose crashes may leave any files. -/
def Crashing (log : Nat → Option AppendCommand) (s : Replica) : ReplicaAction → Prop
  | .restart _ _ _ _ => True
  | a                => Promised log s a

instance (s : Replica) (a : ReplicaAction) : Decidable (Crashing log s a) := by
  rcases a with _ | _ | _ | _ | _ | _ | _ | _ <;> dsimp only [Crashing] <;> infer_instance

/-- A crash alone may leave what is not promised. -/
theorem promised_of_crashing {a : ReplicaAction} (h : Crashing log s a)
    (hruns : a.restarts = false) : Promised log s a := by
  cases a with
  | restart dir file config createdTsNs => cases hruns
  | _ => exact h

theorem positioned_of_crashing {shardId : Nat} {config : ServerConfig} {createdTsNs : Nat}
    (h : (replica hash log shardId config createdTsNs).Reachable (Crashing log) s) :
    s.Positioned log := by
  refine h.invariant (positioned_started log shardId config createdTsNs) ?_
  intro s a t _ hpositioned hok hs
  have hs : s.step hash log a = some t := step_of_replica hs
  cases a with
  | restart dir file config createdTsNs => exact hpositioned.restart hs
  | _ => exact positioned_step hpositioned (promised_of_crashing hok rfl) hs

/-! ### A second time -/

/-- The replica has gone on by handing commands on, and nothing else that its table or
its log shows. -/
structure HandsOn (s t : Replica) (commands : List (Nat × AppendCommand)) : Prop where
  table : t.table = commands.foldl (fun t c => ShardCore.applyCommand t c.1 c.2) s.table
  logged : (t.logged.map fun q => q.1.entryId) =
    (s.logged.map fun q => q.1.entryId) ++ commands.map Prod.fst
  beyond : ∀ c ∈ commands, s.cursor ≤ c.1
  cursor : s.cursor ≤ t.cursor
  idle : t.engine.core.pendingWrites = ∅

theorem HandsOn.trans {commands commands' : List (Nat × AppendCommand)}
    (h : s.HandsOn t commands) (h' : t.HandsOn u commands') :
    s.HandsOn u (commands ++ commands') where
  table := by rw [h'.table, h.table, List.foldl_append]
  logged := by rw [h'.logged, h.logged, List.map_append, List.append_assoc]
  beyond c hc := by
    rcases List.mem_append.mp hc with hold | hnew
    · exact h.beyond c hold
    · exact h.cursor.trans (h'.beyond c hnew)
  cursor := h.cursor.trans h'.cursor
  idle := h'.idle

/-- What hands nothing on. -/
theorem HandsOn.nothing (htable : t.table = s.table) (hlogged : t.logged = s.logged)
    (hcursor : s.cursor ≤ t.cursor) (hidle : t.engine.core.pendingWrites = ∅) :
    s.HandsOn t [] where
  table := htable
  logged := by rw [hlogged, List.map_nil, List.append_nil]
  beyond c hc := by cases hc
  cursor := hcursor
  idle := hidle

/-- **One action of a cycle.** No write is pending, so the end of an iteration gives
nothing up. -/
theorem handsOn_step {a : ReplicaAction} (hidle : s.engine.core.pendingWrites = ∅)
    (ha : Redelivers log s' a) (hs : s.step hash log a = some t) :
    s.HandsOn t (handedOn log a).toList := by
  obtain ⟨-, hcycle⟩ := ha
  cases a with
  | request req => exact hcycle.elim
  | gc => exact hcycle.elim
  | restart dir file config createdTsNs => exact hcycle.elim
  | role state leaderId committed accepting =>
      cases hs
      exact .nothing rfl rfl (Nat.le_refl _) hidle
  | store ready =>
      obtain ⟨outbound, stepped, stopped, rfl⟩ := step_store hs
      exact .nothing rfl rfl (Nat.le_refl _) hidle
  | advance advanced =>
      obtain ⟨outbound, stepped, rfl⟩ := step_advance hs
      exact .nothing rfl rfl (Nat.le_refl _) hidle
  | observe =>
      cases hs
      obtain ⟨hstreams, hstill⟩ := ShardCore.idle_logRaftStateIfChanged hidle s.engine.raft.state
        s.engine.raft.leaderId
      exact .nothing hstreams rfl (Nat.le_refl _) hstill
  | apply clock raftIndex raftTerm =>
      obtain ⟨hcursor, ⟨hnone, rfl⟩ | ⟨cmd, e, stopped, hcmd, happly, rfl⟩⟩ := step_apply hs
      · -- An entry without a command hands on nothing.
        have hnothing : handedOn log (.apply clock raftIndex raftTerm) = none := by
          show (log raftIndex).map _ = none
          rw [hnone]
          rfl
        rw [hnothing]
        exact .nothing rfl rfl (hcursor.trans (Nat.le_succ _)) hidle
      · -- A command is handed on once, at the cursor.
        have hone : handedOn log (.apply clock raftIndex raftTerm) = some (raftIndex, cmd) := by
          show (log raftIndex).map _ = _
          rw [hcmd]
          rfl
        rw [hone]
        refine ⟨table_noteApplied happly stopped, ?_, ?_, hcursor.trans (Nat.le_succ _), ?_⟩
        · show ((s.logged ++ [_]).map _) = _
          rw [List.map_append]
          rfl
        · intro c hc
          rw [List.mem_singleton.mp hc]
          exact hcursor
        · obtain ⟨w, dir, n, store, responses, -, -, rfl⟩ := happly.eq
          show s.engine.core.pendingWrites.erase cmd.requestId = ∅
          rw [hidle]
          rfl

/-- **The cycles of a process** hand on what their actions do, one after the other. -/
theorem handsOn_execute {shardId : Nat} {config : ServerConfig} {createdTsNs : Nat}
    {actions : List ReplicaAction} (hidle : s.engine.core.pendingWrites = ∅)
    (hactions : ∀ a ∈ actions, Redelivers log s' a)
    (hrun : System.execute (replica hash log shardId config createdTsNs) System.anyStep s actions =
      some t) :
    s.HandsOn t (actions.filterMap (handedOn log)) := by
  induction actions generalizing s with
  | nil =>
      cases hrun
      exact .nothing rfl rfl (Nat.le_refl _) hidle
  | cons a rest ih =>
      rw [System.execute, if_pos (show System.anyStep s a from trivial)] at hrun
      obtain ⟨u, hstep, hrest⟩ := Option.bind_eq_some_iff.mp hrun
      have hone := handsOn_step hidle (hactions a List.mem_cons_self) (step_of_replica hstep)
      have hmore := ih hone.idle (fun b hb => hactions b (List.mem_cons_of_mem a hb)) hrest
      have hboth := hone.trans hmore
      cases hcommand : handedOn log a with
      | none =>
          rw [hcommand] at hboth
          rw [List.filterMap_cons_none hcommand]
          exact hboth
      | some c =>
          rw [hcommand] at hboth
          rw [List.filterMap_cons_some hcommand]
          exact hboth

/-- **What recovery knows.** A command that has a record or is below the snapshot's index
is known when a process has started. -/
theorem Positioned.knows_recorded (h : s.Positioned log) {dir : ShardDir} {file : Nat}
    {config : ServerConfig} {createdTsNs : Nat}
    (hs : s.step hash log (.restart dir file config createdTsNs) = some t)
    {c : Nat × AppendCommand} (hcmd : log c.1 = some c.2) (hbeyond : t.cursor ≤ c.1)
    (hrecorded : t.Recorded c) : t.table.Knows c.1 c.2 := by
  obtain ⟨p, recovered, -, hrestarted⟩ := step_restart hs
  obtain ⟨-, hknows⟩ := (h.stored p hrestarted.held).of_decoded hrestarted.decoded
  rw [hrestarted.cursor] at hbeyond
  rw [hrestarted.table]
  by_cases hold : c.1 ≤ p.snapshot.metadata.index
  · -- The snapshot has it.
    have hpositive : 1 ≤ c.1 := (h.linked p hrestarted.held).positive.trans hbeyond
    exact (hknows c.1 c.2 hpositive (Nat.lt_succ_of_le hold) hcmd).onward
      (onward_recoverStreams _ _ _)
  · -- Its record has been replayed.
    obtain ⟨q, hq, hrecord⟩ := hrecorded
    have hid : q.1.entryId = c.1 := by rw [hrecord]
    have hreplayed : p.snapshot.metadata.index < q.1.entryId := by
      rw [hid]
      exact Nat.lt_of_not_le hold
    have hknown := knows_recoverStreams (t := recovered) (List.mem_map_of_mem hq) hreplayed
      c.2.payload c.2.requestId
    rw [hrecord] at hknown
    exact hknown

/-- A process starts without pending writes. -/
theorem idle_restart {dir : ShardDir} {file : Nat} {config : ServerConfig} {createdTsNs : Nat}
    (hs : s.step hash log (.restart dir file config createdTsNs) = some t) :
    t.engine.core.pendingWrites = ∅ := by
  obtain ⟨p, recovered, -, hrestarted⟩ := step_restart hs
  exact hrestarted.pendingWrites

theorem log_of_handedOn {a : ReplicaAction} {c : Nat × AppendCommand}
    (h : handedOn log a = some c) : log c.1 = some c.2 := by
  unfold handedOn at h
  split at h
  · obtain ⟨cmd, hcmd, rfl⟩ := Option.map_eq_some_iff.mp h
    exact hcmd
  · cases h

section

variable {shardId : Nat} {config config' : ServerConfig} {createdTsNs createdTsNs' file : Nat}
  {dir : ShardDir} {actions : List ReplicaAction}

/-- **Redelivery moves no status**, whatever the history and the crash were. -/
theorem status_redelivered
    (h : (replica hash log shardId config createdTsNs).Reachable (Crashing log) s)
    (hrestart : s.step hash log (.restart dir file config' createdTsNs') = some s')
    (hactions : ∀ a ∈ actions, Redelivers log s' a)
    (hrun : System.execute (replica hash log shardId config createdTsNs) System.anyStep s' actions =
      some t) (id : Nat) : t.table.status id = s'.table.status id := by
  have hpositioned := positioned_of_crashing h
  have hordered := (hpositioned.restart hrestart).ordered
  have hagain := handsOn_execute (idle_restart hrestart) hactions hrun
  rw [hagain.table]
  refine status_foldl_applyCommand (fun c hc => ?_) hordered id
  obtain ⟨a, ha, hcommand⟩ := List.mem_filterMap.mp hc
  exact hpositioned.knows_recorded hrestart (log_of_handedOn hcommand) (hagain.beyond c hc)
    ((hactions a ha).1 c hcommand)

/-- **Redelivery is idempotent exactly if nothing with a command is handed on again**, and
recovery has found no raft index twice. The statuses stay in any case. -/
theorem idempotent_iff
    (h : (replica hash log shardId config createdTsNs).Reachable (Crashing log) s)
    (hrestart : s.step hash log (.restart dir file config' createdTsNs') = some s')
    (hactions : ∀ a ∈ actions, Redelivers log s' a)
    (hrun : System.execute (replica hash log shardId config createdTsNs) System.anyStep s' actions =
      some t) :
    (∀ id, t.table.status id = s'.table.status id) ∧
      (Idempotent s' t ↔ actions.filterMap (handedOn log) = [] ∧ s'.OneRecord) := by
  have hstatus := status_redelivered h hrestart hactions hrun
  have hagain := handsOn_execute (idle_restart hrestart) hactions hrun
  refine ⟨hstatus, ?_, ?_⟩
  · intro hidempotent
    have hnodup := hidempotent.logged
    unfold OneRecord at hnodup
    rw [hagain.logged] at hnodup
    obtain ⟨hbefore, -, hdisjoint⟩ := List.nodup_append.mp hnodup
    refine ⟨List.eq_nil_iff_forall_not_mem.mpr fun c hc => ?_, hbefore⟩
    -- What is handed on again has a record of its index already.
    obtain ⟨a, ha, hcommand⟩ := List.mem_filterMap.mp hc
    obtain ⟨q, hq, hrecord⟩ := (hactions a ha).1 c hcommand
    have hid : q.1.entryId = c.1 := by rw [hrecord]
    exact hdisjoint c.1 (List.mem_map.mpr ⟨q, hq, hid⟩) c.1 (List.mem_map_of_mem hc) rfl
  · rintro ⟨hnothing, hone⟩
    have htable := hagain.table
    have hlogged := hagain.logged
    rw [hnothing] at htable hlogged
    rw [List.map_nil, List.append_nil] at hlogged
    refine ⟨hstatus, fun id => ?_, ?_⟩
    · rw [htable]
      rfl
    · unfold OneRecord
      rw [hlogged]
      exact hone

end

/-! ### An entry that is applied twice -/

/-- The first two entries, of which the second has a command, and the end of an
iteration. -/
def firstTwo : List ReplicaAction := [.apply ⟨id, id⟩ 1 1, .apply ⟨id, id⟩ 2 1, .observe]

/-- A replica that has handed on the first two entries, what it is when it has started
again on its own files, and what it is once raft has handed them on again. -/
theorem exists_redelivered :
    ∃ s s' t, (replica crc32 earlyAndLate 5 ⟨1, 100, 3, [1]⟩ 0).Reachable
        (Crashing earlyAndLate) s ∧
      s.step crc32 earlyAndLate (.restart s.engine.dir 0 ⟨1, 100, 3, [1]⟩ 9) = some s' ∧
      (∀ a ∈ firstTwo, Redelivers earlyAndLate s' a) ∧
      System.execute (replica crc32 earlyAndLate 5 ⟨1, 100, 3, [1]⟩ 0) System.anyStep s'
        firstTwo = some t ∧
      s'.OneRecord ∧ ¬ t.OneRecord ∧
      (s'.table.ensureStream 7).tailCache = [⟨0, 2, [10]⟩] ∧
      (t.table.ensureStream 7).tailCache = [⟨0, 2, [10]⟩, ⟨0, 2, [10]⟩] := by
  obtain ⟨s, hreach, hall⟩ := System.exists_reachable_of_execute
    (replica crc32 earlyAndLate 5 ⟨1, 100, 3, [1]⟩ 0) (Crashing earlyAndLate) firstTwo
    (fun s => (s.step crc32 earlyAndLate (.restart s.engine.dir 0 ⟨1, 100, 3, [1]⟩ 9)).any
      (fun s' => decide (∀ a ∈ firstTwo, Redelivers earlyAndLate s' a) &&
        (System.execute (replica crc32 earlyAndLate 5 ⟨1, 100, 3, [1]⟩ 0) System.anyStep s'
          firstTwo).any fun t => decide (s'.OneRecord ∧ ¬ t.OneRecord ∧
            (s'.table.ensureStream 7).tailCache = [⟨0, 2, [10]⟩] ∧
            (t.table.ensureStream 7).tailCache = [⟨0, 2, [10]⟩, ⟨0, 2, [10]⟩])) = true)
    (by decide +kernel)
  obtain ⟨s', hrestart, hagain⟩ := (Option.any_eq_true _ _).mp hall
  obtain ⟨hactions, hrest⟩ := Bool.and_eq_true_iff.mp hagain
  obtain ⟨t, hrun, htwice⟩ := (Option.any_eq_true _ _).mp hrest
  exact ⟨s, s', t, hreach, hrestart, of_decide_eq_true hactions, hrun, of_decide_eq_true htwice⟩

/-- **The entry is logged and cached twice**, and no status shows it. -/
theorem idempotent_firstTwo :
    ∃ s s' t, (replica crc32 earlyAndLate 5 ⟨1, 100, 3, [1]⟩ 0).Reachable
        (Crashing earlyAndLate) s ∧
      s.step crc32 earlyAndLate (.restart s.engine.dir 0 ⟨1, 100, 3, [1]⟩ 9) = some s' ∧
      (∀ id, t.table.status id = s'.table.status id) ∧ ¬ Idempotent s' t := by
  obtain ⟨s, s', t, hreach, hrestart, hactions, hrun, -⟩ := exists_redelivered
  obtain ⟨hstatus, hiff⟩ := idempotent_iff hreach hrestart hactions hrun
  refine ⟨s, s', t, hreach, hrestart, hstatus, fun hidempotent => ?_⟩
  obtain ⟨hnothing, -⟩ := hiff.mp hidempotent
  exact absurd hnothing (by decide)

/-- **Redelivery is not idempotent.** -/
theorem redelivery_logsTwice :
    ¬ ∀ (log : Nat → Option AppendCommand) (config config' : ServerConfig)
        (s s' t : Replica) (file createdTsNs : Nat) (actions : List ReplicaAction),
      (replica crc32 log 5 config 0).Reachable (Crashing log) s →
      s.step crc32 log (.restart s.engine.dir file config' createdTsNs) = some s' →
      (∀ a ∈ actions, Redelivers log s' a) →
      System.execute (replica crc32 log 5 config 0) System.anyStep s' actions = some t →
      s'.OneRecord → Idempotent s' t := by
  intro hidempotent
  obtain ⟨s, s', t, hreach, hrestart, hactions, hrun, hone, htwice, -⟩ := exists_redelivered
  exact htwice (hidempotent _ _ _ s s' t 0 9 firstTwo hreach hrestart hactions hrun hone).logged

end Replica

end WalServer.Shard
