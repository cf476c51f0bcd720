import WalServer.Shard.Onward
import WalServer.Wal.Rebuild

/-!
# `WalServer.Shard.OwnLog`: a replica on its own files

A replica whose processes all start on the files that the one before has left, and
whose commands fit the records of the log. No write of its log is torn, so what is
recorded as logged is what recovery finds (`OwnLog`, `ownLog_step`). A restart on any
state of the raft storage's file that holds a readable snapshot therefore succeeds, and
the table it starts with is made of the snapshot and of what was logged
(`exists_restart`).
-/

set_option autoImplicit false

namespace WalServer.Shard.Replica

open WalServer.Lib WalServer.Protocol WalServer.Raft WalServer.Wal

variable {hash : Bytes → UInt32} {log : Nat → Option AppendCommand} {s t : Replica}

/-- Processes start on the files of the process before, and the payloads of commands
are short enough for the length field of a record. -/
def OnOwnFiles (log : Nat → Option AppendCommand) (s : Replica) : ReplicaAction → Prop
  | .apply _ raftIndex _ => ∀ cmd ∈ log raftIndex, cmd.payload.length < 2 ^ 32 - 40
  | .restart dir _ _ _   => dir = s.engine.dir
  | _                    => True

instance (s : Replica) (a : ReplicaAction) : Decidable (OnOwnFiles log s a) := by
  rcases a with _ | _ | _ | _ | _ | _ | _ | _ <;> dsimp only [OnOwnFiles] <;> infer_instance

/-- The files are clean, and what was logged is what recovery finds in them. -/
structure OwnLog (hash : Bytes → UInt32) (s : Replica) : Prop where
  clean : CleanLog hash s.engine.walWriter s.engine.dir
  logged : s.logged = s.engine.dir.found hash

/-- What happens to neither writer nor files. -/
theorem OwnLog.same (h : s.OwnLog hash) (hsame : s.SameLog t) : t.OwnLog hash where
  clean := by rw [hsame.walWriter, hsame.dir]; exact h.clean
  logged := by rw [hsame.logged, hsame.dir]; exact h.logged

/-- What opening finds in clean files. -/
theorem OwnLog.foundOn_eq (h : s.OwnLog hash) : foundOn hash s.engine.dir = s.logged := by
  unfold foundOn
  rw [replaySegments_clean h.clean.clean, h.logged]
  rfl

/-- **Applying** adds the record to what is found. -/
theorem OwnLog.apply (h : s.OwnLog hash) {clock : Clock} {raftIndex raftTerm : Nat}
    {cmd : AppendCommand} {e : ShardEngine} {stopped : Bool} (hfits : cmd.Fits)
    (hpayload : cmd.payload.length < 2 ^ 32 - 40) (hindex : raftIndex < 256 ^ 8)
    (htime : clock.record raftIndex < 256 ^ 8)
    (happly : s.engine.Applies hash clock raftIndex raftTerm cmd e) :
    (s.noteApplied clock raftIndex cmd e stopped).OwnLog hash := by
  have hrecord := ShardEngine.recordOf_fits hfits hindex htime (by omega)
  obtain ⟨w, dir, n, store, responses, happend, -, rfl⟩ := happly.eq
  obtain ⟨w₁, dir₁, hrun, hclean, hfound, -⟩ := h.clean.append hrecord (clock.segment raftIndex)
  have hsame : Outcome.ok (w₁, dir₁, raftIndex, appendLocation s.engine.walWriter
      (ShardEngine.recordOf clock raftIndex cmd)) = .ok (w, dir, n, _) := hrun.symm.trans happend
  cases hsame
  obtain ⟨hsynced, hall⟩ := hclean.sync
  refine ⟨hsynced, ?_⟩
  show s.logged ++ _ = (w.sync dir).found hash
  rw [hall, hfound, h.logged]

/-- **Opening the own files** goes on at the end of the log, with a table made of the
snapshot and the logged records. -/
theorem OwnLog.openEngine (h : s.OwnLog hash) (config : ServerConfig) (createdTsNs : Nat)
    {p : PersistentState} {recovered : StreamStateTable}
    (hdecode : StreamStateTable.decodeSnapshot config.tailCacheEntries p.snapshot.data =
      .ok recovered) :
    ∃ e, ShardEngine.openEngine hash s.engine.shardId config (some p) s.engine.dir createdTsNs =
        .ok e ∧ CleanLog hash e.walWriter e.dir ∧ e.dir = s.engine.dir ∧
      e.index = indexRecords s.logged ∧ e.raft.store = ⟨p, [p]⟩ ∧
      e.raft.applied = p.firstIndex - 1 ∧
      e.core.streams = recoverStreams recovered p.snapshot.metadata.index
        (s.logged.map Prod.fst) := by
  have hopen := h.clean.openWriter s.engine.shardId ⟨config.segmentMaxBytes,
    config.tailCacheEntries, some recovered, p.snapshot.metadata.index, createdTsNs⟩
  rw [← h.logged] at hopen
  unfold ShardEngine.openEngine
  simp only [PersistentStorage.openStorage, hdecode]
  unfold openDir at hopen
  simp only at hopen
  rw [PersistentStorage.snapshotIndex, hopen]
  exact ⟨_, rfl, ⟨h.clean.clean, h.clean.last, h.clean.next⟩, rfl, rfl, rfl, rfl, rfl⟩

/-- **A restart on the own files succeeds** from every state of the file whose snapshot
can be read. -/
theorem OwnLog.exists_restart (h : s.OwnLog hash) (log : Nat → Option AppendCommand)
    (config : ServerConfig) (createdTsNs : Nat) {file : Nat} {p : PersistentState}
    {recovered : StreamStateTable} (hfile : s.engine.raft.store.written[file]? = some p)
    (hdecode : StreamStateTable.decodeSnapshot config.tailCacheEntries p.snapshot.data =
      .ok recovered) :
    ∃ t, s.step hash log (.restart s.engine.dir file config createdTsNs) = some t ∧
      t.OwnLog hash ∧ t.logged = s.logged ∧ t.cursor = p.firstIndex ∧ t.high = s.high ∧
      t.engine.index = indexRecords s.logged ∧ t.engine.raft.store = ⟨p, [p]⟩ ∧
      t.engine.raft.applied = p.firstIndex - 1 ∧
      t.table = recoverStreams recovered p.snapshot.metadata.index (s.logged.map Prod.fst) := by
  obtain ⟨e, hopen, hclean, hdir, hindex, hstore, happlied, htable⟩ :=
    h.openEngine config createdTsNs hdecode
  have hfound := h.foundOn_eq
  refine ⟨{ s with
    engine := e
    logged := foundOn hash s.engine.dir
    cursor := p.firstIndex
    stopped := false }, ?_, ⟨hclean, ?_⟩, hfound, rfl, rfl, hindex, hstore, happlied, htable⟩
  · rw [step, hfile, Option.bind_some, hopen]
    rfl
  · show foundOn hash s.engine.dir = e.dir.found hash
    rw [hfound, h.logged, hdir]

/-- **Collecting garbage** removes whole files of the log. -/
theorem OwnLog.gc (h : s.OwnLog hash) (hs : s.step hash log .gc = some t) : t.OwnLog hash := by
  obtain ⟨walReader, rfl⟩ := step_gc hs
  obtain ⟨hclean, hfound⟩ := h.clean.keep s.engine.gcKeeps_current
  refine ⟨hclean, ?_⟩
  show s.logged.filter _ = (s.engine.dir.keep s.engine.gcKeeps).found hash
  rw [hfound, h.logged]

/-- **A restart** on the own files finds the log as it was. -/
theorem OwnLog.restart (h : s.OwnLog hash) {file : Nat} {config : ServerConfig}
    {createdTsNs : Nat}
    (hs : s.step hash log (.restart s.engine.dir file config createdTsNs) = some t) :
    t.OwnLog hash := by
  obtain ⟨p, recovered, hfile, hrestarted⟩ := step_restart hs
  obtain ⟨u, hu, hlog, -⟩ :=
    h.exists_restart log config createdTsNs hfile hrestarted.decoded
  rw [hs] at hu
  cases hu
  exact hlog

/-- **Every step on the own files keeps the log.** -/
theorem ownLog_step {a : ReplicaAction} (h : s.OwnLog hash) (htyped : Typed log s a)
    (hown : OnOwnFiles log s a) (hs : s.step hash log a = some t) : t.OwnLog hash := by
  cases logStep hs with
  | same hsame => exact h.same hsame
  | apply hcmd happly ht =>
      obtain ⟨hindex, htime, hfits⟩ := htyped
      rw [ht]
      exact h.apply (hfits _ hcmd) (hown _ hcmd) hindex htime happly
  | gc hgc => exact h.gc hgc
  | restart hrestart =>
      cases hown
      exact h.restart hrestart

theorem ownLog_started (hash : Bytes → UInt32) (shardId : Nat) (config : ServerConfig)
    (createdTsNs : Nat) : (started shardId config createdTsNs).OwnLog hash := by
  obtain ⟨hclean, hfound⟩ := cleanLog_created hash shardId config.segmentMaxBytes
    config.tailCacheEntries createdTsNs
  exact ⟨hclean, hfound.symm⟩

end WalServer.Shard.Replica
