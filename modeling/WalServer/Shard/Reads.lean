import WalServer.Shard.Agreement
import WalServer.Shard.Redelivery

/-!
# `WalServer.Shard.Reads`: what clients read from a replica

A read is answered by a leader only, from the tail cache or from the log, and a position that
neither has is not found. Meanwhile the replica applies, acknowledges, collects, makes
snapshots and starts again, with entries still to be handed on a second time.

Whatever a client reads is the payload of the committed command at the position, and a
position of a command that was ever handed on and is not acknowledged is found, if its
record's size fits a location (`reads_show_log`). The tables of earlier modules are behind the
log right after a start; what makes the second part hold then is that recovery knows every
record that it has indexed (`LogKnown`).
-/

set_option autoImplicit false

namespace WalServer.Shard.Replica

open WalServer.Lib WalServer.Protocol WalServer.Raft WalServer.Wal StreamStateTable

variable {hash : Bytes → UInt32} {log : Nat → Option AppendCommand} {s t : Replica}

/-! ### The table and the log -/

/-- The positions of all logged records are committed. -/
def LogKnown (s : Replica) : Prop :=
  ∀ q ∈ s.logged, q.1.streamLsn < (s.table.ensureStream q.1.streamId).commitStreamLsn

/-- What moves no committed position back. -/
theorem LogKnown.onward (h : s.LogKnown) (htable : s.table.Onward t.table)
    (hlogged : ∀ q ∈ t.logged, q ∈ s.logged) : t.LogKnown := by
  intro q hq
  exact Nat.lt_of_lt_of_le (h q (hlogged q hq)) (htable _).commitStreamLsn

/-- **A restart** knows each record that it finds: it is replayed, or the snapshot covers its
command. -/
theorem logKnown_restart (hpositioned : s.Positioned log) (htraceable : s.Traceable log)
    (hown : s.OwnLog hash) {file : Nat} {config : ServerConfig} {createdTsNs : Nat}
    (hs : s.step hash log (.restart s.engine.dir file config createdTsNs) = some t) :
    t.LogKnown := by
  obtain ⟨p, recovered, -, hrestarted⟩ := step_restart hs
  have hlogged : t.logged = s.logged := hrestarted.logged.trans hown.foundOn_eq
  obtain ⟨-, hknows⟩ := (hpositioned.stored p hrestarted.held).of_decoded hrestarted.decoded
  intro q hq
  rw [hrestarted.table]
  obtain ⟨clock, raftIndex, cmd, ⟨hpositive, -⟩, hcmd, hrecord⟩ :=
    htraceable.fromLog q (hlogged ▸ hq)
  rw [hrecord]
  show cmd.streamLsn + 1 ≤ _
  by_cases hold : raftIndex ≤ p.snapshot.metadata.index
  · -- The snapshot knows the command, and recovery moves nothing back.
    exact ((hknows raftIndex cmd hpositive (Nat.lt_succ_of_le hold) hcmd).onward
      (onward_recoverStreams _ _ _)).commitStreamLsn
  · have hreplayed : p.snapshot.metadata.index < q.1.entryId := by
      rw [hrecord]
      exact Nat.lt_of_not_le hold
    have hknown := knows_recoverStreams (t := recovered) (List.mem_map_of_mem hq) hreplayed
      cmd.payload cmd.requestId
    rw [hrecord] at hknown
    exact hknown.commitStreamLsn

/-- **Every orderly step** keeps the positions of logged records committed. -/
theorem logKnown_step {a : ReplicaAction} (h : s.LogKnown) (hi : s.Accounted hash log)
    (hok : Orderly log s a) (hs : s.step hash log a = some t) : t.LogKnown := by
  cases logStep hs with
  | same hsame =>
      by_cases hrestart : ∃ dir file config createdTsNs,
          a = .restart dir file config createdTsNs
      · obtain ⟨dir, file, config, createdTsNs, rfl⟩ := hrestart
        obtain ⟨-, -, rfl⟩ := hok
        exact logKnown_restart hi.positioned hi.traceable hi.own hs
      · refine h.onward (onward_step (fun dir file config createdTsNs heq =>
          hrestart ⟨dir, file, config, createdTsNs, heq⟩) hs) fun q hq => hsame.logged ▸ hq
  | apply hcmd happly ht =>
      rename_i clock raftIndex raftTerm cmd e stopped
      subst ht
      have htable := table_noteApplied happly stopped
      intro q hq
      rw [htable]
      rcases List.mem_append.mp hq with hold | hnew
      · exact Nat.lt_of_lt_of_le (h q hold) (onward_applyCommand _ _ _ _).commitStreamLsn
      · rw [List.mem_singleton.mp hnew]
        exact (knows_applyCommand s.table raftIndex cmd).commitStreamLsn
  | gc hgc =>
      refine h.onward (onward_step (fun _ _ _ _ heq => ReplicaAction.noConfusion heq) hgc)
        fun q hq => ?_
      obtain ⟨walReader, rfl⟩ := step_gc hgc
      exact (List.mem_filter.mp hq).1
  | restart hrestart =>
      obtain ⟨-, -, rfl⟩ := hok
      exact logKnown_restart hi.positioned hi.traceable hi.own hrestart

/-! ### Answers -/

/-- **What a read of a position may be answered** on a leader: the payload of a committed
command at the position; or that it is not found, and then each command at the position that
was handed on is acknowledged, or there is one at it whose record is too long for a
location. -/
inductive ReadAnswer (log : Nat → Option AppendCommand) (s : Replica) (id lsn : Nat) :
    Response → Prop
  | found {raftIndex : Nat} {cmd : AppendCommand} (hcmd : log raftIndex = some cmd)
      (hposition : cmd.streamId = id ∧ cmd.streamLsn = lsn) (epoch : Nat) :
      ReadAnswer log s id lsn ⟨.ok, epoch, lsn, cmd.payload⟩
  | notFound (epoch : Nat)
      (hmissing : ∀ raftIndex cmd, 1 ≤ raftIndex → raftIndex ≤ s.high →
        log raftIndex = some cmd → cmd.streamId = id → cmd.streamLsn = lsn → s.peak id ≤ lsn →
        ∃ i long, log i = some long ∧ long.streamId = id ∧ long.streamLsn = lsn ∧
          2 ^ 32 ≤ recordHeaderSize + long.payload.length) :
      ReadAnswer log s id lsn ⟨.errNotFound, epoch, lsn, []⟩

/-- **The log** yields the record of a committed command, or it fails, and then the position is
not indexed or the indexed record is too long. -/
theorem readRecord_cases (hi : s.Accounted hash log) (id lsn : Nat) :
    (∃ clock raftIndex cmd, log raftIndex = some cmd ∧ cmd.streamId = id ∧ cmd.streamLsn = lsn ∧
      (s.engine.walReader.readRecord hash s.engine.dir id lsn s.engine.index).2 =
        .ok (ShardEngine.recordOf clock raftIndex cmd)) ∨
    (∃ failure, (s.engine.walReader.readRecord hash s.engine.dir id lsn s.engine.index).2 =
      .err failure) ∧ ∀ loc, s.engine.index.lookup id lsn = some loc →
        ∃ i long, log i = some long ∧ long.streamId = id ∧ long.streamLsn = lsn ∧
          2 ^ 32 ≤ recordHeaderSize + long.payload.length := by
  cases hloc : s.engine.index.lookup id lsn with
  | none =>
      refine Or.inr ⟨⟨.notFound lsn, ?_⟩, fun loc hsome => nomatch hsome⟩
      unfold WalReader.readRecord
      rw [hloc]
  | some loc =>
      obtain ⟨q, hq, hstream, hlsn, rfl⟩ := hi.indexed.index _ _ loc hloc
      obtain ⟨clock, raftIndex, cmd, -, hcmd, hrecord⟩ := hi.traceable.fromLog q hq
      have hcmdStream : cmd.streamId = id := by
        rw [hrecord] at hstream
        exact hstream
      have hcmdLsn : cmd.streamLsn = lsn := by
        rw [hrecord] at hlsn
        exact hlsn
      have hsize : q.1.encodedSize = recordHeaderSize + cmd.payload.length := by
        rw [hrecord]
        rfl
      obtain ⟨hreads, hfails⟩ := ShardEngine.readRecord_of_lies (hi.indexed.lies q hq) hloc
      rcases Nat.lt_or_ge q.1.encodedSize (2 ^ 32) with hshort | hlong
      · refine Or.inl ⟨clock, raftIndex, cmd, hcmd, hcmdStream, hcmdLsn, ?_⟩
        rw [hreads hshort, hrecord]
      · refine Or.inr ⟨hfails hlong, fun _ _ => ⟨raftIndex, cmd, hcmd, hcmdStream, hcmdLsn, ?_⟩⟩
        rw [← hsize]
        exact hlong

/-- A position of a command that was handed on and is not acknowledged is committed. -/
theorem committed_of_unconsumed (hi : s.Accounted hash log) (hknown : s.LogKnown)
    {raftIndex : Nat} {cmd : AppendCommand} (hpositive : 1 ≤ raftIndex)
    (hhigh : raftIndex ≤ s.high) (hcmd : log raftIndex = some cmd)
    (hpeak : s.peak cmd.streamId ≤ cmd.streamLsn) :
    cmd.streamLsn < (s.table.ensureStream cmd.streamId).commitStreamLsn := by
  obtain ⟨loc, hloc⟩ := hi.traceable.complete raftIndex cmd hpositive hhigh hcmd hpeak
  obtain ⟨q, hq, hstream, hlsn, -⟩ := hi.indexed.index _ _ loc hloc
  have hcommitted := hknown q hq
  rwa [hstream, hlsn] at hcommitted

/-- **A read returns**, and answers what it may. -/
theorem readStream_answers (hi : s.Accounted hash log) (hknown : s.LogKnown) (conn id lsn : Nat) :
    ∃ e response, s.engine.readStream hash conn id lsn = .ok e ∧
      e.responses = s.engine.responses ++ [⟨conn, response⟩] ∧
      ReadAnswer log s id lsn response := by
  unfold ShardEngine.readStream
  dsimp only
  cases hbelow : (s.engine.core.streams.status id).filter
      fun status => status.commitStreamLsn ≤ lsn with
  | some status =>
      -- The position is not committed.
      refine ⟨_, _, rfl, rfl, .notFound _ ?_⟩
      intro raftIndex cmd hpositive hhigh hcmd hid hlsn hpeak
      subst hid hlsn
      have hcommitted := committed_of_unconsumed hi hknown hpositive hhigh hcmd hpeak
      rw [ShardEngine.filter_status_eq_none hcommitted] at hbelow
      cases hbelow
  | none =>
      cases htail : s.engine.core.streams.readFromTail id lsn with
      | some tail =>
          have hcached := htail
          rw [readFromTail_eq] at hcached
          have hposition : tail.streamLsn = lsn := by simpa using List.find?_some hcached
          obtain ⟨i, cmd, hcmd, hid, hlsn, hpayload⟩ :=
            hi.traceable.table.tailCache _ tail (List.mem_of_find?_eq_some hcached)
          refine ⟨_, _, rfl, rfl, ?_⟩
          rw [hposition, ← hpayload]
          exact .found hcmd ⟨hid, hlsn.trans hposition⟩ _
      | none =>
          cases hread : s.engine.walReader.readRecord hash s.engine.dir id lsn s.engine.index with
          | mk walReader result =>
              have hcases := readRecord_cases hi id lsn
              rw [hread] at hcases
              rcases hcases with ⟨clock, raftIndex, cmd, hcmd, hid, hlsn, hresult⟩ |
                ⟨⟨failure, hresult⟩, hlong⟩
              · subst hresult
                refine ⟨_, _, rfl, rfl, ?_⟩
                subst hlsn
                exact .found hcmd ⟨hid, rfl⟩ _
              · subst hresult
                refine ⟨_, _, rfl, rfl, .notFound _ fun raftIndex cmd hpositive hhigh hcmd hid hlsn
                  hpeak => ?_⟩
                subst hid hlsn
                obtain ⟨loc, hloc⟩ := hi.traceable.complete raftIndex cmd hpositive hhigh hcmd hpeak
                exact hlong loc hloc

/-- **Reads show the committed log**, in every state of a replica that leads, also right after a
restart: what is answered is the payload of a committed command at the position, and each
position that was handed on and is not acknowledged is answered so if its record's size fits a
location. -/
theorem reads_show_log {shardId : Nat} {config : ServerConfig} {createdTsNs : Nat}
    (h : (replica hash log shardId config createdTsNs).Reachable (Orderly log) s)
    (hleads : s.engine.raft.state = .leader) {req : ShardRequest} (hop : req.request.op = .read) :
    ∃ e response, s.engine.handleClientRequest hash req = .ok e ∧
      e.responses = s.engine.responses ++ [⟨req.connectionId, response⟩] ∧
      ReadAnswer log s req.request.streamId req.request.offset response := by
  have hknown : s.LogKnown := by
    refine h.invariant (fun q hq => nomatch hq) fun _ _ _ hu hi hok hs => ?_
    exact logKnown_step hi (accounted_of_reachable hu) hok (step_of_replica hs)
  have hcall : s.engine.handleClientRequest hash req = s.engine.readStream hash req.connectionId
      req.request.streamId req.request.offset := by
    unfold ShardEngine.handleClientRequest ShardEngine.handleRead
    simp only [hop, hleads, ne_eq, not_true_eq_false, if_false]
  rw [hcall]
  exact readStream_answers (accounted_of_reachable h) hknown _ _ _

/-- A replica that has collected, compacted and started again, and leads before the last entry
is handed on a second time, answers a read of that entry's position. -/
theorem reads_show_log_restarted :
    ∃ s e response, (replica crc32 earlyAndLate 5 ⟨1, 100, 1, [1]⟩ 0).Reachable
        (Orderly earlyAndLate) s ∧ s.cursor = 66 ∧ s.high = 66 ∧
      s.engine.handleClientRequest crc32 ⟨9, ⟨.read, 8, 0, 1, []⟩⟩ = .ok e ∧
      e.responses = s.engine.responses ++ [⟨9, response⟩] ∧
      ReadAnswer earlyAndLate s 8 1 response := by
  obtain ⟨s, hreach, hleads, hcursor, hhigh⟩ := System.exists_reachable_of_execute
    (replica crc32 earlyAndLate 5 ⟨1, 100, 1, [1]⟩ 0) (Orderly earlyAndLate)
    (compacted ++ [.restart (dirAfter compacted) 3 ⟨1, 100, 1, [1]⟩ 9, .role .leader 1 66 true])
    (fun s => s.engine.raft.state = .leader ∧ s.cursor = 66 ∧ s.high = 66) (by decide +kernel)
  obtain ⟨e, response, hcall, hresponses, hanswer⟩ :=
    @reads_show_log _ _ _ _ _ _ hreach hleads ⟨9, ⟨.read, 8, 0, 1, []⟩⟩ rfl
  exact ⟨s, e, response, hreach, hcursor, hhigh, hcall, hresponses, hanswer⟩

end WalServer.Shard.Replica
