import WalServer.Shard.Traced

/-!
# `WalServer.Shard.Agreement`: replicas agree whatever they do locally

Two replicas are handed the same committed log. Each has its own limits, and its own
local life: writes that are admitted and given up, acknowledgements, collections,
snapshots and restarts. What is meant to hold once both have been handed on the same
commands is `Agree`: the streams are committed up to the same positions and entries, and
the positions that neither has consumed have the payload of their command, in the tail
cache where they are cached and in the log.

Both replicas are where the log has brought them and no further (`commit_eq`). A
position's record can be read if its size fits the 32 bits of a location, so what is
meant to hold does exactly if the records of the unconsumed positions are shorter than
2^32 bytes (`agree_iff`). A record may be longer: its body's length is what has to fit
32 bits (`longPayload_not_yielded`).
-/

set_option autoImplicit false

namespace WalServer.Shard.Replica

open WalServer.Lib WalServer.Protocol WalServer.Raft WalServer.Wal StreamStateTable

variable {hash : Bytes → UInt32} {log : Nat → Option AppendCommand} {s s₁ s₂ : Replica}

/-- Both ways to read a command's position yield its payload. -/
structure Yields (hash : Bytes → UInt32) (s : Replica) (cmd : AppendCommand) : Prop where
  cached : ∀ tail, s.table.readFromTail cmd.streamId cmd.streamLsn = some tail →
    tail.payload = cmd.payload
  logged : ∃ record, (s.engine.walReader.readRecord hash s.engine.dir cmd.streamId cmd.streamLsn
    s.engine.index).2 = .ok record ∧ record.payload = cmd.payload

/-- The commands that were handed on to the first replica, at positions that neither has
consumed. -/
def Unconsumed (log : Nat → Option AppendCommand) (s₁ s₂ : Replica) (cmd : AppendCommand) :
    Prop :=
  ∃ raftIndex, (1 ≤ raftIndex ∧ raftIndex ≤ s₁.high) ∧ log raftIndex = some cmd ∧
    s₁.peak cmd.streamId ≤ cmd.streamLsn ∧ s₂.peak cmd.streamId ≤ cmd.streamLsn

/-- **What is meant to hold** of two replicas of a log. -/
structure Agree (hash : Bytes → UInt32) (log : Nat → Option AppendCommand) (s₁ s₂ : Replica) :
    Prop where
  commitStreamLsn : ∀ id, (s₁.table.ensureStream id).commitStreamLsn =
    (s₂.table.ensureStream id).commitStreamLsn
  lastEntryId : ∀ id, (s₁.table.ensureStream id).lastEntryId =
    (s₂.table.ensureStream id).lastEntryId
  payloads : ∀ cmd, Unconsumed log s₁ s₂ cmd → s₁.Yields hash cmd ∧ s₂.Yields hash cmd

/-- No two commands of the log are at one position of a stream. -/
def Distinct (log : Nat → Option AppendCommand) : Prop :=
  ∀ i j cmd cmd', log i = some cmd → log j = some cmd' → cmd.streamId = cmd'.streamId →
    cmd.streamLsn = cmd'.streamLsn → cmd = cmd'

/-! ### One replica -/

/-- **A replica that has caught up is where the log has brought it**, and no further. -/
theorem Accounted.commit_eq (h : s.Accounted hash log) (hcaughtUp : s.high < s.cursor) (id : Nat) :
    (s.table.ensureStream id).commitStreamLsn =
        ((appliedUpTo log s.high).ensureStream id).commitStreamLsn ∧
      (s.table.ensureStream id).lastEntryId =
        ((appliedUpTo log s.high).ensureStream id).lastEntryId := by
  have hknows : s.table.KnowsBelow log (s.high + 1) := by
    intro raftIndex cmd hpositive hbelow hcmd
    exact h.positioned.knows raftIndex cmd hpositive (Nat.lt_of_lt_of_le hbelow hcaughtUp) hcmd
  have hreached := notBehind_of_knowsBelow hknows h.positioned.ordered id
  exact ⟨Nat.le_antisymm (h.traceable.table.commitStreamLsn id) hreached.commitStreamLsn,
    Nat.le_antisymm (h.traceable.table.lastEntryId id) hreached.lastEntryId⟩

/-- The tail cache has no other payload for a position. -/
theorem Accounted.cached (h : s.Accounted hash log) (hdistinct : Distinct log) {raftIndex : Nat}
    {cmd : AppendCommand} (hcmd : log raftIndex = some cmd) {tail : TailRecord}
    (htail : s.table.readFromTail cmd.streamId cmd.streamLsn = some tail) :
    tail.payload = cmd.payload := by
  rw [readFromTail_eq] at htail
  have hposition : tail.streamLsn = cmd.streamLsn := by simpa using List.find?_some htail
  obtain ⟨i, cmd', hcmd', hstream, hlsn, hpayload⟩ :=
    h.traceable.table.tailCache _ tail (List.mem_of_find?_eq_some htail)
  rw [← hpayload, hdistinct i raftIndex cmd' cmd hcmd' hcmd hstream (hlsn.trans hposition)]

/-- **Reading a position of the log** that is not acknowledged yields its payload exactly
if the record's size fits its location. -/
theorem Accounted.yields_iff (h : s.Accounted hash log) (hdistinct : Distinct log)
    {raftIndex : Nat} {cmd : AppendCommand} (hrange : 1 ≤ raftIndex ∧ raftIndex ≤ s.high)
    (hcmd : log raftIndex = some cmd) (hpeak : s.peak cmd.streamId ≤ cmd.streamLsn) :
    s.Yields hash cmd ↔ recordHeaderSize + cmd.payload.length < 2 ^ 32 := by
  obtain ⟨loc, hloc⟩ := h.traceable.complete raftIndex cmd hrange.1 hrange.2 hcmd hpeak
  obtain ⟨q, hq, hstream, hlsn, rfl⟩ := h.indexed.index _ _ loc hloc
  -- The indexed record is the command's own.
  obtain ⟨clock, i, cmd', -, hcmd', hrecord⟩ := h.traceable.fromLog q hq
  rw [hrecord] at hstream hlsn
  have hsame : cmd' = cmd := hdistinct i raftIndex cmd' cmd hcmd' hcmd hstream hlsn
  subst hsame
  have hsize : q.1.encodedSize = recordHeaderSize + cmd'.payload.length := by
    rw [hrecord]
    rfl
  have hpayload : q.1.payload = cmd'.payload := by
    rw [hrecord]
    rfl
  obtain ⟨hreads, hfails⟩ := ShardEngine.readRecord_of_lies (h.indexed.lies q hq) hloc
  rw [← hsize]
  constructor
  · rintro ⟨-, record, hread, -⟩
    by_contra hlong
    obtain ⟨failure, hfailed⟩ := hfails (Nat.not_lt.mp hlong)
    rw [hfailed] at hread
    cases hread
  · intro hshort
    exact ⟨fun tail htail => h.cached hdistinct hcmd htail, q.1, hreads hshort, hpayload⟩

/-! ### Two replicas -/

/-- **Replicas agree exactly if the records of what neither has consumed are shorter than
2^32 bytes**, whatever they have done locally. -/
theorem agree_iff (hdistinct : Distinct log) {shardId₁ shardId₂ : Nat}
    {config₁ config₂ : ServerConfig} {createdTsNs₁ createdTsNs₂ : Nat}
    (h₁ : (replica hash log shardId₁ config₁ createdTsNs₁).Reachable (Orderly log) s₁)
    (h₂ : (replica hash log shardId₂ config₂ createdTsNs₂).Reachable (Orderly log) s₂)
    (hsame : s₁.high = s₂.high) (hcaughtUp₁ : s₁.high < s₁.cursor)
    (hcaughtUp₂ : s₂.high < s₂.cursor) :
    Agree hash log s₁ s₂ ↔
      ∀ cmd, Unconsumed log s₁ s₂ cmd → recordHeaderSize + cmd.payload.length < 2 ^ 32 := by
  have hi₁ := accounted_of_reachable h₁
  have hi₂ := accounted_of_reachable h₂
  constructor
  · rintro hagree cmd hcmd
    obtain ⟨hyields, -⟩ := hagree.payloads cmd hcmd
    obtain ⟨raftIndex, hrange, hlog, hpeak₁, -⟩ := hcmd
    exact (hi₁.yields_iff hdistinct hrange hlog hpeak₁).mp hyields
  · intro hshort
    refine ⟨fun id => ?_, fun id => ?_, fun cmd hcmd => ?_⟩
    · rw [(hi₁.commit_eq hcaughtUp₁ id).1, (hi₂.commit_eq hcaughtUp₂ id).1, hsame]
    · rw [(hi₁.commit_eq hcaughtUp₁ id).2, (hi₂.commit_eq hcaughtUp₂ id).2, hsame]
    · have hfits := hshort cmd hcmd
      obtain ⟨raftIndex, hrange, hlog, hpeak₁, hpeak₂⟩ := hcmd
      exact ⟨(hi₁.yields_iff hdistinct hrange hlog hpeak₁).mpr hfits,
        (hi₂.yields_iff hdistinct (hsame ▸ hrange) hlog hpeak₂).mpr hfits⟩

theorem distinct_earlyAndLate : Distinct earlyAndLate := by
  intro i j cmd cmd' hcmd hcmd' hstream hlsn
  unfold earlyAndLate at hcmd hcmd'
  split at hcmd <;> split at hcmd'
  all_goals
    cases hcmd
    try cases hcmd'
  all_goals
    first
    | rfl
    | exact absurd hstream (by decide)
    | exact absurd hlsn (by decide)

/-- A replica that has collected, compacted and started again, and one that was only
handed the entries on. -/
theorem agree_compacted :
    ∃ s₁ s₂, (replica crc32 earlyAndLate 5 ⟨1, 100, 1, [1]⟩ 0).Reachable
        (Orderly earlyAndLate) s₁ ∧
      (replica crc32 earlyAndLate 5 ⟨2, 900, 7, [1]⟩ 3).Reachable (Orderly earlyAndLate) s₂ ∧
      s₁.engine.raft.store.snapshotIndex = 65 ∧ s₁.peak 7 = 1 ∧ s₂.peak 7 = 0 ∧
      Agree crc32 earlyAndLate s₁ s₂ := by
  obtain ⟨s₁, h₁, hsnapshot, hpeak₁, hhigh₁, hcaughtUp₁⟩ := System.exists_reachable_of_execute
    (replica crc32 earlyAndLate 5 ⟨1, 100, 1, [1]⟩ 0) (Orderly earlyAndLate)
    (compacted ++ [.restart (dirAfter compacted) 3 ⟨1, 100, 1, [1]⟩ 9, .apply ⟨id, id⟩ 66 1])
    (fun s => s.engine.raft.store.snapshotIndex = 65 ∧ s.peak 7 = 1 ∧ s.high = 66 ∧
      s.high < s.cursor) (by decide +kernel)
  obtain ⟨s₂, h₂, hpeak₂, hhigh₂, hcaughtUp₂⟩ := System.exists_reachable_of_execute
    (replica crc32 earlyAndLate 5 ⟨2, 900, 7, [1]⟩ 3) (Orderly earlyAndLate)
    ((List.range' 1 66).map fun raftIndex => .apply ⟨id, id⟩ raftIndex 1)
    (fun s => s.peak 7 = 0 ∧ s.high = 66 ∧ s.high < s.cursor) (by decide +kernel)
  refine ⟨s₁, s₂, h₁, h₂, hsnapshot, hpeak₁, hpeak₂, ?_⟩
  refine (agree_iff distinct_earlyAndLate h₁ h₂ (hhigh₁.trans hhigh₂.symm) hcaughtUp₁
    hcaughtUp₂).mpr ?_
  rintro cmd ⟨raftIndex, -, hcmd, -⟩
  unfold earlyAndLate at hcmd
  split at hcmd
  all_goals
    cases hcmd
    try decide

/-! ### A payload that fits a record and not a location -/

/-- A log with one command. -/
def oneCommand (payload : Bytes) : Nat → Option AppendCommand
  | 2 => some ⟨1, 6, 1, 0, payload⟩
  | _ => none

theorem distinct_oneCommand (payload : Bytes) : Distinct (oneCommand payload) := by
  intro i j cmd cmd' hcmd hcmd' _ _
  unfold oneCommand at hcmd hcmd'
  split at hcmd <;> split at hcmd' <;> simp_all

/-- A replica that was handed the command on. -/
theorem exists_oneCommand {payload : Bytes} (hpayload : payload.length < 2 ^ 32 - 40) :
    ∃ s, (replica crc32 (oneCommand payload) 5 ⟨1, 500, 0, [1]⟩ 0).Reachable
        (Orderly (oneCommand payload)) s ∧ s.high = 2 ∧ s.cursor = 3 ∧ s.peak 6 = 0 := by
  let system := replica crc32 (oneCommand payload) 5 ⟨1, 500, 0, [1]⟩ 0
  -- The first raft entry has no command.
  have hskip : system.Reachable (Orderly (oneCommand payload))
      { (started 5 ⟨1, 500, 0, [1]⟩ 0) with cursor := 2, high := 1 } := by
    have hok : Orderly (oneCommand payload) (started 5 ⟨1, 500, 0, [1]⟩ 0)
        (.apply ⟨id, id⟩ 1 1) := by
      refine ⟨⟨rfl, fun cmd hcmd => ?_⟩, ⟨by decide, by decide, fun cmd hcmd => ?_⟩,
        fun cmd hcmd => ?_⟩
      all_goals cases hcmd
    exact System.Reachable.init.step hok rfl
  have hi := accounted_of_reachable hskip
  obtain ⟨t, ht⟩ := hi.positioned.exists_handOn hi.own (Nat.zero_le _) ⟨id, id⟩ 1
  have hok : Orderly (oneCommand payload)
      { (started 5 ⟨1, 500, 0, [1]⟩ 0) with cursor := 2, high := 1 } (.apply ⟨id, id⟩ 2 1) := by
    refine ⟨⟨rfl, fun cmd hcmd => ?_⟩, ⟨by decide, by decide, fun cmd hcmd => ?_⟩,
      fun cmd hcmd => ?_⟩
    all_goals cases hcmd
    · intro status hstatus
      have hone : status = ⟨6, 1, 1, 1, 0, 2⟩ := List.mem_singleton.mp hstatus
      rw [hone]
      decide
    · have hwide : payload.length < 256 ^ 4 := by omega
      have hone : 1 < 256 ^ 8 := by decide
      have hsix : 6 < 256 ^ 8 := by decide
      have hzero : 0 < 256 ^ 8 := by decide
      exact ⟨hone, hsix, hone, hzero, hwide⟩
    · exact hpayload
  refine ⟨t, hskip.step hok (replica_step rfl ht), ?_⟩
  obtain ⟨-, ⟨hnone, -⟩ | ⟨cmd, e, stopped, -, -, rfl⟩⟩ := step_apply ht
  · cases hnone
  · exact ⟨rfl, rfl, rfl⟩

/-- **A payload of 2^32 - 48 bytes is not yielded**: its record is one byte too long for
the size field of a location. -/
theorem longPayload_not_yielded :
    ¬ ∀ (log : Nat → Option AppendCommand), Distinct log →
      (∀ raftIndex cmd, log raftIndex = some cmd → cmd.payload.length < 2 ^ 32 - 40) →
      ∀ (config₁ config₂ : ServerConfig) (s₁ s₂ : Replica),
        (replica crc32 log 5 config₁ 0).Reachable (Orderly log) s₁ →
        (replica crc32 log 5 config₂ 0).Reachable (Orderly log) s₂ →
        s₁.high = s₂.high → s₁.high < s₁.cursor → s₂.high < s₂.cursor →
          Agree crc32 log s₁ s₂ := by
  intro hagree
  obtain ⟨payload, hlength⟩ : ∃ payload : Bytes, payload.length = 2 ^ 32 - 48 :=
    ⟨List.replicate (2 ^ 32 - 48) 0, List.length_replicate⟩
  have hfits : payload.length < 2 ^ 32 - 40 := by omega
  obtain ⟨s, hreach, hhigh, hcursor, hpeak⟩ := exists_oneCommand hfits
  have hcaughtUp : s.high < s.cursor := by omega
  have hshort : ∀ raftIndex cmd, oneCommand payload raftIndex = some cmd →
      cmd.payload.length < 2 ^ 32 - 40 := by
    intro raftIndex cmd hcmd
    unfold oneCommand at hcmd
    split at hcmd
    · cases hcmd
      exact hfits
    · cases hcmd
  have hboth := hagree _ (distinct_oneCommand payload) hshort _ _ s s hreach hreach rfl hcaughtUp
    hcaughtUp
  have hrange : 1 ≤ 2 ∧ 2 ≤ s.high := ⟨by decide, by omega⟩
  have hlow : s.peak 6 ≤ 0 := by omega
  have hyields := (hboth.payloads ⟨1, 6, 1, 0, payload⟩ ⟨2, hrange, rfl, hlow, hlow⟩).1
  have hfit := ((accounted_of_reachable hreach).yields_iff (distinct_oneCommand payload) hrange rfl
    hlow).mp hyields
  unfold recordHeaderSize at hfit
  have hlong : 48 + payload.length < 2 ^ 32 := hfit
  omega

end WalServer.Shard.Replica
