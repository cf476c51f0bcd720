import WalServer.Shard.LeaderRun

/-!
# `WalServer.Shard.KeepsLogs`: when a leader serves its streams' logs

`KeepsLogs` is the promise of a leading shard to its clients: the accepted writes
of a stream are proposed at consecutive positions, as many as were applied are
committed, and whatever a client may ask next is answered as `StreamLogs` says.
A leader keeps it exactly as long as the committed positions that are not
consumed are `Readable` (`Refines.keepsLogs_iff`). A position is not when its
record is so long that its size wraps to less than a header, and the tail cache
has dropped it.
-/

set_option autoImplicit false

namespace WalServer.Shard

open WalServer.Lib WalServer.Protocol WalServer.Raft WalServer.Wal

/-- A new table shows the empty logs. -/
theorem StreamLogs.Table.new (limit : Nat) : StreamLogs.empty.Table (.new limit) where
  epoch id := by rw [StreamStateTable.ensureStream_new]; rfl
  next id := by rw [StreamStateTable.ensureStream_new]; rfl
  commit id := by rw [StreamStateTable.ensureStream_new]; rfl
  consumed id := by rw [StreamStateTable.ensureStream_new]; rfl
  tail id record hrecord := by
    rw [StreamStateTable.ensureStream_new] at hrecord
    cases hrecord

namespace LeaderRun

variable {hash : Bytes → UInt32} {s : LeaderRun}

/-- What clients may be told by an action. -/
def Answer (s : LeaderRun) : LeaderAction → List ShardResponse → Prop
  | .request req, answers => s.logs.Answers req answers
  | .applyNext .., answers =>
      ∃ w, s.logs.log.next? = some w ∧ answers = [s.logs.completion w]
  | _, answers => answers = []

/-- **The promise of a leading shard.** -/
structure KeepsLogs (hash : Bytes → UInt32) (s : LeaderRun) : Prop where
  position : ∀ i w, s.logs.log.entries[i]? = some w →
    s.engine.raft.proposals[i]? = some (encodeAppendCommand (s.logs.commandOf i w)) ∧
      (s.logs.written (streamOf w))[(s.logs.commandOf i w).streamLsn]? = some w
  commit : ∀ id,
    (s.engine.core.streams.ensureStream id).commitStreamLsn = (s.logs.committed id).length
  answer : ∀ a, s.Permitted a → ∃ e answers, s.engineStep hash a = some e ∧
    e.responses = s.engine.responses ++ answers ∧ s.Answer a answers

/-- A committed position that is not consumed can be read: its write is short
enough for the size field of a location, or still in the tail cache. -/
def Readable (s : LeaderRun) (id lsn : Nat) : Prop :=
  ∀ w, (s.logs.committed id)[lsn]? = some w → s.logs.consumed id ≤ lsn →
    Short w ∨ (s.engine.core.streams.readFromTail id lsn).isSome = true

/-- Where all writes are short, all positions can be read. -/
theorem readable_of_short (h : ∀ w ∈ s.logs.log.entries, Short w) (id lsn : Nat) :
    s.Readable id lsn := by
  intro w hw _
  exact .inl (h w (List.mem_of_mem_take (List.mem_filter.mp (List.mem_of_getElem? hw)).1))

/-! ### One action -/

/-- What a read answers is what the logs allow exactly if the position can be read. -/
theorem ReadOutcome.answers_iff {id lsn : Nat} {response : Response}
    (h : s.ReadOutcome id lsn response) (req : ShardRequest) (hop : req.request.op = .read)
    (hid : streamOf req = id) (hlsn : req.request.offset = lsn) :
    s.logs.Answers req [⟨req.connectionId, response⟩] ↔ s.Readable id lsn := by
  subst hid hlsn
  unfold StreamLogs.Answers Readable
  simp only [hop]
  cases h with
  | beyond hw =>
      rw [hw]
      simp
  | @found w hw epoch hkept =>
      rw [hw]
      constructor
      · intro _ v hv _
        cases hv
        exact hkept
      · intro _ _
        exact ⟨epoch, rfl⟩
  | @lost w hw htail hlong =>
      rw [hw]
      constructor
      · -- An answer that is not `Ok` is allowed below the consumed position only.
        intro hanswer v _ hlow
        obtain ⟨epoch, hok⟩ := hanswer hlow
        cases hok
      · intro hreadable hlow
        -- The record is neither short enough for the log nor in the cache.
        rcases hreadable w rfl hlow with hshort | hcached
        · exact absurd hshort (hlong hlow)
        · rw [htail] at hcached
          cases hcached

/-- **Reads** change nothing the relation sees. -/
theorem Refines.read (h : s.Refines hash) (req : ShardRequest) (hop : req.request.op = .read) :
    ∃ e response, s.engine.handleClientRequest hash req = .ok e ∧
      s.ReadOutcome (streamOf req) req.request.offset response ∧
      s.Simulated hash (s.logs.serve req) s.lastIndex [⟨req.connectionId, response⟩] e := by
  obtain ⟨walReader, response, houtcome, hread⟩ :=
    h.readStream req.connectionId (streamOf req) req.request.offset
  have hcall : s.engine.handleClientRequest hash req =
      s.engine.readStream hash req.connectionId (streamOf req) req.request.offset := by
    unfold ShardEngine.handleClientRequest ShardEngine.handleRead
    simp only [hop]
    rw [if_neg fun hnot => hnot h.leader]
    rfl
  have hserve : s.logs.serve req = s.logs := by
    unfold StreamLogs.serve
    simp only [hop]
  rw [hcall, hserve]
  exact ⟨_, response, hread, houtcome, h.respond walReader _, rfl⟩

/-- The engine after a request. -/
theorem engineStep_request {req : ShardRequest} {e : ShardEngine}
    (h : s.engine.handleClientRequest hash req = .ok e) :
    s.engineStep hash (.request req) = some e := by
  unfold engineStep
  simp only [h]
  rfl

/-- **One action**: it succeeds and keeps the relation, and what it answers is what
the logs allow if every position can be read. -/
theorem Refines.step (h : s.Refines hash) {a : LeaderAction} (ha : s.Permitted a) :
    ∃ e answers, s.engineStep hash a = some e ∧
      s.Simulated hash (s.logsStep a) (s.indexStep a) answers e ∧
      ((∀ id lsn, s.Readable id lsn) → s.Answer a answers) := by
  cases a with
  | request req =>
      cases hop : req.request.op with
      | write =>
          obtain ⟨e, answers, hcall, hanswers, hsim⟩ := h.write hop (ha hop)
          exact ⟨e, answers, engineStep_request hcall, hsim, fun _ => hanswers⟩
      -- A read is answered as the logs answer it only while the position can be read.
      | read =>
          obtain ⟨e, response, hcall, houtcome, hsim⟩ := h.read req hop
          exact ⟨e, _, engineStep_request hcall, hsim,
            fun hall => (houtcome.answers_iff req hop rfl rfl).mpr (hall _ _)⟩
      | ack =>
          obtain ⟨e, answers, hcall, hanswers, hsim⟩ := h.ack hop
          exact ⟨e, answers, engineStep_request hcall, hsim, fun _ => hanswers⟩
      | getStatus =>
          obtain ⟨e, answers, hcall, hanswers, hsim⟩ := h.getStatus hop
          exact ⟨e, answers, engineStep_request hcall, hsim, fun _ => hanswers⟩
  | applyNext clock raftIndex raftTerm =>
      obtain ⟨w, e, hnext, hstep, -, hsim⟩ := h.applyNext ha
      exact ⟨e, _, hstep, hsim, fun _ => ⟨w, hnext, rfl⟩⟩
  | gc => exact ⟨_, [], rfl, h.gc, fun _ => rfl⟩
  | store ready =>
      obtain ⟨e, hstep, hsim⟩ := h.store ha.1 ha.2.1 ha.2.2
      exact ⟨e, [], hstep, hsim, fun _ => rfl⟩
  | advance advanced => exact ⟨_, [], rfl, h.advance ha, fun _ => rfl⟩
  | observe => exact ⟨_, [], rfl, h.observe, fun _ => rfl⟩

/-! ### Whole runs -/

/-- An engine that has just started keeps the empty logs. -/
theorem refines_init {shardId createdTsNs : Nat} {config : ServerConfig} {e : ShardEngine}
    (hopen : ShardEngine.openEngine hash shardId config none .empty createdTsNs = .ok e) :
    (⟨lead e, .empty, 0⟩ : LeaderRun).Refines hash := by
  rw [ShardEngine.openEngine_fresh] at hopen
  cases hopen
  have hsane := ShardEngine.sane_freshEngine shardId config createdTsNs
  exact {
    sane := ⟨hsane.writer, hsane.contiguous, hsane.covered, hsane.applied⟩
    fits := ⟨Nat.two_pow_pos 32, fun entry hentry => List.mem_singleton.mp hentry ▸
      Nat.two_pow_pos 32, Nat.one_lt_two_pow (by decide)⟩
    leader := rfl
    accepting := rfl
    table := .new config.tailCacheEntries
    proposed := {
      requestSeq := rfl
      proposals := rfl
      pending := fun i w _ hw => by cases hw
      fits := fun w hw => by cases hw }
    indexed := {
      lies := fun id lsn loc hlookup => by cases hlookup
      complete := fun id lsn _ hhigh => by cases hhigh }
    applied_le := Nat.le_refl 0 }

/-- A step of the system is one of the engine and one of the logs. -/
theorem system_step {e e' : ShardEngine} {a : LeaderAction} (h : s.engineStep hash a = some e') :
    (system hash e).step s a = some ⟨e', s.logsStep a, s.indexStep a⟩ := by
  show (s.engineStep hash a).map (fun e' => LeaderRun.mk e' (s.logsStep a) (s.indexStep a)) = _
  rw [h]
  rfl

/-- **Every run keeps the relation.** -/
theorem refines_of_reachable {shardId createdTsNs : Nat} {config : ServerConfig} {e : ShardEngine}
    (hopen : ShardEngine.openEngine hash shardId config none .empty createdTsNs = .ok e)
    (hreach : (system hash e).Reachable Permitted s) : s.Refines hash := by
  refine hreach.invariant (refines_init hopen) fun s a t _ h ha hstep => ?_
  obtain ⟨e', answers, hengine, hsim, -⟩ := h.step ha
  rw [system_step hengine] at hstep
  cases hstep
  exact hsim.refines

/-- **The promise is kept exactly as long as every position can be read.** -/
theorem Refines.keepsLogs_iff (h : s.Refines hash) :
    s.KeepsLogs hash ↔ ∀ id lsn, s.Readable id lsn := by
  constructor
  · intro hkeeps id lsn
    -- Its read tells whether a position can be read.
    let req : ShardRequest := ⟨0, ⟨.read, id, 0, lsn, []⟩⟩
    obtain ⟨e, response, hcall, houtcome, hsim⟩ := h.read req rfl
    obtain ⟨e', answers, hstep, hresponses, hanswer⟩ :=
      hkeeps.answer (.request req) fun hwrite => by cases hwrite
    rw [engineStep_request hcall] at hstep
    cases hstep
    rw [hsim.responses] at hresponses
    have hsame := List.append_cancel_left hresponses
    rw [← hsame] at hanswer
    exact (houtcome.answers_iff req rfl rfl rfl).mp hanswer
  · intro hall
    refine ⟨fun i w hw => ⟨?_, ?_⟩, h.table.commit, fun a ha => ?_⟩
    · rw [h.proposed.proposals, List.getElem?_mapIdx, hw]
      rfl
    · exact KeyedLog.accepted_position streamOf hw
    · obtain ⟨e, answers, hstep, hsim, hanswer⟩ := h.step ha
      exact ⟨e, answers, hstep, hsim.responses, hanswer hall⟩

/-- **A leader keeps its streams' logs exactly as long as every committed position
that is not consumed can be read.** -/
theorem keepsLogs_iff_readable {shardId createdTsNs : Nat} {config : ServerConfig}
    {e : ShardEngine}
    (hopen : ShardEngine.openEngine hash shardId config none .empty createdTsNs = .ok e)
    (hreach : (system hash e).Reachable Permitted s) :
    s.KeepsLogs hash ↔ ∀ id lsn, s.Readable id lsn :=
  (refines_of_reachable hopen hreach).keepsLogs_iff

instance (s : LeaderRun) (a : LeaderAction) : Decidable (s.Permitted a) := by
  cases a <;> unfold Permitted <;> try unfold SnapshotFits
  all_goals infer_instance

/-- Two streams in small segments, of which one is acknowledged and collected. -/
def twoStreams : List LeaderAction :=
  let clock : Clock := ⟨id, id⟩
  [.request ⟨1, ⟨.write, 7, 1, 0, [10, 11]⟩⟩, .request ⟨2, ⟨.write, 8, 1, 0, [20]⟩⟩,
    .applyNext clock 2 1, .request ⟨1, ⟨.write, 7, 2, 0, [12]⟩⟩, .applyNext clock 3 1,
    .applyNext clock 4 1, .request ⟨3, ⟨.ack, 7, 0, 1, []⟩⟩, .gc,
    .request ⟨3, ⟨.read, 7, 0, 1, []⟩⟩]

/-- Two writes are committed to the first stream, one of them consumed. -/
def TwoCommitted (s : LeaderRun) : Prop :=
  (∀ w ∈ s.logs.log.entries, Short w) ∧ (s.logs.committed 7).length = 2 ∧
    s.logs.consumed 7 = 1 ∧ s.engine.dir.files.length = 3

instance (w : ShardRequest) : Decidable (Short w) := by
  unfold Short
  infer_instance

instance : DecidablePred TwoCommitted := fun s => by
  unfold TwoCommitted
  infer_instance

/-- A run that rotates and collects segments keeps the logs. -/
theorem keepsLogs_twoStreams :
    ∃ e s, ShardEngine.openEngine crc32 5 ⟨1, 100, 1, [1]⟩ none .empty 0 = .ok e ∧
      (system crc32 e).Reachable Permitted s ∧ (s.logs.committed 7).length = 2 ∧
      s.KeepsLogs crc32 := by
  obtain ⟨s, hreach, hshort, hlength, -⟩ := System.exists_reachable_of_execute
    (system crc32 (ShardEngine.freshEngine 5 ⟨1, 100, 1, [1]⟩ 0)) Permitted twoStreams TwoCommitted
    (by decide +kernel)
  exact ⟨_, s, rfl, hreach, hlength,
    (keepsLogs_iff_readable rfl hreach).mpr (readable_of_short hshort)⟩

/-! ### A position that cannot be read -/

/-- Without a tail cache an applied record is not cached. -/
theorem readFromTail_applyCommand {t : StreamStateTable} (hlimit : t.tailCacheLimit = 0)
    (raftIndex lsn : Nat) (cmd : AppendCommand) :
    (ShardCore.applyCommand t raftIndex cmd).readFromTail cmd.streamId lsn = none := by
  rw [StreamStateTable.readFromTail_eq, ShardCore.ensureStream_applyCommand, if_pos rfl, hlimit]
  unfold StreamStateTable.trimTail
  simp

/-- A first write. -/
def firstWrite (payload : Bytes) : ShardRequest := ⟨1, ⟨.write, 7, 1, 0, payload⟩⟩

/-- An engine without a tail cache. -/
def uncached : ShardEngine := .freshEngine 5 ⟨1, 100, 0, [1]⟩ 0

variable (hash) in
/-- A first write is accepted by an engine without a tail cache, which stays one, and for
which no snapshot is due. -/
theorem tailCacheLimit_firstWrite (payload : Bytes) :
    (engineStep hash ⟨lead uncached, .empty, 0⟩ (.request (firstWrite payload))).map
      (fun e => (e.core.streams.tailCacheLimit, e.raft.applied)) = some (0, 0) := rfl

/-- The logs after a first write. -/
theorem next?_firstWrite (payload : Bytes) :
    (StreamLogs.empty.serve (firstWrite payload)).log.next? = some (firstWrite payload) := rfl

/-- The logs after a first write has been committed. -/
theorem committed_firstWrite (payload : Bytes) :
    ((StreamLogs.empty.serve (firstWrite payload)).commitNext.committed 7)[0]? =
      some (firstWrite payload) := rfl

variable (hash) in
/-- **A long first write is lost** to an engine without a tail cache once it is
applied. -/
theorem firstWrite_not_kept {payload : Bytes} (hfits : payload.length < 2 ^ 32 - 40)
    (hlong : 2 ^ 32 - 48 ≤ payload.length) :
    ∃ s, (system hash uncached).Reachable Permitted s ∧
      (s.logs.committed 7)[0]? = some (firstWrite payload) ∧ ¬ s.KeepsLogs hash := by
  have h₀ : (⟨lead uncached, .empty, 0⟩ : LeaderRun).Refines hash := refines_init rfl
  -- The write is accepted.
  have hwrite : (⟨lead uncached, .empty, 0⟩ : LeaderRun).Permitted
      (.request (firstWrite payload)) :=
    fun _ => ⟨show 7 < 256 ^ 8 by decide, show 1 < 256 ^ 8 by decide, hfits⟩
  obtain ⟨e₁, answers₁, hstep₁, hsim₁, -⟩ := h₀.step hwrite
  obtain ⟨hlimit, hcounted⟩ : e₁.core.streams.tailCacheLimit = 0 ∧ e₁.raft.applied = 0 := by
    have hcomputed := tailCacheLimit_firstWrite hash payload
    rw [hstep₁] at hcomputed
    exact Prod.mk.inj (Option.some.inj hcomputed)
  let s₁ : LeaderRun := ⟨e₁, StreamLogs.empty.serve (firstWrite payload), 0⟩
  have hreach₁ : (system hash uncached).Reachable Permitted s₁ := by
    exact .step .init hwrite (system_step hstep₁)
  -- It is applied, and the tail cache does not keep it.
  have happlied : s₁.Permitted (.applyNext ⟨id, id⟩ 1 1) := by
    refine ⟨?_, show 0 < 1 by decide, by decide, by decide, fun hdue => ?_⟩
    · show (StreamLogs.empty.serve (firstWrite payload)).log.next? ≠ none
      rw [next?_firstWrite]
      exact Option.some_ne_none _
    · have hnone : e₁.raft.store.snapshotIndex + 64 ≤ e₁.raft.applied := hdue
      omega
  obtain ⟨w, e₂, hnext, hstep₂, hcore₂, hsim₂⟩ := hsim₁.refines.applyNext happlied
  have hfirst : some (firstWrite payload) = some w := (next?_firstWrite payload).symm.trans hnext
  cases hfirst
  let s₂ : LeaderRun := ⟨e₂, s₁.logs.commitNext, 1⟩
  have hreach₂ : (system hash uncached).Reachable Permitted s₂ := by
    exact .step hreach₁ happlied (system_step hstep₂)
  have htail : e₂.core.streams.readFromTail 7 0 = none := by
    rw [hcore₂]
    exact readFromTail_applyCommand hlimit 1 0
      (s₁.logs.commandOf s₁.logs.log.applied (firstWrite payload))
  refine ⟨s₂, hreach₂, committed_firstWrite payload, fun hkeeps => ?_⟩
  rcases hsim₂.refines.keepsLogs_iff.mp hkeeps 7 0 _ (committed_firstWrite payload)
    (Nat.le_refl 0) with hshort | hcached
  · have hlt : payload.length < 2 ^ 32 - 48 := hshort
    omega
  · rw [show s₂.engine.core.streams.readFromTail 7 0 = none from htail] at hcached
    cases hcached

/-- **A committed write that cannot be read back**: the engine has no tail cache,
and the size of the write's record wraps to zero. -/
theorem longWrite_not_kept :
    ∃ e s, ShardEngine.openEngine crc32 5 ⟨1, 100, 0, [1]⟩ none .empty 0 = .ok e ∧
      (system crc32 e).Reachable Permitted s ∧
      (s.logs.committed 7)[0]? = some (firstWrite (List.replicate (2 ^ 32 - 48) 0)) ∧
      ¬ s.KeepsLogs crc32 := by
  have hlength : (List.replicate (2 ^ 32 - 48) (0 : UInt8)).length = 2 ^ 32 - 48 :=
    List.length_replicate
  obtain ⟨s, hreach, hcommitted, hnot⟩ :=
    firstWrite_not_kept crc32 (hlength.trans_lt (by decide)) hlength.ge
  exact ⟨uncached, s, rfl, hreach, hcommitted, hnot⟩

end LeaderRun

end WalServer.Shard
