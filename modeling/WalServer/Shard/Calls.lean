import WalServer.Shard.Steps

/-!
# `WalServer.Shard.Calls`: what a call of the engine answers

The engine's loop as calls: a client request, a message for the raft node, what
becomes of the node, the parts of a cycle, the end of an iteration and garbage
collection. `driveReady_eq_callAll` says that `drive_ready` is such a sequence.

`Books` is what of an engine takes part in answering clients: the role of its node,
the role it has last observed, the counter of request ids, the pending writes and the
responses it has sent. `Settles` says for each call what it does to the books, and
which pending writes its responses answer (`answers`).
-/

set_option autoImplicit false

namespace WalServer.Shard

open WalServer.Lib WalServer.Protocol WalServer.Raft WalServer.Wal

/-- What the engine sees of its raft node. -/
structure NodeView where
  state : StateRole
  leaderId : Nat
  committed : Nat
  applied : Nat
  accepting : Bool
deriving DecidableEq, Repr

/-- The node with another view of it. -/
def RawNode.withView (r : RawNode) (view : NodeView) : RawNode :=
  { r with
    state := view.state
    leaderId := view.leaderId
    committed := view.committed
    applied := view.applied
    accepting := view.accepting }

/-- A call of the engine, or something that its raft node does. -/
inductive EngineCall where
  /-- A client request is handled. -/
  | request (req : ShardRequest)
  /-- A message is stepped into the raft node. -/
  | step (message : Message)
  /-- The raft node is another than before. -/
  | move (view : NodeView)
  /-- A cycle stores and sends what the raft node has ready. -/
  | store (ready : Ready)
  /-- A committed entry is gone through. -/
  | apply (clock : Clock) (entry : LogEntry)
  /-- A cycle ends. -/
  | advance (advanced : Advanced)
  /-- A loop iteration ends. -/
  | observe
  /-- Garbage is collected. -/
  | collect

/-- A call that handles a request. -/
def EngineCall.isRequest : EngineCall → Bool
  | .request _ => true
  | _          => false

namespace ShardEngine

section

variable (hash : Bytes → UInt32)

/-- One call. -/
def call (e : ShardEngine) : EngineCall → Outcome EngineError ShardEngine
  | .request req => e.handleClientRequest hash req
  | .step message => .ok { e with raft := { e.raft with stepped := e.raft.stepped ++ [message] } }
  | .move view => .ok { e with raft := e.raft.withView view }
  | .store ready =>
      match e.raft.store.storeReady ready with
      | (store, .ok ())   => .ok (e.afterStore store ready)
      | (_, .err failure) => .err (.storage failure)
      | (_, .panic)       => .panic
  | .apply clock entry => applyCommittedEntries hash clock [entry] e
  | .advance advanced => .ok (e.advance advanced)
  | .observe => .ok e.logRaftStateIfChanged
  | .collect => .ok e.runGc

/-- Calls one after the other. -/
def callAll : List EngineCall → ShardEngine → Outcome EngineError ShardEngine
  | [],        e => .ok e
  | c :: rest, e => (e.call hash c).bind (callAll rest)

end

variable {hash : Bytes → UInt32} {clock : Clock}

theorem callAll_append (calls more : List EngineCall) (e : ShardEngine) :
    callAll hash (calls ++ more) e = (callAll hash calls e).bind (callAll hash more) := by
  induction calls generalizing e with
  | nil => rfl
  | cons c rest ih =>
      rw [List.cons_append, callAll, callAll]
      cases e.call hash c with
      | ok e' => simpa using ih e'
      | err failure => rfl
      | panic => rfl

theorem callAll_singleton (c : EngineCall) (e : ShardEngine) :
    callAll hash [c] e = e.call hash c := by
  rw [callAll]
  cases e.call hash c <;> rfl

/-- An engine in use: it was opened, and has made calls since. -/
def InUse (hash : Bytes → UInt32) (e : ShardEngine) : Prop :=
  ∃ shardId config file dir createdTsNs opened calls,
    openEngine hash shardId config file dir createdTsNs = .ok opened ∧
      callAll hash calls opened = .ok e

theorem InUse.call {e e' : ShardEngine} (h : e.InUse hash) {c : EngineCall}
    (hcall : e.call hash c = .ok e') : e'.InUse hash := by
  obtain ⟨shardId, config, file, dir, createdTsNs, opened, calls, hopen, hcalls⟩ := h
  refine ⟨shardId, config, file, dir, createdTsNs, opened, calls ++ [c], hopen, ?_⟩
  rw [callAll_append, hcalls, Outcome.bind_ok, callAll_singleton, hcall]

/-- The loop over committed entries takes one entry after the other. -/
theorem applyCommittedEntries_eq_callAll (entries : List LogEntry) (e : ShardEngine) :
    applyCommittedEntries hash clock entries e =
      callAll hash (entries.map (.apply clock)) e := by
  induction entries generalizing e with
  | nil => rfl
  | cons entry rest ih =>
      have hrest : callAll hash (rest.map (.apply clock)) = applyCommittedEntries hash clock rest :=
        funext fun e => (ih e).symm
      rw [List.map_cons, callAll, call, hrest]
      cases hcommand : isCommand entry with
      | false =>
          rw [applyCommittedEntries_skip hcommand, applyCommittedEntries_skip hcommand]
          rfl
      | true =>
          rw [applyCommittedEntries_command hcommand, applyCommittedEntries_command hcommand]
          cases decodeAppendCommand entry.data with
          | error failure => rfl
          | ok cmd =>
              simp only
              cases e.applyAppendEntry hash clock entry.index entry.term cmd with
              | ok e' => rfl
              | err failure => rfl
              | panic => rfl

/-- **A cycle is a sequence of calls**: it stores and sends, goes through the committed
entries, and ends. -/
theorem driveReady_eq_callAll (e : ShardEngine) (ready : Ready) (advanced : Advanced) :
    e.driveReady hash clock ready advanced =
      callAll hash (.store ready :: ready.committedEntries.map (.apply clock) ++
        [.advance advanced]) e := by
  rw [List.cons_append, callAll, driveReady, call]
  cases e.raft.store.storeReady ready with
  | mk store result =>
      cases result with
      | ok stored =>
          simp only [Outcome.bind_ok, callAll_append, ← applyCommittedEntries_eq_callAll]
          rfl
      | err failure => rfl
      | panic => rfl

end ShardEngine

/-- A response that settles a pending write: it was applied, or given up. -/
def PendingClientWrite.AnsweredBy (p : PendingClientWrite) (r : ShardResponse) : Prop :=
  r ∈ ShardEngine.completionOf (some p) ∨ ∃ leaderId, r = ShardCore.notLeaderResponse leaderId p

/-- It goes to the client of the write. -/
theorem PendingClientWrite.AnsweredBy.connectionId_eq {p : PendingClientWrite} {r : ShardResponse}
    (h : p.AnsweredBy r) : r.connectionId = p.connectionId := by
  rcases h with hcompleted | ⟨leaderId, rfl⟩
  · rw [List.mem_singleton.mp hcompleted]
  · rfl

/-! ### The books -/

/-- What of an engine takes part in answering clients. -/
structure Books where
  role : StateRole
  observedRole : StateRole
  requestSeq : Nat
  pending : AssocMap Nat PendingClientWrite
  responses : List ShardResponse

namespace ShardEngine

/-- The books of an engine. -/
def books (e : ShardEngine) : Books where
  role := e.raft.state
  observedRole := e.core.observedRole
  requestSeq := e.core.requestSeq
  pending := e.core.pendingWrites
  responses := e.responses

/-- A request that becomes a pending write. -/
def Admits (e : ShardEngine) (req : ShardRequest) : Prop :=
  req.request.op = .write ∧ e.raft.state = .leader ∧
    (e.core.streams.ensureStream req.request.streamId).maxEpoch ≤ req.request.epoch

instance (e : ShardEngine) (req : ShardRequest) : Decidable (e.Admits req) := by
  unfold Admits
  infer_instance

/-- The write that an admitted request leaves pending. -/
def pendingOf (e : ShardEngine) (req : ShardRequest) : PendingClientWrite :=
  ⟨req.connectionId, req.request.streamId, req.request.epoch,
    (e.core.streams.ensureStream req.request.streamId).nextStreamLsn⟩

/-- Whether the end of an iteration notices that the leadership is lost. -/
def StepsDown (e : ShardEngine) : Prop :=
  e.core.observedRole = .leader ∧ e.raft.state ≠ .leader

instance (e : ShardEngine) : Decidable e.StepsDown := by
  unfold StepsDown
  infer_instance

/-- What the responses of a call answer, in their order: the pending write of a request
id, or the request that is handled (`none`). -/
def answers (e : ShardEngine) : EngineCall → List (Option Nat)
  | .request req   => if e.Admits req then [] else [none]
  | .apply _ entry =>
      match commandOf entry with
      | some (_, cmd) => if cmd.requestId ∈ e.core.pendingWrites then [some cmd.requestId] else []
      | none          => []
  | .observe       => if e.StepsDown then e.core.givenUp.map fun p => some p.1 else []
  | _              => []

/-- **What a call does to the books.** -/
inductive Settles (e : ShardEngine) : EngineCall → ShardEngine → Prop
  /-- A request is answered as it is handled. -/
  | answered {req : ShardRequest} {r : ShardResponse} {e' : ShardEngine}
      (hnot : ¬ e.Admits req) (hconn : r.connectionId = req.connectionId)
      (hbooks : e'.books = { e.books with responses := e.responses ++ [r] }) :
      Settles e (.request req) e'
  /-- A write is pending under the next request id. -/
  | admitted {req : ShardRequest} {e' : ShardEngine} (hadmits : e.Admits req)
      (hbooks : e'.books = { e.books with
        requestSeq := e.core.requestSeq + 1
        pending := e.core.pendingWrites.insert (e.core.requestSeq + 1) (e.pendingOf req) }) :
      Settles e (.request req) e'
  /-- A pending write is applied, and its client told. -/
  | completed {clock : Clock} {entry : LogEntry} {raftIndex : Nat} {cmd : AppendCommand}
      {p : PendingClientWrite} {e' : ShardEngine}
      (hcommand : commandOf entry = some (raftIndex, cmd))
      (hpending : e.core.pendingWrites.lookup cmd.requestId = some p)
      (hbooks : e'.books = { e.books with
        pending := e.core.pendingWrites.erase cmd.requestId
        responses := e.responses ++ completionOf (some p) }) :
      Settles e (.apply clock entry) e'
  /-- The pending writes are given up, and their clients told. -/
  | steppedDown {e' : ShardEngine} (hdown : e.StepsDown)
      (hbooks : e'.books = { e.books with
        observedRole := e.raft.state
        pending := ∅
        responses := e.responses ++
          e.core.givenUp.map fun p => ShardCore.notLeaderResponse e.raft.leaderId p.2 }) :
      Settles e .observe e'
  /-- The role is observed, and was not lost. -/
  | observed {e' : ShardEngine} (hup : ¬ e.StepsDown)
      (hbooks : e'.books = { e.books with observedRole := e.raft.state }) :
      Settles e .observe e'
  /-- The raft node's role is another. -/
  | moved {view : NodeView} {e' : ShardEngine}
      (hbooks : e'.books = { e.books with role := view.state }) : Settles e (.move view) e'
  /-- Nothing that is booked changes. -/
  | quiet {c : EngineCall} {e' : ShardEngine} (hanswers : e.answers c = [])
      (hrequest : ∀ req, c ≠ .request req) (hobserve : c ≠ .observe)
      (hbooks : e'.books = e.books) : Settles e c e'

variable {hash : Bytes → UInt32} {clock : Clock} {e e' : ShardEngine}

@[simp] theorem books_sendResponse (e : ShardEngine) (conn : Nat) (status : Status)
    (epoch offset : Nat) (payload : Bytes) :
    (e.sendResponse conn status epoch offset payload).books =
      { e.books with responses := e.responses ++ [⟨conn, ⟨status, epoch, offset, payload⟩⟩] } := rfl

/-- A response to the request that is handled, from an engine with the same books. -/
theorem settles_sendResponse {req : ShardRequest} (hnot : ¬ e.Admits req)
    (hbooks : e'.books = e.books) (status : Status) (epoch offset : Nat) (payload : Bytes) :
    e.Settles (.request req) (e'.sendResponse req.connectionId status epoch offset payload) := by
  refine .answered (r := ⟨req.connectionId, ⟨status, epoch, offset, payload⟩⟩) hnot rfl ?_
  have hresponses : e'.responses = e.responses := congrArg Books.responses hbooks
  rw [books_sendResponse, hbooks, hresponses]

/-- A write is refused and answered, or pending. -/
theorem settles_handleWrite {req : ShardRequest} (hop : req.request.op = .write)
    (h : e.handleWrite req.connectionId req.request.streamId req.request.epoch
      req.request.payload = .ok e') : e.Settles (.request req) e' := by
  unfold handleWrite at h
  by_cases hleader : e.raft.state = .leader
  · rw [if_neg (not_not.mpr hleader)] at h
    have hcases := e.core.admitWrite_cases req.connectionId req.request.streamId req.request.epoch
      req.request.payload
    have hrole := e.core.observedRole_admitWrite req.connectionId req.request.streamId
      req.request.epoch req.request.payload
    cases hwrite : e.core.admitWrite req.connectionId req.request.streamId req.request.epoch
        req.request.payload with
    | mk core result =>
        rw [hwrite] at h hcases hrole
        rcases hcases with
          ⟨hresult, hstale, -, hseq, hpending⟩ | ⟨hresult, hfresh, -, hseq, hpending⟩
        · -- The epoch is stale.
          simp only at hresult hseq hpending hrole
          subst hresult
          cases h
          refine settles_sendResponse (fun hadmits => ?_) ?_ ..
          · exact absurd hadmits.2.2 (Nat.not_le.mpr hstale)
          · simp only [books, hseq, hpending, hrole]
        · -- The write is proposed, and its answer left to the apply.
          simp only at hresult hseq hpending hrole
          subst hresult
          simp only at h
          split at h
          · cases h
            refine .admitted ⟨hop, hleader, hfresh⟩ ?_
            simp only [books, hseq, hpending, hrole]
            rfl
          · cases h
  · rw [if_pos hleader] at h
    cases h
    exact settles_sendResponse (fun hadmits => hleader hadmits.2.1) rfl ..

/-- **A handled request** is answered, unless it is a write that is pending. -/
theorem settles_request {req : ShardRequest} (h : e.handleClientRequest hash req = .ok e') :
    e.Settles (.request req) e' := by
  -- Only a write is admitted.
  have hnot : req.request.op ≠ .write → ¬ e.Admits req := fun hop hadmits => hop hadmits.1
  unfold handleClientRequest at h
  cases hop : req.request.op with
  | write =>
      simp only [hop] at h
      exact settles_handleWrite hop h
  | read =>
      simp only [hop] at h
      have hadmits := hnot (by rw [hop]; decide)
      unfold handleRead at h
      split at h
      · cases h
        exact settles_sendResponse hadmits rfl ..
      · obtain ⟨walReader, r, hconn, rfl⟩ := readStream_eq_ok h
        exact .answered hadmits hconn rfl
  | ack =>
      simp only [hop] at h
      have hadmits := hnot (by rw [hop]; decide)
      cases h
      rw [handleAck_eq]
      refine settles_sendResponse hadmits ?_ ..
      rfl
  | getStatus =>
      simp only [hop] at h
      have hadmits := hnot (by rw [hop]; decide)
      cases h
      obtain ⟨payload, hstatus⟩ := e.handleGetStatus_eq req.connectionId req.request.streamId
      rw [hstatus]
      exact settles_sendResponse hadmits rfl ..

/-- **A committed entry** whose write is pending completes it. -/
theorem settles_apply {entry : LogEntry}
    (h : applyCommittedEntries hash clock [entry] e = .ok e') :
    e.Settles (.apply clock entry) e' := by
  cases hisCommand : isCommand entry with
  | false =>
    rw [applyCommittedEntries_skip hisCommand] at h
    cases h
    refine .quiet ?_ (fun _ hc => by cases hc) (fun hc => by cases hc) rfl
    unfold answers
    simp only [commandOf_skip hisCommand]
  | true =>
    rw [applyCommittedEntries_command hisCommand] at h
    cases hdecode : decodeAppendCommand entry.data with
    | error failure =>
      rw [hdecode] at h
      cases h
    | ok cmd =>
      rw [hdecode] at h
      have hcommand := commandOf_command hisCommand hdecode
      obtain ⟨e₁, happly, hret⟩ := Outcome.bind_eq_ok.mp h
      cases hret
      obtain ⟨⟨w, dir, n, loc⟩, -, hrest⟩ := Outcome.bind_eq_ok.mp happly
      simp only [sendCompletion_eq] at hrest
      have hbooks : e'.books = { e.books with
          pending := e.core.pendingWrites.erase cmd.requestId
          responses := e.responses ++
            completionOf (e.core.pendingWrites.lookup cmd.requestId) } := by
        obtain ⟨store, rfl⟩ := maybeSnapshotRaftState_eq_ok hrest
        rfl
      cases hlookup : e.core.pendingWrites.lookup cmd.requestId with
      | some p =>
          rw [hlookup] at hbooks
          exact .completed hcommand hlookup hbooks
      | none =>
          -- Nobody waits for this command here.
          have habsent : cmd.requestId ∉ e.core.pendingWrites := by
            rw [← AList.lookup_eq_none]
            exact hlookup
          refine .quiet ?_ (fun _ hc => by cases hc) (fun hc => by cases hc) ?_
          · unfold answers
            simp only [hcommand, if_neg habsent]
          · rw [hbooks, hlookup, AssocMap.erase_of_notMem habsent, completionOf, List.append_nil]
            rfl

/-- **The end of an iteration** gives the pending writes up if the leadership is lost,
and only then. -/
theorem settles_observe (e : ShardEngine) : e.Settles .observe e.logRaftStateIfChanged := by
  by_cases hdown : e.StepsDown
  · have hchange : e.raft.state ≠ e.core.observedRole ∨
        e.raft.leaderId ≠ e.core.observedLeaderId :=
      Or.inl fun hsame => hdown.2 (hsame.trans hdown.1)
    refine .steppedDown hdown ?_
    unfold logRaftStateIfChanged ShardCore.logRaftStateIfChanged
    simp only [if_pos hchange, if_pos (show _ ∧ _ from hdown), ShardCore.failPendingWritesNotLeader,
      ← ShardCore.map_snd_givenUp, List.map_map]
    rfl
  · refine .observed hdown ?_
    unfold logRaftStateIfChanged ShardCore.logRaftStateIfChanged
    split
    · rw [if_neg (show ¬ (_ ∧ _) from hdown)]
      simp [books]
    · rename_i hsame
      rw [not_or, not_not, not_not] at hsame
      simp [books, hsame.1]

/-- **What a call that returns does to the books.** -/
theorem settles_of_call {c : EngineCall} (h : e.call hash c = .ok e') : e.Settles c e' := by
  cases c with
  | request req => exact settles_request h
  | apply clock entry => exact settles_apply h
  | observe =>
      cases h
      exact e.settles_observe
  | move view =>
      cases h
      exact .moved rfl
  | step message =>
      cases h
      exact .quiet rfl (fun _ hc => by cases hc) (fun hc => by cases hc) rfl
  | store ready =>
      rw [call] at h
      split at h
      · rename_i store _
        cases h
        obtain ⟨outbound, stepped, hsent⟩ := afterStore_eq e store ready
        exact .quiet rfl (fun _ hc => by cases hc) (fun hc => by cases hc) (by rw [hsent]; rfl)
      · cases h
      · cases h
  | advance advanced =>
      cases h
      obtain ⟨outbound, stepped, hadvance⟩ := advance_eq e advanced
      exact .quiet rfl (fun _ hc => by cases hc) (fun hc => by cases hc) (by rw [hadvance]; rfl)
  | collect =>
      cases h
      obtain ⟨walReader, hgc⟩ := runGc_eq e
      exact .quiet rfl (fun _ hc => by cases hc) (fun hc => by cases hc) (by rw [hgc]; rfl)

/-! ### Calls that handle no request -/

/-- A call takes no response back. -/
theorem Settles.exists_responses {c : EngineCall} (h : e.Settles c e') :
    ∃ new, e'.responses = e.responses ++ new := by
  cases h with
  | @answered req r _ hnot hconn hbooks => exact ⟨[r], congrArg Books.responses hbooks⟩
  | admitted hadmits hbooks =>
      exact ⟨[], (congrArg Books.responses hbooks).trans (List.append_nil _).symm⟩
  | completed hcommand hlookup hbooks => exact ⟨_, congrArg Books.responses hbooks⟩
  | steppedDown hdown hbooks => exact ⟨_, congrArg Books.responses hbooks⟩
  | observed hup hbooks =>
      exact ⟨[], (congrArg Books.responses hbooks).trans (List.append_nil _).symm⟩
  | moved hbooks =>
      exact ⟨[], (congrArg Books.responses hbooks).trans (List.append_nil _).symm⟩
  | quiet hanswers hrequest hobserve hbooks =>
      exact ⟨[], (congrArg Books.responses hbooks).trans (List.append_nil _).symm⟩

/-- **The pending writes that a call settles**, and its responses to them. -/
structure Settled (e : ShardEngine) (c : EngineCall) (e' : ShardEngine)
    (gone : List (Σ _ : Nat, PendingClientWrite))
    (respond : PendingClientWrite → ShardResponse) : Prop where
  answers : e.answers c = gone.map fun w => some w.1
  distinct : gone.NodupKeys
  wasPending : ∀ w ∈ gone, e.core.pendingWrites.lookup w.1 = some w.2
  answered : ∀ p : PendingClientWrite, p.AnsweredBy (respond p)
  pending : ∀ requestId, e'.core.pendingWrites.lookup requestId =
    if requestId ∈ gone.keys then none else e.core.pendingWrites.lookup requestId
  requestSeq : e'.core.requestSeq = e.core.requestSeq
  responses : e'.responses = e.responses ++ gone.map fun w => respond w.2

/-- A call that leaves the pending writes and the responses alone settles none. -/
theorem settled_nil {c : EngineCall} (hanswers : e.answers c = [])
    (hpending : e'.core.pendingWrites = e.core.pendingWrites)
    (hseq : e'.core.requestSeq = e.core.requestSeq) (hresponses : e'.responses = e.responses) :
    e.Settled c e' [] (ShardCore.notLeaderResponse 0) where
  answers := hanswers
  distinct := List.nodup_nil
  wasPending _ hw := by cases hw
  answered _ := Or.inr ⟨0, rfl⟩
  pending requestId := by
    rw [hpending]
    simp
  requestSeq := hseq
  responses := by simpa using hresponses

/-- **A call that handles no request** settles some pending writes: one that is applied,
all of them at a step-down, or none. -/
theorem Settles.settled {c : EngineCall} (h : e.Settles c e') (hrequest : c.isRequest = false) :
    ∃ gone respond, e.Settled c e' gone respond := by
  cases h with
  | answered hnot hconn hbooks => cases hrequest
  | admitted hadmits hbooks => cases hrequest
  -- A committed command settles the one write that it completes.
  | @completed clock entry raftIndex cmd p _ hcommand hlookup hbooks =>
      have hmem : cmd.requestId ∈ e.core.pendingWrites := by
        rw [← AList.lookup_isSome, hlookup]
        rfl
      have hpending : e'.core.pendingWrites = e.core.pendingWrites.erase cmd.requestId :=
        congrArg Books.pending hbooks
      refine ⟨[⟨cmd.requestId, p⟩], fun p => ⟨p.connectionId, ⟨.ok, p.epoch, p.streamLsn, []⟩⟩,
        ?_, List.nodup_singleton _, by simpa using hlookup,
        fun p => Or.inl (List.mem_singleton.mpr rfl), fun requestId => ?_,
        congrArg Books.requestSeq hbooks, congrArg Books.responses hbooks⟩
      · unfold answers
        simp only [hcommand, if_pos hmem]
        rfl
      · rw [hpending, AssocMap.lookup_erase_eq]
        simp
  | steppedDown hdown hbooks =>
      -- The order in which they are given up is a sorting of what is pending.
      have hperm : e.core.givenUp.Perm e.core.pendingWrites.entries := List.mergeSort_perm _ _
      have hpending : e'.core.pendingWrites = ∅ := congrArg Books.pending hbooks
      refine ⟨e.core.givenUp, ShardCore.notLeaderResponse e.raft.leaderId, ?_,
        (List.perm_nodupKeys hperm).mpr e.core.pendingWrites.nodupKeys,
        fun w hw => AList.mem_lookup_iff.mpr (hperm.subset hw), fun p => Or.inr ⟨_, rfl⟩,
        fun requestId => ?_, congrArg Books.requestSeq hbooks, congrArg Books.responses hbooks⟩
      · unfold answers
        simp only [if_pos hdown]
      · -- All that was pending is given up.
        have hkeys : requestId ∈ e.core.givenUp.keys ↔ requestId ∈ e.core.pendingWrites :=
          (hperm.map Sigma.fst).mem_iff
        rw [hpending, AList.lookup_empty]
        split
        · rfl
        · rename_i hnot
          rw [hkeys] at hnot
          exact (AList.lookup_eq_none.mpr hnot).symm
  | observed hup hbooks =>
      refine ⟨[], _, settled_nil ?_ (congrArg Books.pending hbooks)
        (congrArg Books.requestSeq hbooks) (congrArg Books.responses hbooks)⟩
      unfold answers
      simp only [if_neg hup]
  | moved hbooks =>
      exact ⟨[], _, settled_nil rfl (congrArg Books.pending hbooks)
        (congrArg Books.requestSeq hbooks) (congrArg Books.responses hbooks)⟩
  | quiet hanswers _ _ hbooks =>
      exact ⟨[], _, settled_nil hanswers (congrArg Books.pending hbooks)
        (congrArg Books.requestSeq hbooks) (congrArg Books.responses hbooks)⟩

end ShardEngine

end WalServer.Shard
