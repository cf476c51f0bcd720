import WalServer.Lib.Inlet
import WalServer.Lib.Transition
import WalServer.Net.Peer
import WalServer.Shard.Answers

/-!
# `WalServer.Shard.Loop`: the loop of a shard engine

`ShardEngine::run` in steps small enough for what other threads do meanwhile: the
select, the drain of the eventfd, each message that is taken, each committed entry.
Producers send into the two inlets of the loop and notify it, as two steps.

What becomes of the raft node is left open: while it is stepped, ticks, campaigns or
has something ready, its role may change at any moment; in the rest of an iteration it
keeps its role. A call that fails ends the loop, which then has no further step.

* `requests_awake`: at its select the loop has no request whose wake-up is lost.
* `stepDown_leaves_none`: at its select the loop has a pending write only as a leader,
  and every other write that was ever pending has been answered once.
-/

set_option autoImplicit false

namespace WalServer.Shard

open WalServer.Lib WalServer.Protocol WalServer.Raft
open WalServer.Net.Peer (RaftInbound)

/-- Where the loop is in an iteration. -/
inductive LoopPhase where
  /-- In its select. -/
  | selecting
  /-- Behind the wait for requests, which has read the eventfd. -/
  | requestsWoken
  /-- In the loop that takes client requests. -/
  | takingRequests
  /-- Behind the wait for raft messages. -/
  | raftWoken
  /-- In the loop that takes raft messages. -/
  | takingMessages
  /-- Behind the select: it is looked whether a tick and the first campaign are due. -/
  | ticking
  /-- In a cycle, with the committed entries that are still to be gone through. -/
  | applying (entries : List LogEntry)
  /-- Behind the cycle. -/
  | observing
  /-- At the end: it is looked whether garbage is to be collected. -/
  | collecting
deriving DecidableEq, Repr

/-- Whether the raft node is at work, so that its role may change. -/
def LoopPhase.elects : LoopPhase → Bool
  | .takingMessages | .ticking | .applying _ | .observing                           => true
  | .selecting | .requestsWoken | .takingRequests | .raftWoken | .collecting        => false

/-- The loop is about to take all that is in the queue of requests. -/
def LoopPhase.servesRequests : LoopPhase → Bool
  | .requestsWoken | .takingRequests => true
  | _                                => false

/-- The loop is about to take all that is in the queue of raft messages. -/
def LoopPhase.servesMessages : LoopPhase → Bool
  | .raftWoken | .takingMessages => true
  | _                            => false

/-- The loop, with the record of its engine. -/
structure ShardLoop extends Answering where
  phase : LoopPhase
  requests : Inlet ShardRequest
  raft : Inlet (RaftInbound Message)

/-- What the loop and the producers of its messages do. -/
inductive LoopAction where
  /-- The acceptor sends a request. -/
  | sendRequest (req : ShardRequest)
  /-- The acceptor notifies the loop of a request it has sent. -/
  | notifyRequest
  /-- A peer's task sends a message. -/
  | sendMessage (inbound : RaftInbound Message)
  /-- A peer's task notifies the loop of a message it has sent. -/
  | notifyMessage
  /-- The wait for requests wins the select. -/
  | wakeRequests
  /-- The wait for raft messages wins the select. -/
  | wakeRaft
  /-- The timer wins the select. -/
  | timer
  /-- The eventfd that was read is drained. -/
  | drain
  /-- The next request or message is taken and handled, if there is one. -/
  | take
  /-- The raft node steps a message, ticks, campaigns, or changes as it is made ready. -/
  | move (view : NodeView)
  /-- The raft node has something ready, which is stored and sent. -/
  | ready (ready : Ready)
  /-- The raft node has nothing ready. -/
  | notReady
  /-- The next committed entry is gone through. -/
  | apply (clock : Clock)
  /-- The cycle ends. -/
  | advance (advanced : Advanced)
  /-- The role is observed. -/
  | observe
  /-- Garbage is collected, if it is due. -/
  | collect (due : Bool)

namespace ShardLoop

section

variable (hash : Bytes → UInt32) (capacity : Nat)

/-- The loop before its first iteration. -/
def start (e : ShardEngine) : ShardLoop := ⟨.opened e, .selecting, .new, .new⟩

/-- The engine is called, and the loop goes on if the call returns. -/
def perform (s : ShardLoop) (c : EngineCall) (phase : LoopPhase) : Option ShardLoop :=
  (s.engine.call hash c).toOption.map fun e =>
    { s with toAnswering := s.toAnswering.note c e, phase := phase }

/-- What an action does, where it can happen. -/
def step (s : ShardLoop) : LoopAction → Option ShardLoop
  | .sendRequest req => (s.requests.send capacity req).map fun i => { s with requests := i }
  | .notifyRequest => s.requests.notify.map fun i => { s with requests := i }
  | .sendMessage inbound =>
      (s.raft.send (capacity * 4) inbound).map fun i => { s with raft := i }
  | .notifyMessage => s.raft.notify.map fun i => { s with raft := i }
  | .wakeRequests =>
      if s.phase = .selecting then
        s.requests.wake.map fun i => { s with requests := i, phase := .requestsWoken }
      else none
  | .wakeRaft =>
      if s.phase = .selecting then
        s.raft.wake.map fun i => { s with raft := i, phase := .raftWoken }
      else none
  | .timer => if s.phase = .selecting then some { s with phase := .ticking } else none
  | .drain =>
      match s.phase with
      | .requestsWoken => some { s with requests := s.requests.drain, phase := .takingRequests }
      | .raftWoken     => some { s with raft := s.raft.drain, phase := .takingMessages }
      | _              => none
  | .take =>
      match s.phase with
      | .takingRequests =>
          match s.requests.receive with
          | none          => some { s with phase := .ticking }
          | some (req, i) => { s with requests := i }.perform hash (.request req) .takingRequests
      | .takingMessages =>
          match s.raft.receive with
          | none              => some { s with phase := .ticking }
          | some (inbound, i) =>
              { s with raft := i }.perform hash (.step inbound.message) .takingMessages
      | _               => none
  | .move view =>
      if s.phase.elects = true ∨ view.state = s.engine.raft.state then
        s.perform hash (.move view) s.phase
      else none
  | .ready ready =>
      if s.phase = .ticking then
        s.perform hash (.store ready) (.applying ready.committedEntries)
      else none
  | .notReady => if s.phase = .ticking then some { s with phase := .observing } else none
  | .apply clock =>
      match s.phase with
      | .applying (entry :: rest) => s.perform hash (.apply clock entry) (.applying rest)
      | _                         => none
  | .advance advanced =>
      if s.phase = .applying [] then s.perform hash (.advance advanced) .observing else none
  | .observe => if s.phase = .observing then s.perform hash .observe .collecting else none
  | .collect due =>
      if s.phase = .collecting then
        if due then s.perform hash .collect .selecting else some { s with phase := .selecting }
      else none

/-- The runs of the loop over an engine. -/
def system (e : ShardEngine) : System ShardLoop LoopAction where
  init := start e
  step := step hash capacity

end

variable {hash : Bytes → UInt32} {capacity : Nat} {s t : ShardLoop} {a : LoopAction}

/-- What a call that returns leaves of the loop. -/
theorem perform_eq_some {c : EngineCall} {phase : LoopPhase}
    (h : s.perform hash c phase = some t) :
    ∃ e, s.engine.call hash c = .ok e ∧
      t = { s with toAnswering := s.toAnswering.note c e, phase := phase } := by
  obtain ⟨e, hcall, rfl⟩ := Option.map_eq_some_iff.mp h
  exact ⟨e, Outcome.toOption_eq_some.mp hcall, rfl⟩

/-- A call leaves the inlets alone. -/
theorem inlets_perform {c : EngineCall} {phase : LoopPhase}
    (h : s.perform hash c phase = some t) :
    t.requests = s.requests ∧ t.raft = s.raft ∧ t.phase = phase := by
  obtain ⟨e, -, rfl⟩ := perform_eq_some h
  exact ⟨rfl, rfl, rfl⟩

/-! ### Wake-ups -/

/-- **Nothing waits unseen**: an inlet is awake, unless the loop is about to empty it. -/
structure Attended (s : ShardLoop) : Prop where
  requests : s.phase.servesRequests = false → s.requests.Awake
  raft : s.phase.servesMessages = false → s.raft.Awake

/-- What leaves the inlets alone keeps them attended, unless the loop stops to serve one. -/
theorem Attended.same (h : s.Attended) (hrequests : t.requests = s.requests)
    (hraft : t.raft = s.raft)
    (hserves : s.phase.servesRequests = true → t.phase.servesRequests = true)
    (hserves' : s.phase.servesMessages = true → t.phase.servesMessages = true) : t.Attended where
  requests hphase := by
    rw [hrequests]
    refine h.requests (Bool.eq_false_iff.mpr fun hserved => ?_)
    rw [hserves hserved] at hphase
    cases hphase
  raft hphase := by
    rw [hraft]
    refine h.raft (Bool.eq_false_iff.mpr fun hserved => ?_)
    rw [hserves' hserved] at hphase
    cases hphase

/-- **One step** leaves nothing unseen. -/
theorem Attended.step (h : s.Attended) (hstep : s.step hash capacity a = some t) : t.Attended := by
  -- A call does not touch the inlets.
  have hcall : ∀ {c phase}, s.perform hash c phase = some t →
      s.phase.servesRequests = false → s.phase.servesMessages = false → t.Attended := by
    intro c phase hperform hno hno'
    obtain ⟨hrequests, hraft, -⟩ := inlets_perform hperform
    refine h.same hrequests hraft (fun hserved => ?_) (fun hserved => ?_)
    · rw [hno] at hserved
      cases hserved
    · rw [hno'] at hserved
      cases hserved
  cases a with
  | sendRequest req =>
      obtain ⟨i, hsend, rfl⟩ := Option.map_eq_some_iff.mp hstep
      exact ⟨fun _ => Inlet.awake_send hsend, h.raft⟩
  | notifyRequest =>
      obtain ⟨i, hnotify, rfl⟩ := Option.map_eq_some_iff.mp hstep
      exact ⟨fun _ => Inlet.awake_notify hnotify, h.raft⟩
  | sendMessage inbound =>
      obtain ⟨i, hsend, rfl⟩ := Option.map_eq_some_iff.mp hstep
      exact ⟨h.requests, fun _ => Inlet.awake_send hsend⟩
  | notifyMessage =>
      obtain ⟨i, hnotify, rfl⟩ := Option.map_eq_some_iff.mp hstep
      exact ⟨h.requests, fun _ => Inlet.awake_notify hnotify⟩
  | wakeRequests =>
      obtain ⟨hphase, hwake⟩ := Option.ite_none_right_eq_some.mp hstep
      obtain ⟨i, -, rfl⟩ := Option.map_eq_some_iff.mp hwake
      exact ⟨(fun hserved => by cases hserved), fun _ => h.raft (by rw [hphase]; rfl)⟩
  | wakeRaft =>
      obtain ⟨hphase, hwake⟩ := Option.ite_none_right_eq_some.mp hstep
      obtain ⟨i, -, rfl⟩ := Option.map_eq_some_iff.mp hwake
      exact ⟨fun _ => h.requests (by rw [hphase]; rfl), fun hserved => by cases hserved⟩
  | timer =>
      obtain ⟨hphase, hret⟩ := Option.ite_none_right_eq_some.mp hstep
      cases hret
      refine h.same rfl rfl ?_ ?_
      · rw [hphase]
        exact fun hserved => by cases hserved
      · rw [hphase]
        exact fun hserved => by cases hserved
  | drain =>
      simp only [ShardLoop.step] at hstep
      split at hstep
      · rename_i hphase
        cases hstep
        exact ⟨(fun hserved => by cases hserved), fun _ => h.raft (by rw [hphase]; rfl)⟩
      · rename_i hphase
        cases hstep
        exact ⟨fun _ => h.requests (by rw [hphase]; rfl), fun hserved => by cases hserved⟩
      · cases hstep
  | take =>
      simp only [ShardLoop.step] at hstep
      split at hstep
      · rename_i hphase
        split at hstep
        · -- The queue is empty, so nothing is left that could wait.
          rename_i hempty
          cases hstep
          exact ⟨fun _ => Inlet.awake_of_receive hempty, fun _ => h.raft (by rw [hphase]; rfl)⟩
        · obtain ⟨-, hraft, ht⟩ := inlets_perform hstep
          refine ⟨fun hserved => ?_, fun _ => ?_⟩
          · rw [ht] at hserved
            cases hserved
          · rw [hraft]
            exact h.raft (by rw [hphase]; rfl)
      · rename_i hphase
        split at hstep
        · rename_i hempty
          cases hstep
          exact ⟨fun _ => h.requests (by rw [hphase]; rfl), fun _ => Inlet.awake_of_receive hempty⟩
        · obtain ⟨hrequests, -, ht⟩ := inlets_perform hstep
          refine ⟨fun _ => ?_, fun hserved => ?_⟩
          · rw [hrequests]
            exact h.requests (by rw [hphase]; rfl)
          · rw [ht] at hserved
            cases hserved
      · cases hstep
  | move view =>
      obtain ⟨-, hperform⟩ := Option.ite_none_right_eq_some.mp hstep
      obtain ⟨hrequests, hraft, ht⟩ := inlets_perform hperform
      exact h.same hrequests hraft (fun hserved => by rw [ht]; exact hserved)
        fun hserved => by rw [ht]; exact hserved
  | ready ready =>
      obtain ⟨hphase, hperform⟩ := Option.ite_none_right_eq_some.mp hstep
      exact hcall hperform (by rw [hphase]; rfl) (by rw [hphase]; rfl)
  | notReady =>
      obtain ⟨hphase, hret⟩ := Option.ite_none_right_eq_some.mp hstep
      cases hret
      refine h.same rfl rfl ?_ ?_
      · rw [hphase]
        exact fun hserved => by cases hserved
      · rw [hphase]
        exact fun hserved => by cases hserved
  | apply clock =>
      simp only [ShardLoop.step] at hstep
      split at hstep
      · rename_i hphase
        exact hcall hstep (by rw [hphase]; rfl) (by rw [hphase]; rfl)
      · cases hstep
  | advance advanced =>
      obtain ⟨hphase, hperform⟩ := Option.ite_none_right_eq_some.mp hstep
      exact hcall hperform (by rw [hphase]; rfl) (by rw [hphase]; rfl)
  | observe =>
      obtain ⟨hphase, hperform⟩ := Option.ite_none_right_eq_some.mp hstep
      exact hcall hperform (by rw [hphase]; rfl) (by rw [hphase]; rfl)
  | collect due =>
      obtain ⟨hphase, hrun⟩ := Option.ite_none_right_eq_some.mp hstep
      split at hrun
      · exact hcall hrun (by rw [hphase]; rfl) (by rw [hphase]; rfl)
      · cases hrun
        refine h.same rfl rfl ?_ ?_
        · rw [hphase]
          exact fun hserved => by cases hserved
        · rw [hphase]
          exact fun hserved => by cases hserved

/-- Nothing waits unseen in any run. -/
theorem attended_of_reachable {e : ShardEngine}
    (h : (system hash capacity e).Reachable System.anyStep s) : s.Attended := by
  refine h.invariant ?_ fun s a t _ hattended _ hstep => hattended.step hstep
  exact ⟨fun _ => Inlet.awake_new, fun _ => Inlet.awake_new⟩

/-- **No wake-up is lost.** Whenever the loop is in its select and a request is queued,
the eventfd can be read or a producer has sent and not notified yet; and what can be
read lets the wait for requests end. -/
theorem requests_awake {e : ShardEngine}
    (h : (system hash capacity e).Reachable System.anyStep s) (hphase : s.phase = .selecting)
    (hqueue : s.requests.queue ≠ []) :
    (0 < s.requests.eventfd.counter ∨ 0 < s.requests.unnotified) ∧
      (0 < s.requests.eventfd.counter → (s.step hash capacity .wakeRequests).isSome = true) := by
  have hawake := (attended_of_reachable h).requests (by rw [hphase]; rfl)
  refine ⟨hawake hqueue, fun hpos => ?_⟩
  have hread := Eventfd.isSome_read.mpr hpos
  simp [ShardLoop.step, hphase, Inlet.wake, hread]

/-- A request is sent while the timer's iteration runs, and notified at its end. -/
def sentMeanwhile : List LoopAction :=
  [.timer, .sendRequest ⟨0, .getStatus, 7, 0, 0, []⟩, .notReady, .observe, .collect false,
    .notifyRequest]

/-- The request that was sent meanwhile wakes the loop. -/
theorem requests_awake_sentMeanwhile :
    ∃ s, (system (fun _ => 0) 8 (ShardEngine.freshEngine 0 ⟨1, 64, 4, [1]⟩ 0)).Reachable
        System.anyStep s ∧
      s.requests.queue ≠ [] ∧
      (0 < s.requests.eventfd.counter ∨ 0 < s.requests.unnotified) := by
  obtain ⟨s, hreach, hphase, hqueue⟩ := System.exists_reachable_of_execute
    (system (fun _ => 0) 8 (ShardEngine.freshEngine 0 ⟨1, 64, 4, [1]⟩ 0)) System.anyStep
    sentMeanwhile (fun s => s.phase = .selecting ∧ s.requests.queue ≠ []) (by decide +kernel)
  exact ⟨s, hreach, hqueue, (requests_awake hreach hphase hqueue).1⟩

/-! ### Step-downs -/

/-- **Only a leader has pending writes**, as far as the engine has observed; and it has
observed the node's role whenever the node is not at work. -/
structure Led (s : ShardLoop) : Prop where
  observed : s.phase.elects = false → s.engine.core.observedRole = s.engine.raft.state
  led : s.engine.core.observedRole ≠ .leader → s.engine.core.pendingWrites = ∅

/-- **A call** keeps this: a request that is handled while the node is not at work, a
change of role while it is, and any other. -/
theorem Led.perform (h : s.Led) {c : EngineCall} {phase : LoopPhase}
    (hperform : s.perform hash c phase = some t)
    (hrequest : ∀ req, c = .request req → s.phase.elects = false)
    (hmove : ∀ view, c = .move view → phase.elects = false →
      view.state = s.engine.raft.state)
    (hphase : phase.elects = false → c ≠ .observe → s.phase.elects = false) : t.Led := by
  obtain ⟨e, hcall, rfl⟩ := perform_eq_some hperform
  -- What the books say of the roles and the pending writes.
  have hkeeps : c ≠ .observe → e.core.observedRole = s.engine.core.observedRole →
      e.raft.state = s.engine.raft.state →
      (s.engine.core.observedRole ≠ .leader → e.core.pendingWrites = ∅) →
      ({ s with toAnswering := s.toAnswering.note c e, phase := phase } : ShardLoop).Led := by
    intro hc hobserved hrole hpending
    refine ⟨fun hsettled => ?_, fun hfollows => ?_⟩
    · show e.core.observedRole = e.raft.state
      rw [hobserved, hrole]
      exact h.observed (hphase hsettled hc)
    · have hfollows' : e.core.observedRole ≠ .leader := hfollows
      rw [hobserved] at hfollows'
      exact hpending hfollows'
  cases ShardEngine.settles_of_call hcall with
  | answered hnot hconn hbooks =>
      refine hkeeps (fun hc => by cases hc) (congrArg Books.observedRole hbooks)
        (congrArg Books.role hbooks) fun hfollows => ?_
      exact (congrArg Books.pending hbooks).trans (h.led hfollows)
  | admitted hadmits hbooks =>
      -- The node leads, and the engine has observed that.
      refine hkeeps (fun hc => by cases hc) (congrArg Books.observedRole hbooks)
        (congrArg Books.role hbooks) fun hfollows => ?_
      exact absurd ((h.observed (hrequest _ rfl)).trans hadmits.2.1) hfollows
  | completed hcommand hlookup hbooks =>
      refine hkeeps (fun hc => by cases hc) (congrArg Books.observedRole hbooks)
        (congrArg Books.role hbooks) fun hfollows => ?_
      rw [h.led hfollows] at hlookup
      cases hlookup
  | steppedDown hdown hbooks =>
      refine ⟨fun _ => ?_, fun _ => congrArg Books.pending hbooks⟩
      exact (congrArg Books.observedRole hbooks).trans (congrArg Books.role hbooks).symm
  | observed hup hbooks =>
      have hrole : e.raft.state = s.engine.raft.state := congrArg Books.role hbooks
      have hobserved : e.core.observedRole = s.engine.raft.state :=
        congrArg Books.observedRole hbooks
      refine ⟨fun _ => hobserved.trans hrole.symm, fun hfollows => ?_⟩
      -- The node does not lead, and had not been observed to lead before.
      have hfollows' : s.engine.raft.state ≠ .leader := fun hleads =>
        hfollows (hobserved.trans hleads)
      exact (congrArg Books.pending hbooks).trans
        (h.led fun hled => hup ⟨hled, hfollows'⟩)
  | @moved view _ hbooks =>
      have hpending : e.core.pendingWrites = s.engine.core.pendingWrites :=
        congrArg Books.pending hbooks
      have hobserved : e.core.observedRole = s.engine.core.observedRole :=
        congrArg Books.observedRole hbooks
      refine ⟨fun hsettled => ?_, fun hfollows => ?_⟩
      · have hsame := hmove view rfl hsettled
        show e.core.observedRole = e.raft.state
        rw [hobserved, h.observed (hphase hsettled fun hc => by cases hc), ← hsame]
        exact (congrArg Books.role hbooks).symm
      · have hfollows' : e.core.observedRole ≠ .leader := hfollows
        rw [hobserved] at hfollows'
        exact hpending.trans (h.led hfollows')
  | quiet hanswers hrequest hobserve hbooks =>
      refine hkeeps hobserve (congrArg Books.observedRole hbooks) (congrArg Books.role hbooks)
        fun hfollows => ?_
      exact (congrArg Books.pending hbooks).trans (h.led hfollows)

/-- A step that calls nothing keeps the engine, and goes to a phase in which the node is
at work or has not been. -/
theorem Led.same (h : s.Led) (hengine : t.engine = s.engine)
    (hphase : t.phase.elects = false → s.phase.elects = false) : t.Led where
  observed hsettled := by
    rw [hengine]
    exact h.observed (hphase hsettled)
  led hfollows := by
    rw [hengine] at hfollows ⊢
    exact h.led hfollows

/-- A call of a step, with when it is made: requests are handled and roles kept while the
raft node is not at work. -/
structure Calls (hash : Bytes → UInt32) (s t : ShardLoop) (c : EngineCall) (phase : LoopPhase) :
    Prop where
  performs : ∃ u : ShardLoop, u.toAnswering = s.toAnswering ∧ u.phase = s.phase ∧
    u.perform hash c phase = some t
  request : ∀ req, c = .request req → s.phase.elects = false
  move : ∀ view, c = .move view → phase.elects = false → view.state = s.engine.raft.state
  settled : phase.elects = false → c ≠ .observe → s.phase.elects = false

/-- **A step calls the engine, or leaves it alone.** -/
theorem calls_of_step (hstep : s.step hash capacity a = some t) :
    (t.toAnswering = s.toAnswering ∧ (t.phase.elects = false → s.phase.elects = false)) ∨
      ∃ c phase, s.Calls hash t c phase := by
  -- A call from a phase in which the node is at work, into another such phase.
  have hworks : ∀ {c phase}, s.perform hash c phase = some t → (∀ req, c ≠ .request req) →
      (∀ view, c ≠ .move view) → (phase.elects = false → c = .observe) →
        ∃ c phase, s.Calls hash t c phase := by
    intro c phase hperform hrequest hmove hphase
    exact ⟨c, phase, ⟨s, rfl, rfl, hperform⟩, fun req hc => absurd hc (hrequest req),
      fun view hc => absurd hc (hmove view), fun hsettled hc => absurd (hphase hsettled) hc⟩
  cases a with
  | sendRequest req =>
      obtain ⟨i, -, rfl⟩ := Option.map_eq_some_iff.mp hstep
      exact Or.inl ⟨rfl, fun hsettled => hsettled⟩
  | notifyRequest =>
      obtain ⟨i, -, rfl⟩ := Option.map_eq_some_iff.mp hstep
      exact Or.inl ⟨rfl, fun hsettled => hsettled⟩
  | sendMessage inbound =>
      obtain ⟨i, -, rfl⟩ := Option.map_eq_some_iff.mp hstep
      exact Or.inl ⟨rfl, fun hsettled => hsettled⟩
  | notifyMessage =>
      obtain ⟨i, -, rfl⟩ := Option.map_eq_some_iff.mp hstep
      exact Or.inl ⟨rfl, fun hsettled => hsettled⟩
  | wakeRequests =>
      obtain ⟨hphase, hwake⟩ := Option.ite_none_right_eq_some.mp hstep
      obtain ⟨i, -, rfl⟩ := Option.map_eq_some_iff.mp hwake
      exact Or.inl ⟨rfl, fun _ => by rw [hphase]; rfl⟩
  | wakeRaft =>
      obtain ⟨hphase, hwake⟩ := Option.ite_none_right_eq_some.mp hstep
      obtain ⟨i, -, rfl⟩ := Option.map_eq_some_iff.mp hwake
      exact Or.inl ⟨rfl, fun _ => by rw [hphase]; rfl⟩
  | timer =>
      obtain ⟨hphase, hret⟩ := Option.ite_none_right_eq_some.mp hstep
      cases hret
      exact Or.inl ⟨rfl, fun _ => by rw [hphase]; rfl⟩
  | drain =>
      simp only [ShardLoop.step] at hstep
      split at hstep
      · rename_i hphase
        cases hstep
        exact Or.inl ⟨rfl, fun _ => by rw [hphase]; rfl⟩
      · rename_i hphase
        cases hstep
        exact Or.inl ⟨rfl, fun _ => by rw [hphase]; rfl⟩
      · cases hstep
  | take =>
      simp only [ShardLoop.step] at hstep
      split at hstep
      · rename_i hphase
        have hsettled : s.phase.elects = false := by
          rw [hphase]
          rfl
        split at hstep
        · cases hstep
          exact Or.inl ⟨rfl, fun _ => hsettled⟩
        · rename_i req i _
          exact Or.inr ⟨.request req, _, ⟨{ s with requests := i }, rfl, rfl, hstep⟩,
            fun _ _ => hsettled, (fun view hc => by cases hc), fun _ _ => hsettled⟩
      · rename_i hphase
        split at hstep
        · cases hstep
          exact Or.inl ⟨rfl, fun hsettled => by cases hsettled⟩
        · rename_i inbound i _
          exact Or.inr ⟨.step inbound.message, _, ⟨{ s with raft := i }, rfl, rfl, hstep⟩,
            (fun req hc => by cases hc), (fun view hc => by cases hc),
            fun hsettled _ => by cases hsettled⟩
      · cases hstep
  | move view =>
      obtain ⟨hrole, hperform⟩ := Option.ite_none_right_eq_some.mp hstep
      refine Or.inr ⟨_, _, ⟨s, rfl, rfl, hperform⟩, (fun req hc => by cases hc), ?_,
        fun hsettled _ => hsettled⟩
      intro view' hc hsettled
      cases hc
      rcases hrole with hworking | hsame
      · rw [hworking] at hsettled
        cases hsettled
      · exact hsame
  | ready ready =>
      obtain ⟨-, hperform⟩ := Option.ite_none_right_eq_some.mp hstep
      exact Or.inr (hworks hperform (fun req hc => by cases hc) (fun view hc => by cases hc)
        fun hsettled => by cases hsettled)
  | notReady =>
      obtain ⟨-, hret⟩ := Option.ite_none_right_eq_some.mp hstep
      cases hret
      exact Or.inl ⟨rfl, fun hsettled => by cases hsettled⟩
  | apply clock =>
      simp only [ShardLoop.step] at hstep
      split at hstep
      · exact Or.inr (hworks hstep (fun req hc => by cases hc) (fun view hc => by cases hc)
          fun hsettled => by cases hsettled)
      · cases hstep
  | advance advanced =>
      obtain ⟨-, hperform⟩ := Option.ite_none_right_eq_some.mp hstep
      exact Or.inr (hworks hperform (fun req hc => by cases hc) (fun view hc => by cases hc)
        fun hsettled => by cases hsettled)
  | observe =>
      obtain ⟨-, hperform⟩ := Option.ite_none_right_eq_some.mp hstep
      exact Or.inr (hworks hperform (fun req hc => by cases hc) (fun view hc => by cases hc)
        fun _ => rfl)
  | collect due =>
      obtain ⟨hphase, hrun⟩ := Option.ite_none_right_eq_some.mp hstep
      have hsettled : s.phase.elects = false := by
        rw [hphase]
        rfl
      split at hrun
      · exact Or.inr ⟨_, _, ⟨s, rfl, rfl, hrun⟩, (fun req hc => by cases hc),
          (fun view hc => by cases hc), fun _ _ => hsettled⟩
      · cases hrun
        exact Or.inl ⟨rfl, fun _ => hsettled⟩

/-- **One step** keeps the pending writes with a leader, and the record right. -/
theorem Led.step (h : s.Led) (haccounts : s.Accounts)
    (hstep : s.step hash capacity a = some t) : t.Led ∧ t.Accounts := by
  rcases calls_of_step hstep with ⟨hsame, hphase⟩ | ⟨c, phase, hcalls⟩
  · refine ⟨h.same (congrArg Answering.engine hsame) hphase, ?_⟩
    rw [hsame]
    exact haccounts
  · obtain ⟨u, hsame, hphase, hperform⟩ := hcalls.performs
    have hengine : u.engine = s.engine := congrArg Answering.engine hsame
    have hled : u.Led := h.same hengine fun hsettled => by rwa [hphase] at hsettled
    constructor
    · refine hled.perform hperform (fun req hc => ?_) (fun view hc hsettled => ?_)
        (fun hsettled hc => ?_)
      · rw [hphase]
        exact hcalls.request req hc
      · rw [hengine]
        exact hcalls.move view hc hsettled
      · rw [hphase]
        exact hcalls.settled hsettled hc
    · obtain ⟨e, hcall, rfl⟩ := perform_eq_some hperform
      have hu : u.Accounts := by
        rw [hsame]
        exact haccounts
      exact hu.note (ShardEngine.settles_of_call hcall)

/-- Every run of an opened engine keeps both. -/
theorem led_of_reachable {e : ShardEngine} {shardId : Nat} {config : ServerConfig}
    {file : Option PersistentState} {dir : Wal.ShardDir} {createdTsNs : Nat}
    (hopen : ShardEngine.openEngine hash shardId config file dir createdTsNs = .ok e)
    (h : (system hash capacity e).Reachable System.anyStep s) : s.Led ∧ s.Accounts := by
  refine h.invariant (I := fun s => s.Led ∧ s.Accounts) ?_
    fun s a t _ hboth _ hstep => hboth.1.step hboth.2 hstep
  obtain ⟨recovered, w, dir', index, streams, -, -, rfl⟩ := ShardEngine.openEngine_eq_ok hopen
  exact ⟨⟨fun _ => rfl, fun _ => rfl⟩, Answering.accounts_opened rfl rfl⟩

/-- **A step-down leaves no orphan.** In every run, whenever an iteration has ended: a node
that does not lead has no pending writes; and each write that was ever pending is either
pending on a leader and unanswered, or it is not pending and exactly one response was
sent for it, by an apply or by a step-down. Request ids are not given twice, and the
record has all responses. -/
theorem stepDown_leaves_none {e : ShardEngine} {shardId : Nat} {config : ServerConfig}
    {file : Option PersistentState} {dir : Wal.ShardDir} {createdTsNs : Nat}
    (hopen : ShardEngine.openEngine hash shardId config file dir createdTsNs = .ok e)
    (h : (system hash capacity e).Reachable System.anyStep s) (hphase : s.phase = .selecting) :
    (s.engine.raft.state ≠ .leader → s.engine.core.pendingWrites = ∅) ∧
    (∀ w ∈ s.entered,
      (s.engine.core.pendingWrites.lookup w.1 = some w.2 ∧ s.engine.raft.state = .leader ∧
        s.answersTo w.1 = []) ∨
      (s.engine.core.pendingWrites.lookup w.1 = none ∧
        ∃ r, s.answersTo w.1 = [r] ∧ w.2.AnsweredBy r)) ∧
    s.entered.NodupKeys ∧ s.answered.map Prod.snd = s.engine.responses := by
  obtain ⟨hled, haccounts⟩ := led_of_reachable hopen h
  have hrole : s.engine.raft.state ≠ .leader → s.engine.core.pendingWrites = ∅ := by
    intro hfollows
    rw [← hled.observed (by rw [hphase]; rfl)] at hfollows
    exact hled.led hfollows
  refine ⟨hrole, fun w hw => ?_, haccounts.distinct, haccounts.sent⟩
  rcases haccounts.accounted w hw with ⟨hpending, hnone⟩ | hanswered
  · refine Or.inl ⟨hpending, ?_, hnone⟩
    by_contra hfollows
    rw [hrole hfollows] at hpending
    cases hpending
  · exact Or.inr hanswered

/-- A node becomes leader, takes a write, and loses the leadership. -/
def leadershipLost : List LoopAction :=
  [.timer, .move ⟨.leader, 1, 1, 0, true⟩, .notReady, .observe, .collect false,
    .sendRequest ⟨0, .write, 7, 1, 0, [42]⟩, .notifyRequest, .wakeRequests, .drain, .take, .take,
    .move ⟨.follower, 2, 1, 0, true⟩, .notReady, .observe, .collect false]

/-- The write is not pending any more, and its client has been told. -/
theorem stepDown_leadershipLost :
    ∃ s, (system (fun _ => 0) 8 (ShardEngine.freshEngine 0 ⟨1, 64, 4, [1]⟩ 0)).Reachable
        System.anyStep s ∧
      s.entered.keys = [1] ∧ s.engine.core.pendingWrites = ∅ := by
  obtain ⟨s, hreach, hphase, hkeys, hrole⟩ := System.exists_reachable_of_execute
    (system (fun _ => 0) 8 (ShardEngine.freshEngine 0 ⟨1, 64, 4, [1]⟩ 0)) System.anyStep
    leadershipLost
    (fun s => s.phase = .selecting ∧ s.entered.keys = [1] ∧ s.engine.raft.state ≠ .leader)
    (by decide +kernel)
  exact ⟨s, hreach, hkeys,
    (stepDown_leaves_none (ShardEngine.openEngine_fresh _ 0 ⟨1, 64, 4, [1]⟩ 0) hreach hphase).1
      hrole⟩

end ShardLoop

end WalServer.Shard
