import WalServer.Lib.Turns
import WalServer.Net.Peer
import Mathlib.Data.List.Forall2
import Mathlib.Data.List.Infix

/-!
# `WalServer.Net.PeerLink`: the messages from one node to another

`run_peer_sender` of `net/peer.rs` takes what has been queued for a peer in batches,
writes each as frames on its connection, and opens another one when a write has failed.
The peer has an inbound task for every connection it has accepted (`Net.Peer.Inbound`),
and all of them put messages into the same channels.

`PeerLink` is the sender between two of its awaits, the bytes that are on their way on each
connection, and the tasks. A connection delivers a first part of what is written on it, in
pieces of any size. `others`, `queued`, `log` and `unwritten` are records that no step reads:
what the connections of other nodes have put into the channels, what was put into the queue,
the batches with the connection each was written on, and what a failed write left. In every
run what was queued is accounted for, what a connection has brought, has on the way, or was
to carry are the frames of the batches written on it, and a channel got what the tasks and
others have put into it (`PeerLink.kept_of_reachable`).
-/

set_option autoImplicit false

namespace WalServer.Net.Peer

open WalServer.Lib

/-- A message from a shard's raft state machine to that of its group on another node. -/
structure RaftOutbound (μ : Type) where
  groupId : Nat
  targetId : Nat
  message : μ
deriving DecidableEq, Repr

/-- What a frame carries of the message. -/
def RaftOutbound.framed {μ : Type} (outbound : RaftOutbound μ) : Nat × μ :=
  (outbound.groupId, outbound.message)

/-- The message at the other end. -/
def RaftOutbound.inbound {μ : Type} (outbound : RaftOutbound μ) : RaftInbound μ :=
  ⟨outbound.groupId, outbound.message⟩

/-- How many messages are written at once. -/
def batchSize : Nat := 128

/-- How many messages the queue of a peer holds. -/
def queueCapacity : Nat := 4096

/-- Where `run_peer_sender` is. -/
inductive SenderTask (μ : Type) where
  /-- Before the first message of a batch. -/
  | waiting
  /-- With a batch, in a connect. -/
  | connecting (batch : List (RaftOutbound μ))
  /-- In `write_all` on a connection, with the bytes that are still to be written. -/
  | writing (conn : Nat) (rest : Bytes)
deriving DecidableEq, Repr

/-- The task of an inbound connection without the channels, which it shares. -/
structure Receiver (μ ε : Type) where
  task : InboundTask μ ε
  parseBuf : Bytes
  received : Bytes
  consumed : List (Nat × μ)
  mine : Nat → List (RaftInbound μ)

/-- The sender, its connections, and the inbound tasks at their other ends. -/
structure PeerLink (μ ε : Type) where
  rx : List (RaftOutbound μ)
  task : SenderTask μ
  stream : Option Nat
  opened : Nat
  wire : Nat → Bytes
  receivers : Nat → Receiver μ ε
  channels : Nat → List (RaftInbound μ)
  taken : Nat → List (RaftInbound μ)
  others : Nat → List (RaftInbound μ)
  queued : List (RaftOutbound μ)
  log : List (Option Nat × List (RaftOutbound μ))
  unwritten : Nat → Bytes

variable {μ ε : Type} (pb : Protobuf μ ε)

namespace PeerLink

/-- An inbound task beside the channels. -/
def inbound (s : PeerLink μ ε) (k : Nat) : Inbound μ ε where
  task := (s.receivers k).task
  parseBuf := (s.receivers k).parseBuf
  channels := s.channels
  taken := s.taken
  received := (s.receivers k).received
  consumed := (s.receivers k).consumed
  mine := (s.receivers k).mine
  others := s.others

/-- A step of an inbound task, which may have changed the channels. -/
def setInbound (s : PeerLink μ ε) (k : Nat) (t : Inbound μ ε) : PeerLink μ ε :=
  { s with
    receivers := Function.update s.receivers k ⟨t.task, t.parseBuf, t.received, t.consumed, t.mine⟩
    channels := t.channels
    taken := t.taken
    others := t.others }

/-- What happens on the way. -/
inductive Action (μ : Type) where
  /-- A message is put into the queue. -/
  | queue (outbound : RaftOutbound μ)
  /-- The sender takes a batch. -/
  | collect
  /-- A connect ends. -/
  | connect (ok : Bool)
  /-- Some bytes go out. -/
  | write (n : Nat)
  /-- `write_all` returns. -/
  | written (ok : Bool)
  /-- A read of an inbound task ends, with some of the bytes that have arrived or without. -/
  | read (k : Nat) (n : Option Nat)
  /-- Anything else that happens to an inbound task or to the channels. -/
  | inbound (k : Nat) (a : Inbound.Action μ)
deriving DecidableEq, Repr

/-- Encodes a batch and starts to write it. A batch that cannot be encoded is given up. -/
def startWrite (s : PeerLink μ ε) (conn : Nat) (batch : List (RaftOutbound μ)) : PeerLink μ ε :=
  match encodeBatch pb (batch.map RaftOutbound.framed) with
  | .error _   => { s with
      task := .waiting
      stream := some conn
      log := s.log ++ [(none, batch)] }
  | .ok frames =>
      if frames = [] then { s with
        task := .waiting
        stream := some conn
        log := s.log ++ [(none, batch)] }
      else { s with
        task := .writing conn frames
        stream := none
        log := s.log ++ [(some conn, batch)] }

/-- What an action does, where it can happen. -/
def step (groups : Groups) (s : PeerLink μ ε) : Action μ → Option (PeerLink μ ε)
  | .queue outbound =>
      if s.rx.length < queueCapacity then some { s with
        rx := s.rx ++ [outbound]
        queued := s.queued ++ [outbound] }
      else none
  | .collect =>
      match s.task with
      | .waiting =>
          if s.rx = [] then none
          else
            let batch := s.rx.take batchSize
            let s := { s with rx := s.rx.drop batchSize, task := .connecting batch }
            match s.stream with
            | none      => some s
            | some conn => some (s.startWrite pb conn batch)
      | _        => none
  | .connect ok =>
      match s.task with
      | .connecting batch =>
          if ok then some ({ s with opened := s.opened + 1 }.startWrite pb s.opened batch)
          else some { s with task := .waiting, log := s.log ++ [(none, batch)] }
      | _                 => none
  | .write n =>
      match s.task with
      | .writing conn rest =>
          if 0 < n ∧ n ≤ rest.length then some { s with
            task := .writing conn (rest.drop n)
            wire := Function.update s.wire conn (s.wire conn ++ rest.take n) }
          else none
      | _                  => none
  | .written ok =>
      match s.task with
      | .writing conn rest =>
          if ok then
            if rest = [] then some { s with task := .waiting, stream := some conn } else none
          -- The connection is dropped, and the next batch opens another one.
          else some { s with
            task := .waiting
            unwritten := Function.update s.unwritten conn rest }
      | _                  => none
  | .read k n =>
      match n with
      | none   => (Inbound.step pb groups (s.inbound k) (.read none)).map (s.setInbound k)
      | some n =>
          if 0 < n ∧ n ≤ 4096 ∧ n ≤ (s.wire k).length then
            (Inbound.step pb groups (s.inbound k) (.read (some ((s.wire k).take n)))).map fun t =>
              { s.setInbound k t with
                wire := Function.update s.wire k ((s.wire k).drop n) }
          else none
  | .inbound k a =>
      match a with
      | .read _ => none
      | a       => (Inbound.step pb groups (s.inbound k) a).map (s.setInbound k)

/-- The runs of the link, from a sender without connection. -/
def system (groups : Groups) : System (PeerLink μ ε) (Action μ) where
  init := {
    rx := []
    task := .waiting
    stream := none
    opened := 0
    wire := fun _ => []
    receivers := fun _ => ⟨.reading, [], [], [], fun _ => []⟩
    channels := fun _ => []
    taken := fun _ => []
    others := fun _ => []
    queued := []
    log := []
    unwritten := fun _ => [] }
  step := step pb groups

/-- The batches that were written, in whole or in part, with their connections. -/
def sent (s : PeerLink μ ε) : List (Nat × List (RaftOutbound μ)) :=
  s.log.filterMap fun p => p.1.map fun k => (k, p.2)

/-- The batch that a connect is for. -/
def inHand (s : PeerLink μ ε) : List (RaftOutbound μ) :=
  match s.task with
  | .connecting batch => batch
  | _                 => []

/-- What was to be written on a connection and has not gone out. -/
def pending (s : PeerLink μ ε) (k : Nat) : Bytes :=
  match s.task with
  | .writing conn rest => if conn = k then rest else s.unwritten k
  | _                  => s.unwritten k

/-- Who has put what into a channel: the task of a connection, or the other nodes'. -/
def puts (s : PeerLink μ ε) (group : Nat) : Option Nat → List (RaftInbound μ)
  | none   => s.others group
  | some k => (s.receivers k).mine group

/-- The connection that the sender has. -/
def current (s : PeerLink μ ε) : Option Nat :=
  match s.task with
  | .writing conn _ => some conn
  | _               => s.stream

end PeerLink

/-! ### Tasks that share their channels -/

section

variable {pb} {groups : Groups} {s t : Inbound μ ε}

/-- The account of a task stays right when others use the channels. -/
theorem Inbound.Accounted.shared (h : s.Accounted pb groups)
    (channels taken others : Nat → List (RaftInbound μ)) :
    Inbound.Accounted pb groups { s with channels := channels, taken := taken, others := others }
    where
  parsed := h.parsed
  reading := h.reading
  sending := h.sending
  refused := h.refused
  mine := h.mine

/-- Only a read brings bytes. -/
theorem Inbound.received_of_step {a : Inbound.Action μ} (h : Inbound.step pb groups s a = some t) :
    t.received = s.received ++ match a with
      | .read (some bytes) => bytes
      | _                  => [] := by
  cases a with
  | read bytes =>
      simp only [Inbound.step] at h
      split at h
      · cases bytes with
        | none =>
            cases h
            exact (List.append_nil _).symm
        | some bytes =>
            cases h
            rfl
      · cases h
  | parse =>
      rw [List.append_nil]
      simp only [Inbound.step] at h
      split at h
      · split at h
        · cases h
          rfl
        · cases h
          rfl
        · split at h
          · cases h
            rfl
          · split at h <;> cases h <;> rfl
      · cases h
  | trySend connected =>
      rw [List.append_nil]
      simp only [Inbound.step] at h
      split at h
      · split at h
        · split at h <;> cases h <;> rfl
        · cases h
          rfl
      · cases h
  | take g =>
      rw [List.append_nil]
      simp only [Inbound.step] at h
      split at h
      · cases h
      · cases h
        rfl
  | put g inbound =>
      rw [List.append_nil]
      obtain ⟨-, hput⟩ := Option.ite_none_right_eq_some.mp h
      cases hput
      rfl

end

namespace PeerLink

/-! ### What every run keeps -/

variable {pb} {groups : Groups} {s t : PeerLink μ ε}

/-- A task after a step of one: its own state, and the channels that all share. -/
theorem inbound_setInbound (s : PeerLink μ ε) (k j : Nat) (t : Inbound μ ε) :
    (s.setInbound k t).inbound j =
      if j = k then t
      else { s.inbound j with channels := t.channels, taken := t.taken, others := t.others } := by
  unfold inbound setInbound
  by_cases h : j = k
  · subst h
    rw [if_pos rfl]
    simp only [Function.update_self]
  · rw [if_neg h]
    simp only [Function.update_of_ne h]

theorem filterMap_log_concat (log : List (Option Nat × List (RaftOutbound μ))) (k : Option Nat)
    (batch : List (RaftOutbound μ)) :
    (log ++ [(k, batch)]).filterMap (fun p => p.1.map fun k => (k, p.2)) =
      log.filterMap (fun p => p.1.map fun k => (k, p.2)) ++ (k.map fun k => (k, batch)).toList := by
  rw [List.filterMap_append]
  cases k <;> rfl

/-- The batches of a connection with what they are encoded to. -/
def Encoded (pb : Protobuf μ ε) (batch : List (RaftOutbound μ)) (bytes : Bytes) : Prop :=
  encodeBatch pb (batch.map RaftOutbound.framed) = .ok bytes

/-- **Nothing is lost unrecorded.** What was queued was written, given up, or is still with the
sender; connections are used one after the other; what a connection has brought, has on the
way, or was to carry are the frames of its batches; and a channel got what was put into it. -/
structure Kept (pb : Protobuf μ ε) (groups : Groups) (s : PeerLink μ ε) : Prop where
  queued : s.queued = s.log.flatMap Prod.snd ++ s.inHand ++ s.rx
  sorted : s.sent.Pairwise fun a b => a.1 ≤ b.1
  below : ∀ p ∈ s.sent, p.1 < s.opened
  dropped : ∀ conn rest, s.task = .writing conn rest → s.stream = none
  current : ∀ k, s.current = some k →
    k < s.opened ∧ s.unwritten k = [] ∧ ∀ p ∈ s.sent, p.1 ≤ k
  bytes : ∀ k, ∃ frames, List.Forall₂ (Encoded pb) (labelled s.sent k) frames ∧
    (s.receivers k).received ++ s.wire k ++ s.pending k = frames.flatten
  accounted : ∀ k, (s.inbound k).Accounted pb groups
  placed : ∀ group, Interleaves (s.puts group) (s.taken group ++ s.channels group)

/-- Only a write has bytes that are still to go out on its connection. -/
theorem pending_of_not_writing (h : ∀ conn rest, s.task ≠ .writing conn rest) :
    s.pending = s.unwritten := by
  funext k
  unfold pending
  split
  · rename_i conn rest htask
    exact (h conn rest htask).elim
  · rfl

/-- A batch that is given up is not among the written ones. -/
theorem sent_givenUp (s : PeerLink μ ε) (task : SenderTask μ) (stream : Option Nat)
    (batch : List (RaftOutbound μ)) :
    PeerLink.sent { s with
      task := task
      stream := stream
      log := s.log ++ [(none, batch)] } = s.sent := by
  unfold sent
  rw [filterMap_log_concat, Option.map_none, Option.toList_none, List.append_nil]

/-- A batch is taken, and is in hand before anything is done with it. -/
theorem Kept.take (h : Kept pb groups s) (htask : s.task = .waiting) :
    Kept pb groups { s with
      rx := s.rx.drop batchSize
      task := .connecting (s.rx.take batchSize) } := by
  have hpending := pending_of_not_writing (s := s) fun conn rest hw => by rw [htask] at hw; cases hw
  refine ⟨?_, h.sorted, h.below, (fun _ _ hw => by cases hw), ?_, ?_, h.accounted, h.placed⟩
  · show s.queued = s.log.flatMap Prod.snd ++ s.rx.take batchSize ++ s.rx.drop batchSize
    rw [h.queued, inHand, htask, List.append_nil, List.append_assoc, List.take_append_drop]
  · intro k hk
    refine h.current k ?_
    rw [PeerLink.current, htask]
    exact hk
  · intro k
    obtain ⟨frames, hframes, hbytes⟩ := h.bytes k
    rw [hpending] at hbytes
    exact ⟨frames, hframes, hbytes⟩

/-- A batch in hand is given up. The sender has a connection on which it can go on, or none. -/
theorem Kept.giveUp (h : Kept pb groups s) {batch : List (RaftOutbound μ)}
    (htask : s.task = .connecting batch) (stream : Option Nat)
    (hstream : ∀ k, stream = some k →
      k < s.opened ∧ s.unwritten k = [] ∧ ∀ p ∈ s.sent, p.1 ≤ k) :
    Kept pb groups { s with
      task := .waiting
      stream := stream
      log := s.log ++ [(none, batch)] } := by
  have hpending := pending_of_not_writing (s := s) fun conn rest hw => by rw [htask] at hw; cases hw
  have hsent := sent_givenUp s .waiting stream batch
  refine ⟨?_, by rw [hsent]; exact h.sorted, by rw [hsent]; exact h.below,
    (fun _ _ hw => by cases hw), ?_, ?_, h.accounted, h.placed⟩
  · show s.queued = (s.log ++ [(none, batch)]).flatMap Prod.snd ++ [] ++ s.rx
    rw [List.flatMap_append, List.flatMap_singleton, List.append_nil, h.queued, inHand, htask]
  · rw [hsent]
    exact hstream
  · intro k
    obtain ⟨frames, hframes, hbytes⟩ := h.bytes k
    rw [hpending] at hbytes
    exact ⟨frames, by rw [hsent]; exact hframes, hbytes⟩

/-- A batch in hand is encoded, and given up or written on the connection. -/
theorem Kept.startWrite (h : Kept pb groups s) {batch : List (RaftOutbound μ)}
    (htask : s.task = .connecting batch) {conn : Nat} (hopened : conn < s.opened)
    (hclean : s.unwritten conn = []) (hlast : ∀ p ∈ s.sent, p.1 ≤ conn) :
    Kept pb groups (s.startWrite pb conn batch) := by
  have hqueued : s.queued = (s.log.flatMap Prod.snd ++ batch) ++ [] ++ s.rx := by
    rw [List.append_nil, h.queued, inHand, htask]
  have hpending := pending_of_not_writing (s := s) fun conn rest hw => by rw [htask] at hw; cases hw
  have hgivenUp := h.giveUp htask (some conn) fun k hk => by
    cases hk
    exact ⟨hopened, hclean, hlast⟩
  unfold PeerLink.startWrite
  split
  · exact hgivenUp
  · rename_i frames hencode
    split
    · exact hgivenUp
    · -- The frames follow those of the batches before on the connection.
      have hsent : PeerLink.sent { s with
          task := .writing conn frames
          stream := none
          log := s.log ++ [(some conn, batch)] } = s.sent ++ [(conn, batch)] := by
        unfold sent
        rw [filterMap_log_concat]
        rfl
      refine ⟨?_, ?_, ?_, fun _ _ _ => rfl, ?_, ?_, h.accounted, h.placed⟩
      · rw [List.flatMap_append, List.flatMap_singleton]
        exact hqueued
      · rw [hsent, List.pairwise_append]
        refine ⟨h.sorted, List.pairwise_singleton _ _, fun p hp q hq => ?_⟩
        rw [List.mem_singleton.mp hq]
        exact hlast p hp
      · rw [hsent]
        intro p hp
        rcases List.mem_append.mp hp with hp | hp
        · exact h.below p hp
        · rw [List.mem_singleton.mp hp]
          exact hopened
      · intro k hk
        cases hk
        rw [hsent]
        refine ⟨hopened, hclean, fun p hp => ?_⟩
        rcases List.mem_append.mp hp with hp | hp
        · exact hlast p hp
        · rw [List.mem_singleton.mp hp]
      · intro k
        obtain ⟨before, hbefore, hbytes⟩ := h.bytes k
        rw [hpending] at hbytes
        rw [hsent, labelled_concat]
        show ∃ bytes : List Bytes, _ ∧ (s.receivers k).received ++ s.wire k ++
          (if conn = k then frames else s.unwritten k) = bytes.flatten
        by_cases hk : conn = k
        · subst hk
          rw [if_pos rfl, if_pos rfl]
          refine ⟨before ++ [frames], List.rel_append hbefore (.cons hencode .nil), ?_⟩
          rw [hclean, List.append_nil] at hbytes
          rw [List.flatten_concat, hbytes]
        · rw [if_neg hk, if_neg hk, List.append_nil]
          exact ⟨before, hbefore, hbytes⟩

/-- An inbound task takes a step. What it has received and what is still on its way make up
what they did. -/
theorem Kept.setInbound (h : Kept pb groups s) {k : Nat} {a : Inbound.Action μ} {u : Inbound μ ε}
    (hstep : Inbound.step pb groups (s.inbound k) a = some u) {wire : Bytes}
    (hwire : u.received ++ wire = (s.receivers k).received ++ s.wire k) :
    Kept pb groups { s.setInbound k u with wire := Function.update s.wire k wire } where
  queued := h.queued
  sorted := h.sorted
  below := h.below
  dropped := h.dropped
  current := h.current
  bytes j := by
    obtain ⟨frames, hframes, hbytes⟩ := h.bytes j
    refine ⟨frames, hframes, ?_⟩
    rw [← hbytes]
    show (Function.update s.receivers k _ j).received ++ Function.update s.wire k wire j ++
      s.pending j = _
    by_cases hj : j = k
    · subst hj
      rw [Function.update_self, Function.update_self, hwire]
    · rw [Function.update_of_ne hj, Function.update_of_ne hj]
  accounted j := by
    show ((s.setInbound k u).inbound j).Accounted pb groups
    rw [inbound_setInbound]
    split
    · exact (h.accounted k).step hstep
    · exact (h.accounted j).shared _ _ _
  placed group := by
    have hputs : ∀ who, PeerLink.puts { s.setInbound k u with
        wire := Function.update s.wire k wire } group who =
          if who = none then u.others group
          else if who = some k then u.mine group else s.puts group who := by
      intro who
      cases who with
      | none => rfl
      | some j =>
          rw [if_neg (by simp)]
          show (Function.update s.receivers k _ j).mine group = _
          by_cases hj : j = k
          · subst hj
            rw [Function.update_self, if_pos rfl]
          · rw [Function.update_of_ne hj, if_neg (by simpa using hj)]
            rfl
    obtain ⟨items, hchannel, ⟨hmine, hothers⟩ | ⟨hmine, hothers⟩⟩ :=
      Inbound.placed_of_step hstep group
    · -- The task has put them there.
      show Interleaves _ (u.taken group ++ u.channels group)
      rw [hchannel]
      refine (h.placed group).append (j := some k) ?_ fun who hwho => ?_
      · rw [hputs, if_neg (by simp), if_pos rfl]
        exact hmine
      · rw [hputs, if_neg hwho]
        split
        · rename_i hnone
          rw [hnone]
          exact hothers
        · rfl
    · show Interleaves _ (u.taken group ++ u.channels group)
      rw [hchannel]
      refine (h.placed group).append (j := none) ?_ fun who hwho => ?_
      · rw [hputs, if_pos rfl]
        exact hothers
      · rw [hputs, if_neg hwho]
        split
        · rename_i hk
          rw [hk]
          exact hmine
        · rfl

/-- A connect succeeds. Nothing was ever written on the new connection. -/
theorem Kept.connect (h : Kept pb groups s) {batch : List (RaftOutbound μ)}
    (htask : s.task = .connecting batch) :
    Kept pb groups ({ s with opened := s.opened + 1 }.startWrite pb s.opened batch) := by
  have hpending := pending_of_not_writing (s := s) fun conn rest hw => by rw [htask] at hw; cases hw
  have hnone : labelled s.sent s.opened = [] := labelled_eq_nil fun p hp => (h.below p hp).ne
  have hclean : s.unwritten s.opened = [] := by
    obtain ⟨frames, hframes, hbytes⟩ := h.bytes s.opened
    rw [hnone] at hframes
    cases hframes
    rw [hpending] at hbytes
    exact (List.append_eq_nil_iff.mp hbytes).2
  have hopened : Kept pb groups { s with opened := s.opened + 1 } := by
    refine ⟨h.queued, h.sorted, fun p hp => Nat.lt_succ_of_lt (h.below p hp), h.dropped, ?_,
      h.bytes, h.accounted, h.placed⟩
    intro k hk
    obtain ⟨hlt, hrest⟩ := h.current k hk
    exact ⟨Nat.lt_succ_of_lt hlt, hrest⟩
  exact hopened.startWrite htask (Nat.lt_succ_self _) hclean fun p hp =>
    Nat.le_of_lt (h.below p hp)

section

variable {conn : Nat} {rest : Bytes}

/-- What a connection that is written on has still to carry. -/
theorem pending_of_writing (htask : s.task = .writing conn rest) (k : Nat) :
    s.pending k = if conn = k then rest else s.unwritten k := by
  rw [pending, htask]

/-- Nothing is in hand while a batch is written. -/
theorem Kept.queued_of_writing (h : Kept pb groups s) (htask : s.task = .writing conn rest) :
    s.queued = s.log.flatMap Prod.snd ++ [] ++ s.rx := by
  have hqueued := h.queued
  rwa [inHand, htask] at hqueued

/-- Some bytes go out. -/
theorem Kept.write (h : Kept pb groups s) (htask : s.task = .writing conn rest) (n : Nat) :
    Kept pb groups { s with
      task := .writing conn (rest.drop n)
      wire := Function.update s.wire conn (s.wire conn ++ rest.take n) } := by
  refine ⟨h.queued_of_writing htask, h.sorted, h.below, fun _ _ _ => h.dropped conn rest htask, ?_,
    ?_, h.accounted, h.placed⟩
  · intro k hk
    refine h.current k ?_
    rw [PeerLink.current, htask]
    exact hk
  · intro k
    obtain ⟨frames, hframes, hbytes⟩ := h.bytes k
    refine ⟨frames, hframes, ?_⟩
    rw [← hbytes, pending_of_writing htask]
    show _ ++ Function.update s.wire conn _ k ++ (if conn = k then rest.drop n else _) = _
    by_cases hk : conn = k
    · -- The bytes only move from what is left to write to what is on its way.
      subst hk
      rw [Function.update_self, if_pos rfl]
      simp only [if_true, List.append_assoc, List.take_append_drop]
    · rw [Function.update_of_ne (Ne.symm hk), if_neg hk]
      simp only [if_neg hk]

/-- All bytes are out, and the connection is kept. -/
theorem Kept.finish (h : Kept pb groups s) (htask : s.task = .writing conn []) :
    Kept pb groups { s with
      task := .waiting
      stream := some conn } := by
  obtain ⟨hopened, hclean, hlast⟩ := h.current conn (by rw [PeerLink.current, htask])
  refine ⟨h.queued_of_writing htask, h.sorted, h.below, (fun _ _ hw => by cases hw), ?_, ?_,
    h.accounted, h.placed⟩
  · intro k hk
    cases hk
    exact ⟨hopened, hclean, hlast⟩
  · intro k
    obtain ⟨frames, hframes, hbytes⟩ := h.bytes k
    refine ⟨frames, hframes, ?_⟩
    rw [← hbytes, pending_of_writing htask]
    show _ ++ s.unwritten k = _
    by_cases hk : conn = k
    · subst hk
      simp only [if_true, hclean]
    · simp only [if_neg hk]

/-- The write fails. What is left of the batch never goes out. -/
theorem Kept.fail (h : Kept pb groups s) (htask : s.task = .writing conn rest) :
    Kept pb groups { s with
      task := .waiting
      unwritten := Function.update s.unwritten conn rest } := by
  refine ⟨h.queued_of_writing htask, h.sorted, h.below, (fun _ _ hw => by cases hw), ?_, ?_,
    h.accounted, h.placed⟩
  · -- The connection was taken from the sender for the write, so it has none now.
    intro k hk
    have hnone : s.stream = some k := hk
    rw [h.dropped conn rest htask] at hnone
    cases hnone
  · intro k
    obtain ⟨frames, hframes, hbytes⟩ := h.bytes k
    refine ⟨frames, hframes, ?_⟩
    rw [← hbytes, pending_of_writing htask]
    show _ ++ Function.update s.unwritten conn rest k = _
    by_cases hk : conn = k
    · subst hk
      simp only [if_true, Function.update_self]
    · rw [Function.update_of_ne (Ne.symm hk)]
      simp only [if_neg hk]

end

/-- **Every step keeps it.** -/
theorem Kept.step (h : Kept pb groups s) {a : Action μ} (hs : s.step pb groups a = some t) :
    Kept pb groups t := by
  cases a with
  | queue outbound =>
      obtain ⟨-, hput⟩ := Option.ite_none_right_eq_some.mp hs
      cases hput
      refine ⟨?_, h.sorted, h.below, h.dropped, h.current, h.bytes, h.accounted, h.placed⟩
      show s.queued ++ [outbound] = s.log.flatMap Prod.snd ++ s.inHand ++ (s.rx ++ [outbound])
      rw [h.queued, List.append_assoc]
  | collect =>
      simp only [PeerLink.step] at hs
      split at hs
      · rename_i htask
        split at hs
        · cases hs
        · have htaken := h.take htask
          split at hs
          · cases hs
            exact htaken
          · -- The connection of the batch before is used again.
            rename_i conn hstream
            cases hs
            obtain ⟨hopened, hclean, hlast⟩ := htaken.current conn hstream
            exact htaken.startWrite rfl hopened hclean hlast
      · cases hs
  | connect ok =>
      simp only [PeerLink.step] at hs
      split at hs
      · rename_i batch htask
        split at hs
        · cases hs
          exact h.connect htask
        · cases hs
          refine h.giveUp htask s.stream fun k hk => h.current k ?_
          rw [PeerLink.current, htask]
          exact hk
      · cases hs
  | write n =>
      simp only [PeerLink.step] at hs
      split at hs
      · rename_i conn rest htask
        obtain ⟨-, hwrite⟩ := Option.ite_none_right_eq_some.mp hs
        cases hwrite
        exact h.write htask n
      · cases hs
  | written ok =>
      simp only [PeerLink.step] at hs
      split at hs
      · rename_i conn rest htask
        split at hs
        · obtain ⟨hnone, hwritten⟩ := Option.ite_none_right_eq_some.mp hs
          cases hwritten
          exact h.finish (hnone ▸ htask)
        · cases hs
          exact h.fail htask
      · cases hs
  | read k n =>
      simp only [PeerLink.step] at hs
      cases n with
      | none =>
          obtain ⟨u, hu, rfl⟩ := Option.map_eq_some_iff.mp hs
          have hreceived := Inbound.received_of_step hu
          rw [List.append_nil] at hreceived
          have hkept := h.setInbound hu (congrArg (· ++ s.wire k) hreceived)
          rwa [Function.update_eq_self] at hkept
      | some n =>
          obtain ⟨-, hread⟩ := Option.ite_none_right_eq_some.mp hs
          obtain ⟨u, hu, rfl⟩ := Option.map_eq_some_iff.mp hread
          refine h.setInbound hu ?_
          rw [Inbound.received_of_step hu, List.append_assoc, List.take_append_drop]
          rfl
  | inbound k a =>
      have hother : ∀ u, Inbound.step pb groups (s.inbound k) a = some u →
          (∀ bytes, a ≠ .read bytes) → Kept pb groups (s.setInbound k u) := by
        intro u hu ha
        have hreceived : u.received = (s.inbound k).received := by
          rw [Inbound.received_of_step hu]
          cases a with
          | read bytes => exact (ha bytes rfl).elim
          | _ => exact List.append_nil _
        have hkept := h.setInbound hu (congrArg (· ++ s.wire k) hreceived)
        rwa [Function.update_eq_self] at hkept
      cases a with
      | read bytes => cases hs
      | parse =>
          obtain ⟨u, hu, rfl⟩ := Option.map_eq_some_iff.mp hs
          exact hother u hu fun _ => by simp
      | trySend connected =>
          obtain ⟨u, hu, rfl⟩ := Option.map_eq_some_iff.mp hs
          exact hother u hu fun _ => by simp
      | take group =>
          obtain ⟨u, hu, rfl⟩ := Option.map_eq_some_iff.mp hs
          exact hother u hu fun _ => by simp
      | put group inbound =>
          obtain ⟨u, hu, rfl⟩ := Option.map_eq_some_iff.mp hs
          exact hother u hu fun _ => by simp

/-- It holds in every run. -/
theorem kept_of_reachable (h : (system pb groups).Reachable System.anyStep s) :
    Kept pb groups s := by
  refine h.invariant ?_ fun s a t _ hkept _ hs => hkept.step hs
  refine ⟨rfl, List.Pairwise.nil, (fun _ hp => by cases hp), (fun _ _ hw => by cases hw),
    (fun _ hk => by cases hk), fun k => ⟨[], .nil, rfl⟩, fun k => ?_,
    fun group => ⟨[], rfl, fun who => by cases who <;> rfl⟩⟩
  exact Inbound.accounted_of_reachable (System.Reachable.init (S := Inbound.system pb groups))

/-- Only `queue` adds to what was queued. -/
theorem queued_of_step {a : Action μ} (h : s.step pb groups a = some t)
    (ha : ∀ outbound, a ≠ .queue outbound) : t.queued = s.queued := by
  have hstart : ∀ (l : PeerLink μ ε) conn batch,
      (l.startWrite pb conn batch).queued = l.queued := by
    intro l conn batch
    unfold PeerLink.startWrite
    split
    · rfl
    · split <;> rfl
  cases a with
  | queue outbound => exact (ha outbound rfl).elim
  | collect =>
      simp only [PeerLink.step] at h
      split at h
      · split at h
        · cases h
        · split at h
          · cases h
            rfl
          · cases h
            exact hstart _ _ _
      · cases h
  | connect ok =>
      simp only [PeerLink.step] at h
      split at h
      · split at h
        · cases h
          exact hstart _ _ _
        · cases h
          rfl
      · cases h
  | write n =>
      simp only [PeerLink.step] at h
      split at h
      · obtain ⟨-, hwrite⟩ := Option.ite_none_right_eq_some.mp h
        cases hwrite
        rfl
      · cases h
  | written ok =>
      simp only [PeerLink.step] at h
      split at h
      · split at h
        · obtain ⟨-, hwritten⟩ := Option.ite_none_right_eq_some.mp h
          cases hwritten
          rfl
        · cases h
          rfl
      · cases h
  | read k n =>
      simp only [PeerLink.step] at h
      cases n with
      | none =>
          obtain ⟨u, -, rfl⟩ := Option.map_eq_some_iff.mp h
          rfl
      | some n =>
          obtain ⟨-, hread⟩ := Option.ite_none_right_eq_some.mp h
          obtain ⟨u, -, rfl⟩ := Option.map_eq_some_iff.mp hread
          rfl
  | inbound k a =>
      cases a with
      | read bytes => cases h
      | parse | trySend connected | take group | put group inbound =>
          obtain ⟨u, -, rfl⟩ := Option.map_eq_some_iff.mp h
          rfl

/-- A message that is put into the queue. -/
theorem queued_of_queue {outbound : RaftOutbound μ}
    (h : s.step pb groups (.queue outbound) = some t) : t.queued = s.queued ++ [outbound] := by
  obtain ⟨-, hput⟩ := Option.ite_none_right_eq_some.mp h
  cases hput
  rfl

end PeerLink

end WalServer.Net.Peer
