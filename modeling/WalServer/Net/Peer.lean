import WalServer.Lib.BigEndian
import WalServer.Lib.Framing
import WalServer.Lib.Transition
import WalServer.Lib.Turns
import Mathlib.Logic.Function.Basic

/-!
# `WalServer.Net.Peer`: raft messages between nodes

`net/peer.rs` and the frames of `channel/mod.rs`: a sender writes the frames of a
batch one after the other, and the task of an inbound connection takes them apart and
puts each message into the channel of its group. Messages are written and parsed by
the protobuf library, a parameter here (`Protobuf`).

`Inbound` is the task, between two of its awaits, beside the channels. Shards take
from these and other connections put into them meanwhile. `received`, `consumed`, `mine`
and `others` are records that no step reads: what the connection has brought, the frames
that have left the buffer, and what this task and others have put into each channel. In
every run over the frames of a sender, `demultiplexed_of_reachable` says what is where.
-/

set_option autoImplicit false

namespace WalServer.Net.Peer

open WalServer.Lib

/-- The protobuf library, on messages of a type. -/
structure Protobuf (μ ε : Type) where
  writeToBytes : μ → Except ε Bytes
  parseFromBytes : Bytes → Except ε μ

/-- A message that is written, in less than `2 ^ 32` bytes, and parsed back. -/
def Protobuf.RoundTrips {μ ε : Type} (pb : Protobuf μ ε) (message : μ) : Prop :=
  ∃ body, pb.writeToBytes message = .ok body ∧ body.length < 2 ^ 32 ∧
    pb.parseFromBytes body = .ok message

/-- A message to a shard's raft state machine. -/
structure RaftInbound (μ : Type) where
  groupId : Nat
  message : μ
deriving DecidableEq, Repr

variable {μ ε : Type} (pb : Protobuf μ ε)

/-! ### Frames -/

/-- The frame of a message: group, length of the body, body. -/
def encodeRaftMessage (groupId : Nat) (message : μ) : Except ε Bytes :=
  match pb.writeToBytes message with
  | .error e => .error e
  | .ok body => .ok (List.flatten [toBeBytes 2 groupId, toBeBytes 4 body.length, body])

/-- Reads a frame from the front of a buffer, with the number of bytes it takes. -/
def tryDecodeRaftMessage (buf : Bytes) : Except ε (Option (Nat × μ × Nat)) :=
  if buf.length < 6 then .ok none
  else
    let len := fromBeBytes (slice buf 2 6)
    if buf.length < 6 + len then .ok none
    else
      match pb.parseFromBytes (slice buf 6 (6 + len)) with
      | .error e => .error e
      | .ok msg  => .ok (some (fromBeBytes (slice buf 0 2), msg, 6 + len))

/-- What the sender writes for a batch. A message that cannot be encoded gives the
batch up. -/
def encodeBatch : List (Nat × μ) → Except ε Bytes
  | []                       => .ok []
  | (groupId, message) :: ps =>
      match encodeRaftMessage pb groupId message with
      | .error e  => .error e
      | .ok frame =>
          match encodeBatch ps with
          | .error e   => .error e
          | .ok frames => .ok (frame ++ frames)

variable {pb}

/-- What was decoded stays decoded when more follows. -/
theorem tryDecodeRaftMessage_append {buf : Bytes} (more : Bytes)
    (h : tryDecodeRaftMessage pb buf ≠ .ok none) :
    tryDecodeRaftMessage pb (buf ++ more) = tryDecodeRaftMessage pb buf := by
  by_cases hshort : buf.length < 6
  · exact absurd (by unfold tryDecodeRaftMessage; rw [if_pos hshort]) h
  · have hlong : ¬ (buf ++ more).length < 6 := by
      rw [List.length_append]
      omega
    have hgroup : slice (buf ++ more) 0 2 = slice buf 0 2 := slice_append_left (by omega)
    have hlen : slice (buf ++ more) 2 6 = slice buf 2 6 := slice_append_left (by omega)
    unfold tryDecodeRaftMessage at h ⊢
    simp only [if_neg hshort, if_neg hlong, hgroup, hlen] at h ⊢
    -- The body was there, so it still is.
    by_cases hroom : buf.length < 6 + fromBeBytes (slice buf 2 6)
    · rw [if_pos hroom] at h
      exact absurd rfl h
    · have hroom' : ¬ (buf ++ more).length < 6 + fromBeBytes (slice buf 2 6) := by
        rw [List.length_append]
        omega
      rw [if_neg hroom, if_neg hroom', slice_append_left (Nat.le_of_not_lt hroom)]

/-- A frame takes its header at least, and no more than there is. -/
theorem length_of_tryDecodeRaftMessage {buf : Bytes} {groupId n : Nat} {message : μ}
    (h : tryDecodeRaftMessage pb buf = .ok (some (groupId, message, n))) :
    6 ≤ n ∧ n ≤ buf.length := by
  unfold tryDecodeRaftMessage at h
  simp only at h
  split at h
  · cases h
  split at h
  · cases h
  split at h
  · cases h
  · cases h
    exact ⟨Nat.le_add_right _ _, by omega⟩

variable (pb) in
/-- What `try_decode_raft_message` says of a buffer. -/
def decodedMessage (buf : Bytes) : Decoded (Nat × μ) ε :=
  match tryDecodeRaftMessage pb buf with
  | .ok (some (groupId, message, consumed)) => .frame (groupId, message) consumed
  | .ok none                                => .more
  | .error e                                => .bad e

theorem decodedMessage_frame {buf : Bytes} {groupId n : Nat} {message : μ} :
    decodedMessage pb buf = .frame (groupId, message) n ↔
      tryDecodeRaftMessage pb buf = .ok (some (groupId, message, n)) := by
  unfold decodedMessage
  split <;> simp_all [and_assoc]

theorem decodedMessage_more {buf : Bytes} :
    decodedMessage pb buf = .more ↔ tryDecodeRaftMessage pb buf = .ok none := by
  unfold decodedMessage
  split <;> simp_all

theorem decodedMessage_bad {buf : Bytes} {e : ε} :
    decodedMessage pb buf = .bad e ↔ tryDecodeRaftMessage pb buf = .error e := by
  unfold decodedMessage
  split <;> simp_all

variable (pb) in
/-- Messages as the frames of a stream. -/
def raftFraming : Framing UInt8 (Nat × μ) ε where
  decode := decodedMessage pb
  decode_nil := rfl
  takes h := by
    obtain ⟨hlow, hhigh⟩ := length_of_tryDecodeRaftMessage (decodedMessage_frame.mp h)
    exact ⟨by omega, hhigh⟩
  frame_append more h := by
    have hdecode := decodedMessage_frame.mp h
    rw [decodedMessage_frame, tryDecodeRaftMessage_append more (by rw [hdecode]; simp), hdecode]
  bad_append more h := by
    have hdecode := decodedMessage_bad.mp h
    rw [decodedMessage_bad, tryDecodeRaftMessage_append more (by rw [hdecode]; simp), hdecode]

/-- **A frame is read back**, whatever follows it. -/
theorem decode_encodeRaftMessage {groupId : Nat} {message : μ} {frame : Bytes}
    (hgroup : groupId < 2 ^ 16) (hmessage : pb.RoundTrips message)
    (h : encodeRaftMessage pb groupId message = .ok frame) (rest : Bytes) :
    (raftFraming pb).decode (frame ++ rest) = .frame (groupId, message) frame.length := by
  obtain ⟨body, hwrite, hsize, hparse⟩ := hmessage
  unfold encodeRaftMessage at h
  rw [hwrite] at h
  cases h
  have hlength : (List.flatten [toBeBytes 2 groupId, toBeBytes 4 body.length, body]).length =
      6 + body.length := by
    simp
    omega
  have hwindow : ∀ i j, j ≤ 6 + body.length →
      slice (List.flatten [toBeBytes 2 groupId, toBeBytes 4 body.length, body] ++ rest) i j =
        slice (List.flatten [toBeBytes 2 groupId, toBeBytes 4 body.length, body]) i j :=
    fun i j hj => slice_append_left (by omega)
  have hid : slice (List.flatten [toBeBytes 2 groupId, toBeBytes 4 body.length, body]) 0 2 =
      toBeBytes 2 groupId := slice_flatten [] _ _ (by simp) (by simp)
  have hlen : slice (List.flatten [toBeBytes 2 groupId, toBeBytes 4 body.length, body]) 2 6 =
      toBeBytes 4 body.length := slice_flatten [toBeBytes 2 groupId] _ _ (by simp) (by simp)
  have hbody : slice (List.flatten [toBeBytes 2 groupId, toBeBytes 4 body.length, body]) 6
      (6 + body.length) = body :=
    slice_flatten [toBeBytes 2 groupId, toBeBytes 4 body.length] _ _ (by simp) rfl
  refine decodedMessage_frame.mpr ?_
  unfold tryDecodeRaftMessage
  simp only [hwindow 0 2 (by omega), hwindow 2 6 (by omega), hid, hlen,
    fromBeBytes_toBeBytes_of_lt (show body.length < 256 ^ 4 from hsize),
    fromBeBytes_toBeBytes_of_lt (show groupId < 256 ^ 2 from hgroup),
    hwindow 6 (6 + body.length) (Nat.le_refl _), hbody, hparse, List.length_append, hlength]
  rw [if_neg (by omega), if_neg (by omega)]

/-- **A batch is taken apart** into its messages. -/
theorem parseAll_encodeBatch {batch : List (Nat × μ)} {frames : Bytes}
    (hbatch : ∀ p ∈ batch, p.1 < 2 ^ 16 ∧ pb.RoundTrips p.2)
    (h : encodeBatch pb batch = .ok frames) (rest : Bytes) :
    (raftFraming pb).parseAll (frames ++ rest) = ((raftFraming pb).parseAll rest).after batch := by
  induction batch generalizing frames with
  | nil =>
      cases h
      rfl
  | cons p batch ih =>
      obtain ⟨hgroup, hmessage⟩ := hbatch p List.mem_cons_self
      rw [encodeBatch] at h
      split at h
      · cases h
      · rename_i frame hframe
        split at h
        · cases h
        · rename_i frames' hframes
          cases h
          have hdecode := decode_encodeRaftMessage hgroup hmessage hframe (frames' ++ rest)
          rw [List.append_assoc, Framing.parseAll_frame hdecode, List.drop_left,
            ih (fun q hq => hbatch q (List.mem_cons_of_mem p hq)) hframes, Framing.after_after]
          rfl

/-- What a sender writes, batch after batch, is taken apart into all its messages. -/
theorem parseAll_batches {batches : List (List (Nat × μ))} {frames : List Bytes}
    (hbatches : ∀ batch ∈ batches, ∀ p ∈ batch, p.1 < 2 ^ 16 ∧ pb.RoundTrips p.2)
    (h : List.Forall₂ (fun batch bytes => encodeBatch pb batch = .ok bytes) batches frames) :
    (raftFraming pb).parseAll frames.flatten = ⟨batches.flatten, .ok []⟩ := by
  induction h with
  | nil => exact Framing.parseAll_nil
  | @cons batch bytes batches frames hbatch _ ih =>
      rw [List.flatten_cons, parseAll_encodeBatch (hbatches batch List.mem_cons_self) hbatch,
        ih fun b hb => hbatches b (List.mem_cons_of_mem batch hb), List.flatten_cons]
      simp [Parsed.after]

/-! ### An inbound connection -/

/-- The channels and eventfds that the task was given, by group, and how much a
channel holds. -/
structure Groups where
  raftTxs : List Nat
  raftEventfds : List Nat
  capacity : Nat
deriving DecidableEq, Repr

/-- A group that messages are forwarded to. -/
def Groups.Known (groups : Groups) (groupId : Nat) : Prop :=
  groupId ∈ groups.raftTxs ∧ groupId ∈ groups.raftEventfds

instance (groups : Groups) (groupId : Nat) : Decidable (groups.Known groupId) := by
  unfold Groups.Known
  infer_instance

/-- Where the task of an inbound connection is. -/
inductive InboundTask (μ ε : Type) where
  /-- In a read. -/
  | reading
  /-- At the top of the inner loop. -/
  | parsing
  /-- In the loop that offers a message to its channel, with the length of its frame. -/
  | sending (inbound : RaftInbound μ) (consumed : Nat)
  /-- It has returned, because of a frame or for another reason. -/
  | ended (error : Option ε)
deriving DecidableEq, Repr

/-- The task of an inbound connection, the channels with what shards have taken out of
them, and the records. -/
structure Inbound (μ ε : Type) where
  task : InboundTask μ ε
  parseBuf : Bytes
  channels : Nat → List (RaftInbound μ)
  taken : Nat → List (RaftInbound μ)
  received : Bytes
  consumed : List (Nat × μ)
  mine : Nat → List (RaftInbound μ)
  others : Nat → List (RaftInbound μ)

namespace Inbound

/-- What happens to an inbound connection and around it. -/
inductive Action (μ : Type) where
  /-- The read ends, with bytes or without. -/
  | read (bytes : Option Bytes)
  /-- The inner loop looks for a frame. -/
  | parse
  /-- The message is offered to its channel, which may have been closed. -/
  | trySend (connected : Bool)
  /-- A shard takes its next message. -/
  | take (groupId : Nat)
  /-- Another connection puts a message into a channel. -/
  | put (groupId : Nat) (inbound : RaftInbound μ)
deriving DecidableEq, Repr

/-- A frame leaves the buffer. -/
def drain (s : Inbound μ ε) (groupId : Nat) (message : μ) (consumed : Nat) : Inbound μ ε :=
  { s with
    task := .parsing
    parseBuf := s.parseBuf.drop consumed
    consumed := s.consumed ++ [(groupId, message)] }

/-- A message goes into a channel. -/
def enqueue (s : Inbound μ ε) (groupId : Nat) (inbound : RaftInbound μ) : Inbound μ ε :=
  { s with
    channels := Function.update s.channels groupId (s.channels groupId ++ [inbound]) }

variable (pb) in
/-- What an action does, where it can happen. -/
def step (groups : Groups) (s : Inbound μ ε) : Action μ → Option (Inbound μ ε)
  | .read bytes =>
      match s.task with
      | .reading =>
          match bytes with
          | none       => some { s with task := .ended none }
          | some bytes => some { s with
              task := .parsing
              parseBuf := s.parseBuf ++ bytes
              received := s.received ++ bytes }
      | _        => none
  | .parse =>
      match s.task with
      | .parsing =>
          match tryDecodeRaftMessage pb s.parseBuf with
          | .error e                                => some { s with task := .ended (some e) }
          | .ok none                                => some { s with task := .reading }
          | .ok (some (groupId, message, consumed)) =>
              if groupId ∉ groups.raftTxs then some (s.drain groupId message consumed)
              else if groupId ∉ groups.raftEventfds then some (s.drain groupId message consumed)
              else some { s with task := .sending ⟨groupId, message⟩ consumed }
      | _        => none
  | .trySend connected =>
      match s.task with
      | .sending inbound consumed =>
          if connected then
            if (s.channels inbound.groupId).length < groups.capacity then
              some { (s.enqueue inbound.groupId inbound).drain inbound.groupId inbound.message
                  consumed with
                mine := Function.update s.mine inbound.groupId
                  (s.mine inbound.groupId ++ [inbound]) }
            -- The channel is full: the task keeps the message and tries again.
            else some s
          else some { s with task := .ended none }
      | _                         => none
  | .take groupId =>
      match s.channels groupId with
      | []           => none
      | first :: rest => some { s with
          channels := Function.update s.channels groupId rest
          taken := Function.update s.taken groupId (s.taken groupId ++ [first]) }
  | .put groupId inbound =>
      if (s.channels groupId).length < groups.capacity then
        some { s.enqueue groupId inbound with
          others := Function.update s.others groupId (s.others groupId ++ [inbound]) }
      else none

variable (pb) in
/-- The runs of an inbound connection. -/
def system (groups : Groups) : System (Inbound μ ε) (Action μ) where
  init := ⟨.reading, [], fun _ => [], fun _ => [], [], [], fun _ => [], fun _ => []⟩
  step := step pb groups

/-- What the frames in a list hold for a group. -/
def forGroup (frames : List (Nat × μ)) (groupId : Nat) : List (RaftInbound μ) :=
  (frames.filter fun p => p.1 = groupId).map fun p => ⟨p.1, p.2⟩

/-- One more frame is for its own group. -/
theorem forGroup_concat (frames : List (Nat × μ)) (groupId group : Nat) (message : μ) :
    forGroup (frames ++ [(groupId, message)]) group =
      forGroup frames group ++ if groupId = group then [⟨groupId, message⟩] else [] := by
  unfold forGroup
  rw [List.filter_append, List.map_append]
  by_cases h : groupId = group <;> simp [h]

/-- **What was received is accounted for**: the frames that were consumed and those in
the buffer. Each message of a known group among the former was put into its group's
channel. -/
structure Accounted (pb : Protobuf μ ε) (groups : Groups) (s : Inbound μ ε) : Prop where
  parsed : (raftFraming pb).parseAll s.received =
    ((raftFraming pb).parseAll s.parseBuf).after s.consumed
  reading : s.task = .reading → tryDecodeRaftMessage pb s.parseBuf = .ok none
  sending : ∀ inbound n, s.task = .sending inbound n → groups.Known inbound.groupId ∧
    tryDecodeRaftMessage pb s.parseBuf = .ok (some (inbound.groupId, inbound.message, n))
  refused : ∀ e, s.task = .ended (some e) → tryDecodeRaftMessage pb s.parseBuf = .error e
  mine : ∀ group, s.mine group = if groups.Known group then forGroup s.consumed group else []

variable {groups : Groups} {s t : Inbound μ ε}

/-- The buffer's first frame and those behind it. -/
theorem parseAll_drop {buf : Bytes} {groupId n : Nat} {message : μ}
    (h : tryDecodeRaftMessage pb buf = .ok (some (groupId, message, n))) :
    (raftFraming pb).parseAll buf =
      ((raftFraming pb).parseAll (buf.drop n)).after [(groupId, message)] :=
  Framing.parseAll_frame (decodedMessage_frame.mpr h)

/-- **A frame is consumed**: dropped if its group is unknown, or put into its channel. -/
theorem Accounted.drain (h : s.Accounted pb groups) {groupId n : Nat} {message : μ}
    (hdecode : tryDecodeRaftMessage pb s.parseBuf = .ok (some (groupId, message, n)))
    (hmine : ∀ group, t.mine group = if groups.Known group then
      s.mine group ++ (if groupId = group then [⟨groupId, message⟩] else []) else [])
    (hreceived : t.received = s.received) (hbuf : t.parseBuf = s.parseBuf.drop n)
    (hconsumed : t.consumed = s.consumed ++ [(groupId, message)]) (htask : t.task = .parsing) :
    t.Accounted pb groups where
  parsed := by
    rw [hreceived, hbuf, hconsumed, h.parsed, parseAll_drop hdecode, Framing.after_after]
  reading hreading := by
    rw [htask] at hreading
    cases hreading
  sending inbound n hsending := by
    rw [htask] at hsending
    cases hsending
  refused e hended := by
    rw [htask] at hended
    cases hended
  mine group := by
    rw [hmine, hconsumed, forGroup_concat, h.mine]
    split <;> rfl

/-- **One step** keeps the account. -/
theorem Accounted.step (h : s.Accounted pb groups) {a : Action μ}
    (hstep : Inbound.step pb groups s a = some t) : t.Accounted pb groups := by
  cases a with
  | read bytes =>
      simp only [Inbound.step] at hstep
      split at hstep
      · rename_i htask
        cases bytes with
        | none =>
            cases hstep
            exact ⟨h.parsed, (fun hr => by cases hr), (fun _ _ hs => by cases hs),
              (fun _ he => by cases he), h.mine⟩
        | some bytes =>
            cases hstep
            refine ⟨?_, (fun hr => by cases hr), (fun _ _ hs => by cases hs),
              (fun _ he => by cases he), h.mine⟩
            show (raftFraming pb).parseAll (s.received ++ bytes) =
              ((raftFraming pb).parseAll (s.parseBuf ++ bytes)).after s.consumed
            rw [Framing.parseAll_append, h.parsed, Framing.feed_after, ← Framing.parseAll_append]
      · cases hstep
  | parse =>
      simp only [Inbound.step] at hstep
      split at hstep
      · split at hstep
        · rename_i e hdecode
          cases hstep
          exact ⟨h.parsed, (fun hr => by cases hr), (fun _ _ hs => by cases hs),
            (fun e' he => by cases he; exact hdecode), h.mine⟩
        · rename_i hdecode
          cases hstep
          exact ⟨h.parsed, fun _ => hdecode, (fun _ _ hs => by cases hs),
            (fun _ he => by cases he), h.mine⟩
        · rename_i groupId message consumed hdecode
          -- A frame of an unknown group adds to no channel.
          have hunknown : ¬ groups.Known groupId →
              (s.drain groupId message consumed).Accounted pb groups := by
            intro hnot
            refine h.drain hdecode (fun group => ?_) rfl rfl rfl rfl
            show s.mine group = _
            rw [h.mine]
            by_cases hgroup : groupId = group
            · rw [← hgroup, if_neg hnot, if_neg hnot]
            · rw [if_neg hgroup, List.append_nil]
              split <;> rfl
          split at hstep
          · rename_i htx
            cases hstep
            exact hunknown fun hknown => htx hknown.1
          · split at hstep
            · rename_i hfd
              cases hstep
              exact hunknown fun hknown => hfd hknown.2
            · rename_i htx hfd
              cases hstep
              refine ⟨h.parsed, (fun hr => by cases hr), (fun inbound n hs => ?_),
                (fun _ he => by cases he), h.mine⟩
              cases hs
              exact ⟨⟨not_not.mp htx, not_not.mp hfd⟩, hdecode⟩
      · cases hstep
  | trySend connected =>
      simp only [Inbound.step] at hstep
      split at hstep
      · rename_i inbound consumed htask
        obtain ⟨hknown, hdecode⟩ := h.sending inbound consumed htask
        split at hstep
        · split at hstep
          · cases hstep
            refine h.drain hdecode (fun group => ?_) rfl rfl rfl rfl
            show Function.update s.mine inbound.groupId _ group = _
            by_cases hgroup : group = inbound.groupId
            · subst hgroup
              rw [Function.update_self, if_pos hknown, if_pos rfl]
            · rw [Function.update_of_ne hgroup, if_neg (Ne.symm hgroup), List.append_nil, h.mine]
              split <;> rfl
          · cases hstep
            exact h
        · cases hstep
          exact ⟨h.parsed, (fun hr => by cases hr), (fun _ _ hs => by cases hs),
            (fun _ he => by cases he), h.mine⟩
      · cases hstep
  | take groupId =>
      simp only [Inbound.step] at hstep
      split at hstep
      · cases hstep
      · rename_i first rest hchannel
        cases hstep
        exact ⟨h.parsed, h.reading, h.sending, h.refused, h.mine⟩
  | put groupId inbound =>
      obtain ⟨-, hput⟩ := Option.ite_none_right_eq_some.mp hstep
      cases hput
      exact ⟨h.parsed, h.reading, h.sending, h.refused, h.mine⟩

/-- The account holds in every run. -/
theorem accounted_of_reachable (h : (system pb groups).Reachable System.anyStep s) :
    s.Accounted pb groups := by
  refine h.invariant ?_ fun s a t _ haccounted _ hstep => haccounted.step hstep
  exact ⟨by simp [system], fun _ => rfl, (fun _ _ hs => by cases hs), (fun _ he => by cases he),
    fun group => by simp [system, forGroup]⟩

/-- One more message in one of many lists. -/
theorem update_concat (lists : Nat → List (RaftInbound μ)) (g : Nat) (inbound : RaftInbound μ)
    (group : Nat) : Function.update lists g (lists g ++ [inbound]) group =
      lists group ++ if group = g then [inbound] else [] := by
  by_cases h : group = g
  · subst h
    rw [Function.update_self, if_pos rfl]
  · rw [Function.update_of_ne h, if_neg h, List.append_nil]

/-- **What a step adds to a channel**: a message that the task has put there, or one that
somebody else has, or nothing. -/
theorem placed_of_step {a : Action μ} (h : Inbound.step pb groups s a = some t) (group : Nat) :
    ∃ items, t.taken group ++ t.channels group = s.taken group ++ s.channels group ++ items ∧
      (t.mine group = s.mine group ++ items ∧ t.others group = s.others group ∨
        t.mine group = s.mine group ∧ t.others group = s.others group ++ items) := by
  have hkept : t.taken = s.taken → t.channels = s.channels → t.mine = s.mine →
      t.others = s.others → ∃ items,
        t.taken group ++ t.channels group = s.taken group ++ s.channels group ++ items ∧
          (t.mine group = s.mine group ++ items ∧ t.others group = s.others group ∨
            t.mine group = s.mine group ∧ t.others group = s.others group ++ items) := by
    intro htaken hchannels hmine hothers
    refine ⟨[], ?_, Or.inl ⟨?_, by rw [hothers]⟩⟩
    · rw [htaken, hchannels, List.append_nil]
    · rw [hmine, List.append_nil]
  cases a with
  | read bytes =>
      simp only [Inbound.step] at h
      split at h
      · cases bytes <;> cases h <;> exact hkept rfl rfl rfl rfl
      · cases h
  | parse =>
      simp only [Inbound.step] at h
      split at h
      · split at h
        · cases h
          exact hkept rfl rfl rfl rfl
        · cases h
          exact hkept rfl rfl rfl rfl
        · split at h
          · cases h
            exact hkept rfl rfl rfl rfl
          · split at h <;> cases h <;> exact hkept rfl rfl rfl rfl
      · cases h
  | trySend connected =>
      simp only [Inbound.step] at h
      split at h
      · rename_i inbound consumed htask
        split at h
        · split at h
          · cases h
            refine ⟨_, ?_, Or.inl ⟨update_concat s.mine _ inbound group, rfl⟩⟩
            rw [List.append_assoc, ← update_concat s.channels]
            rfl
          · cases h
            exact hkept rfl rfl rfl rfl
        · cases h
          exact hkept rfl rfl rfl rfl
      · cases h
  | take g =>
      simp only [Inbound.step] at h
      split at h
      · cases h
      · rename_i first rest hchannel
        cases h
        -- The first message goes over from the channel to what was taken.
        refine ⟨[], ?_, Or.inl ⟨(List.append_nil _).symm, rfl⟩⟩
        show Function.update s.taken g (s.taken g ++ [first]) group ++
          Function.update s.channels g rest group = _
        by_cases hg : group = g
        · subst hg
          rw [Function.update_self, Function.update_self, hchannel, List.append_assoc,
            List.append_nil]
          rfl
        · rw [Function.update_of_ne hg, Function.update_of_ne hg, List.append_nil]
  | put g inbound =>
      obtain ⟨-, hput⟩ := Option.ite_none_right_eq_some.mp h
      cases hput
      refine ⟨_, ?_, Or.inr ⟨rfl, update_concat s.others g inbound group⟩⟩
      rw [List.append_assoc, ← update_concat s.channels]
      rfl

/-- Who has put what into a channel: the task, or somebody else. -/
def puts (s : Inbound μ ε) (group : Nat) : Bool → List (RaftInbound μ)
  | true  => s.mine group
  | false => s.others group

/-- Messages that carry only a target below 128, as the library writes them: nothing for
zero, and else the tag of the field and the number. -/
def targets : Protobuf Nat Unit where
  writeToBytes target := .ok (if target = 0 then [] else [0x10, UInt8.ofNat target])
  parseFromBytes
    | []              => .ok 0
    | [0x10, target] => .ok target.toNat
    | _               => .error ()

end Inbound

end WalServer.Net.Peer
