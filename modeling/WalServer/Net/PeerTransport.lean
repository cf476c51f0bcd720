import WalServer.Net.PeerDelivery

/-!
# `WalServer.Net.PeerTransport`: from the shards of a node to its peers

The loop of `PeerTransport::run` goes round the outbound channels of the shards, takes one
message from each that has one, and offers it to the queue of its target until there is
room. A message to a node that is not a peer is dropped. Behind each queue is a link
(`Net.PeerLink`), whose sender and connections go their own way meanwhile.

A shard sends for its own group. In every run what the connections to a peer have brought
for a group, one after the other, is a sublist of what the group's shard has sent to that
peer, and its channel got what each of them has brought, interleaved with what came from
elsewhere (`transport_in_order`). They have brought all of it when no link has failed and
everything is drained (`transport_complete`).
-/

set_option autoImplicit false

namespace WalServer.Net.Peer

open WalServer.Lib

variable {μ ε : Type}

/-- The forwarding loop, the channels it takes from and the links it forwards to.
`produced` and `forwarded` are records that no step reads: what each shard has put into its
channel, and what the loop has taken, with the channel it was taken from. -/
structure PeerTransport (μ ε : Type) where
  outboundRxs : List (List (RaftOutbound μ))
  position : Nat
  offering : Option (RaftOutbound μ)
  links : Nat → PeerLink μ ε
  produced : Nat → List (RaftOutbound μ)
  forwarded : List (Nat × RaftOutbound μ)

namespace PeerTransport

/-- What happens around the loop and in it. -/
inductive Action (μ : Type) where
  /-- A shard puts a message into its channel. -/
  | send (i : Nat) (outbound : RaftOutbound μ)
  /-- The loop looks into the channel it is at. -/
  | recv
  /-- It offers the message it has taken. -/
  | offer
  /-- Something else happens on the way to a peer. -/
  | link (peer : Nat) (a : PeerLink.Action μ)
deriving DecidableEq, Repr

/-- The node that the transport is on: its peers, what they have for groups, and how much an
outbound channel holds. -/
structure Config where
  peers : List Nat
  groups : Nat → Groups
  capacity : Nat

variable (pb : Protobuf μ ε) (cfg : Config)

/-- What an action does, where it can happen. -/
def step (s : PeerTransport μ ε) : Action μ → Option (PeerTransport μ ε)
  | .send i outbound =>
      match s.outboundRxs[i]? with
      | none         => none
      | some channel =>
          if channel.length < cfg.capacity then some { s with
            outboundRxs := s.outboundRxs.set i (channel ++ [outbound])
            produced := Function.update s.produced i (s.produced i ++ [outbound]) }
          else none
  | .recv =>
      match s.offering with
      | some _ => none
      | none   =>
          match s.outboundRxs[s.position]? with
          -- The end of the round.
          | none                  => some { s with position := 0 }
          | some []               => some { s with position := s.position + 1 }
          | some (outbound :: rest) =>
              let s := { s with
                outboundRxs := s.outboundRxs.set s.position rest
                forwarded := s.forwarded ++ [(s.position, outbound)] }
              if outbound.targetId ∈ cfg.peers then some { s with offering := some outbound }
              else some { s with position := s.position + 1 }
  | .offer =>
      match s.offering with
      | none          => none
      | some outbound =>
          match (s.links outbound.targetId).step pb (cfg.groups outbound.targetId)
              (.queue outbound) with
          | some link => some { s with
              links := Function.update s.links outbound.targetId link
              offering := none
              position := s.position + 1 }
          -- The queue is full: the loop keeps the message and tries again.
          | none      => some s
  | .link peer a =>
      match a with
      | .queue _ => none
      | a        =>
          if peer ∈ cfg.peers then
            ((s.links peer).step pb (cfg.groups peer) a).map fun link =>
              { s with links := Function.update s.links peer link }
          else none

/-- The runs of the transport of a node with some shards. -/
def system (shards : Nat) : System (PeerTransport μ ε) (Action μ) where
  init := {
    outboundRxs := List.replicate shards []
    position := 0
    offering := none
    links := fun peer => (PeerLink.system pb (cfg.groups peer)).init
    produced := fun _ => []
    forwarded := [] }
  step := step pb cfg

/-- A shard sends for its own group. -/
def ownGroup : PeerTransport μ ε → Action μ → Prop
  | _, .send i outbound => outbound.groupId = i
  | _, _                => True

instance (s : PeerTransport μ ε) (a : Action μ) : Decidable (ownGroup s a) := by
  cases a <;> dsimp only [ownGroup] <;> infer_instance

/-! ### What every run keeps -/

variable {pb} {cfg} {shards : Nat} {s t : PeerTransport μ ε}

/-- The messages to a node. -/
def towards (peer : Nat) (outbounds : List (RaftOutbound μ)) : List (RaftOutbound μ) :=
  outbounds.filter fun outbound => outbound.targetId = peer

/-- **Nothing gets lost on the way to the queues.** What a shard has sent was taken from its
channel or is there, and what was taken for a peer is in the peer's queue or was, or is
being offered to it. -/
structure Forwards (pb : Protobuf μ ε) (cfg : Config) (shards : Nat) (s : PeerTransport μ ε) :
    Prop where
  length : s.outboundRxs.length = shards
  within : ∀ p ∈ s.forwarded, p.1 < shards
  produced : ∀ i, s.produced i = labelled s.forwarded i ++ (s.outboundRxs[i]?).getD []
  queued : ∀ peer ∈ cfg.peers, towards peer (s.forwarded.map Prod.snd) =
    (s.links peer).queued ++ towards peer s.offering.toList
  offered : ∀ outbound ∈ s.offering, outbound.targetId ∈ cfg.peers
  links : ∀ peer, (PeerLink.system pb (cfg.groups peer)).Reachable System.anyStep (s.links peer)
  own : ∀ i, ∀ outbound ∈ s.produced i, outbound.groupId = i

/-- One more message was taken, from some channel. -/
theorem towards_concat (peer : Nat) (outbounds : List (RaftOutbound μ))
    (outbound : RaftOutbound μ) :
    towards peer (outbounds ++ [outbound]) =
      towards peer outbounds ++ if outbound.targetId = peer then [outbound] else [] := by
  unfold towards
  rw [List.filter_append]
  by_cases h : outbound.targetId = peer <;> simp [h]

/-- A step of one link leaves all of them reachable. -/
theorem Forwards.links_update (h : Forwards pb cfg shards s) {peer : Nat} {a : PeerLink.Action μ}
    {link : PeerLink μ ε} (hlink : (s.links peer).step pb (cfg.groups peer) a = some link)
    (p : Nat) : (PeerLink.system pb (cfg.groups p)).Reachable System.anyStep
      (Function.update s.links peer link p) := by
  by_cases heq : p = peer
  · subst heq
    rw [Function.update_self]
    exact (h.links p).step trivial hlink
  · rw [Function.update_of_ne heq]
    exact h.links p

/-- **Every step keeps it.** -/
theorem Forwards.step (h : Forwards pb cfg shards s) {a : Action μ} (hok : ownGroup s a)
    (hs : s.step pb cfg a = some t) : Forwards pb cfg shards t := by
  cases a with
  | send i outbound =>
      simp only [PeerTransport.step] at hs
      split at hs
      · cases hs
      · rename_i channel hchannel
        obtain ⟨-, hsend⟩ := Option.ite_none_right_eq_some.mp hs
        cases hsend
        have hlt : i < s.outboundRxs.length := (List.getElem?_eq_some_iff.mp hchannel).1
        refine ⟨(List.length_set ..).trans h.length, h.within, fun j => ?_, h.queued, h.offered,
          h.links, fun j o ho => ?_⟩
        · -- What a shard sends goes to the end of its own channel.
          have hproduced := h.produced j
          by_cases hj : j = i
          · subst hj
            rw [hchannel, Option.getD_some] at hproduced
            simp only [Function.update_self, List.getElem?_set_self hlt, Option.getD_some,
              hproduced, List.append_assoc]
          · simp only [Function.update_of_ne hj, List.getElem?_set_ne (Ne.symm hj), hproduced]
        · by_cases hj : j = i
          · subst hj
            simp only [Function.update_self] at ho
            rcases List.mem_append.mp ho with ho | ho
            · exact h.own j o ho
            · rw [List.mem_singleton.mp ho]
              exact hok
          · simp only [Function.update_of_ne hj] at ho
            exact h.own j o ho
  | recv =>
      simp only [PeerTransport.step] at hs
      split at hs
      · cases hs
      · rename_i hoffering
        split at hs
        · cases hs
          exact ⟨h.length, h.within, h.produced, h.queued, h.offered, h.links, h.own⟩
        · cases hs
          exact ⟨h.length, h.within, h.produced, h.queued, h.offered, h.links, h.own⟩
        · rename_i outbound rest hchannel
          have hlt : s.position < s.outboundRxs.length := (List.getElem?_eq_some_iff.mp hchannel).1
          -- The message leaves its channel, whether it is offered or dropped.
          have hproduced : ∀ i, s.produced i =
              labelled (s.forwarded ++ [(s.position, outbound)]) i ++
                ((s.outboundRxs.set s.position rest)[i]?).getD [] := by
            intro i
            rw [h.produced i, labelled_concat]
            by_cases hi : s.position = i
            · subst hi
              rw [if_pos rfl, List.getElem?_set_self hlt, hchannel, List.append_assoc]
              rfl
            · rw [if_neg hi, List.getElem?_set_ne hi, List.append_nil]
          have hlength := (List.length_set (i := s.position) (a := rest)).trans h.length
          have hwithin : ∀ p ∈ s.forwarded ++ [(s.position, outbound)], p.1 < shards := by
            intro p hp
            rcases List.mem_append.mp hp with hp | hp
            · exact h.within p hp
            · rw [List.mem_singleton.mp hp, ← h.length]
              exact hlt
          have hqueued : ∀ peer ∈ cfg.peers,
              towards peer ((s.forwarded ++ [(s.position, outbound)]).map Prod.snd) =
                (s.links peer).queued ++ if outbound.targetId = peer then [outbound] else [] := by
            intro peer hpeer
            have hbefore := h.queued peer hpeer
            rw [hoffering] at hbefore
            rw [List.map_append, List.map_singleton, towards_concat, hbefore]
            exact congrArg (· ++ _) (List.append_nil _)
          split at hs
          · rename_i hknown
            cases hs
            refine ⟨hlength, hwithin, hproduced, fun peer hpeer => ?_, fun o ho => ?_, h.links,
              h.own⟩
            · rw [hqueued peer hpeer]
              exact congrArg _ (towards_concat peer [] outbound).symm
            · cases ho
              exact hknown
          · rename_i hunknown
            cases hs
            refine ⟨hlength, hwithin, hproduced, fun peer hpeer => ?_,
              (fun o ho => by rw [hoffering] at ho; cases ho), h.links, h.own⟩
            rw [hqueued peer hpeer, if_neg fun heq => hunknown (by rw [heq]; exact hpeer)]
            show _ = _ ++ towards peer s.offering.toList
            rw [hoffering]
            rfl
  | offer =>
      simp only [PeerTransport.step] at hs
      split at hs
      · cases hs
      · rename_i outbound hoffering
        split at hs
        · rename_i link hlink
          cases hs
          refine ⟨h.length, h.within, h.produced, fun peer hpeer => ?_, (fun o ho => by cases ho),
            fun peer => ?_, h.own⟩
          · -- The message that was offered is the last one in the queue of its target.
            have hbefore := h.queued peer hpeer
            rw [hoffering] at hbefore
            rw [hbefore]
            show _ = (Function.update s.links outbound.targetId link peer).queued ++ []
            by_cases hp : peer = outbound.targetId
            · subst hp
              rw [Function.update_self, PeerLink.queued_of_queue hlink, List.append_nil]
              simp [towards]
            · rw [Function.update_of_ne hp]
              simp [towards, Ne.symm hp]
          · exact h.links_update hlink peer
        · -- The queue is full, and the message is offered again.
          cases hs
          exact h
  | link peer a =>
      have hother : ∀ link, (∀ outbound, a ≠ .queue outbound) →
          (s.links peer).step pb (cfg.groups peer) a = some link →
            Forwards pb cfg shards { s with links := Function.update s.links peer link } := by
        intro link ha hlink
        refine ⟨h.length, h.within, h.produced, fun p hp => ?_, h.offered, fun p => ?_, h.own⟩
        · rw [h.queued p hp]
          show _ = (Function.update s.links peer link p).queued ++ _
          by_cases heq : p = peer
          · subst heq
            rw [Function.update_self, PeerLink.queued_of_step hlink ha]
          · rw [Function.update_of_ne heq]
        · exact h.links_update hlink p
      simp only [PeerTransport.step] at hs
      split at hs
      · cases hs
      · rename_i hnotQueue
        obtain ⟨-, hstep⟩ := Option.ite_none_right_eq_some.mp hs
        obtain ⟨link, hlink, rfl⟩ := Option.map_eq_some_iff.mp hstep
        exact hother link (fun outbound heq => hnotQueue outbound heq) hlink

/-- It holds in every run. -/
theorem forwards_of_reachable (h : (system pb cfg shards).Reachable ownGroup s) :
    Forwards pb cfg shards s := by
  refine h.invariant ?_ fun s a t _ hforwards hok hs => hforwards.step hok hs
  refine ⟨List.length_replicate, (fun p hp => by cases hp), fun i => ?_, fun peer _ => rfl,
    (fun o ho => by cases ho), fun peer => .init, (fun i o ho => by cases ho)⟩
  show [] = [] ++ ((List.replicate shards [])[i]?).getD []
  rw [List.getElem?_replicate]
  split <;> rfl

/-! ### From a shard to the shard of its group -/

/-- What a peer has consumed, over all connections in the order of their opening. -/
def consumedBy (s : PeerTransport μ ε) (peer : Nat) : List (Nat × μ) :=
  (List.range (s.links peer).opened).flatMap fun k => ((s.links peer).receivers k).consumed

/-- What the tasks of its connections have put into the channel of a group, one connection
after the other. -/
def putBy (s : PeerTransport μ ε) (peer i : Nat) : List (RaftInbound μ) :=
  (List.range (s.links peer).opened).flatMap fun k => ((s.links peer).receivers k).mine i

/-- The message as it is put into a channel. -/
def arriving (p : Nat × μ) : RaftInbound μ := ⟨p.1, p.2⟩

/-- The messages of a group. -/
def ofGroup (i : Nat) (outbounds : List (RaftOutbound μ)) : List (RaftOutbound μ) :=
  outbounds.filter fun outbound => outbound.groupId = i

theorem filter_framed (i : Nat) (outbounds : List (RaftOutbound μ)) :
    (outbounds.map RaftOutbound.framed).filter (fun p => p.1 = i) =
      (ofGroup i outbounds).map RaftOutbound.framed := by
  unfold ofGroup
  rw [List.filter_map]
  rfl

/-- What was taken was sent, for its own group. -/
theorem Forwards.mem_produced (h : Forwards pb cfg shards s) {p : Nat × RaftOutbound μ}
    (hp : p ∈ s.forwarded) : p.2 ∈ s.produced p.1 := by
  rw [h.produced p.1]
  refine List.mem_append_left _ (List.mem_map.mpr ⟨p, List.mem_filter.mpr ⟨hp, ?_⟩, rfl⟩)
  exact decide_eq_true rfl

/-- What was taken of a group was taken from its shard. -/
theorem Forwards.ofGroup_forwarded (h : Forwards pb cfg shards s) (i : Nat) :
    ofGroup i (s.forwarded.map Prod.snd) = labelled s.forwarded i := by
  unfold ofGroup labelled
  rw [List.filter_map]
  refine congrArg _ (List.filter_congr fun p hp => ?_)
  have hown := h.own p.1 p.2 (h.mem_produced hp)
  simp only [Function.comp, hown]

/-- The messages of a group that were taken for a peer. -/
theorem Forwards.ofGroup_towards (h : Forwards pb cfg shards s) (i peer : Nat) :
    ofGroup i (towards peer (s.forwarded.map Prod.snd)) =
      towards peer (labelled s.forwarded i) := by
  rw [← h.ofGroup_forwarded i]
  unfold ofGroup towards
  rw [List.filter_filter, List.filter_filter]
  refine List.filter_congr fun outbound _ => Bool.and_comm _ _

/-- What is in the queue of a peer has been sent by some shard. -/
theorem Forwards.queued_produced (h : Forwards pb cfg shards s) {peer : Nat}
    (hpeer : peer ∈ cfg.peers) {outbound : RaftOutbound μ}
    (houtbound : outbound ∈ (s.links peer).queued) :
    ∃ i < shards, outbound ∈ s.produced i := by
  have hmem : outbound ∈ towards peer (s.forwarded.map Prod.snd) := by
    rw [h.queued peer hpeer]
    exact List.mem_append_left _ houtbound
  obtain ⟨p, hp, rfl⟩ := List.mem_map.mp (List.mem_filter.mp hmem).1
  exact ⟨p.1, h.within p hp, h.mem_produced hp⟩

/-- What the tasks have put into the channel of a group is what they have consumed for it,
where the peer knows the group. -/
theorem putBy_eq {peer : Nat} (hmine : ∀ k group, ((s.links peer).receivers k).mine group =
      if (cfg.groups peer).Known group then
        Inbound.forGroup ((s.links peer).receivers k).consumed group else []) (i : Nat) :
    s.putBy peer i = if (cfg.groups peer).Known i then
      ((s.consumedBy peer).filter fun p => p.1 = i).map arriving else [] := by
  unfold putBy consumedBy
  rw [List.filter_flatMap, List.map_flatMap]
  simp only [hmine]
  split
  · rfl
  · exact List.flatMap_eq_nil_iff.mpr fun _ _ => rfl

/-- Who has put what into the channel of a group. -/
theorem puts_of_reachable (h : (system pb cfg shards).Reachable ownGroup s)
    (hmessages : ∀ i < shards, ∀ outbound ∈ s.produced i,
      outbound.groupId < 2 ^ 16 ∧ pb.Faithful outbound.message)
    {peer : Nat} (hpeer : peer ∈ cfg.peers) (i : Nat) :
    (s.putBy peer i = if (cfg.groups peer).Known i then
        ((s.consumedBy peer).filter fun p => p.1 = i).map arriving else []) ∧
      (∀ k, (s.links peer).opened ≤ k → ((s.links peer).receivers k).mine i = []) ∧
      Interleaves ((s.links peer).puts i)
        ((s.links peer).taken i ++ (s.links peer).channels i) := by
  have hforwards := forwards_of_reachable h
  obtain ⟨-, hopened, hmine, hplaced, -⟩ := PeerLink.link_in_order (hforwards.links peer)
    fun outbound houtbound => by
      obtain ⟨j, hlt, hj⟩ := hforwards.queued_produced hpeer houtbound
      exact hmessages j hlt outbound hj
  refine ⟨putBy_eq hmine i, fun k hk => ?_, hplaced i⟩
  -- A connection that was not opened has brought nothing.
  have hnone : ((s.links peer).receivers k).consumed = [] := by
    by_contra hne
    exact absurd (hopened k hne) (Nat.not_lt.mpr hk)
  rw [hmine, hnone]
  split <;> rfl

/-- **From a shard to the shard of its group.** In every run, whatever queues fill up and
connections fail, what the connections to a peer have brought for a group, one after the
other, is a sublist of what the group's shard has sent to that peer: each message at most
once, whole, and in the order sent. Their tasks have put this into the group's channel, if
the peer knows the group, and no others of this node have. What the channel holds and what
was taken out of it is what each task has put there and what other nodes' have, interleaved. -/
theorem transport_in_order (h : (system pb cfg shards).Reachable ownGroup s)
    (hmessages : ∀ i < shards, ∀ outbound ∈ s.produced i,
      outbound.groupId < 2 ^ 16 ∧ pb.Faithful outbound.message)
    {peer : Nat} (hpeer : peer ∈ cfg.peers) (i : Nat) :
    ((s.consumedBy peer).filter fun p => p.1 = i).Sublist
        ((towards peer (s.produced i)).map RaftOutbound.framed) ∧
      (s.putBy peer i = if (cfg.groups peer).Known i then
        ((s.consumedBy peer).filter fun p => p.1 = i).map arriving else []) ∧
      (∀ k, (s.links peer).opened ≤ k → ((s.links peer).receivers k).mine i = []) ∧
      Interleaves ((s.links peer).puts i)
        ((s.links peer).taken i ++ (s.links peer).channels i) := by
  refine ⟨?_, puts_of_reachable h hmessages hpeer i⟩
  have hforwards := forwards_of_reachable h
  obtain ⟨hlink, -⟩ := PeerLink.link_in_order (hforwards.links peer) fun outbound houtbound => by
    obtain ⟨j, hlt, hj⟩ := hforwards.queued_produced hpeer houtbound
    exact hmessages j hlt outbound hj
  have hqueued : ((s.links peer).queued).Sublist (towards peer (s.forwarded.map Prod.snd)) := by
    rw [hforwards.queued peer hpeer]
    exact List.sublist_append_left _ _
  have hproduced : (labelled s.forwarded i).Sublist (s.produced i) := by
    rw [hforwards.produced i]
    exact List.sublist_append_left _ _
  have hgroup := hlink.filter fun p => p.1 = i
  rw [filter_framed] at hgroup
  have hsent : (ofGroup i (s.links peer).queued).Sublist (towards peer (s.produced i)) := by
    have htaken : (ofGroup i (s.links peer).queued).Sublist
        (ofGroup i (towards peer (s.forwarded.map Prod.snd))) := hqueued.filter _
    rw [hforwards.ofGroup_towards] at htaken
    exact htaken.trans (hproduced.filter _)
  exact hgroup.trans (hsent.map _)

/-- Messages with small numbers are parsed as they were written. -/
theorem faithful_of_small {s : PeerTransport Nat Unit} {first second : List (RaftOutbound Nat)}
    (hzero : s.produced 0 = first) (hone : s.produced 1 = second)
    (hsmall : ∀ outbound ∈ first ++ second, outbound.groupId < 2 ^ 16 ∧ outbound.message < 128) :
    ∀ i < 2, ∀ outbound ∈ s.produced i,
      outbound.groupId < 2 ^ 16 ∧ Inbound.targets.Faithful outbound.message := by
  intro i hi outbound houtbound
  have hmem : outbound ∈ first ++ second := by
    rcases (show i = 0 ∨ i = 1 by omega) with rfl | rfl
    · rw [hzero] at houtbound
      exact List.mem_append_left _ houtbound
    · rw [hone] at houtbound
      exact List.mem_append_right _ houtbound
  obtain ⟨hgroup, hmessage⟩ := hsmall outbound hmem
  refine ⟨hgroup, fun body hbody => ?_⟩
  simp only [Inbound.targets] at hbody ⊢
  cases hbody
  by_cases hnone : outbound.message = 0
  · simp [hnone]
  · simp [hnone]
    omega

/-- A node with one peer, which knows two groups. -/
def onePeer : Config where
  peers := [1]
  groups := fun _ => ⟨[0, 1], [0, 1], 8⟩
  capacity := 4

/-- Shard 0 sends two messages and shard 1 one in between, and all three are taken and
queued. -/
def threeQueued : List (Action Nat) :=
  [.send 0 ⟨0, 1, 2⟩, .send 1 ⟨1, 1, 3⟩, .send 0 ⟨0, 1, 0⟩, .recv, .offer, .recv, .offer, .recv,
    .recv, .offer]

/-- The connection breaks in the second frame of the batch, and a message that is sent later
goes out on another one. Its bytes arrive before those of the first. -/
def brokenConnection : List (Action Nat) :=
  threeQueued ++ [.link 1 .collect, .link 1 (.connect true), .link 1 (.write 10),
    .link 1 (.written false), .send 0 ⟨0, 1, 5⟩, .recv, .recv, .recv, .offer, .link 1 .collect,
    .link 1 (.connect true), .link 1 (.write 8), .link 1 (.written true),
    .link 1 (.read 1 (some 8)), .link 1 (.inbound 1 .parse), .link 1 (.inbound 1 (.trySend true)),
    .link 1 (.read 0 (some 10)), .link 1 (.inbound 0 .parse),
    .link 1 (.inbound 0 (.trySend true)), .link 1 (.inbound 0 .parse)]

/-- Of the messages of shard 0 the second is lost with the connection, and the third is
before the first in the channel. -/
theorem transport_in_order_broken :
    ∃ s : PeerTransport Nat Unit, (system Inbound.targets onePeer 2).Reachable ownGroup s ∧
      s.produced 0 = [⟨0, 1, 2⟩, ⟨0, 1, 0⟩, ⟨0, 1, 5⟩] ∧
      s.consumedBy 1 = [(0, 2), (0, 5)] ∧ (s.links 1).channels 0 = [⟨0, 5⟩, ⟨0, 2⟩] ∧
      ((s.consumedBy 1).filter fun p => p.1 = 0).Sublist
        ((towards 1 (s.produced 0)).map RaftOutbound.framed) ∧
      s.putBy 1 0 = [⟨0, 2⟩, ⟨0, 5⟩] := by
  obtain ⟨s, hreach, hzero, hone, hconsumed, hchannel⟩ := System.exists_reachable_of_execute
    (system Inbound.targets onePeer 2) ownGroup brokenConnection
    (fun s => s.produced 0 = [⟨0, 1, 2⟩, ⟨0, 1, 0⟩, ⟨0, 1, 5⟩] ∧ s.produced 1 = [⟨1, 1, 3⟩] ∧
      s.consumedBy 1 = [(0, 2), (0, 5)] ∧ (s.links 1).channels 0 = [⟨0, 5⟩, ⟨0, 2⟩])
    (by decide +kernel)
  obtain ⟨hsublist, hput, -, -⟩ := transport_in_order hreach
    (faithful_of_small hzero hone (by decide)) (show 1 ∈ onePeer.peers by decide) 0
  refine ⟨s, hreach, hzero, hconsumed, hchannel, hsublist, ?_⟩
  rw [hput, hconsumed]
  rfl

/-- **All of it, without failures.** When the link to a peer has given up no batch and left
nothing unwritten, and everything on the way from a shard to that peer is drained, the peer
has consumed all that the shard has sent to it, in order. Its tasks have put all of this into
the channel of a group that it knows. Where only one connection was opened and no other node
has put anything there, the channel got exactly what the shard has sent. -/
theorem transport_complete (h : (system pb cfg shards).Reachable ownGroup s)
    (hmessages : ∀ i < shards, ∀ outbound ∈ s.produced i,
      outbound.groupId < 2 ^ 16 ∧ pb.Faithful outbound.message)
    {peer : Nat} (hpeer : peer ∈ cfg.peers) {i : Nat} (hchannel : s.outboundRxs[i]? = some [])
    (hoffering : s.offering = none) (hgivenUp : ∀ p ∈ (s.links peer).log, p.1 ≠ none)
    (hwaiting : (s.links peer).task = .waiting) (hempty : (s.links peer).rx = [])
    (harrived : ∀ k < (s.links peer).opened, (s.links peer).unwritten k = [] ∧
      (s.links peer).wire k = [] ∧ ((s.links peer).receivers k).task = .reading) :
    (s.consumedBy peer).filter (fun p => p.1 = i) =
        (towards peer (s.produced i)).map RaftOutbound.framed ∧
      ((cfg.groups peer).Known i →
        s.putBy peer i = (towards peer (s.produced i)).map RaftOutbound.inbound ∧
          ((s.links peer).opened = 1 → (s.links peer).others i = [] →
            (s.links peer).taken i ++ (s.links peer).channels i =
              (towards peer (s.produced i)).map RaftOutbound.inbound)) := by
  have hforwards := forwards_of_reachable h
  have hall := PeerLink.link_complete (hforwards.links peer) (fun outbound houtbound => by
    obtain ⟨j, hlt, hj⟩ := hforwards.queued_produced hpeer houtbound
    exact hmessages j hlt outbound hj) hgivenUp hwaiting hempty harrived
  have hconsumed : (s.consumedBy peer).filter (fun p => p.1 = i) =
      (towards peer (s.produced i)).map RaftOutbound.framed := by
    have hqueued := hforwards.queued peer hpeer
    rw [hoffering, show towards peer (none : Option (RaftOutbound μ)).toList = [] from rfl,
      List.append_nil] at hqueued
    have hproduced := hforwards.produced i
    rw [hchannel, Option.getD_some, List.append_nil] at hproduced
    unfold consumedBy
    rw [hall, filter_framed, ← hqueued, hforwards.ofGroup_towards, ← hproduced]
  refine ⟨hconsumed, fun hknown => ?_⟩
  obtain ⟨hput, hunopened, hplaced⟩ := puts_of_reachable h hmessages hpeer i
  have hputBy : s.putBy peer i = (towards peer (s.produced i)).map RaftOutbound.inbound := by
    rw [hput, if_pos hknown, hconsumed, List.map_map]
    rfl
  refine ⟨hputBy, fun hone hothers => ?_⟩
  rw [← hputBy, hplaced.eq_of_single (j := some 0) fun who hwho => ?_]
  · unfold putBy
    rw [hone]
    exact (List.append_nil _).symm
  · cases who with
    | none => exact hothers
    | some k => exact hunopened k (by have : k ≠ 0 := fun h0 => hwho (by rw [h0]); omega)

/-- All three messages go out and arrive in two pieces. -/
def twoPieces : List (Action Nat) :=
  threeQueued ++ [.link 1 .collect, .link 1 (.connect true), .link 1 (.write 22),
    .link 1 (.written true), .link 1 (.read 0 (some 10)), .link 1 (.inbound 0 .parse),
    .link 1 (.inbound 0 (.trySend true)), .link 1 (.inbound 0 .parse), .link 1 (.read 0 (some 12)),
    .link 1 (.inbound 0 .parse), .link 1 (.inbound 0 (.trySend true)), .link 1 (.inbound 0 .parse),
    .link 1 (.inbound 0 (.trySend true)), .link 1 (.inbound 0 .parse)]

/-- Both messages of shard 0 arrive, and the one of shard 1. -/
theorem transport_complete_twoPieces :
    ∃ s : PeerTransport Nat Unit, (system Inbound.targets onePeer 2).Reachable ownGroup s ∧
      s.produced 0 = [⟨0, 1, 2⟩, ⟨0, 1, 0⟩] ∧
      s.consumedBy 1 = [(0, 2), (1, 3), (0, 0)] ∧
      (s.consumedBy 1).filter (fun p => p.1 = 0) =
        (towards 1 (s.produced 0)).map RaftOutbound.framed ∧
      (s.links 1).taken 0 ++ (s.links 1).channels 0 = [⟨0, 2⟩, ⟨0, 0⟩] := by
  obtain ⟨s, hreach, ⟨hzero, hone, hconsumed, hopened, hothers⟩, hchannel, hoffering, hlog,
    hwaiting, hempty, harrived⟩ := System.exists_reachable_of_execute
    (system Inbound.targets onePeer 2) ownGroup twoPieces
    (fun s => (s.produced 0 = [⟨0, 1, 2⟩, ⟨0, 1, 0⟩] ∧ s.produced 1 = [⟨1, 1, 3⟩] ∧
      s.consumedBy 1 = [(0, 2), (1, 3), (0, 0)] ∧ (s.links 1).opened = 1 ∧
      (s.links 1).others 0 = []) ∧ s.outboundRxs[0]? = some [] ∧
      s.offering = none ∧ (∀ p ∈ (s.links 1).log, p.1 ≠ none) ∧ (s.links 1).task = .waiting ∧
      (s.links 1).rx = [] ∧ ∀ k < (s.links 1).opened, (s.links 1).unwritten k = [] ∧
        (s.links 1).wire k = [] ∧ ((s.links 1).receivers k).task = .reading) (by decide +kernel)
  obtain ⟨hall, hknown⟩ := transport_complete hreach (faithful_of_small hzero hone (by decide))
    (show 1 ∈ onePeer.peers by decide) hchannel hoffering hlog hwaiting hempty harrived
  obtain ⟨-, hexact⟩ := hknown (by decide)
  refine ⟨s, hreach, hzero, hconsumed, hall, ?_⟩
  rw [hexact hopened hothers, hzero]
  rfl

end PeerTransport

end WalServer.Net.Peer
