import WalServer.Net.PeerLink

/-!
# `WalServer.Net.PeerDelivery`: which messages arrive

The inbound tasks of a link take apart what the sender has written: the frames of whole
batches on a connection that stays, and a first part of them on one that breaks. In every
run each message is consumed at most once, and in the order in which it was queued as long
as the connections are looked at in the order of their opening (`link_in_order`). Nothing is
lost where no batch was given up and no write failed (`link_complete`).
-/

set_option autoImplicit false

namespace WalServer.Net.Peer

open WalServer.Lib

/-- What the library parses is what it wrote, if that is less than `2 ^ 32` bytes. -/
def Protobuf.Faithful {μ ε : Type} (pb : Protobuf μ ε) (message : μ) : Prop :=
  ∀ body, pb.writeToBytes message = .ok body →
    body.length < 2 ^ 32 ∧ pb.parseFromBytes body = .ok message

namespace PeerLink

variable {μ ε : Type} {pb : Protobuf μ ε} {groups : Groups} {s : PeerLink μ ε}

/-- What the messages of an encoded batch have. -/
theorem roundTrips_of_encodeBatch {batch : List (Nat × μ)} {bytes : Bytes}
    (h : encodeBatch pb batch = .ok bytes) (hbatch : ∀ p ∈ batch, pb.Faithful p.2) :
    ∀ p ∈ batch, pb.RoundTrips p.2 := by
  induction batch generalizing bytes with
  | nil => exact fun p hp => by cases hp
  | cons q batch ih =>
      intro p hp
      rw [encodeBatch] at h
      split at h
      · cases h
      · rename_i frame hframe
        split at h
        · cases h
        · rename_i frames hframes
          rcases List.mem_cons.mp hp with rfl | hp
          · unfold encodeRaftMessage at hframe
            split at hframe
            · cases hframe
            · rename_i body hbody
              exact ⟨body, hbody, hbatch p List.mem_cons_self body hbody⟩
          · exact ih hframes (fun q hq => hbatch q (List.mem_cons_of_mem _ hq)) p hp

/-- What was written was queued. -/
theorem Kept.mem_queued (h : Kept pb groups s) {k : Nat} {batch : List (RaftOutbound μ)}
    (hbatch : batch ∈ labelled s.sent k) {outbound : RaftOutbound μ}
    (houtbound : outbound ∈ batch) : outbound ∈ s.queued := by
  obtain ⟨p, hp, rfl⟩ := List.mem_map.mp hbatch
  obtain ⟨q, hq, hpq⟩ := List.mem_filterMap.mp (List.mem_filter.mp hp).1
  obtain ⟨j, -, rfl⟩ := Option.map_eq_some_iff.mp hpq
  rw [h.queued]
  exact List.mem_append_left _ (List.mem_append_left _ (List.mem_flatMap.mpr ⟨q, hq, houtbound⟩))

/-- A batch that was encoded has an encoding. -/
theorem exists_encoded {batches : List (List (RaftOutbound μ))} {frames : List Bytes}
    (h : List.Forall₂ (Encoded pb) batches frames) {batch : List (RaftOutbound μ)}
    (hbatch : batch ∈ batches) : ∃ bytes, Encoded pb batch bytes := by
  induction h with
  | nil => cases hbatch
  | cons hencoded _ ih =>
      rcases List.mem_cons.mp hbatch with rfl | hbatch
      · exact ⟨_, hencoded⟩
      · exact ih hbatch

/-- What all the bytes of a connection are parsed to. -/
theorem Kept.parseAll_connection (h : Kept pb groups s)
    (hqueued : ∀ outbound ∈ s.queued, outbound.groupId < 2 ^ 16 ∧ pb.Faithful outbound.message)
    (k : Nat) :
    (raftFraming pb).parseAll ((s.receivers k).received ++ (s.wire k ++ s.pending k)) =
      ⟨(labelled s.sent k).flatten.map RaftOutbound.framed, .ok []⟩ := by
  obtain ⟨frames, hframes, hbytes⟩ := h.bytes k
  have hsent : List.Forall₂ (fun batch bytes => encodeBatch pb batch = .ok bytes)
      ((labelled s.sent k).map (List.map RaftOutbound.framed)) frames :=
    List.forall₂_map_left_iff.mpr hframes
  rw [← List.append_assoc, hbytes, parseAll_batches ?_ hsent, List.map_flatten]
  -- Every batch on the connection could be encoded, so its messages are parsed back.
  intro batch hbatch p hp
  obtain ⟨outbounds, houtbounds, rfl⟩ := List.mem_map.mp hbatch
  obtain ⟨bytes, hencode⟩ := exists_encoded hframes houtbounds
  have hmem : ∀ q ∈ outbounds.map RaftOutbound.framed, q.1 < 2 ^ 16 ∧ pb.Faithful q.2 := by
    intro q hq
    obtain ⟨outbound, houtbound, rfl⟩ := List.mem_map.mp hq
    exact hqueued outbound (h.mem_queued houtbounds houtbound)
  exact ⟨(hmem p hp).1, roundTrips_of_encodeBatch hencode (fun q hq => (hmem q hq).2) p hp⟩

/-- **What a task has consumed** is a first part of what was written on its connection, and no
frame of that is refused. -/
theorem Kept.consumed_prefix (h : Kept pb groups s)
    (hqueued : ∀ outbound ∈ s.queued, outbound.groupId < 2 ^ 16 ∧ pb.Faithful outbound.message)
    (k : Nat) :
    (s.receivers k).consumed <+: (labelled s.sent k).flatten.map RaftOutbound.framed ∧
      ∀ e, (s.receivers k).task ≠ .ended (some e) := by
  have hall := h.parseAll_connection hqueued k
  have haccount := h.accounted k
  have hparsed : (raftFraming pb).parseAll (s.receivers k).received =
      ((raftFraming pb).parseAll (s.receivers k).parseBuf).after (s.receivers k).consumed :=
    haccount.parsed
  constructor
  · have hgrows := Framing.frames_append (F := raftFraming pb) (s.receivers k).received
      (s.wire k ++ s.pending k)
    rw [hall, hparsed] at hgrows
    exact (List.prefix_append _ _).trans hgrows
  · intro e he
    -- A refused frame would be refused with all that follows it.
    have hrefused : (raftFraming pb).decode (s.receivers k).parseBuf = .bad e :=
      decodedMessage_bad.mpr (haccount.refused e he)
    have hbad := (raftFraming pb).bad_append (s.wire k ++ s.pending k) hrefused
    rw [Framing.parseAll_append, hparsed, Framing.feed_after, ← Framing.parseAll_append] at hall
    rw [Framing.parseAll_bad hbad] at hall
    cases congrArg Parsed.rest hall

/-- **A connection on which nothing is left** has brought everything. -/
theorem Kept.consumed_all (h : Kept pb groups s)
    (hqueued : ∀ outbound ∈ s.queued, outbound.groupId < 2 ^ 16 ∧ pb.Faithful outbound.message)
    {k : Nat} (hwire : s.wire k = []) (hpending : s.pending k = [])
    (hreading : (s.receivers k).task = .reading) :
    (s.receivers k).consumed = (labelled s.sent k).flatten.map RaftOutbound.framed := by
  have hall := h.parseAll_connection hqueued k
  have haccount := h.accounted k
  have hparsed : (raftFraming pb).parseAll (s.receivers k).received =
      ((raftFraming pb).parseAll (s.receivers k).parseBuf).after (s.receivers k).consumed :=
    haccount.parsed
  have hmore : (raftFraming pb).decode (s.receivers k).parseBuf = .more :=
    decodedMessage_more.mpr (haccount.reading hreading)
  rw [hwire, hpending, List.append_nil, List.append_nil, hparsed,
    Framing.parseAll_more hmore] at hall
  have hframes : (s.receivers k).consumed ++ [] = _ := congrArg Parsed.frames hall
  rwa [List.append_nil] at hframes

variable (s) in
/-- Of the batches in the log those that were written are left, all of them where none was
given up. -/
theorem sent_of_log :
    (s.sent.flatMap Prod.snd).Sublist (s.log.flatMap Prod.snd) ∧
      ((∀ p ∈ s.log, p.1 ≠ none) → s.sent.flatMap Prod.snd = s.log.flatMap Prod.snd) := by
  unfold sent
  induction s.log with
  | nil => exact ⟨List.Sublist.refl _, fun _ => rfl⟩
  | cons p log ih =>
      obtain ⟨k, batch⟩ := p
      cases k with
      | none =>
          exact ⟨ih.1.trans (List.sublist_append_right _ _),
            fun h => (h (none, batch) List.mem_cons_self rfl).elim⟩
      | some k =>
          refine ⟨(List.Sublist.refl batch).append ih.1, fun h => ?_⟩
          exact congrArg (batch ++ ·) (ih.2 fun p hp => h p (List.mem_cons_of_mem _ hp))

/-- What was written is among what was queued, in order. -/
theorem Kept.sent_sublist (h : Kept pb groups s) :
    (s.sent.flatMap Prod.snd).Sublist s.queued := by
  rw [h.queued, List.append_assoc]
  exact s.sent_of_log.1.trans (List.sublist_append_left _ _)

/-- **Messages arrive at most once, whole and in order.** In every run of the link, whatever
connects and writes fail, what the inbound tasks have consumed, one connection after the
other, is a sublist of what was queued. A task puts the messages of known groups into their
channels and refuses no frame. A channel got what the tasks have put into it, interleaved
with what the other nodes' tasks have. -/
theorem link_in_order (h : (system pb groups).Reachable System.anyStep s)
    (hqueued : ∀ outbound ∈ s.queued, outbound.groupId < 2 ^ 16 ∧ pb.Faithful outbound.message) :
    ((List.range s.opened).flatMap fun k => (s.receivers k).consumed).Sublist
        (s.queued.map RaftOutbound.framed) ∧
      (∀ k, (s.receivers k).consumed ≠ [] → k < s.opened) ∧
      (∀ k group, (s.receivers k).mine group =
        if groups.Known group then Inbound.forGroup (s.receivers k).consumed group else []) ∧
      (∀ group, Interleaves (s.puts group) (s.taken group ++ s.channels group)) ∧
      ∀ k e, (s.receivers k).task ≠ .ended (some e) := by
  have hkept := kept_of_reachable h
  refine ⟨?_, fun k hk => ?_, fun k => (hkept.accounted k).mine, hkept.placed,
    fun k => (hkept.consumed_prefix hqueued k).2⟩
  · exact (sublist_of_prefixes hkept.sorted hkept.below
      fun k => (hkept.consumed_prefix hqueued k).1).trans (hkept.sent_sublist.map _)
  · by_contra hge
    apply hk
    have hprefix := (hkept.consumed_prefix hqueued k).1
    rw [labelled_eq_nil fun p hp => by have hlt := hkept.below p hp; omega] at hprefix
    exact List.prefix_nil.mp hprefix

/-- **Nothing is lost without a failure.** When no batch was given up, no write has left
anything, the sender waits with an empty queue, and the tasks wait on connections that have
nothing more on the way, then all that was queued has been consumed, in order. -/
theorem link_complete (h : (system pb groups).Reachable System.anyStep s)
    (hqueued : ∀ outbound ∈ s.queued, outbound.groupId < 2 ^ 16 ∧ pb.Faithful outbound.message)
    (hgivenUp : ∀ p ∈ s.log, p.1 ≠ none) (hwaiting : s.task = .waiting) (hempty : s.rx = [])
    (harrived : ∀ k < s.opened, s.unwritten k = [] ∧ s.wire k = [] ∧
      (s.receivers k).task = .reading) :
    ((List.range s.opened).flatMap fun k => (s.receivers k).consumed) =
      s.queued.map RaftOutbound.framed := by
  have hkept := kept_of_reachable h
  have hall : s.queued = s.sent.flatMap Prod.snd := by
    rw [s.sent_of_log.2 hgivenUp, hkept.queued, inHand, hwaiting, hempty, List.append_nil,
      List.append_nil]
  rw [hall]
  refine eq_of_all hkept.sorted hkept.below fun k hk => ?_
  obtain ⟨hunwritten, hwire, hreading⟩ := harrived k hk
  refine hkept.consumed_all hqueued hwire ?_ hreading
  rw [pending, hwaiting]
  exact hunwritten

end PeerLink

end WalServer.Net.Peer
