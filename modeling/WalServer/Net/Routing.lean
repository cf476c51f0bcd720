import WalServer.Net.Steps
import WalServer.Numa.Placement

/-!
# `WalServer.Net.Routing`: every request finds its shard

`server::start` makes the channels of as many shards as the placement has, and
tells the acceptor their number in 16 bits. The router takes a hash modulo that
number and the parse loop indexes the channels with the result, so the thread
panics at a request if the 16 bits are zero.

They are zero when the number of shards is a multiple of `2 ^ 16`, the configured
zero included (`CountWraps`), and that is the only way: `routes_iff_not_countWraps`
says so of the placement of every machine with a CPU and of all runs of its acceptor.
-/

set_option autoImplicit false

namespace WalServer.Net

open WalServer.Lib WalServer.Protocol WalServer.Numa

/-- The part of the configuration that decides over the acceptor and its channels. -/
structure ServerConfig where
  numShards : Option Nat
  channelCapacity : Nat
deriving DecidableEq, Repr

/-- What `server::start` starts the acceptor with, if there is a CPU for it, and the
number of channels it makes. -/
def startAcceptor (config : ServerConfig) (xxh3 : Bytes → Nat) (placement : ShardPlacement) :
    Option (AcceptorConfig × Nat) :=
  let numShards := placement.shardAssignments.length
  placement.acceptorCpus.head?.map fun _ =>
    (⟨numShards % 2 ^ 16, config.channelCapacity, xxh3⟩, numShards)

/-- The number of shards is a multiple of `2 ^ 16`: a configured number that is
smaller than that of usable CPUs, or else the latter. -/
def CountWraps (topology : NumaTopology) : Option Nat → Prop
  | none   => 2 ^ 16 ∣ topology.usableCpus
  | some k => if k < topology.usableCpus then 2 ^ 16 ∣ k else 2 ^ 16 ∣ topology.usableCpus

/-- A stream's shard is below the number of shards. -/
theorem AcceptorConfig.routeStream_lt (config : AcceptorConfig) (hpos : 0 < config.numShards)
    (streamId : Nat) :
    ∃ shard, config.routeStream streamId = some shard ∧ shard < config.numShards := by
  refine ⟨config.xxh3 (toBeBytes 8 streamId) % config.numShards % 2 ^ 16, ?_, ?_⟩
  · exact if_neg (Nat.ne_of_gt hpos)
  · exact Nat.lt_of_le_of_lt (Nat.mod_le _ _) (Nat.mod_lt _ hpos)

namespace Acceptor

/-- The thread has not panicked over a modulo or an index. -/
def RoutesFound (s : Acceptor) : Prop :=
  s.thread ≠ .panicked .remainderByZero ∧ s.thread ≠ .panicked .indexOutOfRange

/-- The channels are there, and the requests have found theirs. -/
structure Routed (shards : Nat) (s : Acceptor) : Prop where
  channels : s.requests.length = shards
  found : s.RoutesFound

variable {shards connId : Nat} {s t : Acceptor} {c : Connection}

/-- Another thread that has not panicked, or has over a borrow. -/
theorem Routed.withThread (h : s.Routed shards) (hrequests : t.requests.length = s.requests.length)
    (hthread : ∀ reason, t.thread = .panicked reason → reason = .alreadyBorrowed) :
    t.Routed shards where
  channels := by rw [hrequests, h.channels]
  found := by
    constructor
    · intro hpanic
      cases hthread _ hpanic
    · intro hpanic
      cases hthread _ hpanic

theorem Routed.close (h : s.Routed shards) (connId : Nat) : (s.close connId).Routed shards := by
  unfold Acceptor.close
  split
  · exact h.withThread rfl fun reason hpanic => by cases hpanic; rfl
  · exact h.withThread rfl fun reason hpanic => by cases hpanic

theorem Routed.flushNext (h : s.Routed shards) (rest : List ShardResponse) :
    (s.flushNext connId c rest).Routed shards := by
  cases rest with
  | nil => exact h.withThread rfl fun reason hpanic => by cases hpanic
  | cons r rest => exact h.withThread rfl fun reason hpanic => by cases hpanic

theorem Routed.flush (h : s.Routed shards) : (s.flush connId c).Routed shards := by
  unfold Acceptor.flush
  split
  · exact h.withThread rfl fun reason hpanic => by cases hpanic; rfl
  · exact h.flushNext _

theorem Routed.dispatch (h : s.Routed shards) (r : ShardResponse) :
    (s.dispatch r).Routed shards := by
  have hborrow : (s.panic .alreadyBorrowed).Routed shards :=
    h.withThread rfl fun reason hpanic => by cases hpanic; rfl
  unfold Acceptor.dispatch
  split
  · exact hborrow
  · split
    · split
      · exact h
      · split
        · exact hborrow
        · exact ⟨h.channels, h.found⟩
    · exact h

theorem Routed.accept (h : s.Routed shards) : s.accept.Routed shards := by
  unfold Acceptor.accept
  simp only
  split
  · exact h.withThread rfl fun reason hpanic => by cases hpanic; rfl
  · split
    · exact h.withThread rfl fun reason hpanic => by cases hpanic; rfl
    · exact ⟨h.channels, h.found⟩

/-- **One step** keeps the channels, and finds the channel of a request when the
router counts no more shards than there are, and one at least. -/
theorem Routed.step (h : s.Routed shards) {config : AcceptorConfig} (hpos : 0 < config.numShards)
    (hle : config.numShards ≤ shards) {a : Action} (hstep : Acceptor.step config s a = some t) :
    t.Routed shards := by
  cases ran_of_step hstep with
  | accepted _ => exact h.accept
  | spawned _ _ _ => exact h.flush
  | flushed _ _ _ => exact h.flushNext _
  | replied _ _ _ => exact h.withThread rfl fun reason hpanic => by cases hpanic
  | writeFailed _ _ => exact h.close _
  | readEnded _ _ _ _ => exact h.close _
  | received _ _ _ => exact h.withThread rfl fun reason hpanic => by cases hpanic
  | slept _ _ _ => exact h.flush
  | malformed _ _ _ => exact h.close _
  | parsed _ _ _ => exact h.flush
  | noRouter _ _ _ hroute =>
      obtain ⟨shard, hfound, -⟩ := config.routeStream_lt hpos _
      rw [hroute] at hfound
      cases hfound
  | noChannel _ _ _ hroute hchannel =>
      -- The route is below the router's count, and so below the number of channels.
      obtain ⟨shard, hfound, hlt⟩ := config.routeStream_lt hpos _
      rw [hroute] at hfound
      cases hfound
      rw [List.getElem?_eq_none_iff, h.channels] at hchannel
      omega
  | sent _ _ _ _ _ _ =>
      refine h.withThread (List.length_set ..) fun reason hpanic => ?_
      cases (show Thread.parsing _ = .panicked reason from hpanic)
  | refused _ _ _ _ _ _ => exact h.withThread rfl fun reason hpanic => by cases hpanic
  | woken _ => exact h.withThread rfl fun reason hpanic => by cases hpanic
  | @drainedAll shard anyWork _ _ =>
      refine h.withThread rfl fun reason hpanic => ?_
      cases anyWork <;> cases hpanic
  | drainedShard _ _ => exact h.withThread rfl fun reason hpanic => by cases hpanic
  | drained _ _ =>
      refine Routed.dispatch ?_ _
      exact h.withThread rfl fun reason hpanic => by cases hpanic
  | requestTaken _ => exact ⟨by rw [← h.channels]; exact List.length_set .., h.found⟩
  | responseSent _ _ => exact ⟨h.channels, h.found⟩

/-- **No run panics over a route** when the router counts one shard at least and no
more than there are. -/
theorem routed_of_reachable {config : AcceptorConfig} (hpos : 0 < config.numShards)
    (hle : config.numShards ≤ shards)
    (h : (system config shards).Reachable System.anyStep s) : s.Routed shards := by
  refine h.invariant ?_ fun s a t _ hrouted _ hstep => hrouted.step hpos hle hstep
  exact ⟨List.length_replicate, (fun hpanic => by cases hpanic), fun hpanic => by cases hpanic⟩

end Acceptor

/-! ### From the topology to the router -/

/-- The count that a placement ends with is a multiple of `2 ^ 16` if `CountWraps`. -/
theorem countWraps_iff (topology : NumaTopology) (numShards : Option Nat) :
    CountWraps topology numShards ↔
      min (numShards.getD topology.usableCpus) topology.usableCpus % 2 ^ 16 = 0 := by
  cases numShards with
  | none => rw [CountWraps, Option.getD_none, Nat.min_self, Nat.dvd_iff_mod_eq_zero]
  | some k =>
      rw [CountWraps, Option.getD_some]
      split
      · rw [Nat.min_eq_left (by omega), Nat.dvd_iff_mod_eq_zero]
      · rw [Nat.min_eq_right (by omega), Nat.dvd_iff_mod_eq_zero]

/-- **When every request finds its shard.** On a machine with a CPU the server starts
an acceptor. Its number of shards is positive, its router stays below the number of
channels, and no run of it panics over a route, exactly when the number of shards is
no multiple of `2 ^ 16`. -/
theorem routes_iff_not_countWraps (topology : NumaTopology) (hcpu : topology.HasCpu)
    (config : ServerConfig) (xxh3 : Bytes → Nat) :
    ∃ placement acceptor shards,
      ShardPlacement.compute topology config.numShards = some placement ∧
      startAcceptor config xxh3 placement = some (acceptor, shards) ∧
      ((0 < acceptor.numShards ∧
        (∀ streamId, ∃ shard, acceptor.routeStream streamId = some shard ∧ shard < shards) ∧
        ∀ s, (Acceptor.system acceptor shards).Reachable System.anyStep s → s.RoutesFound) ↔
          ¬ CountWraps topology config.numShards) := by
  obtain ⟨placement, hcompute, hacceptor, hcount⟩ :=
    ShardPlacement.compute_of_hasCpu hcpu config.numShards
  obtain ⟨cpuId, cpus, hcpus⟩ := List.exists_cons_of_ne_nil hacceptor
  refine ⟨placement, ⟨placement.shardAssignments.length % 2 ^ 16, config.channelCapacity, xxh3⟩,
    placement.shardAssignments.length, hcompute, ?_, ?_⟩
  · unfold startAcceptor
    rw [hcpus]
    rfl
  · rw [countWraps_iff, ← hcount]
    constructor
    · -- A count of zero after the wrap routes nothing.
      rintro ⟨hpos, -, -⟩ hzero
      exact Nat.ne_of_gt hpos hzero
    · intro hpos
      have hpos' := Nat.pos_of_ne_zero hpos
      have hle := Nat.mod_le placement.shardAssignments.length (2 ^ 16)
      refine ⟨hpos', fun streamId => ?_, fun s hs => (Acceptor.routed_of_reachable ?_ hle hs).found⟩
      · obtain ⟨shard, hroute, hlt⟩ := AcceptorConfig.routeStream_lt
          ⟨_, config.channelCapacity, xxh3⟩ hpos' streamId
        exact ⟨shard, hroute, Nat.lt_of_lt_of_le hlt hle⟩
      · exact hpos'

/-- A node with four CPUs. -/
def fourCpus : NumaTopology := ⟨[⟨0, [0, 1, 2, 3]⟩]⟩

/-- With two shards configured, the four CPUs route every request. -/
theorem fourCpus_routes :
    ∃ placement acceptor shards,
      ShardPlacement.compute fourCpus (some 2) = some placement ∧
      startAcceptor ⟨some 2, 4096⟩ (fun bs => bs.length) placement = some (acceptor, shards) ∧
      ∀ s, (Acceptor.system acceptor shards).Reachable System.anyStep s → s.RoutesFound := by
  obtain ⟨placement, acceptor, shards, hcompute, hstart, hroutes⟩ :=
    routes_iff_not_countWraps fourCpus (by decide) ⟨some 2, 4096⟩ fun bs => bs.length
  refine ⟨placement, acceptor, shards, hcompute, hstart, (hroutes.mpr ?_).2.2⟩
  rw [countWraps_iff]
  decide

/-- With no shard configured, the first request ends the acceptor's thread. -/
theorem noShards_panics :
    ∃ placement acceptor shards,
      ShardPlacement.compute fourCpus (some 0) = some placement ∧
      startAcceptor ⟨some 0, 4096⟩ (fun bs => bs.length) placement = some (acceptor, shards) ∧
      ¬ 0 < acceptor.numShards ∧
      ∃ s, (Acceptor.system acceptor shards).Reachable System.anyStep s ∧
        s.thread = .panicked .remainderByZero := by
  refine ⟨⟨[0], []⟩, ⟨0, 4096, fun bs => bs.length⟩, 0, by decide, rfl, by decide, ?_⟩
  exact System.exists_reachable_of_execute (Acceptor.system _ _) System.anyStep
    [.accept, .spawn 0, .selected 0 (.received (encodeRequest ⟨.getStatus, 7, 0, 0, []⟩)),
      .parse true] (fun s => s.thread = .panicked .remainderByZero) (by decide +kernel)

end WalServer.Net
