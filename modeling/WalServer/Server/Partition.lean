import WalServer.Server.Responses
import WalServer.Shard.Within

/-!
# `WalServer.Server.Partition`: which shard has a stream

The nodes of a cluster hash a stream to the same shard, whose raft group replicates it. A
node's processes may end between two calls and start again on the files that they leave;
each shard then finds one of the states that the file of its raft storage has held.

`streams_partitioned`: if the raft groups replicate what was proposed in them and install
the snapshots that were made in them, then every shard of every node has to do only with
streams that are hashed to it (`ShardEngine.Within`). So two shards with different numbers
never have the same stream, on whichever nodes, after any restarts.
-/

set_option autoImplicit false

namespace WalServer

open Lib Protocol Net Shard Raft

/-- A stream id, of 64 bits, that is hashed to a shard. -/
def Net.AcceptorConfig.Owns (config : AcceptorConfig) (shard id : Nat) : Prop :=
  id < 256 ^ 8 ∧ config.routeStream id = some shard

/-! ### One server -/

namespace Server

variable {hash : Bytes → UInt32} {config : AcceptorConfig} {s t : Server} {a : ServerAction}

/-- Every shard has to do only with streams that are hashed to it. -/
def Within (hash : Bytes → UInt32) (config : AcceptorConfig) (s : Server) : Prop :=
  ∀ (i : Nat) (sh : ServerShard), s.shards[i]? = some sh →
    sh.engine.Within hash (config.Owns i)

/-- **What waits for a shard** is for streams that are hashed to it. -/
theorem Consistent.owns_of_request (h : s.Consistent hash config) {i : Nat} {req : ShardRequest}
    {rest : List ShardRequest} (hchannel : s.acceptor.requests[i]? = some (req :: rest)) :
    config.Owns i req.request.streamId := by
  obtain ⟨ticket, tickets, hasks, -, htickets⟩ :=
    List.forall₂_cons_right_iff.mp (h.isMatch.requests i _ hchannel)
  have hmem : ticket ∈ s.custody (.requests i) := by
    rw [htickets]
    exact List.mem_cons_self
  obtain ⟨-, hshard⟩ := h.tickets.fits _ _ hmem
  have hdispatched := List.mem_of_getElem? (h.tickets.known _ _ hmem)
  have hreq : req.request = ticket.dispatch.request := congrArg ShardRequest.request hasks
  -- The request was decoded, so its stream id has 64 bits.
  obtain ⟨later, hframes⟩ := h.framed.begun ticket.connId
  have hfits : ticket.dispatch.request.Fits := by
    refine Framing.forall_frames (F := requestFraming) (fun buf req n hdecode =>
      fits_of_decodeRequest (decodedRequest_frame.mp hdecode)) (s.traffic.received ticket.connId)
      _ ?_
    rw [hframes]
    exact List.mem_append_left _ (List.mem_map_of_mem hdispatched)
  rw [hreq]
  exact ⟨hfits.streamId, hshard ▸ h.framed.routed _ _ hdispatched⟩

/-- A shard that has made a call. -/
theorem Within.set (h : s.Within hash config) {i : Nat} {sh sh' : ServerShard}
    (hshard : s.shards[i]? = some sh)
    (hkeeps : sh.engine.Within hash (config.Owns i) → sh'.engine.Within hash (config.Owns i)) :
    ∀ (j : Nat) (sh'' : ServerShard), (s.shards.set i sh')[j]? = some sh'' →
      sh''.engine.Within hash (config.Owns j) := by
  intro j sh'' hj
  rcases getElem?_set_cases hj with ⟨rfl, rfl⟩ | ⟨-, hold⟩
  · exact hkeeps (h _ sh hshard)
  · exact h j sh'' hold

/-- **Every step** whose calls bring only what is of their shard. -/
theorem Within.step (h : s.Within hash config) (hconsistent : s.Consistent hash config)
    (hcalls : ∀ i c, a = .call i c → c.For (config.Owns i) ∧ c.Typed)
    (hstep : s.step hash config a = some t) : t.Within hash config := by
  have hwidth : ∀ i id, config.Owns i id → id < 256 ^ 8 := fun i id howns => howns.1
  cases ran_of_step hstep with
  | moved _ _ => exact h
  | @handled i sh req rest e hshard hchannel _ hcall =>
      have hfor : EngineCall.For (config.Owns i) (.request req) :=
        hconsistent.owns_of_request hchannel
      exact h.set hshard fun hwithin => hwithin.call (hwidth _) hfor trivial hcall
  | called _ hshard _ hcall =>
      obtain ⟨hfor, htyped⟩ := hcalls _ _ rfl
      exact h.set hshard fun hwithin => hwithin.call (hwidth _) hfor htyped hcall
  | sent hshard _ _ _ => exact h.set hshard fun hwithin => hwithin
  | dropped hshard _ _ => exact h.set hshard fun hwithin => hwithin

/-- A server over engines that have to do only with streams of their shards. -/
theorem within_start {engines : List ShardEngine}
    (h : ∀ (i : Nat) (e : ShardEngine), engines[i]? = some e → e.Within hash (config.Owns i)) :
    (start config engines).Within hash config := by
  intro i sh hsh
  have hmap : (engines.map fun e => (⟨.opened e, 0⟩ : ServerShard))[i]? = some sh := hsh
  rw [List.getElem?_map] at hmap
  obtain ⟨e, he, rfl⟩ := Option.map_eq_some_iff.mp hmap
  exact h i e he

end Server

/-! ### The nodes -/

/-- The servers of the nodes, and the processes that have ended. -/
structure Nodes where
  servers : List Server
  ended : List Server

/-- What happens in the cluster. -/
inductive NodesAction where
  /-- Something happens in the server of a node. -/
  | act (node : Nat) (a : ServerAction)
  /-- The process of a node ends, and a new one starts on its files. Of the states that
  the raft storage's file of a shard has held, the shard finds the given one. -/
  | restart (node : Nat) (config : Shard.ServerConfig) (createdTsNs : Nat) (files : List Nat)

namespace Nodes

section

variable (hash : Bytes → UInt32) (config : AcceptorConfig)

/-- The shards that are opened on the files of other ones. -/
def reopenAll (serverConfig : Shard.ServerConfig) (createdTsNs : Nat) :
    List ServerShard → List Nat → Option (List ShardEngine)
  | [],           _             => some []
  | _ :: _,       []            => none
  | sh :: shards, file :: files =>
      (sh.engine.raft.store.written[file]?).bind fun p =>
        (ShardEngine.openEngine hash sh.engine.shardId serverConfig (some p) sh.engine.dir
          createdTsNs).toOption.bind fun e =>
            (reopenAll serverConfig createdTsNs shards files).map (e :: ·)

/-- What an action does, where it can happen. -/
def step (nodes : Nodes) : NodesAction → Option Nodes
  | .act node a =>
      nodes.servers[node]?.bind fun s => (s.step hash config a).map fun t =>
        { nodes with servers := nodes.servers.set node t }
  | .restart node serverConfig createdTsNs files =>
      nodes.servers[node]?.bind fun s =>
        (reopenAll hash serverConfig createdTsNs s.shards files).map fun engines =>
          { servers := nodes.servers.set node (Server.start config engines)
            ended := nodes.ended ++ [s] }

/-- A node whose shards start on empty directories. -/
def firstStart (createdTsNs : Nat) (serverConfig : Shard.ServerConfig) : Server :=
  Server.start config ((List.range config.numShards).map fun shardId =>
    ShardEngine.freshEngine shardId serverConfig createdTsNs)

/-- The runs of a cluster. -/
def system (nodes : List Shard.ServerConfig) (createdTsNs : Nat) : System Nodes NodesAction where
  init := ⟨nodes.map (firstStart config createdTsNs), []⟩
  step := step hash config

end

/-! ### What the raft groups do -/

/-- The engines of a raft group, of all processes that there have been. -/
def group (nodes : Nodes) (shard : Nat) : List ShardEngine :=
  (nodes.servers ++ nodes.ended).filterMap fun s =>
    s.shards[shard]?.map fun sh => sh.engine

/-- An entry has a command only if its data was proposed in the group. -/
def Proposed (nodes : Nodes) (shard : Nat) (entry : LogEntry) : Prop :=
  ShardEngine.isCommand entry = true →
    ∃ e ∈ nodes.group shard, entry.data ∈ e.raft.proposals

/-- A snapshot was stored in the group. -/
def Stored (nodes : Nodes) (shard : Nat) (snapshot : Snapshot) : Prop :=
  ∃ e ∈ nodes.group shard, ∃ p ∈ e.raft.store.written, p.snapshot.data = snapshot.data

/-- **What the raft groups do**: a group's log has what was proposed in the group, and the
snapshots that its members install are those that its members have made. -/
def Replicates (nodes : Nodes) : NodesAction → Prop
  | .act _ (.call shard (.apply _ entry)) => nodes.Proposed shard entry
  | .act _ (.call shard (.store ready))   =>
      (ready.snapshot.isEmpty = false → nodes.Stored shard ready.snapshot) ∧
        ∀ entry ∈ ready.entries, nodes.Proposed shard entry
  | _                                     => True

/-- The inputs of calls have the widths of the source's types, and payloads fit records. -/
def Typed : NodesAction → Prop
  | .act _ (.call _ c) => c.Typed
  | _                  => True

variable {hash : Bytes → UInt32} {config : AcceptorConfig} {nodes nodes' : Nodes}

theorem mem_group {shard : Nat} {e : ShardEngine} :
    e ∈ nodes.group shard ↔ ∃ s ∈ nodes.servers ++ nodes.ended, ∃ sh : ServerShard,
      s.shards[shard]? = some sh ∧ sh.engine = e := by
  simp only [group, List.mem_filterMap, Option.map_eq_some_iff]

/-! ### Every run -/

/-- **The streams are partitioned**: every process that there has been is consistent, or
was, and has to do with each stream in the shard that it is hashed to. -/
structure Partitioned (hash : Bytes → UInt32) (config : AcceptorConfig) (nodes : Nodes) :
    Prop where
  consistent : ∀ s ∈ nodes.servers, s.Consistent hash config
  within : ∀ s ∈ nodes.servers ++ nodes.ended, s.Within hash config

/-- An engine of a group has to do with streams of the group. -/
theorem Partitioned.within_group (h : nodes.Partitioned hash config) {shard : Nat}
    {e : ShardEngine} (he : e ∈ nodes.group shard) : e.Within hash (config.Owns shard) := by
  obtain ⟨s, hs, sh, hshard, rfl⟩ := mem_group.mp he
  exact h.within s hs shard sh hshard

/-- What was proposed in a group is of its streams. -/
theorem Partitioned.entryWithin (h : nodes.Partitioned hash config) {shard : Nat}
    {entry : LogEntry} (hproposed : nodes.Proposed shard entry) :
    EntryWithin (config.Owns shard) entry := by
  intro raftIndex cmd hcommand
  unfold ShardEngine.commandOf at hcommand
  split at hcommand
  · rename_i hiscommand
    obtain ⟨e, he, hdata⟩ := hproposed hiscommand
    cases hdecode : decodeAppendCommand entry.data with
    | error failure =>
        rw [hdecode] at hcommand
        cases hcommand
    | ok own =>
        rw [hdecode] at hcommand
        cases hcommand
        exact (h.within_group he).proposed _ hdata _ hdecode
  · cases hcommand

/-- What was stored in a group is of its streams. -/
theorem Partitioned.snapshotWithin (h : nodes.Partitioned hash config) {shard : Nat}
    {snapshot : Snapshot} (hstored : nodes.Stored shard snapshot) :
    SnapshotWithin (config.Owns shard) snapshot := by
  obtain ⟨e, he, p, hp, hdata⟩ := hstored
  intro limit t hdecode
  rw [← hdata] at hdecode
  exact ((h.within_group he).states p (Or.inr hp)).snapshot limit t hdecode

/-- **What the raft groups bring** a shard is of its streams. -/
theorem Partitioned.for_of_replicates (h : nodes.Partitioned hash config) {node shard : Nat}
    {c : EngineCall} (hreplicates : nodes.Replicates (.act node (.call shard c)))
    (hrequest : c.isRequest = false) : c.For (config.Owns shard) := by
  cases c with
  | request req => cases hrequest
  | store ready =>
      obtain ⟨hstored, hproposed⟩ := hreplicates
      exact ⟨fun hsome => h.snapshotWithin (hstored hsome),
        fun entry hentry => h.entryWithin (hproposed entry hentry)⟩
  | apply clock entry => exact h.entryWithin hreplicates
  | _ => exact trivial

/-- Each of the engines that are reopened is opened on the files of its shard. -/
theorem of_reopenAll {serverConfig : Shard.ServerConfig} {createdTsNs : Nat}
    {shards : List ServerShard} {files : List Nat} {engines : List ShardEngine}
    (h : reopenAll hash serverConfig createdTsNs shards files = some engines) {i : Nat}
    {e : ShardEngine} (he : engines[i]? = some e) :
    ∃ sh p, shards[i]? = some sh ∧ p ∈ sh.engine.raft.store.written ∧
      ShardEngine.openEngine hash sh.engine.shardId serverConfig (some p) sh.engine.dir
        createdTsNs = .ok e := by
  induction shards generalizing files engines i with
  | nil =>
      cases h
      cases he
  | cons sh shards ih =>
      cases files with
      | nil => cases h
      | cons file files =>
          obtain ⟨p, hp, hrest⟩ := Option.bind_eq_some_iff.mp h
          obtain ⟨first, hopen, hrest⟩ := Option.bind_eq_some_iff.mp hrest
          obtain ⟨engines', hreopen, rfl⟩ := Option.map_eq_some_iff.mp hrest
          cases i with
          | zero =>
              cases he
              exact ⟨sh, p, rfl, List.mem_of_getElem? hp, Outcome.toOption_eq_some.mp hopen⟩
          | succ i =>
              rw [List.getElem?_cons_succ] at he ⊢
              exact ih hreopen he

/-- **Every step** keeps the streams partitioned. -/
theorem Partitioned.step (h : nodes.Partitioned hash config) {a : NodesAction}
    (hreplicates : nodes.Replicates a) (htyped : Typed a)
    (hstep : nodes.step hash config a = some nodes') : nodes'.Partitioned hash config := by
  cases a with
  | act node a =>
      obtain ⟨s, hs, hrest⟩ := Option.bind_eq_some_iff.mp hstep
      obtain ⟨t, hmove, rfl⟩ := Option.map_eq_some_iff.mp hrest
      have hmem := List.mem_of_getElem? hs
      refine ⟨fun s' hs' => ?_, fun s' hs' => ?_⟩
      · rcases List.mem_or_eq_of_mem_set hs' with hold | rfl
        · exact h.consistent s' hold
        · exact (h.consistent s hmem).step hmove
      · rcases List.mem_append.mp hs' with hserver | hended
        · rcases List.mem_or_eq_of_mem_set hserver with hold | rfl
          · exact h.within s' (List.mem_append_left _ hold)
          · refine (h.within s (List.mem_append_left _ hmem)).step (h.consistent s hmem)
              (fun i c hcall => ?_) hmove
            subst hcall
            -- A call that is made so handles no request.
            exact ⟨h.for_of_replicates hreplicates
              (by simpa using (Option.ite_none_left_eq_some.mp hmove).1), htyped⟩
        · exact h.within s' (List.mem_append_right _ hended)
  | restart node serverConfig createdTsNs files =>
      obtain ⟨s, hs, hrest⟩ := Option.bind_eq_some_iff.mp hstep
      obtain ⟨engines, hreopen, rfl⟩ := Option.map_eq_some_iff.mp hrest
      have hmem := List.mem_of_getElem? hs
      have hwithin := h.within s (List.mem_append_left _ hmem)
      refine ⟨fun s' hs' => ?_, fun s' hs' => ?_⟩
      · rcases List.mem_or_eq_of_mem_set hs' with hold | rfl
        · exact h.consistent s' hold
        · have hopened : Server.Opened hash engines := by
            intro e he
            obtain ⟨i, hi⟩ := List.getElem?_of_mem he
            obtain ⟨sh, p, -, -, hopen⟩ := of_reopenAll hreopen hi
            exact ⟨_, _, _, _, _, hopen⟩
          exact Server.consistent_start hopened
      · rcases List.mem_append.mp hs' with hserver | hended
        · rcases List.mem_or_eq_of_mem_set hserver with hold | rfl
          · exact h.within s' (List.mem_append_left _ hold)
          · refine Server.within_start fun i e he => ?_
            obtain ⟨sh, p, hshard, hp, hopen⟩ := of_reopenAll hreopen he
            exact (hwithin i sh hshard).openEngine (Or.inr hp) hopen
        · rcases List.mem_append.mp hended with hold | hnew
          · exact h.within s' (List.mem_append_right _ hold)
          · rw [List.mem_singleton.mp hnew]
            exact hwithin

/-- Nodes that start on empty directories. -/
theorem partitioned_init (hash : Bytes → UInt32) (config : AcceptorConfig)
    (serverConfigs : List Shard.ServerConfig) (createdTsNs : Nat) :
    (system hash config serverConfigs createdTsNs).init.Partitioned hash config := by
  refine ⟨fun s hs => ?_, fun s hs => ?_⟩
  · obtain ⟨serverConfig, -, rfl⟩ := List.mem_map.mp hs
    have hopened : Server.Opened hash ((List.range config.numShards).map fun shardId =>
        ShardEngine.freshEngine shardId serverConfig createdTsNs) := by
      intro e he
      obtain ⟨shardId, -, rfl⟩ := List.mem_map.mp he
      exact ⟨shardId, _, _, _, _, ShardEngine.openEngine_fresh hash shardId _ createdTsNs⟩
    exact Server.consistent_start hopened
  · rcases List.mem_append.mp hs with hserver | hended
    · obtain ⟨serverConfig, -, rfl⟩ := List.mem_map.mp hserver
      refine Server.within_start fun i e he => ?_
      obtain ⟨shardId, -, rfl⟩ := List.mem_map.mp (List.mem_of_getElem? he)
      exact ShardEngine.within_freshEngine hash _ shardId serverConfig createdTsNs
    · cases hended

/-- **A stream has one shard.** In every run of the nodes, with any restarts, in which the
raft groups replicate what was proposed in them, every shard of every node has to do only
with streams that are hashed to it; and two shards that have the same stream in their tables,
be they of one node or of two, have the same number. -/
theorem streams_partitioned {serverConfigs : List Shard.ServerConfig} {createdTsNs : Nat}
    (h : (system hash config serverConfigs createdTsNs).Reachable
      (fun nodes a => nodes.Replicates a ∧ Typed a) nodes) :
    (∀ s ∈ nodes.servers, ∀ (i : Nat) (sh : ServerShard), s.shards[i]? = some sh →
      sh.engine.Within hash (config.Owns i)) ∧
    ∀ s ∈ nodes.servers, ∀ s' ∈ nodes.servers, ∀ (i i' : Nat) (sh sh' : ServerShard),
      s.shards[i]? = some sh → s'.shards[i']? = some sh' →
      ∀ id, sh.engine.core.streams.Has id → sh'.engine.core.streams.Has id → i = i' := by
  have hpartitioned : nodes.Partitioned hash config :=
    h.invariant (I := fun nodes => nodes.Partitioned hash config)
      (partitioned_init hash config serverConfigs createdTsNs)
      fun _ _ _ _ hkept hok hstep => hkept.step hok.1 hok.2 hstep
  have hwithin : ∀ s ∈ nodes.servers, s.Within hash config := fun s hs =>
    hpartitioned.within s (List.mem_append_left _ hs)
  refine ⟨hwithin, fun s hs s' hs' i i' sh sh' hshard hshard' id hhas hhas' => ?_⟩
  have howns := ((hwithin s hs i sh hshard).core.table id hhas).2
  have howns' := ((hwithin s' hs' i' sh' hshard').core.table id hhas').2
  exact Option.some.inj (howns.symm.trans howns')

/-! ### A concrete run -/

instance (nodes : Nodes) (shard : Nat) (entry : LogEntry) :
    Decidable (nodes.Proposed shard entry) :=
  inferInstanceAs (Decidable (ShardEngine.isCommand entry = true →
    ∃ e ∈ nodes.group shard, entry.data ∈ e.raft.proposals))

instance (nodes : Nodes) (shard : Nat) (snapshot : Snapshot) :
    Decidable (nodes.Stored shard snapshot) :=
  inferInstanceAs (Decidable (∃ e ∈ nodes.group shard, ∃ p ∈ e.raft.store.written,
    p.snapshot.data = snapshot.data))

instance (nodes : Nodes) : (a : NodesAction) → Decidable (nodes.Replicates a)
  | .act _ (.call shard (.apply _ entry)) =>
      inferInstanceAs (Decidable (nodes.Proposed shard entry))
  | .act _ (.call shard (.store ready))   =>
      inferInstanceAs (Decidable ((ready.snapshot.isEmpty = false →
        nodes.Stored shard ready.snapshot) ∧ ∀ entry ∈ ready.entries, nodes.Proposed shard entry))
  | .act _ (.call _ (.request _))         => .isTrue trivial
  | .act _ (.call _ (.step _))            => .isTrue trivial
  | .act _ (.call _ (.move _))            => .isTrue trivial
  | .act _ (.call _ (.advance _))         => .isTrue trivial
  | .act _ (.call _ .observe)             => .isTrue trivial
  | .act _ (.call _ .collect)             => .isTrue trivial
  | .act _ (.thread _)                    => .isTrue trivial
  | .act _ (.handle _)                    => .isTrue trivial
  | .act _ (.send _)                      => .isTrue trivial
  | .restart _ _ _ _                      => .isTrue trivial

instance : (a : NodesAction) → Decidable (Typed a)
  | .act _ (.call _ c)   => inferInstanceAs (Decidable c.Typed)
  | .act _ (.thread _)   => .isTrue trivial
  | .act _ (.handle _)   => .isTrue trivial
  | .act _ (.send _)     => .isTrue trivial
  | .restart _ _ _ _     => .isTrue trivial

/-- Two nodes of two shards. -/
def twoNodes : List Shard.ServerConfig := [⟨1, 1000, 4, [1, 2]⟩, ⟨2, 1000, 4, [1, 2]⟩]

/-- The entry of the first write of stream 7. -/
def firstEntry : LogEntry :=
  ⟨.entryNormal, 2, 2, encodeAppendCommand ⟨1, 7, 1, 0, [42]⟩⟩

/-- A client writes to one node. The other one stores and applies the entry, and starts
again. -/
def writtenAndRestarted : List NodesAction :=
  (Server.pipelined [⟨.write, 7, 1, 0, [42]⟩]).map (.act 0) ++
    [.act 0 (.call 1 (.move ⟨.leader, 1, 1, 0, true⟩)), .act 0 (.handle 1),
      .act 1 (.call 1 (.store ⟨none, ⟨[], ⟨⟨[]⟩, 0, 0⟩⟩, [firstEntry], [], [], []⟩)),
      .act 1 (.call 1 (.apply ⟨fun _ => 0, fun _ => 0⟩ firstEntry)),
      .restart 1 ⟨2, 1000, 4, [1, 2]⟩ 0 [0, 1]]

/-- The second shard of some node has stream 7. -/
def SecondHasSeven (nodes : Nodes) : Prop :=
  ∃ s ∈ nodes.servers, ∃ sh ∈ s.shards[1]?, sh.engine.core.streams.Has 7

instance : DecidablePred SecondHasSeven := fun nodes =>
  inferInstanceAs (Decidable (∃ s ∈ nodes.servers, ∃ sh ∈ s.shards[1]?,
    (sh.engine.core.streams.streams.lookup 7).isSome = true))

/-- The second shard has the stream after the restart, and no first shard has it. -/
theorem streams_partitioned_writtenAndRestarted :
    ∃ nodes, (system (fun _ => 0) ⟨2, 8, fun bytes => (bytes.getLastD 0).toNat⟩ twoNodes
        0).Reachable (fun nodes a => nodes.Replicates a ∧ Typed a) nodes ∧
      SecondHasSeven nodes ∧
      ∀ s ∈ nodes.servers, ∀ sh : ServerShard, s.shards[0]? = some sh →
        ¬ sh.engine.core.streams.Has 7 := by
  obtain ⟨nodes, hreach, hseven⟩ := System.exists_reachable_of_execute
    (system (fun _ => 0) ⟨2, 8, fun bytes => (bytes.getLastD 0).toNat⟩ twoNodes 0)
    (fun nodes a => nodes.Replicates a ∧ Typed a) writtenAndRestarted SecondHasSeven
    (by decide +kernel)
  refine ⟨nodes, hreach, hseven, fun s hs sh hshard hhas => ?_⟩
  obtain ⟨s', hs', sh', hshard', hhas'⟩ := hseven
  have hsame := (streams_partitioned hreach).2 s hs s' hs' 0 1 sh sh' hshard hshard' 7 hhas
    hhas'
  cases hsame

end Nodes

end WalServer
