import Mathlib.Algebra.Ring.Nat
import Mathlib.Data.List.Nodup
import Mathlib.Data.List.Perm.Basic

/-!
# `WalServer.Numa.Placement`: which CPU runs which shard

`numa/placement.rs`: the first CPU of every node is for the acceptor, the others
run a shard each, as far as the configuration asks for that many. A machine whose
nodes have one CPU each shares the acceptor's CPU with a shard.

The number of shards is the configured one, cut to the CPUs there are for them
(`compute_of_hasCpu`). With a CPU there is one at least (`usableCpus`), unless the
configuration asks for none.

`Respects` says what a placement owes the machine. Where a CPU is shared, the placement
names the first node, which need not be the node of that CPU: `compute_respects_iff`.
-/

set_option autoImplicit false

namespace WalServer.Numa

/-- A node and its CPUs. -/
structure NumaNode where
  nodeId : Nat
  cpuIds : List Nat
deriving DecidableEq, Repr

/-- The nodes of a machine. -/
structure NumaTopology where
  nodes : List NumaNode
deriving DecidableEq, Repr

/-- The CPU that a shard runs on. The id of a shard has 16 bits. -/
structure ShardAssignment where
  shardId : Nat
  cpuId : Nat
  numaNode : Nat
deriving DecidableEq, Repr

/-- Where acceptors and shards run. -/
structure ShardPlacement where
  acceptorCpus : List Nat
  shardAssignments : List ShardAssignment
deriving DecidableEq, Repr

namespace ShardPlacement

/-- The loop over the nodes: the first CPU of each is for the acceptor, and the rest,
with their node, for shards. -/
def reserveCpus : List NumaNode → List Nat × List (Nat × Nat)
  | []            => ([], [])
  | node :: nodes =>
      let (acceptorCpus, availableCpus) := reserveCpus nodes
      match node.cpuIds with
      | []            => (acceptorCpus, availableCpus)
      | first :: rest =>
          (first :: acceptorCpus, rest.map (fun cpuId => (cpuId, node.nodeId)) ++ availableCpus)

/-- The CPUs for shards. Without one, the acceptor's first CPU is shared; `none` is
the panic of a machine without a CPU. -/
def shardCpus (topology : NumaTopology) : Option (List (Nat × Nat)) :=
  let (acceptorCpus, availableCpus) := reserveCpus topology.nodes
  if availableCpus = [] then
    acceptorCpus.head?.bind fun cpuId =>
      topology.nodes.head?.map fun node => [(cpuId, node.nodeId)]
  else some availableCpus

/-- The placement for a topology and a configured number of shards. -/
def compute (topology : NumaTopology) (numShards : Option Nat) : Option ShardPlacement :=
  (shardCpus topology).map fun availableCpus =>
    let maxShards := availableCpus.length
    let targetShards := min (numShards.getD maxShards) maxShards
    { acceptorCpus := (reserveCpus topology.nodes).1
      shardAssignments := (availableCpus.take targetShards).mapIdx fun i cpu =>
        ⟨i % 2 ^ 16, cpu.1, cpu.2⟩ }

end ShardPlacement

namespace NumaTopology

/-- The machine has a CPU. -/
def HasCpu (topology : NumaTopology) : Prop := ∃ node ∈ topology.nodes, node.cpuIds ≠ []

instance (topology : NumaTopology) : Decidable topology.HasCpu := by
  unfold HasCpu
  infer_instance

/-- All CPUs. -/
def totalCpus (topology : NumaTopology) : Nat := (topology.nodes.map (·.cpuIds.length)).sum

/-- The nodes that have a CPU. -/
def peopledNodes (topology : NumaTopology) : Nat :=
  topology.nodes.countP fun node => node.cpuIds ≠ []

/-- How many shards the machine can run: as many as it has CPUs beyond the first of
each node, and one at least. -/
def usableCpus (topology : NumaTopology) : Nat :=
  max 1 (topology.totalCpus - topology.peopledNodes)

end NumaTopology

namespace ShardPlacement

open NumaTopology

/-! ### How many shards -/

/-- The loop reserves one CPU of each node that has one, and leaves all others. -/
theorem length_reserveCpus (nodes : List NumaNode) :
    (reserveCpus nodes).1.length = nodes.countP (fun node => node.cpuIds ≠ []) ∧
      (reserveCpus nodes).1.length + (reserveCpus nodes).2.length =
        (nodes.map (·.cpuIds.length)).sum := by
  induction nodes with
  | nil => exact ⟨rfl, rfl⟩
  | cons node nodes ih =>
      obtain ⟨hreserved, htotal⟩ := ih
      cases hcpus : node.cpuIds with
      | nil =>
          simp only [reserveCpus, hcpus, List.countP_cons, List.map_cons, List.sum_cons]
          simp [hreserved, ← htotal]
      | cons first rest =>
          simp only [reserveCpus, hcpus, List.countP_cons, List.map_cons, List.sum_cons,
            List.length_cons, List.length_append, List.length_map]
          refine ⟨?_, by omega⟩
          simp [hreserved]

/-- A machine with a CPU has one for the acceptor. -/
theorem reserveCpus_ne_nil {topology : NumaTopology} (h : topology.HasCpu) :
    (reserveCpus topology.nodes).1 ≠ [] := by
  intro hnil
  have hcount := (length_reserveCpus topology.nodes).1
  rw [hnil, List.length_nil] at hcount
  obtain ⟨node, hmem, hcpus⟩ := h
  have hnone := List.countP_eq_zero.mp hcount.symm node hmem
  simp [hcpus] at hnone

/-- **There are as many CPUs for shards as usable ones.** -/
theorem shardCpus_of_hasCpu {topology : NumaTopology} (h : topology.HasCpu) :
    ∃ cpus, shardCpus topology = some cpus ∧ cpus.length = topology.usableCpus := by
  obtain ⟨hreserved, htotal⟩ := length_reserveCpus topology.nodes
  have husable : topology.totalCpus - topology.peopledNodes =
      (reserveCpus topology.nodes).2.length := by
    unfold totalCpus peopledNodes
    rw [← htotal, ← hreserved]
    omega
  have hacceptor := reserveCpus_ne_nil h
  obtain ⟨node, hmem, -⟩ := h
  unfold shardCpus usableCpus
  simp only
  by_cases havailable : (reserveCpus topology.nodes).2 = []
  · -- The acceptor's CPU is shared.
    obtain ⟨cpuId, acceptorCpus, hcpu⟩ := List.exists_cons_of_ne_nil hacceptor
    obtain ⟨first, nodes, hnodes⟩ := List.exists_cons_of_ne_nil (List.ne_nil_of_mem hmem)
    refine ⟨[(cpuId, first.nodeId)], ?_, ?_⟩
    · rw [if_pos havailable, hcpu, hnodes]
      rfl
    · rw [husable, havailable]
      rfl
  · refine ⟨_, if_neg havailable, ?_⟩
    have hpos := List.length_pos_of_ne_nil havailable
    omega

/-- **How many shards a placement has**: as many as configured, cut to the usable
CPUs. -/
theorem compute_of_hasCpu {topology : NumaTopology} (h : topology.HasCpu)
    (numShards : Option Nat) :
    ∃ placement, compute topology numShards = some placement ∧ placement.acceptorCpus ≠ [] ∧
      placement.shardAssignments.length =
        min (numShards.getD topology.usableCpus) topology.usableCpus := by
  obtain ⟨cpus, hcpus, hlength⟩ := shardCpus_of_hasCpu h
  unfold compute
  rw [hcpus, Option.map_some]
  refine ⟨_, rfl, reserveCpus_ne_nil h, ?_⟩
  simp only [List.length_mapIdx, List.length_take, hlength]
  omega

/-! ### Placement and topology -/

/-- The acceptors have the first CPU of every node that has one. -/
theorem reserveCpus_fst (nodes : List NumaNode) :
    (reserveCpus nodes).1 = nodes.filterMap fun node => node.cpuIds.head? := by
  induction nodes with
  | nil => rfl
  | cons node nodes ih =>
      cases hcpus : node.cpuIds with
      | nil => simp [reserveCpus, hcpus, ih]
      | cons first rest => simp [reserveCpus, hcpus, ih]

/-- The shards have the other CPUs, each with its node. -/
theorem reserveCpus_snd (nodes : List NumaNode) :
    (reserveCpus nodes).2 =
      nodes.flatMap fun node => node.cpuIds.tail.map fun cpuId => (cpuId, node.nodeId) := by
  induction nodes with
  | nil => rfl
  | cons node nodes ih =>
      cases hcpus : node.cpuIds with
      | nil => simp [reserveCpus, hcpus, ih]
      | cons first rest => simp [reserveCpus, hcpus, ih]

/-- **No CPU is lost or doubled** between acceptors and shards. -/
theorem cpus_perm_reserveCpus (nodes : List NumaNode) :
    (nodes.flatMap (·.cpuIds)).Perm
      ((reserveCpus nodes).1 ++ (reserveCpus nodes).2.map Prod.fst) := by
  induction nodes with
  | nil => exact List.Perm.nil
  | cons node nodes ih =>
      rw [List.flatMap_cons]
      cases hcpus : node.cpuIds with
      | nil =>
          have hsame : reserveCpus (node :: nodes) = reserveCpus nodes := by
            rw [reserveCpus, hcpus]
          rw [hsame]
          exact ih
      | cons first rest =>
          have hcons : reserveCpus (node :: nodes) = (first :: (reserveCpus nodes).1,
              rest.map (fun cpuId => (cpuId, node.nodeId)) ++ (reserveCpus nodes).2) := by
            rw [reserveCpus, hcpus]
          have hrest : (rest.map fun cpuId => (cpuId, node.nodeId)).map Prod.fst = rest := by
            rw [List.map_map]
            exact List.map_id rest
          rw [hcons, List.map_append, hrest, List.cons_append, List.cons_append]
          -- The others of the node go behind the acceptors of the nodes that follow.
          have hbehind : (rest ++ nodes.flatMap (·.cpuIds)).Perm
              (rest ++ ((reserveCpus nodes).1 ++ (reserveCpus nodes).2.map Prod.fst)) :=
            ih.append_left rest
          have hswap : (rest ++ ((reserveCpus nodes).1 ++ (reserveCpus nodes).2.map Prod.fst)).Perm
              ((reserveCpus nodes).1 ++ (rest ++ (reserveCpus nodes).2.map Prod.fst)) := by
            rw [← List.append_assoc, ← List.append_assoc]
            exact List.perm_append_comm.append_right _
          exact (hbehind.trans hswap).cons first

/-- There is a CPU for shards alone exactly when some node has two. -/
theorem reserveCpus_snd_ne_nil {nodes : List NumaNode} :
    (reserveCpus nodes).2 ≠ [] ↔ ∃ node ∈ nodes, 2 ≤ node.cpuIds.length := by
  have htail : ∀ cpuIds : List Nat, cpuIds.tail ≠ [] ↔ 2 ≤ cpuIds.length := by
    intro cpuIds
    match cpuIds with
    | []               => simp
    | [cpuId]          => simp
    | cpuId :: _ :: _ => simp
  rw [reserveCpus_snd, Ne, List.flatMap_eq_nil_iff, not_forall]
  constructor
  · rintro ⟨node, hnode⟩
    obtain ⟨hmem, hne⟩ := Classical.not_imp.mp hnode
    exact ⟨node, hmem, (htail _).mp fun hnil => hne (by rw [hnil]; rfl)⟩
  · rintro ⟨node, hmem, hlength⟩
    refine ⟨node, fun hnil => (htail _).mpr hlength ?_⟩
    exact List.map_eq_nil_iff.mp (hnil hmem)

/-- What a placement owes the machine: an acceptor on one CPU of each node that has one,
shards numbered in order, each on a CPU of its own that is no acceptor's if there is
such a CPU, and of the node that is named. -/
structure Respects (topology : NumaTopology) (placement : ShardPlacement) : Prop where
  acceptors : placement.acceptorCpus = topology.nodes.filterMap fun node => node.cpuIds.head?
  shardIds : placement.shardAssignments.length < 2 ^ 16 →
    placement.shardAssignments.map (·.shardId) = List.range placement.shardAssignments.length
  distinct : (placement.shardAssignments.map (·.cpuId)).Nodup
  apart : (∃ node ∈ topology.nodes, ∃ cpuId ∈ node.cpuIds, cpuId ∉ placement.acceptorCpus) →
    ∀ a ∈ placement.shardAssignments, a.cpuId ∉ placement.acceptorCpus
  located : ∀ a ∈ placement.shardAssignments, ∃ node ∈ topology.nodes,
    node.nodeId = a.numaNode ∧ a.cpuId ∈ node.cpuIds

/-- The assignments of a list of CPUs. -/
def assign (cpus : List (Nat × Nat)) : List ShardAssignment :=
  cpus.mapIdx fun i cpu => ⟨i % 2 ^ 16, cpu.1, cpu.2⟩

/-- The numbers of the shards, while they fit 16 bits. -/
theorem shardIds_assign {cpus : List (Nat × Nat)} (h : cpus.length < 2 ^ 16) :
    (assign cpus).map (·.shardId) = List.range cpus.length := by
  apply List.ext_getElem
  · simp [assign]
  · intro i hi _
    have hlt : i < cpus.length := by simpa [assign] using hi
    simp only [assign, List.getElem_map, List.getElem_mapIdx, List.getElem_range]
    exact Nat.mod_eq_of_lt (by omega)

/-- The CPUs of the shards are those that were assigned. -/
theorem cpuIds_assign (cpus : List (Nat × Nat)) :
    (assign cpus).map (·.cpuId) = cpus.map Prod.fst := by
  apply List.ext_getElem
  · simp [assign]
  · intro i _ _
    simp [assign]

/-- An assignment is one of the CPUs with its node. -/
theorem mem_assign {cpus : List (Nat × Nat)} {a : ShardAssignment} (h : a ∈ assign cpus) :
    (a.cpuId, a.numaNode) ∈ cpus := by
  obtain ⟨i, hi, rfl⟩ := List.mem_mapIdx.mp h
  exact List.getElem_mem hi

/-- The first node that has a CPU, and that CPU, are the only ones with it. -/
theorem find?_of_mem {nodes : List NumaNode} (hdistinct : (nodes.flatMap (·.cpuIds)).Nodup)
    {node : NumaNode} {cpuId : Nat} (hmem : node ∈ nodes) (hcpu : cpuId ∈ node.cpuIds)
    (hfirst : (reserveCpus nodes).1.head? = some cpuId) :
    nodes.find? (fun node => node.cpuIds ≠ []) = some node := by
  induction nodes with
  | nil => cases hmem
  | cons front nodes ih =>
      rw [List.flatMap_cons] at hdistinct
      have hrest := (List.nodup_append.mp hdistinct).2.1
      rw [reserveCpus_fst] at hfirst
      cases hcpus : front.cpuIds with
      | nil =>
          -- The front node has no CPU, so the acceptor and the search pass it over.
          have hne : node ≠ front := by
            rintro rfl
            rw [hcpus] at hcpu
            cases hcpu
          rw [List.filterMap_cons, hcpus] at hfirst
          have hfound := ih hrest ((List.mem_cons.mp hmem).resolve_left hne)
            (by rw [reserveCpus_fst]; exact hfirst)
          rw [List.find?_cons_of_neg (by simp [hcpus])]
          exact hfound
      | cons first others =>
          rw [List.filterMap_cons, hcpus] at hfirst
          obtain rfl : first = cpuId := Option.some.inj hfirst
          rw [List.find?_cons_of_pos (by simp [hcpus])]
          rcases List.mem_cons.mp hmem with rfl | hlater
          · rfl
          · -- A later node does not have a CPU of this one.
            exact absurd rfl ((List.nodup_append.mp hdistinct).2.2 first (by rw [hcpus]; simp) first
              (List.mem_flatMap.mpr ⟨node, hlater, hcpu⟩))

/-- The node of the acceptor's first CPU. -/
theorem exists_first {topology : NumaTopology} (h : topology.HasCpu) :
    ∃ node ∈ topology.nodes, ∃ cpuId ∈ node.cpuIds,
      (reserveCpus topology.nodes).1.head? = some cpuId := by
  obtain ⟨cpuId, others, hcpu⟩ := List.exists_cons_of_ne_nil (reserveCpus_ne_nil h)
  have hmem : cpuId ∈ (reserveCpus topology.nodes).1 := by rw [hcpu]; exact List.mem_cons_self
  rw [reserveCpus_fst, List.mem_filterMap] at hmem
  obtain ⟨node, hnode, hhead⟩ := hmem
  exact ⟨node, hnode, cpuId, List.mem_of_mem_head? hhead, by rw [hcpu]; rfl⟩

/-- With CPUs for shards alone, a placement respects the machine. -/
theorem respects_of_available {topology : NumaTopology}
    (hdistinct : (topology.nodes.flatMap (·.cpuIds)).Nodup) (n : Nat) :
    Respects topology ⟨(reserveCpus topology.nodes).1,
      assign ((reserveCpus topology.nodes).2.take n)⟩ := by
  have hnodup := (cpus_perm_reserveCpus topology.nodes).nodup_iff.mp hdistinct
  obtain ⟨-, hshards, hdisjoint⟩ := List.nodup_append.mp hnodup
  have hmem : ∀ a ∈ assign ((reserveCpus topology.nodes).2.take n),
      (a.cpuId, a.numaNode) ∈ (reserveCpus topology.nodes).2 :=
    fun a ha => List.mem_of_mem_take (mem_assign ha)
  constructor
  · exact reserveCpus_fst topology.nodes
  · intro hlength
    have hcount : (assign ((reserveCpus topology.nodes).2.take n)).length =
        ((reserveCpus topology.nodes).2.take n).length := List.length_mapIdx
    rw [hcount] at hlength ⊢
    exact shardIds_assign hlength
  · show ((assign _).map _).Nodup
    rw [cpuIds_assign]
    exact hshards.sublist ((List.take_sublist n _).map Prod.fst)
  · -- No CPU is both an acceptor's and a shard's.
    intro _ a ha hacceptor
    exact hdisjoint a.cpuId hacceptor a.cpuId (List.mem_map.mpr ⟨_, hmem a ha, rfl⟩) rfl
  · intro a ha
    -- A CPU is paired with the node whose list it came from.
    have hcpu := hmem a ha
    rw [reserveCpus_snd, List.mem_flatMap] at hcpu
    obtain ⟨node, hnode, hpair⟩ := hcpu
    obtain ⟨cpuId, hrest, heq⟩ := List.mem_map.mp hpair
    obtain ⟨hcpuId, hnodeId⟩ := Prod.mk.inj heq
    exact ⟨node, hnode, hnodeId, by rw [← hcpuId]; exact List.mem_of_mem_tail hrest⟩

/-- **Where a CPU is shared**, the placement respects the machine exactly when it has no
shard or the first node, which it names, is the one that has the CPU. -/
theorem respects_shared_iff {topology : NumaTopology}
    (hdistinct : (topology.nodes.flatMap (·.cpuIds)).Nodup)
    (hnone : (reserveCpus topology.nodes).2 = []) {node : NumaNode} {cpuId : Nat}
    (hmem : node ∈ topology.nodes) (hcpu : cpuId ∈ node.cpuIds)
    (hfirst : (reserveCpus topology.nodes).1.head? = some cpuId) (nodeId n : Nat) :
    Respects topology ⟨(reserveCpus topology.nodes).1, assign ([(cpuId, nodeId)].take n)⟩ ↔
      n = 0 ∨ node.nodeId = nodeId := by
  have hall : ∀ node ∈ topology.nodes, ∀ cpuId ∈ node.cpuIds,
      cpuId ∈ (reserveCpus topology.nodes).1 := by
    intro node hnode cpuId hcpuId
    have hperm := (cpus_perm_reserveCpus topology.nodes).mem_iff.mp
      (List.mem_flatMap.mpr ⟨node, hnode, hcpuId⟩)
    rwa [hnone, List.map_nil, List.append_nil] at hperm
  constructor
  · intro h
    cases n with
    | zero => exact Or.inl rfl
    | succ n =>
        right
        obtain ⟨node', hnode', hid, hcpu'⟩ := h.located ⟨0, cpuId, nodeId⟩ (by simp [assign])
        -- Only one node has the CPU.
        have hfound := find?_of_mem hdistinct hmem hcpu hfirst
        have hfound' := find?_of_mem hdistinct hnode' hcpu' hfirst
        obtain rfl : node' = node := Option.some.inj (hfound'.symm.trans hfound)
        exact hid
  · intro h
    have hshort : ([(cpuId, nodeId)].take n).length ≤ 1 := by
      rw [List.length_take]
      exact Nat.min_le_right _ _
    have hcount : (assign ([(cpuId, nodeId)].take n)).length = ([(cpuId, nodeId)].take n).length :=
      List.length_mapIdx
    constructor
    · exact reserveCpus_fst topology.nodes
    · intro _
      rw [hcount]
      exact shardIds_assign (by omega)
    · show ((assign _).map _).Nodup
      rw [cpuIds_assign]
      exact (List.nodup_singleton cpuId).sublist
        (((List.take_sublist n [(cpuId, nodeId)]).map Prod.fst))
    · -- There is no other CPU, so sharing is allowed.
      rintro ⟨node, hnode, cpuId, hcpuId, hfree⟩
      exact absurd (hall node hnode cpuId hcpuId) hfree
    · intro a ha
      rcases h with rfl | hid
      · cases ha
      · have hpair := List.mem_singleton.mp (List.mem_of_mem_take (mem_assign ha))
        cases hpair
        exact ⟨node, hmem, hid, hcpu⟩

/-- **When a placement respects the machine**: always where a node has two CPUs. Else it
shares the acceptor's first CPU, and names the first node for it; this is right when
the first node that has a CPU bears that name, and does not matter when no shard is
asked for. -/
theorem compute_respects_iff {topology : NumaTopology} (h : topology.HasCpu)
    (hdistinct : (topology.nodes.flatMap (·.cpuIds)).Nodup) (numShards : Option Nat) :
    ∃ placement, compute topology numShards = some placement ∧
      (Respects topology placement ↔
        numShards = some 0 ∨ (∃ node ∈ topology.nodes, 2 ≤ node.cpuIds.length) ∨
        (topology.nodes.find? fun node => node.cpuIds ≠ []).map (·.nodeId) =
          topology.nodes.head?.map (·.nodeId)) := by
  by_cases hnone : (reserveCpus topology.nodes).2 = []
  · -- The fallback: the acceptor's first CPU, with the node at the front of the list.
    obtain ⟨node, hmem, cpuId, hcpu, hfirst⟩ := exists_first h
    obtain ⟨front, nodes, hnodes⟩ := List.exists_cons_of_ne_nil (List.ne_nil_of_mem hmem)
    have hhead : topology.nodes.head? = some front := by rw [hnodes]; rfl
    have hshared : shardCpus topology = some [(cpuId, front.nodeId)] := by
      unfold shardCpus
      simp only [if_pos hnone, hfirst, hhead]
      rfl
    refine ⟨_, by rw [compute, hshared]; rfl, ?_⟩
    have hiff := respects_shared_iff hdistinct hnone hmem hcpu hfirst front.nodeId
      (min (numShards.getD 1) 1)
    have hsingle : ¬ ∃ node ∈ topology.nodes, 2 ≤ node.cpuIds.length :=
      fun htwo => reserveCpus_snd_ne_nil.mpr htwo hnone
    -- Of one CPU there is no shard only if none is asked for.
    have hzero : min (numShards.getD 1) 1 = 0 ↔ numShards = some 0 := by
      cases numShards with
      | none => simp
      | some n => simp
    rw [find?_of_mem hdistinct hmem hcpu hfirst, hhead]
    simp only [Option.map_some, Option.some.injEq]
    rw [← hzero]
    exact hiff.trans (or_congr_right (by simp only [hsingle, false_or]))
  · have hsome : shardCpus topology = some (reserveCpus topology.nodes).2 := by
      unfold shardCpus
      simp only [if_neg hnone]
    refine ⟨_, by rw [compute, hsome]; rfl, ?_⟩
    refine iff_of_true (respects_of_available hdistinct _) ?_
    exact Or.inr (Or.inl (reserveCpus_snd_ne_nil.mp hnone))

/-- A node of memory only, and one with the machine's only CPU: the shard is placed on
CPU 0 of node 0, which has none. -/
theorem shared_cpu_misplaced :
    ¬ ∀ (topology : NumaTopology) (numShards : Option Nat), topology.HasCpu →
      (topology.nodes.flatMap (·.cpuIds)).Nodup →
      ∃ placement, compute topology numShards = some placement ∧ Respects topology placement := by
  intro hclaim
  obtain ⟨placement, hcompute, hrespects⟩ :=
    hclaim ⟨[⟨0, []⟩, ⟨1, [0]⟩]⟩ none (by decide) (by decide)
  have hplaced : compute ⟨[⟨0, []⟩, ⟨1, [0]⟩]⟩ none = some ⟨[0], [⟨0, 0, 0⟩]⟩ := rfl
  rw [hplaced] at hcompute
  cases hcompute
  have hlocated := hrespects.located ⟨0, 0, 0⟩ (by decide)
  revert hlocated
  decide

/-- Two nodes with one CPU each: the shard shares the first one's. -/
theorem compute_respects_iff_twoNodes :
    ∃ placement, compute ⟨[⟨0, [3]⟩, ⟨1, [4]⟩]⟩ none = some placement ∧
      Respects ⟨[⟨0, [3]⟩, ⟨1, [4]⟩]⟩ placement := by
  obtain ⟨placement, hcompute, hiff⟩ := compute_respects_iff
    (show NumaTopology.HasCpu ⟨[⟨0, [3]⟩, ⟨1, [4]⟩]⟩ by decide) (by decide) none
  exact ⟨placement, hcompute, hiff.mpr (by decide)⟩

end ShardPlacement

end WalServer.Numa
