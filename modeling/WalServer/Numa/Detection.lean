import WalServer.Lib.ByKey
import WalServer.Lib.Decimal
import WalServer.Lib.Runs
import WalServer.Numa.Placement

/-!
# `WalServer.Numa.Detection`: the nodes of the machine

`numa/detection.rs` reads the nodes from the directory that the kernel keeps of them: an
entry `node` with a number for each node, among others, and in each the list of its CPUs in
a file `cpulist`. The list has the numbers of the CPUs in runs, as in `0-3,5,7-9`.

`parseCpulist` reads what is between commas part by part, so that a part it cannot read
spoils no other (`parseCpulist_append`). What it reads of a list that the kernel writes are
the CPUs (`parseCpulist_formatCpus`). `detect_machine` is the result for the directory: in
whatever order its entries come, and whatever else is there, the topology is that of the
machine.
-/

set_option autoImplicit false

namespace WalServer.Numa

open WalServer.Lib

/-- What a `usize` can hold is below this. -/
def usizeBound : Nat := 2 ^ 64

/-- The CPUs of a part between commas. -/
def parseCpuPart (part : Text) : List Nat :=
  let part := trim part
  if part = [] then []
  else
    match splitOnce '-' part with
    | some (startStr, endStr) =>
        match parseUnsigned usizeBound startStr, parseUnsigned usizeBound endStr with
        | some start, some stop => inclusiveRange start stop
        | _, _                  => []
    | none =>
        match parseUnsigned usizeBound part with
        | some cpu => [cpu]
        | none     => []

/-- The CPUs of a list like `0-3,5,7-9`. -/
def parseCpulist (s : Text) : List Nat := (s.splitOn ',').flatMap parseCpuPart

/-- The file with the CPUs of a node: there may be none, or one that cannot be read. -/
inductive CpulistFile where
  | absent
  | unreadable
  | text (s : Text)
deriving DecidableEq, Repr

/-- The number of the node that an entry of the directory stands for. -/
def nodeIdOf (name : Text) : Option Nat :=
  (name.dropPrefix? ['n', 'o', 'd', 'e']).bind (parseUnsigned usizeBound)

namespace NumaTopology

/-- One node with all CPUs, of which there is one if their number is not known. -/
def singleNodeFallback (availableParallelism : Option {n : Nat // 0 < n}) : NumaTopology where
  nodes := [⟨0, List.range (availableParallelism.elim 1 Subtype.val)⟩]

/-- The loop over the entries of the directory; `none` if a file cannot be read. -/
def detectNodes : List (Text × CpulistFile) → Option (List NumaNode)
  | []                   => some []
  | (name, file) :: rest =>
      match nodeIdOf name with
      | none        => detectNodes rest
      | some nodeId =>
          match file with
          | .absent     => detectNodes rest
          | .unreadable => none
          | .text s     => (detectNodes rest).map (⟨nodeId, parseCpulist (trim s)⟩ :: ·)

/-- The topology that the kernel's directory describes, if there is one. -/
def detect (nodeDir : Option (List (Text × CpulistFile)))
    (availableParallelism : Option {n : Nat // 0 < n}) : Option NumaTopology :=
  match nodeDir with
  | none         => some (singleNodeFallback availableParallelism)
  | some entries =>
      (detectNodes entries).map fun found =>
        let nodes := found.insertionSort fun a b => a.nodeId ≤ b.nodeId
        if nodes = [] then singleNodeFallback availableParallelism else ⟨nodes⟩

/-- The topology that the server goes by. -/
def ofMachine (numaAware : Bool) (nodeDir : Option (List (Text × CpulistFile)))
    (availableParallelism : Option {n : Nat // 0 < n}) : NumaTopology :=
  if numaAware then
    (detect nodeDir availableParallelism).getD (singleNodeFallback availableParallelism)
  else singleNodeFallback availableParallelism

end NumaTopology

/-! ### Lists of CPUs -/

/-- **The parts of a list are read one by one.** -/
theorem parseCpulist_append (s t : Text) :
    parseCpulist (s ++ ',' :: t) = parseCpulist s ++ parseCpulist t := by
  unfold parseCpulist
  rw [List.splitOn_append_cons_of_beq _ _ (beq_self_eq_true ','), List.flatMap_append]

/-- A run of CPUs as the kernel writes it. -/
def formatRun (r : Nat × Nat) : Text :=
  if r.1 = r.2 then Nat.toDigits 10 r.1
  else Nat.toDigits 10 r.1 ++ '-' :: Nat.toDigits 10 r.2

/-- Runs with commas between them. -/
def formatRuns : List (Nat × Nat) → Text
  | []               => []
  | [r]              => formatRun r
  | r :: next :: rest => formatRun r ++ ',' :: formatRuns (next :: rest)

/-- The list of some CPUs as the kernel writes it. -/
def formatCpus (cpus : List Nat) : Text := formatRuns (runs cpus)

/-- A number is written in digits. -/
theorem isDigit_of_mem_toDigits {n : Nat} {c : Char} (h : c ∈ Nat.toDigits 10 n) :
    c.isDigit = true :=
  Nat.isDigit_of_mem_toDigits (by decide) (by decide) h

/-- What the list of a run consists of. -/
theorem mem_formatRun {r : Nat × Nat} {c : Char} (h : c ∈ formatRun r) :
    c.isDigit = true ∨ c = '-' := by
  unfold formatRun at h
  split at h
  · exact Or.inl (isDigit_of_mem_toDigits h)
  · rcases List.mem_append.mp h with h | h
    · exact Or.inl (isDigit_of_mem_toDigits h)
    · rcases List.mem_cons.mp h with rfl | h
      · exact Or.inr rfl
      · exact Or.inl (isDigit_of_mem_toDigits h)

/-- There is no white space in a run, and it is cut nowhere. -/
theorem formatRun_plain {r : Nat × Nat} :
    (∀ c ∈ formatRun r, isWhitespace c = false) ∧ ',' ∉ formatRun r ∧ formatRun r ≠ [] := by
  refine ⟨fun c hc => ?_, fun hc => ?_, ?_⟩
  · rcases mem_formatRun hc with hdigit | rfl
    · exact isWhitespace_of_isDigit hdigit
    · decide
  · rcases mem_formatRun hc with hdigit | hdash
    · exact absurd hdigit (by decide)
    · exact absurd hdash (by decide)
  · unfold formatRun
    split
    · exact Nat.toDigits_ne_nil
    · exact List.append_ne_nil_of_left_ne_nil Nat.toDigits_ne_nil _

/-- **A run is read back.** -/
theorem parseCpulist_formatRun {r : Nat × Nat} (hfirst : r.1 < usizeBound)
    (hlast : r.2 < usizeBound) : parseCpulist (formatRun r) = inclusiveRange r.1 r.2 := by
  obtain ⟨hplain, hcomma, hne⟩ := @formatRun_plain r
  have htrim : trim (formatRun r) = formatRun r := by
    have h := trim_append hplain (fun c hc => nomatch hc : ∀ c ∈ [], isWhitespace c = true)
    rwa [List.append_nil] at h
  have hdash : ∀ n : Nat, '-' ∉ Nat.toDigits 10 n :=
    fun n h => absurd (isDigit_of_mem_toDigits h) (by decide)
  rw [parseCpulist, List.splitOn_eq_singleton hcomma, List.flatMap_singleton, parseCpuPart,
    htrim, if_neg hne]
  unfold formatRun
  by_cases heq : r.1 = r.2
  · rw [if_pos heq, splitOnce_of_notMem (hdash r.1)]
    simp only [parseUnsigned_toDigits hfirst]
    rw [← heq, inclusiveRange_self]
  · rw [if_neg heq, splitOnce_append (hdash r.1)]
    simp only [parseUnsigned_toDigits hfirst, parseUnsigned_toDigits hlast]

/-- Runs are read back. -/
theorem parseCpulist_formatRuns {ranges : List (Nat × Nat)}
    (h : ∀ r ∈ ranges, r.1 < usizeBound ∧ r.2 < usizeBound) :
    parseCpulist (formatRuns ranges) = expand ranges := by
  induction ranges with
  | nil => decide
  | cons r rest ih =>
      have hr := h r List.mem_cons_self
      have hrest := ih fun q hq => h q (List.mem_cons_of_mem r hq)
      cases rest with
      | nil =>
          rw [formatRuns, parseCpulist_formatRun hr.1 hr.2, expand, List.flatMap_singleton]
      | cons next rest =>
          rw [formatRuns, parseCpulist_append, parseCpulist_formatRun hr.1 hr.2, hrest]
          rfl

/-- There is no white space in a list. -/
theorem formatRuns_plain (ranges : List (Nat × Nat)) :
    ∀ c ∈ formatRuns ranges, isWhitespace c = false := by
  induction ranges with
  | nil => exact fun c hc => nomatch hc
  | cons r rest ih =>
      cases rest with
      | nil => exact formatRun_plain.1
      | cons next rest =>
          intro c hc
          rw [formatRuns] at hc
          rcases List.mem_append.mp hc with hc | hc
          · exact formatRun_plain.1 c hc
          · rcases List.mem_cons.mp hc with rfl | hc
            · decide
            · exact ih c hc

/-- **The kernel's list is read back**, with the line break behind it. -/
theorem parseCpulist_formatCpus {cpus : List Nat} (h : ∀ cpu ∈ cpus, cpu < usizeBound) :
    parseCpulist (trim (formatCpus cpus ++ ['\n'])) = cpus := by
  rw [formatCpus, trim_append (formatRuns_plain _) (List.forall_mem_singleton.mpr (by decide)),
    parseCpulist_formatRuns, expand_runs]
  intro r hr
  obtain ⟨hfirst, hlast⟩ := mem_of_mem_runs hr
  exact ⟨h _ hfirst, h _ hlast⟩

/-! ### The directory of the nodes -/

namespace NumaTopology

/-- The entry of a node in the kernel's directory. -/
def entryOf (node : NumaNode) : Text × CpulistFile :=
  (['n', 'o', 'd', 'e'] ++ Nat.toDigits 10 node.nodeId, .text (formatCpus node.cpuIds ++ ['\n']))

/-- The node that an entry describes, if it describes one. -/
def nodeOf (entry : Text × CpulistFile) : Option NumaNode :=
  match nodeIdOf entry.1, entry.2 with
  | some nodeId, .text s => some ⟨nodeId, parseCpulist (trim s)⟩
  | _, _                 => none

/-- An entry that describes no node: another name, or no list of CPUs. -/
def DescribesNone (entry : Text × CpulistFile) : Prop :=
  nodeIdOf entry.1 = none ∨ entry.2 = .absent

instance (entry : Text × CpulistFile) : Decidable (DescribesNone entry) := by
  unfold DescribesNone
  infer_instance

/-- The loop finds the nodes that the entries describe, if all their lists can be read. -/
theorem detectNodes_eq {entries : List (Text × CpulistFile)}
    (h : ∀ entry ∈ entries, nodeIdOf entry.1 ≠ none → entry.2 ≠ .unreadable) :
    detectNodes entries = some (entries.filterMap nodeOf) := by
  induction entries with
  | nil => rfl
  | cons entry rest ih =>
      obtain ⟨name, file⟩ := entry
      have hrest := ih fun e he => h e (List.mem_cons_of_mem _ he)
      have hfile := h (name, file) List.mem_cons_self
      rw [detectNodes, List.filterMap_cons, hrest, nodeOf]
      cases hid : nodeIdOf name with
      | none => rfl
      | some nodeId =>
          cases file with
          | absent => rfl
          | unreadable => exact absurd rfl (hfile (by rw [hid]; exact Option.some_ne_none nodeId))
          | text s => rfl

/-- The name of a node is read back. -/
theorem nodeIdOf_entryOf {node : NumaNode} (h : node.nodeId < usizeBound) :
    nodeIdOf (entryOf node).1 = some node.nodeId := by
  have hprefix : (entryOf node).1.dropPrefix? ['n', 'o', 'd', 'e'] =
      some (Nat.toDigits 10 node.nodeId) :=
    List.dropPrefix?_eq_some_iff.mpr ⟨_, rfl, beq_self_eq_true _⟩
  rw [nodeIdOf, hprefix, Option.bind_some, parseUnsigned_toDigits h]

/-- A node is read back from its entry. -/
theorem nodeOf_entryOf {node : NumaNode} (hid : node.nodeId < usizeBound)
    (hcpus : ∀ cpu ∈ node.cpuIds, cpu < usizeBound) : nodeOf (entryOf node) = some node := by
  unfold nodeOf
  rw [nodeIdOf_entryOf hid]
  show some (NumaNode.mk node.nodeId
    (parseCpulist (trim (formatCpus node.cpuIds ++ ['\n'])))) = some node
  rw [parseCpulist_formatCpus hcpus]

/-- **The topology is that of the machine.** The directory has the entries of the machine's
nodes and others, in any order. -/
theorem detect_machine {nodes : List NumaNode} (hne : nodes ≠ [])
    (hsorted : nodes.Pairwise fun a b => a.nodeId < b.nodeId)
    (hids : ∀ node ∈ nodes, node.nodeId < usizeBound)
    (hcpus : ∀ node ∈ nodes, ∀ cpu ∈ node.cpuIds, cpu < usizeBound)
    {entries others : List (Text × CpulistFile)} (hothers : ∀ entry ∈ others, DescribesNone entry)
    (hentries : entries.Perm (nodes.map entryOf ++ others))
    (availableParallelism : Option {n : Nat // 0 < n}) :
    ofMachine true (some entries) availableParallelism = ⟨nodes⟩ := by
  have hreadable : ∀ entry ∈ entries, nodeIdOf entry.1 ≠ none → entry.2 ≠ .unreadable := by
    intro entry hentry hnode
    rcases List.mem_append.mp (hentries.mem_iff.mp hentry) with hmem | hmem
    · obtain ⟨node, -, rfl⟩ := List.mem_map.mp hmem
      exact CpulistFile.noConfusion
    · rcases hothers entry hmem with hname | habsent
      · exact absurd hname hnode
      · rw [habsent]
        exact CpulistFile.noConfusion
  have hnone : others.filterMap nodeOf = [] := by
    rw [List.filterMap_eq_nil_iff]
    intro entry hentry
    unfold nodeOf
    rcases hothers entry hentry with hname | habsent
    · rw [hname]
    · rw [habsent]
      cases nodeIdOf entry.1 <;> rfl
  have hmachine : (nodes.map entryOf).filterMap nodeOf = nodes := by
    rw [List.filterMap_map]
    conv => rhs; rw [← List.filterMap_some (l := nodes)]
    exact List.filterMap_congr fun node hnode =>
      nodeOf_entryOf (hids node hnode) (hcpus node hnode)
  have hfound : (entries.filterMap nodeOf).Perm nodes := by
    have h := hentries.filterMap nodeOf
    rwa [List.filterMap_append, hmachine, hnone, List.append_nil] at h
  rw [ofMachine, if_pos rfl, detect, detectNodes_eq hreadable]
  simp only [Option.map_some, insertionSort_eq_of_perm NumaNode.nodeId hfound hsorted, if_neg hne,
    Option.getD_some]

/-- The entries come with the second node first, and beside a file and a node without a
list of CPUs. -/
theorem detect_machine_twoNodes :
    ofMachine true (some [(['o', 'n', 'l', 'i', 'n', 'e'], .text ['0', '-', '7']),
        (['n', 'o', 'd', 'e', '1'], .text ['4', ',', '6', '-', '7', '\n']),
        (['n', 'o', 'd', 'e', '2'], .absent),
        (['n', 'o', 'd', 'e', '0'], .text ['0', '-', '3', '\n'])]) none =
      ⟨[⟨0, [0, 1, 2, 3]⟩, ⟨1, [4, 6, 7]⟩]⟩ :=
  detect_machine (by decide) (by decide) (by decide) (by decide)
    (show ∀ entry ∈ [(['o', 'n', 'l', 'i', 'n', 'e'], CpulistFile.text ['0', '-', '7']),
      (['n', 'o', 'd', 'e', '2'], .absent)], DescribesNone entry by decide +kernel)
    (by decide +kernel) none

end NumaTopology

end WalServer.Numa
