import WalServer.Shard.Steps

/-!
# `WalServer.Shard.Delivery`: which committed entries the state machine sees

One process of the engine: client requests, cycles of the raft node, the end of
loop iterations and garbage collections in any order, with the raft node's role
and counters changing as they like in between. The raft node delivers each
committed entry once and in index order, part of them in `Ready` and part in the
`LightReady` that `advance` returns.

What is meant to hold is `AppliesEach`: the commands handed to
`apply_append_entry` are those of the delivered normal entries with data, all of
them and in order. `drive_ready` reads the first part only, so this holds exactly
of the processes whose light readies carry no such entry
(`appliesEach_iff_noLightCommand`); a group with a single voter commits every
entry in `advance` and applies nothing (`light_entry_not_applied`).
-/

set_option autoImplicit false

namespace WalServer.Shard

open WalServer.Lib WalServer.Protocol WalServer.Raft WalServer.Wal

/-- What happens to an engine within a process. -/
inductive ProcessAction where
  /-- A client request is handled. -/
  | request (req : ShardRequest)
  /-- The raft node steps messages, ticks, campaigns. -/
  | raft (state : StateRole) (leaderId committed : Nat) (accepting : Bool)
  /-- The raft node has something ready. -/
  | cycle (clock : Clock) (ready : Ready) (advanced : Advanced)
  /-- A loop iteration ends. -/
  | observe
  /-- Garbage is collected. -/
  | gc

namespace ProcessAction

/-- The entries a cycle delivers in `Ready`. -/
def inReady : ProcessAction → List LogEntry
  | .cycle _ ready _ => ready.committedEntries
  | _                => []

/-- The entries a cycle delivers in `LightReady`. -/
def inLight : ProcessAction → List LogEntry
  | .cycle _ _ advanced => advanced.light.committedEntries
  | _                   => []

/-- The condition on a cycle: its light ready carries no command. -/
def NoLightCommand (a : ProcessAction) : Prop :=
  ∀ entry ∈ a.inLight, ¬ ShardEngine.isCommand entry

instance (a : ProcessAction) : Decidable a.NoLightCommand :=
  inferInstanceAs (Decidable (∀ entry ∈ a.inLight, ¬ ShardEngine.isCommand entry))

end ProcessAction

/-- The committed entries delivered in a process, in order. -/
def delivered (actions : List ProcessAction) : List LogEntry :=
  actions.flatMap fun a => a.inReady ++ a.inLight

namespace ShardEngine

variable (hash : Bytes → UInt32)

/-- One action of a process. -/
def perform (e : ShardEngine) : ProcessAction → Outcome EngineError ShardEngine
  | .request req => e.handleClientRequest hash req
  | .raft state leaderId committed accepting =>
      .ok { e with raft := { e.raft with
        state := state, leaderId := leaderId, committed := committed, accepting := accepting } }
  | .cycle clock ready advanced => e.driveReady hash clock ready advanced
  | .observe => .ok e.logRaftStateIfChanged
  | .gc => .ok e.runGc

/-- A process, up to now. -/
def runProcess : List ProcessAction → ShardEngine → Outcome EngineError ShardEngine
  | [],            e => .ok e
  | a :: rest, e => (e.perform hash a).bind (runProcess rest)

variable {hash : Bytes → UInt32}

/-- **What is meant to hold**: from the first engine to the second, exactly the
commands among the entries were handed on, each once, in increasing index. -/
def AppliesEach (e e' : ShardEngine) (entries : List LogEntry) : Prop :=
  ∃ new, e'.handed = e.handed ++ new ∧
    new.map handedOf = (entries.filter isCommand).map dueOf ∧
    new.Pairwise fun a b => a.index < b.index

/-! ### Who hands entries on -/

/-- No client request hands an entry on. -/
theorem handed_handleClientRequest {e e' : ShardEngine} {req : ShardRequest}
    (h : e.handleClientRequest hash req = .ok e') : e'.handed = e.handed := by
  obtain ⟨walReader, responses, proposals, rfl⟩ := handleClientRequest_eq_ok h
  rfl

/-- Collecting garbage hands nothing on. -/
theorem handed_runGc (e : ShardEngine) : e.runGc.handed = e.handed := by
  obtain ⟨walReader, heq⟩ := e.runGc_eq
  rw [heq]

/-- What one action hands on: the commands it delivers in `Ready`. -/
theorem perform_eq_ok {e e' : ShardEngine} {a : ProcessAction}
    (h : e.perform hash a = .ok e') :
    ∃ new, e'.handed = e.handed ++ new ∧
      new.map handedOf = (a.inReady.filter isCommand).map dueOf := by
  cases a with
  | request req => exact ⟨[], by rw [handed_handleClientRequest h, List.append_nil], rfl⟩
  | raft state leaderId committed accepting =>
      cases h
      exact ⟨[], (List.append_nil _).symm, rfl⟩
  | cycle clock ready advanced => exact (driveReady_eq_ok h).1
  | observe =>
      cases h
      exact ⟨[], (List.append_nil _).symm, rfl⟩
  | gc =>
      cases h
      exact ⟨[], by rw [handed_runGc, List.append_nil], rfl⟩

/-- **What a process hands on**: the commands delivered in its `Ready`s. -/
theorem runProcess_eq_ok {actions : List ProcessAction} {e e' : ShardEngine}
    (h : runProcess hash actions e = .ok e') :
    ∃ new, e'.handed = e.handed ++ new ∧
      new.map handedOf =
        ((actions.flatMap ProcessAction.inReady).filter isCommand).map dueOf := by
  induction actions generalizing e with
  | nil =>
      cases h
      exact ⟨[], (List.append_nil _).symm, rfl⟩
  | cons a rest ih =>
      obtain ⟨e₁, hfirst, hrest⟩ := Outcome.bind_eq_ok.mp h
      obtain ⟨new₁, hnew₁, hdue₁⟩ := perform_eq_ok hfirst
      obtain ⟨new₂, hnew₂, hdue₂⟩ := ih hrest
      refine ⟨new₁ ++ new₂, ?_, ?_⟩
      · rw [hnew₂, hnew₁, List.append_assoc]
      · rw [List.map_append, hdue₁, hdue₂, List.flatMap_cons, List.filter_append,
          List.map_append]

/-! ### Exactly when nothing is missed -/

/-- The delivered commands are those in `Ready` and those in `LightReady`. -/
theorem length_filter_delivered (actions : List ProcessAction) :
    ((delivered actions).filter isCommand).length =
      ((actions.flatMap ProcessAction.inReady).filter isCommand).length +
        ((actions.flatMap ProcessAction.inLight).filter isCommand).length := by
  unfold delivered
  induction actions with
  | nil => rfl
  | cons a rest ih =>
      simp only [List.flatMap_cons, List.filter_append, List.length_append, ih]
      omega

/-- Without commands in light readies, the commands are those in `Ready`. -/
theorem filter_delivered {actions : List ProcessAction}
    (h : ∀ a ∈ actions, a.NoLightCommand) :
    (delivered actions).filter isCommand =
      (actions.flatMap ProcessAction.inReady).filter isCommand := by
  unfold delivered
  induction actions with
  | nil => rfl
  | cons a rest ih =>
      have hnone : a.inLight.filter isCommand = [] :=
        List.filter_eq_nil_iff.mpr (h a List.mem_cons_self)
      simp only [List.flatMap_cons, List.filter_append, hnone, List.append_nil,
        ih fun a' ha' => h a' (List.mem_cons_of_mem a ha')]

/-- Entries handed on have the indexes of the entries they come from. -/
theorem pairwise_of_map_handedOf {new : List HandedEntry} {entries : List LogEntry}
    (h : new.map handedOf = entries.map dueOf)
    (horder : entries.Pairwise fun a b => a.index < b.index) :
    new.Pairwise fun a b => a.index < b.index := by
  have hindexes : new.map HandedEntry.index = entries.map LogEntry.index := by
    have hfst := congrArg (List.map Prod.fst) h
    rwa [List.map_map, List.map_map] at hfst
  rw [← List.pairwise_map (R := fun a b : Nat => a < b), hindexes, List.pairwise_map]
  exact horder

/-- **Exactly the processes whose light readies carry no command** apply every
committed command once and in order. Raft delivers in index order. -/
theorem appliesEach_iff_noLightCommand {actions : List ProcessAction} {e e' : ShardEngine}
    (horder : (delivered actions).Pairwise fun a b => a.index < b.index)
    (hrun : runProcess hash actions e = .ok e') :
    AppliesEach e e' (delivered actions) ↔ ∀ a ∈ actions, a.NoLightCommand := by
  obtain ⟨new, hnew, hdue⟩ := runProcess_eq_ok hrun
  constructor
  · rintro ⟨new', hnew', hdue', -⟩ a ha entry hentry hcommand
    -- Both accounts of what was handed on have the same length, so none is missing.
    have hsame : new' = new := List.append_cancel_left (hnew'.symm.trans hnew)
    have hlength := congrArg List.length (hdue'.symm.trans (hsame ▸ hdue))
    rw [List.length_map, List.length_map, length_filter_delivered] at hlength
    have hnone := List.eq_nil_of_length_eq_zero (by omega :
      ((actions.flatMap ProcessAction.inLight).filter isCommand).length = 0)
    exact List.filter_eq_nil_iff.mp hnone entry (List.mem_flatMap.mpr ⟨a, ha, hentry⟩) hcommand
  · intro hlight
    rw [← filter_delivered hlight] at hdue
    exact ⟨new, hnew, hdue, pairwise_of_map_handedOf hdue (horder.sublist List.filter_sublist)⟩

/-- A node that starts on an empty directory in a group of the given voters. -/
def freshNode (voters : List Nat) : Outcome EngineError ShardEngine :=
  openEngine crc32 1 ⟨1, 4096, 8, voters⟩ none .empty 0

/-- The command of a client's first write, as it lies in the raft log. -/
def firstCommand : LogEntry :=
  ⟨.entryNormal, 2, 3, encodeAppendCommand ⟨1, 7, 1, 0, [42]⟩⟩

/-- The entry a leader of term 2 creates on coming into office. -/
def electionEntry : LogEntry := ⟨.entryNormal, 2, 2, []⟩

/-- The entry a fresh storage starts with. -/
def startEntry : LogEntry := ⟨.entryNormal, 1, 1, []⟩

/-- A process of a leader with two followers: the entries are stored in one cycle
and committed in a later one. -/
def quorumProcess : List ProcessAction :=
  [.raft .leader 1 1 true,
    .cycle ⟨id, id⟩ { Ready.empty with
      hs := some ⟨2, 1, 1⟩, entries := [electionEntry], committedEntries := [startEntry] }
      ⟨⟨none, [], []⟩, 1, 1⟩,
    .request ⟨5, ⟨.write, 7, 1, 0, [42]⟩⟩,
    .cycle ⟨id, id⟩ { Ready.empty with entries := [firstCommand] } ⟨⟨none, [], []⟩, 1, 1⟩,
    .cycle ⟨id, id⟩ { Ready.empty with
      hs := some ⟨2, 1, 3⟩, committedEntries := [electionEntry, firstCommand] }
      ⟨⟨none, [], []⟩, 3, 3⟩]

/-- The process of a single voter, which commits in `advance` what it has stored. -/
def singleVoterProcess : List ProcessAction :=
  [.raft .leader 1 1 true,
    .cycle ⟨id, id⟩ { Ready.empty with
      hs := some ⟨2, 1, 1⟩, entries := [electionEntry], committedEntries := [startEntry] }
      ⟨⟨some 2, [electionEntry], []⟩, 2, 1⟩,
    .request ⟨5, ⟨.write, 7, 1, 0, [42]⟩⟩,
    .cycle ⟨id, id⟩ { Ready.empty with entries := [firstCommand] }
      ⟨⟨some 3, [firstCommand], []⟩, 3, 2⟩]

instance (actions : List ProcessAction) :
    Decidable ((delivered actions).Pairwise fun a b => a.index < b.index) :=
  List.instDecidablePairwise _

/-- In a group with a quorum of several nodes the write is applied. -/
theorem appliesEach_quorumProcess :
    ∃ e e', freshNode [1, 2, 3] = .ok e ∧ runProcess crc32 quorumProcess e = .ok e' ∧
      e'.handed = [⟨3, 2, ⟨1, 7, 1, 0, [42]⟩⟩] ∧ AppliesEach e e' (delivered quorumProcess) := by
  have hrun : ((freshNode [1, 2, 3]).bind (runProcess crc32 quorumProcess)).any
      (fun e' => e'.handed = [⟨3, 2, ⟨1, 7, 1, 0, [42]⟩⟩]) = true := by decide +kernel
  obtain ⟨e', hbind, hhanded⟩ := Outcome.any_eq_true.mp hrun
  obtain ⟨e, hopen, hprocess⟩ := Outcome.bind_eq_ok.mp hbind
  exact ⟨e, e', hopen, hprocess, of_decide_eq_true hhanded,
    (appliesEach_iff_noLightCommand (by decide +kernel) hprocess).mpr (by decide +kernel)⟩

/-- A single voter's write is committed and never applied. -/
theorem light_entry_not_applied :
    ∃ e e', freshNode [1] = .ok e ∧ runProcess crc32 singleVoterProcess e = .ok e' ∧
      ((delivered singleVoterProcess).Pairwise fun a b => a.index < b.index) ∧
      ¬ AppliesEach e e' (delivered singleVoterProcess) := by
  have hrun : ((freshNode [1]).bind (runProcess crc32 singleVoterProcess)).any
      (fun e' => e'.handed = []) = true := by decide +kernel
  obtain ⟨e', hbind, hhanded⟩ := Outcome.any_eq_true.mp hrun
  obtain ⟨e, hopen, hprocess⟩ := Outcome.bind_eq_ok.mp hbind
  refine ⟨e, e', hopen, hprocess, by decide +kernel, ?_⟩
  rintro ⟨new, hnew, hdue, -⟩
  -- One command was delivered, and nothing was handed on.
  rw [of_decide_eq_true hhanded] at hnew
  have hnil := (List.append_eq_nil_iff.mp hnew.symm).2
  have hlength := congrArg List.length hdue
  rw [hnil] at hlength
  revert hlength
  decide +kernel

end ShardEngine

end WalServer.Shard
