import WalServer.Lib.BigEndian

/-!
# `WalServer.Raft.Types`: what passes between the engine and the raft crate

The messages of `eraftpb` with the fields this repository reads or writes, and
what one cycle of a raft node hands to its owner: `Ready` asks for its parts to
be stored, sent and applied, and `LightReady` is what `advance` returns.
-/

set_option autoImplicit false

namespace WalServer.Raft

open WalServer.Lib

/-- The kind of a log entry. -/
inductive EntryType where
  | entryNormal
  | entryConfChange
  | entryConfChangeV2
deriving DecidableEq, Repr

/-- An entry of the raft log, `eraftpb::Entry`. -/
structure LogEntry where
  entryType : EntryType
  term : Nat
  index : Nat
  data : Bytes
deriving DecidableEq, Repr

/-- Term, vote and commit index of a node. -/
structure HardState where
  term : Nat
  vote : Nat
  commit : Nat
deriving DecidableEq, Repr

/-- The members of a group. -/
structure ConfState where
  voters : List Nat
deriving DecidableEq, Repr

/-- What a snapshot replaces: the log up to an index. -/
structure SnapshotMetadata where
  confState : ConfState
  index : Nat
  term : Nat
deriving DecidableEq, Repr

/-- A snapshot of the state machine. -/
structure Snapshot where
  data : Bytes
  metadata : SnapshotMetadata
deriving DecidableEq, Repr

/-- The default snapshot. -/
def Snapshot.empty : Snapshot := ⟨[], ⟨⟨[]⟩, 0, 0⟩⟩

/-- A snapshot without an index carries nothing. -/
def Snapshot.isEmpty (s : Snapshot) : Bool := s.metadata.index = 0

/-- A message to a member of the group, with its encoded rest. -/
structure Message where
  toNode : Nat
  body : Bytes
deriving DecidableEq, Repr

/-- What a raft node hands out at the start of a cycle. -/
structure Ready where
  hs : Option HardState
  snapshot : Snapshot
  entries : List LogEntry
  messages : List Message
  persistedMessages : List Message
  committedEntries : List LogEntry
deriving DecidableEq, Repr

/-- A cycle that hands nothing out. -/
def Ready.empty : Ready := ⟨none, .empty, [], [], [], []⟩

/-- What `advance` hands out at the end of a cycle. -/
structure LightReady where
  commitIndex : Option Nat
  committedEntries : List LogEntry
  messages : List Message
deriving DecidableEq, Repr

end WalServer.Raft
