import WalServer.Shard.Advance
import WalServer.Shard.Replica

/-!
# `WalServer.Shard.Onward`: how the steps of a replica move its table

Most of what a replica does allocates positions or gives them up (`Allocates`). What is
left are acknowledgements, commands that are applied, and restarts (`table_request`,
`allocates_observe`, `table_noteApplied`).

Within a process no stream's epoch, committed or consumed position or last entry id
goes back (`onward_step`).
-/

set_option autoImplicit false

namespace WalServer.Shard

open WalServer.Lib WalServer.Protocol WalServer.Raft WalServer.Wal

namespace Replica

variable {hash : Bytes → UInt32} {log : Nat → Option AppendCommand} {s t : Replica}

/-- **A request** is an acknowledgement, or it allocates at most. -/
theorem table_request {req : ShardRequest} (h : s.step hash log (.request req) = some t) :
    (req.request.op = .ack ∧
      t.table = (s.table.advanceConsumed req.request.streamId req.request.offset).1) ∨
    (req.request.op ≠ .ack ∧ s.table.Allocates t.table) := by
  obtain ⟨walReader, responses, proposals, rfl⟩ := step_request h
  unfold table
  rw [engine_noteRequest]
  show (_ ∧ (s.engine.coreAfter req).streams = _) ∨ (_ ∧ s.engine.core.streams.Allocates
    (s.engine.coreAfter req).streams)
  unfold ShardEngine.coreAfter
  cases req.request.op with
  | ack => exact Or.inl ⟨rfl, rfl⟩
  | write =>
      refine Or.inr ⟨by decide, ?_⟩
      show s.engine.core.streams.Allocates (ite _ _ _ : ShardCore).streams
      split
      · exact StreamStateTable.allocates_admitWrite _ _ _ _ _
      · exact .refl _
  | read => exact Or.inr ⟨by decide, .refl _⟩
  | getStatus => exact Or.inr ⟨by decide, .refl _⟩

/-- **The end of an iteration** allocates nothing, but may give positions up. -/
theorem allocates_observe (h : s.step hash log .observe = some t) :
    s.table.Allocates t.table := by
  cases h
  exact StreamStateTable.allocates_logRaftStateIfChanged _ _ _

/-- **An applied command** enters the table. -/
theorem table_noteApplied {clock : Clock} {raftIndex raftTerm : Nat} {cmd : AppendCommand}
    {e : ShardEngine}
    (h : s.engine.Applies hash clock raftIndex raftTerm cmd e) (stopped : Bool) :
    (s.noteApplied clock raftIndex cmd e stopped).table =
      ShardCore.applyCommand s.table raftIndex cmd := by
  obtain ⟨w, dir, n, store, responses, -, -, rfl⟩ := h.eq
  rfl

/-- **Within a process nothing goes back** but next positions. -/
theorem onward_step {a : ReplicaAction} (hprocess : ∀ dir file config createdTsNs,
      a ≠ .restart dir file config createdTsNs) (h : s.step hash log a = some t) :
    s.table.Onward t.table := by
  cases a with
  | request req =>
      rcases table_request h with ⟨-, hacked⟩ | ⟨-, hallocates⟩
      · -- Only an acknowledgement and an apply move what is committed or consumed.
        rw [hacked]
        exact StreamStateTable.onward_advanceConsumed _ _ _
      · exact hallocates.onward
  | role state leaderId committed accepting =>
      cases h
      exact .refl _
  | store ready =>
      obtain ⟨outbound, stepped, stopped, rfl⟩ := step_store h
      exact .refl _
  | apply clock raftIndex raftTerm =>
      obtain ⟨-, ⟨-, rfl⟩ | ⟨cmd, e, stopped, -, happly, rfl⟩⟩ := step_apply h
      · exact .refl _
      · rw [table_noteApplied happly]
        exact StreamStateTable.onward_applyCommand _ _ _
  | advance advanced =>
      obtain ⟨outbound, stepped, rfl⟩ := step_advance h
      exact .refl _
  | observe => exact (allocates_observe h).onward
  | gc =>
      obtain ⟨walReader, rfl⟩ := step_gc h
      exact .refl _
  | restart dir file config createdTsNs => exact absurd rfl (hprocess dir file config createdTsNs)

end Replica

end WalServer.Shard
