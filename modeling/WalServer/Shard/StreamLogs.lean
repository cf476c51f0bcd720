import WalServer.Lib.KeyedLog
import WalServer.Protocol.Types

/-!
# `WalServer.Shard.StreamLogs`: what a shard is for

The abstract side of a shard under one leader: an append-only log for each
stream, without tables, caches, index or files. The writes of all streams are
accepted into one log, the order of which is the order of the raft entries, and a
stream's own log is what that log has of the stream (`written`, `committed`). A
reader may give positions up from the front (`consumed`).

`serve` is what a client request does to the logs and `Answers` what the client
may be told. A write is not answered when it is accepted; `completion` is the
answer it gets when it is committed. Nothing is promised of reads below the
consumed position.
-/

set_option autoImplicit false

namespace WalServer.Shard

open WalServer.Lib WalServer.Protocol

/-- The stream of a request. -/
def streamOf (w : ShardRequest) : Nat := w.request.streamId

/-- The epoch of the last of some writes, zero if there is none. -/
def lastEpoch (writes : List ShardRequest) : Nat :=
  (writes.getLast?.map fun w => w.request.epoch).getD 0

/-- Writes whose epochs do not fall. -/
def EpochsRise (writes : List ShardRequest) : Prop :=
  writes.Pairwise fun a b => a.request.epoch ≤ b.request.epoch

@[simp] theorem lastEpoch_nil : lastEpoch [] = 0 := rfl

@[simp] theorem lastEpoch_concat (writes : List ShardRequest) (w : ShardRequest) :
    lastEpoch (writes ++ [w]) = w.request.epoch := by
  simp [lastEpoch]

/-- Where epochs do not fall, the last one is the newest. -/
theorem EpochsRise.le_lastEpoch {writes : List ShardRequest} (h : EpochsRise writes)
    {w : ShardRequest} (hw : w ∈ writes) : w.request.epoch ≤ lastEpoch writes := by
  induction writes using List.reverseRecOn with
  | nil => exact absurd hw (by simp)
  | append_singleton writes last _ =>
      rw [lastEpoch_concat]
      rcases List.mem_append.mp hw with hbefore | hlast
      · exact (List.pairwise_append.mp h).2.2 w hbefore last List.mem_cons_self
      · rw [List.mem_singleton.mp hlast]

theorem EpochsRise.concat {writes : List ShardRequest} (h : EpochsRise writes)
    {w : ShardRequest} (hw : lastEpoch writes ≤ w.request.epoch) : EpochsRise (writes ++ [w]) := by
  refine List.pairwise_append.mpr ⟨h, List.pairwise_singleton _ w, fun a ha b hb => ?_⟩
  rw [List.mem_singleton.mp hb]
  exact (h.le_lastEpoch ha).trans hw

/-- The logs of a shard's streams. -/
structure StreamLogs where
  log : KeyedLog ShardRequest
  consumed : Nat → Nat
  fenced : ∀ id, EpochsRise (log.accepted streamOf id)

namespace StreamLogs

/-- No stream has been written to. -/
def empty : StreamLogs where
  log := .empty
  consumed := fun _ => 0
  fenced := fun _ => List.Pairwise.nil

/-- The accepted writes of a stream. The position of a write is its place here. -/
def written (s : StreamLogs) (id : Nat) : List ShardRequest := s.log.accepted streamOf id

/-- The committed writes of a stream. -/
def committed (s : StreamLogs) (id : Nat) : List ShardRequest := s.log.committed streamOf id

/-- The newest epoch of a stream. -/
def newestEpoch (s : StreamLogs) (id : Nat) : Nat := lastEpoch (s.written id)

/-- Accepts a write whose epoch is not stale. -/
def accept (s : StreamLogs) (w : ShardRequest) (h : s.newestEpoch (streamOf w) ≤ w.request.epoch) :
    StreamLogs where
  log := s.log.push w
  consumed := s.consumed
  fenced id := by
    rw [KeyedLog.accepted_push]
    split
    · rename_i hid
      subst hid
      exact (s.fenced _).concat h
    · exact s.fenced id

/-- Gives up the positions of a stream below the given one. -/
def consume (s : StreamLogs) (id offset : Nat) : StreamLogs where
  log := s.log
  consumed := Function.update s.consumed id (max (s.consumed id) offset)
  fenced := s.fenced

/-- Serves a client request. -/
def serve (s : StreamLogs) (req : ShardRequest) : StreamLogs :=
  match req.request.op with
  | .write     => if h : s.newestEpoch (streamOf req) ≤ req.request.epoch then s.accept req h else s
  | .read      => s
  | .ack       => s.consume (streamOf req) req.request.offset
  | .getStatus => s

/-- Commits the oldest write that is not. -/
def commitNext (s : StreamLogs) : StreamLogs where
  log := s.log.commitNext
  consumed := s.consumed
  fenced := s.fenced

/-- What a client may be told at once. -/
def Answers (s : StreamLogs) (req : ShardRequest) (answers : List ShardResponse) : Prop :=
  let conn := req.connectionId
  let id := streamOf req
  let offset := req.request.offset
  match req.request.op with
  | .write     => answers = if s.newestEpoch id ≤ req.request.epoch then []
      else [⟨conn, ⟨.errEpochFenced, s.newestEpoch id, 0, []⟩⟩]
  | .read      =>
      match (s.committed id)[offset]? with
      | none   => answers = [⟨conn, ⟨.errNotFound, s.newestEpoch id, offset, []⟩⟩]
      | some w => s.consumed id ≤ offset →
          ∃ epoch, answers = [⟨conn, ⟨.ok, epoch, offset, w.request.payload⟩⟩]
  | .ack       =>
      answers = [⟨conn, ⟨.ok, s.newestEpoch id, max (s.consumed id) offset, []⟩⟩]
  | .getStatus =>
      ∃ payload, answers = [⟨conn, ⟨.ok, s.newestEpoch id, (s.written id).length, payload⟩⟩]

/-- The answer to a write that is committed as the next one of its stream. -/
def completion (s : StreamLogs) (w : ShardRequest) : ShardResponse :=
  ⟨w.connectionId, ⟨.ok, w.request.epoch, (s.committed (streamOf w)).length, []⟩⟩

/-! ### What a step leaves of a stream -/

section

variable (s : StreamLogs)

@[simp] theorem committed_empty (id : Nat) : empty.committed id = [] := rfl

theorem written_accept (w : ShardRequest) (h : s.newestEpoch (streamOf w) ≤ w.request.epoch)
    (id : Nat) :
    (s.accept w h).written id = if streamOf w = id then s.written id ++ [w] else s.written id :=
  KeyedLog.accepted_push streamOf s.log w id

@[simp] theorem committed_accept (w : ShardRequest)
    (h : s.newestEpoch (streamOf w) ≤ w.request.epoch) (id : Nat) :
    (s.accept w h).committed id = s.committed id :=
  KeyedLog.committed_push streamOf s.log w id

/-- An accepted write is the newest of its stream. -/
theorem newestEpoch_accept (w : ShardRequest) (h : s.newestEpoch (streamOf w) ≤ w.request.epoch)
    (id : Nat) :
    (s.accept w h).newestEpoch id =
      if streamOf w = id then w.request.epoch else s.newestEpoch id := by
  rw [newestEpoch, written_accept]
  split
  · rw [lastEpoch_concat]
  · rfl

theorem epoch_le_newestEpoch {w : ShardRequest} {id : Nat} (h : w ∈ s.written id) :
    w.request.epoch ≤ s.newestEpoch id :=
  (s.fenced id).le_lastEpoch h

theorem consumed_consume (id offset id' : Nat) :
    (s.consume id offset).consumed id' =
      if id' = id then max (s.consumed id) offset else s.consumed id' := by
  show Function.update s.consumed id (max (s.consumed id) offset) id' = _
  split
  · rename_i hid
    rw [hid, Function.update_self]
  · rename_i hid
    rw [Function.update_of_ne hid]

@[simp] theorem newestEpoch_commitNext (id : Nat) :
    s.commitNext.newestEpoch id = s.newestEpoch id := rfl

theorem committed_commitNext {w : ShardRequest} (h : s.log.next? = some w) (id : Nat) :
    s.commitNext.committed id =
      if streamOf w = id then s.committed id ++ [w] else s.committed id :=
  KeyedLog.committed_commitNext streamOf h id

end

end StreamLogs

end WalServer.Shard
