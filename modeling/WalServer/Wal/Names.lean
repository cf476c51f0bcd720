import WalServer.Lib.ByKey
import WalServer.Lib.Decimal
import WalServer.Wal.Segment

/-!
# `WalServer.Wal.Names`: the names of segment files

`wal/segment.rs` names the file of a segment after its shard and its number, and finds the
segments of a shard again by reading every name in the directory. A directory is read in
no particular order and may hold other files.

`listSegments_eq` is what the model of a shard's directory (`ShardDir`) rests on: from a
directory with the files of a shard's segments under their names, with whatever else there
is under names that are not read as one of them, and in any order, the listing is that of
the segments in the order of their numbers.
-/

set_option autoImplicit false

namespace WalServer.Wal

open WalServer.Lib

/-- The ending of the name of a segment file. -/
def segmentSuffix : Text := ['.', 'w', 'a', 'l']

/-- The name of a segment file. -/
def segmentFilename (shardId segmentId : Nat) : Text :=
  padded 4 shardId ++ '_' :: (padded 20 segmentId ++ segmentSuffix)

/-- Reads shard and segment from the name of a file. -/
def parseSegmentFilename (name : Text) : Option (Nat × Nat) :=
  (name.dropSuffix? segmentSuffix).bind fun stem =>
    (splitOnce '_' stem).bind fun (shardStr, lsnStr) =>
      (parseUnsigned (2 ^ 16) shardStr).bind fun shardId =>
        (parseUnsigned (2 ^ 64) lsnStr).map fun segmentId => (shardId, segmentId)

/-- **A name is read back.** -/
theorem parseSegmentFilename_segmentFilename {shardId segmentId : Nat} (hshard : shardId < 2 ^ 16)
    (hsegment : segmentId < 2 ^ 64) :
    parseSegmentFilename (segmentFilename shardId segmentId) = some (shardId, segmentId) := by
  have hstem : (segmentFilename shardId segmentId).dropSuffix? segmentSuffix =
      some (padded 4 shardId ++ '_' :: padded 20 segmentId) := by
    rw [List.dropSuffix?_eq_some_iff]
    refine ⟨segmentSuffix, ?_, beq_self_eq_true _⟩
    rw [segmentFilename, List.append_assoc, List.cons_append]
  have hsep : '_' ∉ padded 4 shardId := fun h => absurd (isDigit_of_mem_padded h) (by decide)
  simp only [parseSegmentFilename, hstem, Option.bind_some, splitOnce_append hsep,
    parseUnsigned_padded hshard, parseUnsigned_padded hsegment, Option.map_some]

/-- Different segments have different names. -/
theorem segmentFilename_inj {shardId segmentId segmentId' : Nat} (hshard : shardId < 2 ^ 16)
    (hsegment : segmentId < 2 ^ 64) (hsegment' : segmentId' < 2 ^ 64)
    (h : segmentFilename shardId segmentId = segmentFilename shardId segmentId') :
    segmentId = segmentId' := by
  have hparse := parseSegmentFilename_segmentFilename hshard hsegment
  rw [h, parseSegmentFilename_segmentFilename hshard hsegment'] at hparse
  exact (congrArg Prod.snd (Option.some.inj hparse)).symm

/-- The segment that a file of the directory is, if it is one of the shard. -/
def segmentOf {α : Type} (shardId : Nat) (entry : Text × α) : Option (Nat × (Text × α)) :=
  match parseSegmentFilename entry.1 with
  | some (sid, segmentId) => if sid = shardId then some (segmentId, entry) else none
  | none                  => none

/-- The segments of a shard among the files of a directory, in the order of their numbers. -/
def listSegments {α : Type} (listing : List (Text × α)) (shardId : Nat) :
    List (Nat × (Text × α)) :=
  (listing.filterMap (segmentOf shardId)).insertionSort fun a b => a.1 ≤ b.1

variable {α : Type} {shardId : Nat}

theorem segmentOf_eq_some {entry : Text × α} {p : Nat × (Text × α)} :
    segmentOf shardId entry = some p ↔
      parseSegmentFilename entry.1 = some (shardId, p.1) ∧ entry = p.2 := by
  obtain ⟨segmentId, entry'⟩ := p
  unfold segmentOf
  cases parseSegmentFilename entry.1 with
  | none => simp
  | some parsed =>
      obtain ⟨sid, id⟩ := parsed
      simp only [Option.some.injEq, Prod.mk.injEq]
      split
      · rename_i hsid
        simp only [Option.some.injEq, Prod.mk.injEq, hsid, true_and]
      · rename_i hsid
        simp [hsid]

/-- The file of a segment is read as that segment. -/
theorem segmentOf_segmentFilename (hshard : shardId < 2 ^ 16) {segmentId : Nat}
    (hsegment : segmentId < 2 ^ 64) (a : α) :
    segmentOf shardId (segmentFilename shardId segmentId, a) =
      some (segmentId, (segmentFilename shardId segmentId, a)) :=
  segmentOf_eq_some.mpr ⟨parseSegmentFilename_segmentFilename hshard hsegment, rfl⟩

/-- **The listing of a shard.** The directory has the files of the shard's segments and others,
in any order. -/
theorem listSegments_eq (hshard : shardId < 2 ^ 16) {listing others : List (Text × α)}
    {segments : List (Nat × α)} (hsorted : segments.Pairwise fun a b => a.1 < b.1)
    (hsmall : ∀ p ∈ segments, p.1 < 2 ^ 64)
    (hothers : ∀ entry ∈ others, ∀ segmentId,
      parseSegmentFilename entry.1 ≠ some (shardId, segmentId))
    (hperm : listing.Perm
      (segments.map (fun p => (segmentFilename shardId p.1, p.2)) ++ others)) :
    listSegments listing shardId =
      segments.map fun p => (p.1, (segmentFilename shardId p.1, p.2)) := by
  have hnone : others.filterMap (segmentOf shardId) = [] := by
    rw [List.filterMap_eq_nil_iff]
    intro entry hentry
    by_contra hsome
    obtain ⟨p, hp⟩ := Option.ne_none_iff_exists'.mp hsome
    exact hothers entry hentry p.1 (segmentOf_eq_some.mp hp).1
  have hfound : (segments.map fun p => (segmentFilename shardId p.1, p.2)).filterMap
      (segmentOf shardId) = segments.map fun p => (p.1, (segmentFilename shardId p.1, p.2)) := by
    rw [List.filterMap_map, ← List.filterMap_eq_map]
    refine List.filterMap_congr fun p hp => ?_
    exact segmentOf_segmentFilename hshard (hsmall p hp) p.2
  refine insertionSort_eq_of_perm Prod.fst ?_ (List.pairwise_map.mpr hsorted)
  have hall := hperm.filterMap (segmentOf shardId)
  rwa [List.filterMap_append, hfound, hnone, List.append_nil] at hall

end WalServer.Wal
