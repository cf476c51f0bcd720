import WalServer.Wal.Names
import WalServer.Lib.Outcome
import WalServer.Wal.Writer
import Mathlib.Logic.Function.Basic

/-!
# `WalServer.Wal.Disk`: names, files and the directory of a shard

The model of a shard's directory (`ShardDir`) has one file for each segment number. On a
disk there are names that lead to files, in no particular order, and a process that has
opened a file goes on using it, whatever its name leads to by then.

`Stores` says that a disk has the files of a shard's directory: under the names of their
segments, each for itself, beside other files that are none of the shard's. The operations
on the disk keep it together with those on the directory: writing to a file
(`Stores.update`), creating one (`Stores.create`) and removing a name (`Stores.remove`).
-/

set_option autoImplicit false

namespace WalServer.Wal

open WalServer.Lib

/-- What a name leads to: bytes, and how many of them are on stable storage. -/
structure Inode where
  content : Bytes
  synced : Nat
  synced_le : synced ≤ content.length

namespace Inode

/-- Nothing of a new file is on stable storage. -/
theorem zero_le_nothing : 0 ≤ ([] : Bytes).length := Nat.zero_le _

/-- A new file. -/
def empty : Inode := ⟨[], 0, zero_le_nothing⟩

/-- The file as the one of a segment. -/
def toFile (i : Inode) (segmentId : Nat) : SegmentFile :=
  ⟨segmentId, i.content, i.synced, i.synced_le⟩

/-- A positioned write of all bytes. -/
def writeAllAt (i : Inode) (data : Bytes) (offset : Nat) : Inode where
  content := writeAt i.content offset data
  synced := min i.synced offset
  synced_le := ((i.toFile 0).writeAllAt data offset).synced_le

/-- Everything written so far reaches stable storage. -/
def syncData (i : Inode) : Inode where
  content := i.content
  synced := i.content.length
  synced_le := Nat.le_refl _

end Inode

/-- A directory on the disk: its names with the files they lead to, and the files. -/
structure Disk where
  entries : List (Text × Nat)
  inodes : Nat → Inode
  nextInode : Nat

namespace Disk

/-- Rewrites an open file. -/
def update (d : Disk) (file : Nat) (op : Inode → Inode) : Disk :=
  { d with inodes := Function.update d.inodes file (op (d.inodes file)) }

/-- Creates a file under a name that leads nowhere yet. -/
def createNew (d : Disk) (name : Text) : Option (Nat × Disk) :=
  match d.entries.lookup name with
  | some _ => none
  | none   => some (d.nextInode, {
      entries := (name, d.nextInode) :: d.entries
      inodes := Function.update d.inodes d.nextInode .empty
      nextInode := d.nextInode + 1 })

/-- Removes a name. Who has the file open can still use it. -/
def remove (d : Disk) (name : Text) : Disk :=
  { d with entries := d.entries.filter fun entry => entry.1 ≠ name }

end Disk

/-! ### A directory on a disk -/

/-- The names of a directory's files on a disk. -/
def namesOf (shardId : Nat) (inodeOf : Nat → Nat) (files : List SegmentFile) :
    List (Text × Nat) :=
  files.map fun f => (segmentFilename shardId f.segmentId, inodeOf f.segmentId)

/-- **The disk has the files of the directory**: `inodeOf` leads from a segment to its file.
The `others` are names that are not read as segments of the shard, and lead to what was
`given`. -/
structure Stores (shardId : Nat) (others : List (Text × Nat)) (given : Nat → Inode) (disk : Disk)
    (dir : ShardDir) (inodeOf : Nat → Nat) : Prop where
  entries : disk.entries.Perm (namesOf shardId inodeOf dir.files ++ others)
  content : ∀ f ∈ dir.files, (disk.inodes (inodeOf f.segmentId)).toFile f.segmentId = f
  inodes : (disk.entries.map Prod.snd).Nodup
  old : ∀ entry ∈ disk.entries, entry.2 < disk.nextInode
  small : ∀ f ∈ dir.files, f.segmentId < 2 ^ 64
  foreign : ∀ entry ∈ others, ∀ segmentId,
    parseSegmentFilename entry.1 ≠ some (shardId, segmentId)
  given : ∀ entry ∈ others, disk.inodes entry.2 = given entry.2

namespace Stores

variable {shardId : Nat} {others : List (Text × Nat)} {given : Nat → Inode} {disk : Disk}
  {dir : ShardDir} {inodeOf : Nat → Nat}

/-- The entry of a segment's file. -/
theorem mem_entries (h : Stores shardId others given disk dir inodeOf) {f : SegmentFile}
    (hf : f ∈ dir.files) :
    (segmentFilename shardId f.segmentId, inodeOf f.segmentId) ∈ disk.entries :=
  h.entries.mem_iff.mpr (List.mem_append_left _ (List.mem_map.mpr ⟨f, hf, rfl⟩))

/-- Every segment has a file for itself. -/
theorem inodeOf_inj (h : Stores shardId others given disk dir inodeOf) {f g : SegmentFile}
    (hf : f ∈ dir.files) (hg : g ∈ dir.files)
    (heq : inodeOf f.segmentId = inodeOf g.segmentId) : f.segmentId = g.segmentId := by
  have hnodup := ((h.entries.map Prod.snd).nodup_iff).mp h.inodes
  rw [List.map_append, List.nodup_append, namesOf, List.map_map] at hnodup
  exact congrArg SegmentFile.segmentId (List.inj_on_of_nodup_map hnodup.1 hf hg heq)

/-- The other names lead to other files. -/
theorem inodeOf_ne (h : Stores shardId others given disk dir inodeOf) {f : SegmentFile}
    (hf : f ∈ dir.files) {entry : Text × Nat} (hentry : entry ∈ others) :
    entry.2 ≠ inodeOf f.segmentId := by
  have hnodup := ((h.entries.map Prod.snd).nodup_iff).mp h.inodes
  rw [List.map_append, List.nodup_append] at hnodup
  exact (hnodup.2.2 _ (List.mem_map.mpr ⟨_, List.mem_map.mpr ⟨f, hf, rfl⟩, rfl⟩) _
    (List.mem_map.mpr ⟨entry, hentry, rfl⟩)).symm

/-- The other names are not those of segments. -/
theorem name_ne (h : Stores shardId others given disk dir inodeOf) (hshard : shardId < 2 ^ 16)
    {entry : Text × Nat} (hentry : entry ∈ others) {segmentId : Nat}
    (hsmall : segmentId < 2 ^ 64) : entry.1 ≠ segmentFilename shardId segmentId := by
  intro hname
  refine h.foreign entry hentry segmentId ?_
  rw [hname]
  exact parseSegmentFilename_segmentFilename hshard hsmall

/-- **The directory is listed as it is**, however the names come. -/
theorem listSegments_eq_files (h : Stores shardId others given disk dir inodeOf)
    (hshard : shardId < 2 ^ 16) {listing : List (Text × Nat)}
    (hlisting : listing.Perm disk.entries) :
    listSegments listing shardId = dir.files.map fun f =>
      (f.segmentId, (segmentFilename shardId f.segmentId, inodeOf f.segmentId)) := by
  have hsorted : (dir.files.map fun f => (f.segmentId, inodeOf f.segmentId)).Pairwise
      fun a b => a.1 < b.1 := List.pairwise_map.mpr dir.sorted
  have hsmall : ∀ p ∈ dir.files.map (fun f => (f.segmentId, inodeOf f.segmentId)),
      p.1 < 2 ^ 64 := by
    intro p hp
    obtain ⟨f, hf, rfl⟩ := List.mem_map.mp hp
    exact h.small f hf
  have hperm := hlisting.trans h.entries
  rw [listSegments_eq hshard hsorted hsmall h.foreign (by rwa [List.map_map]), List.map_map]
  rfl

/-- **Writing to the file of a segment** is the same on the disk and in the directory. -/
theorem update (h : Stores shardId others given disk dir inodeOf) {op : Inode → Inode}
    {op' : SegmentFile → SegmentFile} (hop' : ∀ f, (op' f).segmentId = f.segmentId)
    (hop : ∀ i id, (op i).toFile id = op' (i.toFile id)) {segmentId : Nat}
    (hsegment : (dir.find segmentId).isSome) :
    Stores shardId others given (disk.update (inodeOf segmentId) op)
      (dir.modify segmentId op' hop') inodeOf := by
  obtain ⟨current, hcurrent⟩ := Option.isSome_iff_exists.mp hsegment
  obtain ⟨hmem, rfl⟩ := ShardDir.find_eq_some.mp hcurrent
  have hfiles : (dir.modify current.segmentId op' hop').files =
      dir.files.map fun f => if f.segmentId = current.segmentId then op' f else f := rfl
  have hid : ∀ f : SegmentFile,
      (if f.segmentId = current.segmentId then op' f else f).segmentId = f.segmentId := by
    intro f
    split
    · exact hop' f
    · rfl
  refine {
    entries := ?_
    content := ?_
    inodes := h.inodes
    old := h.old
    small := ?_
    foreign := h.foreign
    given := ?_ }
  · have hnames : namesOf shardId inodeOf (dir.modify current.segmentId op' hop').files =
        namesOf shardId inodeOf dir.files := by
      rw [hfiles, namesOf, namesOf, List.map_map]
      refine List.map_congr_left fun f _ => ?_
      simp only [Function.comp, hid]
    rw [hnames]
    exact h.entries
  · intro g hg
    rw [hfiles] at hg
    obtain ⟨f, hf, rfl⟩ := List.mem_map.mp hg
    rw [hid]
    by_cases hcur : f.segmentId = current.segmentId
    · rw [if_pos hcur, hcur]
      show (Function.update disk.inodes _ _ _).toFile _ = _
      rw [Function.update_self, hop, ← hcur, h.content f hf]
    · rw [if_neg hcur]
      show (Function.update disk.inodes _ _ _).toFile _ = _
      rw [Function.update_of_ne fun heq => hcur (h.inodeOf_inj hf hmem heq), h.content f hf]
  · intro g hg
    rw [hfiles] at hg
    obtain ⟨f, hf, rfl⟩ := List.mem_map.mp hg
    rw [hid]
    exact h.small f hf
  · intro entry hentry
    show Function.update disk.inodes _ _ _ = _
    rw [Function.update_of_ne (h.inodeOf_ne hmem hentry)]
    exact h.given entry hentry

/-- A segment without a file can be created. -/
theorem find_eq_none (h : Stores shardId others given disk dir inodeOf) {segmentId : Nat}
    (hnew : disk.entries.lookup (segmentFilename shardId segmentId) = none) :
    dir.find segmentId = none := by
  cases hfind : dir.find segmentId with
  | none => rfl
  | some f =>
      obtain ⟨hf, rfl⟩ := ShardDir.find_eq_some.mp hfind
      have hne := List.lookup_eq_none_iff.mp hnew _ (h.mem_entries hf)
      simp at hne

end Stores

/-- A file for a segment without one, at its place or in front of the others. -/
theorem ShardDir.files_insert_perm {dir : ShardDir} {f : SegmentFile}
    (hnew : dir.find f.segmentId = none) : (dir.insert f).files.Perm (f :: dir.files) := by
  have hne : ∀ g ∈ dir.files, g.segmentId ≠ f.segmentId := by
    intro g hg heq
    rw [ShardDir.find_eq_some.mpr ⟨hg, heq⟩] at hnew
    cases hnew
  have hhigh : dir.files.filter (fun g => f.segmentId < g.segmentId) =
      dir.files.filter fun g => !decide (g.segmentId < f.segmentId) := by
    refine List.filter_congr fun g hg => ?_
    have := hne g hg
    rw [← decide_not, decide_eq_decide]
    omega
  show (dir.files.filter _ ++ f :: dir.files.filter _).Perm _
  rw [hhigh]
  exact List.perm_middle.trans
    ((List.filter_append_perm (fun g => decide (g.segmentId < f.segmentId)) dir.files).cons f)

namespace Stores

variable {shardId : Nat} {others : List (Text × Nat)} {given : Nat → Inode} {disk : Disk}
  {dir : ShardDir} {inodeOf : Nat → Nat}

/-- **Creating the file of a segment** that has none. -/
theorem create (h : Stores shardId others given disk dir inodeOf) {segmentId : Nat}
    (hsmall : segmentId < 2 ^ 64) (hnew : dir.find segmentId = none) (i : Inode) :
    Stores shardId others given
      ⟨(segmentFilename shardId segmentId, disk.nextInode) :: disk.entries,
        Function.update disk.inodes disk.nextInode i, disk.nextInode + 1⟩
      (dir.insert (i.toFile segmentId)) (Function.update inodeOf segmentId disk.nextInode) := by
  have hperm := ShardDir.files_insert_perm (f := i.toFile segmentId) hnew
  have hne : ∀ g ∈ dir.files, g.segmentId ≠ segmentId := by
    intro g hg heq
    rw [ShardDir.find_eq_some.mpr ⟨hg, heq⟩] at hnew
    cases hnew
  have hnew_notMem : disk.nextInode ∉ disk.entries.map Prod.snd := by
    intro hmem
    obtain ⟨entry, hentry, heq⟩ := List.mem_map.mp hmem
    exact (h.old entry hentry).ne heq
  refine {
    entries := ?_
    content := ?_
    inodes := List.nodup_cons.mpr ⟨hnew_notMem, h.inodes⟩
    old := ?_
    small := ?_
    foreign := h.foreign
    given := ?_ }
  · have hnames : namesOf shardId (Function.update inodeOf segmentId disk.nextInode)
        (i.toFile segmentId :: dir.files) =
          (segmentFilename shardId segmentId, disk.nextInode) ::
            namesOf shardId inodeOf dir.files := by
      rw [namesOf, List.map_cons]
      refine congrArg₂ List.cons (Prod.ext rfl (Function.update_self ..)) ?_
      exact List.map_congr_left fun g hg =>
        Prod.ext rfl (Function.update_of_ne (hne g hg) ..)
    refine (h.entries.cons _).trans ?_
    rw [← List.cons_append, ← hnames]
    exact (hperm.symm.map _).append_right others
  · intro g hg
    rcases List.mem_cons.mp (hperm.mem_iff.mp hg) with rfl | hg
    · show (Function.update disk.inodes disk.nextInode i
        (Function.update inodeOf segmentId disk.nextInode segmentId)).toFile segmentId = _
      rw [Function.update_self, Function.update_self]
    · show (Function.update disk.inodes disk.nextInode i
        (Function.update inodeOf segmentId disk.nextInode g.segmentId)).toFile g.segmentId = _
      rw [Function.update_of_ne (hne g hg),
        Function.update_of_ne (h.old _ (h.mem_entries hg)).ne, h.content g hg]
  · intro entry hentry
    rcases List.mem_cons.mp hentry with rfl | hentry
    · exact Nat.lt_succ_self _
    · exact Nat.lt_succ_of_lt (h.old entry hentry)
  · intro g hg
    rcases List.mem_cons.mp (hperm.mem_iff.mp hg) with rfl | hg
    · exact hsmall
    · exact h.small g hg
  · intro entry hentry
    have hold := h.old entry (h.entries.mem_iff.mpr (List.mem_append_right _ hentry))
    show Function.update disk.inodes disk.nextInode i entry.2 = _
    rw [Function.update_of_ne hold.ne]
    exact h.given entry hentry

/-- **Removing the name of a segment's file.** -/
theorem remove (h : Stores shardId others given disk dir inodeOf) (hshard : shardId < 2 ^ 16)
    {segmentId : Nat} (hsmall : segmentId < 2 ^ 64) :
    Stores shardId others given (disk.remove (segmentFilename shardId segmentId))
      (dir.remove segmentId) inodeOf := by
  have hsub : (disk.remove (segmentFilename shardId segmentId)).entries.Sublist disk.entries :=
    List.filter_sublist
  have hfiles : ∀ f ∈ (dir.remove segmentId).files, f ∈ dir.files :=
    fun f hf => List.mem_of_mem_filter hf
  refine {
    entries := ?_
    content := fun f hf => h.content f (hfiles f hf)
    inodes := h.inodes.sublist (hsub.map Prod.snd)
    old := fun entry hentry => h.old entry (hsub.subset hentry)
    small := fun f hf => h.small f (hfiles f hf)
    foreign := h.foreign
    given := h.given }
  have hnames : (namesOf shardId inodeOf dir.files).filter
      (fun entry => entry.1 ≠ segmentFilename shardId segmentId) =
        namesOf shardId inodeOf (dir.remove segmentId).files := by
    rw [namesOf, namesOf, List.filter_map]
    refine congrArg (List.map _) (List.filter_congr fun f hf => ?_)
    have hinj : segmentFilename shardId f.segmentId = segmentFilename shardId segmentId ↔
        f.segmentId = segmentId :=
      ⟨segmentFilename_inj hshard (h.small f hf) hsmall, fun heq => by rw [heq]⟩
    simp only [Function.comp, ne_eq, hinj]
  have hothers : others.filter (fun entry => entry.1 ≠ segmentFilename shardId segmentId) =
      others :=
    List.filter_eq_self.mpr fun entry hentry =>
      decide_eq_true (h.name_ne hshard hentry hsmall)
  have hperm := h.entries.filter fun entry => entry.1 ≠ segmentFilename shardId segmentId
  rwa [List.filter_append, hnames, hothers] at hperm

end Stores

end WalServer.Wal
