import WalServer.Lib.BigEndian

/-!
# `WalServer.Wal.Segment`: segment headers and the segment directory

`wal/segment.rs` and the file operations the write-ahead log is built on. A
segment file has a 64-byte header followed by records. Beside its bytes a file
carries how many of them are known to be on stable storage, which never exceeds
its length; the directory of a shard keeps its files sorted by segment id, which
is the order `list_segments` gives them in.
-/

set_option autoImplicit false

namespace WalServer.Wal

open WalServer.Lib

/-- The magic number of a segment header, "WSEG". -/
def segmentMagic : Nat := 0x57534547

/-- The size of a segment header. -/
def segmentHeaderSize : Nat := 64

/-- Why a header is refused. -/
inductive SegmentError where
  | badMagic (magic : Nat)
  | badVersion (version : Nat)
deriving DecidableEq, Repr

/-- The 64-byte header of a segment: magic, version, shard, padding, segment
id, creation time, and zeros. -/
def encodeSegmentHeader (shardId segmentId createdTsNs : Nat) : Bytes :=
  List.flatten [toBeBytes 4 segmentMagic, toBeBytes 1 1, toBeBytes 2 shardId, toBeBytes 1 0,
    toBeBytes 8 segmentId, toBeBytes 8 createdTsNs, List.replicate 40 0]

/-- Checks a header and reads shard id, segment id and creation time. -/
def decodeSegmentHeader (hdr : Bytes) : Except SegmentError (Nat × Nat × Nat) :=
  let magic := fromBeBytes (slice hdr 0 4)
  if magic ≠ segmentMagic then .error (.badMagic magic)
  else
    let version := fromBeBytes (slice hdr 4 5)
    if version ≠ 1 then .error (.badVersion version)
    else .ok (fromBeBytes (slice hdr 5 7), fromBeBytes (slice hdr 8 16),
      fromBeBytes (slice hdr 16 24))

@[simp] theorem length_encodeSegmentHeader (shardId segmentId ts : Nat) :
    (encodeSegmentHeader shardId segmentId ts).length = segmentHeaderSize := by
  simp [encodeSegmentHeader, segmentHeaderSize]

/-- Nothing of a new file is on stable storage. -/
theorem zero_le_header (shardId segmentId ts : Nat) :
    0 ≤ (encodeSegmentHeader shardId segmentId ts).length := Nat.zero_le _

/-- The same of the first file. -/
theorem zero_le_firstHeader (shardId ts : Nat) :
    0 ≤ (encodeSegmentHeader shardId 0 ts).length := Nat.zero_le _

/-- A written header is accepted, and gives back what was written. -/
theorem decodeSegmentHeader_encodeSegmentHeader {shardId segmentId ts : Nat}
    (hshard : shardId < 256 ^ 2) (hseg : segmentId < 256 ^ 8) (hts : ts < 256 ^ 8) :
    decodeSegmentHeader (encodeSegmentHeader shardId segmentId ts) =
      .ok (shardId, segmentId, ts) := by
  have h0 : slice (encodeSegmentHeader shardId segmentId ts) 0 4 = toBeBytes 4 segmentMagic :=
    slice_flatten [] _ _ (by simp) (by simp)
  have h1 : slice (encodeSegmentHeader shardId segmentId ts) 4 5 = toBeBytes 1 1 :=
    slice_flatten [toBeBytes 4 segmentMagic] _ _ (by simp) (by simp)
  have h2 : slice (encodeSegmentHeader shardId segmentId ts) 5 7 = toBeBytes 2 shardId :=
    slice_flatten [toBeBytes 4 segmentMagic, toBeBytes 1 1] _ _ (by simp) (by simp)
  have h3 : slice (encodeSegmentHeader shardId segmentId ts) 8 16 = toBeBytes 8 segmentId :=
    slice_flatten [toBeBytes 4 segmentMagic, toBeBytes 1 1, toBeBytes 2 shardId, toBeBytes 1 0]
      _ _ (by simp) (by simp)
  have h4 : slice (encodeSegmentHeader shardId segmentId ts) 16 24 = toBeBytes 8 ts :=
    slice_flatten [toBeBytes 4 segmentMagic, toBeBytes 1 1, toBeBytes 2 shardId, toBeBytes 1 0,
      toBeBytes 8 segmentId] _ _ (by simp) (by simp)
  unfold decodeSegmentHeader
  simp only [h0, h1, h2, h3, h4]
  rw [fromBeBytes_toBeBytes_of_lt (by decide), if_neg (by simp),
    fromBeBytes_toBeBytes_of_lt (by decide), if_neg (by simp),
    fromBeBytes_toBeBytes_of_lt hshard, fromBeBytes_toBeBytes_of_lt hseg,
    fromBeBytes_toBeBytes_of_lt hts]

/-- The checks of a header look at its first five bytes only. A written header
passes them for every shard, segment id and time. -/
theorem decodeSegmentHeader_encode_isOk (shardId segmentId ts : Nat) :
    ∃ fields, decodeSegmentHeader (encodeSegmentHeader shardId segmentId ts) = .ok fields := by
  have h0 : slice (encodeSegmentHeader shardId segmentId ts) 0 4 = toBeBytes 4 segmentMagic :=
    slice_flatten [] _ _ (by simp) (by simp)
  have h1 : slice (encodeSegmentHeader shardId segmentId ts) 4 5 = toBeBytes 1 1 :=
    slice_flatten [toBeBytes 4 segmentMagic] _ _ (by simp) (by simp)
  unfold decodeSegmentHeader
  simp only [h0, h1]
  rw [fromBeBytes_toBeBytes_of_lt (by decide), if_neg (by simp),
    fromBeBytes_toBeBytes_of_lt (by decide), if_neg (by simp)]
  exact ⟨_, rfl⟩

/-! ### Files -/

/-- A segment file: its bytes, and how many of them are on stable storage. -/
structure SegmentFile where
  segmentId : Nat
  content : Bytes
  synced : Nat
  synced_le : synced ≤ content.length
deriving DecidableEq

/-- The bytes after a positioned write. A gap before the offset reads as zeros. -/
def writeAt (bs : Bytes) (offset : Nat) (data : Bytes) : Bytes :=
  bs.take offset ++ List.replicate (offset - bs.length) 0 ++ data ++
    bs.drop (offset + data.length)

/-- A write at the end appends. -/
@[simp] theorem writeAt_length (bs data : Bytes) : writeAt bs bs.length data = bs ++ data := by
  simp [writeAt]

namespace SegmentFile

/-- A positioned write of all bytes. What lies past the offset is no longer
known to be on stable storage. -/
def writeAllAt (f : SegmentFile) (data : Bytes) (offset : Nat) : SegmentFile where
  segmentId := f.segmentId
  content := writeAt f.content offset data
  synced := min f.synced offset
  synced_le := by
    have h := f.synced_le
    simp [writeAt]
    omega

/-- Everything written to the file so far reaches stable storage. -/
def syncData (f : SegmentFile) : SegmentFile where
  segmentId := f.segmentId
  content := f.content
  synced := f.content.length
  synced_le := Nat.le_refl _

/-- What a crash leaves of the file when it keeps the first `keep` bytes: at
least the synced ones, and all of that is on stable storage from then on. -/
def crash (f : SegmentFile) (keep : Nat) : SegmentFile where
  segmentId := f.segmentId
  content := f.content.take (max f.synced keep)
  synced := (f.content.take (max f.synced keep)).length
  synced_le := Nat.le_refl _

end SegmentFile

/-! ### The directory of a shard -/

/-- The segment files of a shard, sorted by segment id. -/
structure ShardDir where
  files : List SegmentFile
  sorted : files.Pairwise fun a b => a.segmentId < b.segmentId
deriving DecidableEq

namespace ShardDir

/-- A directory without segment files. -/
def empty : ShardDir where
  files := []
  sorted := List.Pairwise.nil

/-- The file of a segment. -/
def find (d : ShardDir) (segmentId : Nat) : Option SegmentFile :=
  d.files.find? fun f => f.segmentId = segmentId

/-- Puts a file at its place in the directory. -/
def insert (d : ShardDir) (f : SegmentFile) : ShardDir where
  files := d.files.filter (fun g => g.segmentId < f.segmentId) ++
    f :: d.files.filter fun g => f.segmentId < g.segmentId
  sorted := by
    rw [List.pairwise_append, List.pairwise_cons]
    refine ⟨d.sorted.sublist List.filter_sublist,
      ⟨fun g hg => by simpa using (List.mem_filter.mp hg).2,
        d.sorted.sublist List.filter_sublist⟩, fun a ha b hb => ?_⟩
    have haf : a.segmentId < f.segmentId := by simpa using (List.mem_filter.mp ha).2
    rcases List.mem_cons.mp hb with rfl | hb
    · exact haf
    · have hfb : f.segmentId < b.segmentId := by simpa using (List.mem_filter.mp hb).2
      omega

/-- Rewrites the file of one segment by an operation on its bytes. -/
def modify (d : ShardDir) (segmentId : Nat) (op : SegmentFile → SegmentFile)
    (hop : ∀ f, (op f).segmentId = f.segmentId) : ShardDir where
  files := d.files.map fun f => if f.segmentId = segmentId then op f else f
  sorted := by
    have hid : ∀ f : SegmentFile,
        (if f.segmentId = segmentId then op f else f).segmentId = f.segmentId := by
      intro f
      split
      · exact hop f
      · rfl
    rw [List.pairwise_map]
    refine d.sorted.imp fun {a b} hab => ?_
    rw [hid, hid]
    exact hab

/-- Removes the file of a segment. -/
def remove (d : ShardDir) (segmentId : Nat) : ShardDir where
  files := d.files.filter fun f => f.segmentId ≠ segmentId
  sorted := d.sorted.sublist List.filter_sublist

/-- The files of a directory are found under their ids. -/
theorem find_eq_some {d : ShardDir} {id : Nat} {f : SegmentFile} :
    d.find id = some f ↔ f ∈ d.files ∧ f.segmentId = id := by
  constructor
  · intro h
    exact ⟨List.mem_of_find?_eq_some h, by simpa using List.find?_some h⟩
  · rintro ⟨hmem, rfl⟩
    obtain ⟨files, hsorted⟩ := d
    unfold find
    simp only at hmem ⊢
    induction files with
    | nil => exact absurd hmem (by simp)
    | cons g files ih =>
        rw [List.pairwise_cons] at hsorted
        rcases List.mem_cons.mp hmem with rfl | hmem
        · simp
        · have hne : g.segmentId ≠ f.segmentId := (hsorted.1 f hmem).ne
          rw [List.find?_cons_of_neg (by simpa using hne)]
          exact ih hsorted.2 hmem

/-- A rewritten directory has the same files, with the one rewritten. -/
@[simp] theorem find_modify (d : ShardDir) (id : Nat) (op : SegmentFile → SegmentFile)
    (hop : ∀ f, (op f).segmentId = f.segmentId) (id' : Nat) :
    (d.modify id op hop).find id' =
      if id' = id then (d.find id').map op else d.find id' := by
  unfold find modify
  have hcomp : ((fun f : SegmentFile => decide (f.segmentId = id')) ∘
      fun f => if f.segmentId = id then op f else f) = fun f => decide (f.segmentId = id') := by
    funext f
    simp only [Function.comp]
    split <;> simp [hop]
  rw [List.find?_map, hcomp]
  cases hfind : d.files.find? fun f => f.segmentId = id' with
  | none => simp
  | some f =>
      have hid : f.segmentId = id' := by simpa using List.find?_some hfind
      simp only [Option.map_some, hid]
      split <;> rfl

end ShardDir

end WalServer.Wal
