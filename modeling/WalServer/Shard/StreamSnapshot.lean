import WalServer.Shard.StreamState

/-!
# `WalServer.Shard.StreamSnapshot`: the bytes of a stream snapshot

The two functions of `shard/stream_state.rs` that turn the table into the data of
a raft snapshot and back: a 32-bit count, then 48 bytes for each stream's status.
An empty buffer stands for an empty table. `decodeSnapshot_encodeSnapshot` is the
round trip on the statuses; with `lookup_ofStatuses_allStatuses` it says that a
snapshot keeps everything of a stream but its tail cache. `snapshotBytes` is the data
for statuses in any order, as the map may list them, and `decodeSnapshot_snapshotBytes`
the round trip of the table for each of these orders.
-/

set_option autoImplicit false

namespace WalServer.Shard

open WalServer.Lib

namespace StreamStatus

/-- The bytes of a status. -/
def encode (s : StreamStatus) : Bytes :=
  List.flatten [toBeBytes 8 s.streamId, toBeBytes 8 s.maxEpoch, toBeBytes 8 s.nextStreamLsn,
    toBeBytes 8 s.commitStreamLsn, toBeBytes 8 s.consumedStreamLsn, toBeBytes 8 s.lastEntryId]

/-- Reads a status from the start of a buffer that has all of it. -/
def decode (buf : Bytes) : StreamStatus where
  streamId := fromBeBytes (slice buf 0 8)
  maxEpoch := fromBeBytes (slice buf 8 16)
  nextStreamLsn := fromBeBytes (slice buf 16 24)
  commitStreamLsn := fromBeBytes (slice buf 24 32)
  consumedStreamLsn := fromBeBytes (slice buf 32 40)
  lastEntryId := fromBeBytes (slice buf 40 48)

/-- The fields of a status are 64-bit. -/
structure Fits (s : StreamStatus) : Prop where
  streamId : s.streamId < 256 ^ 8
  maxEpoch : s.maxEpoch < 256 ^ 8
  nextStreamLsn : s.nextStreamLsn < 256 ^ 8
  commitStreamLsn : s.commitStreamLsn < 256 ^ 8
  consumedStreamLsn : s.consumedStreamLsn < 256 ^ 8
  lastEntryId : s.lastEntryId < 256 ^ 8

instance (s : StreamStatus) : Decidable s.Fits :=
  decidable_of_iff (s.streamId < 256 ^ 8 ∧ s.maxEpoch < 256 ^ 8 ∧ s.nextStreamLsn < 256 ^ 8 ∧
    s.commitStreamLsn < 256 ^ 8 ∧ s.consumedStreamLsn < 256 ^ 8 ∧ s.lastEntryId < 256 ^ 8)
    ⟨fun ⟨h₁, h₂, h₃, h₄, h₅, h₆⟩ => ⟨h₁, h₂, h₃, h₄, h₅, h₆⟩,
      fun ⟨h₁, h₂, h₃, h₄, h₅, h₆⟩ => ⟨h₁, h₂, h₃, h₄, h₅, h₆⟩⟩

@[simp] theorem length_encode (s : StreamStatus) : s.encode.length = 48 := by simp [encode]

/-- **The status round trip**, whatever bytes follow. -/
theorem decode_encode_append {s : StreamStatus} (h : s.Fits) (tail : Bytes) :
    decode (s.encode ++ tail) = s := by
  have hwin : ∀ i j, j ≤ 48 → slice (s.encode ++ tail) i j = slice s.encode i j :=
    fun i j hj => slice_append_left (by rw [length_encode]; exact hj)
  have hstream : slice s.encode 0 8 = toBeBytes 8 s.streamId :=
    slice_flatten [] _ _ (by simp) (by simp)
  have hepoch : slice s.encode 8 16 = toBeBytes 8 s.maxEpoch :=
    slice_flatten [toBeBytes 8 s.streamId] _ _ (by simp) (by simp)
  have hnext : slice s.encode 16 24 = toBeBytes 8 s.nextStreamLsn :=
    slice_flatten [toBeBytes 8 s.streamId, toBeBytes 8 s.maxEpoch] _ _ (by simp) (by simp)
  have hcommit : slice s.encode 24 32 = toBeBytes 8 s.commitStreamLsn :=
    slice_flatten [toBeBytes 8 s.streamId, toBeBytes 8 s.maxEpoch, toBeBytes 8 s.nextStreamLsn]
      _ _ (by simp) (by simp)
  have hconsumed : slice s.encode 32 40 = toBeBytes 8 s.consumedStreamLsn :=
    slice_flatten [toBeBytes 8 s.streamId, toBeBytes 8 s.maxEpoch, toBeBytes 8 s.nextStreamLsn,
      toBeBytes 8 s.commitStreamLsn] _ _ (by simp) (by simp)
  have hlast : slice s.encode 40 48 = toBeBytes 8 s.lastEntryId :=
    slice_flatten [toBeBytes 8 s.streamId, toBeBytes 8 s.maxEpoch, toBeBytes 8 s.nextStreamLsn,
      toBeBytes 8 s.commitStreamLsn, toBeBytes 8 s.consumedStreamLsn] _ _ (by simp) (by simp)
  unfold decode
  rw [hwin 0 8 (by omega), hwin 8 16 (by omega), hwin 16 24 (by omega), hwin 24 32 (by omega),
    hwin 32 40 (by omega), hwin 40 48 (by omega), hstream, hepoch, hnext, hcommit, hconsumed,
    hlast, fromBeBytes_toBeBytes_of_lt h.streamId, fromBeBytes_toBeBytes_of_lt h.maxEpoch,
    fromBeBytes_toBeBytes_of_lt h.nextStreamLsn, fromBeBytes_toBeBytes_of_lt h.commitStreamLsn,
    fromBeBytes_toBeBytes_of_lt h.consumedStreamLsn, fromBeBytes_toBeBytes_of_lt h.lastEntryId]

end StreamStatus

/-- The bytes of a list of statuses, one after the other. -/
def encodeStatuses (statuses : List StreamStatus) : Bytes :=
  (statuses.map StreamStatus.encode).flatten

/-- The loop of `decode_snapshot`: reads a number of statuses. -/
def decodeStatuses : Nat → Bytes → Except String (List StreamStatus)
  | 0,         _   => .ok []
  | count + 1, buf =>
      if buf.length < 48 then .error "stream snapshot truncated"
      else (decodeStatuses count (buf.drop 48)).map (StreamStatus.decode buf :: ·)

namespace StreamStateTable

/-- The data of a snapshot of the table. The count is 32 bits wide. -/
def encodeSnapshot (t : StreamStateTable) : Bytes :=
  toBeBytes 4 t.allStatuses.length ++ encodeStatuses t.allStatuses

/-- The data that `encode_snapshot` makes of the statuses in the order in which the map
has listed them. -/
def snapshotBytes (statuses : List StreamStatus) : Bytes :=
  toBeBytes 4 statuses.length ++ encodeStatuses statuses

/-- The statuses that the data of a snapshot describes. -/
def snapshotStatuses (buf : Bytes) : Except String (List StreamStatus) :=
  if buf = [] then .ok []
  else if buf.length < 4 then .error "stream snapshot too small"
  else decodeStatuses (fromBeBytes (slice buf 0 4)) (buf.drop 4)

/-- The table that the data of a snapshot describes. -/
def decodeSnapshot (tailCacheLimit : Nat) (buf : Bytes) : Except String StreamStateTable :=
  (snapshotStatuses buf).map (ofStatuses tailCacheLimit)

end StreamStateTable

/-- **The round trip of the status list**, whatever bytes follow. -/
theorem decodeStatuses_encodeStatuses {statuses : List StreamStatus}
    (h : ∀ s ∈ statuses, s.Fits) (tail : Bytes) :
    decodeStatuses statuses.length (encodeStatuses statuses ++ tail) = .ok statuses := by
  induction statuses with
  | nil => rfl
  | cons s rest ih =>
      have hbytes : encodeStatuses (s :: rest) ++ tail =
          s.encode ++ (encodeStatuses rest ++ tail) := by
        simp [encodeStatuses]
      have hrest := ih fun s' hs' => h s' (List.mem_cons_of_mem s hs')
      rw [hbytes, List.length_cons, decodeStatuses,
        if_neg (by rw [List.length_append, StreamStatus.length_encode]; omega),
        StreamStatus.decode_encode_append (h s List.mem_cons_self),
        List.drop_left' (StreamStatus.length_encode s), hrest]
      rfl

theorem encodeStatuses_append (front back : List StreamStatus) :
    encodeStatuses (front ++ back) = encodeStatuses front ++ encodeStatuses back := by
  simp [encodeStatuses]

/-- Reading fewer statuses than there are gives the first ones. -/
theorem decodeStatuses_take {statuses : List StreamStatus} (h : ∀ s ∈ statuses, s.Fits)
    {count : Nat} (hcount : count ≤ statuses.length) (tail : Bytes) :
    decodeStatuses count (encodeStatuses statuses ++ tail) = .ok (statuses.take count) := by
  have hfirst : ∀ s ∈ statuses.take count, s.Fits := fun s hs => h s (List.mem_of_mem_take hs)
  have hround := decodeStatuses_encodeStatuses hfirst
    (encodeStatuses (statuses.drop count) ++ tail)
  rwa [List.length_take, Nat.min_eq_left hcount, ← List.append_assoc, ← encodeStatuses_append,
    List.take_append_drop] at hround

@[simp] theorem length_encodeStatuses (statuses : List StreamStatus) :
    (encodeStatuses statuses).length = 48 * statuses.length := by
  induction statuses with
  | nil => rfl
  | cons s rest ih =>
      have hcons : encodeStatuses (s :: rest) = s.encode ++ encodeStatuses rest := rfl
      rw [hcons, List.length_append, StreamStatus.length_encode, ih, List.length_cons]
      omega

/-- **Too few bytes** for the statuses that are asked for. -/
theorem decodeStatuses_of_short {count : Nat} {buf : Bytes} (h : buf.length < 48 * count) :
    decodeStatuses count buf = .error "stream snapshot truncated" := by
  induction count generalizing buf with
  | zero => omega
  | succ count ih =>
      rw [decodeStatuses]
      by_cases hshort : buf.length < 48
      · rw [if_pos hshort]
      · -- The first status is there, so a later one is not.
        rw [if_neg hshort, ih (by rw [List.length_drop]; omega)]
        rfl

namespace StreamStateTable

/-- The map's own order is one of them. -/
theorem encodeSnapshot_eq_snapshotBytes (t : StreamStateTable) :
    t.encodeSnapshot = snapshotBytes t.allStatuses := rfl

@[simp] theorem length_snapshotBytes (statuses : List StreamStatus) :
    (snapshotBytes statuses).length = 4 + 48 * statuses.length := by
  rw [snapshotBytes, List.length_append, length_toBeBytes, length_encodeStatuses]

/-- **What a snapshot of a table decodes to.** Of the number of streams only 32 bits
are stored, and the streams beyond that number are not read. -/
theorem decodeSnapshot_encodeSnapshot_take {t : StreamStateTable}
    (hfits : ∀ s ∈ t.allStatuses, s.Fits) (limit : Nat) (tail : Bytes) :
    decodeSnapshot limit (t.encodeSnapshot ++ tail) =
      .ok (ofStatuses limit (t.allStatuses.take (t.allStatuses.length % 256 ^ 4))) := by
  have hlength : (toBeBytes 4 t.allStatuses.length).length = 4 := length_toBeBytes 4 _
  have hbytes : t.encodeSnapshot ++ tail =
      toBeBytes 4 t.allStatuses.length ++ (encodeStatuses t.allStatuses ++ tail) := by
    rw [encodeSnapshot, List.append_assoc]
  have hlong : ¬ (t.encodeSnapshot ++ tail).length < 4 := by
    rw [hbytes, List.length_append, hlength]
    omega
  have hne : t.encodeSnapshot ++ tail ≠ [] := fun hnil => hlong (by rw [hnil]; decide)
  have hslice : slice (t.encodeSnapshot ++ tail) 0 4 = toBeBytes 4 t.allStatuses.length := by
    rw [hbytes, slice, List.drop_zero]
    exact List.take_left' hlength
  have hdrop : (t.encodeSnapshot ++ tail).drop 4 = encodeStatuses t.allStatuses ++ tail := by
    rw [hbytes]
    exact List.drop_left' hlength
  rw [decodeSnapshot, snapshotStatuses, if_neg hne, if_neg hlong, hslice, hdrop,
    fromBeBytes_toBeBytes, decodeStatuses_take hfits (Nat.mod_le _ _) tail]
  rfl

/-- The count and the statuses of the data, whatever bytes follow. -/
theorem snapshotStatuses_snapshotBytes {statuses : List StreamStatus}
    (hfits : ∀ s ∈ statuses, s.Fits) (hcount : statuses.length < 256 ^ 4) (tail : Bytes) :
    snapshotStatuses (snapshotBytes statuses ++ tail) = .ok statuses := by
  have hlong : ¬ (snapshotBytes statuses ++ tail).length < 4 := by
    rw [List.length_append, length_snapshotBytes]
    omega
  have hne : snapshotBytes statuses ++ tail ≠ [] := fun hnil => hlong (by rw [hnil]; decide)
  have hslice : slice (snapshotBytes statuses ++ tail) 0 4 = toBeBytes 4 statuses.length := by
    rw [snapshotBytes, List.append_assoc, slice_zero]
    exact List.take_left' (length_toBeBytes 4 _)
  have hdrop : (snapshotBytes statuses ++ tail).drop 4 = encodeStatuses statuses ++ tail := by
    rw [snapshotBytes, List.append_assoc]
    exact List.drop_left' (length_toBeBytes 4 _)
  rw [snapshotStatuses, if_neg hne, if_neg hlong, hslice, hdrop,
    fromBeBytes_toBeBytes_of_lt hcount]
  exact decodeStatuses_encodeStatuses hfits tail

/-- **The snapshot round trip.** A table of fewer than 2^32 streams with 64-bit
counters comes back with the statuses of all its streams, and bytes behind the
data are ignored. -/
theorem decodeSnapshot_encodeSnapshot_append {t : StreamStateTable}
    (hfits : ∀ s ∈ t.allStatuses, s.Fits) (hcount : t.allStatuses.length < 256 ^ 4)
    (limit : Nat) (tail : Bytes) :
    decodeSnapshot limit (t.encodeSnapshot ++ tail) = .ok (ofStatuses limit t.allStatuses) := by
  rw [encodeSnapshot_eq_snapshotBytes, decodeSnapshot,
    snapshotStatuses_snapshotBytes hfits hcount tail]
  rfl

/-- The round trip on the data alone. -/
theorem decodeSnapshot_encodeSnapshot {t : StreamStateTable}
    (hfits : ∀ s ∈ t.allStatuses, s.Fits) (hcount : t.allStatuses.length < 256 ^ 4)
    (limit : Nat) :
    decodeSnapshot limit t.encodeSnapshot = .ok (ofStatuses limit t.allStatuses) := by
  have h := decodeSnapshot_encodeSnapshot_append hfits hcount limit []
  rwa [List.append_nil] at h

/-- **A part of the data** is refused, unless it is empty. -/
theorem snapshotStatuses_of_prefix {statuses : List StreamStatus}
    (hcount : statuses.length < 256 ^ 4) {part : Bytes} (hpart : part <+: snapshotBytes statuses)
    (hsome : part ≠ []) (hne : part ≠ snapshotBytes statuses) :
    ∃ e, snapshotStatuses part = .error e := by
  have hlt : part.length < (snapshotBytes statuses).length :=
    lt_of_le_of_ne hpart.length_le fun heq => hne (hpart.eq_of_length heq)
  rw [length_snapshotBytes] at hlt
  rw [snapshotStatuses, if_neg hsome]
  by_cases hshort : part.length < 4
  · exact ⟨_, if_pos hshort⟩
  · -- The count is there, and asks for more than there is.
    have htake : part = (snapshotBytes statuses).take part.length :=
      (List.prefix_iff_eq_take.mp hpart)
    have hslice : slice part 0 4 = toBeBytes 4 statuses.length := by
      rw [htake, slice_take (by omega), snapshotBytes, slice_zero]
      exact List.take_left' (length_toBeBytes 4 _)
    rw [if_neg hshort, hslice, fromBeBytes_toBeBytes_of_lt hcount]
    exact ⟨_, decodeStatuses_of_short (by rw [List.length_drop]; omega)⟩

/-- The first status of a stream in a list that names each stream once is the same in
every order of the list. -/
theorem find?_of_perm {l l' : List StreamStatus} (hperm : l.Perm l')
    (hnodup : (l'.map StreamStatus.streamId).Nodup) (id : Nat) :
    l.find? (fun s => s.streamId = id) = l'.find? (fun s => s.streamId = id) := by
  induction hperm with
  | nil => rfl
  | cons s _ ih =>
      rw [List.map_cons, List.nodup_cons] at hnodup
      rw [List.find?_cons, List.find?_cons, ih hnodup.2]
  | swap s s' l =>
      -- Two neighbours: they are of different streams, so one of them is found at most.
      rw [List.map_cons, List.map_cons, List.nodup_cons] at hnodup
      have hdiff : s.streamId ≠ s'.streamId := fun heq => hnodup.1 (by simp [heq])
      rw [List.find?_cons, List.find?_cons, List.find?_cons, List.find?_cons]
      by_cases hs : s.streamId = id
      · have hs' : s'.streamId ≠ id := fun heq => hdiff (hs.trans heq.symm)
        simp [hs, hs']
      · simp [hs]
  | trans hfirst hsecond ih ih' =>
      -- The list in between names each stream once as well.
      have hmiddle := (hsecond.map StreamStatus.streamId).nodup_iff.mpr hnodup
      rw [ih hmiddle, ih' hnodup]

/-- The table restored from the statuses in any order has every stream as it was, less
its tail cache, and no other. -/
theorem lookup_ofStatuses_of_perm {t : StreamStateTable} {statuses : List StreamStatus}
    (hperm : statuses.Perm t.allStatuses) (limit id : Nat) :
    (ofStatuses limit statuses).streams.lookup id =
      (t.streams.lookup id).map fun st => { st with tailCache := [] } := by
  have hnodup := (hperm.map StreamStatus.streamId).nodup_iff.mpr t.nodup_allStatuses
  rw [← lookup_ofStatuses_allStatuses t limit id, ofStatuses, ofStatuses,
    lookup_foldl_put _ _ _ hnodup, lookup_foldl_put _ _ _ t.nodup_allStatuses,
    find?_of_perm hperm t.nodup_allStatuses]

@[simp] theorem tailCacheLimit_ofStatuses (limit : Nat) (statuses : List StreamStatus) :
    (ofStatuses limit statuses).tailCacheLimit = limit := by
  have key : ∀ t : StreamStateTable,
      (statuses.foldl (fun t s => t.put s.restore) t).tailCacheLimit = t.tailCacheLimit := by
    induction statuses with
    | nil => intro t; rfl
    | cons s rest ih =>
        intro t
        rw [List.foldl_cons, ih, tailCacheLimit_put]
  exact key (new limit)

/-- **The stream snapshot format loses nothing**, in whatever order the map lists its
streams: the streams come back with everything but their tail caches, what follows the
data does not matter, and a part of the data is refused. -/
theorem decodeSnapshot_snapshotBytes (t : StreamStateTable) (hcount : t.allStatuses.length < 2 ^ 32)
    (hfits : ∀ s ∈ t.allStatuses, s.Fits) {statuses : List StreamStatus}
    (hperm : statuses.Perm t.allStatuses) (limit : Nat) :
    (∃ restored, decodeSnapshot limit (snapshotBytes statuses) = .ok restored ∧
      restored.tailCacheLimit = limit ∧
      (∀ id, restored.streams.lookup id =
        (t.streams.lookup id).map fun st => { st with tailCache := [] }) ∧
      ∀ tail, decodeSnapshot limit (snapshotBytes statuses ++ tail) = .ok restored) ∧
    ∀ part, part <+: snapshotBytes statuses → part ≠ [] → part ≠ snapshotBytes statuses →
      ∃ e, decodeSnapshot limit part = .error e := by
  have hlength : statuses.length < 256 ^ 4 := by
    rw [hperm.length_eq]
    exact hcount
  have hfits' : ∀ s ∈ statuses, s.Fits := fun s hs => hfits s (hperm.mem_iff.mp hs)
  have hround : ∀ tail, decodeSnapshot limit (snapshotBytes statuses ++ tail) =
      .ok (ofStatuses limit statuses) := by
    intro tail
    rw [decodeSnapshot, snapshotStatuses_snapshotBytes hfits' hlength tail]
    rfl
  constructor
  · refine ⟨ofStatuses limit statuses, ?_, tailCacheLimit_ofStatuses limit statuses,
      lookup_ofStatuses_of_perm hperm limit, hround⟩
    rw [← List.append_nil (snapshotBytes statuses)]
    exact hround []
  · -- The empty part is left out: `decode_snapshot` takes it for no streams.
    intro part hpart hsome hne
    obtain ⟨e, he⟩ := snapshotStatuses_of_prefix hlength hpart hsome hne
    exact ⟨e, by rw [decodeSnapshot, he]; rfl⟩

/-- Two streams, listed the other way round. -/
theorem decodeSnapshot_snapshotBytes_twoStreams :
    ∃ restored, decodeSnapshot 4 (snapshotBytes
        (((new 2).markAppended 7 1 3 0 [42]).markAppended 9 2 4 0 []).allStatuses.reverse) =
      .ok restored ∧ restored.streams.lookup 7 = some ⟨7, 1, 1, 0, 0, 3, []⟩ ∧
      restored.streams.lookup 8 = none := by
  obtain ⟨⟨restored, hdecode, -, hlookup, -⟩, -⟩ := decodeSnapshot_snapshotBytes
    (((new 2).markAppended 7 1 3 0 [42]).markAppended 9 2 4 0 []) (by decide) (by decide)
    (List.reverse_perm _) 4
  exact ⟨restored, hdecode, by rw [hlookup]; rfl, by rw [hlookup]; rfl⟩

/-- A table restored from some of the statuses has a stream as it was, less its tail
cache, or knows nothing of it. -/
theorem ensureStream_ofStatuses_take (t : StreamStateTable) (limit count id : Nat) :
    (ofStatuses limit (t.allStatuses.take count)).ensureStream id =
        { t.ensureStream id with tailCache := [] } ∨
      (ofStatuses limit (t.allStatuses.take count)).ensureStream id = .new id := by
  have hnodup : ((t.allStatuses.take count).map StreamStatus.streamId).Nodup :=
    t.nodup_allStatuses.sublist ((List.take_sublist _ _).map _)
  have hlookup := lookup_foldl_put _ (new limit) id hnodup
  have hfull := find?_allStatuses t id
  cases hfind : (t.allStatuses.take count).find? fun s => s.streamId = id with
  | none =>
      right
      rw [hfind] at hlookup
      unfold ofStatuses ensureStream
      rw [hlookup]
      rfl
  | some s =>
      left
      -- The first status of the stream among some is the first among all.
      rw [← List.take_append_drop count t.allStatuses, List.find?_append, hfind,
        Option.some_or, status] at hfull
      obtain ⟨st, hst, rfl⟩ := Option.map_eq_some_iff.mp hfull.symm
      rw [hfind] at hlookup
      unfold ofStatuses ensureStream
      rw [hlookup, hst]
      rfl

/-- **A restored stream** is as it was when the snapshot was made, less its tail cache.
Where the number of streams has run over 32 bits the snapshot may have lost it. -/
theorem ensureStream_of_decodeSnapshot {t recovered : StreamStateTable} {limit : Nat}
    (hfits : ∀ s ∈ t.allStatuses, s.Fits)
    (h : decodeSnapshot limit t.encodeSnapshot = .ok recovered) (id : Nat) :
    recovered.ensureStream id = { t.ensureStream id with tailCache := [] } ∨
      (256 ^ 4 ≤ t.allStatuses.length ∧ recovered.ensureStream id = .new id) := by
  rcases Nat.lt_or_ge t.allStatuses.length (256 ^ 4) with hcount | hcount
  · rw [decodeSnapshot_encodeSnapshot hfits hcount] at h
    cases h
    exact Or.inl (ensureStream_ofStatuses_allStatuses t limit id)
  · -- The count has wrapped, and the statuses beyond it were not read.
    have hround := decodeSnapshot_encodeSnapshot_take hfits limit []
    rw [List.append_nil, h] at hround
    cases hround
    exact (ensureStream_ofStatuses_take t limit _ id).imp_right fun hnew => ⟨hcount, hnew⟩

end StreamStateTable

end WalServer.Shard
