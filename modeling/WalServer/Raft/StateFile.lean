import WalServer.Lib.Reader
import WalServer.Net.Peer
import WalServer.Raft.Storage

/-!
# `WalServer.Raft.StateFile`: the file of the raft state

What `persist` writes and `load_state` reads: hard state, configuration and snapshot,
then a 32-bit count and the entries. Each message has its length in front. Messages are
written and parsed by the protobuf library, a parameter here.

`persist` writes a temporary file and renames it. `Interrupted` is what a crash leaves
of this: a write may have put any part of its bytes into the file, and a rename is done
or not. What has been written to a file stays there, and errors of the file system other
than a crash do not occur.

`StateFiles.Holds` connects the two files with the list of states that
`PersistentStorage` keeps of its file, and `holds_persist` its `persist` with this one: what
the library writes is what fits (`StateProtobuf.Sizes`).
-/

set_option autoImplicit false

namespace WalServer.Raft

open WalServer.Lib WalServer.Net.Peer

/-- Why the state is not written or not read: an error of the protobuf library, or a
text of this repository. -/
inductive StateFileError (ε : Type) where
  | protobuf (e : ε)
  | message (text : String)
deriving DecidableEq, Repr

/-- The protobuf library on the messages of the state. -/
structure StateProtobuf (ε : Type) where
  hardState : Protobuf HardState ε
  confState : Protobuf ConfState ε
  snapshot : Protobuf Snapshot ε
  entry : Protobuf LogEntry ε

variable {μ ε : Type}

/-! ### Messages -/

/-- Writes a message behind what is there. -/
def appendMessage (pb : Protobuf μ ε) (buf : Bytes) (msg : μ) :
    Except (StateFileError ε) Bytes :=
  match pb.writeToBytes msg with
  | .error e  => .error (.protobuf e)
  | .ok bytes => .ok (buf ++ toBeBytes 4 bytes.length ++ bytes)

/-- Reads a message at the cursor. -/
def takeMessage (pb : Protobuf μ ε) : Reader UInt8 μ (StateFileError ε) := fun data cursor =>
  if data.length < cursor + 4 then
    .error (.message "corrupt raft storage state: truncated length")
  else
    let len := fromBeBytes (slice data cursor (cursor + 4))
    if data.length < cursor + 4 + len then
      .error (.message "corrupt raft storage state: truncated protobuf payload")
    else
      match pb.parseFromBytes (slice data (cursor + 4) (cursor + 4 + len)) with
      | .error e => .error (.protobuf e)
      | .ok msg  => .ok (msg, cursor + 4 + len)

/-- The loop of `persist`: writes messages one after the other. -/
def appendMessages (pb : Protobuf μ ε) : Bytes → List μ → Except (StateFileError ε) Bytes
  | buf, []          => .ok buf
  | buf, msg :: rest => (appendMessage pb buf msg).bind fun buf' => appendMessages pb buf' rest

/-- Reads the number of entries at the cursor. -/
def takeCount : Reader UInt8 Nat (StateFileError ε) := fun data cursor =>
  if data.length < cursor + 4 then
    .error (.message "corrupt raft storage state: missing entry count")
  else .ok (fromBeBytes (slice data cursor (cursor + 4)), cursor + 4)

/-- What `persist` puts into the file. -/
def stateBytes (pb : StateProtobuf ε) (state : PersistentState) :
    Except (StateFileError ε) Bytes :=
  (appendMessage pb.hardState [] state.hardState).bind fun buf =>
  (appendMessage pb.confState buf state.confState).bind fun buf =>
  (appendMessage pb.snapshot buf state.snapshot).bind fun buf =>
    appendMessages pb.entry (buf ++ toBeBytes 4 state.entries.length) state.entries

/-- Reads a state at the cursor. -/
def takeState (pb : StateProtobuf ε) : Reader UInt8 PersistentState (StateFileError ε) :=
  (takeMessage pb.hardState).andThen fun hardState =>
  (takeMessage pb.confState).andThen fun confState =>
  (takeMessage pb.snapshot).andThen fun snapshot =>
  takeCount.andThen fun count =>
  ((takeMessage pb.entry).times count).andThen fun entries =>
    Reader.done ⟨hardState, confState, entries, snapshot⟩

/-- The state in the data of a file. -/
def loadState (pb : StateProtobuf ε) (data : Bytes) :
    Except (StateFileError ε) PersistentState :=
  (takeState pb data 0).map Prod.fst

/-- A state that the file format has room for, and whose messages the protobuf library
parses back. -/
structure Storable (pb : StateProtobuf ε) (state : PersistentState) : Prop where
  hardState : pb.hardState.RoundTrips state.hardState
  confState : pb.confState.RoundTrips state.confState
  snapshot : pb.snapshot.RoundTrips state.snapshot
  entries : ∀ e ∈ state.entries, pb.entry.RoundTrips e
  count : state.entries.length < 2 ^ 32

/-! ### Reading back -/

/-- A 32-bit number at the cursor. -/
theorem slice_toBeBytes_append {n cursor : Nat} {front back : Bytes}
    (hcursor : front.length = cursor) :
    slice (front ++ (toBeBytes 4 n ++ back)) cursor (cursor + 4) = toBeBytes 4 n :=
  slice_append_mid hcursor (by rw [length_toBeBytes])

/-- A part of a 32-bit number is shorter. -/
theorem length_lt_of_prefix {image part : Bytes} (hpart : part <+: image) (hne : part ≠ image) :
    part.length < image.length :=
  lt_of_le_of_ne hpart.length_le fun heq => hne (hpart.eq_of_length heq)

/-- **A message** is read back from what was written of it. -/
theorem delimits_takeMessage {pb : Protobuf μ ε} {msg : μ} {body : Bytes}
    (hlt : body.length < 2 ^ 32) (hparse : pb.parseFromBytes body = .ok msg) :
    (takeMessage pb).Delimits (toBeBytes 4 body.length ++ body) msg where
  whole front back := by
    have hlen : slice (front ++ (toBeBytes 4 body.length ++ body ++ back)) front.length
        (front.length + 4) = toBeBytes 4 body.length := by
      rw [List.append_assoc]
      exact slice_toBeBytes_append rfl
    have hbody : slice (front ++ (toBeBytes 4 body.length ++ body ++ back)) (front.length + 4)
        (front.length + 4 + body.length) = body := by
      rw [List.append_assoc, ← List.append_assoc front]
      exact slice_append_mid (by simp) rfl
    unfold takeMessage
    simp only [hlen, fromBeBytes_toBeBytes_of_lt (w := 4) hlt, hbody, hparse, List.length_append,
      length_toBeBytes]
    rw [if_neg (by omega), if_neg (by omega), Nat.add_assoc]
  torn front part hpart hne := by
    unfold takeMessage
    simp only [List.length_append]
    rcases Reader.prefix_append_cases hpart hne with ⟨hlength, htorn⟩ | ⟨rest, rfl, hbody, htorn⟩
    · have hshort := length_lt_of_prefix hlength htorn
      rw [length_toBeBytes] at hshort
      exact ⟨_, if_pos (by omega)⟩
    · -- The length is there, and asks for more than there is.
      have hshort := length_lt_of_prefix hbody htorn
      have hlen : slice (front ++ (toBeBytes 4 body.length ++ rest)) front.length
          (front.length + 4) = toBeBytes 4 body.length := slice_toBeBytes_append rfl
      rw [if_neg (by rw [List.length_append, length_toBeBytes]; omega), hlen,
        fromBeBytes_toBeBytes_of_lt hlt]
      exact ⟨_, if_pos (by rw [List.length_append, length_toBeBytes]; omega)⟩

/-- **The count** is read back. -/
theorem delimits_takeCount {n : Nat} (hlt : n < 2 ^ 32) :
    (takeCount : Reader UInt8 Nat (StateFileError ε)).Delimits (toBeBytes 4 n) n where
  whole front back := by
    unfold takeCount
    rw [if_neg (by simp), slice_toBeBytes_append rfl, fromBeBytes_toBeBytes_of_lt hlt,
      length_toBeBytes]
  torn front part hpart hne := by
    have hshort := length_lt_of_prefix hpart hne
    rw [length_toBeBytes] at hshort
    unfold takeCount
    exact ⟨_, if_pos (by rw [List.length_append]; omega)⟩

/-- What is written of a message that the library writes: its length and its bytes. -/
def messageImage (pb : Protobuf μ ε) (msg : μ) : Bytes :=
  match pb.writeToBytes msg with
  | .error _  => []
  | .ok bytes => toBeBytes 4 bytes.length ++ bytes

/-- A message is written behind what is there. -/
theorem appendMessage_of_roundTrips {pb : Protobuf μ ε} {msg : μ} (h : pb.RoundTrips msg)
    (buf : Bytes) : appendMessage pb buf msg = .ok (buf ++ messageImage pb msg) := by
  obtain ⟨body, hwrite, -, -⟩ := h
  unfold appendMessage messageImage
  rw [hwrite]
  simp only
  rw [List.append_assoc]

/-- A message is read back from its image. -/
theorem delimits_messageImage {pb : Protobuf μ ε} {msg : μ} (h : pb.RoundTrips msg) :
    (takeMessage pb).Delimits (messageImage pb msg) msg := by
  obtain ⟨body, hwrite, hlt, hparse⟩ := h
  unfold messageImage
  rw [hwrite]
  exact delimits_takeMessage hlt hparse

/-- **The loop of `persist`** writes the images of the messages. -/
theorem appendMessages_of_roundTrips {pb : Protobuf μ ε} {msgs : List μ}
    (h : ∀ msg ∈ msgs, pb.RoundTrips msg) (buf : Bytes) :
    appendMessages pb buf msgs = .ok (buf ++ msgs.flatMap (messageImage pb)) := by
  induction msgs generalizing buf with
  | nil => rw [appendMessages, List.flatMap_nil, List.append_nil]
  | cons msg rest ih =>
      rw [appendMessages, appendMessage_of_roundTrips (h msg List.mem_cons_self), Except.bind,
        ih fun m hm => h m (List.mem_cons_of_mem msg hm), List.flatMap_cons, List.append_assoc]

/-- **The file of a state** is written, and its reader delimits it. -/
theorem stateBytes_of_storable {pb : StateProtobuf ε} {state : PersistentState}
    (h : Storable pb state) :
    ∃ image, stateBytes pb state = .ok image ∧ (takeState pb).Delimits image state := by
  refine ⟨messageImage pb.hardState state.hardState ++
    (messageImage pb.confState state.confState ++ (messageImage pb.snapshot state.snapshot ++
      (toBeBytes 4 state.entries.length ++ state.entries.flatMap (messageImage pb.entry)))), ?_, ?_⟩
  · unfold stateBytes
    rw [appendMessage_of_roundTrips h.hardState, Except.bind,
      appendMessage_of_roundTrips h.confState, Except.bind,
      appendMessage_of_roundTrips h.snapshot, Except.bind, appendMessages_of_roundTrips h.entries]
    simp
  · -- Part by part, in the order in which `load_state` reads them.
    have hentries := Reader.Delimits.times fun e he => delimits_messageImage (h.entries e he)
    exact (delimits_messageImage h.hardState).andThen ((delimits_messageImage h.confState).andThen
      ((delimits_messageImage h.snapshot).andThen
        ((delimits_takeCount h.count).andThen (hentries.map _))))

/-- **The state comes back** from its file, whatever bytes follow. -/
theorem loadState_of_delimits {pb : StateProtobuf ε} {state : PersistentState} {image : Bytes}
    (h : (takeState pb).Delimits image state) (back : Bytes) :
    loadState pb (image ++ back) = .ok state := by
  have hread := h.whole [] back
  rw [List.nil_append, List.length_nil] at hread
  rw [loadState, hread]
  rfl

/-- **A part of the file** is refused. -/
theorem loadState_of_prefix {pb : StateProtobuf ε} {state : PersistentState} {image part : Bytes}
    (h : (takeState pb).Delimits image state) (hpart : part <+: image) (hne : part ≠ image) :
    ∃ e, loadState pb part = .error e := by
  obtain ⟨e, he⟩ := h.torn [] part hpart hne
  rw [List.nil_append, List.length_nil] at he
  exact ⟨e, by rw [loadState, he]; rfl⟩

/-! ### The file and its replacement -/

/-- The two files in the directory of the storage: `raft_state.bin`, and beside it
`raft_state.tmp`. -/
structure StateFiles where
  bin : Option Bytes
  tmp : Option Bytes
deriving DecidableEq, Repr

/-- What `persist` does to the directory. -/
inductive FileOp where
  /-- `fs::write` to the temporary file. -/
  | write (buf : Bytes)
  /-- `fs::rename` of the temporary file. -/
  | rename
deriving DecidableEq, Repr

/-- An operation that is not interrupted. -/
def FileOp.run (files : StateFiles) : FileOp → StateFiles
  | .write buf => { files with tmp := some buf }
  | .rename    =>
      match files.tmp with
      | some buf => ⟨some buf, none⟩
      | none     => files

/-- What `persist` does once it has the bytes, one after the other. -/
def persistOps (buf : Bytes) : List FileOp := [.write buf, .rename]

/-- `persist`: makes the bytes and replaces the file. -/
def persistFiles (pb : StateProtobuf ε) (state : PersistentState) (files : StateFiles) :
    Except (StateFileError ε) StateFiles :=
  (stateBytes pb state).map fun buf => (persistOps buf).foldl FileOp.run files

/-- `PersistentStorage::open` on the directory: the state in memory, and the files. -/
def openFiles (pb : StateProtobuf ε) (files : StateFiles) (confState : ConfState) :
    Except (StateFileError ε) (PersistentState × StateFiles) :=
  match files.bin with
  | some data => (loadState pb data).map fun loaded => (loaded, files)
  | none      =>
      (persistFiles pb (.bootstrap confState) files).map fun files' =>
        (.bootstrap confState, files')

/-- What a crash may leave of operations: it comes before the next one, in the middle of
a write, or later. A rename has no middle. -/
inductive Interrupted : List FileOp → StateFiles → StateFiles → Prop where
  | before (ops : List FileOp) (files : StateFiles) : Interrupted ops files files
  | within {buf part : Bytes} (ops : List FileOp) (files : StateFiles) (h : part <+: buf) :
      Interrupted (.write buf :: ops) files { files with tmp := some part }
  | later {op : FileOp} {ops : List FileOp} {files files' : StateFiles}
      (h : Interrupted ops (op.run files) files') : Interrupted (op :: ops) files files'

/-- The file is that of the state, or there is neither. -/
def StateFiles.Holds (pb : StateProtobuf ε) (files : StateFiles) :
    Option PersistentState → Prop
  | none       => files.bin = none
  | some state => ∃ image, stateBytes pb state = .ok image ∧ files.bin = some image

/-- **A crash within `persist`** leaves the file as it was or as it is to be. -/
theorem bin_of_interrupted {buf : Bytes} {files files' : StateFiles}
    (h : Interrupted (persistOps buf) files files') :
    files'.bin = files.bin ∨ files'.bin = some buf := by
  unfold persistOps at h
  cases h with
  | before => exact Or.inl rfl
  | within => exact Or.inl rfl
  | later h =>
      -- The temporary file is written; the rename is left.
      cases h with
      | before => exact Or.inl rfl
      | later h =>
          cases h with
          | before => exact Or.inr rfl

/-- `persist` leaves the file of the state and no temporary file. -/
theorem persistFiles_eq {pb : StateProtobuf ε} {state : PersistentState} {image : Bytes}
    (h : stateBytes pb state = .ok image) (files : StateFiles) :
    persistFiles pb state files = .ok ⟨some image, none⟩ := by
  rw [persistFiles, h]
  rfl

/-- What is relied on of the library beyond what it gives back: what it writes of a message
holds the message's data, and is shorter than 2^32 bytes. -/
structure StateProtobuf.Sizes (pb : StateProtobuf ε) : Prop where
  snapshot : ∀ m body, pb.snapshot.writeToBytes m = .ok body →
    m.data.length ≤ body.length ∧ body.length < 2 ^ 32
  entry : ∀ m body, pb.entry.writeToBytes m = .ok body →
    m.data.length ≤ body.length ∧ body.length < 2 ^ 32

/-- What `append_message` has written, the library has. -/
theorem writeToBytes_of_appendMessage {pb : Protobuf μ ε} {msg : μ} {buf buf' : Bytes}
    (h : appendMessage pb buf msg = .ok buf') : ∃ body, pb.writeToBytes msg = .ok body := by
  unfold appendMessage at h
  split at h
  · cases h
  · rename_i body hwrite
    exact ⟨body, hwrite⟩

/-- A sequence of writes that succeeds begins with one that does. -/
theorem bind_write_eq_ok {x : Except (StateFileError ε) Bytes}
    {next : Bytes → Except (StateFileError ε) Bytes} {buf : Bytes} (h : x.bind next = .ok buf) :
    ∃ buf', x = .ok buf' ∧ next buf' = .ok buf := by
  cases x with
  | error e => cases h
  | ok buf' => exact ⟨buf', rfl, h⟩

/-- What the loop of `persist` has written, the library has. -/
theorem writeToBytes_of_appendMessages {pb : Protobuf μ ε} {msgs : List μ} {buf buf' : Bytes}
    (h : appendMessages pb buf msgs = .ok buf') :
    ∀ msg ∈ msgs, ∃ body, pb.writeToBytes msg = .ok body := by
  induction msgs generalizing buf with
  | nil => exact fun msg hmsg => absurd hmsg List.not_mem_nil
  | cons first rest ih =>
      obtain ⟨buf₁, hfirst, hrest⟩ := bind_write_eq_ok h
      intro msg hmsg
      rcases List.mem_cons.mp hmsg with rfl | hlater
      · exact writeToBytes_of_appendMessage hfirst
      · exact ih hrest msg hlater

/-- **What is written fits**, if its entries can be counted. -/
theorem fits_of_stateBytes {pb : StateProtobuf ε} (hpb : pb.Sizes) {state : PersistentState}
    {image : Bytes} (h : stateBytes pb state = .ok image)
    (hcount : state.entries.length < 2 ^ 32) : state.Fits := by
  -- The hard state and the configuration come first, and have no data.
  obtain ⟨_, -, h⟩ := bind_write_eq_ok h
  obtain ⟨_, -, h⟩ := bind_write_eq_ok h
  obtain ⟨_, hsnapshot, hentries⟩ := bind_write_eq_ok h
  obtain ⟨body, hbody⟩ := writeToBytes_of_appendMessage hsnapshot
  obtain ⟨hdata, hsize⟩ := hpb.snapshot _ _ hbody
  refine ⟨Nat.lt_of_le_of_lt hdata hsize, fun entry hentry => ?_, hcount⟩
  obtain ⟨body', hbody'⟩ := writeToBytes_of_appendMessages hentries entry hentry
  obtain ⟨hdata', hsize'⟩ := hpb.entry _ _ hbody'
  exact Nat.lt_of_le_of_lt hdata' hsize'

/-- **`persist` on the files** is `persist` on the list of states the file has held. -/
theorem holds_persist {pb : StateProtobuf ε} (hpb : pb.Sizes) {s : PersistentStorage}
    {files files' : StateFiles} (hcount : s.state.entries.length < 2 ^ 32)
    (h : persistFiles pb s.state files = .ok files') :
    ∃ s', s.persist = (s', .ok ()) ∧ files'.Holds pb s'.written.getLast? := by
  cases hbytes : stateBytes pb s.state with
  | error e =>
      rw [persistFiles, hbytes] at h
      cases h
  | ok image =>
      rw [persistFiles_eq hbytes] at h
      cases h
      refine ⟨_, PersistentStorage.persist_of_fits (fits_of_stateBytes hpb hbytes hcount), ?_⟩
      rw [List.getLast?_concat]
      exact ⟨image, hbytes, rfl⟩

/-- A state that the format has room for is persisted by both. -/
theorem persist_of_storable {pb : StateProtobuf ε} (hpb : pb.Sizes) {s : PersistentStorage}
    (h : Storable pb s.state) (files : StateFiles) :
    ∃ s' files', s.persist = (s', .ok ()) ∧ persistFiles pb s.state files = .ok files' ∧
      files'.Holds pb s'.written.getLast? := by
  obtain ⟨image, hbytes, -⟩ := stateBytes_of_storable h
  have hfiles := persistFiles_eq hbytes files
  obtain ⟨s', hpersist, hholds⟩ := holds_persist hpb h.count hfiles
  exact ⟨s', _, hpersist, hfiles, hholds⟩

/-- **Opening the files** is opening the storage on the state that they hold. -/
theorem openFiles_of_holds {pb : StateProtobuf ε} {files : StateFiles}
    {previous : Option PersistentState} (h : files.Holds pb previous)
    (hprevious : ∀ state ∈ previous, Storable pb state) (confState : ConfState)
    (hfresh : Storable pb (.bootstrap confState)) :
    ∃ files', openFiles pb files confState =
        .ok ((PersistentStorage.openStorage previous confState).state, files') ∧
      files'.Holds pb (PersistentStorage.openStorage previous confState).written.getLast? := by
  cases previous with
  | none =>
      -- Without a file the storage starts with the bootstrap state and persists it at once.
      have hbin : files.bin = none := h
      obtain ⟨image, hbytes, -⟩ := stateBytes_of_storable hfresh
      refine ⟨⟨some image, none⟩, ?_, image, hbytes, rfl⟩
      rw [openFiles, hbin]
      simp only
      rw [persistFiles_eq hbytes]
      rfl
  | some state =>
      obtain ⟨image, hbytes, hbin⟩ := h
      obtain ⟨image', hbytes', hread⟩ := stateBytes_of_storable (hprevious state rfl)
      obtain rfl : image' = image := Except.ok.inj (hbytes'.symm.trans hbytes)
      have hload := loadState_of_delimits hread []
      rw [List.append_nil] at hload
      refine ⟨files, ?_, image', hbytes, hbin⟩
      rw [openFiles, hbin]
      simp only
      rw [hload]
      rfl

/-- **The raft state is stored without loss and replaced as a whole.** The file that
`persist` writes gives the state back; every part of it is refused; and after a crash at
any point of `persist` the storage opens as it would have before or as it does behind it. -/
theorem stateFile_lossless (pb : StateProtobuf ε) {state : PersistentState}
    (hstate : Storable pb state) :
    ∃ image, stateBytes pb state = .ok image ∧ loadState pb image = .ok state ∧
      (∀ part, part <+: image → part ≠ image → ∃ e, loadState pb part = .error e) ∧
      ∀ (previous : Option PersistentState) (files : StateFiles), files.Holds pb previous →
        (∀ state' ∈ previous, Storable pb state') →
        persistFiles pb state files = .ok ⟨some image, none⟩ ∧
        ∀ files', Interrupted (persistOps image) files files' →
          ∃ left, (left = previous ∨ left = some state) ∧
            ∀ confState, Storable pb (.bootstrap confState) →
              ∃ files'', openFiles pb files' confState =
                .ok ((PersistentStorage.openStorage left confState).state, files'') := by
  obtain ⟨image, hbytes, hread⟩ := stateBytes_of_storable hstate
  have hload := loadState_of_delimits hread []
  rw [List.append_nil] at hload
  refine ⟨image, hbytes, hload, fun part hpart hne => loadState_of_prefix hread hpart hne, ?_⟩
  intro previous files hholds hprevious
  refine ⟨persistFiles_eq hbytes files, fun files' hcrash => ?_⟩
  rcases bin_of_interrupted hcrash with hold | hnew
  · -- The file is still that of the previous state.
    have hheld : files'.Holds pb previous := by
      cases previous with
      | none => exact hold.trans hholds
      | some state' =>
          obtain ⟨image', hbytes', hbin⟩ := hholds
          exact ⟨image', hbytes', hold.trans hbin⟩
    refine ⟨previous, Or.inl rfl, fun confState hfresh => ?_⟩
    obtain ⟨files'', hopen, -⟩ := openFiles_of_holds hheld hprevious confState hfresh
    exact ⟨files'', hopen⟩
  · -- The rename is done.
    have hheld : files'.Holds pb (some state) := ⟨image, hbytes, hnew⟩
    refine ⟨some state, Or.inr rfl, fun confState hfresh => ?_⟩
    have hstored : ∀ state' ∈ some state, Storable pb state' := by
      intro state' hmem
      obtain rfl := Option.mem_some_iff.mp hmem
      exact hstate
    obtain ⟨files'', hopen, -⟩ := openFiles_of_holds hheld hstored confState hfresh
    exact ⟨files'', hopen⟩

/-- A library that knows some messages with their bytes. -/
def knownMessages [DecidableEq μ] (known : List (μ × Bytes)) : Protobuf μ Unit where
  writeToBytes m :=
    match known.find? fun p => p.1 = m with
    | some p => .ok p.2
    | none   => .error ()
  parseFromBytes body :=
    match known.find? fun p => p.2 = body with
    | some p => .ok p.1
    | none   => .error ()

/-- The state of a node without voters before and after a snapshot of it is stored. -/
def beforeSnapshot : PersistentState where
  hardState := ⟨1, 0, 1⟩
  confState := ⟨[]⟩
  entries := [⟨.entryNormal, 1, 1, []⟩, ⟨.entryNormal, 1, 2, [7]⟩, ⟨.entryNormal, 2, 3, [9]⟩]
  snapshot := .empty

@[inherit_doc beforeSnapshot]
def behindSnapshot : PersistentState where
  hardState := ⟨2, 1, 2⟩
  confState := ⟨[]⟩
  entries := [⟨.entryNormal, 2, 3, [9]⟩, ⟨.entryNormal, 2, 4, []⟩]
  snapshot := ⟨[5, 6], ⟨⟨[]⟩, 2, 1⟩⟩

/-- The library on the messages of these states. -/
def snapshotProtobuf : StateProtobuf Unit where
  hardState := knownMessages
    [(⟨1, 0, 1⟩, [0x08, 1, 0x18, 1]), (⟨2, 1, 2⟩, [0x08, 2, 0x10, 1, 0x18, 2])]
  confState := knownMessages [(⟨[]⟩, [])]
  snapshot := knownMessages
    [(.empty, [0x12, 2, 0x0A, 0]),
      (⟨[5, 6], ⟨⟨[]⟩, 2, 1⟩⟩, [0x0A, 2, 5, 6, 0x12, 6, 0x0A, 0, 0x10, 2, 0x18, 1])]
  entry := knownMessages
    [(⟨.entryNormal, 1, 1, []⟩, [0x10, 1, 0x18, 1]),
      (⟨.entryNormal, 1, 2, [7]⟩, [0x10, 1, 0x18, 2, 0x22, 1, 7]),
      (⟨.entryNormal, 2, 3, [9]⟩, [0x10, 2, 0x18, 3, 0x22, 1, 9]),
      (⟨.entryNormal, 2, 4, []⟩, [0x10, 2, 0x18, 4])]

/-- A file with three entries is replaced by one with a snapshot and two; a crash leaves the
one or the other. -/
theorem stateFile_lossless_snapshot :
    ∃ image, stateBytes snapshotProtobuf behindSnapshot = .ok image ∧
      loadState snapshotProtobuf image = .ok behindSnapshot ∧
      (∀ part, part <+: image → part ≠ image →
        ∃ e, loadState snapshotProtobuf part = .error e) ∧
      ∃ old, stateBytes snapshotProtobuf beforeSnapshot = .ok old ∧
        ∀ files', Interrupted (persistOps image) ⟨some old, none⟩ files' →
          ∃ left files'', (left = beforeSnapshot ∨ left = behindSnapshot) ∧
            openFiles snapshotProtobuf files' ⟨[]⟩ = .ok (left, files'') := by
  have hconf : snapshotProtobuf.confState.RoundTrips ⟨[]⟩ := ⟨_, rfl, by decide, rfl⟩
  have hbefore : Storable snapshotProtobuf beforeSnapshot :=
    { hardState := ⟨_, rfl, by decide, rfl⟩
      confState := hconf
      snapshot := ⟨_, rfl, by decide, rfl⟩
      entries := by
        simp only [beforeSnapshot, List.mem_cons, List.not_mem_nil, or_false]
        rintro e (rfl | rfl | rfl) <;> exact ⟨_, rfl, by decide, rfl⟩
      count := by decide }
  have hbehind : Storable snapshotProtobuf behindSnapshot :=
    { hardState := ⟨_, rfl, by decide, rfl⟩
      confState := hconf
      snapshot := ⟨_, rfl, by decide, rfl⟩
      entries := by
        simp only [behindSnapshot, List.mem_cons, List.not_mem_nil, or_false]
        rintro e (rfl | rfl) <;> exact ⟨_, rfl, by decide, rfl⟩
      count := by decide }
  have hfresh : Storable snapshotProtobuf (.bootstrap ⟨[]⟩) :=
    { hardState := hbefore.hardState
      confState := hconf
      snapshot := hbefore.snapshot
      entries := by
        intro e he
        obtain rfl := List.mem_singleton.mp he
        exact ⟨_, rfl, by decide, rfl⟩
      count := by decide }
  obtain ⟨image, hbytes, hload, htorn, hcrash⟩ := stateFile_lossless snapshotProtobuf hbehind
  obtain ⟨old, hold, -⟩ := stateBytes_of_storable hbefore
  refine ⟨image, hbytes, hload, htorn, old, hold, fun files' hfiles => ?_⟩
  obtain ⟨left, hleft, hopen⟩ := (hcrash (some beforeSnapshot) ⟨some old, none⟩ ⟨old, hold, rfl⟩
    fun state' hstate' => Option.mem_some_iff.mp hstate' ▸ hbefore).2 files' hfiles
  obtain ⟨files'', hopened⟩ := hopen ⟨[]⟩ hfresh
  rcases hleft with rfl | rfl
  · exact ⟨beforeSnapshot, files'', Or.inl rfl, hopened⟩
  · exact ⟨behindSnapshot, files'', Or.inr rfl, hopened⟩

end WalServer.Raft
