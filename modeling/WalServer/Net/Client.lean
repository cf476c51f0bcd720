import WalServer.Lib.Transition
import WalServer.Net.Wire

/-!
# `WalServer.Net.Client`: a client gets the answers to its own requests

The clients in `bin/` send a request, read the header of the response, and then as many
bytes as the header says. A response does not say which request it answers, so a client that
goes on after an error must not take the answer to an older request for one to a newer.
`BenchConnection` drops its connection after any error, and opens another one for the next
request.

`Client` is the connection's owner between two of its reads and writes, with the connections
it has opened and a server at their other ends, which answers what it decodes one after the
other, whenever and whatever it likes. A connection carries a first part of what was written
on it, in pieces of any size. In every run what a send returns is what the server has
answered to that very request, no answer is returned twice, and no response fails to be
decoded (`answers_own_request`).
-/

set_option autoImplicit false

namespace WalServer.Net

open WalServer.Lib WalServer.Protocol

/-- Where `send_on_stream` is. -/
inductive ClientTask where
  | idle
  /-- In `write_all`, with the bytes that are still to be written. -/
  | writing (req : Request) (rest : Bytes)
  /-- In `read_exact` for the header or the payload, with the bytes that are there. -/
  | reading (req : Request) (got : Bytes)
  /-- The response could not be decoded. -/
  | panicked
deriving DecidableEq, Repr

/-- A connection to a server: what is on its way, and what the server has not decoded. The
requests that were sent on it and the server's answers are records that no step reads. -/
structure ClientConn where
  addr : Nat
  toServer : Bytes
  parseBuf : Bytes
  toClient : Bytes
  issued : List Request
  served : List (Request × Response)

/-- A connection that was just opened. -/
def ClientConn.fresh (addr : Nat) : ClientConn := ⟨addr, [], [], [], [], []⟩

/-- What a send has returned, and for which request on which connection. -/
structure Answered where
  addr : Nat
  conn : Nat
  index : Nat
  req : Request
  resp : Response

/-- The owner of a connection, and all connections that it has opened. -/
structure Client where
  addr : Nat
  stream : Option Nat
  opened : Nat
  task : ClientTask
  conns : Nat → ClientConn
  completed : List Answered

namespace Client

/-- What happens at the client, on its connections and at the server. -/
inductive Action where
  /-- The owner is to talk to a server. -/
  | setAddr (addr : Nat)
  /-- The owner gives its connection up. -/
  | drop
  /-- A request is sent, on a new connection if there is none; its connect may fail. -/
  | send (req : Request) (connects : Bool)
  /-- Some bytes go out. -/
  | write (n : Nat)
  /-- `write_all` returns. -/
  | written
  /-- Some bytes come in. -/
  | read (n : Nat)
  /-- A write or a read fails or takes too long. -/
  | fail
  /-- Some bytes arrive at the server. -/
  | deliver (conn n : Nat)
  /-- The server decodes a request and answers it. -/
  | serve (conn : Nat) (resp : Response)
deriving DecidableEq, Repr

/-- How many bytes of a response are to be read, as far as the ones that are there tell. -/
def wanted (got : Bytes) : Nat :=
  if got.length < responseHeaderSize then responseHeaderSize
  else responseHeaderSize + fromBeBytes (slice got 22 26)

/-- A connection after something happened on it. -/
def onConn (s : Client) (k : Nat) (f : ClientConn → ClientConn) : Client :=
  { s with conns := Function.update s.conns k (f (s.conns k)) }

/-- Starts to write a request. -/
def begin (s : Client) (k : Nat) (req : Request) : Client :=
  { s.onConn k (fun c => { c with issued := c.issued ++ [req] }) with
    stream := some k
    task := .writing req (encodeRequest req) }

/-- Goes on with the bytes of a response: they are all there, or more are to be read. -/
def received (s : Client) (k : Nat) (req : Request) (got : Bytes) : Client :=
  if got.length < wanted got then { s with task := .reading req got }
  else
    match decodeResponse got with
    | .ok resp => { s with
        task := .idle
        completed := s.completed ++
          [⟨s.addr, k, (s.conns k).issued.length - 1, req, resp⟩] }
    | .error _ => { s with task := .panicked }

/-- What an action does, where it can happen. -/
def step (s : Client) : Action → Option Client
  | .setAddr addr =>
      if s.task = .idle then
        if s.addr = addr then some s else some { s with addr := addr, stream := none }
      else none
  | .drop => if s.task = .idle then some { s with stream := none } else none
  | .send req connects =>
      if s.task = .idle then
        match s.stream with
        | some k => some (s.begin k req)
        | none   =>
            if connects then
              some (({ s with opened := s.opened + 1 }.onConn s.opened
                fun _ => .fresh s.addr).begin s.opened req)
            else some s
      else none
  | .write n =>
      match s.task, s.stream with
      | .writing req rest, some k =>
          if 0 < n ∧ n ≤ rest.length then
            some { s.onConn k (fun c => { c with toServer := c.toServer ++ rest.take n }) with
              task := .writing req (rest.drop n) }
          else none
      | _, _ => none
  | .written =>
      match s.task with
      | .writing req [] => some { s with task := .reading req [] }
      | _               => none
  | .read n =>
      match s.task, s.stream with
      | .reading req got, some k =>
          if 0 < n ∧ n ≤ (s.conns k).toClient.length ∧ got.length + n ≤ wanted got then
            some ((s.onConn k fun c => { c with toClient := c.toClient.drop n }).received k req
              (got ++ (s.conns k).toClient.take n))
          else none
      | _, _ => none
  | .fail =>
      match s.task with
      | .writing _ _ => some { s with task := .idle, stream := none }
      | .reading _ _ => some { s with task := .idle, stream := none }
      | _            => none
  | .deliver k n =>
      if n ≤ (s.conns k).toServer.length then
        some (s.onConn k fun c => { c with
          toServer := c.toServer.drop n
          parseBuf := c.parseBuf ++ c.toServer.take n })
      else none
  | .serve k resp =>
      match decodeRequest (s.conns k).parseBuf with
      | .ok (some (req, taken)) =>
          some (s.onConn k fun c => { c with
            parseBuf := c.parseBuf.drop taken
            toClient := c.toClient ++ encodeResponse resp
            served := c.served ++ [(req, resp)] })
      | _ => none

/-- The runs of a client without connection. -/
def system (addr : Nat) : System Client Action where
  init := ⟨addr, none, 0, .idle, fun _ => .fresh 0, []⟩
  step := step

/-- The fields of requests and responses have the widths of the format. -/
def fits : Client → Action → Prop
  | _, .send req _   => req.Fits
  | _, .serve _ resp => resp.Fits
  | _, _             => True

instance (req : Request) : Decidable req.Fits :=
  decidable_of_iff (req.streamId < 256 ^ 8 ∧ req.epoch < 256 ^ 8 ∧ req.offset < 256 ^ 8 ∧
      req.payload.length < 256 ^ 4)
    ⟨fun ⟨h₁, h₂, h₃, h₄⟩ => ⟨h₁, h₂, h₃, h₄⟩, fun ⟨h₁, h₂, h₃, h₄⟩ => ⟨h₁, h₂, h₃, h₄⟩⟩

instance (resp : Response) : Decidable resp.Fits :=
  decidable_of_iff (resp.epoch < 256 ^ 8 ∧ resp.offset < 256 ^ 8 ∧
      resp.payload.length < 256 ^ 4)
    ⟨fun ⟨h₁, h₂, h₃⟩ => ⟨h₁, h₂, h₃⟩, fun ⟨h₁, h₂, h₃⟩ => ⟨h₁, h₂, h₃⟩⟩

instance (s : Client) (a : Action) : Decidable (fits s a) := by
  cases a <;> dsimp only [fits] <;> infer_instance

/-! ### What every run keeps -/

/-- A request under way on a connection: `rest` of it is to be written, and `got` of its answer
is there. Everything before it is answered; it is on its way, or its answer is. -/
def Outstanding (c : ClientConn) (req : Request) (rest got : Bytes) : Prop :=
  ∃ before, c.issued = before.map Prod.fst ++ [req] ∧ req.Fits ∧
    ((c.served = before ∧ c.parseBuf ++ (c.toServer ++ rest) = encodeRequest req ∧
        c.toClient = [] ∧ got = []) ∨
      ∃ resp, c.served = before ++ [(req, resp)] ∧ resp.Fits ∧ c.parseBuf = [] ∧
        c.toServer = [] ∧ rest = [] ∧ got ++ c.toClient = encodeResponse resp)

/-- A connection with nothing under way. -/
structure Settled (c : ClientConn) : Prop where
  issued : c.issued = c.served.map Prod.fst
  parseBuf : c.parseBuf = []
  toServer : c.toServer = []
  toClient : c.toClient = []

/-- The connection that a task has is in step with it. -/
def InStep (c : ClientConn) : ClientTask → Prop
  | .idle            => Settled c
  | .writing req rest => Outstanding c req rest []
  | .reading req got  => Outstanding c req [] got ∧ got.length < wanted got
  | .panicked        => False

/-- **Requests and answers are paired.** -/
structure Paired (s : Client) : Prop where
  current : ∀ k, s.stream = some k → InStep (s.conns k) s.task
  connected : s.task ≠ .idle → ∃ k, s.stream = some k
  addr : ∀ k, s.stream = some k → k < s.opened ∧ (s.conns k).addr = s.addr
  answers : ∀ a ∈ s.completed, a.conn < s.opened ∧ (s.conns a.conn).addr = a.addr ∧
    (s.conns a.conn).issued[a.index]? = some a.req ∧
    (s.conns a.conn).served[a.index]? = some (a.req, a.resp)
  ahead : ∀ a ∈ s.completed, s.stream = some a.conn → s.task ≠ .idle →
    a.index + 1 < (s.conns a.conn).issued.length
  once : (s.completed.map fun a => (a.conn, a.index)).Nodup

/-- What happens on a connection only adds to what was sent and answered on it. -/
structure Grows (c c' : ClientConn) : Prop where
  addr : c'.addr = c.addr
  issued : c.issued <+: c'.issued
  served : c.served <+: c'.served

theorem Grows.refl (c : ClientConn) : Grows c c := ⟨rfl, List.prefix_rfl, List.prefix_rfl⟩

theorem getElem?_of_prefix {α : Type} {xs ys : List α} (h : xs <+: ys) {i : Nat} {x : α}
    (hi : xs[i]? = some x) : ys[i]? = some x := by
  obtain ⟨zs, rfl⟩ := h
  rw [List.getElem?_append_left (List.getElem?_eq_some_iff.mp hi).1, hi]

variable {s t : Client}

/-- Answers that were given stay those to their requests. -/
theorem Paired.answers_of_grows (h : s.Paired)
    (hgrows : ∀ k < s.opened, Grows (s.conns k) (t.conns k)) (hopened : s.opened ≤ t.opened) :
    ∀ a ∈ s.completed, a.conn < t.opened ∧ (t.conns a.conn).addr = a.addr ∧
      (t.conns a.conn).issued[a.index]? = some a.req ∧
      (t.conns a.conn).served[a.index]? = some (a.req, a.resp) := by
  intro a ha
  obtain ⟨hconn, haddr, hissued, hserved⟩ := h.answers a ha
  have hg := hgrows a.conn hconn
  exact ⟨by omega, hg.addr.trans haddr, getElem?_of_prefix hg.issued hissued,
    getElem?_of_prefix hg.served hserved⟩

/-- A change of one connection. -/
theorem grows_onConn (s : Client) (k : Nat) (f : ClientConn → ClientConn)
    (h : Grows (s.conns k) (f (s.conns k))) (k' : Nat) :
    Grows (s.conns k') ((s.onConn k f).conns k') := by
  show Grows _ (Function.update s.conns k (f (s.conns k)) k')
  by_cases hk : k' = k
  · subst hk
    rw [Function.update_self]
    exact h
  · rw [Function.update_of_ne hk]
    exact .refl _

/-- The connection that was changed. -/
theorem conns_onConn_self (s : Client) (k : Nat) (f : ClientConn → ClientConn) :
    (s.onConn k f).conns k = f (s.conns k) :=
  Function.update_self ..

/-- **On a connection** something may happen that only adds to what was sent and answered
on it, and keeps it in step with the task when it is the current one. -/
theorem Paired.onConn (h : s.Paired) {k : Nat} {f : ClientConn → ClientConn}
    (hgrows : Grows (s.conns k) (f (s.conns k)))
    (hstep : s.stream = some k → InStep (f (s.conns k)) s.task) : (s.onConn k f).Paired := by
  have hall := grows_onConn s k f hgrows
  refine ⟨fun k' hk' => ?_, h.connected, fun k' hk' => ?_,
    h.answers_of_grows (fun k' _ => hall k') (Nat.le_refl _), fun a ha hk' htask => ?_, h.once⟩
  · by_cases hk : k' = k
    · subst hk
      rw [conns_onConn_self]
      exact hstep hk'
    · rw [show (s.onConn k f).conns k' = s.conns k' from Function.update_of_ne hk ..]
      exact h.current k' hk'
  · obtain ⟨hopen, haddr⟩ := h.addr k' hk'
    exact ⟨hopen, (hall k').addr.trans haddr⟩
  · exact Nat.lt_of_lt_of_le (h.ahead a ha hk' htask) (hall a.conn).issued.length_le

/-- **Without connection** nothing is under way. -/
theorem Paired.disconnect (h : s.Paired) (addr : Nat) :
    Paired { s with addr := addr, task := .idle, stream := none } where
  current := fun _ hk => nomatch hk
  connected := fun htask => absurd rfl htask
  addr := fun _ hk => nomatch hk
  answers := h.answers
  ahead := fun _ _ hk => nomatch hk
  once := h.once

/-- **A new connection** has nothing on it. -/
theorem Paired.connect (h : s.Paired) (htask : s.task = .idle) (hnone : s.stream = none) :
    ({ s with opened := s.opened + 1 }.onConn s.opened fun _ => .fresh s.addr).Paired := by
  have hgrows : ∀ k < s.opened, Grows (s.conns k)
      (({ s with opened := s.opened + 1 }.onConn s.opened fun _ => .fresh s.addr).conns k) := by
    intro k hk
    show Grows _ (Function.update s.conns s.opened (.fresh s.addr) k)
    rw [Function.update_of_ne (Nat.ne_of_lt hk)]
    exact .refl _
  exact {
    current := fun _ hk => nomatch hnone.symm.trans hk
    connected := fun hne => absurd htask hne
    addr := fun _ hk => nomatch hnone.symm.trans hk
    answers := h.answers_of_grows hgrows (Nat.le_succ _)
    ahead := fun _ _ hk => nomatch hnone.symm.trans hk
    once := h.once }

/-- **Starting to send** on a settled connection. -/
theorem Paired.begin (h : s.Paired) {k : Nat} {req : Request} (hfits : req.Fits)
    (hconn : k < s.opened) (haddr : (s.conns k).addr = s.addr) (hsettled : Settled (s.conns k)) :
    (s.begin k req).Paired := by
  have hself : (s.begin k req).conns k =
      { s.conns k with issued := (s.conns k).issued ++ [req] } := Function.update_self ..
  have hgrows : ∀ k' < s.opened, Grows (s.conns k') ((s.begin k req).conns k') :=
    fun k' _ => grows_onConn s k (fun c => { c with issued := c.issued ++ [req] })
      ⟨rfl, List.prefix_append _ _, List.prefix_rfl⟩ k'
  refine ⟨fun k' hk' => ?_, fun _ => ⟨k, rfl⟩, fun k' hk' => ?_,
    h.answers_of_grows hgrows (Nat.le_refl _), fun a ha hk' _ => ?_, h.once⟩
  · cases hk'
    rw [hself]
    refine ⟨(s.conns k).served, ?_, hfits, Or.inl ⟨rfl, ?_, hsettled.toClient, rfl⟩⟩
    · show (s.conns k).issued ++ [req] = _
      rw [hsettled.issued]
    · show (s.conns k).parseBuf ++ ((s.conns k).toServer ++ encodeRequest req) = _
      rw [hsettled.parseBuf, hsettled.toServer]
      rfl
  · cases hk'
    rw [hself]
    exact ⟨hconn, haddr⟩
  · -- The new request is behind all that were answered.
    have hk : k = a.conn := Option.some.inj hk'
    subst hk
    obtain ⟨-, -, hissued, -⟩ := h.answers a ha
    rw [hself, List.length_append, List.length_singleton]
    have := (List.getElem?_eq_some_iff.mp hissued).1
    omega

/-- **The task goes on** on the current connection. -/
theorem Paired.proceed (h : s.Paired) {k : Nat} (hk : s.stream = some k)
    {f : ClientConn → ClientConn} {task : ClientTask} (hbusy : s.task ≠ .idle)
    (hgrows : Grows (s.conns k) (f (s.conns k))) (hstep : InStep (f (s.conns k)) task) :
    Paired { s.onConn k f with task := task } := by
  have hall := grows_onConn s k f hgrows
  refine ⟨fun k' hk' => ?_, fun _ => ⟨k, hk⟩, fun k' hk' => ?_,
    h.answers_of_grows (fun k' _ => hall k') (Nat.le_refl _), fun a ha hk' _ => ?_, h.once⟩
  · cases hk.symm.trans hk'
    show InStep ((s.onConn k f).conns k) task
    rw [conns_onConn_self]
    exact hstep
  · obtain ⟨hopen, haddr⟩ := h.addr k' hk'
    exact ⟨hopen, (hall k').addr.trans haddr⟩
  · exact Nat.lt_of_lt_of_le (h.ahead a ha hk' hbusy) (hall a.conn).issued.length_le

/-- **A send returns** the answer to the last request that was sent on its connection. -/
theorem Paired.complete (h : s.Paired) {k : Nat} (hk : s.stream = some k)
    {f : ClientConn → ClientConn} (hbusy : s.task ≠ .idle)
    (hgrows : Grows (s.conns k) (f (s.conns k))) (hsettled : Settled (f (s.conns k)))
    {index : Nat} {req : Request} {resp : Response}
    (hserved : (f (s.conns k)).served[index]? = some (req, resp))
    (hlast : (s.conns k).issued.length = index + 1) :
    Paired { s.onConn k f with
      task := .idle
      completed := s.completed ++ [⟨s.addr, k, index, req, resp⟩] } := by
  have hall := grows_onConn s k f hgrows
  have hkeep := h.answers_of_grows (t := s.onConn k f) (fun k' _ => hall k') (Nat.le_refl _)
  obtain ⟨hopen, haddr⟩ := h.addr k hk
  refine ⟨fun k' hk' => ?_, fun hne => absurd rfl hne, fun k' hk' => ?_, fun a ha => ?_,
    fun _ _ _ hne => absurd rfl hne, ?_⟩
  · cases hk.symm.trans hk'
    show Settled ((s.onConn k f).conns k)
    rw [conns_onConn_self]
    exact hsettled
  · obtain ⟨hopen', haddr'⟩ := h.addr k' hk'
    exact ⟨hopen', (hall k').addr.trans haddr'⟩
  · rcases List.mem_append.mp ha with hold | hnew
    · exact hkeep a hold
    · obtain rfl := List.mem_singleton.mp hnew
      refine ⟨hopen, (hall k).addr.trans haddr, ?_, ?_⟩
      · show ((s.onConn k f).conns k).issued[index]? = some req
        rw [conns_onConn_self, hsettled.issued, List.getElem?_map, hserved]
        rfl
      · show ((s.onConn k f).conns k).served[index]? = some (req, resp)
        rw [conns_onConn_self]
        exact hserved
  · -- Everything that was returned before on this connection came earlier on it.
    show ((s.completed ++ _).map _).Nodup
    rw [List.map_append, List.nodup_append]
    refine ⟨h.once, List.nodup_singleton _, fun key hold key' hnew heq => ?_⟩
    obtain ⟨a, ha, rfl⟩ := List.mem_map.mp hold
    obtain ⟨rfl, rfl⟩ := Prod.mk.inj (heq.trans (List.mem_singleton.mp hnew))
    have := h.ahead a ha hk hbusy
    omega

/-! ### Reading a response -/

/-- How much is to be read is known from the first part of a response that has its header. -/
theorem wanted_of_part {resp : Response} (hfits : resp.Fits) {got : Bytes}
    (hgot : got <+: encodeResponse resp) :
    wanted got = if got.length < responseHeaderSize then responseHeaderSize
      else (encodeResponse resp).length := by
  unfold wanted
  split
  · rfl
  rename_i hheader
  have hsize : slice (encodeResponse resp) 22 26 = toBeBytes 4 resp.payload.length :=
    slice_flatten [toBeBytes 4 magic, [version, resp.status.toU8], toBeBytes 8 resp.epoch,
      toBeBytes 8 resp.offset] _ _ (by simp) (by simp)
  obtain ⟨rest, hrest⟩ := hgot
  rw [← hrest, slice_append_left (by unfold responseHeaderSize at hheader; omega)] at hsize
  rw [hsize, fromBeBytes_toBeBytes_of_lt hfits.payload, length_encodeResponse]

/-- **A read** of a part of the response is followed by another, and one of its end returns
the response. -/
theorem Paired.read (h : s.Paired) {req : Request} {got : Bytes} {k n : Nat}
    (htask : s.task = .reading req got) (hk : s.stream = some k)
    (hn : 0 < n ∧ n ≤ (s.conns k).toClient.length ∧ got.length + n ≤ wanted got) :
    ((s.onConn k fun c => { c with toClient := c.toClient.drop n }).received k req
      (got ++ (s.conns k).toClient.take n)).Paired := by
  have hbusy : s.task ≠ .idle := by rw [htask]; exact fun hne => nomatch hne
  have hcurrent := h.current k hk
  rw [htask] at hcurrent
  obtain ⟨⟨before, hissued, hreq, hleft | ⟨resp, hserved, hfits, hparse, hto, -, himage⟩⟩, -⟩ :=
    hcurrent
  · -- Nothing has been answered, so there is nothing to read.
    rw [hleft.2.2.1] at hn
    exact absurd (Nat.lt_of_lt_of_le hn.1 hn.2.1) (Nat.lt_irrefl 0)
  have hsplit : got ++ (s.conns k).toClient.take n ++ (s.conns k).toClient.drop n =
      encodeResponse resp := by
    rw [List.append_assoc, List.take_append_drop]
    exact himage
  have hprefix : got ++ (s.conns k).toClient.take n <+: encodeResponse resp := ⟨_, hsplit⟩
  have hgrows : Grows (s.conns k)
      { s.conns k with toClient := (s.conns k).toClient.drop n } :=
    ⟨rfl, List.prefix_rfl, List.prefix_rfl⟩
  unfold received
  split
  · -- More is to be read.
    rename_i hmore
    refine h.proceed hk (f := fun c => { c with toClient := c.toClient.drop n }) hbusy hgrows
      ⟨⟨before, hissued, hreq, Or.inr ⟨resp, hserved, hfits, hparse, hto, rfl, ?_⟩⟩, hmore⟩
    exact hsplit
  · -- The response is complete.
    rename_i hdone
    rw [wanted_of_part hfits hprefix] at hdone
    have hall : got ++ (s.conns k).toClient.take n = encodeResponse resp := by
      refine hprefix.eq_of_length_le ?_
      split at hdone
      · contradiction
      · exact Nat.not_lt.mp hdone
    have hdrop : (s.conns k).toClient.drop n = [] := by
      rw [hall] at hsplit
      exact List.append_right_eq_self.mp hsplit
    rw [hall, decodeResponse_encodeResponse hfits]
    have hcount : (s.conns k).issued.length = before.length + 1 := by
      rw [hissued, List.length_append, List.length_map, List.length_singleton]
    have hindex : ((s.onConn k fun c =>
        { c with toClient := c.toClient.drop n }).conns k).issued.length - 1 = before.length := by
      rw [conns_onConn_self]
      show (s.conns k).issued.length - 1 = _
      omega
    simp only [hindex]
    refine h.complete hk (f := fun c => { c with toClient := c.toClient.drop n }) hbusy hgrows
      ⟨?_, hparse, hto, hdrop⟩ ?_ hcount
    · show (s.conns k).issued = (s.conns k).served.map Prod.fst
      rw [hissued, hserved, List.map_append]
      rfl
    · show (s.conns k).served[before.length]? = _
      rw [hserved, List.getElem?_append_right (Nat.le_refl _), Nat.sub_self]
      rfl

/-! ### The server -/

/-- **The server decodes** the whole of a request, and nothing else. -/
theorem Outstanding.serve {c : ClientConn} {req : Request} {rest got : Bytes}
    (h : Outstanding c req rest got) {req' : Request} {taken : Nat}
    (hdec : decodeRequest c.parseBuf = .ok (some (req', taken))) {resp : Response}
    (hfits : resp.Fits) :
    Outstanding { c with
      parseBuf := c.parseBuf.drop taken
      toClient := c.toClient ++ encodeResponse resp
      served := c.served ++ [(req', resp)] } req rest got := by
  obtain ⟨before, hissued, hreq, ⟨hserved, himage, hto, hgot⟩ | ⟨_, -, -, hparse, -⟩⟩ := h
  · have hwhole : c.parseBuf = encodeRequest req := by
      by_contra hne
      rw [ decodeRequest_of_prefix hreq ⟨_, himage⟩ hne] at hdec
      cases hdec
    have hnothing : c.toServer ++ rest = [] := by
      rw [hwhole] at himage
      exact List.append_right_eq_self.mp himage
    obtain ⟨hserver, hrest⟩ := List.append_eq_nil_iff.mp hnothing
    rw [hwhole, decodeRequest_encodeRequest hreq] at hdec
    cases hdec
    refine ⟨before, hissued, hreq, Or.inr ⟨resp, by rw [hserved], hfits, ?_, hserver, hrest, ?_⟩⟩
    · show c.parseBuf.drop _ = []
      rw [hwhole, List.drop_length]
    · show got ++ (c.toClient ++ encodeResponse resp) = _
      rw [hgot, hto]
      rfl
  · -- It is already answered.
    rw [hparse] at hdec
    cases hdec

/-- Bytes arrive in the order in which they were written. -/
theorem Outstanding.deliver {c : ClientConn} {req : Request} {rest got : Bytes}
    (h : Outstanding c req rest got) (n : Nat) :
    Outstanding { c with
      toServer := c.toServer.drop n
      parseBuf := c.parseBuf ++ c.toServer.take n } req rest got := by
  obtain ⟨before, hissued, hreq, ⟨hserved, himage, hto, hgot⟩ |
    ⟨resp, hserved, hfits, hparse, hserver, hrest, himage⟩⟩ := h
  · refine ⟨before, hissued, hreq, Or.inl ⟨hserved, ?_, hto, hgot⟩⟩
    show c.parseBuf ++ c.toServer.take n ++ (c.toServer.drop n ++ rest) = _
    rw [List.append_assoc, ← List.append_assoc (c.toServer.take n), List.take_append_drop]
    exact himage
  · refine ⟨before, hissued, hreq, Or.inr ⟨resp, hserved, hfits, ?_, ?_, hrest, himage⟩⟩
    · show c.parseBuf ++ c.toServer.take n = []
      rw [hparse, hserver, List.take_nil]
      rfl
    · show c.toServer.drop n = []
      rw [hserver, List.drop_nil]

/-- What keeps a request outstanding keeps its connection in step, if it also keeps a settled
one. -/
theorem InStep.map {c c' : ClientConn} {task : ClientTask} (h : InStep c task)
    (hsettled : Settled c → Settled c')
    (houtstanding : ∀ req rest got, Outstanding c req rest got → Outstanding c' req rest got) :
    InStep c' task := by
  cases task with
  | idle             => exact hsettled h
  | writing req rest => exact houtstanding req rest [] h
  | reading req got  => exact ⟨houtstanding req [] got h.1, h.2⟩
  | panicked         => exact h

/-! ### One step, and every run -/

/-- **One step** keeps requests and answers paired. -/
theorem Paired.step (h : s.Paired) {a : Action} (hfits : fits s a) (ht : s.step a = some t) :
    t.Paired := by
  cases a with
  | setAddr addr =>
      simp only [Client.step] at ht
      split at ht
      · rename_i htask
        split at ht
        · cases ht
          exact h
        · cases ht
          have := h.disconnect addr
          rwa [← htask] at this
      · cases ht
  | drop =>
      simp only [Client.step] at ht
      split at ht
      · rename_i htask
        cases ht
        have := h.disconnect s.addr
        rwa [← htask] at this
      · cases ht
  | send req connects =>
      simp only [Client.step] at ht
      split at ht
      · rename_i htask
        cases hstream : s.stream with
        | some k =>
            rw [hstream] at ht
            cases ht
            obtain ⟨hconn, haddr⟩ := h.addr k hstream
            have hcurrent := h.current k hstream
            rw [htask] at hcurrent
            exact h.begin hfits hconn haddr hcurrent
        | none =>
            simp only [hstream] at ht
            split at ht
            · cases ht
              have hself : ({ s with opened := s.opened + 1 }.onConn s.opened
                  fun _ => .fresh s.addr).conns s.opened = .fresh s.addr := conns_onConn_self ..
              refine (h.connect htask hstream).begin hfits (Nat.lt_succ_self _) ?_ ?_
              · rw [hself]
                rfl
              · rw [hself]
                exact ⟨rfl, rfl, rfl, rfl⟩
            · cases ht
              exact h
      · cases ht
  | write n =>
      simp only [Client.step] at ht
      split at ht
      · rename_i req rest k htask hk
        split at ht
        · rename_i hn
          cases ht
          have hcurrent := h.current k hk
          rw [htask] at hcurrent
          obtain ⟨before, hissued, hreq, ⟨hserved, himage, hto, hgot⟩ |
            ⟨resp, -, -, -, -, hrest, -⟩⟩ := hcurrent
          · refine h.proceed hk (f := fun c => { c with toServer := c.toServer ++ rest.take n })
              (by rw [htask]; exact fun hne => nomatch hne)
              ⟨rfl, List.prefix_rfl, List.prefix_rfl⟩
              ⟨before, hissued, hreq, Or.inl ⟨hserved, ?_, hto, hgot⟩⟩
            show (s.conns k).parseBuf ++ ((s.conns k).toServer ++ rest.take n ++ rest.drop n) = _
            rw [List.append_assoc (s.conns k).toServer, List.take_append_drop]
            exact himage
          · -- What is answered was written.
            rw [hrest] at hn
            exact absurd (Nat.lt_of_lt_of_le hn.1 hn.2) (Nat.lt_irrefl 0)
        · cases ht
      · cases ht
  | written =>
      simp only [Client.step] at ht
      split at ht
      · rename_i req htask
        cases ht
        have hbusy : s.task ≠ .idle := by rw [htask]; exact fun hne => nomatch hne
        obtain ⟨k, hk⟩ := h.connected hbusy
        have hcurrent := h.current k hk
        rw [htask] at hcurrent
        have hsame : s.onConn k id = s := by
          unfold Client.onConn
          rw [id_eq, Function.update_eq_self]
        have hproceed : Paired { s.onConn k id with task := .reading req [] } :=
          h.proceed hk hbusy (.refl _) ⟨hcurrent, by decide⟩
        rwa [hsame] at hproceed
      · cases ht
  | read n =>
      simp only [Client.step] at ht
      split at ht
      · rename_i req got k htask hk
        split at ht
        · rename_i hn
          cases ht
          exact h.read htask hk hn
        · cases ht
      · cases ht
  | fail =>
      simp only [Client.step] at ht
      split at ht
      · cases ht
        exact h.disconnect s.addr
      · cases ht
        exact h.disconnect s.addr
      · cases ht
  | deliver k n =>
      simp only [Client.step] at ht
      split at ht
      · cases ht
        refine h.onConn ⟨rfl, List.prefix_rfl, List.prefix_rfl⟩ fun hk =>
          (h.current k hk).map (fun hsettled => ?_) fun _ _ _ hout => hout.deliver n
        refine ⟨hsettled.issued, ?_, ?_, hsettled.toClient⟩
        · show (s.conns k).parseBuf ++ (s.conns k).toServer.take n = []
          rw [hsettled.parseBuf, hsettled.toServer, List.take_nil]
          rfl
        · show (s.conns k).toServer.drop n = []
          rw [hsettled.toServer, List.drop_nil]
      · cases ht
  | serve k resp =>
      simp only [Client.step] at ht
      split at ht
      · rename_i req taken hdec
        cases ht
        refine h.onConn ⟨rfl, List.prefix_rfl, List.prefix_append _ _⟩ fun hk =>
          (h.current k hk).map (fun hsettled => ?_) fun _ _ _ hout => hout.serve hdec hfits
        rw [hsettled.parseBuf] at hdec
        cases hdec
      · cases ht

/-- Requests and answers are paired in every run. -/
theorem paired_of_reachable {addr : Nat} (h : (system addr).Reachable fits s) : s.Paired := by
  refine h.invariant ?_ fun _ _ _ _ ht hfits hu => ht.step hfits hu
  exact {
    current := fun _ hk => nomatch hk
    connected := fun hne => absurd rfl hne
    addr := fun _ hk => nomatch hk
    answers := fun _ ha => nomatch ha
    ahead := fun _ ha => nomatch ha
    once := List.nodup_nil }

/-- **What a send returns** is what the server at the address it was sent to has answered to
that request, and no answer is returned twice. No response fails to be decoded. -/
theorem answers_own_request {addr : Nat} (h : (system addr).Reachable fits s) :
    (∀ a ∈ s.completed, (s.conns a.conn).addr = a.addr ∧
      (s.conns a.conn).issued[a.index]? = some a.req ∧
      (s.conns a.conn).served[a.index]? = some (a.req, a.resp)) ∧
    (s.completed.map fun a => (a.conn, a.index)).Nodup ∧ s.task ≠ .panicked := by
  have hpaired := paired_of_reachable h
  refine ⟨fun a ha => (hpaired.answers a ha).2, hpaired.once, fun htask => ?_⟩
  obtain ⟨k, hk⟩ := hpaired.connected (by rw [htask]; exact fun hne => nomatch hne)
  have hcurrent := hpaired.current k hk
  rw [htask] at hcurrent
  exact hcurrent

/-- A read whose answer comes too late, another one on a new connection, and a third on the
same: `answers_own_request`. -/
def timedOutRun : List Action :=
  [.send ⟨.read, 1, 1, 10, []⟩ true, .write 34, .written, .deliver 0 34, .fail,
    .serve 0 ⟨.ok, 1, 10, [7]⟩,
    .send ⟨.read, 1, 1, 20, []⟩ true, .write 20, .write 14, .written, .deliver 1 34,
    .serve 1 ⟨.ok, 1, 20, [8, 9]⟩, .read 10, .read 16, .read 2,
    .send ⟨.read, 1, 1, 30, []⟩ false, .write 34, .written, .deliver 1 34,
    .serve 1 ⟨.errNotFound, 1, 30, []⟩, .read 26]

theorem answers_own_request_timedOut :
    ∃ s : Client, ((∀ a ∈ s.completed, (s.conns a.conn).addr = a.addr ∧
        (s.conns a.conn).issued[a.index]? = some a.req ∧
        (s.conns a.conn).served[a.index]? = some (a.req, a.resp)) ∧
      (s.completed.map fun a => (a.conn, a.index)).Nodup ∧ s.task ≠ .panicked) ∧
      s.completed.map (fun a => (a.conn, a.index, a.resp.payload)) =
        [(1, 0, [8, 9]), (1, 1, [])] := by
  obtain ⟨s, hs, hends⟩ := System.exists_reachable_of_execute (system 0) fits timedOutRun
    (fun s => s.completed.map (fun a => (a.conn, a.index, a.resp.payload)) =
      [(1, 0, [8, 9]), (1, 1, [])]) (by decide +kernel)
  exact ⟨s, answers_own_request hs, hends⟩

end Client

end WalServer.Net
