import WalServer.Cluster.Model

/-!
# `WalServer.Cluster.Step`: what a step of the group can be

`Step` lists what can come of an event, one case for each, with the guards of
the step function and the state after it. `step_sound` derives it from the step
function once, and every invariant is proved by cases on `Step`. `step_complete` is the
way back, by which runs are continued.
`Step.nodes_other` is the frame: a step changes no node but its own.
-/

set_option autoImplicit false

namespace WalServer.Cluster

open WalServer.Lib WalServer.Raft WalServer.Shard WalServer.Wal

namespace ShardGroup

@[simp] theorem nodes_update_self (σ : ShardGroup) (n : Nat) (x : Node) :
    (σ.update n x).nodes n = x := if_pos rfl

theorem nodes_update_other (σ : ShardGroup) {n m : Nat} (x : Node) (h : m ≠ n) :
    (σ.update n x).nodes m = σ.nodes m := if_neg h

@[simp] theorem terms_update (σ : ShardGroup) (n : Nat) (x : Node) :
    (σ.update n x).terms = σ.terms := rfl

@[simp] theorem snapshots_update (σ : ShardGroup) (n : Nat) (x : Node) :
    (σ.update n x).snapshots = σ.snapshots := rfl

@[simp] theorem proposals_update (σ : ShardGroup) (n : Nat) (x : Node) :
    (σ.update n x).proposals = σ.proposals := rfl

@[simp] theorem acks_update (σ : ShardGroup) (n : Nat) (x : Node) :
    (σ.update n x).acks = σ.acks := rfl

/-- The outcomes of an event on the node `n`, whose state is `x`. -/
inductive Step (tailCacheEntries : Nat → Nat) (σ : ShardGroup) (n : Nat) (x : Node) :
    Event → ShardGroup → Prop
  | writeRedirected {conn s epoch : Nat} {payload : Bytes} (hphase : x.phase = .requests)
      (hrole : x.role ≠ .leader) :
      Step tailCacheEntries σ n x (.write conn s epoch payload) σ
  | writeRefused {conn s epoch current : Nat} {payload : Bytes} {core : ShardCore}
      (hphase : x.phase = .requests) (hrole : x.role = .leader)
      (hres : x.core.admitWrite conn s epoch payload = (core, .error current)) :
      Step tailCacheEntries σ n x (.write conn s epoch payload)
        (σ.update n { x with core := core })
  | writeAccepted {conn s epoch : Nat} {payload : Bytes} {core : ShardCore} {cmd : AppendCommand}
      (hphase : x.phase = .requests) (hrole : x.role = .leader)
      (hres : x.core.admitWrite conn s epoch payload = (core, .ok cmd)) :
      Step tailCacheEntries σ n x (.write conn s epoch payload)
        { σ.update n { x with core := core, log := x.log ++ [⟨x.term, some cmd⟩] } with
          terms := σ.terms.append x.term x.log ⟨x.term, some cmd⟩
          proposals := ⟨n, x.incarnation, conn, x.log.length + 1, x.term, cmd⟩ :: σ.proposals }
  | ack {s offset : Nat} (hphase : x.phase = .requests) :
      Step tailCacheEntries σ n x (.ack s offset) (σ.update n { x with
        core := { x.core with streams := (x.core.streams.advanceConsumed s offset).1 } })
  | poll (hphase : x.phase = .requests) :
      Step tailCacheEntries σ n x .poll (σ.update n { x with phase := .raft })
  | follow {role : StateRole} {term leaderId : Nat} (hphase : x.phase = .raft)
      (hrole : role ≠ .leader) (hterm : x.term ≤ term) :
      Step tailCacheEntries σ n x (.follow role term leaderId)
        (σ.update n { x with role := role, term := term, leaderId := leaderId })
  | elect {term : Nat} (hphase : x.phase = .raft) (hrole : x.role ≠ .leader)
      (hterm : x.term ≤ term) (hfresh : σ.terms.ledger term = none)
      (hearlier : σ.terms.HasEarlier term x.log) :
      Step tailCacheEntries σ n x (.elect term)
        { σ.update n { x with
            role := .leader, term := term, leaderId := n, log := x.log ++ [⟨term, none⟩] } with
          terms := σ.terms.openTerm term x.log ⟨term, none⟩ }
  | replicate {term len : Nat} {full : Log} (hfull : σ.terms.ledger term = some full)
      (hphase : x.phase = .raft) (hrole : x.role ≠ .leader) (hkeep : x.committed ≤ len)
      (hlen : len ≤ full.length) (hsame : full.take x.committed = x.log.take x.committed) :
      Step tailCacheEntries σ n x (.replicate term len)
        (σ.update n { x with log := full.take len })
  | commit {len : Nat} (hphase : x.phase = .raft) (hrole : x.role = .leader)
      (hkeep : x.committed ≤ len) (hlen : len ≤ x.log.length)
      (hlater : σ.terms.InLater x.term (x.log.take len)) :
      Step tailCacheEntries σ n x (.commit len)
        { σ.update n { x with committed := len } with terms := σ.terms.commit x.term len }
  | learnCommit {len : Nat} (hphase : x.phase = .raft) (hkeep : x.committed ≤ len)
      (hlen : len ≤ x.log.length) (hsettled : σ.terms.Settled x.term (x.log.take len)) :
      Step tailCacheEntries σ n x (.learnCommit len) (σ.update n { x with committed := len })
  | install {term : Nat} {snapshot : StoredSnapshot} {full : Log}
      (hfull : σ.terms.ledger term = some full) (hphase : x.phase = .raft)
      (hrole : x.role ≠ .leader) (hnew : x.committed < snapshot.index)
      (hmem : snapshot ∈ σ.snapshots) (hlen : snapshot.index ≤ full.length)
      (hsettled : σ.terms.Settled x.term (full.take snapshot.index)) :
      Step tailCacheEntries σ n x (.install term snapshot)
        (σ.update n (x.install (full.take snapshot.index) snapshot))
  | handOverEmpty {timestampNs : Nat} {e : Entry (Option AppendCommand)} (hphase : x.phase = .raft)
      (hlt : x.delivered < x.committed) (he : x.log[x.delivered]? = some e)
      (hdata : e.data = none) :
      Step tailCacheEntries σ n x (.handOver timestampNs)
        (σ.update n { x with delivered := x.delivered + 1 })
  | handOverCommand {timestampNs : Nat} {e : Entry (Option AppendCommand)} {cmd : AppendCommand}
      (hphase : x.phase = .raft) (hlt : x.delivered < x.committed)
      (he : x.log[x.delivered]? = some e) (hdata : e.data = some cmd) :
      Step tailCacheEntries σ n x (.handOver timestampNs)
        { σ.update n (x.applyAppendEntry timestampNs cmd).1 with
          snapshots := (x.applyAppendEntry timestampNs cmd).1.snapshot :: σ.snapshots
          acks := ackOf n x e.term cmd (x.applyAppendEntry timestampNs cmd).2 ++ σ.acks }
  | lightReady (hphase : x.phase = .raft) (hlt : x.delivered < x.committed) :
      Step tailCacheEntries σ n x .lightReady
        (σ.update n { x with delivered := x.delivered + 1 })
  | advance (hphase : x.phase = .raft) :
      Step tailCacheEntries σ n x .advance (σ.update n { x with applied := x.delivered })
  | observe (hphase : x.phase = .raft) :
      Step tailCacheEntries σ n x .observe
        { σ.update n { x with
            core := (x.core.logRaftStateIfChanged x.role x.leaderId).1, phase := .requests } with
          failures := failuresOf n x ++ σ.failures }
  | restart {recovered : List WalRecord} {committed compacted : Nat}
      (hwal : recovered.Sublist x.wal) (hsnap : compacted ≤ x.snapshot.index)
      (hcompacted : compacted ≤ committed) (hcommitted : committed ≤ x.committed) :
      Step tailCacheEntries σ n x (.restart recovered committed compacted)
        (σ.update n (x.reopen (tailCacheEntries n) recovered committed compacted))

variable {tailCacheEntries : Nat → Nat} {σ τ : ShardGroup}

/-- The step function does nothing but what `Step` lists. -/
theorem step_sound {a : Action} (h : σ.step tailCacheEntries a = some τ) :
    Step tailCacheEntries σ a.node (σ.nodes a.node) a.event τ := by
  obtain ⟨n, ev⟩ := a
  -- One case per event: its guard in the function is what the relation asks for.
  unfold step at h
  cases ev with
  | write conn s epoch payload =>
      simp only [Option.ite_none_right_eq_some, Option.some.injEq] at h
      obtain ⟨hphase, rfl⟩ := h
      unfold handleWrite
      by_cases hrole : (σ.nodes n).role = .leader
      · rw [if_neg (by simpa using hrole)]
        cases hres : (σ.nodes n).core.admitWrite conn s epoch payload with
        | mk core result =>
            cases result with
            | error current => exact .writeRefused hphase hrole hres
            | ok cmd => exact .writeAccepted hphase hrole hres
      · rw [if_pos hrole]
        exact .writeRedirected hphase hrole
  | ack s offset =>
      simp only [Option.ite_none_right_eq_some, Option.some.injEq] at h
      obtain ⟨hphase, rfl⟩ := h
      exact .ack hphase
  | poll =>
      simp only [Option.ite_none_right_eq_some, Option.some.injEq] at h
      obtain ⟨hphase, rfl⟩ := h
      exact .poll hphase
  | follow role term leaderId =>
      simp only [Option.ite_none_right_eq_some, Option.some.injEq] at h
      obtain ⟨⟨hphase, hrole, hterm⟩, rfl⟩ := h
      exact .follow hphase hrole hterm
  | elect term =>
      simp only [Option.ite_none_right_eq_some, Option.some.injEq] at h
      obtain ⟨⟨hphase, hrole, hterm, hfresh, hearlier⟩, rfl⟩ := h
      exact .elect hphase hrole hterm hfresh hearlier
  | replicate term len =>
      -- Without such a term in the ledger there is nothing to replicate.
      cases hfull : σ.terms.ledger term with
      | none => simp [hfull] at h
      | some full =>
          simp only [hfull, Option.ite_none_right_eq_some, Option.some.injEq] at h
          obtain ⟨⟨hphase, hrole, hkeep, hlen, hsame⟩, rfl⟩ := h
          exact .replicate hfull hphase hrole hkeep hlen hsame
  | commit len =>
      simp only [Option.ite_none_right_eq_some, Option.some.injEq] at h
      obtain ⟨⟨hphase, hrole, hkeep, hlen, hlater⟩, rfl⟩ := h
      exact .commit hphase hrole hkeep hlen hlater
  | learnCommit len =>
      simp only [Option.ite_none_right_eq_some, Option.some.injEq] at h
      obtain ⟨⟨hphase, hkeep, hlen, hsettled⟩, rfl⟩ := h
      exact .learnCommit hphase hkeep hlen hsettled
  | install term snapshot =>
      cases hfull : σ.terms.ledger term with
      | none => simp [hfull] at h
      | some full =>
          simp only [hfull, Option.ite_none_right_eq_some, Option.some.injEq] at h
          obtain ⟨⟨hphase, hrole, hnew, hmem, hlen, hsettled⟩, rfl⟩ := h
          exact .install hfull hphase hrole hnew hmem hlen hsettled
  | handOver timestampNs =>
      cases he : (σ.nodes n).log[(σ.nodes n).delivered]? with
      | none => simp [he] at h
      | some e =>
          simp only [he, Option.ite_none_right_eq_some, Option.some.injEq] at h
          obtain ⟨⟨hphase, hlt⟩, rfl⟩ := h
          unfold handOverEntry
          cases hdata : e.data with
          | none => exact .handOverEmpty hphase hlt he hdata
          | some cmd => exact .handOverCommand hphase hlt he hdata
  | lightReady =>
      simp only [Option.ite_none_right_eq_some, Option.some.injEq] at h
      obtain ⟨⟨hphase, hlt⟩, rfl⟩ := h
      exact .lightReady hphase hlt
  | advance =>
      simp only [Option.ite_none_right_eq_some, Option.some.injEq] at h
      obtain ⟨hphase, rfl⟩ := h
      exact .advance hphase
  | observe =>
      simp only [Option.ite_none_right_eq_some, Option.some.injEq] at h
      obtain ⟨hphase, rfl⟩ := h
      exact .observe hphase
  | restart recovered committed compacted =>
      simp only [Option.ite_none_right_eq_some, Option.some.injEq] at h
      obtain ⟨⟨hwal, hsnap, hcompacted, hcommitted⟩, rfl⟩ := h
      exact .restart hwal hsnap hcompacted hcommitted

/-- The step function does all that `Step` lists. -/
theorem step_complete {n : Nat} {ev : Event}
    (h : Step tailCacheEntries σ n (σ.nodes n) ev τ) :
    σ.step tailCacheEntries ⟨n, ev⟩ = some τ := by
  cases h with
  | writeRedirected hphase hrole =>
      unfold step handleWrite
      simp [hphase, hrole]
  | writeRefused hphase hrole hres =>
      unfold step handleWrite
      simp [hphase, hrole, hres]
  | writeAccepted hphase hrole hres =>
      unfold step handleWrite
      simp [hphase, hrole, hres]
  | replicate hfull hphase hrole hkeep hlen hsame =>
      unfold step
      simp only [hfull]
      exact if_pos ⟨hphase, hrole, hkeep, hlen, hsame⟩
  | install hfull hphase hrole hnew hmem hlen hsettled =>
      unfold step
      simp only [hfull]
      exact if_pos ⟨hphase, hrole, hnew, hmem, hlen, hsettled⟩
  | handOverEmpty hphase hlt he hdata =>
      unfold step handOverEntry
      simp only [he, hdata]
      exact if_pos ⟨hphase, hlt⟩
  | handOverCommand hphase hlt he hdata =>
      unfold step handOverEntry
      simp only [he, hdata]
      exact if_pos ⟨hphase, hlt⟩
  | ack hphase => exact if_pos hphase
  | poll hphase => exact if_pos hphase
  | follow hphase hrole hterm => exact if_pos ⟨hphase, hrole, hterm⟩
  | elect hphase hrole hterm hfresh hearlier =>
      exact if_pos ⟨hphase, hrole, hterm, hfresh, hearlier⟩
  | commit hphase hrole hkeep hlen hlater => exact if_pos ⟨hphase, hrole, hkeep, hlen, hlater⟩
  | learnCommit hphase hkeep hlen hsettled => exact if_pos ⟨hphase, hkeep, hlen, hsettled⟩
  | lightReady hphase hlt => exact if_pos ⟨hphase, hlt⟩
  | advance hphase => exact if_pos hphase
  | observe hphase => exact if_pos hphase
  | restart hwal hsnap hcompacted hcommitted =>
      exact if_pos ⟨hwal, hsnap, hcompacted, hcommitted⟩

/-- **The frame.** A step changes no node but its own. -/
theorem Step.nodes_other {n m : Nat} {x : Node} {ev : Event}
    (h : Step tailCacheEntries σ n x ev τ) (hm : m ≠ n) : τ.nodes m = σ.nodes m := by
  cases h with
  | writeRedirected => rfl
  | _ => exact nodes_update_other σ _ hm

end ShardGroup

end WalServer.Cluster
