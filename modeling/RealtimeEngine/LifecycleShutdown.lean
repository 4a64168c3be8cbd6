/-
**Shutdown, and the accept that it misses.**

`Stop` clears `running`, goes through the shards of the registry once, disconnects the sessions that
it has found, and waits until no operation is outstanding.  `HandleAccept` tests `running` before it
inserts its session and posts its first read.  An accept that has passed the test and inserts its
session behind the sweep leaves a read in the kernel that nobody cancels, and `Stop` waits for the
peer.

When no session is inserted behind the sweep, every session has a `Disconnect` when `Stop` waits,
and its socket is closed or about to be.

Main definitions:

* `RealtimeEngine.Lifecycle.Task.sweeps` — the sweep has passed the shard of the session;
* `RealtimeEngine.Lifecycle.ahead` — a session is inserted ahead of the sweep;
* `RealtimeEngine.Lifecycle.Swept`, `RealtimeEngine.Lifecycle.Shutdown` — the invariants.

Main results:

* `RealtimeEngine.Lifecycle.shutdown_disconnects` — **when `Stop` waits, every read and write
  belongs to a session with a `Disconnect`**, in every run in which that holds;
* `RealtimeEngine.Lifecycle.shutdown_strands` — an accept that straddles the sweep.
-/

import RealtimeEngine.LifecycleOperations
import RealtimeEngine.LifecycleSessions

set_option relaxedAutoImplicit false
set_option autoImplicit false

namespace RealtimeEngine

namespace Lifecycle

open Interleaving

/-! ### The sweep -/

/-- `Stop` has passed the shard of the session. -/
def Task.sweeps : Task → ℕ → Bool
  | .snapshot k _, s => decide (s % shardCount < k)
  | .stopLoop _, _ | .stopDisconnect _ _, _ | .stopWait, _ => true
  | _, _ => false

/-- The sessions that the sweep has passed have a `Disconnect`, or `Stop` has found them. -/
def Swept (sv : Server) (t : Task) : Prop :=
  ∀ s, t.sweeps s = true → (sv.sessions s).inserted = true →
    (sv.sessions s).disconnectStarted = true ∨ s ∈ t.pointers

/-- The sweep that has passed the shard of a session that is about to be inserted. -/
def behind : Task → Task → ℕ
  | .insert _ s, t => (t.sweeps s).toNat
  | _, _ => 0

/-- A session is inserted when no sweep has passed its shard. -/
def ahead (task : Task) (_ : Server) (n : ℕ) : Bool :=
  match task with
  | .insert _ _ => n == 0
  | _ => true

/-- `Disconnect` has not closed the socket of the session yet. -/
def Task.closing? : Task → Option ℕ
  | .remove s | .closeSocket s => some s
  | _ => none

/-- **What holds of the sockets.** -/
structure Sockets (sv : Server) (P : Multiset Task) : Prop where
  sessions : Sessions sv P
  closing : ∀ s, (holders Task.closing? P).count s + (!(sv.sessions s).socketOpen).toNat =
    (sv.sessions s).disconnectStarted.toNat

section Steps

variable {config : ServerConfig} {sv sv' : Server} {task : Task} {new : List Task}
  {R : Multiset Task}

/-- `Disconnect` is not taken back. -/
theorem Step.started (hstep : Step config sv task sv' new) {s : ℕ}
    (h : (sv.sessions s).disconnectStarted = true) : (sv'.sessions s).disconnectStarted = true := by
  have hmodified : ∀ (s₀ : ℕ) (f : Session → Session),
      (f (sv.sessions s₀)).disconnectStarted = (sv.sessions s₀).disconnectStarted →
      ((sv.modify s₀ f).sessions s).disconnectStarted = true := by
    intro s₀ f hf
    rw [modify_field Session.disconnectStarted sv s₀ s hf]
    exact h
  have hstarts : ∀ s₀, ((sv.modify s₀ fun x => { x with disconnectStarted := true }).sessions
      s).disconnectStarted = true := by
    intro s₀
    by_cases hs : s = s₀
    · rw [hs, modify_self]
    · rwa [modify_of_ne sv hs]
  cases hstep with
  | disconnects | stopsSession => exact hstarts _
  | inserts | invokesConnect | deliversMessage | enqueues | idles | pops | removes | closesSocket
  | drains | invokesDisconnect => exact hmodified _ _ rfl
  | _ => exact h

/-- Only `HandleAccept` inserts a session. -/
theorem Step.inserted (hstep : Step config sv task sv' new) {s : ℕ}
    (h : (sv'.sessions s).inserted = true) :
    (sv.sessions s).inserted = true ∨ ∃ op, task = .insert op s := by
  have hmodified : ∀ (s₀ : ℕ) (f : Session → Session),
      (f (sv.sessions s₀)).inserted = (sv.sessions s₀).inserted →
      ((sv.modify s₀ f).sessions s).inserted = true → (sv.sessions s).inserted = true := by
    intro s₀ f hf
    rw [modify_field Session.inserted sv s₀ s hf]
    exact id
  cases hstep with
  | inserts op s₀ =>
      by_cases hs : s = s₀
      · exact Or.inr ⟨op, by rw [hs]⟩
      · rw [modify_of_ne sv hs] at h
        exact Or.inl h
  | disconnects | stopsSession | invokesConnect | deliversMessage | enqueues | idles | pops | removes
  | closesSocket | drains | invokesDisconnect => exact Or.inl (hmodified _ _ rfl h)
  | _ => exact Or.inl h

/-- The next shard is swept: its sessions are found, unless they have left the registry. -/
theorem Swept.shard {k : ℕ} {found : List ℕ} (h : Swept sv (.snapshot k found))
    (hsessions : Sessions sv (.snapshot k found ::ₘ R)) {s : ℕ} (hs : s % shardCount < k + 1)
    (hinserted : (sv.sessions s).inserted = true) :
    (sv.sessions s).disconnectStarted = true ∨ s ∈ found ++ sv.shard k := by
  rcases Nat.lt_succ_iff_lt_or_eq.1 hs with hbefore | hnow
  · rcases h s (decide_eq_true hbefore) hinserted with hstarted | hfound
    · exact Or.inl hstarted
    · exact Or.inr (List.mem_append_left _ hfound)
  · by_cases hstarted : (sv.sessions s).disconnectStarted = true
    · exact Or.inl hstarted
    · have hregistered := hsessions.registered s
      rw [Bool.eq_false_of_not_eq_true hstarted, hinserted] at hregistered
      have hin : (sv.sessions s).registered = true := by
        by_contra hnot
        rw [Bool.eq_false_of_not_eq_true hnot] at hregistered
        simp only [Bool.toNat_true, Bool.toNat_false] at hregistered
        omega
      refine Or.inr (List.mem_append_right _ (mem_shard.2 ⟨?_, hin, hnow⟩))
      exact (hsessions.number hinserted).2

/-- Where `Stop` goes it has found what it has passed. -/
theorem Moves.found (h : Moves config sv task new) (hsessions : Sessions sv (task ::ₘ R))
    (hswept : Swept sv task) : ∀ t ∈ new, Swept sv t := by
  intro t ht s hs hinserted
  cases h with
  | sweeps hk found =>
      obtain rfl := List.mem_singleton.1 ht
      exact hswept.shard hsessions (of_decide_eq_true hs) hinserted
  | @swept k hk found =>
      obtain rfl := List.mem_singleton.1 ht
      have hlt : s % shardCount < shardCount := Nat.mod_lt s (by decide)
      exact hswept.shard hsessions (hlt.trans_le hk) hinserted
  | @picks found i s₀ hget =>
      obtain rfl := List.mem_singleton.1 ht
      rcases hswept s rfl hinserted with hstarted | hfound
      · exact Or.inl hstarted
      · obtain ⟨hi, rfl⟩ := List.getElem?_eq_some_iff.1 hget
        exact Or.inr ((List.getElem_cons_eraseIdx_perm hi).mem_iff.2 hfound)
  | waits =>
      obtain rfl := List.mem_singleton.1 ht
      exact hswept s rfl hinserted
  | noPeer s₀ op posted | notReading s₀ op posted =>
      cases posted with
      | true => rcases List.mem_pair.1 ht with rfl | rfl <;> cases hs
      | false => rcases List.mem_pair.1 ht with rfl | rfl <;> cases hs
  | badRead | disconnects | queues | closes | disconnected | notRunning =>
      rcases List.mem_pair.1 ht with rfl | rfl <;> cases hs
  | notCreated | notSent | notClosed | notDue => cases ht
  | _ =>
      rw [List.mem_singleton.1 ht] at hs
      cases hs

theorem Step.found (hstep : Step config sv task sv' new) (hsessions : Sessions sv (task ::ₘ R))
    (hswept : Swept sv task) : ∀ t ∈ new, Swept sv' t := by
  intro t ht
  cases hstep with
  | moves hmoves => exact hmoves.found hsessions hswept t ht
  -- no shard has been swept yet
  | stopsListening =>
      obtain rfl := List.mem_singleton.1 ht
      intro s hs
      have hlt : s % shardCount < 0 := of_decide_eq_true hs
      exact absurd hlt (Nat.not_lt_zero _)
  | @skips s₀ hstarted rest =>
      obtain rfl := List.mem_singleton.1 ht
      intro s hs hinserted
      rcases hswept s rfl hinserted with hstarted | hfound
      · exact Or.inl hstarted
      · rcases List.mem_cons.1 hfound with rfl | hrest
        · exact Or.inl hstarted
        · exact Or.inr hrest
  | @stopsSession s₀ hlive rest =>
      rcases List.mem_pair.1 ht with rfl | rfl
      · intro s hs
        cases hs
      · intro s hs hinserted
        -- the session that is disconnected leaves the list, and no other one
        by_cases heq : s = s₀
        · subst heq
          exact Or.inl (by rw [modify_self])
        · rw [modify_of_ne sv heq] at hinserted ⊢
          rcases hswept s rfl hinserted with hstarted | hfound
          · exact Or.inl hstarted
          · exact Or.inr (List.mem_of_ne_of_mem heq hfound)
  | arrives harrival =>
      rcases List.mem_pair.1 ht with rfl | rfl
      · intro s hs
        cases hs
      · obtain rfl | ⟨s, rfl⟩ | ⟨s, rfl⟩ | ⟨s, rfl, -⟩ | rfl := arrival_cases harrival <;>
          (intro s hs; cases hs)
  | refuses s₀ closeAfter | enqueues s₀ closeAfter =>
      split at ht
      · first
        | (cases ht; done)
        | (rw [List.mem_singleton.1 ht]; intro s hs; cases hs)
      · first
        | (cases ht; done)
        | (rw [List.mem_singleton.1 ht]; intro s hs; cases hs)
  | completesWrite s₀ again =>
      rw [List.mem_singleton.1 ht]
      cases again <;> (intro s hs; cases hs)
  | invokesConnect =>
      rcases List.mem_pair.1 ht with rfl | rfl <;> (intro s hs; cases hs)
  | noAccept | completes | alreadyDisconnected | invokesDisconnect | alreadyStopped | idles => cases ht
  | _ =>
      rw [List.mem_singleton.1 ht]
      intro s hs
      cases hs

/-- **Every step keeps what the sweep has found**, when sessions are inserted ahead of it. -/
theorem Step.swept (hstep : Step config sv task sv' new) (hsessions : Sessions sv (task ::ₘ R))
    (hahead : ahead task sv (weight (behind task) R) = true)
    (hswept : ∀ t ∈ task ::ₘ R, Swept sv t) : ∀ t ∈ (new : Multiset Task) + R, Swept sv' t := by
  intro t ht
  rcases Multiset.mem_add.1 ht with hnew | hrest
  · exact hstep.found hsessions (hswept task (Multiset.mem_cons_self task R)) t hnew
  · intro s hs hinserted
    rcases hstep.inserted hinserted with hbefore | ⟨op, rfl⟩
    · rcases hswept t (Multiset.mem_cons_of_mem hrest) s hs hbefore with hstarted | hfound
      · exact Or.inl (hstep.started hstarted)
      · exact Or.inr hfound
    · have hzero : weight (behind (.insert op s)) R = 0 := by simpa [ahead] using hahead
      have hone : behind (.insert op s) t = 1 := congrArg Bool.toNat hs
      have hle := le_weight (f := behind (.insert op s)) hrest
      omega

theorem Moves.closing (h : Moves config sv task new) :
    new.filterMap Task.closing? = task.closing?.toList := by
  cases h with
  | noPeer s op posted | notReading s op posted => cases posted <;> rfl
  | _ => rfl

/-- A step that neither starts a `Disconnect` nor closes a socket. -/
theorem Sockets.same (h : Sockets sv (task ::ₘ R)) (hstep : Step config sv task sv' new)
    (hclosing : new.filterMap Task.closing? = task.closing?.toList)
    (hopen : ∀ s, (sv'.sessions s).socketOpen = (sv.sessions s).socketOpen)
    (hstarted : ∀ s, (sv'.sessions s).disconnectStarted = (sv.sessions s).disconnectStarted) :
    Sockets sv' (new + R) := by
  refine ⟨h.sessions.step hstep, fun s => ?_⟩
  rw [holders_step hclosing, hopen, hstarted]
  exact h.closing s

/-- A `Disconnect` starts. -/
theorem Sockets.starts {s₀ : ℕ} (h : Sockets sv (task ::ₘ R)) (hstep : Step config sv task sv' new)
    (hsv : sv' = sv.modify s₀ fun x => { x with disconnectStarted := true })
    (hlive : (sv.sessions s₀).disconnectStarted = false)
    (hclosing : new.filterMap Task.closing? = s₀ :: task.closing?.toList) :
    Sockets sv' (new + R) := by
  refine ⟨h.sessions.step hstep, fun s => ?_⟩
  have hbefore := h.closing s
  rw [holders_cons, Multiset.count_add] at hbefore
  rw [holders_add, holders_coe, hclosing, ← Multiset.cons_coe, Multiset.count_add,
    Multiset.count_cons, hsv, modify_field Session.socketOpen sv s₀ s rfl]
  by_cases hs : s = s₀
  · subst hs
    rw [modify_self, if_pos rfl]
    rw [hlive] at hbefore
    simp only [Bool.toNat_true, Bool.toNat_false] at hbefore ⊢
    omega
  · rw [modify_of_ne sv hs, if_neg hs]
    exact hbefore

/-- `Disconnect` closes the socket. -/
theorem Sockets.closes {s₀ : ℕ} (h : Sockets sv (.closeSocket s₀ ::ₘ R))
    (hstep : Step config sv (.closeSocket s₀) sv' [.drain s₀])
    (hsv : sv' = sv.modify s₀ fun x => { x with socketOpen := false }) :
    Sockets sv' (([.drain s₀] : List Task) + R) := by
  have hself := count_holders_cons (f := Task.closing?) (p := .closeSocket s₀) rfl R
  refine ⟨h.sessions.step hstep, fun s => ?_⟩
  have hbefore := h.closing s
  rw [hself] at hbefore
  rw [coe_singleton_add, holders_cons_none rfl, hsv,
    modify_field Session.disconnectStarted sv s₀ s rfl]
  by_cases hs : s = s₀
  · subst hs
    have hle := Bool.toNat_le (sv.sessions s).disconnectStarted
    rw [if_pos rfl] at hbefore
    rw [modify_self, Bool.not_false, Bool.toNat_true]
    omega
  · rw [modify_of_ne sv hs]
    rw [if_neg hs, zero_add] at hbefore
    exact hbefore

/-- **Every step keeps it.** -/
theorem Sockets.step (hstep : Step config sv task sv' new) (h : Sockets sv (task ::ₘ R)) :
    Sockets sv' (new + R) := by
  have hmodified : ∀ (s₀ : ℕ) (f : Session → Session), sv' = sv.modify s₀ f →
      (f (sv.sessions s₀)).socketOpen = (sv.sessions s₀).socketOpen →
      (f (sv.sessions s₀)).disconnectStarted = (sv.sessions s₀).disconnectStarted →
      new.filterMap Task.closing? = task.closing?.toList → Sockets sv' (new + R) := by
    intro s₀ f hsv hopen hstarted hclosing
    refine h.same hstep hclosing (fun s => ?_) fun s => ?_
    · rw [hsv, modify_field Session.socketOpen sv s₀ s hopen]
    · rw [hsv, modify_field Session.disconnectStarted sv s₀ s hstarted]
  have hcopy := hstep
  cases hstep with
  | arrives harrival =>
      obtain rfl | ⟨s, rfl⟩ | ⟨s, rfl⟩ | ⟨s, rfl, -⟩ | rfl := arrival_cases harrival <;>
        exact h.same hcopy rfl (fun _ => rfl) fun _ => rfl
  | moves hmoves => exact h.same hcopy hmoves.closing (fun _ => rfl) fun _ => rfl
  | disconnects hlive => exact h.starts hcopy rfl hlive rfl
  | stopsSession hlive rest => exact h.starts hcopy rfl hlive rfl
  | closesSocket s => exact h.closes hcopy rfl
  | refuses s closeAfter => cases closeAfter <;> exact h.same hcopy rfl (fun _ => rfl) fun _ => rfl
  | enqueues s closeAfter =>
      refine hmodified s _ rfl rfl rfl ?_
      split <;> rfl
  | completesWrite s again => cases again <;> exact h.same hcopy rfl (fun _ => rfl) fun _ => rfl
  | inserts | invokesConnect | deliversMessage | idles | pops | removes | drains | invokesDisconnect =>
      exact hmodified _ _ rfl rfl rfl rfl
  | _ => exact h.same hcopy rfl (fun _ => rfl) fun _ => rfl

end Steps

/-! ### Runs -/

/-- The read or the write of the session is in the kernel. -/
def Task.inFlight? : Task → Option ℕ
  | .reading s _ | .writing s _ _ => some s
  | _ => none

/-- What holds in the runs in which sessions are inserted ahead of the sweep. -/
structure Shutdown (sv : Server) (P : Multiset Task) : Prop where
  sockets : Sockets sv P
  swept : ∀ t ∈ P, Swept sv t

/-- **Shutdown strands no operation**, in every run in which no session is inserted into a shard
that `Stop` has passed: when `Stop` waits for the operations, every read and write in the kernel
belongs to a session with a `Disconnect`, whose socket is closed or is about to be closed by a
running thread. -/
theorem shutdown_disconnects (config : ServerConfig) (moves : List (ℕ × Choice))
    {c : Config Server Task} (hrun : (program config).run moves start = some c)
    (hahead : (program config).AllMeet
      (fun _ task sv R => ahead task sv (weight (behind task) R) = true) moves start)
    (hwait : .stopWait ∈ c.pending) :
    ∀ t ∈ c.pending, ∀ s, t.inFlight? = some s → (c.shared.sessions s).disconnectStarted = true ∧
      ((c.shared.sessions s).socketOpen = false ∨ s ∈ holders Task.closing? c.pending) := by
  have h : Shutdown c.shared c.pending := by
    refine Program.invariant_of_allMeet (I := Shutdown) (fun x p sv R o hexec hok h => ?_) moves hahead
      ⟨⟨sessions_start, fun s => rfl⟩, fun t ht s hs => ?_⟩ hrun
    · rw [Multiset.coe_add]
      exact ⟨h.sockets.step (exec_step hexec),
        (exec_step hexec).swept h.sockets.sessions hok h.swept⟩
    · rw [List.mem_singleton.1 ht] at hs
      cases hs
  intro t ht s hs
  have hinserted : (c.shared.sessions s).inserted = true := by
    refine h.sockets.sessions.known t ht s ?_
    cases t with
    | reading | writing =>
        obtain rfl := Option.some.inj hs
        exact List.mem_cons_self
    | _ => cases hs
  have hstarted : (c.shared.sessions s).disconnectStarted = true := by
    rcases h.swept _ hwait s rfl hinserted with hstarted | hfound
    · exact hstarted
    · cases hfound
  refine ⟨hstarted, ?_⟩
  have hclosing := h.sockets.closing s
  rw [hstarted, Bool.toNat_true] at hclosing
  by_cases hopen : (c.shared.sessions s).socketOpen = true
  · rw [hopen, Bool.not_true, Bool.toNat_false] at hclosing
    exact Or.inr (Multiset.count_pos.1 (by omega))
  · exact Or.inl (Bool.eq_false_of_not_eq_true hopen)

/-- A session is accepted, and `Stop` disconnects it before it waits. -/
def stopsConnection : List (ℕ × Choice) :=
  connection ++ (0, .stopper) :: List.replicate 34 (5, .passes) ++ (5, .picks 0) ::
    List.replicate 7 (5, .passes)

set_option maxRecDepth 4000 in
/-- The read of that session is in the kernel, and the session has a `Disconnect`. -/
theorem shutdown_disconnects_connection :
    ∃ c, (program {}).run stopsConnection start = some c ∧ .stopWait ∈ c.pending ∧
      .reading 1 1 ∈ c.pending ∧ (c.shared.sessions 1).disconnectStarted = true := by
  have hobserved : ((program {}).run stopsConnection start).map (fun c => c.threads) =
      some [[.outside], [], [], [.reading 1 1], [.accepting 0], [.stopWait]] := rfl
  have hchecks : (program {}).checks behind ahead stopsConnection start = true := by
    decide +kernel
  obtain ⟨c, hrun, hc⟩ := Option.map_eq_some_iff.1 hobserved
  have hpending : c.pending =
      (([.outside, .reading 1 1, .accepting 0, .stopWait] : List Task) : Multiset Task) := by
    rw [Config.pending, hc]
    rfl
  have hwait : .stopWait ∈ c.pending := by
    rw [hpending]
    simp
  have hreading : .reading 1 1 ∈ c.pending := by
    rw [hpending]
    simp
  exact ⟨c, hrun, hwait, hreading, (shutdown_disconnects {} stopsConnection hrun
    (Program.allMeet_of_checks behind ahead stopsConnection hchecks) hwait _ hreading 1 rfl).1⟩

/-- An accept has completed, its handler has seen `running` and prepared the socket, `Stop` closes the
listener and goes through the registry, and then the handler inserts the session and posts its
read. -/
def acceptedBehindSweep : List (ℕ × Choice) :=
  acceptCompletes ++ List.replicate 3 (2, .passes) ++ (0, .stopper) :: List.replicate 35 (3, .passes) ++
    List.replicate 11 (2, .passes)

set_option maxRecDepth 4000 in
/-- **An accept that straddles the sweep strands its read**: `Stop` waits for it, the session has no
`Disconnect`, and there is no thread but the callers from outside that could call it. -/
theorem shutdown_strands :
    ∃ c, (program {}).run acceptedBehindSweep start = some c ∧
      c.threads = [[.outside], [], [], [.stopWait], [.reading 1 1]] ∧
      (c.shared.sessions 1).disconnectStarted = false ∧ c.shared.outstandingOperations = 1 := by
  have hobserved : ((program {}).run acceptedBehindSweep start).map (fun c => (c.threads,
      (c.shared.sessions 1).disconnectStarted, c.shared.outstandingOperations)) =
      some ([[.outside], [], [], [.stopWait], [.reading 1 1]], false, 1) := rfl
  obtain ⟨c, hrun, hc⟩ := Option.map_eq_some_iff.1 hobserved
  obtain ⟨hthreads, hrest⟩ := Prod.mk.inj hc
  obtain ⟨hstarted, houtstanding⟩ := Prod.mk.inj hrest
  exact ⟨c, hrun, hthreads, hstarted, houtstanding⟩

end Lifecycle

end RealtimeEngine
