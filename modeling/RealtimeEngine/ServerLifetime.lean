/-
**The life of the server object.**

`Initialize` gathers what the server needs, and each of its calls to the system may fail: what was
gathered so far is then given back by destructors, Winsock apart.  `Start` makes the threads; when
one of them cannot be made, or no accept is posted, it calls `Stop`.  `Stop` gives everything back
but Winsock, and afterwards the server can be initialized again.  The destructor calls `Stop` and
destroys the members, the last one declared first.

The calls are executed one after the other, and each names the outcomes of what it asks the system
for.  The sessions and the operations in flight have modules of their own: here the wait of `Stop`
comes to its end.  A thread is open until it is joined; to destroy one that was not joined, or to
assign to it, would end the program.

Main definitions:

* `RealtimeEngine.ServerLifetime.Resource` — what the server opens and closes;
* `RealtimeEngine.ServerLifetime.Impl` — the members that say so, and the trace of the events;
* `RealtimeEngine.ServerLifetime.initializeServer`, `RealtimeEngine.ServerLifetime.startServer`,
  `RealtimeEngine.ServerLifetime.stopServer`, `RealtimeEngine.ServerLifetime.destroyServer` — the
  calls;
* `RealtimeEngine.ServerLifetime.Orderly` — the invariant between two calls.

Main results:

* `RealtimeEngine.ServerLifetime.Orderly.step` — every call keeps it, whatever fails;
* `RealtimeEngine.ServerLifetime.lifetime` — **the run theorem**.
-/

import Mathlib.Tactic.Simps.Basic
import RealtimeEngine.Basic
import RealtimeEngine.ResourceTrace

set_option relaxedAutoImplicit false
set_option autoImplicit false

namespace RealtimeEngine

namespace ServerLifetime

open Resources

/-! ### State -/

/-- What the server opens and closes. -/
inductive Resource
  /-- From `WSAStartup` to `WSACleanup`. -/
  | winsock
  | completionPort
  | listenSocket
  | acceptPool
  | worker (index : ℕ)
  | timer
  deriving DecidableEq

/-- What must be open as long as the resource is. -/
def Resource.needs : Resource → List Resource
  | .listenSocket => [.winsock, .completionPort]
  | .worker _ => [.winsock, .completionPort, .acceptPool]
  | .timer => [.winsock, .completionPort]
  | _ => []

/-- The members of `Impl` that its life depends on, and the events so far. -/
structure Impl where
  workerCount : ℕ
  acceptDepth : ℕ
  winsockStarted : Bool := false
  completionPort : Bool := false
  listenSocket : Bool := false
  acceptPool : Bool := false
  /-- `workers.size()`. -/
  workers : ℕ := 0
  timerThread : Bool := false
  running : Bool := false
  stopping : Bool := false
  initialized : Bool := false
  trace : List (Event Resource) := []

namespace Impl

/-- Something is opened or closed. -/
@[simps]
def emit (events : List (Event Resource)) (sv : Impl) : Impl :=
  { sv with trace := sv.trace ++ events }

/-- `WinsockRuntime::Start`. -/
def startWinsock (succeeds : Bool) (sv : Impl) : Bool × Impl :=
  if sv.winsockStarted then (true, sv)
  else if succeeds then (true, { sv.emit [.opens .winsock] with winsockStarted := true })
  else (false, sv)

/-- `completion_port.Reset`, with a handle or without. -/
@[simps]
def resetPort (handle : Bool) (sv : Impl) : Impl :=
  { sv.emit (if sv.completionPort then [.closes .completionPort] else []) with
    completionPort := handle }

/-- `listen_socket.Reset`, with a socket or without. -/
@[simps]
def resetListen (socket : Bool) (sv : Impl) : Impl :=
  { sv.emit (if sv.listenSocket then [.closes .listenSocket] else []) with listenSocket := socket }

/-- `accept_pool.reset`, or an assignment of a pool. -/
@[simps]
def resetPool (pool : Bool) (sv : Impl) : Impl :=
  { sv.emit (if sv.acceptPool then [.closes .acceptPool] else []) with acceptPool := pool }

/-- Workers are put behind those that are there. -/
@[simps]
def emplaceWorkers (n : ℕ) (sv : Impl) : Impl :=
  { sv.emit ((List.range n).map fun index => .opens (.worker (sv.workers + index))) with
    workers := sv.workers + n }

/-- Every worker is joined, and `workers.clear`. -/
@[simps]
def joinWorkers (sv : Impl) : Impl :=
  { sv.emit ((List.range sv.workers).map fun index => .closes (.worker index)) with workers := 0 }

/-- `timer_thread` is joined, if it is joinable. -/
@[simps]
def joinTimer (sv : Impl) : Impl :=
  { sv.emit (if sv.timerThread then [.closes .timer] else []) with timerThread := false }

end Impl

open Impl

/-! ### Calls -/

/-- What `Initialize` asks the system for, in this order. -/
structure InitializeOutcome where
  wsaStartup : Bool := true
  createPort : Bool := true
  wsaSocket : Bool := true
  setsockopt : Bool := true
  bind : Bool := true
  listen : Bool := true
  associate : Bool := true
  acceptEx : Bool := true
  getAcceptExSockaddrs : Bool := true
  /-- The storage of `accept_pool`; without it an exception leaves `Initialize`. -/
  makePool : Bool := true
  deriving DecidableEq, Repr

/-- How `Initialize` ends. -/
inductive Ends
  | returns (value : Bool)
  | throws
  deriving DecidableEq, Repr

/-- `Initialize`; `new_listen` and `new_port` are closed where they are not released. -/
def initializeServer (x : InitializeOutcome) (sv : Impl) : Ends × Impl :=
  if sv.initialized then (.returns true, sv)
  else
    match sv.startWinsock x.wsaStartup with
    | (false, sv) => (.returns false, sv)
    | (true, sv) =>
        if !x.createPort then (.returns false, sv)
        else
          let port := sv.emit [.opens .completionPort]
          if !x.wsaSocket then (.returns false, port.emit [.closes .completionPort])
          else
            let listen := port.emit [.opens .listenSocket]
            let leave := listen.emit [.closes .listenSocket, .closes .completionPort]
            if !(x.setsockopt && x.bind && x.listen && x.associate && x.acceptEx &&
                x.getAcceptExSockaddrs) then
              (.returns false, leave)
            else if !x.makePool then (.throws, leave)
            else
              -- the new pool is made before the old one is destroyed
              let pool := (listen.emit [.opens .acceptPool]).resetPool true
              (.returns true, { (pool.resetPort true).resetListen true with initialized := true })

/-- `Stop`. -/
def stopServer (sv : Impl) : Impl :=
  if !sv.running then sv
  else
    let sv := { sv with running := false, stopping := true }
    let sv := sv.joinTimer
    let sv := if sv.listenSocket then sv.resetListen false else sv
    let sv := sv.joinWorkers
    { (sv.resetPort false).resetPool false with initialized := false }

/-- What `Start` asks the system for. -/
structure StartOutcome where
  /-- `workers.reserve`. -/
  reserve : Bool := true
  /-- How many workers can be made. -/
  threads : ℕ
  timer : Bool := true
  /-- Whether this call of `PostNewAccept` succeeds. -/
  accepts : ℕ → Bool

/-- `Start`. -/
def startServer (x : StartOutcome) (sv : Impl) : Bool × Impl :=
  if !sv.initialized || sv.running then (sv.running, sv)
  else
    let sv := { sv with running := true, stopping := false }
    if !x.reserve then (false, stopServer sv)
    else if x.threads < sv.workerCount then (false, stopServer (sv.emplaceWorkers x.threads))
    else
      let sv := sv.emplaceWorkers sv.workerCount
      if !x.timer then (false, stopServer sv)
      else
        let sv := { sv.emit [.opens .timer] with timerThread := true }
        let posted := ((List.range sv.acceptDepth).filter x.accepts).length
        if posted = 0 then (false, stopServer sv) else (true, sv)

/-- The destructor. -/
def destroyServer (sv : Impl) : Impl :=
  let sv := stopServer sv
  -- the members, from the last one declared to the first
  let sv := ((sv.resetPool false).resetListen false).resetPort false
  if sv.winsockStarted then { sv.emit [.closes .winsock] with winsockStarted := false } else sv

/-- A call, with what it finds. -/
inductive Call
  | initializes (x : InitializeOutcome)
  | starts (x : StartOutcome)
  | stops

/-- What a call does. -/
def step (sv : Impl) : Call → Impl
  | .initializes x => (initializeServer x sv).2
  | .starts x => (startServer x sv).2
  | .stops => stopServer sv

/-- The calls, one after the other. -/
def run (calls : List Call) (sv : Impl) : Impl := calls.foldl step sv

/-! ### The open resources -/

/-- What the members hold. -/
def Impl.holds (sv : Impl) : Resource → Prop
  | .winsock => sv.winsockStarted = true
  | .completionPort => sv.completionPort = true
  | .listenSocket => sv.listenSocket = true
  | .acceptPool => sv.acceptPool = true
  | .worker index => index < sv.workers
  | .timer => sv.timerThread = true

/-- The open resources are those that the members hold, and the trace is lawful. -/
def Books (sv : Impl) : Prop := Lawful Resource.needs ∅ sv.trace {r | sv.holds r}

section Books

variable {sv : Impl}

/-- Everything is there that a worker needs. -/
structure Equipped (sv : Impl) : Prop where
  winsock : sv.winsockStarted = true
  port : sv.completionPort = true
  socket : sv.listenSocket = true
  pool : sv.acceptPool = true

/-- The flags are none of the resources. -/
theorem Books.flags (h : Books sv) (running stopping initialized : Bool) :
    Books { sv with running := running, stopping := stopping, initialized := initialized } :=
  h

theorem Books.winsock (h : Books sv) (succeeds : Bool) : Books (sv.startWinsock succeeds).2 := by
  unfold startWinsock
  split
  · exact h
  · next hnot =>
      split
      · refine h.opens (r := .winsock) hnot (fun n hn => absurd hn List.not_mem_nil) ?_
        ext r
        cases r <;> simp [holds, emit]
      · exact h

/-- A resource that nothing open needs is given back, if there is one. -/
theorem Books.gives_back (h : Books sv) (r : Resource) {sv' : Impl} {present : Bool}
    (hpresent : sv.holds r ↔ present = true) (hunused : ∀ u, sv.holds u → r ∉ u.needs)
    (htrace : sv'.trace = sv.trace ++ if present then [.closes r] else [])
    (hholds : ∀ r', sv'.holds r' ↔ sv.holds r' ∧ r' ≠ r) : Books sv' := by
  unfold Books
  rw [htrace]
  split
  · next hopen => exact h.closes (hpresent.2 hopen) hunused (Set.ext hholds)
  · next hclosed =>
      have hsame : {r' | sv'.holds r'} = {r' | sv.holds r'} := by
        ext r'
        refine (hholds r').trans (and_iff_left_of_imp fun hr' heq => hclosed ?_)
        exact hpresent.1 (heq ▸ hr')
      rw [hsame, List.append_nil]
      exact h

theorem Books.joinTimer (h : Books sv) : Books sv.joinTimer := by
  refine h.gives_back .timer Iff.rfl (fun u _ => ?_) rfl fun r => ?_
  · cases u <;> simp [Resource.needs]
  · cases r <;> simp [holds]

theorem Books.emplaceWorkers (h : Books sv) (he : Equipped sv) (n : ℕ) :
    Books (sv.emplaceWorkers n) := by
  induction n with
  | zero =>
      have hsame : sv.emplaceWorkers 0 = sv := by simp [Impl.emplaceWorkers, emit]
      rwa [hsame]
  | succ n ih =>
      unfold Books Impl.emplaceWorkers emit
      rw [List.range_succ, List.map_append, ← List.append_assoc]
      refine ih.opens (r := .worker (sv.workers + n)) (Nat.lt_irrefl _) ?_ ?_
      · intro r hr
        simp only [Resource.needs, List.mem_cons, List.not_mem_nil, or_false] at hr
        rcases hr with rfl | rfl | rfl
        · exact he.winsock
        · exact he.port
        · exact he.pool
      · ext r
        cases r with
        | worker index =>
            simp only [holds, Impl.emplaceWorkers, Set.mem_ofPred_eq, Set.mem_insert_iff,
              Resource.worker.injEq]
            omega
        | _ => simp [holds, Impl.emplaceWorkers, emit]

/-- The first workers are joined. -/
theorem Books.joins (h : Books sv) {n : ℕ} (hn : n ≤ sv.workers) :
    Lawful Resource.needs ∅
      (sv.trace ++ (List.range n).map fun index => .closes (.worker index))
      {r | sv.holds r ∧ ∀ index < n, r ≠ .worker index} := by
  induction n with
  | zero => simpa [Books] using h
  | succ n ih =>
      rw [List.range_succ, List.map_append, ← List.append_assoc]
      refine (ih (Nat.le_of_succ_le hn)).closes (r := .worker n)
        ⟨show sv.holds (.worker n) from hn, fun index hindex heq => ?_⟩ (fun u _ => ?_) ?_
      · exact absurd (Resource.worker.inj heq) (Nat.ne_of_gt hindex)
      · cases u <;> simp [Resource.needs]
      · ext r
        simp only [Set.mem_ofPred_eq, Set.mem_sdiff, Set.mem_singleton_iff, and_assoc,
          Nat.lt_succ_iff_lt_or_eq]
        refine and_congr_right fun _ => ⟨fun hall => ?_, ?_⟩
        · exact ⟨fun index hindex => hall index (Or.inl hindex), hall n (Or.inr rfl)⟩
        · rintro ⟨hbefore, hlast⟩ index (hindex | rfl)
          · exact hbefore index hindex
          · exact hlast

theorem Books.joinWorkers (h : Books sv) : Books sv.joinWorkers := by
  refine cast (congrArg (Lawful Resource.needs ∅ _) ?_) (h.joins le_rfl)
  ext r
  cases r with
  | worker index =>
      simp only [holds, Impl.joinWorkers, Set.mem_ofPred_eq, Nat.not_lt_zero, iff_false, not_and]
      exact fun hindex hall => hall index hindex rfl
  | _ => simp [holds, Impl.joinWorkers, emit]

/-- Nothing needs the listening socket. -/
theorem Books.resetListen (h : Books sv) : Books (sv.resetListen false) := by
  refine h.gives_back .listenSocket Iff.rfl (fun u _ => ?_) rfl fun r => ?_
  · cases u <;> simp [Resource.needs]
  · cases r <;> simp [holds]

/-- The accept pool is destroyed when no worker is left. -/
theorem Books.resetPool (h : Books sv) (hworkers : sv.workers = 0) :
    Books (sv.resetPool false) := by
  refine h.gives_back .acceptPool Iff.rfl (fun u hu => ?_) rfl fun r => ?_
  · cases u with
    | worker index => exact absurd (hworkers ▸ hu) (Nat.not_lt_zero index)
    | _ => simp [Resource.needs]
  · cases r <;> simp [holds]

/-- The completion port is closed when no thread and no listening socket is left. -/
theorem Books.resetPort (h : Books sv) (hworkers : sv.workers = 0)
    (htimer : sv.timerThread = false) (hlisten : sv.listenSocket = false) :
    Books (sv.resetPort false) := by
  refine h.gives_back .completionPort Iff.rfl (fun u hu => ?_) rfl fun r => ?_
  · cases u with
    | worker index => exact absurd (hworkers ▸ hu) (Nat.not_lt_zero index)
    | timer => exact absurd hu (by simp [holds, htimer])
    | listenSocket => exact absurd hu (by simp [holds, hlisten])
    | _ => simp [Resource.needs]
  · cases r <;> simp [holds]

end Books

/-! ### The invariant -/

/-- **The invariant between two calls.** -/
structure Orderly (sv : Impl) : Prop where
  sized : 0 < sv.workerCount ∧ 0 < sv.acceptDepth
  books : Books sv
  equipped : sv.initialized = true → Equipped sv
  bare : sv.initialized = false →
    sv.completionPort = false ∧ sv.listenSocket = false ∧ sv.acceptPool = false
  crew : sv.running = true →
    sv.initialized = true ∧ sv.workers = sv.workerCount ∧ sv.timerThread = true
  idle : sv.running = false → sv.workers = 0 ∧ sv.timerThread = false

variable {sv : Impl}

namespace Orderly

theorem not_running (h : Orderly sv) (hinit : sv.initialized = false) : sv.running = false := by
  rw [← Bool.not_eq_true]
  intro hrunning
  rw [(h.crew hrunning).1] at hinit
  cases hinit

/-- Without `Initialize` nothing is open but Winsock. -/
theorem only_winsock (h : Orderly sv) (hinit : sv.initialized = false) {r : Resource}
    (hr : sv.holds r) : r = .winsock := by
  obtain ⟨hport, hlisten, hpool⟩ := h.bare hinit
  obtain ⟨hworkers, htimer⟩ := h.idle (h.not_running hinit)
  cases r <;> simp_all [holds]

end Orderly

/-! ### `Stop` -/

/-- `Stop` resets the listening socket if there is one. -/
theorem resetListen_of_open (sv : Impl) :
    (if sv.listenSocket then sv.resetListen false else sv) = sv.resetListen false := by
  split
  · rfl
  · next hclosed =>
      cases sv
      simp_all [Impl.resetListen, emit]

theorem stopServer_eq (hrunning : sv.running = true) :
    stopServer sv = { (((({ sv with running := false, stopping := true } : Impl).joinTimer.resetListen
      false).joinWorkers.resetPort false).resetPool false) with initialized := false } := by
  unfold stopServer
  rw [if_neg (by simp [hrunning])]
  dsimp only
  rw [resetListen_of_open]

/-- **`Stop`** gives everything back but Winsock, however many of the threads were made. -/
theorem stopServer_spec (h : Books sv) (hsized : 0 < sv.workerCount ∧ 0 < sv.acceptDepth)
    (hrunning : sv.running = true) :
    Orderly (stopServer sv) ∧ (stopServer sv).running = false ∧
      (stopServer sv).initialized = false := by
  rw [stopServer_eq hrunning]
  have hjoined := (h.flags false true sv.initialized).joinTimer.resetListen.joinWorkers
  have hreset := (hjoined.resetPort (by simp) (by simp) (by simp)).resetPool (by simp)
  refine ⟨?_, by simp, rfl⟩
  exact {
    sized := by simpa using hsized
    books := hreset.flags _ _ false
    equipped := fun h => Bool.noConfusion h
    bare := fun _ => by simp
    crew := fun h => by simp at h
    idle := fun _ => by simp }

theorem Orderly.stop (h : Orderly sv) :
    Orderly (stopServer sv) ∧ (stopServer sv).running = false := by
  cases hrunning : sv.running with
  | true =>
      obtain ⟨horderly, hstopped, -⟩ := stopServer_spec h.books h.sized hrunning
      exact ⟨horderly, hstopped⟩
  | false =>
      have hsame : stopServer sv = sv := by simp [stopServer, hrunning]
      rw [hsame]
      exact ⟨h, hrunning⟩

/-! ### `Initialize` -/

section Initialize

theorem Orderly.winsock (h : Orderly sv) (succeeds : Bool) :
    Orderly (sv.startWinsock succeeds).2 where
  sized := by unfold startWinsock; split_ifs <;> exact h.sized
  books := h.books.winsock succeeds
  equipped := by
    unfold startWinsock
    split_ifs
    · exact h.equipped
    · exact fun hinit => ⟨rfl, (h.equipped hinit).port, (h.equipped hinit).socket,
        (h.equipped hinit).pool⟩
    · exact h.equipped
  bare := by unfold startWinsock; split_ifs <;> exact h.bare
  crew := by unfold startWinsock; split_ifs <;> exact h.crew
  idle := by unfold startWinsock; split_ifs <;> exact h.idle

/-- What is opened and closed again leaves the members as they are. -/
theorem Orderly.emits (h : Orderly sv) {events : List (Event Resource)}
    (hevents : Lawful Resource.needs {r | sv.holds r} events {r | sv.holds r}) :
    Orderly (sv.emit events) where
  sized := h.sized
  books := h.books.append hevents
  equipped := fun hinit =>
    ⟨(h.equipped hinit).winsock, (h.equipped hinit).port, (h.equipped hinit).socket,
      (h.equipped hinit).pool⟩
  bare := h.bare
  crew := h.crew
  idle := h.idle

/-- The new port is closed again, behind what happens while it is open. -/
theorem Orderly.port_leaves (h : Orderly sv) (hinit : sv.initialized = false)
    {events : List (Event Resource)}
    (hevents : Lawful Resource.needs (insert .completionPort {r | sv.holds r}) events
      (insert .completionPort {r | sv.holds r})) :
    Orderly (sv.emit ([.opens .completionPort] ++ events ++ [.closes .completionPort])) := by
  refine h.emits (.passes (fun hport => ?_) (fun n hn => absurd hn List.not_mem_nil) hevents
    fun u hu => ?_)
  · exact Resource.noConfusion (h.only_winsock hinit (r := .completionPort) hport)
  · rcases Set.mem_insert_iff.1 hu with rfl | hu
    · exact List.not_mem_nil
    · rw [h.only_winsock hinit (r := u) hu]
      exact List.not_mem_nil

/-- So is the new socket, inside. -/
theorem Orderly.listen_leaves (h : Orderly sv) (hinit : sv.initialized = false)
    (hwinsock : sv.winsockStarted = true) :
    Lawful Resource.needs (insert .completionPort {r | sv.holds r})
      ([.opens .listenSocket] ++ [] ++ [.closes .listenSocket])
      (insert .completionPort {r | sv.holds r}) := by
  refine .passes (fun hlisten => ?_) (fun n hn => ?_) .start fun u _ => ?_
  · rcases Set.mem_insert_iff.1 hlisten with hlisten | hlisten
    · cases hlisten
    · exact Resource.noConfusion (h.only_winsock hinit (r := .listenSocket) hlisten)
  · simp only [Resource.needs, List.mem_cons, List.not_mem_nil, or_false] at hn
    rcases hn with rfl | rfl
    · exact Set.mem_insert_of_mem _ hwinsock
    · exact Set.mem_insert _ _
  · cases u <;> simp [Resource.needs]

/-- The members take over what is open. -/
theorem Orderly.takes_over (h : Orderly sv) (hinit : sv.initialized = false)
    (hwinsock : sv.winsockStarted = true) :
    Orderly { ((((((sv.emit [.opens .completionPort]).emit [.opens .listenSocket]).emit
      [.opens .acceptPool]).resetPool true).resetPort true).resetListen true) with
        initialized := true } := by
  obtain ⟨hport, hlisten, hpool⟩ := h.bare hinit
  have hopened : Lawful Resource.needs ∅
      (((sv.trace ++ [.opens .completionPort]) ++ [.opens .listenSocket]) ++ [.opens .acceptPool])
      (insert .acceptPool (insert .listenSocket (insert .completionPort {r | sv.holds r}))) := by
    refine ((h.books.opens ?_ ?_ rfl).opens ?_ ?_ rfl).opens ?_ ?_ rfl
    · simp [holds, hport]
    · exact fun n hn => absurd hn List.not_mem_nil
    · simp [holds, hlisten]
    · simp [Resource.needs, holds, hwinsock]
    · simp [holds, hpool]
    · exact fun n hn => absurd hn List.not_mem_nil
  refine {
    sized := by simpa using h.sized
    books := ?_
    equipped := fun _ => ⟨by simpa using hwinsock, by simp, by simp, by simp⟩
    bare := fun h => Bool.noConfusion h
    crew := fun hrunning => ?_
    idle := fun hidle => by simpa using h.idle (by simpa using hidle) }
  · refine (congrArg₂ (Lawful Resource.needs ∅) ?_ ?_).mp hopened
    · simp [hport, hlisten, hpool]
    · ext r
      cases r <;> simp [holds]
  · simp [h.not_running hinit] at hrunning

end Initialize

@[simp] theorem emit_emit (sv : Impl) (first second : List (Event Resource)) :
    (sv.emit first).emit second = sv.emit (first ++ second) := by
  simp [emit]

theorem startWinsock_initialized (sv : Impl) (succeeds : Bool) :
    (sv.startWinsock succeeds).2.initialized = sv.initialized := by
  unfold startWinsock
  split_ifs <;> rfl

theorem startWinsock_started (sv : Impl) (succeeds : Bool)
    (h : (sv.startWinsock succeeds).1 = true) :
    (sv.startWinsock succeeds).2.winsockStarted = true := by
  unfold startWinsock at h ⊢
  split_ifs with hstarted hsucceeds
  · exact hstarted
  · rfl
  · simp [hstarted, hsucceeds] at h

/-- **`Initialize`**, whichever of its calls fails: it returns `true` exactly if the server is
initialized. -/
theorem initializeServer_spec (h : Orderly sv) (x : InitializeOutcome) :
    Orderly (initializeServer x sv).2 ∧ ((initializeServer x sv).1 = .returns true ↔
      (initializeServer x sv).2.initialized = true) := by
  unfold initializeServer
  split
  · next hinit => exact ⟨h, by simp [hinit]⟩
  · next hnot =>
      have hinit := startWinsock_initialized sv x.wsaStartup
      have hwinsock := startWinsock_started sv x.wsaStartup
      have horderly := h.winsock x.wsaStartup
      generalize sv.startWinsock x.wsaStartup = outcome at hinit hwinsock horderly ⊢
      obtain ⟨started, sv₁⟩ := outcome
      replace hinit : sv₁.initialized = false := hinit.trans (Bool.eq_false_iff.2 hnot)
      cases started with
      | false => exact ⟨horderly, by simp [hinit]⟩
      | true =>
          have hleaves := horderly.port_leaves hinit (horderly.listen_leaves hinit (hwinsock rfl))
          dsimp only
          split_ifs
          · exact ⟨horderly, by simp [hinit]⟩
          · have hport := horderly.port_leaves hinit (.start)
            exact ⟨by simpa using hport, by simp [hinit]⟩
          · exact ⟨by simpa using hleaves, by simp [hinit]⟩
          · exact ⟨by simpa using hleaves, by simp [hinit]⟩
          · exact ⟨horderly.takes_over hinit (hwinsock rfl), by simp⟩

/-! ### `Start` -/

/-- **`Start`**, whatever fails: it returns whether the server runs, and a server that it has not
started is not initialized any more. -/
theorem startServer_spec (h : Orderly sv) (x : StartOutcome) :
    Orderly (startServer x sv).2 ∧ (startServer x sv).1 = (startServer x sv).2.running ∧
      ((startServer x sv).1 = false → (startServer x sv).2.initialized = false) := by
  have hfails : ∀ {sv' : Impl}, Books sv' → 0 < sv'.workerCount ∧ 0 < sv'.acceptDepth →
      sv'.running = true → Orderly (stopServer sv') ∧ false = (stopServer sv').running ∧
        (false = false → (stopServer sv').initialized = false) := by
    intro sv' hbooks hsized hrunning
    obtain ⟨horderly, hstopped, hinit⟩ := stopServer_spec hbooks hsized hrunning
    exact ⟨horderly, hstopped.symm, fun _ => hinit⟩
  unfold startServer
  split
  · next hskip =>
      refine ⟨h, rfl, fun hfalse => ?_⟩
      have hidle : sv.running = false := hfalse
      simpa [hidle] using hskip
  · next hready =>
      obtain ⟨hinit, hidle⟩ : sv.initialized = true ∧ sv.running = false := by simpa using hready
      obtain ⟨hworkers, htimer⟩ := h.idle hidle
      obtain ⟨hwinsock, hport, hlisten, hpool⟩ := h.equipped hinit
      have hstarting := h.books.flags true false sv.initialized
      have hmade := fun n => hstarting.emplaceWorkers ⟨hwinsock, hport, hlisten, hpool⟩ n
      have htimed : Books { (Impl.emit [.opens .timer] (Impl.emplaceWorkers sv.workerCount
          { sv with running := true, stopping := false })) with timerThread := true } := by
        refine (hmade sv.workerCount).opens (r := .timer) (by simp [holds, htimer]) ?_ ?_
        · simp [Resource.needs, holds, hwinsock, hport]
        · ext r
          cases r <;> simp [holds]
      dsimp only
      split_ifs
      · exact hfails hstarting h.sized rfl
      · exact hfails (hmade x.threads) (by simpa using h.sized) (by simp)
      · exact hfails (hmade sv.workerCount) (by simpa using h.sized) (by simp)
      · exact hfails htimed (by simpa using h.sized) (by simp)
      · refine ⟨?_, by simp, by simp⟩
        exact {
          sized := by simpa using h.sized
          books := htimed
          equipped := fun _ => ⟨by simpa, by simpa, by simpa, by simpa⟩
          bare := fun hbare => by simp [hinit] at hbare
          crew := fun _ => by simp [hinit, hworkers]
          idle := fun hidle => by simp at hidle }

/-- **Every call keeps the invariant**, whatever fails. -/
theorem Orderly.step (h : Orderly sv) (call : Call) : Orderly (step sv call) := by
  cases call with
  | initializes x => exact (initializeServer_spec h x).1
  | starts x => exact (startServer_spec h x).1
  | stops => exact h.stop.1

theorem Orderly.run (h : Orderly sv) (calls : List Call) : Orderly (run calls sv) := by
  induction calls generalizing sv with
  | nil => exact h
  | cons call calls ih => exact ih (h.step call)

/-- The destructor leaves nothing open. -/
theorem Orderly.destroy (h : Orderly sv) :
    Lawful Resource.needs ∅ (destroyServer sv).trace ∅ := by
  obtain ⟨hstopped, hidle⟩ := h.stop
  obtain ⟨hworkers, htimer⟩ := hstopped.idle hidle
  have hbooks := (hstopped.books.resetPool hworkers).resetListen.resetPort (by simpa) (by simpa)
    (by simp)
  have hlast : ∀ r, ((((stopServer sv).resetPool false).resetListen false).resetPort false).holds r →
      r = .winsock := by
    intro r hr
    cases r <;> simp_all [holds]
  unfold destroyServer
  dsimp only
  generalize (((stopServer sv).resetPool false).resetListen false).resetPort false = last
    at hbooks hlast ⊢
  split
  · next hstarted =>
      refine hbooks.closes (r := .winsock) hstarted (fun u hu => ?_) ?_
      · rw [hlast u hu]
        exact List.not_mem_nil
      · ext r
        simpa using hlast r
  · next hstarted =>
      have hnone : {r | last.holds r} = ∅ := by
        refine Set.eq_empty_of_forall_notMem fun r hr => hstarted ?_
        obtain rfl := hlast r hr
        exact hr
      rwa [Books, hnone] at hbooks

end ServerLifetime

end RealtimeEngine
