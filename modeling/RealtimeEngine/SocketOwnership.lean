/-
**Who owns a socket.**

A socket is made by `WSASocketW` and ended by `closesocket`.  In between its owner changes: a
`UniqueSocket` on the stack, an `AcceptOperation` of the pool, another `UniqueSocket` in
`HandleAccept`, and at last a session, whose `Disconnect` closes it.  A `UniqueSocket` closes its
socket when it goes out of scope; an `AcceptOperation` does not.

The calls are executed one after the other, and each call names the outcomes of what it asks the
system for.  A call of a handler within `HandleAccept` that closes sessions is a call of its own.
`metrics.active_connections` is kept, since `HandleAccept` reads it; the other counters are not.

Main definitions:

* `RealtimeEngine.SocketOwnership.Server`, `RealtimeEngine.SocketOwnership.Call`;
* `RealtimeEngine.SocketOwnership.Accounted` — every socket is closed once or has one owner;
* `RealtimeEngine.SocketOwnership.Ledger` — the sockets that are neither, as a multiset.

Main results:

* `RealtimeEngine.SocketOwnership.step_ledger` — what one call does to the ledger;
* `RealtimeEngine.SocketOwnership.accounted_iff` — **a socket is lost exactly where `PostNewAccept`
  fails behind its `WSASocketW`**.
-/

import Mathlib.Algebra.Order.Group.Multiset
import Mathlib.Algebra.Order.Ring.Nat
import Mathlib.Tactic.Abel
import RealtimeEngine.Basic

set_option relaxedAutoImplicit false
set_option autoImplicit false

namespace RealtimeEngine

namespace SocketOwnership

/-! ### State -/

/-- An `AcceptOperation`; a socket that is absent is `INVALID_SOCKET`. -/
structure AcceptOperation where
  socket : Option ℕ
  /-- `AcceptEx` has taken the operation, and its completion has not been handled. -/
  pending : Bool
  deriving DecidableEq, Repr

/-- A `ClientSession`, as far as its socket is concerned. -/
structure ClientSession where
  socket : Option ℕ
  disconnectStarted : Bool
  deriving DecidableEq, Repr

/-- The sockets and the objects that hold them. -/
structure Server where
  /-- How many sockets `WSASocketW` has made; the numbers below it are their names. -/
  created : ℕ := 0
  /-- The calls of `closesocket`. -/
  closed : List ℕ := []
  /-- The objects of `accept_pool` that are in use. -/
  acceptPool : List AcceptOperation := []
  /-- The sessions, in the order in which they were made. -/
  sessions : List ClientSession := []
  activeConnections : ℕ := 0
  deriving DecidableEq, Repr

namespace Server

/-- `WSASocketW`. -/
def wsaSocketW (succeeds : Bool) (sv : Server) : Option ℕ × Server :=
  if succeeds then (some sv.created, { sv with created := sv.created + 1 }) else (none, sv)

/-- `closesocket`. -/
def closesocket (socket : ℕ) (sv : Server) : Server := { sv with closed := sv.closed ++ [socket] }

/-- `UniqueSocket::Reset`, as the destructor calls it. -/
def reset : Option ℕ → Server → Server
  | none, sv => sv
  | some socket, sv => sv.closesocket socket

/-- Writing the fields of an operation. -/
def setOperation (operation : ℕ) (value : AcceptOperation) (sv : Server) : Server :=
  { sv with acceptPool := sv.acceptPool.set operation value }

/-- `accept_pool->Create`, where the pool has a free slot. -/
def create (socket : Option ℕ) (sv : Server) : Server :=
  { sv with acceptPool := sv.acceptPool ++ [⟨socket, false⟩] }

/-- `accept_pool->Destroy`; the destructor of an `AcceptOperation` does nothing. -/
def destroy (operation : ℕ) (sv : Server) : Server :=
  { sv with acceptPool := sv.acceptPool.eraseIdx operation }

/-- Writing the fields of a session. -/
def setSession (session : ℕ) (value : ClientSession) (sv : Server) : Server :=
  { sv with sessions := sv.sessions.set session value }

/-- `Disconnect`. -/
def disconnect (session : ℕ) (sv : Server) : Server :=
  match sv.sessions[session]? with
  | none => sv
  | some ⟨socket, disconnectStarted⟩ =>
      if disconnectStarted then sv
      else
        let sv := (sv.setSession session ⟨none, true⟩).reset socket
        { sv with activeConnections := sv.activeConnections - 1 }

end Server

open Server

/-! ### Calls -/

/-- What `PostNewAccept` finds: the two tests of its first line, and the outcomes of `WSASocketW`,
`accept_pool->Create` and `AcceptEx`. -/
structure NewAccept where
  running : Bool := true
  listening : Bool := true
  socketCreated : Bool := true
  poolCreated : Bool := true
  acceptEx : Bool := true
  deriving DecidableEq, Repr

/-- What `HandleAccept` finds: whether the accept succeeded, the two loads of `running`, and the
outcomes of `setsockopt`, `Associate`, `PostRead`, `WSASocketW` and `AcceptEx`. -/
structure AcceptOutcome where
  succeeded : Bool := true
  running : Bool := true
  setsockopt : Bool := true
  associate : Bool := true
  postRead : Bool := true
  stillRunning : Bool := true
  socketCreated : Bool := true
  acceptEx : Bool := true
  deriving DecidableEq, Repr

/-- `PostNewAccept`. -/
def postNewAccept (x : NewAccept) (sv : Server) : Bool × Server :=
  if !x.running || !x.listening then (false, sv)
  else
    match sv.wsaSocketW x.socketCreated with
    | (none, sv) => (false, sv)
    | (some socket, sv) =>
        -- `socket.Release()` comes first: from here on no destructor closes the socket
        if !x.poolCreated then (false, sv)
        else
          let operation := sv.acceptPool.length
          let sv := sv.create (some socket)
          if !x.acceptEx then (false, sv.destroy operation)
          else (true, sv.setOperation operation ⟨some socket, true⟩)

/-- The part of `HandleAccept` that makes a session: what stays in `accepted`, and the server. -/
def acceptConnection (config : ServerConfig) (x : AcceptOutcome) (accepted : Option ℕ)
    (sv : Server) : Option ℕ × Server :=
  if x.succeeded && x.running then
    if sv.activeConnections ≥ config.maxConnections.toNat then (accepted, sv)
    else if x.setsockopt && x.associate then
      let session := sv.sessions.length
      let sv := { sv with
        sessions := sv.sessions ++ [⟨accepted, false⟩]
        activeConnections := sv.activeConnections + 1 }
      (none, if x.postRead then sv else sv.disconnect session)
    else (accepted, sv)
  else (accepted, sv)

/-- The part of `HandleAccept` that uses the operation again: whether it is posted. -/
def acceptAgain (operation : ℕ) (x : AcceptOutcome) (sv : Server) : Bool × Server :=
  if x.stillRunning then
    match sv.wsaSocketW x.socketCreated with
    | (none, sv) => (false, sv)
    | (some next, sv) =>
        if x.acceptEx then (true, sv.setOperation operation ⟨some next, true⟩)
        else (false, (sv.closesocket next).setOperation operation ⟨none, false⟩)
  else (false, sv)

/-- `HandleAccept`; there is no result where the operation is not pending. -/
def handleAccept (config : ServerConfig) (operation : ℕ) (x : AcceptOutcome) (sv : Server) :
    Option Server :=
  match sv.acceptPool[operation]? with
  | some ⟨socket, true⟩ =>
      let sv := sv.setOperation operation ⟨none, false⟩
      let (accepted, sv) := acceptConnection config x socket sv
      let (posted, sv) := acceptAgain operation x sv
      -- the destructor of `accepted` runs last
      some ((if posted then sv else sv.destroy operation).reset accepted)
  | _ => none

/-- A call, with what it finds. -/
inductive Call
  | postNewAccept (x : NewAccept)
  | handleAccept (operation : ℕ) (x : AcceptOutcome)
  | disconnect (session : ℕ)
  deriving DecidableEq, Repr

/-- What a call does. -/
def step (config : ServerConfig) : Call → Server → Option Server
  | .postNewAccept x, sv => some (postNewAccept x sv).2
  | .handleAccept operation x, sv => handleAccept config operation x sv
  | .disconnect session, sv => some (sv.disconnect session)

/-- What the calls do, one after the other. -/
def run (config : ServerConfig) : List Call → Server → Option Server
  | [], sv => some sv
  | call :: calls, sv => (step config call sv).bind (run config calls)

/-! ### Owners -/

/-- The socket an operation owns. -/
def AcceptOperation.owned (op : AcceptOperation) : Option ℕ :=
  if op.pending then op.socket else none

/-- The socket a session owns. -/
def ClientSession.owned (c : ClientSession) : Option ℕ :=
  if c.disconnectStarted then none else c.socket

/-- How often a socket was closed, how many pending operations own it, and how many sessions whose
`Disconnect` has not started. -/
def owners (sv : Server) (socket : ℕ) : ℕ × ℕ × ℕ :=
  (sv.closed.count socket, sv.acceptPool.countP fun op => op.owned = some socket,
    sv.sessions.countP fun c => c.owned = some socket)

/-- Every socket was closed once and has no owner, or is open and has one owner. -/
def Accounted (sv : Server) : Prop :=
  ∀ socket < sv.created,
    owners sv socket = (1, 0, 0) ∨ owners sv socket = (0, 1, 0) ∨ owners sv socket = (0, 0, 1)

/-- `PostNewAccept` makes a socket and then fails. -/
def Call.leaks : Call → Bool
  | .postNewAccept x =>
      x.running && x.listening && x.socketCreated && !(x.poolCreated && x.acceptEx)
  | _ => false

/-! ### The ledger -/

/-- The values that the elements of a list hold. -/
def holdings {α : Type*} (f : α → Option ℕ) (xs : List α) : Multiset ℕ := ↑(xs.filterMap f)

section Holdings

variable {α : Type*} {f : α → Option ℕ} {xs : List α} {i : ℕ} {a : α}

theorem holdings_append (f : α → Option ℕ) (xs ys : List α) :
    holdings f (xs ++ ys) = holdings f xs + holdings f ys := by
  simp [holdings]

theorem holdings_cons (f : α → Option ℕ) (a : α) (xs : List α) :
    holdings f (a :: xs) = ↑(f a).toList + holdings f xs := by
  cases h : f a with
  | none => simp [holdings, h]
  | some n => simp [holdings, h]

@[simp] theorem holdings_singleton (f : α → Option ℕ) (a : α) :
    holdings f [a] = ↑(f a).toList := by
  rw [holdings_cons]
  simp [holdings]

/-- An element and the rest of the list. -/
theorem holdings_eraseIdx (h : xs[i]? = some a) :
    holdings f xs = ↑(f a).toList + holdings f (xs.eraseIdx i) := by
  obtain ⟨hi, rfl⟩ := List.getElem?_eq_some_iff.1 h
  rw [← holdings_cons]
  exact Multiset.coe_eq_coe.2 ((List.getElem_cons_eraseIdx_perm hi).symm.filterMap f)

/-- One element is replaced. -/
theorem holdings_set (h : xs[i]? = some a) (b : α) :
    holdings f (xs.set i b) + ↑(f a).toList = ↑(f b).toList + holdings f xs := by
  have hget : (xs.set i b)[i]? = some b := by
    rw [List.getElem?_set_self (List.getElem?_eq_some_iff.1 h).1]
  rw [holdings_eraseIdx hget, holdings_eraseIdx h, List.eraseIdx_set_eq]
  abel

theorem count_holdings (f : α → Option ℕ) (xs : List α) (n : ℕ) :
    (holdings f xs).count n = xs.countP fun a => f a = some n := by
  rw [holdings, Multiset.coe_count, List.count, List.countP_filterMap]
  refine List.countP_congr fun a _ => ?_
  cases f a with
  | none => simp
  | some m => simp

end Holdings

/-- The sockets that were closed or have an owner. -/
def held (sv : Server) : Multiset ℕ :=
  ↑sv.closed + holdings AcceptOperation.owned sv.acceptPool +
    holdings ClientSession.owned sv.sessions

/-- The sockets that were closed or have an owner, and those in `loose`, are all sockets. -/
def Ledger (sv : Server) (loose : Multiset ℕ) : Prop :=
  held sv + loose = Multiset.range sv.created

section Moves

variable {sv : Server} {loose : Multiset ℕ}

/-- A new socket is in nobody's hands but the caller's. -/
theorem Ledger.wsaSocketW (h : Ledger sv loose) (succeeds : Bool) :
    Ledger (sv.wsaSocketW succeeds).2 (↑(sv.wsaSocketW succeeds).1.toList + loose) := by
  cases succeeds with
  | false => simpa [Server.wsaSocketW] using h
  | true =>
      have hrange : Multiset.range (sv.created + 1) = {sv.created} + (held sv + loose) := by
        rw [h, Multiset.range_succ, Multiset.singleton_add]
      simp only [Ledger, Server.wsaSocketW, if_true, Option.toList_some, Multiset.coe_singleton,
        hrange]
      change held sv + ({sv.created} + loose) = _
      abel

theorem Ledger.reset {socket : Option ℕ} (h : Ledger sv (↑socket.toList + loose)) :
    Ledger (sv.reset socket) loose := by
  cases socket with
  | none => simpa [Server.reset] using h
  | some socket =>
      rw [Ledger, Server.reset, Server.closesocket]
      refine Eq.trans ?_ h
      simp only [held, ← Multiset.coe_add, Option.toList_some]
      abel

/-- The operation gets another socket. -/
theorem Ledger.setOperation {operation : ℕ} {op : AcceptOperation} (op' : AcceptOperation)
    (h : Ledger sv (↑op'.owned.toList + loose)) (hop : sv.acceptPool[operation]? = some op) :
    Ledger (sv.setOperation operation op') (↑op.owned.toList + loose) := by
  have hset := holdings_set (f := AcceptOperation.owned) hop op'
  rw [Ledger, Server.setOperation]
  refine Eq.trans ?_ h
  simp only [held]
  calc ↑sv.closed + holdings AcceptOperation.owned (sv.acceptPool.set operation op') +
        holdings ClientSession.owned sv.sessions + (↑op.owned.toList + loose)
      = (holdings AcceptOperation.owned (sv.acceptPool.set operation op') + ↑op.owned.toList) +
        ↑sv.closed + holdings ClientSession.owned sv.sessions + loose := by abel
    _ = _ := by
        rw [hset]
        abel

theorem Ledger.create (h : Ledger sv loose) (socket : Option ℕ) :
    Ledger (sv.create socket) loose := by
  rw [Ledger, Server.create]
  refine Eq.trans ?_ h
  simp [held, holdings_append, AcceptOperation.owned]

/-- An operation that owns nothing is destroyed. -/
theorem Ledger.destroy {operation : ℕ} {op : AcceptOperation} (h : Ledger sv loose)
    (hop : sv.acceptPool[operation]? = some op) (hnone : op.owned = none) :
    Ledger (sv.destroy operation) loose := by
  have herase := holdings_eraseIdx (f := AcceptOperation.owned) hop
  rw [hnone] at herase
  rw [Ledger, Server.destroy]
  refine Eq.trans ?_ h
  simp only [held, herase]
  simp

/-- The session gets another socket. -/
theorem Ledger.setSession {session : ℕ} {c c' : ClientSession}
    (h : Ledger sv (↑c'.owned.toList + loose)) (hc : sv.sessions[session]? = some c) :
    Ledger (sv.setSession session c') (↑c.owned.toList + loose) := by
  have hset := holdings_set (f := ClientSession.owned) hc c'
  rw [Ledger, Server.setSession]
  refine Eq.trans ?_ h
  simp only [held]
  calc ↑sv.closed + holdings AcceptOperation.owned sv.acceptPool +
        holdings ClientSession.owned (sv.sessions.set session c') + (↑c.owned.toList + loose)
      = (holdings ClientSession.owned (sv.sessions.set session c') + ↑c.owned.toList) +
        ↑sv.closed + holdings AcceptOperation.owned sv.acceptPool + loose := by abel
    _ = _ := by
        rw [hset]
        abel

/-- **`Disconnect` closes what its session owns.** -/
theorem Ledger.disconnect (h : Ledger sv loose) (session : ℕ) :
    Ledger (sv.disconnect session) loose := by
  unfold Server.disconnect
  split
  · exact h
  · next socket disconnectStarted hc =>
      cases disconnectStarted with
      | true => exact h
      | false =>
          have hset : Ledger (sv.setSession session ⟨none, true⟩) (↑socket.toList + loose) :=
            Ledger.setSession (by simpa [ClientSession.owned] using h) hc
          exact hset.reset

end Moves

/-! ### The calls -/

section Calls

variable {config : ServerConfig} {sv : Server} {loose : Multiset ℕ}

/-- `HandleAccept` hands the socket to a session, or keeps it. -/
theorem Ledger.acceptConnection {accepted : Option ℕ} (h : Ledger sv (↑accepted.toList + loose))
    (config : ServerConfig) (x : AcceptOutcome) :
    Ledger (acceptConnection config x accepted sv).2
      (↑(acceptConnection config x accepted sv).1.toList + loose) := by
  unfold SocketOwnership.acceptConnection
  split
  · split
    · exact h
    · split
      · have hnew : Ledger { sv with
            sessions := sv.sessions ++ [⟨accepted, false⟩]
            activeConnections := sv.activeConnections + 1 } loose := by
          rw [Ledger]
          refine Eq.trans ?_ h
          simp only [held, holdings_append, holdings_singleton, ClientSession.owned]
          simp only [Bool.false_eq_true, if_false]
          abel
        dsimp only
        rw [Option.toList_none, Multiset.coe_nil, zero_add]
        split
        · exact hnew
        · exact hnew.disconnect _
      · exact h
  · exact h

theorem acceptConnection_pool (x : AcceptOutcome) (accepted : Option ℕ) (sv : Server) :
    (acceptConnection config x accepted sv).2.acceptPool = sv.acceptPool := by
  have hreset : ∀ (socket : Option ℕ) (sv : Server), (sv.reset socket).acceptPool = sv.acceptPool := by
    intro socket sv
    cases socket <;> rfl
  have hdisconnect : ∀ (session : ℕ) (sv : Server),
      (sv.disconnect session).acceptPool = sv.acceptPool := by
    intro session sv
    unfold Server.disconnect
    split
    · rfl
    · split
      · rfl
      · exact hreset _ _
  unfold acceptConnection
  split
  · split
    · rfl
    · split
      · dsimp only
        split
        · rfl
        · exact hdisconnect _ _
      · rfl
  · rfl

/-- `HandleAccept` posts the operation with a new socket, or the operation owns nothing. -/
theorem Ledger.acceptAgain {operation : ℕ} {op : AcceptOperation} (h : Ledger sv loose)
    (hop : sv.acceptPool[operation]? = some op) (hnone : op.owned = none) (x : AcceptOutcome) :
    Ledger (acceptAgain operation x sv).2 loose ∧
      ((acceptAgain operation x sv).1 = false →
        ∃ op, (acceptAgain operation x sv).2.acceptPool[operation]? = some op ∧
          op.owned = none) := by
  have hlt : operation < sv.acceptPool.length := (List.getElem?_eq_some_iff.1 hop).1
  unfold SocketOwnership.acceptAgain
  cases hrunning : x.stillRunning with
  | false => exact ⟨h, fun _ => ⟨op, hop, hnone⟩⟩
  | true =>
      have hnew := h.wsaSocketW x.socketCreated
      cases hcreated : x.socketCreated with
      | false => exact ⟨h, fun _ => ⟨op, hop, hnone⟩⟩
      | true =>
          rw [hcreated] at hnew
          cases hposted : x.acceptEx with
          | true =>
              refine ⟨?_, fun hfalse => (by cases hfalse)⟩
              have hset := Ledger.setOperation ⟨some sv.created, true⟩ hnew hop
              simpa [hnone, Server.wsaSocketW] using hset
          | false =>
              refine ⟨?_, fun _ => ⟨⟨none, false⟩, ?_, rfl⟩⟩
              · have hclosed : Ledger
                    (closesocket sv.created { sv with created := sv.created + 1 }) (0 + loose) := by
                  rw [zero_add]
                  exact Ledger.reset hnew
                have hset := Ledger.setOperation ⟨none, false⟩ hclosed hop
                rwa [hnone, Option.toList_none, Multiset.coe_nil, zero_add] at hset
              · exact List.getElem?_set_self hlt

theorem handleAccept_ledger {operation : ℕ} {x : AcceptOutcome} {sv' : Server}
    (h : Ledger sv loose) (hstep : handleAccept config operation x sv = some sv') :
    Ledger sv' loose := by
  unfold handleAccept at hstep
  split at hstep
  · next socket hop =>
      have hlt : operation < sv.acceptPool.length := (List.getElem?_eq_some_iff.1 hop).1
      have htaken : Ledger (sv.setOperation operation ⟨none, false⟩) (↑socket.toList + loose) :=
        Ledger.setOperation ⟨none, false⟩ (by simpa [AcceptOperation.owned] using h) hop
      have hconnected := htaken.acceptConnection config x
      have hpool : (acceptConnection config x socket
          (sv.setOperation operation ⟨none, false⟩)).2.acceptPool[operation]? =
            some ⟨none, false⟩ := by
        rw [acceptConnection_pool]
        exact List.getElem?_set_self hlt
      obtain ⟨hagain, hrest⟩ := hconnected.acceptAgain hpool rfl x
      rw [Option.some.injEq] at hstep
      generalize SocketOwnership.acceptConnection config x socket
        (sv.setOperation operation ⟨none, false⟩) = connected at hagain hrest hstep
      obtain ⟨accepted, sv₁⟩ := connected
      dsimp only at hagain hrest hstep
      generalize SocketOwnership.acceptAgain operation x sv₁ = again at hagain hrest hstep
      obtain ⟨posted, sv₂⟩ := again
      subst hstep
      cases posted with
      | true => exact hagain.reset
      | false =>
          obtain ⟨op, hop', hnone⟩ := hrest rfl
          exact (hagain.destroy hop' hnone).reset
  · cases hstep

/-- **`PostNewAccept` loses its socket** where it fails behind `WSASocketW`. -/
theorem postNewAccept_ledger (h : Ledger sv loose) (x : NewAccept) :
    Ledger (postNewAccept x sv).2
      (if (Call.postNewAccept x).leaks then sv.created ::ₘ loose else loose) := by
  unfold postNewAccept
  cases hrunning : x.running with
  | false => simpa [Call.leaks, hrunning] using h
  | true =>
      cases hlistening : x.listening with
      | false => simpa [Call.leaks, hlistening] using h
      | true =>
          have hnew := h.wsaSocketW x.socketCreated
          cases hcreated : x.socketCreated with
          | false => simpa [Call.leaks, hcreated, Server.wsaSocketW] using h
          | true =>
              rw [hcreated] at hnew
              have hfresh : Ledger { sv with created := sv.created + 1 } (sv.created ::ₘ loose) := by
                simpa [Server.wsaSocketW] using hnew
              have hlast : ({ sv with created := sv.created + 1 }.create
                  (some sv.created)).acceptPool[sv.acceptPool.length]? =
                    some ⟨some sv.created, false⟩ := by
                simp [Server.create]
              cases hpool : x.poolCreated with
              | false => simpa [Call.leaks, hrunning, hlistening, hcreated, hpool, Server.wsaSocketW]
                  using hfresh
              | true =>
                  cases hposted : x.acceptEx with
                  | false =>
                      -- the pool destroys the operation, and its socket joins the loose ones
                      have hdestroyed := (hfresh.create (some sv.created)).destroy hlast rfl
                      simpa [Call.leaks, hrunning, hlistening, hcreated, hpool, hposted,
                        Server.wsaSocketW] using hdestroyed
                  | true =>
                      have hcreate : Ledger ({ sv with created := sv.created + 1 }.create
                          (some sv.created)) (↑[sv.created] + loose) := by
                        simpa [AcceptOperation.owned] using hfresh.create (some sv.created)
                      have hset := Ledger.setOperation ⟨some sv.created, true⟩ hcreate hlast
                      simpa [Call.leaks, hrunning, hlistening, hcreated, hpool, hposted,
                        Server.wsaSocketW, AcceptOperation.owned] using hset

/-- **What one call does to the ledger.** -/
theorem step_ledger {call : Call} {sv' : Server} (h : Ledger sv loose)
    (hstep : step config call sv = some sv') :
    Ledger sv' (if call.leaks then sv.created ::ₘ loose else loose) := by
  cases call with
  | postNewAccept x =>
      obtain rfl := Option.some.inj hstep
      exact postNewAccept_ledger h x
  | handleAccept operation x => exact handleAccept_ledger h hstep
  | disconnect session =>
      obtain rfl := Option.some.inj hstep
      exact h.disconnect session

/-- A run loses one socket for each call that leaks. -/
theorem run_ledger {calls : List Call} {sv' : Server} (h : Ledger sv loose)
    (hrun : run config calls sv = some sv') :
    ∃ loose', Ledger sv' loose' ∧ loose'.card = loose.card + calls.countP Call.leaks := by
  induction calls generalizing sv loose with
  | nil =>
      obtain rfl := Option.some.inj hrun
      exact ⟨loose, h, by simp⟩
  | cons call calls ih =>
      obtain ⟨mid, hstep, hrest⟩ := Option.bind_eq_some_iff.1 hrun
      obtain ⟨loose', hledger, hcard⟩ := ih (step_ledger h hstep) hrest
      refine ⟨loose', hledger, ?_⟩
      rw [hcard, List.countP_cons]
      split
      · rw [Multiset.card_cons]
        omega
      · omega

end Calls

theorem count_held (sv : Server) (socket : ℕ) :
    (held sv).count socket =
      (owners sv socket).1 + (owners sv socket).2.1 + (owners sv socket).2.2 := by
  simp [held, owners, count_holdings]

/-- The books are balanced where nothing is loose. -/
theorem accounted_iff_loose {sv : Server} {loose : Multiset ℕ} (h : Ledger sv loose) :
    Accounted sv ↔ loose = 0 := by
  have hcount : ∀ socket, (held sv).count socket + loose.count socket =
      (Multiset.range sv.created).count socket := by
    intro socket
    rw [← Multiset.count_add, h]
  constructor
  · intro haccounted
    refine Multiset.eq_zero_of_forall_notMem fun socket hmem => ?_
    have hpos := Multiset.count_pos.2 hmem
    have hone := Multiset.nodup_iff_count_le_one.1 (Multiset.nodup_range sv.created) socket
    have hlt : socket < sv.created := by
      refine Multiset.mem_range.1 (Multiset.count_pos.1 ?_)
      rw [← hcount socket]
      omega
    have hsum := count_held sv socket
    have hthis := hcount socket
    rcases haccounted socket hlt with hown | hown | hown <;> rw [hown] at hsum <;>
      simp only at hsum <;> omega
  · rintro rfl socket hlt
    have hone : (held sv).count socket = 1 := by
      have hthis := hcount socket
      rw [Multiset.count_zero, add_zero, Multiset.count_eq_one_of_mem (Multiset.nodup_range _)
        (Multiset.mem_range.2 hlt)] at hthis
      exact hthis
    rw [count_held] at hone
    generalize owners sv socket = counts at hone ⊢
    obtain ⟨closes, operations, sessions⟩ := counts
    simp only [Prod.mk.injEq] at hone ⊢
    omega

/-- **Sockets are accounted for exactly as long as no `PostNewAccept` fails behind its
`WSASocketW`.**  The run is any sequence of calls, so this is about the state behind each of them.
-/
theorem accounted_iff (config : ServerConfig) (calls : List Call) {sv : Server}
    (hrun : run config calls {} = some sv) :
    Accounted sv ↔ ∀ call ∈ calls, call.leaks = false := by
  have hempty : Ledger {} 0 := by rfl
  obtain ⟨loose, hledger, hcard⟩ := run_ledger hempty hrun
  rw [accounted_iff_loose hledger, ← Multiset.card_eq_zero, hcard, Multiset.card_zero, zero_add,
    List.countP_eq_zero]
  simp

/-- An accept is posted and succeeds, the next one is posted, and the session is disconnected. -/
def oneConnection : List Call :=
  [.postNewAccept {}, .handleAccept 0 {}, .disconnect 0, .postNewAccept {}]

/-- All of its sockets are accounted for. -/
theorem accounted_iff_oneConnection : ∃ sv, run {} oneConnection {} = some sv ∧
    sv.created = 3 ∧ (Accounted sv ↔ ∀ call ∈ oneConnection, call.leaks = false) :=
  ⟨_, rfl, rfl, accounted_iff {} oneConnection rfl⟩

/-- **A lost socket**: `AcceptEx` fails, the operation is destroyed, and nobody closes its socket.
-/
theorem socket_lost : ∃ sv, run {} [.postNewAccept { acceptEx := false }] {} = some sv ∧
    sv.created = 1 ∧ owners sv 0 = (0, 0, 0) ∧ ¬ Accounted sv := by
  refine ⟨_, rfl, rfl, rfl, fun h => ?_⟩
  rcases h 0 Nat.one_pos with hown | hown | hown <;> cases hown

end SocketOwnership

end RealtimeEngine
