/-
**The engine: the server and the router together.**

`main` gives the router's `Handle` to the server as its message handler and `OnDisconnect` as its
disconnect handler, and the router sends through the server's `Send`.  Here the steps of
`RealtimeEngine/ServerSteps.lean` and those of `RealtimeEngine/RouterSteps.lean` are put together:
the thread that handles a read runs the whole of `Handle`, with every `Send` in it and whatever that
leads to, before it goes on with its read; and `Disconnect` ends in `OnDisconnect`.

Left open, besides what the two parts leave open, is the verdict of `Handle`, as the server's part
leaves it, and the bytes of the messages that the router builds.

The model carries histories that the code does not have: the bytes that the reads of a session have
returned, those that its decoder was given and the messages that it has returned, and for every item
of a send queue the message that it publishes, if it is one.

Main definitions:

* `RealtimeEngine.EngineSteps.Engine`, `RealtimeEngine.EngineSteps.Task` — the state and the steps;
* `RealtimeEngine.EngineSteps.exec`, `RealtimeEngine.EngineSteps.program` — what each step does;
* `RealtimeEngine.EngineSteps.Step` — the same as a relation;
* `RealtimeEngine.EngineSteps.serverTasks` — the tasks of the server among the pending ones.

Main results:

* `RealtimeEngine.EngineSteps.exec_step` — every step of the program is one of the relation;
* `RealtimeEngine.EngineSteps.Step.serverPart` — **the server's part of a step is one of the
  server**;
* `RealtimeEngine.EngineSteps.Step.serverInvariant` — the invariant rule for the server's part.
-/

import Mathlib.Data.Multiset.Bind
import RealtimeEngine.OutboundStream
import RealtimeEngine.RouterSteps
import RealtimeEngine.ServerReaders

set_option relaxedAutoImplicit false
set_option autoImplicit false

namespace RealtimeEngine

namespace EngineSteps

open Interleaving

/-! ### State -/

/-- A message of a session: how many messages its decoder had returned before. -/
abbrev MessageId := SessionHandle × ℕ

/-- What the threads share. -/
structure Engine where
  server : ServerSteps.Server SessionHandle
  router : RouterSteps.Shared
  /-- The bytes that the reads of a session have returned. -/
  received : SessionHandle → Bytes
  /-- The bytes that were given to `Append` of the decoder of a session. -/
  fed : SessionHandle → Bytes
  /-- The messages that the decoder of a session has returned. -/
  decoded : SessionHandle → List Bytes
  /-- The message that each item of a session publishes, for the items that `Enqueue` has accepted. -/
  origins : SessionHandle → List (Option MessageId)

/-- The bytes that a read of the session has returned when the task is reached. -/
def receives (s : SessionHandle) : ServerSteps.Task SessionHandle → Bytes
  | .reader s' (.handleRead true bytes) => if s' = s then bytes else []
  | _ => []

/-- The bytes that the task gives to the decoder of the session. -/
def feeds (s : SessionHandle) : ServerSteps.Task SessionHandle → Bytes
  | .reader s' (.processRaw bytes) | .reader s' (.appendWebSocket bytes) => if s' = s then bytes else []
  | _ => []

/-- The message that the decoder of the session returns when the task is reached. -/
def decodes (s : SessionHandle) : ServerSteps.Task SessionHandle → Option Bytes
  | .reader s' (.deliverMessage message _) => if s' = s then some message else none
  | _ => none

/-- The step of the server that the task takes; what it queues publishes the message `origin`. -/
def Engine.advance (e : Engine) (t : ServerSteps.Task SessionHandle)
    (server : ServerSteps.Server SessionHandle) (new : List (ServerSteps.Task SessionHandle))
    (origin : Option MessageId) : Engine where
  server := server
  router := e.router
  received s := e.received s ++ new.flatMap (receives s)
  fed s := e.fed s ++ feeds s t
  decoded s := e.decoded s ++ new.filterMap (decodes s)
  origins q := e.origins q ++ List.replicate
    ((server.out.sessions q).pushed.length - (e.server.out.sessions q).pushed.length) origin

/-! ### Steps -/

/-- What a handler still has to do: a task of the server, for the message `origin` if it publishes
one, or an action of the router. -/
inductive Work
  | call (t : ServerSteps.Task SessionHandle) (origin : Option MessageId)
  | act (a : RouterSteps.Action)

/-- Where a thread stands. -/
inductive Task
  | server (t : ServerSteps.Task SessionHandle)
  | router (a : RouterSteps.Action)
  /-- `DeliverMessage` in the handler, with the stack of what the handler has still to do. -/
  | handling (s : SessionHandle) (n : ℕ) (now : ℤ) (message : Bytes) (loop : ServerSteps.ReadPoint)
      (todo : List Work)

/-- What is left open at a step. -/
inductive Choice
  | server (y : ServerSteps.Choice SessionHandle)
  | services (svc : Services)
  /-- `DeliverMessage` reads the clock. -/
  | handles (now : ℤ)
  /-- The verdict of `Handle`. -/
  | judges (verdict : MessageDisposition)

/-- The work outside of a handler. -/
def Work.task : Work → Task
  | .call t _ => .server t
  | .act a => .router a

/-- The bytes that the router gives to `Send`. -/
def outgoingBytes (build : Outgoing → Bytes) : Outgoing → Bytes
  | .original payload => payload
  | message => build message

/-- A recipient of the room gets the bytes of the message itself. -/
def published (origin : Option MessageId) : Outgoing → Option MessageId
  | .original _ => origin
  | _ => none

/-- `Send` hands the message on until it is queued. -/
def passedOn (origin : Option MessageId) : ServerSteps.Task SessionHandle → Option MessageId
  | .out _ => none
  | _ => origin

/-- `Disconnect` ends in `OnDisconnect`. -/
def onDisconnect : ServerSteps.Task SessionHandle → List Work
  | .releaseInbound s => [.act (.removeSession s)]
  | _ => []

/-- An action of the router in the handler of the message `origin`. -/
def execAct (codec : Codec) (build : Outgoing → Bytes) (svc : Services) (origin : Option MessageId)
    (e : Engine) (a : RouterSteps.Action) : Engine × List Work :=
  let r := RouterSteps.execWith codec svc e.router a
  ({ e with router := r.1 },
    match a with
    | .send _ recipient message =>
        [.call (.send recipient (outgoingBytes build message)) (published origin message)]
    | _ => r.2.map .act)

/-- One step of some work. -/
def execWork (codec : Codec) (build : Outgoing → Bytes) (config : ServerConfig) (x : Choice)
    (origin : Option MessageId) (e : Engine) : Work → Option (Engine × List Work × List (List Task))
  | .call t publishes =>
      match x with
      | .server y =>
          (ServerSteps.exec config y t e.server).map fun o =>
            (e.advance t o.shared (o.next ++ o.forked.flatten) publishes,
              o.next.map (fun t' => .call t' (passedOn publishes t)) ++ onDisconnect t,
              o.forked.map (List.map .server))
      | _ => none
  | .act a =>
      match x with
      | .services svc =>
          let r := execAct codec build svc origin e a
          some (r.1, r.2, [])
      | _ => none

/-- `DeliverMessage` behind its handler, or when there is no call of it. -/
def conclude (config : ServerConfig) (e : Engine) (s : SessionHandle) (now : ℤ)
    (verdict : Option MessageDisposition) (message : Bytes) (loop : ServerSteps.ReadPoint) :
    Option (Outcome Engine Task) :=
  (ServerSteps.exec config (.delivers now verdict) (.reader s (.deliverMessage message loop))
    e.server).map fun o =>
      ⟨e.advance (.reader s (.deliverMessage message loop)) o.shared (o.next ++ o.forked.flatten) none,
        o.next.map .server, o.forked.map (List.map .server)⟩

/-- What each step does, and what its thread does next. -/
def exec (codec : Codec) (build : Outgoing → Bytes) (config : ServerConfig) (x : Choice)
    (task : Task) (e : Engine) : Option (Outcome Engine Task) :=
  match task with
  | .server (.reader s (.deliverMessage message loop)) =>
      match x with
      | .handles now =>
          if (ServerSteps.rateWindow (e.server.control s) now).rateWindowMessages >
              config.maxMessagesPerSecond.toNat then
            conclude config e s now none message loop
          else
            some ⟨e, [.handling s ((e.decoded s).length - 1) now message loop
              [.act (.handle s message)]], []⟩
      | _ => none
  | .server t =>
      (execWork codec build config x none e (.call t none)).map fun r =>
        ⟨r.1, r.2.1.map Work.task, r.2.2⟩
  | .router a =>
      (execWork codec build config x none e (.act a)).map fun r => ⟨r.1, r.2.1.map Work.task, r.2.2⟩
  | .handling s _ now message loop [] =>
      match x with
      | .judges verdict => conclude config e s now (some verdict) message loop
      | _ => none
  | .handling s n now message loop (w :: todo) =>
      (execWork codec build config x (some (s, n)) e w).map fun r =>
        ⟨r.1, [.handling s n now message loop (r.2.1 ++ todo)], r.2.2⟩

/-- The engine as a program of interleaving threads. -/
def program (codec : Codec) (build : Outgoing → Bytes) (config : ServerConfig) :
    Program Engine Task Choice := ⟨exec codec build config⟩

/-- The pool before any thread has been started. -/
def start (config : ServerConfig) : Config Engine Task :=
  ⟨⟨(ServerSteps.start config).shared, .initial, fun _ => [], fun _ => [], fun _ => [], fun _ => []⟩,
    [[.server .outside]]⟩

/-! ### What a step can do -/

section Steps

variable (codec : Codec) (build : Outgoing → Bytes) (config : ServerConfig) (e : Engine)

/-- A step of a task: the state behind it, and the tasks that are pending instead of it. -/
inductive Step : Task → Engine → List Task → Prop
  | serves {t : ServerSteps.Task SessionHandle} {server : ServerSteps.Server SessionHandle}
      {next forked : List (ServerSteps.Task SessionHandle)}
      (h : ServerSteps.Step config e.server t server (next ++ forked)) :
      Step (.server t) (e.advance t server (next ++ forked) none)
        (next.map .server ++ (onDisconnect t).map Work.task ++ forked.map .server)
  | routes (a : RouterSteps.Action) (svc : Services) :
      Step (.router a) (execAct codec build svc none e a).1
        ((execAct codec build svc none e a).2.map Work.task)
  | handles (s : SessionHandle) (now : ℤ) (message : Bytes) (loop : ServerSteps.ReadPoint) :
      Step (.server (.reader s (.deliverMessage message loop))) e
        [.handling s ((e.decoded s).length - 1) now message loop [.act (.handle s message)]]
  | concludes {s : SessionHandle} (n : ℕ) (now : ℤ) {message : Bytes} {loop : ServerSteps.ReadPoint}
      {server : ServerSteps.Server SessionHandle} {new : List (ServerSteps.Task SessionHandle)}
      (h : ServerSteps.Step config e.server (.reader s (.deliverMessage message loop)) server new) :
      Step (.handling s n now message loop [])
        (e.advance (.reader s (.deliverMessage message loop)) server new none) (new.map .server)
  | acts (s : SessionHandle) (n : ℕ) (now : ℤ) (message : Bytes) (loop : ServerSteps.ReadPoint)
      (a : RouterSteps.Action) (todo : List Work) (svc : Services) :
      Step (.handling s n now message loop (.act a :: todo))
        (execAct codec build svc (some (s, n)) e a).1
        [.handling s n now message loop ((execAct codec build svc (some (s, n)) e a).2 ++ todo)]
  | calls (s : SessionHandle) (n : ℕ) (now : ℤ) (message : Bytes) (loop : ServerSteps.ReadPoint)
      {t : ServerSteps.Task SessionHandle} (origin : Option MessageId) (todo : List Work)
      {server : ServerSteps.Server SessionHandle}
      {next forked : List (ServerSteps.Task SessionHandle)}
      (h : ServerSteps.Step config e.server t server (next ++ forked)) :
      Step (.handling s n now message loop (.call t origin :: todo))
        (e.advance t server (next ++ forked) origin)
        (.handling s n now message loop
          (next.map (fun t' => .call t' (passedOn origin t)) ++ onDisconnect t ++ todo) ::
            forked.map .server)

end Steps

section Steps

variable {codec : Codec} {build : Outgoing → Bytes} {config : ServerConfig} {x : Choice} {e : Engine}

theorem flatten_map_server (l : List (List (ServerSteps.Task SessionHandle))) :
    (l.map (List.map Task.server)).flatten = l.flatten.map Task.server :=
  List.map_flatten.symm

theorem conclude_step {s : SessionHandle} {now : ℤ} {verdict : Option MessageDisposition}
    {message : Bytes} {loop : ServerSteps.ReadPoint} {o : Outcome Engine Task}
    (h : conclude config e s now verdict message loop = some o) :
    ∃ server new, ServerSteps.Step config e.server (.reader s (.deliverMessage message loop)) server
      new ∧ o.shared = e.advance (.reader s (.deliverMessage message loop)) server new none ∧
        o.next ++ o.forked.flatten = new.map .server := by
  obtain ⟨o', ho', rfl⟩ := Option.map_eq_some_iff.1 h
  refine ⟨o'.shared, o'.next ++ o'.forked.flatten, ServerSteps.exec_step ho', rfl, ?_⟩
  rw [flatten_map_server, List.map_append]

/-- Every step of the program is one of these. -/
theorem exec_step {task : Task} {o : Outcome Engine Task}
    (h : exec codec build config x task e = some o) :
    Step codec build config e task o.shared (o.next ++ o.forked.flatten) := by
  have hserves : ∀ {t : ServerSteps.Task SessionHandle} {o : Outcome Engine Task},
      ((execWork codec build config x none e (.call t none)).map fun r =>
        (⟨r.1, r.2.1.map Work.task, r.2.2⟩ : Outcome Engine Task)) = some o →
      Step codec build config e (.server t) o.shared (o.next ++ o.forked.flatten) := by
    intro t o ho
    obtain ⟨r, hr, rfl⟩ := Option.map_eq_some_iff.1 ho
    cases x with
    | server y =>
        obtain ⟨o', ho', rfl⟩ := Option.map_eq_some_iff.1 hr
        dsimp only
        rw [flatten_map_server, List.map_append, List.map_map]
        exact .serves (ServerSteps.exec_step ho')
    | _ => cases hr
  cases task with
  | server t =>
      cases t with
      | reader s point =>
          cases point with
          | deliverMessage message loop =>
              simp only [exec] at h
              split at h
              · -- `DeliverMessage` itself is cut in two around the call of the router
                next now =>
                  split at h
                  · obtain ⟨server, new, hstep, hshared, hnew⟩ := conclude_step h
                    have hserved : Step codec build config e
                        (.server (.reader s (.deliverMessage message loop)))
                        (e.advance (.reader s (.deliverMessage message loop)) server (new ++ []) none)
                        (new.map .server ++ [] ++ ([] : List (ServerSteps.Task _)).map .server) :=
                      .serves (by rwa [List.append_nil])
                    rw [List.append_nil, List.append_nil, List.map_nil, List.append_nil] at hserved
                    rw [hshared, hnew]
                    exact hserved
                  · obtain rfl := Option.some.inj h
                    exact .handles s now message loop
              · cases h
          | _ => exact hserves h
      | _ => exact hserves h
  | router a =>
      obtain ⟨r, hr, rfl⟩ := Option.map_eq_some_iff.1 h
      cases x with
      | services svc =>
          obtain rfl := Option.some.inj hr
          rw [List.flatten_nil, List.append_nil]
          exact .routes a svc
      | _ => cases hr
  | handling s n now message loop todo =>
      cases todo with
      | nil =>
          simp only [exec] at h
          split at h
          · obtain ⟨server, new, hstep, hshared, hnew⟩ := conclude_step h
            rw [hshared, hnew]
            exact .concludes n now hstep
          · cases h
      | cons w todo =>
          obtain ⟨r, hr, rfl⟩ := Option.map_eq_some_iff.1 h
          cases w with
          | act a =>
              cases x with
              | services svc =>
                  obtain rfl := Option.some.inj hr
                  rw [List.flatten_nil, List.append_nil]
                  exact .acts s n now message loop a todo svc
              | _ => cases hr
          | call t origin =>
              cases x with
              | server y =>
                  obtain ⟨o', ho', rfl⟩ := Option.map_eq_some_iff.1 hr
                  dsimp only
                  rw [flatten_map_server, List.singleton_append]
                  exact .calls s n now message loop origin todo (ServerSteps.exec_step ho')
              | _ => cases hr

end Steps

/-! ### The server's part -/

/-- The task of the server in some work. -/
def Work.call? : Work → Option (ServerSteps.Task SessionHandle)
  | .call t _ => some t
  | .act _ => none

/-- The tasks of the server in a task: a handler stands where its message is delivered. -/
def Task.calls : Task → Multiset (ServerSteps.Task SessionHandle)
  | .server t => {t}
  | .router _ => 0
  | .handling s _ _ message loop todo =>
      .reader s (.deliverMessage message loop) ::ₘ (todo.filterMap Work.call? : List _)

/-- The tasks of the server among the pending ones. -/
def serverTasks (P : Multiset Task) : Multiset (ServerSteps.Task SessionHandle) := P.bind Task.calls

theorem serverTasks_cons (t : Task) (P : Multiset Task) :
    serverTasks (t ::ₘ P) = t.calls + serverTasks P :=
  Multiset.cons_bind _ _ _

theorem serverTasks_add (P Q : Multiset Task) :
    serverTasks (P + Q) = serverTasks P + serverTasks Q :=
  Multiset.add_bind _ _ _

theorem serverTasks_singleton (t : Task) : serverTasks
    (([t] : List Task) : Multiset Task) = t.calls := by
  rw [← Multiset.cons_coe, serverTasks_cons]
  exact add_zero _

/-- The work of a thread outside of a handler. -/
theorem serverTasks_task (l : List Work) :
    serverTasks ((l.map Work.task : List Task) : Multiset Task) =
      (l.filterMap Work.call? : List _) := by
  induction l with
  | nil => rfl
  | cons w l ih =>
      rw [List.map_cons, ← Multiset.cons_coe, serverTasks_cons, ih]
      cases w with
      | call t origin => exact Multiset.singleton_add _ _
      | act a => exact zero_add _

theorem serverTasks_server (l : List (ServerSteps.Task SessionHandle)) :
    serverTasks ((l.map Task.server : List Task) : Multiset Task) = l := by
  induction l with
  | nil => rfl
  | cons t l ih =>
      rw [List.map_cons, ← Multiset.cons_coe, serverTasks_cons, ih]
      exact Multiset.singleton_add _ _

theorem filterMap_call (l : List (ServerSteps.Task SessionHandle)) (origin : Option MessageId) :
    (l.map fun t => Work.call t origin).filterMap Work.call? = l := by
  rw [List.filterMap_map]
  exact List.filterMap_some

theorem filterMap_act (l : List RouterSteps.Action) : (l.map Work.act).filterMap Work.call? = [] := by
  rw [List.filterMap_map]
  exact List.filterMap_eq_nil_iff.2 fun a _ => rfl

theorem filterMap_onDisconnect (t : ServerSteps.Task SessionHandle) :
    (onDisconnect t).filterMap Work.call? = [] := by
  cases t <;> rfl

section Serving

variable {codec : Codec} {build : Outgoing → Bytes} {config : ServerConfig} {e e' : Engine}
  {task : Task} {new : List Task} {R : Multiset Task}

/-- Actions of the router do not touch the server; their calls are new. -/
theorem execAct_calls (codec : Codec) (build : Outgoing → Bytes) (svc : Services)
    (origin : Option MessageId) (e : Engine) (a : RouterSteps.Action) :
    ∃ router, (execAct codec build svc origin e a).1 = { e with router := router } ∧
      ∀ t ∈ (execAct codec build svc origin e a).2.filterMap Work.call?,
        ∃ recipient payload, t = .send recipient payload := by
  refine ⟨_, rfl, fun t ht => ?_⟩
  cases a with
  | send s recipient message =>
      obtain rfl := List.mem_singleton.1 ht
      exact ⟨recipient, _, rfl⟩
  | _ =>
      unfold execAct at ht
      dsimp only at ht
      rw [filterMap_act] at ht
      cases ht

/-- **The server's part of a step is one of the server**, or new calls of `Send`. -/
theorem Step.serverPart (hstep : Step codec build config e task e' new) :
    (∃ (router : RouterSteps.Shared) (sends : List (ServerSteps.Task SessionHandle)),
      e' = { e with router := router } ∧
      (∀ t ∈ sends, ∃ recipient payload, t = .send recipient payload) ∧
        serverTasks (new : Multiset Task) = (sends : Multiset _) + task.calls) ∨
      ∃ t server l origin rest, ServerSteps.Step config e.server t server l ∧
        e' = e.advance t server l origin ∧ task.calls = t ::ₘ rest ∧
        serverTasks (new : Multiset Task) = (l : Multiset _) + rest := by
  cases hstep with
  | @serves t server next forked hserver =>
      refine Or.inr ⟨t, server, next ++ forked, none, 0, hserver, rfl, rfl, ?_⟩
      rw [← Multiset.coe_add, ← Multiset.coe_add, serverTasks_add, serverTasks_add,
        serverTasks_server, serverTasks_server, serverTasks_task, filterMap_onDisconnect,
        Multiset.coe_nil, add_zero, add_zero, Multiset.coe_add]
  -- the router starts calls of `Send` and leaves the server alone
  | routes a svc =>
      obtain ⟨router, hrouter, hsends⟩ := execAct_calls codec build svc none e a
      refine Or.inl ⟨router, _, hrouter, hsends, ?_⟩
      rw [serverTasks_task]
      exact (add_zero _).symm
  | handles s now message loop =>
      exact Or.inl ⟨e.router, [], rfl, fun t ht => absurd ht List.not_mem_nil, (zero_add _).symm⟩
  | @concludes s n now message loop server new hserver =>
      refine Or.inr ⟨_, server, new, none, 0, hserver, rfl, rfl, ?_⟩
      rw [serverTasks_server, add_zero]
  | acts s n now message loop a todo svc =>
      obtain ⟨router, hrouter, hsends⟩ := execAct_calls codec build svc (some (s, n)) e a
      refine Or.inl ⟨router, _, hrouter, hsends, ?_⟩
      rw [serverTasks_singleton, Task.calls, Task.calls, List.filterMap_append, ← Multiset.coe_add,
        Multiset.add_cons]
      rfl
  | @calls s n now message loop t origin todo server next forked hserver =>
      refine Or.inr ⟨t, server, next ++ forked, origin, .reader s (.deliverMessage message loop) ::ₘ
        (todo.filterMap Work.call? : List _), hserver, rfl, ?_, ?_⟩
      · rw [Multiset.cons_swap]
        rfl
      · rw [← Multiset.cons_coe, serverTasks_cons, serverTasks_server, Task.calls,
          List.filterMap_append, List.filterMap_append, filterMap_call, filterMap_onDisconnect,
          List.append_nil, ← Multiset.coe_add, ← Multiset.coe_add, Multiset.cons_add,
          Multiset.add_cons, add_right_comm]

/-- **An invariant of the server's part**: it is enough that steps of the server and new calls of
`Send` keep it. -/
theorem Step.serverInvariant {I : Engine → Multiset (ServerSteps.Task SessionHandle) → Prop}
    (hsends : ∀ e router (sends : List (ServerSteps.Task SessionHandle)) Q,
      (∀ t ∈ sends, ∃ recipient payload, t = .send recipient payload) → I e Q →
        I { e with router := router } (sends + Q))
    (hserves : ∀ e t server (l : List (ServerSteps.Task SessionHandle)) origin Q,
      ServerSteps.Step config e.server t server l → I e (t ::ₘ Q) →
        I (e.advance t server l origin) (l + Q))
    (hstep : Step codec build config e task e' new) (h : I e (serverTasks (task ::ₘ R))) :
    I e' (serverTasks (new + R)) := by
  rw [serverTasks_cons] at h
  rw [serverTasks_add]
  obtain ⟨router, sends, rfl, hcalls, htasks⟩ |
    ⟨t, server, l, origin, rest, hserver, rfl, hcalls, htasks⟩ := hstep.serverPart
  · rw [htasks, add_assoc]
    exact hsends e router sends _ hcalls h
  · rw [htasks, add_assoc]
    rw [hcalls, Multiset.cons_add] at h
    exact hserves e t server l origin _ hserver h

/-- **What holds of the server's part**: a session has one read, and the outbound side is that of
the outbound path. -/
structure Serves (config : ServerConfig) (e : Engine) (Q : Multiset (ServerSteps.Task SessionHandle)) :
    Prop where
  readers : ∀ s, weight (ServerSteps.reader s) Q ≤ (e.server.control s).reads
  refines : ServerSteps.Refines config e.server Q

/-- New calls of `Send` change nothing. -/
theorem Serves.sends {Q : Multiset (ServerSteps.Task SessionHandle)} (h : Serves config e Q)
    (router : RouterSteps.Shared) {sends : List (ServerSteps.Task SessionHandle)}
    (hsends : ∀ t ∈ sends, ∃ recipient payload, t = .send recipient payload) :
    Serves config { e with router := router } (sends + Q) := by
  refine ⟨fun s => ?_, ?_⟩
  · have hzero : (sends.map (ServerSteps.reader s)).sum = 0 := by
      refine ServerSteps.readers_eq_zero fun t ht => ?_
      obtain ⟨recipient, payload, rfl⟩ := hsends t ht
      rfl
    rw [weight_add, weight_coe, hzero, zero_add]
    exact h.readers s
  · have hnone : ServerSteps.outActions (sends : Multiset (ServerSteps.Task SessionHandle)) = 0 := by
      refine Multiset.eq_zero_of_forall_notMem fun a ha => ?_
      obtain ⟨t, ht, hact⟩ := (Multiset.mem_filterMap _ _).1 ha
      obtain ⟨recipient, payload, rfl⟩ := hsends t ht
      cases hact
    unfold ServerSteps.Refines
    rw [ServerSteps.outActions_add, hnone, zero_add]
    exact h.refines

theorem Serves.serves {t : ServerSteps.Task SessionHandle} {server : ServerSteps.Server SessionHandle}
    {l : List (ServerSteps.Task SessionHandle)} {Q : Multiset (ServerSteps.Task SessionHandle)}
    (h : Serves config e (t ::ₘ Q)) (hserver : ServerSteps.Step config e.server t server l)
    (origin : Option MessageId) : Serves config (e.advance t server l origin) (l + Q) :=
  ⟨fun s => hserver.oneReader (h.readers s), ServerSteps.Refines.step hserver h.refines⟩

end Serving

end EngineSteps

end RealtimeEngine
