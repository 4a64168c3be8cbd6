/-
**The server inside the engine.**

`RealtimeEngine/ServerSteps.lean` lets anybody call `Send` at any time, and knows nothing of what
the message handler does.  In the engine the router makes these calls, inside the thread that
handles a read and between the steps of the server that decode the message and go on behind it.
Here the server's part of every run of the engine is shown to be a run of that server: a call of
`Send` in a handler is a caller of its own there.  So whatever holds in every run of the server
holds of the server in the engine.

Main definitions:

* `RealtimeEngine.EngineSteps.serverView` — the server in the engine.

Main results:

* `RealtimeEngine.EngineSteps.inside_server` — every step of the engine is one of the server, or it
  starts calls of `Send`;
* `RealtimeEngine.EngineSteps.engine_refines` — **the run theorem**.
-/

import RealtimeEngine.ProgramParts
import RealtimeEngine.PublishOrder

set_option relaxedAutoImplicit false
set_option autoImplicit false

namespace RealtimeEngine

namespace EngineSteps

open Interleaving

/-! ### The view -/

/-- The tasks of the server that a task stands for: a handler makes its calls before it goes on with
its message. -/
def Task.order : Task → List (ServerSteps.Task SessionHandle)
  | .server t => [t]
  | .router _ => []
  | .handling s _ _ message loop todo =>
      todo.filterMap Work.call? ++ [.reader s (.deliverMessage message loop)]

/-- The server in the engine. -/
def serverView : View Engine Task (ServerSteps.Server SessionHandle)
    (ServerSteps.Task SessionHandle) := ⟨Engine.server, Task.order⟩

theorem coe_order (t : Task) : (t.order : Multiset (ServerSteps.Task SessionHandle)) = t.calls := by
  cases t with
  | server t => rfl
  | router a => rfl
  | handling s n now message loop todo =>
      rw [Task.order, ← Multiset.coe_add, add_comm, Multiset.coe_singleton,
        Multiset.singleton_add]
      rfl

/-- What is pending in the view are the tasks of the server. -/
theorem pending_serverView (P : Multiset Task) : serverView.pending P = serverTasks P :=
  Multiset.bind_congr fun t _ => coe_order t

theorem stack_task (l : List Work) : serverView.stack (l.map Work.task) =
    l.filterMap Work.call? := by
  induction l with
  | nil => rfl
  | cons w l ih =>
      rw [List.map_cons, View.stack, List.flatMap_cons, ← View.stack, ih]
      cases w <;> rfl

theorem stack_handling (s : SessionHandle) (n : ℕ) (now : ℤ) (message : Bytes)
    (loop : ServerSteps.ReadPoint) (todo : List Work) :
    serverView.stack [.handling s n now message loop todo] =
      todo.filterMap Work.call? ++ [.reader s (.deliverMessage message loop)] := by
  rw [View.stack, List.flatMap_singleton]
  rfl

theorem stack_server (l : List (ServerSteps.Task SessionHandle)) :
    serverView.stack (l.map Task.server) = l := by
  rw [View.stack, List.flatMap_map]
  exact List.flatMap_singleton' l

theorem map_stack_server (l : List (List (ServerSteps.Task SessionHandle))) :
    (l.map (List.map Task.server)).map serverView.stack = l := by
  rw [List.map_map]
  exact (List.map_congr_left fun stack _ => stack_server stack).trans (List.map_id l)

theorem stack_flatten (l : List (List Task)) :
    serverView.stack l.flatten = (l.map serverView.stack).flatten := by
  induction l with
  | nil => rfl
  | cons stack l ih => rw [List.flatten_cons, View.stack_append, ih, List.map_cons, List.flatten_cons]

/-- The tasks of the server in the stack of a thread. -/
theorem serverTasks_coe (l : List Task) :
    serverTasks (l : Multiset Task) = (serverView.stack l : List _) := by
  induction l with
  | nil => rfl
  | cons t l ih =>
      rw [← Multiset.cons_coe, serverTasks_cons, ih, ← coe_order, Multiset.coe_add]
      rfl

/-! ### One step -/

/-- What a step of the engine does to the server. -/
inductive Turn (codec : Codec) (build : Outgoing → Bytes) (config : ServerConfig) (x : Choice)
    (task : Task) (e : Engine) (o : Outcome Engine Task) : Prop
  /-- It takes the first task of the server; `DeliverMessage` reads the clock before its handler, and
  has its verdict behind it. -/
  | serves {y : ServerSteps.Choice SessionHandle} {t : ServerSteps.Task SessionHandle}
      {o' : Outcome (ServerSteps.Server SessionHandle) (ServerSteps.Task SessionHandle)}
      {rest : List (ServerSteps.Task SessionHandle)} (origin : Option MessageId)
      (hchoice : x = .server y ∨ (∀ y', x ≠ .server y') ∧ ∃ now verdict, y = .delivers now verdict)
      (hexec : ServerSteps.exec config y t e.server = some o') (horder : task.order = t :: rest)
      (hshared : o.shared = e.advance t o'.shared (o'.next ++ o'.forked.flatten) origin)
      (hnext : serverView.stack o.next = o'.next ++ rest)
      (hforked : o.forked.map serverView.stack = o'.forked)
  /-- It is a step of the router, which calls `Send`. -/
  | routes (svc : Services) (origin : Option MessageId) (a : RouterSteps.Action)
      (hchoice : x = .services svc)
      (hshared : o.shared = (execAct codec build svc origin e a).1)
      (hnext : serverView.stack o.next =
        (execAct codec build svc origin e a).2.filterMap Work.call? ++ task.order)
      (hforked : o.forked = [])
  /-- It enters the handler. -/
  | enters (now : ℤ) (hchoice : x = .handles now) (hshared : o.shared = e)
      (hnext : serverView.stack o.next = task.order) (hforked : o.forked = [])

section Steps

variable {codec : Codec} {build : Outgoing → Bytes} {config : ServerConfig} {x : Choice}
  {e : Engine} {task : Task} {o : Outcome Engine Task}

/-- The steps of `DeliverMessage` outside of its handler. -/
theorem conclude_turn {s : SessionHandle} {now : ℤ} {verdict : Option MessageDisposition}
    {message : Bytes} {loop : ServerSteps.ReadPoint} (hchoice : ∀ y, x ≠ .server y)
    (horder : task.order = [.reader s (.deliverMessage message loop)])
    (h : conclude config e s now verdict message loop = some o) :
    Turn codec build config x task e o := by
  obtain ⟨o', ho', rfl⟩ := Option.map_eq_some_iff.1 h
  exact .serves none (Or.inr ⟨hchoice, now, verdict, rfl⟩) ho' horder rfl
    ((stack_server _).trans (List.append_nil _).symm) (map_stack_server _)

/-- A task of the server, outside of a handler. -/
theorem server_turn {t : ServerSteps.Task SessionHandle}
    (h : ((execWork codec build config x none e (.call t none)).map fun r =>
      (⟨r.1, r.2.1.map Work.task, r.2.2⟩ : Outcome Engine Task)) = some o) :
    Turn codec build config x (.server t) e o := by
  obtain ⟨r, hr, rfl⟩ := Option.map_eq_some_iff.1 h
  cases x with
  | server y =>
      obtain ⟨o', ho', rfl⟩ := Option.map_eq_some_iff.1 hr
      refine .serves none (Or.inl rfl) ho' rfl rfl ?_ (map_stack_server _)
      rw [stack_task, List.filterMap_append, filterMap_call, filterMap_onDisconnect]
  | _ => cases hr

/-- **What a step of the engine does to the server.** -/
theorem exec_turn (h : exec codec build config x task e = some o) :
    Turn codec build config x task e o := by
  cases task with
  | server t =>
      cases t with
      | reader s point =>
          cases point with
          | deliverMessage message loop =>
              simp only [exec] at h
              split at h
              · split at h
                · exact conclude_turn (fun y => by rintro ⟨⟩) rfl h
                · obtain rfl := Option.some.inj h
                  exact .enters _ rfl rfl rfl rfl
              · cases h
          | _ => exact server_turn h
      | _ => exact server_turn h
  | router a =>
      obtain ⟨r, hr, rfl⟩ := Option.map_eq_some_iff.1 h
      cases x with
      | services svc =>
          obtain rfl := Option.some.inj hr
          exact .routes svc none a rfl rfl ((stack_task _).trans (List.append_nil _).symm) rfl
      | _ => cases hr
  | handling s n now message loop todo =>
      cases todo with
      | nil =>
          simp only [exec] at h
          split at h
          · exact conclude_turn (fun y => by rintro ⟨⟩) rfl h
          · cases h
      | cons w todo =>
          obtain ⟨r, hr, rfl⟩ := Option.map_eq_some_iff.1 h
          cases w with
          | act a =>
              cases x with
              | services svc =>
                  obtain rfl := Option.some.inj hr
                  refine .routes svc (some (s, n)) a rfl rfl ?_ rfl
                  rw [stack_handling, Task.order, List.filterMap_append, List.append_assoc]
                  rfl
              | _ => cases hr
          | call t origin =>
              cases x with
              | server y =>
                  obtain ⟨o', ho', rfl⟩ := Option.map_eq_some_iff.1 hr
                  refine .serves origin (Or.inl rfl) ho' rfl rfl ?_ (map_stack_server _)
                  rw [stack_handling, List.filterMap_append, List.filterMap_append, filterMap_call,
                    filterMap_onDisconnect, List.append_nil, List.append_assoc]
                  rfl
              | _ => cases hr

/-- **The server is part of the engine.** -/
theorem inside_server (codec : Codec) (build : Outgoing → Bytes) (config : ServerConfig) :
    serverView.Inside (ServerSteps.program config) .outside (program codec build config) where
  follows x task e o h := by
    cases exec_turn h with
    | @serves y t o' rest origin hchoice hexec horder hshared hnext hforked =>
        refine .acts (y := y) horder hexec ?_ hnext hforked
        rw [hshared]
        rfl
    | routes svc origin a hchoice hshared hnext hforked =>
        obtain ⟨router, hrouter, hsends⟩ := execAct_calls codec build svc origin e a
        refine .starts ?_ (fun t ht => ?_) hnext hforked
        · rw [hshared, hrouter]
          rfl
        · -- anybody may call `Send`
          obtain ⟨recipient, payload, rfl⟩ := hsends t ht
          exact ⟨.sender recipient payload, rfl⟩
    | enters now hchoice hshared hnext hforked =>
        exact .starts (congrArg Engine.server hshared) (fun t ht => absurd ht List.not_mem_nil)
          hnext hforked
  stays y sv o h := by
    obtain ⟨t, -, rfl⟩ := Option.map_eq_some_iff.1 h
    rfl

end Steps

/-! ### Runs -/

theorem matches_start (config : ServerConfig) :
    serverView.Matches .outside (start config) (ServerSteps.start config) where
  state := rfl
  source := List.mem_singleton_self _
  pieces := by
    refine ⟨{[[.outside]]}, ?_, Multiset.singleton_bind _ _⟩
    refine Multiset.Rel.cons (a := [Task.server .outside]) ?_ .zero
    rfl

section Matching

variable {c : Config Engine Task}
  {d : Config (ServerSteps.Server SessionHandle) (ServerSteps.Task SessionHandle)}

theorem matches_shared (h : serverView.Matches .outside c d) : d.shared = c.shared.server := h.state

theorem matches_pending (h : serverView.Matches .outside c d) : d.pending = serverTasks c.pending :=
  h.pending.trans (pending_serverView _)

end Matching

/-- **The server's part of a run is a run of the server**: in the same state, with the same tasks
pending.  What its steps meet in the run of the engine, whoever makes them, they meet in that run. -/
theorem engine_refines (codec : Codec) (build : Outgoing → Bytes) (config : ServerConfig)
    (moves : List (ℕ × Choice)) {c : Config Engine Task}
    (hrun : (program codec build config).run moves (start config) = some c) :
    ∃ moves' d, (ServerSteps.program config).run moves' (ServerSteps.start config) = some d ∧
      d.shared = c.shared.server ∧ d.pending = serverTasks c.pending ∧
      ∀ ok : ServerSteps.Task SessionHandle → ServerSteps.Server SessionHandle → Prop,
        (∀ sv, ok .outside sv) →
        (program codec build config).AllMeet (fun _ t e _ => ∀ y ∈ t.order.head?, ok y e.server) moves
          (start config) →
        (ServerSteps.program config).AllMeet (fun _ t sv _ => ok t sv) moves'
          (ServerSteps.start config) := by
  obtain ⟨moves', d, hrun', hmatches, hcarries⟩ :=
    (matches_start config).run (inside_server codec build config) hrun
  exact ⟨moves', d, hrun', matches_shared hmatches, matches_pending hmatches, hcarries⟩

/-- The server has a run of its own that queues what the router has sent in `twoAlerts`. -/
theorem engine_refines_twoAlerts :
    ∃ (moves' : List (ℕ × ServerSteps.Choice SessionHandle)) (d : Config (ServerSteps.Server _) _),
      (ServerSteps.program {}).run moves' (ServerSteps.start {}) = some d ∧
        (d.shared.out.sessions ⟨1, 1⟩).pushed.map OutboundItem.payload = [[0], [0], [3], [4]] := by
  have hobserved : ((program alerts (fun _ => [0]) {}).run twoAlerts (start {})).map (fun c =>
      (c.shared.pushed ⟨1, 1⟩).map OutboundItem.payload) = some [[0], [0], [3], [4]] := by
    decide +kernel
  obtain ⟨c, hrun, hpushed⟩ := Option.map_eq_some_iff.1 hobserved
  obtain ⟨moves', d, hrun', hstate, -⟩ := engine_refines alerts (fun _ => [0]) {} twoAlerts hrun
  exact ⟨moves', d, hrun', by rw [hstate]; exact hpushed⟩

end EngineSteps

end RealtimeEngine
