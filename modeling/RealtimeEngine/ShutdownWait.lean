/-
**The wait of `Stop`, and what is behind it.**

`CompleteOperation` lowers `outstanding_operations` outside of `outstanding_mutex`; the thread that
brings it to zero then takes the mutex and calls `notify_all`.  `Stop` holds the mutex while it looks
at the counter and until it is asleep.  So the counter may become zero between the look and the
sleep, but the notification that follows cannot come before the sleep.

Behind its wait `Stop` posts a completion without an operation for every worker, and joins them.
A worker that takes such a completion returns, any other one it handles.

Here the life of the operations (`RealtimeEngine/Lifecycle.lean`) goes on as it is there, with three
things more.  What the kernel has completed is queued in the completion port until one of the
workers takes it, in any order; a count that goes to zero is followed by the notification; and the
wait of `Stop` is taken apart into its steps.  `Stop` is not called by a handler, and
`PostQueuedCompletionStatus` succeeds.

Main definitions:

* `RealtimeEngine.ShutdownWait.Shared`, `RealtimeEngine.ShutdownWait.Task`,
  `RealtimeEngine.ShutdownWait.exec` — the state and the steps;
* `RealtimeEngine.ShutdownWait.lifeTasks` — the same threads in the model that has no wait;
* `RealtimeEngine.ShutdownWait.Waits` — the invariant.

Main results:

* `RealtimeEngine.ShutdownWait.Step.life` — **a step is one of the model without the wait, or none**;
* `RealtimeEngine.ShutdownWait.Waits.step` — every step keeps the invariant;
* `RealtimeEngine.ShutdownWait.wait_exact` — **no wake-up is lost**, nothing is outstanding when the
  wait ends, and every worker returns on a completion of its own, behind the wait.
-/

import RealtimeEngine.LifecycleOperations

set_option relaxedAutoImplicit false
set_option autoImplicit false

namespace RealtimeEngine

namespace ShutdownWait

open Interleaving Lifecycle

/-! ### State and steps -/

/-- What the threads share. -/
structure Shared where
  life : Server := {}
  /-- The queue of the completion port; `none` is a completion without an operation. -/
  port : List (Option Lifecycle.Task) := []
  /-- `outstanding_mutex` is held. -/
  locked : Bool := false
  /-- `Stop` is in `outstanding_cv.wait`, and nobody has notified it. -/
  sleeping : Bool := false
  /-- The workers that have returned. -/
  ended : ℕ := 0

/-- Where a thread stands. -/
inductive Task
  | life (t : Lifecycle.Task)
  /-- A worker at `GetQueuedCompletionStatus`. -/
  | worker
  /-- `CompleteOperation` behind a count that went to zero. -/
  | lockToNotify
  | notifyAll
  | unlockNotified
  /-- `Stop` at `outstanding_mutex`, at first or behind a wake-up. -/
  | lockToWait
  | predicate
  | sleep
  | asleep
  | unlockWaited
  /-- `Stop` has this many completions left to post. -/
  | postCompletions (n : ℕ)
  | join
  | stopped

/-- Where a task of the model without the wait stands here. -/
def lift : Lifecycle.Task → Task
  | .stopWait => .lockToWait
  | t => .life t

/-- `CompleteOperation` brings the counter to zero. -/
def wakes (t : Lifecycle.Task) (sv : Server) : List Task :=
  if t.completes && sv.outstandingOperations == 1 then [.lockToNotify] else []

/-- What each step does, and what its thread does next. -/
def exec (config : ServerConfig) (workers : ℕ) (x : Choice) (task : Task) (sh : Shared) :
    Option (Outcome Shared Task) :=
  match task with
  | .life t =>
      (Lifecycle.exec config x t sh.life).map fun o =>
        if t.inKernel then
          ⟨{ sh with life := o.shared, port := sh.port ++ o.next.map some }, [], []⟩
        else
          ⟨{ sh with life := o.shared }, wakes t sh.life ++ o.next.map lift,
            o.forked.map fun stack => stack.map lift⟩
  | .worker =>
      match x with
      | .picks i =>
          match sh.port[i]? with
          | some (some t) => some ⟨{ sh with port := sh.port.eraseIdx i }, [.life t, .worker], []⟩
          | some none =>
              some ⟨{ sh with port := sh.port.eraseIdx i, ended := sh.ended + 1 }, [], []⟩
          | none => none
      | _ => none
  | .lockToNotify => if sh.locked then none else some ⟨{ sh with locked := true }, [.notifyAll], []⟩
  | .notifyAll => some ⟨{ sh with sleeping := false }, [.unlockNotified], []⟩
  | .unlockNotified => some ⟨{ sh with locked := false }, [], []⟩
  | .lockToWait => if sh.locked then none else some ⟨{ sh with locked := true }, [.predicate], []⟩
  | .predicate =>
      some ⟨sh, [if sh.life.outstandingOperations = 0 then .unlockWaited else .sleep], []⟩
  | .sleep => some ⟨{ sh with locked := false, sleeping := true }, [.asleep], []⟩
  | .asleep =>
      -- a wake-up may also be spurious
      match sh.sleeping, x with
      | false, _ | true, .fails => some ⟨{ sh with sleeping := false }, [.lockToWait], []⟩
      | _, _ => none
  | .unlockWaited => some ⟨{ sh with locked := false }, [.postCompletions workers], []⟩
  | .postCompletions 0 => some ⟨sh, [.join], []⟩
  | .postCompletions (n + 1) =>
      some ⟨{ sh with port := sh.port ++ [none] }, [.postCompletions n], []⟩
  | .join => if sh.ended = workers then some ⟨sh, [.stopped], []⟩ else none
  | .stopped => none

/-- The server and its workers as a program of interleaving threads. -/
def program (config : ServerConfig) (workers : ℕ) : Program Shared Task Choice :=
  ⟨exec config workers⟩

/-- The pool when `Start` has started its workers. -/
def start (workers : ℕ) : Config Shared Task :=
  ⟨{}, [.life .outside] :: List.replicate workers [.worker]⟩

/-! ### The model without the wait -/

/-- Where the task stands in the model without the wait. -/
def Task.life? : Task → Option Lifecycle.Task
  | .life t => some t
  | .lockToWait | .predicate | .sleep | .asleep => some .stopWait
  | .unlockWaited | .postCompletions _ | .join | .stopped => some .stopped
  | _ => none

/-- The tasks of the model without the wait: a completion in the port is one that its thread
handles. -/
def lifeTasks (sh : Shared) (P : Multiset Task) : Multiset Lifecycle.Task :=
  holders Task.life? P + (sh.port.filterMap id : List Lifecycle.Task)

@[simp] theorem life?_lift (t : Lifecycle.Task) : (lift t).life? = some t := by
  cases t <;> rfl

theorem filterMap_life?_map_lift (l : List Lifecycle.Task) :
    (l.map lift).filterMap Task.life? = l := by
  rw [List.filterMap_map]
  have hlift : (Task.life? ∘ lift) = some := funext life?_lift
  rw [hlift, List.filterMap_some]

theorem filterMap_life?_wakes (t : Lifecycle.Task) (sv : Server) :
    (wakes t sv).filterMap Task.life? = [] := by
  unfold wakes
  split <;> rfl

/-- A completion wakes up one thread. -/
theorem exec_inKernel {config : ServerConfig} {x : Choice} {t : Lifecycle.Task} {sv : Server}
    {o : Outcome Server Lifecycle.Task} (hkernel : t.inKernel = true)
    (h : Lifecycle.exec config x t sv = some o) : o.forked = [] := by
  cases t with
  | accepting op | reading s op | writing s op closeAfter =>
      simp only [Lifecycle.exec, Lifecycle.control] at h
      cases x with
      | completes good =>
          simp only [List.any_cons, List.any_nil, Task.inKernel, Bool.or_false, Bool.false_eq_true,
            if_false, Option.some.injEq] at h
          rw [← h]
      | _ =>
          simp only [effect, Option.map_none] at h
          cases h
  | _ => cases hkernel

/-- Taking a completion out of the port. -/
theorem port_erase {port : List (Option Lifecycle.Task)} {i : ℕ} {a : Option Lifecycle.Task}
    (h : port[i]? = some a) :
    ((port.filterMap id : List Lifecycle.Task) : Multiset Lifecycle.Task) =
        (a.toList : List Lifecycle.Task) + ((port.eraseIdx i).filterMap id : List Lifecycle.Task) ∧
      port.countP Option.isNone = (port.eraseIdx i).countP Option.isNone + a.isNone.toNat := by
  obtain ⟨hi, rfl⟩ := List.getElem?_eq_some_iff.1 h
  have hperm := List.getElem_cons_eraseIdx_perm hi
  refine ⟨?_, ?_⟩
  · rw [Multiset.coe_add, ← Multiset.coe_eq_coe.2 (hperm.filterMap id)]
    cases port[i] <;> rfl
  · rw [← hperm.countP_eq, List.countP_cons]
    cases port[i] <;> rfl

/-! ### What a step can do -/

/-- A step: the state behind it, and the tasks that are pending instead of its own. -/
inductive Step (config : ServerConfig) (workers : ℕ) (sh : Shared) :
    Task → Shared → List Task → Prop
  | lives {x : Choice} {t : Lifecycle.Task} {o : Outcome Server Lifecycle.Task}
      (h : Lifecycle.exec config x t sh.life = some o) (hkernel : t.inKernel = false) :
      Step config workers sh (.life t) { sh with life := o.shared }
        (wakes t sh.life ++ (o.next ++ o.forked.flatten).map lift)
  | completes {x : Choice} {t : Lifecycle.Task} {o : Outcome Server Lifecycle.Task}
      (h : Lifecycle.exec config x t sh.life = some o) (hkernel : t.inKernel = true) :
      Step config workers sh (.life t)
        { sh with life := o.shared, port := sh.port ++ o.next.map some } []
  | takes {i : ℕ} {t : Lifecycle.Task} (h : sh.port[i]? = some (some t)) :
      Step config workers sh .worker { sh with port := sh.port.eraseIdx i } [.life t, .worker]
  | ends {i : ℕ} (h : sh.port[i]? = some none) :
      Step config workers sh .worker
        { sh with port := sh.port.eraseIdx i, ended := sh.ended + 1 } []
  | locksToNotify (h : sh.locked = false) :
      Step config workers sh .lockToNotify { sh with locked := true } [.notifyAll]
  | notifies : Step config workers sh .notifyAll { sh with sleeping := false } [.unlockNotified]
  | unlocksNotified : Step config workers sh .unlockNotified { sh with locked := false } []
  | locksToWait (h : sh.locked = false) :
      Step config workers sh .lockToWait { sh with locked := true } [.predicate]
  | passes (h : sh.life.outstandingOperations = 0) :
      Step config workers sh .predicate sh [.unlockWaited]
  | waits (h : sh.life.outstandingOperations ≠ 0) : Step config workers sh .predicate sh [.sleep]
  | sleeps : Step config workers sh .sleep { sh with locked := false, sleeping := true } [.asleep]
  | wakesUp : Step config workers sh .asleep { sh with sleeping := false } [.lockToWait]
  | unlocksWaited :
      Step config workers sh .unlockWaited { sh with locked := false } [.postCompletions workers]
  | postedAll : Step config workers sh (.postCompletions 0) sh [.join]
  | posts (n : ℕ) :
      Step config workers sh (.postCompletions (n + 1)) { sh with port := sh.port ++ [none] }
        [.postCompletions n]
  | joins (h : sh.ended = workers) : Step config workers sh .join sh [.stopped]

section Steps

variable {config : ServerConfig} {workers : ℕ} {x : Choice} {task : Task} {sh sh' : Shared}
  {new : List Task} {R : Multiset Task}

/-- Every step of the program is one of these. -/
theorem exec_step {o : Outcome Shared Task} (h : exec config workers x task sh = some o) :
    Step config workers sh task o.shared (o.next ++ o.forked.flatten) := by
  cases task with
  | life t =>
      obtain ⟨o', ho', rfl⟩ := Option.map_eq_some_iff.1 h
      cases hkernel : t.inKernel with
      | true => exact .completes ho' hkernel
      | false =>
          rw [if_neg Bool.false_ne_true, ← List.map_flatten, List.append_assoc, ← List.map_append]
          exact .lives ho' hkernel
  | worker =>
      simp only [exec] at h
      split at h
      · split at h
        · next hget =>
            obtain rfl := Option.some.inj h
            exact .takes hget
        · next hget =>
            obtain rfl := Option.some.inj h
            exact .ends hget
        · cases h
      · cases h
  | lockToNotify =>
      simp only [exec] at h
      split at h
      · cases h
      · next hfree =>
          obtain rfl := Option.some.inj h
          exact .locksToNotify (Bool.eq_false_of_not_eq_true hfree)
  | lockToWait =>
      simp only [exec] at h
      split at h
      · cases h
      · next hfree =>
          obtain rfl := Option.some.inj h
          exact .locksToWait (Bool.eq_false_of_not_eq_true hfree)
  | predicate =>
      obtain rfl := Option.some.inj h
      by_cases hzero : sh.life.outstandingOperations = 0
      · rw [if_pos hzero]
        exact .passes hzero
      · rw [if_neg hzero]
        exact .waits hzero
  | asleep =>
      simp only [exec] at h
      split at h
      · obtain rfl := Option.some.inj h
        exact .wakesUp
      · obtain rfl := Option.some.inj h
        exact .wakesUp
      · cases h
  | postCompletions n =>
      cases n with
      | zero =>
          obtain rfl := Option.some.inj h
          exact .postedAll
      | succ n =>
          obtain rfl := Option.some.inj h
          exact .posts n
  | join =>
      simp only [exec] at h
      split at h
      · next hended =>
          obtain rfl := Option.some.inj h
          exact .joins hended
      · cases h
  | stopped => cases h
  | notifyAll =>
      obtain rfl := Option.some.inj h
      exact .notifies
  | unlockNotified =>
      obtain rfl := Option.some.inj h
      exact .unlocksNotified
  | sleep =>
      obtain rfl := Option.some.inj h
      exact .sleeps
  | unlockWaited =>
      obtain rfl := Option.some.inj h
      exact .unlocksWaited

/-! ### The model without the wait -/

/-- A step that leaves the life and the port alone, and goes on with a task of the same kind. -/
theorem lifeTasks_keep (hport : sh'.port = sh.port)
    (hnew : new.filterMap Task.life? = task.life?.toList) :
    lifeTasks sh' (new + R) = lifeTasks sh (task ::ₘ R) := by
  rw [lifeTasks, lifeTasks, hport, holders_step hnew]

/-- **A step is one of the model without the wait, or none.** -/
theorem Step.life (hstep : Step config workers sh task sh' new) (R : Multiset Task) :
    (sh'.life = sh.life ∧ lifeTasks sh' (new + R) = lifeTasks sh (task ::ₘ R)) ∨
      ∃ x t o Q, lifeTasks sh (task ::ₘ R) = t ::ₘ Q ∧
        Lifecycle.exec config x t sh.life = some o ∧ sh'.life = o.shared ∧
        lifeTasks sh' (new + R) = ((o.next ++ o.forked.flatten : List _) : Multiset _) + Q := by
  -- a task of the model without the wait, and the others
  have hbefore : ∀ {t : Lifecycle.Task}, task.life? = some t → lifeTasks sh (task ::ₘ R) =
      t ::ₘ (holders Task.life? R + (sh.port.filterMap id : List Lifecycle.Task)) := by
    intro t ht
    rw [lifeTasks, holders_cons_some ht, Multiset.cons_add]
  cases hstep with
  | @lives x t o h hkernel =>
      refine Or.inr ⟨x, t, o, _, hbefore rfl, h, rfl, ?_⟩
      simp only [lifeTasks, holders_add, holders_coe, filterMap_life?_wakes, Multiset.coe_nil,
        filterMap_life?_map_lift, List.map_append, ← Multiset.coe_add]
      ac_rfl
  | @completes x t o h hkernel =>
      refine Or.inr ⟨x, t, o, _, hbefore rfl, h, rfl, ?_⟩
      -- what the kernel has completed waits in the port
      rw [exec_inKernel hkernel h]
      simp only [lifeTasks, List.filterMap_append, List.filterMap_map, List.flatten_nil,
        Multiset.coe_nil, zero_add, ← Multiset.coe_add, List.append_nil]
      rw [show (id ∘ some : Lifecycle.Task → Option Lifecycle.Task) = some from rfl,
        List.filterMap_some]
      ac_rfl
  | @takes i t h =>
      refine Or.inl ⟨rfl, ?_⟩
      rw [lifeTasks, lifeTasks, (port_erase h).1, holders_add,
        holders_cons_none (f := Task.life?) (p := .worker) rfl, holders_coe,
        show [Task.life t, Task.worker].filterMap Task.life? = [t] from rfl, Option.toList_some]
      ac_rfl
  | ends h =>
      refine Or.inl ⟨rfl, ?_⟩
      rw [lifeTasks, lifeTasks, (port_erase h).1, Multiset.coe_nil, zero_add,
        holders_cons_none (f := Task.life?) (p := .worker) rfl, Option.toList_none,
        Multiset.coe_nil, zero_add]
  | passes h =>
      refine Or.inr ⟨.passes, .stopWait, ⟨sh.life, [.stopped], []⟩, _, hbefore rfl, ?_, rfl, ?_⟩
      · simp only [Lifecycle.exec, Lifecycle.control, if_pos h]
        rfl
      · rw [lifeTasks, holders_add, holders_coe]
        rw [show [Task.unlockWaited].filterMap Task.life? = [.stopped] from rfl, add_assoc]
        rfl
  | posts n =>
      refine Or.inl ⟨rfl, ?_⟩
      rw [lifeTasks, lifeTasks, List.filterMap_append,
        holders_step (f := Task.life?) (p := .postCompletions (n + 1)) rfl]
      simp
  | _ => exact Or.inl ⟨rfl, lifeTasks_keep rfl rfl⟩

/-! ### The threads of `Stop` -/

/-- `Stop` is behind its exchange of `running`. -/
def stopping : Lifecycle.Task → ℕ
  | .stopListening | .snapshot _ _ | .stopLoop _ | .stopDisconnect _ _ | .stopWait | .stopped => 1
  | _ => 0

/-- One call of `Stop` gets behind the exchange. -/
theorem exec_stopping {t : Lifecycle.Task} {sv : Server} {o : Outcome Server Lifecycle.Task}
    (h : Lifecycle.exec config x t sv = some o) :
    ((o.next ++ o.forked.flatten).map stopping).sum + o.shared.running.toNat =
      stopping t + sv.running.toNat := by
  rcases eq_or_ne t .stop with rfl | hne
  · simp only [Lifecycle.exec, Lifecycle.control, effect] at h
    split at h
    · next hrunning =>
        obtain rfl := Option.some.inj h
        rw [hrunning]
        rfl
    · obtain rfl := Option.some.inj h
      rfl
  · have hstep := Lifecycle.exec_step h
    generalize o.shared = sv', o.next ++ o.forked.flatten = new at hstep ⊢
    cases hstep with
    | arrives harrival =>
        obtain rfl | ⟨s, rfl⟩ | ⟨s, rfl⟩ | ⟨s, rfl, -⟩ | rfl := arrival_cases harrival <;> rfl
    | moves hmoves =>
        refine congrArg (· + sv.running.toNat) ?_
        cases hmoves with
        | noPeer s op posted | notReading s op posted => cases posted <;> rfl
        | _ => rfl
    | refuses s closeAfter => cases closeAfter <;> rfl
    | enqueues s closeAfter => split <;> rfl
    | completesWrite s again => cases again <;> rfl
    | stops | alreadyStopped => exact absurd rfl hne
    | _ => rfl

/-- The task holds `outstanding_mutex`. -/
def Task.holds : Task → ℕ
  | .notifyAll | .unlockNotified | .predicate | .sleep | .unlockWaited => 1
  | _ => 0

/-- `Stop` is between its look at the counter and the end of its sleep. -/
def Task.sleeps : Task → ℕ
  | .sleep => 1
  | _ => 0

/-- The task is about to notify `Stop`. -/
def Task.notifies : Task → ℕ
  | .lockToNotify | .notifyAll => 1
  | _ => 0

/-- The loop of a worker. -/
def Task.works : Task → ℕ
  | .worker => 1
  | _ => 0

/-- `Stop` is behind its wait. -/
def Task.passed : Task → ℕ
  | .postCompletions _ | .join | .stopped => 1
  | _ => 0

/-- The completions that `Stop` has left to post. -/
def Task.owed : Task → ℕ
  | .postCompletions n => n
  | _ => 0

/-- **What holds of the wait and of the workers.** -/
structure Waits (workers : ℕ) (sh : Shared) (P : Multiset Task) : Prop where
  operations : Operations sh.life (lifeTasks sh P)
  stop : weight stopping (lifeTasks sh P) + sh.life.running.toNat = 1
  locked : weight Task.holds P = sh.locked.toNat
  /-- `Stop` does not sleep at zero, unless somebody is about to notify it. -/
  woken : sh.life.outstandingOperations = 0 → weight Task.sleeps P + sh.sleeping.toNat ≠ 0 →
    weight Task.notifies P ≠ 0
  works : weight Task.works P + sh.ended = workers
  /-- The completions without an operation are one for each worker. -/
  posted : sh.port.countP Option.isNone + sh.ended + weight Task.owed P =
    workers * weight Task.passed P
  stopped : .stopped ∈ P → sh.ended = workers

/-- A weight of the tasks that the model without the wait does not have. -/
theorem sum_map_lift {f : Task → ℕ} (hlife : ∀ t, f (.life t) = 0) (hwait : f .lockToWait = 0)
    (l : List Lifecycle.Task) : ((l.map lift).map f).sum = 0 := by
  have hlift : ∀ t, f (lift t) = 0 := fun t => by
    cases t with
    | stopWait => exact hwait
    | _ => exact hlife _
  rw [← weight_coe]
  refine weight_eq_zero fun p hp => ?_
  obtain ⟨t, -, rfl⟩ := List.mem_map.1 (Multiset.mem_coe.1 hp)
  exact hlift t

/-- The same behind a step of a task of the model without the wait. -/
theorem weight_lives {f : Task → ℕ} (hlife : ∀ t, f (.life t) = 0) (hwait : f .lockToWait = 0)
    (t : Lifecycle.Task) (sv : Server) (l : List Lifecycle.Task) :
    weight f ((wakes t sv ++ l.map lift : List Task) + R) =
      ((wakes t sv).map f).sum + weight f R := by
  rw [weight_add, weight_coe, List.map_append, List.sum_append, sum_map_lift hlife hwait, add_zero]

theorem sum_map_wakes {f : Task → ℕ} (hlock : f .lockToNotify = 0) (t : Lifecycle.Task)
    (sv : Server) : ((wakes t sv).map f).sum = 0 := by
  unfold wakes
  split
  · simp [hlock]
  · rfl

/-- The counter goes to zero in `CompleteOperation` only. -/
theorem outstanding_zero {t : Lifecycle.Task} {sv : Server} {o : Outcome Server Lifecycle.Task}
    (h : Lifecycle.exec config x t sv = some o) (hzero : o.shared.outstandingOperations = 0) :
    sv.outstandingOperations = 0 ∨ t.completes = true ∧ sv.outstandingOperations = 1 := by
  have hstep := Lifecycle.exec_step h
  have hone : Outbound.sub64 sv.outstandingOperations 1 = 0 → sv.outstandingOperations = 1 := by
    intro hsub
    unfold Outbound.sub64 at hsub
    split at hsub <;> omega
  generalize o.shared = sv', o.next ++ o.forked.flatten = new at hstep hzero
  cases hstep with
  | tracksAccept | tracksRead | tracksWrite => cases hzero
  | completes | completesWrite => exact Or.inr ⟨rfl, hone hzero⟩
  | _ => exact Or.inl hzero

/-! ### The steps keep the invariant -/

theorem Step.stop (hstep : Step config workers sh task sh' new)
    (h : weight stopping (lifeTasks sh (task ::ₘ R)) + sh.life.running.toNat = 1) :
    weight stopping (lifeTasks sh' (new + R)) + sh'.life.running.toNat = 1 := by
  rcases hstep.life R with ⟨hlife, htasks⟩ | ⟨x, t, o, Q, hQ, ho, hlife, htasks⟩
  · rw [hlife, htasks]
    exact h
  · have hone := exec_stopping ho
    rw [hQ, weight_cons] at h
    rw [hlife, htasks, weight_add, weight_coe]
    omega

theorem Step.operations (hstep : Step config workers sh task sh' new)
    (h : Operations sh.life (lifeTasks sh (task ::ₘ R))) :
    Operations sh'.life (lifeTasks sh' (new + R)) := by
  rcases hstep.life R with ⟨hlife, htasks⟩ | ⟨x, t, o, Q, hQ, ho, hlife, htasks⟩
  · rw [hlife, htasks]
    exact h
  · rw [hlife, htasks]
    rw [hQ] at h
    exact h.step (Lifecycle.exec_step ho)

/-- The mutex has one owner. -/
theorem Step.locked (hstep : Step config workers sh task sh' new)
    (h : weight Task.holds (task ::ₘ R) = sh.locked.toNat) :
    weight Task.holds (new + R) = sh'.locked.toNat := by
  rw [weight_cons] at h
  have hle := Bool.toNat_le sh.locked
  cases hstep with
  | lives =>
      rw [weight_lives (fun _ => rfl) rfl, sum_map_wakes rfl]
      exact h
  | locksToNotify hfree | locksToWait hfree =>
      rw [hfree] at h
      rw [weight_add, weight_coe]
      simp only [Task.holds, List.map_singleton, List.sum_singleton, Bool.toNat_false,
        Bool.toNat_true] at h ⊢
      omega
  | unlocksNotified | sleeps | unlocksWaited =>
      rw [weight_add, weight_coe]
      simp only [Task.holds, List.map_singleton, List.map_nil, List.sum_singleton, List.sum_nil,
        Bool.toNat_false] at h ⊢
      omega
  | _ =>
      rw [weight_add]
      exact h

/-- **No wake-up is lost.** -/
theorem Step.woken (hstep : Step config workers sh task sh' new)
    (hlocked : weight Task.holds (task ::ₘ R) = sh.locked.toNat)
    (h : sh.life.outstandingOperations = 0 →
      weight Task.sleeps (task ::ₘ R) + sh.sleeping.toNat ≠ 0 →
        weight Task.notifies (task ::ₘ R) ≠ 0)
    (hzero : sh'.life.outstandingOperations = 0)
    (hsleep : weight Task.sleeps (new + R) + sh'.sleeping.toNat ≠ 0) :
    weight Task.notifies (new + R) ≠ 0 := by
  rw [weight_cons, weight_cons] at h
  rw [weight_add] at hsleep ⊢
  cases hstep with
  | @lives x t o hexec hkernel =>
      rw [← weight_add, weight_lives (fun _ => rfl) rfl, sum_map_wakes rfl, zero_add] at hsleep
      rw [← weight_add, weight_lives (fun _ => rfl) rfl]
      rcases outstanding_zero hexec hzero with hbefore | ⟨hcompletes, hone⟩
      · have hnotifies := h hbefore (by simpa [Task.sleeps] using hsleep)
        simp only [Task.notifies] at hnotifies
        omega
      · -- the thread that brings the counter to zero notifies
        rw [wakes, hcompletes, hone]
        exact (Nat.add_pos_left Nat.one_pos _).ne'
  | @completes x t o hexec hkernel =>
      rcases outstanding_zero hexec hzero with hbefore | ⟨hcompletes, -⟩
      · exact h hbefore hsleep
      · cases t with
        | accepting | reading | writing => cases hcompletes
        | _ => cases hkernel
  | notifies =>
      -- the mutex keeps `Stop` from going to sleep here
      have hle : weight Task.sleeps R ≤ weight Task.holds R :=
        weight_mono (fun p => by cases p <;> simp [Task.sleeps, Task.holds]) R
      have hone := Bool.toNat_le sh.locked
      rw [weight_cons] at hlocked
      simp only [weight_coe, Task.holds, Task.sleeps, List.map_singleton, List.sum_singleton,
        Bool.toNat_false] at hlocked hsleep
      omega
  | waits hne => exact absurd hzero hne
  | wakesUp =>
      simp only [weight_coe, Task.sleeps, List.map_singleton, List.sum_singleton,
        Bool.toNat_false] at h hsleep
      exact h hzero (by omega)
  | sleeps => exact h hzero (by simp only [Task.sleeps]; omega)
  | _ => exact h hzero hsleep

/-- The workers that have not returned are in their loops. -/
theorem Step.works (hstep : Step config workers sh task sh' new)
    (h : weight Task.works (task ::ₘ R) + sh.ended = workers) :
    weight Task.works (new + R) + sh'.ended = workers := by
  rw [weight_cons] at h
  cases hstep with
  | lives =>
      rw [weight_lives (fun _ => rfl) rfl, sum_map_wakes rfl]
      exact h
  | ends =>
      rw [weight_add, weight_coe]
      simp only [Task.works, List.map_nil, List.sum_nil] at h ⊢
      omega
  | _ =>
      rw [weight_add]
      exact h

/-- `Stop` has returned behind the workers. -/
theorem Step.stopped (hstep : Step config workers sh task sh' new)
    (hworks : weight Task.works (task ::ₘ R) + sh.ended = workers)
    (h : .stopped ∈ task ::ₘ R → sh.ended = workers) (hstopped : .stopped ∈ new + R) :
    sh'.ended = workers := by
  rcases Multiset.mem_add.1 hstopped with hnew | hR
  · cases hstep with
    | lives =>
        rcases List.mem_append.1 (Multiset.mem_coe.1 hnew) with hwakes | hlift
        · unfold wakes at hwakes
          split at hwakes <;> simp at hwakes
        · obtain ⟨t, -, ht⟩ := List.mem_map.1 hlift
          cases t <;> cases ht
    | joins hended => exact hended
    | _ => simp at hnew
  · have hended := h (Multiset.mem_cons_of_mem hR)
    cases hstep with
    | ends =>
        -- no worker is left
        rw [weight_cons] at hworks
        simp only [Task.works] at hworks
        omega
    | _ => exact hended

/-- **`Stop` posts one completion for each worker**, and a worker takes one of them. -/
theorem Step.posted (hstep : Step config workers sh task sh' new)
    (h : sh.port.countP Option.isNone + sh.ended + weight Task.owed (task ::ₘ R) =
      workers * weight Task.passed (task ::ₘ R)) :
    sh'.port.countP Option.isNone + sh'.ended + weight Task.owed (new + R) =
      workers * weight Task.passed (new + R) := by
  rw [weight_cons, weight_cons] at h
  rw [weight_add, weight_add]
  cases hstep with
  | lives =>
      rw [← weight_add, ← weight_add, weight_lives (fun _ => rfl) rfl, sum_map_wakes rfl,
        weight_lives (fun _ => rfl) rfl, sum_map_wakes rfl]
      exact h
  | @completes x t o =>
      have hnone : ∀ l : List Lifecycle.Task, (l.map some).countP Option.isNone = 0 := by
        intro l
        simp
      rw [List.countP_append, hnone]
      exact h
  | takes hget =>
      have hcount := (port_erase hget).2
      rw [Option.isNone_some, Bool.toNat_false, add_zero] at hcount
      rw [hcount] at h
      exact h
  | ends hget =>
      have hcount := (port_erase hget).2
      rw [Option.isNone_none, Bool.toNat_true] at hcount
      rw [hcount] at h
      simp only [Task.owed, Task.passed, weight_coe, List.map_nil, List.sum_nil] at h ⊢
      omega
  | unlocksWaited =>
      simp only [Task.owed, Task.passed, weight_coe, List.map_singleton, List.sum_singleton] at h ⊢
      rw [Nat.zero_add, Nat.zero_add] at h
      rw [Nat.mul_add]
      omega
  | posts n =>
      rw [List.countP_append]
      simp only [Task.owed, Task.passed, weight_coe, List.map_singleton, List.sum_singleton] at h ⊢
      simp only [List.countP_singleton, Option.isNone_none, if_true]
      omega
  | _ => exact h

/-- **Every step keeps the invariant.** -/
theorem Waits.step (hstep : Step config workers sh task sh' new) (h : Waits workers sh (task ::ₘ R)) :
    Waits workers sh' (new + R) where
  operations := hstep.operations h.operations
  stop := hstep.stop h.stop
  locked := hstep.locked h.locked
  woken := hstep.woken h.locked h.woken
  works := hstep.works h.works
  posted := hstep.posted h.posted
  stopped := hstep.stopped h.works h.stopped

end Steps

/-! ### Whole runs -/

theorem waits_run {config : ServerConfig} {workers : ℕ} {moves : List (ℕ × Choice)}
    {c : Config Shared Task} (hrun : (program config workers).run moves (start workers) = some c) :
    Waits workers c.shared c.pending := by
  refine Program.invariant (I := Waits workers) (fun x p sh R o hexec h => ?_) moves ?_ hrun
  · rw [Multiset.coe_add]
    exact h.step (exec_step hexec)
  · have hpending : (start workers).pending =
        Task.life .outside ::ₘ ((List.replicate workers Task.worker : List Task) : Multiset Task) := by
      rw [start, Config.pending, List.flatten_cons, List.flatten_replicate_singleton]
      rfl
    have hlife : lifeTasks (start workers).shared (start workers).pending = {.outside} := by
      rw [hpending, lifeTasks, holders_cons_some (f := Task.life?) (p := .life .outside) rfl,
        holders_coe, List.filterMap_replicate_of_none rfl]
      rfl
    have hweight : ∀ f : Task → ℕ, f (.life .outside) = 0 →
        weight f (start workers).pending = workers * f .worker := by
      intro f hf
      rw [hpending, weight_cons, hf, weight_coe, List.map_replicate, List.sum_replicate_nat,
        zero_add]
    refine ⟨?_, ?_, ?_, ?_, ?_, ?_, ?_⟩
    · rw [hlife]
      exact ⟨rfl, fun op => rfl, fun s => Nat.zero_le _, fun s => Nat.zero_le _⟩
    · rw [hlife]
      rfl
    · rw [hweight Task.holds rfl]
      rfl
    · intro _ hsleep
      rw [hweight Task.sleeps rfl] at hsleep
      exact absurd rfl hsleep
    · rw [hweight Task.works rfl]
      exact Nat.mul_one workers
    · rw [hweight Task.owed rfl, hweight Task.passed rfl]
      rfl
    · rw [hpending]
      intro hstopped
      simp at hstopped

/-- A weight of the tasks that `Stop` is in. -/
theorem weight_le_stopping {f : Task → ℕ} (hle : ∀ p, f p ≤ p.life?.elim 0 stopping) (sh : Shared)
    (P : Multiset Task) : weight f P ≤ weight stopping (lifeTasks sh P) := by
  rw [lifeTasks, weight_add]
  refine le_trans ?_ (Nat.le_add_right _ _)
  induction P using Multiset.induction_on with
  | empty => exact Nat.zero_le _
  | cons p P ih =>
      rw [weight_cons, holders_cons, weight_add]
      refine Nat.add_le_add ((hle p).trans ?_) ih
      cases p.life? with
      | none => exact Nat.zero_le _
      | some t => exact (weight_coe stopping [t]).ge

/-- `Stop` is one thread, behind its wait as well. -/
theorem passed_le (sh : Shared) (P : Multiset Task) :
    weight Task.passed P ≤ weight stopping (lifeTasks sh P) := by
  refine weight_le_stopping (fun p => ?_) sh P
  cases p <;> first | exact Nat.zero_le _ | exact le_rfl

/-- **No wake-up is lost, and nothing is left behind the wait**, in every run.  When the counter is
zero and `Stop` sleeps, some thread is about to notify it.  When `Stop` sees zero, no operation is
in the kernel, in the completion port or with a worker.  No worker returns before the wait has
ended, and `Stop` returns when all of them have, with no completion of theirs left in the port. -/
theorem wait_exact (config : ServerConfig) (workers : ℕ) (moves : List (ℕ × Choice))
    {c : Config Shared Task} (hrun : (program config workers).run moves (start workers) = some c) :
    (c.shared.life.outstandingOperations = 0 → c.shared.sleeping = true ∨ .sleep ∈ c.pending →
        .lockToNotify ∈ c.pending ∨ .notifyAll ∈ c.pending) ∧
      (c.shared.life.outstandingOperations = 0 → ∀ t ∈ lifeTasks c.shared c.pending,
        t.tracked = false) ∧
      (c.shared.ended ≠ 0 → (∃ n, .postCompletions n ∈ c.pending) ∨ .join ∈ c.pending ∨
        .stopped ∈ c.pending) ∧
      (.stopped ∈ c.pending → c.shared.ended = workers ∧ .worker ∉ c.pending ∧
        none ∉ c.shared.port) := by
  have h := waits_run hrun
  refine ⟨fun hzero hsleep => ?_, fun hzero t ht => ?_, fun hended => ?_, fun hstopped => ?_⟩
  · have hsleeps : weight Task.sleeps c.pending + c.shared.sleeping.toNat ≠ 0 := by
      rcases hsleep with hsleep | hsleep
      · rw [hsleep]
        exact Nat.succ_ne_zero _
      · have hle : Task.sleep.sleeps ≤ weight Task.sleeps c.pending := le_weight hsleep
        simp only [Task.sleeps] at hle
        omega
    obtain ⟨p, hp, hnotifies⟩ := exists_of_weight (h.woken hzero hsleeps)
    cases p with
    | lockToNotify => exact Or.inl hp
    | notifyAll => exact Or.inr hp
    | _ => exact absurd rfl hnotifies
  · have hle := le_weight (f := fun t => t.tracked.toNat) ht
    rw [← h.operations.tracked, hzero] at hle
    cases htracked : t.tracked with
    | false => rfl
    | true =>
        rw [htracked] at hle
        cases hle
  · have hpassed : weight Task.passed c.pending ≠ 0 := by
      intro hnone
      have hposted := h.posted
      rw [hnone, Nat.mul_zero] at hposted
      omega
    obtain ⟨p, hp, hpassed⟩ := exists_of_weight hpassed
    cases p with
    | postCompletions n => exact Or.inl ⟨n, hp⟩
    | join => exact Or.inr (Or.inl hp)
    | stopped => exact Or.inr (Or.inr hp)
    | _ => exact absurd rfl hpassed
  · have hended := h.stopped hstopped
    have hworks := h.works
    have hposted := h.posted
    have hle := (passed_le c.shared c.pending).trans (Nat.le_of_add_right_le h.stop.le)
    have hone : Task.stopped.passed ≤ weight Task.passed c.pending := le_weight hstopped
    have hpassed : weight Task.passed c.pending = 1 := le_antisymm hle hone
    rw [hpassed, Nat.mul_one] at hposted
    refine ⟨hended, fun hworker => ?_, fun hnone => ?_⟩
    · have hle : Task.worker.works ≤ weight Task.works c.pending := le_weight hworker
      simp only [Task.works] at hle
      omega
    · have hpos : 0 < c.shared.port.countP Option.isNone :=
        List.countP_pos_iff.2 ⟨none, hnone, rfl⟩
      omega

/-- An accept is posted, `Stop` goes to sleep, the accept is cancelled, and its worker wakes `Stop`
up, which then sends the worker home. -/
def stopsWorker : List (ℕ × Choice) :=
  (0, .poster) :: List.replicate 4 (2, .passes) ++ (0, .stopper) :: List.replicate 38 (4, .passes) ++
    (3, .completes false) :: (1, .picks 0) :: List.replicate 7 (1, .passes) ++
    List.replicate 6 (4, .passes) ++ [(1, .picks 0), (4, .passes)]

set_option maxRecDepth 4000 in
/-- The worker has returned. -/
theorem wait_exact_stopsWorker :
    ∃ c, (program {} 1).run stopsWorker (start 1) = some c ∧ .stopped ∈ c.pending ∧
      c.shared.ended = 1 ∧ .worker ∉ c.pending ∧ none ∉ c.shared.port := by
  have hobserved : ((program {} 1).run stopsWorker (start 1)).map (fun c => c.threads) =
      some [[.life .outside], [], [], [], [.stopped]] := rfl
  obtain ⟨c, hrun, hc⟩ := Option.map_eq_some_iff.1 hobserved
  have hstopped : .stopped ∈ c.pending := by
    rw [Config.pending, hc]
    simp
  exact ⟨c, hrun, hstopped, (wait_exact {} 1 stopsWorker hrun).2.2.2 hstopped⟩

end ShutdownWait

end RealtimeEngine
