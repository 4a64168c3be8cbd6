/-
**`Stop` can be brought to its end.**

`RealtimeEngine/ShutdownProgress.lean` says that no state is a deadlock.  Here the run is followed to
its end.  The threads take their own steps only, and what is left open at a step is decided so that
nothing new is begun: the calls fail, the kernel completes what it has without success, and
`ProcessIncoming` finds nothing to do.  Each such step takes something off what is left, once `Stop`
has cleared `running`.  So from every state behind that, such steps lead to a state in which `Stop`
has returned and no thread has anything left to do.

What is left of a thread is counted in steps.  Two steps make the way of another thread longer, and
they are counted with it: a new number of a session makes the shards larger that `Stop` goes through,
and a notification sends `Stop` back to its look at the counter.

Main definitions:

* `RealtimeEngine.ShutdownWait.lifeSteps`, `RealtimeEngine.ShutdownWait.taskSteps` — what is left of a
  task;
* `RealtimeEngine.ShutdownWait.stepsLeft` — what is left of all of them;
* `RealtimeEngine.ShutdownWait.Stopping` — a state that can be reached, behind the first step of
  `Stop`.

Main results:

* `RealtimeEngine.ShutdownWait.exec_spends` — **a step that begins nothing takes something off**;
* `RealtimeEngine.ShutdownWait.shutdown_ends` — **there is no deadlock, and `Stop` can be brought to
  its end**.
-/

import RealtimeEngine.ShutdownProgress

set_option relaxedAutoImplicit false
set_option autoImplicit false

namespace RealtimeEngine

namespace ShutdownWait

open Interleaving Lifecycle

/-! ### What is left -/

/-- What is left of a task of the model without the wait, with so many workers and so many numbers
of sessions given out. -/
def lifeSteps (workers ids : ℕ) : Lifecycle.Task → ℕ
  | .outside => 0
  | .postNewAccept => 2
  | .createAccept => 1
  | .trackAccept _ => 2 * workers + 12
  | .postAccept _ _ => 2 * workers + 11
  | .accepting _ => 2 * workers + 17
  | .handleAccept _ _ => 2 * workers + 15
  | .checkLimit _ => 2 * workers + 14
  | .associate _ => 2 * workers + 13
  | .identify _ => 2 * workers + 23 + 8 * (shardCount + 1)
  | .insert _ _ => 2 * workers + 22
  | .count _ _ => 2 * workers + 21
  | .invokeConnect _ _ => 2 * workers + 20
  | .nextAccept _ => 2 * workers + 12
  | .reaccept _ => 2 * workers + 11
  | .releaseAccept _ _ => 2 * workers + 10
  | .newRead _ => 7
  | .trackRead _ _ => 2 * workers + 19
  | .postRead _ _ _ => 2 * workers + 18
  | .receive _ _ _ => 2 * workers + 17
  | .reading _ _ => 2 * workers + 24
  | .handleRead _ _ _ => 2 * workers + 22
  | .processIncoming _ _ => 2 * workers + 21
  | .testMessage _ _ => 2 * workers + 23
  | .deliverMessage _ _ => 2 * workers + 22
  | .repost _ _ => 2 * workers + 20
  | .repostRunning _ _ => 2 * workers + 19
  | .releaseRead _ _ _ => 2 * workers + 10
  | .completeOperation => 2 * workers + 9
  | .enqueue _ _ => 7
  | .startNextWrite _ => 8
  | .newWrite _ _ => 7
  | .trackWrite _ _ _ => 2 * workers + 21
  | .postWrite _ _ _ _ => 2 * workers + 20
  | .wsaSend _ _ _ _ => 2 * workers + 19
  | .writing _ _ _ => 2 * workers + 21
  | .handleWrite _ _ _ _ => 2 * workers + 19
  | .finishWrite _ _ _ _ => 2 * workers + 18
  | .completeWrite _ _ => 2 * workers + 17
  | .disconnect _ => 6
  | .remove _ => 5
  | .closeSocket _ => 4
  | .drain _ => 3
  | .uncount _ => 2
  | .invokeDisconnect _ => 1
  | .send _ | .close _ | .timer _ | .stop => 1
  | .stopListening => shardCount * (8 * ids + 1) + 8 * ids + 2 * workers + 8
  | .snapshot k found =>
      (shardCount - k) * (8 * ids + 1) + 8 * ids + 8 * found.length + 2 * workers + 7
  | .stopLoop found => 8 * found.length + 2 * workers + 6
  | .stopDisconnect _ rest => 8 * rest.length + 2 * workers + 12
  | .stopWait => 2 * workers + 5
  | .stopped => 0

/-- What is left of a task. -/
def taskSteps (workers ids : ℕ) (sleeping : Bool) : Task → ℕ
  | .life t => lifeSteps workers ids t
  | .worker => 0
  | .lockToNotify => 2 * workers + 8
  | .notifyAll => 2 * workers + 7
  | .unlockNotified => 1
  | .lockToWait => 2 * workers + 5
  | .predicate => 2 * workers + 4
  | .sleep => 2
  | .asleep => if sleeping then 1 else 2 * workers + 6
  | .unlockWaited => 2 * workers + 3
  | .postCompletions n => 2 * n + 2
  | .join => 1
  | .stopped => 0

/-- What is left of an entry of the completion port. -/
def portSteps (workers : ℕ) : Option Lifecycle.Task → ℕ
  | some t => lifeSteps workers 0 t + 1
  | none => 1

/-- What is left of all threads and of the completion port. -/
def stepsLeft (workers : ℕ) (sh : Shared) (P : Multiset Task) : ℕ :=
  weight (taskSteps workers sh.life.nextSessionId sh.sleeping) P +
    (sh.port.map (portSteps workers)).sum

/-- `Stop` is in this task. -/
def Task.stops : Task → ℕ
  | .life t => stopping t
  | .asleep => 1
  | _ => 0

theorem taskSteps_lift (workers ids : ℕ) (sleeping : Bool) (t : Lifecycle.Task) :
    taskSteps workers ids sleeping (lift t) = lifeSteps workers ids t := by
  cases t <;> rfl

/-- What a completion leads to does not depend on the numbers given out. -/
theorem lifeSteps_of_not_last (workers ids : ℕ) {t : Lifecycle.Task}
    (h : (Task.life t).last = false) : lifeSteps workers ids t = lifeSteps workers 0 t := by
  cases t with
  | stopListening | snapshot => cases h
  | _ => rfl

/-- A new number makes the way of `Stop` through the shards longer. -/
theorem lifeSteps_succ (workers ids : ℕ) (t : Lifecycle.Task) :
    lifeSteps workers (ids + 1) t ≤
      lifeSteps workers ids t + 8 * (shardCount + 1) * stopping t := by
  cases t with
  | stopListening =>
      simp only [lifeSteps, stopping, shardCount]
      omega
  | snapshot k found =>
      have hsplit : (shardCount - k) * (8 * (ids + 1) + 1) =
          (shardCount - k) * (8 * ids + 1) + (shardCount - k) * 8 := by
        rw [← Nat.mul_add]
        congr 1
      simp only [lifeSteps, stopping, hsplit]
      omega
  | _ => exact Nat.le_add_right _ _

section Steps

variable {config : ServerConfig} {workers : ℕ} {sv sv' : Server} {t : Lifecycle.Task}
  {new : List Lifecycle.Task} {sh : Shared} {p : Task} {R : Multiset Task}

theorem length_shard_le (sv : Server) (k : ℕ) : (sv.shard k).length ≤ sv.nextSessionId := by
  have hle := List.length_filter_le (fun s => (sv.sessions s).registered && s % shardCount == k)
    (List.range sv.nextSessionId)
  rwa [List.length_range] at hle

theorem sum_notPosted (workers ids s op : ℕ) (posted : Bool) :
    ((notPosted s op posted).map (lifeSteps workers ids)).sum = 2 * workers + 16 := by
  cases posted <;> simp [notPosted, lifeSteps]
  omega

/-- A step that only decides where its thread goes on. -/
theorem control_spends (workers : ℕ) (h : Lifecycle.control config (settling t) sv t = some new) :
    (new.map (lifeSteps workers sv.nextSessionId)).sum < lifeSteps workers sv.nextSessionId t := by
  have hone : ∀ {u : Lifecycle.Task},
      lifeSteps workers sv.nextSessionId u < lifeSteps workers sv.nextSessionId t →
        ([u].map (lifeSteps workers sv.nextSessionId)).sum <
          lifeSteps workers sv.nextSessionId t := by
    intro u hu
    rwa [List.map_singleton, List.sum_singleton]
  cases t with
  | snapshot k found =>
      obtain rfl := Option.some.inj h
      have hshard := length_shard_le sv k
      refine hone ?_
      split
      · next hk =>
          have hsplit : (shardCount - k) * (8 * sv.nextSessionId + 1) =
              (shardCount - (k + 1)) * (8 * sv.nextSessionId + 1) + (8 * sv.nextSessionId + 1) := by
            rw [← Nat.succ_mul]
            congr 1
            omega
          simp only [lifeSteps, hsplit, List.length_append]
          omega
      · simp only [lifeSteps, List.length_append]
        omega
  | stopLoop found =>
      cases found with
      | nil =>
          obtain rfl := Option.some.inj h
          refine hone ?_
          simp only [lifeSteps]
          omega
      | cons s found =>
          obtain rfl := Option.some.inj h
          refine hone ?_
          simp only [lifeSteps, List.eraseIdx_zero, List.tail_cons, List.length_cons]
          omega
  | postNewAccept | handleAccept | checkLimit | nextAccept | testMessage | postWrite =>
      obtain rfl := Option.some.inj h
      split <;> simp [lifeSteps]
  | repost | repostRunning | handleRead =>
      obtain rfl := Option.some.inj h
      split <;> simp [lifeSteps]
      omega
  | postRead s op posted =>
      obtain rfl := Option.some.inj h
      split
      · simp [lifeSteps]
      · rw [sum_notPosted, lifeSteps]
        omega
  | receive s op posted =>
      obtain rfl := Option.some.inj h
      rw [sum_notPosted, lifeSteps]
      omega
  | accepting | reading | writing | postAccept | associate | reaccept | wsaSend | send | close | timer
  | processIncoming =>
      obtain rfl := Option.some.inj h
      simp [lifeSteps]
  | handleWrite s op closeAfter good =>
      cases good <;>
      · obtain rfl := Option.some.inj h
        simp [lifeSteps]
  | stopWait =>
      simp only [Lifecycle.control] at h
      split at h
      · obtain rfl := Option.some.inj h
        simp [lifeSteps]
      · cases h
  | _ => cases h

/-- What `CompleteOperation` leads to besides. -/
def wakeSteps (workers : ℕ) (t : Lifecycle.Task) : ℕ := if t.completes then 2 * workers + 8 else 0

/-- A step that changes what the threads share. -/
theorem effect_spends (workers : ℕ) (hrunning : sv.running = false)
    (hidentify : ∀ op, t ≠ .identify op) (h : effect (settling t) sv t = some (sv', new)) :
    sv'.nextSessionId = sv.nextSessionId ∧
      (new.map (lifeSteps workers sv.nextSessionId)).sum + wakeSteps workers t <
        lifeSteps workers sv.nextSessionId t := by
  cases t with
  | identify op => exact absurd rfl (hidentify op)
  | enqueue s closeAfter =>
      simp only [effect, settling, Choice.refuses, Bool.or_true, if_true] at h
      obtain ⟨rfl, rfl⟩ := Prod.mk.inj (Option.some.inj h)
      refine ⟨rfl, ?_⟩
      cases closeAfter <;> simp [lifeSteps, wakeSteps, Task.completes]
  | startNextWrite s =>
      simp only [effect] at h
      split at h <;>
      · obtain ⟨rfl, rfl⟩ := Prod.mk.inj (Option.some.inj h)
        exact ⟨rfl, by simp [lifeSteps, wakeSteps, Task.completes]⟩
  | disconnect s =>
      simp only [effect] at h
      split at h <;>
      · obtain ⟨rfl, rfl⟩ := Prod.mk.inj (Option.some.inj h)
        exact ⟨rfl, by simp [lifeSteps, wakeSteps, Task.completes]⟩
  | stopDisconnect s rest =>
      simp only [effect] at h
      split at h <;>
      · obtain ⟨rfl, rfl⟩ := Prod.mk.inj (Option.some.inj h)
        refine ⟨rfl, ?_⟩
        simp only [lifeSteps, wakeSteps, Task.completes, List.map_cons, List.map_nil, List.sum_cons,
          List.sum_nil, Bool.false_eq_true, if_false]
        omega
  | stop =>
      simp only [effect, hrunning] at h
      obtain ⟨rfl, rfl⟩ := Prod.mk.inj (Option.some.inj h)
      exact ⟨rfl, by simp [lifeSteps, wakeSteps, Task.completes]⟩
  | completeWrite s again =>
      obtain ⟨rfl, rfl⟩ := Prod.mk.inj (Option.some.inj h)
      refine ⟨rfl, ?_⟩
      cases again <;> simp [lifeSteps, wakeSteps, Task.completes] <;> omega
  | createAccept | trackAccept | insert | count | invokeConnect | releaseAccept | newRead | trackRead
  | deliverMessage | releaseRead | completeOperation | newWrite | trackWrite | finishWrite
  | remove | closeSocket | drain | uncount | invokeDisconnect | stopListening =>
      obtain ⟨rfl, rfl⟩ := Prod.mk.inj (Option.some.inj h)
      refine ⟨rfl, ?_⟩
      simp [lifeSteps, wakeSteps, Task.completes] <;> omega
  | _ => cases h

/-- A step of the model without the wait, but for those of the kernel and for a new number. -/
theorem life_spends (workers : ℕ) {o : Outcome Server Lifecycle.Task}
    (hrunning : sv.running = false) (hidentify : ∀ op, t ≠ .identify op)
    (h : Lifecycle.exec config (settling t) t sv = some o) :
    o.shared.nextSessionId = sv.nextSessionId ∧
      ((o.next ++ o.forked.flatten).map (lifeSteps workers sv.nextSessionId)).sum +
          wakeSteps workers t < lifeSteps workers sv.nextSessionId t := by
  rcases eq_or_ne t .outside with rfl | houtside
  · cases h
  · rw [exec_eq config _ sv houtside] at h
    split at h
    · next new hnew =>
        have hwakes : wakeSteps workers t = 0 := by
          cases t with
          | completeOperation | completeWrite => cases hnew
          | _ => rfl
        have hleft := control_spends workers hnew
        rw [hwakes, Nat.add_zero]
        split at h
        · obtain rfl := Option.some.inj h
          exact ⟨rfl, by simpa using hleft⟩
        · obtain rfl := Option.some.inj h
          exact ⟨rfl, by simpa using hleft⟩
    · obtain ⟨r, hr, rfl⟩ := Option.map_eq_some_iff.1 h
      have hleft := effect_spends workers hrunning hidentify hr
      exact ⟨hleft.1, by simpa using hleft.2⟩

/-- `running` is not set again. -/
theorem exec_running {x : Choice} {o : Outcome Server Lifecycle.Task}
    (h : Lifecycle.exec config x t sv = some o) (hrunning : sv.running = false) :
    o.shared.running = false := by
  have hstep := Lifecycle.exec_step h
  generalize o.shared = sv', o.next ++ o.forked.flatten = new at hstep ⊢
  cases hstep with
  | stops => rfl
  | _ => exact hrunning

/-! ### The other threads -/

/-- `Stop` is one thread. -/
theorem stops_le (hrunning : sh.life.running = false) (hwaits : Waits workers sh (p ::ₘ R)) :
    weight Task.stops R ≤ 1 := by
  have hle : weight Task.stops R ≤ weight stopping (lifeTasks sh R) :=
    weight_le_stopping (fun q => by cases q <;> simp [Task.stops, Task.life?, stopping]) sh R
  have hmore : weight stopping (lifeTasks sh R) ≤ weight stopping (lifeTasks sh (p ::ₘ R)) := by
    rw [lifeTasks, lifeTasks, holders_cons, weight_add, weight_add, weight_add]
    omega
  have hstop := hwaits.stop
  rw [hrunning] at hstop
  exact hle.trans (hmore.trans hstop.le)

/-- A step that leaves the numbers and the sleep alone. -/
theorem spends_port {sh' : Shared} {new : List Task}
    (hids : sh'.life.nextSessionId = sh.life.nextSessionId) (hsleeping : sh'.sleeping = sh.sleeping)
    (hless : (new.map (taskSteps workers sh.life.nextSessionId sh.sleeping)).sum +
        (sh'.port.map (portSteps workers)).sum <
      taskSteps workers sh.life.nextSessionId sh.sleeping p + (sh.port.map (portSteps workers)).sum) :
    stepsLeft workers sh' ((new : Multiset Task) + R) < stepsLeft workers sh (p ::ₘ R) := by
  rw [stepsLeft, stepsLeft, hids, hsleeping, weight_add, weight_cons, weight_coe]
  omega

/-- A step that leaves the port alone as well. -/
theorem spends {sh' : Shared} {new : List Task}
    (hids : sh'.life.nextSessionId = sh.life.nextSessionId) (hsleeping : sh'.sleeping = sh.sleeping)
    (hport : sh'.port = sh.port)
    (hless : (new.map (taskSteps workers sh.life.nextSessionId sh.sleeping)).sum <
      taskSteps workers sh.life.nextSessionId sh.sleeping p) :
    stepsLeft workers sh' ((new : Multiset Task) + R) < stepsLeft workers sh (p ::ₘ R) :=
  spends_port hids hsleeping (by rw [hport]; exact Nat.add_lt_add_right hless _)

/-- A new entry of the completion port. -/
theorem spends_posts {entry : Option Lifecycle.Task} {new : List Task}
    (hless : (new.map (taskSteps workers sh.life.nextSessionId sh.sleeping)).sum +
        portSteps workers entry < taskSteps workers sh.life.nextSessionId sh.sleeping p) :
    stepsLeft workers { sh with port := sh.port ++ [entry] } ((new : Multiset Task) + R) <
      stepsLeft workers sh (p ::ₘ R) := by
  refine spends_port rfl rfl ?_
  rw [List.map_append, List.sum_append, List.map_singleton, List.sum_singleton]
  omega

/-- An entry of the completion port less. -/
theorem spends_takes {i : ℕ} {entry : Option Lifecycle.Task} (ended : ℕ) {new : List Task}
    (hget : sh.port[i]? = some entry)
    (hless : (new.map (taskSteps workers sh.life.nextSessionId sh.sleeping)).sum <
      portSteps workers entry) :
    stepsLeft workers { sh with port := sh.port.eraseIdx i, ended := ended }
        ((new : Multiset Task) + R) < stepsLeft workers sh (p ::ₘ R) := by
  obtain ⟨hi, rfl⟩ := List.getElem?_eq_some_iff.1 hget
  have hsum := ((List.getElem_cons_eraseIdx_perm hi).map (portSteps workers)).sum_eq
  rw [List.map_cons, List.sum_cons] at hsum
  refine spends_port rfl rfl ?_
  show _ + ((sh.port.eraseIdx i).map (portSteps workers)).sum < _
  omega

/-- A new number of a session. -/
theorem spends_identifies (op : ℕ) (hrunning : sh.life.running = false)
    (hwaits : Waits workers sh (.life (.identify op) ::ₘ R)) :
    stepsLeft workers
        { sh with life := { sh.life with nextSessionId := sh.life.nextSessionId + 1 } }
        (([.life (.insert op sh.life.nextSessionId)] : List Task) + R) <
      stepsLeft workers sh (.life (.identify op) ::ₘ R) := by
  have hothers : weight (taskSteps workers (sh.life.nextSessionId + 1) sh.sleeping) R ≤
      weight (taskSteps workers sh.life.nextSessionId sh.sleeping) R +
        8 * (shardCount + 1) * weight Task.stops R := by
    refine weight_le_add (fun q => ?_) R
    cases q with
    | life t => exact lifeSteps_succ _ _ t
    | _ => exact Nat.le_add_right _ _
  have hone := Nat.mul_le_mul_left (8 * (shardCount + 1)) (stops_le hrunning hwaits)
  rw [stepsLeft, stepsLeft, weight_add, weight_cons, weight_coe, List.map_singleton,
    List.sum_singleton]
  simp only [taskSteps, lifeSteps]
  omega

/-- A notification. -/
theorem spends_notifyAll (hrunning : sh.life.running = false)
    (hwaits : Waits workers sh (.notifyAll ::ₘ R)) :
    stepsLeft workers { sh with sleeping := false } (([.unlockNotified] : List Task) + R) <
      stepsLeft workers sh (.notifyAll ::ₘ R) := by
  have hothers : weight (taskSteps workers sh.life.nextSessionId false) R ≤
      weight (taskSteps workers sh.life.nextSessionId sh.sleeping) R +
        (2 * workers + 5) * weight Task.stops R := by
    refine weight_le_add (fun q => ?_) R
    cases q with
    | asleep =>
        cases sh.sleeping <;> simp [taskSteps, Task.stops]
        omega
    | _ => exact Nat.le_add_right _ _
  have hone := Nat.mul_le_mul_left (2 * workers + 5) (stops_le hrunning hwaits)
  rw [stepsLeft, stepsLeft, weight_add, weight_cons, weight_coe, List.map_singleton,
    List.sum_singleton]
  simp only [taskSteps]
  omega

/-- `Stop` goes to sleep. -/
theorem spends_sleep :
    stepsLeft workers { sh with locked := false, sleeping := true } (([.asleep] : List Task) + R) <
      stepsLeft workers sh (.sleep ::ₘ R) := by
  have hothers : weight (taskSteps workers sh.life.nextSessionId true) R ≤
      weight (taskSteps workers sh.life.nextSessionId sh.sleeping) R := by
    refine weight_mono (fun q => ?_) R
    cases q with
    | asleep =>
        cases sh.sleeping <;> simp [taskSteps]
    | _ => exact le_rfl
  rw [stepsLeft, stepsLeft, weight_add, weight_cons, weight_coe, List.map_singleton,
    List.sum_singleton]
  simp only [taskSteps, if_true]
  omega

/-- A task of the model without the wait. -/
theorem spends_life {t : Lifecycle.Task} {o : Outcome Shared Task}
    (hrunning : sh.life.running = false) (hwaits : Waits workers sh (.life t ::ₘ R))
    (h : exec config workers (settling t) (.life t) sh = some o) :
    stepsLeft workers o.shared ((o.next ++ o.forked.flatten : List Task) + R) <
      stepsLeft workers sh (.life t ::ₘ R) := by
  have hother : t.inKernel = false → (∀ op, t ≠ .identify op) →
      stepsLeft workers o.shared ((o.next ++ o.forked.flatten : List Task) + R) <
        stepsLeft workers sh (.life t ::ₘ R) := by
    intro hkernel hidentify
    obtain ⟨o', ho', rfl⟩ := Option.map_eq_some_iff.1 h
    obtain ⟨hids, hless⟩ := life_spends workers hrunning hidentify ho'
    simp only [hkernel, Bool.false_eq_true, if_false, ← List.map_flatten, List.append_assoc,
      ← List.map_append]
    refine spends hids rfl rfl ?_
    have hlift : taskSteps workers sh.life.nextSessionId sh.sleeping ∘ lift =
        lifeSteps workers sh.life.nextSessionId := funext (taskSteps_lift _ _ _)
    rw [List.map_append, List.sum_append, List.map_map, hlift]
    have hwakes : ((wakes t sh.life).map (taskSteps workers sh.life.nextSessionId sh.sleeping)).sum ≤
        wakeSteps workers t := by
      unfold wakes wakeSteps
      cases t.completes with
      | true => split <;> simp [taskSteps]
      | false => exact le_rfl
    simp only [taskSteps]
    omega
  cases t with
  | identify op =>
      obtain rfl := Option.some.inj h
      exact spends_identifies op hrunning hwaits
  | accepting | reading | writing =>
      obtain rfl := Option.some.inj h
      show stepsLeft workers _ (([] : List Task) + R) < _
      exact spends_posts (by simp [taskSteps, lifeSteps, portSteps])
  | _ => exact hother rfl (fun op => by rintro ⟨⟩)

/-- `running` is not set again. -/
theorem running_exec {x : Choice} {o : Outcome Shared Task} (h : exec config workers x p sh = some o)
    (hrunning : sh.life.running = false) : o.shared.life.running = false := by
  have hstep := exec_step h
  generalize o.shared = sh', o.next ++ o.forked.flatten = new at hstep ⊢
  cases hstep with
  | lives hexec | completes hexec => exact exec_running hexec hrunning
  | _ => exact hrunning

/-- **A step that begins nothing takes something off what is left**, once `Stop` has cleared
`running`. -/
theorem exec_spends {o : Outcome Shared Task} (hrunning : sh.life.running = false)
    (hport : Handled sh) (hwaits : Waits workers sh (p ::ₘ R))
    (h : exec config workers p.settling p sh = some o) :
    stepsLeft workers o.shared ((o.next ++ o.forked.flatten : List Task) + R) <
      stepsLeft workers sh (p ::ₘ R) := by
  cases p with
  | life t => exact spends_life hrunning hwaits h
  | worker =>
      simp only [exec, Task.settling] at h
      split at h
      · next t hget =>
          obtain rfl := Option.some.inj h
          refine spends_takes sh.ended hget ?_
          rw [portSteps, ← lifeSteps_of_not_last workers sh.life.nextSessionId
            (hport t (List.mem_of_getElem? hget))]
          simp [taskSteps]
      · next hget =>
          obtain rfl := Option.some.inj h
          exact spends_takes _ hget (by simp [portSteps])
      · cases h
  | lockToNotify | lockToWait =>
      simp only [exec] at h
      split at h
      · cases h
      · obtain rfl := Option.some.inj h
        exact spends rfl rfl rfl (by simp [taskSteps])
  | notifyAll =>
      obtain rfl := Option.some.inj h
      exact spends_notifyAll hrunning hwaits
  | sleep =>
      obtain rfl := Option.some.inj h
      exact spends_sleep
  | predicate =>
      obtain rfl := Option.some.inj h
      refine spends rfl rfl rfl ?_
      split <;> simp [taskSteps]
  | asleep =>
      simp only [exec, Task.settling] at h
      split at h
      · next hsleeping =>
          obtain rfl := Option.some.inj h
          refine spends rfl hsleeping.symm rfl ?_
          simp [taskSteps, hsleeping]
      · next hchoice => cases hchoice
      · cases h
  | postCompletions n =>
      cases n with
      | zero =>
          obtain rfl := Option.some.inj h
          exact spends rfl rfl rfl (by simp [taskSteps])
      | succ n =>
          obtain rfl := Option.some.inj h
          refine spends_posts ?_
          simp [taskSteps, portSteps]
          omega
  | join =>
      simp only [exec] at h
      split at h
      · obtain rfl := Option.some.inj h
        exact spends rfl rfl rfl (by simp [taskSteps])
      · cases h
  | stopped => cases h
  | unlockNotified | unlockWaited =>
      obtain rfl := Option.some.inj h
      exact spends rfl rfl rfl (by simp [taskSteps])

end Steps

/-! ### Whole runs -/

/-- The server can get there, and `Stop` has cleared `running` before. -/
def Stopping (config : ServerConfig) (workers : ℕ) (c : Config Shared Task) : Prop :=
  (∃ moves, (program config workers).run moves (start workers) = some c) ∧
    c.shared.life.running = false

section Runs

variable {config : ServerConfig} {workers : ℕ} {c c' : Config Shared Task}

/-- A move that begins nothing. -/
theorem Stopping.move (h : Stopping config workers c) {i : ℕ} {p : Task} {rest : List Task}
    (hget : c.threads[i]? = some (p :: rest))
    (hmove : (program config workers).move c i p.settling = some c') :
    Stopping config workers c' ∧
      stepsLeft workers c'.shared c'.pending < stepsLeft workers c.shared c.pending := by
  obtain ⟨⟨moves, hrun⟩, hrunning⟩ := h
  obtain ⟨q, R, o, ⟨rest', hget'⟩, hexec, hpending, hshared, hnew⟩ := Program.move_pending hmove
  obtain ⟨rfl, -⟩ := List.cons.inj (Option.some.inj (hget'.symm.trans hget))
  have hwaits := waits_run hrun
  rw [hpending] at hwaits ⊢
  refine ⟨⟨⟨moves ++ [(i, q.settling)], ?_⟩, ?_⟩, ?_⟩
  · simp only [Program.run_append, hrun, Option.bind_some, Program.run, hmove]
  · rw [hshared]
    exact running_exec hexec hrunning
  · rw [hshared, hnew, Multiset.coe_add]
    exact exec_spends hrunning (shaped_run hrun).1 hwaits hexec

/-- As long as a thread has something left to do, such a move is there. -/
theorem Stopping.spends (hworkers : 0 < workers) (h : Stopping config workers c)
    (hbusy : ¬∀ p ∈ c.pending, p.idle = true) :
    ∃ i x p rest c', c.threads[i]? = some (p :: rest) ∧
      (program config workers).move c i x = some c' ∧
        (x = p.settling ∧ p ≠ .life .outside) ∧ Stopping config workers c' ∧
          stepsLeft workers c'.shared c'.pending < stepsLeft workers c.shared c.pending := by
  obtain ⟨moves, hrun⟩ := h.1
  obtain ⟨p, hp⟩ := not_forall.1 hbusy
  obtain ⟨hp, hidle⟩ := Classical.not_imp.1 hp
  obtain ⟨i, c', q, rest, hget, hmove, houtside, -⟩ :=
    shutdown_advances config hworkers moves hrun ⟨p, hp, Bool.eq_false_of_not_eq_true hidle⟩
  obtain ⟨hstopping, hless⟩ := h.move hget hmove
  exact ⟨i, q.settling, q, rest, c', hget, hmove, ⟨rfl, houtside⟩, hstopping, hless⟩

/-- When no thread has anything left to do, `Stop` has returned. -/
theorem Stopping.stopped (h : Stopping config workers c) (hidle : ∀ p ∈ c.pending, p.idle = true) :
    .stopped ∈ c.pending := by
  obtain ⟨⟨moves, hrun⟩, hrunning⟩ := h
  have hstop := (waits_run hrun).stop
  rw [hrunning, Bool.toNat_false, Nat.add_zero] at hstop
  obtain ⟨t, ht, hstopping⟩ := exists_of_weight (hstop ▸ Nat.one_ne_zero)
  rcases Multiset.mem_add.1 ht with hheld | hport
  · obtain ⟨p, hp, hlife⟩ := mem_holders.1 hheld
    have hpidle := hidle p hp
    cases p with
    | life u =>
        obtain rfl := Option.some.inj hlife
        cases u with
        | outside => exact absurd rfl hstopping
        | _ => cases hpidle
    | stopped => exact hp
    | worker => cases hlife
    | _ => cases hpidle
  · -- what the completion port holds is for a worker
    obtain ⟨entry, hentry, rfl⟩ := List.mem_filterMap.1 (Multiset.mem_coe.1 hport)
    have hlast := (shaped_run hrun).1 t hentry
    cases t with
    | stopListening | snapshot | stopLoop | stopDisconnect | stopWait | stopped => cases hlast
    | _ => exact absurd rfl hstopping

/-- **`Stop` can be brought to its end**, by steps of the threads with which nothing new is
begun. -/
theorem Stopping.ends (hworkers : 0 < workers) (h : Stopping config workers c) :
    ∃ moves c', (program config workers).run moves c = some c' ∧
      (program config workers).AllMeet (fun x p _ _ => x = p.settling ∧ p ≠ .life .outside)
        moves c ∧
      .stopped ∈ c'.pending ∧ ∀ p ∈ c'.pending, p.idle = true := by
  obtain ⟨moves, c', hrun, hmeets, hstopping, hidle⟩ :=
    Program.exists_run_of_spends (fun x p _ => x = p.settling ∧ p ≠ .life .outside)
      (Stopping config workers) (fun d => ∀ p ∈ d.pending, p.idle = true)
      (fun d => stepsLeft workers d.shared d.pending) (fun d hd => hd.spends hworkers) h
  exact ⟨moves, c', hrun, hmeets, hstopping.stopped hidle, hidle⟩

end Runs

end ShutdownWait

end RealtimeEngine
