/-
**The server does not deadlock, and `Stop` does not either.**

Only three things can hold a thread up: `outstanding_mutex`, the sleep of `Stop`, and its join of the
workers.  The mutex is given back by a thread that never waits while it holds it.  When `Stop`
sleeps, some operation is outstanding, or somebody is about to notify it; an operation that is
outstanding is with a thread, in the kernel, or in the completion port, and then some worker will
take it.  When `Stop` joins the workers, those that have not returned have a completion each.

So as long as some thread has something left to do, some thread can take a step, and for that
neither a call from outside nor a spurious wake-up is needed.

What decides which thread can go on is the top of its stack.  What is below the top is what a
handler does next, or the loop of a worker.

Main definitions:

* `RealtimeEngine.ShutdownWait.Task.last` — a task with nothing below it;
* `RealtimeEngine.ShutdownWait.Shaped` — the shape of a stack;
* `RealtimeEngine.ShutdownWait.Task.settling` — how a step is decided so that nothing new is begun;
* `RealtimeEngine.ShutdownWait.Advances` — some thread can take such a step of its own.

Main results:

* `RealtimeEngine.ShutdownWait.exec_enabled` — a thread of the model without the wait is not held up;
* `RealtimeEngine.ShutdownWait.shaped_run` — every stack has its shape, in every run;
* `RealtimeEngine.ShutdownWait.shutdown_advances` — **there is no deadlock**.
-/

import RealtimeEngine.ShutdownWait

set_option relaxedAutoImplicit false
set_option autoImplicit false

namespace RealtimeEngine

namespace ShutdownWait

open Interleaving Lifecycle

/-! ### What is not held up -/

/-- What a step does, but for the arrivals. -/
theorem exec_eq (config : ServerConfig) (x : Choice) (sv : Server) {t : Lifecycle.Task}
    (houtside : t ≠ .outside) :
    Lifecycle.exec config x t sv =
      match Lifecycle.control config x sv t with
      | some new =>
          if new.any Task.inKernel then some ⟨sv, [], [new]⟩ else some ⟨sv, new, []⟩
      | none => (effect x sv t).map fun r => ⟨r.1, r.2, []⟩ := by
  cases t with
  | outside => exact absurd rfl houtside
  | _ => rfl

/-- What is left open at a step is decided so that nothing new is begun: a call fails, the kernel
completes an operation without success, and `ProcessIncoming` finds nothing to do. -/
def settling : Lifecycle.Task → Choice
  | .accepting _ | .reading _ _ | .writing _ _ _ => .completes false
  | .createAccept | .postAccept _ _ | .associate _ | .reaccept _ | .newRead _ | .receive _ _ _
  | .enqueue _ _ | .newWrite _ _ | .wsaSend _ _ _ _ | .send _ | .close _ | .timer _ => .fails
  | .stopLoop (_ :: _) => .picks 0
  | _ => .passes

/-- **A thread of the model without the wait is not held up**, but for the wait. -/
theorem exec_enabled (config : ServerConfig) (sv : Server) {t : Lifecycle.Task}
    (houtside : t ≠ .outside) (hwait : t ≠ .stopWait) (hstopped : t ≠ .stopped) :
    ∃ o, Lifecycle.exec config (settling t) t sv = some o := by
  have hcontrol : ∀ new, Lifecycle.control config (settling t) sv t = some new →
      ∃ o, Lifecycle.exec config (settling t) t sv = some o := by
    intro new hnew
    refine ⟨if new.any Task.inKernel then ⟨sv, [], [new]⟩ else ⟨sv, new, []⟩, ?_⟩
    rw [exec_eq config _ sv houtside, hnew]
    exact (apply_ite some _ _ _).symm
  have heffect : ∀ r, Lifecycle.control config (settling t) sv t = none →
      effect (settling t) sv t = some r →
        ∃ o, Lifecycle.exec config (settling t) t sv = some o := by
    intro r hnone hr
    refine ⟨⟨r.1, r.2, []⟩, ?_⟩
    rw [exec_eq config _ sv houtside, hnone, hr]
    rfl
  cases t with
  | outside => exact absurd rfl houtside
  | stopWait => exact absurd rfl hwait
  | stopped => exact absurd rfl hstopped
  | handleWrite s op closeAfter good => cases good <;> exact hcontrol _ rfl
  | stopLoop found => cases found <;> exact hcontrol _ rfl
  | accepting | reading | writing | postNewAccept | postAccept | handleAccept | checkLimit
  | associate | nextAccept | reaccept | postRead | receive | handleRead | processIncoming
  | testMessage | repost | repostRunning | postWrite | wsaSend | send | close | timer
  | snapshot => exact hcontrol _ rfl
  | startNextWrite s =>
      cases hqueue : (sv.sessions s).sendQueue with
      | nil => exact heffect _ rfl (by simp only [effect, hqueue]; rfl)
      | cons item queue => exact heffect _ rfl (by simp only [effect, hqueue]; rfl)
  | enqueue s closeAfter =>
      exact heffect _ rfl (by simp only [effect, settling, Choice.refuses, Bool.or_true]; rfl)
  | disconnect s | stopDisconnect s rest =>
      cases hstarted : (sv.sessions s).disconnectStarted with
      | true => exact heffect _ rfl (by simp only [effect, hstarted]; rfl)
      | false => exact heffect _ rfl (by simp only [effect, hstarted]; rfl)
  | stop =>
      cases hrunning : sv.running with
      | true => exact heffect _ rfl (by simp only [effect, hrunning]; rfl)
      | false => exact heffect _ rfl (by simp only [effect, hrunning]; rfl)
  | _ => exact heffect _ rfl rfl

/-! ### The shape of a stack -/

/-- Nothing is below the task in its stack. -/
def Task.last : Task → Bool
  | .life t =>
      match t with
      | .outside | .stop | .stopListening | .snapshot _ _ | .stopLoop _ | .stopDisconnect _ _
      | .stopWait | .stopped => true
      | _ => false
  | .lockToNotify | .notifyAll | .unlockNotified => false
  | _ => true

/-- The task may be below another one. -/
def Task.below : Task → Bool
  | .life _ | .worker => true
  | _ => false

/-- The tasks that the wait is made of do not occur as those of the model without it. -/
def Task.proper : Task → Bool
  | .life .stopWait | .life .stopped => false
  | _ => true

/-- **The shape of a stack.** -/
def Shaped : List Task → Prop
  | [] => True
  | p :: rest =>
      p.proper = true ∧ (p.last = true → rest = []) ∧ (∀ q ∈ rest, q.below = true) ∧ Shaped rest

/-- What the completion port holds is for a worker. -/
def Handled (sh : Shared) : Prop := ∀ t, some t ∈ sh.port → (Task.life t).last = false

theorem proper_of_not_last {p : Task} (h : p.last = false) : p.proper = true := by
  cases p with
  | life t =>
      cases t with
      | stopWait | stopped => cases h
      | _ => rfl
  | _ => rfl

theorem lift_of_not_last {t : Lifecycle.Task} (h : (Task.life t).last = false) :
    lift t = .life t := by
  cases t with
  | stopWait => cases h
  | _ => rfl

theorem shaped_singleton {p : Task} (h : p.proper = true) : Shaped [p] :=
  ⟨h, fun _ => rfl, fun _ hq => absurd hq List.not_mem_nil, trivial⟩

/-- A task that is not the last of its stack on top of others. -/
theorem shaped_cons {p : Task} {rest : List Task} (hp : p.last = false)
    (hbelow : ∀ q ∈ rest, q.below = true) (hrest : Shaped rest) : Shaped (p :: rest) :=
  ⟨proper_of_not_last hp, fun hlast => absurd (hp.symm.trans hlast) Bool.false_ne_true, hbelow,
    hrest⟩

/-- What a handler does next, on top of what is below it. -/
theorem shaped_map_lift {l : List Lifecycle.Task} {rest : List Task}
    (hl : ∀ t ∈ l, (Task.life t).last = false) (hbelow : ∀ q ∈ rest, q.below = true)
    (hrest : Shaped rest) :
    Shaped (l.map lift ++ rest) ∧ ∀ q ∈ l.map lift ++ rest, q.below = true := by
  induction l with
  | nil => exact ⟨hrest, hbelow⟩
  | cons t l ih =>
      obtain ⟨hshaped, hall⟩ := ih fun u hu => hl u (List.mem_cons_of_mem t hu)
      have ht := hl t List.mem_cons_self
      rw [List.map_cons, List.cons_append, lift_of_not_last ht]
      exact ⟨shaped_cons ht hall hshaped, List.forall_mem_cons.2 ⟨rfl, hall⟩⟩

section Steps

variable {config : ServerConfig} {workers : ℕ} {x : Choice} {sh : Shared}

/-- A handler goes on with tasks of a handler. -/
theorem step_last {t : Lifecycle.Task} {sv sv' : Server} {new : List Lifecycle.Task}
    (hstep : Lifecycle.Step config sv t sv' new) (ht : (Task.life t).last = false) :
    ∀ u ∈ new, (Task.life u).last = false := by
  have hone : ∀ {u : Lifecycle.Task}, (Task.life u).last = false →
      ∀ v ∈ [u], (Task.life v).last = false := by
    intro u hu
    exact List.forall_mem_singleton.2 hu
  have htwo : ∀ {u v : Lifecycle.Task}, (Task.life u).last = false → (Task.life v).last = false →
      ∀ w ∈ [u, v], (Task.life w).last = false := by
    intro u v hu hv
    exact List.forall_mem_cons.2 ⟨hu, hone hv⟩
  have hnone : ∀ v ∈ ([] : List Lifecycle.Task), (Task.life v).last = false :=
    fun v hv => absurd hv List.not_mem_nil
  cases hstep with
  | arrives | stops | stopsListening | skips | stopsSession | alreadyStopped => cases ht
  | moves hmoves =>
      cases hmoves with
      | noPeer s op posted | notReading s op posted => cases posted <;> exact htwo rfl rfl
      | sweeps | swept | picks | waits | stops => cases ht
      | badRead | disconnects | closes | queues | disconnected | notRunning => exact htwo rfl rfl
      | notCreated | notSent | notClosed | notDue => exact hnone
      | _ => exact hone rfl
  | refuses s closeAfter =>
      cases closeAfter with
      | true => exact hone rfl
      | false => exact hnone
  | enqueues s closeAfter =>
      split
      · exact hnone
      · exact hone rfl
  | completesWrite s again => cases again <;> exact hone rfl
  | invokesConnect => exact htwo rfl rfl
  | noAccept | completes | idles | alreadyDisconnected | invokesDisconnect => exact hnone
  | _ => exact hone rfl

/-- A task of `Stop` does not start a thread. -/
theorem forked_of_last {t : Lifecycle.Task} {sv : Server} {o : Outcome Server Lifecycle.Task}
    (h : Lifecycle.exec config x t sv = some o) (houtside : t ≠ .outside)
    (hlast : (Task.life t).last = true) : o.forked = [] := by
  rw [exec_eq config x sv houtside] at h
  split at h
  · next new hnew =>
      have hmoves := control_moves hnew
      split at h
      · next hkernel =>
          cases hmoves with
          | sweeps | swept | picks | waits | stops => cases hkernel
          | _ => cases hlast
      · obtain rfl := Option.some.inj h
        rfl
  · obtain ⟨r, -, rfl⟩ := Option.map_eq_some_iff.1 h
    rfl

/-- The tasks of `Stop`, and the arrivals, are alone in their stacks. -/
theorem shaped_last {t : Lifecycle.Task} {sv : Server} {o : Outcome Server Lifecycle.Task}
    (h : Lifecycle.exec config x t sv = some o) (hlast : (Task.life t).last = true)
    (hproper : (Task.life t).proper = true) :
    Shaped (wakes t sv ++ o.next.map lift) ∧
      ∀ stack ∈ o.forked.map (fun stack => stack.map lift), Shaped stack := by
  rcases eq_or_ne t .outside with rfl | houtside
  · obtain ⟨u, hu, rfl⟩ := Option.map_eq_some_iff.1 h
    refine ⟨shaped_singleton rfl, List.forall_mem_singleton.2 (shaped_singleton ?_)⟩
    obtain rfl | ⟨s, rfl⟩ | ⟨s, rfl⟩ | ⟨s, rfl, -⟩ | rfl := arrival_cases hu <;> rfl
  · have hforked := forked_of_last h houtside hlast
    have hstep := Lifecycle.exec_step h
    rw [hforked, List.flatten_nil, List.append_nil] at hstep
    rw [hforked]
    refine ⟨?_, fun stack hstack => absurd hstack List.not_mem_nil⟩
    generalize o.shared = sv', o.next = new at hstep
    cases hstep with
    | arrives => exact absurd rfl houtside
    | moves hmoves =>
        cases hmoves with
        | sweeps | swept | picks | waits => exact shaped_singleton rfl
        | stops => cases hproper
        | _ => cases hlast
    | alreadyStopped => trivial
    | stops | stopsListening | skips => exact shaped_singleton rfl
    | stopsSession =>
        exact shaped_cons rfl (List.forall_mem_singleton.2 rfl) (shaped_singleton rfl)
    | _ => cases hlast

/-- **A step keeps the shape of its stack.** -/
theorem shaped_exec {p : Task} {rest : List Task} {o : Outcome Shared Task}
    (h : exec config workers x p sh = some o) (hport : Handled sh) (hS : Shaped (p :: rest)) :
    Handled o.shared ∧ Shaped (o.next ++ rest) ∧ ∀ stack ∈ o.forked, Shaped stack := by
  obtain ⟨hproper, hlast, hbelow, hrest⟩ := hS
  have hnone : ∀ stack ∈ ([] : List (List Task)), Shaped stack :=
    fun stack hstack => absurd hstack List.not_mem_nil
  -- a task that is the last of its stack goes on with another one
  have hone : ∀ {q : Task}, p.last = true → q.proper = true → Shaped ([q] ++ rest) := by
    intro q hp hq
    rw [hlast hp]
    exact shaped_singleton hq
  have herase : ∀ i, ∀ t, some t ∈ sh.port.eraseIdx i → (Task.life t).last = false :=
    fun i t ht => hport t (List.mem_of_mem_eraseIdx ht)
  cases p with
  | life t =>
      obtain ⟨o', ho', rfl⟩ := Option.map_eq_some_iff.1 h
      have hnew := fun ht => step_last (Lifecycle.exec_step ho') ht
      cases hkernel : t.inKernel with
      | true =>
          have ht : (Task.life t).last = false := by
            cases t with
            | accepting | reading | writing => rfl
            | _ => cases hkernel
          refine ⟨fun u hu => ?_, hrest, hnone⟩
          rcases List.mem_append.1 hu with hold | hcompleted
          · exact hport u hold
          · obtain ⟨v, hv, hvu⟩ := List.mem_map.1 hcompleted
            rw [← Option.some.inj hvu]
            exact hnew ht v (List.mem_append_left _ hv)
      | false =>
          cases ht : (Task.life t).last with
          | true =>
              rw [hlast ht]
              simp only [Bool.false_eq_true, if_false, List.append_nil]
              exact ⟨hport, shaped_last ho' ht hproper⟩
          | false =>
              have hnext := shaped_map_lift (fun u hu => hnew ht u (List.mem_append_left _ hu))
                hbelow hrest
              refine ⟨hport, ?_, fun stack hstack => ?_⟩
              · simp only [Bool.false_eq_true, if_false, List.append_assoc]
                unfold wakes
                split
                · exact shaped_cons rfl hnext.2 hnext.1
                · exact hnext.1
              · obtain ⟨l, hl, rfl⟩ := List.mem_map.1 hstack
                have hempty : ∀ q ∈ ([] : List Task), q.below = true :=
                  fun q hq => absurd hq List.not_mem_nil
                have hforked := (shaped_map_lift (fun u hu => hnew ht u
                  (List.mem_append_right _ (List.mem_flatten.2 ⟨l, hl, hu⟩))) hempty trivial).1
                rwa [List.append_nil] at hforked
  | worker =>
      simp only [exec] at h
      split at h
      · split at h
        · next i t hget =>
            obtain rfl := Option.some.inj h
            rw [hlast rfl]
            exact ⟨herase _, shaped_cons (hport t (List.mem_of_getElem? hget))
              (List.forall_mem_singleton.2 rfl) (shaped_singleton rfl), hnone⟩
        · obtain rfl := Option.some.inj h
          rw [hlast rfl]
          exact ⟨herase _, trivial, hnone⟩
        · cases h
      · cases h
  | lockToNotify =>
      simp only [exec] at h
      split at h
      · cases h
      · obtain rfl := Option.some.inj h
        exact ⟨hport, shaped_cons rfl hbelow hrest, hnone⟩
  | notifyAll =>
      obtain rfl := Option.some.inj h
      exact ⟨hport, shaped_cons rfl hbelow hrest, hnone⟩
  | unlockNotified =>
      obtain rfl := Option.some.inj h
      exact ⟨hport, hrest, hnone⟩
  | lockToWait =>
      simp only [exec] at h
      split at h
      · cases h
      · obtain rfl := Option.some.inj h
        exact ⟨hport, hone rfl rfl, hnone⟩
  | predicate =>
      obtain rfl := Option.some.inj h
      refine ⟨hport, hone rfl ?_, hnone⟩
      split <;> rfl
  | asleep =>
      simp only [exec] at h
      split at h
      · obtain rfl := Option.some.inj h
        exact ⟨hport, hone rfl rfl, hnone⟩
      · obtain rfl := Option.some.inj h
        exact ⟨hport, hone rfl rfl, hnone⟩
      · cases h
  | postCompletions n =>
      cases n with
      | zero =>
          obtain rfl := Option.some.inj h
          exact ⟨hport, hone rfl rfl, hnone⟩
      | succ n =>
          obtain rfl := Option.some.inj h
          refine ⟨fun t ht => hport t ?_, hone rfl rfl, hnone⟩
          rcases List.mem_append.1 ht with hold | hnew
          · exact hold
          · cases List.mem_singleton.1 hnew
  | join =>
      simp only [exec] at h
      split at h
      · obtain rfl := Option.some.inj h
        exact ⟨hport, hone rfl rfl, hnone⟩
      · cases h
  | stopped => cases h
  | sleep | unlockWaited =>
      obtain rfl := Option.some.inj h
      exact ⟨hport, hone rfl rfl, hnone⟩

end Steps

/-! ### Whole runs -/

theorem shaped_run {config : ServerConfig} {workers : ℕ} {moves : List (ℕ × Choice)}
    {c : Config Shared Task} (hrun : (program config workers).run moves (start workers) = some c) :
    Handled c.shared ∧ ∀ stack ∈ c.threads, Shaped stack := by
  refine Program.invariant_threads (I := Handled) (S := Shaped)
    (fun x p rest sh o h hI hS => shaped_exec h hI hS) moves ?_ ?_ hrun
  · exact fun t ht => absurd ht List.not_mem_nil
  · refine List.forall_mem_cons.2 ⟨shaped_singleton rfl, fun stack hstack => ?_⟩
    rw [List.eq_of_mem_replicate hstack]
    exact shaped_singleton rfl

/-- The task is on top of its stack. -/
theorem eq_cons_of_shaped {p : Task} {stack : List Task} (h : Shaped stack) (hp : p ∈ stack)
    (hbelow : p.below = false) : ∃ rest, stack = p :: rest := by
  cases stack with
  | nil => cases hp
  | cons q rest =>
      obtain ⟨-, -, hrest, -⟩ := h
      rcases List.mem_cons.1 hp with rfl | hin
      · exact ⟨rest, rfl⟩
      · exact absurd (hbelow.symm.trans (hrest p hin)) Bool.false_ne_true

/-- The task is on top of its stack, or what is on top may have something below it. -/
theorem eq_cons_or_of_shaped {p : Task} {stack : List Task} (h : Shaped stack) (hp : p ∈ stack) :
    ∃ q rest, stack = q :: rest ∧ (q = p ∨ q.last = false) := by
  cases stack with
  | nil => cases hp
  | cons q rest =>
      obtain ⟨-, hlast, -, -⟩ := h
      refine ⟨q, rest, rfl, ?_⟩
      rcases List.mem_cons.1 hp with rfl | hin
      · exact Or.inl rfl
      · cases hq : q.last with
        | false => exact Or.inr rfl
        | true =>
            rw [hlast hq] at hin
            cases hin

/-- What is left open at a step is decided so that nothing new is begun; no wake-up is spurious. -/
def Task.settling : Task → Choice
  | .life t => ShutdownWait.settling t
  | .worker => .picks 0
  | _ => .passes

/-- **Some thread can take a step** with which nothing new is begun, and it is neither a call from
outside nor a spurious wake-up. -/
def Advances (config : ServerConfig) (workers : ℕ) (c : Config Shared Task) : Prop :=
  ∃ i c' p rest, c.threads[i]? = some (p :: rest) ∧
    (program config workers).move c i p.settling = some c' ∧ p ≠ .life .outside ∧
    (p = .asleep → c.shared.sleeping = false)

/-- The thread has nothing left to do. -/
def Task.idle : Task → Bool
  | .life .outside | .worker | .stopped => true
  | _ => false

section Advances

variable {config : ServerConfig} {workers : ℕ} {c : Config Shared Task}

theorem advances_of_exec {i : ℕ} {p : Task} {rest : List Task}
    (hget : c.threads[i]? = some (p :: rest))
    (ho : (exec config workers p.settling p c.shared).isSome = true) (hp : p ≠ .life .outside)
    (hasleep : p = .asleep → c.shared.sleeping = false) : Advances config workers c := by
  obtain ⟨o, ho⟩ := Option.isSome_iff_exists.1 ho
  refine ⟨i, ⟨o.shared, c.threads.set i (o.next ++ rest) ++ o.forked⟩, p, rest, hget, ?_, hp,
    hasleep⟩
  rw [Program.move, hget]
  simp only [program, ho, Option.map_some]

/-- The owner of the mutex does not wait. -/
theorem advances_of_locked (hwaits : Waits workers c.shared c.pending)
    (hshaped : ∀ stack ∈ c.threads, Shaped stack) (hlocked : c.shared.locked = true) :
    Advances config workers c := by
  have hholds : weight Task.holds c.pending ≠ 0 := by
    rw [hwaits.locked, hlocked]
    exact Nat.one_ne_zero
  obtain ⟨p, hp, hholds⟩ := exists_of_weight hholds
  obtain ⟨i, stack, hget, hin⟩ := Program.exists_thread hp
  have hbelow : p.below = false := by
    cases p with
    | life | worker => exact absurd rfl hholds
    | _ => rfl
  obtain ⟨rest, rfl⟩ := eq_cons_of_shaped (hshaped _ (List.mem_of_getElem? hget)) hin hbelow
  cases p with
  | notifyAll | unlockNotified | predicate | sleep | unlockWaited =>
      exact advances_of_exec hget rfl (fun h => Task.noConfusion h) (fun h => Task.noConfusion h)
  | _ => exact absurd rfl hholds

/-- A thread of the model without the wait. -/
theorem advances_of_life {i : ℕ} {t : Lifecycle.Task} {rest : List Task}
    (hget : c.threads[i]? = some (.life t :: rest)) (hproper : (Task.life t).proper = true)
    (houtside : t ≠ .outside) : Advances config workers c := by
  have hwait : t ≠ .stopWait ∧ t ≠ .stopped := by
    refine ⟨?_, ?_⟩ <;>
      · rintro rfl
        cases hproper
  obtain ⟨o, ho⟩ := exec_enabled config c.shared.life houtside hwait.1 hwait.2
  refine advances_of_exec hget ?_ (fun h => houtside (Task.life.inj h)) (fun h => Task.noConfusion h)
  simp only [exec, Task.settling, ho, Option.map_some, Option.isSome_some]

/-- A thread that may have something below its top is at most held up by the mutex. -/
theorem advances_of_not_last (hwaits : Waits workers c.shared c.pending)
    (hshaped : ∀ stack ∈ c.threads, Shaped stack) {i : ℕ} {p : Task} {rest : List Task}
    (hget : c.threads[i]? = some (p :: rest)) (hlast : p.last = false) :
    Advances config workers c := by
  cases p with
  | life t =>
      refine advances_of_life hget (proper_of_not_last hlast) ?_
      rintro rfl
      cases hlast
  | lockToNotify =>
      cases hlocked : c.shared.locked with
      | true => exact advances_of_locked hwaits hshaped hlocked
      | false =>
          refine advances_of_exec hget ?_ (fun h => Task.noConfusion h) (fun h => Task.noConfusion h)
          simp only [exec, hlocked]
          rfl
  | notifyAll | unlockNotified =>
      exact advances_of_exec hget rfl (fun h => Task.noConfusion h) (fun h => Task.noConfusion h)
  | _ => cases hlast

/-- A worker that has not returned takes what is in the completion port, or is busy. -/
theorem advances_of_worker (hwaits : Waits workers c.shared c.pending)
    (hshaped : ∀ stack ∈ c.threads, Shaped stack) (hended : c.shared.ended ≠ workers)
    (hport : c.shared.port ≠ []) : Advances config workers c := by
  have hworks : weight Task.works c.pending ≠ 0 := by
    intro hnone
    have h := hwaits.works
    rw [hnone, zero_add] at h
    exact hended h
  obtain ⟨p, hp, hworks⟩ := exists_of_weight hworks
  obtain rfl : p = .worker := by
    cases p with
    | worker => rfl
    | _ => exact absurd rfl hworks
  obtain ⟨i, stack, hget, hin⟩ := Program.exists_thread hp
  obtain ⟨q, rest, rfl, rfl | hq⟩ :=
    eq_cons_or_of_shaped (hshaped _ (List.mem_of_getElem? hget)) hin
  · obtain ⟨a, port, hcons⟩ := List.exists_cons_of_ne_nil hport
    have hfirst : c.shared.port[0]? = some a := by rw [hcons, List.getElem?_cons_zero]
    refine advances_of_exec hget ?_ (fun h => Task.noConfusion h) (fun h => Task.noConfusion h)
    cases a <;> simp only [exec, Task.settling, hfirst, Option.isSome_some]
  · exact advances_of_not_last hwaits hshaped hget hq

/-- While one thread is in `Stop`, no other one is behind the wait. -/
theorem passed_alone {p : Task} {R : Multiset Task} (hwaits : Waits workers c.shared (p ::ₘ R))
    (hp : p.life? = some .stopWait ∨ p.life? = some .stopped) : weight Task.passed R = 0 := by
  have hle := passed_le c.shared R
  have hstop := hwaits.stop
  have hcons : ∀ t, p.life? = some t →
      lifeTasks c.shared (p ::ₘ R) = t ::ₘ lifeTasks c.shared R := by
    intro t ht
    rw [lifeTasks, lifeTasks, holders_cons_some ht, Multiset.cons_add]
  rcases hp with hp | hp
  · rw [hcons _ hp, weight_cons] at hstop
    simp only [stopping] at hstop
    omega
  · rw [hcons _ hp, weight_cons] at hstop
    simp only [stopping] at hstop
    omega

/-- `Stop` sleeps, and nobody has notified it yet. -/
theorem advances_of_asleep (hworkers : 0 < workers) (hwaits : Waits workers c.shared c.pending)
    (hshaped : ∀ stack ∈ c.threads, Shaped stack) (hasleep : .asleep ∈ c.pending)
    (hsleeping : c.shared.sleeping = true) : Advances config workers c := by
  by_cases hzero : c.shared.life.outstandingOperations = 0
  · -- somebody is about to notify it
    obtain ⟨p, hp, hnotifies⟩ := exists_of_weight (hwaits.woken hzero (by rw [hsleeping]; simp))
    obtain ⟨i, stack, hget, hin⟩ := Program.exists_thread hp
    have hp : p.below = false ∧ p.last = false := by
      cases p with
      | lockToNotify | notifyAll => exact ⟨rfl, rfl⟩
      | _ => exact absurd rfl hnotifies
    obtain ⟨rest, rfl⟩ := eq_cons_of_shaped (hshaped _ (List.mem_of_getElem? hget)) hin hp.1
    exact advances_of_not_last hwaits hshaped hget hp.2
  · -- an operation is with a thread, in the kernel, or in the port
    rw [hwaits.operations.tracked] at hzero
    have htracked : ∃ t ∈ lifeTasks c.shared c.pending, t.tracked = true := by
      by_contra hnot
      refine hzero (weight_eq_zero fun t ht => ?_)
      rw [Bool.eq_false_of_not_eq_true fun h => hnot ⟨t, ht, h⟩]
      rfl
    obtain ⟨t, ht, htracked⟩ := htracked
    rcases Multiset.mem_add.1 ht with hheld | hport
    · obtain ⟨p, hp, hlife⟩ := mem_holders.1 hheld
      obtain rfl : p = .life t := by
        cases p with
        | life u => rw [Option.some.inj hlife]
        | lockToWait | predicate | sleep | asleep | unlockWaited | postCompletions | join
        | stopped =>
            rw [← Option.some.inj hlife] at htracked
            cases htracked
        | _ => cases hlife
      obtain ⟨i, stack, hget, hin⟩ := Program.exists_thread hp
      have hlast : (Task.life t).last = false := by
        cases t with
        | outside | stop | stopListening | snapshot | stopLoop | stopDisconnect | stopWait
        | stopped => cases htracked
        | _ => rfl
      obtain ⟨q, rest, rfl, rfl | hq⟩ :=
        eq_cons_or_of_shaped (hshaped _ (List.mem_of_getElem? hget)) hin
      · exact advances_of_not_last hwaits hshaped hget hlast
      · exact advances_of_not_last hwaits hshaped hget hq
    · -- the workers are there as long as `Stop` waits
      have hnotpassed : weight Task.passed c.pending = 0 := by
        obtain ⟨R, hR⟩ := Multiset.exists_cons_of_mem hasleep
        rw [hR] at hwaits ⊢
        rw [weight_cons, passed_alone hwaits (Or.inl rfl)]
        rfl
      have hended : c.shared.ended = 0 := by
        have hposted := hwaits.posted
        rw [hnotpassed, Nat.mul_zero] at hposted
        omega
      refine advances_of_worker hwaits hshaped (by omega) fun hempty => ?_
      rw [hempty] at hport
      cases hport

/-- `Stop` joins the workers: a worker that has not returned has its completion in the port. -/
theorem advances_of_join (hwaits : Waits workers c.shared c.pending)
    (hshaped : ∀ stack ∈ c.threads, Shaped stack) (hjoin : .join ∈ c.pending)
    (hended : c.shared.ended ≠ workers) : Advances config workers c := by
  refine advances_of_worker hwaits hshaped hended fun hempty => hended ?_
  have hposted := hwaits.posted
  obtain ⟨R, hR⟩ := Multiset.exists_cons_of_mem hjoin
  rw [hR] at hwaits hposted
  have hpassed := passed_alone hwaits (Or.inr rfl)
  have howed : weight Task.owed R = 0 := by
    refine weight_eq_zero fun p hp => ?_
    have hle : p.passed ≤ weight Task.passed R := le_weight hp
    rw [hpassed] at hle
    cases p with
    | postCompletions n => cases hle
    | _ => rfl
  rw [hempty, weight_cons, weight_cons, hpassed, howed] at hposted
  simpa [Task.passed, Task.owed] using hposted

end Advances

/-- **There is no deadlock**, in any run: as long as some thread has something left to do, some
thread can take a step of its own. -/
theorem shutdown_advances (config : ServerConfig) {workers : ℕ} (hworkers : 0 < workers)
    (moves : List (ℕ × Choice)) {c : Config Shared Task}
    (hrun : (program config workers).run moves (start workers) = some c)
    (hbusy : ∃ p ∈ c.pending, p.idle = false) : Advances config workers c := by
  have hwaits := waits_run hrun
  obtain ⟨-, hshaped⟩ := shaped_run hrun
  obtain ⟨p, hp, hidle⟩ := hbusy
  obtain ⟨i, stack, hget, hin⟩ := Program.exists_thread hp
  obtain ⟨q, rest, rfl, rfl | hq⟩ :=
    eq_cons_or_of_shaped (hshaped _ (List.mem_of_getElem? hget)) hin
  swap
  · exact advances_of_not_last hwaits hshaped hget hq
  obtain ⟨hproper, -⟩ := hshaped _ (List.mem_of_getElem? hget)
  cases q with
  | life t =>
      refine advances_of_life hget hproper ?_
      rintro rfl
      cases hidle
  | worker | stopped => cases hidle
  | lockToNotify | notifyAll | unlockNotified =>
      exact advances_of_not_last hwaits hshaped hget rfl
  | lockToWait =>
      cases hlocked : c.shared.locked with
      | true => exact advances_of_locked hwaits hshaped hlocked
      | false =>
          refine advances_of_exec hget ?_ (fun h => Task.noConfusion h) (fun h => Task.noConfusion h)
          simp only [exec, hlocked]
          rfl
  | asleep =>
      cases hsleeping : c.shared.sleeping with
      | true => exact advances_of_asleep hworkers hwaits hshaped hp hsleeping
      | false =>
          refine advances_of_exec hget ?_ (fun h => Task.noConfusion h) (fun _ => hsleeping)
          simp only [exec, hsleeping]
          rfl
  | postCompletions n =>
      refine advances_of_exec hget ?_ (fun h => Task.noConfusion h) (fun h => Task.noConfusion h)
      cases n <;> rfl
  | join =>
      by_cases hended : c.shared.ended = workers
      · refine advances_of_exec hget ?_ (fun h => Task.noConfusion h) (fun h => Task.noConfusion h)
        simp only [exec, if_pos hended, Option.isSome_some]
      · exact advances_of_join hwaits hshaped hp hended
  | predicate | sleep | unlockWaited =>
      exact advances_of_exec hget rfl (fun h => Task.noConfusion h) (fun h => Task.noConfusion h)

end ShutdownWait

end RealtimeEngine
