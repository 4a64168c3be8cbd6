/-
**The server refines the outbound path.**

The outbound actions among the pending tasks of the server, with the callers of `Enqueue` and
`Disconnect` that may still come, are a state of the outbound path: every step of the server is a
number of steps of that path, or none.  So what is proved there about every reachable state holds
for the server.

* `RealtimeEngine.ServerSteps.Step.session` — a thread stays with its session;
* `RealtimeEngine.ServerSteps.Step.frame` — a step leaves the sessions of other tasks alone;
* `RealtimeEngine.ServerSteps.outActions` — the outbound actions among the pending tasks;
* `RealtimeEngine.ServerSteps.Refines.step`, `RealtimeEngine.ServerSteps.run_reachable` — **every
  run of the server is one of the outbound path**.
-/

import RealtimeEngine.ServerSteps

set_option relaxedAutoImplicit false
set_option autoImplicit false

namespace RealtimeEngine

namespace ServerSteps

open Interleaving

variable {ι : Type*}

/-! ### Frames -/

/-- A task that comes from outside. -/
def Task.arrives : Task ι → Bool
  | .accept _ | .send _ _ | .close _ _ _ | .timer _ | .out (.disconnect _) => true
  | _ => false

section Frames

variable {config : ServerConfig} {c : Control} {s : ι} {new : List (Task ι)}

theorem Calls.session {point : ReadPoint} (h : Calls config c s point new) :
    ∀ t ∈ new, t.session? = some s := by
  intro t ht
  cases h with
  | nothing => cases ht
  | _ =>
      rw [List.mem_singleton.1 ht]
      rfl

theorem Proceeds.session {point : ReadPoint} (h : Proceeds config c s point new) :
    ∀ t ∈ new, t.session? = some s := by
  intro t ht
  rcases h with rfl | ⟨calls, point', rfl, hcalls, -⟩
  · rw [List.mem_singleton.1 ht]
    rfl
  · rcases List.mem_append.1 ht with ht | ht
    · exact hcalls.session t ht
    · rw [List.mem_singleton.1 ht]
      rfl

theorem Leads.session {task t : Task ι} (h : Leads c task t) : t.session? = task.session? := by
  cases h with
  | disconnects hs => exact hs.symm
  | controls htransport hs => exact hs.symm
  | _ => rfl

theorem arrival_arrives {sv : Server ι} {x : Choice ι} {t : Task ι} (h : arrival sv x = some t) :
    t.arrives = true := by
  cases x with
  | acceptor s | ticker s | stopper s =>
      simp only [arrival] at h
      split at h <;> first | cases h; done | (obtain rfl := Option.some.inj h; rfl)
  | sender s payload | closer s code reason =>
      obtain rfl := Option.some.inj h
      rfl
  | _ => cases h

end Frames

variable [DecidableEq ι]

/-- A thread stays with its session. -/
theorem Step.session {config : ServerConfig} {sv sv' : Server ι} {task : Task ι}
    {new : List (Task ι)} (hstep : Step config sv task sv' new) (htask : task ≠ .outside) :
    ∀ t ∈ new, t.session? = task.session? := by
  intro t ht
  cases hstep with
  | arrives h => exact absurd rfl htask
  | acts houtside hkeep h =>
      obtain ⟨q, hq, rfl⟩ := List.mem_map.1 ht
      exact (h.session houtside q hq).1
  | disconnects h =>
      simp only [List.mem_cons, List.not_mem_nil, or_false] at ht
      rcases ht with rfl | rfl | rfl | rfl <;> rfl
  | greets result h =>
      rcases List.mem_append.1 ht with ht | ht
      · obtain ⟨q, hq, rfl⟩ := List.mem_map.1 ht
        exact (h.session (by intro heq; cases heq) q hq).1
      · rw [List.mem_singleton.1 ht]
        rfl
  | updates s' bytes rest =>
      rcases List.mem_append.1 ht with ht | ht
      · split at ht
        · rw [List.mem_singleton.1 ht]
          rfl
        · cases ht
      · rw [List.mem_singleton.1 ht]
        rfl
  | handles h => exact (localStep_spec h).2.session t ht
  | calls hsession h => exact (callStep_spec h t ht).session
  | overflows s' bytes => rcases List.mem_pair.1 ht with rfl | rfl <;> rfl
  | removes s' => cases ht
  | releases s' => cases ht
  | _ =>
      rw [List.mem_singleton.1 ht]
      rfl

/-- **A step leaves the sessions of other tasks alone**: only a new arrival can turn up there. -/
theorem Step.frame {config : ServerConfig} {sv sv' : Server ι} {task : Task ι}
    {new : List (Task ι)} (hstep : Step config sv task sv' new) {s : ι}
    (hs : task.session? ≠ some s) :
    sv'.control s = sv.control s ∧ sv'.out.sessions s = sv.out.sessions s ∧
      ∀ t ∈ new, t.session? = some s → t.arrives = true := by
  have hne : ∀ {s' : ι}, task.session? = some s' → s ≠ s' := by
    intro s' hs' heq
    exact hs (heq ▸ hs')
  -- only an arrival starts something for a session it is not about
  have hnew : ∀ t ∈ new, t.session? = some s → t.arrives = true := by
    intro t ht hsession
    by_cases htask : task = .outside
    · subst htask
      cases hstep with
      | arrives h =>
          rcases List.mem_pair.1 ht with rfl | rfl
          · cases hsession
          · exact arrival_arrives h
      | calls hsession' h => cases h
    · exact absurd ((hstep.session htask t ht).symm.trans hsession) hs
  cases hstep with
  | arrives h => exact ⟨rfl, rfl, hnew⟩
  | acts houtside hkeep h => exact ⟨rfl, (h.frame hs).1, hnew⟩
  | disconnects h => exact ⟨rfl, by simp [Outbound.modify_of_ne sv.out (hne rfl)], hnew⟩
  | greets result h => exact ⟨by simp [modify_of_ne sv (hne rfl)], (h.frame hs).1, hnew⟩
  | updates s' bytes rest =>
      obtain ⟨total, htotal⟩ := updateInboundAccounting_eq config sv s' bytes
      rw [htotal]
      exact ⟨by simp [modify_of_ne sv (hne rfl)], rfl, hnew⟩
  | releases s' =>
      obtain ⟨total, htotal⟩ := updateInboundAccounting_eq config sv s' 0
      rw [htotal]
      exact ⟨by simp [modify_of_ne sv (hne rfl)], rfl, hnew⟩
  | calls hsession h => exact ⟨modify_of_ne sv (hne hsession) _, rfl, hnew⟩
  | _ => exact ⟨by first | rfl | exact modify_of_ne sv (hne rfl) _, rfl, hnew⟩

/-- **An item is queued by `Enqueue`**, or with the response to a handshake. -/
theorem Step.pushed {config : ServerConfig} {sv sv' : Server ι} {task : Task ι}
    {new : List (Task ι)} (hstep : Step config sv task sv' new) (s : ι) :
    (sv'.out.sessions s).pushed = (sv.out.sessions s).pushed ∨
      ∃ item, (task = .out (.enqueue s item) ∨ ∃ result, task = .reader s (.greet result)) ∧
        (sv'.out.sessions s).pushed = (sv.out.sessions s).pushed ++ [item] := by
  cases hstep with
  | acts houtside hkeep hact =>
      rcases hact.pushed s with hsame | ⟨item, rfl, hpushed⟩
      · exact Or.inl hsame
      · exact Or.inr ⟨item, Or.inl rfl, hpushed⟩
  | greets result hact =>
      rcases hact.pushed s with hsame | ⟨item, hitem, hpushed⟩
      · exact Or.inl hsame
      · obtain ⟨rfl, -⟩ := Outbound.Action.enqueue.inj hitem
        exact Or.inr ⟨item, Or.inr ⟨result, rfl⟩, hpushed⟩
  | @disconnects s' hstarted =>
      refine Or.inl ?_
      by_cases hs : s = s'
      · subst hs
        simp
      · simp [Outbound.modify_of_ne sv.out hs]
  | updates s' bytes rest =>
      obtain ⟨total, htotal⟩ := updateInboundAccounting_eq config sv s' bytes
      rw [htotal]
      exact Or.inl rfl
  | releases s' =>
      obtain ⟨total, htotal⟩ := updateInboundAccounting_eq config sv s' 0
      rw [htotal]
      exact Or.inl rfl
  | _ => exact Or.inl rfl

/-! ### The outbound side -/

/-- The outbound action of a task. -/
def Task.action? : Task ι → Option (Outbound.Action ι)
  | .out action => some action
  | _ => none

/-- The outbound actions among the pending tasks. -/
def outActions (P : Multiset (Task ι)) : Multiset (Outbound.Action ι) := P.filterMap Task.action?

omit [DecidableEq ι] in
theorem outActions_add (P Q : Multiset (Task ι)) :
    outActions (P + Q) = outActions P + outActions Q :=
  Multiset.filterMap_add _ _ _

omit [DecidableEq ι] in
theorem outActions_cons_of_none {t : Task ι} (h : t.action? = none) (P : Multiset (Task ι)) :
    outActions (t ::ₘ P) = outActions P :=
  Multiset.filterMap_cons_none _ _ h

omit [DecidableEq ι] in
theorem outActions_map_out (actions : List (Outbound.Action ι)) :
    outActions ((actions.map Task.out : List (Task ι)) : Multiset (Task ι)) = actions := by
  rw [outActions, Multiset.filterMap_coe, List.filterMap_map]
  exact congrArg _ (List.filterMap_some)

/-- The server's outbound side, as the outbound path sees it. -/
def Refines (config : ServerConfig) (sv : Server ι) (P : Multiset (Task ι)) : Prop :=
  Outbound.Reachable config sv.out (.outside ::ₘ outActions P)

/-- The task is none of the outbound side, or one of its callers. -/
def Task.mayCall (t : Task ι) : Prop := ∀ a, t.action? = some a → a.caller = true ∧ a ≠ .outside

section Refinement

variable {config : ServerConfig} {sv sv' : Server ι} {task : Task ι} {new : List (Task ι)}
  {R : Multiset (Task ι)}

/-- A new caller is a step of the outbound path. -/
theorem reachable_call {sh : Outbound.Shared ι} {P : Multiset (Outbound.Action ι)}
    (h : Outbound.Reachable config sh (.outside ::ₘ P)) {a : Outbound.Action ι}
    (ha : a.caller = true ∧ a ≠ .outside) : Outbound.Reachable config sh (.outside ::ₘ a ::ₘ P) := by
  obtain ⟨hcaller, houtside⟩ := ha
  have hpair : (([.outside, a] : List (Outbound.Action ι)) : Multiset (Outbound.Action ι)) + P =
      .outside ::ₘ a ::ₘ P := by
    rw [← Multiset.cons_coe, ← Multiset.cons_coe, Multiset.coe_nil, Multiset.cons_add,
      Multiset.cons_add, zero_add]
  rw [← hpair]
  cases a with
  | outside => exact absurd rfl houtside
  | enqueue s item => exact h.step (.enqueuer s item)
  | disconnect s => exact h.step (.disconnecter s)
  | _ => cases hcaller

/-- A step that leaves the outbound side alone, apart from new callers. -/
theorem Refines.calls (h : Refines config sv (task ::ₘ R)) (htask : task.action? = none)
    (hout : sv'.out = sv.out) (hnew : ∀ t ∈ new, t.mayCall) : Refines config sv' (new + R) := by
  unfold Refines at h ⊢
  rw [outActions_cons_of_none htask] at h
  rw [hout]
  induction new with
  | nil => rwa [Multiset.coe_nil, zero_add]
  | cons t new ih =>
      have hrest := ih fun t' ht' => hnew t' (List.mem_cons_of_mem t ht')
      rw [← Multiset.cons_coe, Multiset.cons_add]
      cases hact : t.action? with
      | none => rwa [outActions_cons_of_none hact]
      | some a =>
          have ha := hnew t List.mem_cons_self a hact
          have hcons : outActions (t ::ₘ (↑new + R)) = a ::ₘ outActions (↑new + R) :=
            Multiset.filterMap_cons_some _ _ _ hact
          rw [hcons]
          exact reachable_call hrest ha

omit [DecidableEq ι] in
theorem mayCall_of_none {t : Task ι} (h : t.action? = none) : t.mayCall := by
  intro a ha
  rw [h] at ha
  cases ha

omit [DecidableEq ι] in
theorem mayCall_disconnect (s : ι) : (disconnect s).mayCall := by
  intro a ha
  obtain rfl := Option.some.inj ha
  exact ⟨rfl, (by intro heq; cases heq)⟩

omit [DecidableEq ι] in
theorem mayCall_enqueue (s : ι) (item : OutboundItem) : (Task.out (.enqueue s item)).mayCall := by
  intro a ha
  obtain rfl := Option.some.inj ha
  exact ⟨rfl, (by intro heq; cases heq)⟩

omit [DecidableEq ι] in
theorem Calls.mayCall {c : Control} {s : ι} {point : ReadPoint} (h : Calls config c s point new) :
    ∀ t ∈ new, t.mayCall := by
  intro t ht
  cases h with
  | nothing => cases ht
  | disconnects =>
      rw [List.mem_singleton.1 ht]
      exact mayCall_disconnect s
  | closes code reason =>
      rw [List.mem_singleton.1 ht]
      exact mayCall_of_none rfl
  | controls hpoint opcode payload closeAfter =>
      rw [List.mem_singleton.1 ht]
      exact mayCall_of_none rfl
  | rejects h hpoint =>
      rw [List.mem_singleton.1 ht]
      exact mayCall_enqueue s _

omit [DecidableEq ι] in
theorem Proceeds.mayCall {c : Control} {s : ι} {point : ReadPoint}
    (h : Proceeds config c s point new) : ∀ t ∈ new, t.mayCall := by
  intro t ht
  rcases h with rfl | ⟨calls, point', rfl, hcalls, -⟩
  · rw [List.mem_singleton.1 ht]
    exact mayCall_disconnect s
  · rcases List.mem_append.1 ht with ht | ht
    · exact hcalls.mayCall t ht
    · rw [List.mem_singleton.1 ht]
      exact mayCall_of_none rfl

omit [DecidableEq ι] in
theorem Leads.mayCall {c : Control} {t : Task ι} (h : Leads c task t) : t.mayCall := by
  cases h with
  | sendsRaw htransport s payload item => exact mayCall_enqueue s item
  | sendsFrame htransport s payload => exact mayCall_enqueue s _
  | sendsControl s opcode payload closeAfter closeAfter' => exact mayCall_enqueue s _
  | disconnects hs => exact mayCall_disconnect _
  | _ => exact mayCall_of_none rfl

omit [DecidableEq ι] in
theorem arrival_mayCall {x : Choice ι} {t : Task ι} (h : arrival sv x = some t) : t.mayCall := by
  have harrives := arrival_arrives h
  cases t with
  | out action =>
      cases action with
      | disconnect s => exact mayCall_disconnect s
      | _ => cases harrives
  | _ => exact mayCall_of_none rfl

/-- **Every step of the server is a number of steps of the outbound path, or none.** -/
theorem Refines.step (hstep : Step config sv task sv' new) (h : Refines config sv (task ::ₘ R)) :
    Refines config sv' (new + R) := by
  cases hstep with
  | arrives harrival =>
      refine h.calls rfl rfl fun t ht => ?_
      rcases List.mem_pair.1 ht with rfl | rfl
      · exact mayCall_of_none rfl
      · exact arrival_mayCall harrival
  | @acts action out next houtside hkeep hact =>
      have hcons : outActions (.out action ::ₘ R) = action ::ₘ outActions R :=
        Multiset.filterMap_cons_some _ _ _ rfl
      unfold Refines at h ⊢
      rw [hcons, Multiset.cons_swap] at h
      have hnext := h.step hact
      rwa [Multiset.add_cons, ← outActions_map_out, ← outActions_add] at hnext
  | @disconnects s hstarted =>
      have hcons : outActions (.out (.disconnect s) ::ₘ R) = .disconnect s ::ₘ outActions R :=
        Multiset.filterMap_cons_some _ _ _ rfl
      unfold Refines at h ⊢
      rw [hcons, Multiset.cons_swap] at h
      have hnext := h.step (.disconnecting hstarted)
      rw [Multiset.add_cons] at hnext
      rw [outActions_add]
      exact hnext
  | @greets s result out next hact =>
      unfold Refines at h ⊢
      rw [outActions_cons_of_none rfl] at h
      -- the call of `Enqueue`, and the step it makes at once
      have hcall := reachable_call h (a := .enqueue s (responseItem result.response false))
        ⟨rfl, (by intro heq; cases heq)⟩
      rw [Multiset.cons_swap] at hcall
      have hnext := hcall.step hact
      have htail : outActions (((next.map Task.out ++
          [.reader s (.store .webSocket result.consumed)] : List (Task ι)) : Multiset (Task ι)) + R) =
          ↑next + outActions R := by
        have hreader : outActions (([.reader s (.store .webSocket result.consumed)] :
            List (Task ι)) : Multiset (Task ι)) = 0 := rfl
        rw [outActions_add, ← Multiset.coe_add, outActions_add, outActions_map_out, hreader,
          add_zero]
      rw [htail]
      rwa [Multiset.add_cons] at hnext
  | updates s bytes rest =>
      obtain ⟨total, htotal⟩ := updateInboundAccounting_eq config sv s bytes
      refine h.calls rfl (by rw [htotal]; rfl) fun t ht => ?_
      rcases List.mem_append.1 ht with ht | ht
      · split at ht
        · rw [List.mem_singleton.1 ht]
          exact mayCall_disconnect s
        · cases ht
      · rw [List.mem_singleton.1 ht]
        exact mayCall_of_none rfl
  | releases s =>
      obtain ⟨total, htotal⟩ := updateInboundAccounting_eq config sv s 0
      exact h.calls rfl (by rw [htotal]; rfl) fun t ht => absurd ht List.not_mem_nil
  | handles hlocal => exact h.calls rfl rfl (localStep_spec hlocal).2.mayCall
  | calls hsession hcall =>
      refine h.calls ?_ rfl fun t ht => (callStep_spec hcall t ht).mayCall
      cases task with
      | out action => cases hcall
      | _ => rfl
  | notPosted s =>
      refine h.calls rfl rfl fun t ht => ?_
      rw [List.mem_singleton.1 ht]
      exact mayCall_disconnect s
  | overflows s bytes =>
      refine h.calls rfl rfl fun t ht => ?_
      rcases List.mem_pair.1 ht with rfl | rfl
      · exact mayCall_disconnect s
      · exact mayCall_of_none rfl
  | removes s => exact h.calls rfl rfl fun t ht => absurd ht List.not_mem_nil
  | _ =>
      refine h.calls rfl rfl fun t ht => ?_
      rw [List.mem_singleton.1 ht]
      exact mayCall_of_none rfl

/-- **Every run of the server is one of the outbound path.** -/
theorem run_reachable {moves : List (ℕ × Choice ι)} {c : Config (Server ι) (Task ι)}
    (hrun : (program config).run moves (start config) = some c) :
    Outbound.Reachable config c.shared.out (.outside ::ₘ outActions c.pending) := by
  refine Program.invariant (I := Refines config) (fun x p sv R o hexec h => ?_) moves ?_ hrun
  · rw [Multiset.coe_add]
    exact h.step (exec_step hexec)
  · exact .start

end Refinement

end ServerSteps

end RealtimeEngine
