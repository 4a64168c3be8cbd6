/-
**The order of the handlers' calls.**

`HandleAccept` inserts its session into the registry and calls the connect handler behind that;
`Disconnect` calls the disconnect handler; and a worker that handles a read tests
`disconnect_started` before it calls the message handler.  So a session may be closed before its
connect handler is called, and a worker that has passed its test may call the message handler when
the disconnect handler has been called.

The connect handler is called once and the disconnect handler at most once, in every run.  When
`Disconnect` calls its handler after the calls that were already on their way, the calls are in
order.

Main definitions:

* `RealtimeEngine.Lifecycle.Task.call` — the call that a step makes;
* `RealtimeEngine.Lifecycle.Callbacks`, `RealtimeEngine.Lifecycle.Ordered` — the invariants;
* `RealtimeEngine.Lifecycle.lastCall` — no call is on its way when the disconnect handler is called.

Main results:

* `RealtimeEngine.Lifecycle.callback_order` — **the calls of every run**, and their order in those
  in which the disconnect handler is called last;
* `RealtimeEngine.Lifecycle.order_fails` — the two wrong orders.
-/

import RealtimeEngine.LifecycleOperations
import RealtimeEngine.LifecycleSessions

set_option relaxedAutoImplicit false
set_option autoImplicit false

namespace RealtimeEngine

namespace Lifecycle

open Interleaving

/-! ### Calls -/

/-- The call that a step makes for a session. -/
def Task.call : Task → ℕ → List Callback
  | .invokeConnect _ s₀, s => if s = s₀ then [.connect] else []
  | .deliverMessage s₀ _, s => if s = s₀ then [.message] else []
  | .invokeDisconnect s₀, s => if s = s₀ then [.disconnect] else []
  | _, _ => []

/-- `HandleAccept` is on its way to the connect handler of the session. -/
def Task.connecting? : Task → Option ℕ
  | .insert _ s | .count _ s | .invokeConnect _ s => some s
  | _ => none

/-- `Disconnect` is on its way to the disconnect handler of the session. -/
def Task.disconnecting? : Task → Option ℕ
  | .remove s | .closeSocket s | .drain s | .uncount s | .invokeDisconnect s => some s
  | _ => none

/-- A call of the connect handler or of the message handler is on its way. -/
def Task.calling? : Task → Option ℕ
  | .insert _ s | .count _ s | .invokeConnect _ s | .deliverMessage s _ => some s
  | _ => none

/-- **How often the handlers are called.** -/
structure Callbacks (sv : Server) (P : Multiset Task) : Prop where
  sessions : Sessions sv P
  connect : ∀ s, (holders Task.connecting? P).count s +
    (sv.sessions s).callbacks.count .connect = if 0 < s ∧ s < sv.nextSessionId then 1 else 0
  disconnect : ∀ s, (holders Task.disconnecting? P).count s +
    (sv.sessions s).callbacks.count .disconnect = (sv.sessions s).disconnectStarted.toNat

section Steps

variable {config : ServerConfig} {sv sv' : Server} {task : Task} {new : List Task}
  {R : Multiset Task}

theorem count_one (s s₀ : ℕ) : [s₀].count s = if s = s₀ then 1 else 0 := by
  rw [← Multiset.coe_count, Multiset.coe_singleton, Multiset.count_singleton]

theorem call_callbacks (sv : Server) (s₀ : ℕ) (callback : Callback) (s : ℕ) :
    ((sv.call s₀ callback).sessions s).callbacks =
      (sv.sessions s).callbacks ++ if s = s₀ then [callback] else [] := by
  unfold Server.call
  by_cases hs : s = s₀
  · subst hs
    rw [modify_self, if_pos rfl]
  · rw [modify_of_ne sv hs, if_neg hs, List.append_nil]

theorem Moves.call (h : Moves config sv task new) (s : ℕ) : task.call s = [] := by
  cases h <;> rfl

/-- A step makes at most one call. -/
theorem Step.callbacks (hstep : Step config sv task sv' new) (s : ℕ) :
    (sv'.sessions s).callbacks = (sv.sessions s).callbacks ++ task.call s := by
  have hsame : ∀ {l : List Callback}, l = l ++ [] := (List.append_nil _).symm
  have hmodified : ∀ (s₀ : ℕ) (f : Session → Session),
      (f (sv.sessions s₀)).callbacks = (sv.sessions s₀).callbacks →
      ((sv.modify s₀ f).sessions s).callbacks = (sv.sessions s).callbacks ++ [] := by
    intro s₀ f hf
    rw [modify_field Session.callbacks sv s₀ s hf, List.append_nil]
  cases hstep with
  | moves hmoves =>
      rw [hmoves.call]
      exact hsame
  | invokesConnect | deliversMessage | invokesDisconnect => exact call_callbacks _ _ _ s
  | inserts | enqueues | idles | pops | disconnects | removes | closesSocket | drains
  | stopsSession => exact hmodified _ _ rfl
  | _ => exact hsame

theorem Moves.connecting (h : Moves config sv task new) :
    new.filterMap Task.connecting? = task.connecting?.toList := by
  cases h with
  | noPeer s op posted | notReading s op posted => cases posted <;> rfl
  | _ => rfl

theorem Moves.disconnecting (h : Moves config sv task new) :
    new.filterMap Task.disconnecting? = task.disconnecting?.toList := by
  cases h with
  | noPeer s op posted | notReading s op posted => cases posted <;> rfl
  | _ => rfl

/-- The way to the connect handler starts with the number of the session, and ends with the call. -/
theorem Step.connecting (hstep : Step config sv task sv' new) (s : ℕ) :
    (new.filterMap Task.connecting?).count s + (task.call s).count .connect =
      task.connecting?.toList.count s +
        if sv.nextSessionId ≤ s ∧ s < sv'.nextSessionId then 1 else 0 := by
  have hnone : ∀ n : ℕ, n = n + if sv.nextSessionId ≤ s ∧ s < sv.nextSessionId then 1 else 0 := by
    intro n
    rw [if_neg fun hs => absurd hs.2 (not_lt.2 hs.1), add_zero]
  cases hstep with
  | arrives harrival =>
      obtain rfl | ⟨s, rfl⟩ | ⟨s, rfl⟩ | ⟨s, rfl, -⟩ | rfl := arrival_cases harrival <;> exact hnone 0
  | moves hmoves =>
      rw [hmoves.connecting, hmoves.call]
      exact hnone _
  -- the number is given out here, and from here on its callback is due
  | identifies op =>
      change [sv.nextSessionId].count s + 0 = 0 + _
      rw [count_one]
      dsimp only
      split_ifs <;> omega
  | inserts op s₀ | counts op s₀ => exact hnone _
  | invokesConnect op s₀ =>
      refine Eq.trans ?_ (hnone _)
      change 0 + (if s = s₀ then [Callback.connect] else []).count .connect = [s₀].count s
      rw [count_one]
      split <;> rfl
  | deliversMessage s₀ op =>
      refine Eq.trans ?_ (hnone _)
      change 0 + (if s = s₀ then [Callback.message] else []).count .connect = 0
      split <;> rfl
  | invokesDisconnect s₀ =>
      refine Eq.trans ?_ (hnone _)
      change 0 + (if s = s₀ then [Callback.disconnect] else []).count .connect = 0
      split <;> rfl
  | refuses s₀ closeAfter => cases closeAfter <;> exact hnone 0
  | enqueues s₀ closeAfter =>
      refine Eq.trans ?_ (hnone 0)
      split <;> rfl
  | completesWrite s₀ again => cases again <;> exact hnone 0
  | _ => exact hnone 0

/-- The way to the disconnect handler starts with `disconnect_started`, and ends with the call. -/
theorem Step.disconnecting (hstep : Step config sv task sv' new) (s : ℕ) :
    (new.filterMap Task.disconnecting?).count s + (task.call s).count .disconnect +
        (sv.sessions s).disconnectStarted.toNat =
      task.disconnecting?.toList.count s + (sv'.sessions s).disconnectStarted.toNat := by
  have hmodified : ∀ (s₀ : ℕ) (f : Session → Session),
      (f (sv.sessions s₀)).disconnectStarted = (sv.sessions s₀).disconnectStarted →
      ((sv.modify s₀ f).sessions s).disconnectStarted = (sv.sessions s).disconnectStarted :=
    fun s₀ f => modify_field Session.disconnectStarted sv s₀ s
  -- the winner of the compare-and-swap owes the callback
  have hstarts : ∀ s₀, (sv.sessions s₀).disconnectStarted = false →
      [s₀].count s + 0 + (sv.sessions s).disconnectStarted.toNat = 0 +
        ((sv.modify s₀ fun x => { x with disconnectStarted := true }).sessions
          s).disconnectStarted.toNat := by
    intro s₀ hlive
    rw [count_one]
    by_cases hs : s = s₀
    · subst hs
      rw [modify_self, hlive, if_pos rfl]
      rfl
    · rw [modify_of_ne sv hs, if_neg hs]
  cases hstep with
  | arrives harrival =>
      obtain rfl | ⟨s, rfl⟩ | ⟨s, rfl⟩ | ⟨s, rfl, -⟩ | rfl := arrival_cases harrival <;> rfl
  | moves hmoves =>
      rw [hmoves.disconnecting, hmoves.call]
      rfl
  | disconnects hlive => exact hstarts _ hlive
  | stopsSession hlive rest => exact hstarts _ hlive
  | invokesDisconnect s₀ =>
      rw [Server.call, hmodified s₀ _ rfl]
      change 0 + (if s = s₀ then [Callback.disconnect] else []).count .disconnect + _ =
        [s₀].count s + _
      rw [count_one]
      split <;> rfl
  | invokesConnect op s₀ =>
      rw [Server.call, hmodified s₀ _ rfl]
      change 0 + (if s = s₀ then [Callback.connect] else []).count .disconnect + _ = 0 + _
      split <;> rfl
  | deliversMessage s₀ op =>
      rw [Server.call, hmodified s₀ _ rfl]
      change 0 + (if s = s₀ then [Callback.message] else []).count .disconnect + _ = 0 + _
      split <;> rfl
  | inserts | idles | pops | removes | closesSocket | drains =>
      rw [hmodified _ _ rfl]
      rfl
  | refuses s₀ closeAfter => cases closeAfter <;> rfl
  | enqueues s₀ closeAfter =>
      rw [hmodified _ _ rfl]
      split <;> rfl
  | completesWrite s₀ again => cases again <;> rfl
  | _ => rfl

/-- Numbers are not taken back. -/
theorem Step.next (hstep : Step config sv task sv' new) : sv.nextSessionId ≤ sv'.nextSessionId := by
  cases hstep with
  | identifies => exact Nat.le_succ _
  | _ => exact le_rfl

/-- **Every step keeps the numbers.** -/
theorem Callbacks.step (hstep : Step config sv task sv' new) (h : Callbacks sv (task ::ₘ R)) :
    Callbacks sv' (new + R) := by
  have hcons : ∀ (f : Task → Option ℕ) (s : ℕ), (holders f (task ::ₘ R)).count s =
      (f task).toList.count s + (holders f R).count s := by
    intro f s
    rw [holders_cons, Multiset.count_add, Multiset.coe_count]
  have hadd : ∀ (f : Task → Option ℕ) (s : ℕ), (holders f (new + R)).count s =
      (new.filterMap f).count s + (holders f R).count s := by
    intro f s
    rw [holders_add, holders_coe, Multiset.count_add, Multiset.coe_count]
  refine ⟨h.sessions.step hstep, fun s => ?_, fun s => ?_⟩
  · have hbefore := h.connect s
    have hconnecting := hstep.connecting s
    have hnext := hstep.next
    have hpositive := h.sessions.next
    rw [hcons] at hbefore
    rw [hadd, hstep.callbacks, List.count_append]
    split_ifs at hbefore hconnecting ⊢ <;> omega
  · have hbefore := h.disconnect s
    have hdisconnecting := hstep.disconnecting s
    rw [hcons] at hbefore
    rw [hadd, hstep.callbacks, List.count_append]
    omega

/-! ### The order of the calls -/

/-- A call before the disconnect handler's is that of the connect handler, and none behind it is one
of the message handler. -/
def InOrder (calls : List Callback) : Prop :=
  ∀ before after, calls = before ++ .disconnect :: after → .connect ∈ before ∧ .message ∉ after

theorem inOrder_of_not_mem {calls : List Callback} (h : .disconnect ∉ calls) : InOrder calls := by
  intro before after heq
  rw [heq] at h
  exact absurd (List.mem_append_right before List.mem_cons_self) h

theorem inOrder_append {calls : List Callback} (hnot : .disconnect ∉ calls)
    (hconnect : .connect ∈ calls) : InOrder (calls ++ [.disconnect]) := by
  intro before after heq
  -- the only call of the disconnect handler is the last one
  rcases List.eq_nil_or_concat after with rfl | ⟨after, last, rfl⟩
  · obtain rfl := List.append_inj_left' heq rfl
    exact ⟨hconnect, List.not_mem_nil⟩
  · rw [List.concat_eq_append, ← List.cons_append, ← List.append_assoc] at heq
    have hcalls := List.append_inj_left' heq rfl
    rw [hcalls] at hnot
    exact absurd (List.mem_append_right before List.mem_cons_self) hnot

/-- The calls of a session that are on their way beside the call of its disconnect handler. -/
def early : Task → Task → ℕ
  | .invokeDisconnect s, t => if t.calling? = some s then 1 else 0
  | _, _ => 0

/-- The disconnect handler is called when no other call is on its way. -/
def lastCall (task : Task) (_ : Server) (n : ℕ) : Bool :=
  match task with
  | .invokeDisconnect _ => n == 0
  | _ => true

/-- **The calls are in order.** -/
structure Ordered (sv : Server) (P : Multiset Task) : Prop where
  callbacks : Callbacks sv P
  last : ∀ s, .disconnect ∈ (sv.sessions s).callbacks → s ∉ holders Task.calling? P
  order : ∀ s, InOrder (sv.sessions s).callbacks

/-- The call that a step makes was on its way. -/
theorem call_cases (task : Task) (s : ℕ) :
    task.call s = [] ∨
      (∃ callback, task.call s = [callback] ∧ callback ≠ .disconnect ∧ task.calling? = some s) ∨
      task = .invokeDisconnect s ∧ task.call s = [.disconnect] := by
  cases task with
  | invokeConnect op s₀ =>
      by_cases hs : s = s₀
      · subst hs
        exact Or.inr (Or.inl ⟨.connect, if_pos rfl, by decide, rfl⟩)
      · exact Or.inl (if_neg hs)
  | deliverMessage s₀ op =>
      by_cases hs : s = s₀
      · subst hs
        exact Or.inr (Or.inl ⟨.message, if_pos rfl, by decide, rfl⟩)
      · exact Or.inl (if_neg hs)
  | invokeDisconnect s₀ =>
      by_cases hs : s = s₀
      · subst hs
        exact Or.inr (Or.inr ⟨rfl, if_pos rfl⟩)
      · exact Or.inl (if_neg hs)
  | _ => exact Or.inl rfl

/-- A call comes on its way for a new session, or when no `Disconnect` has started. -/
theorem Moves.calling (h : Moves config sv task new) :
    ∀ t ∈ new, ∀ s, t.calling? = some s →
      task.calling? = some s ∨ (sv.sessions s).disconnectStarted = false := by
  intro t ht s hs
  cases h with
  | message hlive op =>
      rw [List.mem_singleton.1 ht] at hs
      obtain rfl := Option.some.inj hs
      exact Or.inr hlive
  | noPeer s₀ op posted | notReading s₀ op posted =>
      cases posted with
      | true => rcases List.mem_pair.1 ht with rfl | rfl <;> cases hs
      | false => rcases List.mem_pair.1 ht with rfl | rfl <;> cases hs
  | badRead | disconnects | queues | closes | disconnected | notRunning =>
      rcases List.mem_pair.1 ht with rfl | rfl <;> cases hs
  | notCreated | notSent | notClosed | notDue => cases ht
  | _ =>
      rw [List.mem_singleton.1 ht] at hs
      cases hs

theorem Step.calling (hstep : Step config sv task sv' new) :
    ∀ t ∈ new, ∀ s, t.calling? = some s →
      task.calling? = some s ∨ (sv.sessions s).disconnectStarted = false ∨ s = sv.nextSessionId := by
  intro t ht s hs
  cases hstep with
  | arrives harrival =>
      rcases List.mem_pair.1 ht with rfl | rfl
      · cases hs
      · obtain rfl | ⟨s, rfl⟩ | ⟨s, rfl⟩ | ⟨s, rfl, -⟩ | rfl := arrival_cases harrival <;> cases hs
  | moves hmoves =>
      rcases hmoves.calling t ht s hs with hbefore | hlive
      · exact Or.inl hbefore
      · exact Or.inr (Or.inl hlive)
  | identifies op =>
      rw [List.mem_singleton.1 ht] at hs
      exact Or.inr (Or.inr (Option.some.inj hs).symm)
  | inserts | counts =>
      rw [List.mem_singleton.1 ht] at hs
      exact Or.inl hs
  | refuses s₀ closeAfter | enqueues s₀ closeAfter =>
      split at ht
      · first
        | (cases ht; done)
        | (rw [List.mem_singleton.1 ht] at hs; cases hs)
      · first
        | (cases ht; done)
        | (rw [List.mem_singleton.1 ht] at hs; cases hs)
  | completesWrite s₀ again =>
      rw [List.mem_singleton.1 ht] at hs
      cases again <;> cases hs
  | invokesConnect | stopsSession =>
      rcases List.mem_pair.1 ht with rfl | rfl <;> cases hs
  | noAccept | completes | alreadyDisconnected | invokesDisconnect | alreadyStopped | idles => cases ht
  | _ =>
      rw [List.mem_singleton.1 ht] at hs
      cases hs

/-- A session whose disconnect handler was called has a `Disconnect`. -/
theorem Callbacks.started {P : Multiset Task} (h : Callbacks sv P) {s : ℕ}
    (hs : .disconnect ∈ (sv.sessions s).callbacks) : (sv.sessions s).disconnectStarted = true := by
  have hcount := List.count_pos_iff.2 hs
  have hdisconnect := h.disconnect s
  by_contra hnot
  rw [Bool.eq_false_of_not_eq_true hnot, Bool.toNat_false] at hdisconnect
  omega

/-- When `Disconnect` calls its handler with no other call on its way, the connect handler was
called and the disconnect handler was not. -/
theorem Ordered.invokes {s : ℕ} (h : Ordered sv (.invokeDisconnect s ::ₘ R))
    (hlast : s ∉ holders Task.calling? R) :
    .disconnect ∉ (sv.sessions s).callbacks ∧ .connect ∈ (sv.sessions s).callbacks := by
  have hinserted :=
    h.callbacks.sessions.known _ (Multiset.mem_cons_self _ R) s List.mem_cons_self
  have hself := count_holders_cons (f := Task.disconnecting?) (p := .invokeDisconnect s) rfl R s
  constructor
  · intro hmem
    have hcount := List.count_pos_iff.2 hmem
    have hdisconnect := h.callbacks.disconnect s
    have hle := Bool.toNat_le (sv.sessions s).disconnectStarted
    rw [hself, if_pos rfl] at hdisconnect
    omega
  · have hconnect := h.callbacks.connect s
    have hnone : (holders Task.connecting? (.invokeDisconnect s ::ₘ R)).count s = 0 := by
      rw [holders_cons_none rfl, Multiset.count_eq_zero]
      intro hmem
      obtain ⟨t, ht, hconnecting⟩ := mem_holders.1 hmem
      refine hlast (mem_holders.2 ⟨t, ht, ?_⟩)
      cases t with
      | insert | count | invokeConnect => exact hconnecting
      | _ => cases hconnecting
    rw [hnone, if_pos (h.callbacks.sessions.number hinserted)] at hconnect
    exact List.count_pos_iff.1 (by omega)

/-- Before a step that leaves the call of the disconnect handler behind no other call is on its way.
-/
theorem Ordered.clear (h : Ordered sv (task ::ₘ R))
    (hnone : ∀ s, task = .invokeDisconnect s → s ∉ holders Task.calling? R) {s : ℕ}
    (hs : .disconnect ∈ (sv.sessions s).callbacks ++ task.call s) :
    s ∉ holders Task.calling? (task ::ₘ R) ∧ (sv.sessions s).disconnectStarted = true := by
  have hbefore : .disconnect ∈ (sv.sessions s).callbacks →
      s ∉ holders Task.calling? (task ::ₘ R) ∧ (sv.sessions s).disconnectStarted = true :=
    fun hmem => ⟨h.last s hmem, h.callbacks.started hmem⟩
  obtain hnil | ⟨callback, hcall, hne, -⟩ | ⟨rfl, -⟩ := call_cases task s
  · rw [hnil, List.append_nil] at hs
    exact hbefore hs
  · rw [hcall] at hs
    rcases List.mem_append.1 hs with hold | hnew
    · exact hbefore hold
    · exact absurd (List.mem_singleton.1 hnew).symm hne
  · refine ⟨?_, ?_⟩
    · rw [holders_cons_none rfl]
      exact hnone s rfl
    · have hself := count_holders_cons (f := Task.disconnecting?) (p := .invokeDisconnect s) rfl R s
      have hdisconnect := h.callbacks.disconnect s
      rw [hself, if_pos rfl] at hdisconnect
      by_contra hnot
      rw [Bool.eq_false_of_not_eq_true hnot, Bool.toNat_false] at hdisconnect
      omega

/-- **Every step keeps the order**, when the disconnect handler is called last. -/
theorem Ordered.step (hstep : Step config sv task sv' new) (h : Ordered sv (task ::ₘ R))
    (hlast : lastCall task sv (weight (early task) R) = true) : Ordered sv' (new + R) := by
  have hnone : ∀ s, task = .invokeDisconnect s → s ∉ holders Task.calling? R := by
    rintro s rfl hmem
    obtain ⟨t, ht, hcalling⟩ := mem_holders.1 hmem
    have hzero : weight (early (.invokeDisconnect s)) R = 0 := by simpa [lastCall] using hlast
    have hone : early (.invokeDisconnect s) t = 1 := if_pos hcalling
    have hle := le_weight (f := early (.invokeDisconnect s)) ht
    omega
  refine ⟨h.callbacks.step hstep, fun s hs hmem => ?_, fun s => ?_⟩
  · obtain ⟨hclear, hstarted⟩ := h.clear hnone (hstep.callbacks s ▸ hs)
    obtain ⟨t, ht, hcalling⟩ := mem_holders.1 hmem
    rcases Multiset.mem_add.1 ht with hnew | hrest
    · rcases hstep.calling t hnew s hcalling with hbefore | hlive | rfl
      · exact hclear (mem_holders.2 ⟨task, Multiset.mem_cons_self task R, hbefore⟩)
      · rw [hstarted] at hlive
        cases hlive
      · have hnumber := h.callbacks.sessions.number (h.callbacks.sessions.started _ hstarted)
        exact absurd hnumber.2 (lt_irrefl _)
    · exact hclear (mem_holders.2 ⟨t, Multiset.mem_cons_of_mem hrest, hcalling⟩)
  · rw [hstep.callbacks]
    obtain hnil | ⟨callback, hcall, hne, hcalling⟩ | ⟨htask, hcall⟩ := call_cases task s
    · rw [hnil, List.append_nil]
      exact h.order s
    · have hnot : .disconnect ∉ (sv.sessions s).callbacks := fun hmem =>
        h.last s hmem (mem_holders.2 ⟨task, Multiset.mem_cons_self task R, hcalling⟩)
      rw [hcall]
      refine inOrder_of_not_mem fun hmem => ?_
      rcases List.mem_append.1 hmem with hold | hnew
      · exact hnot hold
      · exact hne (List.mem_singleton.1 hnew).symm
    · subst htask
      rw [hcall]
      obtain ⟨hnot, hconnect⟩ := h.invokes (hnone s rfl)
      exact inOrder_append hnot hconnect

end Steps

/-! ### Runs -/

theorem callbacks_start : Callbacks start.shared start.pending := by
  refine ⟨sessions_start, fun s => ?_, fun s => rfl⟩
  have hnone : ¬(0 < s ∧ s < 1) := by omega
  exact (if_neg hnone).symm

/-- The numbers of calls, in every run. -/
theorem callbacks_run {config : ServerConfig} {moves : List (ℕ × Choice)} {c : Config Server Task}
    (hrun : (program config).run moves start = some c) : Callbacks c.shared c.pending := by
  refine Program.invariant (I := Callbacks) (fun x p sv R o hexec h => ?_) moves callbacks_start hrun
  rw [Multiset.coe_add]
  exact h.step (exec_step hexec)

/-- Nothing holds `HandleAccept` up on its way to the connect handler. -/
theorem connecting_steps (config : ServerConfig) (x : Choice) (sv : Server) {t : Task} {s : ℕ}
    (h : t.connecting? = some s) : (exec config x t sv).isSome = true := by
  cases t with
  | insert | count | invokeConnect => rfl
  | _ => cases h

/-- **The calls of the handlers.**  In every run an accepted session's connect handler was called
once, or one `HandleAccept` is on its way to that call and nothing holds it up, and the disconnect
handler was called at most once.  In every run in which the disconnect handler is called when no
other call for its session is on its way, the connect handler is called before it and the message
handler is not called behind it. -/
theorem callback_order (config : ServerConfig) (moves : List (ℕ × Choice)) {c : Config Server Task}
    (hrun : (program config).run moves start = some c) :
    (∀ s, 0 < s → s < c.shared.nextSessionId →
        (holders Task.connecting? c.pending).count s +
          (c.shared.sessions s).callbacks.count .connect = 1) ∧
      (∀ t ∈ c.pending, t.connecting?.isSome →
        ∀ x, (exec config x t c.shared).isSome = true) ∧
      (∀ s, (c.shared.sessions s).callbacks.count .disconnect ≤ 1) ∧
      ((program config).AllMeet
          (fun _ task sv R => lastCall task sv (weight (early task) R) = true) moves start →
        ∀ s before after, (c.shared.sessions s).callbacks = before ++ .disconnect :: after →
          .connect ∈ before ∧ .message ∉ after) := by
  have h := callbacks_run hrun
  refine ⟨fun s hpositive hnext => ?_, fun t _ ht x => ?_, fun s => ?_, fun hlast s => ?_⟩
  · rw [h.connect s, if_pos ⟨hpositive, hnext⟩]
  · obtain ⟨s, hs⟩ := Option.isSome_iff_exists.1 ht
    exact connecting_steps config x c.shared hs
  · exact (Nat.le_add_left _ _).trans ((h.disconnect s).le.trans (Bool.toNat_le _))
  · have hordered : Ordered c.shared c.pending := by
      refine Program.invariant_of_allMeet (I := Ordered) (fun x p sv R o hexec hok h => ?_) moves hlast
        ⟨callbacks_start, fun s hs => ?_, fun s => ?_⟩ hrun
      · rw [Multiset.coe_add]
        exact h.step (exec_step hexec) hok
      · exact absurd hs List.not_mem_nil
      · exact inOrder_of_not_mem List.not_mem_nil
    exact hordered.order s

/-- A session is accepted and reads a message, and its peer is gone when the next read completes. -/
def messageThenGone : List (ℕ × Choice) :=
  connection ++ (3, .completes true) :: (3, .passes) :: (3, .delivers) :: List.replicate 7 (3, .passes)
    ++ (5, .completes false) :: List.replicate 7 (5, .passes)

/-- The handlers of that session are called in order. -/
theorem callback_order_messageThenGone :
    ∃ c, (program {}).run messageThenGone start = some c ∧
      (c.shared.sessions 1).callbacks = [.connect, .message] ++ .disconnect :: [] ∧
      Callback.connect ∈ [Callback.connect, .message] ∧ Callback.message ∉ ([] : List Callback) := by
  have hobserved : ((program {}).run messageThenGone start).map
      (fun c => (c.shared.sessions 1).callbacks) = some [.connect, .message, .disconnect] := by
    decide +kernel
  have hchecks : (program {}).checks early lastCall messageThenGone start = true := by
    decide +kernel
  obtain ⟨c, hrun, hc⟩ := Option.map_eq_some_iff.1 hobserved
  have horder := (callback_order {} messageThenGone hrun).2.2.2
    (Program.allMeet_of_checks early lastCall messageThenGone hchecks)
  exact ⟨c, hrun, hc, horder 1 [.connect, .message] [] hc⟩

/-- A session is inserted, and closed before its connect handler is called. -/
def closedBeforeConnect : List (ℕ × Choice) :=
  acceptCompletes ++ List.replicate 5 (2, .passes) ++ (0, .closer 1) :: List.replicate 7 (3, .passes) ++
    List.replicate 2 (2, .passes)

/-- A session is closed when a worker has passed its test and has not called the message handler. -/
def closedBeforeMessage : List (ℕ × Choice) :=
  connection ++ (3, .completes true) :: (3, .passes) :: (3, .delivers) :: (3, .passes) ::
    (0, .closer 1) :: List.replicate 7 (5, .passes) ++ [(3, .passes)]

/-- **Neither order holds in every run.** -/
theorem order_fails :
    (∃ c, (program {}).run closedBeforeConnect start = some c ∧
        (c.shared.sessions 1).callbacks = [] ++ .disconnect :: [.connect] ∧
        Callback.connect ∉ ([] : List Callback)) ∧
      ∃ c, (program {}).run closedBeforeMessage start = some c ∧
        (c.shared.sessions 1).callbacks = [.connect] ++ .disconnect :: [.message] ∧
        Callback.message ∈ [Callback.message] := by
  have hconnect : ((program {}).run closedBeforeConnect start).map
      (fun c => (c.shared.sessions 1).callbacks) = some [.disconnect, .connect] := by
    decide +kernel
  have hmessage : ((program {}).run closedBeforeMessage start).map
      (fun c => (c.shared.sessions 1).callbacks) = some [.connect, .disconnect, .message] := by
    decide +kernel
  obtain ⟨c, hrun, hc⟩ := Option.map_eq_some_iff.1 hconnect
  obtain ⟨c', hrun', hc'⟩ := Option.map_eq_some_iff.1 hmessage
  exact ⟨⟨c, hrun, hc, List.not_mem_nil⟩, c', hrun', hc', List.mem_cons_self⟩

end Lifecycle

end RealtimeEngine
