/-
**What is accepted is transmitted, in boundedly many steps.**

`RealtimeEngine/OutboundStream.lean` says that nothing is transmitted that should not be.  Here it is
shown that the pipeline of a session also comes to an end with what it has accepted, whatever the
other threads do in between.  A measure counts what the threads of the session have still to do: it
pays for each byte in the queue with the four steps of a write that transmits this byte alone.  A
completion may transmit less than it was given, but one that transmits nothing is a failure, and a
failure ends in `Disconnect`.

Main definitions:

* `RealtimeEngine.Outbound.Action.effort`, `RealtimeEngine.Outbound.effort` — the measure.

Main results:

* `RealtimeEngine.Outbound.Step.effort` — every step of the session lowers it, no other raises it;
* `RealtimeEngine.Outbound.Reachable.settled` — what holds when no thread of the session is left;
* `RealtimeEngine.Outbound.transmits` — **the run theorem**.
-/

import Mathlib.Algebra.Order.BigOperators.Group.List
import RealtimeEngine.OutboundStream
import RealtimeEngine.RunHistory

set_option relaxedAutoImplicit false
set_option autoImplicit false

namespace RealtimeEngine

/-! ### Cursors -/

theorem OutboundItem.remaining_operation (item : OutboundItem) :
    item.operation.cursor.remaining = item.size :=
  Nat.sub_zero _

namespace SendCursor

theorem length_buffers_le (c : SendCursor) : c.buffers.length ≤ c.remaining := by
  have hlength : c.headerRemainder.length + c.payloadRemainder.length = c.remaining := by
    rw [← List.length_append, remainder_eq, List.length_drop, List.length_append]
    rfl
  rw [buffers, List.length_append, ← hlength]
  exact Nat.add_le_add (List.length_take_le' _ _) (List.length_take_le' _ _)

theorem remaining_consume (c : SendCursor) (n : ℕ) :
    (c.consume n).remaining = c.remaining - n := by
  show c.totalSize - (c.sent + if n > c.remaining then c.remaining else n) = c.remaining - n
  rw [← Nat.sub_sub, ← remaining]
  split <;> omega

end SendCursor

namespace Outbound

open Interleaving

variable {ι : Type*}

/-! ### The measure -/

/-- What the threads of a session have to do for an item in its queue. -/
def itemEffort (item : OutboundItem) : ℕ := 4 * item.size + 8

/-- How many steps can follow from the action, itself included, beside what is in the queue. -/
def Action.effort : Action ι → ℕ
  | .outside => 0
  | .enqueue _ item => itemEffort item + 4
  | .startNextWrite _ | .disconnect _ => 3
  | .allocate _ item => itemEffort item + 2
  | .unchargeSession _ _ | .finishWrite _ _ _ => 5
  | .unchargeServer _ _ | .finishServer _ _ _ _ => 4
  | .postWrite _ op => 4 * op.cursor.remaining + 9
  | .wsaSend _ op => 4 * op.cursor.remaining + 8
  | .inFlight _ op => 4 * op.cursor.remaining + 7
  | .handleWrite _ op succeeded n =>
      if !succeeded || n == 0 then 6 else 4 * (op.cursor.remaining - n) + 10
  | .closeSocket _ => 2
  | .drain _ | .drainServer _ _ => 1

variable [DecidableEq ι]

/-- What an action has to do for the session. -/
def effortFor (s : ι) (p : Action ι) : ℕ := if p.session? = some s then p.effort else 0

/-- What the threads of a session have still to do. -/
def effort (s : ι) (sh : Shared ι) (P : Multiset (Action ι)) : ℕ :=
  ((sh.sessions s).sendQueue.map itemEffort).sum + weight (effortFor s) P

theorem effortFor_self {s : ι} {p : Action ι} (h : p.session? = some s) : effortFor s p = p.effort :=
  if_pos h

theorem effortFor_of_ne {s : ι} {p : Action ι} (h : p.session? ≠ some s) : effortFor s p = 0 :=
  if_neg h

/-- The move starts a thread of the session. -/
def Choice.calls (s : ι) : Choice ι → Bool
  | .enqueuer s' _ | .disconnecter s' => decide (s' = s)
  | _ => false

/-! ### One step -/

section Steps

variable {config : ServerConfig} {sh sh' : Shared ι} {p : Action ι} {new : List (Action ι)}
  {R : Multiset (Action ι)} {s : ι}

omit [DecidableEq ι] in
/-- What follows a completion is less than the completion. -/
theorem effort_handleWriteNext (s : ι) (op : WriteOperation) (succeeded : Bool) (n : ℕ) :
    (handleWriteNext s op succeeded n).effort < (Action.handleWrite s op succeeded n).effort := by
  show _ < if !succeeded || n == 0 then 6 else 4 * (op.cursor.remaining - n) + 10
  unfold handleWriteNext
  split
  · exact Nat.lt_succ_self 5
  · dsimp only
    split
    · show 4 * (op.cursor.consume n).remaining + 9 < _
      rw [SendCursor.remaining_consume]
      exact Nat.lt_succ_self _
    · exact Nat.lt_of_lt_of_le (by decide : 5 < 10) (Nat.le_add_left 10 _)

omit [DecidableEq ι] in
/-- A completion costs less than waiting for it. -/
theorem effort_handleWrite (s : ι) {op : WriteOperation} (succeeded : Bool) {n : ℕ}
    (h : n ≤ op.cursor.buffers.length) :
    (Action.handleWrite s op succeeded n).effort < (Action.inFlight s op).effort := by
  have hn := h.trans op.cursor.length_buffers_le
  show (if !succeeded || n == 0 then 6 else 4 * (op.cursor.remaining - n) + 10) <
    4 * op.cursor.remaining + 7
  split
  · omega
  · next hmoves =>
      have hpos : n ≠ 0 := fun h0 => hmoves (by simp [h0])
      omega

/-- The queue is given back item by item. -/
theorem sum_drainServer (s : ι) (items : List OutboundItem) :
    ((items.map fun item => Action.drainServer s item.size).map (effortFor s)).sum ≤
      (items.map itemEffort).sum := by
  rw [List.map_map]
  refine List.sum_le_sum fun item _ => ?_
  rw [Function.comp_apply, effortFor_self rfl, Action.effort, itemEffort]
  omega

/-- One action is followed by another one, and the queue stays as it is. -/
theorem effort_next {q : Action ι} (hq : ∀ q' ∈ [q], q'.session? = some s)
    (hqueue : (sh'.sessions s).sendQueue = (sh.sessions s).sendQueue) (hless : q.effort < p.effort) :
    ((sh'.sessions s).sendQueue.map itemEffort).sum + ([q].map (effortFor s)).sum <
      ((sh.sessions s).sendQueue.map itemEffort).sum + p.effort := by
  rw [List.map_singleton, List.sum_singleton, effortFor_self (hq q (List.mem_singleton_self q)), hqueue]
  exact Nat.add_lt_add_left hless _

/-- **Every step of the session lowers what is left to do.** -/
theorem Step.effort (hstep : Step config sh p sh' new) (hp : p.session? = some s) :
    effort s sh' (new + R) < effort s sh (p ::ₘ R) := by
  have hnew : ∀ q ∈ new, q.session? = some s := fun q hq =>
    (hstep.session (fun heq => by rw [heq] at hp; cases hp) q hq).1.trans hp
  unfold Outbound.effort
  rw [weight_cons, weight_add, weight_coe, effortFor_self hp]
  -- it is enough to look at the queue, the action and what follows it
  suffices hless : ((sh'.sessions s).sendQueue.map itemEffort).sum + (new.map (effortFor s)).sum <
      ((sh.sessions s).sendQueue.map itemEffort).sum + p.effort by omega
  cases hstep with
  | enqueuer s' item => cases hp
  | disconnecter s' => cases hp
  | @accepted s' item hacc =>
      obtain rfl := Option.some.inj hp
      have hnext : ((if (sh.sessions s').writeActive then [] else
          [Action.startNextWrite s']).map (effortFor s')).sum ≤ 3 := by
        split
        · exact Nat.zero_le 3
        · exact (if_pos rfl).le
      simp only [push, modify_self, List.map_append, List.sum_append, List.map_singleton,
        List.sum_singleton, Action.effort]
      omega
  | @refused s' item hacc =>
      obtain rfl := Option.some.inj hp
      have hnext : ((if item.closeAfter then [Action.disconnect s'] else []).map
          (effortFor s')).sum ≤ 3 := by
        split
        · exact (if_pos rfl).le
        · exact Nat.zero_le 3
      simp only [Action.effort]
      omega
  | popped hqueue =>
      obtain rfl := Option.some.inj hp
      rw [List.map_singleton, List.sum_singleton, effortFor_self rfl, hqueue]
      simp only [pop, modify_self, List.map_cons, List.sum_cons, Action.effort]
      omega
  | allocated s' item =>
      refine effort_next hnew rfl ?_
      simp only [Action.effort, OutboundItem.remaining_operation, itemEffort]
      omega
  | completed s' succeeded hn =>
      obtain rfl := Option.some.inj hp
      exact effort_next hnew (by simp) (effort_handleWrite s' succeeded hn)
  | handled s' op succeeded n => exact effort_next hnew rfl (effort_handleWriteNext s' op succeeded n)
  | finishedServer s' bytes succeeded closeAfter =>
      refine effort_next hnew rfl ?_
      split
      · exact Nat.lt_succ_self 3
      · exact Nat.lt_succ_self 3
  | drained s' =>
      obtain rfl := Option.some.inj hp
      have hgiven := sum_drainServer s' (sh.sessions s').sendQueue
      simp only [drainQueue, modify_self, List.map_nil, List.sum_nil, Action.effort]
      omega
  | idle hqueue =>
      obtain rfl := Option.some.inj hp
      rw [modify_self]
      exact Nat.lt_add_of_pos_right (by decide : 0 < 3)
  | disconnected hstarted => exact Nat.lt_add_of_pos_right (by decide : 0 < 3)
  | drainedServer s' bytes => exact Nat.lt_add_of_pos_right Nat.one_pos
  | _ =>
      obtain rfl := Option.some.inj hp
      refine effort_next hnew (by simp [Shared.release]) ?_
      simp only [Action.effort, itemEffort]
      omega

/-- Other steps leave it as it is, unless they start a thread of the session. -/
theorem Step.effort_of_ne (hstep : Step config sh p sh' new) (hp : p.session? ≠ some s)
    (hnew : ∀ q ∈ new, q.session? ≠ some s) :
    Outbound.effort s sh' (new + R) = Outbound.effort s sh (p ::ₘ R) := by
  unfold Outbound.effort
  rw [weight_cons, weight_add, (hstep.frame hp).1, effortFor_of_ne hp,
    weight_eq_zero fun q hq => effortFor_of_ne (hnew q (Multiset.mem_coe.1 hq))]

end Steps

/-- **What a step of the program does to what is left to do.** -/
theorem exec_effort {config : ServerConfig} {sh : Shared ι} {p : Action ι} {R : Multiset (Action ι)}
    {x : Choice ι} {o : Outcome (Shared ι) (Action ι)} (h : exec config x p sh = some o) {s : ι}
    (hcalls : x.calls s = false) :
    (if p.session? = some s then 1 else 0) + effort s o.shared (o.next + o.forked.flatten + R) ≤
      effort s sh (p ::ₘ R) := by
  have hstep := exec_step h
  rw [Multiset.coe_add]
  by_cases hp : p.session? = some s
  · rw [if_pos hp, Nat.add_comm]
    exact hstep.effort hp
  · rw [if_neg hp, Nat.zero_add]
    refine (hstep.effort_of_ne hp fun q hq hs => ?_).le
    by_cases houtside : p = .outside
    · subst houtside
      cases x with
      | enqueuer s' item =>
          obtain rfl := Option.some.inj h
          rcases List.mem_pair.1 hq with rfl | rfl
          · cases hs
          · exact of_decide_eq_false hcalls (Option.some.inj hs)
      | disconnecter s' =>
          obtain rfl := Option.some.inj h
          rcases List.mem_pair.1 hq with rfl | rfl
          · cases hs
          · exact of_decide_eq_false hcalls (Option.some.inj hs)
      | _ => cases h
    · exact hp ((hstep.session houtside q hq).1.symm.trans hs)

/-! ### The end -/

theorem Step.enabled {config : ServerConfig} {sh sh' : Shared ι} {p : Action ι}
    {new : List (Action ι)} (hstep : Step config sh p sh' new) :
    ∃ x o, Outbound.exec config x p sh = some o := by
  obtain ⟨x, o, hexec, -⟩ := hstep.exec
  exact ⟨x, o, hexec⟩

/-- Every thread of a session can go on. -/
theorem exists_exec (config : ServerConfig) (sh : Shared ι) {s : ι} {p : Action ι}
    (hp : p.session? = some s) : ∃ x o, exec config x p sh = some o := by
  cases p with
  | outside => cases hp
  | inFlight s' op => exact (Step.completed s' true (Nat.zero_le _)).enabled
  | enqueue s' item =>
      cases hacc : accepts config sh s' item with
      | true => exact (Step.accepted hacc).enabled
      | false => exact (Step.refused hacc).enabled
  | startNextWrite s' =>
      cases hqueue : (sh.sessions s').sendQueue with
      | nil => exact (Step.idle hqueue).enabled
      | cons item queue => exact (Step.popped hqueue).enabled
  | disconnect s' =>
      cases hstarted : (sh.sessions s').disconnectStarted with
      | true => exact (Step.disconnected hstarted).enabled
      | false => exact (Step.disconnecting hstarted).enabled
  | _ => exact ⟨.succeeds, _, rfl⟩

/-- **When no thread of a session is left**, its queue is empty, and it is disconnected or everything
that it has accepted is transmitted. -/
theorem Reachable.settled {config : ServerConfig} {sh : Shared ι} {P : Multiset (Action ι)}
    (h : Reachable config sh P) {s : ι} (hquiet : ∀ p ∈ P, p.session? ≠ some s) :
    (sh.sessions s).sendQueue = [] ∧ ((sh.sessions s).disconnectStarted = true ∨
      (sh.sessions s).wire = stream (sh.sessions s).pushed ∧
        ∀ item ∈ (sh.sessions s).pushed, item.closeAfter = false) := by
  have hpipe := h.pipeline s
  have hrecord := (h.streams s).record
  cases hstarted : (sh.sessions s).disconnectStarted with
  | true =>
      refine ⟨?_, Or.inl rfl⟩
      rcases hpipe.drained hstarted with hempty | hpending | hpending
      · exact hempty
      · exact absurd rfl (hquiet _ hpending)
      · exact absurd rfl (hquiet _ hpending)
  | false =>
      have hidle : (sh.sessions s).writeActive = false := by
        by_contra hactive
        rcases hpipe.awake (by simpa using hactive) with hone | hpending | hstarted'
        · have hzero : weight (token s) P = 0 :=
            weight_eq_zero fun p hp => token_of_session (hquiet p hp)
          omega
        · exact absurd rfl (hquiet _ hpending)
        · rw [hstarted] at hstarted'
          cases hstarted'
      have hempty := hpipe.idle hidle
      have hall := hrecord.complete hstarted
      rw [hempty, List.append_nil] at hall
      obtain ⟨hwire, hlast⟩ := hrecord.caught hidle
      rw [hall] at hwire hlast
      exact ⟨hempty, Or.inr ⟨hwire, hlast⟩⟩

/-- **What a session has accepted is transmitted.**  From every reachable state on, as long as nobody
calls `Enqueue` or `Disconnect` for it anew, the threads of a session make at most `effort` steps,
whatever the others do in between and whatever `WSASend` and the completions report.  Whoever of them
is left can go on.  When none is left, the queue is empty, and the session is disconnected or
everything that it has ever accepted is transmitted to the last byte. -/
theorem transmits (config : ServerConfig) (before moves : List (ℕ × Choice ι))
    {c₀ c : Config (Shared ι) (Action ι)} (hbefore : (program config).run before start = some c₀)
    (s : ι) (hcalls : ∀ move ∈ moves, move.2.calls s = false)
    (hrun : (program config).run moves c₀ = some c) :
    ((program config).history moves c₀).countP (fun event => event.action.session? = some s) +
        effort s c.shared c.pending ≤ effort s c₀.shared c₀.pending ∧
      (∀ p ∈ c.pending, p.session? = some s → ∃ x o, exec config x p c.shared = some o) ∧
      ((∀ p ∈ c.pending, p.session? ≠ some s) → (c.shared.sessions s).sendQueue = [] ∧
        ((c.shared.sessions s).disconnectStarted = true ∨
          (c.shared.sessions s).wire = stream (c.shared.sessions s).pushed ∧
            ∀ item ∈ (c.shared.sessions s).pushed, item.closeAfter = false)) := by
  have hreachable : Reachable config c.shared c.pending := by
    have hall : (program config).run (before ++ moves) start = some c := by
      rw [Program.run_append, hbefore]
      exact hrun
    exact reachable_of_run hall
  refine ⟨?_, fun p _ hp => exists_exec config c.shared hp, hreachable.settled⟩
  have hexec : ∀ (x : Choice ι) (p : Action ι) (sh : Shared ι) (R : Multiset (Action ι))
      (o : Outcome (Shared ι) (Action ι)), exec config x p sh = some o → x.calls s = false →
      [(⟨x, p, sh⟩ : Event (Shared ι) (Action ι) (Choice ι))].countP
        (fun event => event.action.session? = some s) +
          effort s o.shared (o.next + o.forked.flatten + R) ≤ effort s sh (p ::ₘ R) := by
    intro x p sh R o ho hx
    rw [List.countP_singleton]
    simpa using exec_effort ho hx
  exact Program.countP_history_le (P := program config) (m := effort s) hexec moves hcalls hrun

/-- One item is written, its bytes one after the other in two completions. -/
def twoCompletions : List (ℕ × Choice Bool) :=
  List.replicate 5 (1, .succeeds) ++ [(2, .completes true 1), (2, .succeeds), (2, .succeeds),
    (2, .succeeds), (3, .completes true 2)] ++ List.replicate 4 (3, .succeeds)

/-- The item is worth 24 steps; at their end it is transmitted. -/
theorem transmits_twoCompletions : ∃ c₀ c,
    (program {}).run [(0, .enqueuer false shortItem)] start = some c₀ ∧
      (program {}).run twoCompletions c₀ = some c ∧
      ((program {}).history twoCompletions c₀).countP (fun event =>
        event.action.session? = some false) + effort false c.shared c.pending ≤ 24 ∧
      (c.shared.sessions false).wire = stream [shortItem] := by
  obtain ⟨hsteps, -, hend⟩ :=
    transmits {} [(0, .enqueuer false shortItem)] twoCompletions rfl false (by decide) rfl
  refine ⟨_, _, rfl, rfl, hsteps, ?_⟩
  obtain ⟨-, hdisconnected | ⟨hwire, -⟩⟩ := hend (by decide)
  · cases hdisconnected
  · exact hwire

end Outbound

end RealtimeEngine
