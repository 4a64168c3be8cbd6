/-
**One write pipeline per session, and who keeps it going.**

`write_active` is a token: whoever sets it starts the pipeline, the token is then handed from
`StartNextWrite` to the write in flight, to `FinishWrite` and back to `StartNextWrite`, and it is
put down when the queue is found empty.  A write that fails, or whose item is the last one, drops
the token and disconnects instead.

* `RealtimeEngine.Outbound.token` — the action holds the token of the session;
* `RealtimeEngine.Outbound.Pipeline` — the invariant: **at most one token, and a pipeline that is
  active has its token, or its session is being disconnected**;
* `RealtimeEngine.Outbound.Pipeline.step`, `RealtimeEngine.Outbound.Reachable.pipeline` — every step
  keeps it, so it holds in every reachable state.
-/

import RealtimeEngine.Outbound

set_option relaxedAutoImplicit false
set_option autoImplicit false

namespace RealtimeEngine

namespace Outbound

open Interleaving

variable {ι : Type*} [DecidableEq ι]

/-! ### The token -/

/-- The session whose token the action holds. -/
def Action.token? : Action ι → Option ι
  | .startNextWrite s | .allocate s _ | .unchargeSession s _ | .unchargeServer s _
  | .postWrite s _ | .wsaSend s _ | .inFlight s _ | .handleWrite s _ _ _ | .finishWrite s _ _
  | .finishServer s _ _ _ => some s
  | _ => none

/-- The number of tokens of the session that the action holds. -/
def token (s : ι) (p : Action ι) : ℕ := if p.token? = some s then 1 else 0

theorem token_self {s : ι} {p : Action ι} (h : p.token? = some s) : token s p = 1 := if_pos h

theorem token_of_ne {s s' : ι} {p : Action ι} (h : p.token? = some s) (hne : s' ≠ s) :
    token s' p = 0 := by
  rw [token, h, if_neg]
  simpa using hne.symm

omit [DecidableEq ι] in
/-- `HandleWrite` keeps the token. -/
theorem token_handleWriteNext (s : ι) (op : WriteOperation) (succeeded : Bool) (n : ℕ) :
    (handleWriteNext s op succeeded n).token? = some s := by
  unfold handleWriteNext
  split
  · rfl
  · dsimp only
    split <;> rfl

/-- Only the actions of a session hold its token. -/
theorem token_of_session {s : ι} {p : Action ι} (h : p.session? ≠ some s) : token s p = 0 := by
  cases p with
  | outside => rfl
  | enqueue s' _ | disconnect s' | closeSocket s' | drain s' | drainServer s' _ => rfl
  | _ => exact token_of_ne rfl fun heq => h (congrArg some heq.symm)

/-- **The state of the write pipeline of a session.** -/
structure Pipeline (sh : Shared ι) (P : Multiset (Action ι)) (s : ι) : Prop where
  /-- There is at most one token, and none while the pipeline is idle. -/
  atMostOne : weight (token s) P ≤ if (sh.sessions s).writeActive then 1 else 0
  /-- An active pipeline has its token, unless its session is being disconnected. -/
  awake : (sh.sessions s).writeActive = true →
    weight (token s) P = 1 ∨ .disconnect s ∈ P ∨ (sh.sessions s).disconnectStarted = true
  /-- An idle pipeline has nothing to write. -/
  idle : (sh.sessions s).writeActive = false → (sh.sessions s).sendQueue = []
  /-- The queue of a disconnected session is empty, or it is about to be drained. -/
  drained : (sh.sessions s).disconnectStarted = true →
    (sh.sessions s).sendQueue = [] ∨ .closeSocket s ∈ P ∨ .drain s ∈ P

/-! ### One step -/

section Steps

variable {config : ServerConfig} {sh sh' : Shared ι} {p : Action ι} {new : List (Action ι)}
  {R : Multiset (Action ι)} {s : ι}

omit [DecidableEq ι] in
theorem mem_rest {q : Action ι} (hq : q ∈ p ::ₘ R) (hne : p ≠ q) :
    q ∈ (new : Multiset (Action ι)) + R :=
  Multiset.mem_add.2 (Or.inr ((Multiset.mem_cons.1 hq).resolve_left (Ne.symm hne)))

/-- A step that hands the token on, or has nothing to do with it, and leaves the flags alone. -/
theorem Pipeline.same (h : Pipeline sh (p ::ₘ R) s)
    (hactive : (sh'.sessions s).writeActive = (sh.sessions s).writeActive)
    (hstarted : (sh'.sessions s).disconnectStarted = (sh.sessions s).disconnectStarted)
    (hqueue : (sh'.sessions s).sendQueue = (sh.sessions s).sendQueue)
    (htoken : (new.map (token s)).sum = token s p)
    (hkeep : p = .disconnect s → (sh.sessions s).disconnectStarted = true)
    (hclose : p ≠ .closeSocket s) (hdrain : p ≠ .drain s) : Pipeline sh' (new + R) s := by
  have hweight : weight (token s) ((new : Multiset (Action ι)) + R) =
      weight (token s) (p ::ₘ R) := by
    rw [weight_add, weight_coe, htoken, weight_cons]
  refine ⟨?_, fun hs => ?_, fun hs => ?_, fun hs => ?_⟩
  · rw [hweight, hactive]
    exact h.atMostOne
  · rw [hactive] at hs
    rw [hweight, hstarted]
    rcases h.awake hs with hone | hpending | hdone
    · exact Or.inl hone
    · by_cases hp : p = .disconnect s
      · exact Or.inr (Or.inr (hkeep hp))
      · exact Or.inr (Or.inl (mem_rest hpending hp))
    · exact Or.inr (Or.inr hdone)
  · rw [hactive] at hs
    rw [hqueue]
    exact h.idle hs
  · rw [hstarted] at hs
    rw [hqueue]
    rcases h.drained hs with hempty | hpending | hpending
    · exact Or.inl hempty
    · exact Or.inr (Or.inl (mem_rest hpending hclose))
    · exact Or.inr (Or.inr (mem_rest hpending hdrain))

/-- A step of another session. -/
theorem Pipeline.other (h : Pipeline sh (p ::ₘ R) s) (hstep : Step config sh p sh' new)
    (hp : p.session? ≠ some s) : Pipeline sh' (new + R) s := by
  obtain ⟨hsame, hnew⟩ := hstep.frame hp
  have hne : ∀ q : Action ι, q.session? = some s → p ≠ q := by
    intro q hq heq
    exact hp (heq ▸ hq)
  refine h.same (by rw [hsame]) (by rw [hsame]) (by rw [hsame]) ?_
    (fun heq => absurd heq (hne _ rfl)) (hne _ rfl) (hne _ rfl)
  rw [token_of_session hp]
  refine List.sum_eq_zero (List.forall_mem_map.2 fun q hq => ?_)
  by_cases hs : q.session? = some s
  · rcases hnew q hq hs with ⟨item, rfl⟩ | rfl
    · rfl
    · rfl
  · exact token_of_session hs

/-- An action with the token is one of an active pipeline, and the only one. -/
theorem Pipeline.alone (h : Pipeline sh (p ::ₘ R) s) (hp : p.token? = some s) :
    (sh.sessions s).writeActive = true ∧ weight (token s) R = 0 := by
  have hone := h.atMostOne
  rw [weight_cons, token_self hp] at hone
  cases hactive : (sh.sessions s).writeActive with
  | true =>
      rw [hactive, if_pos rfl] at hone
      exact ⟨rfl, by omega⟩
  | false =>
      simp [hactive] at hone

/-- A step that drops the token and disconnects instead. -/
theorem Pipeline.drop (h : Pipeline sh (p ::ₘ R) s) (hp : p.token? = some s)
    (hsame : sh'.sessions = sh.sessions) : Pipeline sh'
    (([.disconnect s] : List (Action ι)) + R) s := by
  obtain ⟨hactive, hrest⟩ := h.alone hp
  refine ⟨?_, fun _ => ?_, fun hs => ?_, fun hs => ?_⟩
  · rw [weight_add, hrest]
    exact Nat.zero_le _
  · exact Or.inr (Or.inl (Multiset.mem_add.2 (Or.inl (List.mem_singleton.2 rfl))))
  · rw [hsame, hactive] at hs
    cases hs
  · rw [hsame] at hs ⊢
    rcases h.drained hs with hempty | hpending | hpending
    · exact Or.inl hempty
    · refine Or.inr (Or.inl (mem_rest hpending fun heq => ?_))
      rw [heq] at hp
      cases hp
    · refine Or.inr (Or.inr (mem_rest hpending fun heq => ?_))
      rw [heq] at hp
      cases hp

/-- **Every step keeps the pipelines going.** -/
theorem Pipeline.step (hstep : Step config sh p sh' new) (h : Pipeline sh (p ::ₘ R) s) :
    Pipeline sh' (new + R) s := by
  by_cases hp : p.session? ≠ some s
  · exact h.other hstep hp
  rw [not_not] at hp
  have hpass : ∀ {q : Action ι}, token s q = token s p → ([q].map (token s)).sum = token s p := by
    intro q hq
    rw [List.map_singleton, List.sum_singleton, hq]
  cases hstep with
  | enqueuer s' item => cases hp
  | disconnecter s' => cases hp
  | @accepted s' item hacc =>
      obtain rfl := Option.some.inj hp
      have hopen := (accepts_iff.1 hacc).1
      have hone : weight (token s') R ≤ if (sh.sessions s').writeActive then 1 else 0 := by
        simpa [token, Action.token?] using h.atMostOne
      refine ⟨?_, fun _ => ?_, fun hs => ?_, fun hs => ?_⟩
      · rw [weight_add, weight_coe]
        cases hactive : (sh.sessions s').writeActive with
        | true => simpa [push, hactive] using hone
        | false =>
            have hrest : weight (token s') R = 0 := by simpa [hactive] using hone
            simp [push, hrest, token, Action.token?]
      · cases hactive : (sh.sessions s').writeActive with
        | true =>
            rcases h.awake hactive with htoken | hpending | hstarted
            · exact Or.inl (by simpa [token, Action.token?] using htoken)
            · exact Or.inr (Or.inl (mem_rest hpending (by intro heq; cases heq)))
            · rw [hopen] at hstarted
              cases hstarted
        | false =>
            -- whoever finds the pipeline idle gets the token
            rw [hactive] at hone
            have hrest : weight (token s') R = 0 := by simpa using hone
            refine Or.inl ?_
            simp [hrest, token, Action.token?]
      · simp [push] at hs
      · rw [push, modify_self, hopen] at hs
        cases hs
  | refused hacc =>
      obtain rfl := Option.some.inj hp
      refine h.same rfl rfl rfl ?_ (by intro heq; cases heq) (by intro heq; cases heq)
        (by intro heq; cases heq)
      split <;> rfl
  | idle hqueue =>
      obtain rfl := Option.some.inj hp
      obtain ⟨-, hrest⟩ := h.alone rfl
      refine ⟨?_, fun hs => ?_, fun _ => ?_, fun _ => Or.inl ?_⟩
      · simp [hrest]
      · simp at hs
      · simpa using hqueue
      · simpa using hqueue
  | popped hqueue =>
      obtain rfl := Option.some.inj hp
      obtain ⟨hactive, hrest⟩ := h.alone rfl
      refine ⟨?_, fun _ => Or.inl ?_, fun hs => ?_, fun hs => ?_⟩
      · simp [pop, hactive, hrest, token, Action.token?]
      · simp [hrest, token, Action.token?]
      · rw [pop, modify_self, hactive] at hs
        cases hs
      · rw [pop, modify_self] at hs
        rcases h.drained hs with hempty | hpending | hpending
        · rw [hqueue] at hempty
          cases hempty
        · exact Or.inr (Or.inl (mem_rest hpending (by intro heq; cases heq)))
        · exact Or.inr (Or.inr (mem_rest hpending (by intro heq; cases heq)))
  | unchargedServer s' bytes =>
      obtain rfl := Option.some.inj hp
      exact h.drop rfl rfl
  | handled s' op succeeded n =>
      obtain rfl := Option.some.inj hp
      refine h.same rfl rfl rfl (hpass ?_) (by intro heq; cases heq) (by intro heq; cases heq)
        (by intro heq; cases heq)
      rw [token_self (token_handleWriteNext s' op succeeded n), token_self rfl]
  | finishedServer s' bytes succeeded closeAfter =>
      obtain rfl := Option.some.inj hp
      by_cases hlast : (!succeeded || closeAfter) = true
      · rw [if_pos hlast]
        exact h.drop rfl rfl
      · rw [if_neg hlast]
        exact h.same rfl rfl rfl (hpass rfl) (by intro heq; cases heq) (by intro heq; cases heq)
          (by intro heq; cases heq)
  | disconnected hstarted =>
      obtain rfl := Option.some.inj hp
      exact h.same rfl rfl rfl rfl (fun _ => hstarted) (by intro heq; cases heq)
        (by intro heq; cases heq)
  | disconnecting hstarted =>
      obtain rfl := Option.some.inj hp
      refine ⟨?_, fun _ => Or.inr (Or.inr ?_), fun hs => ?_, fun _ => Or.inr (Or.inl ?_)⟩
      · simpa [token, Action.token?] using h.atMostOne
      · simp
      · simpa using h.idle (by simpa using hs)
      · simp
  | closed s' =>
      obtain rfl := Option.some.inj hp
      refine ⟨?_, fun hs => ?_, fun hs => ?_, fun _ => Or.inr (Or.inr ?_)⟩
      · simpa [token, Action.token?] using h.atMostOne
      · rcases h.awake (by simpa using hs) with htoken | hpending | hstarted
        · exact Or.inl (by simpa [token, Action.token?] using htoken)
        · exact Or.inr (Or.inl (mem_rest hpending (by intro heq; cases heq)))
        · exact Or.inr (Or.inr (by simpa using hstarted))
      · simpa using h.idle (by simpa using hs)
      · simp
  | drained s' =>
      obtain rfl := Option.some.inj hp
      have hnew : (((sh.sessions s').sendQueue.map fun item =>
          Action.drainServer s' item.size).map (token s')).sum = 0 :=
        List.sum_eq_zero (List.forall_mem_map.2 (List.forall_mem_map.2 fun _ _ => rfl))
      have hweight : weight (token s') ((((sh.sessions s').sendQueue.map fun item =>
          Action.drainServer s' item.size : List (Action ι)) : Multiset (Action ι)) + R) =
          weight (token s') R := by
        rw [weight_add, weight_coe, hnew, Nat.zero_add]
      refine ⟨?_, fun hs => ?_, fun _ => ?_, fun _ => Or.inl ?_⟩
      · rw [hweight]
        simpa [drainQueue, token, Action.token?] using h.atMostOne
      · rw [hweight]
        rcases h.awake (by simpa [drainQueue] using hs) with htoken | hpending | hstarted
        · exact Or.inl (by simpa [token, Action.token?] using htoken)
        · exact Or.inr (Or.inl (mem_rest hpending (by intro heq; cases heq)))
        · exact Or.inr (Or.inr (by simpa [drainQueue] using hstarted))
      · simp [drainQueue]
      · simp [drainQueue]
  | drainedServer s' bytes =>
      obtain rfl := Option.some.inj hp
      exact h.same rfl rfl rfl rfl (by intro heq; cases heq) (by intro heq; cases heq)
        (by intro heq; cases heq)
  | _ =>
      obtain rfl := Option.some.inj hp
      refine h.same ?_ ?_ ?_ (hpass rfl) (by intro heq; cases heq) (by intro heq; cases heq)
        (by intro heq; cases heq)
      all_goals first | rfl | simp

end Steps

/-- **The pipelines are right in every reachable state.** -/
theorem Reachable.pipeline {config : ServerConfig} {sh : Shared ι} {P : Multiset (Action ι)}
    (h : Reachable config sh P) (s : ι) : Pipeline sh P s := by
  refine h.invariant (I := fun sh P => Pipeline sh P s) ?_ Pipeline.step
  exact ⟨Nat.zero_le _, fun hs => (Bool.false_ne_true hs).elim, fun _ => rfl, fun _ => Or.inl rfl⟩

/-- An item of a one byte header and a two byte payload. -/
def shortItem : OutboundItem := ⟨[130], [1, 2], false, by decide⟩

end Outbound

end RealtimeEngine
