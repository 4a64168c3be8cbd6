/-
**The bookkeeping of operations is exact.**

`outstanding_operations` is raised by `TrackOperation` before an operation is posted, and lowered by
`CompleteOperation` behind the release of its context.  So it counts the operations in the kernel
and those that a handler works on, and in addition those between the counter and the kernel.  Every
context has one owner, a thread or the kernel, until it is released, and a session has one thread
for its reads and one for its writes.

Main definitions:

* `RealtimeEngine.Lifecycle.Task.context?` — the context that a thread, or the kernel, owns;
* `RealtimeEngine.Lifecycle.Task.tracked`, `RealtimeEngine.Lifecycle.Task.outstanding` — its
  operation is counted, and it is in the kernel or being handled;
* `RealtimeEngine.Lifecycle.Operations` — the invariant.

Main results:

* `RealtimeEngine.Lifecycle.Operations.step` — every step keeps it;
* `RealtimeEngine.Lifecycle.operations_exact` — **the bookkeeping is exact in every run**.
-/

import RealtimeEngine.Lifecycle

set_option relaxedAutoImplicit false
set_option autoImplicit false

namespace RealtimeEngine

namespace Lifecycle

open Interleaving

/-! ### Owners -/

/-- The context that the task owns. -/
def Task.context? : Task → Option ℕ
  | .trackAccept op | .postAccept op _ | .accepting op | .handleAccept op _ | .checkLimit op
  | .associate op | .identify op | .insert op _ | .count op _ | .invokeConnect op _
  | .nextAccept op | .reaccept op | .releaseAccept op _ | .trackRead _ op | .postRead _ op _
  | .receive _ op _ | .reading _ op | .handleRead _ op _ | .processIncoming _ op
  | .testMessage _ op | .deliverMessage _ op | .repost _ op | .repostRunning _ op
  | .releaseRead _ op _ | .trackWrite _ op _ | .postWrite _ op _ _ | .wsaSend _ op _ _
  | .writing _ op _ | .handleWrite _ op _ _ | .finishWrite _ op _ _ => some op
  | _ => none

/-- The operation of the task is counted in `outstanding_operations`. -/
def Task.tracked : Task → Bool
  | .trackAccept _ | .trackRead _ _ | .trackWrite _ _ _ => false
  | .completeOperation | .completeWrite _ _ => true
  | task => task.context?.isSome

/-- The operation of the task is in the kernel, or it has come back and its handler has not released
it yet. -/
def Task.outstanding : Task → Bool
  | .postAccept _ posted | .releaseAccept _ posted | .postRead _ _ posted | .receive _ _ posted
  | .releaseRead _ _ posted | .postWrite _ _ _ posted | .wsaSend _ _ _ posted
  | .finishWrite _ _ _ posted => posted
  | .trackAccept _ | .trackRead _ _ | .trackWrite _ _ _ => false
  | task => task.context?.isSome

/-- The session whose reads the task is responsible for. -/
def Task.read? : Task → Option ℕ
  | .insert _ s | .count _ s | .invokeConnect _ s | .newRead s | .trackRead s _ | .postRead s _ _
  | .receive s _ _ | .reading s _ | .handleRead s _ _ | .processIncoming s _ | .testMessage s _
  | .deliverMessage s _ | .repost s _ | .repostRunning s _ | .releaseRead s _ _ => some s
  | _ => none

/-- The session whose writes the task is responsible for. -/
def Task.write? : Task → Option ℕ
  | .startNextWrite s | .newWrite s _ | .trackWrite s _ _ | .postWrite s _ _ _ | .wsaSend s _ _ _
  | .writing s _ _ | .handleWrite s _ _ _ | .finishWrite s _ _ _ | .completeWrite s _ => some s
  | _ => none

/-- The task lowers `outstanding_operations`. -/
def Task.completes : Task → Bool
  | .completeOperation | .completeWrite _ _ => true
  | _ => false

/-- **The state of the operations.** -/
structure Operations (sv : Server) (P : Multiset Task) : Prop where
  tracked : sv.outstandingOperations = weight (fun t => t.tracked.toNat) P
  /-- A context has one owner until it is released, and none behind that. -/
  contexts : ∀ op, (holders Task.context? P).count op + sv.released op =
    if op < sv.contexts then 1 else 0
  reads : ∀ s, (holders Task.read? P).count s ≤ if s < sv.nextSessionId then 1 else 0
  writes : ∀ s, (holders Task.write? P).count s ≤ if (sv.sessions s).writeActive then 1 else 0

section Steps

variable {config : ServerConfig} {sv sv' : Server} {task : Task} {new : List Task}
  {R : Multiset Task}

theorem Moves.tracked (h : Moves config sv task new) :
    (new.map fun t => t.tracked.toNat).sum = task.tracked.toNat := by
  cases h with
  | noPeer s op posted | notReading s op posted => cases posted <;> rfl
  | _ => rfl

theorem Moves.context (h : Moves config sv task new) :
    new.filterMap Task.context? = task.context?.toList := by
  cases h with
  | noPeer s op posted | notReading s op posted => cases posted <;> rfl
  | _ => rfl

theorem Moves.read (h : Moves config sv task new) :
    new.filterMap Task.read? = task.read?.toList := by
  cases h with
  | noPeer s op posted | notReading s op posted => cases posted <;> rfl
  | _ => rfl

theorem Moves.write (h : Moves config sv task new) :
    new.filterMap Task.write? = task.write?.toList := by
  cases h with
  | noPeer s op posted | notReading s op posted => cases posted <;> rfl
  | _ => rfl

/-- **The counter follows the tracked operations.** -/
theorem Step.tracked (hstep : Step config sv task sv' new)
    (h : sv.outstandingOperations = weight (fun t => t.tracked.toNat) (task ::ₘ R)) :
    sv'.outstandingOperations = weight (fun t => t.tracked.toNat) ((new : Multiset Task) + R) := by
  rw [weight_cons] at h
  rw [weight_add, weight_coe]
  have htracks : ∀ t : Task, t.tracked.toNat = 1 → task.tracked.toNat = 0 →
      sv.outstandingOperations + 1 = ([t].map fun t => t.tracked.toNat).sum +
        weight (fun t => t.tracked.toNat) R := by
    intro t ht htask
    rw [htask] at h
    rw [List.map_singleton, List.sum_singleton, ht]
    omega
  have hcompletes : task.tracked.toNat = 1 → (new.map fun t => t.tracked.toNat).sum = 0 →
      Outbound.sub64 sv.outstandingOperations 1 = (new.map fun t => t.tracked.toNat).sum +
        weight (fun t => t.tracked.toNat) R := by
    intro htask hnew
    rw [htask] at h
    rw [hnew, Outbound.sub64_eq (by omega)]
    omega
  cases hstep with
  | arrives harrival =>
      obtain rfl | ⟨s, rfl⟩ | ⟨s, rfl⟩ | ⟨s, rfl, -⟩ | rfl := arrival_cases harrival <;> exact h
  | moves hmoves =>
      rw [hmoves.tracked]
      exact h
  | tracksAccept | tracksRead | tracksWrite => exact htracks _ rfl rfl
  | completes => exact hcompletes rfl rfl
  | completesWrite s again =>
      refine hcompletes rfl ?_
      cases again <;> rfl
  | refuses s closeAfter => cases closeAfter <;> exact h
  | enqueues s closeAfter => split <;> exact h
  | _ => exact h

/-- **The owners of the contexts change hands**, until a context is released. -/
theorem Step.contexts (hstep : Step config sv task sv' new) {op : ℕ}
    (h : (holders Task.context? (task ::ₘ R)).count op + sv.released op =
      if op < sv.contexts then 1 else 0) :
    (holders Task.context? (new + R)).count op + sv'.released op =
      if op < sv'.contexts then 1 else 0 := by
  -- a step that hands the context on
  have hsame : new.filterMap Task.context? = task.context?.toList → sv'.released = sv.released →
      sv'.contexts = sv.contexts → (holders Task.context? (new + R)).count op + sv'.released op =
        if op < sv'.contexts then 1 else 0 := by
    intro hnew hreleased hcontexts
    rw [holders_step hnew, hreleased, hcontexts]
    exact h
  -- a context is allocated
  have hcreate : ∀ t : Task, t.context? = some sv.contexts → task.context? = none →
      (holders Task.context? (([t] : List Task) + R)).count op + sv.released op =
        if op < sv.contexts + 1 then 1 else 0 := by
    intro t ht htask
    rw [holders_cons, htask, Option.toList_none, Multiset.coe_nil, zero_add] at h
    have hone : [t].filterMap Task.context? = [sv.contexts] := by simp [ht]
    rw [holders_add, holders_coe, hone, Multiset.coe_singleton, Multiset.count_add,
      Multiset.count_singleton]
    split_ifs at h ⊢ <;> omega
  -- a context is released
  have hrelease : ∀ (op' : ℕ), task.context? = some op' → new.filterMap Task.context? = [] →
      (holders Task.context? (new + R)).count op +
          Function.update sv.released op' (sv.released op' + 1) op =
        if op < sv.contexts then 1 else 0 := by
    intro op' htask hnew
    rw [holders_cons, htask, Option.toList_some, Multiset.coe_singleton, Multiset.count_add,
      Multiset.count_singleton] at h
    rw [holders_add, holders_coe, hnew, Multiset.coe_nil, zero_add]
    by_cases hop : op = op'
    · subst hop
      rw [Function.update_self]
      rw [if_pos rfl] at h
      omega
    · rw [Function.update_of_ne hop]
      rw [if_neg hop] at h
      omega
  cases hstep with
  | arrives harrival =>
      obtain rfl | ⟨s, rfl⟩ | ⟨s, rfl⟩ | ⟨s, rfl, -⟩ | rfl := arrival_cases harrival <;>
        exact hsame rfl rfl rfl
  | moves hmoves => exact hsame hmoves.context rfl rfl
  | createsAccept | createsRead | createsWrite => exact hcreate _ rfl rfl
  | releasesAccept | releasesRead | finishes => exact hrelease _ rfl rfl
  | refuses s closeAfter => cases closeAfter <;> exact hsame rfl rfl rfl
  | enqueues s closeAfter =>
      refine hsame ?_ rfl rfl
      split <;> rfl
  | completesWrite s again => cases again <;> exact hsame rfl rfl rfl
  | _ => exact hsame rfl rfl rfl

/-- **A session has one thread for its reads.** -/
theorem Step.reads (hstep : Step config sv task sv' new) {s : ℕ}
    (h : (holders Task.read? (task ::ₘ R)).count s ≤ if s < sv.nextSessionId then 1 else 0) :
    (holders Task.read? (new + R)).count s ≤ if s < sv'.nextSessionId then 1 else 0 := by
  have hsame : new.filterMap Task.read? = task.read?.toList → sv'.nextSessionId = sv.nextSessionId →
      (holders Task.read? (new + R)).count s ≤ if s < sv'.nextSessionId then 1 else 0 := by
    intro hnew hnext
    rw [holders_step hnew, hnext]
    exact h
  -- a thread that gives the session up
  have hless : new.filterMap Task.read? = [] → sv'.nextSessionId = sv.nextSessionId →
      (holders Task.read? (new + R)).count s ≤ if s < sv'.nextSessionId then 1 else 0 := by
    intro hnew hnext
    rw [holders_cons, Multiset.count_add] at h
    rw [holders_add, holders_coe, hnew, Multiset.coe_nil, zero_add, hnext]
    exact le_trans (Nat.le_add_left _ _) h
  cases hstep with
  | arrives harrival =>
      obtain rfl | ⟨s', rfl⟩ | ⟨s', rfl⟩ | ⟨s', rfl, -⟩ | rfl := arrival_cases harrival <;>
        exact hsame rfl rfl
  | moves hmoves => exact hsame hmoves.read rfl
  | identifies op =>
      rw [holders_cons] at h
      have hone : [Task.insert op sv.nextSessionId].filterMap Task.read? = [sv.nextSessionId] := rfl
      rw [holders_add, holders_coe, hone, Multiset.coe_singleton, Multiset.count_add,
        Multiset.count_singleton]
      simp only [Task.read?, Option.toList_none, Multiset.coe_nil, zero_add] at h
      dsimp only
      split_ifs at h ⊢ <;> omega
  | refuses s' closeAfter => cases closeAfter <;> exact hsame rfl rfl
  | enqueues s' closeAfter =>
      refine hsame ?_ rfl
      split <;> rfl
  | completesWrite s' again => cases again <;> exact hsame rfl rfl
  | noRead | releasesRead => exact hless rfl rfl
  | _ => exact hsame rfl rfl

/-- **A session has one thread for its writes**, while its pipeline is active. -/
theorem Step.writes (hstep : Step config sv task sv' new) {s : ℕ}
    (h : (holders Task.write? (task ::ₘ R)).count s ≤
      if (sv.sessions s).writeActive then 1 else 0) :
    (holders Task.write? (new + R)).count s ≤ if (sv'.sessions s).writeActive then 1 else 0 := by
  have hsame : new.filterMap Task.write? = task.write?.toList →
      (sv'.sessions s).writeActive = (sv.sessions s).writeActive →
      (holders Task.write? (new + R)).count s ≤
        if (sv'.sessions s).writeActive then 1 else 0 := by
    intro hnew hactive
    rw [holders_step hnew, hactive]
    exact h
  have hless : new.filterMap Task.write? = [] →
      (sv'.sessions s).writeActive = (sv.sessions s).writeActive →
      (holders Task.write? (new + R)).count s ≤
        if (sv'.sessions s).writeActive then 1 else 0 := by
    intro hnew hactive
    rw [holders_cons, Multiset.count_add] at h
    rw [holders_add, holders_coe, hnew, Multiset.coe_nil, zero_add, hactive]
    exact le_trans (Nat.le_add_left _ _) h
  cases hstep with
  | arrives harrival =>
      obtain rfl | ⟨s', rfl⟩ | ⟨s', rfl⟩ | ⟨s', rfl, -⟩ | rfl := arrival_cases harrival <;>
        exact hsame rfl rfl
  | moves hmoves => exact hsame hmoves.write rfl
  | refuses s' closeAfter => cases closeAfter <;> exact hsame rfl rfl
  | enqueues s' closeAfter =>
      -- whoever finds the pipeline idle starts it
      have hcaller : ((Task.enqueue s' closeAfter).write?.toList : Multiset ℕ) = 0 := rfl
      rw [holders_cons, hcaller, zero_add] at h
      by_cases hs : s = s'
      · subst hs
        rw [modify_self, if_pos rfl]
        cases hactive : (sv.sessions s).writeActive with
        | true =>
            rw [hactive, if_pos rfl] at h
            rw [if_pos rfl, Multiset.coe_nil, zero_add]
            exact h
        | false =>
            rw [hactive, if_neg (by decide)] at h
            rw [if_neg (by decide), holders_add, holders_coe, Multiset.count_add, Nat.le_zero.1 h]
            exact (Multiset.count_singleton_self s).le
      · rw [modify_of_ne sv hs]
        have hother : (holders Task.write? (((if (sv.sessions s').writeActive then []
            else [.startNextWrite s'] : List Task)) : Multiset Task)).count s = 0 := by
          split
          · rfl
          · rw [holders_coe]
            exact Multiset.count_eq_zero.2 (by simpa [Task.write?] using hs)
        rw [holders_add, Multiset.count_add, hother, zero_add]
        exact h
  | idles s' =>
      rw [holders_cons, Multiset.count_add] at h
      rw [Multiset.coe_nil, zero_add]
      by_cases hs : s = s'
      · subst hs
        rw [modify_self, if_neg Bool.false_ne_true]
        have hone : Multiset.count s ((Task.write? (.startNextWrite s)).toList : Multiset ℕ) = 1 := by
          simp [Task.write?]
        rw [hone] at h
        split_ifs at h <;> omega
      · rw [modify_of_ne sv hs]
        exact le_trans (Nat.le_add_left _ _) h
  | completesWrite s' again =>
      cases again with
      | true => exact hsame rfl rfl
      | false => exact hless rfl rfl
  | noWrite => exact hless rfl rfl
  | inserts op s' => exact hsame rfl (modify_field Session.writeActive sv s' s rfl)
  | invokesConnect op s' => exact hsame rfl (modify_field Session.writeActive sv s' s rfl)
  | deliversMessage s' op => exact hsame rfl (modify_field Session.writeActive sv s' s rfl)
  | pops s' | disconnects | removes s' | closesSocket s' | drains s' | invokesDisconnect s'
  | stopsSession => exact hsame rfl (modify_field Session.writeActive sv _ s rfl)
  | _ => exact hsame rfl rfl

/-- **Every step keeps the bookkeeping right.** -/
theorem Operations.step (hstep : Step config sv task sv' new) (h : Operations sv (task ::ₘ R)) :
    Operations sv' (new + R) where
  tracked := hstep.tracked h.tracked
  contexts op := hstep.contexts (h.contexts op)
  reads s := hstep.reads (h.reads s)
  writes s := hstep.writes (h.writes s)

end Steps

/-! ### Whole runs -/

/-- The task reads for the session, and its read is in the kernel or being handled. -/
def Task.readOutstanding? (t : Task) : Option ℕ := if t.outstanding then t.read? else none

/-- The task writes for the session, and its write is in the kernel or being handled. -/
def Task.writeOutstanding? (t : Task) : Option ℕ := if t.outstanding then t.write? else none

theorem outstanding_le_tracked (t : Task) : t.outstanding.toNat ≤ t.tracked.toNat := by
  cases t with
  | postAccept op posted | releaseAccept op posted => exact Bool.toNat_le posted
  | postRead s op posted | receive s op posted | releaseRead s op posted => exact Bool.toNat_le posted
  | postWrite s op closeAfter posted | wsaSend s op closeAfter posted
  | finishWrite s op again posted => exact Bool.toNat_le posted
  | completeOperation | completeWrite => exact Nat.zero_le _
  | _ => exact le_rfl

/-- Fewer tasks hold something where some of them are not looked at. -/
theorem count_holders_le {κ : Type*} [DecidableEq κ] {f g : Task → Option κ}
    (h : ∀ t k, g t = some k → f t = some k) (P : Multiset Task) (k : κ) :
    (holders g P).count k ≤ (holders f P).count k := by
  induction P using Multiset.induction_on with
  | empty => exact le_rfl
  | cons t P ih =>
      rw [holders_cons, holders_cons, Multiset.count_add, Multiset.count_add]
      cases hg : g t with
      | none =>
          rw [Option.toList_none, Multiset.coe_nil, Multiset.count_zero, zero_add]
          exact ih.trans (Nat.le_add_left _ _)
      | some k' =>
          rw [h t k' hg]
          exact Nat.add_le_add_left ih _

theorem operations_run {config : ServerConfig} {moves : List (ℕ × Choice)} {c : Config Server Task}
    (hrun : (program config).run moves start = some c) : Operations c.shared c.pending := by
  refine Program.invariant (I := Operations) (fun x p sv R o hexec h => ?_) moves ?_ hrun
  · rw [Multiset.coe_add]
    exact h.step (exec_step hexec)
  · exact ⟨rfl, fun op => rfl, fun s => Nat.zero_le _, fun s => Nat.zero_le _⟩

/-- **The bookkeeping of operations is exact**, in every run: the counter is at least the number of
operations in the kernel or being handled, and equal to it when no thread is between the counter and
the kernel; it does not underflow; every context is released once, and only by its owner; and a
session has at most one read and one write. -/
theorem operations_exact (config : ServerConfig) (moves : List (ℕ × Choice))
    {c : Config Server Task} (hrun : (program config).run moves start = some c) :
    weight (fun t => t.outstanding.toNat) c.pending ≤ c.shared.outstandingOperations ∧
      ((∀ t ∈ c.pending, t.tracked = true → t.outstanding = true) →
        c.shared.outstandingOperations = weight (fun t => t.outstanding.toNat) c.pending) ∧
      (∀ t ∈ c.pending, t.completes = true → 1 ≤ c.shared.outstandingOperations) ∧
      (∀ op, c.shared.released op ≤ 1 ∧ (holders Task.context? c.pending).count op ≤ 1 ∧
        (c.shared.released op = 1 → op ∉ holders Task.context? c.pending) ∧
        (op < c.shared.contexts → op ∉ holders Task.context? c.pending →
          c.shared.released op = 1)) ∧
      ∀ s, (holders Task.readOutstanding? c.pending).count s ≤ 1 ∧
        (holders Task.writeOutstanding? c.pending).count s ≤ 1 := by
  have h := operations_run hrun
  refine ⟨?_, fun hbetween => ?_, fun t ht hcompletes => ?_, fun op => ?_, fun s => ⟨?_, ?_⟩⟩
  · rw [h.tracked]
    exact weight_mono outstanding_le_tracked c.pending
  · rw [h.tracked]
    refine weight_congr fun t ht => ?_
    -- between the calls a task that counts is an operation that is outstanding
    cases htracked : t.tracked with
    | true => rw [hbetween t ht htracked]
    | false =>
        have hle := outstanding_le_tracked t
        rw [htracked] at hle
        exact (Nat.le_zero.1 hle).symm
  · rw [h.tracked]
    have hone : t.tracked.toNat = 1 := by
      cases t with
      | completeOperation | completeWrite => rfl
      | _ => cases hcompletes
    exact hone.symm.le.trans (le_weight (f := fun t => t.tracked.toNat) ht)
  · have hop := h.contexts op
    have hcount : ∀ n, op ∉ holders Task.context? c.pending ↔
        (holders Task.context? c.pending).count op + n = n := by
      intro n
      rw [← Multiset.count_eq_zero]
      omega
    have hle : (if op < c.shared.contexts then 1 else 0 : ℕ) ≤ 1 := by
      split <;> omega
    refine ⟨by omega, by omega, fun hreleased => ?_, fun hlt hnot => ?_⟩
    · rw [hcount 0]
      omega
    · rw [hcount 0] at hnot
      rw [if_pos hlt] at hop
      omega
  · refine (count_holders_le (f := Task.read?) (fun t k hk => ?_) _ s).trans ((h.reads s).trans ?_)
    · unfold Task.readOutstanding? at hk
      split at hk
      · exact hk
      · cases hk
    · split <;> omega
  · refine (count_holders_le (f := Task.write?) (fun t k hk => ?_) _ s).trans ((h.writes s).trans ?_)
    · unfold Task.writeOutstanding? at hk
      split at hk
      · exact hk
      · cases hk
    · split <;> omega

/-- An accept is posted by `Start`, and completes. -/
def acceptCompletes : List (ℕ × Choice) :=
  [(0, .poster), (1, .passes), (1, .passes), (1, .passes), (1, .passes), (2, .completes true)]

/-- A session is accepted, its first read is posted, and so is the next accept. -/
def connection : List (ℕ × Choice) := acceptCompletes ++ List.replicate 14 (2, .passes)

/-- Both of its operations are counted. -/
theorem operations_exact_connection :
    ∃ c, (program {}).run connection start = some c ∧ c.shared.outstandingOperations = 2 ∧
      weight (fun t => t.outstanding.toNat) c.pending ≤ c.shared.outstandingOperations := by
  have hobserved : ((program {}).run connection start).map
      (fun c => c.shared.outstandingOperations) = some 2 := by
    decide +kernel
  obtain ⟨c, hrun, hc⟩ := Option.map_eq_some_iff.1 hobserved
  exact ⟨c, hrun, hc, (operations_exact {} connection hrun).1⟩

end Lifecycle

end RealtimeEngine
