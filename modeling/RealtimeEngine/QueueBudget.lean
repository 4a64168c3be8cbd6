/-
**Outbound queues that share one budget.**

Every `OutboundQueue` of `core/outbound_queue.hpp` has a limit of its own and charges its buffers to
a `GlobalQueueBudget` as well.  `Push`, `Pop` and `Close` hold the lock of their queue from end to
end, so a list of calls on a family of queues is an interleaving of them.

Sizes are 64 bits wide: `Pop` subtracts with a wrap, and `Release` clamps.  What is proved here is
that neither ever happens.

Main definitions:

* `RealtimeEngine.GlobalQueueBudget`, `RealtimeEngine.OutboundQueue` — the two classes;
* `RealtimeEngine.QueueBudget.run` — a list of calls, with what each of them returned;
* `RealtimeEngine.QueueBudget.Balanced` — the invariant.

Main results:

* `RealtimeEngine.QueueBudget.step_balanced` — every call keeps the invariant;
* `RealtimeEngine.QueueBudget.budget_shared` — **the budget is what the queues hold**, in every
  interleaving.
-/

import RealtimeEngine.OutboundAccounting

set_option relaxedAutoImplicit false
set_option autoImplicit false

namespace RealtimeEngine

open Outbound (sub64)

/-! ### The classes -/

/-- `QueueResult`. -/
inductive QueueResult
  | accepted
  | sessionLimitExceeded
  | globalLimitExceeded
  | closed
  deriving DecidableEq, Repr

/-- `GlobalQueueBudget`. -/
structure GlobalQueueBudget where
  limit : UInt64
  used : ℕ := 0
  deriving DecidableEq, Repr

namespace GlobalQueueBudget

/-- `GlobalQueueBudget::TryReserve`. -/
def tryReserve (bytes : ℕ) (g : GlobalQueueBudget) : Bool × GlobalQueueBudget :=
  if bytes > g.limit.toNat ∨ g.used > g.limit.toNat - bytes then (false, g)
  else (true, { g with used := g.used + bytes })

/-- `GlobalQueueBudget::Release`. -/
def release (bytes : ℕ) (g : GlobalQueueBudget) : GlobalQueueBudget :=
  { g with used := if bytes > g.used then 0 else g.used - bytes }

/-- The loop of `Close` over the buffers. -/
def releaseAll (buffers : List Bytes) (g : GlobalQueueBudget) : GlobalQueueBudget :=
  buffers.foldl (fun g buffer => g.release buffer.length) g

end GlobalQueueBudget

/-- `OutboundQueue`. -/
structure OutboundQueue where
  sessionLimit : UInt64
  queue : List Bytes := []
  queuedBytes : ℕ := 0
  closed : Bool := false
  deriving DecidableEq, Repr

namespace OutboundQueue

/-- `OutboundQueue::Push`; a null pointer is no buffer. -/
def push (buffer : Option Bytes) (q : OutboundQueue) (g : GlobalQueueBudget) :
    QueueResult × OutboundQueue × GlobalQueueBudget :=
  match buffer with
  | none => (.closed, q, g)
  | some buffer =>
      let bytes := buffer.length
      if q.closed then (.closed, q, g)
      else if bytes > q.sessionLimit.toNat ∨ q.queuedBytes > q.sessionLimit.toNat - bytes then
        (.sessionLimitExceeded, q, g)
      else
        match g.tryReserve bytes with
        | (false, g) => (.globalLimitExceeded, q, g)
        | (true, g) =>
            (.accepted,
              { q with queue := q.queue ++ [buffer], queuedBytes := q.queuedBytes + bytes }, g)

/-- `OutboundQueue::Pop`. -/
def pop (q : OutboundQueue) (g : GlobalQueueBudget) :
    Option Bytes × OutboundQueue × GlobalQueueBudget :=
  match q.queue with
  | [] => (none, q, g)
  | value :: rest =>
      (some value, { q with queue := rest, queuedBytes := sub64 q.queuedBytes value.length },
        g.release value.length)

/-- `OutboundQueue::Close`. -/
def close (q : OutboundQueue) (g : GlobalQueueBudget) : OutboundQueue × GlobalQueueBudget :=
  ({ q with queue := [], queuedBytes := 0, closed := true }, g.releaseAll q.queue)

/-- The sizes of the buffers, summed up. -/
def bufferedBytes (q : OutboundQueue) : ℕ := (q.queue.map List.length).sum

end OutboundQueue

namespace QueueBudget

open GlobalQueueBudget OutboundQueue

variable {ι : Type*} [DecidableEq ι]

/-! ### Interleavings -/

/-- Queues and the budget they share. -/
structure Queues (ι : Type*) where
  budget : GlobalQueueBudget
  queue : ι → OutboundQueue

/-- A queue and the budget are written. -/
def Queues.write (st : Queues ι) (i : ι) (q : OutboundQueue) (g : GlobalQueueBudget) : Queues ι :=
  ⟨g, Function.update st.queue i q⟩

/-- A call on another queue leaves this one alone. -/
theorem write_other (st : Queues ι) {i j : ι} (hne : i ≠ j) (q : OutboundQueue)
    (g : GlobalQueueBudget) : (st.write j q g).queue i = st.queue i :=
  Function.update_of_ne hne _ _

@[simp] theorem write_self (st : Queues ι) (i : ι) (q : OutboundQueue) (g : GlobalQueueBudget) :
    (st.write i q g).queue i = q :=
  Function.update_self i _ _

/-- What holds of a queue and of the one that is written in its place holds behind the write. -/
theorem queue_write {P : OutboundQueue → Prop} {st : Queues ι} {i j : ι} {q : OutboundQueue}
    (hq : i = j → P q) (hst : P (st.queue i)) (g : GlobalQueueBudget) :
    P ((st.write j q g).queue i) := by
  by_cases heq : i = j
  · subst heq
    rw [write_self]
    exact hq rfl
  · rw [write_other st heq]
    exact hst

/-- A call on one of the queues. -/
inductive Call (ι : Type*)
  | push (i : ι) (buffer : Option Bytes)
  | pop (i : ι)
  | close (i : ι)

/-- What a call returns. -/
inductive Outcome
  | pushed (result : QueueResult)
  | popped (value : Option Bytes)
  | closed
  deriving DecidableEq, Repr

/-- One call. -/
def step (call : Call ι) (st : Queues ι) : Outcome × Queues ι :=
  match call with
  | .push i buffer =>
      let (result, q, g) := (st.queue i).push buffer st.budget
      (.pushed result, st.write i q g)
  | .pop i =>
      let (value, q, g) := (st.queue i).pop st.budget
      (.popped value, st.write i q g)
  | .close i =>
      let (q, g) := (st.queue i).close st.budget
      (.closed, st.write i q g)

/-- Calls, one after the other, with what they return. -/
def run : List (Call ι) → Queues ι → List (Call ι × Outcome) × Queues ι
  | [], st => ([], st)
  | call :: calls, st =>
      ((call, (step call st).1) :: (run calls (step call st).2).1, (run calls (step call st).2).2)

/-- Every queue is new, with some limit, and the budget is unused. -/
def start (limit : UInt64) (sessionLimits : ι → UInt64) : Queues ι :=
  ⟨{ limit := limit }, fun i => { sessionLimit := sessionLimits i }⟩

/-- The buffer that this call put into the queue. -/
def acceptedBy (i : ι) : Call ι × Outcome → Option Bytes
  | (.push j (some buffer), .pushed .accepted) => if j = i then some buffer else none
  | _ => none

/-- The buffer that this call took from the queue. -/
def poppedBy (i : ι) : Call ι × Outcome → Option Bytes
  | (.pop j, .popped value) => if j = i then value else none
  | _ => none

/-- The buffers the queue has accepted. -/
def accepted (i : ι) (trace : List (Call ι × Outcome)) : List Bytes := trace.filterMap (acceptedBy i)

/-- The buffers popped from the queue. -/
def popped (i : ι) (trace : List (Call ι × Outcome)) : List Bytes := trace.filterMap (poppedBy i)

/-! ### One queue -/

section OneQueue

variable {q q' : OutboundQueue} {g g' : GlobalQueueBudget}

/-- What `Push` does. -/
theorem push_cases (buffer : Option Bytes) (q : OutboundQueue) (g : GlobalQueueBudget) :
    (∃ result, result ≠ .accepted ∧ q.push buffer g = (result, q, g)) ∨
      ∃ bytes, buffer = some bytes ∧ q.closed = false ∧
        q.queuedBytes + bytes.length ≤ q.sessionLimit.toNat ∧
        g.used + bytes.length ≤ g.limit.toNat ∧
        q.push buffer g =
          (.accepted,
            { q with
              queue := q.queue ++ [bytes]
              queuedBytes := q.queuedBytes + bytes.length },
            { g with used := g.used + bytes.length }) := by
  unfold push
  cases buffer with
  | none => exact Or.inl ⟨.closed, by simp, rfl⟩
  | some buffer =>
      dsimp only
      split
      · exact Or.inl ⟨.closed, by simp, rfl⟩
      · next hopen =>
          split
          · exact Or.inl ⟨.sessionLimitExceeded, by simp, rfl⟩
          · next hsession =>
              unfold tryReserve
              by_cases hglobal : buffer.length > g.limit.toNat ∨
                  g.used > g.limit.toNat - buffer.length
              · rw [if_pos hglobal]
                exact Or.inl ⟨.globalLimitExceeded, by simp, rfl⟩
              · rw [if_neg hglobal]
                refine Or.inr ⟨buffer, rfl, by simpa using hopen, ?_, ?_, rfl⟩
                · omega
                · omega

/-- Releasing what is there. -/
theorem release_of_le {bytes : ℕ} (h : bytes ≤ g.used) :
    g.release bytes = { g with used := g.used - bytes } := by
  rw [release, if_neg (by omega)]

/-- The loop of `Close` never clamps where all buffers are charged. -/
theorem releaseAll_of_le {buffers : List Bytes} (h : (buffers.map List.length).sum ≤ g.used) :
    g.releaseAll buffers = { g with used := g.used - (buffers.map List.length).sum } := by
  induction buffers generalizing g with
  | nil => simp [releaseAll]
  | cons buffer buffers ih =>
      rw [List.map_cons, List.sum_cons] at h ⊢
      have hrest := ih (g := g.release buffer.length) (by
        rw [release_of_le (by omega)]
        dsimp only
        omega)
      rw [releaseAll, List.foldl_cons]
      refine hrest.trans ?_
      rw [release_of_le (by omega)]
      simp only [GlobalQueueBudget.mk.injEq, true_and]
      omega

end OneQueue

/-! ### The invariant -/

variable [Fintype ι]

/-- **The budget is what the queues hold**, and everything is within its limit. -/
structure Balanced (st : Queues ι) : Prop where
  session : ∀ i, (st.queue i).queuedBytes = (st.queue i).bufferedBytes
  sessionLimit : ∀ i, (st.queue i).queuedBytes ≤ (st.queue i).sessionLimit.toNat
  total : st.budget.used = ∑ i, (st.queue i).queuedBytes
  limit : st.budget.used ≤ st.budget.limit.toNat
  closed : ∀ i, (st.queue i).closed = true → (st.queue i).queue = []

section Steps

variable {st : Queues ι}

omit [DecidableEq ι] in
/-- A queue is part of the total. -/
theorem Balanced.le_used (h : Balanced st) (i : ι) :
    (st.queue i).queuedBytes ≤ st.budget.used := by
  rw [h.total]
  exact Finset.single_le_sum (f := fun i => (st.queue i).queuedBytes) (fun _ _ => Nat.zero_le _)
    (Finset.mem_univ i)

/-- One queue and the budget change by the same amount. -/
theorem Balanced.write (h : Balanced st) (i : ι) {q : OutboundQueue} {g : GlobalQueueBudget}
    (hsession : q.queuedBytes = q.bufferedBytes) (hlimit : q.queuedBytes ≤ q.sessionLimit.toNat)
    (hclosed : q.closed = true → q.queue = []) (hused : g.used ≤ g.limit.toNat)
    (htotal : g.used + (st.queue i).queuedBytes = st.budget.used + q.queuedBytes) :
    Balanced (st.write i q g) := by
  refine ⟨fun j => ?_, fun j => ?_, ?_, hused, fun j => ?_⟩
  · exact queue_write (P := fun q => q.queuedBytes = q.bufferedBytes) (fun _ => hsession)
      (h.session j) g
  · exact queue_write (P := fun q => q.queuedBytes ≤ q.sessionLimit.toNat) (fun _ => hlimit)
      (h.sessionLimit j) g
  · -- the sum changes by the summand of this queue
    have hchange := Outbound.sum_change (f := fun j => (st.queue j).queuedBytes)
      (g := fun j => ((st.write i q g).queue j).queuedBytes) (s := i)
      (fun j hne => by simp [Queues.write, hne])
    have hself : ((st.write i q g).queue i).queuedBytes = q.queuedBytes := by
      simp [Queues.write]
    have hthis := h.total
    simp only [hself] at hchange
    change g.used = ∑ j, ((st.write i q g).queue j).queuedBytes
    omega
  · exact queue_write (P := fun q => q.closed = true → q.queue = []) (fun _ => hclosed)
      (h.closed j) g

/-- **Every call keeps the invariant.** -/
theorem step_balanced (h : Balanced st) (call : Call ι) : Balanced (step call st).2 := by
  cases call with
  | push i buffer =>
      rcases push_cases buffer (st.queue i) st.budget with ⟨result, -, hpush⟩ |
        ⟨bytes, rfl, hopen, hsession, hglobal, hpush⟩
      · simp only [step, hpush]
        exact h.write i (h.session i) (h.sessionLimit i) (h.closed i) h.limit rfl
      · simp only [step, hpush]
        refine h.write i ?_ hsession (fun hclosed => ?_) hglobal ?_
        · have hbuffered := h.session i
          simp only [bufferedBytes] at hbuffered
          simp [bufferedBytes, hbuffered]
        · rw [hopen] at hclosed
          cases hclosed
        · dsimp only
          omega
  | pop i =>
      -- the buffer in front is part of what the queue and the budget charge
      have hbuffered := h.session i
      have hle := h.le_used i
      simp only [step, pop]
      cases hqueue : (st.queue i).queue with
      | nil => exact h.write i (h.session i) (h.sessionLimit i) (h.closed i) h.limit rfl
      | cons value rest =>
          rw [bufferedBytes, hqueue, List.map_cons, List.sum_cons] at hbuffered
          have hlimit := h.sessionLimit i
          have hused := h.limit
          have hsub : sub64 (st.queue i).queuedBytes value.length =
              (st.queue i).queuedBytes - value.length := Outbound.sub64_eq (by omega)
          simp only [hsub, release_of_le (show value.length ≤ st.budget.used by omega)]
          refine h.write i ?_ ?_ (fun hclosed => ?_) ?_ ?_
          · simp only [bufferedBytes]
            omega
          · dsimp only
            omega
          · rw [h.closed i hclosed] at hqueue
            cases hqueue
          · dsimp only
            omega
          · dsimp only
            omega
  | close i =>
      have hbuffered := h.session i
      have hle := h.le_used i
      have hused := h.limit
      rw [bufferedBytes] at hbuffered
      have hheld : ((st.queue i).queue.map List.length).sum ≤ st.budget.used := by omega
      have hrelease := releaseAll_of_le hheld
      simp only [step, close, hrelease]
      refine h.write i (by simp [bufferedBytes]) (Nat.zero_le _) (fun _ => rfl) ?_ ?_
      · dsimp only
        omega
      · dsimp only
        omega

theorem run_balanced (h : Balanced st) (calls : List (Call ι)) : Balanced (run calls st).2 := by
  induction calls generalizing st with
  | nil => exact h
  | cons call calls ih => exact ih (step_balanced h call)

omit [DecidableEq ι] in
theorem start_balanced (limit : UInt64) (sessionLimits : ι → UInt64) :
    Balanced (start limit sessionLimits) where
  session _ := rfl
  sessionLimit _ := Nat.zero_le _
  total := by simp [start]
  limit := Nat.zero_le _
  closed _ _ := rfl

end Steps

/-! ### Limits, order and the end -/

section Histories

omit [Fintype ι]

variable {st : Queues ι} {i : ι}

theorem releaseAll_limit (buffers : List Bytes) (g : GlobalQueueBudget) :
    (g.releaseAll buffers).limit = g.limit := by
  induction buffers generalizing g with
  | nil => rfl
  | cons buffer buffers ih => exact ih (g.release buffer.length)

/-- No call changes a limit. -/
theorem step_limits (call : Call ι) (st : Queues ι) :
    (step call st).2.budget.limit = st.budget.limit ∧
      ∀ i, ((step call st).2.queue i).sessionLimit = (st.queue i).sessionLimit := by
  have hwrite : ∀ (j : ι) (q : OutboundQueue) (g : GlobalQueueBudget),
      q.sessionLimit = (st.queue j).sessionLimit →
        ∀ i, ((st.write j q g).queue i).sessionLimit = (st.queue i).sessionLimit := by
    intro j q g hq i
    refine queue_write (P := fun q => q.sessionLimit = (st.queue i).sessionLimit) ?_ rfl g
    rintro rfl
    exact hq
  cases call with
  | push j buffer =>
      rcases push_cases buffer (st.queue j) st.budget with ⟨result, -, hpush⟩ |
        ⟨bytes, -, -, -, -, hpush⟩
      · simp only [step, hpush]
        exact ⟨rfl, hwrite j _ _ rfl⟩
      · simp only [step, hpush]
        exact ⟨rfl, hwrite j _ _ rfl⟩
  | pop j =>
      simp only [step, pop]
      split
      · exact ⟨rfl, hwrite j _ _ rfl⟩
      · exact ⟨rfl, hwrite j _ _ rfl⟩
  | close j => exact ⟨releaseAll_limit _ _, hwrite j _ _ rfl⟩

theorem run_limits (calls : List (Call ι)) (st : Queues ι) :
    (run calls st).2.budget.limit = st.budget.limit ∧
      ∀ i, ((run calls st).2.queue i).sessionLimit = (st.queue i).sessionLimit := by
  induction calls generalizing st with
  | nil => exact ⟨rfl, fun _ => rfl⟩
  | cons call calls ih =>
      obtain ⟨hbudget, hsession⟩ := step_limits call st
      obtain ⟨hbudget', hsession'⟩ := ih (step call st).2
      exact ⟨hbudget'.trans hbudget, fun i => (hsession' i).trans (hsession i)⟩

/-- The buffers leave the queue in the order in which they were accepted; `Close` drops the rest. -/
structure Ordered (i : ι) (trace : List (Call ι × Outcome)) (st : Queues ι) : Prop where
  order : popped i trace ++ (st.queue i).queue <+: accepted i trace
  exact : (st.queue i).closed = false → accepted i trace = popped i trace ++ (st.queue i).queue

theorem accepted_concat (i : ι) (trace : List (Call ι × Outcome)) (event : Call ι × Outcome) :
    accepted i (trace ++ [event]) = accepted i trace ++ (acceptedBy i event).toList := by
  rw [accepted, List.filterMap_append]
  cases h : acceptedBy i event <;> simp [h, accepted]

theorem popped_concat (i : ι) (trace : List (Call ι × Outcome)) (event : Call ι × Outcome) :
    popped i (trace ++ [event]) = popped i trace ++ (poppedBy i event).toList := by
  rw [popped, List.filterMap_append]
  cases h : poppedBy i event <;> simp [h, popped]

/-- A call that moves no buffer of the queue. -/
theorem Ordered.same {trace : List (Call ι × Outcome)} {st' : Queues ι} (h : Ordered i trace st)
    {event : Call ι × Outcome} (haccepted : acceptedBy i event = none)
    (hpopped : poppedBy i event = none) (hqueue : st'.queue i = st.queue i) :
    Ordered i (trace ++ [event]) st' := by
  refine ⟨?_, fun hopen => ?_⟩
  · rw [accepted_concat, popped_concat, haccepted, hpopped, hqueue]
    simpa using h.order
  · rw [hqueue] at hopen
    rw [accepted_concat, popped_concat, haccepted, hpopped, hqueue]
    simpa using h.exact hopen

theorem Ordered.step {trace : List (Call ι × Outcome)} (h : Ordered i trace st) (call : Call ι) :
    Ordered i (trace ++ [(call, (step call st).1)]) (step call st).2 := by
  cases call with
  | push j buffer =>
      rcases push_cases buffer (st.queue j) st.budget with ⟨result, hresult, hpush⟩ |
        ⟨bytes, rfl, hopen, -, -, hpush⟩
      · simp only [QueueBudget.step, hpush]
        refine h.same ?_ rfl ?_
        · cases buffer with
          | none => rfl
          | some buffer =>
              cases result with
              | accepted => exact absurd rfl hresult
              | sessionLimitExceeded | globalLimitExceeded | closed => rfl
        · by_cases heq : i = j
          · rw [heq, write_self]
          · exact write_other st heq _ _
      · simp only [QueueBudget.step, hpush]
        by_cases heq : j = i
        · subst heq
          have hall := h.exact hopen
          have hnew : ∀ event, acceptedBy j event = some bytes → poppedBy j event = none →
              accepted j (trace ++ [event]) =
                popped j (trace ++ [event]) ++ ((st.queue j).queue ++ [bytes]) := by
            intro event haccepted hpopped
            rw [accepted_concat, popped_concat, haccepted, hpopped, hall]
            simp
          have hbehind := hnew (.push j (some bytes), .pushed .accepted) (if_pos rfl) rfl
          refine ⟨?_, fun _ => ?_⟩
          · rw [write_self, hbehind]
          · rw [write_self]
            exact hbehind
        · exact h.same (if_neg heq) rfl (write_other st (Ne.symm heq) _ _)
  | pop j =>
      simp only [QueueBudget.step]
      by_cases heq : j = i
      · subst heq
        cases hqueue : (st.queue j).queue with
        | nil =>
            simp only [pop, hqueue]
            exact h.same rfl (if_pos rfl) (write_self _ _ _ _)
        | cons value rest =>
            have horder := h.order
            have hexact := h.exact
            rw [hqueue] at horder hexact
            simp only [pop, hqueue]
            refine ⟨?_, fun hopen => ?_⟩
            · rw [accepted_concat, popped_concat, poppedBy, if_pos rfl, write_self]
              simpa [acceptedBy] using horder
            · rw [write_self] at hopen
              rw [accepted_concat, popped_concat, poppedBy, if_pos rfl, write_self]
              simpa [acceptedBy] using hexact hopen
      · exact h.same rfl (if_neg heq) (write_other st (Ne.symm heq) _ _)
  | close j =>
      by_cases heq : j = i
      · subst heq
        refine ⟨?_, fun hopen => ?_⟩
        · -- `Close` drops what waits, so only the beginning of the order stays
          have hpopped : popped j trace <+: accepted j trace :=
            (List.prefix_append _ _).trans h.order
          rw [accepted_concat, popped_concat]
          simpa [QueueBudget.step, close, acceptedBy, poppedBy] using hpopped
        · simp [QueueBudget.step, close] at hopen
      · exact h.same rfl rfl (write_other st (Ne.symm heq) _ _)

theorem Ordered.run {trace : List (Call ι × Outcome)} (h : Ordered i trace st)
    (calls : List (Call ι)) :
    Ordered i (trace ++ (run calls st).1) (QueueBudget.run calls st).2 := by
  induction calls generalizing trace st with
  | nil => simpa [QueueBudget.run] using h
  | cons call calls ih =>
      have hrest := ih (h.step call)
      simpa [QueueBudget.run] using hrest

/-- A closed queue stays closed. -/
theorem step_closed (h : (st.queue i).closed = true) (call : Call ι) :
    ((step call st).2.queue i).closed = true := by
  have hwrite : ∀ (j : ι) (q : OutboundQueue) (g : GlobalQueueBudget),
      (i = j → q.closed = true) → ((st.write j q g).queue i).closed = true :=
    fun j q g hq => queue_write (P := fun q => q.closed = true) hq h g
  cases call with
  | push j buffer =>
      rcases push_cases buffer (st.queue j) st.budget with ⟨result, -, hpush⟩ |
        ⟨bytes, -, hopen, -, -, hpush⟩
      · simp only [step, hpush]
        exact hwrite j _ _ fun heq => heq ▸ h
      · simp only [step, hpush]
        exact hwrite j _ _ fun heq => heq ▸ h
  | pop j =>
      simp only [step, pop]
      split
      · exact hwrite j _ _ fun heq => heq ▸ h
      · exact hwrite j _ _ fun heq => heq ▸ h
  | close j => exact hwrite j _ _ fun _ => rfl

theorem run_closed {calls : List (Call ι)} (h : (st.queue i).closed = true ∨ .close i ∈ calls) :
    ((run calls st).2.queue i).closed = true := by
  induction calls generalizing st with
  | nil => simpa [run] using h
  | cons call calls ih =>
      rw [run]
      refine ih ?_
      rcases h with hclosed | hmem
      · exact Or.inl (step_closed hclosed call)
      · rcases List.mem_cons.1 hmem with rfl | hrest
        · exact Or.inl (by simp [step, close])
        · exact Or.inr hrest

end Histories

/-! ### Every interleaving -/

/-- `Release` does not clamp, and `Pop` does not wrap: every buffer of the queue is charged to the
queue and to the budget, also when `Close` has released the buffers in front of it. -/
def NeverUnderruns (st : Queues ι) (i : ι) : Prop :=
  (∀ buffer rest, (st.queue i).queue = buffer :: rest →
    buffer.length ≤ (st.queue i).queuedBytes) ∧
  ∀ done buffer rest, (st.queue i).queue = done ++ buffer :: rest →
    buffer.length ≤ (st.budget.releaseAll done).used

omit [DecidableEq ι] in
theorem Balanced.neverUnderruns {st : Queues ι} (h : Balanced st) (i : ι) :
    NeverUnderruns st i := by
  have hbuffered := h.session i
  have hle := h.le_used i
  refine ⟨fun buffer rest hqueue => ?_, fun done buffer rest hqueue => ?_⟩
  · rw [bufferedBytes, hqueue, List.map_cons, List.sum_cons] at hbuffered
    omega
  · rw [bufferedBytes, hqueue, List.map_append, List.sum_append, List.map_cons,
      List.sum_cons] at hbuffered
    rw [releaseAll_of_le (by omega)]
    dsimp only
    omega

/-- **The shared budget**, behind every interleaving of calls: each queue and the budget charge
exactly what is buffered, within the limits, and nothing underruns; a queue gives back what it has
accepted in order; a closed queue is empty for good; and a `Push` that is not accepted changes
nothing. -/
theorem budget_shared (limit : UInt64) (sessionLimits : ι → UInt64) (calls : List (Call ι))
    {trace : List (Call ι × Outcome)} {st : Queues ι}
    (hrun : run calls (start limit sessionLimits) = (trace, st)) :
    (∀ i, (st.queue i).queuedBytes = (st.queue i).bufferedBytes ∧
      (st.queue i).queuedBytes ≤ (sessionLimits i).toNat) ∧
    st.budget.used = ∑ i, (st.queue i).queuedBytes ∧ st.budget.used ≤ limit.toNat ∧
    (∀ i, NeverUnderruns st i) ∧
    (∀ i, popped i trace <+: accepted i trace ∧
      ((st.queue i).closed = false → (step (.pop i) st).1 =
        .popped ((accepted i trace).drop (popped i trace).length).head?)) ∧
    (∀ i, .close i ∈ calls → (st.queue i).queue = [] ∧ (st.queue i).queuedBytes = 0 ∧
      (∀ buffer, (step (.push i buffer) st).1 = .pushed .closed) ∧
      (step (.pop i) st).1 = .popped none) ∧
    ∀ i buffer, (step (.push i buffer) st).1 ≠ .pushed .accepted →
      (step (.push i buffer) st).2 = st := by
  have hbalanced := run_balanced (start_balanced limit sessionLimits) calls
  obtain ⟨hlimit, hsessions⟩ := run_limits calls (start limit sessionLimits)
  have hordered : ∀ i, Ordered i ([] ++ (run calls (start limit sessionLimits)).1)
      (run calls (start limit sessionLimits)).2 := by
    intro i
    have hstart : Ordered i [] (start limit sessionLimits) := ⟨List.prefix_rfl, fun _ => rfl⟩
    exact hstart.run calls
  have hclosed : ∀ i, .close i ∈ calls →
      ((run calls (start limit sessionLimits)).2.queue i).closed = true := fun i hmem =>
    run_closed (Or.inr hmem)
  rw [hrun] at hbalanced hlimit hsessions hordered hclosed
  refine ⟨fun i => ⟨hbalanced.session i, ?_⟩, hbalanced.total, ?_, hbalanced.neverUnderruns,
    fun i => ⟨?_, fun hopen => ?_⟩, fun i hmem => ?_, fun i buffer hresult => ?_⟩
  · rw [← show (st.queue i).sessionLimit = sessionLimits i from hsessions i]
    exact hbalanced.sessionLimit i
  · rw [← show st.budget.limit = limit from hlimit]
    exact hbalanced.limit
  · exact (List.prefix_append _ _).trans (hordered i).order
  · have hall := (hordered i).exact hopen
    rw [List.nil_append] at hall
    rw [hall, List.drop_left]
    simp only [step, pop]
    cases (st.queue i).queue with
    | nil => rfl
    | cons value rest => rfl
  · have hshut : (st.queue i).closed = true := hclosed i hmem
    have hempty : (st.queue i).queue = [] := hbalanced.closed i hshut
    refine ⟨hempty, ?_, fun buffer => ?_, ?_⟩
    · rw [hbalanced.session i, bufferedBytes, hempty]
      rfl
    · cases buffer with
      | none => rfl
      | some buffer => simp [step, push, hshut]
    · simp [step, pop, hempty]
  · rcases push_cases buffer (st.queue i) st.budget with ⟨result, -, hpush⟩ |
      ⟨bytes, -, -, -, -, hpush⟩
    · simp [step, hpush, Queues.write]
    · simp [step, hpush] at hresult

/-- Two queues share seven bytes: the second `Push` is refused, and `Close` gives the bytes back. -/
def twoQueues : List (Call Bool) :=
  [.push false (some [1, 2, 3, 4]), .push true (some [5, 6, 7, 8]), .push true (some [9]),
    .close false, .pop true]

/-- The second queue gives back its buffer. -/
theorem budget_shared_twoQueues :
    ∃ trace st, run twoQueues (start 7 fun _ => 100) = (trace, st) ∧
      popped true trace = [[9]] ∧ popped true trace <+: accepted true trace :=
  ⟨_, _, rfl, rfl, ((budget_shared 7 (fun _ => 100) twoQueues rfl).2.2.2.2.1 true).1⟩

end QueueBudget

end RealtimeEngine
