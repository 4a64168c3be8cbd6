/-
**The rate limit of a session.**

`DeliverMessage` counts the messages of a session in windows of a second, each of which starts with
the first message behind the one before; the first window starts with the connection.  A message
above the limit closes the session, every other message goes to the handler.

Here `DeliverMessage` is called for any messages at any times, also behind a call that has closed
the session, and the handler accepts what it gets.  A count of messages stays below `2 ^ 64`.

* `RealtimeEngine.RateLimit.deliverAll` — the calls, with the messages that were passed on;
* `RealtimeEngine.RateLimit.deliverAll_admitted` — **the counter of the session** is the one of
  `RealtimeEngine/WindowCounter.lean`;
* `RealtimeEngine.RateLimit.rate_limit` — **soundness and completeness**.
-/

import RealtimeEngine.SessionInput
import RealtimeEngine.WindowCounter

set_option relaxedAutoImplicit false
set_option autoImplicit false

namespace RealtimeEngine

namespace RateLimit

open SessionInput WindowCounter
open scoped List

variable (config : ServerConfig) (env : Environment)

/-- A message that arrives at some time. -/
abbrev Arrival := ℤ × Bytes

/-- `DeliverMessage` with a handler that accepts every message, at the time of the arrival. -/
def deliverAt (a : Arrival) (r : Reading) : Bool × Reading :=
  deliverMessage config (some fun _ => .accepted) { env with clock := fun _ => a.1 } a.2 r

/-- The calls of `DeliverMessage`: the arrivals whose message the handler was given, and the
session. -/
def deliverAll : List Arrival → Reading → List Arrival × Reading
  | [], r => ([], r)
  | a :: rest, r =>
      let r' := (deliverAt config env a r).2
      let (passed, last) := deliverAll rest r'
      (if r.delivered.length < r'.delivered.length then a :: passed else passed, last)

/-- The arrivals in an interval of a second. -/
def within (t : ℤ) (arrivals : List Arrival) : ℕ :=
  arrivals.countP fun a => t ≤ a.1 ∧ a.1 < t + 1000

/-- The window of a session. -/
def window (r : Reading) : Window := ⟨r.rateWindowMs, r.rateWindowMessages⟩

/-! ### One message -/

variable {config env}

/-- What is done to the end of a session: nothing is delivered or counted, and the reason is not the
rate. -/
structure Uncounted (r r' : Reading) : Prop where
  delivered : r'.delivered = r.delivered
  window : window r' = window r
  trace : .ended .rateLimit ∈ r'.trace ↔ .ended .rateLimit ∈ r.trace

theorem Uncounted.refl (r : Reading) : Uncounted r r := ⟨rfl, rfl, Iff.rfl⟩

theorem Uncounted.trans {r r' r'' : Reading} (h : Uncounted r r') (h' : Uncounted r' r'') :
    Uncounted r r'' :=
  ⟨h'.delivered.trans h.delivered, h'.window.trans h.window, h'.trace.trans h.trace⟩

theorem disconnect_uncounted (r : Reading) : Uncounted r (disconnect r) := by
  unfold disconnect
  split
  · exact Uncounted.refl r
  · exact ⟨rfl, rfl, by simp [note]⟩

variable (config env) in
theorem enqueue_uncounted (item : OutboundItem) (r : Reading) :
    Uncounted r (enqueue config env item r).2 := by
  unfold enqueue
  dsimp only
  split
  · exact ⟨rfl, rfl, Iff.rfl⟩
  · split
    · exact ⟨rfl, rfl, Iff.rfl⟩
    · split
      · have hsevered := disconnect_uncounted { r with
          enqueues := r.enqueues + 1, acceptedBytes := r.acceptedBytes + item.size }
        exact ⟨hsevered.delivered, hsevered.window, hsevered.trace⟩
      · exact ⟨rfl, rfl, Iff.rfl⟩

variable (config env) in
theorem close_uncounted (code : UInt16) (reason : Bytes) (r : Reading) :
    Uncounted r (close config env code reason r) := by
  unfold close
  split
  · exact Uncounted.refl r
  · split
    · exact disconnect_uncounted r
    · unfold sendControl
      split
      · exact Uncounted.refl r
      · have hclosing := enqueue_uncounted config env
          (frameItem .close (closePayload code reason) true) { r with state := .closing }
        have hqueued : Uncounted r (enqueue config env
            (frameItem .close (closePayload code reason) true) { r with state := .closing }).2 :=
          ⟨hclosing.delivered, hclosing.window, hclosing.trace⟩
        simp only [if_true]
        split
        · exact hqueued.trans (disconnect_uncounted _)
        · exact hqueued

variable (config env) in
theorem interfere_uncounted (x : Interference) (r : Reading) :
    Uncounted r (interfere config env x r) := by
  cases x with
  | nothing => exact Uncounted.refl r
  | disconnected => exact disconnect_uncounted r
  | closed code reason => exact close_uncounted config env code reason r

theorem window_rateWindow (r : Reading) (now : ℤ) :
    window { r with toControl := ServerSteps.rateWindow r.toControl now } =
      (window r).event 1000 now := by
  unfold ServerSteps.rateWindow Window.event window
  dsimp only
  split <;> rfl

/-- **One message**: it is passed on, or the session is closed for its rate. -/
theorem deliverAt_cases (config : ServerConfig) (env : Environment) (a : Arrival) (r : Reading) :
    window (deliverAt config env a r).2 = (window r).event 1000 a.1 ∧
      (((window r).event 1000 a.1).count > config.maxMessagesPerSecond.toNat ∧
          (deliverAt config env a r).2.delivered = r.delivered ∨
        ((window r).event 1000 a.1).count ≤ config.maxMessagesPerSecond.toNat ∧
          (deliverAt config env a r).2.delivered = r.delivered ++ [a.2] ∧
          (.ended .rateLimit ∈ (deliverAt config env a r).2.trace ↔
            .ended .rateLimit ∈ r.trace)) := by
  have hwindow := window_rateWindow r a.1
  have hcount : (ServerSteps.rateWindow r.toControl a.1).rateWindowMessages =
      ((window r).event 1000 a.1).count := congrArg Window.count hwindow
  unfold deliverAt deliverMessage
  dsimp only
  rw [hcount]
  by_cases hover : ((window r).event 1000 a.1).count > config.maxMessagesPerSecond.toNat
  · rw [if_pos hover]
    have hclosed := close_uncounted config { env with clock := fun _ => a.1 } 1008
      (ascii "message rate limit exceeded")
      (note .rateLimit { r with
        toControl := ServerSteps.rateWindow r.toControl a.1, limited := true })
    exact ⟨hclosed.window.trans hwindow, Or.inl ⟨hover, hclosed.delivered⟩⟩
  · rw [if_neg hover, if_pos rfl]
    have hpassed := interfere_uncounted config { env with clock := fun _ => a.1 }
      (env.meanwhile (r.delivered ++ [a.2]).length)
      { r with
        toControl := ServerSteps.rateWindow r.toControl a.1
        delivered := r.delivered ++ [a.2]
        trace := r.trace ++ [.delivered a.2 (some .accepted)] }
    exact ⟨hpassed.window.trans hwindow,
      Or.inr ⟨Nat.not_lt.1 hover, hpassed.delivered, hpassed.trace.trans (by simp)⟩⟩

/-! ### All messages -/

/-- **The counter of the session is a window counter**: the times at which messages are passed on
are those it admits; and where it admits all of them, the session is not closed for its rate. -/
theorem deliverAll_admitted (config : ServerConfig) (env : Environment) (arrivals : List Arrival)
    (r : Reading) :
    (deliverAll config env arrivals r).1.map Prod.fst =
        admitted 1000 config.maxMessagesPerSecond.toNat (arrivals.map Prod.fst) (window r) ∧
      (deliverAll config env arrivals r).1 <+ arrivals ∧
      ((deliverAll config env arrivals r).1.length = arrivals.length →
        (.ended .rateLimit ∈ (deliverAll config env arrivals r).2.trace ↔
          .ended .rateLimit ∈ r.trace)) := by
  induction arrivals generalizing r with
  | nil => exact ⟨rfl, List.Sublist.refl _, fun _ => Iff.rfl⟩
  | cons a rest ih =>
      obtain ⟨hwindow, hcases⟩ := deliverAt_cases config env a r
      obtain ⟨hmap, hsub, htrace⟩ := ih (deliverAt config env a r).2
      rw [hwindow] at hmap
      have hlen := hsub.length_le
      simp only [deliverAll, List.map_cons, admitted]
      rcases hcases with ⟨hover, hdelivered⟩ | ⟨hwithin, hdelivered, hkept⟩
      · rw [if_pos hover, if_neg (by rw [hdelivered]; exact lt_irrefl _)]
        refine ⟨hmap, hsub.cons a, fun hall => ?_⟩
        rw [List.length_cons] at hall
        omega
      · have hpassed : r.delivered.length < (deliverAt config env a r).2.delivered.length := by
          simp [hdelivered]
        rw [if_pos hpassed, if_neg (Nat.not_lt.2 hwithin), List.map_cons, hmap]
        refine ⟨rfl, hsub.cons_cons a, fun hall => ?_⟩
        rw [List.length_cons, List.length_cons, Nat.add_right_cancel_iff] at hall
        exact (htrace hall).trans hkept

theorem within_eq (t : ℤ) (arrivals : List Arrival) :
    within t arrivals = between t (t + 1000) (arrivals.map Prod.fst) := by
  rw [within, between, List.countP_map]
  rfl

/-- A session that has just been connected. -/
def connected (config : ServerConfig) (now : ℤ) : Reading :=
  { opening config with rateWindowMs := now }

/-- **The rate limit**: in no interval of a second does a session pass on more than twice as many
messages as it may; and where no such interval has more messages than the limit, every message is
passed on and the session is not closed for its rate. -/
theorem rate_limit (config : ServerConfig) (env : Environment) (connectedAt : ℤ)
    {arrivals : List Arrival}
    (hsorted : (connectedAt :: arrivals.map Prod.fst).Pairwise (· ≤ ·)) :
    (∀ t, within t (deliverAll config env arrivals (connected config connectedAt)).1 ≤
        2 * config.maxMessagesPerSecond.toNat) ∧
      ((∀ t, within t arrivals ≤ config.maxMessagesPerSecond.toNat) →
        (deliverAll config env arrivals (connected config connectedAt)).1 = arrivals ∧
          .ended .rateLimit ∉
            (deliverAll config env arrivals (connected config connectedAt)).2.trace) := by
  obtain ⟨hmap, hsub, htrace⟩ :=
    deliverAll_admitted config env arrivals (connected config connectedAt)
  have hwindow : window (connected config connectedAt) = ⟨connectedAt, 0⟩ := rfl
  rw [hwindow] at hmap
  refine ⟨fun t => ?_, fun hsparse => ?_⟩
  · rw [within_eq, hmap]
    exact admitted_le (by decide) _ hsorted t
  · have hall : admitted 1000 config.maxMessagesPerSecond.toNat (arrivals.map Prod.fst)
        ⟨connectedAt, 0⟩ = arrivals.map Prod.fst := by
      refine admitted_eq (by decide) hsorted fun t => ?_
      rw [← within_eq]
      exact hsparse t
    have hlen : (deliverAll config env arrivals (connected config connectedAt)).1.length =
        arrivals.length := by
      rw [← List.length_map (f := Prod.fst), hmap, hall, List.length_map]
    refine ⟨hsub.eq_of_length hlen, fun hmem => ?_⟩
    exact absurd ((htrace hlen).1 hmem) List.not_mem_nil

/-- Three messages around the end of a window, of which two a second are allowed. -/
def burst : List Arrival := [(10, [1]), (20, [2]), (1005, [3]), (1006, [4]), (1007, [5])]

/-- Four of the messages lie within a second, and they are passed on. -/
theorem rate_limit_burst :
    within 7 (deliverAll { maxMessagesPerSecond := 2 } idle burst
        (connected { maxMessagesPerSecond := 2 } 5)).1 = 4 ∧
      within 7 (deliverAll { maxMessagesPerSecond := 2 } idle burst
        (connected { maxMessagesPerSecond := 2 } 5)).1 ≤ 2 * 2 :=
  ⟨by decide, (@rate_limit { maxMessagesPerSecond := 2 } idle 5 burst (by decide)).1 7⟩

end RateLimit

end RealtimeEngine
