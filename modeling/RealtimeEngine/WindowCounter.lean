/-
**Counting events in windows that start with an event.**

A counter of this kind has a window of a fixed width.  An event behind the end of the window starts
a new window at its own time; every other event is counted in the window it falls into.  An event is
admitted as long as the count of its window is within a limit.

Windows follow each other irregularly, so an interval of the width of a window may meet two of them.
It never meets three, and a window contains as many events as an interval does: this is where the
factor two of `WindowCounter.admitted_le`, and its absence in `WindowCounter.admitted_eq`, come
from.

Main definitions:

* `WindowCounter.Window`, `WindowCounter.Window.event` — a window, and what an event does to it;
* `WindowCounter.admitted` — the events that are admitted.

Main results:

* `WindowCounter.admitted_le` — **no interval admits more than twice the limit**;
* `WindowCounter.admitted_eq` — **everything is admitted** where no interval has more events than
  the limit.
-/

import Mathlib.Data.List.Pairwise
import Mathlib.Algebra.Order.Ring.Int

set_option relaxedAutoImplicit false
set_option autoImplicit false

namespace WindowCounter

/-- A window: when it has started, and how many events it has seen. -/
structure Window where
  start : ℤ
  count : ℕ
  deriving DecidableEq, Repr

/-- An event at this time. -/
def Window.event (width now : ℤ) (w : Window) : Window :=
  if now - w.start ≥ width then ⟨now, 1⟩ else ⟨w.start, w.count + 1⟩

/-- The events that are admitted. -/
def admitted (width : ℤ) (limit : ℕ) : List ℤ → Window → List ℤ
  | [], _ => []
  | now :: rest, w =>
      if (w.event width now).count > limit then admitted width limit rest (w.event width now)
      else now :: admitted width limit rest (w.event width now)

/-- The number of events in an interval. -/
def between (t u : ℤ) (times : List ℤ) : ℕ := times.countP fun x => t ≤ x ∧ x < u

@[simp] theorem between_nil (t u : ℤ) : between t u [] = 0 := rfl

theorem between_concat (t u : ℤ) (times : List ℤ) (now : ℤ) :
    between t u (times ++ [now]) = between t u times + if t ≤ now ∧ now < u then 1 else 0 := by
  simp [between, List.countP_append, List.countP_cons]

theorem between_mono {t u t' u' : ℤ} (ht : t' ≤ t) (hu : u ≤ u') (times : List ℤ) :
    between t u times ≤ between t' u' times := by
  refine List.countP_mono_left fun x _ hx => ?_
  simp only [decide_eq_true_eq] at hx ⊢
  omega

/-- An interval is cut in two. -/
theorem between_split {t s u : ℤ} (times : List ℤ) :
    between t u times ≤ between t s times + between s u times := by
  induction times with
  | nil => simp
  | cons x times ih =>
      simp only [between, List.countP_cons, decide_eq_true_eq] at ih ⊢
      split <;> split <;> split <;> omega

/-- Nothing lies behind a bound. -/
theorem between_eq_zero {t u : ℤ} {times : List ℤ} (h : ∀ x ∈ times, x < t) :
    between t u times = 0 := by
  refine List.countP_eq_zero.2 fun x hx => ?_
  have hlt := h x hx
  simp only [decide_eq_true_eq]
  omega

theorem ended_concat {bound now : ℤ} {past : List ℤ} (hpast : ∀ x ∈ past, x < bound)
    (hnow : now < bound) : ∀ x ∈ past ++ [now], x < bound := by
  intro x hx
  rcases List.mem_append.1 hx with hold | hnew
  · exact hpast x hold
  · rwa [List.mem_singleton.1 hnew]

/-! ### Soundness -/

section Sound

variable {width : ℤ} {limit : ℕ}

/-- What has been admitted so far, against the window: the window and the stretch of its width
before it have admitted at most the limit each. -/
structure Bounded (width : ℤ) (limit : ℕ) (past : List ℤ) (w : Window) : Prop where
  ended : ∀ x ∈ past, x < w.start + width
  counted : between w.start (w.start + width) past ≤ w.count
  window : between w.start (w.start + width) past ≤ limit
  before : between (w.start - width + 1) w.start past ≤ limit
  interval : ∀ t, between t (t + width) past ≤ 2 * limit

/-- An interval that contains an event of the window meets nothing in front of the stretch before
it. -/
theorem Bounded.interval_le {past : List ℤ} {w : Window} {now t : ℤ}
    (hended : ∀ x ∈ past, x < w.start + width)
    (hwindow : between w.start (w.start + width) past ≤ limit)
    (hbefore : between (w.start - width + 1) w.start past ≤ limit)
    (hstart : w.start ≤ now) (hnow : now < t + width) :
    between t (t + width) past ≤ 2 * limit := by
  have hsplit := between_split (t := t) (s := w.start) (u := t + width) past
  have hleft : between t w.start past ≤ between (w.start - width + 1) w.start past :=
    between_mono (by omega) le_rfl past
  have hright : between w.start (t + width) past ≤ between w.start (w.start + width) past := by
    refine List.countP_mono_left fun x hx hin => ?_
    have hlt := hended x hx
    simp only [decide_eq_true_eq] at hin ⊢
    omega
  omega

/-- One event, which is admitted or not. -/
theorem Bounded.event (hwidth : 0 < width) {past : List ℤ} {w : Window} {now : ℤ}
    (h : Bounded width limit past w) (hnow : w.start ≤ now) :
    Bounded width limit past (w.event width now) ∧
      ((w.event width now).count ≤ limit →
        Bounded width limit (past ++ [now]) (w.event width now)) := by
  unfold Window.event
  by_cases hexpired : now - w.start ≥ width
  · -- a new window: all that was admitted lies in front of it
    rw [if_pos hexpired]
    have hpast : ∀ x ∈ past, x < now := fun x hx => by
      have hlt := h.ended x hx
      omega
    have hzero : between now (now + width) past = 0 := between_eq_zero hpast
    have hbefore : between (now - width + 1) now past ≤ limit := by
      refine le_trans (List.countP_mono_left fun x hx hin => ?_) h.window
      have hlt := h.ended x hx
      simp only [decide_eq_true_eq] at hin ⊢
      omega
    refine ⟨⟨fun x hx => ?_, ?_, ?_, hbefore, h.interval⟩, fun hlimit => ?_⟩
    · have hlt := hpast x hx
      dsimp only
      omega
    · dsimp only
      omega
    · dsimp only
      omega
    · have hone : between now (now + width) (past ++ [now]) = 1 := by
        rw [between_concat, hzero, if_pos ⟨le_rfl, by omega⟩]
      have hbefore' : between (now - width + 1) now (past ++ [now]) ≤ limit := by
        rw [between_concat, if_neg (by omega)]
        omega
      have hended : ∀ x ∈ past ++ [now], x < now + width :=
        ended_concat (fun x hx => (hpast x hx).trans (by omega)) (by omega)
      refine ⟨hended, hone.le, hone.le.trans hlimit, hbefore', fun t => ?_⟩
      by_cases hin : t ≤ now ∧ now < t + width
      · exact Bounded.interval_le (w := ⟨now, 1⟩) hended (hone.le.trans hlimit) hbefore' le_rfl
          hin.2
      · rw [between_concat, if_neg hin]
        exact h.interval t
  · rw [if_neg hexpired]
    have hcounted := h.counted
    refine ⟨⟨h.ended, ?_, h.window, h.before, h.interval⟩, fun hlimit => ?_⟩
    · dsimp only
      omega
    · have hwindow : between w.start (w.start + width) (past ++ [now]) =
          between w.start (w.start + width) past + 1 := by
        rw [between_concat, if_pos ⟨hnow, by omega⟩]
      have hbefore : between (w.start - width + 1) w.start (past ++ [now]) ≤ limit := by
        rw [between_concat, if_neg (by omega)]
        exact h.before
      have hended : ∀ x ∈ past ++ [now], x < w.start + width :=
        ended_concat h.ended (by omega)
      dsimp only at hlimit
      refine ⟨hended, ?_, ?_, hbefore, fun t => ?_⟩
      · dsimp only
        omega
      · dsimp only
        omega
      · by_cases hin : t ≤ now ∧ now < t + width
        · exact Bounded.interval_le hended (by omega) hbefore hnow hin.2
        · rw [between_concat, if_neg hin]
          exact h.interval t

theorem Window.event_start {w : Window} {now : ℤ} (hnow : w.start ≤ now) :
    (w.event width now).start ≤ now := by
  unfold Window.event
  split
  · exact le_rfl
  · exact hnow

theorem Bounded.admitted (hwidth : 0 < width) {times past : List ℤ} {w : Window}
    (h : Bounded width limit past w) (hstart : ∀ x ∈ times, w.start ≤ x)
    (hsorted : times.Pairwise (· ≤ ·)) (t : ℤ) :
    between t (t + width) (past ++ WindowCounter.admitted width limit times w) ≤ 2 * limit := by
  induction times generalizing past w with
  | nil => simpa [WindowCounter.admitted] using h.interval t
  | cons now rest ih =>
      obtain ⟨hle, hrest⟩ := List.pairwise_cons.1 hsorted
      have hnow := hstart now List.mem_cons_self
      obtain ⟨hrefused, hadmitted⟩ := h.event hwidth hnow
      have hnext : ∀ x ∈ rest, (w.event width now).start ≤ x := fun x hx =>
        (Window.event_start hnow).trans (hle x hx)
      rw [WindowCounter.admitted]
      split
      · exact ih hrefused hnext hrest
      · next hcount =>
          have hall := ih (hadmitted (Nat.not_lt.1 hcount)) hnext hrest
          rwa [List.append_assoc, List.singleton_append] at hall

/-- **No interval of the width of a window admits more than twice the limit.** -/
theorem admitted_le (hwidth : 0 < width) (limit : ℕ) {start : ℤ} {times : List ℤ}
    (hsorted : (start :: times).Pairwise (· ≤ ·)) (t : ℤ) :
    between t (t + width) (admitted width limit times ⟨start, 0⟩) ≤ 2 * limit := by
  obtain ⟨hstart, hrest⟩ := List.pairwise_cons.1 hsorted
  have hnew : Bounded width limit [] ⟨start, 0⟩ :=
    ⟨fun x hx => absurd hx List.not_mem_nil, Nat.zero_le _, Nat.zero_le _, Nat.zero_le _,
      fun _ => Nat.zero_le _⟩
  exact hnew.admitted hwidth hstart hrest t

end Sound

/-! ### Completeness -/

section Complete

variable {width : ℤ} {limit : ℕ}

theorem between_append (t u : ℤ) (xs ys : List ℤ) :
    between t u (xs ++ ys) = between t u xs + between t u ys := List.countP_append

/-- The window has counted the events since its start. -/
theorem admitted_eq_of_counted (hwidth : 0 < width) (past : List ℤ) {times : List ℤ} {w : Window}
    (hended : ∀ x ∈ past, x < w.start + width)
    (hcount : w.count = between w.start (w.start + width) past)
    (hstart : ∀ x ∈ times, w.start ≤ x) (hsorted : times.Pairwise (· ≤ ·))
    (hsparse : ∀ t, between t (t + width) (past ++ times) ≤ limit) :
    admitted width limit times w = times := by
  induction times generalizing past w with
  | nil => rfl
  | cons now rest ih =>
      obtain ⟨hle, hrest⟩ := List.pairwise_cons.1 hsorted
      have hnow := hstart now List.mem_cons_self
      have hnext : ∀ x ∈ rest, (w.event width now).start ≤ x := fun x hx =>
        (Window.event_start hnow).trans (hle x hx)
      have hsparse' : ∀ t, between t (t + width) ((past ++ [now]) ++ rest) ≤ limit := by
        intro t
        rw [List.append_assoc, List.singleton_append]
        exact hsparse t
      have hcounted : (∀ x ∈ past ++ [now], x < (w.event width now).start + width) ∧
          (w.event width now).count =
            between (w.event width now).start ((w.event width now).start + width)
              (past ++ [now]) := by
        unfold Window.event
        by_cases hexpired : now - w.start ≥ width
        · rw [if_pos hexpired]
          have hpast : ∀ x ∈ past, x < now := fun x hx => by
            have hlt := hended x hx
            omega
          refine ⟨ended_concat (fun x hx => (hpast x hx).trans ?_) ?_, ?_⟩
          · dsimp only
            omega
          · dsimp only
            omega
          · dsimp only
            rw [between_concat, between_eq_zero hpast, if_pos ⟨le_rfl, by omega⟩]
        · rw [if_neg hexpired]
          refine ⟨ended_concat hended ?_, ?_⟩
          · dsimp only
            omega
          · dsimp only
            rw [between_concat, if_pos ⟨hnow, by omega⟩, hcount]
      have hwithin : (w.event width now).count ≤ limit := by
        have hall := hsparse' (w.event width now).start
        rw [between_append] at hall
        rw [hcounted.2]
        omega
      rw [admitted, if_neg (by omega), ih _ hcounted.1 hcounted.2 hnext hrest hsparse']

/-- **Everything is admitted** where no interval of the width of a window has more events than the
limit. -/
theorem admitted_eq (hwidth : 0 < width) {start : ℤ} {times : List ℤ}
    (hsorted : (start :: times).Pairwise (· ≤ ·))
    (hsparse : ∀ t, between t (t + width) times ≤ limit) :
    admitted width limit times ⟨start, 0⟩ = times := by
  obtain ⟨hstart, hrest⟩ := List.pairwise_cons.1 hsorted
  exact admitted_eq_of_counted hwidth [] (fun x hx => absurd hx List.not_mem_nil) rfl
    hstart hrest hsparse

end Complete

end WindowCounter
