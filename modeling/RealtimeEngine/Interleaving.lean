/-
**Threads that interleave over a shared state.**

A thread is a stack of actions it still has to run.  An action is atomic: it reads and writes the
shared state, puts actions of its own in front of the rest of its stack, and may start further
threads.  A move picks a thread and resolves what the action leaves open; a run is a list of moves,
so every interleaving is a run.  Threads that come from outside are started by an action that stays
in the pool.

Which thread an action belongs to rarely matters for an invariant; what matters is which actions
are still pending anywhere.  The rules below are therefore about the multiset of pending actions.

Main definitions:

* `Interleaving.Program`, `Interleaving.Config` — the atomic actions, and a pool of threads;
* `Interleaving.Program.move`, `Interleaving.Program.run` — one move, and a list of them;
* `Interleaving.Program.AllMeet` — every action of a run is run in a state that meets a condition;
* `Interleaving.Program.Reaches` — what can be reached, by the pending actions alone;
* `Interleaving.weight`, `Interleaving.holders` — the sum of a weight over the pending actions, and
  what they hold.

Main results:

* `Interleaving.Program.move_pending` — what a move does to the pending actions;
* `Interleaving.Program.invariant_of_allMeet` — **the invariant rule** for runs under a condition;
* `Interleaving.Program.invariant` — the same for all runs;
* `Interleaving.Program.invariant_threads` — the rule for the stacks of the threads;
* `Interleaving.Program.exists_run_of_spends` — **the rule for a run to the end**.
-/

import Mathlib.Algebra.BigOperators.Group.Multiset.Basic
import Mathlib.Algebra.Order.Group.Multiset
import Mathlib.Algebra.Order.Ring.Nat

set_option relaxedAutoImplicit false
set_option autoImplicit false

namespace Interleaving

variable {σ π χ : Type*}

/-! ### Programs and pools -/

/-- What an action leaves behind. -/
structure Outcome (σ π : Type*) where
  shared : σ
  /-- What the thread does next, before the rest of its stack. -/
  next : List π
  /-- The stacks of new threads. -/
  forked : List (List π)

/-- The atomic actions `π` over the shared state `σ`; `χ` resolves what an action leaves open. -/
structure Program (σ π χ : Type*) where
  exec : χ → π → σ → Option (Outcome σ π)

/-- A pool of threads. -/
structure Config (σ π : Type*) where
  shared : σ
  threads : List (List π)

/-- The actions that are pending in some thread. -/
def Config.pending (c : Config σ π) : Multiset π := (c.threads.flatten : List π)

/-- The sum of a weight over the pending actions. -/
def weight (f : π → ℕ) (P : Multiset π) : ℕ := (P.map f).sum

@[simp] theorem weight_cons (f : π → ℕ) (p : π) (P : Multiset π) :
    weight f (p ::ₘ P) = f p + weight f P := by
  simp [weight]

@[simp] theorem weight_add (f : π → ℕ) (P Q : Multiset π) :
    weight f (P + Q) = weight f P + weight f Q := by
  simp [weight]

@[simp] theorem weight_coe (f : π → ℕ) (l : List π) : weight f (l : Multiset π) = (l.map f).sum := by
  simp [weight]

theorem le_weight {f : π → ℕ} {p : π} {P : Multiset π} (h : p ∈ P) : f p ≤ weight f P := by
  obtain ⟨R, rfl⟩ := Multiset.exists_cons_of_mem h
  rw [weight_cons]
  exact Nat.le_add_right _ _

theorem weight_eq_zero {f : π → ℕ} {P : Multiset π} (h : ∀ p ∈ P, f p = 0) : weight f P = 0 := by
  induction P using Multiset.induction_on with
  | empty => rfl
  | cons p P ih =>
      rw [weight_cons, h p (Multiset.mem_cons_self p P),
        ih fun q hq => h q (Multiset.mem_cons_of_mem hq)]

theorem weight_congr {f g : π → ℕ} {P : Multiset π} (h : ∀ p ∈ P, f p = g p) :
    weight f P = weight g P :=
  congrArg Multiset.sum (Multiset.map_congr rfl h)

theorem weight_mono {f g : π → ℕ} (h : ∀ p, f p ≤ g p) (P : Multiset π) :
    weight f P ≤ weight g P := by
  induction P using Multiset.induction_on with
  | empty => exact le_rfl
  | cons p P ih =>
      rw [weight_cons, weight_cons]
      exact Nat.add_le_add (h p) ih

/-- Some pending action has the weight. -/
theorem exists_of_weight {f : π → ℕ} {P : Multiset π} (h : weight f P ≠ 0) : ∃ p ∈ P, f p ≠ 0 := by
  by_contra hnot
  refine h (weight_eq_zero fun p hp => ?_)
  by_contra hp'
  exact hnot ⟨p, hp, hp'⟩

theorem weight_le_add {f g h : π → ℕ} {n : ℕ} (hle : ∀ p, f p ≤ g p + n * h p) (P : Multiset π) :
    weight f P ≤ weight g P + n * weight h P := by
  induction P using Multiset.induction_on with
  | empty => exact Nat.zero_le _
  | cons p P ih =>
      have hp := hle p
      rw [weight_cons, weight_cons, weight_cons, Nat.mul_add]
      omega

theorem countP_le_weight {q : π → Prop} [DecidablePred q] {f : π → ℕ} (h : ∀ p, q p → 1 ≤ f p)
    (P : Multiset π) : P.countP q ≤ weight f P := by
  induction P using Multiset.induction_on with
  | empty => simp
  | cons p P ih =>
      rw [Multiset.countP_cons, weight_cons]
      by_cases hp : q p
      · have hone := h p hp
        rw [if_pos hp]
        omega
      · rw [if_neg hp]
        omega

variable {κ : Type*}

/-- What the pending actions hold, each at most one thing. -/
def holders (f : π → Option κ) (P : Multiset π) : Multiset κ := P.filterMap f

theorem holders_cons (f : π → Option κ) (p : π) (P : Multiset π) :
    holders f (p ::ₘ P) = (f p).toList + holders f P := by
  unfold holders
  cases h : f p with
  | none => rw [Multiset.filterMap_cons_none _ _ h, Option.toList_none, Multiset.coe_nil, zero_add]
  | some k =>
      rw [Multiset.filterMap_cons_some _ _ _ h, Option.toList_some, Multiset.coe_singleton,
        Multiset.singleton_add]

theorem holders_add (f : π → Option κ) (P Q : Multiset π) :
    holders f (P + Q) = holders f P + holders f Q :=
  Multiset.filterMap_add _ _ _

theorem holders_coe (f : π → Option κ) (l : List π) :
    holders f (l : Multiset π) = (l.filterMap f : List κ) :=
  Multiset.filterMap_coe _ _

theorem mem_holders {f : π → Option κ} {k : κ} {P : Multiset π} :
    k ∈ holders f P ↔ ∃ p ∈ P, f p = some k :=
  Multiset.mem_filterMap _ _

theorem holders_cons_none {f : π → Option κ} {p : π} (h : f p = none) (P : Multiset π) :
    holders f (p ::ₘ P) = holders f P :=
  Multiset.filterMap_cons_none _ _ h

theorem holders_cons_some {f : π → Option κ} {p : π} {k : κ} (h : f p = some k) (P : Multiset π) :
    holders f (p ::ₘ P) = k ::ₘ holders f P :=
  Multiset.filterMap_cons_some _ _ _ h

theorem count_holders_cons [DecidableEq κ] {f : π → Option κ} {p : π} {k₀ : κ}
    (h : f p = some k₀) (P : Multiset π) (k : κ) :
    (holders f (p ::ₘ P)).count k = (if k = k₀ then 1 else 0) + (holders f P).count k := by
  rw [holders_cons, h, Option.toList_some, Multiset.coe_singleton, Multiset.count_add,
    Multiset.count_singleton]

/-- The actions that are pending when one is put in front of the others. -/
theorem coe_cons_add (p : π) (l : List π) (P : Multiset π) :
    ((p :: l : List π) : Multiset π) + P = p ::ₘ (l + P) := by
  rw [← Multiset.cons_coe, Multiset.cons_add]

theorem coe_singleton_add (p : π) (P : Multiset π) : (([p] : List π) : Multiset π) + P = p ::ₘ P := by
  rw [coe_cons_add, Multiset.coe_nil, zero_add]

/-- An action that hands on what it holds. -/
theorem holders_step {f : π → Option κ} {p : π} {new : List π} {P : Multiset π}
    (h : new.filterMap f = (f p).toList) : holders f (new + P) = holders f (p ::ₘ P) := by
  rw [holders_add, holders_coe, h, holders_cons]

namespace Program

variable (P : Program σ π χ)

/-- One move: the thread `i` runs its next action. -/
def move (c : Config σ π) (i : ℕ) (x : χ) : Option (Config σ π) :=
  match c.threads[i]? with
  | some (p :: rest) =>
      (P.exec x p c.shared).map fun o =>
        ⟨o.shared, c.threads.set i (o.next ++ rest) ++ o.forked⟩
  | _ => none

/-- A run: one move after the other. -/
def run : List (ℕ × χ) → Config σ π → Option (Config σ π)
  | [], c => some c
  | m :: moves, c => (P.move c m.1 m.2).bind (run moves)

/-- Every action of the run is run in a state that meets `ok`, a condition on the choice, the
action, the shared state and the actions that are pending beside it. -/
def AllMeet (ok : χ → π → σ → Multiset π → Prop) : List (ℕ × χ) → Config σ π → Prop
  | [], _ => True
  | m :: moves, c =>
      (∀ p R, (∃ rest, c.threads[m.1]? = some (p :: rest)) → c.pending = p ::ₘ R →
        ok m.2 p c.shared R) ∧
      ∀ c', P.move c m.1 m.2 = some c' → AllMeet ok moves c'

/-- Checks along a run that its actions meet a condition that ignores the other pending actions. -/
def meets (ok : χ → π → σ → Bool) : List (ℕ × χ) → Config σ π → Bool
  | [], _ => true
  | m :: moves, c =>
      match c.threads[m.1]? with
      | some (p :: _) =>
          ok m.2 p c.shared &&
            match P.move c m.1 m.2 with
            | some c' => meets ok moves c'
            | none => true
      | _ => true

/-- Checks along a run that its actions meet a condition on a weight of the actions pending beside
each of them. -/
def checks (f : π → π → ℕ) (ok : π → σ → ℕ → Bool) : List (ℕ × χ) → Config σ π → Bool
  | [], _ => true
  | m :: moves, c =>
      match c.threads[m.1]? with
      | some (p :: _) =>
          ok p c.shared ((c.threads.flatten.map (f p)).sum - f p p) &&
            match P.move c m.1 m.2 with
            | some c' => checks f ok moves c'
            | none => true
      | _ => true

/-- What can be reached, up to which thread an action is pending in. -/
inductive Reaches (s₀ : σ) (P₀ : Multiset π) : σ → Multiset π → Prop
  | start : Reaches s₀ P₀ s₀ P₀
  | step {x : χ} {p : π} {s : σ} {R : Multiset π} {o : Outcome σ π}
      (h : Reaches s₀ P₀ s (p ::ₘ R)) (hexec : P.exec x p s = some o) :
      Reaches s₀ P₀ o.shared (o.next + o.forked.flatten + R)

/-- The stack is run to its end by its thread, with no other thread in between. -/
inductive Alone (x : χ) : List π → σ → σ → Prop
  | done (s : σ) : Alone x [] s s
  | step {p : π} {rest : List π} {s s' : σ} {o : Outcome σ π} (hexec : P.exec x p s = some o)
      (hforked : o.forked = []) (hrest : Alone x (o.next ++ rest) o.shared s') :
      Alone x (p :: rest) s s'

variable {P}

/-! ### What a move does -/

theorem flatten_set_append {l : List (List π)} {i : ℕ} {p : π} {rest : List π}
    (h : l[i]? = some (p :: rest)) (new : List π) (more : List (List π)) :
    ∃ R : Multiset π, ((l.flatten : List π) : Multiset π) = p ::ₘ R ∧
      (((l.set i (new ++ rest) ++ more).flatten : List π) : Multiset π) =
        new + more.flatten + R := by
  obtain ⟨hi, hget⟩ := List.getElem?_eq_some_iff.1 h
  have hsplit : l = l.take i ++ (p :: rest) :: l.drop (i + 1) := by
    rw [← hget, List.getElem_cons_drop, List.take_append_drop]
  refine ⟨((l.take i).flatten : List π) + (rest : Multiset π) + ((l.drop (i + 1)).flatten : List π),
    ?_, ?_⟩
  · conv_lhs => rw [hsplit]
    simp only [List.flatten_append, List.flatten_cons, ← Multiset.coe_add, ← Multiset.cons_coe,
      Multiset.cons_add, Multiset.add_cons, add_assoc]
  · rw [List.set_eq_take_append_cons_drop, if_pos hi]
    simp only [List.flatten_append, List.flatten_cons, ← Multiset.coe_add]
    ac_rfl

/-- **A move runs one pending action** and leaves the others pending. -/
theorem move_pending {c c' : Config σ π} {i : ℕ} {x : χ} (h : P.move c i x = some c') :
    ∃ p R o, (∃ rest, c.threads[i]? = some (p :: rest)) ∧ P.exec x p c.shared = some o ∧
      c.pending = p ::ₘ R ∧ c'.shared = o.shared ∧
      c'.pending = o.next + o.forked.flatten + R := by
  unfold move at h
  split at h
  · next p rest hget =>
      obtain ⟨o, ho, rfl⟩ := Option.map_eq_some_iff.1 h
      obtain ⟨R, hR, hnew⟩ := flatten_set_append hget o.next o.forked
      exact ⟨p, R, o, ⟨rest, hget⟩, ho, hR, rfl, hnew⟩
  · cases h

theorem run_append (moves moves' : List (ℕ × χ)) (c : Config σ π) :
    P.run (moves ++ moves') c = (P.run moves c).bind (P.run moves') := by
  induction moves generalizing c with
  | nil => rfl
  | cons m moves ih =>
      simp only [List.cons_append, run]
      cases P.move c m.1 m.2 with
      | none => rfl
      | some c' => exact ih c'

theorem allMeet_cons {ok : χ → π → σ → Multiset π → Prop} {c c' : Config σ π} {i : ℕ} {x : χ}
    {p : π} {rest : List π} {moves : List (ℕ × χ)} (hget : c.threads[i]? = some (p :: rest))
    (hmove : P.move c i x = some c') (hok : ∀ R, c.pending = p ::ₘ R → ok x p c.shared R)
    (h : P.AllMeet ok moves c') : P.AllMeet ok ((i, x) :: moves) c := by
  refine ⟨?_, fun d hd => ?_⟩
  · rintro q R ⟨rest', hget'⟩ hR
    obtain ⟨rfl, -⟩ := List.cons.inj (Option.some.inj (hget.symm.trans hget'))
    exact hok R hR
  · obtain rfl := Option.some.inj (hmove.symm.trans hd)
    exact h

/-- **A run to the end.**  If a move that is allowed takes something off what is left, wherever it
has not come to its end, then some such moves lead to an end. -/
theorem exists_run_of_spends (ok : χ → π → σ → Prop) (I ended : Config σ π → Prop)
    (left : Config σ π → ℕ)
    (hspends : ∀ c, I c → ¬ended c → ∃ i x p rest c', c.threads[i]? = some (p :: rest) ∧
      P.move c i x = some c' ∧ ok x p c.shared ∧ I c' ∧ left c' < left c)
    {c : Config σ π} (hI : I c) :
    ∃ moves c', P.run moves c = some c' ∧ P.AllMeet (fun x p s _ => ok x p s) moves c ∧ I c' ∧
      ended c' := by
  generalize hn : left c = n
  induction n using Nat.strong_induction_on generalizing c with
  | _ n ih =>
      by_cases hended : ended c
      · exact ⟨[], c, rfl, trivial, hI, hended⟩
      · obtain ⟨i, x, p, rest, d, hget, hmove, hok, hId, hless⟩ := hspends c hI hended
        obtain ⟨moves, c', hrun, hmeets, hI', hended'⟩ := ih _ (hn ▸ hless) hId rfl
        exact ⟨(i, x) :: moves, c', Option.bind_eq_some_iff.2 ⟨d, hmove, hrun⟩,
          allMeet_cons hget hmove (fun _ _ => hok) hmeets, hI', hended'⟩

theorem allMeet_append {ok : χ → π → σ → Multiset π → Prop} {moves moves' : List (ℕ × χ)}
    {c c' : Config σ π} (h : P.AllMeet ok (moves ++ moves') c) (hrun : P.run moves c = some c') :
    P.AllMeet ok moves c ∧ P.AllMeet ok moves' c' := by
  induction moves generalizing c with
  | nil =>
      obtain rfl := Option.some.inj hrun
      exact ⟨trivial, h⟩
  | cons m moves ih =>
      obtain ⟨d, hmove, hrest⟩ := Option.bind_eq_some_iff.1 hrun
      refine ⟨⟨h.1, fun d' hmove' => ?_⟩, (ih (h.2 d hmove) hrest).2⟩
      obtain rfl := Option.some.inj (hmove.symm.trans hmove')
      exact (ih (h.2 d hmove) hrest).1

theorem allMeet_of_meets (ok : χ → π → σ → Bool) (moves : List (ℕ × χ)) {c : Config σ π}
    (h : P.meets ok moves c = true) :
    P.AllMeet (fun x p s _ => ok x p s = true) moves c := by
  induction moves generalizing c with
  | nil => trivial
  | cons m moves ih =>
      unfold meets at h
      refine ⟨?_, fun c' hmove => ?_⟩
      · rintro p R ⟨rest, hget⟩ -
        rw [hget] at h
        exact (Bool.and_eq_true_iff.1 h).1
      · obtain ⟨p, -, -, ⟨rest, hget⟩, -⟩ := move_pending hmove
        rw [hget] at h
        have hrest := (Bool.and_eq_true_iff.1 h).2
        rw [hmove] at hrest
        exact ih hrest

theorem allMeet_of_checks (f : π → π → ℕ) (ok : π → σ → ℕ → Bool) (moves : List (ℕ × χ))
    {c : Config σ π} (h : P.checks f ok moves c = true) :
    P.AllMeet (fun _ p s R => ok p s (weight (f p) R) = true) moves c := by
  induction moves generalizing c with
  | nil => trivial
  | cons m moves ih =>
      unfold checks at h
      refine ⟨?_, fun c' hmove => ?_⟩
      · rintro p R ⟨rest, hget⟩ hR
        rw [hget] at h
        have hbeside : (c.threads.flatten.map (f p)).sum - f p p = weight (f p) R := by
          rw [← weight_coe, ← Config.pending, hR, weight_cons, Nat.add_sub_cancel_left]
        rw [← hbeside]
        exact (Bool.and_eq_true_iff.1 h).1
      · obtain ⟨p, -, -, ⟨rest, hget⟩, -⟩ := move_pending hmove
        rw [hget] at h
        have hrest := (Bool.and_eq_true_iff.1 h).2
        rw [hmove] at hrest
        exact ih hrest

/-! ### Invariants -/

/-- **The invariant rule**, for runs whose actions all meet a condition: it is enough that one
action keeps the invariant, whatever else is pending. -/
theorem invariant_of_allMeet {I : σ → Multiset π → Prop} {ok : χ → π → σ → Multiset π → Prop}
    (hexec : ∀ x p s R o, P.exec x p s = some o → ok x p s R → I s (p ::ₘ R) →
      I o.shared (o.next + o.forked.flatten + R))
    (moves : List (ℕ × χ)) {c c' : Config σ π} (hok : P.AllMeet ok moves c)
    (h : I c.shared c.pending) (hrun : P.run moves c = some c') : I c'.shared c'.pending := by
  induction moves generalizing c with
  | nil =>
      obtain rfl := Option.some.inj hrun
      exact h
  | cons m moves ih =>
      obtain ⟨d, hmove, hrest⟩ := Option.bind_eq_some_iff.1 hrun
      obtain ⟨p, R, o, hget, ho, hR, hs, hp⟩ := move_pending hmove
      refine ih (hok.2 d hmove) ?_ hrest
      rw [hs, hp]
      rw [hR] at h
      exact hexec _ _ _ _ _ ho (hok.1 p R hget hR) h

/-- The invariant rule for all runs. -/
theorem invariant {I : σ → Multiset π → Prop}
    (hexec : ∀ x p s R o, P.exec x p s = some o → I s (p ::ₘ R) →
      I o.shared (o.next + o.forked.flatten + R))
    (moves : List (ℕ × χ)) {c c' : Config σ π} (h : I c.shared c.pending)
    (hrun : P.run moves c = some c') : I c'.shared c'.pending := by
  have hok : ∀ (moves : List (ℕ × χ)) (c : Config σ π),
      P.AllMeet (fun _ _ _ _ => True) moves c := by
    intro moves
    induction moves with
    | nil => exact fun _ => trivial
    | cons m moves ih => exact fun _ => ⟨fun _ _ _ _ => trivial, fun c' _ => ih c'⟩
  exact invariant_of_allMeet (fun x p s R o ho _ => hexec x p s R o ho) moves (hok moves c) h hrun

/-- The invariant rule for the stacks of the threads, beside one for the shared state. -/
theorem invariant_threads {I : σ → Prop} {S : List π → Prop}
    (hexec : ∀ x p rest s o, P.exec x p s = some o → I s → S (p :: rest) →
      I o.shared ∧ S (o.next ++ rest) ∧ ∀ stack ∈ o.forked, S stack)
    (moves : List (ℕ × χ)) {c c' : Config σ π} (hI : I c.shared) (hS : ∀ stack ∈ c.threads, S stack)
    (hrun : P.run moves c = some c') : I c'.shared ∧ ∀ stack ∈ c'.threads, S stack := by
  induction moves generalizing c with
  | nil =>
      obtain rfl := Option.some.inj hrun
      exact ⟨hI, hS⟩
  | cons m moves ih =>
      obtain ⟨d, hmove, hrest⟩ := Option.bind_eq_some_iff.1 hrun
      unfold move at hmove
      split at hmove
      · next p rest hget =>
          obtain ⟨o, ho, rfl⟩ := Option.map_eq_some_iff.1 hmove
          obtain ⟨hI', hnext, hforked⟩ :=
            hexec _ p rest _ o ho hI (hS _ (List.mem_of_getElem? hget))
          refine ih hI' (fun stack hstack => ?_) hrest
          rcases List.mem_append.1 hstack with hset | hnew
          · rcases List.mem_or_eq_of_mem_set hset with hold | rfl
            · exact hS stack hold
            · exact hnext
          · exact hforked stack hnew
      · cases hmove

/-- What is pending is in the stack of a thread. -/
theorem exists_thread {c : Config σ π} {p : π} (h : p ∈ c.pending) :
    ∃ (i : ℕ) (stack : List π), c.threads[i]? = some stack ∧ p ∈ stack := by
  obtain ⟨stack, hstack, hp⟩ := List.mem_flatten.1 (Multiset.mem_coe.1 h)
  obtain ⟨i, hi⟩ := List.getElem?_of_mem hstack
  exact ⟨i, stack, hi, hp⟩

/-- Every run reaches its last state. -/
theorem run_reaches {moves : List (ℕ × χ)} {c c' : Config σ π} (hrun : P.run moves c = some c') :
    P.Reaches c.shared c.pending c'.shared c'.pending :=
  invariant (fun _ _ _ _ _ ho h => h.step ho) moves .start hrun

end Program

end Interleaving
