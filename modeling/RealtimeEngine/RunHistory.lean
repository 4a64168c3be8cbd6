/-
**What has happened in a run.**

An invariant says what holds of a state; often the question is how the state came about.  The
history of a run lists its actions in order, each with what it left open and the state that it has
found, so that "this was done, and before it that" can be said of a run and proved by the same
induction as an invariant.

Main definitions:

* `Interleaving.Event`, `Interleaving.Program.history` — the actions of a run;
* `Interleaving.Happened` — some entry meets a condition on itself and on what stands before it.

Main results:

* `Interleaving.Happened.append`, `Interleaving.happened_last` — what has happened stays so;
* `Interleaving.Program.invariant_history` — **the invariant rule** with the history.
-/

import RealtimeEngine.Interleaving

set_option relaxedAutoImplicit false
set_option autoImplicit false

namespace Interleaving

variable {σ π χ ε : Type*}

/-! ### Histories -/

/-- An action of a run. -/
structure Event (σ π χ : Type*) where
  choice : χ
  action : π
  /-- The state in which the action was run. -/
  found : σ

/-- Some entry of the list meets the condition, together with the entries before it. -/
def Happened (φ : List ε → ε → Prop) (l : List ε) : Prop :=
  ∃ before e after, l = before ++ e :: after ∧ φ before e

theorem Happened.append {φ : List ε → ε → Prop} {l : List ε} (h : Happened φ l) (more : List ε) :
    Happened φ (l ++ more) := by
  obtain ⟨before, e, after, rfl, hφ⟩ := h
  exact ⟨before, e, after ++ more, by rw [List.append_assoc, List.cons_append], hφ⟩

theorem happened_last {φ : List ε → ε → Prop} {l : List ε} {e : ε} (h : φ l e) :
    Happened φ (l ++ [e]) :=
  ⟨l, e, [], rfl, h⟩

/-- What one entry adds to a part of a history. -/
theorem filterMap_singleton {δ : Type*} (f : ε → Option δ) (e : ε) :
    [e].filterMap f = (f e).toList := by
  cases h : f e with
  | none => exact List.filterMap_cons_none h
  | some d => exact List.filterMap_cons_some h

namespace Program

/-- The actions of a run, in order. -/
def history (P : Program σ π χ) : List (ℕ × χ) → Config σ π → List (Event σ π χ)
  | [], _ => []
  | m :: moves, c =>
      match c.threads[m.1]? with
      | some (p :: _) =>
          ⟨m.2, p, c.shared⟩ ::
            match P.move c m.1 m.2 with
            | some c' => history P moves c'
            | none => []
      | _ => []

variable {P : Program σ π χ}

/-- The history of a run that begins with a move. -/
theorem history_cons {c c' : Config σ π} {i : ℕ} {x : χ} {p : π} {rest : List π}
    (hget : c.threads[i]? = some (p :: rest)) (hmove : P.move c i x = some c')
    (moves : List (ℕ × χ)) :
    P.history ((i, x) :: moves) c = ⟨x, p, c.shared⟩ :: P.history moves c' := by
  simp only [history, hget, hmove]

/-- Every move of a run is in its history. -/
theorem length_history (moves : List (ℕ × χ)) {c c' : Config σ π}
    (hrun : P.run moves c = some c') : (P.history moves c).length = moves.length := by
  induction moves generalizing c with
  | nil => rfl
  | cons m moves ih =>
      obtain ⟨d, hmove, hrest⟩ := Option.bind_eq_some_iff.1 hrun
      obtain ⟨p, R, o, ⟨rest, hget⟩, -⟩ := move_pending hmove
      rw [history_cons hget hmove, List.length_cons, List.length_cons, ih hrest]

/-- The choices in the history of a run are those of its moves. -/
theorem choice_mem_of_history {moves : List (ℕ × χ)} {c : Config σ π} {e : Event σ π χ}
    (he : e ∈ P.history moves c) : ∃ m ∈ moves, m.2 = e.choice := by
  induction moves generalizing c with
  | nil => exact absurd he List.not_mem_nil
  | cons m moves ih =>
      unfold history at he
      split at he
      · rcases List.mem_cons.1 he with rfl | he
        · exact ⟨m, List.mem_cons_self, rfl⟩
        · split at he
          · obtain ⟨m', hm', hchoice⟩ := ih he
            exact ⟨m', List.mem_cons_of_mem _ hm', hchoice⟩
          · exact absurd he List.not_mem_nil
      · exact absurd he List.not_mem_nil

/-- **The invariant rule** with the history: it is enough that one action keeps the invariant when
it is added to what has happened. -/
theorem invariant_history {I : List (Event σ π χ) → σ → Multiset π → Prop}
    (hexec : ∀ h x p s R o, P.exec x p s = some o → I h s (p ::ₘ R) →
      I (h ++ [⟨x, p, s⟩]) o.shared (o.next + o.forked.flatten + R))
    (moves : List (ℕ × χ)) {h : List (Event σ π χ)} {c c' : Config σ π}
    (hI : I h c.shared c.pending) (hrun : P.run moves c = some c') :
    I (h ++ P.history moves c) c'.shared c'.pending := by
  induction moves generalizing h c with
  | nil =>
      obtain rfl := Option.some.inj hrun
      rw [history, List.append_nil]
      exact hI
  | cons m moves ih =>
      obtain ⟨d, hmove, hrest⟩ := Option.bind_eq_some_iff.1 hrun
      obtain ⟨p, R, o, ⟨rest, hget⟩, ho, hR, hs, hp⟩ := move_pending hmove
      rw [history_cons hget hmove, List.append_cons]
      refine ih ?_ hrest
      rw [hs, hp]
      rw [hR] at hI
      exact hexec _ _ _ _ _ _ ho hI

/-- **The descent rule**: if a measure never grows, and the actions of some kind lower it, then it
bounds how many of them a run can have. -/
theorem countP_history_le {m : σ → Multiset π → ℕ} {q : Event σ π χ → Bool} {ok : χ → Prop}
    (hexec : ∀ x p s R o, P.exec x p s = some o → ok x →
      [(⟨x, p, s⟩ : Event σ π χ)].countP q + m o.shared (o.next + o.forked.flatten + R) ≤
        m s (p ::ₘ R))
    (moves : List (ℕ × χ)) {c c' : Config σ π} (hok : ∀ move ∈ moves, ok move.2)
    (hrun : P.run moves c = some c') :
    (P.history moves c).countP q + m c'.shared c'.pending ≤ m c.shared c.pending := by
  induction moves generalizing c with
  | nil =>
      obtain rfl := Option.some.inj hrun
      exact (Nat.zero_add _).le
  | cons move moves ih =>
      obtain ⟨d, hmove, hrest⟩ := Option.bind_eq_some_iff.1 hrun
      obtain ⟨p, R, o, ⟨rest, hget⟩, ho, hR, hs, hp⟩ := move_pending hmove
      obtain ⟨hfirst, hok⟩ := List.forall_mem_cons.1 hok
      have hone := hexec _ _ _ R _ ho hfirst
      have hothers := ih hok hrest
      rw [← hs, ← hp, ← hR] at hone
      rw [history_cons hget hmove, ← List.singleton_append, List.countP_append]
      omega

end Program

end Interleaving
