/-
**Cutting a text at every occurrence of a pattern.**

`TextSearch.Splits pattern text pieces` says that the text is the pieces with the pattern between
each two of them, and that the pattern does not occur in a piece.  A program finds the pieces one by
one, by searching for the pattern.  It finds the right ones when no proper end of the pattern is a
beginning of it (`TextSearch.Unbordered`): then an occurrence cannot start in a piece and end behind
it.

* `TextSearch.Splits` — the pieces of a text;
* `TextSearch.find_append_pattern` — **the search stops behind the first piece**;
* `TextSearch.exists_splits` — every text has pieces;
* `TextSearch.find_singleton_iff` — a search for one symbol.
-/

import RealtimeEngine.TextSearch

set_option relaxedAutoImplicit false
set_option autoImplicit false

namespace TextSearch

variable {α : Type*}

/-! ### Pieces -/

/-- The text is these pieces, with the pattern between them and not in them. -/
inductive Splits (pattern : List α) : List α → List (List α) → Prop
  | last {piece : List α} (hfree : ¬ pattern <:+: piece) : Splits pattern piece [piece]
  | next {piece text : List α} {pieces : List (List α)} (hfree : ¬ pattern <:+: piece)
      (hrest : Splits pattern text pieces) :
      Splits pattern (piece ++ (pattern ++ text)) (piece :: pieces)

theorem Splits.length_le {pattern text : List α} {pieces : List (List α)} (hne : pattern ≠ [])
    (h : Splits pattern text pieces) : pieces.length ≤ text.length + 1 := by
  have hpos := List.length_pos_iff.2 hne
  induction h with
  | last hfree => simp
  | next hfree hrest ih =>
      simp only [List.length_cons, List.length_append]
      omega

theorem Splits.exists_cons {pattern text : List α} {pieces : List (List α)}
    (h : Splits pattern text pieces) : ∃ first rest, pieces = first :: rest := by
  cases h with
  | last hfree => exact ⟨_, _, rfl⟩
  | next hfree hrest => exact ⟨_, _, rfl⟩

/-- No proper end of the pattern is a beginning of it. -/
def Unbordered (pattern : List α) : Prop :=
  ∀ k < pattern.length, 0 < k → ¬ pattern.drop k <+: pattern

theorem unbordered_singleton (a : α) : Unbordered [a] := by
  intro k hk hpos
  rw [List.length_singleton] at hk
  omega

theorem infix_of_prefix_drop {pattern text : List α} {i : ℕ} (h : pattern <+: text.drop i) :
    pattern <:+: text :=
  h.isInfix.trans (List.drop_suffix i text).isInfix

theorem not_infix_singleton_iff {a : α} {text : List α} : ¬ [a] <:+: text ↔ a ∉ text := by
  rw [List.singleton_infix_iff]

variable [DecidableEq α]

theorem find_eq_none_iff_free {pattern text : List α} :
    find pattern text = none ↔ ¬ pattern <:+: text := by
  rw [find_eq_none_iff]
  constructor
  · rintro h ⟨before, behind, rfl⟩
    refine h before.length (by simp) ?_
    rw [List.append_assoc, List.drop_left]
    exact List.prefix_append _ _
  · intro h j _ hfound
    exact h (infix_of_prefix_drop hfound)

/-- An occurrence that is found has its text before and behind it, and none before it. -/
theorem split_of_find {pattern text : List α} (hne : pattern ≠ []) {i : ℕ}
    (h : find pattern text = some i) :
    text = text.take i ++ (pattern ++ text.drop (i + pattern.length)) ∧
      ¬ pattern <:+: text.take i := by
  obtain ⟨-, ⟨behind, hbehind⟩, hfirst⟩ := find_eq_some_iff.1 h
  constructor
  · have hdrop : text.drop (i + pattern.length) = behind := by
      rw [← List.drop_drop, ← hbehind, List.drop_left]
    rw [hdrop, hbehind, List.take_append_drop]
  · rintro ⟨before, rest, hinside⟩
    have hpos := List.length_pos_iff.2 hne
    have hlen := congrArg List.length hinside
    simp only [List.length_append, List.length_take] at hlen
    refine hfirst before.length (by omega) ?_
    have htext : text = before ++ (pattern ++ (rest ++ text.drop i)) := by
      rw [← List.append_assoc, ← List.append_assoc, hinside, List.take_append_drop]
    rw [htext, List.drop_left]
    exact List.prefix_append _ _

/-- **The search stops behind the first piece.** -/
theorem find_append_pattern {pattern piece : List α} (hborder : Unbordered pattern)
    (hfree : ¬ pattern <:+: piece) (rest : List α) :
    find pattern (piece ++ (pattern ++ rest)) = some piece.length := by
  refine find_eq_some_iff.2 ⟨by simp, ?_, ?_⟩
  · rw [List.drop_left]
    exact List.prefix_append _ _
  · intro j hj hfound
    rw [List.drop_append_of_le_length hj.le] at hfound
    by_cases hinside : pattern.length ≤ piece.length - j
    · refine hfree (infix_of_prefix_drop (i := j) ?_)
      exact List.prefix_of_prefix_length_le hfound (List.prefix_append _ _)
        (by rw [List.length_drop]; exact hinside)
    · -- the occurrence ends in the pattern behind the piece, and so its end is a beginning
      obtain ⟨behind, hbehind⟩ := hfound
      have hdrop := congrArg (List.drop (piece.length - j)) hbehind
      have hsplit : (piece.drop j ++ (pattern ++ rest)).drop (piece.length - j) =
          pattern ++ rest := by
        rw [← List.length_drop, List.drop_left]
      rw [hsplit, List.drop_append_of_le_length (by omega)] at hdrop
      refine hborder (piece.length - j) (by omega) (by omega) ?_
      exact List.prefix_of_prefix_length_le (hdrop ▸ List.prefix_append _ _)
        (List.prefix_append pattern rest) (by rw [List.length_drop]; omega)

/-- Every text has pieces. -/
theorem exists_splits {pattern : List α} (hne : pattern ≠ []) (text : List α) :
    ∃ pieces, Splits pattern text pieces := by
  induction hn : text.length using Nat.strong_induction_on generalizing text with
  | _ n ih =>
      cases hfind : find pattern text with
      | none => exact ⟨[text], .last (find_eq_none_iff_free.1 hfind)⟩
      | some i =>
          obtain ⟨htext, hfree⟩ := split_of_find hne hfind
          have hpos := List.length_pos_iff.2 hne
          have hend := find_add_le hfind
          obtain ⟨pieces, hpieces⟩ := ih (text.drop (i + pattern.length)).length
            (by rw [List.length_drop]; omega) _ rfl
          rw [htext]
          exact ⟨_, .next hfree hpieces⟩

/-- A search for one symbol. -/
theorem find_singleton_iff {a : α} {text : List α} {i : ℕ} :
    find [a] text = some i ↔
      ∃ before behind, text = before ++ a :: behind ∧ a ∉ before ∧ i = before.length := by
  constructor
  · intro h
    obtain ⟨htext, hfree⟩ := split_of_find (List.cons_ne_nil a []) h
    have hend := find_add_le h
    refine ⟨text.take i, text.drop (i + 1), htext, not_infix_singleton_iff.1 hfree, ?_⟩
    rw [List.length_take, List.length_singleton] at *
    omega
  · rintro ⟨before, behind, rfl, hfree, rfl⟩
    exact find_append_pattern (unbordered_singleton a) (not_infix_singleton_iff.2 hfree) behind

end TextSearch
