/-
**Searching a text for a pattern.**

`TextSearch.find` is the position of the first occurrence of a pattern, and `TextSearch.findFrom`
starts the search at a position, as the `find` of a string does.  A text that arrives in pieces is
searched again whenever it has grown; what was found before is found again at the same place, and
what is found for the first time ends behind the old end.

* `TextSearch.find`, `TextSearch.findFrom` — the first occurrence;
* `TextSearch.find_eq_some_iff` — what the position says;
* `TextSearch.find_append`, `TextSearch.findFrom_append` — **a text that grows**;
* `TextSearch.agreement` — how far two texts are the same.
-/

import Mathlib.Data.List.Infix
import Mathlib.Data.Nat.Find

set_option relaxedAutoImplicit false
set_option autoImplicit false

namespace TextSearch

variable {α : Type*} [DecidableEq α]

/-- The position of the first occurrence of the pattern. -/
def find (pattern : List α) : List α → Option ℕ
  | [] => if pattern = [] then some 0 else none
  | a :: text => if pattern.isPrefixOf (a :: text) then some 0 else (find pattern text).map (· + 1)

/-- The first occurrence at the position or behind it. -/
def findFrom (pattern text : List α) (position : ℕ) : Option ℕ :=
  (find pattern (text.drop position)).map (· + position)

theorem find_eq_some_iff {pattern text : List α} {i : ℕ} :
    find pattern text = some i ↔
      i ≤ text.length ∧ pattern <+: text.drop i ∧ ∀ j < i, ¬ pattern <+: text.drop j := by
  induction text generalizing i with
  | nil =>
      by_cases hp : pattern = []
      · subst hp
        constructor
        · intro h
          obtain rfl := Option.some.inj h
          exact ⟨Nat.zero_le _, List.nil_prefix, fun j hj => absurd hj (Nat.not_lt_zero j)⟩
        · rintro ⟨hle, -, -⟩
          obtain rfl : i = 0 := Nat.le_zero.1 hle
          rfl
      · simp [find, hp]
  | cons a text ih =>
      unfold find
      by_cases hp : pattern <+: a :: text
      · rw [if_pos (List.isPrefixOf_iff_prefix.2 hp)]
        constructor
        · intro h
          obtain rfl := Option.some.inj h
          exact ⟨Nat.zero_le _, hp, fun j hj => absurd hj (Nat.not_lt_zero j)⟩
        · rintro ⟨-, -, hfirst⟩
          rcases Nat.eq_zero_or_pos i with rfl | hpos
          · rfl
          · exact absurd hp (hfirst 0 hpos)
      · -- not here, so the first position is one behind that in the tail
        rw [if_neg (fun h => hp (List.isPrefixOf_iff_prefix.1 h))]
        constructor
        · intro h
          obtain ⟨k, hk, rfl⟩ := Option.map_eq_some_iff.1 h
          obtain ⟨hle, hfound, hfirst⟩ := ih.1 hk
          refine ⟨Nat.succ_le_succ hle, hfound, fun j hj => ?_⟩
          cases j with
          | zero => exact hp
          | succ j => exact hfirst j (Nat.lt_of_succ_lt_succ hj)
        · rintro ⟨hle, hfound, hfirst⟩
          cases i with
          | zero => exact absurd hfound hp
          | succ k =>
              have hk : find pattern text = some k :=
                ih.2 ⟨Nat.le_of_succ_le_succ hle, hfound,
                  fun j hj => hfirst (j + 1) (Nat.succ_lt_succ hj)⟩
              rw [hk]
              rfl

theorem find_eq_none_iff {pattern text : List α} :
    find pattern text = none ↔ ∀ j ≤ text.length, ¬ pattern <+: text.drop j := by
  constructor
  · intro h j hj hfound
    -- then there is a first such position
    have hex : ∃ i, i ≤ text.length ∧ pattern <+: text.drop i := ⟨j, hj, hfound⟩
    have hspec := Nat.find_spec hex
    have hsome : find pattern text = some (Nat.find hex) := by
      refine find_eq_some_iff.2 ⟨hspec.1, hspec.2, fun k hk hfound' => ?_⟩
      exact Nat.find_min hex hk ⟨le_trans hk.le hspec.1, hfound'⟩
    rw [h] at hsome
    cases hsome
  · intro h
    cases hsome : find pattern text with
    | none => rfl
    | some i =>
        obtain ⟨hle, hfound, -⟩ := find_eq_some_iff.1 hsome
        exact absurd hfound (h i hle)

/-- The occurrence ends inside the text. -/
theorem find_add_le {pattern text : List α} {i : ℕ} (h : find pattern text = some i) :
    i + pattern.length ≤ text.length := by
  obtain ⟨hle, hfound, -⟩ := find_eq_some_iff.1 h
  have hlen := hfound.length_le
  rw [List.length_drop] at hlen
  omega

omit [DecidableEq α] in
/-- Whether the pattern occurs at a position does not depend on what follows the occurrence. -/
theorem prefix_drop_append_iff {pattern text : List α} {j : ℕ}
    (h : j + pattern.length ≤ text.length) (more : List α) :
    pattern <+: (text ++ more).drop j ↔ pattern <+: text.drop j := by
  rw [List.drop_append_of_le_length (by omega)]
  constructor
  · intro hfound
    exact List.prefix_of_prefix_length_le hfound (List.prefix_append _ _)
      (by rw [List.length_drop]; omega)
  · intro hfound
    exact hfound.trans (List.prefix_append _ _)

/-- **What was found is found again** when the text has grown. -/
theorem find_append {pattern text : List α} {i : ℕ} (h : find pattern text = some i)
    (more : List α) : find pattern (text ++ more) = some i := by
  have hend := find_add_le h
  obtain ⟨hle, hfound, hfirst⟩ := find_eq_some_iff.1 h
  refine find_eq_some_iff.2 ⟨?_, ?_, fun j hj => ?_⟩
  · rw [List.length_append]
    omega
  · exact (prefix_drop_append_iff hend more).2 hfound
  · rw [prefix_drop_append_iff (by omega)]
    exact hfirst j hj

/-- A text is searched up to the end of its first occurrence only. -/
theorem find_take {pattern text : List α} {i : ℕ} (h : find pattern text = some i) {n : ℕ}
    (hn : i + pattern.length ≤ n) : find pattern (text.take n) = some i := by
  have hend := find_add_le h
  obtain ⟨hle, hfound, hfirst⟩ := find_eq_some_iff.1 h
  have hlen : i + pattern.length ≤ (text.take n).length := by
    rw [List.length_take]
    omega
  have hsplit : text = text.take n ++ text.drop n := (List.take_append_drop n text).symm
  rw [hsplit] at hfound hfirst
  refine find_eq_some_iff.2 ⟨by omega, (prefix_drop_append_iff hlen _).1 hfound, fun j hj => ?_⟩
  have hj' := hfirst j hj
  rwa [prefix_drop_append_iff (by omega)] at hj'

theorem find_take_none {pattern text : List α} {i n : ℕ} (h : find pattern text = some i)
    (hn : n < i + pattern.length) : find pattern (text.take n) = none := by
  cases hfind : find pattern (text.take n) with
  | none => rfl
  | some k =>
      have hagain := find_append hfind (text.drop n)
      rw [List.take_append_drop, h] at hagain
      obtain rfl := Option.some.inj hagain
      have hend := find_add_le hfind
      rw [List.length_take] at hend
      omega

/-- A search that starts before an occurrence finds that one or an earlier one. -/
theorem findFrom_of_prefix {pattern text : List α} {position j : ℕ} (hj : position ≤ j)
    (hle : j ≤ text.length) (h : pattern <+: text.drop j) :
    ∃ i, findFrom pattern text position = some i ∧ position ≤ i ∧ i ≤ j := by
  have hdrop : pattern <+: (text.drop position).drop (j - position) := by
    rwa [List.drop_drop, Nat.add_sub_cancel' hj]
  cases hfind : find pattern (text.drop position) with
  | none =>
      have hlen : j - position ≤ (text.drop position).length := by
        rw [List.length_drop]
        omega
      exact absurd hdrop (find_eq_none_iff.1 hfind _ hlen)
  | some k =>
      obtain ⟨-, -, hfirst⟩ := find_eq_some_iff.1 hfind
      have hk : k ≤ j - position := by
        by_contra hlt
        exact hfirst _ (by omega) hdrop
      refine ⟨k + position, ?_, by omega, by omega⟩
      rw [findFrom, hfind]
      rfl

theorem findFrom_append {pattern text : List α} {position i : ℕ}
    (h : findFrom pattern text position = some i) (hp : position ≤ text.length) (more : List α) :
    findFrom pattern (text ++ more) position = some i := by
  obtain ⟨k, hk, rfl⟩ := Option.map_eq_some_iff.1 h
  rw [findFrom, List.drop_append_of_le_length hp, find_append hk more]
  rfl

/-! ### Two texts -/

/-- How far two texts agree. -/
def agreement : List α → List α → ℕ
  | a :: text, b :: text' => if a = b then agreement text text' + 1 else 0
  | _, _ => 0

/-- Two texts agree as far as their beginnings are the same. -/
theorem take_eq_take_iff {text text' : List α} {n : ℕ} (h : n ≤ text.length)
    (h' : n ≤ text'.length) : text.take n = text'.take n ↔ n ≤ agreement text text' := by
  induction text generalizing text' n with
  | nil =>
      obtain rfl : n = 0 := Nat.le_zero.1 h
      simp
  | cons a text ih =>
      cases text' with
      | nil =>
          obtain rfl : n = 0 := Nat.le_zero.1 h'
          simp
      | cons b text' =>
          cases n with
          | zero => simp
          | succ n =>
              rw [List.take_succ_cons, List.take_succ_cons, List.cons.injEq, agreement,
                ih (Nat.le_of_succ_le_succ h) (Nat.le_of_succ_le_succ h')]
              by_cases hab : a = b
              · simp [hab]
              · simp [hab]

end TextSearch
