/-
**Decimal numerals, and the texts that C's `strtoull` reads.**

A numeral is a non-empty text of digits, and its value is that of `Nat.ofDigits`.  `strtoull` reads
more than a numeral: it skips white space, takes a sign if there is one, and then goes on as long as
there are digits.  What it returns behind a minus sign is negated modulo the number of values of its
type.

Main definitions:

* `Numerals.IsNumeral`, `Numerals.value` — numerals and what they stand for;
* `Numerals.Reads` — a text with the parts that `strtoull` reads it in;
* `Numerals.Decorated` — a numeral with white space or a sign in front of it.

Main results:

* `Numerals.Reads.eq_of_numeral` — **nothing stands in front of a numeral**;
* `Numerals.decorated_or_numeral` — what is read to its end is a numeral, with or without something
  in front.
-/

import Mathlib.Data.List.TakeWhile
import Mathlib.Data.Nat.Digits.Defs

set_option relaxedAutoImplicit false
set_option autoImplicit false

namespace Numerals

/-! ### Numerals -/

/-- A decimal digit. -/
def IsDigit (ch : UInt8) : Prop := 48 ≤ ch ∧ ch ≤ 57

/-- A character of white space. -/
def IsBlank (ch : UInt8) : Prop := ch = 32 ∨ 9 ≤ ch ∧ ch ≤ 13

instance (ch : UInt8) : Decidable (IsDigit ch) := inferInstanceAs (Decidable (_ ∧ _))

instance (ch : UInt8) : Decidable (IsBlank ch) := inferInstanceAs (Decidable (_ ∨ _))

/-- A non-empty text of digits. -/
def IsNumeral (text : List UInt8) : Prop := text ≠ [] ∧ ∀ ch ∈ text, IsDigit ch

instance (text : List UInt8) : Decidable (IsNumeral text) :=
  decidable_of_iff (text ≠ [] ∧ text.all fun ch => decide (IsDigit ch)) (by simp [IsNumeral])

/-- The number that a text of digits stands for, the most significant digit in front. -/
def value (text : List UInt8) : ℕ :=
  Nat.ofDigits 10 (text.reverse.map fun ch => ch.toNat - 48)

@[simp] theorem value_nil : value [] = 0 := rfl

@[simp] theorem value_concat (text : List UInt8) (ch : UInt8) :
    value (text ++ [ch]) = 10 * value text + (ch.toNat - 48) := by
  rw [value, List.reverse_concat, List.map_cons, Nat.ofDigits_cons, Nat.add_comm]
  rfl

/-! ### What is read -/

/-- The sign in front of the digits. -/
inductive Sign
  | absent
  | plus
  | minus
  deriving DecidableEq, Repr

/-- The sign as it is written. -/
def Sign.text : Sign → List UInt8
  | .absent => []
  | .plus => [43]
  | .minus => [45]

/-- What the sign makes of a number, with so many values in the type. -/
def Sign.apply (values : ℕ) : Sign → ℕ → ℕ
  | .minus, n => (values - n) % values
  | _, n => n

/-- The sign never leads out of the type. -/
theorem Sign.apply_lt {values n : ℕ} (sign : Sign) (h : n < values) :
    sign.apply values n < values := by
  cases sign with
  | minus => exact Nat.mod_lt _ (by omega)
  | absent => exact h
  | plus => exact h

/-- **The parts that a text is read in**: white space, a sign, digits, and what is left, which does
not go on with a digit. -/
structure Reads (text blanks : List UInt8) (sign : Sign) (digits rest : List UInt8) : Prop where
  split : text = blanks ++ (sign.text ++ (digits ++ rest))
  blank : ∀ ch ∈ blanks, IsBlank ch
  numeral : IsNumeral digits
  stops : ∀ ch ∈ rest.head?, ¬IsDigit ch

/-- A numeral below a bound, with white space or a sign in front of it. -/
def Decorated (bound : ℕ) (text : List UInt8) : Prop :=
  ∃ blanks sign digits, Reads text blanks sign digits [] ∧ value digits < bound ∧
    (blanks ≠ [] ∨ sign ≠ .absent)

/-- A numeral is read as it is. -/
theorem IsNumeral.reads {text : List UInt8} (h : IsNumeral text) : Reads text [] .absent text [] where
  split := by simp [Sign.text]
  blank := by simp
  numeral := h
  stops := by simp

section Parts

variable {text blanks digits rest : List UInt8} {sign : Sign}

/-- **Nothing stands in front of a numeral.** -/
theorem Reads.eq_of_numeral (h : Reads text blanks sign digits rest) (hnumeral : IsNumeral text) :
    blanks = [] ∧ sign = .absent := by
  obtain ⟨hsplit, hblank, -, -⟩ := h
  have hdigits := hnumeral.2
  rw [hsplit] at hdigits
  -- neither white space nor a sign is a digit
  constructor
  · cases blanks with
    | nil => rfl
    | cons ch blanks =>
        have hch := hdigits ch (by simp)
        rcases hblank ch (List.mem_cons_self ..) with rfl | hle
        · exact absurd hch (by decide)
        · exact absurd (UInt8.le_trans hch.1 hle.2) (by decide)
  · cases sign with
    | absent => rfl
    | plus => exact absurd (hdigits 43 (by simp [Sign.text])) (by decide)
    | minus => exact absurd (hdigits 45 (by simp [Sign.text])) (by decide)

/-- What is read to its end is a numeral, with or without something in front. -/
theorem decorated_or_numeral {bound : ℕ} (h : Reads text blanks sign digits [])
    (hbound : value digits < bound) :
    Decorated bound text ∨ IsNumeral text ∧ text = digits ∧ sign = .absent := by
  by_cases hfront : blanks ≠ [] ∨ sign ≠ .absent
  · exact .inl ⟨blanks, sign, digits, h, hbound, hfront⟩
  · obtain ⟨rfl, rfl⟩ : blanks = [] ∧ sign = .absent := by
      simpa only [not_or, not_not, ne_eq] using hfront
    have htext : text = digits := by simpa [Sign.text] using h.split
    exact .inr ⟨htext ▸ h.numeral, htext, rfl⟩

theorem not_decorated_of_numeral {bound : ℕ} (h : IsNumeral text) : ¬Decorated bound text := by
  rintro ⟨blanks, sign, digits, hreads, -, hfront⟩
  obtain ⟨hblanks, hsign⟩ := hreads.eq_of_numeral h
  exact hfront.elim (· hblanks) (· hsign)

end Parts

/-! ### Scanning -/

/-- **A scan stops** at the first element that does not belong to it. -/
theorem scan_append {α : Type*} {p : α → Bool} {l rest : List α} (h : ∀ a ∈ l, p a = true)
    (hstop : ∀ a ∈ rest.head?, p a = false) :
    (l ++ rest).takeWhile p = l ∧ (l ++ rest).dropWhile p = rest := by
  rw [List.takeWhile_append_of_pos h, List.dropWhile_append_of_pos h]
  cases rest with
  | nil => simp
  | cons a rest =>
      have ha : p a = false := hstop a (by simp)
      simp [ha]

/-- What a scan leaves does not go on with an element of it. -/
theorem head?_dropWhile_eq_false {α : Type*} {p : α → Bool} {l : List α} {a : α}
    (h : a ∈ (l.dropWhile p).head?) : p a = false := by
  have hnot := List.head?_dropWhile_not p l
  rw [Option.mem_def.1 h] at hnot
  exact hnot

end Numerals
