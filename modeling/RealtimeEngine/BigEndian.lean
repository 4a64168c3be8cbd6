/-
**Numbers written most significant byte first.**

`BigEndian.toNat` reads a list of bytes as a number, folding `256 * n + b` from the left, and
`BigEndian.ofNat k` writes a number in exactly `k` bytes.  The two are inverse to each other, in
both directions, as long as the number fits.

The single bytes of a header are read bit by bit; a fact about the bits of a byte is a fact about
256 values, and `BigEndian.forall_byte` reduces it to them.

* `BigEndian.toNat`, `BigEndian.ofNat` — reading and writing;
* `BigEndian.toNat_ofNat`, `BigEndian.ofNat_toNat` — **the round trips**;
* `BigEndian.toNat_word` — a word that is put together by shifts;
* `BigEndian.forall_byte` — a property of all bytes, from the numbers below 256.
-/

import Mathlib.Algebra.Order.Group.Nat
import Mathlib.Data.List.Induction
import Mathlib.Tactic.Ring

set_option relaxedAutoImplicit false
set_option autoImplicit false

namespace BigEndian

/-! ### Reading and writing -/

/-- The number written by a list of bytes. -/
def toNat (bytes : List UInt8) : ℕ := bytes.foldl (fun n b => n * 256 + b.toNat) 0

/-- A number in `k` bytes. -/
def ofNat : ℕ → ℕ → List UInt8
  | 0, _ => []
  | k + 1, n => ofNat k (n / 256) ++ [UInt8.ofNat (n % 256)]

@[simp] theorem toNat_nil : toNat [] = 0 := rfl

@[simp] theorem toNat_concat (bytes : List UInt8) (b : UInt8) :
    toNat (bytes ++ [b]) = toNat bytes * 256 + b.toNat := by
  simp [toNat]

@[simp] theorem length_ofNat (k n : ℕ) : (ofNat k n).length = k := by
  induction k generalizing n with
  | zero => rfl
  | succ k ih => simp [ofNat, ih]

/-- The most significant byte stands in front. -/
theorem ofNat_succ_cons (k n : ℕ) :
    ofNat (k + 1) n = UInt8.ofNat (n / 256 ^ k) :: ofNat k n := by
  induction k generalizing n with
  | zero =>
      have hmod : UInt8.ofNat (n % 256) = UInt8.ofNat n := UInt8.ofNat_mod_size
      simp [ofNat, hmod]
  | succ k ih =>
      rw [ofNat, ih, Nat.div_div_eq_div_mul, ← pow_succ']
      rfl

theorem toNat_cons (b : UInt8) (bytes : List UInt8) :
    toNat (b :: bytes) = b.toNat * 256 ^ bytes.length + toNat bytes := by
  induction bytes using List.reverseRecOn with
  | nil => simp [toNat]
  | append_singleton bytes b' ih =>
      rw [← List.cons_append, toNat_concat, toNat_concat, ih, List.length_append,
        List.length_singleton, pow_succ]
      ring

theorem toNat_lt (bytes : List UInt8) : toNat bytes < 256 ^ bytes.length := by
  induction bytes using List.reverseRecOn with
  | nil => simp
  | append_singleton bytes b ih =>
      have hb := b.toNat_lt
      rw [toNat_concat, List.length_append, List.length_singleton, pow_succ]
      omega

/-- **Reading what was written.** -/
theorem toNat_ofNat {k n : ℕ} (h : n < 256 ^ k) : toNat (ofNat k n) = n := by
  induction k generalizing n with
  | zero =>
      simp only [pow_zero, Nat.lt_one_iff] at h
      simp [ofNat, h]
  | succ k ih =>
      have hdiv : n / 256 < 256 ^ k := by
        rw [Nat.div_lt_iff_lt_mul (by decide)]
        rwa [pow_succ] at h
      have hmod : n % 256 < 2 ^ 8 := Nat.mod_lt _ (by decide)
      rw [ofNat, toNat_concat, ih hdiv, UInt8.toNat_ofNat_of_lt' hmod]
      omega

/-- **Writing what was read.** -/
theorem ofNat_toNat (bytes : List UInt8) : ofNat bytes.length (toNat bytes) = bytes := by
  induction bytes using List.reverseRecOn with
  | nil => rfl
  | append_singleton bytes b ih =>
      have hb := b.toNat_lt
      have hdiv : (toNat bytes * 256 + b.toNat) / 256 = toNat bytes := by omega
      have hmod : (toNat bytes * 256 + b.toNat) % 256 = b.toNat := by omega
      rw [List.length_append, List.length_singleton, ofNat, toNat_concat, hdiv, hmod, ih,
        UInt8.ofNat_toNat]

/-! ### Bytes -/

/-- Four bytes that are shifted into a word. -/
theorem toNat_word (p q r s : UInt8) :
    ((p.toUInt32 <<< 24) ||| (q.toUInt32 <<< 16) ||| (r.toUInt32 <<< 8) ||| s.toUInt32).toNat =
      toNat [p, q, r, s] := by
  have hp := p.toNat_lt
  have hq := q.toNat_lt
  have hr := r.toNat_lt
  have hs := s.toNat_lt
  have hlow : r.toNat <<< 8 ||| s.toNat = r.toNat * 256 + s.toNat := by
    rw [← Nat.shiftLeft_add_eq_or_of_lt hs, Nat.shiftLeft_eq]
  have hmiddle : q.toNat <<< 16 ||| (r.toNat * 256 + s.toNat) =
      q.toNat * 65536 + (r.toNat * 256 + s.toNat) := by
    rw [← Nat.shiftLeft_add_eq_or_of_lt (i := 16) (by omega), Nat.shiftLeft_eq]
  have hhigh : p.toNat <<< 24 ||| (q.toNat * 65536 + (r.toNat * 256 + s.toNat)) =
      p.toNat * 16777216 + (q.toNat * 65536 + (r.toNat * 256 + s.toNat)) := by
    rw [← Nat.shiftLeft_add_eq_or_of_lt (i := 24) (by omega), Nat.shiftLeft_eq]
  have hp' : p.toNat <<< 24 % 2 ^ 32 = p.toNat <<< 24 := by
    rw [Nat.shiftLeft_eq]
    omega
  have hq' : q.toNat <<< 16 % 2 ^ 32 = q.toNat <<< 16 := by
    rw [Nat.shiftLeft_eq]
    omega
  have hr' : r.toNat <<< 8 % 2 ^ 32 = r.toNat <<< 8 := by
    rw [Nat.shiftLeft_eq]
    omega
  simp only [UInt32.toNat_or, UInt32.toNat_shiftLeft, UInt8.toNat_toUInt32, UInt32.reduceToNat,
    Nat.reduceMod, hp', hq', hr']
  rw [Nat.or_assoc, Nat.or_assoc, hlow, hmiddle, hhigh]
  simp only [toNat, List.foldl_cons, List.foldl_nil]
  omega

/-- A property of all bytes, checked on the numbers below 256. -/
theorem forall_byte {p : UInt8 → Prop} (h : ∀ n < 256, p (UInt8.ofNat n)) (b : UInt8) : p b := by
  have hb := h b.toNat b.toNat_lt
  rwa [UInt8.ofNat_toNat] at hb

end BigEndian
