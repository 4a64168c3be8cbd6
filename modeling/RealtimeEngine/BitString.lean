/-
**Bit strings, most significant bit first.**

Standards describe data as strings of bits and cut them into groups, where code has bytes, words and
shifts.  A bit string is a list of booleans; `BitString.ofNat w` writes a number in `w` bits,
`BitString.toNat` reads one, and `BitString.groups` cuts a list into pieces of one length.

Main definitions:

* `BitString.ofNat`, `BitString.toNat` — writing and reading a number;
* `BitString.ofBytes`, `BitString.toBytes` — the bits of a byte string, and the bytes of a bit
  string, whose last bits are dropped where they make up no byte;
* `BitString.groups` — the first so many groups of a list.

Main results:

* `BitString.ofNat_add` — a number is cut where its bits are cut;
* `BitString.toNat_ofNat` — reading what was written;
* `BitString.groups_flatMap` — the groups of a string that was put together from such groups;
* `BitString.toBytes_ofBytes`, `BitString.ofBytes_toBytes` — **the round trips**;
* `BitString.groups_ofBytes` — groups of bytes are groups of their bits.
-/

import RealtimeEngine.BigEndian

set_option relaxedAutoImplicit false
set_option autoImplicit false

namespace BitString

/-! ### Numbers -/

/-- A number in `w` bits. -/
def ofNat : ℕ → ℕ → List Bool
  | 0, _ => []
  | w + 1, n => decide (n / 2 ^ w % 2 = 1) :: ofNat w n

/-- The number written by a list of bits. -/
def toNat (bits : List Bool) : ℕ := bits.foldl (fun n b => n * 2 + b.toNat) 0

@[simp] theorem length_ofNat (w n : ℕ) : (ofNat w n).length = w := by
  induction w with
  | zero => rfl
  | succ w ih => rw [ofNat, List.length_cons, ih]

/-- **A number is cut where its bits are cut.** -/
theorem ofNat_add (v w n : ℕ) : ofNat (v + w) n = ofNat v (n / 2 ^ w) ++ ofNat w n := by
  induction v with
  | zero => simp [ofNat]
  | succ v ih =>
      have hdiv : n / 2 ^ (v + w) = n / 2 ^ w / 2 ^ v := by
        rw [Nat.div_div_eq_div_mul, ← pow_add, Nat.add_comm w v]
      rw [Nat.add_right_comm, ofNat, ofNat, ih, hdiv, List.cons_append]

/-- Higher bits do not matter. -/
theorem ofNat_mod {w m : ℕ} (h : w ≤ m) (n : ℕ) : ofNat w (n % 2 ^ m) = ofNat w n := by
  induction w with
  | zero => rfl
  | succ w ih =>
      have hbit : n % 2 ^ m / 2 ^ w % 2 = n / 2 ^ w % 2 := by
        obtain ⟨k, rfl⟩ : ∃ k, m = w + (k + 1) := ⟨m - w - 1, by omega⟩
        rw [pow_add, Nat.mod_mul_right_div_self,
          Nat.mod_mod_of_dvd _ (Dvd.intro_left _ (pow_succ 2 k).symm)]
      rw [ofNat, ofNat, hbit, ih (by omega)]

/-- The low bits of a multiple are zero. -/
theorem ofNat_mul_two_pow (w n : ℕ) : ofNat w (n * 2 ^ w) = List.replicate w false := by
  have hzero : ∀ v, ofNat v 0 = List.replicate v false := by
    intro v
    induction v with
    | zero => rfl
    | succ v ih => rw [ofNat, ih, List.replicate_succ, Nat.zero_div]; rfl
  rw [← ofNat_mod le_rfl, Nat.mul_mod_left, hzero]

/-- Zero bits behind a number. -/
theorem ofNat_append_zeros (v w n : ℕ) :
    ofNat v n ++ List.replicate w false = ofNat (v + w) (n * 2 ^ w) := by
  rw [ofNat_add, Nat.mul_div_cancel _ (Nat.two_pow_pos w), ofNat_mul_two_pow]

theorem toNat_append (bits bits' : List Bool) :
    toNat (bits ++ bits') = toNat bits * 2 ^ bits'.length + toNat bits' := by
  induction bits' using List.reverseRecOn with
  | nil => simp [toNat]
  | append_singleton bits' b ih =>
      rw [← List.append_assoc]
      simp only [toNat, List.foldl_append, List.foldl_cons, List.foldl_nil, List.length_append,
        List.length_singleton, pow_succ] at ih ⊢
      rw [ih]
      ring

/-- **Reading what was written.** -/
theorem toNat_ofNat (w n : ℕ) : toNat (ofNat w n) = n % 2 ^ w := by
  induction w generalizing n with
  | zero => simp [ofNat, toNat, Nat.mod_one]
  | succ w ih =>
      -- the last bit is the remainder modulo two, and the others write the half
      have hlast : (ofNat 1 n) = [decide (n % 2 = 1)] := by simp [ofNat]
      rw [ofNat_add w 1, toNat_append, ih, length_ofNat, hlast, pow_one, pow_succ']
      have hbit : toNat [decide (n % 2 = 1)] = n % 2 := by
        rcases Nat.mod_two_eq_zero_or_one n with h | h <;> simp [toNat, h]
      rw [hbit, Nat.mod_mul]
      ring

theorem toNat_ofNat_of_lt {w n : ℕ} (h : n < 2 ^ w) : toNat (ofNat w n) = n := by
  rw [toNat_ofNat, Nat.mod_eq_of_lt h]

/-- The bits of a number of that many bits. -/
theorem ofNat_toNat (bits : List Bool) : ofNat bits.length (toNat bits) = bits := by
  induction bits using List.reverseRecOn with
  | nil => rfl
  | append_singleton bits b ih =>
      have hone : toNat [b] = b.toNat := by simp [toNat]
      have hdiv : (toNat bits * 2 ^ 1 + b.toNat) / 2 ^ 1 = toNat bits := by
        have hb : b.toNat < 2 := Bool.toNat_lt b
        rw [pow_one]
        omega
      have hlast : ofNat 1 (toNat bits * 2 ^ 1 + b.toNat) = [b] := by
        cases b <;> simp [ofNat]
      rw [toNat_append, hone, List.length_append, List.length_singleton, ofNat_add, hdiv, ih, hlast]

/-- So many bits write a number below that power of two. -/
theorem toNat_lt (bits : List Bool) : toNat bits < 2 ^ bits.length := by
  have h := toNat_ofNat bits.length (toNat bits)
  rw [ofNat_toNat] at h
  rw [h]
  exact Nat.mod_lt _ (Nat.two_pow_pos _)

/-! ### Groups -/

variable {α β : Type*}

/-- The first `count` groups of `w` elements. -/
def groups (w : ℕ) : ℕ → List α → List (List α)
  | 0, _ => []
  | count + 1, l => l.take w :: groups w count (l.drop w)

@[simp] theorem length_groups (w count : ℕ) (l : List α) : (groups w count l).length = count := by
  induction count generalizing l with
  | zero => rfl
  | succ count ih => rw [groups, List.length_cons, ih]

/-- **The groups of a string that was put together** from groups of that length. -/
theorem groups_flatMap {w : ℕ} (f : β → List α) (xs : List β) (hf : ∀ x ∈ xs, (f x).length = w)
    (rest : List α) : groups w xs.length (xs.flatMap f ++ rest) = xs.map f := by
  induction xs with
  | nil => rfl
  | cons x xs ih =>
      have hx := hf x (List.mem_cons_self ..)
      rw [List.flatMap_cons, List.append_assoc, List.length_cons, groups,
        List.take_left' hx, List.drop_left' hx, List.map_cons,
        ih fun y hy => hf y (List.mem_cons_of_mem x hy)]

/-- The groups are put together again. -/
theorem flatten_groups {w : ℕ} (count : ℕ) {l : List α} (h : count * w ≤ l.length) :
    (groups w count l).flatten = l.take (count * w) := by
  induction count generalizing l with
  | zero => simp [groups]
  | succ count ih =>
      rw [Nat.succ_mul] at h
      have hdrop : count * w ≤ (l.drop w).length := by
        rw [List.length_drop]
        omega
      rw [groups, List.flatten_cons, ih hdrop, Nat.succ_mul, Nat.add_comm, List.take_add]

/-- Every group is full if there is enough to cut. -/
theorem length_of_mem_groups {w count : ℕ} {l g : List α} (h : count * w ≤ l.length)
    (hg : g ∈ groups w count l) : g.length = w := by
  induction count generalizing l with
  | zero => simp [groups] at hg
  | succ count ih =>
      rw [Nat.succ_mul] at h
      rcases List.mem_cons.1 hg with rfl | hg
      · rw [List.length_take]
        omega
      · refine ih ?_ hg
        rw [List.length_drop]
        omega

/-- One of the groups. -/
theorem getElem_groups {w count : ℕ} {l : List α} {i : ℕ} (h : i < (groups w count l).length) :
    (groups w count l)[i] = (l.drop (i * w)).take w := by
  induction count generalizing l i with
  | zero => simp [groups] at h
  | succ count ih =>
      cases i with
      | zero => simp [groups]
      | succ i =>
          have hi : i < (groups w count (l.drop w)).length := by simpa using h
          simp only [groups, List.getElem_cons_succ]
          rw [ih hi, List.drop_drop, Nat.succ_mul, Nat.add_comm]

/-! ### Bytes -/

/-- The bits of a byte string. -/
def ofBytes (bytes : List UInt8) : List Bool := bytes.flatMap fun b => ofNat 8 b.toNat

/-- The bytes of a bit string; bits at the end that make up no byte are dropped. -/
def toBytes (bits : List Bool) : List UInt8 :=
  (groups 8 (bits.length / 8) bits).map fun g => UInt8.ofNat (toNat g)

@[simp] theorem ofBytes_nil : ofBytes [] = [] := rfl

theorem ofBytes_cons (b : UInt8) (bytes : List UInt8) :
    ofBytes (b :: bytes) = ofNat 8 b.toNat ++ ofBytes bytes := List.flatMap_cons

theorem ofBytes_append (bytes bytes' : List UInt8) :
    ofBytes (bytes ++ bytes') = ofBytes bytes ++ ofBytes bytes' := List.flatMap_append

@[simp] theorem length_ofBytes (bytes : List UInt8) : (ofBytes bytes).length = 8 * bytes.length := by
  induction bytes with
  | nil => rfl
  | cons b bytes ih =>
      rw [ofBytes_cons, List.length_append, length_ofNat, ih, List.length_cons]
      omega

/-- The bytes of the bits of a byte string, with some bits behind that make up no byte. -/
theorem toBytes_ofBytes (bytes : List UInt8) {rest : List Bool} (h : rest.length < 8) :
    toBytes (ofBytes bytes ++ rest) = bytes := by
  have hcount : (ofBytes bytes ++ rest).length / 8 = bytes.length := by
    rw [List.length_append, length_ofBytes]
    omega
  have hbyte : ∀ b : UInt8, UInt8.ofNat (toNat (ofNat 8 b.toNat)) = b := by
    intro b
    rw [toNat_ofNat_of_lt b.toNat_lt, UInt8.ofNat_toNat]
  rw [toBytes, hcount, ofBytes, groups_flatMap _ _ fun b _ => length_ofNat 8 b.toNat,
    List.map_map]
  exact List.map_id'' hbyte bytes

/-- The bits of the bytes of a bit string that consists of whole bytes, with some bits behind. -/
theorem ofBytes_toBytes {bits rest : List Bool} (hbits : bits.length % 8 = 0)
    (hrest : rest.length < 8) : ofBytes (toBytes (bits ++ rest)) = bits := by
  have hcount : (bits ++ rest).length / 8 * 8 = bits.length := by
    rw [List.length_append]
    omega
  have hle : (bits ++ rest).length / 8 * 8 ≤ (bits ++ rest).length := Nat.div_mul_le_self _ _
  have hgroup : ∀ g ∈ groups 8 ((bits ++ rest).length / 8) (bits ++ rest),
      ofNat 8 (UInt8.ofNat (toNat g)).toNat = g := by
    intro g hg
    have hlength := length_of_mem_groups hle hg
    rw [UInt8.toNat_ofNat', ofNat_mod le_rfl]
    conv_lhs => rw [← hlength]
    exact ofNat_toNat g
  rw [ofBytes, toBytes, List.flatMap_map, List.flatMap_def, List.map_congr_left hgroup,
    List.map_id', flatten_groups _ hle, hcount, List.take_left]

/-- The number of a byte string is the number of its bits. -/
theorem toNat_ofBytes (bytes : List UInt8) : toNat (ofBytes bytes) = BigEndian.toNat bytes := by
  induction bytes with
  | nil => rfl
  | cons b bytes ih =>
      have hpow : (256 : ℕ) ^ bytes.length = 2 ^ (8 * bytes.length) := by
        rw [pow_mul]
        norm_num
      rw [ofBytes_cons, toNat_append, toNat_ofNat_of_lt b.toNat_lt, ih, length_ofBytes,
        BigEndian.toNat_cons, hpow]

/-- A number in `k` bytes is that number in eight times as many bits. -/
theorem ofBytes_ofNat (k n : ℕ) : ofBytes (BigEndian.ofNat k n) = ofNat (8 * k) n := by
  induction k generalizing n with
  | zero => rfl
  | succ k ih =>
      have hlast : ofBytes [UInt8.ofNat (n % 256)] = ofNat 8 n := by
        rw [ofBytes_cons, ofBytes_nil, List.append_nil,
          UInt8.toNat_ofNat_of_lt' (Nat.mod_lt _ (by decide))]
        exact ofNat_mod (m := 8) le_rfl n
      have hpow : (256 : ℕ) = 2 ^ 8 := rfl
      rw [BigEndian.ofNat, ofBytes_append, ih, hlast, Nat.mul_succ, ofNat_add, hpow]

/-- The bits of a byte string are those of its number. -/
theorem ofBytes_eq (bytes : List UInt8) :
    ofBytes bytes = ofNat (8 * bytes.length) (BigEndian.toNat bytes) := by
  rw [← ofBytes_ofNat, BigEndian.ofNat_toNat]

/-- **Groups of bytes are groups of their bits.** -/
theorem groups_ofBytes (k count : ℕ) (bytes : List UInt8) :
    groups (8 * k) count (ofBytes bytes) = (groups k count bytes).map ofBytes := by
  -- one cut, for bytes and for bits
  have htake : ∀ k (bytes : List UInt8), (ofBytes bytes).take (8 * k) = ofBytes (bytes.take k) ∧
      (ofBytes bytes).drop (8 * k) = ofBytes (bytes.drop k) := by
    intro k
    induction k with
    | zero => simp
    | succ k ih =>
        intro bytes
        cases bytes with
        | nil => simp
        | cons b bytes =>
            have hlength : (ofNat 8 b.toNat).length = 8 := length_ofNat 8 _
            rw [ofBytes_cons, Nat.mul_succ, Nat.add_comm, List.take_succ_cons, List.drop_succ_cons,
              ofBytes_cons, ← (ih bytes).1, ← (ih bytes).2]
            constructor
            · rw [List.take_append, hlength, List.take_of_length_le (by omega),
                Nat.add_sub_cancel_left]
            · rw [List.drop_append, hlength, List.drop_of_length_le (by omega),
                Nat.add_sub_cancel_left, List.nil_append]
  induction count generalizing bytes with
  | zero => rfl
  | succ count ih =>
      rw [groups, groups, (htake k bytes).1, (htake k bytes).2, ih, List.map_cons]

end BitString
