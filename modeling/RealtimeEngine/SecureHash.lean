/-
**SHA-1, as FIPS 180-4 defines it.**

The message is a bit string of any length.  It is padded to a multiple of 512 bits, parsed into
blocks of sixteen words, and each block is worked into five words by eighty steps; the digest is the
bits of the five words.

Main definitions:

* `SecureHash.pad`, `SecureHash.parse` — padding and parsing;
* `SecureHash.schedule`, `SecureHash.step`, `SecureHash.compress` — the schedule of a block, a step,
  and a block;
* `SecureHash.sha1` — the hash function.

Main results:

* `SecureHash.schedule_lt`, `SecureHash.schedule_ge` — the schedule, word by word.
-/

import RealtimeEngine.BitString

set_option relaxedAutoImplicit false
set_option autoImplicit false

namespace SecureHash

open BitString

/-! ### Words -/

/-- A word of 32 bits. -/
abbrev Word := BitVec 32

/-- Rotation to the left. -/
def rotl (n : ℕ) (x : Word) : Word := (x <<< n) ||| (x >>> (32 - n))

def ch (x y z : Word) : Word := (x &&& y) ^^^ (~~~x &&& z)

def parity (x y z : Word) : Word := x ^^^ y ^^^ z

def maj (x y z : Word) : Word := (x &&& y) ^^^ (x &&& z) ^^^ (y &&& z)

/-- The function of a step. -/
def f (t : ℕ) : Word → Word → Word → Word :=
  if t ≤ 19 then ch else if t ≤ 39 then parity else if t ≤ 59 then maj else parity

/-- The constant of a step. -/
def k (t : ℕ) : Word :=
  if t ≤ 19 then 0x5a827999
  else if t ≤ 39 then 0x6ed9eba1
  else if t ≤ 59 then 0x8f1bbcdc
  else 0xca62c1d6

/-! ### Padding and parsing -/

/-- The zero bits between the one bit and the length: as many as it takes to 448 bits modulo 512. -/
def zeroBits (length : ℕ) : ℕ := (448 + 512 - (length + 1) % 512) % 512

/-- The padded message. -/
def pad (message : List Bool) : List Bool :=
  message ++ true :: List.replicate (zeroBits message.length) false ++ ofNat 64 message.length

/-- The words of a block. -/
def words (block : List Bool) : List Word :=
  (groups 32 16 block).map fun bits => BitVec.ofNat 32 (toNat bits)

/-- The blocks of a padded message. -/
def parse (padded : List Bool) : List (List Word) :=
  (groups 512 (padded.length / 512) padded).map words

/-! ### Hashing -/

/-- The five working variables, or the five words of a hash value. -/
structure Vars where
  a : Word
  b : Word
  c : Word
  d : Word
  e : Word

/-- The message schedule of a block. -/
def schedule (block : List Word) (t : ℕ) : Word :=
  if _h : t ≤ 15 then block.getD t 0
  else
    rotl 1 (schedule block (t - 3) ^^^ schedule block (t - 8) ^^^ schedule block (t - 14) ^^^
      schedule block (t - 16))

/-- One of the eighty steps. -/
def step (block : List Word) (s : Vars) (t : ℕ) : Vars where
  a := rotl 5 s.a + f t s.b s.c s.d + s.e + k t + schedule block t
  b := s.a
  c := rotl 30 s.b
  d := s.c
  e := s.d

/-- The hash value behind a block. -/
def compress (h : Vars) (block : List Word) : Vars :=
  let s := (List.range 80).foldl (step block) h
  ⟨h.a + s.a, h.b + s.b, h.c + s.c, h.d + s.d, h.e + s.e⟩

/-- The initial hash value. -/
def initial : Vars := ⟨0x67452301, 0xefcdab89, 0x98badcfe, 0x10325476, 0xc3d2e1f0⟩

/-- The message digest. -/
def sha1 (message : List Bool) : List Bool :=
  let h := (parse (pad message)).foldl compress initial
  ofNat 32 h.a.toNat ++ ofNat 32 h.b.toNat ++ ofNat 32 h.c.toNat ++ ofNat 32 h.d.toNat ++
    ofNat 32 h.e.toNat

/-! ### Facts -/

/-- The first words of the schedule are those of the block. -/
theorem schedule_lt {block : List Word} {t : ℕ} (h : t < 16) :
    schedule block t = block.getD t 0 := by
  rw [schedule, dif_pos (by omega)]

/-- The recurrence of the schedule. -/
theorem schedule_ge {block : List Word} {t : ℕ} (h : 16 ≤ t) :
    schedule block t =
      rotl 1 (schedule block (t - 3) ^^^ schedule block (t - 8) ^^^ schedule block (t - 14) ^^^
        schedule block (t - 16)) := by
  rw [schedule, dif_neg (by omega)]

/-- `Ch` chooses, so its two halves have no bit in common. -/
theorem ch_eq_or (x y z : Word) : ch x y z = (x &&& y) ||| (~~~x &&& z) := by
  unfold ch
  ext i hi
  simp only [BitVec.getElem_xor, BitVec.getElem_or, BitVec.getElem_and, BitVec.getElem_not]
  cases x[i] <;> cases y[i] <;> cases z[i] <;> rfl

/-- `Maj`: two of three. -/
theorem maj_eq_or (x y z : Word) : maj x y z = (x &&& y) ||| (x &&& z) ||| (y &&& z) := by
  unfold maj
  ext i hi
  simp only [BitVec.getElem_xor, BitVec.getElem_or, BitVec.getElem_and]
  cases x[i] <;> cases y[i] <;> cases z[i] <;> rfl

end SecureHash
