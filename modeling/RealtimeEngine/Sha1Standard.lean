/-
**The SHA-1 of the handshake, against FIPS 180-4.**

`Sha1` pads a buffer of bytes, reads it block by block into words, extends the words in place, and
writes `Ch` and `Maj` with "or".  It is held against `RealtimeEngine/SecureHash.lean`, which works on
bit strings.  The buffer is kept a second time as the source has it, with an index at every access,
and an access outside the buffer has no result.

Main definitions:

* `RealtimeEngine.paddedBuffer`, `RealtimeEngine.sha1Indexed` — the buffer and the whole function, by
  indexes.

Main results:

* `RealtimeEngine.padLoop_eq` — where the padding loop stops;
* `RealtimeEngine.ofBytes_padded` — the padding is that of the standard;
* `RealtimeEngine.sha1Indexed_eq` — no index is outside the buffer;
* `RealtimeEngine.sha1_standard` — **the digest is that of the standard**.
-/

import Mathlib.Data.List.GetD
import RealtimeEngine.AcceptKey
import RealtimeEngine.SecureHash

set_option relaxedAutoImplicit false
set_option autoImplicit false

namespace RealtimeEngine

open BitString

/-! ### Padding -/

/-- How often the padding loop adds one. -/
def padSteps (size : ℕ) : ℕ := (120 - size % 64) % 64

/-- **The padding loop stops** where the size is 56 modulo 64, whatever more turns it is given. -/
theorem padLoop_eq {fuel size : ℕ} (h : padSteps size ≤ fuel) :
    padLoop fuel size = size + padSteps size := by
  induction fuel generalizing size with
  | zero =>
      rw [padLoop]
      omega
  | succ fuel ih =>
      rw [padLoop]
      split
      · next hne =>
          have hstep : padSteps size = padSteps (size + 1) + 1 := by
            unfold padSteps
            omega
          rw [ih (by omega)]
          omega
      · next heq =>
          have hzero : padSteps size = 0 := by
            unfold padSteps
            omega
          omega

theorem padSteps_le (size : ℕ) : padSteps size ≤ 63 := by
  unfold padSteps
  omega

theorem padLoop_data (data : Bytes) :
    padLoop 64 (data.length + 1) = data.length + 1 + padSteps (data.length + 1) :=
  padLoop_eq ((padSteps_le _).trans (by decide))

/-- The padded data, with the zero bytes counted. -/
theorem padded_eq (data : Bytes) :
    padded data = data ++ 0x80 :: List.replicate (padSteps (data.length + 1)) 0 ++
      BigEndian.ofNat 8 (data.length * 8 % 2 ^ 64) := by
  have hcount : data.length + 1 + padSteps (data.length + 1) + 8 - (data.length + 9) =
      padSteps (data.length + 1) := by omega
  simp only [padded, padLoop_data, hcount]

theorem length_padded (data : Bytes) :
    (padded data).length = data.length + 9 + padSteps (data.length + 1) := by
  rw [padded_eq]
  simp only [List.length_append, List.length_cons, List.length_replicate, BigEndian.length_ofNat]
  omega

/-- **The padded size is the least multiple** of the block size with room for nine bytes more. -/
theorem length_padded_least (data : Bytes) :
    IsLeast {size | 64 ∣ size ∧ data.length + 9 ≤ size} (padded data).length := by
  rw [length_padded, padSteps]
  constructor
  · refine ⟨?_, by omega⟩
    omega
  · rintro size ⟨hdvd, hle⟩
    omega

theorem ofBytes_replicate_zero (count : ℕ) :
    ofBytes (List.replicate count 0) = List.replicate (8 * count) false := by
  induction count with
  | zero => rfl
  | succ count ih =>
      have hzero : ofNat 8 (0 : UInt8).toNat = List.replicate 8 false := by decide
      rw [List.replicate_succ, ofBytes_cons, ih, hzero, ← List.replicate_add, Nat.mul_succ,
        Nat.add_comm]

/-- **The padding is that of the standard.** -/
theorem ofBytes_padded {data : Bytes} (h : data.length < 2 ^ 61) :
    ofBytes (padded data) = SecureHash.pad (ofBytes data) := by
  have hlength : data.length * 8 % 2 ^ 64 = (ofBytes data).length := by
    rw [length_ofBytes]
    omega
  have hone : ofNat 8 (0x80 : UInt8).toNat = true :: List.replicate 7 false := by decide
  have hzeros : SecureHash.zeroBits (ofBytes data).length =
      7 + 8 * padSteps (data.length + 1) := by
    rw [length_ofBytes, SecureHash.zeroBits, padSteps]
    omega
  -- the byte 0x80 is the one bit with seven of the zero bits
  rw [padded_eq, SecureHash.pad, hzeros, hlength, ofBytes_append, ofBytes_append, ofBytes_cons,
    ofBytes_replicate_zero, ofBytes_ofNat, hone, List.replicate_add]
  rfl

/-! ### Words -/

/-- Four bytes of a block. -/
theorem take_drop_four {block : Bytes} {i : ℕ} (h : i + 4 ≤ block.length) :
    (block.drop i).take 4 =
      [block.getD i 0, block.getD (i + 1) 0, block.getD (i + 2) 0, block.getD (i + 3) 0] := by
  rw [List.drop_eq_getElem_cons (by omega), List.drop_eq_getElem_cons (i := i + 1) (by omega),
    List.drop_eq_getElem_cons (i := i + 1 + 1) (by omega),
    List.drop_eq_getElem_cons (i := i + 1 + 1 + 1) (by omega)]
  simp only [List.take_succ_cons, List.take_zero]
  rw [List.getD_eq_getElem _ _ (by omega), List.getD_eq_getElem _ _ (by omega),
    List.getD_eq_getElem _ _ (by omega), List.getD_eq_getElem _ _ (by omega)]

@[simp] theorem length_blockWords (block : Bytes) : (blockWords block).length = 16 := by
  simp [blockWords]

/-- The first sixteen words are those of the standard. -/
theorem blockWords_eq {block : Bytes} (h : block.length = 64) :
    (blockWords block).map UInt32.toBitVec = SecureHash.words (ofBytes block) := by
  have hgroups := groups_ofBytes 4 16 block
  rw [SecureHash.words]
  simp only [Nat.reduceMul] at hgroups
  rw [hgroups, List.map_map]
  refine List.ext_getElem (by simp) fun i hi hi' => ?_
  have hlt : i < 16 := by simpa using hi
  simp only [List.getElem_map, Function.comp_apply, getElem_groups, toNat_ofBytes]
  rw [take_drop_four (by omega), ← BigEndian.toNat_word]
  simp only [blockWords, List.getElem_map, List.getElem_range]
  exact BitVec.eq_of_toNat_eq (by simp)

/-- **`RotateLeft` is the rotation of the standard** for every count from 1 to 31. -/
theorem toBitVec_rotateLeft {n : ℕ} (hpos : 0 < n) (h : n < 32) (x : UInt32) :
    (rotateLeft x (UInt32.ofNat n)).toBitVec = SecureHash.rotl n x.toBitVec := by
  have hcount : (UInt32.ofNat n).toNat = n := UInt32.toNat_ofNat_of_lt' (h.trans (by decide))
  have hle : UInt32.ofNat n ≤ 32 := by
    rw [UInt32.le_iff_toNat_le, hcount]
    exact h.le
  have hrest : (32 - UInt32.ofNat n).toNat = 32 - n := by
    rw [UInt32.toNat_sub_of_le _ _ hle, hcount]
    rfl
  have hleft : (x <<< UInt32.ofNat n).toBitVec = x.toBitVec <<< n := by
    refine BitVec.eq_of_toNat_eq ?_
    rw [UInt32.toNat_toBitVec, UInt32.toNat_shiftLeft, hcount, Nat.mod_eq_of_lt h,
      BitVec.toNat_shiftLeft, UInt32.toNat_toBitVec]
  -- with a count of zero this would be a shift by the width, which wraps around
  have hright : (x >>> (32 - UInt32.ofNat n)).toBitVec = x.toBitVec >>> (32 - n) := by
    refine BitVec.eq_of_toNat_eq ?_
    rw [UInt32.toNat_toBitVec, UInt32.toNat_shiftRight, hrest, Nat.mod_eq_of_lt (by omega),
      BitVec.toNat_ushiftRight, UInt32.toNat_toBitVec]
  rw [rotateLeft, SecureHash.rotl, UInt32.toBitVec_or, hleft, hright]

/-! ### The schedule -/

/-- Words that are the beginning of a schedule. -/
def Scheduled (block : List SecureHash.Word) (words : List UInt32) : Prop :=
  ∀ t < words.length, (words.getD t 0).toBitVec = SecureHash.schedule block t

/-- **The loop over the words** goes on with the schedule. -/
theorem scheduled_extendWords {block : List SecureHash.Word} (n : ℕ) {words : List UInt32}
    (h : Scheduled block words) (hlength : 16 ≤ words.length) :
    Scheduled block (extendWords n words) ∧ (extendWords n words).length = words.length + n := by
  have hrotate : ∀ x : UInt32, (rotateLeft x 1).toBitVec = SecureHash.rotl 1 x.toBitVec :=
    toBitVec_rotateLeft (n := 1) (by decide) (by decide)
  induction n generalizing words with
  | zero => exact ⟨h, rfl⟩
  | succ n ih =>
      rw [extendWords]
      -- the new word is the recurrence, since the words it reads are on the schedule
      have hnew : Scheduled block (words ++ [rotateLeft (words.getD (words.length - 3) 0 ^^^
          words.getD (words.length - 8) 0 ^^^ words.getD (words.length - 14) 0 ^^^
          words.getD (words.length - 16) 0) 1]) := by
        intro t ht
        rw [List.length_append, List.length_singleton] at ht
        by_cases hlast : t = words.length
        · subst hlast
          rw [List.getD_append_right _ _ _ _ le_rfl, Nat.sub_self, List.getD_cons_zero,
            hrotate, SecureHash.schedule_ge hlength]
          simp only [UInt32.toBitVec_xor]
          rw [h _ (by omega), h _ (by omega), h _ (by omega), h _ (by omega)]
        · rw [List.getD_append _ _ _ _ (by omega)]
          exact h t (by omega)
      obtain ⟨hscheduled, hcount⟩ := ih hnew (by rw [List.length_append]; omega)
      refine ⟨hscheduled, ?_⟩
      rw [hcount, List.length_append, List.length_singleton]
      omega

/-- The eighty words of a block are its schedule. -/
theorem scheduled_block {block : Bytes} (h : block.length = 64) :
    Scheduled (SecureHash.words (ofBytes block)) (extendWords 64 (blockWords block)) ∧
      (extendWords 64 (blockWords block)).length = 80 := by
  have hfirst : Scheduled (SecureHash.words (ofBytes block)) (blockWords block) := by
    intro t ht
    rw [length_blockWords] at ht
    rw [SecureHash.schedule_lt ht, ← blockWords_eq h, List.getD_eq_getElem _ _ (by simpa using ht),
      List.getD_eq_getElem _ _ (by simpa using ht), List.getElem_map]
  simpa using scheduled_extendWords 64 hfirst (by simp)

/-! ### Rounds and blocks -/

/-- The five words as the standard has them. -/
def Sha1State.vars (s : Sha1State) : SecureHash.Vars :=
  ⟨s.a.toBitVec, s.b.toBitVec, s.c.toBitVec, s.d.toBitVec, s.e.toBitVec⟩

/-- **A round is a step of the standard.** -/
theorem vars_sha1Round (block : List SecureHash.Word) (s : Sha1State) {t : ℕ} {word : UInt32}
    (hword : word.toBitVec = SecureHash.schedule block t) :
    (sha1Round s t word).vars = SecureHash.step block s.vars t := by
  have hch : ((s.b &&& s.c) ||| (~~~s.b &&& s.d)).toBitVec =
      SecureHash.ch s.b.toBitVec s.c.toBitVec s.d.toBitVec := by
    rw [SecureHash.ch_eq_or]
    rfl
  have hmaj : ((s.b &&& s.c) ||| (s.b &&& s.d) ||| (s.c &&& s.d)).toBitVec =
      SecureHash.maj s.b.toBitVec s.c.toBitVec s.d.toBitVec := by
    rw [SecureHash.maj_eq_or]
    rfl
  have hparity : (s.b ^^^ s.c ^^^ s.d).toBitVec =
      SecureHash.parity s.b.toBitVec s.c.toBitVec s.d.toBitVec := rfl
  have hfive : (rotateLeft s.a 5).toBitVec = SecureHash.rotl 5 s.a.toBitVec :=
    toBitVec_rotateLeft (n := 5) (by decide) (by decide) s.a
  have hthirty : (rotateLeft s.b 30).toBitVec = SecureHash.rotl 30 s.b.toBitVec :=
    toBitVec_rotateLeft (n := 30) (by decide) (by decide) s.b
  have ht₁ : t < 20 ↔ t ≤ 19 := by omega
  have ht₂ : t < 40 ↔ t ≤ 39 := by omega
  have ht₃ : t < 60 ↔ t ≤ 59 := by omega
  simp only [sha1Round, SecureHash.step, Sha1State.vars, SecureHash.f, SecureHash.k, ht₁, ht₂, ht₃]
  split_ifs <;>
    simp only [UInt32.toBitVec_add, hfive, hthirty, hword, hch, hmaj, hparity] <;>
    rfl

/-- **A block is worked in as the standard has it.** -/
theorem vars_sha1Block {block : Bytes} (h : Sha1State) (hlength : block.length = 64) :
    (sha1Block h block).vars = SecureHash.compress h.vars (SecureHash.words (ofBytes block)) := by
  obtain ⟨hscheduled, hcount⟩ := scheduled_block hlength
  -- by induction on the rounds, for any variables to start with
  have hrounds : ∀ (ts : List ℕ) (s : Sha1State), (∀ t ∈ ts, t < 80) →
      (ts.foldl (fun s t => sha1Round s t
        ((extendWords 64 (blockWords block)).getD t 0)) s).vars =
        ts.foldl (SecureHash.step (SecureHash.words (ofBytes block))) s.vars := by
    intro ts
    induction ts with
    | nil => exact fun _ _ => rfl
    | cons t ts ih =>
        intro s hts
        have ht := hts t (List.mem_cons_self ..)
        rw [List.foldl_cons, List.foldl_cons, ih _ fun t' ht' => hts t' (List.mem_cons_of_mem t ht'),
          vars_sha1Round _ s (hscheduled t (by omega))]
  have hall := hrounds (List.range 80) h fun t ht => List.mem_range.1 ht
  simp only [sha1Block, SecureHash.compress, ← hall]
  rfl

/-- The loop over the blocks. -/
theorem vars_sha1Blocks (n : ℕ) (h : Sha1State) {data : Bytes} (hlength : n * 64 ≤ data.length) :
    (sha1Blocks n h data).vars =
      (((groups 64 n data).map ofBytes).map SecureHash.words).foldl SecureHash.compress h.vars := by
  induction n generalizing h data with
  | zero => rfl
  | succ n ih =>
      rw [Nat.succ_mul] at hlength
      have htake : (data.take 64).length = 64 := by
        rw [List.length_take]
        omega
      have hdrop : n * 64 ≤ (data.drop 64).length := by
        rw [List.length_drop]
        omega
      rw [sha1Blocks, ih _ hdrop, vars_sha1Block h htake]
      rfl

/-- The four bytes of a word are its bits. -/
theorem ofBytes_wordBytes (value : UInt32) : ofBytes (wordBytes value) = ofNat 32 value.toNat := by
  have hbytes : wordBytes value = BigEndian.ofNat 4 value.toNat := by
    simp only [wordBytes, BigEndian.ofNat, List.nil_append, List.cons_append, List.cons.injEq,
      and_true, ← UInt8.toNat_inj, UInt32.toNat_toUInt8, UInt32.toNat_shiftRight,
      UInt32.reduceToNat, Nat.reduceMod, Nat.shiftRight_eq_div_pow, UInt8.toNat_ofNat']
    omega
  rw [hbytes, ofBytes_ofNat]

/-- The digest of the standard. -/
theorem ofBytes_sha1 {data : Bytes} (h : data.length < 2 ^ 61) :
    ofBytes (sha1 data) = SecureHash.sha1 (ofBytes data) := by
  have hdvd : 64 ∣ (padded data).length := (length_padded_least data).1.1
  have hcount : (ofBytes (padded data)).length / 512 = (padded data).length / 64 := by
    rw [length_ofBytes]
    omega
  have hparse : SecureHash.parse (SecureHash.pad (ofBytes data)) =
      ((groups 64 ((padded data).length / 64) (padded data)).map ofBytes).map
        SecureHash.words := by
    rw [← ofBytes_padded h, SecureHash.parse, hcount]
    exact congrArg _ (groups_ofBytes 64 _ _)
  have hblocks := vars_sha1Blocks ((padded data).length / 64)
    ⟨0x67452301, 0xefcdab89, 0x98badcfe, 0x10325476, 0xc3d2e1f0⟩
    (Nat.div_mul_le_self (padded data).length 64)
  rw [← hparse] at hblocks
  simp only [sha1, SecureHash.sha1, ofBytes_append, ofBytes_wordBytes]
  change _ = ofNat 32 (List.foldl _ SecureHash.initial _).a.toNat ++ _ ++ _ ++ _ ++ _
  rw [show SecureHash.initial = Sha1State.vars
    ⟨0x67452301, 0xefcdab89, 0x98badcfe, 0x10325476, 0xc3d2e1f0⟩ from rfl, ← hblocks]
  rfl

/-! ### The buffer, by indexes -/

/-- `padded[index] = value`, if the index is inside. -/
def writeAt (buffer : Bytes) (index : ℕ) (value : UInt8) : Option Bytes :=
  if index < buffer.length then some (buffer.set index value) else none

/-- `std::copy` into the buffer. -/
def copyInto : Bytes → ℕ → Bytes → Option Bytes
  | [], _, buffer => some buffer
  | b :: data, index, buffer => (writeAt buffer index b).bind (copyInto data (index + 1))

/-- The loop over the bytes of the length, from the last on. -/
def writeLength (bitLength : ℕ) (buffer : Bytes) : Option Bytes :=
  (List.range 8).foldlM (fun buffer index =>
    writeAt buffer (buffer.length - 1 - index) (UInt8.ofNat (bitLength >>> (index * 8)))) buffer

/-- The buffer `padded`, as `Sha1` fills it. -/
def paddedBuffer (data : Bytes) : Option Bytes := do
  let buffer ← copyInto data 0 (List.replicate (padLoop 64 (data.length + 1) + 8) 0)
  let buffer ← writeAt buffer data.length 0x80
  writeLength (data.length * 8 % 2 ^ 64) buffer

/-- The first sixteen words of the block at an offset. -/
def blockWordsAt (padded : Bytes) (offset : ℕ) : Option (List UInt32) :=
  (List.range 16).mapM fun index => do
    let base := offset + index * 4
    let b₀ ← padded[base]?
    let b₁ ← padded[base + 1]?
    let b₂ ← padded[base + 2]?
    let b₃ ← padded[base + 3]?
    return (b₀.toUInt32 <<< 24) ||| (b₁.toUInt32 <<< 16) ||| (b₂.toUInt32 <<< 8) ||| b₃.toUInt32

/-- The rounds over a block, with its words given. -/
def roundsOver (h : Sha1State) (words : List UInt32) : Sha1State :=
  let s := (List.range 80).foldl (fun s index => sha1Round s index (words.getD index 0)) h
  ⟨h.a + s.a, h.b + s.b, h.c + s.c, h.d + s.d, h.e + s.e⟩

/-- The loop over the offsets, with a bound on its turns. -/
def sha1BlocksAt (padded : Bytes) : ℕ → ℕ → Sha1State → Option Sha1State
  | 0, _, h => some h
  | fuel + 1, offset, h =>
      if offset < padded.length then do
        let words ← blockWordsAt padded offset
        sha1BlocksAt padded fuel (offset + 64) (roundsOver h (extendWords 64 words))
      else some h

/-- `Sha1`, without a result when an index is outside `padded`. -/
def sha1Indexed (data : Bytes) : Option Bytes := do
  let buffer ← paddedBuffer data
  let h ← sha1BlocksAt buffer buffer.length 0
    ⟨0x67452301, 0xefcdab89, 0x98badcfe, 0x10325476, 0xc3d2e1f0⟩
  return wordBytes h.a ++ wordBytes h.b ++ wordBytes h.c ++ wordBytes h.d ++ wordBytes h.e

/-! ### No index is outside -/

theorem writeAt_append (pre post : Bytes) (old value : UInt8) :
    writeAt (pre ++ old :: post) pre.length value = some (pre ++ value :: post) := by
  have hlt : pre.length < (pre ++ old :: post).length := by
    rw [List.length_append, List.length_cons]
    omega
  rw [writeAt, if_pos hlt, List.set_append_right _ _ le_rfl, Nat.sub_self, List.set_cons_zero]

/-- The copy fills a gap of its own size. -/
theorem copyInto_append (data pre gap post : Bytes) (h : gap.length = data.length) :
    copyInto data pre.length (pre ++ gap ++ post) = some (pre ++ data ++ post) := by
  induction data generalizing pre gap with
  | nil => rw [copyInto, List.length_eq_zero_iff.1 h]
  | cons b data ih =>
      obtain _ | ⟨old, gap⟩ := gap
      · simp at h
      have hrest := ih (pre ++ [b]) gap (by simpa using h)
      simp only [List.length_append, List.length_singleton, List.append_assoc,
        List.singleton_append] at hrest
      rw [copyInto, List.append_assoc, List.cons_append, writeAt_append, Option.bind_some,
        List.append_assoc, List.cons_append]
      exact hrest

/-- The loop over the bytes of the length, after some of its turns. -/
theorem writeLength_loop (bitLength count : ℕ) (pre gap : Bytes) (h : gap.length = count) :
    (List.range count).foldlM (fun buffer index =>
      writeAt buffer (buffer.length - 1 - index) (UInt8.ofNat (bitLength >>> (index * 8))))
      (pre ++ gap) = some (pre ++ BigEndian.ofNat count bitLength) := by
  induction count generalizing pre gap with
  | zero =>
      obtain rfl := List.length_eq_zero_iff.1 h
      rfl
  | succ count ih =>
      obtain _ | ⟨old, gap⟩ := gap
      · simp at h
      -- the last turn writes the byte in front of those that are there already
      have hpow : 2 ^ (count * 8) = 256 ^ count := by
        rw [Nat.mul_comm]
        exact pow_mul 2 8 count
      have hindex : (pre ++ old :: BigEndian.ofNat count bitLength).length - 1 - count =
          pre.length := by
        rw [List.length_append, List.length_cons, BigEndian.length_ofNat]
        omega
      have hrest := ih (pre ++ [old]) gap (by simpa using h)
      simp only [List.append_assoc, List.singleton_append] at hrest
      rw [List.range_succ, List.foldlM_append, hrest, Option.bind_eq_bind, Option.bind_some,
        List.foldlM_cons, hindex, writeAt_append, Nat.shiftRight_eq_div_pow, hpow,
        BigEndian.ofNat_succ_cons]
      rfl

/-- **The buffer is filled** without an index outside. -/
theorem paddedBuffer_eq (data : Bytes) : paddedBuffer data = some (padded data) := by
  have hzeros : List.replicate (padLoop 64 (data.length + 1) + 8) (0 : UInt8) =
      [] ++ List.replicate data.length 0 ++
        (0 :: List.replicate (padSteps (data.length + 1)) 0 ++ List.replicate 8 0) := by
    rw [← List.replicate_succ, ← List.replicate_add, List.nil_append, ← List.replicate_add,
      padLoop_data]
    congr 1
    omega
  have hcopy := copyInto_append data [] (List.replicate data.length 0)
    (0 :: List.replicate (padSteps (data.length + 1)) 0 ++ List.replicate 8 0) (by simp)
  have hlength := writeLength_loop (data.length * 8 % 2 ^ 64) 8
    (data ++ 0x80 :: List.replicate (padSteps (data.length + 1)) 0) (List.replicate 8 0) (by simp)
  rw [paddedBuffer, hzeros, ← List.length_nil (α := UInt8), hcopy, padded_eq]
  simp only [List.nil_append, List.cons_append, Option.bind_eq_bind, Option.bind_some,
    writeAt_append, List.append_assoc] at hlength ⊢
  exact hlength

theorem mapM_eq_some_map {α β : Type*} {f : α → Option β} {g : α → β} {l : List α}
    (h : ∀ a ∈ l, f a = some (g a)) : l.mapM f = some (l.map g) := by
  induction l with
  | nil => rfl
  | cons a l ih =>
      rw [List.mapM_cons, h a (List.mem_cons_self ..), ih fun b hb => h b (List.mem_cons_of_mem a hb)]
      rfl

/-- A byte of a block that is inside. -/
theorem getElem?_block {padded : Bytes} {offset i : ℕ} (h : offset + 64 ≤ padded.length)
    (hi : i < 64) : padded[offset + i]? = some (((padded.drop offset).take 64).getD i 0) := by
  rw [List.getD_eq_getElem _ _ (by rw [List.length_take, List.length_drop]; omega),
    List.getElem_take, List.getElem_drop, List.getElem?_eq_getElem]

/-- The words of a block that is inside. -/
theorem blockWordsAt_eq {padded : Bytes} {offset : ℕ} (h : offset + 64 ≤ padded.length) :
    blockWordsAt padded offset = some (blockWords ((padded.drop offset).take 64)) := by
  refine mapM_eq_some_map fun index hindex => ?_
  have hlt : index < 16 := List.mem_range.1 hindex
  dsimp only
  rw [getElem?_block h (by omega), Nat.add_assoc, getElem?_block h (by omega), Nat.add_assoc,
    getElem?_block h (by omega), Nat.add_assoc, getElem?_block h (by omega)]
  rfl

/-- **The loop over the offsets** stays inside and goes through all blocks. -/
theorem sha1BlocksAt_eq {padded : Bytes} (n : ℕ) {fuel offset : ℕ} (h : Sha1State)
    (hlength : padded.length = offset + n * 64) (hfuel : n ≤ fuel) :
    sha1BlocksAt padded fuel offset h = some (sha1Blocks n h (padded.drop offset)) := by
  induction n generalizing fuel offset h with
  | zero =>
      obtain _ | fuel := fuel
      · rfl
      rw [sha1BlocksAt, if_neg (by omega)]
      rfl
  | succ n ih =>
      obtain _ | fuel := fuel
      · omega
      rw [Nat.succ_mul] at hlength
      rw [sha1BlocksAt, if_pos (by omega), blockWordsAt_eq (by omega), Option.bind_eq_bind,
        Option.bind_some, ih _ (by omega) (by omega), sha1Blocks, List.drop_drop]
      rfl

/-- **No index is outside the buffer**: with every access checked, the digest is the same. -/
theorem sha1Indexed_eq (data : Bytes) : sha1Indexed data = some (sha1 data) := by
  obtain ⟨blocks, hblocks⟩ := (length_padded_least data).1.1
  have hlength : (padded data).length = 0 + blocks * 64 := by omega
  have hcount : (padded data).length / 64 = blocks := by omega
  rw [sha1Indexed, paddedBuffer_eq, Option.bind_eq_bind, Option.bind_some,
    sha1BlocksAt_eq blocks _ hlength (by omega), List.drop_zero, sha1, hcount]
  rfl

/-- **`Sha1` is the SHA-1 of the standard.**  Its padding loop stops after at most 63 steps at the
least size there is, and every access is inside the padded buffer. -/
theorem sha1_standard (data : Bytes) (h : data.length < 2 ^ 61) :
    ofBytes (sha1 data) = SecureHash.sha1 (ofBytes data) ∧
      (∃ steps ≤ 63, (∀ i < steps, (data.length + 1 + i) % 64 ≠ 56) ∧
        (data.length + 1 + steps) % 64 = 56 ∧
        ∀ fuel ≥ steps, padLoop fuel (data.length + 1) = data.length + 1 + steps) ∧
      IsLeast {size | 64 ∣ size ∧ data.length + 9 ≤ size} (padded data).length ∧
      paddedBuffer data = some (padded data) ∧ sha1Indexed data = some (sha1 data) := by
  refine ⟨ofBytes_sha1 h, ⟨padSteps (data.length + 1), padSteps_le _, fun i hi => ?_, ?_,
    fun fuel hfuel => padLoop_eq hfuel⟩, length_padded_least data, paddedBuffer_eq data,
    sha1Indexed_eq data⟩
  · unfold padSteps at hi
    omega
  · unfold padSteps
    omega

theorem sha1_standard_abc :
    (ascii "abc").length < 2 ^ 61 ∧
      ofBytes (sha1 (ascii "abc")) = SecureHash.sha1 (ofBytes (ascii "abc")) :=
  ⟨by decide, (sha1_standard (ascii "abc") (by decide)).1⟩

-- the digest that the standard's own example has for these three bytes
example : sha1 (ascii "abc") =
    [0xa9, 0x99, 0x3e, 0x36, 0x47, 0x06, 0x81, 0x6a, 0xba, 0x3e, 0x25, 0x71, 0x78, 0x50, 0xc2,
      0x6c, 0x9c, 0xd0, 0xd8, 0x9d] := by decide +kernel

end RealtimeEngine
