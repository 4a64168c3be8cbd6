/-
**The UTF-8 check of close reasons.**

`IsValidUtf8` walks over the bytes: it reads a lead byte, takes as many continuation bytes as the
lead byte announces, assembles the code point, and refuses overlong forms, surrogates and values
beyond the last plane.  The reference is the encoder: a byte string is well-formed when it is the
concatenation of the encodings of some characters (`String.utf8EncodeChar`, whose characters are
exactly the Unicode scalar values).

Main definitions:

* `RealtimeEngine.isValidUtf8` — the check, as the source makes it;
* `RealtimeEngine.WellFormedUtf8` — the reference.

Main results:

* `RealtimeEngine.readCodepoint_iff` — one turn of the loop reads exactly one character;
* `RealtimeEngine.isValidUtf8_iff` — **the check accepts exactly the well-formed strings**;
* `RealtimeEngine.wellFormedUtf8_take_iff` — where a well-formed string may be cut.
-/

import RealtimeEngine.Basic
import RealtimeEngine.BigEndian

set_option relaxedAutoImplicit false
set_option autoImplicit false

namespace RealtimeEngine

/-! ### The check -/

/-- The number of continuation bytes a lead byte announces, and its own bits of the code point. -/
def leadByte (first : UInt8) : Option (ℕ × ℕ) :=
  if first &&& 0xe0 = 0xc0 then some (1, (first &&& 0x1f).toNat)
  else if first &&& 0xf0 = 0xe0 then some (2, (first &&& 0x0f).toNat)
  else if first &&& 0xf8 = 0xf0 then some (3, (first &&& 0x07).toNat)
  else none

/-- The loop over the continuation bytes: the code point, and the bytes behind it. -/
def readTrailing : ℕ → ℕ → Bytes → Option (ℕ × Bytes)
  | 0, codepoint, rest => some (codepoint, rest)
  | _ + 1, _, [] => none
  | trailing + 1, codepoint, next :: rest =>
      if next &&& 0xc0 ≠ 0x80 then none
      else readTrailing trailing ((codepoint <<< 6) ||| (next &&& 0x3f).toNat) rest

/-- The code point is overlong, beyond the last plane, or a surrogate. -/
def refusesCodepoint (trailing codepoint : ℕ) : Bool :=
  (trailing == 1 && codepoint < 0x80) || (trailing == 2 && codepoint < 0x800) ||
    (trailing == 3 && codepoint < 0x10000) || codepoint > 0x10ffff ||
    (codepoint ≥ 0xd800 && codepoint ≤ 0xdfff)

/-- One turn of the loop of `IsValidUtf8`: the bytes behind the character it reads. -/
def readCodepoint (first : UInt8) (rest : Bytes) : Option Bytes :=
  if first ≤ 0x7f then some rest
  else
    match leadByte first with
    | none => none
    | some (trailing, bits) =>
        if trailing > rest.length then none
        else
          match readTrailing trailing bits rest with
          | none => none
          | some (codepoint, rest') =>
              if refusesCodepoint trailing codepoint then none else some rest'

/-- The loop of `IsValidUtf8`, with at most as many turns as there are bytes. -/
def utf8Loop : ℕ → Bytes → Bool
  | _, [] => true
  | 0, _ :: _ => false
  | turns + 1, first :: rest =>
      match readCodepoint first rest with
      | none => false
      | some rest' => utf8Loop turns rest'

/-- `IsValidUtf8`. -/
def isValidUtf8 (bytes : Bytes) : Bool := utf8Loop bytes.length bytes

/-- The bytes are the encoding of a list of characters. -/
def WellFormedUtf8 (bytes : Bytes) : Prop :=
  ∃ chars : List Char, bytes = chars.flatMap String.utf8EncodeChar

/-! ### The bits of a byte, as numbers -/

set_option maxRecDepth 4000 in
/-- The three kinds of lead byte. -/
theorem leadByte_eq (first : UInt8) :
    leadByte first =
      if 192 ≤ first.toNat ∧ first.toNat < 224 then some (1, first.toNat - 192)
      else if 224 ≤ first.toNat ∧ first.toNat < 240 then some (2, first.toNat - 224)
      else if 240 ≤ first.toNat ∧ first.toNat < 248 then some (3, first.toNat - 240)
      else none := by
  revert first
  exact BigEndian.forall_byte (by decide)

set_option maxRecDepth 4000 in
/-- A continuation byte and its six bits. -/
theorem continuation_iff (next : UInt8) :
    (next &&& 0xc0 = 0x80 ↔ 128 ≤ next.toNat ∧ next.toNat < 192) ∧
      (next &&& 0x3f).toNat = next.toNat % 64 := by
  revert next
  exact BigEndian.forall_byte (by decide)

/-- One turn of the loop over the continuation bytes. -/
theorem readTrailing_succ_iff {trailing codepoint : ℕ} {rest : Bytes} {r : ℕ × Bytes} :
    readTrailing (trailing + 1) codepoint rest = some r ↔
      ∃ next rest₁, rest = next :: rest₁ ∧ (128 ≤ next.toNat ∧ next.toNat < 192) ∧
        readTrailing trailing (codepoint * 64 + next.toNat % 64) rest₁ = some r := by
  cases rest with
  | nil => simp [readTrailing]
  | cons next rest₁ =>
      obtain ⟨hc, hbits⟩ := continuation_iff next
      have hor : (codepoint <<< 6) ||| (next.toNat % 64) = codepoint * 64 + next.toNat % 64 := by
        rw [← Nat.shiftLeft_add_eq_or_of_lt (Nat.mod_lt _ (by decide)), Nat.shiftLeft_eq]
      rw [readTrailing, hbits, hor]
      by_cases h : next &&& 0xc0 = 0x80
      · simp [h, ← hc]
      · simp [h, ← hc]

@[simp] theorem readTrailing_zero_iff {codepoint : ℕ} {rest : Bytes} {r : ℕ × Bytes} :
    readTrailing 0 codepoint rest = some r ↔ r = (codepoint, rest) := by
  rw [readTrailing, Option.some.injEq]
  exact eq_comm

/-- Without enough bytes the loop over the continuation bytes has no result. -/
theorem readTrailing_none {trailing codepoint : ℕ} {rest : Bytes} (h : trailing > rest.length) :
    readTrailing trailing codepoint rest = none := by
  induction trailing generalizing codepoint rest with
  | zero => simp at h
  | succ trailing ih =>
      refine Option.eq_none_iff_forall_ne_some.2 fun r hr => ?_
      obtain ⟨next, rest₁, rfl, -, hr⟩ := readTrailing_succ_iff.1 hr
      rw [ih (by simpa using h)] at hr
      cases hr

/-! ### One character -/

/-- The bytes of a character, by the size of its code point. -/
def encodeCodepoint (v : ℕ) : Bytes :=
  if v ≤ 0x7f then [UInt8.ofNat v]
  else if v ≤ 0x7ff then [UInt8.ofNat (v / 64 % 32 + 192), UInt8.ofNat (v % 64 + 128)]
  else if v ≤ 0xffff then
    [UInt8.ofNat (v / 4096 % 16 + 224), UInt8.ofNat (v / 64 % 64 + 128),
      UInt8.ofNat (v % 64 + 128)]
  else
    [UInt8.ofNat (v / 262144 % 8 + 240), UInt8.ofNat (v / 4096 % 64 + 128),
      UInt8.ofNat (v / 64 % 64 + 128), UInt8.ofNat (v % 64 + 128)]

theorem utf8EncodeChar_eq (c : Char) : String.utf8EncodeChar c = encodeCodepoint c.toNat := rfl

/-- A string starts with the encoding of a character exactly when it starts with the encoding of a
code point that is a Unicode scalar value. -/
theorem exists_char_iff {bytes rest' : Bytes} :
    (∃ c : Char, bytes = String.utf8EncodeChar c ++ rest') ↔
      ∃ v : ℕ, v.isValidChar ∧ bytes = encodeCodepoint v ++ rest' := by
  constructor
  · rintro ⟨c, h⟩
    exact ⟨c.toNat, c.valid, by rw [h, utf8EncodeChar_eq]⟩
  · rintro ⟨v, hv, h⟩
    refine ⟨Char.ofNatAux v hv, ?_⟩
    have hc : (Char.ofNatAux v hv).toNat = v := rfl
    rw [h, utf8EncodeChar_eq, hc]

theorem ofNat_eq_of_toNat {b : UInt8} {n : ℕ} (h : b.toNat = n) : UInt8.ofNat n = b := by
  rw [← h, UInt8.ofNat_toNat]

/-- What one turn of the loop checks. -/
theorem readCodepoint_eq_some_iff {first : UInt8} {rest rest' : Bytes} :
    readCodepoint first rest = some rest' ↔
      (first.toNat ≤ 127 ∧ rest = rest') ∨
      ∃ trailing bits v, leadByte first = some (trailing, bits) ∧ 127 < first.toNat ∧
        readTrailing trailing bits rest = some (v, rest') ∧ refusesCodepoint trailing v = false := by
  have hle : first ≤ 0x7f ↔ first.toNat ≤ 127 := UInt8.le_iff_toNat_le
  unfold readCodepoint
  by_cases h7 : first.toNat ≤ 127
  · simp [hle.2 h7, h7, Nat.not_lt.2 h7]
  · rw [if_neg (mt hle.1 h7)]
    cases hlead : leadByte first with
    | none => simp [h7]
    | some p =>
        obtain ⟨trailing, bits⟩ := p
        have hlen : trailing > rest.length → readTrailing trailing bits rest = none :=
          readTrailing_none
        by_cases hgt : trailing > rest.length
        · simp [h7, hgt, hlen hgt]
        · cases hread : readTrailing trailing bits rest with
          | none => simp [h7, hread]
          | some q =>
              obtain ⟨v, rest₁⟩ := q
              cases href : refusesCodepoint trailing v <;>
                simp [h7, Nat.lt_of_not_le h7, hgt, hread, href]

/-- One turn of the loop reads the encoding of a code point. -/
theorem readCodepoint_sound {first : UInt8} {rest rest' : Bytes}
    (h : readCodepoint first rest = some rest') :
    ∃ v : ℕ, v.isValidChar ∧ first :: rest = encodeCodepoint v ++ rest' := by
  rcases readCodepoint_eq_some_iff.1 h with ⟨hn, rfl⟩ | ⟨trailing, bits, v, hlead, hn, hread, href⟩
  · refine ⟨first.toNat, by omega, ?_⟩
    rw [encodeCodepoint, if_pos hn, UInt8.ofNat_toNat, List.singleton_append]
  · -- two, three or four bytes; `refusesCodepoint` excludes the overlong spellings
    rw [leadByte_eq] at hlead
    split at hlead
    · obtain ⟨rfl, rfl⟩ := Prod.mk.inj (Option.some.inj hlead)
      obtain ⟨y, _, rfl, hy, hread⟩ := readTrailing_succ_iff.1 hread
      obtain ⟨hv, rfl⟩ := Prod.mk.inj (readTrailing_zero_iff.1 hread)
      simp [refusesCodepoint] at href
      refine ⟨v, by omega, ?_⟩
      rw [encodeCodepoint, if_neg (by omega), if_pos (by omega), ofNat_eq_of_toNat (b := first)
        (by omega), ofNat_eq_of_toNat (b := y) (by omega)]
      rfl
    · split at hlead
      · obtain ⟨rfl, rfl⟩ := Prod.mk.inj (Option.some.inj hlead)
        obtain ⟨y, _, rfl, hy, hread⟩ := readTrailing_succ_iff.1 hread
        obtain ⟨z, _, rfl, hz, hread⟩ := readTrailing_succ_iff.1 hread
        obtain ⟨hv, rfl⟩ := Prod.mk.inj (readTrailing_zero_iff.1 hread)
        simp [refusesCodepoint] at href
        refine ⟨v, by omega, ?_⟩
        rw [encodeCodepoint, if_neg (by omega), if_neg (by omega), if_pos (by omega),
          ofNat_eq_of_toNat (b := first) (by omega), ofNat_eq_of_toNat (b := y) (by omega),
          ofNat_eq_of_toNat (b := z) (by omega)]
        rfl
      · split at hlead
        · obtain ⟨rfl, rfl⟩ := Prod.mk.inj (Option.some.inj hlead)
          obtain ⟨y, _, rfl, hy, hread⟩ := readTrailing_succ_iff.1 hread
          obtain ⟨z, _, rfl, hz, hread⟩ := readTrailing_succ_iff.1 hread
          obtain ⟨w, _, rfl, hw, hread⟩ := readTrailing_succ_iff.1 hread
          obtain ⟨hv, rfl⟩ := Prod.mk.inj (readTrailing_zero_iff.1 hread)
          simp [refusesCodepoint] at href
          refine ⟨v, by omega, ?_⟩
          rw [encodeCodepoint, if_neg (by omega), if_neg (by omega), if_neg (by omega),
            ofNat_eq_of_toNat (b := first) (by omega), ofNat_eq_of_toNat (b := y) (by omega),
            ofNat_eq_of_toNat (b := z) (by omega), ofNat_eq_of_toNat (b := w) (by omega)]
          rfl
        · cases hlead

theorem leadByte_ofNat {n : ℕ} (h : n < 256) :
    leadByte (UInt8.ofNat n) =
      if 192 ≤ n ∧ n < 224 then some (1, n - 192)
      else if 224 ≤ n ∧ n < 240 then some (2, n - 224)
      else if 240 ≤ n ∧ n < 248 then some (3, n - 240)
      else none := by
  rw [leadByte_eq, UInt8.toNat_ofNat_of_lt' h]

/-- A continuation byte that carries the last six bits of `v`. -/
theorem readTrailing_continuation (trailing v : ℕ) (rest : Bytes) (r : ℕ × Bytes) :
    readTrailing (trailing + 1) (v / 64) (UInt8.ofNat (v % 64 + 128) :: rest) = some r ↔
      readTrailing trailing v rest = some r := by
  have hbyte : (UInt8.ofNat (v % 64 + 128)).toNat = v % 64 + 128 :=
    UInt8.toNat_ofNat_of_lt' (by simp only [UInt8.size]; omega)
  have hv : v / 64 * 64 + (v % 64 + 128) % 64 = v := by omega
  rw [readTrailing_succ_iff]
  constructor
  · rintro ⟨next, rest₁, heq, -, hr⟩
    obtain ⟨rfl, rfl⟩ := List.cons.inj heq
    rwa [hbyte, hv] at hr
  · intro hr
    refine ⟨_, _, rfl, by omega, ?_⟩
    rwa [hbyte, hv]

/-- **One turn of the loop reads exactly one character.** -/
theorem readCodepoint_iff {first : UInt8} {rest rest' : Bytes} :
    readCodepoint first rest = some rest' ↔
      ∃ c : Char, first :: rest = String.utf8EncodeChar c ++ rest' := by
  rw [exists_char_iff]
  refine ⟨readCodepoint_sound, ?_⟩
  rintro ⟨v, hv, heq⟩
  rw [readCodepoint_eq_some_iff]
  unfold encodeCodepoint at heq
  split at heq
  · next h =>
      obtain ⟨rfl, rfl⟩ := List.cons.inj heq
      refine Or.inl ⟨?_, rfl⟩
      rw [UInt8.toNat_ofNat_of_lt' (by simp only [UInt8.size]; omega)]
      omega
  · -- the lead byte holds the top bits, each further byte six more
    refine Or.inr ?_
    split at heq
    · obtain ⟨rfl, rfl⟩ := List.cons.inj heq
      refine ⟨1, v / 64, v, ?_, ?_, ?_, ?_⟩
      · have hbits : v / 64 % 32 + 192 - 192 = v / 64 := by omega
        rw [leadByte_ofNat (by omega), if_pos (by omega), hbits]
      · rw [UInt8.toNat_ofNat_of_lt' (by simp only [UInt8.size]; omega)]
        omega
      · exact (readTrailing_continuation 0 v rest' _).2 rfl
      · simp [refusesCodepoint]
        omega
    · split at heq
      · obtain ⟨rfl, rfl⟩ := List.cons.inj heq
        refine ⟨2, v / 64 / 64, v, ?_, ?_, ?_, ?_⟩
        · have hbits : v / 4096 % 16 + 224 - 224 = v / 64 / 64 := by omega
          rw [leadByte_ofNat (by omega), if_neg (by omega), if_pos (by omega), hbits]
        · rw [UInt8.toNat_ofNat_of_lt' (by simp only [UInt8.size]; omega)]
          omega
        · refine (readTrailing_continuation 1 (v / 64) _ _).2 ?_
          exact (readTrailing_continuation 0 v rest' _).2 rfl
        · simp [refusesCodepoint]
          omega
      · obtain ⟨rfl, rfl⟩ := List.cons.inj heq
        refine ⟨3, v / 64 / 64 / 64, v, ?_, ?_, ?_, ?_⟩
        · have hbits : v / 262144 % 8 + 240 - 240 = v / 64 / 64 / 64 := by omega
          rw [leadByte_ofNat (by omega), if_neg (by omega), if_neg (by omega), if_pos (by omega),
            hbits]
        · rw [UInt8.toNat_ofNat_of_lt' (by simp only [UInt8.size]; omega)]
          omega
        · have hdiv : v / 4096 = v / 64 / 64 := by omega
          rw [hdiv]
          refine (readTrailing_continuation 2 (v / 64 / 64) _ _).2 ?_
          refine (readTrailing_continuation 1 (v / 64) _ _).2 ?_
          exact (readTrailing_continuation 0 v rest' _).2 rfl
        · simp [refusesCodepoint]
          omega

/-! ### The whole string -/

theorem wellFormedUtf8_cons_iff {first : UInt8} {rest : Bytes} :
    WellFormedUtf8 (first :: rest) ↔
      ∃ rest', readCodepoint first rest = some rest' ∧ WellFormedUtf8 rest' := by
  constructor
  · rintro ⟨chars, h⟩
    cases chars with
    | nil => cases h
    | cons c chars =>
        exact ⟨chars.flatMap String.utf8EncodeChar, readCodepoint_iff.2 ⟨c, h⟩, chars, rfl⟩
  · rintro ⟨rest', h, chars, rfl⟩
    obtain ⟨c, hc⟩ := readCodepoint_iff.1 h
    exact ⟨c :: chars, hc⟩

theorem readCodepoint_length {first : UInt8} {rest rest' : Bytes}
    (h : readCodepoint first rest = some rest') : rest'.length ≤ rest.length := by
  obtain ⟨c, hc⟩ := readCodepoint_iff.1 h
  have hlen := congrArg List.length hc
  have hpos := String.length_utf8EncodeChar c ▸ c.utf8Size_pos
  simp only [List.length_cons, List.length_append] at hlen
  omega

theorem utf8Loop_iff {turns : ℕ} {bytes : Bytes} (h : bytes.length ≤ turns) :
    utf8Loop turns bytes = true ↔ WellFormedUtf8 bytes := by
  induction turns generalizing bytes with
  | zero =>
      obtain rfl := List.eq_nil_of_length_eq_zero (Nat.le_zero.1 h)
      exact ⟨fun _ => ⟨[], rfl⟩, fun _ => rfl⟩
  | succ turns ih =>
      cases bytes with
      | nil => exact ⟨fun _ => ⟨[], rfl⟩, fun _ => rfl⟩
      | cons first rest =>
          rw [wellFormedUtf8_cons_iff, utf8Loop]
          cases hread : readCodepoint first rest with
          | none => simp
          | some rest' =>
              have hlen : rest'.length ≤ turns :=
                (readCodepoint_length hread).trans (Nat.le_of_succ_le_succ h)
              simp [ih hlen]

/-- **The check accepts exactly the well-formed strings.** -/
theorem isValidUtf8_iff (bytes : Bytes) : isValidUtf8 bytes = true ↔ WellFormedUtf8 bytes :=
  utf8Loop_iff le_rfl

/-! ### A string that is cut -/

/-- A character has one spelling, and no other character starts with it. -/
theorem encodeChar_append_inj {c c' : Char} {rest rest' : Bytes}
    (h : String.utf8EncodeChar c ++ rest = String.utf8EncodeChar c' ++ rest') : rest = rest' := by
  obtain ⟨first, tail, hc⟩ :=
    List.exists_cons_of_ne_nil (List.ne_nil_of_length_pos (c.utf8Size_pos.trans_le
      (String.length_utf8EncodeChar c).ge))
  have hread : readCodepoint first (tail ++ rest) = some rest :=
    readCodepoint_iff.2 ⟨c, by rw [hc, List.cons_append]⟩
  have hread' : readCodepoint first (tail ++ rest) = some rest' :=
    readCodepoint_iff.2 ⟨c', by rw [← h, hc, List.cons_append]⟩
  exact Option.some.inj (hread.symm.trans hread')

theorem wellFormedUtf8_encode_append (c : Char) (rest : Bytes) :
    WellFormedUtf8 (String.utf8EncodeChar c ++ rest) ↔ WellFormedUtf8 rest := by
  constructor
  · rintro ⟨chars, h⟩
    cases chars with
    | nil =>
        have hpos := String.length_utf8EncodeChar c ▸ c.utf8Size_pos
        rw [List.flatMap_nil, List.append_eq_nil_iff] at h
        rw [h.1] at hpos
        cases hpos
    | cons c' chars => exact ⟨chars, encodeChar_append_inj h⟩
  · rintro ⟨chars, rfl⟩
    exact ⟨c :: chars, rfl⟩

/-- **A well-formed string is cut into a well-formed one** exactly where a character begins, and at
its end. -/
theorem wellFormedUtf8_take_iff {bytes : Bytes} (h : WellFormedUtf8 bytes) (n : ℕ) :
    WellFormedUtf8 (bytes.take n) ↔ ∀ b, bytes[n]? = some b → b.IsUTF8FirstByte := by
  obtain ⟨chars, rfl⟩ := h
  induction chars generalizing n with
  | nil =>
      have hnil : WellFormedUtf8 [] := ⟨[], rfl⟩
      simp [hnil]
  | cons c chars ih =>
      rw [List.flatMap_cons]
      by_cases hinside : n < (String.utf8EncodeChar c).length
      · have hbyte : (String.utf8EncodeChar c ++ chars.flatMap String.utf8EncodeChar)[n]? =
            some (String.utf8EncodeChar c)[n] := by
          rw [List.getElem?_append_left hinside, List.getElem?_eq_getElem hinside]
        rw [hbyte, List.take_append_of_le_length hinside.le]
        simp only [Option.some.injEq, forall_eq', UInt8.isUTF8FirstByte_getElem_utf8EncodeChar]
        constructor
        · -- a part of a character is not well formed
          rintro ⟨chars', hcut⟩
          cases chars' with
          | nil =>
              have hlen := congrArg List.length hcut
              rw [List.length_take, List.flatMap_nil, List.length_nil] at hlen
              omega
          | cons c' chars' =>
              have hwhole := List.take_append_drop n (String.utf8EncodeChar c)
              rw [hcut, List.flatMap_cons, List.append_assoc] at hwhole
              have hnil := encodeChar_append_inj (hwhole.trans (List.append_nil _).symm)
              have hdrop := (List.append_eq_nil_iff.1 hnil).2
              rw [List.drop_eq_nil_iff] at hdrop
              omega
        · rintro rfl
          exact ⟨[], rfl⟩
      · have hle : (String.utf8EncodeChar c).length ≤ n := Nat.le_of_not_lt hinside
        rw [List.take_append, List.take_of_length_le hle, wellFormedUtf8_encode_append, ih,
          List.getElem?_append_right hle]

end RealtimeEngine
