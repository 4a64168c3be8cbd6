/-
**The UTF-8 check by positions, and what it accepts in terms of shortest forms.**

`RealtimeEngine/Utf8.lean` reads the loop of `IsValidUtf8` as a walk over the rest of the string.
The source has an index instead, and bytes are read wherever the index stands; here the loop is kept
that way, and a read behind the end is a result of its own.  The reference is spelled out too: a
scalar value has up to four forms, of one to four bytes, and its encoding is the shortest of them.

Main definitions:

* `RealtimeEngine.utf8Scan` — the loop with its index;
* `RealtimeEngine.Utf8Form`, `RealtimeEngine.ShortestForm` — the forms of a code point;
* `RealtimeEngine.ScalarValue` — the Unicode scalar values.

Main results:

* `RealtimeEngine.utf8Scan_eq` — the loop ends, with the verdict of `isValidUtf8`, and no read is
  behind the end;
* `RealtimeEngine.isValidUtf8_iff_shortest` — **exactly the well-formed strings are accepted**.
-/

import RealtimeEngine.Utf8

set_option relaxedAutoImplicit false
set_option autoImplicit false

namespace RealtimeEngine

/-! ### The loop with its index -/

/-- How a piece of the scan ends: a byte behind the end was read, the string is refused, or the scan
goes on. -/
inductive Scan (α : Type)
  | behindEnd
  | refused
  | goesOn (next : α)

/-- The loop over the continuation bytes: the index behind them, and the code point. -/
def scanTrailing (bytes : Bytes) : ℕ → ℕ → ℕ → Scan (ℕ × ℕ)
  | 0, index, codepoint => .goesOn (index, codepoint)
  | trailing + 1, index, codepoint =>
      match bytes[index]? with
      | none => .behindEnd
      | some next =>
          if next &&& 0xc0 ≠ 0x80 then .refused
          else scanTrailing bytes trailing (index + 1)
            ((codepoint <<< 6) ||| (next &&& 0x3f).toNat)

/-- The body of the loop of `IsValidUtf8`: the index of the next turn. -/
def scanTurn (bytes : Bytes) (index : ℕ) : Scan ℕ :=
  match bytes[index]? with
  | none => .behindEnd
  | some first =>
      if first ≤ 0x7f then .goesOn (index + 1)
      else
        match leadByte first with
        | none => .refused
        | some (trailing, bits) =>
            if index + 1 + trailing > bytes.length then .refused
            else
              match scanTrailing bytes trailing (index + 1) bits with
              | .behindEnd => .behindEnd
              | .refused => .refused
              | .goesOn (index', codepoint) =>
                  if refusesCodepoint trailing codepoint then .refused else .goesOn index'

/-- How the whole scan ends. -/
inductive ScanEnd
  | behindEnd
  | unfinished
  | verdict (valid : Bool)
  deriving DecidableEq, Repr

/-- The loop of `IsValidUtf8` from this index, for so many turns. -/
def utf8Scan (bytes : Bytes) : ℕ → ℕ → ScanEnd
  | turns, index =>
      if index < bytes.length then
        match turns with
        | 0 => .unfinished
        | turns + 1 =>
            match scanTurn bytes index with
            | .behindEnd => .behindEnd
            | .refused => .verdict false
            | .goesOn index' => utf8Scan bytes turns index'
      else .verdict true

/-- What is left of the string decides what the loop over the continuation bytes does. -/
theorem scanTrailing_eq {bytes : Bytes} {trailing index : ℕ} (codepoint : ℕ)
    (h : index + trailing ≤ bytes.length) :
    scanTrailing bytes trailing index codepoint =
      match readTrailing trailing codepoint (bytes.drop index) with
      | none => .refused
      | some (codepoint', _) => .goesOn (index + trailing, codepoint') := by
  induction trailing generalizing index codepoint with
  | zero => rfl
  | succ trailing ih =>
      have hlt : index < bytes.length := by omega
      rw [List.drop_eq_getElem_cons hlt, scanTrailing, List.getElem?_eq_getElem hlt, readTrailing]
      simp only
      by_cases hnext : bytes[index] &&& 0xc0 ≠ 0x80
      · rw [if_pos hnext, if_pos hnext]
      · have hindex : index + 1 + trailing = index + (trailing + 1) := by omega
        rw [if_neg hnext, if_neg hnext, ih _ (by omega), hindex]

/-- The loop over the continuation bytes reads so many bytes. -/
theorem readTrailing_rest {trailing codepoint codepoint' : ℕ} {rest rest' : Bytes}
    (h : readTrailing trailing codepoint rest = some (codepoint', rest')) :
    rest' = rest.drop trailing := by
  induction trailing generalizing codepoint rest with
  | zero => exact (Prod.mk.inj (readTrailing_zero_iff.1 h)).2
  | succ trailing ih =>
      obtain ⟨next, rest₁, rfl, -, h⟩ := readTrailing_succ_iff.1 h
      exact ih h

/-- **A turn of the loop** by its index is a turn on the rest of the string. -/
theorem scanTurn_eq {bytes : Bytes} {index : ℕ} (h : index < bytes.length) :
    scanTurn bytes index =
      match readCodepoint bytes[index] (bytes.drop (index + 1)) with
      | none => .refused
      | some rest => .goesOn (bytes.length - rest.length) := by
  unfold scanTurn readCodepoint
  rw [List.getElem?_eq_getElem h]
  simp only
  by_cases hascii : bytes[index] ≤ 0x7f
  · have hindex : bytes.length - (bytes.drop (index + 1)).length = index + 1 := by
      rw [List.length_drop]
      omega
    simp only [hascii, if_true, hindex]
  · simp only [hascii, if_false]
    cases leadByte bytes[index] with
    | none => rfl
    | some lead =>
        obtain ⟨trailing, bits⟩ := lead
        -- the check of the room, by the index and by what is left
        have hroom : index + 1 + trailing > bytes.length ↔
            trailing > (bytes.drop (index + 1)).length := by
          rw [List.length_drop]
          omega
        simp only [hroom]
        by_cases htail : trailing > (bytes.drop (index + 1)).length
        · simp only [htail, if_true]
        · rw [List.length_drop] at htail
          simp only [List.length_drop, htail, if_false]
          rw [scanTrailing_eq bits (by omega)]
          cases hread : readTrailing trailing bits (bytes.drop (index + 1)) with
          | none => rfl
          | some read =>
              obtain ⟨codepoint, rest⟩ := read
              have hrest := readTrailing_rest hread
              have hindex : bytes.length - rest.length = index + 1 + trailing := by
                rw [hrest, List.length_drop, List.length_drop]
                omega
              cases hrefuse : refusesCodepoint trailing codepoint with
              | false => simp [hrefuse, hindex]
              | true => simp [hrefuse]

/-- What is left behind a character is an end of the string. -/
theorem readCodepoint_rest {first : UInt8} {rest rest' : Bytes}
    (h : readCodepoint first rest = some rest') :
    rest' = (first :: rest).drop ((first :: rest).length - rest'.length) := by
  obtain ⟨c, hc⟩ := readCodepoint_iff.1 h
  rw [hc, List.length_append, Nat.add_sub_cancel, List.drop_left]

/-- **The loop ends**, with the verdict of `isValidUtf8` on what is left, and it never reads behind
the end; the index grows with every turn. -/
theorem utf8Scan_eq {bytes : Bytes} (turns index : ℕ) (hindex : index ≤ bytes.length)
    (hturns : bytes.length - index ≤ turns) :
    utf8Scan bytes turns index = .verdict (utf8Loop turns (bytes.drop index)) := by
  induction turns generalizing index with
  | zero =>
      rw [utf8Scan, if_neg (by omega), List.drop_of_length_le (by omega)]
      rfl
  | succ turns ih =>
      unfold utf8Scan
      by_cases hlt : index < bytes.length
      · rw [if_pos hlt, List.drop_eq_getElem_cons hlt, utf8Loop, scanTurn_eq hlt]
        cases hread : readCodepoint bytes[index] (bytes.drop (index + 1)) with
        | none => rfl
        | some rest =>
            have hlength := readCodepoint_length hread
            rw [List.length_drop] at hlength
            -- the next turn starts where this one has stopped reading
            have hrest : bytes.drop (bytes.length - rest.length) = rest := by
              conv_rhs => rw [readCodepoint_rest hread]
              rw [← List.drop_eq_getElem_cons hlt, List.drop_drop, List.length_drop]
              congr 1
              omega
            simp only
            rw [ih _ (by omega) (by omega), hrest]
      · rw [if_neg hlt, List.drop_of_length_le (by omega)]
        rfl

/-! ### Shortest forms -/

/-- The Unicode scalar values. -/
structure ScalarValue where
  value : ℕ
  le_max : value ≤ 0x10ffff
  not_surrogate : ¬ (0xd800 ≤ value ∧ value ≤ 0xdfff)

/-- The forms a number has in UTF-8: one to four bytes, if its bits fit. -/
inductive Utf8Form (v : ℕ) : Bytes → Prop
  | one (h : v < 2 ^ 7) : Utf8Form v [UInt8.ofNat v]
  | two (h : v < 2 ^ 11) : Utf8Form v [UInt8.ofNat (0xc0 + v / 2 ^ 6), UInt8.ofNat (0x80 + v % 2 ^ 6)]
  | three (h : v < 2 ^ 16) :
      Utf8Form v [UInt8.ofNat (0xe0 + v / 2 ^ 12), UInt8.ofNat (0x80 + v / 2 ^ 6 % 2 ^ 6),
        UInt8.ofNat (0x80 + v % 2 ^ 6)]
  | four (h : v < 2 ^ 21) :
      Utf8Form v [UInt8.ofNat (0xf0 + v / 2 ^ 18), UInt8.ofNat (0x80 + v / 2 ^ 12 % 2 ^ 6),
        UInt8.ofNat (0x80 + v / 2 ^ 6 % 2 ^ 6), UInt8.ofNat (0x80 + v % 2 ^ 6)]

/-- The encoding of a number: the shortest of its forms. -/
def ShortestForm (v : ℕ) (bytes : Bytes) : Prop :=
  Utf8Form v bytes ∧ ∀ form, Utf8Form v form → bytes.length ≤ form.length

/-- A form of a number is as long as its bits need, or longer. -/
theorem Utf8Form.length_encode_le {v : ℕ} {bytes : Bytes} (h : Utf8Form v bytes) :
    (encodeCodepoint v).length ≤ bytes.length := by
  unfold encodeCodepoint
  cases h with
  | one h => rw [if_pos (by omega)]
  | two h =>
      split_ifs with h₁
      · simp
      · simp
      · omega
      · omega
  | three h =>
      split_ifs with h₁ h₂
      · simp
      · simp
      · simp
      · omega
  | four h => split_ifs <;> simp

/-- The bytes by the size of the code point are a form of it. -/
theorem utf8Form_encodeCodepoint {v : ℕ} (h : v ≤ 0x10ffff) : Utf8Form v (encodeCodepoint v) := by
  have h₁ : v / 64 % 64 + 128 = 0x80 + v / 2 ^ 6 % 2 ^ 6 := by omega
  have h₀ : v % 64 + 128 = 0x80 + v % 2 ^ 6 := by omega
  unfold encodeCodepoint
  split_ifs with hone htwo hthree
  · exact .one (by omega)
  · have hlead : v / 64 % 32 + 192 = 0xc0 + v / 2 ^ 6 := by omega
    rw [hlead, h₀]
    exact .two (by omega)
  · have hlead : v / 4096 % 16 + 224 = 0xe0 + v / 2 ^ 12 := by omega
    rw [hlead, h₁, h₀]
    exact .three (by omega)
  · have hlead : v / 262144 % 8 + 240 = 0xf0 + v / 2 ^ 18 := by omega
    have h₂ : v / 4096 % 64 + 128 = 0x80 + v / 2 ^ 12 % 2 ^ 6 := by omega
    rw [hlead, h₂, h₁, h₀]
    exact .four (by omega)

/-- A number has one form of each length. -/
theorem Utf8Form.unique {v : ℕ} {bytes bytes' : Bytes} (h : Utf8Form v bytes)
    (h' : Utf8Form v bytes') (hlength : bytes.length = bytes'.length) : bytes = bytes' := by
  cases h <;> cases h' <;> first | rfl | simp at hlength

/-- **The shortest form is the encoding by the size of the code point.** -/
theorem shortestForm_iff {v : ℕ} (h : v ≤ 0x10ffff) (bytes : Bytes) :
    ShortestForm v bytes ↔ bytes = encodeCodepoint v := by
  have hform := utf8Form_encodeCodepoint h
  constructor
  · rintro ⟨hbytes, hshortest⟩
    exact hbytes.unique hform (le_antisymm (hshortest _ hform) hbytes.length_encode_le)
  · rintro rfl
    exact ⟨hform, fun form hother => hother.length_encode_le⟩

/-! ### What is accepted -/

/-- The scalar value of a character. -/
def ScalarValue.ofChar (c : Char) : ScalarValue where
  value := c.toNat
  le_max := by
    have h : c.toNat.isValidChar := c.valid
    unfold Nat.isValidChar at h
    omega
  not_surrogate := by
    have h : c.toNat.isValidChar := c.valid
    unfold Nat.isValidChar at h
    omega

/-- Every scalar value is that of a character. -/
theorem ScalarValue.exists_ofChar (v : ScalarValue) : ∃ c : Char, ScalarValue.ofChar c = v := by
  obtain ⟨value, hmax, hsurrogate⟩ := v
  have h : value.isValidChar := by
    unfold Nat.isValidChar
    omega
  exact ⟨Char.ofNatAux value h, rfl⟩

/-- The encoding of a character is the shortest form of its scalar value. -/
theorem shortestForm_ofChar (c : Char) (bytes : Bytes) :
    ShortestForm (ScalarValue.ofChar c).value bytes ↔ bytes = String.utf8EncodeChar c := by
  rw [utf8EncodeChar_eq]
  exact shortestForm_iff (ScalarValue.ofChar c).le_max bytes

/-- Well-formed strings, in terms of scalar values and their shortest forms. -/
theorem wellFormedUtf8_iff_shortest (bytes : Bytes) :
    WellFormedUtf8 bytes ↔
      ∃ (values : List ScalarValue) (forms : List Bytes),
        List.Forall₂ (fun v form => ShortestForm v.value form) values forms ∧
          bytes = forms.flatten := by
  constructor
  · rintro ⟨chars, rfl⟩
    refine ⟨chars.map ScalarValue.ofChar, chars.map String.utf8EncodeChar, ?_, rfl⟩
    rw [List.forall₂_map_left_iff, List.forall₂_map_right_iff, List.forall₂_same]
    exact fun c _ => (shortestForm_ofChar c _).2 rfl
  · rintro ⟨values, forms, hforms, rfl⟩
    induction hforms with
    | nil => exact ⟨[], rfl⟩
    | cons hform _ ih =>
        obtain ⟨chars, hchars⟩ := ih
        -- every scalar value is a character, and its shortest form is the encoding of that
        next v form vs forms _ =>
          obtain ⟨c, rfl⟩ := v.exists_ofChar
          refine ⟨c :: chars, ?_⟩
          rw [List.flatten_cons, List.flatMap_cons, ← hchars, (shortestForm_ofChar c form).1 hform]

/-- **`IsValidUtf8` accepts exactly the well-formed strings**: those that are the shortest forms of
some scalar values, one behind the other.  The scan ends after at most as many turns as there are
bytes, and it reads nothing behind the end. -/
theorem isValidUtf8_iff_shortest (bytes : Bytes) :
    (isValidUtf8 bytes = true ↔
      ∃ (values : List ScalarValue) (forms : List Bytes),
        List.Forall₂ (fun v form => ShortestForm v.value form) values forms ∧
          bytes = forms.flatten) ∧
      utf8Scan bytes bytes.length 0 = .verdict (isValidUtf8 bytes) :=
  ⟨(isValidUtf8_iff bytes).trans (wellFormedUtf8_iff_shortest bytes),
    utf8Scan_eq bytes.length 0 (Nat.zero_le _) (Nat.sub_le _ _)⟩

/-- A two-byte character, and the overlong form of another. -/
example : isValidUtf8 [0xc3, 0xa9] = true ∧ isValidUtf8 [0xc1, 0xa9] = false := by decide

end RealtimeEngine
