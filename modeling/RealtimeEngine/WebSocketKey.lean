/-
**The Base64 of the handshake, against RFC 4648.**

`Base64Encode` takes three bytes at a time and has two cases for what is left over;
`IsValidWebSocketKey` counts bits symbol by symbol and stops at the first `=`.  Both are held against
`RealtimeEngine/Base64.lean`: the encoder is the encoder of the standard, and the validator accepts
exactly the texts of twenty-two symbols and two characters of padding.  Such a text is the encoding of
sixteen bytes up to the four bits of the last symbol that belong to no byte.

Main results:

* `RealtimeEngine.base64Encode_eq` — the encoder is that of the standard;
* `RealtimeEngine.isValidWebSocketKey_iff` — what the validator accepts;
* `RealtimeEngine.base64_agrees` — **the encoder, the decoder of the standard and the validator agree**.
-/

import RealtimeEngine.AcceptKey
import RealtimeEngine.Base64

set_option relaxedAutoImplicit false
set_option autoImplicit false

namespace RealtimeEngine

/-! ### The encoder -/

theorem base64Alphabet_eq : base64Alphabet = Base64.symbols := rfl

theorem base64Symbol_eq (value : UInt32) : base64Symbol value = Base64.symbol (value.toNat % 64) := by
  have hmask : (value &&& 0x3f).toNat = value.toNat % 64 := by
    rw [UInt32.toNat_and]
    exact Nat.and_two_pow_sub_one_eq_mod value.toNat 6
  rw [base64Symbol, hmask, base64Alphabet_eq]
  rfl

/-- The symbol for the six bits at a place of the value. -/
theorem base64Symbol_shiftRight {value place : UInt32} (h : place.toNat < 32) :
    base64Symbol (value >>> place) = Base64.symbol (Base64.sextet value.toNat place.toNat) := by
  rw [base64Symbol_eq, UInt32.toNat_shiftRight, Nat.mod_eq_of_lt h, Nat.shiftRight_eq_div_pow]
  rfl

/-- The value that `Base64Encode` builds of up to three bytes. -/
theorem toNat_pack (x y z : UInt8) :
    (x.toUInt32 <<< 16 ||| y.toUInt32 <<< 8 ||| z.toUInt32).toNat =
      x.toNat * 65536 + y.toNat * 256 + z.toNat := by
  have h := BigEndian.toNat_word 0 x y z
  have hzero : (0 : UInt8).toUInt32 <<< 24 = 0 ∧ (0 : UInt8).toNat = 0 := ⟨rfl, rfl⟩
  rw [hzero.1, UInt32.zero_or] at h
  rw [h]
  simp only [BigEndian.toNat, List.foldl_cons, List.foldl_nil, hzero.2]
  omega

theorem toNat_pack_two (x y : UInt8) :
    (x.toUInt32 <<< 16 ||| y.toUInt32 <<< 8).toNat = x.toNat * 65536 + y.toNat * 256 := by
  have h := toNat_pack x y 0
  have hzero : (0 : UInt8).toUInt32 = 0 ∧ (0 : UInt8).toNat = 0 := ⟨rfl, rfl⟩
  rwa [hzero.1, hzero.2, UInt32.or_zero, Nat.add_zero] at h

theorem toNat_pack_one (x : UInt8) : (x.toUInt32 <<< 16).toNat = x.toNat * 65536 := by
  have h := toNat_pack_two x 0
  have hzero : (0 : UInt8).toUInt32 <<< 8 = 0 ∧ (0 : UInt8).toNat = 0 := ⟨rfl, rfl⟩
  rwa [hzero.1, hzero.2, UInt32.or_zero, Nat.zero_mul, Nat.add_zero] at h

/-- **The encoder is that of the standard.** -/
theorem base64Encode_eq (data : Bytes) : base64Encode data = Base64.encode data := by
  have h₁₈ : (18 : UInt32).toNat < 32 := by decide
  have h₁₂ : (12 : UInt32).toNat < 32 := by decide
  have h₆ : (6 : UInt32).toNat < 32 := by decide
  have hpad : '='.toUInt8 = Base64.pad := rfl
  induction data using base64Encode.induct with
  | case1 => rw [base64Encode, Base64.encode_nil]
  | case2 x =>
      have hx := x.toNat_lt
      simp only [base64Encode, base64Symbol_shiftRight h₁₈, base64Symbol_shiftRight h₁₂,
        toNat_pack_one, Base64.encode_one, Base64.sextet, UInt32.reduceToNat, hpad]
      -- the same bits, with twelve more zeros behind them in the code
      have hfirst : x.toNat * 65536 / 2 ^ 18 = x.toNat * 16 / 2 ^ 6 := by omega
      have hsecond : x.toNat * 65536 / 2 ^ 12 = x.toNat * 16 / 2 ^ 0 := by omega
      rw [hfirst, hsecond]
  | case3 x y =>
      have hy := y.toNat_lt
      simp only [base64Encode, base64Symbol_shiftRight h₁₈, base64Symbol_shiftRight h₁₂,
        base64Symbol_shiftRight h₆, toNat_pack_two, Base64.encode_two, Base64.sextet,
        UInt32.reduceToNat, hpad]
      have hfirst : (x.toNat * 65536 + y.toNat * 256) / 2 ^ 18 =
          (x.toNat * 256 + y.toNat) * 4 / 2 ^ 12 := by omega
      have hsecond : (x.toNat * 65536 + y.toNat * 256) / 2 ^ 12 =
          (x.toNat * 256 + y.toNat) * 4 / 2 ^ 6 := by omega
      have hthird : (x.toNat * 65536 + y.toNat * 256) / 2 ^ 6 =
          (x.toNat * 256 + y.toNat) * 4 / 2 ^ 0 := by omega
      rw [hfirst, hsecond, hthird]
  | case4 x y z data ih =>
      simp only [base64Encode, base64Symbol_shiftRight h₁₈, base64Symbol_shiftRight h₁₂,
        base64Symbol_shiftRight h₆, base64Symbol_eq, toNat_pack, Base64.encode_three, ih,
        Base64.sextet, UInt32.reduceToNat, pow_zero, Nat.div_one]

/-! ### The validator -/

set_option maxRecDepth 10000 in
theorem base64Value_symbol : ∀ v < 64, base64Value (Base64.symbol v) = some v := by decide

set_option maxRecDepth 10000 in
theorem base64Value_sound (value : UInt8) :
    (base64Value value).all
      (fun v => decide (v < 64) && Base64.symbol v == value) = true := by
  revert value
  exact BigEndian.forall_byte (by decide)

theorem base64Value_eq (value : UInt8) : base64Value value = Base64.value? value := by
  refine Option.ext fun v => ?_
  rw [Base64.value?_eq_some_iff]
  constructor
  · intro h
    have hsound := base64Value_sound value
    rw [h] at hsound
    simpa using hsound
  · rintro ⟨hv, rfl⟩
    exact base64Value_symbol v hv

/-- The loop counts the bytes of the symbols in front of the first `=`. -/
theorem decodedLoop_eq_some_iff {key : Bytes} {decoded bits n : ℕ} (hbits : bits < 8) :
    decodedLoop key decoded bits = some n ↔
      ∃ values, (key.takeWhile (· != Base64.pad)).mapM Base64.value? = some values ∧
        n = decoded + (bits + 6 * values.length) / 8 := by
  have hpad : '='.toUInt8 = Base64.pad := rfl
  induction key generalizing decoded bits with
  | nil =>
      have hzero : bits / 8 = 0 := by omega
      simp [decodedLoop, hzero, eq_comm]
  | cons value key ih =>
      rw [decodedLoop, hpad]
      by_cases hvalue : value = Base64.pad
      · have hzero : bits / 8 = 0 := by omega
        simp [hvalue, hzero, eq_comm]
      · have htake : (value :: key).takeWhile (· != Base64.pad) =
            value :: key.takeWhile (· != Base64.pad) :=
          List.takeWhile_cons_of_pos (by simpa using hvalue)
        rw [if_neg hvalue, htake, List.mapM_cons, base64Value_eq]
        cases hv : Base64.value? value with
        | none => simp
        | some v =>
            -- the symbol adds six bits, and with them a byte or none
            have hloop : (if bits + 6 ≥ 8 then decodedLoop key (decoded + 1) (bits + 6 - 8)
                else decodedLoop key decoded (bits + 6)) = some n ↔
                ∃ values, (key.takeWhile (· != Base64.pad)).mapM Base64.value? = some values ∧
                  n = decoded + (bits + 6 * (values.length + 1)) / 8 := by
              by_cases hbyte : bits + 6 ≥ 8
              · rw [if_pos hbyte]
                refine (ih (by omega)).trans ?_
                refine exists_congr fun values => and_congr_right fun _ => ?_
                omega
              · rw [if_neg hbyte]
                refine (ih (by omega)).trans ?_
                refine exists_congr fun values => and_congr_right fun _ => ?_
                omega
            rw [hloop]
            simp only [Option.bind_eq_bind, Option.bind_some, Option.bind_eq_some_iff]
            constructor
            · rintro ⟨values, hvalues, hn⟩
              exact ⟨v :: values, ⟨values, hvalues, rfl⟩, hn⟩
            · rintro ⟨all, ⟨values, hvalues, heq⟩, hn⟩
              obtain rfl := Option.some.inj heq
              exact ⟨values, hvalues, hn⟩

/-- **What the validator accepts**: twenty-two symbols and two characters of padding. -/
theorem isValidWebSocketKey_iff (key : Bytes) :
    isValidWebSocketKey key = true ↔
      ∃ values : List ℕ, values.length = 22 ∧ (∀ v ∈ values, v < 64) ∧
        key = values.map Base64.symbol ++ List.replicate 2 Base64.pad := by
  have hpad : '='.toUInt8 = Base64.pad := rfl
  have hchecks : isValidWebSocketKey key = true ↔
      (key.length = 24 ∧ key.getD 22 0 = Base64.pad ∧ key.getD 23 0 = Base64.pad) ∧
        decodedLoop key 0 0 = some 16 := by
    unfold isValidWebSocketKey
    rw [hpad]
    split_ifs with hends
    · simp only [Bool.or_eq_true, decide_eq_true_eq] at hends
      simp only [false_iff]
      tauto
    · simp only [Bool.or_eq_true, decide_eq_true_eq] at hends
      simp only [beq_iff_eq]
      tauto
  rw [hchecks, decodedLoop_eq_some_iff (by decide)]
  constructor
  · rintro ⟨⟨hlength, h₂₂, h₂₃⟩, values, hvalues, hcount⟩
    obtain ⟨hlt, htake⟩ := Base64.mapM_value?_eq_some_iff.1 hvalues
    -- sixteen bytes come from twenty-two symbols and no other number of them
    have htwentytwo : values.length = 22 := by omega
    refine ⟨values, htwentytwo, hlt, ?_⟩
    have hsplit := List.takeWhile_append_dropWhile (p := (· != Base64.pad)) (l := key)
    rw [htake] at hsplit
    have hrest : (key.dropWhile (· != Base64.pad)).length = 2 := by
      have hlengths := congrArg List.length hsplit
      rw [List.length_append, List.length_map] at hlengths
      omega
    obtain ⟨a, b, hab⟩ := List.length_eq_two.1 hrest
    rw [hab] at hsplit
    have hmap : (values.map Base64.symbol).length = 22 := by rw [List.length_map, htwentytwo]
    rw [← hsplit, List.getD_append_right _ _ _ _ (by omega), hmap] at h₂₂ h₂₃
    obtain rfl : a = Base64.pad := h₂₂
    obtain rfl : b = Base64.pad := h₂₃
    exact hsplit.symm
  · rintro ⟨values, hlength, hvalues, rfl⟩
    have hmap : (values.map Base64.symbol).length = 22 := by rw [List.length_map, hlength]
    refine ⟨⟨?_, ?_, ?_⟩, values, ?_, ?_⟩
    · rw [List.length_append, hmap, List.length_replicate]
    · rw [List.getD_append_right _ _ _ _ (by omega), hmap]
      rfl
    · rw [List.getD_append_right _ _ _ _ (by omega), hmap]
      rfl
    · rw [(Base64.takeWhile_symbols hvalues 2).1]
      exact Base64.mapM_value?_eq_some_iff.2 ⟨hvalues, rfl⟩
    · omega

/-! ### Agreement -/

/-- The encoding of sixteen bytes is a key. -/
theorem isValidWebSocketKey_encode {data : Bytes} (h : data.length = 16) :
    isValidWebSocketKey (base64Encode data) = true := by
  have hpadding : Base64.padding data = 2 := by rw [Base64.padding, h]
  have hlength := Base64.length_sextets data
  rw [isValidWebSocketKey_iff, base64Encode_eq, Base64.encode_eq, hpadding]
  exact ⟨_, by omega, fun v hv => Base64.lt_of_mem_sextets hv, rfl⟩

/-- A key stands for sixteen bytes, and it is their encoding up to the last four bits of its
twenty-second symbol. -/
theorem key_bytes {key : Bytes} (h : isValidWebSocketKey key = true) :
    ∃ values data, values.length = 22 ∧ (key.take 22).mapM Base64.value? = some values ∧
      data.length = 16 ∧
      BitString.ofBytes data = (values.flatMap (BitString.ofNat 6)).take (6 * 22 - 4) ∧
      Base64.decode key = some data ∧
      base64Encode data =
        key.take 21 ++ Base64.symbol (values.getD 21 0 / 16 * 16) :: key.drop 22 := by
  obtain ⟨values, hlength, hvalues, rfl⟩ := (isValidWebSocketKey_iff key).1 h
  -- the first twenty-one symbols, and the last one
  obtain ⟨init, last, rfl⟩ : ∃ init last, values = init ++ [last] :=
    ⟨values.dropLast, _, (List.dropLast_append_getLast (by rintro rfl; cases hlength)).symm⟩
  have hinit : init.length = 21 := by simpa using hlength
  have hlast : last < 64 := hvalues last (by simp)
  obtain ⟨hbits, hencode⟩ := Base64.encode_bytesOf
    (fun v hv => hvalues v (List.mem_append_left _ hv)) hlast (by rw [hinit])
  have hmap : ((init ++ [last]).map Base64.symbol).length = 22 := by rw [List.length_map, hlength]
  refine ⟨init ++ [last], Base64.bytesOf (init ++ [last]), hlength, ?_, ?_, ?_, ?_, ?_⟩
  · rw [List.take_left' hmap]
    exact Base64.mapM_value?_eq_some_iff.2 ⟨hvalues, rfl⟩
  · have hcount := congrArg List.length hbits
    rw [BitString.length_ofBytes, List.length_append, Base64.length_bits, BitString.length_ofNat,
      hinit] at hcount
    omega
  · have hwhole : (init.flatMap (BitString.ofNat 6) ++ BitString.ofNat 2 (last / 16)).length =
        6 * 22 - 4 := by
      rw [List.length_append, Base64.length_bits, BitString.length_ofNat, hinit]
    rw [hbits, Base64.bits_concat, List.take_left' hwhole]
  · exact Base64.decode_symbols hvalues le_rfl (by rw [hlength])
  · have hfirst : (init.map Base64.symbol).length = 21 := by rw [List.length_map, hinit]
    rw [base64Encode_eq, hencode, List.drop_left' hmap, List.map_append, List.append_assoc,
      List.map_append, List.append_assoc, List.take_left' hfirst,
      List.getD_append_right _ _ _ _ (by omega), hinit]
    rfl

/-- **The encoder, the decoder of RFC 4648 and the validator agree.**

* The encoding has four characters for each three bytes that are begun; it consists of symbols, whose
  bits are those of the data with zero bits behind, and of the padding; the decoder returns the data.
* So different data have different encodings.
* The encoding of sixteen bytes is accepted as a key.
* An accepted key has twenty-two symbols in front, which decode to sixteen bytes, the last four bits
  dropped; the encoding of these bytes is the key but for these four bits. -/
theorem base64_agrees :
    (∀ data : Bytes,
      (base64Encode data).length = 4 * ((data.length + 2) / 3) ∧
      (∃ values : List ℕ, (∀ v ∈ values, v < 64) ∧
        base64Encode data =
          values.map Base64.symbol ++ List.replicate ((3 - data.length % 3) % 3) Base64.pad ∧
        values.flatMap (BitString.ofNat 6) = BitString.ofBytes data ++
          List.replicate (2 * ((3 - data.length % 3) % 3)) false) ∧
      Base64.decode (base64Encode data) = some data) ∧
    Function.Injective base64Encode ∧
    (∀ data : Bytes, data.length = 16 → isValidWebSocketKey (base64Encode data) = true) ∧
    ∀ key : Bytes, isValidWebSocketKey key = true →
      ∃ values data, values.length = 22 ∧ (key.take 22).mapM Base64.value? = some values ∧
        data.length = 16 ∧
        BitString.ofBytes data = (values.flatMap (BitString.ofNat 6)).take (6 * 22 - 4) ∧
        Base64.decode key = some data ∧
        base64Encode data =
          key.take 21 ++ Base64.symbol (values.getD 21 0 / 16 * 16) :: key.drop 22 := by
  refine ⟨fun data => ⟨?_, ?_, ?_⟩, fun data data' h => ?_,
    fun data => isValidWebSocketKey_encode, fun key => key_bytes⟩
  · exact length_base64Encode data
  · exact ⟨Base64.sextets data, fun v hv => Base64.lt_of_mem_sextets hv,
      by rw [base64Encode_eq, Base64.encode_eq, Base64.padding], Base64.sextets_bits data⟩
  · rw [base64Encode_eq, Base64.decode_encode]
  · rw [base64Encode_eq, base64Encode_eq] at h
    have hdecode := Base64.decode_encode data
    rw [h, Base64.decode_encode] at hdecode
    exact (Option.some.inj hdecode).symm

/-- A key whose last symbol has a bit that belongs to no byte, and its sixteen bytes. -/
theorem base64_agrees_sample :
    isValidWebSocketKey (ascii "dGhlIHNhbXBsZSBub25jZR==") = true ∧
      ∃ values data, values.length = 22 ∧
        ((ascii "dGhlIHNhbXBsZSBub25jZR==").take 22).mapM Base64.value? = some values ∧
        data.length = 16 ∧
        BitString.ofBytes data = (values.flatMap (BitString.ofNat 6)).take (6 * 22 - 4) ∧
        Base64.decode (ascii "dGhlIHNhbXBsZSBub25jZR==") = some data ∧
        base64Encode data = (ascii "dGhlIHNhbXBsZSBub25jZR==").take 21 ++
          Base64.symbol (values.getD 21 0 / 16 * 16) ::
            (ascii "dGhlIHNhbXBsZSBub25jZR==").drop 22 := by
  have hvalid : isValidWebSocketKey (ascii "dGhlIHNhbXBsZSBub25jZR==") = true := by decide
  exact ⟨hvalid, base64_agrees.2.2.2 _ hvalid⟩

end RealtimeEngine
