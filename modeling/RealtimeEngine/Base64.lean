/-
**Base64, as RFC 4648 describes it.**

The bits of the data are cut into groups of six, the last group is filled with zero bits, every group
is one of sixty-four symbols, and the text is filled with `=` to a multiple of four symbols.  A
decoder reads the symbols back, drops the padding, and takes the bytes of the bits.

Main definitions:

* `Base64.symbol`, `Base64.value?` — the table of symbols, in both directions;
* `Base64.sextets`, `Base64.encode` — the groups of six bits, and the encoding;
* `Base64.decode` — the decoder; bits at the end that make up no byte are dropped.

Main results:

* `Base64.sextets_bits` — the groups hold the bits of the data and zero bits behind;
* `Base64.length_encode` — the length of the encoding;
* `Base64.decode_encode` — **the round trip**.
-/

import Mathlib.Data.List.GetD
import Mathlib.Data.List.Nodup
import RealtimeEngine.BitString

set_option relaxedAutoImplicit false
set_option autoImplicit false

namespace Base64

open BitString

/-! ### Symbols -/

/-- The symbols in the order of their values. -/
def symbols : List UInt8 :=
  "ABCDEFGHIJKLMNOPQRSTUVWXYZabcdefghijklmnopqrstuvwxyz0123456789+/".toList.map fun c =>
    UInt8.ofNat c.toNat

/-- The padding character `=`. -/
def pad : UInt8 := 61

/-- The symbol with a value. -/
def symbol (v : ℕ) : UInt8 := symbols.getD v 0

/-- The value of a symbol. -/
def value? (s : UInt8) : Option ℕ := symbols.idxOf? s

theorem length_symbols : symbols.length = 64 := by decide

theorem nodup_symbols : symbols.Nodup := by decide

theorem symbol_eq {v : ℕ} (h : v < 64) :
    symbol v = symbols.get ⟨v, by rw [length_symbols]; exact h⟩ :=
  List.getD_eq_getElem _ _ _

/-- The table, read in both directions. -/
theorem value?_eq_some_iff {s : UInt8} {v : ℕ} : value? s = some v ↔ v < 64 ∧ symbol v = s := by
  rw [value?, List.idxOf?_eq_some_iff]
  constructor
  · rintro ⟨hv, hget, -⟩
    rw [length_symbols] at hv
    exact ⟨hv, (symbol_eq hv).trans hget⟩
  · rintro ⟨hv, rfl⟩
    rw [symbol_eq hv]
    refine ⟨by rwa [length_symbols], rfl, fun j hj heq => ?_⟩
    -- no symbol occurs twice
    exact absurd ((List.Nodup.getElem_inj_iff nodup_symbols).1 heq) (by omega)

/-- The padding character is no symbol. -/
theorem symbol_ne_pad {v : ℕ} (h : v < 64) : symbol v ≠ pad := by
  have hmem : symbol v ∈ symbols := by
    rw [symbol_eq h]
    exact List.getElem_mem _
  intro heq
  rw [heq] at hmem
  exact absurd hmem (by decide)

/-! ### Encoding -/

/-- The groups of six bits, the last of them filled with zero bits. -/
def sextets (data : List UInt8) : List ℕ :=
  let bits := ofBytes data
  let filled := bits ++ List.replicate ((6 - bits.length % 6) % 6) false
  (groups 6 (filled.length / 6) filled).map toNat

/-- The encoding. -/
def encode (data : List UInt8) : List UInt8 :=
  (sextets data).map symbol ++ List.replicate ((4 - (sextets data).length % 4) % 4) pad

/-- How many characters of padding the encoding ends with. -/
def padding (data : List UInt8) : ℕ := (3 - data.length % 3) % 3

/-! ### Decoding -/

/-- The bytes of the bits of some values. -/
def bytesOf (values : List ℕ) : List UInt8 := toBytes (values.flatMap (ofNat 6))

/-- The decoder: whole groups of four characters, at most two characters of padding, and only at the
end. -/
def decode (text : List UInt8) : Option (List UInt8) :=
  let body := text.takeWhile (· != pad)
  let tail := text.dropWhile (· != pad)
  if text.length % 4 = 0 ∧ tail.length ≤ 2 ∧ tail.all (· == pad) then
    (body.mapM value?).map bytesOf
  else none

/-! ### The groups of six bits -/

theorem padding_le (data : List UInt8) : padding data ≤ 2 := by
  unfold padding
  omega

/-- The zero bits that fill the last group are two for each character of padding. -/
theorem filled_eq (data : List UInt8) :
    (6 - (ofBytes data).length % 6) % 6 = 2 * padding data := by
  rw [length_ofBytes, padding]
  omega

/-- **The groups hold the bits of the data**, and zero bits behind. -/
theorem sextets_bits (data : List UInt8) :
    (sextets data).flatMap (ofNat 6) =
      ofBytes data ++ List.replicate (2 * padding data) false := by
  have hlength : (ofBytes data ++ List.replicate (2 * padding data) false).length % 6 = 0 := by
    rw [← filled_eq, List.length_append, List.length_replicate]
    omega
  simp only [sextets, filled_eq]
  generalize ofBytes data ++ List.replicate (2 * padding data) false = filled at hlength ⊢
  have hcount : filled.length / 6 * 6 = filled.length := by omega
  have hgroup : ∀ g ∈ groups 6 (filled.length / 6) filled, ofNat 6 (toNat g) = g := by
    intro g hg
    have hsix := length_of_mem_groups hcount.le hg
    conv_lhs => rw [← hsix]
    exact ofNat_toNat g
  rw [List.flatMap_map, List.flatMap_def, List.map_congr_left hgroup, List.map_id',
    flatten_groups _ hcount.le, hcount, List.take_length]

theorem length_bits (values : List ℕ) :
    (values.flatMap (ofNat 6)).length = 6 * values.length := by
  simp [List.length_flatMap, List.map_const', Nat.mul_comm]

/-- Values whose bits are those of the data, with the zero bits behind, are its groups. -/
theorem sextets_eq_of_bits {data : List UInt8} {values : List ℕ} (hvalues : ∀ v ∈ values, v < 64)
    (hbits : values.flatMap (ofNat 6) = ofBytes data ++ List.replicate (2 * padding data) false) :
    sextets data = values := by
  have hlength := length_bits values
  have hgroups := groups_flatMap (w := 6) (ofNat 6) values (fun v _ => length_ofNat 6 v) []
  rw [List.append_nil] at hgroups
  simp only [sextets, filled_eq]
  rw [← hbits, hlength, Nat.mul_div_cancel_left _ (by decide), hgroups, List.map_map]
  refine (List.map_congr_left fun v hv => ?_).trans (List.map_id' values)
  exact toNat_ofNat_of_lt (hvalues v hv)

/-- Every group has six bits. -/
theorem lt_of_mem_sextets {data : List UInt8} {v : ℕ} (h : v ∈ sextets data) : v < 64 := by
  simp only [sextets] at h
  obtain ⟨g, hg, rfl⟩ := List.mem_map.1 h
  have hlt := toNat_lt g
  rwa [length_of_mem_groups (Nat.div_mul_le_self _ _) hg] at hlt

/-- Four characters for each three bytes that are begun. -/
theorem length_sextets (data : List UInt8) :
    (sextets data).length + padding data = 4 * ((data.length + 2) / 3) := by
  have hbits := congrArg List.length (sextets_bits data)
  rw [length_bits, List.length_append, length_ofBytes, List.length_replicate] at hbits
  unfold padding at hbits ⊢
  omega

/-- The encoding ends with that much padding. -/
theorem encode_eq (data : List UInt8) :
    encode data = (sextets data).map symbol ++ List.replicate (padding data) pad := by
  have hlength := length_sextets data
  have hle := padding_le data
  have hcount : (4 - (sextets data).length % 4) % 4 = padding data := by omega
  rw [encode, hcount]

theorem length_encode (data : List UInt8) :
    (encode data).length = 4 * ((data.length + 2) / 3) := by
  rw [encode_eq, List.length_append, List.length_map, List.length_replicate, length_sextets]

/-! ### Three bytes, four symbols -/

/-- The six bits of a number that begin so many bits before its end. -/
def sextet (n place : ℕ) : ℕ := n / 2 ^ place % 64

theorem sextet_lt (n place : ℕ) : sextet n place < 64 := Nat.mod_lt _ (by decide)

/-- The bits of a number, six at a time. -/
theorem ofNat_add_six (w n : ℕ) : ofNat (6 + w) n = ofNat 6 (sextet n w) ++ ofNat w n := by
  rw [ofNat_add, sextet]
  congr 1
  exact (ofNat_mod (m := 6) le_rfl _).symm

theorem encode_nil : encode [] = [] := by decide

/-- One byte at the end. -/
theorem encode_one (x : UInt8) :
    encode [x] = [symbol (sextet (x.toNat * 16) 6), symbol (sextet (x.toNat * 16) 0), pad, pad] := by
  have hsextets : sextets [x] = [sextet (x.toNat * 16) 6, sextet (x.toNat * 16) 0] := by
    refine sextets_eq_of_bits (by simp [sextet_lt]) ?_
    have hbits : ofBytes [x] = ofNat 8 x.toNat := by simp [ofBytes_cons]
    have hpadding : padding [x] = 2 := rfl
    rw [hbits, hpadding, ofNat_append_zeros]
    exact ((ofNat_add_six 6 _).trans (congrArg _ (ofNat_add_six 0 _))).symm
  rw [encode_eq, hsextets]
  rfl

/-- Two bytes at the end. -/
theorem encode_two (x y : UInt8) :
    encode [x, y] =
      [symbol (sextet ((x.toNat * 256 + y.toNat) * 4) 12),
        symbol (sextet ((x.toNat * 256 + y.toNat) * 4) 6),
        symbol (sextet ((x.toNat * 256 + y.toNat) * 4) 0), pad] := by
  have hnumber : BigEndian.toNat [x, y] = x.toNat * 256 + y.toNat := by simp [BigEndian.toNat]
  have hsextets : sextets [x, y] =
      [sextet ((x.toNat * 256 + y.toNat) * 4) 12, sextet ((x.toNat * 256 + y.toNat) * 4) 6,
        sextet ((x.toNat * 256 + y.toNat) * 4) 0] := by
    refine sextets_eq_of_bits (by simp [sextet_lt]) ?_
    have hpadding : padding [x, y] = 1 := rfl
    rw [ofBytes_eq, hnumber, hpadding, ofNat_append_zeros]
    exact ((ofNat_add_six 12 _).trans (congrArg _ ((ofNat_add_six 6 _).trans
      (congrArg _ (ofNat_add_six 0 _))))).symm
  rw [encode_eq, hsextets]
  rfl

/-- Three bytes, and more behind them. -/
theorem encode_three (x y z : UInt8) (data : List UInt8) :
    encode (x :: y :: z :: data) =
      [symbol (sextet (x.toNat * 65536 + y.toNat * 256 + z.toNat) 18),
        symbol (sextet (x.toNat * 65536 + y.toNat * 256 + z.toNat) 12),
        symbol (sextet (x.toNat * 65536 + y.toNat * 256 + z.toNat) 6),
        symbol (sextet (x.toNat * 65536 + y.toNat * 256 + z.toNat) 0)] ++ encode data := by
  have hnumber : BigEndian.toNat [x, y, z] = x.toNat * 65536 + y.toNat * 256 + z.toNat := by
    simp [BigEndian.toNat]
    omega
  have hpadding : padding (x :: y :: z :: data) = padding data := by
    simp only [padding, List.length_cons]
    omega
  have hsextets : sextets (x :: y :: z :: data) =
      [sextet (x.toNat * 65536 + y.toNat * 256 + z.toNat) 18,
        sextet (x.toNat * 65536 + y.toNat * 256 + z.toNat) 12,
        sextet (x.toNat * 65536 + y.toNat * 256 + z.toNat) 6,
        sextet (x.toNat * 65536 + y.toNat * 256 + z.toNat) 0] ++ sextets data := by
    refine sextets_eq_of_bits ?_ ?_
    · intro v hv
      rcases List.mem_append.1 hv with hv | hv
      · simp only [List.mem_cons, List.not_mem_nil, or_false] at hv
        rcases hv with rfl | rfl | rfl | rfl <;> exact sextet_lt _ _
      · exact lt_of_mem_sextets hv
    · have hsplit : x :: y :: z :: data = [x, y, z] ++ data := rfl
      rw [List.flatMap_append, sextets_bits, hpadding, hsplit, ofBytes_append, List.append_assoc]
      congr 1
      rw [ofBytes_eq, hnumber]
      exact ((ofNat_add_six 18 _).trans (congrArg _ ((ofNat_add_six 12 _).trans
        (congrArg _ ((ofNat_add_six 6 _).trans (congrArg _ (ofNat_add_six 0 _))))))).symm
  rw [encode_eq, encode_eq, hsextets, hpadding, List.map_append, List.append_assoc]
  rfl

/-! ### Reading back -/

/-- The texts that consist of symbols, with their values. -/
theorem mapM_value?_eq_some_iff {text : List UInt8} {values : List ℕ} :
    text.mapM value? = some values ↔ (∀ v ∈ values, v < 64) ∧ text = values.map symbol := by
  induction text generalizing values with
  | nil => cases values <;> simp
  | cons s text ih =>
      simp only [List.mapM_cons, Option.bind_eq_bind, Option.bind_eq_some_iff, value?_eq_some_iff,
        ih]
      constructor
      · rintro ⟨v, ⟨hv, rfl⟩, rest, ⟨hrest, rfl⟩, heq⟩
        obtain rfl := Option.some.inj heq
        exact ⟨by simpa [hv] using hrest, rfl⟩
      · rintro ⟨hvalues, heq⟩
        cases values with
        | nil => cases heq
        | cons v rest =>
            obtain ⟨rfl, rfl⟩ := List.cons.inj heq
            exact ⟨v, ⟨hvalues v (List.mem_cons_self ..), rfl⟩, rest,
              ⟨fun v' hv' => hvalues v' (List.mem_cons_of_mem v hv'), rfl⟩, rfl⟩

/-- The padding begins behind the last symbol. -/
theorem takeWhile_symbols {values : List ℕ} (hvalues : ∀ v ∈ values, v < 64) (p : ℕ) :
    (values.map symbol ++ List.replicate p pad).takeWhile (· != pad) = values.map symbol ∧
      (values.map symbol ++ List.replicate p pad).dropWhile (· != pad) = List.replicate p pad := by
  have hsymbols : ∀ s ∈ values.map symbol, (s != pad) = true := by
    intro s hs
    obtain ⟨v, hv, rfl⟩ := List.mem_map.1 hs
    exact bne_iff_ne.2 (symbol_ne_pad (hvalues v hv))
  rw [List.takeWhile_append_of_pos hsymbols, List.dropWhile_append_of_pos hsymbols]
  cases p <;> simp [List.replicate_succ]

/-- The decoder on symbols and padding. -/
theorem decode_symbols {values : List ℕ} {p : ℕ} (hvalues : ∀ v ∈ values, v < 64) (hp : p ≤ 2)
    (hfour : (values.length + p) % 4 = 0) :
    decode (values.map symbol ++ List.replicate p pad) = some (bytesOf values) := by
  obtain ⟨htake, hdrop⟩ := takeWhile_symbols hvalues p
  simp only [decode]
  rw [htake, hdrop, mapM_value?_eq_some_iff.2 ⟨hvalues, rfl⟩,
    if_pos]
  · rfl
  · simp [hfour, hp]

/-- **The round trip.** -/
theorem decode_encode (data : List UInt8) : decode (encode data) = some data := by
  have hle := padding_le data
  have hfour : ((sextets data).length + padding data) % 4 = 0 := by
    rw [length_sextets]
    omega
  rw [encode_eq, decode_symbols (fun v hv => lt_of_mem_sextets hv) hle hfour, bytesOf,
    sextets_bits, toBytes_ofBytes]
  rw [List.length_replicate]
  omega

/-- The bits of the last value are its first two and its last four. -/
theorem bits_concat (init : List ℕ) (last : ℕ) :
    (init ++ [last]).flatMap (ofNat 6) =
      init.flatMap (ofNat 6) ++ ofNat 2 (last / 16) ++ ofNat 4 last := by
  rw [List.flatMap_append, List.append_assoc]
  congr 1
  simpa using ofNat_add 2 4 last

/-- The bits of the last symbol that belong to no byte, when there are four of them: the encoding
sets them to zero. -/
theorem encode_bytesOf {init : List ℕ} {last : ℕ} (hinit : ∀ v ∈ init, v < 64) (hlast : last < 64)
    (hlength : init.length % 4 = 1) :
    ofBytes (bytesOf (init ++ [last])) = init.flatMap (ofNat 6) ++ ofNat 2 (last / 16) ∧
      encode (bytesOf (init ++ [last])) =
        (init ++ [last / 16 * 16]).map symbol ++ List.replicate 2 pad := by
  have hwhole : (init.flatMap (ofNat 6) ++ ofNat 2 (last / 16)).length = 6 * init.length + 2 := by
    rw [List.length_append, length_bits, length_ofNat]
  have hbytes : ofBytes (bytesOf (init ++ [last])) =
      init.flatMap (ofNat 6) ++ ofNat 2 (last / 16) := by
    rw [bytesOf, bits_concat]
    exact ofBytes_toBytes (by omega) (by rw [length_ofNat]; decide)
  have hpadding : padding (bytesOf (init ++ [last])) = 2 := by
    have hcount := congrArg List.length hbytes
    rw [length_ofBytes, hwhole] at hcount
    unfold padding
    omega
  refine ⟨hbytes, ?_⟩
  have hsextets : sextets (bytesOf (init ++ [last])) = init ++ [last / 16 * 16] := by
    refine sextets_eq_of_bits ?_ ?_
    · intro v hv
      rcases List.mem_append.1 hv with hv | hv
      · exact hinit v hv
      · rw [List.mem_singleton.1 hv]
        omega
    · rw [hpadding, hbytes, List.flatMap_append, List.append_assoc, ofNat_append_zeros]
      simp
  rw [encode_eq, hsextets, hpadding]

end Base64
