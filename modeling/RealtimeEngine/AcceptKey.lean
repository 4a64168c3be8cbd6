/-
**The key of the WebSocket handshake, and the answer to it.**

A client sends sixteen bytes in Base64, and the server answers with the Base64 of the SHA-1 of that
text and a fixed suffix.  The definitions follow `transport/websocket_transport.cpp` step by step:
the padding loop, the schedule, the eighty rounds over `std::uint32_t`, and the encoder that pads
with `=`.  The accumulator of `IsValidWebSocketKey` is left out, since nothing reads it.

* `RealtimeEngine.isValidWebSocketKey` — the check of the client's key;
* `RealtimeEngine.sha1`, `RealtimeEngine.base64Encode`, `RealtimeEngine.computeAcceptKey`;
* `RealtimeEngine.length_computeAcceptKey` — the answer always has 28 bytes.
-/

import RealtimeEngine.BigEndian
import RealtimeEngine.Basic

set_option relaxedAutoImplicit false
set_option autoImplicit false

namespace RealtimeEngine

/-! ### The client's key -/

/-- `Base64Value`; the source's `-1` is `none`. -/
def base64Value (value : UInt8) : Option ℕ :=
  if value ≥ 'A'.toUInt8 && value ≤ 'Z'.toUInt8 then some (value - 'A'.toUInt8).toNat
  else if value ≥ 'a'.toUInt8 && value ≤ 'z'.toUInt8 then some ((value - 'a'.toUInt8).toNat + 26)
  else if value ≥ '0'.toUInt8 && value ≤ '9'.toUInt8 then some ((value - '0'.toUInt8).toNat + 52)
  else if value = '+'.toUInt8 then some 62
  else if value = '/'.toUInt8 then some 63
  else none

/-- The loop of `IsValidWebSocketKey`: the number of decoded bytes, unless a symbol is unknown. -/
def decodedLoop : Bytes → ℕ → ℕ → Option ℕ
  | [], decoded, _ => some decoded
  | value :: key, decoded, bits =>
      if value = '='.toUInt8 then some decoded
      else
        match base64Value value with
        | none => none
        | some _ =>
            if bits + 6 ≥ 8 then decodedLoop key (decoded + 1) (bits + 6 - 8)
            else decodedLoop key decoded (bits + 6)

/-- `IsValidWebSocketKey`. -/
def isValidWebSocketKey (key : Bytes) : Bool :=
  if key.length ≠ 24 || key.getD 22 0 ≠ '='.toUInt8 || key.getD 23 0 ≠ '='.toUInt8 then false
  else decodedLoop key 0 0 == some 16

/-! ### SHA-1 -/

/-- `RotateLeft`. -/
def rotateLeft (value : UInt32) (count : UInt32) : UInt32 :=
  (value <<< count) ||| (value >>> (32 - count))

/-- The padding loop, with a bound on its steps. -/
def padLoop : ℕ → ℕ → ℕ
  | 0, paddedSize => paddedSize
  | fuel + 1, paddedSize =>
      if paddedSize % 64 ≠ 56 then padLoop fuel (paddedSize + 1) else paddedSize

/-- `padded`. -/
def padded (data : Bytes) : Bytes :=
  let paddedSize := padLoop 64 (data.length + 1) + 8
  data ++ 0x80 :: List.replicate (paddedSize - (data.length + 9)) 0 ++
    BigEndian.ofNat 8 (data.length * 8 % 2 ^ 64)

/-- The first sixteen words of a block. -/
def blockWords (block : Bytes) : List UInt32 :=
  (List.range 16).map fun index =>
    ((block.getD (index * 4) 0).toUInt32 <<< 24) |||
      ((block.getD (index * 4 + 1) 0).toUInt32 <<< 16) |||
      ((block.getD (index * 4 + 2) 0).toUInt32 <<< 8) |||
      (block.getD (index * 4 + 3) 0).toUInt32

/-- The other words, one after the other. -/
def extendWords : ℕ → List UInt32 → List UInt32
  | 0, words => words
  | n + 1, words =>
      let index := words.length
      extendWords n (words ++ [rotateLeft (words.getD (index - 3) 0 ^^^ words.getD (index - 8) 0 ^^^
        words.getD (index - 14) 0 ^^^ words.getD (index - 16) 0) 1])

/-- The five words that `Sha1` carries along. -/
structure Sha1State where
  a : UInt32
  b : UInt32
  c : UInt32
  d : UInt32
  e : UInt32
  deriving DecidableEq, Repr

/-- One round, with the word of the schedule it reads. -/
def sha1Round (s : Sha1State) (index : ℕ) (word : UInt32) : Sha1State :=
  let (function, constant) : UInt32 × UInt32 :=
    if index < 20 then ((s.b &&& s.c) ||| (~~~s.b &&& s.d), 0x5a827999)
    else if index < 40 then (s.b ^^^ s.c ^^^ s.d, 0x6ed9eba1)
    else if index < 60 then ((s.b &&& s.c) ||| (s.b &&& s.d) ||| (s.c &&& s.d), 0x8f1bbcdc)
    else (s.b ^^^ s.c ^^^ s.d, 0xca62c1d6)
  let temporary := rotateLeft s.a 5 + function + s.e + constant + word
  ⟨temporary, s.a, rotateLeft s.b 30, s.c, s.d⟩

/-- The eighty rounds over one block. -/
def sha1Block (h : Sha1State) (block : Bytes) : Sha1State :=
  let words := extendWords 64 (blockWords block)
  let s := (List.range 80).foldl (fun s index => sha1Round s index (words.getD index 0)) h
  ⟨h.a + s.a, h.b + s.b, h.c + s.c, h.d + s.d, h.e + s.e⟩

/-- The loop over the blocks, with a bound on their number. -/
def sha1Blocks : ℕ → Sha1State → Bytes → Sha1State
  | 0, h, _ => h
  | n + 1, h, data => sha1Blocks n (sha1Block h (data.take 64)) (data.drop 64)

/-- The four bytes of a word. -/
def wordBytes (value : UInt32) : Bytes :=
  [(value >>> 24).toUInt8, (value >>> 16).toUInt8, (value >>> 8).toUInt8, value.toUInt8]

/-- `Sha1`. -/
def sha1 (data : Bytes) : Bytes :=
  let h := sha1Blocks ((padded data).length / 64)
    ⟨0x67452301, 0xefcdab89, 0x98badcfe, 0x10325476, 0xc3d2e1f0⟩ (padded data)
  wordBytes h.a ++ wordBytes h.b ++ wordBytes h.c ++ wordBytes h.d ++ wordBytes h.e

/-! ### Base64 -/

/-- `Alphabet`. -/
def base64Alphabet : Bytes :=
  ascii "ABCDEFGHIJKLMNOPQRSTUVWXYZabcdefghijklmnopqrstuvwxyz0123456789+/"

/-- `Alphabet[value & 0x3f]`. -/
def base64Symbol (value : UInt32) : UInt8 := base64Alphabet.getD (value &&& 0x3f).toNat 0

/-- `Base64Encode`. -/
def base64Encode : Bytes → Bytes
  | [] => []
  | [x] =>
      let value := x.toUInt32 <<< 16
      [base64Symbol (value >>> 18), base64Symbol (value >>> 12), '='.toUInt8, '='.toUInt8]
  | [x, y] =>
      let value := x.toUInt32 <<< 16 ||| y.toUInt32 <<< 8
      [base64Symbol (value >>> 18), base64Symbol (value >>> 12), base64Symbol (value >>> 6),
        '='.toUInt8]
  | x :: y :: z :: data =>
      let value := x.toUInt32 <<< 16 ||| y.toUInt32 <<< 8 ||| z.toUInt32
      [base64Symbol (value >>> 18), base64Symbol (value >>> 12), base64Symbol (value >>> 6),
        base64Symbol value] ++ base64Encode data

/-- `ComputeAcceptKey`. -/
def computeAcceptKey (clientKey : Bytes) : Bytes :=
  base64Encode (sha1 (clientKey ++ ascii "258EAFA5-E914-47DA-95CA-C5AB0DC85B11"))

theorem length_base64Encode (data : Bytes) :
    (base64Encode data).length = 4 * ((data.length + 2) / 3) := by
  induction data using base64Encode.induct with
  | case1 => rfl
  | case2 x => simp [base64Encode]
  | case3 x y => simp [base64Encode]
  | case4 x y z data ih =>
      simp only [base64Encode, List.length_append, List.length_cons, List.length_nil, ih]
      omega

theorem length_sha1 (data : Bytes) : (sha1 data).length = 20 := by
  simp [sha1, wordBytes]

/-- The answer always has 28 bytes. -/
theorem length_computeAcceptKey (clientKey : Bytes) : (computeAcceptKey clientKey).length = 28 := by
  rw [computeAcceptKey, length_base64Encode, length_sha1]

end RealtimeEngine
