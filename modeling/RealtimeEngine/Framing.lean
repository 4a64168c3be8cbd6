/-
**Length-prefixed frames.**

`protocol/framing.hpp`: a raw TCP message is four bytes of length, most significant first, and the
message.  `LengthPrefixedAccumulator` keeps the bytes received so far and a cursor into them, and
`Next` cuts the next message off.

* `RealtimeEngine.LengthPrefixedAccumulator` — the state, with `append`, `next`, `bufferedBytes`;
* `RealtimeEngine.encodeLength` — the prefix of a message, unless it is too long for one;
* `RealtimeEngine.encodeMessages` — the stream of some messages.
-/

import RealtimeEngine.Basic
import RealtimeEngine.BigEndian

set_option relaxedAutoImplicit false
set_option autoImplicit false

namespace RealtimeEngine

/-- `FrameDecodeStatus`. -/
inductive FrameDecodeStatus
  | needMoreData
  | messageReady
  | invalidLength
  | bufferLimitExceeded
  deriving DecidableEq, Repr

/-- The state of `LengthPrefixedAccumulator`. -/
structure LengthPrefixedAccumulator where
  maxMessageBytes : ℕ
  maxBufferedBytes : ℕ
  buffer : Bytes := []
  cursor : ℕ := 0
  limitExceeded : Bool := false
  deriving DecidableEq, Repr

/-- `LengthPrefixedAccumulator::EncodeLength`; the source throws where there is no result. -/
def encodeLength (length : ℕ) : Option Bytes :=
  if length > 2 ^ 32 - 1 then none else some (BigEndian.ofNat 4 length)

theorem length_of_encodeLength {length : ℕ} {header : Bytes}
    (h : encodeLength length = some header) : header.length = 4 := by
  unfold encodeLength at h
  split at h
  · cases h
  · obtain rfl := Option.some.inj h
    exact BigEndian.length_ofNat 4 length

/-- The stream of some messages, unless one of them is too long. -/
def encodeMessages : List Bytes → Option Bytes
  | [] => some []
  | message :: messages => do
      let header ← encodeLength message.length
      let stream ← encodeMessages messages
      return header ++ message ++ stream

namespace LengthPrefixedAccumulator

/-- `LengthPrefixedAccumulator::BufferedBytes`. -/
def bufferedBytes (d : LengthPrefixedAccumulator) : ℕ := d.buffer.length - d.cursor

/-- The bytes behind the cursor. -/
def available (d : LengthPrefixedAccumulator) : Bytes := d.buffer.drop d.cursor

/-- `LengthPrefixedAccumulator::CompactIfUseful`. -/
def compactIfUseful (d : LengthPrefixedAccumulator) : LengthPrefixedAccumulator :=
  if d.cursor = 0 then d
  else if d.cursor = d.buffer.length then { d with buffer := [], cursor := 0 }
  else if d.cursor ≥ 4096 ∧ d.cursor * 2 ≥ d.buffer.length then
    { d with buffer := d.buffer.drop d.cursor, cursor := 0 }
  else d

/-- `LengthPrefixedAccumulator::Append`. -/
def append (bytes : Bytes) (d : LengthPrefixedAccumulator) : Bool × LengthPrefixedAccumulator :=
  let d := d.compactIfUseful
  if bytes.length > d.maxBufferedBytes ∨ d.bufferedBytes > d.maxBufferedBytes - bytes.length then
    (false, { d with limitExceeded := true })
  else (true, { d with buffer := d.buffer ++ bytes })

/-- `LengthPrefixedAccumulator::Next`: the status, the payload, and the state behind the call. -/
def next (d : LengthPrefixedAccumulator) : FrameDecodeStatus × Bytes × LengthPrefixedAccumulator :=
  if d.limitExceeded then (.bufferLimitExceeded, [], d)
  else if d.bufferedBytes < 4 then (.needMoreData, [], d)
  else
    let length := BigEndian.toNat (d.available.take 4)
    if length = 0 ∨ length > d.maxMessageBytes then (.invalidLength, [], d)
    else if d.bufferedBytes - 4 < length then (.needMoreData, [], d)
    else
      (.messageReady, (d.available.drop 4).take length,
        { d with cursor := d.cursor + (4 + length) })

end LengthPrefixedAccumulator

end RealtimeEngine
