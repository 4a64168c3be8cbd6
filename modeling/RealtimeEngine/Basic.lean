/-
**The vocabulary of the engine: bytes, session handles, session states, the configuration.**

Everything that travels through the server is a string of bytes, so `std::string`,
`std::string_view`, `std::span<const std::uint8_t>` and `std::vector<std::uint8_t>` are all the one
type `RealtimeEngine.Bytes`; the text literals of the source enter through
`RealtimeEngine.ascii`.  A `std::size_t` that the code only compares is a natural number; the
limits of the configuration keep their width, so that a limit is below `2 ^ 64` by its type.

* `RealtimeEngine.Bytes`, `RealtimeEngine.ascii` — byte strings and the literals of the source;
* `RealtimeEngine.SessionHandle`, `RealtimeEngine.SessionState`, `RealtimeEngine.TransportKind`,
  `RealtimeEngine.MessageDisposition` — `core/session_handle.hpp` and `core/iocp_server.hpp`;
* `RealtimeEngine.ServerConfig` — the fields of `ServerConfig` that the modelled functions read,
  with the defaults of the source.
-/

import Mathlib.Data.UInt

set_option relaxedAutoImplicit false
set_option autoImplicit false

namespace RealtimeEngine

/-! ### Byte strings -/

/-- A byte string. -/
abbrev Bytes := List UInt8

/-- The bytes of a text literal of the source, which are all ASCII. -/
def ascii (text : String) : Bytes := text.toList.map fun c => UInt8.ofNat c.toNat

/-- A field of a buffer does not depend on what follows it. -/
theorem take_drop_append {bytes : Bytes} {i n : ℕ} (h : i + n ≤ bytes.length) (more : Bytes) :
    ((bytes ++ more).drop i).take n = (bytes.drop i).take n := by
  rw [List.drop_append_of_le_length (by omega),
    List.take_append_of_le_length (by rw [List.length_drop]; omega)]

/-! ### Sessions -/

/-- `SessionHandle`: an identifier that is never reused, with its generation. -/
structure SessionHandle where
  id : UInt64 := 0
  generation : UInt64 := 0
  deriving DecidableEq, Repr

/-- `SessionState`. -/
inductive SessionState
  | connecting
  | handshaking
  | opened
  | closing
  | closed
  deriving DecidableEq, Repr

/-- `TransportKind`. -/
inductive TransportKind
  | detecting
  | rawTcp
  | webSocket
  deriving DecidableEq, Repr

/-- `MessageDisposition`: the verdict of the message handler. -/
inductive MessageDisposition
  | accepted
  | malformed
  | close
  deriving DecidableEq, Repr

/-! ### Configuration -/

/-- The limits of `ServerConfig`, with the source's defaults.  The origin validator is a function
of the origin value, or absent. -/
structure ServerConfig where
  maxConnections : UInt64 := 10000
  receiveBufferBytes : UInt64 := 8192
  maxMessageBytes : UInt64 := 1024 * 1024
  maxSessionInboundBytes : UInt64 := 2 * 1024 * 1024
  maxGlobalInboundBytes : UInt64 := 256 * 1024 * 1024
  maxSessionQueuedBytes : UInt64 := 4 * 1024 * 1024
  maxGlobalQueuedBytes : UInt64 := 512 * 1024 * 1024
  maxHandshakeBytes : UInt64 := 16 * 1024
  maxMessagesPerSecond : UInt64 := 10000
  malformedMessageLimit : UInt32 := 3
  originValidator : Option (Bytes → Bool) := none

end RealtimeEngine
