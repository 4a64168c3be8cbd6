/-
**The items the server queues.**

`Send` puts a payload into a raw frame or into a binary WebSocket frame, `SendControl` makes a
control frame, and `SendRaw` queues the text that answers a handshake, without a header.

* `RealtimeEngine.buildFrameHeader` — the header of an unmasked frame;
* `RealtimeEngine.rawItem`, `RealtimeEngine.frameItem`, `RealtimeEngine.responseItem`;
* `RealtimeEngine.IsFrame` — the item is one WebSocket frame.
-/

import RealtimeEngine.Framing
import RealtimeEngine.Outbound
import RealtimeEngine.WebSocketDecoder

set_option relaxedAutoImplicit false
set_option autoImplicit false

namespace RealtimeEngine

/-- `WebSocketTransport::BuildFrameHeader`, as far as its size goes. -/
def buildFrameHeader (opcode : WsOpcode) (payloadSize : ℕ) : Bytes :=
  if payloadSize ≤ 125 then [0x80 ||| opcode.code, UInt8.ofNat payloadSize]
  else if payloadSize ≤ 65535 then
    (0x80 ||| opcode.code) :: 126 :: BigEndian.ofNat 2 payloadSize
  else (0x80 ||| opcode.code) :: 127 :: BigEndian.ofNat 8 payloadSize

theorem length_buildFrameHeader (opcode : WsOpcode) (payloadSize : ℕ) :
    (buildFrameHeader opcode payloadSize).length ≤ 10 := by
  unfold buildFrameHeader
  split
  · simp
  · split <;> simp

/-- The item of `Send` on a raw session; `EncodeLength` throws when there is none. -/
def rawItem (payload : Bytes) : Option OutboundItem :=
  match h : encodeLength payload.length with
  | none => none
  | some header =>
      some ⟨header, payload, false, by rw [length_of_encodeLength h]; decide⟩

/-- The item of `SendControl`, and of `Send` on a WebSocket session. -/
def frameItem (opcode : WsOpcode) (payload : Bytes) (closeAfter : Bool) : OutboundItem :=
  ⟨buildFrameHeader opcode payload.length, payload, closeAfter,
    (length_buildFrameHeader opcode payload.length).trans (by decide)⟩

/-- The item of `SendRaw`. -/
def responseItem (response : Bytes) (closeAfter : Bool) : OutboundItem :=
  ⟨[], response, closeAfter, by decide⟩

/-- The item is a WebSocket frame. -/
def IsFrame (item : OutboundItem) : Prop :=
  ∃ opcode payload, item.header = buildFrameHeader opcode payload.length ∧ item.payload = payload

theorem isFrame_frameItem (opcode : WsOpcode) (payload : Bytes) (closeAfter : Bool) :
    IsFrame (frameItem opcode payload closeAfter) :=
  ⟨opcode, payload, rfl, rfl⟩

end RealtimeEngine
