/-
**Frames that are built and frames that are read.**

`WebSocketTransport::BuildFrame` writes one unmasked frame.  A decoder for unmasked frames reads it
back, with the type and the payload it was built from, and there is no other spelling: what such a
decoder takes for a whole message or a control frame is what `BuildFrame` makes of the event.

Main definitions:

* `RealtimeEngine.buildFrame` — the frame;
* `RealtimeEngine.Encodable` — the payloads within the limits;
* `RealtimeEngine.WebSocketDecoder.ConsumesOneFrame` — `Next` stops behind the first frame.

Main results:

* `RealtimeEngine.buildFrame_eq_encode` — the frame is the one of the grammar;
* `RealtimeEngine.WebSocketDecoder.next_buildFrame` — what `Next` makes of it;
* `RealtimeEngine.WebSocketDecoder.encode_decode` — **the decoder inverts the encoder, and the
  encoding is unique**.
-/

import RealtimeEngine.ServerItems
import RealtimeEngine.WebSocketInvariant
import RealtimeEngine.WebSocketStream

set_option relaxedAutoImplicit false
set_option autoImplicit false

namespace RealtimeEngine

/-! ### Frames that are built -/

/-- A `std::vector<std::uint8_t>`: its size is a difference of two pointers. -/
def ByteVector : Type := {bytes : Bytes // bytes.length < 2 ^ 63}

/-- `WebSocketTransport::BuildFrame`. -/
def buildFrame (opcode : WsOpcode) (payload : Bytes) : Bytes :=
  buildFrameHeader opcode payload.length ++ payload

/-- The opcode of the frames that are reported as an event of this type. -/
def WsEventType.opcode : WsEventType → WsOpcode
  | .binaryMessage => .binary
  | .ping => .ping
  | .pong => .pong
  | .close => .close

/-- The event that matches a frame of this type. -/
def eventOf (type : WsEventType) (payload : Bytes) : WsEvent where
  type := type
  payload := payload
  closeCode := if type = .close then closeCodeOf payload else 1000

/-- The payload is within the limits of its type. -/
structure Encodable (M : ℕ) (type : WsEventType) (payload : Bytes) : Prop where
  message : payload.length ≤ M
  control : type ≠ .binaryMessage → payload.length ≤ 125
  close : type = .close → CloseLegal payload

/-- The frame as the grammar knows it. -/
def unmaskedFrame (opcode : WsOpcode) (payload : Bytes) : Frame where
  fin := true
  opcode := opcode
  maskKey := none
  payload := payload

/-- **The frame that is built is the one of the grammar.** -/
theorem buildFrame_eq_encode (opcode : WsOpcode) (payload : Bytes) :
    buildFrame opcode payload = (unmaskedFrame opcode payload).encode := by
  have hfirst : firstByte true opcode = 0x80 ||| opcode.code := rfl
  have hsecond : ∀ n, secondByte false n = UInt8.ofNat n := fun n => UInt8.zero_or
  rw [buildFrame, Frame.encode]
  show buildFrameHeader opcode payload.length ++ payload =
    firstByte true opcode :: (lengthField false payload.length ++ payload)
  rw [hfirst]
  unfold buildFrameHeader lengthField
  by_cases hshort : payload.length ≤ 125
  · rw [if_pos hshort, if_pos (Nat.lt_succ_of_le hshort), hsecond]
    rfl
  · rw [if_neg hshort, if_neg (show ¬ payload.length < 126 by omega)]
    by_cases hmedium : payload.length ≤ 65535
    · rw [if_pos hmedium, if_pos (Nat.lt_succ_of_le hmedium), hsecond]
      rfl
    · rw [if_neg hmedium, if_neg (show ¬ payload.length < 65536 by omega), hsecond]
      rfl

theorem Encodable.fits {M : ℕ} {type : WsEventType} {payload : Bytes}
    (h : Encodable M type payload) (hsize : payload.length < 2 ^ 63) :
    (unmaskedFrame type.opcode payload).Fits M := by
  refine ⟨h.message, hsize, ?_⟩
  intro hcontrol
  refine ⟨rfl, h.control ?_⟩
  rintro rfl
  cases hcontrol

namespace WebSocketDecoder

/-! ### What `Next` makes of them -/

variable {d : WebSocketDecoder}

/-- A frame at the cursor is read there. -/
theorem readFrame_buildFrame {M : ℕ} {opcode : WsOpcode} {payload : Bytes}
    (h : (unmaskedFrame opcode payload).Fits M) (rest : Bytes) :
    readFrame false M (buildFrame opcode payload ++ rest) =
      .frame true opcode payload (buildFrame opcode payload).length := by
  rw [buildFrame_eq_encode]
  exact readFrame_iff.2 ⟨_, rest, rfl, rfl, h, rfl, rfl, rfl, rfl⟩

/-- `Next` at a frame that is no fragment to go on from. -/
theorem next_of_frame {fin : Bool} {opcode : WsOpcode} {payload : Bytes} {totalSize : ℕ}
    (hlimit : d.limitExceeded = false)
    (hread : readFrame d.requireMasking d.maxMessageBytes d.available =
      .frame fin opcode payload totalSize)
    (hdispatch : ((d.advance totalSize).dispatch fin opcode payload).1 ≠ none) :
    d.next.decoder = ((d.advance totalSize).dispatch fin opcode payload).2 ∧
      ∀ e, reported ((d.advance totalSize).dispatch fin opcode payload).1 = some (some e) ↔
        d.next.status = .eventReady ∧ d.next.event = e := by
  rw [next_eq hlimit, hread]
  dsimp only
  cases hd : (d.advance totalSize).dispatch fin opcode payload with
  | mk outcome d' =>
      rw [hd] at hdispatch
      cases outcome with
      | none => exact absurd rfl hdispatch
      | some r =>
          obtain ⟨status, event, error⟩ := r
          refine ⟨rfl, fun e => ?_⟩
          cases status with
          | eventReady => simp [reported]
          | _ => simp [reported]

/-- Between two messages a decoder is ready for any frame. -/
theorem ready_of_whole (hlimit : d.limitExceeded = false) (hfragmented : d.fragmented = false) :
    d.Ready := by
  refine ⟨hlimit, ?_⟩
  intro h
  rw [hfragmented] at h
  cases h

/-- What the grammar says of a frame that is built. -/
theorem meaning_buildFrame {M : ℕ} {type : WsEventType} {payload : Bytes}
    (hsize : payload.length < 2 ^ 63) (h : Encodable M type payload) :
    FrameMeaning M false none (unmaskedFrame type.opcode payload) (some (eventOf type payload))
      none := by
  have hlegal : type.opcode ≠ .text → (type.opcode = .close → CloseLegal payload) →
      (unmaskedFrame type.opcode payload).Legal M false :=
    fun htext hclose => ⟨rfl, h.fits hsize, htext, hclose⟩
  cases type with
  | binaryMessage => exact .whole (hlegal (by decide) (by intro hop; cases hop)) rfl rfl
  | ping => exact .control (hlegal (by decide) (by intro hop; cases hop)) rfl
  | pong => exact .control (hlegal (by decide) (by intro hop; cases hop)) rfl
  | close => exact .control (hlegal (by decide) fun _ => h.close rfl) rfl

/-- **`Next` reports what was built**, and stops behind it. -/
theorem next_buildFrame {type : WsEventType} {payload : Bytes} (rest : Bytes)
    (hlimit : d.limitExceeded = false) (hmasking : d.requireMasking = false)
    (hfragmented : d.fragmented = false)
    (hsize : payload.length < 2 ^ 63) (h : Encodable d.maxMessageBytes type payload)
    (havailable : d.available = buildFrame type.opcode payload ++ rest) :
    d.next.status = .eventReady ∧ d.next.event = eventOf type payload ∧
      d.next.decoder.available = rest ∧ d.next.decoder.limitExceeded = false := by
  have hread : readFrame d.requireMasking d.maxMessageBytes d.available =
      .frame true type.opcode payload (buildFrame type.opcode payload).length := by
    rw [hmasking, havailable]
    exact readFrame_buildFrame (h.fits hsize) rest
  have hready := (ready_of_whole hlimit hfragmented).advance (buildFrame type.opcode payload).length
  have hmeaning := meaning_buildFrame hsize h
  rw [← assembling_eq_none.2 hfragmented, ← hmasking] at hmeaning
  have hreported := ((dispatch_iff (f := unmaskedFrame type.opcode payload) hready hmasking.symm
    (h.fits hsize) _ _).1 hmeaning).1
  have hresult : ((d.advance (buildFrame type.opcode payload).length).dispatch true type.opcode
      payload).1 ≠ none := by
    intro hnone
    rw [unmaskedFrame, hnone] at hreported
    cases hreported
  obtain ⟨hdecoder, hnext⟩ := next_of_frame hlimit hread hresult
  obtain ⟨hstatus, hevent⟩ := (hnext _).1 hreported
  obtain ⟨hbehind, -, -, hlimit'⟩ :=
    dispatch_advance (buildFrame type.opcode payload).length true type.opcode payload d
  rw [hdecoder]
  refine ⟨hstatus, hevent, ?_, hlimit'.trans hlimit⟩
  rw [hbehind, havailable, List.drop_left]

/-- Where nothing is left, `Next` asks for more. -/
theorem next_of_empty (hlimit : d.limitExceeded = false) (havailable : d.available = []) :
    d.next = ⟨.needMoreData, {}, "", d⟩ := by
  rw [next_eq hlimit, havailable, readFrame_nil]

/-- Bytes that fit are all that is unread behind an `Append` to an empty buffer. -/
theorem append_of_empty (hd : d.Sound) (hbuffered : d.bufferedBytes = 0) {bytes : Bytes}
    (hfits : bytes.length ≤ d.maxBufferedBytes) :
    (d.append bytes).1 = true ∧ (d.append bytes).2.Sound ∧ (d.append bytes).2.bare = d.bare ∧
      (d.append bytes).2.available = bytes := by
  have haccepted : (d.append bytes).1 = true := by
    cases hresult : (d.append bytes).1 with
    | true => rfl
    | false =>
        have hfull := (append_fails_iff hd bytes).1 hresult
        omega
  obtain ⟨hsound, hbare, havailable⟩ := append_eq hd (Prod.ext haccepted rfl)
  refine ⟨haccepted, hsound, hbare, ?_⟩
  rw [havailable, available_eq_nil hbuffered, List.nil_append]

/-- **The round trip**, for any decoder that has nothing unread and no message open. -/
theorem round_trip (hd : d.Sound) (hmasking : d.requireMasking = false)
    (hfragmented : d.fragmented = false) (hbuffered : d.bufferedBytes = 0) {type : WsEventType}
    {payload : Bytes} (hsize : payload.length < 2 ^ 63)
    (h : Encodable d.maxMessageBytes type payload)
    (hfits : (buildFrame type.opcode payload).length ≤ d.maxBufferedBytes) :
    let r := d.append (buildFrame type.opcode payload)
    r.1 = true ∧ r.2.next.status = .eventReady ∧ r.2.next.event = eventOf type payload ∧
      r.2.next.decoder.bufferedBytes = 0 ∧ r.2.next.decoder.next.status = .needMoreData ∧
      r.2.next.decoder.next.decoder.bufferedBytes = 0 := by
  intro r
  obtain ⟨haccepted, hsound, hbare, havailable⟩ := append_of_empty hd hbuffered hfits
  have hsame : r.2.requireMasking = d.requireMasking ∧ r.2.fragmented = d.fragmented ∧
      r.2.maxMessageBytes = d.maxMessageBytes :=
    ⟨congrArg (fun d => d.requireMasking) hbare, congrArg (fun d => d.fragmented) hbare,
      congrArg (fun d => d.maxMessageBytes) hbare⟩
  obtain ⟨hready, hevent, hrest, hlimit⟩ := next_buildFrame [] hsound.limit
    (hsame.1.trans hmasking) (hsame.2.1.trans hfragmented) hsize (hsame.2.2 ▸ h)
    (havailable.trans (List.append_nil _).symm)
  have hempty : r.2.next.decoder.bufferedBytes = 0 := by
    rw [← length_available, hrest, List.length_nil]
  have hnext := next_of_empty hlimit hrest
  exact ⟨haccepted, hready, hevent, hempty, by rw [hnext], by rw [hnext]; exact hempty⟩

/-- A close frame that is reported has a legal payload. -/
theorem closeLegal_of_ready {payload rest : Bytes} (hlimit : d.limitExceeded = false)
    (hmasking : d.requireMasking = false)
    (hfits : (unmaskedFrame .close payload).Fits d.maxMessageBytes)
    (havailable : d.available = buildFrame .close payload ++ rest)
    (hready : d.next.status = .eventReady) : CloseLegal payload := by
  have hread : readFrame d.requireMasking d.maxMessageBytes d.available =
      .frame true .close payload (buildFrame .close payload).length := by
    rw [hmasking, havailable]
    exact readFrame_buildFrame hfits rest
  have hresult : ((d.advance (buildFrame .close payload).length).dispatch true .close
      payload).1 ≠ none := by
    intro hnone
    cases hnone
  obtain ⟨-, hnext⟩ := next_of_frame hlimit hread hresult
  exact ((dispatchClose_iff payload _).1 ((hnext _).2 ⟨hready, rfl⟩)).1

/-- What is reported is a message, or the payload of a control frame. -/
theorem dispatch_control {fin : Bool} {opcode : WsOpcode} {payload : Bytes} {event : WsEvent}
    {error : String} (h : (d.dispatch fin opcode payload).1 = some (.eventReady, event, error))
    (hcontrol : event.type ≠ .binaryMessage) :
    isControlOpcode opcode = true ∧ event.payload = payload ∧
      (event.type = .close → CloseLegal payload) := by
  unfold dispatch at h
  cases opcode with
  | text => cases h
  | ping =>
      cases h
      exact ⟨rfl, rfl, by intro hclose; cases hclose⟩
  | pong =>
      cases h
      exact ⟨rfl, rfl, by intro hclose; cases hclose⟩
  | close =>
      have hreported : reported (some (dispatchClose payload)) = some (some event) := by
        rw [Option.some.inj h]
        rfl
      obtain ⟨hlegal, hevent⟩ := (dispatchClose_iff payload _).1 hreported
      obtain rfl := Option.some.inj hevent
      exact ⟨rfl, rfl, fun _ => hlegal⟩
  | binary =>
      dsimp only at h
      split_ifs at h <;> cases h
      exact absurd rfl hcontrol
  | continuation =>
      dsimp only at h
      split_ifs at h <;> cases h
      exact absurd rfl hcontrol

/-- A control frame that is reported is within its limits. -/
theorem nextFrame_control {n : ℕ} (hready : (nextFrame n d).status = .eventReady)
    (hcontrol : (nextFrame n d).event.type ≠ .binaryMessage) :
    (nextFrame n d).event.payload.length ≤ 125 ∧
      ((nextFrame n d).event.type = .close → CloseLegal (nextFrame n d).event.payload) := by
  induction n generalizing d with
  | zero => cases hready
  | succ n ih =>
      rw [nextFrame] at hready hcontrol ⊢
      cases hread : readFrame d.requireMasking d.maxMessageBytes d.available with
      | needMoreData =>
          rw [hread] at hready
          cases hready
      | failed status error =>
          rw [hread] at hcontrol
          exact absurd rfl hcontrol
      | frame fin opcode payload totalSize =>
          obtain ⟨f, rest, -, -, hfits, rfl, rfl, rfl, -⟩ := readFrame_iff.1 hread
          rw [hread] at hready hcontrol
          dsimp only at hready hcontrol ⊢
          cases hdispatch : (d.advance totalSize).dispatch f.fin f.opcode f.payload with
          | mk outcome d' =>
              rw [hdispatch] at hready hcontrol
              cases outcome with
              | none => exact ih hready hcontrol
              | some r =>
                  obtain ⟨status, event, error⟩ := r
                  obtain rfl : status = .eventReady := hready
                  obtain ⟨hop, hpayload, hclose⟩ :=
                    dispatch_control (congrArg Prod.fst hdispatch) hcontrol
                  dsimp only
                  rw [hpayload]
                  exact ⟨(hfits.2.2 hop).2, hclose⟩

theorem limit_of_ready (h : d.next.status = .eventReady) : d.limitExceeded = false := by
  cases hlimit : d.limitExceeded with
  | false => rfl
  | true =>
      rw [next, if_pos hlimit] at h
      cases h

theorem next_control (hready : d.next.status = .eventReady)
    (hcontrol : d.next.event.type ≠ .binaryMessage) :
    d.next.event.payload.length ≤ 125 ∧
      (d.next.event.type = .close → CloseLegal d.next.event.payload) := by
  have hlimit := limit_of_ready hready
  rw [next, hlimit, if_neg (by decide)] at hready hcontrol ⊢
  exact nextFrame_control hready hcontrol

/-! ### What is consumed -/

/-- The bytes that a call of `Next` consumes. -/
def consumed (d : WebSocketDecoder) : Bytes :=
  d.available.take (d.bufferedBytes - d.next.decoder.bufferedBytes)

/-- A call of `Next` consumes the first frame and no other. -/
def ConsumesOneFrame (d : WebSocketDecoder) : Prop :=
  ∃ fin opcode payload, readFrame d.requireMasking d.maxMessageBytes d.available =
    .frame fin opcode payload d.consumed.length

/-- Behind a fragment `Next` consumes one more frame at least, before it has an event. -/
theorem dispatch_of_consumed {fin : Bool} {opcode : WsOpcode} {payload : Bytes}
    (hready : d.next.status = .eventReady)
    (hread : readFrame d.requireMasking d.maxMessageBytes d.available =
      .frame fin opcode payload d.consumed.length) :
    ((d.advance d.consumed.length).dispatch fin opcode payload).1 ≠ none := by
  intro hnone
  obtain ⟨hbehind, -, -, -⟩ := dispatch_advance d.consumed.length fin opcode payload d
  generalize hd' : ((d.advance d.consumed.length).dispatch fin opcode payload).2 = d' at hbehind
  have hrecurses : d.Recurses d' :=
    ⟨limit_of_ready hready, fin, opcode, payload, _, hread, Prod.ext hnone hd'⟩
  have hnext := hrecurses.next.2
  have hless := next_bufferedBytes (d := d') (hnext ▸ hready)
  have hleft := congrArg List.length hbehind
  rw [length_available, List.length_drop, length_available, consumed, List.length_take,
    length_available, hnext] at hleft
  omega

/-- A whole message or a control frame is spelled like the frame that is built from its event. -/
theorem encode_of_meaning {M : ℕ} {f : Frame} {e : WsEvent} {o : Option Bytes}
    (hkey : f.maskKey = none) (h : FrameMeaning M false none f (some e) o) :
    f.encode = buildFrame e.type.opcode e.payload := by
  obtain ⟨fin, opcode, maskKey, payload⟩ := f
  dsimp only at hkey
  subst hkey
  cases h with
  | control hf hc =>
      obtain ⟨-, ⟨-, -, hcontrol⟩, -, -⟩ := hf
      obtain ⟨rfl, -⟩ := hcontrol hc
      rw [buildFrame_eq_encode]
      cases opcode with
      | close => rfl
      | ping => rfl
      | pong => rfl
      | _ => cases hc
  | whole hf hop hfin =>
      dsimp only at hop hfin
      subst hop hfin
      rw [buildFrame_eq_encode]
      rfl

/-- **The encoding is unique**: what is read as one whole frame is what is built from the event. -/
theorem consumed_eq_buildFrame (hmasking : d.requireMasking = false)
    (hfragmented : d.fragmented = false) (hready : d.next.status = .eventReady)
    (hone : d.ConsumesOneFrame) :
    d.consumed = buildFrame d.next.event.type.opcode d.next.event.payload := by
  obtain ⟨fin, opcode, payload, hread⟩ := hone
  have hlimit := limit_of_ready hready
  have hresult := dispatch_of_consumed hready hread
  obtain ⟨-, hnext⟩ := next_of_frame hlimit hread hresult
  have hreported := (hnext _).2 ⟨hready, rfl⟩
  obtain ⟨f, rest, hencode, hkey, hfits, rfl, rfl, rfl, hsize⟩ := readFrame_iff.1 hread
  have hmeaning := (dispatch_iff (e := some d.next.event)
    ((ready_of_whole hlimit hfragmented).advance d.consumed.length) hkey hfits _).2
    ⟨hreported, rfl⟩
  have hwhole : (d.advance d.consumed.length).assembling = none := assembling_eq_none.2 hfragmented
  have hnomask : (d.advance d.consumed.length).requireMasking = false := hmasking
  rw [hwhole, hnomask] at hmeaning
  have hnokey : f.maskKey = none := by
    rw [hmasking] at hkey
    simpa using hkey
  -- the consumed bytes are as many as those of the frame, and both start where the cursor is
  have hbegins : d.consumed = d.available.take d.consumed.length :=
    List.prefix_iff_eq_take.1 (List.take_prefix _ _)
  rw [hbegins, hsize, hencode, List.take_left]
  exact encode_of_meaning hnokey hmeaning

/-- **Encoder and decoder agree, and the encoding is unique.**  A decoder for unmasked frames that
has been called in any way, with no unread bytes, outside of a fragmented message and with no failed
`Append`, is given the frame of any type and any payload within its limits: it reports the matching
event, and then it asks for more with nothing left.  Conversely, wherever such a decoder outside of
a fragmented message reports an event by consuming one frame, it has consumed the frame that is
built from the event. -/
theorem encode_decode (M B : ℕ) (d : WebSocketDecoder) (h : Reachable M B false d)
    (hfragmented : d.fragmented = false) :
    (d.bufferedBytes = 0 → d.limitExceeded = false →
      ∀ (type : WsEventType) (payload : ByteVector), Encodable M type payload.1 →
        (buildFrame type.opcode payload.1).length ≤ B →
        let r := d.append (buildFrame type.opcode payload.1)
        r.1 = true ∧ r.2.next.status = .eventReady ∧ r.2.next.event = eventOf type payload.1 ∧
          r.2.next.decoder.next.status = .needMoreData ∧
          r.2.next.decoder.next.decoder.bufferedBytes = 0) ∧
    (d.next.status = .eventReady → d.ConsumesOneFrame →
      d.consumed = buildFrame d.next.event.type.opcode d.next.event.payload) := by
  have hbounded := h.bounded
  refine ⟨?_, consumed_eq_buildFrame hbounded.masking hfragmented⟩
  intro hbuffered hlimit type payload hencodable hfits r
  have hmessage := hbounded.message
  have hroom := hbounded.within.limit
  obtain ⟨haccepted, hready, hevent, -, hmore, hempty⟩ :=
    round_trip ⟨hlimit, hbounded.within.cursor⟩ hbounded.masking hfragmented hbuffered payload.2
      (hmessage.symm ▸ hencodable) (hroom.symm ▸ hfits)
  exact ⟨haccepted, hready, hevent, hmore, hempty⟩

/-- A ping, built and read, and read and built again. -/
theorem encode_decode_ping :
    let d := fresh 125 200 false
    let frame := buildFrame .ping [0x61]
    ((d.append frame).2.next.event = eventOf .ping [0x61] ∧
      (d.append frame).2.next.decoder.next.status = .needMoreData) ∧
    (d.append frame).2.consumed = frame := by
  intro d frame
  have hforward := (encode_decode 125 200 d .fresh rfl).1 rfl rfl .ping ⟨[0x61], by decide⟩
    ⟨by decide, by decide, by intro h; cases h⟩ (by decide)
  have hbackward := (encode_decode 125 200 (d.append frame).2 (.call .fresh (.append frame)) rfl).2
    (by decide) ⟨true, .ping, [0x61], by decide⟩
  exact ⟨⟨hforward.2.2.1, hforward.2.2.2.1⟩, hbackward⟩

end WebSocketDecoder

end RealtimeEngine
