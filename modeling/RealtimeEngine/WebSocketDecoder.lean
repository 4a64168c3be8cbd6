/-
**The WebSocket frame decoder.**

`WebSocketDecoder` of `transport/websocket_transport.cpp` keeps the bytes received so far and a
cursor into them.  `Next` reads one frame at the cursor; a fragment that does not finish its message
is stored and `Next` calls itself for the next frame, everything else is reported to the caller.

`Next` is cut in two here: `RealtimeEngine.readFrame` is its first half, up to the point where the
cursor moves, and `RealtimeEngine.WebSocketDecoder.dispatch` is what it does with a frame.  The
recursion of `Next` is bounded by the bytes that are left, since every frame has at least two;
`RealtimeEngine.WebSocketDecoder.next_eq` is the recursion without the bound.

Main definitions:

* `RealtimeEngine.readFrame` — the header, its checks, and the unmasked payload;
* `RealtimeEngine.WebSocketDecoder` — the state, with `append`, `next`, `bufferedBytes`, `reset`;
* `RealtimeEngine.WebSocketDecoder.drain` — calling `Next` until it has no event to report.

Main results:

* `RealtimeEngine.readFrame_append` — **a frame does not depend on what follows it**;
* `RealtimeEngine.WebSocketDecoder.next_eq` — `Next` as the source writes it;
* `RealtimeEngine.WebSocketDecoder.drain_eq` — **draining, frame by frame**.
-/

import Mathlib.Data.List.GetD
import RealtimeEngine.Utf8

set_option relaxedAutoImplicit false
set_option autoImplicit false

namespace RealtimeEngine

/-! ### Frames and events -/

/-- `WsOpcode`. -/
inductive WsOpcode
  | continuation
  | text
  | binary
  | close
  | ping
  | pong
  deriving DecidableEq, Repr

/-- The value of an opcode on the wire. -/
def WsOpcode.code : WsOpcode → UInt8
  | .continuation => 0x0
  | .text => 0x1
  | .binary => 0x2
  | .close => 0x8
  | .ping => 0x9
  | .pong => 0xa

/-- The opcode with this value, if `IsKnownOpcode` knows it. -/
def knownOpcode (value : UInt8) : Option WsOpcode :=
  if value = 0x0 then some .continuation
  else if value = 0x1 then some .text
  else if value = 0x2 then some .binary
  else if value = 0x8 then some .close
  else if value = 0x9 then some .ping
  else if value = 0xa then some .pong
  else none

/-- `IsControlOpcode`. -/
def isControlOpcode : WsOpcode → Bool
  | .close | .ping | .pong => true
  | _ => false

/-- `IsValidCloseCode`. -/
def isValidCloseCode (code : UInt16) : Bool :=
  if code < 1000 || code ≥ 5000 then false
  else if code = 1004 || code = 1005 || code = 1006 || code = 1015 then false
  else !(code ≥ 1016 && code ≤ 2999)

/-- `WsParseStatus`. -/
inductive WsParseStatus
  | needMoreData
  | eventReady
  | protocolError
  | messageTooLarge
  | bufferLimitExceeded
  deriving DecidableEq, Repr

/-- `WsEventType`. -/
inductive WsEventType
  | binaryMessage
  | ping
  | pong
  | close
  deriving DecidableEq, Repr

/-- `WsEvent`. -/
structure WsEvent where
  type : WsEventType := .binaryMessage
  payload : Bytes := []
  closeCode : UInt16 := 1000
  deriving DecidableEq, Repr

/-! ### Reading one frame -/

/-- The length field of a header: the bytes are missing, the field is wrong, or it ends at
`headerSize` and announces `payloadSize` bytes. -/
inductive LengthRead
  | needMoreData
  | failed (error : String)
  | length (headerSize payloadSize : ℕ)
  deriving DecidableEq, Repr

/-- The part of `Next` that reads the length. -/
def readLength (lengthCode : ℕ) (data : Bytes) : LengthRead :=
  if lengthCode = 126 then
    if data.length < 4 then .needMoreData
    else
      let payloadSize := BigEndian.toNat ((data.drop 2).take 2)
      if payloadSize < 126 then .failed "non-canonical 16-bit WebSocket length"
      else .length 4 payloadSize
  else if lengthCode = 127 then
    if data.length < 10 then .needMoreData
    else if data.getD 2 0 &&& 0x80 ≠ 0 then
      .failed "WebSocket 64-bit length has reserved high bit set"
    else
      let payloadSize := BigEndian.toNat ((data.drop 2).take 8)
      if payloadSize ≤ 65535 then .failed "non-canonical 64-bit WebSocket length"
      else .length 10 payloadSize
  else .length 2 lengthCode

/-- What the first half of `Next` finds at the cursor. -/
inductive FrameRead
  | needMoreData
  | failed (status : WsParseStatus) (error : String)
  | frame (fin : Bool) (opcode : WsOpcode) (payload : Bytes) (totalSize : ℕ)
  deriving DecidableEq, Repr

/-- `source[index] ^ mask[index % 4]`. -/
def unmask (mask source : Bytes) : Bytes :=
  source.mapIdx fun index b => b ^^^ mask.getD (index % 4) 0

/-- The size of the header with its mask. -/
def maskedHeaderSize (masked : Bool) (headerSize : ℕ) : ℕ :=
  if masked then headerSize + 4 else headerSize

/-- The payload behind a header, unmasked if need be. -/
def readPayload (masked : Bool) (headerSize payloadSize : ℕ) (data : Bytes) : Bytes :=
  let source := (data.drop headerSize).take payloadSize
  if masked then unmask ((data.drop (headerSize - 4)).take 4) source else source

/-- The checks of `Next` behind the length field, and the payload. -/
def readBody (maxMessageBytes : ℕ) (fin masked : Bool) (opcode : WsOpcode)
    (headerSize payloadSize : ℕ) (data : Bytes) : FrameRead :=
  if isControlOpcode opcode && (!fin || payloadSize > 125) then
    .failed .protocolError "fragmented or oversized WebSocket control frame"
  else if payloadSize > maxMessageBytes then
    .failed .messageTooLarge "WebSocket message exceeds configured limit"
  else
    let headerSize := maskedHeaderSize masked headerSize
    if payloadSize > 2 ^ 64 - 1 - headerSize then
      .failed .protocolError "WebSocket frame length overflows address space"
    else if data.length < headerSize + payloadSize then .needMoreData
    else
      .frame fin opcode (readPayload masked headerSize payloadSize data)
        (headerSize + payloadSize)

/-- `Next` up to the point where the cursor moves; `data` are the bytes behind the cursor. -/
def readFrame (requireMasking : Bool) (maxMessageBytes : ℕ) (data : Bytes) : FrameRead :=
  match data with
  | first :: second :: _ =>
      let fin := first &&& 0x80 != 0
      let masked := second &&& 0x80 != 0
      match if first &&& 0x70 ≠ 0 then none else knownOpcode (first &&& 0x0f) with
      | none => .failed .protocolError "RSV bits or opcode are invalid"
      | some opcode =>
          if requireMasking && !masked then
            .failed .protocolError "client WebSocket frames must be masked"
          else if !requireMasking && masked then
            .failed .protocolError "server WebSocket frames must not be masked"
          else
            match readLength (second &&& 0x7f).toNat data with
            | .needMoreData => .needMoreData
            | .failed error => .failed .protocolError error
            | .length headerSize payloadSize =>
                readBody maxMessageBytes fin masked opcode headerSize payloadSize data
  | _ => .needMoreData

/-! ### What is found at the cursor -/

/-- When `readBody` finds a frame, and which. -/
theorem readBody_frame_iff {M : ℕ} {fin masked : Bool} {opcode : WsOpcode}
    {headerSize payloadSize : ℕ} {data : Bytes} {fin' : Bool} {opcode' : WsOpcode}
    {payload : Bytes} {totalSize : ℕ} :
    readBody M fin masked opcode headerSize payloadSize data =
        .frame fin' opcode' payload totalSize ↔
      (isControlOpcode opcode = true → fin = true ∧ payloadSize ≤ 125) ∧ payloadSize ≤ M ∧
      payloadSize ≤ 2 ^ 64 - 1 - maskedHeaderSize masked headerSize ∧
      maskedHeaderSize masked headerSize + payloadSize ≤ data.length ∧
      fin' = fin ∧ opcode' = opcode ∧
      payload = readPayload masked (maskedHeaderSize masked headerSize) payloadSize data ∧
      totalSize = maskedHeaderSize masked headerSize + payloadSize := by
  unfold readBody
  -- the checks of the source in their order; a frame is what passes all of them
  by_cases hc : (isControlOpcode opcode && (!fin || payloadSize > 125)) = true
  · rw [if_pos hc]
    simp only [Bool.and_eq_true, Bool.or_eq_true, Bool.not_eq_true', decide_eq_true_eq] at hc
    constructor
    · intro h
      cases h
    · rintro ⟨hctl, -⟩
      obtain ⟨hfin, hsize⟩ := hctl hc.1
      rcases hc.2 with hc | hc
      · rw [hfin] at hc
        cases hc
      · omega
  · rw [if_neg hc]
    have hctl : isControlOpcode opcode = true → fin = true ∧ payloadSize ≤ 125 := by
      simpa using hc
    by_cases hM : payloadSize > M
    · rw [if_pos hM]
      exact ⟨fun h => (by cases h), fun h => absurd h.2.1 (by omega)⟩
    · rw [if_neg hM]
      dsimp only
      by_cases hover : payloadSize > 2 ^ 64 - 1 - maskedHeaderSize masked headerSize
      · rw [if_pos hover]
        exact ⟨fun h => (by cases h), fun h => absurd h.2.2.1 (by omega)⟩
      · rw [if_neg hover]
        by_cases hlen : data.length < maskedHeaderSize masked headerSize + payloadSize
        · rw [if_pos hlen]
          exact ⟨fun h => (by cases h), fun h => absurd h.2.2.2.1 (by omega)⟩
        · rw [if_neg hlen, FrameRead.frame.injEq]
          constructor
          · rintro ⟨rfl, rfl, rfl, rfl⟩
            exact ⟨hctl, by omega, by omega, by omega, rfl, rfl, rfl, rfl⟩
          · rintro ⟨-, -, -, -, rfl, rfl, rfl, rfl⟩
            exact ⟨rfl, rfl, rfl, rfl⟩

theorem readBody_failed {M : ℕ} {fin masked : Bool} {opcode : WsOpcode}
    {headerSize payloadSize : ℕ} {data : Bytes} {status : WsParseStatus} {error : String}
    (h : readBody M fin masked opcode headerSize payloadSize data = .failed status error) :
    status = .protocolError ∨ status = .messageTooLarge := by
  unfold readBody at h
  dsimp only at h
  split at h
  · exact Or.inl (FrameRead.failed.inj h).1.symm
  · split at h
    · exact Or.inr (FrameRead.failed.inj h).1.symm
    · split at h
      · exact Or.inl (FrameRead.failed.inj h).1.symm
      · split at h <;> cases h

theorem readLength_header {lengthCode : ℕ} {data : Bytes} {headerSize payloadSize : ℕ}
    (h : readLength lengthCode data = .length headerSize payloadSize) : 2 ≤ headerSize := by
  unfold readLength at h
  dsimp only at h
  split at h
  · split at h
    · cases h
    · split at h
      · cases h
      · obtain ⟨rfl, -⟩ := LengthRead.length.inj h
        decide
  · split at h
    · split at h
      · cases h
      · split at h
        · cases h
        · split at h
          · cases h
          · obtain ⟨rfl, -⟩ := LengthRead.length.inj h
            decide
    · obtain ⟨rfl, -⟩ := LengthRead.length.inj h
      exact le_rfl

/-- A frame has at least two bytes, and all of them are there. -/
theorem readFrame_size {rm : Bool} {M : ℕ} {data : Bytes} {fin : Bool} {opcode : WsOpcode}
    {payload : Bytes} {totalSize : ℕ} (h : readFrame rm M data = .frame fin opcode payload totalSize) :
    2 ≤ totalSize ∧ totalSize ≤ data.length := by
  unfold readFrame at h
  split at h
  · dsimp only at h
    split at h
    · cases h
    · split at h
      · cases h
      · split at h
        · cases h
        · split at h
          · cases h
          · cases h
          · next hlength =>
              obtain ⟨-, -, -, hle, -, -, -, rfl⟩ := readBody_frame_iff.1 h
              have htwo := readLength_header hlength
              refine ⟨?_, hle⟩
              unfold maskedHeaderSize
              split <;> omega
  · cases h

/-- A frame is refused with one of two errors. -/
theorem readFrame_failed {rm : Bool} {M : ℕ} {data : Bytes} {status : WsParseStatus}
    {error : String} (h : readFrame rm M data = .failed status error) :
    status = .protocolError ∨ status = .messageTooLarge := by
  unfold readFrame at h
  split at h
  · dsimp only at h
    split at h
    · exact Or.inl (FrameRead.failed.inj h).1.symm
    · split at h
      · exact Or.inl (FrameRead.failed.inj h).1.symm
      · split at h
        · exact Or.inl (FrameRead.failed.inj h).1.symm
        · split at h
          · cases h
          · exact Or.inl (FrameRead.failed.inj h).1.symm
          · exact readBody_failed h
  · cases h

theorem readLength_needMoreData {lengthCode : ℕ} {data : Bytes}
    (h : readLength lengthCode data = .needMoreData) : data.length < 10 := by
  unfold readLength at h
  dsimp only at h
  split at h
  · split at h
    · omega
    · split at h <;> cases h
  · split at h
    · split at h
      · omega
      · split at h
        · cases h
        · split at h <;> cases h
    · cases h

theorem readLength_header_le {lengthCode : ℕ} {data : Bytes} {headerSize payloadSize : ℕ}
    (h : readLength lengthCode data = .length headerSize payloadSize) : headerSize ≤ 10 := by
  unfold readLength at h
  dsimp only at h
  split at h
  · split at h
    · cases h
    · split at h
      · cases h
      · obtain ⟨rfl, -⟩ := LengthRead.length.inj h
        decide
  · split at h
    · split at h
      · cases h
      · split at h
        · cases h
        · split at h
          · cases h
          · obtain ⟨rfl, -⟩ := LengthRead.length.inj h
            exact le_rfl
    · obtain ⟨rfl, -⟩ := LengthRead.length.inj h
      decide

theorem readBody_needMoreData {M : ℕ} {fin masked : Bool} {opcode : WsOpcode}
    {headerSize payloadSize : ℕ} {data : Bytes}
    (h : readBody M fin masked opcode headerSize payloadSize data = .needMoreData) :
    data.length < headerSize + 4 + M := by
  unfold readBody at h
  dsimp only at h
  split at h
  · cases h
  · split at h
    · cases h
    · split at h
      · cases h
      · split at h
        · next hshort =>
            unfold maskedHeaderSize at hshort
            split at hshort <;> omega
        · cases h

/-- **Less than a frame is left** where more is needed. -/
theorem readFrame_needMoreData {rm : Bool} {M : ℕ} {data : Bytes}
    (h : readFrame rm M data = .needMoreData) : data.length ≤ M + 13 := by
  unfold readFrame at h
  split at h
  · dsimp only at h
    split at h
    · cases h
    · split at h
      · cases h
      · split at h
        · cases h
        · split at h
          · next hlength =>
              have hshort := readLength_needMoreData hlength
              omega
          · cases h
          · next hlength =>
              have hheader := readLength_header_le hlength
              have hshort := readBody_needMoreData h
              omega
  · next hshort =>
      match data with
      | [] => exact Nat.zero_le _
      | [_] => exact Nat.le_add_left 1 (M + 12)
      | first :: second :: rest => exact absurd rfl (hshort first second rest)

/-! ### A buffer that grows -/

theorem readLength_append {lengthCode : ℕ} {data : Bytes}
    (h : readLength lengthCode data ≠ .needMoreData) (more : Bytes) :
    readLength lengthCode (data ++ more) = readLength lengthCode data := by
  have hlen : (data ++ more).length = data.length + more.length := List.length_append
  unfold readLength at h ⊢
  by_cases hcode : lengthCode = 126
  · simp only [if_pos hcode] at h ⊢
    by_cases hshort : data.length < 4
    · exact absurd (if_pos hshort) h
    · rw [if_neg hshort, if_neg (show ¬ (data ++ more).length < 4 by omega),
        take_drop_append (show 2 + 2 ≤ data.length by omega) more]
  · simp only [if_neg hcode] at h ⊢
    by_cases hcode' : lengthCode = 127
    · simp only [if_pos hcode'] at h ⊢
      by_cases hshort : data.length < 10
      · exact absurd (if_pos hshort) h
      · rw [if_neg hshort, if_neg (show ¬ (data ++ more).length < 10 by omega),
          take_drop_append (show 2 + 8 ≤ data.length by omega) more,
          List.getD_append _ _ _ _ (show 2 < data.length by omega)]
    · rw [if_neg hcode', if_neg hcode']

theorem readBody_append {M : ℕ} {fin masked : Bool} {opcode : WsOpcode}
    {headerSize payloadSize : ℕ} {data : Bytes}
    (h : readBody M fin masked opcode headerSize payloadSize data ≠ .needMoreData) (more : Bytes) :
    readBody M fin masked opcode headerSize payloadSize (data ++ more) =
      readBody M fin masked opcode headerSize payloadSize data := by
  have hlen : (data ++ more).length = data.length + more.length := List.length_append
  unfold readBody at h ⊢
  dsimp only at h ⊢
  by_cases hcontrol : (isControlOpcode opcode && (!fin || payloadSize > 125)) = true
  · rw [if_pos hcontrol, if_pos hcontrol]
  · rw [if_neg hcontrol] at h ⊢
    rw [if_neg hcontrol]
    by_cases hlarge : payloadSize > M
    · rw [if_pos hlarge, if_pos hlarge]
    · rw [if_neg hlarge] at h ⊢
      rw [if_neg hlarge]
      by_cases hover : payloadSize > 2 ^ 64 - 1 - maskedHeaderSize masked headerSize
      · rw [if_pos hover, if_pos hover]
      · rw [if_neg hover] at h ⊢
        rw [if_neg hover]
        by_cases hshort : data.length < maskedHeaderSize masked headerSize + payloadSize
        · exact absurd (if_pos hshort) h
        · rw [if_neg hshort, if_neg (show ¬ (data ++ more).length < _ by omega)]
          -- the payload lies in front of what is appended
          have hpayload : readPayload masked (maskedHeaderSize masked headerSize) payloadSize
              (data ++ more) = readPayload masked (maskedHeaderSize masked headerSize) payloadSize
                data := by
            unfold readPayload
            dsimp only
            rw [take_drop_append (show _ + payloadSize ≤ data.length by omega) more]
            cases masked with
            | false => rfl
            | true =>
                have hmask : maskedHeaderSize true headerSize = headerSize + 4 := rfl
                rw [take_drop_append (show _ - 4 + 4 ≤ data.length by omega) more]
          rw [hpayload]

/-- **What has been found at the cursor is found again** when more bytes have arrived. -/
theorem readFrame_append {rm : Bool} {M : ℕ} {data : Bytes} (h : readFrame rm M data ≠ .needMoreData)
    (more : Bytes) : readFrame rm M (data ++ more) = readFrame rm M data := by
  match data with
  | [] => exact absurd rfl h
  | [_] => exact absurd rfl h
  | first :: second :: tail =>
      simp only [readFrame, List.cons_append] at h ⊢
      cases hopcode : (if first &&& 0x70 ≠ 0 then none else knownOpcode (first &&& 0x0f)) with
      | none => rfl
      | some opcode =>
          rw [hopcode] at h
          dsimp only at h ⊢
          split
          · rfl
          · next hunmasked =>
              rw [if_neg hunmasked] at h
              split
              · rfl
              · next hmasked =>
                  rw [if_neg hmasked] at h
                  have hlength : readLength (second &&& 0x7f).toNat (first :: second :: tail) ≠
                      .needMoreData := fun hmore => h (by rw [hmore])
                  have hgrows := readLength_append hlength more
                  rw [List.cons_append, List.cons_append] at hgrows
                  rw [hgrows]
                  cases hread : readLength (second &&& 0x7f).toNat (first :: second :: tail) with
                  | needMoreData => rfl
                  | failed error => rfl
                  | length headerSize payloadSize =>
                      rw [hread] at h
                      exact readBody_append h more
/-! ### The decoder -/

/-- The state of `WebSocketDecoder`. -/
structure WebSocketDecoder where
  maxMessageBytes : ℕ
  maxBufferedBytes : ℕ
  requireMasking : Bool
  buffer : Bytes := []
  cursor : ℕ := 0
  fragmented : Bool := false
  fragmentedOpcode : WsOpcode := .continuation
  fragmentedPayload : Bytes := []
  limitExceeded : Bool := false
  deriving DecidableEq, Repr

/-- What a call of `Next` returns and writes. -/
structure NextResult where
  status : WsParseStatus
  event : WsEvent
  error : String
  decoder : WebSocketDecoder
  deriving DecidableEq, Repr

namespace WebSocketDecoder

/-- `WebSocketDecoder::BufferedBytes`. -/
def bufferedBytes (d : WebSocketDecoder) : ℕ := d.buffer.length - d.cursor

/-- The bytes behind the cursor. -/
def available (d : WebSocketDecoder) : Bytes := d.buffer.drop d.cursor

/-- `WebSocketDecoder::CompactIfUseful`. -/
def compactIfUseful (d : WebSocketDecoder) : WebSocketDecoder :=
  if d.cursor = 0 then d
  else if d.cursor = d.buffer.length then { d with buffer := [], cursor := 0 }
  else if d.cursor ≥ 4096 ∧ d.cursor * 2 ≥ d.buffer.length then
    { d with buffer := d.buffer.drop d.cursor, cursor := 0 }
  else d

/-- `WebSocketDecoder::Append`. -/
def append (bytes : Bytes) (d : WebSocketDecoder) : Bool × WebSocketDecoder :=
  let d := d.compactIfUseful
  if bytes.length > d.maxBufferedBytes ∨ d.bufferedBytes > d.maxBufferedBytes - bytes.length then
    (false, { d with limitExceeded := true })
  else (true, { d with buffer := d.buffer ++ bytes })

/-- `WebSocketDecoder::Reset`. -/
def reset (d : WebSocketDecoder) : WebSocketDecoder :=
  { d with
    buffer := [], cursor := 0, fragmented := false, fragmentedPayload := []
    limitExceeded := false }

/-- The part of `Next` behind the cursor's move, for a close frame. -/
def dispatchClose (payload : Bytes) : WsParseStatus × WsEvent × String :=
  match payload with
  | [] => (.eventReady, { type := .close }, "")
  | [_] => (.protocolError, {}, "WebSocket close payload cannot contain one byte")
  | high :: low :: reason =>
      let code := (high.toUInt16 <<< 8) ||| low.toUInt16
      if !isValidCloseCode code || !isValidUtf8 reason then
        (.protocolError, ⟨.close, payload, code⟩, "WebSocket close code or reason is invalid")
      else (.eventReady, ⟨.close, payload, code⟩, "")

/-- The part of `Next` behind the cursor's move.  No result means that `Next` calls itself. -/
def dispatch (fin : Bool) (opcode : WsOpcode) (payload : Bytes) (d : WebSocketDecoder) :
    Option (WsParseStatus × WsEvent × String) × WebSocketDecoder :=
  match opcode with
  | .text =>
      (some (.protocolError, {}, "text messages are not supported; use binary FlatBuffers"), d)
  | .continuation =>
      if !d.fragmented then
        (some (.protocolError, {}, "unexpected WebSocket continuation frame"), d)
      else if payload.length > d.maxMessageBytes - d.fragmentedPayload.length then
        (some (.messageTooLarge, {}, "assembled WebSocket message exceeds configured limit"), d)
      else
        let assembled := d.fragmentedPayload ++ payload
        if !fin then (none, { d with fragmentedPayload := assembled })
        else if d.fragmentedOpcode ≠ .binary then
          (some (.protocolError, {}, "text messages are not supported"),
            { d with fragmented := false, fragmentedPayload := [] })
        else
          (some (.eventReady, { payload := assembled }, ""),
            { d with fragmented := false, fragmentedPayload := [] })
  | .binary =>
      if d.fragmented then
        (some (.protocolError, {}, "new data frame received during fragmented message"), d)
      else if !fin then
        (none,
          { d with fragmented := true, fragmentedOpcode := .binary, fragmentedPayload := payload })
      else (some (.eventReady, { payload := payload }, ""), d)
  | .ping => (some (.eventReady, { type := .ping, payload := payload }, ""), d)
  | .pong => (some (.eventReady, { type := .pong, payload := payload }, ""), d)
  | .close => (some (dispatchClose payload), d)

/-- The decoder with its cursor behind a frame. -/
def advance (totalSize : ℕ) (d : WebSocketDecoder) : WebSocketDecoder :=
  { d with cursor := d.cursor + totalSize }

/-- `Next` without its test of the buffer limit, for at most so many frames. -/
def nextFrame : ℕ → WebSocketDecoder → NextResult
  | 0, d => ⟨.needMoreData, {}, "", d⟩
  | frames + 1, d =>
      match readFrame d.requireMasking d.maxMessageBytes d.available with
      | .needMoreData => ⟨.needMoreData, {}, "", d⟩
      | .failed status error => ⟨status, {}, error, d⟩
      | .frame fin opcode payload totalSize =>
          match (d.advance totalSize).dispatch fin opcode payload with
          | (none, d') => nextFrame frames d'
          | (some (status, event, error), d') => ⟨status, event, error, d'⟩

/-- `WebSocketDecoder::Next`. -/
def next (d : WebSocketDecoder) : NextResult :=
  if d.limitExceeded then
    ⟨.bufferLimitExceeded, {}, "WebSocket receive buffer limit exceeded", d⟩
  else nextFrame d.bufferedBytes d

/-- Calling `Next` until it has no event to report, at most so many times. -/
def drainLoop : ℕ → WebSocketDecoder → List WsEvent × NextResult
  | 0, d => ([], d.next)
  | calls + 1, d =>
      if d.next.status = .eventReady then
        ((d.next.event :: (drainLoop calls d.next.decoder).1),
          (drainLoop calls d.next.decoder).2)
      else ([], d.next)

/-- Calling `Next` until it has no event to report: the events, and the last result. -/
def drain (d : WebSocketDecoder) : List WsEvent × NextResult := drainLoop d.bufferedBytes d

/-! ### Behind a frame -/

/-- Dispatching a frame touches the fragment fields only. -/
theorem dispatch_frame (fin : Bool) (opcode : WsOpcode) (payload : Bytes) (d : WebSocketDecoder) :
    (d.dispatch fin opcode payload).2 =
      { d with
        fragmented := (d.dispatch fin opcode payload).2.fragmented
        fragmentedOpcode := (d.dispatch fin opcode payload).2.fragmentedOpcode
        fragmentedPayload := (d.dispatch fin opcode payload).2.fragmentedPayload } := by
  unfold dispatch
  cases opcode with
  | text => rfl
  | continuation =>
      dsimp only
      split
      · rfl
      · split
        · rfl
        · split
          · rfl
          · split <;> rfl
  | binary =>
      dsimp only
      split
      · rfl
      · split <;> rfl
  | close => rfl
  | ping => rfl
  | pong => rfl

/-- What is left behind a frame. -/
theorem dispatch_advance (totalSize : ℕ) (fin : Bool) (opcode : WsOpcode) (payload : Bytes)
    (d : WebSocketDecoder) :
    let d' := ((d.advance totalSize).dispatch fin opcode payload).2
    d'.available = d.available.drop totalSize ∧ d'.requireMasking = d.requireMasking ∧
      d'.maxMessageBytes = d.maxMessageBytes ∧ d'.limitExceeded = d.limitExceeded := by
  intro d'
  have h : d' = _ := dispatch_frame fin opcode payload (d.advance totalSize)
  refine ⟨?_, ?_, ?_, ?_⟩
  · rw [available, h, available, List.drop_drop]
    rfl
  · rw [h]; rfl
  · rw [h]; rfl
  · rw [h]; rfl

theorem dispatchClose_status (payload : Bytes) : (dispatchClose payload).1 ≠ .needMoreData := by
  unfold dispatchClose
  split
  · simp
  · simp
  · dsimp only
    split <;> simp

/-- A frame is never answered with a request for more data. -/
theorem dispatch_status {d : WebSocketDecoder} {fin : Bool} {opcode : WsOpcode} {payload : Bytes}
    {r : WsParseStatus × WsEvent × String} (h : (d.dispatch fin opcode payload).1 = some r) :
    r.1 ≠ .needMoreData := by
  unfold dispatch at h
  cases opcode with
  | text =>
      obtain rfl := Option.some.inj h
      simp
  | ping =>
      obtain rfl := Option.some.inj h
      simp
  | pong =>
      obtain rfl := Option.some.inj h
      simp
  | close =>
      obtain rfl := Option.some.inj h
      exact dispatchClose_status payload
  | binary =>
      dsimp only at h
      split at h
      · obtain rfl := Option.some.inj h
        simp
      · split at h
        · cases h
        · obtain rfl := Option.some.inj h
          simp
  | continuation =>
      dsimp only at h
      split at h
      · obtain rfl := Option.some.inj h
        simp
      · split at h
        · obtain rfl := Option.some.inj h
          simp
        · split at h
          · cases h
          · split at h
            · obtain rfl := Option.some.inj h
              simp
            · obtain rfl := Option.some.inj h
              simp

theorem length_available (d : WebSocketDecoder) : d.available.length = d.bufferedBytes := by
  rw [available, bufferedBytes, List.length_drop]

/-- Fewer bytes are left behind a frame. -/
theorem bufferedBytes_dispatch {d : WebSocketDecoder} {fin : Bool} {opcode : WsOpcode}
    {payload : Bytes} {totalSize : ℕ}
    (h : readFrame d.requireMasking d.maxMessageBytes d.available =
      .frame fin opcode payload totalSize) :
    ((d.advance totalSize).dispatch fin opcode payload).2.bufferedBytes + 2 ≤ d.bufferedBytes := by
  obtain ⟨htwo, hle⟩ := readFrame_size h
  rw [← length_available, (dispatch_advance totalSize fin opcode payload d).1, List.length_drop,
    length_available]
  rw [length_available] at hle
  omega

theorem readFrame_nil (rm : Bool) (M : ℕ) : readFrame rm M [] = .needMoreData := rfl

theorem available_eq_nil {d : WebSocketDecoder} (h : d.bufferedBytes = 0) : d.available = [] := by
  rw [← List.length_eq_zero_iff, length_available, h]

/-! ### `Next` -/

/-- The bound on the frames does not matter once it covers the bytes that are left. -/
theorem nextFrame_bound {n m : ℕ} {d : WebSocketDecoder} (hn : d.bufferedBytes ≤ n)
    (hm : d.bufferedBytes ≤ m) : nextFrame n d = nextFrame m d := by
  induction n generalizing m d with
  | zero =>
      cases m with
      | zero => rfl
      | succ m => rw [nextFrame, nextFrame, available_eq_nil (Nat.le_zero.1 hn), readFrame_nil]
  | succ n ih =>
      cases m with
      | zero => rw [nextFrame, nextFrame, available_eq_nil (Nat.le_zero.1 hm), readFrame_nil]
      | succ m =>
          rw [nextFrame, nextFrame]
          cases hread : readFrame d.requireMasking d.maxMessageBytes d.available with
          | needMoreData => rfl
          | failed status error => rfl
          | frame fin opcode payload totalSize =>
              have hless := bufferedBytes_dispatch hread
              dsimp only
              cases hd : (d.advance totalSize).dispatch fin opcode payload with
              | mk outcome d' =>
                  rw [hd] at hless
                  cases outcome with
                  | some r => rfl
                  | none => exact ih (by dsimp only at hless; omega) (by dsimp only at hless; omega)

/-- **`Next`, as the source writes it**: the recursion without the bound. -/
theorem next_eq {d : WebSocketDecoder} (hd : d.limitExceeded = false) :
    d.next =
      match readFrame d.requireMasking d.maxMessageBytes d.available with
      | .needMoreData => ⟨.needMoreData, {}, "", d⟩
      | .failed status error => ⟨status, {}, error, d⟩
      | .frame fin opcode payload totalSize =>
          match (d.advance totalSize).dispatch fin opcode payload with
          | (none, d') => d'.next
          | (some (status, event, error), d') => ⟨status, event, error, d'⟩ := by
  rw [next, hd, if_neg (by decide), nextFrame_bound le_rfl (Nat.le_succ _), nextFrame]
  cases hread : readFrame d.requireMasking d.maxMessageBytes d.available with
  | needMoreData => rfl
  | failed status error => rfl
  | frame fin opcode payload totalSize =>
      have hless := bufferedBytes_dispatch hread
      have hlimit := (dispatch_advance totalSize fin opcode payload d).2.2.2
      dsimp only
      cases hdis : (d.advance totalSize).dispatch fin opcode payload with
      | mk outcome d' =>
          rw [hdis] at hless hlimit
          cases outcome with
          | some r => rfl
          | none =>
              dsimp only at hless hlimit ⊢
              rw [next, hlimit, hd, if_neg (by decide)]
              exact nextFrame_bound (by omega) le_rfl

/-- `Next` moves the cursor forward, and by a frame at least when it reports an event. -/
theorem nextFrame_bufferedBytes (n : ℕ) (d : WebSocketDecoder) :
    (nextFrame n d).decoder.bufferedBytes ≤ d.bufferedBytes ∧
      ((nextFrame n d).status = .eventReady →
        (nextFrame n d).decoder.bufferedBytes + 2 ≤ d.bufferedBytes) := by
  induction n generalizing d with
  | zero => simp [nextFrame]
  | succ n ih =>
      rw [nextFrame]
      cases hread : readFrame d.requireMasking d.maxMessageBytes d.available with
      | needMoreData => simp
      | failed status error =>
          rcases readFrame_failed hread with rfl | rfl
          · simp
          · simp
      | frame fin opcode payload totalSize =>
          have hless := bufferedBytes_dispatch hread
          dsimp only
          cases hd : (d.advance totalSize).dispatch fin opcode payload with
          | mk outcome d' =>
              rw [hd] at hless
              dsimp only at hless
              cases outcome with
              | some r => exact ⟨by dsimp only; omega, fun _ => hless⟩
              | none =>
                  obtain ⟨hle, hevent⟩ := ih d'
                  exact ⟨by dsimp only; omega, fun _ => by dsimp only; omega⟩

theorem next_bufferedBytes {d : WebSocketDecoder} (h : d.next.status = .eventReady) :
    d.next.decoder.bufferedBytes + 2 ≤ d.bufferedBytes := by
  unfold next at h ⊢
  split at h
  · cases h
  · next hlimit =>
      rw [if_neg hlimit]
      exact (nextFrame_bufferedBytes _ _).2 h

/-! ### Draining -/

theorem drainLoop_bound {n m : ℕ} {d : WebSocketDecoder} (hn : d.bufferedBytes ≤ n)
    (hm : d.bufferedBytes ≤ m) : drainLoop n d = drainLoop m d := by
  induction n generalizing m d with
  | zero =>
      cases m with
      | zero => rfl
      | succ m =>
          have hstop : d.next.status ≠ .eventReady :=
            fun h => absurd (next_bufferedBytes h) (by omega)
          rw [drainLoop, drainLoop, if_neg hstop]
  | succ n ih =>
      by_cases h : d.next.status = .eventReady
      · have hless := next_bufferedBytes h
        cases m with
        | zero => omega
        | succ m => rw [drainLoop, drainLoop, if_pos h, if_pos h, ih (m := m) (by omega) (by omega)]
      · cases m with
        | zero => rw [drainLoop, drainLoop, if_neg h]
        | succ m => rw [drainLoop, drainLoop, if_neg h, if_neg h]

/-- **Draining**: the events `Next` reports, one after the other. -/
theorem drain_eq (d : WebSocketDecoder) :
    d.drain =
      if d.next.status = .eventReady then
        (d.next.event :: d.next.decoder.drain.1, d.next.decoder.drain.2)
      else ([], d.next) := by
  by_cases h : d.next.status = .eventReady
  · have hless := next_bufferedBytes h
    rw [if_pos h, drain, drainLoop_bound le_rfl (Nat.le_succ _), drainLoop, if_pos h,
      drainLoop_bound (d := d.next.decoder) (m := d.next.decoder.bufferedBytes) (by omega) le_rfl]
    rfl
  · rw [if_neg h, drain, drainLoop_bound le_rfl (Nat.le_succ _), drainLoop, if_neg h]

theorem drain_congr {d d' : WebSocketDecoder} (h : d.next = d'.next) : d.drain = d'.drain := by
  rw [drain_eq d, drain_eq d', h]

end WebSocketDecoder

end RealtimeEngine
