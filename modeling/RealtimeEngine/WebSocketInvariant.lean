/-
**What holds of the WebSocket decoder between any two calls.**

A decoder is called in any order: `Append` with any bytes, `Next`, `BufferedBytes` and `Reset`,
after an error as well as before it.  `Next` calls itself behind a fragment, and the states it calls
itself in are reached too.  In every state that is reached the cursor is in the buffer, the limits
hold, and `Next` reads nothing but the bytes behind the cursor.

The reads are made visible by writing the first half of `Next` once more, with an index for every
byte it looks at: a read outside of the bytes has no result.

Main definitions:

* `RealtimeEngine.WebSocketDecoder.Reachable` — the states that are reached;
* `RealtimeEngine.WebSocketDecoder.Recurses` — `Next` calls itself;
* `RealtimeEngine.frameReads` — the first half of `Next`, byte by byte;
* `RealtimeEngine.WebSocketDecoder.Bounded` — the invariant.

Main results:

* `RealtimeEngine.frameReads_eq` — every byte that is read is there;
* `RealtimeEngine.WebSocketDecoder.limitExceeded_call` — a limit that is exceeded stays so up to the
  next `Reset`;
* `RealtimeEngine.WebSocketDecoder.Reachable.bounded` — every reachable state is bounded;
* `RealtimeEngine.WebSocketDecoder.answers_reset` — a decoder that is reset answers like a new one;
* `RealtimeEngine.WebSocketDecoder.decoder_invariant` — **the invariant of the representation**.
-/

import RealtimeEngine.WebSocketGrammar

set_option relaxedAutoImplicit false
set_option autoImplicit false

namespace RealtimeEngine

/-! ### Every byte that is read -/

/-- `n` bytes from `index` on, read one after the other. -/
def byteReads (data : Bytes) : ℕ → ℕ → Option Bytes
  | _, 0 => some []
  | index, n + 1 => do
      let b ← data[index]?
      let rest ← byteReads data (index + 1) n
      some (b :: rest)

/-- The length field, with an index for every byte. -/
def lengthReads (lengthCode : ℕ) (data : Bytes) : Option LengthRead :=
  if lengthCode = 126 then
    if data.length < 4 then some .needMoreData
    else do
      let high ← data[2]?
      let low ← data[3]?
      let payloadSize := (high.toNat <<< 8) ||| low.toNat
      if payloadSize < 126 then some (.failed "non-canonical 16-bit WebSocket length")
      else some (.length 4 payloadSize)
  else if lengthCode = 127 then
    if data.length < 10 then some .needMoreData
    else do
      let top ← data[2]?
      if top &&& 0x80 ≠ 0 then
        some (.failed "WebSocket 64-bit length has reserved high bit set")
      else do
        let bytes ← byteReads data 2 8
        let payloadSize := bytes.foldl (fun size b => (size <<< 8) ||| b.toNat) 0
        if payloadSize ≤ 65535 then some (.failed "non-canonical 64-bit WebSocket length")
        else some (.length 10 payloadSize)
  else some (.length 2 lengthCode)

/-- The loop that copies the payload, from `index` on. -/
def payloadReads (masked : Bool) (headerSize : ℕ) (data : Bytes) : ℕ → ℕ → Option Bytes
  | _, 0 => some []
  | index, n + 1 => do
      let source ← data[headerSize + index]?
      let mask ← if masked then data[headerSize - 4 + index % 4]? else some 0
      let rest ← payloadReads masked headerSize data (index + 1) n
      some ((if masked then source ^^^ mask else source) :: rest)

/-- The checks behind the length field, and the payload, with an index for every byte. -/
def bodyReads (maxMessageBytes : ℕ) (fin masked : Bool) (opcode : WsOpcode)
    (headerSize payloadSize : ℕ) (data : Bytes) : Option FrameRead :=
  if isControlOpcode opcode && (!fin || payloadSize > 125) then
    some (.failed .protocolError "fragmented or oversized WebSocket control frame")
  else if payloadSize > maxMessageBytes then
    some (.failed .messageTooLarge "WebSocket message exceeds configured limit")
  else
    let headerSize := maskedHeaderSize masked headerSize
    if payloadSize > 2 ^ 64 - 1 - headerSize then
      some (.failed .protocolError "WebSocket frame length overflows address space")
    else if data.length < headerSize + payloadSize then some .needMoreData
    else do
      let payload ← payloadReads masked headerSize data 0 payloadSize
      some (.frame fin opcode payload (headerSize + payloadSize))

/-- The first half of `Next`, with an index for every byte: there is no result where a byte is read
that is not among the unread ones. -/
def frameReads (requireMasking : Bool) (maxMessageBytes : ℕ) (data : Bytes) : Option FrameRead :=
  if data.length < 2 then some .needMoreData
  else do
    let first ← data[0]?
    let second ← data[1]?
    let fin := first &&& 0x80 != 0
    let masked := second &&& 0x80 != 0
    match if first &&& 0x70 ≠ 0 then none else knownOpcode (first &&& 0x0f) with
    | none => some (.failed .protocolError "RSV bits or opcode are invalid")
    | some opcode =>
        if requireMasking && !masked then
          some (.failed .protocolError "client WebSocket frames must be masked")
        else if !requireMasking && masked then
          some (.failed .protocolError "server WebSocket frames must not be masked")
        else do
          let length ← lengthReads (second &&& 0x7f).toNat data
          match length with
          | .needMoreData => some .needMoreData
          | .failed error => some (.failed .protocolError error)
          | .length headerSize payloadSize =>
              bodyReads maxMessageBytes fin masked opcode headerSize payloadSize data

theorem byteReads_eq {data : Bytes} (index n : ℕ) (h : index + n ≤ data.length) :
    byteReads data index n = some ((data.drop index).take n) := by
  induction n generalizing index with
  | zero => rfl
  | succ n ih =>
      have hindex : index < data.length := by omega
      rw [byteReads, List.getElem?_eq_getElem hindex, ih (index + 1) (by omega),
        List.drop_eq_getElem_cons hindex]
      rfl

/-- A byte behind a number that is shifted. -/
theorem shiftLeft_or_toNat (size : ℕ) (b : UInt8) :
    (size <<< 8) ||| b.toNat = size * 256 + b.toNat := by
  rw [← Nat.shiftLeft_add_eq_or_of_lt b.toNat_lt, Nat.shiftLeft_eq]

theorem foldl_shiftLeft_or (bytes : Bytes) :
    bytes.foldl (fun size b => (size <<< 8) ||| b.toNat) 0 = BigEndian.toNat bytes := by
  simp only [shiftLeft_or_toNat, BigEndian.toNat]

theorem lengthReads_eq (lengthCode : ℕ) (data : Bytes) :
    lengthReads lengthCode data = some (readLength lengthCode data) := by
  unfold lengthReads readLength
  by_cases h126 : lengthCode = 126
  · rw [if_pos h126, if_pos h126]
    by_cases hlen : data.length < 4
    · rw [if_pos hlen, if_pos hlen]
    · rw [if_neg hlen, if_neg hlen]
      have hbytes := @byteReads_eq data 2 2 (by omega)
      have hhigh := List.getElem?_eq_getElem (l := data) (i := 2) (by omega)
      have hlow := List.getElem?_eq_getElem (l := data) (i := 3) (by omega)
      simp only [byteReads, hhigh, hlow, Option.bind_eq_bind, Option.bind_some,
        Option.some.injEq] at hbytes
      have htoNat : BigEndian.toNat ((data.drop 2).take 2) =
          (data[2].toNat <<< 8) ||| data[3].toNat := by
        rw [← hbytes, shiftLeft_or_toNat]
        simp [BigEndian.toNat]
      rw [hhigh, hlow, htoNat]
      simp only [Option.bind_eq_bind, Option.bind_some]
      split_ifs <;> rfl
  · rw [if_neg h126, if_neg h126]
    by_cases h127 : lengthCode = 127
    · rw [if_pos h127, if_pos h127]
      by_cases hlen : data.length < 10
      · rw [if_pos hlen, if_pos hlen]
      · rw [if_neg hlen, if_neg hlen]
        have htop := List.getElem?_eq_getElem (l := data) (i := 2) (by omega)
        rw [htop, byteReads_eq _ _ (by omega), List.getD_eq_getElem?_getD, htop, Option.getD_some]
        simp only [Option.bind_eq_bind, Option.bind_some, foldl_shiftLeft_or]
        split_ifs <;> rfl
    · rw [if_neg h127, if_neg h127]

theorem payloadReads_eq {masked : Bool} {headerSize : ℕ} {data : Bytes} {index n : ℕ}
    (hmask : masked = true → 4 ≤ headerSize) (h : headerSize + (index + n) ≤ data.length) :
    payloadReads masked headerSize data index n =
      some (if masked then
        ((data.drop (headerSize + index)).take n).mapIdx fun i b =>
          b ^^^ ((data.drop (headerSize - 4)).take 4).getD ((index + i) % 4) 0
        else (data.drop (headerSize + index)).take n) := by
  induction n generalizing index with
  | zero => cases masked <;> rfl
  | succ n ih =>
      have hindex : headerSize + index < data.length := by omega
      rw [payloadReads, List.getElem?_eq_getElem hindex, ih (by omega),
        List.drop_eq_getElem_cons hindex, List.take_succ_cons]
      cases masked with
      | false => rfl
      | true =>
          have hfour := hmask rfl
          have hmod : index % 4 < 4 := Nat.mod_lt index (by decide)
          have hkey : ((data.drop (headerSize - 4)).take 4).getD (index % 4) 0 =
              (data[headerSize - 4 + index % 4]?).getD 0 := by
            rw [List.getD_eq_getElem?_getD, List.getElem?_take_of_lt hmod, List.getElem?_drop]
          have hshift : ∀ i, index + 1 + i = index + (i + 1) := fun i => by omega
          rw [List.getElem?_eq_getElem (by omega)] at hkey ⊢
          simp only [if_true, Option.bind_eq_bind, Option.bind_some, List.mapIdx_cons,
            Nat.add_zero, hshift, Nat.add_assoc]
          rw [hkey, Option.getD_some]

theorem bodyReads_eq {M : ℕ} {fin masked : Bool} {opcode : WsOpcode}
    {headerSize payloadSize : ℕ} {data : Bytes} :
    bodyReads M fin masked opcode headerSize payloadSize data =
      some (readBody M fin masked opcode headerSize payloadSize data) := by
  unfold bodyReads readBody
  dsimp only
  split_ifs with hcontrol hM hover hlen
  · rfl
  · rfl
  · rfl
  · rfl
  · have hmask : masked = true → 4 ≤ maskedHeaderSize masked headerSize := by
      rintro rfl
      exact Nat.le_add_left 4 headerSize
    rw [payloadReads_eq hmask (by omega)]
    simp only [Nat.add_zero, Nat.zero_add, Option.bind_eq_bind, Option.bind_some]
    rfl

/-- **Every byte that is read is there**, and what is read is the frame. -/
theorem frameReads_eq (rm : Bool) (M : ℕ) (data : Bytes) :
    frameReads rm M data = some (readFrame rm M data) := by
  match data with
  | [] => rfl
  | [_] => rfl
  | first :: second :: tail =>
      rw [frameReads, if_neg (by simp), readFrame]
      simp only [List.getElem?_cons_zero, List.getElem?_cons_succ, Option.bind_eq_bind,
        Option.bind_some, lengthReads_eq]
      cases (if first &&& 0x70 ≠ 0 then none else knownOpcode (first &&& 0x0f)) with
      | none => rfl
      | some opcode =>
          dsimp only
          split_ifs
          · rfl
          · rfl
          · cases readLength (second &&& 0x7f).toNat (first :: second :: tail) with
            | needMoreData => rfl
            | failed error => rfl
            | length headerSize payloadSize => exact bodyReads_eq

namespace WebSocketDecoder

/-! ### Calls -/

/-- A call of one of the member functions. -/
inductive Call
  | append (bytes : Bytes)
  | next
  | bufferedBytes
  | reset
  deriving DecidableEq, Repr

/-- What a call returns and writes for its caller. -/
inductive Answer
  | appended (accepted : Bool)
  | parsed (status : WsParseStatus) (event : WsEvent) (error : String)
  | buffered (bytes : ℕ)
  | done
  deriving DecidableEq, Repr

/-- One call. -/
def call (c : Call) (d : WebSocketDecoder) : Answer × WebSocketDecoder :=
  match c with
  | .append bytes => (.appended (d.append bytes).1, (d.append bytes).2)
  | .next => (.parsed d.next.status d.next.event d.next.error, d.next.decoder)
  | .bufferedBytes => (.buffered d.bufferedBytes, d)
  | .reset => (.done, d.reset)

/-- What the calls return, one after the other. -/
def answers : List Call → WebSocketDecoder → List Answer
  | [], _ => []
  | c :: cs, d => (d.call c).1 :: answers cs (d.call c).2

/-- `Next` in the state `d` calls itself in the state `d'`. -/
def Recurses (d d' : WebSocketDecoder) : Prop :=
  d.limitExceeded = false ∧ ∃ fin opcode payload totalSize,
    readFrame d.requireMasking d.maxMessageBytes d.available =
      .frame fin opcode payload totalSize ∧
    (d.advance totalSize).dispatch fin opcode payload = (none, d')

/-- The states in which a member function is called, by its caller or by itself. -/
inductive Reachable (M B : ℕ) (rm : Bool) : WebSocketDecoder → Prop
  | fresh : Reachable M B rm (fresh M B rm)
  | call {d : WebSocketDecoder} (hd : Reachable M B rm d) (c : Call) :
      Reachable M B rm (d.call c).2
  | recurse {d d' : WebSocketDecoder} (hd : Reachable M B rm d) (h : d.Recurses d') :
      Reachable M B rm d'

/-- The recursion of `Next`: fewer bytes are left, and the result is the one of the inner call. -/
theorem Recurses.next {d d' : WebSocketDecoder} (h : d.Recurses d') :
    d'.bufferedBytes < d.bufferedBytes ∧ d.next = d'.next := by
  obtain ⟨hlimit, fin, opcode, payload, totalSize, hread, hdispatch⟩ := h
  have hless := bufferedBytes_dispatch hread
  have hnext := next_eq hlimit
  rw [hdispatch] at hless
  rw [hread] at hnext
  dsimp only at hless hnext
  rw [hdispatch] at hnext
  exact ⟨by omega, hnext⟩

/-- **`Next` terminates**: it cannot call itself for ever. -/
theorem recurses_wellFounded : WellFounded fun d' d : WebSocketDecoder => d.Recurses d' :=
  Subrelation.wf (fun h => h.next.1) (measure bufferedBytes).wf

theorem nextFrame_limitExceeded (n : ℕ) (d : WebSocketDecoder) :
    (nextFrame n d).decoder.limitExceeded = d.limitExceeded := by
  induction n generalizing d with
  | zero => rfl
  | succ n ih =>
      rw [nextFrame]
      cases readFrame d.requireMasking d.maxMessageBytes d.available with
      | needMoreData => rfl
      | failed status error => rfl
      | frame fin opcode payload totalSize =>
          have hlimit := (dispatch_advance totalSize fin opcode payload d).2.2.2
          dsimp only
          cases hdispatch : (d.advance totalSize).dispatch fin opcode payload with
          | mk outcome d' =>
              rw [hdispatch] at hlimit
              cases outcome with
              | none => exact (ih d').trans hlimit
              | some r => exact hlimit

/-- The limit is exceeded from an `Append` that fails up to the next `Reset`. -/
theorem limitExceeded_call (c : Call) (d : WebSocketDecoder) :
    (d.call c).2.limitExceeded = true ↔
      (d.call c).1 = .appended false ∨ d.limitExceeded = true ∧ c ≠ .reset := by
  cases c with
  | append bytes =>
      have hcompact : d.compactIfUseful.limitExceeded = d.limitExceeded := by
        unfold compactIfUseful
        split_ifs <;> rfl
      simp only [call, append]
      split
      · simp
      · simp [hcompact]
  | next =>
      simp only [call, next]
      split
      · simp
      · simp [nextFrame_limitExceeded]
  | bufferedBytes => simp [call]
  | reset => simp [call, reset]

/-! ### The limits -/

/-- The decoder buffers no more than it may. -/
structure Within (B : ℕ) (d : WebSocketDecoder) : Prop where
  limit : d.maxBufferedBytes = B
  cursor : d.cursor ≤ d.buffer.length
  bufferedBytes : d.bufferedBytes ≤ B

/-- The bytes behind the cursor, and those of the message that is assembled. -/
def held (d : WebSocketDecoder) : ℕ := d.bufferedBytes + d.fragmentedPayload.length

variable {B : ℕ} {d : WebSocketDecoder}

theorem Within.compactIfUseful (h : d.Within B) :
    d.compactIfUseful.Within B ∧ d.compactIfUseful.bufferedBytes = d.bufferedBytes ∧
      d.compactIfUseful.fragmentedPayload = d.fragmentedPayload := by
  have hcursor := h.cursor
  have hbuffered := h.bufferedBytes
  unfold WebSocketDecoder.compactIfUseful
  split_ifs with hzero hend hfar
  · exact ⟨h, rfl, rfl⟩
  · refine ⟨⟨h.limit, le_rfl, Nat.zero_le _⟩, ?_, rfl⟩
    simp only [WebSocketDecoder.bufferedBytes, hend, List.length_nil]
    omega
  · refine ⟨⟨h.limit, Nat.zero_le _, ?_⟩, ?_, rfl⟩
    · simpa [WebSocketDecoder.bufferedBytes] using hbuffered
    · simp [WebSocketDecoder.bufferedBytes]
  · exact ⟨h, rfl, rfl⟩

/-- `Append` adds its bytes, or it fails and adds nothing. -/
theorem Within.append (h : d.Within B) (bytes : Bytes) :
    (d.append bytes).2.Within B ∧ (d.append bytes).2.fragmentedPayload = d.fragmentedPayload ∧
      ((d.append bytes).1 = false → (d.append bytes).2.bufferedBytes = d.bufferedBytes) := by
  obtain ⟨hcompact, hbuffered, hfragment⟩ := h.compactIfUseful
  unfold WebSocketDecoder.append
  dsimp only
  split
  · exact ⟨⟨hcompact.limit, hcompact.cursor, hcompact.bufferedBytes⟩, hfragment,
      fun _ => hbuffered⟩
  · next hroom =>
      refine ⟨⟨hcompact.limit, ?_, ?_⟩, hfragment, (by intro hfails; cases hfails)⟩
      · rw [List.length_append]
        exact hcompact.cursor.trans (Nat.le_add_right _ _)
      · have hlimit := hcompact.limit
        have hcursor := hcompact.cursor
        simp only [WebSocketDecoder.bufferedBytes, List.length_append] at hroom ⊢
        omega

/-- The payload of a frame is a part of it. -/
theorem length_readPayload_le (masked : Bool) (headerSize payloadSize : ℕ) (data : Bytes) :
    (readPayload masked headerSize payloadSize data).length ≤ payloadSize := by
  unfold readPayload
  cases masked with
  | true => simp [unmask]
  | false => simp

theorem readFrame_payload {rm : Bool} {M : ℕ} {data : Bytes} {fin : Bool} {opcode : WsOpcode}
    {payload : Bytes} {totalSize : ℕ}
    (h : readFrame rm M data = .frame fin opcode payload totalSize) :
    payload.length ≤ totalSize := by
  unfold readFrame at h
  split at h
  · dsimp only at h
    split at h
    · cases h
    · split_ifs at h
      split at h
      · cases h
      · cases h
      · obtain ⟨-, -, -, -, -, -, rfl, rfl⟩ := readBody_frame_iff.1 h
        exact (length_readPayload_le _ _ _ _).trans (Nat.le_add_left _ _)
  · cases h

/-- A frame adds its payload to the message that is assembled, at most. -/
theorem dispatch_fragmentedPayload (fin : Bool) (opcode : WsOpcode) (payload : Bytes)
    (d : WebSocketDecoder) :
    (d.dispatch fin opcode payload).2.fragmentedPayload.length ≤
      d.fragmentedPayload.length + payload.length := by
  unfold dispatch
  cases opcode with
  | continuation =>
      dsimp only
      split_ifs <;> simp
  | binary =>
      dsimp only
      split_ifs <;> simp
  | _ => exact Nat.le_add_right _ _

/-- What is held behind a frame was held before it. -/
theorem Within.dispatch (h : d.Within B) {fin : Bool} {opcode : WsOpcode} {payload : Bytes}
    {totalSize : ℕ}
    (hread : readFrame d.requireMasking d.maxMessageBytes d.available =
      .frame fin opcode payload totalSize) :
    ((d.advance totalSize).dispatch fin opcode payload).2.Within B ∧
      ((d.advance totalSize).dispatch fin opcode payload).2.held ≤ d.held := by
  obtain ⟨-, hsize⟩ := readFrame_size hread
  have hpayload := readFrame_payload hread
  have hfragment := dispatch_fragmentedPayload fin opcode payload (d.advance totalSize)
  have hframe := dispatch_frame fin opcode payload (d.advance totalSize)
  have hbuffered : ((d.advance totalSize).dispatch fin opcode payload).2.bufferedBytes =
      d.bufferedBytes - totalSize := by
    rw [← length_available, (dispatch_advance totalSize fin opcode payload d).1, List.length_drop,
      length_available]
  have hbound := h.bufferedBytes
  rw [length_available] at hsize
  refine ⟨⟨?_, ?_, ?_⟩, ?_⟩
  · rw [hframe]
    exact h.limit
  · rw [hframe]
    show d.cursor + totalSize ≤ d.buffer.length
    have hcursor := h.cursor
    rw [WebSocketDecoder.bufferedBytes] at hsize
    omega
  · omega
  · have hsame : (d.advance totalSize).fragmentedPayload = d.fragmentedPayload := rfl
    rw [hsame] at hfragment
    rw [held, held, hbuffered]
    omega

/-- **`Next` holds no more than was held before it.** -/
theorem Within.nextFrame (h : d.Within B) (n : ℕ) :
    (nextFrame n d).decoder.Within B ∧ (nextFrame n d).decoder.held ≤ d.held := by
  induction n generalizing d with
  | zero => exact ⟨h, le_rfl⟩
  | succ n ih =>
      rw [WebSocketDecoder.nextFrame]
      cases hread : readFrame d.requireMasking d.maxMessageBytes d.available with
      | needMoreData => exact ⟨h, le_rfl⟩
      | failed status error => exact ⟨h, le_rfl⟩
      | frame fin opcode payload totalSize =>
          obtain ⟨hwithin, hheld⟩ := h.dispatch hread
          dsimp only
          cases hdispatch : (d.advance totalSize).dispatch fin opcode payload with
          | mk outcome d' =>
              rw [hdispatch] at hwithin hheld
              cases outcome with
              | some r => exact ⟨hwithin, hheld⟩
              | none =>
                  obtain ⟨hwithin', hheld'⟩ := ih hwithin
                  exact ⟨hwithin', hheld'.trans hheld⟩

theorem Within.next (h : d.Within B) :
    d.next.decoder.Within B ∧ d.next.decoder.held ≤ d.held := by
  unfold WebSocketDecoder.next
  split
  · exact ⟨h, le_rfl⟩
  · exact h.nextFrame _



/-- **The invariant**, for a decoder with the limits `M` and `B`. -/
structure Bounded (M B : ℕ) (rm : Bool) (d : WebSocketDecoder) : Prop where
  message : d.maxMessageBytes = M
  masking : d.requireMasking = rm
  within : d.Within B
  fragment : d.fragmentedPayload.length ≤ M
  /-- What has been read stays in the buffer up to 4095 bytes, or up to as many as are unread. -/
  buffer : d.buffer.length ≤ B + max 4095 B

variable {M : ℕ} {rm : Bool}

theorem bounded_fresh (M B : ℕ) (rm : Bool) : (fresh M B rm).Bounded M B rm :=
  ⟨rfl, rfl, ⟨rfl, le_rfl, Nat.zero_le _⟩, Nat.zero_le _, Nat.zero_le _⟩

theorem Bounded.reset (h : d.Bounded M B rm) : d.reset.Bounded M B rm :=
  ⟨h.message, h.masking, ⟨h.within.limit, le_rfl, Nat.zero_le _⟩, Nat.zero_le _, Nat.zero_le _⟩

/-- The part of the buffer that has been read, behind a compaction. -/
theorem compactIfUseful_cursor (d : WebSocketDecoder) :
    d.compactIfUseful.cursor ≤ 4095 ∨
      d.compactIfUseful.cursor * 2 < d.compactIfUseful.buffer.length := by
  unfold compactIfUseful
  split_ifs with hzero hend hfar
  · exact Or.inl (hzero.trans_le (Nat.zero_le _))
  · exact Or.inl (Nat.zero_le _)
  · exact Or.inl (Nat.zero_le _)
  · omega

theorem compactIfUseful_params (d : WebSocketDecoder) :
    d.compactIfUseful.maxMessageBytes = d.maxMessageBytes ∧
      d.compactIfUseful.requireMasking = d.requireMasking ∧
      d.compactIfUseful.buffer.length ≤ d.buffer.length := by
  unfold compactIfUseful
  split_ifs with hzero hend hfar
  · exact ⟨rfl, rfl, le_rfl⟩
  · exact ⟨rfl, rfl, Nat.zero_le _⟩
  · exact ⟨rfl, rfl, by rw [List.length_drop]; omega⟩
  · exact ⟨rfl, rfl, le_rfl⟩

/-- `Append` compacts before it adds, so that little of what has been read is still there. -/
theorem Bounded.append (h : d.Bounded M B rm) (bytes : Bytes) :
    (d.append bytes).2.Bounded M B rm := by
  obtain ⟨hwithin, hfragment, -⟩ := h.within.append bytes
  obtain ⟨hcompact, -, -⟩ := h.within.compactIfUseful
  obtain ⟨hmessage, hmasking, hshorter⟩ := compactIfUseful_params d
  have hcursor := compactIfUseful_cursor d
  have hbuffered := hcompact.bufferedBytes
  have hbuffer := h.buffer
  have hlimit := hcompact.limit
  have hparams : (d.append bytes).2.maxMessageBytes = M ∧
      (d.append bytes).2.requireMasking = rm ∧
      (d.append bytes).2.buffer.length ≤ B + max 4095 B := by
    unfold WebSocketDecoder.append
    dsimp only
    split
    · exact ⟨hmessage.trans h.message, hmasking.trans h.masking, hshorter.trans hbuffer⟩
    · next hroom =>
        refine ⟨hmessage.trans h.message, hmasking.trans h.masking, ?_⟩
        simp only [WebSocketDecoder.bufferedBytes, List.length_append] at hroom hbuffered ⊢
        omega
  exact ⟨hparams.1, hparams.2.1, hwithin, hfragment ▸ h.fragment, hparams.2.2⟩

theorem readFrame_payload_le {rm : Bool} {M : ℕ} {data : Bytes} {fin : Bool} {opcode : WsOpcode}
    {payload : Bytes} {totalSize : ℕ}
    (h : readFrame rm M data = .frame fin opcode payload totalSize) : payload.length ≤ M := by
  obtain ⟨f, rest, -, -, hfits, -, -, rfl, -⟩ := readFrame_iff.1 h
  exact hfits.1

/-- The message that is assembled stays within the limit. -/
theorem dispatch_fragment_le {d : WebSocketDecoder}
    (hd : d.fragmentedPayload.length ≤ d.maxMessageBytes) (fin : Bool) (opcode : WsOpcode)
    {payload : Bytes} (hsize : payload.length ≤ d.maxMessageBytes) :
    (d.dispatch fin opcode payload).2.fragmentedPayload.length ≤ d.maxMessageBytes := by
  unfold WebSocketDecoder.dispatch
  cases opcode with
  | continuation =>
      dsimp only
      split_ifs with hfrag hlarge hfin hop
      · exact hd
      · exact hd
      · simp only [List.length_append]
        omega
      · exact Nat.zero_le _
      · exact Nat.zero_le _
  | binary =>
      dsimp only
      split_ifs
      · exact hd
      · exact hsize
      · exact hd
  | _ => exact hd

/-- What is reported about a frame is within the limit. -/
theorem dispatch_event_le {d : WebSocketDecoder}
    (hd : d.fragmentedPayload.length ≤ d.maxMessageBytes) (fin : Bool) (opcode : WsOpcode)
    {payload : Bytes} (hsize : payload.length ≤ d.maxMessageBytes)
    {r : WsParseStatus × WsEvent × String} (h : (d.dispatch fin opcode payload).1 = some r) :
    r.2.1.payload.length ≤ d.maxMessageBytes := by
  have hnone : (({} : WsEvent).payload).length ≤ d.maxMessageBytes := Nat.zero_le _
  unfold WebSocketDecoder.dispatch at h
  cases opcode with
  | text =>
      obtain rfl := Option.some.inj h
      exact hnone
  | ping =>
      obtain rfl := Option.some.inj h
      exact hsize
  | pong =>
      obtain rfl := Option.some.inj h
      exact hsize
  | close =>
      obtain rfl := Option.some.inj h
      match payload with
      | [] => exact hnone
      | [_] => exact hnone
      | high :: low :: reason =>
          rw [dispatchClose]
          split <;> exact hsize
  | binary =>
      dsimp only at h
      split_ifs at h
      · obtain rfl := Option.some.inj h
        exact hnone
      · obtain rfl := Option.some.inj h
        exact hsize
  | continuation =>
      dsimp only at h
      split_ifs at h with hfrag hlarge hfin hop
      · obtain rfl := Option.some.inj h
        exact hnone
      · obtain rfl := Option.some.inj h
        exact hnone
      · obtain rfl := Option.some.inj h
        exact hnone
      · obtain rfl := Option.some.inj h
        -- the last fragment: the check against the rest of the limit has passed
        simp only [List.length_append]
        omega

/-- **A frame keeps the invariant**, whatever becomes of it. -/
theorem Bounded.dispatch (h : d.Bounded M B rm) {fin : Bool} {opcode : WsOpcode} {payload : Bytes}
    {totalSize : ℕ}
    (hread : readFrame d.requireMasking d.maxMessageBytes d.available =
      .frame fin opcode payload totalSize) :
    ((d.advance totalSize).dispatch fin opcode payload).2.Bounded M B rm := by
  have hpayload := readFrame_payload_le hread
  have hframe := dispatch_frame fin opcode payload (d.advance totalSize)
  have hmessage := h.message
  refine ⟨?_, ?_, (h.within.dispatch hread).1, ?_, ?_⟩
  · rw [hframe]
    exact h.message
  · rw [hframe]
    exact h.masking
  · have hfragment : (d.advance totalSize).fragmentedPayload.length ≤
        (d.advance totalSize).maxMessageBytes := h.fragment.trans hmessage.ge
    exact (dispatch_fragment_le hfragment fin opcode hpayload).trans hmessage.le
  · rw [hframe]
    exact h.buffer

/-- `Next` keeps the invariant, and what it reports is within the limit. -/
theorem Bounded.nextFrame (h : d.Bounded M B rm) (n : ℕ) :
    (nextFrame n d).decoder.Bounded M B rm ∧ (nextFrame n d).event.payload.length ≤ M := by
  induction n generalizing d with
  | zero => exact ⟨h, Nat.zero_le _⟩
  | succ n ih =>
      rw [WebSocketDecoder.nextFrame]
      cases hread : readFrame d.requireMasking d.maxMessageBytes d.available with
      | needMoreData => exact ⟨h, Nat.zero_le _⟩
      | failed status error => exact ⟨h, Nat.zero_le _⟩
      | frame fin opcode payload totalSize =>
          have hbounded := h.dispatch hread
          have hfragment : (d.advance totalSize).fragmentedPayload.length ≤
              (d.advance totalSize).maxMessageBytes := h.fragment.trans h.message.ge
          have hevent := fun r => dispatch_event_le (r := r) hfragment fin opcode
            (readFrame_payload_le hread)
          dsimp only
          cases hdispatch : (d.advance totalSize).dispatch fin opcode payload with
          | mk outcome d' =>
              rw [hdispatch] at hbounded hevent
              cases outcome with
              | none => exact ih hbounded
              | some r => exact ⟨hbounded, (hevent r rfl).trans h.message.le⟩

theorem Bounded.next (h : d.Bounded M B rm) :
    d.next.decoder.Bounded M B rm ∧ d.next.event.payload.length ≤ M := by
  unfold WebSocketDecoder.next
  split
  · exact ⟨h, Nat.zero_le _⟩
  · exact h.nextFrame _

theorem Bounded.call (h : d.Bounded M B rm) (c : Call) : (d.call c).2.Bounded M B rm := by
  cases c with
  | append bytes => exact h.append bytes
  | next => exact h.next.1
  | bufferedBytes => exact h
  | reset => exact h.reset

/-- **Every reachable state is bounded.** -/
theorem Reachable.bounded (h : Reachable M B rm d) : d.Bounded M B rm := by
  induction h with
  | fresh => exact bounded_fresh M B rm
  | call _ c ih => exact ih.call c
  | recurse _ hrec ih =>
      obtain ⟨-, fin, opcode, payload, totalSize, hread, hdispatch⟩ := hrec
      have hbounded := ih.dispatch hread
      rwa [hdispatch] at hbounded

/-! ### A decoder that is reset -/

/-- The two decoders differ at most in an opcode that is not looked at. -/
def Resembles (d d' : WebSocketDecoder) : Prop :=
  d' = d ∨ d.fragmented = false ∧ ∃ opcode, d' = { d with fragmentedOpcode := opcode }

theorem Resembles.refl (d : WebSocketDecoder) : d.Resembles d := Or.inl rfl

/-- `Append` refuses its bytes. -/
def Refuses (d : WebSocketDecoder) (bytes : Bytes) : Prop :=
  bytes.length > d.maxBufferedBytes ∨ d.bufferedBytes > d.maxBufferedBytes - bytes.length

theorem append_refuses {d : WebSocketDecoder} {bytes : Bytes} (h : d.compactIfUseful.Refuses bytes) :
    d.append bytes = (false, { d.compactIfUseful with limitExceeded := true }) :=
  if_pos h

theorem append_accepts {d : WebSocketDecoder} {bytes : Bytes}
    (h : ¬ d.compactIfUseful.Refuses bytes) :
    d.append bytes =
      (true, { d.compactIfUseful with buffer := d.compactIfUseful.buffer ++ bytes }) :=
  if_neg h

/-- `Append` does not look at the opcode. -/
theorem append_opcode (d : WebSocketDecoder) (opcode : WsOpcode) (bytes : Bytes) :
    ({ d with fragmentedOpcode := opcode } : WebSocketDecoder).append bytes =
        ((d.append bytes).1, { (d.append bytes).2 with fragmentedOpcode := opcode }) ∧
      (d.append bytes).2.fragmented = d.fragmented := by
  have hcompact : ({ d with fragmentedOpcode := opcode } : WebSocketDecoder).compactIfUseful =
      { d.compactIfUseful with fragmentedOpcode := opcode } ∧
      d.compactIfUseful.fragmented = d.fragmented := by
    unfold compactIfUseful
    dsimp only
    split_ifs <;> exact ⟨rfl, rfl⟩
  by_cases hroom : d.compactIfUseful.Refuses bytes
  · have hroom' : ({ d with fragmentedOpcode := opcode } : WebSocketDecoder).compactIfUseful.Refuses
        bytes := by
      rw [hcompact.1]
      exact hroom
    rw [append_refuses hroom', append_refuses hroom, hcompact.1]
    exact ⟨rfl, hcompact.2⟩
  · have hroom' : ¬ ({ d with fragmentedOpcode := opcode } :
        WebSocketDecoder).compactIfUseful.Refuses bytes := by
      rw [hcompact.1]
      exact hroom
    rw [append_accepts hroom', append_accepts hroom, hcompact.1]
    exact ⟨rfl, hcompact.2⟩

theorem Resembles.append {d d' : WebSocketDecoder} (h : d.Resembles d') (bytes : Bytes) :
    (d'.append bytes).1 = (d.append bytes).1 ∧
      (d.append bytes).2.Resembles (d'.append bytes).2 := by
  rcases h with rfl | ⟨hfrag, opcode, rfl⟩
  · exact ⟨rfl, .refl _⟩
  · obtain ⟨happend, hsame⟩ := append_opcode d opcode bytes
    rw [happend]
    exact ⟨rfl, Or.inr ⟨hsame.trans hfrag, opcode, rfl⟩⟩

theorem Resembles.dispatch {d d' : WebSocketDecoder} (h : d.Resembles d') (fin : Bool)
    (opcode : WsOpcode) (payload : Bytes) :
    (d'.dispatch fin opcode payload).1 = (d.dispatch fin opcode payload).1 ∧
      (d.dispatch fin opcode payload).2.Resembles (d'.dispatch fin opcode payload).2 := by
  rcases h with rfl | ⟨hfrag, stored, rfl⟩
  · exact ⟨rfl, .refl _⟩
  · obtain ⟨M, B, rm, buffer, cursor, fragmented, former, fragment, limit⟩ := d
    obtain rfl : fragmented = false := hfrag
    cases opcode with
    | binary =>
        cases fin with
        -- a first fragment stores its own opcode
        | false => exact ⟨rfl, .refl _⟩
        | true => exact ⟨rfl, Or.inr ⟨rfl, stored, rfl⟩⟩
    | _ => exact ⟨rfl, Or.inr ⟨rfl, stored, rfl⟩⟩

theorem Resembles.nextFrame {d d' : WebSocketDecoder} (h : d.Resembles d') (n : ℕ) :
    let r := WebSocketDecoder.nextFrame n d
    let r' := WebSocketDecoder.nextFrame n d'
    r'.status = r.status ∧ r'.event = r.event ∧ r'.error = r.error ∧
      r.decoder.Resembles r'.decoder := by
  induction n generalizing d d' with
  | zero => exact ⟨rfl, rfl, rfl, h⟩
  | succ n ih =>
      -- the first half of `Next` does not look at the stored opcode
      have hread : readFrame d'.requireMasking d'.maxMessageBytes d'.available =
          readFrame d.requireMasking d.maxMessageBytes d.available := by
        rcases h with rfl | ⟨-, stored, rfl⟩ <;> rfl
      dsimp only
      rw [WebSocketDecoder.nextFrame, WebSocketDecoder.nextFrame, hread]
      cases readFrame d.requireMasking d.maxMessageBytes d.available with
      | needMoreData => exact ⟨rfl, rfl, rfl, h⟩
      | failed status error => exact ⟨rfl, rfl, rfl, h⟩
      | frame fin opcode payload totalSize =>
          have hadvance : (d.advance totalSize).Resembles (d'.advance totalSize) := by
            rcases h with rfl | ⟨hfrag, stored, rfl⟩
            · exact .refl _
            · exact Or.inr ⟨hfrag, stored, rfl⟩
          obtain ⟨houtcome, hbehind⟩ := hadvance.dispatch fin opcode payload
          dsimp only
          cases hdispatch : (d.advance totalSize).dispatch fin opcode payload with
          | mk outcome d₁ =>
              cases hdispatch' : (d'.advance totalSize).dispatch fin opcode payload with
              | mk outcome' d₁' =>
                  rw [hdispatch, hdispatch'] at houtcome hbehind
                  dsimp only at houtcome hbehind
                  subst houtcome
                  cases outcome' with
                  | none => exact ih hbehind
                  | some r => exact ⟨rfl, rfl, rfl, hbehind⟩

theorem Resembles.call {d d' : WebSocketDecoder} (h : d.Resembles d') (c : Call) :
    (d'.call c).1 = (d.call c).1 ∧ (d.call c).2.Resembles (d'.call c).2 := by
  cases c with
  | append bytes =>
      obtain ⟨hanswer, hbehind⟩ := h.append bytes
      exact ⟨congrArg Answer.appended hanswer, hbehind⟩
  | next =>
      have hlimit : d'.limitExceeded = d.limitExceeded ∧ d'.bufferedBytes = d.bufferedBytes := by
        rcases h with rfl | ⟨-, stored, rfl⟩ <;> exact ⟨rfl, rfl⟩
      unfold WebSocketDecoder.call WebSocketDecoder.next
      dsimp only
      rw [hlimit.1, hlimit.2]
      split_ifs
      · exact ⟨rfl, h⟩
      · obtain ⟨hstatus, hevent, herror, hbehind⟩ := h.nextFrame d.bufferedBytes
        exact ⟨by rw [hstatus, hevent, herror], hbehind⟩
  | bufferedBytes =>
      rcases h with rfl | ⟨hfrag, stored, rfl⟩
      · exact ⟨rfl, .refl _⟩
      · exact ⟨rfl, Or.inr ⟨hfrag, stored, rfl⟩⟩
  | reset =>
      rcases h with rfl | ⟨hfrag, stored, rfl⟩
      · exact ⟨rfl, .refl _⟩
      · exact ⟨rfl, Or.inr ⟨rfl, stored, rfl⟩⟩

/-- Decoders that resemble each other answer alike. -/
theorem Resembles.answers {d d' : WebSocketDecoder} (h : d.Resembles d') (cs : List Call) :
    answers cs d' = answers cs d := by
  induction cs generalizing d d' with
  | nil => rfl
  | cons c cs ih =>
      obtain ⟨hanswer, hbehind⟩ := h.call c
      rw [WebSocketDecoder.answers, WebSocketDecoder.answers, hanswer, ih hbehind]

/-- **A decoder that is reset answers like a new one.** -/
theorem answers_reset (h : d.Bounded M B rm) (cs : List Call) :
    answers cs d.reset = answers cs (fresh M B rm) := by
  obtain ⟨hmessage, hmasking, ⟨hlimit, -, -⟩, -, -⟩ := h
  subst hmessage hmasking hlimit
  have hresembles : (fresh d.maxMessageBytes d.maxBufferedBytes d.requireMasking).Resembles d.reset :=
    Or.inr ⟨rfl, d.fragmentedOpcode, rfl⟩
  exact hresembles.answers cs

/-- **The invariant of the representation.**  In every state in which a member function of a decoder
with the limits `M` and `B` is called, by its caller or by itself: the cursor is in the buffer, the
unread bytes, the assembled message and the buffer are within their bounds, every byte that `Next`
reads is an unread one, what it reports is no longer than a message, it calls itself with fewer
unread bytes only, and so it terminates; and a decoder that is reset answers every later call as a
new one does. -/
theorem decoder_invariant (M B : ℕ) (rm : Bool) (d : WebSocketDecoder)
    (h : Reachable M B rm d) :
    d.cursor ≤ d.buffer.length ∧ d.bufferedBytes ≤ B ∧ d.fragmentedPayload.length ≤ M ∧
      d.buffer.length ≤ B + max 4095 B ∧
      frameReads rm M d.available = some (readFrame rm M d.available) ∧
      d.next.event.payload.length ≤ M ∧
      (∀ d', d.Recurses d' → d'.bufferedBytes < d.bufferedBytes ∧ d.next = d'.next) ∧
      WellFounded (fun d' d : WebSocketDecoder => d.Recurses d') ∧
      ∀ cs, answers cs d.reset = answers cs (fresh M B rm) := by
  have hbounded := h.bounded
  exact ⟨hbounded.within.cursor, hbounded.within.bufferedBytes, hbounded.fragment, hbounded.buffer,
    frameReads_eq rm M d.available, hbounded.next.2, fun d' hd' => hd'.next, recurses_wellFounded,
    answers_reset hbounded⟩

/-- A decoder that has read a first fragment. -/
theorem decoder_invariant_fragment :
    let d := ((fresh 2 8 false).append [0x02, 0x01, 0x61]).2.next.decoder
    d.fragmentedPayload.length ≤ 2 ∧ d.buffer.length ≤ 8 + max 4095 8 ∧
      ∀ cs, answers cs d.reset = answers cs (fresh 2 8 false) := by
  intro d
  obtain ⟨-, -, hfragment, hbuffer, -, -, -, -, hreset⟩ := decoder_invariant 2 8 false d
    (.call (.call .fresh (.append [0x02, 0x01, 0x61])) .next)
  exact ⟨hfragment, hbuffer, hreset⟩

end WebSocketDecoder

end RealtimeEngine
