/-
**The grammar of the WebSocket decoder, and that the decoder accepts exactly it.**

The grammar is written from the outside, as an encoder: a frame is its four ingredients
(`RealtimeEngine.Frame`), `RealtimeEngine.Frame.encode` is its one spelling on the wire, and
`RealtimeEngine.Meaning` says which lists of frames are legal and which events they mean.  The state
between two frames is the payload of the message that is being assembled, if there is one; control
frames pass through it.

Main definitions:

* `RealtimeEngine.Frame`, `RealtimeEngine.Frame.encode` — frames and their spelling;
* `RealtimeEngine.Frame.Legal`, `RealtimeEngine.Meaning` — legal frames, and legal sequences with
  their events.

Main results:

* `RealtimeEngine.readFrame_iff` — the first half of `Next` finds a frame exactly where one is
  spelled;
* `RealtimeEngine.WebSocketDecoder.drain_iff` — a decoder in any state between two frames;
* `RealtimeEngine.WebSocketDecoder.accepts_grammar` — **a fresh decoder accepts exactly the
  grammar, with the right events**.
-/

import RealtimeEngine.WebSocketDecoder

set_option relaxedAutoImplicit false
set_option autoImplicit false

namespace RealtimeEngine

/-! ### Frames -/

/-- A masking key. -/
abbrev MaskKey := { key : Bytes // key.length = 4 }

/-- A frame.  There is a key exactly when the mask bit is set. -/
structure Frame where
  fin : Bool
  opcode : WsOpcode
  maskKey : Option MaskKey
  payload : Bytes

/-- The first byte of a frame: FIN, three reserved bits that are zero, and the opcode. -/
def firstByte (fin : Bool) (opcode : WsOpcode) : UInt8 :=
  (if fin then 0x80 else 0) ||| opcode.code

/-- The second byte of a frame: the mask bit and a length code below 128. -/
def secondByte (masked : Bool) (lengthCode : ℕ) : UInt8 :=
  (if masked then 0x80 else 0) ||| UInt8.ofNat lengthCode

/-- The second byte with the length behind it, in the shortest of the three forms. -/
def lengthField (masked : Bool) (n : ℕ) : Bytes :=
  if n < 126 then [secondByte masked n]
  else if n < 65536 then secondByte masked 126 :: BigEndian.ofNat 2 n
  else secondByte masked 127 :: BigEndian.ofNat 8 n

/-- The byte of the key that masks the byte at this position of a payload. -/
def MaskKey.byteAt (key : MaskKey) (i : ℕ) : UInt8 :=
  key.1.get ⟨i % 4, by rw [key.2]; exact Nat.mod_lt i (by decide)⟩

/-- The masked payload: each byte is added, bit by bit, to its byte of the key. -/
def MaskKey.mask (key : MaskKey) (payload : Bytes) : Bytes :=
  List.ofFn fun i : Fin payload.length => payload.get i ^^^ key.byteAt i

/-- The payload as it is sent, behind its key. -/
def maskedBody (maskKey : Option MaskKey) (payload : Bytes) : Bytes :=
  match maskKey with
  | none => payload
  | some key => key.1 ++ key.mask payload

/-- The bytes of a frame. -/
def Frame.encode (f : Frame) : Bytes :=
  firstByte f.fin f.opcode ::
    (lengthField f.maskKey.isSome f.payload.length ++ maskedBody f.maskKey f.payload)

/-- The frame fits the decoder: its size, the 63 bits of the length, and what control frames
require. -/
def Frame.Fits (M : ℕ) (f : Frame) : Prop :=
  f.payload.length ≤ M ∧ f.payload.length < 2 ^ 63 ∧
    (isControlOpcode f.opcode = true → f.fin = true ∧ f.payload.length ≤ 125)

/-! ### Legal sequences -/

/-- The status code of a close payload, 1000 if there is none. -/
def closeCodeOf : Bytes → UInt16
  | high :: low :: _ => UInt16.ofNat (BigEndian.toNat [high, low])
  | _ => 1000

/-- A close payload is empty, or an allowed code with a well-formed reason. -/
def CloseLegal (payload : Bytes) : Prop :=
  payload = [] ∨ ∃ high low reason, payload = high :: low :: reason ∧
    isValidCloseCode (closeCodeOf payload) = true ∧ WellFormedUtf8 reason

/-- A legal frame for a decoder with these parameters. -/
def Frame.Legal (M : ℕ) (rm : Bool) (f : Frame) : Prop :=
  f.maskKey.isSome = rm ∧ f.Fits M ∧ f.opcode ≠ .text ∧
    (f.opcode = .close → CloseLegal f.payload)

/-- The event of a control frame. -/
def Frame.controlEvent (f : Frame) : WsEvent :=
  match f.opcode with
  | .ping => { type := .ping, payload := f.payload }
  | .pong => { type := .pong, payload := f.payload }
  | _ => { type := .close, payload := f.payload, closeCode := closeCodeOf f.payload }

/-- What a frame means where `o` is the message that is being assembled: the event it completes,
if any, and the message that is being assembled behind it. -/
inductive FrameMeaning (M : ℕ) (rm : Bool) :
    Option Bytes → Frame → Option WsEvent → Option Bytes → Prop
  | control {o : Option Bytes} {f : Frame} (hf : f.Legal M rm)
      (hc : isControlOpcode f.opcode = true) : FrameMeaning M rm o f (some f.controlEvent) o
  | whole {f : Frame} (hf : f.Legal M rm) (hop : f.opcode = .binary) (hfin : f.fin = true) :
      FrameMeaning M rm none f (some { payload := f.payload }) none
  | first {f : Frame} (hf : f.Legal M rm) (hop : f.opcode = .binary) (hfin : f.fin = false) :
      FrameMeaning M rm none f none (some f.payload)
  | middle {acc : Bytes} {f : Frame} (hf : f.Legal M rm) (hop : f.opcode = .continuation)
      (hfin : f.fin = false) (hM : acc.length + f.payload.length ≤ M) :
      FrameMeaning M rm (some acc) f none (some (acc ++ f.payload))
  | last {acc : Bytes} {f : Frame} (hf : f.Legal M rm) (hop : f.opcode = .continuation)
      (hfin : f.fin = true) (hM : acc.length + f.payload.length ≤ M) :
      FrameMeaning M rm (some acc) f (some { payload := acc ++ f.payload }) none

/-- Legal sequences of frames and the events they mean. -/
inductive Meaning (M : ℕ) (rm : Bool) : Option Bytes → List Frame → List WsEvent → Prop
  | done (o : Option Bytes) : Meaning M rm o [] []
  | frame {o o' : Option Bytes} {f : Frame} {fs : List Frame} {e : Option WsEvent}
      {es : List WsEvent} (hf : FrameMeaning M rm o f e o') (hfs : Meaning M rm o' fs es) :
      Meaning M rm o (f :: fs) (e.toList ++ es)

/-! ### The bytes of a header -/

set_option maxRecDepth 4000 in
theorem firstByte_iff (b : UInt8) (fin : Bool) (opcode : WsOpcode) :
    ((b &&& 0x80 != 0) = fin ∧ b &&& 0x70 = 0 ∧ knownOpcode (b &&& 0x0f) = some opcode) ↔
      b = firstByte fin opcode := by
  revert b
  cases fin <;> cases opcode <;> exact BigEndian.forall_byte (by decide)

set_option maxRecDepth 4000 in
theorem secondByte_bits (b : UInt8) :
    b = secondByte (b &&& 0x80 != 0) (b &&& 0x7f).toNat ∧ (b &&& 0x7f).toNat < 128 := by
  revert b
  exact BigEndian.forall_byte (by decide)

set_option maxRecDepth 4000 in
theorem bits_secondByte (masked : Bool) {n : ℕ} (h : n < 128) :
    (secondByte masked n &&& 0x80 != 0) = masked ∧ (secondByte masked n &&& 0x7f).toNat = n := by
  revert n
  cases masked <;> decide

set_option maxRecDepth 4000 in
theorem highBit_iff (b : UInt8) : b &&& 0x80 = 0 ↔ b.toNat < 128 := by
  revert b
  exact BigEndian.forall_byte (by decide)

/-- Eight bytes without the high bit are a number of 63 bits. -/
theorem toNat_lt_iff_highBit {b : UInt8} {bytes : Bytes} (h : bytes.length = 7) :
    BigEndian.toNat (b :: bytes) < 2 ^ 63 ↔ b &&& 0x80 = 0 := by
  have hlt := BigEndian.toNat_lt bytes
  rw [highBit_iff, BigEndian.toNat_cons, h]
  rw [h] at hlt
  omega

/-- The length field is read exactly where one is spelled, and it is read in its shortest form. -/
theorem readLength_iff {first second : UInt8} {tail : Bytes} {headerSize n : ℕ} :
    readLength (second &&& 0x7f).toNat (first :: second :: tail) = .length headerSize n ↔
      n < 2 ^ 63 ∧ headerSize = 1 + (lengthField (second &&& 0x80 != 0) n).length ∧
        ∃ rest, second :: tail = lengthField (second &&& 0x80 != 0) n ++ rest := by
  obtain ⟨hsecond, hcode⟩ := secondByte_bits second
  have hdrop : List.drop 2 (first :: second :: tail) = tail := rfl
  constructor
  · intro h
    unfold readLength at h
    simp only [hdrop] at h
    split at h
    · -- the code 126: two bytes hold the length
      next h126 =>
        split at h
        · cases h
        · next hlen =>
            split at h
            · cases h
            · next hcanonical =>
                obtain ⟨rfl, rfl⟩ := LengthRead.length.inj h
                have hext : (tail.take 2).length = 2 := by
                  simp only [List.length_cons] at hlen
                  rw [List.length_take]
                  omega
                have hlt := BigEndian.toNat_lt (tail.take 2)
                have hof := BigEndian.ofNat_toNat (tail.take 2)
                rw [hext] at hlt hof
                rw [lengthField, if_neg hcanonical, if_pos (by omega), hof]
                refine ⟨by omega, by simp [hext], tail.drop 2, ?_⟩
                rw [List.cons_append, List.take_append_drop, ← h126, ← hsecond]
    · split at h
      · -- the code 127: eight bytes hold it, the first of them below 128
        next h127 =>
          split at h
          · cases h
          · next hlen =>
              split at h
              · cases h
              · next hhigh =>
                  split at h
                  · cases h
                  · next hcanonical =>
                      obtain ⟨rfl, rfl⟩ := LengthRead.length.inj h
                      have hext : (tail.take 8).length = 8 := by
                        simp only [List.length_cons] at hlen
                        rw [List.length_take]
                        omega
                      have hof := BigEndian.ofNat_toNat (tail.take 8)
                      rw [hext] at hof
                      rw [lengthField, if_neg (by omega), if_neg (by omega), hof]
                      refine ⟨?_, by simp [hext], tail.drop 8, ?_⟩
                      · cases tail with
                        | nil => simp at hext
                        | cons b tail =>
                            rw [List.take_succ_cons,
                              toNat_lt_iff_highBit (by simpa using hext)]
                            simpa using hhigh
                      · rw [List.cons_append, List.take_append_drop, ← h127, ← hsecond]
      · -- the byte is the length itself
        next h126 h127 =>
          obtain ⟨rfl, rfl⟩ := LengthRead.length.inj h
          rw [lengthField, if_pos (by omega), ← hsecond]
          exact ⟨by omega, rfl, tail, rfl⟩
  · rintro ⟨hn, rfl, rest, hspell⟩
    generalize hmasked : (second &&& 0x80 != 0) = masked at hspell ⊢
    unfold readLength lengthField
    unfold lengthField at hspell
    simp only [hdrop]
    -- the spelling is canonical, so each length has one code
    split at hspell
    · next hshort =>
        obtain ⟨rfl, -⟩ := List.cons.inj hspell
        rw [(bits_secondByte masked (by omega)).2, if_neg (by omega), if_neg (by omega),
          if_pos hshort]
        rfl
    · next hshort =>
        split at hspell
        · next hmedium =>
            rw [List.cons_append] at hspell
            obtain ⟨rfl, rfl⟩ := List.cons.inj hspell
            have hlen : (BigEndian.ofNat 2 n).length = 2 := BigEndian.length_ofNat 2 n
            have htake : (BigEndian.ofNat 2 n ++ rest).take 2 = BigEndian.ofNat 2 n := by
              rw [List.take_append_of_le_length hlen.ge, List.take_of_length_le hlen.le]
            rw [(bits_secondByte masked (by omega)).2, if_pos rfl, if_neg (by simp), htake,
              BigEndian.toNat_ofNat (by omega), if_neg hshort, if_neg hshort, if_pos hmedium]
            simp
        · next hmedium =>
            rw [List.cons_append] at hspell
            obtain ⟨rfl, rfl⟩ := List.cons.inj hspell
            have hlen : (BigEndian.ofNat 8 n).length = 8 := BigEndian.length_ofNat 8 n
            have htake : (BigEndian.ofNat 8 n ++ rest).take 8 = BigEndian.ofNat 8 n := by
              rw [List.take_append_of_le_length hlen.ge, List.take_of_length_le hlen.le]
            have htoNat : BigEndian.toNat (BigEndian.ofNat 8 n) = n :=
              BigEndian.toNat_ofNat (by omega)
            have hhigh : (BigEndian.ofNat 8 n ++ rest).getD 0 0 &&& 0x80 = 0 := by
              cases hext : BigEndian.ofNat 8 n with
              | nil => rw [hext] at hlen; simp at hlen
              | cons b bytes =>
                  rw [hext] at hlen htoNat
                  exact (toNat_lt_iff_highBit (by simpa using hlen)).1 (htoNat.symm ▸ hn)
            rw [(bits_secondByte masked (by omega)).2, if_neg (by omega), if_pos rfl,
              if_neg (by simp), if_neg (by simpa using hhigh), htake, htoNat,
              if_neg (by omega), if_neg hshort, if_neg hmedium]
            simp

/-! ### The payload -/

@[simp] theorem length_unmask (key source : Bytes) : (unmask key source).length = source.length := by
  simp [unmask]

/-- Masking twice with one key is no masking. -/
@[simp] theorem unmask_unmask (key source : Bytes) : unmask key (unmask key source) = source := by
  refine List.ext_getElem (by simp) fun i h₁ h₂ => ?_
  simp only [unmask, List.getElem_mapIdx]
  rw [UInt8.xor_assoc, UInt8.xor_self, UInt8.xor_zero]

/-- The decoder takes the mask off with the operation that has put it on. -/
@[simp] theorem MaskKey.mask_eq (key : MaskKey) (payload : Bytes) :
    key.mask payload = unmask key.1 payload := by
  refine List.ext_getElem (by simp [MaskKey.mask]) fun i h₁ h₂ => ?_
  have hi : i % 4 < key.1.length := by
    rw [key.2]
    exact Nat.mod_lt i (by decide)
  simp [MaskKey.mask, MaskKey.byteAt, unmask, hi]

theorem length_maskedBody (maskKey : Option MaskKey) (payload : Bytes) :
    (maskedBody maskKey payload).length =
      (if maskKey.isSome then 4 else 0) + payload.length := by
  cases maskKey with
  | none => simp [maskedBody]
  | some key => simp [maskedBody, key.2]

theorem maskedHeaderSize_eq (masked : Bool) (headerSize : ℕ) :
    maskedHeaderSize masked headerSize = headerSize + (if masked then 4 else 0) := by
  cases masked <;> rfl

/-- Behind a header the payload that was spelled is read. -/
theorem readPayload_maskedBody (head : Bytes) (maskKey : Option MaskKey) (payload rest : Bytes) :
    readPayload maskKey.isSome (maskedHeaderSize maskKey.isSome head.length) payload.length
      (head ++ (maskedBody maskKey payload ++ rest)) = payload := by
  cases maskKey with
  | none => simp [readPayload, maskedHeaderSize, maskedBody]
  | some key =>
      have hlen : head.length + 4 = (head ++ key.1).length := by simp [key.2]
      simp only [readPayload, maskedHeaderSize, maskedBody, MaskKey.mask_eq, Option.isSome_some,
        if_true, Nat.add_sub_cancel]
      have hmask : List.take 4 (key.1 ++ (unmask key.1 payload ++ rest)) = key.1 :=
        List.take_left' key.2
      have hsource : List.take payload.length (unmask key.1 payload ++ rest) =
          unmask key.1 payload := by
        rw [← length_unmask key.1 payload, List.take_left]
      rw [List.append_assoc, List.drop_left, hmask, ← List.append_assoc head, hlen, List.drop_left,
        hsource, unmask_unmask]

/-- Every payload that is read was spelled, with some key. -/
theorem exists_maskedBody {head rest : Bytes} {masked : Bool} {n : ℕ}
    (h : maskedHeaderSize masked head.length + n ≤ (head ++ rest).length) :
    ∃ maskKey rest', maskKey.isSome = masked ∧
      (readPayload masked (maskedHeaderSize masked head.length) n (head ++ rest)).length = n ∧
      rest = maskedBody maskKey
        (readPayload masked (maskedHeaderSize masked head.length) n (head ++ rest)) ++ rest' := by
  rw [List.length_append, maskedHeaderSize_eq] at h
  cases masked with
  | false =>
      refine ⟨none, rest.drop n, rfl, ?_, ?_⟩
      · simp [readPayload, maskedHeaderSize] at h ⊢
        omega
      · simp [readPayload, maskedHeaderSize, maskedBody]
  | true =>
      simp only [if_true] at h
      have hdrop : List.drop (head.length + 4) (head ++ rest) = rest.drop 4 := by
        rw [List.drop_append]
        simp
      have hkey : (rest.take 4).length = 4 := by
        rw [List.length_take]
        omega
      simp only [readPayload, maskedHeaderSize, if_true, Nat.add_sub_cancel, List.drop_left, hdrop]
      refine ⟨some ⟨rest.take 4, hkey⟩, (rest.drop 4).drop n, rfl, ?_, ?_⟩
      · simp
        omega
      · rw [maskedBody, MaskKey.mask_eq, unmask_unmask, List.append_assoc, List.take_append_drop,
          List.take_append_drop]

/-! ### One frame -/

/-- The length field starts with the second byte, which has the mask bit. -/
theorem exists_lengthField (masked : Bool) (n : ℕ) :
    ∃ second ext, lengthField masked n = second :: ext ∧ (second &&& 0x80 != 0) = masked := by
  unfold lengthField
  split
  · exact ⟨_, _, rfl, (bits_secondByte masked (by omega)).1⟩
  · split
    · exact ⟨_, _, rfl, (bits_secondByte masked (by decide)).1⟩
    · exact ⟨_, _, rfl, (bits_secondByte masked (by decide)).1⟩

theorem length_encode (f : Frame) :
    f.encode.length = maskedHeaderSize f.maskKey.isSome
      (1 + (lengthField f.maskKey.isSome f.payload.length).length) + f.payload.length := by
  rw [Frame.encode, List.length_cons, List.length_append, length_maskedBody, maskedHeaderSize_eq]
  omega

/-- What the first half of `Next` checks, one after the other. -/
theorem readFrame_cons_iff {rm : Bool} {M : ℕ} {first second : UInt8} {tail : Bytes} {fin : Bool}
    {opcode : WsOpcode} {payload : Bytes} {totalSize : ℕ} :
    readFrame rm M (first :: second :: tail) = .frame fin opcode payload totalSize ↔
      first = firstByte fin opcode ∧ (second &&& 0x80 != 0) = rm ∧
        ∃ headerSize n,
          readLength (second &&& 0x7f).toNat (first :: second :: tail) = .length headerSize n ∧
          readBody M fin rm opcode headerSize n (first :: second :: tail) =
            .frame fin opcode payload totalSize := by
  rw [readFrame, ← firstByte_iff]
  by_cases hrsv : first &&& 0x70 = 0
  · rw [if_neg (not_not.2 hrsv)]
    cases hop : knownOpcode (first &&& 0x0f) with
    | none => simp
    | some op =>
        generalize hm : (second &&& 0x80 != 0) = masked
        by_cases hrm : masked = rm
        · subst hrm
          simp only [Bool.and_not_self, Bool.not_and_self, Bool.false_eq_true, if_false]
          cases readLength (second &&& 0x7f).toNat (first :: second :: tail) with
          | needMoreData => simp
          | failed error => simp
          | length headerSize n =>
              constructor
              · intro h
                obtain ⟨-, -, -, -, rfl, rfl, -, -⟩ := readBody_frame_iff.1 h
                exact ⟨⟨rfl, hrsv, rfl⟩, trivial, headerSize, n, rfl, h⟩
              · rintro ⟨⟨rfl, -, hop'⟩, -, _, _, heq, h⟩
                obtain ⟨rfl, rfl⟩ := LengthRead.length.inj heq
                obtain rfl := Option.some.inj hop'
                exact h
        · -- wrong mask bit: both error branches refuse the frame
          cases rm <;> cases masked <;> simp at hrm ⊢
  · simp [hrsv]

/-- **A frame is found exactly where one is spelled.** -/
theorem readFrame_iff {rm : Bool} {M : ℕ} {data : Bytes} {fin : Bool} {opcode : WsOpcode}
    {payload : Bytes} {totalSize : ℕ} :
    readFrame rm M data = .frame fin opcode payload totalSize ↔
      ∃ f : Frame, ∃ rest, data = f.encode ++ rest ∧ f.maskKey.isSome = rm ∧ f.Fits M ∧
        f.fin = fin ∧ f.opcode = opcode ∧ f.payload = payload ∧ totalSize = f.encode.length := by
  constructor
  · intro h
    obtain ⟨first, second, tail, rfl⟩ : ∃ first second tail, data = first :: second :: tail := by
      cases data with
      | nil => cases h
      | cons first data =>
          cases data with
          | nil => cases h
          | cons second tail => exact ⟨first, second, tail, rfl⟩
    obtain ⟨rfl, hmasked, headerSize, n, hlength, hbody⟩ := readFrame_cons_iff.1 h
    obtain ⟨hn, rfl, rest₁, htail⟩ := readLength_iff.1 hlength
    rw [hmasked] at htail hbody
    obtain ⟨hcontrol, hM, -, hlen, -, -, hpayload, rfl⟩ := readBody_frame_iff.1 hbody
    -- the header is the first byte with the length field
    have hdata : firstByte fin opcode :: second :: tail =
        (firstByte fin opcode :: lengthField rm n) ++ rest₁ := by
      rw [htail, List.cons_append]
    have hhead : 1 + (lengthField rm n).length =
        (firstByte fin opcode :: lengthField rm n).length := by
      rw [List.length_cons, Nat.add_comm]
    rw [hdata, hhead] at hlen hpayload
    obtain ⟨maskKey, rest', hkey, hsize, hrest⟩ := exists_maskedBody hlen
    rw [← hpayload] at hsize hrest
    have hencode : (⟨fin, opcode, maskKey, payload⟩ : Frame).encode =
        (firstByte fin opcode :: lengthField rm n) ++ maskedBody maskKey payload := by
      rw [Frame.encode, hkey, hsize, List.cons_append]
    refine ⟨⟨fin, opcode, maskKey, payload⟩, rest', ?_, hkey, ⟨?_, ?_, ?_⟩, rfl, rfl, rfl, ?_⟩
    · rw [hdata, hencode, List.append_assoc, ← hrest]
    · exact hsize.trans_le hM
    · exact hsize.trans_lt hn
    · exact fun hc => ⟨(hcontrol hc).1, hsize.trans_le (hcontrol hc).2⟩
    · rw [length_encode, hkey, hsize]
  · rintro ⟨f, rest, rfl, rfl, ⟨hM, hn, hcontrol⟩, rfl, rfl, rfl, rfl⟩
    obtain ⟨second, ext, hfield, hmasked⟩ :=
      exists_lengthField f.maskKey.isSome f.payload.length
    have hdata : f.encode ++ rest = firstByte f.fin f.opcode :: second ::
        (ext ++ (maskedBody f.maskKey f.payload ++ rest)) := by
      rw [Frame.encode, hfield]
      simp
    have hhead : f.encode ++ rest = (firstByte f.fin f.opcode ::
        lengthField f.maskKey.isSome f.payload.length) ++
          (maskedBody f.maskKey f.payload ++ rest) := by
      rw [Frame.encode]
      simp
    have hlength : readLength (second &&& 0x7f).toNat (f.encode ++ rest) =
        .length (1 + (lengthField f.maskKey.isSome f.payload.length).length)
          f.payload.length := by
      rw [hdata]
      refine readLength_iff.2 ⟨hn, by rw [hmasked],
        maskedBody f.maskKey f.payload ++ rest, ?_⟩
      rw [hmasked, hfield, List.cons_append]
    have hheadLength : 1 + (lengthField f.maskKey.isSome f.payload.length).length =
        (firstByte f.fin f.opcode :: lengthField f.maskKey.isSome f.payload.length).length := by
      rw [List.length_cons, Nat.add_comm]
    rw [hdata, readFrame_cons_iff, ← hdata]
    refine ⟨rfl, hmasked, _, _, hlength, readBody_frame_iff.2
      ⟨hcontrol, hM, ?_, ?_, rfl, rfl, ?_, length_encode f⟩⟩
    · have hfieldLength : (lengthField f.maskKey.isSome f.payload.length).length ≤ 9 := by
        unfold lengthField
        split
        · simp
        · split <;> simp
      rw [maskedHeaderSize_eq]
      split <;> omega
    · rw [List.length_append, length_encode]
      omega
    · rw [hheadLength, hhead]
      exact (readPayload_maskedBody _ _ _ _).symm

/-! ### What `Next` does with a frame -/

theorem closeCode_eq (high low : UInt8) :
    (high.toUInt16 <<< 8) ||| low.toUInt16 = UInt16.ofNat (BigEndian.toNat [high, low]) := by
  have hlow := low.toNat_lt
  have hhigh := high.toNat_lt
  refine UInt16.toNat.inj ?_
  have hshift : high.toNat <<< 8 % 65536 = high.toNat <<< 8 := by
    rw [Nat.shiftLeft_eq]
    omega
  have hor : high.toNat <<< 8 ||| low.toNat = high.toNat * 256 + low.toNat := by
    rw [← Nat.shiftLeft_add_eq_or_of_lt (by omega), Nat.shiftLeft_eq]
  have htoNat : BigEndian.toNat [high, low] = high.toNat * 256 + low.toNat := by
    simp [BigEndian.toNat]
  simp [hshift, hor, htoNat]
  omega

namespace WebSocketDecoder

/-- The message that is being assembled. -/
def assembling (d : WebSocketDecoder) : Option Bytes :=
  if d.fragmented then some d.fragmentedPayload else none

theorem assembling_eq_none {d : WebSocketDecoder} :
    d.assembling = none ↔ d.fragmented = false := by
  unfold assembling
  cases d.fragmented <;> simp

theorem assembling_eq_some {d : WebSocketDecoder} {acc : Bytes} :
    d.assembling = some acc ↔ d.fragmented = true ∧ d.fragmentedPayload = acc := by
  unfold assembling
  cases d.fragmented <;> simp

/-- The states a decoder is in between two frames. -/
structure Ready (d : WebSocketDecoder) : Prop where
  limit : d.limitExceeded = false
  fragment : d.fragmented = true →
    d.fragmentedOpcode = .binary ∧ d.fragmentedPayload.length ≤ d.maxMessageBytes

/-- The event `Next` reports for a frame; no event is one of the answers, an error is not. -/
def reported : Option (WsParseStatus × WsEvent × String) → Option (Option WsEvent)
  | none => some none
  | some (.eventReady, event, _) => some (some event)
  | some _ => none

theorem dispatchClose_iff (payload : Bytes) (e : Option WsEvent) :
    reported (some (dispatchClose payload)) = some e ↔
      CloseLegal payload ∧
        e = some { type := .close, payload := payload, closeCode := closeCodeOf payload } := by
  match payload with
  | [] => exact ⟨fun h => ⟨Or.inl rfl, (Option.some.inj h).symm⟩, fun h => by rw [h.2]; rfl⟩
  -- a lone byte is no status code
  | [b] => simp [dispatchClose, reported, CloseLegal]
  | high :: low :: reason =>
      have hcode : closeCodeOf (high :: low :: reason) =
          (high.toUInt16 <<< 8) ||| low.toUInt16 := (closeCode_eq high low).symm
      have hlegal : CloseLegal (high :: low :: reason) ↔
          isValidCloseCode ((high.toUInt16 <<< 8) ||| low.toUInt16) = true ∧
            isValidUtf8 reason = true := by
        rw [isValidUtf8_iff, CloseLegal, hcode]
        constructor
        · rintro (h | ⟨h, l, r, heq, hc, hu⟩)
          · cases h
          · obtain ⟨rfl, rfl, rfl⟩ : high = h ∧ low = l ∧ reason = r := by simpa using heq
            exact ⟨hc, hu⟩
        · rintro ⟨hc, hu⟩
          exact Or.inr ⟨high, low, reason, rfl, hc, hu⟩
      rw [hlegal, hcode]
      unfold dispatchClose
      dsimp only
      by_cases hbad : (!isValidCloseCode ((high.toUInt16 <<< 8) ||| low.toUInt16) ||
          !isValidUtf8 reason) = true
      · rw [if_pos hbad]
        simp only [Bool.or_eq_true, Bool.not_eq_true'] at hbad
        refine ⟨fun h => (by cases h), ?_⟩
        rintro ⟨⟨hc, hu⟩, -⟩
        rcases hbad with h | h
        · rw [hc] at h
          cases h
        · rw [hu] at h
          cases h
      · rw [if_neg hbad]
        simp only [Bool.or_eq_true, Bool.not_eq_true', not_or, Bool.not_eq_false] at hbad
        exact ⟨fun h => ⟨hbad, (Option.some.inj h).symm⟩, fun h => by rw [h.2]; rfl⟩

/-- **A frame is dispatched as the grammar says**, in every state between two frames. -/
theorem dispatch_iff {d : WebSocketDecoder} (hd : d.Ready) {f : Frame}
    (hkey : f.maskKey.isSome = d.requireMasking) (hfits : f.Fits d.maxMessageBytes)
    (e : Option WsEvent) (o : Option Bytes) :
    FrameMeaning d.maxMessageBytes d.requireMasking d.assembling f e o ↔
      reported (d.dispatch f.fin f.opcode f.payload).1 = some e ∧
        (d.dispatch f.fin f.opcode f.payload).2.assembling = o := by
  have hlegal : f.opcode ≠ .text → (f.opcode = .close → CloseLegal f.payload) →
      f.Legal d.maxMessageBytes d.requireMasking := fun ht hc => ⟨hkey, hfits, ht, hc⟩
  obtain ⟨fin, opcode, maskKey, payload⟩ := f
  dsimp only at hlegal ⊢
  constructor
  · -- one case for each rule of the meaning
    intro h
    generalize hasm : d.assembling = o₀ at h
    cases h with
    | control hf hc =>
        cases opcode with
        | ping => exact ⟨rfl, hasm⟩
        | pong => exact ⟨rfl, hasm⟩
        | close => exact ⟨(dispatchClose_iff payload _).2 ⟨hf.2.2.2 rfl, rfl⟩, hasm⟩
        | _ => cases hc
    | whole hf hop hfin =>
        dsimp only at hop hfin
        subst hop hfin
        have hfrag := assembling_eq_none.1 hasm
        simp [WebSocketDecoder.dispatch, hfrag, reported, hasm]
    | first hf hop hfin =>
        dsimp only at hop hfin
        subst hop hfin
        have hfrag := assembling_eq_none.1 hasm
        simp [WebSocketDecoder.dispatch, hfrag, reported, assembling_eq_some]
    | middle hf hop hfin hM =>
        dsimp only at hop hfin hM
        subst hop hfin
        obtain ⟨hfrag, rfl⟩ := assembling_eq_some.1 hasm
        have hsize : ¬ payload.length > d.maxMessageBytes - d.fragmentedPayload.length := by omega
        simp [WebSocketDecoder.dispatch, hfrag, hsize, reported, assembling_eq_some]
    | last hf hop hfin hM =>
        dsimp only at hop hfin hM
        subst hop hfin
        obtain ⟨hfrag, rfl⟩ := assembling_eq_some.1 hasm
        have hsize : ¬ payload.length > d.maxMessageBytes - d.fragmentedPayload.length := by omega
        simp [WebSocketDecoder.dispatch, hfrag, hsize, (hd.fragment hfrag).1, reported,
          assembling_eq_none]
  · -- one case for each opcode; a refused frame reports nothing
    rintro ⟨he, rfl⟩
    cases opcode with
    | text => cases he
    | ping =>
        obtain rfl := Option.some.inj he
        exact .control (hlegal (by decide) (by simp)) rfl
    | pong =>
        obtain rfl := Option.some.inj he
        exact .control (hlegal (by decide) (by simp)) rfl
    | close =>
        obtain ⟨hclose, rfl⟩ := (dispatchClose_iff payload e).1 he
        exact .control (hlegal (by decide) fun _ => hclose) rfl
    | binary =>
        have hf := hlegal (by decide) (by simp)
        cases hfrag : d.fragmented with
        | true => simp [WebSocketDecoder.dispatch, hfrag, reported] at he
        | false =>
            rw [assembling_eq_none.2 hfrag]
            cases fin with
            | true =>
                simp only [WebSocketDecoder.dispatch, hfrag, Bool.false_eq_true, if_false,
                  Bool.not_true, reported, Option.some.injEq] at he ⊢
                rw [assembling_eq_none.2 hfrag, ← he]
                exact .whole hf rfl rfl
            | false =>
                simp only [WebSocketDecoder.dispatch, hfrag, Bool.false_eq_true, if_false,
                  Bool.not_false, if_true, reported, Option.some.injEq] at he ⊢
                subst he
                exact .first hf rfl rfl
    | continuation =>
        have hf := hlegal (by decide) (by simp)
        cases hfrag : d.fragmented with
        | false => simp [WebSocketDecoder.dispatch, hfrag, reported] at he
        | true =>
            obtain ⟨hop, hlen⟩ := hd.fragment hfrag
            rw [assembling_eq_some.2 ⟨hfrag, rfl⟩]
            by_cases hsize : payload.length > d.maxMessageBytes - d.fragmentedPayload.length
            · simp [WebSocketDecoder.dispatch, hfrag, hsize, reported] at he
            · cases fin with
              | true =>
                  simp only [WebSocketDecoder.dispatch, hfrag, Bool.not_true, Bool.false_eq_true,
                    if_false, hsize, hop, ne_eq, not_true_eq_false, reported,
                    Option.some.injEq] at he ⊢
                  subst he
                  exact .last hf rfl rfl (by dsimp only; omega)
              | false =>
                  simp only [WebSocketDecoder.dispatch, hfrag, Bool.not_true, Bool.false_eq_true,
                    if_false, hsize, Bool.not_false, if_true, reported, Option.some.injEq] at he ⊢
                  subst he
                  exact .middle hf rfl rfl (by dsimp only; omega)

/-- Dispatching keeps the decoder between two frames. -/
theorem Ready.dispatch {d : WebSocketDecoder} (hd : d.Ready) (fin : Bool) (opcode : WsOpcode)
    (payload : Bytes) (hsize : payload.length ≤ d.maxMessageBytes) :
    (d.dispatch fin opcode payload).2.Ready := by
  unfold WebSocketDecoder.dispatch
  cases opcode with
  | text => exact hd
  | close => exact hd
  | ping => exact hd
  | pong => exact hd
  | continuation =>
      dsimp only
      split
      · exact hd
      · next hfrag =>
          simp only [Bool.not_eq_true', Bool.not_eq_false] at hfrag
          obtain ⟨hop, hlen⟩ := hd.fragment hfrag
          split
          · exact hd
          · split
            · refine ⟨hd.limit, fun _ => ⟨hop, ?_⟩⟩
              simp only [List.length_append]
              omega
            · split
              · exact ⟨hd.limit, fun h => by cases h⟩
              · exact ⟨hd.limit, fun h => by cases h⟩
  | binary =>
      dsimp only
      split
      · exact hd
      · split
        · exact ⟨hd.limit, fun _ => ⟨rfl, hsize⟩⟩
        · exact hd

/-- Draining behind a frame that is not refused. -/
theorem drain_frame {d : WebSocketDecoder} (hlimit : d.limitExceeded = false) {fin : Bool}
    {opcode : WsOpcode} {payload : Bytes} {totalSize : ℕ}
    (hread : readFrame d.requireMasking d.maxMessageBytes d.available =
      .frame fin opcode payload totalSize) {e : Option WsEvent}
    (he : reported ((d.advance totalSize).dispatch fin opcode payload).1 = some e) :
    let d' := ((d.advance totalSize).dispatch fin opcode payload).2
    d.drain = (e.toList ++ d'.drain.1, d'.drain.2) := by
  intro d'
  have hnext := next_eq hlimit
  rw [hread] at hnext
  dsimp only at hnext
  cases hdis : (d.advance totalSize).dispatch fin opcode payload with
  | mk outcome d'' =>
      have hd' : d' = d'' := congrArg Prod.snd hdis
      rw [hdis] at hnext he
      cases outcome with
      | none =>
          obtain rfl := Option.some.inj he
          rw [hd']
          exact drain_congr hnext
      | some r =>
          obtain ⟨status, event, error⟩ := r
          cases status with
          | eventReady =>
              obtain rfl := Option.some.inj he
              rw [hd', drain_eq, hnext, if_pos rfl]
              rfl
          | _ => cases he

/-- A frame that is refused ends the draining with an error. -/
theorem drain_refused {d : WebSocketDecoder} (hlimit : d.limitExceeded = false) {fin : Bool}
    {opcode : WsOpcode} {payload : Bytes} {totalSize : ℕ}
    (hread : readFrame d.requireMasking d.maxMessageBytes d.available =
      .frame fin opcode payload totalSize)
    (he : reported ((d.advance totalSize).dispatch fin opcode payload).1 = none) :
    d.drain.2.status ≠ .needMoreData := by
  have hnext := next_eq hlimit
  rw [hread] at hnext
  dsimp only at hnext
  cases hdis : (d.advance totalSize).dispatch fin opcode payload with
  | mk outcome d' =>
      rw [hdis] at hnext he
      cases outcome with
      | none => cases he
      | some r =>
          have hstatus := dispatch_status (r := r) (by rw [hdis])
          obtain ⟨status, event, error⟩ := r
          have hready : status ≠ .eventReady := by
            rintro rfl
            cases he
          rw [drain_eq, hnext, if_neg hready]
          exact hstatus

/-- Draining ends between two frames, with nothing left over. -/
def Drains (d : WebSocketDecoder) (es : List WsEvent) : Prop :=
  d.drain.1 = es ∧ d.drain.2.status = .needMoreData ∧ d.drain.2.decoder.bufferedBytes = 0

/-- A legal frame at the cursor is found there. -/
theorem readFrame_of_meaning {M : ℕ} {rm : Bool} {o o' : Option Bytes} {f : Frame}
    {e : Option WsEvent} (h : FrameMeaning M rm o f e o') (rest : Bytes) :
    f.maskKey.isSome = rm ∧ f.Fits M ∧
      readFrame rm M (f.encode ++ rest) = .frame f.fin f.opcode f.payload f.encode.length := by
  have hf : f.Legal M rm := by
    cases h with
    | control hf => exact hf
    | whole hf => exact hf
    | first hf => exact hf
    | middle hf => exact hf
    | last hf => exact hf
  exact ⟨hf.1, hf.2.1, readFrame_iff.2 ⟨f, rest, rfl, hf.1, hf.2.1, rfl, rfl, rfl, rfl⟩⟩

theorem Ready.advance {d : WebSocketDecoder} (hd : d.Ready) (totalSize : ℕ) :
    (d.advance totalSize).Ready :=
  ⟨hd.limit, hd.fragment⟩

/-- **Draining and the grammar**, from any state between two frames. -/
theorem drain_iff {d : WebSocketDecoder} (hd : d.Ready) (es : List WsEvent) :
    d.Drains es ↔ ∃ fs : List Frame, d.available = fs.flatMap Frame.encode ∧
      Meaning d.maxMessageBytes d.requireMasking d.assembling fs es := by
  induction hn : d.bufferedBytes using Nat.strong_induction_on generalizing d es with
  | _ n ih =>
      cases hread : readFrame d.requireMasking d.maxMessageBytes d.available with
      -- the loop stops, and it has taken everything only if nothing is left
      | needMoreData =>
          have hdrain : d.drain = ([], ⟨.needMoreData, {}, "", d⟩) := by
            rw [drain_eq, next_eq hd.limit, hread, if_neg (by simp)]
          constructor
          · rintro ⟨rfl, -, hz⟩
            rw [hdrain] at hz ⊢
            exact ⟨[], available_eq_nil hz, .done _⟩
          · rintro ⟨fs, hav, hmean⟩
            cases hmean with
            | done =>
                refine ⟨by rw [hdrain], by rw [hdrain], ?_⟩
                rw [hdrain, ← length_available, hav]
                rfl
            | frame hf hfs =>
                rw [hav, List.flatMap_cons, (readFrame_of_meaning hf _).2.2] at hread
                cases hread
      -- a malformed frame begins no sequence of frames
      | failed status error =>
          have hdrain : d.drain = ([], ⟨status, {}, error, d⟩) := by
            rw [drain_eq, next_eq hd.limit, hread]
            rcases readFrame_failed hread with rfl | rfl
            · rfl
            · rfl
          constructor
          · rintro ⟨-, hmore, -⟩
            rw [hdrain] at hmore
            rcases readFrame_failed hread with rfl | rfl
            · cases hmore
            · cases hmore
          · rintro ⟨fs, hav, hmean⟩
            cases hmean with
            | done =>
                rw [hav] at hread
                cases hread
            | frame hf hfs =>
                rw [hav, List.flatMap_cons, (readFrame_of_meaning hf _).2.2] at hread
                cases hread
      -- one frame is taken off, and the rest is shorter
      | frame fin opcode payload totalSize =>
          have hless := bufferedBytes_dispatch hread
          obtain ⟨hav', hrm', hM', hlimit'⟩ := dispatch_advance totalSize fin opcode payload d
          constructor
          · intro hdrains
            obtain ⟨f, rest, hdata, hkey, hfits, rfl, rfl, rfl, rfl⟩ := readFrame_iff.1 hread
            have hready := (hd.advance f.encode.length).dispatch f.fin f.opcode f.payload hfits.1
            cases he : reported ((d.advance f.encode.length).dispatch f.fin f.opcode f.payload).1 with
            | none => exact absurd hdrains.2.1 (drain_refused hd.limit hread he)
            | some e =>
                have hdrain := drain_frame hd.limit hread he
                obtain ⟨rfl, hmore, hz⟩ := hdrains
                rw [hdrain] at hmore hz ⊢
                obtain ⟨fs, hav, hmean⟩ := (ih _ (by omega) hready _ rfl).1 ⟨rfl, hmore, hz⟩
                refine ⟨f :: fs, ?_, ?_⟩
                · rw [List.flatMap_cons, ← hav, hav', hdata, List.drop_left]
                · rw [hrm', hM'] at hmean
                  exact .frame ((dispatch_iff (hd.advance _) hkey hfits _ _).2 ⟨he, rfl⟩) hmean
          · rintro ⟨fs, hav, hmean⟩
            cases hmean with
            | done =>
                rw [hav] at hread
                cases hread
            | @frame _ o' f fs e es hf hfs =>
                obtain ⟨hkey, hfits, hread'⟩ :=
                  readFrame_of_meaning hf (fs.flatMap Frame.encode)
                rw [← List.flatMap_cons, ← hav, hread] at hread'
                obtain ⟨rfl, rfl, rfl, rfl⟩ := FrameRead.frame.inj hread'
                obtain ⟨he, rfl⟩ :=
                  (dispatch_iff (hd.advance f.encode.length) hkey hfits _ _).1 hf
                have hready := (hd.advance f.encode.length).dispatch f.fin f.opcode f.payload hfits.1
                have hrest : ((d.advance f.encode.length).dispatch f.fin f.opcode
                    f.payload).2.Drains es := by
                  refine (ih _ (by omega) hready es rfl).2 ⟨fs, ?_, ?_⟩
                  · rw [hav', hav, List.flatMap_cons, List.drop_left]
                  · rw [hrm', hM']
                    exact hfs
                obtain ⟨hes, hmore, hz⟩ := hrest
                have hdrain := drain_frame hd.limit hread he
                refine ⟨?_, ?_, ?_⟩
                · rw [hdrain, hes]
                · rw [hdrain]
                  exact hmore
                · rw [hdrain]
                  exact hz

/-! ### Fresh decoders -/

/-- A decoder as it is constructed. -/
def fresh (maxMessageBytes maxBufferedBytes : ℕ) (requireMasking : Bool) : WebSocketDecoder where
  maxMessageBytes := maxMessageBytes
  maxBufferedBytes := maxBufferedBytes
  requireMasking := requireMasking

/-- **The decoder accepts exactly its grammar and gives it the right meaning.**  For all limits, any
masking rule and every byte string within the buffer limit: `Append` on a fresh decoder succeeds,
and calling `Next` until it stops reporting events yields the events `es` and then asks for more
data with an empty buffer, if and only if the string is a concatenation of frames that form a legal
sequence with the meaning `es`. -/
theorem accepts_grammar (M B : ℕ) (rm : Bool) (b : Bytes) (hb : b.length ≤ B)
    (es : List WsEvent) :
    let r := (fresh M B rm).append b
    r.1 = true ∧
      ((r.2.drain.1 = es ∧ r.2.drain.2.status = .needMoreData ∧
          r.2.drain.2.decoder.bufferedBytes = 0) ↔
        ∃ fs : List Frame, b = fs.flatMap Frame.encode ∧ Meaning M rm none fs es) := by
  have happend : (fresh M B rm).append b = (true, { fresh M B rm with buffer := b }) := by
    have hfits : ¬ (b.length > B ∨ 0 > B - b.length) := by omega
    simp only [append, compactIfUseful, fresh, bufferedBytes, List.length_nil, Nat.sub_zero,
      List.nil_append, if_true]
    rw [if_neg hfits]
  intro r
  have hr : r = (true, { fresh M B rm with buffer := b }) := happend
  rw [hr]
  refine ⟨rfl, ?_⟩
  have hready : ({ fresh M B rm with buffer := b } : WebSocketDecoder).Ready :=
    ⟨rfl, fun h => by cases h⟩
  exact drain_iff hready es

/-- `Hello!` in two masked fragments, with a masked ping between them. -/
theorem accepts_grammar_two_fragments :
    ∃ fs : List Frame,
      ([0x02, 0x85, 0x37, 0xfa, 0x21, 0x3d, 0x7f, 0x9f, 0x4d, 0x51, 0x58,
        0x89, 0x81, 0x01, 0x02, 0x03, 0x04, 0x08,
        0x80, 0x81, 0x01, 0x02, 0x03, 0x04, 0x20] : Bytes) = fs.flatMap Frame.encode ∧
        Meaning 6 true none fs
          [{ type := .ping, payload := [9] },
            { payload := [0x48, 0x65, 0x6c, 0x6c, 0x6f, 0x21] }] :=
  ((accepts_grammar 6 25 true
    [0x02, 0x85, 0x37, 0xfa, 0x21, 0x3d, 0x7f, 0x9f, 0x4d, 0x51, 0x58,
      0x89, 0x81, 0x01, 0x02, 0x03, 0x04, 0x08,
      0x80, 0x81, 0x01, 0x02, 0x03, 0x04, 0x20] (by decide)
    [{ type := .ping, payload := [9] },
      { payload := [0x48, 0x65, 0x6c, 0x6c, 0x6f, 0x21] }]).2).1 ⟨by decide, by decide, by decide⟩

end WebSocketDecoder

end RealtimeEngine
