/-
**The frames the server sends, and a peer that reads them.**

A WebSocket session sends messages (`Send`), pings, the answers to pings and closes that it
receives, and the close frames of `Close`.  A peer reads every one of them with a decoder for
unmasked frames whose limits cover the frame; it gets the type and the payload that were sent.

There is one exception.  `Close` cuts a reason of more than 123 bytes at the byte: where that is
inside of a character, what is left is no UTF-8, and the decoder refuses the frame.

Main definitions:

* `RealtimeEngine.ServerSteps.Builds` — the item that a call builds on a WebSocket session;
* `RealtimeEngine.ServerSteps.Emits` — the calls that send a frame;
* `RealtimeEngine.ServerSteps.Acceptable` — a peer reads the item;
* `RealtimeEngine.ServerSteps.CutsCleanly` — the reason is not cut inside of a character.

Main results:

* `RealtimeEngine.ServerSteps.acceptable_iff` — **a peer reads exactly the frames whose reason is
  cut cleanly**;
* `RealtimeEngine.ServerSteps.close_reason_cut` — a frame that is refused.
-/

import RealtimeEngine.FrameRoundTrip
import RealtimeEngine.ServerSteps

set_option relaxedAutoImplicit false
set_option autoImplicit false

namespace RealtimeEngine

namespace ServerSteps

open Interleaving WebSocketDecoder

variable {ι : Type*}

/-! ### The calls and their items -/

/-- The steps of the call, each on a session whose transport is `WebSocket`, lead to `Enqueue` with
this item.  What else they find of the session is left open: other threads run between them. -/
inductive Builds (config : ServerConfig) (s : ι) : Task ι → OutboundItem → Prop
  | enqueue (item : OutboundItem) : Builds config s (.out (.enqueue s item)) item
  | step {x : Choice ι} {disconnectStarted : Bool} {c : Control} {state : SessionState}
      {task task' : Task ι} {new : List (Task ι)} {item : OutboundItem}
      (htransport : c.transport = .webSocket)
      (h : callStep config x disconnectStarted c task = some (state, new)) (hnew : task' ∈ new)
      (hrest : Builds config s task' item) : Builds config s task item

/-- The calls that send a frame on a WebSocket session, and the type it has for its reader. -/
inductive Emits (s : ι) : Task ι → WsEventType → Prop
  | send (payload : ByteVector) : Emits s (.send s payload.1) .binaryMessage
  | ping : Emits s (.sendControl s .ping [] false) .ping
  /-- The answer to a ping that the decoder of the session reports. -/
  | pong {c : Control} {payload : Bytes}
      (h : .sendControl s .pong payload false ∈ (webSocketEvent c s).2) :
      Emits s (.sendControl s .pong payload false) .pong
  /-- The answer to a close. -/
  | closeEcho {c : Control} {payload : Bytes}
      (h : .sendControl s .close payload true ∈ (webSocketEvent c s).2) :
      Emits s (.sendControl s .close payload true) .close
  | close (code : UInt16) (reason : Bytes) (hcode : isValidCloseCode code = true)
      (hreason : WellFormedUtf8 reason) : Emits s (.close s code reason) .close

/-- A new decoder for unmasked frames, with limits that cover the item, consumes it completely and
reports an event of this type with the payload of the item. -/
def Acceptable (config : ServerConfig) (type : WsEventType) (item : OutboundItem) : Prop :=
  ∀ B, item.bytes.length ≤ B →
    let r := (fresh (max 125 config.maxMessageBytes.toNat) B false).append item.bytes
    r.1 = true ∧ r.2.next.status = .eventReady ∧ r.2.next.event.type = type ∧
      r.2.next.event.payload = item.payload ∧ r.2.next.decoder.bufferedBytes = 0

/-- A reason that `Close` has to cut has the first byte of a character behind the cut. -/
def CutsCleanly : Task ι → Prop
  | .close _ _ reason => ∀ b, reason[123]? = some b → b.IsUTF8FirstByte
  | _ => True

/-! ### What is built -/

section Items

variable {config : ServerConfig} {s : ι} {item : OutboundItem}

theorem Builds.out {item' : OutboundItem} (h : Builds config s (.out (.enqueue s item')) item) :
    item = item' := by
  cases h with
  | enqueue => rfl
  | step _ h _ _ => cases h

/-- `SendControl` builds a frame. -/
theorem Builds.sendControl {opcode : WsOpcode} {payload : Bytes} {closeAfter : Bool}
    (h : Builds config s (.sendControl s opcode payload closeAfter) item) :
    item = frameItem opcode payload closeAfter := by
  cases h with
  | step htransport h hnew hrest =>
      have hframe : ∀ {t : Task ι},
          t ∈ [Task.out (.enqueue s (frameItem opcode payload closeAfter))] →
          Builds config s t item → item = frameItem opcode payload closeAfter := by
        intro t ht hrest
        obtain rfl := List.mem_singleton.1 ht
        exact hrest.out
      simp only [callStep] at h
      split at h
      · next hclose =>
          subst hclose
          split at h <;> obtain ⟨-, rfl⟩ := Prod.mk.inj (Option.some.inj h)
          · cases hnew
          · exact hframe hnew hrest
      · next hopen =>
          obtain rfl : closeAfter = false := by simpa using hopen
          obtain ⟨-, rfl⟩ := Prod.mk.inj (Option.some.inj h)
          exact hframe hnew hrest

/-- `Send` builds a binary frame, for a payload within the limit. -/
theorem Builds.send {payload : Bytes} (h : Builds config s (.send s payload) item) :
    item = frameItem .binary payload false ∧
      payload.length ≤ config.maxMessageBytes.toNat := by
  cases h with
  | step htransport h hnew hrest =>
      simp only [callStep, Option.some.injEq, Prod.mk.injEq] at h
      obtain ⟨-, rfl⟩ := h
      split at hnew
      · cases hnew
      · next hchecks =>
          obtain rfl := List.mem_singleton.1 hnew
          simp only [Bool.or_eq_true, Bool.not_eq_true', decide_eq_true_eq, not_or,
            Nat.not_lt] at hchecks
          refine ⟨?_, hchecks.2⟩
          cases hrest with
          | step htransport h hnew hrest =>
              simp only [callStep, Option.some.injEq, Prod.mk.injEq] at h
              obtain ⟨-, rfl⟩ := h
              split at hnew
              · cases hnew
              · obtain rfl := List.mem_singleton.1 hnew
                cases hrest with
                | step htransport h hnew hrest =>
                    simp only [callStep, htransport, Option.some.injEq, Prod.mk.injEq] at h
                    obtain ⟨-, rfl⟩ := h
                    obtain rfl := List.mem_singleton.1 hnew
                    exact hrest.out

/-- `Close` builds a close frame. -/
theorem Builds.close {code : UInt16} {reason : Bytes}
    (h : Builds config s (.close s code reason) item) :
    item = frameItem .close (closePayload code reason) true := by
  cases h with
  | step htransport h hnew hrest =>
      simp only [callStep, Option.some.injEq, Prod.mk.injEq] at h
      obtain ⟨-, rfl⟩ := h
      split at hnew
      · cases hnew
      · obtain rfl := List.mem_singleton.1 hnew
        cases hrest with
        | step htransport h hnew hrest =>
            simp only [callStep, htransport, Option.some.injEq, Prod.mk.injEq] at h
            obtain ⟨-, rfl⟩ := h
            obtain rfl := List.mem_singleton.1 hnew
            exact hrest.sendControl

/-- `Close` on an open session does build its frame. -/
theorem builds_close (code : UInt16) (reason : Bytes) :
    Builds config s (.close s code reason)
      (frameItem .close (closePayload code reason) true) := by
  let c : Control := { Control.fresh config with
    registered := true, state := .opened, transport := .webSocket }
  have hopen : c.transport = .webSocket := rfl
  have hstep : ∀ task task' : Task ι, ∀ state,
      callStep config .passes false c task = some (state, [task']) →
        Builds config s task' (frameItem .close (closePayload code reason) true) →
          Builds config s task (frameItem .close (closePayload code reason) true) :=
    fun task task' state h hrest => .step hopen h (List.mem_singleton_self task') hrest
  exact hstep _ _ _ rfl (hstep _ _ _ rfl (hstep _ _ _ rfl (.enqueue _)))

/-- The answers to a ping and to a close have the payload of the event. -/
theorem mem_webSocketEvent {c : Control} {opcode : WsOpcode} {payload : Bytes} {closeAfter : Bool}
    (h : .sendControl s opcode payload closeAfter ∈ (webSocketEvent c s).2) :
    c.webSocketDecoder.next.status = .eventReady ∧
      c.webSocketDecoder.next.event.payload = payload ∧
      (c.webSocketDecoder.next.event.type = .ping ∧ opcode = .pong ∨
        c.webSocketDecoder.next.event.type = .close ∧ opcode = .close) := by
  unfold webSocketEvent at h
  dsimp only at h
  cases hstatus : c.webSocketDecoder.next.status with
  | eventReady =>
      rw [hstatus] at h
      dsimp only at h
      cases htype : c.webSocketDecoder.next.event.type with
      | binaryMessage => simp [htype] at h
      | pong => simp [htype] at h
      | ping =>
          simp only [htype, List.mem_cons, Task.sendControl.injEq, List.not_mem_nil, or_false,
            reduceCtorEq] at h
          exact ⟨rfl, h.2.2.1.symm, Or.inl ⟨rfl, h.2.1⟩⟩
      | close =>
          simp only [htype, List.mem_cons, Task.sendControl.injEq, List.not_mem_nil, or_false,
            reduceCtorEq] at h
          exact ⟨rfl, h.2.2.1.symm, Or.inr ⟨rfl, h.2.1⟩⟩
  | _ =>
      rw [hstatus] at h
      simp at h

end Items

/-! ### The payload of a close frame -/

theorem closeCodeOf_closePayload (code : UInt16) (reason : Bytes) :
    closeCodeOf (closePayload code reason) = code := by
  have hcode := code.toNat_lt
  have hhigh : (code >>> 8).toUInt8.toNat = code.toNat / 256 := by
    rw [UInt16.toNat_toUInt8, UInt16.toNat_shiftRight]
    simp [Nat.shiftRight_eq_div_pow]
    omega
  have hlow : code.toUInt8.toNat = code.toNat % 256 := UInt16.toNat_toUInt8 code
  have hnumber : BigEndian.toNat [(code >>> 8).toUInt8, code.toUInt8] = code.toNat := by
    simp only [BigEndian.toNat, List.foldl_cons, List.foldl_nil, hhigh, hlow]
    omega
  rw [closePayload, closeCodeOf, hnumber, UInt16.ofNat_toNat]

theorem length_closePayload (code : UInt16) (reason : Bytes) :
    (closePayload code reason).length ≤ 125 := by
  simp only [closePayload, List.length_cons, List.length_take]
  omega

/-- The payload of a close frame is legal where the reason is cut cleanly. -/
theorem closeLegal_closePayload_iff {code : UInt16} {reason : Bytes}
    (hcode : isValidCloseCode code = true) (hreason : WellFormedUtf8 reason) :
    CloseLegal (closePayload code reason) ↔
      ∀ b, reason[123]? = some b → b.IsUTF8FirstByte := by
  rw [← wellFormedUtf8_take_iff hreason]
  constructor
  · rintro (h | ⟨high, low, rest, h, -, hrest⟩)
    · cases h
    · obtain ⟨-, htail⟩ := List.cons.inj h
      obtain ⟨-, rfl⟩ := List.cons.inj htail
      exact hrest
  · intro hcut
    refine Or.inr ⟨_, _, _, rfl, ?_, hcut⟩
    rw [closeCodeOf_closePayload]
    exact hcode

/-! ### What a peer reads -/

section Reading

variable {config : ServerConfig} {s : ι}

theorem bytes_frameItem (opcode : WsOpcode) (payload : Bytes) (closeAfter : Bool) :
    (frameItem opcode payload closeAfter).bytes = buildFrame opcode payload :=
  rfl

/-- A peer reads every frame within the limits. -/
theorem acceptable_of_encodable (type : WsEventType) {payload : Bytes} (closeAfter : Bool)
    (hsize : payload.length < 2 ^ 63)
    (h : Encodable (max 125 config.maxMessageBytes.toNat) type payload) :
    Acceptable config type (frameItem type.opcode payload closeAfter) := by
  intro B hfits
  rw [bytes_frameItem] at hfits ⊢
  have hsound : (fresh (max 125 config.maxMessageBytes.toNat) B false).Sound := ⟨rfl, le_rfl⟩
  obtain ⟨haccepted, hready, hevent, hempty, -, -⟩ :=
    round_trip hsound rfl rfl rfl hsize h hfits
  exact ⟨haccepted, hready, by rw [hevent]; rfl, by rw [hevent]; rfl, hempty⟩

/-- A peer refuses a close frame whose payload is not legal. -/
theorem closeLegal_of_acceptable {payload : Bytes} {closeAfter : Bool} (hsize : payload.length ≤ 125)
    (h : Acceptable config .close (frameItem .close payload closeAfter)) : CloseLegal payload := by
  rw [Acceptable, bytes_frameItem] at h
  obtain ⟨haccepted, hready, -⟩ := h _ le_rfl
  have hsound : (fresh (max 125 config.maxMessageBytes.toNat)
      (buildFrame .close payload).length false).Sound := ⟨rfl, le_rfl⟩
  obtain ⟨-, hsound', hbare, havailable⟩ := append_of_empty hsound rfl le_rfl
  have hsame := congrArg (fun d => (d.requireMasking, d.maxMessageBytes)) hbare
  obtain ⟨hmasking, hmessage⟩ := Prod.mk.inj hsame
  refine closeLegal_of_ready hsound'.limit hmasking ?_ (havailable.trans (List.append_nil _).symm)
    hready
  exact ⟨(hsize.trans (le_max_left _ _)).trans hmessage.ge, hsize.trans_lt (by decide),
    fun _ => ⟨rfl, hsize⟩⟩

/-- **A peer reads exactly the frames whose reason is cut cleanly.**  Every item that a session
builds for a message of any size within the limit, for a ping, for the answer to a ping or to a
close, and for `Close` with any allowed code and any well-formed reason, is read completely by a new
decoder for unmasked frames whose limits cover it, as an event of the right type with the payload of
the item, if and only if the reason, where it is longer than 123 bytes, is cut between two
characters. -/
theorem acceptable_iff {task : Task ι} {type : WsEventType} {item : OutboundItem}
    (htask : Emits s task type) (hitem : Builds config s task item) :
    Acceptable config type item ↔ CutsCleanly task := by
  cases htask with
  | send payload =>
      obtain ⟨rfl, hlimit⟩ := hitem.send
      refine ⟨fun _ => trivial, fun _ => acceptable_of_encodable .binaryMessage false
        payload.2 ⟨hlimit.trans (le_max_right _ _), ?_, ?_⟩⟩
      · intro h
        exact absurd rfl h
      · intro h
        cases h
  | ping =>
      obtain rfl := hitem.sendControl
      refine ⟨fun _ => trivial, fun _ => acceptable_of_encodable .ping false
        (by decide) ⟨Nat.zero_le _, fun _ => Nat.zero_le _, ?_⟩⟩
      intro h
      cases h
  | pong h =>
      obtain rfl := hitem.sendControl
      obtain ⟨hready, rfl, ⟨htype, -⟩ | ⟨-, hop⟩⟩ := mem_webSocketEvent h
      · obtain ⟨hlen, -⟩ := next_control hready (by rw [htype]; decide)
        refine ⟨fun _ => trivial, fun _ => acceptable_of_encodable .pong false
          (hlen.trans_lt (by decide)) ⟨hlen.trans (le_max_left _ _), fun _ => hlen, ?_⟩⟩
        intro h
        cases h
      · cases hop
  | closeEcho h =>
      obtain rfl := hitem.sendControl
      obtain ⟨hready, rfl, ⟨-, hop⟩ | ⟨htype, -⟩⟩ := mem_webSocketEvent h
      · cases hop
      · obtain ⟨hlen, hclose⟩ := next_control hready (by rw [htype]; decide)
        exact ⟨fun _ => trivial, fun _ => acceptable_of_encodable .close true
          (hlen.trans_lt (by decide)) ⟨hlen.trans (le_max_left _ _), fun _ => hlen,
            fun _ => hclose htype⟩⟩
  | close code reason hcode hreason =>
      obtain rfl := hitem.close
      have hlen := length_closePayload code reason
      -- the one item that may be cut: the reason decides
      rw [CutsCleanly, ← closeLegal_closePayload_iff hcode hreason]
      exact ⟨closeLegal_of_acceptable hlen, fun hlegal => acceptable_of_encodable .close
        true (hlen.trans_lt (by decide)) ⟨hlen.trans (le_max_left _ _), fun _ => hlen,
          fun _ => hlegal⟩⟩

/-- A close with a short reason. -/
theorem acceptable_iff_bye :
    Acceptable {} .close (frameItem .close (closePayload 1000 (ascii "bye")) true) := by
  have hreason : WellFormedUtf8 (ascii "bye") := ⟨['b', 'y', 'e'], by decide⟩
  exact (acceptable_iff (.close 1000 (ascii "bye") (by decide) hreason)
    (builds_close (s := ()) 1000 (ascii "bye"))).2 (by intro b hb; cases hb)

/-- A reason of 124 bytes whose last character has two. -/
def longReason : Bytes := List.replicate 122 0x61 ++ [0xc3, 0xa9]

/-- **A reason that is cut inside of a character**: the code is allowed and the reason is well
formed, but no peer takes the frame. -/
theorem close_reason_cut :
    isValidCloseCode 1000 = true ∧ WellFormedUtf8 longReason ∧
      ∃ item, Builds {} () (.close () 1000 longReason) item ∧ ¬ Acceptable {} .close item := by
  have hreason : WellFormedUtf8 longReason := ⟨List.replicate 122 'a' ++ ['é'], by decide⟩
  refine ⟨by decide, hreason, _, builds_close 1000 longReason, ?_⟩
  intro h
  have hlegal := closeLegal_of_acceptable (length_closePayload 1000 longReason) h
  have hcut := (closeLegal_closePayload_iff (by decide) hreason).1 hlegal 0xa9 (by decide)
  exact absurd hcut (by decide)

end Reading

end ServerSteps

end RealtimeEngine
