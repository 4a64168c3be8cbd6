/-
**The messages of a session, in the order of its bytes.**

The thread that handles a read gives its bytes to the decoder of the session and takes the messages
out again, one at a time, while other threads run.  Wherever it stands, the messages that it has
taken out are the first ones in the bytes that the decoder was given, and these are bytes of the
reads, in their order.

The frames of a WebSocket stream are read here as `Next` reads them when it is called again and
again, also behind a frame that it refuses.

Main definitions:

* `RealtimeEngine.LengthPrefixedAccumulator.messagesOf`,
  `RealtimeEngine.WebSocketDecoder.messagesOf` — the messages in some bytes;
* `RealtimeEngine.EngineSteps.messages` — those of a session, by its transport;
* `RealtimeEngine.EngineSteps.Reads`, `RealtimeEngine.EngineSteps.Serving` — the invariant.

Main results:

* `RealtimeEngine.EngineSteps.Follows.prefix_messages` — the messages that were returned are the
  first ones;
* `RealtimeEngine.EngineSteps.Serving.step` — **every step keeps the messages in order**.
-/

import RealtimeEngine.EngineSteps
import RealtimeEngine.FramingStream
import RealtimeEngine.ServerRetained
import RealtimeEngine.WebSocketStream

set_option relaxedAutoImplicit false
set_option autoImplicit false

namespace RealtimeEngine

open StreamConsumer

/-! ### The decoder of a raw stream -/

namespace LengthPrefixedAccumulator

variable {M : ℕ} {d : LengthPrefixedAccumulator} {fed : Bytes} {decoded : List Bytes}

/-- The messages in some bytes. -/
def messagesOf (maxMessageBytes : ℕ) (bytes : Bytes) : List Bytes :=
  ((frameConsumer maxMessageBytes).drain [] bytes).state

theorem frameTurn_halt {messages messages' : List Bytes} {data : Bytes}
    (h : (frameConsumer M).turn messages data = .halt messages') : messages <+: messages' := by
  rw [frameConsumer_turn, frameTurn] at h
  split at h
  · cases h
  · obtain rfl := Turn.halt.inj h
    exact List.prefix_rfl
  · cases h

theorem frameTurn_consume {messages messages' : List Bytes} {data : Bytes} {n : ℕ}
    (h : (frameConsumer M).turn messages data = .consume messages' n) : messages <+: messages' := by
  rw [frameConsumer_turn, frameTurn] at h
  split at h
  · cases h
  · cases h
  · obtain ⟨rfl, -⟩ := Turn.consume.inj h
    exact List.prefix_append _ _

/-- The decoder stands behind the messages that it has returned, or it has failed behind them. -/
def Returned (M : ℕ) (d : LengthPrefixedAccumulator) (fed : Bytes) (decoded : List Bytes) : Prop :=
  (d.Sound ∧ d.maxMessageBytes = M ∧ (frameConsumer M).Reaches [] fed decoded d.available) ∨
    d.limitExceeded = true ∧ decoded <+: messagesOf M fed

/-- **The messages that were returned are the first ones.** -/
theorem Returned.prefix_messagesOf (h : Returned M d fed decoded) : decoded <+: messagesOf M fed := by
  rcases h with ⟨-, -, hreaches⟩ | ⟨-, hbegins⟩
  · have hdrain := hreaches []
    rw [List.append_nil, List.append_nil] at hdrain
    rw [messagesOf, hdrain]
    exact Consumer.out_drain id frameTurn_halt frameTurn_consume decoded d.available
  · exact hbegins

theorem returned_fresh (M B : ℕ) : Returned M ⟨M, B, [], 0, false⟩ [] [] :=
  Or.inl ⟨⟨rfl, le_rfl⟩, rfl, .refl [] []⟩

theorem append_limitExceeded (h : d.limitExceeded = true) (bytes : Bytes) :
    (d.append bytes).2.limitExceeded = true := by
  have hcompact : d.compactIfUseful.limitExceeded = true := by
    unfold compactIfUseful
    split_ifs <;> exact h
  unfold append
  dsimp only
  split
  · rfl
  · exact hcompact

/-- `Append`, whether it fails or not. -/
theorem Returned.append (h : Returned M d fed decoded) (bytes : Bytes) :
    Returned M (d.append bytes).2 (fed ++ bytes) decoded := by
  have hmore : decoded <+: messagesOf M (fed ++ bytes) :=
    h.prefix_messagesOf.trans
      (Consumer.out_drain_append id frameTurn_halt frameTurn_consume [] fed bytes)
  rcases h with ⟨hsound, hmax, hreaches⟩ | ⟨hlimit, -⟩
  · cases happend : d.append bytes with
    | mk appended d' =>
        cases appended with
        | true =>
            obtain ⟨hsound', hmax', -, havailable⟩ := append_eq hsound happend
            refine Or.inl ⟨hsound', hmax'.trans hmax, ?_⟩
            rw [havailable]
            exact hreaches.append bytes
        | false =>
            refine Or.inr ⟨?_, hmore⟩
            unfold LengthPrefixedAccumulator.append at happend
            dsimp only at happend
            split at happend
            · rw [← (Prod.mk.inj happend).2]
            · cases happend
  · exact Or.inr ⟨append_limitExceeded hlimit bytes, hmore⟩

/-- The message that `Next` returns. -/
def nextMessage (d : LengthPrefixedAccumulator) : List Bytes :=
  if d.next.1 = .messageReady then [d.next.2.1] else []

/-- `Next` returns the next message of the stream, or none. -/
theorem Returned.next (h : Returned M d fed decoded) :
    Returned M d.next.2.2 fed (decoded ++ d.nextMessage) := by
  unfold nextMessage
  rcases h with ⟨hsound, rfl, hreaches⟩ | ⟨hlimit, hbegins⟩
  · have hnext := next_eq hsound.limit
    cases hread : readPrefixed d.maxMessageBytes d.available with
    | needMoreData =>
        have hstop : d.next = (.needMoreData, [], d) := by rw [hnext, hread]
        rw [hstop, if_neg (by simp), List.append_nil]
        exact Or.inl ⟨hsound, rfl, hreaches⟩
    | invalidLength =>
        have hstop : d.next = (.invalidLength, [], d) := by rw [hnext, hread]
        rw [hstop, if_neg (by simp), List.append_nil]
        exact Or.inl ⟨hsound, rfl, hreaches⟩
    | message payload size =>
        have hgoes : d.next = (.messageReady, payload, { d with cursor := d.cursor + size }) := by
          rw [hnext, hread]
        obtain ⟨hsound', havailable, -⟩ := hsound.advance hread
        have hturn : (frameConsumer d.maxMessageBytes).turn decoded d.available =
            .consume (decoded ++ [payload]) size := by
          rw [frameConsumer_turn, frameTurn, hread]
        rw [hgoes, if_pos rfl]
        refine Or.inl ⟨hsound', rfl, ?_⟩
        rw [havailable]
        exact hreaches.consume hturn
  · have hstop : d.next = (.bufferLimitExceeded, [], d) := by
      rw [LengthPrefixedAccumulator.next, if_pos hlimit]
    rw [hstop, if_neg (by simp), List.append_nil]
    exact Or.inr ⟨hlimit, hbegins⟩

end LengthPrefixedAccumulator

/-! ### The decoder of a WebSocket stream -/

namespace WebSocketDecoder

/-- The message among what may become of a frame. -/
def messageOf : Option (WsParseStatus × WsEvent × String) → List Bytes
  | some (.eventReady, event, _) => if event.type = .binaryMessage then [event.payload] else []
  | _ => []

/-- One frame of the stream; the state are the decoder, without its buffer, and the messages so far.
-/
def messageTurn (s : WebSocketDecoder × List Bytes) (data : Bytes) :
    Turn (WebSocketDecoder × List Bytes) :=
  match readFrame s.1.requireMasking s.1.maxMessageBytes data with
  | .needMoreData => .wait
  | .failed _ _ => .halt s
  | .frame fin opcode payload totalSize =>
      .consume ((s.1.dispatch fin opcode payload).2,
        s.2 ++ messageOf (s.1.dispatch fin opcode payload).1) totalSize

theorem messageTurn_append {s : WebSocketDecoder × List Bytes} {data : Bytes}
    (h : messageTurn s data ≠ .wait) (more : Bytes) :
    messageTurn s (data ++ more) = messageTurn s data := by
  have hread : readFrame s.1.requireMasking s.1.maxMessageBytes data ≠ .needMoreData :=
    fun hmore => h (by rw [messageTurn, hmore])
  rw [messageTurn, messageTurn, readFrame_append hread more]

theorem messageTurn_size {s s' : WebSocketDecoder × List Bytes} {data : Bytes} {n : ℕ}
    (h : messageTurn s data = .consume s' n) : 0 < n ∧ n ≤ data.length := by
  unfold messageTurn at h
  split at h
  · cases h
  · cases h
  · next hread =>
      obtain ⟨-, rfl⟩ := Turn.consume.inj h
      obtain ⟨htwo, hle⟩ := readFrame_size hread
      exact ⟨by omega, hle⟩

/-- The consumer that goes on behind a frame that was refused. -/
def messageConsumer : Consumer (WebSocketDecoder × List Bytes) UInt8 where
  turn := messageTurn
  consumes h := messageTurn_size h
  halt_append h more := by rw [messageTurn_append (by simp [h]) more, h]
  consume_append h more := by rw [messageTurn_append (by simp [h]) more, h]

@[simp] theorem messageConsumer_turn : messageConsumer.turn = messageTurn := rfl

/-- The messages in some bytes. -/
def messagesOf (fresh : WebSocketDecoder) (bytes : Bytes) : List Bytes :=
  (messageConsumer.drain (fresh, []) bytes).state.2

theorem messageTurn_halt {s s' : WebSocketDecoder × List Bytes} {data : Bytes}
    (h : messageConsumer.turn s data = .halt s') : s.2 <+: s'.2 := by
  rw [messageConsumer_turn, messageTurn] at h
  split at h
  · cases h
  · obtain rfl := Turn.halt.inj h
    exact List.prefix_rfl
  · cases h

theorem messageTurn_consume {s s' : WebSocketDecoder × List Bytes} {data : Bytes} {n : ℕ}
    (h : messageConsumer.turn s data = .consume s' n) : s.2 <+: s'.2 := by
  rw [messageConsumer_turn, messageTurn] at h
  split at h
  · cases h
  · cases h
  · obtain ⟨rfl, -⟩ := Turn.consume.inj h
    exact List.prefix_append _ _

/-- The message that `Next` returns. -/
def nextMessage (d : WebSocketDecoder) : List Bytes :=
  messageOf (some (d.next.status, d.next.event, d.next.error))

theorem messageOf_of_ne {status : WsParseStatus} (h : status ≠ .eventReady) (event : WsEvent)
    (error : String) : messageOf (some (status, event, error)) = [] := by
  cases status with
  | eventReady => exact absurd rfl h
  | _ => rfl

/-- **What a call of `Next` does to the stream**: it goes on to the frame that completes an event.
-/
theorem next_reaches {d : WebSocketDecoder} (hd : d.Sound) (decoded : List Bytes) :
    d.next.decoder.Sound ∧ messageConsumer.Reaches (d.bare, decoded) d.available
      (d.next.decoder.bare, decoded ++ d.nextMessage) d.next.decoder.available := by
  unfold nextMessage
  -- every fragment shortens what is behind the cursor
  induction hbytes : d.bufferedBytes using Nat.strongRecOn generalizing d with
  | _ bytes ih =>
      subst hbytes
      have hturn : ∀ {fin : Bool} {opcode : WsOpcode} {payload : Bytes} {size : ℕ}
          {outcome : Option (WsParseStatus × WsEvent × String)} {d' : WebSocketDecoder},
          readFrame d.requireMasking d.maxMessageBytes d.available = .frame fin opcode payload size →
          d.bare.dispatch fin opcode payload = (outcome, d'.bare) →
          messageConsumer.turn (d.bare, decoded) d.available =
            .consume (d'.bare, decoded ++ messageOf outcome) size := by
        intro fin opcode payload size outcome d' hread hdispatch
        rw [messageConsumer_turn, messageTurn, show readFrame (d.bare, decoded).1.requireMasking
          (d.bare, decoded).1.maxMessageBytes d.available = .frame fin opcode payload size from hread]
        dsimp only
        rw [hdispatch]
      rcases next_cases hd with ⟨-, hnext⟩ | ⟨status, error, -, hnext, -, hevent⟩ |
        ⟨fin, opcode, payload, size, d', hread, hdispatch, hnext, hbehind⟩ |
        ⟨fin, opcode, payload, size, status, event, error, d', hread, hdispatch, hnext, -, hbehind⟩
      · rw [hnext]
        dsimp only
        rw [messageOf_of_ne (by simp), List.append_nil]
        exact ⟨hd, .refl _ _⟩
      · rw [hnext]
        dsimp only
        rw [messageOf_of_ne hevent, List.append_nil]
        exact ⟨hd, .refl _ _⟩
      · obtain ⟨hsound, hreaches⟩ := ih d'.bufferedBytes hbehind.bufferedBytes hbehind.sound rfl
        have hfirst := (Consumer.Reaches.refl (d.bare, decoded) d.available).consume
          (hturn hread hdispatch)
        rw [← hbehind.available, show messageOf none = [] from rfl, List.append_nil] at hfirst
        rw [hnext]
        exact ⟨hsound, hfirst.trans hreaches⟩
      · have hfirst := (Consumer.Reaches.refl (d.bare, decoded) d.available).consume
          (hturn hread hdispatch)
        rw [← hbehind.available] at hfirst
        rw [hnext]
        exact ⟨hbehind.sound, hfirst⟩

variable {fresh d : WebSocketDecoder} {fed : Bytes} {decoded : List Bytes}

/-- The decoder stands behind the messages that it has returned, or it has failed behind them. -/
def Returned (fresh d : WebSocketDecoder) (fed : Bytes) (decoded : List Bytes) : Prop :=
  (d.Sound ∧ messageConsumer.Reaches (fresh, []) fed (d.bare, decoded) d.available) ∨
    d.limitExceeded = true ∧ decoded <+: messagesOf fresh fed

/-- **The messages that were returned are the first ones.** -/
theorem Returned.prefix_messagesOf (h : Returned fresh d fed decoded) :
    decoded <+: messagesOf fresh fed := by
  rcases h with ⟨-, hreaches⟩ | ⟨-, hbegins⟩
  · have hdrain := hreaches []
    rw [List.append_nil, List.append_nil] at hdrain
    rw [messagesOf, hdrain]
    exact Consumer.out_drain Prod.snd messageTurn_halt messageTurn_consume (d.bare, decoded)
      d.available
  · exact hbegins

theorem returned_fresh (hsound : fresh.Sound) (hbare : fresh.bare = fresh) :
    Returned fresh fresh [] [] := by
  refine Or.inl ⟨hsound, ?_⟩
  have havailable : fresh.available = [] := by
    rw [← hbare]
    rfl
  rw [hbare, havailable]
  exact .refl _ _

theorem append_limitExceeded (h : d.limitExceeded = true) (bytes : Bytes) :
    (d.append bytes).2.limitExceeded = true := by
  have hcompact : d.compactIfUseful.limitExceeded = true := by
    unfold compactIfUseful
    split_ifs <;> exact h
  unfold append
  dsimp only
  split
  · rfl
  · exact hcompact

/-- `Append`, whether it fails or not. -/
theorem Returned.append (h : Returned fresh d fed decoded) (bytes : Bytes) :
    Returned fresh (d.append bytes).2 (fed ++ bytes) decoded := by
  have hmore : decoded <+: messagesOf fresh (fed ++ bytes) :=
    h.prefix_messagesOf.trans (Consumer.out_drain_append Prod.snd messageTurn_halt
      messageTurn_consume (fresh, []) fed bytes)
  rcases h with ⟨hsound, hreaches⟩ | ⟨hlimit, -⟩
  · cases happend : d.append bytes with
    | mk appended d' =>
        cases appended with
        | true =>
            obtain ⟨hsound', hbare, havailable⟩ := append_eq hsound happend
            refine Or.inl ⟨hsound', ?_⟩
            rw [havailable, hbare]
            exact hreaches.append bytes
        | false =>
            refine Or.inr ⟨?_, hmore⟩
            unfold WebSocketDecoder.append at happend
            dsimp only at happend
            split at happend
            · rw [← (Prod.mk.inj happend).2]
            · cases happend
  · exact Or.inr ⟨append_limitExceeded hlimit bytes, hmore⟩

/-- `Next` returns the next message of the stream, or none. -/
theorem Returned.next (h : Returned fresh d fed decoded) :
    Returned fresh d.next.decoder fed (decoded ++ d.nextMessage) := by
  rcases h with ⟨hsound, hreaches⟩ | ⟨hlimit, hbegins⟩
  · obtain ⟨hsound', hnext⟩ := next_reaches hsound decoded
    exact Or.inl ⟨hsound', hreaches.trans hnext⟩
  · have hstop : d.next =
        ⟨.bufferLimitExceeded, {}, "WebSocket receive buffer limit exceeded", d⟩ := by
      rw [WebSocketDecoder.next, if_pos hlimit]
    rw [nextMessage, hstop, messageOf_of_ne (by simp), List.append_nil]
    exact Or.inr ⟨hlimit, hbegins⟩

end WebSocketDecoder

namespace EngineSteps

open Interleaving
open ServerSteps (Control ReadPoint)
open scoped List

/-! ### The bytes and the messages of a session -/

/-- The messages in the bytes that the decoder of a session was given. -/
def messages (config : ServerConfig) (transport : TransportKind) (bytes : Bytes) : List Bytes :=
  match transport with
  | .detecting => []
  | .rawTcp => LengthPrefixedAccumulator.messagesOf config.maxMessageBytes.toNat bytes
  | .webSocket => WebSocketDecoder.messagesOf (Control.fresh config).webSocketDecoder bytes

/-- The decoder of a session stands behind the messages that it has returned. -/
def Follows (config : ServerConfig) (c : Control) (fed : Bytes) (decoded : List Bytes) : Prop :=
  match c.transport with
  | .detecting =>
      fed = [] ∧ decoded = [] ∧ c.rawDecoder = (Control.fresh config).rawDecoder ∧
        c.webSocketDecoder = (Control.fresh config).webSocketDecoder
  | .rawTcp =>
      LengthPrefixedAccumulator.Returned config.maxMessageBytes.toNat c.rawDecoder fed decoded
  | .webSocket =>
      WebSocketDecoder.Returned (Control.fresh config).webSocketDecoder c.webSocketDecoder fed decoded

/-- The bytes of a read that are still to be handled. -/
def holds : ReadPoint → Bytes
  | .handleRead true bytes | .processIncoming bytes | .processDetection bytes | .processRaw bytes
  | .processWebSocket bytes | .appendWebSocket bytes => bytes
  | .updateInbound _ rest => holds rest
  | _ => []

/-- What a reading thread knows about the transport of its session and the buffer of its detection.
-/
def Stands (c : Control) : ReadPoint → Prop
  | .postRead | .reading | .handleRead _ _ | .processIncoming _ | .repost =>
      c.transport ≠ .detecting → c.detectionBuffer = []
  | .processDetection _ | .detect | .greet _ => c.transport = .detecting
  | .store transport _ => transport ≠ .detecting ∧ c.transport = .detecting
  | .storeOpen transport _ | .leave transport _ => transport ≠ .detecting ∧ c.transport = transport
  | .processRaw _ | .rawLoop => c.transport = .rawTcp ∧ c.detectionBuffer = []
  | .processWebSocket _ | .appendWebSocket _ | .webSocketLoop | .webSocketState =>
      c.transport = .webSocket ∧ c.detectionBuffer = []
  | .deliverMessage _ loop => (loop = .rawLoop ∨ loop = .webSocketLoop) ∧ Stands c loop
  | .updateInbound _ rest =>
      (∀ s, decodes s (.reader s rest) = none ∧ receives s (.reader s rest) = []) ∧ Stands c rest

/-- What a reading thread knows about the bytes of its session: they are bytes of the reads, in
their order. -/
structure At (c : Control) (received fed : Bytes) (point : ReadPoint) : Prop where
  stands : Stands c point
  arrives : fed ++ c.detectionBuffer ++ holds point <+ received

section Reading

variable {config : ServerConfig} {c c' : Control} {received fed : Bytes} {decoded : List Bytes}
  {point point' : ReadPoint} {s : SessionHandle} {new : List (ServerSteps.Task SessionHandle)}

theorem Follows.congr (h : Follows config c fed decoded) (htransport : c'.transport = c.transport)
    (hraw : c'.rawDecoder = c.rawDecoder) (hwebSocket : c'.webSocketDecoder = c.webSocketDecoder) :
    Follows config c' fed decoded := by
  unfold Follows at h ⊢
  rw [htransport, hraw, hwebSocket]
  exact h

/-- **The messages that were returned are the first ones.** -/
theorem Follows.prefix_messages (h : Follows config c fed decoded) :
    decoded <+: messages config c.transport fed := by
  unfold Follows at h
  unfold messages
  cases htransport : c.transport with
  | detecting =>
      rw [htransport] at h
      rw [h.2.1]
  | rawTcp =>
      rw [htransport] at h
      exact h.prefix_messagesOf
  | webSocket =>
      rw [htransport] at h
      exact h.prefix_messagesOf

theorem Stands.congr (htransport : c'.transport = c.transport)
    (hbuffer : c'.detectionBuffer = c.detectionBuffer) (h : Stands c point) : Stands c' point := by
  induction point with
  | deliverMessage message loop ih => exact ⟨h.1, ih h.2⟩
  | updateInbound bytes rest ih => exact ⟨h.1, ih h.2⟩
  | processDetection | detect | greet => exact htransport.trans h
  | store | storeOpen | leave => exact ⟨h.1, htransport.trans h.2⟩
  | _ =>
      unfold Stands at h ⊢
      rwa [htransport, hbuffer]

@[simp] theorem feeds_processRaw (s : SessionHandle) (bytes : Bytes) :
    feeds s (.reader s (.processRaw bytes)) = bytes :=
  if_pos rfl

@[simp] theorem feeds_appendWebSocket (s : SessionHandle) (bytes : Bytes) :
    feeds s (.reader s (.appendWebSocket bytes)) = bytes :=
  if_pos rfl

/-- Where the decoder takes bytes, there are none in the buffer of the detection. -/
theorem Stands.feeds (h : Stands c point) (s : SessionHandle) :
    feeds s (.reader s point) = [] ∨ c.detectionBuffer = [] := by
  cases point with
  | processRaw bytes | appendWebSocket bytes => exact Or.inr h.2
  | _ => exact Or.inl rfl

/-- A thread that takes steps of its own is not about to leave the detection. -/
theorem Stands.detectionBuffer (h : Stands c point) {x : ServerSteps.Choice SessionHandle}
    {started : Bool}
    {r : Control × List (ServerSteps.Task SessionHandle)}
    (hlocal : ServerSteps.localStep config x started c s point = some r)
    (htransport : c.transport ≠ .detecting) : c.detectionBuffer = [] := by
  cases point with
  | postRead | reading | handleRead | processIncoming | repost => exact h htransport
  | processDetection | detect | greet => exact absurd h htransport
  | store => exact absurd h.2 htransport
  | storeOpen | leave | updateInbound => cases hlocal
  | deliverMessage message loop =>
      rcases h.1 with rfl | rfl
      · exact h.2.2
      · exact h.2.2
  | _ => exact h.2

/-- The decoder takes the bytes that its thread has. -/
theorem feeds_sublist (s : SessionHandle) (point : ReadPoint) :
    feeds s (.reader s point) <+ holds point := by
  cases point with
  | processRaw bytes => exact (feeds_processRaw s bytes).symm ▸ List.Sublist.refl bytes
  | appendWebSocket bytes => exact (feeds_appendWebSocket s bytes).symm ▸ List.Sublist.refl bytes
  | _ => exact List.nil_sublist _

/-- A reading thread does not make up bytes, by steps of its own. -/
theorem holds_of_goes (hgoes : ServerSteps.Goes config c point point') (h : Stands c point)
    (s : SessionHandle) : EngineSteps.feeds s (.reader s point) ++ holds point' <+ holds point := by
  cases hgoes with
  | stops | settles | appendsRaw | appendsWebSocket =>
      exact (List.append_nil _).symm ▸ feeds_sublist s _
  | delivered message loop =>
      rcases h.1 with rfl | rfl
      · exact List.nil_sublist _
      · exact List.nil_sublist _
  | _ => exact List.Sublist.refl _

/-- Where a reading thread goes by steps of its own. -/
theorem stands_of_goes (hgoes : ServerSteps.Goes config c point point') (h : Stands c point)
    (hbuffer : c.transport ≠ .detecting → c.detectionBuffer = []) : Stands c point' := by
  cases hgoes with
  | detecting htransport => exact htransport
  | rawTcp htransport => exact ⟨htransport, hbuffer (by simp [htransport])⟩
  | webSocket htransport => exact ⟨htransport, hbuffer (by simp [htransport])⟩
  | detectsRaw => exact ⟨by decide, h⟩
  | delivered => exact h.2
  | rawMessage => exact ⟨Or.inl rfl, h⟩
  | webSocketMessage => exact ⟨Or.inr rfl, h⟩
  | greets | appending | looping | webSocketAgain => exact h
  | appendsRaw | appendsWebSocket => exact ⟨fun _ => ⟨rfl, rfl⟩, h⟩
  | settles => exact ⟨fun _ => ⟨rfl, rfl⟩, hbuffer⟩
  | stops | incoming | posting => exact hbuffer

/-- **Where a reading thread goes by steps of its own**, with the bytes that it has. -/
theorem At.goes (h : At c received fed point) {x : ServerSteps.Choice SessionHandle} {started : Bool}
    (hlocal : ServerSteps.localStep config x started c s point = some (c', new))
    (hgoes : ServerSteps.Goes config c point point') :
    At c' received (fed ++ EngineSteps.feeds s (.reader s point)) point' := by
  obtain ⟨hkept, -⟩ := ServerSteps.localStep_spec hlocal
  have hstands := stands_of_goes hgoes h.stands (h.stands.detectionBuffer hlocal)
  have hholds := holds_of_goes hgoes h.stands s
  refine ⟨hstands.congr hkept.transport hkept.detectionBuffer, List.Sublist.trans ?_ h.arrives⟩
  rw [hkept.detectionBuffer]
  rcases h.stands.feeds s with hnothing | hempty
  · rw [hnothing] at hholds ⊢
    rw [List.append_nil]
    exact List.Sublist.append_left hholds _
  · rw [hempty, List.append_nil, List.append_nil, List.append_assoc]
    exact List.Sublist.append_left hholds _

theorem follows_rawTcp (htransport : c.transport = .rawTcp) :
    Follows config c fed decoded ↔
      LengthPrefixedAccumulator.Returned config.maxMessageBytes.toNat c.rawDecoder fed decoded := by
  rw [Follows, htransport]

theorem follows_webSocket (htransport : c.transport = .webSocket) :
    Follows config c fed decoded ↔ WebSocketDecoder.Returned (Control.fresh config).webSocketDecoder
      c.webSocketDecoder fed decoded := by
  rw [Follows, htransport]

/-- `Append` of the raw decoder. -/
theorem Follows.appendRaw (h : Follows config c fed decoded) (htransport : c.transport = .rawTcp)
    (bytes : Bytes) :
    Follows config { c with rawDecoder := (c.rawDecoder.append bytes).2 } (fed ++ bytes)
      (decoded ++ []) := by
  have happend := ((follows_rawTcp htransport).1 h).append bytes
  rw [List.append_nil, Follows, htransport]
  exact happend

/-- `Append` of the WebSocket decoder. -/
theorem Follows.appendWebSocket (h : Follows config c fed decoded)
    (htransport : c.transport = .webSocket) (bytes : Bytes) :
    Follows config { c with webSocketDecoder := (c.webSocketDecoder.append bytes).2 } (fed ++ bytes)
      (decoded ++ []) := by
  have happend := ((follows_webSocket htransport).1 h).append bytes
  rw [List.append_nil, Follows, htransport]
  exact happend

/-- A call of `Next` in `ProcessRaw`. -/
theorem Follows.rawEvent (h : Follows config c fed decoded) (htransport : c.transport = .rawTcp) :
    Follows config (ServerSteps.rawEvent c s).1 fed
      (decoded ++ (ServerSteps.rawEvent c s).2.filterMap (decodes s)) := by
  have hnext := ((follows_rawTcp htransport).1 h).next
  have hkept : (ServerSteps.rawEvent c s).1.transport = .rawTcp := by
    unfold ServerSteps.rawEvent
    dsimp only
    split <;> exact htransport
  rw [follows_rawTcp hkept]
  unfold LengthPrefixedAccumulator.nextMessage at hnext
  unfold ServerSteps.rawEvent
  dsimp only
  split
  · next hstatus =>
      rw [hstatus, if_neg (by simp)] at hnext
      exact hnext
  · next hstatus =>
      rw [hstatus, if_pos rfl] at hnext
      simpa [decodes] using hnext
  · next hready =>
      rw [if_neg hready] at hnext
      exact hnext

/-- A call of `Next` in `ProcessWebSocket`. -/
theorem Follows.webSocketEvent (h : Follows config c fed decoded)
    (htransport : c.transport = .webSocket) :
    Follows config (ServerSteps.webSocketEvent c s).1 fed
      (decoded ++ (ServerSteps.webSocketEvent c s).2.filterMap (decodes s)) := by
  have hnext := ((follows_webSocket htransport).1 h).next
  have hkept : (ServerSteps.webSocketEvent c s).1.transport = .webSocket := by
    unfold ServerSteps.webSocketEvent
    dsimp only
    split
    · exact htransport
    · exact htransport
    · exact htransport
    · exact htransport
    · split <;> exact htransport
  rw [follows_webSocket hkept]
  unfold WebSocketDecoder.nextMessage at hnext
  unfold ServerSteps.webSocketEvent
  dsimp only
  split
  · next hstatus =>
      rw [hstatus] at hnext
      exact hnext
  · next hstatus =>
      rw [hstatus] at hnext
      exact hnext
  · next hstatus =>
      rw [hstatus] at hnext
      exact hnext
  · next hstatus =>
      rw [hstatus] at hnext
      exact hnext
  · next hstatus =>
      rw [hstatus, WebSocketDecoder.messageOf] at hnext
      split
      · next htype =>
          rw [if_pos htype] at hnext
          -- only a binary message goes on to `DeliverMessage`
          simpa [decodes] using hnext
      · next htype =>
          rw [if_neg (by simp [htype])] at hnext
          exact hnext
      · next htype =>
          rw [if_neg (by simp [htype])] at hnext
          exact hnext
      · next htype =>
          rw [if_neg (by simp [htype])] at hnext
          exact hnext

/-- `DeliverMessage` leaves the decoders alone, and is not called again by itself. -/
theorem deliverMessage_alike (config : ServerConfig) (c : Control) (s : SessionHandle) (now : ℤ)
    (verdict : Option MessageDisposition) {loop : ReadPoint}
    (hloop : loop = .rawLoop ∨ loop = .webSocketLoop) :
    ServerSteps.Alike c (ServerSteps.deliverMessage config c s now verdict loop).1 ∧
      (ServerSteps.deliverMessage config c s now verdict loop).2.filterMap (decodes s) = [] := by
  have hwindow : ServerSteps.Alike c (ServerSteps.rateWindow c now) := by
    unfold ServerSteps.rateWindow
    split
    · exact ⟨rfl, rfl, rfl, rfl⟩
    · exact ⟨rfl, rfl, rfl, rfl⟩
  obtain ⟨htransport, hbuffer, hraw, hwebSocket⟩ := hwindow
  have hnothing : ([.reader s loop] : List (ServerSteps.Task SessionHandle)).filterMap (decodes s) =
      [] := by
    rcases hloop with rfl | rfl
    · rfl
    · rfl
  unfold ServerSteps.deliverMessage
  dsimp only
  split
  · exact ⟨⟨htransport, hbuffer, hraw, hwebSocket⟩, rfl⟩
  · split
    · exact ⟨⟨htransport, hbuffer, hraw, hwebSocket⟩, hnothing⟩
    · exact ⟨⟨htransport, hbuffer, hraw, hwebSocket⟩, hnothing⟩
    · split
      · exact ⟨⟨htransport, hbuffer, hraw, hwebSocket⟩, rfl⟩
      · exact ⟨⟨htransport, hbuffer, hraw, hwebSocket⟩, hnothing⟩

/-- **The decoder of a session follows its reading thread.** -/
theorem Follows.localStep (h : Follows config c fed decoded) (hstands : Stands c point)
    {x : ServerSteps.Choice SessionHandle} {started : Bool}
    (hlocal : ServerSteps.localStep config x started c s point = some (c', new)) :
    Follows config c' (fed ++ EngineSteps.feeds s (.reader s point))
      (decoded ++ new.filterMap (decodes s)) := by
  -- a step that neither feeds the decoder nor takes a message out of it
  have hquiet : ∀ {c' : Control} {new : List (ServerSteps.Task SessionHandle)},
      ServerSteps.Alike c c' → new.filterMap (decodes s) = [] →
      Follows config c' (fed ++ []) (decoded ++ new.filterMap (decodes s)) := by
    intro c' new halike hnew
    rw [hnew, List.append_nil, List.append_nil]
    exact h.congr halike.transport halike.rawDecoder halike.webSocketDecoder
  have hsame : ServerSteps.Alike c c := ⟨rfl, rfl, rfl, rfl⟩
  cases point with
  | handleRead succeeded bytes =>
      simp only [ServerSteps.localStep] at hlocal
      split at hlocal <;> obtain ⟨rfl, rfl⟩ := Prod.mk.inj (Option.some.inj hlocal)
      · exact hquiet hsame rfl
      · exact hquiet hsame rfl
  | processIncoming bytes =>
      simp only [ServerSteps.localStep] at hlocal
      split at hlocal <;> obtain ⟨rfl, rfl⟩ := Prod.mk.inj (Option.some.inj hlocal)
      · exact hquiet hsame rfl
      · exact hquiet hsame rfl
      · exact hquiet hsame rfl
  | detect =>
      simp only [ServerSteps.localStep] at hlocal
      split at hlocal <;> obtain ⟨rfl, rfl⟩ := Prod.mk.inj (Option.some.inj hlocal)
      · exact hquiet hsame rfl
      · exact hquiet hsame rfl
      · exact hquiet hsame rfl
      · exact hquiet hsame rfl
  | processRaw bytes =>
      rw [feeds_processRaw]
      simp only [ServerSteps.localStep] at hlocal
      split at hlocal <;> obtain ⟨rfl, rfl⟩ := Prod.mk.inj (Option.some.inj hlocal)
      · exact h.appendRaw hstands.1 bytes
      · exact h.appendRaw hstands.1 bytes
  | rawLoop =>
      simp only [ServerSteps.localStep] at hlocal
      split at hlocal
      · obtain ⟨rfl, rfl⟩ := Prod.mk.inj (Option.some.inj hlocal)
        exact hquiet hsame rfl
      · obtain ⟨rfl, rfl⟩ := Prod.mk.inj (Option.some.inj hlocal)
        exact (List.append_nil fed).symm ▸ h.rawEvent hstands.1
  | processWebSocket bytes =>
      simp only [ServerSteps.localStep] at hlocal
      split at hlocal <;> obtain ⟨rfl, rfl⟩ := Prod.mk.inj (Option.some.inj hlocal)
      · exact hquiet hsame rfl
      · exact hquiet hsame rfl
  | appendWebSocket bytes =>
      rw [feeds_appendWebSocket]
      simp only [ServerSteps.localStep] at hlocal
      split at hlocal <;> obtain ⟨rfl, rfl⟩ := Prod.mk.inj (Option.some.inj hlocal)
      · exact h.appendWebSocket hstands.1 bytes
      · exact h.appendWebSocket hstands.1 bytes
  | webSocketLoop =>
      simp only [ServerSteps.localStep] at hlocal
      split at hlocal <;> obtain ⟨rfl, rfl⟩ := Prod.mk.inj (Option.some.inj hlocal)
      · exact hquiet hsame rfl
      · exact hquiet hsame rfl
  | webSocketState =>
      simp only [ServerSteps.localStep] at hlocal
      split at hlocal
      · obtain ⟨rfl, rfl⟩ := Prod.mk.inj (Option.some.inj hlocal)
        exact hquiet hsame rfl
      · obtain ⟨rfl, rfl⟩ := Prod.mk.inj (Option.some.inj hlocal)
        exact (List.append_nil fed).symm ▸ h.webSocketEvent hstands.1
  | deliverMessage message loop =>
      simp only [ServerSteps.localStep] at hlocal
      split at hlocal
      · next now verdict =>
          obtain ⟨halike, hnothing⟩ := deliverMessage_alike config c s now verdict hstands.1
          obtain ⟨rfl, rfl⟩ := Prod.mk.inj (Option.some.inj hlocal)
          exact hquiet halike hnothing
      · cases hlocal
  | repost =>
      simp only [ServerSteps.localStep] at hlocal
      obtain ⟨rfl, rfl⟩ := Prod.mk.inj (Option.some.inj hlocal)
      split
      · exact hquiet hsame rfl
      · exact hquiet hsame rfl
  | _ => cases hlocal

end Reading

/-! ### A step of the reading thread -/

/-- What holds of a session when its reading thread goes on, or gives up its read. -/
structure Onward (config : ServerConfig) (c : Control) (s : SessionHandle) (received fed : Bytes)
    (decoded : List Bytes) (new : List (ServerSteps.Task SessionHandle)) : Prop where
  follows : Follows config c fed (decoded ++ new.filterMap (decodes s))
  arrives : fed <+ received ++ new.flatMap (receives s)
  reader : ∀ point, .reader s point ∈ new → At c (received ++ new.flatMap (receives s)) fed point

section Turns

variable {config : ServerConfig} {c : Control} {received fed : Bytes} {decoded : List Bytes}
  {point : ReadPoint} {s : SessionHandle} {calls new : List (ServerSteps.Task SessionHandle)}

theorem quiet_of_not_reader (s : SessionHandle) (h : ∀ t ∈ calls, t.reader? = none) :
    calls.filterMap (decodes s) = [] ∧ calls.flatMap (receives s) = [] := by
  constructor
  · refine List.filterMap_eq_nil_iff.2 fun t ht => ?_
    cases t with
    | reader s' point => cases h _ ht
    | _ => rfl
  · refine List.flatMap_eq_nil_iff.2 fun t ht => ?_
    cases t with
    | reader s' point => cases h _ ht
    | _ => rfl

theorem Onward.gives_up (hfollows : Follows config c fed decoded) (hfed : fed <+ received)
    (hnew : ∀ t ∈ new, t.reader? = none) : Onward config c s received fed decoded new := by
  obtain ⟨hnothing, hno⟩ := quiet_of_not_reader s hnew
  refine ⟨?_, ?_, fun point hmem => absurd (hnew _ hmem) (Option.some_ne_none _)⟩
  · rw [hnothing, List.append_nil]
    exact hfollows
  · rw [hno, List.append_nil]
    exact hfed

theorem Onward.goes (hcalls : ∀ t ∈ calls, t.reader? = none)
    (hfollows : Follows config c fed
      (decoded ++ (calls ++ [ServerSteps.Task.reader s point]).filterMap (decodes s)))
    (hat : At c (received ++ receives s (.reader s point)) fed point) :
    Onward config c s received fed decoded (calls ++ [.reader s point]) := by
  have hreads : (calls ++ [ServerSteps.Task.reader s point]).flatMap (receives s) =
      receives s (.reader s point) := by
    rw [List.flatMap_append, (quiet_of_not_reader s hcalls).2, List.nil_append, List.flatMap_singleton]
  refine ⟨hfollows, ?_, fun point' hmem => ?_⟩
  · rw [hreads]
    refine List.Sublist.trans ?_ hat.arrives
    rw [List.append_assoc]
    exact List.sublist_append_left _ _
  · rw [hreads]
    rcases List.mem_append.1 hmem with hcall | hlast
    · exact absurd (hcalls _ hcall) (Option.some_ne_none _)
    · injection List.mem_singleton.1 hlast with _ hpoint
      rw [hpoint]
      exact hat

/-- The thread goes on behind some calls, and has neither read bytes nor a message. -/
theorem Onward.behind (hfollows : Follows config c fed decoded) (hat : At c received fed point)
    (hcalls : ∀ t ∈ calls, t.reader? = none) (hmessage : decodes s (.reader s point) = none)
    (hread : receives s (.reader s point) = []) :
    Onward config c s received fed decoded (calls ++ [.reader s point]) := by
  refine Onward.goes hcalls ?_ ?_
  · rw [List.filterMap_append, (quiet_of_not_reader s hcalls).1, List.filterMap_cons_none hmessage,
      List.filterMap_nil, List.append_nil, List.append_nil]
    exact hfollows
  · rw [hread, List.append_nil]
    exact hat

theorem Onward.on (hfollows : Follows config c fed decoded) (hat : At c received fed point)
    (hmessage : decodes s (.reader s point) = none) (hread : receives s (.reader s point) = []) :
    Onward config c s received fed decoded [.reader s point] :=
  Onward.behind hfollows hat (fun _ ht => absurd ht List.not_mem_nil) hmessage hread

/-- `ProcessDetection` stores the transport of the session. -/
theorem Follows.stores (h : Follows config c fed decoded) (htransport : c.transport = .detecting)
    {transport : TransportKind} (hne : transport ≠ .detecting) :
    Follows config { c with transport := transport } fed decoded := by
  rw [Follows, htransport] at h
  obtain ⟨rfl, rfl, hraw, hwebSocket⟩ := h
  unfold Follows
  cases transport with
  | detecting => exact absurd rfl hne
  | rawTcp =>
      dsimp only
      rw [hraw]
      exact LengthPrefixedAccumulator.returned_fresh _ _
  | webSocket =>
      dsimp only
      rw [hwebSocket]
      exact WebSocketDecoder.returned_fresh ⟨rfl, le_rfl⟩ rfl

/-- `ProcessDetection` leaves its buffer. -/
theorem At.leaves {transport : TransportKind} {consumed : ℕ}
    (h : At c received fed (.leave transport consumed)) :
    At { c with detectionBuffer := [] } received fed
      (ServerSteps.handOver transport (c.detectionBuffer.drop consumed)) := by
  obtain ⟨⟨hne, htransport⟩, harrives⟩ := h
  have hdrop : fed ++ [] ++ c.detectionBuffer.drop consumed <+ received := by
    refine List.Sublist.trans ?_ harrives
    rw [List.append_nil]
    refine List.Sublist.trans ?_ (List.sublist_append_left _ _)
    exact List.Sublist.append_left (List.drop_sublist _ _) _
  cases transport with
  | detecting => exact absurd rfl hne
  | rawTcp => exact ⟨⟨fun _ => ⟨rfl, rfl⟩, htransport, rfl⟩, hdrop⟩
  | webSocket =>
      unfold ServerSteps.handOver
      dsimp only
      split
      · refine ⟨⟨fun _ => ⟨rfl, rfl⟩, fun _ => rfl⟩, List.Sublist.trans ?_ hdrop⟩
        exact List.Sublist.append_left (List.nil_sublist _) _
      · exact ⟨⟨fun _ => ⟨rfl, rfl⟩, htransport, rfl⟩, hdrop⟩

/-- Steps of its own do not read. -/
theorem receives_of_goes {point' : ReadPoint} (h : ServerSteps.Goes config c point point')
    (hstands : Stands c point) (s : SessionHandle) : receives s (.reader s point') = [] := by
  cases h with
  | delivered message loop =>
      rcases hstands.1 with rfl | rfl
      · rfl
      · rfl
  | _ => rfl

/-- **What a step of the reading thread does to its session.** -/
theorem At.step {sv sv' : ServerSteps.Server SessionHandle}
    (hstep : ServerSteps.Step config sv (.reader s point) sv' new)
    (hfollows : Follows config (sv.control s) fed decoded) (hat : At (sv.control s) received fed point)
    (hfed : fed <+ received) :
    (sv'.control s).accepted = (sv.control s).accepted ∧
      Onward config (sv'.control s) s received (fed ++ feeds s (.reader s point)) decoded new := by
  have hone : ∀ t ∈ [ServerSteps.disconnect s], t.reader? = none := by
    intro t ht
    rw [List.mem_singleton.1 ht]
    rfl
  -- a step that does not feed the decoder
  have hquiet : ∀ {c' : Control}, feeds s (.reader s point) = [] →
      Onward config c' s received fed decoded new →
        Onward config c' s received (fed ++ feeds s (.reader s point)) decoded new := by
    intro c' hnothing h
    rw [hnothing, List.append_nil]
    exact h
  cases hstep with
  | posts hopen =>
      exact ⟨rfl, hquiet rfl (.on hfollows ⟨hat.stands, hat.arrives⟩ rfl rfl)⟩
  | notPosted => exact ⟨rfl, hquiet rfl (.gives_up hfollows hfed hone)⟩
  | @reads _ succeeded bytes hlen =>
      refine ⟨rfl, hquiet rfl ?_⟩
      have harrives : fed ++ (sv.control s).detectionBuffer ++ [] <+ received := hat.arrives
      cases succeeded with
      | false =>
          exact .on hfollows ⟨hat.stands, harrives⟩ rfl rfl
      | true =>
          have hreceives : receives s (.reader s (.handleRead true bytes)) = bytes := if_pos rfl
          refine Onward.goes (fun t ht => absurd ht List.not_mem_nil) ?_ ⟨hat.stands, ?_⟩
          · exact (List.append_nil decoded).symm ▸ hfollows
          · rw [hreceives]
            rw [List.append_nil] at harrives
            exact harrives.append (List.Sublist.refl bytes)
  | overflows _ bytes =>
      refine ⟨rfl, hquiet rfl ?_⟩
      have hrest : At (sv.control s) received fed .repost := by
        refine ⟨fun hne => absurd hat.stands hne, List.Sublist.trans ?_ hat.arrives⟩
        exact List.Sublist.append_left (List.nil_sublist _) _
      exact Onward.behind hfollows hrest hone rfl rfl
  | buffers _ bytes hroom =>
      rw [ServerSteps.modify_self]
      refine ⟨rfl, hquiet rfl (.on (hfollows.congr rfl rfl rfl) ⟨⟨fun _ => ⟨rfl, rfl⟩, hat.stands⟩, ?_⟩
        rfl rfl)⟩
      have harrives : fed ++ (sv.control s).detectionBuffer ++ bytes <+ received := hat.arrives
      dsimp only [holds]
      rwa [List.append_nil, ← List.append_assoc]
  | @greets _ result out next hact =>
      rw [ServerSteps.modify_self]
      refine ⟨rfl, hquiet rfl (.behind (hfollows.congr rfl rfl rfl)
        ⟨⟨by decide, hat.stands⟩, hat.arrives⟩ (fun t ht => ?_) rfl rfl)⟩
      obtain ⟨q, -, rfl⟩ := List.mem_map.1 ht
      rfl
  | stores _ transport consumed =>
      rw [ServerSteps.modify_self]
      obtain ⟨hne, hdetecting⟩ := hat.stands
      exact ⟨rfl, hquiet rfl (.on (hfollows.stores hdetecting hne) ⟨⟨hne, rfl⟩, hat.arrives⟩ rfl rfl)⟩
  | opens _ transport consumed =>
      rw [ServerSteps.modify_self]
      exact ⟨rfl, hquiet rfl (.on (hfollows.congr rfl rfl rfl) ⟨hat.stands, hat.arrives⟩ rfl rfl)⟩
  | leaves _ transport consumed =>
      rw [ServerSteps.modify_self]
      exact ⟨rfl, hquiet rfl (.on (hfollows.congr rfl rfl rfl) hat.leaves rfl rfl)⟩
  | updates _ bytes rest =>
      obtain ⟨total, htotal⟩ := ServerSteps.updateInboundAccounting_eq config sv s bytes
      obtain ⟨hsettled, hstands⟩ := hat.stands
      rw [htotal]
      dsimp only
      rw [ServerSteps.modify_self]
      refine ⟨rfl, hquiet rfl (.behind (hfollows.congr rfl rfl rfl)
        ⟨Stands.congr (c := sv.control s) rfl rfl hstands, hat.arrives⟩ (fun t ht => ?_)
          (hsettled s).1 (hsettled s).2)⟩
      split at ht
      · exact hone t ht
      · cases ht
  | @handles x _ point c' new hlocal =>
      obtain ⟨hkept, hproceeds⟩ := ServerSteps.localStep_spec hlocal
      have hbehind := hfollows.localStep hat.stands hlocal
      rw [ServerSteps.modify_self]
      refine ⟨hkept.accepted, ?_⟩
      rcases hproceeds with rfl | ⟨calls, point', rfl, hcalls, hgoes⟩
      · obtain ⟨-, hno⟩ := quiet_of_not_reader s hone
        refine ⟨hbehind, ?_, fun point' hmem => absurd (hone _ hmem) (Option.some_ne_none _)⟩
        rw [hno, List.append_nil]
        refine List.Sublist.trans ?_ hat.arrives
        rw [List.append_assoc]
        exact List.Sublist.append_left
          ((feeds_sublist s point).trans (List.sublist_append_right _ _)) _
      · refine Onward.goes hcalls.reader?_eq_none hbehind ?_
        rw [receives_of_goes hgoes hat.stands, List.append_nil]
        exact hat.goes hlocal hgoes
  | calls hsession hcall => cases hcall

end Turns

/-! ### The invariant -/

/-- **What holds of the input of a session.** -/
structure Reads (config : ServerConfig) (e : Engine) (Q : Multiset (ServerSteps.Task SessionHandle))
    (s : SessionHandle) : Prop where
  fresh : (e.server.control s).accepted = false →
    e.fed s = [] ∧ (e.server.control s).detectionBuffer = []
  follows : Follows config (e.server.control s) (e.fed s) (e.decoded s)
  arrives : e.fed s <+ e.received s
  reader : ∀ point, .reader s point ∈ Q →
    At (e.server.control s) (e.received s) (e.fed s) point

section Steps

variable {codec : Codec} {build : Outgoing → Bytes} {config : ServerConfig} {e e' : Engine}
  {t : ServerSteps.Task SessionHandle} {server : ServerSteps.Server SessionHandle}
  {new : List (ServerSteps.Task SessionHandle)} {origin : Option MessageId} {s : SessionHandle}
  {Q : Multiset (ServerSteps.Task SessionHandle)}

/-- A step of another thread leaves the input of the session alone. -/
theorem alike_beside (hstep : ServerSteps.Step config e.server t server new)
    (ht : ∀ point, t ≠ .reader s point) :
    ServerSteps.Alike (e.server.control s) (server.control s) := by
  have hsame : ServerSteps.Alike (e.server.control s) (e.server.control s) := ⟨rfl, rfl, rfl, rfl⟩
  by_cases hs : t.session? = some s
  · cases hstep with
    | arrives => cases hs
    | acts => exact hsame
    | disconnects => exact hsame
    | accepts =>
        obtain rfl := Option.some.inj hs
        rw [ServerSteps.modify_self]
        exact ⟨rfl, rfl, rfl, rfl⟩
    | removes =>
        obtain rfl := Option.some.inj hs
        rw [ServerSteps.modify_self]
        exact ⟨rfl, rfl, rfl, rfl⟩
    | releases s' =>
        obtain rfl := Option.some.inj hs
        obtain ⟨total, htotal⟩ := ServerSteps.updateInboundAccounting_eq config e.server s' 0
        rw [htotal]
        dsimp only
        rw [ServerSteps.modify_self]
        exact ⟨rfl, rfl, rfl, rfl⟩
    | calls hsession hcall =>
        obtain rfl := Option.some.inj (hs.symm.trans hsession)
        rw [ServerSteps.modify_self]
        exact ⟨rfl, rfl, rfl, rfl⟩
    | posts | notPosted | reads | overflows | buffers | greets | stores | opens | leaves | updates
    | handles =>
        obtain rfl := Option.some.inj hs
        exact absurd rfl (ht _)
  · rw [(hstep.frame hs).1]
    exact hsame

/-- Only a step that accepts the session starts a read of it. -/
theorem accepts_beside (hstep : ServerSteps.Step config e.server t server new)
    (ht : ∀ point, t ≠ .reader s point) :
    ((server.control s).accepted = false → (e.server.control s).accepted = false) ∧
      ∀ point, .reader s point ∈ new →
        (e.server.control s).accepted = false ∧ point = .postRead := by
  have hreads := hstep.readers s
  have hnot : ServerSteps.reader s t = 0 := by
    cases t with
    | reader s' point => exact if_neg fun hs => ht point (by rw [Option.some.inj hs])
    | _ => rfl
  rw [hnot, zero_add] at hreads
  unfold Control.reads at hreads
  refine ⟨fun hfalse => ?_, fun point hmem => ⟨?_, ?_⟩⟩
  · rw [hfalse] at hreads
    by_contra haccepted
    rw [if_pos (by simpa using haccepted)] at hreads
    simp at hreads
  · have hone : 1 ≤ (new.map (ServerSteps.reader s)).sum := by
      refine List.single_le_sum (fun _ _ => Nat.zero_le _) 1 (List.mem_map.2 ⟨_, hmem, ?_⟩)
      exact ServerSteps.reader_self s point
    by_contra haccepted
    rw [if_pos (by simpa using haccepted)] at hreads
    split at hreads
    · omega
    · omega
  · rcases hstep.goesOn with hquiet | ⟨s', calls, point', rfl, hcalls, hread⟩
    · cases hquiet _ hmem
    · rcases List.mem_append.1 hmem with hcall | hlast
      · cases hcalls _ hcall
      · injection List.mem_singleton.1 hlast with hs hpoint
        subst hs hpoint
        rcases hread with ⟨before, rfl⟩ | hpost
        · exact absurd rfl (ht before)
        · exact hpost

/-- A step of another thread. -/
theorem Reads.beside (h : Reads config e (t ::ₘ Q) s)
    (hstep : ServerSteps.Step config e.server t server new) (ht : ∀ point, t ≠ .reader s point) :
    Reads config (e.advance t server new origin) (new + Q) s := by
  obtain ⟨htransport, hbuffer, hraw, hwebSocket⟩ := alike_beside hstep ht
  obtain ⟨haccepted, hnew⟩ := accepts_beside hstep ht
  -- a step beside the read decodes, receives and feeds nothing for the session
  have hmessages : new.filterMap (decodes s) = [] := by
    refine List.filterMap_eq_nil_iff.2 fun t' ht' => ?_
    cases t' with
    | reader s' point =>
        cases point with
        | deliverMessage message loop =>
            refine if_neg ?_
            rintro rfl
            cases (hnew _ ht').2
        | _ => rfl
    | _ => rfl
  have hbytes : new.flatMap (receives s) = [] := by
    refine List.flatMap_eq_nil_iff.2 fun t' ht' => ?_
    cases t' with
    | reader s' point =>
        cases point with
        | handleRead succeeded bytes =>
            cases succeeded with
            | false => rfl
            | true =>
                refine if_neg ?_
                rintro rfl
                cases (hnew _ ht').2
        | _ => rfl
    | _ => rfl
  have hfeeds : feeds s t = [] := by
    cases t with
    | reader s' point =>
        have hne : s' ≠ s := fun hs => ht point (by rw [hs])
        cases point with
        | processRaw bytes | appendWebSocket bytes => exact if_neg hne
        | _ => rfl
    | _ => rfl
  have hfed : (e.advance t server new origin).fed s = e.fed s := by
    simp only [Engine.advance, hfeeds, List.append_nil]
  have hreceived : (e.advance t server new origin).received s = e.received s := by
    simp only [Engine.advance, hbytes, List.append_nil]
  have hdecoded : (e.advance t server new origin).decoded s = e.decoded s := by
    simp only [Engine.advance, hmessages, List.append_nil]
  have hserver : (e.advance t server new origin).server = server := rfl
  refine ⟨fun hfalse => ?_, ?_, ?_, fun point hmem => ?_⟩
  · rw [hfed, hserver, hbuffer]
    exact h.fresh (haccepted hfalse)
  · rw [hfed, hdecoded, hserver]
    exact h.follows.congr htransport hraw hwebSocket
  · rw [hfed, hreceived]
    exact h.arrives
  · rw [hfed, hreceived, hserver]
    rcases Multiset.mem_add.1 hmem with hmem | hmem
    · -- the first read starts with the accept, before any byte
      obtain ⟨hfalse, rfl⟩ := hnew point hmem
      obtain ⟨hnothing, hempty⟩ := h.fresh hfalse
      refine ⟨fun _ => hbuffer.trans hempty, ?_⟩
      rw [hnothing, hbuffer, hempty]
      exact List.nil_sublist _
    · obtain ⟨hstands, harrives⟩ := h.reader point (Multiset.mem_cons_of_mem hmem)
      refine ⟨hstands.congr htransport hbuffer, ?_⟩
      rw [hbuffer]
      exact harrives

/-- A step of the server keeps the messages in order. -/
theorem Reads.serves (h : Reads config e (t ::ₘ Q) s) (hserves : Serves config e (t ::ₘ Q))
    (hstep : ServerSteps.Step config e.server t server new) :
    Reads config (e.advance t server new origin) (new + Q) s := by
  by_cases ht : ∃ point, t = .reader s point
  · obtain ⟨point, rfl⟩ := ht
    -- no other thread has a read of the session
    obtain ⟨hsession, halone⟩ := ServerSteps.alone_of_oneReader (hserves.readers s)
    obtain ⟨haccepted, honward⟩ := At.step hstep h.follows
      (h.reader point (Multiset.mem_cons_self _ Q)) h.arrives
    refine ⟨fun hfalse => ?_, honward.follows, ?_, fun point' hmem => ?_⟩
    · rw [show (e.advance (.reader s point) server new origin).server = server from rfl, haccepted,
        hsession] at hfalse
      cases hfalse
    · exact honward.arrives
    · rcases Multiset.mem_add.1 hmem with hmem | hmem
      · exact honward.reader point' hmem
      · exact absurd hmem (halone point')
  · exact h.beside hstep fun point heq => ht ⟨point, heq⟩

/-- New calls of `Send` change nothing. -/
theorem Reads.sends (h : Reads config e Q s) (router : RouterSteps.Shared)
    {sends : List (ServerSteps.Task SessionHandle)}
    (hsends : ∀ t ∈ sends, ∃ recipient payload, t = .send recipient payload) :
    Reads config { e with router := router } (sends + Q) s := by
  refine ⟨h.fresh, h.follows, h.arrives, fun point hmem => ?_⟩
  rcases Multiset.mem_add.1 hmem with hsend | hrest
  · obtain ⟨recipient, payload, heq⟩ := hsends _ hsend
    cases heq
  · exact h.reader point hrest

/-- **What holds of the server's part and of the input of every session.** -/
def Serving (config : ServerConfig) (e : Engine) (Q : Multiset (ServerSteps.Task SessionHandle)) :
    Prop :=
  Serves config e Q ∧ ∀ s, Reads config e Q s

/-- **Every step keeps the messages in order.** -/
theorem Serving.step {task : Task} {new : List Task} {R : Multiset Task}
    (hstep : Step codec build config e task e' new)
    (h : Serving config e (serverTasks (task ::ₘ R))) : Serving config e' (serverTasks (new + R)) := by
  refine hstep.serverInvariant (I := Serving config) ?_ ?_ h
  · rintro e router sends Q hsends ⟨hserves, hreads⟩
    exact ⟨hserves.sends router hsends, fun s => (hreads s).sends router hsends⟩
  · rintro e t server l origin Q hserver ⟨hserves, hreads⟩
    exact ⟨hserves.serves hserver origin, fun s => (hreads s).serves hserves hserver⟩

theorem serving_start (config : ServerConfig) :
    Serving config (start config).shared (serverTasks (start config).pending) := by
  refine ⟨⟨fun s => Nat.zero_le _, .start⟩, fun s => ⟨fun _ => ⟨rfl, rfl⟩, ⟨rfl, rfl, rfl, rfl⟩,
    List.nil_sublist _, fun point hmem => ?_⟩⟩
  cases List.mem_singleton.1 hmem

end Steps

end EngineSteps

end RealtimeEngine
