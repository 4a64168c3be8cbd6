/-
**From `Send` to the messages of the peer.**

A message that `Send` accepts is framed, queued, written in as many pieces as `WSASend` likes, and
cut once more by the network before the peer decodes it.  Here the ends are put together.  The items
of a session are frames of its transport (`RealtimeEngine/ServerQueued.lean`), the wire is a prefix
of their bytes (`RealtimeEngine/OutboundStream.lean`), and a decoder does not depend on the cut
(`RealtimeEngine/FramingStream.lean`, `RealtimeEngine/WebSocketStream.lean`): so the peer has the
messages that `Send` has accepted, in their order, up to the last one that is transmitted to its
last byte; and these were given to `Send` (`RealtimeEngine/ServerOffers.lean`).

Main definitions:

* `RealtimeEngine.ServerSteps.frames`, `RealtimeEngine.ServerSteps.messagesIn` — the items of a
  WebSocket session for a list of events, and the messages among them.

Main results:

* `RealtimeEngine.LengthPrefixedAccumulator.decode_prefix`,
  `RealtimeEngine.WebSocketDecoder.decode_prefix` — a peer that has received a part of a stream;
* `RealtimeEngine.ServerSteps.Queued.raw_peer`, `RealtimeEngine.ServerSteps.Queued.webSocket_peer` —
  what the peer of a session has read of its queue;
* `RealtimeEngine.ServerSteps.raw_delivery`, `RealtimeEngine.ServerSteps.webSocket_delivery` — **what
  the peer of a raw session, and of a WebSocket session, has read in every run**.
-/

import RealtimeEngine.FramingStream
import RealtimeEngine.ServerOffers
import RealtimeEngine.WebSocketStream

set_option relaxedAutoImplicit false
set_option autoImplicit false

namespace RealtimeEngine

open StreamConsumer

/-! ### A peer that has received a part -/

namespace LengthPrefixedAccumulator

variable {M R B : ℕ} {messages : List Bytes} {stream : Bytes} {cut : List Bytes}

/-- **A peer that has received a part of a stream** has no complaint, and it has read the messages
whose last byte it has. -/
theorem decode_prefix (hmessages : ∀ m ∈ messages, 1 ≤ m.length ∧ m.length ≤ M)
    (hstream : encodeMessages messages = some stream) (hroom : M + 3 + R ≤ B)
    (hcut : ∀ chunk ∈ cut, chunk.length ≤ R) (hread : cut.flatten <+: stream) :
    (decode M B cut).refused = false ∧ (decode M B cut).status = .needMoreData ∧
      (decode M B cut).messages <+: messages ∧
      ∀ first bytes, first <+: messages → encodeMessages first = some bytes →
        bytes <+: cut.flatten → first <+: (decode M B cut).messages := by
  have haccepted := decode_not_refused hroom hcut
  have hplace := ((decode_follows M B cut).resolve_left (by rw [haccepted]; decide)).place
  -- the messages so far only grow with the stream
  have hgrows := fun xs more => (frameConsumer M).out_drain_append id
    (fun {before after data} h => by
      simp only [frameConsumer_turn, frameTurn] at h
      split at h
      · cases h
      · rw [Turn.halt.inj h]
      · cases h)
    (fun {before after data n} h => by
      simp only [frameConsumer_turn, frameTurn] at h
      split at h
      · cases h
      · cases h
      · rw [← (Turn.consume.inj h).1]
        exact List.prefix_append _ _) [] xs more
  obtain ⟨rest, rfl⟩ := hread
  have hwhole := drain_encode hmessages hstream []
  obtain ⟨read, unread, hread⟩ := (frameConsumer M).waiting_of_append hwhole
  rw [hread] at hplace
  obtain ⟨hstatus, rfl, -⟩ := hplace
  refine ⟨haccepted, hstatus, ?_, fun first bytes hfirst hbytes hle => ?_⟩
  · have hle := hgrows cut.flatten rest
    rw [hread, hwhole] at hle
    exact hle
  · obtain ⟨more, hmore⟩ := hle
    have hle := hgrows bytes more
    rw [hmore, hread, drain_encode (fun m hm => hmessages m (hfirst.subset hm)) hbytes] at hle
    exact hle

end LengthPrefixedAccumulator

namespace WebSocketDecoder

variable {M R B : ℕ} {cut : List Bytes}

/-- The bytes of the frames for some events. -/
def encodeFrames (frames : List (WsEventType × Bytes)) : Bytes :=
  frames.flatMap fun frame => buildFrame frame.1.opcode frame.2

/-- A message or a control frame that is no close is reported, and the decoder is as before. -/
theorem dispatch_frame_eventOf {type : WsEventType} (hclose : type ≠ .close) (payload : Bytes)
    {d : WebSocketDecoder} (hd : d.fragmented = false) :
    d.dispatch true type.opcode payload = (some (.eventReady, eventOf type payload, ""), d) := by
  cases type with
  | binaryMessage => simp [WsEventType.opcode, dispatch, hd, eventOf]
  | ping => rfl
  | pong => rfl
  | close => exact absurd rfl hclose

/-- The consumer reads the frames back. -/
theorem drain_encodeFrames {frames : List (WsEventType × Bytes)}
    (hframes : ∀ f ∈ frames, f.1 ≠ .close ∧ f.2.length < 2 ^ 63 ∧ Encodable M f.1 f.2)
    {s : Decoded} (hmasking : s.decoder.requireMasking = false)
    (hmessage : s.decoder.maxMessageBytes = M) (hfragmented : s.decoder.fragmented = false) :
    eventConsumer.drain s (encodeFrames frames) =
      .waiting { s with events := s.events ++ frames.map fun f => eventOf f.1 f.2 } [] := by
  induction frames generalizing s with
  | nil =>
      rw [List.map_nil, List.append_nil, Consumer.drain_eq, eventConsumer_turn, frameTurn,
        show encodeFrames [] = [] from rfl, readFrame_nil]
      rfl
  | cons frame frames ih =>
      obtain ⟨hclose, hsize, hencodable⟩ := hframes frame List.mem_cons_self
      have hread : readFrame s.decoder.requireMasking s.decoder.maxMessageBytes
          (encodeFrames (frame :: frames)) =
          .frame true frame.1.opcode frame.2 (buildFrame frame.1.opcode frame.2).length := by
        rw [hmasking, hmessage]
        exact readFrame_buildFrame (hencodable.fits hsize) (encodeFrames frames)
      have hturn : frameTurn s (encodeFrames (frame :: frames)) =
          .consume { s with events := s.events ++ [eventOf frame.1 frame.2] }
            (buildFrame frame.1.opcode frame.2).length := by
        rw [frameTurn, hread]
        dsimp only
        rw [dispatch_frame_eventOf hclose frame.2 hfragmented]
        rfl
      have hrest := ih (fun f hf => hframes f (List.mem_cons_of_mem _ hf))
        (s := { s with events := s.events ++ [eventOf frame.1 frame.2] }) hmasking hmessage
        hfragmented
      rw [Consumer.drain_eq, eventConsumer_turn, hturn, Consumer.outcome,
        show encodeFrames (frame :: frames) =
          buildFrame frame.1.opcode frame.2 ++ encodeFrames frames from rfl, List.drop_left, hrest,
        List.map_cons, List.append_assoc, List.singleton_append]

/-- **A peer that has received a part of a stream of frames** has no complaint, and it has read the
events of those whose last byte it has. -/
theorem decode_prefix {frames : List (WsEventType × Bytes)}
    (hframes : ∀ f ∈ frames, f.1 ≠ .close ∧ f.2.length < 2 ^ 63 ∧ Encodable M f.1 f.2)
    (hroom : M + 13 + R ≤ B) (hcut : ∀ chunk ∈ cut, chunk.length ≤ R)
    (hread : cut.flatten <+: encodeFrames frames) :
    (decode M B false cut).refused = false ∧ (decode M B false cut).status = .needMoreData ∧
      (decode M B false cut).events <+: frames.map (fun f => eventOf f.1 f.2) ∧
      ∀ first, first <+: frames → encodeFrames first <+: cut.flatten →
        first.map (fun f => eventOf f.1 f.2) <+: (decode M B false cut).events := by
  have haccepted := decode_not_refused hroom false hcut
  have hfollows := (decode_follows M B false cut).resolve_left (by rw [haccepted]; decide)
  have hgrows := fun xs more => eventConsumer.out_drain_append Decoded.events
    (fun {before after data} h => by
      simp only [eventConsumer_turn, frameTurn] at h
      split at h
      · cases h
      · rw [← Turn.halt.inj h]
      · split at h
        · cases h
        · split at h
          · cases h
          · rw [← Turn.halt.inj h])
    (fun {before after data n} h => by
      simp only [eventConsumer_turn, frameTurn] at h
      split at h
      · cases h
      · cases h
      · split at h
        · rw [← (Turn.consume.inj h).1]
        · split at h
          · rw [← (Turn.consume.inj h).1]
            exact List.prefix_append _ _
          · cases h)
    { decoder := ⟨M, B, false, [], 0, false, .continuation, [], false⟩ } xs more
  obtain ⟨rest, hrest⟩ := hread
  have hwhole := drain_encodeFrames hframes
    (s := { decoder := ⟨M, B, false, [], 0, false, .continuation, [], false⟩ }) rfl rfl rfl
  rw [← hrest] at hwhole
  obtain ⟨read, unread, hread⟩ := eventConsumer.waiting_of_append hwhole
  rw [hread] at hfollows
  obtain ⟨-, -, hstatus, -, -, rfl, -⟩ := hfollows
  refine ⟨haccepted, hstatus, ?_, fun first hfirst hle => ?_⟩
  · have hle := hgrows cut.flatten rest
    rw [hread, hwhole] at hle
    exact hle
  · obtain ⟨more, hmore⟩ := hle
    have hle := hgrows (encodeFrames first) more
    rw [hmore, hread, drain_encodeFrames (fun f hf => hframes f (hfirst.subset hf)) rfl rfl rfl]
      at hle
    exact hle

end WebSocketDecoder

namespace ServerSteps

open Interleaving WebSocketDecoder

variable {ι : Type*}

/-! ### Raw sessions -/

/-- The items of a raw session are the frames of its messages. -/
theorem messages_of_raw {config : ServerConfig} {items : List OutboundItem}
    (h : ∀ item ∈ items, RawFrame config item) :
    (∀ payload ∈ items.filterMap OutboundItem.message?, Sendable config payload) ∧
      (items.filterMap OutboundItem.message?).map rawItem = items.map some := by
  induction items with
  | nil => exact ⟨fun payload hpayload => absurd hpayload List.not_mem_nil, rfl⟩
  | cons item items ih =>
      obtain ⟨payload, hsendable, hitem⟩ := h item List.mem_cons_self
      obtain ⟨hall, hitems⟩ := ih fun i hi => h i (List.mem_cons_of_mem _ hi)
      rw [List.filterMap_cons_some (message?_rawItem hitem)]
      refine ⟨List.forall_mem_cons.2 ⟨hsendable, hall⟩, ?_⟩
      rw [List.map_cons, List.map_cons, hitem, hitems]

/-- The bytes of the items are the stream of their payloads. -/
theorem encodeMessages_eq {payloads : List Bytes} {items : List OutboundItem}
    (h : payloads.map rawItem = items.map some) :
    encodeMessages payloads = some (Outbound.stream items) := by
  induction payloads generalizing items with
  | nil =>
      rw [List.map_nil, eq_comm, List.map_eq_nil_iff] at h
      rw [h]
      rfl
  | cons payload payloads ih =>
      cases items with
      | nil => cases h
      | cons item items =>
          obtain ⟨hitem, hitems⟩ := List.cons.inj h
          obtain ⟨hheader, hpayload⟩ := rawItem_eq_some hitem
          rw [encodeMessages, hheader, ih hitems, ← hpayload]
          rfl

variable [DecidableEq ι]

/-- What the peer of a raw session has read of its queue. -/
theorem Queued.raw_peer {config : ServerConfig} {sv : Server ι} {P : Multiset (Task ι)} {s : ι}
    (h : Queued config sv P s)
    (hwire : (sv.out.sessions s).wire <+: Outbound.stream (sv.out.sessions s).pushed)
    (hraw : (sv.control s).transport = .rawTcp) :
    (∀ payload ∈ messages sv s, Sendable config payload) ∧
      (messages sv s).map rawItem = (sv.out.sessions s).pushed.map some ∧
      ∀ M R B : ℕ, config.maxMessageBytes.toNat ≤ M → M + 3 + R ≤ B →
        ∀ cut : List Bytes, cut.flatten = (sv.out.sessions s).wire →
          (∀ chunk ∈ cut, chunk.length ≤ R) →
          let peer := LengthPrefixedAccumulator.decode M B cut
          peer.refused = false ∧ peer.status = .needMoreData ∧ peer.messages <+: messages sv s ∧
            ∀ first bytes, first <+: messages sv s → encodeMessages first = some bytes →
              bytes <+: (sv.out.sessions s).wire → first <+: peer.messages := by
  have hpushed := h.pushed
  rw [hraw] at hpushed
  obtain ⟨hsendable, hitems⟩ := messages_of_raw hpushed
  refine ⟨hsendable, hitems, fun M R B hM hroom cut hcut hchunks => ?_⟩
  rw [← hcut] at hwire ⊢
  exact LengthPrefixedAccumulator.decode_prefix
    (fun m hm => ⟨(hsendable m hm).1, (hsendable m hm).2.trans hM⟩) (encodeMessages_eq hitems) hroom
    hchunks hwire

/-- **What the peer of a raw session has read.**  In every run the items that a raw session has
accepted are the frames of its messages, and these are payloads that `Send` was given, each of them
at most as often as it was given.  The peer's limit for a message is not below the limit of the
server, and its buffer has room for a message with a header and for one received piece besides.
However the transmitted bytes are cut for such a peer, it has no complaint; it has read the first of
these messages, in their order, and among them every one that is transmitted to its last byte. -/
theorem raw_delivery (config : ServerConfig) (moves : List (ℕ × Choice ι))
    {c : Config (Server ι) (Task ι)} (hrun : (program config).run moves (start config) = some c)
    (s : ι) (hraw : (c.shared.control s).transport = .rawTcp) :
    (messages c.shared s : Multiset Bytes) ≤ offered config moves s ∧
      (∀ payload ∈ messages c.shared s, Sendable config payload) ∧
      (messages c.shared s).map rawItem = (c.shared.out.sessions s).pushed.map some ∧
      ∀ M R B : ℕ, config.maxMessageBytes.toNat ≤ M → M + 3 + R ≤ B →
        ∀ cut : List Bytes, cut.flatten = (c.shared.out.sessions s).wire →
          (∀ chunk ∈ cut, chunk.length ≤ R) →
          let peer := LengthPrefixedAccumulator.decode M B cut
          peer.refused = false ∧ peer.status = .needMoreData ∧
            peer.messages <+: messages c.shared s ∧
            ∀ first bytes, first <+: messages c.shared s → encodeMessages first = some bytes →
              bytes <+: (c.shared.out.sessions s).wire → first <+: peer.messages :=
  ⟨(Multiset.le_add_right _ _).trans (accounts_run hrun s),
    (queued_run hrun s).raw_peer ((run_reachable hrun).wire_begins s) hraw⟩

/-- A raw session is sent two messages: the first one is transmitted in two pieces, and of the second
one the last two bytes are still missing. -/
def twoSends : List (ℕ × Choice Bool) :=
  firstRead false 1 [1] ++ [(2, .passes), (2, .passes), (2, .passes)] ++
    [(0, .sender false [7, 8]), (3, .passes), (3, .passes), (3, .passes), (3, .out .succeeds),
      (3, .out .succeeds), (3, .out .succeeds), (3, .out .succeeds), (3, .out .succeeds)] ++
    [(0, .sender false [9]), (5, .passes), (5, .passes), (5, .passes), (5, .out .succeeds)] ++
    [(4, .out (.completes true 5)), (4, .out .succeeds), (4, .out .succeeds), (4, .out .succeeds),
      (6, .out (.completes true 1)), (6, .out .succeeds), (6, .out .succeeds), (6, .out .succeeds),
      (6, .out .succeeds), (6, .out .succeeds), (6, .out .succeeds), (6, .out .succeeds),
      (7, .out (.completes true 3))]

/-- The peer has the first message, whichever way its nine bytes are cut. -/
theorem raw_delivery_twoSends : ∃ c, (program {}).run twoSends (start {}) = some c ∧
    (messages c.shared false : Multiset Bytes) ≤ ([[7, 8], [9]] : List Bytes) ∧
    (LengthPrefixedAccumulator.decode 1048576 1048588 [[0, 0, 0, 2, 7], [8, 0, 0, 0]]).messages <+:
      messages c.shared false := by
  have hobserved : ((program {}).run twoSends (start {})).map (fun c =>
      ((c.shared.control false).transport, (c.shared.out.sessions false).wire)) =
      some (.rawTcp, [0, 0, 0, 2, 7, 8, 0, 0, 0]) := by
    decide +kernel
  have hoffered : offered {} twoSends false = [[7, 8], [9]] := by
    decide +kernel
  obtain ⟨c, hrun, hc⟩ := Option.map_eq_some_iff.1 hobserved
  obtain ⟨hraw, hwire⟩ := Prod.mk.inj hc
  obtain ⟨hgiven, -, -, hpeer⟩ := raw_delivery {} twoSends hrun false hraw
  rw [hoffered] at hgiven
  refine ⟨c, hrun, hgiven, ?_⟩
  exact (hpeer 1048576 9 1048588 (by decide) (by decide) [[0, 0, 0, 2, 7], [8, 0, 0, 0]]
    (by rw [hwire]; rfl) (by decide)).2.2.1

/-! ### WebSocket sessions -/

/-- The items of messages and control frames that are not the last ones. -/
def frames (sent : List (WsEventType × Bytes)) : List OutboundItem :=
  sent.map fun f => frameItem f.1.opcode f.2 false

omit [DecidableEq ι] in
theorem stream_frames (sent : List (WsEventType × Bytes)) :
    Outbound.stream (frames sent) = encodeFrames sent := by
  simp only [Outbound.stream, frames, encodeFrames, List.flatMap_map]
  rfl

/-- `Send` sends the event as a message, or `SendControl` as a ping or a pong. -/
def Sends (config : ServerConfig) (event : WsEventType × Bytes) : Prop :=
  event.1 = .binaryMessage ∧ Sendable config event.2 ∨
    (event.1 = .ping ∨ event.1 = .pong) ∧ event.2.length ≤ 125

/-- The messages among the events. -/
def messagesIn (sent : List (WsEventType × Bytes)) : List Bytes :=
  sent.filterMap fun event => if event.1 = .binaryMessage then some event.2 else none

theorem Sends.message? {config : ServerConfig} {event : WsEventType × Bytes}
    (h : Sends config event) : (frameItem event.1.opcode event.2 false).message? =
      if event.1 = .binaryMessage then some event.2 else none := by
  obtain ⟨type, payload⟩ := event
  rcases h with ⟨rfl, -⟩ | ⟨rfl | rfl, hshort⟩
  · exact message?_binary payload false
  · have hsignal : Signal .ping payload false := ⟨rfl, hshort, by decide⟩
    exact message?_signal hsignal false
  · have hsignal : Signal .pong payload false := ⟨rfl, hshort, by decide⟩
    exact message?_signal hsignal false

theorem filterMap_frames {config : ServerConfig} {sent : List (WsEventType × Bytes)}
    (h : ∀ event ∈ sent, Sends config event) :
    (frames sent).filterMap OutboundItem.message? = messagesIn sent := by
  rw [frames, List.filterMap_map]
  exact List.filterMap_congr fun event hevent => (h event hevent).message?

theorem Sends.encodable {config : ServerConfig} {event : WsEventType × Bytes}
    (h : Sends config event) {M : ℕ} (hM : max 125 config.maxMessageBytes.toNat ≤ M) :
    event.1 ≠ .close ∧ Encodable M event.1 event.2 := by
  obtain ⟨type, payload⟩ := event
  rcases h with ⟨rfl, -, hlimit⟩ | ⟨rfl | rfl, hshort⟩
  · exact ⟨by simp, hlimit.trans ((le_max_right _ _).trans hM), fun hne => absurd rfl hne,
      fun heq => by cases heq⟩
  · exact ⟨by simp, hshort.trans ((le_max_left _ _).trans hM), fun _ => hshort,
      fun heq => by cases heq⟩
  · exact ⟨by simp, hshort.trans ((le_max_left _ _).trans hM), fun _ => hshort,
      fun heq => by cases heq⟩

/-- A frame that is not the last one is a message, a ping or a pong. -/
theorem WebSocketFrame.sends {config : ServerConfig} {item : OutboundItem}
    (h : WebSocketFrame config item) (hlast : item.closeAfter = false) :
    ∃ event, Sends config event ∧ item = frameItem event.1.opcode event.2 false := by
  rcases h with ⟨payload, hsendable, rfl⟩ | ⟨opcode, payload, closeAfter, hsignal, rfl⟩
  · exact ⟨(.binaryMessage, payload), Or.inl ⟨rfl, hsendable⟩, rfl⟩
  · obtain rfl : closeAfter = false := hlast
    have hcontrol := hsignal.control
    cases opcode with
    | ping => exact ⟨(.ping, payload), Or.inr ⟨Or.inl rfl, hsignal.short⟩, rfl⟩
    | pong => exact ⟨(.pong, payload), Or.inr ⟨Or.inr rfl, hsignal.short⟩, rfl⟩
    | close => cases hsignal.last.2 rfl
    | _ => cases hcontrol

/-- A last frame is a close frame. -/
theorem WebSocketFrame.closes {config : ServerConfig} {item : OutboundItem}
    (h : WebSocketFrame config item) (hlast : item.closeAfter = true) :
    ∃ payload, payload.length ≤ 125 ∧ item = frameItem .close payload true := by
  rcases h with ⟨payload, -, rfl⟩ | ⟨opcode, payload, closeAfter, hsignal, rfl⟩
  · cases hlast
  · obtain rfl : closeAfter = true := hlast
    obtain rfl := hsignal.last.1 rfl
    exact ⟨payload, hsignal.short, rfl⟩

theorem exists_frames {config : ServerConfig} {items : List OutboundItem}
    (h : ∀ item ∈ items, WebSocketFrame config item ∧ item.closeAfter = false) :
    ∃ sent, (∀ event ∈ sent, Sends config event) ∧ items = frames sent := by
  induction items with
  | nil => exact ⟨[], fun event hevent => absurd hevent List.not_mem_nil, rfl⟩
  | cons item items ih =>
      obtain ⟨event, hsends, hitem⟩ := (h item List.mem_cons_self).1.sends (h item List.mem_cons_self).2
      obtain ⟨sent, hall, hitems⟩ := ih fun i hi => h i (List.mem_cons_of_mem _ hi)
      refine ⟨event :: sent, fun e he => ?_, by rw [hitem, hitems]; rfl⟩
      rcases List.mem_cons.1 he with rfl | he
      · exact hsends
      · exact hall e he

/-- A frame is no response. -/
theorem not_isResponse_of_isFrame {item : OutboundItem} (h : IsFrame item) : ¬ IsResponse item := by
  rintro ⟨response, closeAfter, rfl⟩
  obtain ⟨opcode, payload, hheader, -⟩ := h
  have hnil : buildFrameHeader opcode payload.length ≠ [] := by
    unfold buildFrameHeader
    split
    · simp
    · split <;> simp
  exact hnil hheader.symm

/-- Behind the first item that is to be the last one nothing is transmitted. -/
theorem wire_closing {config : ServerConfig} {sh : Outbound.Shared ι}
    {P : Multiset (Outbound.Action ι)} (h : Outbound.Reachable config sh P) {s : ι}
    {response : Bytes} {sent : List (WsEventType × Bytes)} {closing : List OutboundItem}
    (hpushed : (sh.sessions s).pushed = responseItem response false :: (frames sent ++ closing))
    (hclosing : ∀ item, closing.head? = some item → item.closeAfter = true) :
    (sh.sessions s).wire <+:
      response ++ (encodeFrames sent ++ Outbound.stream (closing.take 1)) := by
  have hwire : (sh.sessions s).wire <+: Outbound.stream
      ([responseItem response false] ++ (frames sent ++ closing.take 1)) := by
    cases closing with
    | nil =>
        have hbegins := h.wire_begins s
        rw [hpushed] at hbegins
        exact hbegins
    | cons last after =>
        have hsplit : (sh.sessions s).pushed =
            (responseItem response false :: frames sent) ++ last :: after := hpushed
        have hpopped := h.popped_prefix hsplit (hclosing last rfl)
        exact (h.streams s).record.sent.trans (Outbound.stream_mono hpopped)
  rw [Outbound.stream_append, Outbound.stream_append, stream_frames,
    Outbound.stream_singleton] at hwire
  exact hwire

/-- A queue in which no item is to be the last one holds no close frame, and its bytes say what the
response and the frames behind it are. -/
theorem frames_of_stream {pushed closing : List OutboundItem} {response response' bytes : Bytes}
    {sent : List (WsEventType × Bytes)}
    (hpushed : pushed = responseItem response false :: (frames sent ++ closing))
    (hclosing : ∀ item, closing.head? = some item → ∃ payload : Bytes, payload.length ≤ 125 ∧
      item = frameItem .close payload true)
    (hgoesOn : ∀ item ∈ pushed, item.closeAfter = false)
    (hfirst : pushed.head?.map OutboundItem.payload = some response')
    (hstream : Outbound.stream pushed = response' ++ bytes) :
    closing = [] ∧ response = response' ∧ encodeFrames sent = bytes := by
  obtain rfl : closing = [] := by
    cases closing with
    | nil => rfl
    | cons item closing =>
        obtain ⟨payload, -, rfl⟩ := hclosing item rfl
        have hlast : frameItem .close payload true ∈ pushed := by
          rw [hpushed]
          exact List.mem_cons_of_mem _ (List.mem_append_right _ List.mem_cons_self)
        exact Bool.noConfusion (hgoesOn _ hlast)
  rw [hpushed] at hfirst hstream
  obtain rfl : response = response' := Option.some.inj hfirst
  rw [List.append_nil, ← List.singleton_append, Outbound.stream_append, Outbound.stream_singleton,
    stream_frames] at hstream
  exact ⟨rfl, rfl, List.append_cancel_left hstream⟩

/-- What the peer of a WebSocket session has read of its queue. -/
theorem Queued.webSocket_peer {config : ServerConfig} {sv : Server ι} {P : Multiset (Task ι)} {s : ι}
    (h : Queued config sv P s) (hgreeted : Greeted config sv P s)
    (hreachable : Outbound.Reachable config sv.out (.outside ::ₘ outActions P))
    (htransport : (sv.control s).transport = .webSocket)
    (hvector : ∀ item ∈ (sv.out.sessions s).pushed, item.payload.length < 2 ^ 63) :
    ∃ key sent closing, (∀ event ∈ sent, Sends config event) ∧
      (∀ item, closing.head? = some item → ∃ payload, payload.length ≤ 125 ∧
        item = frameItem .close payload true) ∧
      (sv.out.sessions s).pushed =
        responseItem (switchingProtocols key) false :: (frames sent ++ closing) ∧
      messagesIn sent <+: messages sv s ∧
      (sv.out.sessions s).wire <+:
        switchingProtocols key ++ (encodeFrames sent ++ Outbound.stream (closing.take 1)) ∧
      ∀ M R B : ℕ, max 125 config.maxMessageBytes.toNat ≤ M → M + 13 + R ≤ B →
        ∀ cut : List Bytes,
          cut.flatten = ((sv.out.sessions s).wire.drop (switchingProtocols key).length).take
            (encodeFrames sent).length →
          (∀ chunk ∈ cut, chunk.length ≤ R) →
          let peer := WebSocketDecoder.decode M B false cut
          peer.refused = false ∧ peer.status = .needMoreData ∧
            peer.events <+: sent.map (fun event => eventOf event.1 event.2) ∧
            ∀ first, first <+: sent → encodeFrames first <+: cut.flatten →
              first.map (fun event => eventOf event.1 event.2) <+: peer.events := by
  obtain ⟨key, items, -, hpushed, hframes⟩ := hgreeted.greeted htransport
  replace hpushed : (sv.out.sessions s).pushed = _ := hpushed
  have hsuits := h.pushed
  rw [htransport, hpushed] at hsuits
  have hitems : ∀ item ∈ items, WebSocketFrame config item := fun item hitem =>
    (hsuits item (List.mem_cons_of_mem _ hitem)).resolve_left
      (not_isResponse_of_isFrame (hframes item hitem))
  -- the first close frame cuts the items in two
  let goesOn : OutboundItem → Bool := fun item => !item.closeAfter
  have hsplit : items.takeWhile goesOn ++ items.dropWhile goesOn = items :=
    List.takeWhile_append_dropWhile
  have hgoesOn : ∀ item ∈ items.takeWhile goesOn,
      WebSocketFrame config item ∧ item.closeAfter = false := fun item hitem =>
    ⟨hitems item ((List.takeWhile_sublist goesOn).subset hitem), by
      simpa [goesOn] using List.all_eq_true.1 List.all_takeWhile item hitem⟩
  obtain ⟨sent, hsent, hbefore⟩ := exists_frames hgoesOn
  have hclosing : ∀ item, (items.dropWhile goesOn).head? = some item →
      WebSocketFrame config item ∧ item.closeAfter = true := by
    intro item hitem
    have hmem := (List.dropWhile_sublist goesOn).subset (List.mem_of_mem_head? hitem)
    have hnot := List.head?_dropWhile_not goesOn items
    rw [hitem] at hnot
    exact ⟨hitems item hmem, by simpa [goesOn] using hnot⟩
  rw [hbefore] at hsplit
  rw [← hsplit] at hpushed
  have hwire := wire_closing hreachable hpushed fun item hitem => (hclosing item hitem).2
  refine ⟨key, sent, items.dropWhile goesOn, hsent,
    fun item hitem => (hclosing item hitem).1.closes (hclosing item hitem).2, hpushed, ?_, hwire, ?_⟩
  · rw [messages, hpushed, List.filterMap_cons_none (message?_response _ _), List.filterMap_append,
      filterMap_frames hsent]
    exact List.prefix_append _ _
  intro M R B hM hroom cut hcut hchunks
  refine WebSocketDecoder.decode_prefix (fun event hevent => ?_) hroom hchunks ?_
  · obtain ⟨hclose, hencodable⟩ := (hsent event hevent).encodable hM
    refine ⟨hclose, ?_, hencodable⟩
    have hmem : frameItem event.1.opcode event.2 false ∈ (sv.out.sessions s).pushed := by
      rw [hpushed]
      refine List.mem_cons_of_mem _ (List.mem_append_left _ ?_)
      exact List.mem_map.2 ⟨event, hevent, rfl⟩
    exact hvector _ hmem
  · -- what is received behind the response and before the close frame
    have hreceived := (hwire.drop (switchingProtocols key).length).take (encodeFrames sent).length
    rwa [List.drop_left, List.take_left, ← hcut] at hreceived

/-- **What the peer of a WebSocket session has read.**  In every run in which each response to an
accepted handshake finds room, the items that an upgraded session has accepted are its response,
messages, pings and pongs, and behind the first close frame nothing is transmitted.  The messages
are payloads that `Send` was given, each of them at most as often as it was given.  The peer's limit
for a message is not below the limit of the server nor below 125, and its buffer has room for a
message with a header and for one received piece besides.  Such a peer that takes the response off
and reads the bytes before the close frame, however they are cut, has no complaint; it has read the
first of these messages, pings and pongs, in their order, and among them every one that is
transmitted to its last byte.  A payload is a `std::vector`. -/
theorem webSocket_delivery (config : ServerConfig) (moves : List (ℕ × Choice ι))
    {c : Config (Server ι) (Task ι)}
    (hok : (program config).AllMeet (fun _ t sv _ => welcomes config sv t = true) moves
      (start config))
    (hrun : (program config).run moves (start config) = some c) (s : ι)
    (htransport : (c.shared.control s).transport = .webSocket)
    (hvector : ∀ item ∈ (c.shared.out.sessions s).pushed, item.payload.length < 2 ^ 63) :
    (messages c.shared s : Multiset Bytes) ≤ offered config moves s ∧
      ∃ key sent closing, (∀ event ∈ sent, Sends config event) ∧
      (∀ item, closing.head? = some item → ∃ payload, payload.length ≤ 125 ∧
        item = frameItem .close payload true) ∧
      (c.shared.out.sessions s).pushed =
        responseItem (switchingProtocols key) false :: (frames sent ++ closing) ∧
      messagesIn sent <+: messages c.shared s ∧
      (c.shared.out.sessions s).wire <+:
        switchingProtocols key ++ (encodeFrames sent ++ Outbound.stream (closing.take 1)) ∧
      ∀ M R B : ℕ, max 125 config.maxMessageBytes.toNat ≤ M → M + 13 + R ≤ B →
        ∀ cut : List Bytes,
          cut.flatten = ((c.shared.out.sessions s).wire.drop (switchingProtocols key).length).take
            (encodeFrames sent).length →
          (∀ chunk ∈ cut, chunk.length ≤ R) →
          let peer := WebSocketDecoder.decode M B false cut
          peer.refused = false ∧ peer.status = .needMoreData ∧
            peer.events <+: sent.map (fun event => eventOf event.1 event.2) ∧
            ∀ first, first <+: sent → encodeFrames first <+: cut.flatten →
              first.map (fun event => eventOf event.1 event.2) <+: peer.events :=
  ⟨(Multiset.le_add_right _ _).trans (accounts_run hrun s),
    (queued_run hrun s).webSocket_peer (greeted_run hok hrun s) (run_reachable hrun) htransport
      hvector⟩

/-- A session is upgraded, and behind its response it is sent a message. -/
def upgradeAndSend : List (ℕ × Choice Bool) :=
  upgrade ++ [(3, .out (.completes true 129)), (3, .out .succeeds), (3, .out .succeeds),
    (3, .out .succeeds), (3, .out .succeeds), (0, .sender false [7, 8]), (4, .passes), (4, .passes),
    (4, .passes), (4, .out .succeeds), (4, .out .succeeds), (4, .out .succeeds), (4, .out .succeeds),
    (4, .out .succeeds), (5, .out (.completes true 4))]

/-- The message is read behind the response. -/
theorem webSocket_delivery_upgradeAndSend : ∃ c sent,
    (program {}).run upgradeAndSend (start {}) = some c ∧
      (c.shared.out.sessions false).wire =
        switchingProtocols (ascii "dGhlIHNhbXBsZSBub25jZQ==") ++ [0x82, 2, 7, 8] ∧
      (WebSocketDecoder.decode 1048576 1048593 false [[0x82, 2, 7, 8]]).events =
        [{ payload := [7, 8] }] ∧
      [{ payload := [7, 8] }] <+: sent.map (fun event => eventOf event.1 event.2) ∧
      messagesIn sent <+: messages c.shared false ∧
      (messages c.shared false : Multiset Bytes) ≤ ([[7, 8]] : List Bytes) := by
  have hobserved : ((program {}).run upgradeAndSend (start {})).map (fun c =>
      ((c.shared.control false).transport,
        (c.shared.out.sessions false).pushed.all (fun item =>
          item.payload.length < 2 ^ 63 && !item.closeAfter),
        (c.shared.out.sessions false).pushed.head?.map OutboundItem.payload,
        Outbound.stream (c.shared.out.sessions false).pushed, (c.shared.out.sessions false).wire)) =
      some (.webSocket, true, some sampleResponse, sampleResponse ++ [0x82, 2, 7, 8],
        sampleResponse ++ [0x82, 2, 7, 8]) := by
    decide +kernel
  rw [← switchingProtocols_sample] at hobserved
  have hoffered : offered {} upgradeAndSend false = [[7, 8]] := by
    decide +kernel
  obtain ⟨c, hrun, hc⟩ := Option.map_eq_some_iff.1 hobserved
  simp only [Prod.mk.injEq, List.all_eq_true, Bool.and_eq_true, decide_eq_true_eq,
    Bool.not_eq_true'] at hc
  obtain ⟨htransport, hitems, hfirst, hstream, hwire⟩ := hc
  have hok := Program.allMeet_of_meets (P := program {}) (fun _ t sv => welcomes {} sv t)
    upgradeAndSend (c := start {}) (by decide +kernel)
  obtain ⟨hgiven, key, sent, closing, -, hclosing, hpushed, hmessages, -, hpeer⟩ :=
    webSocket_delivery {} upgradeAndSend hok hrun false htransport fun item hitem =>
      (hitems item hitem).1
  obtain ⟨-, hkey, hsent⟩ := frames_of_stream hpushed hclosing
    (fun item hitem => (hitems item hitem).2) hfirst hstream
  have hread : (WebSocketDecoder.decode 1048576 1048593 false [[0x82, 2, 7, 8]]).events =
      [{ payload := [7, 8] }] := by
    decide +kernel
  have hcut : ([[0x82, 2, 7, 8]] : List Bytes).flatten =
      ((c.shared.out.sessions false).wire.drop (switchingProtocols key).length).take
        (encodeFrames sent).length := by
    rw [hkey, hsent, hwire, List.drop_left]
    rfl
  obtain ⟨-, -, hbegins, -⟩ := hpeer 1048576 4 1048593 (by decide) (by decide) [[0x82, 2, 7, 8]]
    hcut (by decide)
  rw [hread] at hbegins
  rw [hoffered] at hgiven
  exact ⟨c, sent, hrun, hwire, hread, hbegins, hmessages, hgiven⟩

end ServerSteps

end RealtimeEngine
