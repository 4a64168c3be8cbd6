/-
**What a client sends arrives.**

A client begins with a request of the handshake grammar and goes on with frames that form a legal
sequence, or it sends messages behind their lengths.  However the stream is cut into reads, the
server makes out what the client speaks, answers the handshake, and hands the messages to the
message handler, each once and in order, until the handler or a Close frame ends the session.

`RealtimeEngine/SessionStreams.lean` and `RealtimeEngine/Segmentation.lean` say that a session gets
where its consumer gets on the whole stream.  What is left is what the consumer does with a stream
that was written by the rules: it takes one frame after the other, and nothing is left over.

The request leaves room in the limits for one read, because the limits are tested against all that
is buffered when the header block is complete; `RealtimeEngine.SessionInput.pipelined_frame` shows
what happens otherwise.

Main definitions:

* `RealtimeEngine.SessionInput.attend` — what becomes of the events of a client;
* `RealtimeEngine.SessionInput.judgeAll` — the same for messages.

Main results:

* `RealtimeEngine.SessionInput.drain_meaning`, `RealtimeEngine.SessionInput.drain_messages` — the
  consumers on a stream that was written by the rules;
* `RealtimeEngine.SessionInput.webSocket_arrives` — **the messages of a WebSocket client arrive**;
* `RealtimeEngine.SessionInput.raw_arrives` — **the messages of a raw client arrive**.
-/

import RealtimeEngine.HandshakeGrammar
import RealtimeEngine.MessageLimit
import RealtimeEngine.Segmentation
import RealtimeEngine.WebSocketGrammar

set_option relaxedAutoImplicit false
set_option autoImplicit false

namespace RealtimeEngine

open TextSearch StreamConsumer

namespace SessionInput

/-! ### What becomes of the messages -/

section Verdicts

variable (config : ServerConfig) (handler : Option Handler)

/-- The events of a client, one after the other: whether the session goes on behind them, and what
was delivered. -/
def attend : List WsEvent → Deliveries → Bool × Deliveries
  | [], p => (true, p)
  | event :: events, p =>
      match event.type with
      | .binaryMessage =>
          let (goesOn, p) := judge config handler event.payload p
          if goesOn then attend events p else (false, p)
      | .ping | .pong => attend events p
      | .close => (false, p)

/-- The messages of a raw client, one after the other. -/
def judgeAll : List Bytes → Deliveries → Bool × Deliveries
  | [], p => (true, p)
  | message :: messages, p =>
      let (goesOn, p) := judge config handler message p
      if goesOn then judgeAll messages p else (false, p)

end Verdicts

/-- The messages among the events. -/
def binaryMessages (events : List WsEvent) : List Bytes :=
  (events.filter fun event => event.type == .binaryMessage).map WsEvent.payload

/-- Where a consumer is that has taken all of its input, or was ended. -/
def ends {σ : Type*} (goesOn : Bool) (s : σ) : Fed σ UInt8 :=
  if goesOn then .waiting s [] else .halted s

variable {config : ServerConfig} {handler : Option Handler}

/-! ### The consumers -/

/-- **The consumer of a legal sequence of frames** takes one after the other. -/
theorem drain_meaning (config : ServerConfig) (handler : Option Handler) {M : ℕ} {rm : Bool}
    {o : Option Bytes} {fs : List Frame} {es : List WsEvent}
    (h : Meaning M rm o fs es) {d : WebSocketDecoder} (hd : d.Ready) (hM : d.maxMessageBytes = M)
    (hrm : d.requireMasking = rm) (ho : d.assembling = o) (p : Deliveries) :
    ∃ d', (webSocketConsumer config handler).drain (d, p) (fs.flatMap Frame.encode) =
      ends (attend config handler es p).1 (d', (attend config handler es p).2) := by
  induction h generalizing d p with
  | done o =>
      refine ⟨d, ?_⟩
      rw [List.flatMap_nil, Consumer.drain_eq]
      rfl
  | @frame o o' f fs e es hf hfs ih =>
      subst hM hrm ho
      obtain ⟨hkey, hfits, hread⟩ := WebSocketDecoder.readFrame_of_meaning hf
        (fs.flatMap Frame.encode)
      obtain ⟨hreported, hassembling⟩ := (WebSocketDecoder.dispatch_iff hd hkey hfits e o').1 hf
      have hready := hd.dispatch f.fin f.opcode f.payload hfits.1
      have hframe := WebSocketDecoder.dispatch_frame f.fin f.opcode f.payload d
      rw [List.flatMap_cons, Consumer.drain_eq, webSocketConsumer_turn, webSocketTurn, hread]
      dsimp only
      cases hdispatch : d.dispatch f.fin f.opcode f.payload with
      | mk outcome d' =>
          rw [hdispatch] at hreported hassembling hready hframe
          have hM : d'.maxMessageBytes = d.maxMessageBytes :=
            congrArg (fun d => d.maxMessageBytes) hframe
          have hrm : d'.requireMasking = d.requireMasking :=
            congrArg (fun d => d.requireMasking) hframe
          -- behind the frame, the consumer is in front of the others
          have hrest := fun p => ih hready hM hrm hassembling p
          cases outcome with
          | none =>
              obtain rfl := Option.some.inj hreported
              obtain ⟨d'', hd''⟩ := hrest p
              refine ⟨d'', ?_⟩
              dsimp only [Consumer.outcome]
              rw [List.drop_left]
              exact hd''
          | some result =>
              obtain ⟨status, event, error⟩ := result
              cases status with
              | eventReady =>
                  obtain rfl := Option.some.inj hreported
                  rw [Option.toList_some, List.singleton_append]
                  dsimp only
                  unfold attend
                  cases htype : event.type with
                  | binaryMessage =>
                      dsimp only [delivers]
                      cases hjudge : (judge config handler event.payload p).1 with
                      | true =>
                          obtain ⟨d'', hd''⟩ := hrest (judge config handler event.payload p).2
                          refine ⟨d'', ?_⟩
                          rw [if_pos rfl, if_pos rfl]
                          dsimp only [Consumer.outcome]
                          rw [List.drop_left]
                          exact hd''
                      | false =>
                          rw [if_neg Bool.false_ne_true, if_neg Bool.false_ne_true]
                          exact ⟨d', rfl⟩
                  | ping | pong =>
                      obtain ⟨d'', hd''⟩ := hrest p
                      refine ⟨d'', ?_⟩
                      dsimp only [Consumer.outcome]
                      rw [List.drop_left]
                      exact hd''
                  | close => exact ⟨d', rfl⟩
              | needMoreData | protocolError | messageTooLarge | bufferLimitExceeded =>
                  cases hreported

open LengthPrefixedAccumulator in
/-- **The consumer of messages behind their lengths** takes one after the other. -/
theorem drain_messages (config : ServerConfig) (handler : Option Handler) {messages : List Bytes}
    (hmessages : ∀ m ∈ messages, 1 ≤ m.length ∧ m.length ≤ config.maxMessageBytes.toNat)
    {stream : Bytes} (h : encodeMessages messages = some stream) (p : Deliveries) :
    (rawConsumer config handler).drain p stream =
      ends (judgeAll config handler messages p).1 (judgeAll config handler messages p).2 := by
  induction messages generalizing stream p with
  | nil =>
      obtain rfl := Option.some.inj h
      rw [Consumer.drain_eq]
      rfl
  | cons message messages ih =>
      obtain ⟨header, hheader, h⟩ := Option.bind_eq_some_iff.1 h
      obtain ⟨rest, hrest, h⟩ := Option.bind_eq_some_iff.1 h
      obtain rfl := Option.some.inj h
      obtain ⟨hpos, hmax⟩ := hmessages message List.mem_cons_self
      have hsize : 4 + message.length = (header ++ message).length := by
        rw [List.length_append, length_of_encodeLength hheader]
      rw [Consumer.drain_eq, rawConsumer_turn, rawTurn_eq,
        readPrefixed_encode hpos hmax hheader rest, judgeAll]
      dsimp only [delivers, id_eq]
      cases hjudge : (judge config handler message p).1 with
      | true =>
          rw [if_pos rfl, if_pos rfl]
          dsimp only [Consumer.outcome]
          rw [hsize, List.drop_left]
          exact ih (fun m hm => hmessages m (List.mem_cons_of_mem _ hm)) hrest _
      | false =>
          rw [if_neg Bool.false_ne_true, if_neg Bool.false_ne_true]
          rfl

/-! ### A WebSocket client -/

section WebSocket

variable {block key : Bytes}

/-- A request of the grammar begins as HTTP does. -/
theorem get_of_request {originValidator : Option (Bytes → Bool)}
    (h : HandshakeRequest originValidator block key) : ascii "GET " <+: block := by
  obtain ⟨target, lines, headers, hlines, -⟩ := h
  cases hlines with
  | last hfree => exact ⟨_, rfl⟩
  | next hfree hrest => exact ⟨_, (List.append_assoc _ _ _).symm⟩

theorem possibleHttp_of_get {stream : Bytes} (h : ascii "GET " <+: stream) :
    possibleHttp stream = true := by
  obtain ⟨rest, rfl⟩ := h
  rw [possibleHttp_append (by decide)]
  decide

/-- The header block of a request, with more behind it. -/
theorem find_request {limit : ℕ} {originValidator : Option (Bytes → Bool)}
    (h : HasRequest (block ++ headerTerminator) limit originValidator block key) (more : Bytes) :
    find headerTerminator (block ++ headerTerminator ++ more) = some block.length :=
  find_append (headerBlock_iff.1 h.2.1).1 more

/-- **A request of the grammar is what decides**, whatever is read along with it. -/
theorem decides_request
    (h : HasRequest (block ++ headerTerminator) config.maxHandshakeBytes.toNat
      config.originValidator block key)
    (hroom : block.length + 3 + config.receiveBuffer ≤
      min config.maxHandshakeBytes.toNat config.maxSessionInboundBytes.toNat)
    {more : Bytes} {m n : ℕ} {d : Decision}
    (hmay : MaySettle config (block ++ headerTerminator ++ more) m n d) :
    d = .accepted (switchingProtocols key) (block.length + 4) := by
  have hhttp := possibleHttp_of_get (((get_of_request h.2.2).trans
    (List.prefix_append block headerTerminator)).trans (List.prefix_append _ more))
  have hfind := find_request h more
  have hlimit : config.maxHandshakeBytes.toNat ≤ config.handshakeLimit := Nat.le_max_right _ _
  -- the read that decides begins before the end of the block
  have hbefore : m < block.length + 4 := by
    have hundecided := hmay.undecided
    rw [decision_take_http hhttp (hmay.lt.le.trans hmay.length), hfind] at hundecided
    split at hundecided
    · cases hundecided
    · split at hundecided
      · cases hundecided
      · dsimp only at hundecided
        split at hundecided
        · cases hundecided
        · next hend => exact Nat.not_le.1 hend
  have hle := hmay.le
  rcases hmay.cases_http hhttp with ⟨hfull, -⟩ | ⟨-, hlarge, -⟩ | ⟨-, headerEnd, hfound, -, rfl⟩
  · omega
  · omega
  · obtain rfl := Option.some.inj (hfind.symm.trans hfound)
    obtain ⟨hstatus, hconsumed, hresponse⟩ := parseHandshake_of_hasRequest h
    have hparse : parseHandshake _ _ config.originValidator = parseBlock _ _ _ :=
      parseHandshake_of_find h.1 (headerBlock_iff.1 h.2.1).1
    rw [hparse] at hstatus hconsumed hresponse
    rw [blockDecision, parseBlock_append (headerBlock_iff.1 h.2.1).1 more]
    rw [if_pos hstatus, hconsumed, hresponse]

/-- **The messages of a WebSocket client arrive.**  For every request of the grammar whose block
leaves one receive buffer of room below the limits, whose answer fits the queue, and every legal
sequence of frames behind it, however the stream is cut into reads: the session speaks WebSocket,
the request is answered with the key that is computed from its own, and, unless the session has
reached its rate limit or its receive buffer, what was delivered is what becomes of the events that
the frames mean.  The session is open behind them with an empty buffer, or it was ended. -/
theorem webSocket_arrives (config : ServerConfig) (handler : Option Handler) {env : Environment}
    (henv : env.Calm)
    (hrequest : HasRequest (block ++ headerTerminator) config.maxHandshakeBytes.toNat
      config.originValidator block key)
    (hroom : block.length + 3 + config.receiveBuffer ≤
      min config.maxHandshakeBytes.toNat config.maxSessionInboundBytes.toNat)
    (hfits : Fits config (switchingProtocols key)) {fs : List Frame} {es : List WsEvent}
    (hframes : Meaning config.maxMessageBytes.toNat true none fs es) {reads : List Bytes}
    (hcut : IsCut config (block ++ headerTerminator ++ fs.flatMap Frame.encode) reads) :
    let r := run config handler env reads
    let attended := attend config handler es {}
    r.transport = .webSocket ∧
      r.replies.head? = some (ascii "HTTP/1.1 101 Switching Protocols\r\nUpgrade: websocket\r\n" ++
        (ascii "Connection: Upgrade\r\nSec-WebSocket-Accept: " ++
          (computeAcceptKey key ++ ascii "\r\n\r\n"))) ∧
      (r.limited = true ∨ r.delivered = attended.2.delivered ∧
        (attended.1 = true → Live r ∧ r.webSocketDecoder.available = []) ∧
        (attended.1 = false → Stopped r)) := by
  intro r attended
  have hhttp := possibleHttp_of_get (((get_of_request hrequest.2.2).trans
    (List.prefix_append block headerTerminator)).trans
      (List.prefix_append _ (fs.flatMap Frame.encode)))
  rcases run_settles handler henv hcut with ⟨hnone, -⟩ | ⟨m, n, d, hmay, hsettled⟩
  · -- the whole request has been read
    have hlength : (block ++ headerTerminator).length = block.length + 4 := List.length_append
    have hdecision := @decision_take_http config _ _ hhttp le_rfl
    rw [List.take_length, hnone, find_request hrequest] at hdecision
    split at hdecision
    · cases hdecision
    · split at hdecision
      · cases hdecision
      · dsimp only at hdecision
        rw [if_pos (by rw [List.length_append, hlength]; exact Nat.le_add_right _ _)] at hdecision
        cases hdecision
  · obtain rfl := decides_request hrequest hroom hmay
    refine ⟨hsettled.transport, ?_, ?_⟩
    · rw [hsettled.reply, Decision.reply, if_pos hfits, switchingProtocols_eq]
    · have hready : (ServerSteps.Control.fresh config).webSocketDecoder.Ready :=
        ⟨rfl, fun h => by cases h⟩
      obtain ⟨d', hdrain⟩ := drain_meaning config handler hframes hready rfl rfl rfl {}
      have hdrop : (block ++ headerTerminator ++ fs.flatMap Frame.encode).drop (block.length + 4) =
          fs.flatMap Frame.encode := by
        have hlength : (block ++ headerTerminator).length = block.length + 4 := List.length_append
        rw [← hlength, List.drop_left]
      refine hsettled.digested.2.imp id fun hfollows => ?_
      rw [hdrop, firstFrame, hdrain] at hfollows
      change FollowsWebSocket r (ends attended.1 (d', attended.2)) at hfollows
      cases hgoes : attended.1 with
      | true =>
          rw [hgoes] at hfollows
          obtain ⟨hlive, -, -, hstate, hrest⟩ := hfollows
          exact ⟨(congrArg (fun s => s.2.delivered) hstate).symm, fun _ => ⟨hlive, hrest⟩,
            fun h => absurd h.symm Bool.false_ne_true⟩
      | false =>
          rw [hgoes] at hfollows
          exact ⟨hfollows.2, fun h => absurd h Bool.false_ne_true, fun _ => hfollows.1⟩

/-- A message in two masked fragments, with a Ping between them. -/
def twoFragments : List Frame :=
  [⟨false, .binary, some ⟨[1, 2, 3, 4], rfl⟩, [0x61]⟩, ⟨true, .ping, some ⟨[0, 0, 0, 0], rfl⟩, []⟩,
    ⟨true, .continuation, some ⟨[5, 6, 7, 8], rfl⟩, [0x62]⟩]

/-- What they mean. -/
theorem meaning_twoFragments {M : ℕ} (hM : 2 ≤ M) :
    Meaning M true none twoFragments [{ type := .ping }, { payload := [0x61, 0x62] }] := by
  have hbinary : (⟨false, .binary, some ⟨[1, 2, 3, 4], rfl⟩, [0x61]⟩ : Frame).Legal M true :=
    ⟨rfl, ⟨(by omega : 1 ≤ M), by decide, fun h => by cases h⟩, by decide, fun h => by cases h⟩
  have hping : (⟨true, .ping, some ⟨[0, 0, 0, 0], rfl⟩, []⟩ : Frame).Legal M true :=
    ⟨rfl, ⟨Nat.zero_le M, by decide, fun _ => ⟨rfl, by decide⟩⟩, by decide, fun h => by cases h⟩
  have hlast : (⟨true, .continuation, some ⟨[5, 6, 7, 8], rfl⟩, [0x62]⟩ : Frame).Legal M true :=
    ⟨rfl, ⟨(by omega : 1 ≤ M), by decide, fun h => by cases h⟩, by decide, fun h => by cases h⟩
  have hend : FrameMeaning M true (some [0x61]) ⟨true, .continuation, some ⟨[5, 6, 7, 8], rfl⟩, [0x62]⟩
      (some { payload := [0x61, 0x62] }) none := .last hlast rfl rfl hM
  exact .frame (.first hbinary rfl rfl) (.frame (.control hping rfl) (.frame hend (.done none)))

/-- The handshake comes with the first bytes behind it, and the frames are cut in the middle. -/
def handshakeAndFragments : List Bytes :=
  [upgradeBlock ++ headerTerminator ++ (twoFragments.flatMap Frame.encode).take 3,
    (twoFragments.flatMap Frame.encode).drop 3]

/-- The message arrives, and the handshake is answered. -/
theorem webSocket_arrives_fragments :
    (run {} none idle handshakeAndFragments).delivered = [[0x61, 0x62]] ∧
      (run {} none idle handshakeAndFragments).replies.head? = some
        (ascii "HTTP/1.1 101 Switching Protocols\r\nUpgrade: websocket\r\nConnection: Upgrade\r\n" ++
          ascii "Sec-WebSocket-Accept: s3pPLMBiTxaQ9kYGzzhZRbK+xOo=\r\n\r\n") := by
  have hrequest : HasRequest (upgradeBlock ++ headerTerminator)
      ({} : ServerConfig).maxHandshakeBytes.toNat none upgradeBlock upgradeKey :=
    ⟨by decide +kernel, hasRequest_upgradeBlock.2⟩
  have hcut : IsCut {} (upgradeBlock ++ headerTerminator ++ twoFragments.flatMap Frame.encode)
      handshakeAndFragments :=
    ⟨by decide +kernel, by decide +kernel, by decide +kernel⟩
  have hunlimited : (run {} none idle handshakeAndFragments).limited = false := by
    decide +kernel
  obtain ⟨-, hanswer, harrives⟩ := webSocket_arrives {} none idle_calm hrequest (by decide +kernel)
    (by decide +kernel) (meaning_twoFragments (by decide +kernel)) hcut
  rw [hunlimited] at harrives
  exact ⟨(harrives.resolve_left Bool.false_ne_true).1,
    hanswer.trans (congrArg some ((switchingProtocols_eq _).symm.trans switchingProtocols_sample))⟩

end WebSocket

/-! ### A raw client -/

section Raw

variable {stream : Bytes} {messages : List Bytes}

/-- **A stream that does not begin as HTTP does** is raw, however much is read at once. -/
theorem decides_raw (hraw : possibleHttp stream = false)
    (hroom : 3 + config.receiveBuffer ≤ config.maxSessionInboundBytes.toNat) {m n : ℕ}
    {d : Decision} (hmay : MaySettle config stream m n d) : d = .raw := by
  have hagrees := agreement_lt hraw
  have hundecided := hmay.undecided
  have hdecided := hmay.decided
  have hle := hmay.le
  rw [decision_take_raw hraw (hmay.lt.le.trans hmay.length)] at hundecided
  rw [decision_take_raw hraw hmay.length] at hdecided
  split at hundecided
  · cases hundecided
  · split at hundecided
    · cases hundecided
    · rw [if_neg (by omega)] at hdecided
      split at hdecided
      · exact (Option.some.inj hdecided).symm
      · cases hdecided

open LengthPrefixedAccumulator in
/-- **The messages of a raw client arrive.**  Let the input limit of a session have room for one
receive buffer and three bytes.  For every sequence of messages within the limit, however their
stream is cut into reads: the session is raw, and, unless it has reached its rate limit or its
receive buffer, what was delivered is what becomes of the messages.  The session is open behind them
with an empty buffer, or it was ended. -/
theorem raw_arrives (config : ServerConfig) (handler : Option Handler) {env : Environment}
    (henv : env.Calm)
    (hmessages : ∀ m ∈ messages, 1 ≤ m.length ∧ m.length ≤ config.maxMessageBytes.toNat)
    (hstream : encodeMessages messages = some stream) (hnonempty : messages ≠ [])
    (hraw : ¬ ascii "GET " <+: stream)
    (hroom : 3 + config.receiveBuffer ≤ config.maxSessionInboundBytes.toNat) {reads : List Bytes}
    (hcut : IsCut config stream reads) :
    let r := run config handler env reads
    let judged := judgeAll config handler messages {}
    r.transport = .rawTcp ∧ (r.limited = true ∨ r.delivered = judged.2.delivered ∧
      (judged.1 = true → Live r ∧ r.rawDecoder.available = []) ∧
      (judged.1 = false → Stopped r)) := by
  intro r judged
  have hlength : 4 ≤ stream.length := by
    obtain ⟨message, messages, rfl⟩ := List.exists_cons_of_ne_nil hnonempty
    obtain ⟨header, hheader, h⟩ := Option.bind_eq_some_iff.1 hstream
    obtain ⟨rest, -, h⟩ := Option.bind_eq_some_iff.1 h
    obtain rfl := Option.some.inj h
    rw [List.length_append, List.length_append, length_of_encodeLength hheader]
    omega
  have hraw : possibleHttp stream = false :=
    Bool.eq_false_of_not_eq_true fun hhttp => hraw (get_of_possibleHttp hhttp hlength)
  rcases run_settles handler henv hcut with ⟨hnone, -⟩ | ⟨m, n, d, hmay, hsettled⟩
  · -- the byte that shows it has been read
    have hagrees := agreement_lt hraw
    have hdecision := @decision_take_raw config _ _ hraw le_rfl
    rw [List.take_length, hnone] at hdecision
    split at hdecision
    · cases hdecision
    · rw [if_pos (by omega)] at hdecision
      cases hdecision
  · obtain rfl := decides_raw hraw hroom hmay
    refine ⟨hsettled.transport, ?_⟩
    have hdrain := drain_messages config handler hmessages hstream {}
    refine hsettled.digested.imp id fun hfollows => ?_
    rw [hdrain] at hfollows
    change FollowsRaw config r (ends judged.1 judged.2) at hfollows
    cases hgoes : judged.1 with
    | true =>
        rw [hgoes] at hfollows
        obtain ⟨hlive, -, -, -, hstate, hrest⟩ := hfollows
        exact ⟨(congrArg Deliveries.delivered hstate).symm, fun _ => ⟨hlive, hrest⟩,
          fun h => absurd h.symm Bool.false_ne_true⟩
    | false =>
        rw [hgoes] at hfollows
        exact ⟨hfollows.2, fun h => absurd h Bool.false_ne_true, fun _ => hfollows.1⟩

/-- The bytes of two messages, one in each read, and the beginning of the second one in the first. -/
def twoMessages : List Bytes := [[0, 0, 0, 1, 7, 0, 0], [0, 2, 8, 9]]

/-- They arrive. -/
theorem raw_arrives_twoMessages : (run {} none idle twoMessages).delivered = [[7], [8, 9]] := by
  have hcut : IsCut {} twoMessages.flatten twoMessages :=
    ⟨by decide, by decide +kernel, rfl⟩
  have hunlimited : (run {} none idle twoMessages).limited = false := by
    decide +kernel
  have hmessages : ∀ m ∈ ([[7], [8, 9]] : List Bytes),
      1 ≤ m.length ∧ m.length ≤ ({} : ServerConfig).maxMessageBytes.toNat := by decide
  have harrives := (raw_arrives {} none idle_calm hmessages rfl (by decide) (by decide) (by decide)
    hcut).2
  rw [hunlimited] at harrives
  exact (harrives.resolve_left Bool.false_ne_true).1

end Raw

end SessionInput

end RealtimeEngine
