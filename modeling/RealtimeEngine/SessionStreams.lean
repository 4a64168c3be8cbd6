/-
**The decoders as consumers of a stream.**

Once the transport of a session is known, its bytes go through one decoder, and what is delivered is
a matter of the bytes alone: of the frames in them and of the verdicts on their messages.  Each of
the two decoders is stated here as a consumer, in the sense of `RealtimeEngine/StreamConsumer.lean`,
whose turn is one frame; the loops of `ProcessRaw` and `ProcessWebSocket` follow it, as long as the
rate limit is not reached and the decoder finds room for every read.

Main definitions:

* `RealtimeEngine.SessionInput.judge` — the verdict on a message, without the rate limit;
* `RealtimeEngine.SessionInput.rawConsumer`, `RealtimeEngine.SessionInput.webSocketConsumer`.

Main results:

* `RealtimeEngine.SessionInput.reads_raw`, `RealtimeEngine.SessionInput.reads_webSocket` —
  **what a session delivers is what its consumer makes of the whole stream**, however the stream is
  cut into reads.
-/

import RealtimeEngine.FramingStream
import RealtimeEngine.SessionInput
import RealtimeEngine.WebSocketStream

set_option relaxedAutoImplicit false
set_option autoImplicit false

namespace RealtimeEngine

open StreamConsumer

namespace SessionInput

/-! ### The consumers -/

/-- What the verdicts of the message handler depend on, and what comes of them. -/
structure Deliveries where
  malformedMessages : ℕ := 0
  delivered : List Bytes := []

/-- `DeliverMessage` below the rate limit. -/
def judge (config : ServerConfig) (handler : Option Handler) (message : Bytes) (p : Deliveries) :
    Bool × Deliveries :=
  let p := { p with delivered := p.delivered ++ [message] }
  match handler with
  | none => (true, p)
  | some verdict =>
      if verdict p.delivered = .accepted then (true, p)
      else
        let p := { p with malformedMessages := p.malformedMessages + 1 }
        if verdict p.delivered = .close ||
            p.malformedMessages ≥ config.malformedMessageLimit.toNat then (false, p)
        else (true, p)

variable (config : ServerConfig) (handler : Option Handler)

/-- A message that takes so many bytes is delivered. -/
def delivers {σ : Type} (message : Bytes) (p : Deliveries) (size : ℕ) (state : Deliveries → σ) :
    Turn σ :=
  let (goesOn, p) := judge config handler message p
  if goesOn then .consume (state p) size else .halt (state p)

/-- One message of a raw session. -/
def rawTurn (p : Deliveries) (data : Bytes) : Turn Deliveries :=
  if data.length < 4 then .wait
  else
    let length := BigEndian.toNat (data.take 4)
    if length = 0 ∨ length > config.maxMessageBytes.toNat then .halt p
    else if data.length - 4 < length then .wait
    else delivers config handler ((data.drop 4).take length) p (4 + length) id

/-- One frame of a WebSocket session. -/
def webSocketTurn (s : WebSocketDecoder × Deliveries) (data : Bytes) :
    Turn (WebSocketDecoder × Deliveries) :=
  match readFrame s.1.requireMasking s.1.maxMessageBytes data with
  | .needMoreData => .wait
  | .failed _ _ => .halt s
  | .frame fin opcode payload totalSize =>
      match s.1.dispatch fin opcode payload with
      | (none, d) => .consume (d, s.2) totalSize
      | (some (.eventReady, event, _), d) =>
          match event.type with
          | .binaryMessage => delivers config handler event.payload s.2 totalSize fun p => (d, p)
          | .ping | .pong => .consume (d, s.2) totalSize
          | .close => .halt (d, s.2)
      | (some _, d) => .halt (d, s.2)

variable {config} {handler}

theorem delivers_consume {σ : Type} {message : Bytes} {p : Deliveries} {size n : ℕ}
    {state : Deliveries → σ} {s : σ}
    (h : delivers config handler message p size state = .consume s n) : n = size := by
  unfold delivers at h
  dsimp only at h
  split at h
  · exact (Turn.consume.inj h).2.symm
  · cases h

open LengthPrefixedAccumulator in
/-- The turn, by what is in front of the consumer. -/
theorem rawTurn_eq (p : Deliveries) (data : Bytes) :
    rawTurn config handler p data =
      match readPrefixed config.maxMessageBytes.toNat data with
      | .needMoreData => .wait
      | .invalidLength => .halt p
      | .message payload size => delivers config handler payload p size id := by
  unfold rawTurn readPrefixed
  dsimp only
  split
  · rfl
  · split
    · rfl
    · split
      · rfl
      · rfl

open LengthPrefixedAccumulator in
theorem rawTurn_append {p : Deliveries} {data : Bytes} (h : rawTurn config handler p data ≠ .wait)
    (more : Bytes) : rawTurn config handler p (data ++ more) = rawTurn config handler p data := by
  have hread : readPrefixed config.maxMessageBytes.toNat data ≠ .needMoreData :=
    fun hmore => h (by rw [rawTurn_eq, hmore])
  rw [rawTurn_eq, rawTurn_eq, readPrefixed_append hread more]

theorem webSocketTurn_append {s : WebSocketDecoder × Deliveries} {data : Bytes}
    (h : webSocketTurn config handler s data ≠ .wait) (more : Bytes) :
    webSocketTurn config handler s (data ++ more) = webSocketTurn config handler s data := by
  have hread : readFrame s.1.requireMasking s.1.maxMessageBytes data ≠ .needMoreData :=
    fun hmore => h (by rw [webSocketTurn, hmore])
  rw [webSocketTurn, webSocketTurn, readFrame_append hread more]

theorem webSocketTurn_consume {s s' : WebSocketDecoder × Deliveries} {data : Bytes} {n : ℕ}
    (h : webSocketTurn config handler s data = .consume s' n) : 0 < n ∧ n ≤ data.length := by
  have hsize : ∀ {fin opcode payload totalSize},
      readFrame s.1.requireMasking s.1.maxMessageBytes data =
        .frame fin opcode payload totalSize → 0 < totalSize ∧ totalSize ≤ data.length := by
    intro fin opcode payload totalSize hread
    obtain ⟨htwo, hle⟩ := readFrame_size hread
    exact ⟨by omega, hle⟩
  unfold webSocketTurn at h
  split at h
  · cases h
  · cases h
  · next hread =>
      split at h
      · obtain ⟨-, rfl⟩ := Turn.consume.inj h
        exact hsize hread
      · split at h
        · obtain rfl := delivers_consume h
          exact hsize hread
        · obtain ⟨-, rfl⟩ := Turn.consume.inj h
          exact hsize hread
        · obtain ⟨-, rfl⟩ := Turn.consume.inj h
          exact hsize hread
        · cases h
      · cases h

variable (config) (handler)

/-- The consumer of a raw session. -/
def rawConsumer : Consumer Deliveries UInt8 where
  turn := rawTurn config handler
  consumes {p p'} {data} {n} h := by
    rw [rawTurn_eq] at h
    split at h
    · cases h
    · cases h
    · next hread =>
        obtain rfl := delivers_consume h
        exact LengthPrefixedAccumulator.readPrefixed_message hread
  halt_append h more := by rw [rawTurn_append (by simp [h]) more, h]
  consume_append h more := by rw [rawTurn_append (by simp [h]) more, h]

/-- The consumer of a WebSocket session; its states are decoders without their buffer. -/
def webSocketConsumer : Consumer (WebSocketDecoder × Deliveries) UInt8 where
  turn := webSocketTurn config handler
  consumes h := webSocketTurn_consume h
  halt_append h more := by rw [webSocketTurn_append (by simp [h]) more, h]
  consume_append h more := by rw [webSocketTurn_append (by simp [h]) more, h]

@[simp] theorem rawConsumer_turn :
    (rawConsumer config handler).turn = rawTurn config handler := rfl

@[simp] theorem webSocketConsumer_turn :
    (webSocketConsumer config handler).turn = webSocketTurn config handler := rfl

/-! ### Open and stopped sessions -/

/-- The session is open. -/
structure Live (r : Reading) : Prop where
  registered : r.registered = true
  connected : r.disconnectStarted = false
  state : r.state = .opened

/-- The session does not take any more input. -/
def Stopped (r : Reading) : Prop :=
  r.disconnectStarted = true ∨ r.transport = .webSocket ∧ r.state = .closing

/-- What the messages so far have come to. -/
def deliveries (r : Reading) : Deliveries := ⟨r.malformedMessages, r.delivered⟩

variable (env : Environment) {r : Reading}

/-- `UpdateInboundAccounting`, below the limit of the server. -/
theorem updateInboundAccounting_calm {env : Environment} (henv : env.Calm) (bytes : ℕ) (r : Reading) :
    ∃ charges, updateInboundAccounting env bytes r =
      { r with inboundAccounted := bytes, charges := charges } := by
  unfold updateInboundAccounting
  dsimp only
  split
  · rw [henv.overloaded, if_neg (by decide)]
    exact ⟨_, rfl⟩
  · exact ⟨_, rfl⟩

theorem disconnect_stops (r : Reading) :
    Stopped (disconnect r) ∧ (disconnect r).delivered = r.delivered := by
  unfold disconnect
  split
  · next hstarted => exact ⟨Or.inl hstarted, rfl⟩
  · exact ⟨Or.inl rfl, rfl⟩

/-- A close frame stops a WebSocket session. -/
theorem sendControl_stops (opcode : WsOpcode) (payload : Bytes) (hlive : Live r)
    (htransport : r.transport = .webSocket) :
    Stopped (sendControl config env opcode payload true r) ∧
      (sendControl config env opcode payload true r).delivered = r.delivered := by
  obtain ⟨calls, bytes, hqueued⟩ :=
    enqueue_cases config env (frameItem opcode payload true) { r with state := .closing }
  rw [sendControl_close config env opcode payload (by rw [hlive.state]; decide)]
  dsimp only
  rcases hqueued with hqueued | ⟨-, hqueued, hsevered⟩
  · split
    · rw [hqueued]
      exact ⟨Or.inr ⟨htransport, rfl⟩, rfl⟩
    · rw [hqueued]
      exact disconnect_stops _
  · rw [if_pos hqueued, hsevered]
    exact disconnect_stops _

theorem close_stops (code : UInt16) (reason : Bytes) (hlive : Live r) :
    Stopped (close config env code reason r) ∧
      (close config env code reason r).delivered = r.delivered := by
  unfold close
  rw [hlive.registered, if_neg (by decide)]
  split
  · exact disconnect_stops r
  · next htransport => exact sendControl_stops config env _ _ hlive (not_not.1 htransport)

variable {env} in
/-- **`DeliverMessage` follows the verdict**, unless the rate limit is reached. -/
theorem deliverMessage_judge (henv : env.Calm) (message : Bytes) (hlive : Live r) {p : Deliveries}
    (hp : deliveries r = p) :
    let result := deliverMessage config handler env message r
    let verdict := judge config handler message p
    result.2.limited = true ∨ result.1 = verdict.1 ∧
      (verdict.1 = true ∧ (∃ start count trace, result.2 =
          { r with
            rateWindowMs := start, rateWindowMessages := count, trace := trace
            malformedMessages := verdict.2.malformedMessages, delivered := verdict.2.delivered }) ∨
        verdict.1 = false ∧ Stopped result.2 ∧ result.2.delivered = verdict.2.delivered) := by
  subst hp
  obtain ⟨start, count, -, hwindow⟩ := rateWindow_eq r.toControl (env.clock r.delivered.length)
  unfold deliverMessage judge
  rw [hwindow]
  dsimp only [deliveries]
  split
  · -- too many messages in the window
    exact Or.inl ((close_after config env _ _ _).limited rfl)
  · refine Or.inr ?_
    cases handler with
    | none => exact ⟨rfl, Or.inl ⟨rfl, start, count, _, rfl⟩⟩
    | some verdict =>
        dsimp only
        rw [henv.meanwhile, interfere]
        by_cases haccepted : verdict (r.delivered ++ [message]) = .accepted
        · rw [if_pos haccepted, if_pos haccepted]
          exact ⟨rfl, Or.inl ⟨rfl, start, count, _, rfl⟩⟩
        · rw [if_neg haccepted, if_neg haccepted]
          by_cases hclose : (verdict (r.delivered ++ [message]) = .close ||
              r.malformedMessages + 1 ≥ config.malformedMessageLimit.toNat) = true
          · rw [if_pos hclose, if_pos hclose]
            exact ⟨rfl, Or.inr ⟨rfl, close_stops config env _ _ ⟨hlive.1, hlive.2, hlive.3⟩⟩⟩
          · rw [if_neg hclose, if_neg hclose]
            exact ⟨rfl, Or.inl ⟨rfl, start, count, _, rfl⟩⟩

variable {env} in
/-- One round of a loop that delivers a message follows the turn of the consumer. -/
theorem round_delivers (henv : env.Calm) {σ : Type} {R : Reading → Turn σ → Prop}
    {loop : Reading → Reading}
    (message : Bytes) (hlive : Live r) {p : Deliveries} (hp : deliveries r = p) (size : ℕ)
    (state : Deliveries → σ) (hafter : ∀ r, After r (loop r))
    (hlimited : ∀ r' turn, r'.limited = true → R r' turn)
    (hgoes : ∀ start count trace p',
      R (loop { r with
          rateWindowMs := start, rateWindowMessages := count, trace := trace
          malformedMessages := p'.malformedMessages, delivered := p'.delivered })
        (.consume (state p') size))
    (hstops : ∀ r' p', Stopped r' → r'.delivered = p'.delivered → R r' (.halt (state p'))) :
    R (if (deliverMessage config handler env message r).1 = true then
        loop (deliverMessage config handler env message r).2
      else (deliverMessage config handler env message r).2)
      (delivers config handler message p size state) := by
  rw [delivers]
  dsimp only
  rcases deliverMessage_judge config handler henv message hlive hp with
    hlimit | ⟨hsame, ⟨hverdict, start, count, trace, hr⟩ | ⟨hverdict, hstopped, hdelivered⟩⟩
  · refine hlimited _ _ ?_
    split
    · exact (hafter _).limited hlimit
    · exact hlimit
  · rw [if_pos (hsame.trans hverdict), if_pos hverdict, hr]
    exact hgoes start count trace _
  · rw [if_neg (by rw [hsame, hverdict]; decide), if_neg (by rw [hverdict]; decide)]
    exact hstops _ _ hstopped hdelivered

/-- A session that is stopped stays so, and delivers nothing. -/
theorem handleRead_stopped (bytes : Bytes) (h : Stopped r) :
    Stopped (handleRead config handler env bytes r) ∧
      (handleRead config handler env bytes r).delivered = r.delivered := by
  unfold handleRead
  split
  · exact disconnect_stops r
  · next hgood =>
      rcases h with hstarted | ⟨htransport, hstate⟩
      · exact absurd (by simp [hstarted]) hgood
      · rw [processIncoming, htransport]
        dsimp only
        rw [processWebSocket, if_pos hstate]
        exact ⟨Or.inr ⟨htransport, hstate⟩, rfl⟩

/-! ### The WebSocket loop -/

/-- The session stands where its consumer stands. -/
def FollowsWebSocket (r : Reading) : Fed (WebSocketDecoder × Deliveries) UInt8 → Prop
  | .halted s => Stopped r ∧ r.delivered = s.2.delivered
  | .waiting s rest =>
      Live r ∧ r.transport = .webSocket ∧ r.webSocketDecoder.Sound ∧
        s = (r.webSocketDecoder.bare, deliveries r) ∧ r.webSocketDecoder.available = rest

variable {config} {handler} {env}

variable (config) (handler) (env)

/-- The turn of the consumer for an event. -/
def eventTurn (event : WsEvent) (d : WebSocketDecoder) (p : Deliveries) (size : ℕ) :
    Turn (WebSocketDecoder × Deliveries) :=
  match event.type with
  | .binaryMessage => delivers config handler event.payload p size fun p => (d, p)
  | .ping | .pong => .consume (d, p) size
  | .close => .halt (d, p)

/-- A call of `Next` is a turn of the consumer, or several: fragments are taken one by one. -/
theorem webSocketTurn_next {d : WebSocketDecoder} (hd : d.Sound) (p : Deliveries) :
    let turn := webSocketTurn config handler (d.bare, p) d.available
    d.next = ⟨.needMoreData, {}, "", d⟩ ∧ turn = .wait ∨
    (d.next.status ≠ .needMoreData ∧ d.next.status ≠ .eventReady ∧ ∃ d', turn = .halt (d', p)) ∨
    (∃ d' size, d.next = d'.next ∧ turn = .consume (d'.bare, p) size ∧
      WebSocketDecoder.Behind d d' size) ∨
    ∃ event error d' size, d.next = ⟨.eventReady, event, error, d'⟩ ∧
      turn = eventTurn config handler event d'.bare p size ∧ WebSocketDecoder.Behind d d' size := by
  intro turn
  have hturn : turn = webSocketTurn config handler (d.bare, p) d.available := rfl
  unfold webSocketTurn at hturn
  dsimp only at hturn
  rw [show d.bare.requireMasking = d.requireMasking from rfl,
    show d.bare.maxMessageBytes = d.maxMessageBytes from rfl] at hturn
  rcases WebSocketDecoder.next_cases hd with
    ⟨hread, hnext⟩ | ⟨status, error, hread, hnext, hmore, hevent⟩ |
    ⟨fin, opcode, payload, size, d', hread, hdispatch, hnext, hbehind⟩ |
    ⟨fin, opcode, payload, size, status, event, error, d', hread, hdispatch, hnext, hmore, hbehind⟩
  · rw [hread] at hturn
    exact Or.inl ⟨hnext, hturn⟩
  · rw [hread] at hturn
    rw [hnext]
    exact Or.inr (Or.inl ⟨hmore, hevent, d.bare, hturn⟩)
  · rw [hread] at hturn
    dsimp only at hturn
    rw [hdispatch] at hturn
    exact Or.inr (Or.inr (Or.inl ⟨d', size, hnext, hturn, hbehind⟩))
  · rw [hread] at hturn
    dsimp only at hturn
    rw [hdispatch] at hturn
    have hstatus : d.next.status = status := by rw [hnext]
    -- a status that goes on has reported the event, every other one halts
    cases status with
    | needMoreData => exact absurd rfl hmore
    | eventReady => exact Or.inr (Or.inr (Or.inr ⟨event, error, d', size, hnext, hturn, hbehind⟩))
    | protocolError =>
        exact Or.inr (Or.inl ⟨by rw [hstatus]; decide, by rw [hstatus]; decide, _, hturn⟩)
    | messageTooLarge =>
        exact Or.inr (Or.inl ⟨by rw [hstatus]; decide, by rw [hstatus]; decide, _, hturn⟩)
    | bufferLimitExceeded =>
        exact Or.inr (Or.inl ⟨by rw [hstatus]; decide, by rw [hstatus]; decide, _, hturn⟩)

/-- What the loop does when `Next` refuses a frame. -/
theorem webSocketLoop_refused (rounds : ℕ) (hlive : Live r)
    (hmore : r.webSocketDecoder.next.status ≠ .needMoreData)
    (hevent : r.webSocketDecoder.next.status ≠ .eventReady) :
    Stopped (webSocketLoop config handler env (rounds + 1) r) ∧
      (webSocketLoop config handler env (rounds + 1) r).delivered = r.delivered := by
  rw [webSocketLoop, if_neg (by simp [hlive.connected, hlive.state])]
  dsimp only
  split
  · next hstatus => exact absurd hstatus hmore
  · exact close_stops config env _ _ ⟨hlive.1, hlive.2, hlive.3⟩
  · exact close_stops config env _ _ ⟨hlive.1, hlive.2, hlive.3⟩
  · exact close_stops config env _ _ ⟨hlive.1, hlive.2, hlive.3⟩
  · next hstatus => exact absurd hstatus hevent

variable {config} {handler} {env}

/-- **The loop of `ProcessWebSocket` follows the consumer.** -/
theorem webSocketLoop_follows (henv : env.Calm) {rounds : ℕ} (hlive : Live r)
    (htransport : r.transport = .webSocket)
    (hsound : r.webSocketDecoder.Sound) (hrounds : r.webSocketDecoder.bufferedBytes < rounds) :
    (webSocketLoop config handler env rounds r).limited = true ∨
      FollowsWebSocket (webSocketLoop config handler env rounds r)
        ((webSocketConsumer config handler).drain (r.webSocketDecoder.bare, deliveries r)
          r.webSocketDecoder.available) := by
  -- every frame shortens what is behind the cursor
  induction hbytes : r.webSocketDecoder.bufferedBytes using Nat.strongRecOn
    generalizing rounds r with
  | _ bytes ih =>
      subst hbytes
      obtain ⟨rounds, rfl⟩ : ∃ n, rounds = n + 1 := ⟨rounds - 1, by omega⟩
      have hopen : ¬ (r.disconnectStarted || r.state ≠ .opened) = true := by
        simp [hlive.connected, hlive.state]
      rw [Consumer.drain_eq, webSocketConsumer_turn]
      rcases webSocketTurn_next config handler hsound (deliveries r) with
        ⟨hnext, hturn⟩ | ⟨hmore, hevent, d', hturn⟩ | ⟨d', size, hnext, hturn, hbehind⟩ |
          ⟨event, error, d', size, hnext, hturn, hbehind⟩
      · obtain ⟨charges, hupdate⟩ :=
          updateInboundAccounting_calm henv r.webSocketDecoder.bufferedBytes r
        rw [hturn, webSocketLoop, if_neg hopen, hnext]
        dsimp only
        rw [hupdate]
        exact Or.inr ⟨⟨hlive.1, hlive.2, hlive.3⟩, htransport, hsound, rfl, rfl⟩
      · rw [hturn]
        exact Or.inr (webSocketLoop_refused config handler env rounds hlive hmore hevent)
      · -- `Next` calls itself, the loop does not notice
        have hloop : webSocketLoop config handler env (rounds + 1) r =
            webSocketLoop config handler env (rounds + 1) { r with webSocketDecoder := d' } := by
          rw [webSocketLoop, webSocketLoop, if_neg hopen, if_neg hopen, hnext]
        have hless := hbehind.bufferedBytes
        rw [hloop, hturn, Consumer.outcome, ← hbehind.available]
        exact ih d'.bufferedBytes hless (r := { r with webSocketDecoder := d' })
          ⟨hlive.1, hlive.2, hlive.3⟩ htransport hbehind.sound (by dsimp only; omega) rfl
      · have hlive' : Live { r with webSocketDecoder := d' } := ⟨hlive.1, hlive.2, hlive.3⟩
        have hless := hbehind.bufferedBytes
        rw [webSocketLoop, if_neg hopen, hnext, hturn, eventTurn]
        dsimp only
        cases event.type with
        | binaryMessage =>
            refine round_delivers config handler henv
              (R := fun r' turn => r'.limited = true ∨ FollowsWebSocket r'
                ((webSocketConsumer config handler).outcome _ _ turn))
              event.payload hlive' rfl size (fun p => (d'.bare, p))
              (webSocketLoop_after config handler env rounds)
              (fun _ _ hlimit => Or.inl hlimit) (fun start count trace p' => ?_)
              (fun _ _ hstopped hdelivered => Or.inr ⟨hstopped, hdelivered⟩)
            rw [Consumer.outcome, ← hbehind.available]
            exact ih d'.bufferedBytes hless ⟨hlive.1, hlive.2, hlive.3⟩ htransport hbehind.sound
              (by dsimp only; omega) rfl
        | ping =>
            obtain ⟨calls, bytes, hpong⟩ :=
              sendControl_eq config henv .pong event.payload { r with webSocketDecoder := d' }
            dsimp only
            rw [hpong, Consumer.outcome, ← hbehind.available]
            exact ih d'.bufferedBytes hless ⟨hlive.1, hlive.2, hlive.3⟩ htransport hbehind.sound
              (by dsimp only; omega) rfl
        | pong =>
            dsimp only
            rw [Consumer.outcome, ← hbehind.available]
            exact ih d'.bufferedBytes hless hlive' htransport hbehind.sound
              (by dsimp only; omega) rfl
        | close =>
            exact Or.inr (sendControl_stops config env .close event.payload
              ⟨hlive.1, hlive.2, hlive.3⟩ htransport)

/-! ### The raw loop -/

/-- The session stands where its consumer stands. -/
def FollowsRaw (config : ServerConfig) (r : Reading) : Fed Deliveries UInt8 → Prop
  | .halted p => Stopped r ∧ r.delivered = p.delivered
  | .waiting p rest =>
      Live r ∧ r.transport = .rawTcp ∧ r.rawDecoder.Sound ∧
        r.rawDecoder.maxMessageBytes = config.maxMessageBytes.toNat ∧ p = deliveries r ∧
        r.rawDecoder.available = rest

variable (config) (handler) in
/-- A call of `Next` is a turn of the consumer. -/
theorem rawTurn_next {d : LengthPrefixedAccumulator} (hd : d.Sound)
    (hmax : d.maxMessageBytes = config.maxMessageBytes.toNat) (p : Deliveries) :
    d.next = (.needMoreData, [], d) ∧ rawTurn config handler p d.available = .wait ∨
    d.next = (.invalidLength, [], d) ∧ rawTurn config handler p d.available = .halt p ∨
    ∃ message d' size, d.next = (.messageReady, message, d') ∧
      rawTurn config handler p d.available = delivers config handler message p size id ∧
      d'.Sound ∧ d'.maxMessageBytes = d.maxMessageBytes ∧ d'.available = d.available.drop size ∧
      d'.bufferedBytes < d.bufferedBytes := by
  rw [LengthPrefixedAccumulator.next_eq hd.limit, rawTurn_eq, ← hmax]
  cases hread : LengthPrefixedAccumulator.readPrefixed d.maxMessageBytes d.available with
  | needMoreData => exact Or.inl ⟨rfl, rfl⟩
  | invalidLength => exact Or.inr (Or.inl ⟨rfl, rfl⟩)
  | message payload size =>
      obtain ⟨hsound, hrest, hless⟩ := hd.advance hread
      exact Or.inr (Or.inr ⟨payload, _, size, rfl, rfl, hsound, rfl, hrest, hless⟩)

/-- **The loop of `ProcessRaw` follows the consumer.** -/
theorem rawLoop_follows (henv : env.Calm) {rounds : ℕ} (hlive : Live r)
    (htransport : r.transport = .rawTcp)
    (hsound : r.rawDecoder.Sound)
    (hmax : r.rawDecoder.maxMessageBytes = config.maxMessageBytes.toNat)
    (hrounds : r.rawDecoder.bufferedBytes < rounds) :
    (rawLoop config handler env rounds r).limited = true ∨
      FollowsRaw config (rawLoop config handler env rounds r)
        ((rawConsumer config handler).drain (deliveries r) r.rawDecoder.available) := by
  induction rounds generalizing r with
  | zero => omega
  | succ rounds ih =>
      rw [Consumer.drain_eq, rawConsumer_turn, rawLoop, if_neg (by simp [hlive.connected])]
      rcases rawTurn_next config handler hsound hmax (deliveries r) with
        ⟨hnext, hturn⟩ | ⟨hnext, hturn⟩ |
          ⟨message, d', size, hnext, hturn, hsound', hmax', hrest, hless⟩
      · obtain ⟨charges, hupdate⟩ := updateInboundAccounting_calm henv r.rawDecoder.bufferedBytes r
        rw [hnext, hturn]
        dsimp only
        rw [hupdate]
        exact Or.inr ⟨⟨hlive.1, hlive.2, hlive.3⟩, htransport, hsound, hmax, rfl, rfl⟩
      · rw [hnext, hturn]
        exact Or.inr (disconnect_stops _)
      · rw [hnext, hturn]
        -- one message is judged; the rest is what the induction is about
        refine round_delivers config handler henv
          (R := fun r' turn => r'.limited = true ∨ FollowsRaw config r'
            ((rawConsumer config handler).outcome _ _ turn))
          message (r := { r with rawDecoder := d' }) ⟨hlive.1, hlive.2, hlive.3⟩ rfl size id
          (rawLoop_after config handler env rounds) (fun _ _ hlimit => Or.inl hlimit)
          (fun start count trace p' => ?_)
          (fun _ _ hstopped hdelivered => Or.inr ⟨hstopped, hdelivered⟩)
        rw [Consumer.outcome, ← hrest]
        exact ih (r := { r with
            rawDecoder := d', rateWindowMs := start, rateWindowMessages := count, trace := trace
            malformedMessages := p'.malformedMessages, delivered := p'.delivered })
          ⟨hlive.1, hlive.2, hlive.3⟩ htransport hsound' (hmax'.trans hmax) (by dsimp only; omega)

/-! ### Whole runs -/

variable (config) (handler) (env) in
theorem handleRead_after (bytes : Bytes) (h : r.transport ≠ .detecting) :
    After r (handleRead config handler env bytes r) := by
  unfold handleRead
  split
  · exact disconnect_after r
  · unfold processIncoming
    split
    · next hdetecting => exact absurd hdetecting h
    · exact processRaw_after config handler env bytes r
    · exact processWebSocket_after config handler env bytes r

/-- A read of a WebSocket session. -/
theorem processWebSocket_follows (henv : env.Calm) {s : WebSocketDecoder × Deliveries}
    {rest : Bytes} (bytes : Bytes)
    (h : FollowsWebSocket r (.waiting s rest)) :
    (processWebSocket config handler env bytes r).limited = true ∨
      FollowsWebSocket (processWebSocket config handler env bytes r)
        ((webSocketConsumer config handler).drain s (rest ++ bytes)) := by
  obtain ⟨hlive, htransport, hsound, rfl, rfl⟩ := h
  rw [processWebSocket, if_neg (by rw [hlive.state]; decide)]
  cases happend : r.webSocketDecoder.append bytes with
  | mk appended d =>
      dsimp only
      cases appended with
      | false => exact Or.inl ((close_after config env _ _ _).limited rfl)
      | true =>
          obtain ⟨hsound', hbare, havailable⟩ := WebSocketDecoder.append_eq hsound happend
          obtain ⟨charges, hupdate⟩ := updateInboundAccounting_calm henv d.bufferedBytes
            { r with webSocketDecoder := d }
          rw [← hbare, ← havailable, if_neg (by decide), hupdate]
          exact webSocketLoop_follows henv (r := { r with
              webSocketDecoder := d, inboundAccounted := d.bufferedBytes, charges := charges })
            ⟨hlive.1, hlive.2, hlive.3⟩ htransport hsound' (Nat.lt_succ_self _)

/-- A read of a raw session. -/
theorem processRaw_follows (henv : env.Calm) {p : Deliveries} {rest : Bytes} (bytes : Bytes)
    (h : FollowsRaw config r (.waiting p rest)) :
    (processRaw config handler env bytes r).limited = true ∨
      FollowsRaw config (processRaw config handler env bytes r)
        ((rawConsumer config handler).drain p (rest ++ bytes)) := by
  obtain ⟨hlive, htransport, hsound, hmax, rfl, rfl⟩ := h
  rw [processRaw]
  cases happend : r.rawDecoder.append bytes with
  | mk appended d =>
      dsimp only
      cases appended with
      | false => exact Or.inl ((disconnect_after _).limited rfl)
      | true =>
          obtain ⟨hsound', hmax', -, havailable⟩ :=
            LengthPrefixedAccumulator.append_eq hsound happend
          obtain ⟨charges, hupdate⟩ := updateInboundAccounting_calm henv d.bufferedBytes
            { r with rawDecoder := d }
          rw [← havailable, if_neg (by decide), hupdate]
          exact rawLoop_follows henv (r := { r with
              rawDecoder := d, inboundAccounted := d.bufferedBytes, charges := charges })
            ⟨hlive.1, hlive.2, hlive.3⟩ htransport hsound' (hmax'.trans hmax) (Nat.lt_succ_self _)

/-- **What a session delivers** is what its consumer makes of the whole stream, for any relation of
the two that says of a halted consumer that the session has stopped, and that the handling of its
input keeps. -/
theorem reads_follow {σ : Type} (consumer : Consumer σ UInt8) {kind : TransportKind}
    (hkind : kind ≠ .detecting) {Follows : Reading → Fed σ UInt8 → Prop} (delivered : σ → List Bytes)
    (hhalted : ∀ r s, Follows r (.halted s) ↔ Stopped r ∧ r.delivered = delivered s)
    (hwaiting : ∀ r s rest, Follows r (.waiting s rest) → r.disconnectStarted = false)
    (hprocess : ∀ bytes r s rest, r.transport = kind → Follows r (.waiting s rest) →
      (processIncoming config handler env bytes r).limited = true ∨
        Follows (processIncoming config handler env bytes r) (consumer.drain s (rest ++ bytes)))
    {reads : List Bytes} (hreads : ∀ bytes ∈ reads, bytes ≠ []) {s : σ} {seen : Bytes}
    (htransport : r.transport = kind)
    (h : r.limited = true ∨ Follows r (consumer.drain s seen)) :
    let r' := reads.foldl (fun r bytes => handleRead config handler env bytes r) r
    r'.transport = kind ∧
      (r'.limited = true ∨ Follows r' (consumer.drain s (seen ++ reads.flatten))) := by
  refine consumer.foldl_related
    (R := fun r f => r.transport = kind ∧ (r.limited = true ∨ Follows r f)) reads ?_ _ _
    ⟨htransport, h⟩
  rintro bytes hbytes r f ⟨htransport, hr⟩
  have hafter := handleRead_after config handler env bytes (r := r) (by rw [htransport]; exact hkind)
  refine ⟨hafter.transport.trans htransport, ?_⟩
  rcases hr with hlimited | hfollows
  · exact Or.inl (hafter.limited hlimited)
  · cases f with
    | halted s =>
        obtain ⟨hstopped, hdelivered⟩ := (hhalted r s).1 hfollows
        obtain ⟨hstopped', hdelivered'⟩ :=
          handleRead_stopped config handler env bytes hstopped
        exact Or.inr ((hhalted _ s).2 ⟨hstopped', hdelivered'.trans hdelivered⟩)
    | waiting s rest =>
        have hgood : ¬ (bytes.isEmpty || r.disconnectStarted) = true := by
          simp [hwaiting r s rest hfollows, hreads bytes hbytes]
        rw [handleRead, if_neg hgood]
        exact hprocess bytes r s rest htransport hfollows

/-- **What a WebSocket session delivers** is what its consumer makes of the whole stream. -/
theorem reads_webSocket (henv : env.Calm) {reads : List Bytes}
    (hreads : ∀ bytes ∈ reads, bytes ≠ []) {s : WebSocketDecoder × Deliveries} {seen : Bytes}
    (htransport : r.transport = .webSocket)
    (h : r.limited = true ∨
      FollowsWebSocket r ((webSocketConsumer config handler).drain s seen)) :
    let r' := reads.foldl (fun r bytes => handleRead config handler env bytes r) r
    r'.transport = .webSocket ∧ (r'.limited = true ∨
      FollowsWebSocket r' ((webSocketConsumer config handler).drain s (seen ++ reads.flatten))) := by
  refine reads_follow (webSocketConsumer config handler) (by decide) (fun s => s.2.delivered)
    (fun _ _ => Iff.rfl) (fun _ _ _ hfollows => hfollows.1.connected) ?_ hreads htransport h
  intro bytes r s rest htransport hfollows
  rw [processIncoming, htransport]
  exact processWebSocket_follows henv bytes hfollows

/-- **What a raw session delivers** is what its consumer makes of the whole stream. -/
theorem reads_raw (henv : env.Calm) {reads : List Bytes} (hreads : ∀ bytes ∈ reads, bytes ≠ [])
    {p : Deliveries} {seen : Bytes} (htransport : r.transport = .rawTcp)
    (h : r.limited = true ∨ FollowsRaw config r ((rawConsumer config handler).drain p seen)) :
    let r' := reads.foldl (fun r bytes => handleRead config handler env bytes r) r
    r'.transport = .rawTcp ∧ (r'.limited = true ∨
      FollowsRaw config r' ((rawConsumer config handler).drain p (seen ++ reads.flatten))) := by
  refine reads_follow (rawConsumer config handler) (by decide) (fun p => p.delivered)
    (fun _ _ => Iff.rfl) (fun _ _ _ hfollows => hfollows.1.connected) ?_ hreads htransport h
  intro bytes r p rest htransport hfollows
  rw [processIncoming, htransport]
  exact processRaw_follows henv bytes hfollows

end SessionInput

end RealtimeEngine
