/-
**The input of one session, read by read.**

`HandleRead` hands the bytes of a read to `ProcessIncoming`, which goes by the transport of the
session: `ProcessDetection` collects the bytes until it can tell what the client speaks,
`ProcessRaw` and `ProcessWebSocket` feed a decoder and deliver the messages that are complete.  Here
these functions run from their first line to their last, on a session that no other thread touches
meanwhile; `RealtimeEngine/ServerSteps.lean` has the same code cut into its accesses.

What is not the session's own is in an `Environment`: the clock, how far the write pipeline has got
when something is queued and whether the write it starts fails at once, whether the bytes of all
sessions are beyond the limits of the server, and what becomes of the session while the message
handler runs.  The verdict of the handler depends on the messages that were delivered so far.

The model notes what the code does not keep: the replies of `SendRaw` that were queued, the messages
that passed the rate limit, whether the rate limit was reached or a decoder refused to buffer a
read, and, one after the other, the messages with their verdicts and the reasons to end the session.

Main definitions:

* `RealtimeEngine.SessionInput.Reading` — the session, with the notes;
* `RealtimeEngine.SessionInput.processIncoming`, `RealtimeEngine.SessionInput.handleRead`;
* `RealtimeEngine.SessionInput.run` — a fresh session behind some reads.

Main results:

* `RealtimeEngine.SessionInput.processRaw_after`,
  `RealtimeEngine.SessionInput.processWebSocket_after` — **the decoders leave the transport and the
  replies alone**.
-/

import RealtimeEngine.ServerSteps

set_option relaxedAutoImplicit false
set_option autoImplicit false

namespace RealtimeEngine

namespace SessionInput

/-! ### The session and its surroundings -/

/-- Why a session is to end. -/
inductive Ending
  | disconnected
  | invalidLength
  | appendFailed
  | protocolError
  | messageTooLarge
  | bufferLimitExceeded
  | closeFrame
  | rateLimit
  | closeVerdict
  | malformedLimit
  | rejectedHandshake
  deriving DecidableEq, Repr

/-- What happens to a session: a message is delivered, with the verdict of the handler if there is
one, or there is a reason to end the session. -/
inductive Note
  | delivered (message : Bytes) (verdict : Option MessageDisposition)
  | ended (reason : Ending)
  deriving DecidableEq, Repr

/-- The session that a thread reads from. -/
structure Reading extends ServerSteps.Control where
  disconnectStarted : Bool := false
  /-- The calls of `Enqueue` so far, and the bytes it has accepted. -/
  enqueues : ℕ := 0
  acceptedBytes : ℕ := 0
  /-- The times `UpdateInboundAccounting` has charged the server. -/
  charges : ℕ := 0
  replies : List Bytes := []
  delivered : List Bytes := []
  limited : Bool := false
  trace : List Note := []

/-- What may happen to a session while its thread is elsewhere: `Disconnect` is called, by a write
that fails, the timer or `Stop`, or `Close` is. -/
inductive Interference
  | nothing
  | disconnected
  | closed (code : UInt16) (reason : Bytes)
  deriving DecidableEq, Repr

/-- What the session finds around it. -/
structure Environment where
  /-- The clock, when the next message is delivered behind so many. -/
  clock : ℕ → ℤ
  /-- The bytes given back by `FinishWrite`, at each call of `Enqueue`. -/
  finished : ℕ → ℕ
  /-- `ReserveGlobalQueued` fails, at each call of `Enqueue`. -/
  crowded : ℕ → Bool
  /-- The server is beyond its inbound limit, each time it is charged. -/
  overloaded : ℕ → Bool
  /-- The write that `Enqueue` starts fails at once, at each call. -/
  severed : ℕ → Bool := fun _ => false
  /-- What happens while the handler has a message, behind so many. -/
  meanwhile : ℕ → Interference := fun _ => .nothing

/-- The limits of the server are not reached, and nobody else ends the session. -/
structure Environment.Calm (env : Environment) : Prop where
  crowded : ∀ call, env.crowded call = false
  overloaded : ∀ charge, env.overloaded charge = false
  severed : ∀ call, env.severed call = false
  meanwhile : ∀ count, env.meanwhile count = .nothing

/-- A server that is below its limits, and a session that nobody else touches. -/
def idle : Environment where
  clock := fun _ => 0
  finished := fun _ => 0
  crowded := fun _ => false
  overloaded := fun _ => false

theorem idle_calm : idle.Calm := ⟨fun _ => rfl, fun _ => rfl, fun _ => rfl, fun _ => rfl⟩

/-- The message handler: its verdict on the last of the messages delivered so far. -/
abbrev Handler := List Bytes → MessageDisposition

/-- The session as `HandleAccept` leaves it. -/
def opening (config : ServerConfig) : Reading :=
  { ServerSteps.Control.fresh config with
    accepted := true, registered := true, state := .handshaking }

variable (config : ServerConfig) (handler : Option Handler) (env : Environment)

/-! ### The functions -/

/-- Noting why the session is to end. -/
def note (reason : Ending) (r : Reading) : Reading := { r with trace := r.trace ++ [.ended reason] }

/-- `Disconnect`. -/
def disconnect (r : Reading) : Reading :=
  if r.disconnectStarted then r
  else
    note .disconnected { r with
      disconnectStarted := true, state := .closed, registered := false, inboundAccounted := 0 }

/-- `UpdateInboundAccounting`. -/
def updateInboundAccounting (bytes : ℕ) (r : Reading) : Reading :=
  if bytes > r.inboundAccounted then
    let exceeded := env.overloaded r.charges
    let r := { r with inboundAccounted := bytes, charges := r.charges + 1 }
    if exceeded then disconnect r else r
  else { r with inboundAccounted := bytes }

/-- `Enqueue`. -/
def enqueue (item : OutboundItem) (r : Reading) : Bool × Reading :=
  let limit := config.maxSessionQueuedBytes.toNat
  let queuedBytes := r.acceptedBytes - env.finished r.enqueues
  let reserved := !env.crowded r.enqueues
  let severed := env.severed r.enqueues
  let r := { r with enqueues := r.enqueues + 1 }
  if r.disconnectStarted then (false, r)
  else if item.size > limit || queuedBytes > limit - item.size || !reserved then (false, r)
  else
    let r := { r with acceptedBytes := r.acceptedBytes + item.size }
    -- `StartNextWrite` disconnects when it cannot start the write
    (true, if severed then disconnect r else r)

/-- `SendControl`. -/
def sendControl (opcode : WsOpcode) (payload : Bytes) (closeAfter : Bool) (r : Reading) : Reading :=
  if closeAfter && (r.state = .closed || r.state = .closing) then r
  else
    let r := if closeAfter then { r with state := .closing } else r
    let (queued, r) := enqueue config env (frameItem opcode payload closeAfter) r
    if !queued && closeAfter then disconnect r else r

/-- `SendRaw`. -/
def sendRaw (response : Bytes) (closeAfter : Bool) (r : Reading) : Reading :=
  let (queued, r) := enqueue config env (responseItem response closeAfter) r
  let r := if queued then { r with replies := r.replies ++ [response] } else r
  if !queued && closeAfter then disconnect r else r

/-- `Close`. -/
def close (code : UInt16) (reason : Bytes) (r : Reading) : Reading :=
  if !r.registered then r
  else if r.transport ≠ .webSocket then disconnect r
  else sendControl config env .close (closePayload code reason) true r

/-- What others do to the session. -/
def interfere : Interference → Reading → Reading
  | .nothing, r => r
  | .disconnected, r => disconnect r
  | .closed code reason, r => close config env code reason r

/-- `DeliverMessage`: whether the loop of the caller goes on, and the session. -/
def deliverMessage (message : Bytes) (r : Reading) : Bool × Reading :=
  let r := { r with toControl := ServerSteps.rateWindow r.toControl (env.clock r.delivered.length) }
  if r.rateWindowMessages > config.maxMessagesPerSecond.toNat then
    (false, close config env 1008 (ascii "message rate limit exceeded")
      (note .rateLimit { r with limited := true }))
  else
    let r := { r with delivered := r.delivered ++ [message] }
    match handler with
    | none => (true, { r with trace := r.trace ++ [.delivered message none] })
    | some verdict =>
        let disposition := verdict r.delivered
        let r := { r with trace := r.trace ++ [.delivered message (some disposition)] }
        let r := interfere config env (env.meanwhile r.delivered.length) r
        if disposition = .accepted then (true, r)
        else
          let r := { r with malformedMessages := r.malformedMessages + 1 }
          if disposition = .close || r.malformedMessages ≥ config.malformedMessageLimit.toNat then
            (false, close config env 1007 (ascii "invalid application message")
              (note (if disposition = .close then .closeVerdict else .malformedLimit) r))
          else (true, r)

/-- The loop of `ProcessRaw`, for at most so many rounds. -/
def rawLoop : ℕ → Reading → Reading
  | 0, r => r
  | rounds + 1, r =>
      if r.disconnectStarted then updateInboundAccounting env r.rawDecoder.bufferedBytes r
      else
        let (status, message, decoder) := r.rawDecoder.next
        let r := { r with rawDecoder := decoder }
        match status with
        | .needMoreData => updateInboundAccounting env r.rawDecoder.bufferedBytes r
        | .messageReady =>
            let (goesOn, r) := deliverMessage config handler env message r
            if goesOn then rawLoop rounds r else r
        | .invalidLength | .bufferLimitExceeded =>
            disconnect (note .invalidLength
              { r with malformedMessages := r.malformedMessages + 1 })

/-- `ProcessRaw`. -/
def processRaw (bytes : Bytes) (r : Reading) : Reading :=
  let (appended, decoder) := r.rawDecoder.append bytes
  let r := { r with rawDecoder := decoder }
  if !appended then disconnect (note .appendFailed { r with limited := true })
  else
    let r := updateInboundAccounting env r.rawDecoder.bufferedBytes r
    rawLoop config handler env (r.rawDecoder.bufferedBytes + 1) r

/-- The loop of `ProcessWebSocket`, for at most so many rounds. -/
def webSocketLoop : ℕ → Reading → Reading
  | 0, r => r
  | rounds + 1, r =>
      if r.disconnectStarted || r.state ≠ .opened then
        updateInboundAccounting env r.webSocketDecoder.bufferedBytes r
      else
        let result := r.webSocketDecoder.next
        let r := { r with webSocketDecoder := result.decoder }
        match result.status with
        | .needMoreData => updateInboundAccounting env r.webSocketDecoder.bufferedBytes r
        | .messageTooLarge => close config env 1009 (ascii result.error) (note .messageTooLarge r)
        | .bufferLimitExceeded =>
            close config env 1009 (ascii result.error) (note .bufferLimitExceeded r)
        | .protocolError =>
            close config env 1002 (ascii result.error)
              (note .protocolError { r with malformedMessages := r.malformedMessages + 1 })
        | .eventReady =>
            match result.event.type with
            | .binaryMessage =>
                let (goesOn, r) := deliverMessage config handler env result.event.payload r
                if goesOn then webSocketLoop rounds r else r
            | .ping =>
                webSocketLoop rounds (sendControl config env .pong result.event.payload false r)
            | .pong => webSocketLoop rounds r
            | .close =>
                sendControl config env .close result.event.payload true (note .closeFrame r)

/-- `ProcessWebSocket`. -/
def processWebSocket (bytes : Bytes) (r : Reading) : Reading :=
  if r.state = .closing then r
  else
    let (appended, decoder) := r.webSocketDecoder.append bytes
    let r := { r with webSocketDecoder := decoder }
    if !appended then
      close config env 1009 (ascii "receive buffer limit exceeded")
        (note .appendFailed { r with limited := true })
    else
      let r := updateInboundAccounting env r.webSocketDecoder.bufferedBytes r
      webSocketLoop config handler env (r.webSocketDecoder.bufferedBytes + 1) r

/-- The read in the detection buffer. -/
def buffer (bytes : Bytes) (r : Reading) : Reading :=
  { r with detectionBuffer := r.detectionBuffer ++ bytes }

/-- `ProcessDetection` stores the transport and the state, and leaves its buffer. -/
def leaveDetection (transport : TransportKind) (r : Reading) : Reading :=
  updateInboundAccounting env 0
    { r with transport := transport, state := .opened, detectionBuffer := [] }

/-- `ProcessDetection`. -/
def processDetection (bytes : Bytes) (r : Reading) : Reading :=
  let limit := config.maxSessionInboundBytes.toNat
  if r.detectionBuffer.length > limit || bytes.length > limit - r.detectionBuffer.length then
    disconnect r
  else
    let buffered := r.detectionBuffer ++ bytes
    let r := updateInboundAccounting env buffered.length (buffer bytes r)
    match detection config buffered with
    | .undecided => r
    | .raw => processRaw config handler env buffered (leaveDetection env .rawTcp r)
    | .rejected result => sendRaw config env result.response true (note .rejectedHandshake r)
    | .accepted result =>
        let r := leaveDetection env .webSocket (sendRaw config env result.response false r)
        let remaining := buffered.drop result.consumed
        if remaining.isEmpty then r else processWebSocket config handler env remaining r

/-- `ProcessIncoming`. -/
def processIncoming (bytes : Bytes) (r : Reading) : Reading :=
  match r.transport with
  | .detecting => processDetection config handler env bytes r
  | .rawTcp => processRaw config handler env bytes r
  | .webSocket => processWebSocket config handler env bytes r

/-- `HandleRead`, as far as the session goes. -/
def handleRead (bytes : Bytes) (r : Reading) : Reading :=
  if bytes.isEmpty || r.disconnectStarted then disconnect r
  else processIncoming config handler env bytes r

/-- A fresh session behind some reads. -/
def run (reads : List Bytes) : Reading :=
  reads.foldl (fun r bytes => handleRead config handler env bytes r) (opening config)

/-! ### What the decoders leave alone -/

/-- What holds of a session once it has left detection: it keeps its transport and its replies, and
a limit that was reached stays reached. -/
structure After (r r' : Reading) : Prop where
  transport : r'.transport = r.transport
  replies : r'.replies = r.replies
  limited : r.limited = true → r'.limited = true

variable {r r' r'' : Reading}

theorem After.refl (r : Reading) : After r r := ⟨rfl, rfl, id⟩

theorem After.trans (h : After r r') (h' : After r' r'') : After r r'' :=
  ⟨h'.transport.trans h.transport, h'.replies.trans h.replies, fun hr => h'.limited (h.limited hr)⟩

theorem After.behind (h' : After r' r'') (h : After r r') : After r r'' := h.trans h'

theorem disconnect_after (r : Reading) : After r (disconnect r) := by
  unfold disconnect
  split
  · exact After.refl r
  · exact ⟨rfl, rfl, id⟩

/-- A message counts at most once, and the window is all it changes. -/
theorem rateWindow_eq (c : ServerSteps.Control) (now : ℤ) :
    ∃ start count, count ≤ c.rateWindowMessages + 1 ∧
      ServerSteps.rateWindow c now =
        { c with rateWindowMs := start, rateWindowMessages := count } := by
  unfold ServerSteps.rateWindow
  split
  · exact ⟨_, _, Nat.le_add_left _ _, rfl⟩
  · exact ⟨_, _, le_rfl, rfl⟩

/-- Nothing is charged to the server when the account is given back. -/
theorem updateInboundAccounting_zero (r : Reading) :
    updateInboundAccounting env 0 r = { r with inboundAccounted := 0 } := by
  rw [updateInboundAccounting, if_neg (Nat.not_lt_zero _)]

theorem updateInboundAccounting_after (bytes : ℕ) (r : Reading) :
    After r (updateInboundAccounting env bytes r) := by
  unfold updateInboundAccounting
  dsimp only
  split
  · split
    · exact (disconnect_after _).behind ⟨rfl, rfl, id⟩
    · exact ⟨rfl, rfl, id⟩
  · exact ⟨rfl, rfl, id⟩

/-- `Enqueue` counts, and changes nothing else of the session unless the write fails at once. -/
theorem enqueue_cases (item : OutboundItem) (r : Reading) :
    ∃ calls bytes, (enqueue config env item r).2 =
        { r with enqueues := calls, acceptedBytes := bytes } ∨
      env.severed r.enqueues = true ∧ (enqueue config env item r).1 = true ∧
        (enqueue config env item r).2 =
          disconnect { r with enqueues := calls, acceptedBytes := bytes } := by
  unfold enqueue
  dsimp only
  split
  · exact ⟨_, _, Or.inl rfl⟩
  · split
    · exact ⟨_, _, Or.inl rfl⟩
    · split
      · next hsevered => exact ⟨_, _, Or.inr ⟨hsevered, rfl, rfl⟩⟩
      · exact ⟨_, _, Or.inl rfl⟩

theorem enqueue_eq {env : Environment} (henv : env.Calm) (item : OutboundItem) (r : Reading) :
    ∃ calls bytes, (enqueue config env item r).2 =
      { r with enqueues := calls, acceptedBytes := bytes } := by
  obtain ⟨calls, bytes, h | ⟨hsevered, -⟩⟩ := enqueue_cases config env item r
  · exact ⟨calls, bytes, h⟩
  · rw [henv.severed] at hsevered
    cases hsevered

/-- A control frame that does not close is queued, or it is not. -/
theorem sendControl_false (opcode : WsOpcode) (payload : Bytes) (r : Reading) :
    sendControl config env opcode payload false r =
      (enqueue config env (frameItem opcode payload false) r).2 := by
  rw [sendControl, if_neg (by simp)]
  simp

theorem sendControl_eq {env : Environment} (henv : env.Calm) (opcode : WsOpcode) (payload : Bytes)
    (r : Reading) :
    ∃ calls bytes, sendControl config env opcode payload false r =
      { r with enqueues := calls, acceptedBytes := bytes } := by
  rw [sendControl_false]
  exact enqueue_eq config henv _ r

theorem enqueue_after (item : OutboundItem) (r : Reading) :
    After r (enqueue config env item r).2 := by
  obtain ⟨calls, bytes, h | ⟨-, -, h⟩⟩ := enqueue_cases config env item r
  · rw [h]
    exact ⟨rfl, rfl, id⟩
  · rw [h]
    exact (disconnect_after _).behind ⟨rfl, rfl, id⟩

/-- A close frame, on a session that is not closed yet. -/
theorem sendControl_close (opcode : WsOpcode) (payload : Bytes) {r : Reading}
    (h : ¬ (r.state = .closed ∨ r.state = .closing)) :
    sendControl config env opcode payload true r =
      let result := enqueue config env (frameItem opcode payload true) { r with state := .closing }
      if result.1 then result.2 else disconnect result.2 := by
  rw [sendControl, if_neg (by simpa using h)]
  dsimp only
  cases hqueued : (enqueue config env (frameItem opcode payload true)
      { r with state := .closing }).1 with
  | false => simp [hqueued]
  | true => simp [hqueued]

theorem sendControl_after (opcode : WsOpcode) (payload : Bytes) (closeAfter : Bool) (r : Reading) :
    After r (sendControl config env opcode payload closeAfter r) := by
  cases closeAfter with
  | false =>
      rw [sendControl_false]
      exact enqueue_after config env _ r
  | true =>
      by_cases hclosed : r.state = .closed ∨ r.state = .closing
      · rw [sendControl, if_pos (by simpa using hclosed)]
        exact After.refl r
      · rw [sendControl_close config env opcode payload hclosed]
        have hqueued : After r (enqueue config env (frameItem opcode payload true)
            { r with state := .closing }).2 :=
          (enqueue_after config env _ _).behind ⟨rfl, rfl, id⟩
        dsimp only
        split
        · exact hqueued
        · exact hqueued.trans (disconnect_after _)

theorem close_after (code : UInt16) (reason : Bytes) (r : Reading) :
    After r (close config env code reason r) := by
  unfold close
  split
  · exact After.refl r
  · split
    · exact disconnect_after r
    · exact sendControl_after config env _ _ _ r

theorem interfere_after (i : Interference) (r : Reading) : After r (interfere config env i r) := by
  cases i with
  | nothing => exact After.refl r
  | disconnected => exact disconnect_after r
  | closed code reason => exact close_after config env code reason r

theorem deliverMessage_after (message : Bytes) (r : Reading) :
    After r (deliverMessage config handler env message r).2 := by
  have htransport :=
    (ServerSteps.rateWindow_kept r.toControl (env.clock r.delivered.length)).transport
  unfold deliverMessage
  dsimp only
  split
  · exact (close_after config env _ _ _).behind ⟨htransport, rfl, fun _ => rfl⟩
  · cases handler with
    | none => exact ⟨htransport, rfl, id⟩
    | some verdict =>
        have hmeanwhile : After r (interfere config env
            (env.meanwhile (r.delivered ++ [message]).length)
            { r with
              toControl := ServerSteps.rateWindow r.toControl (env.clock r.delivered.length)
              delivered := r.delivered ++ [message]
              trace := r.trace ++ [.delivered message (some (verdict (r.delivered ++ [message])))] }) :=
          (interfere_after config env _ _).behind ⟨htransport, rfl, id⟩
        obtain ⟨hkept, hreplies, hlimited⟩ := hmeanwhile
        dsimp only
        split
        · exact ⟨hkept, hreplies, hlimited⟩
        · split
          · exact (close_after config env _ _ _).behind ⟨hkept, hreplies, hlimited⟩
          · exact ⟨hkept, hreplies, hlimited⟩

theorem rawLoop_after (rounds : ℕ) (r : Reading) :
    After r (rawLoop config handler env rounds r) := by
  induction rounds generalizing r with
  | zero => exact After.refl r
  | succ rounds ih =>
      have hread : After r { r with rawDecoder := r.rawDecoder.next.2.2 } := ⟨rfl, rfl, id⟩
      unfold rawLoop
      split
      · exact updateInboundAccounting_after env _ r
      · dsimp only
        split
        · exact hread.trans (updateInboundAccounting_after env _ _)
        · have hdelivered := hread.trans (deliverMessage_after config handler env
            r.rawDecoder.next.2.1 _)
          split
          · exact hdelivered.trans (ih _)
          · exact hdelivered
        · exact (disconnect_after _).behind ⟨rfl, rfl, id⟩
        · exact (disconnect_after _).behind ⟨rfl, rfl, id⟩

theorem processRaw_after (bytes : Bytes) (r : Reading) :
    After r (processRaw config handler env bytes r) := by
  have hread : After r { r with rawDecoder := (r.rawDecoder.append bytes).2 } := ⟨rfl, rfl, id⟩
  unfold processRaw
  dsimp only
  split
  · exact (disconnect_after _).behind ⟨rfl, rfl, fun _ => rfl⟩
  · exact (hread.trans (updateInboundAccounting_after env _ _)).trans
      (rawLoop_after config handler env _ _)

theorem webSocketLoop_after (rounds : ℕ) (r : Reading) :
    After r (webSocketLoop config handler env rounds r) := by
  induction rounds generalizing r with
  | zero => exact After.refl r
  | succ rounds ih =>
      have hread : After r { r with webSocketDecoder := r.webSocketDecoder.next.decoder } :=
        ⟨rfl, rfl, id⟩
      unfold webSocketLoop
      split
      · exact updateInboundAccounting_after env _ r
      · dsimp only
        split
        · exact hread.trans (updateInboundAccounting_after env _ _)
        · exact (close_after config env _ _ _).behind ⟨rfl, rfl, id⟩
        · exact (close_after config env _ _ _).behind ⟨rfl, rfl, id⟩
        · exact (close_after config env _ _ _).behind ⟨rfl, rfl, id⟩
        · split
          · have hdelivered := hread.trans (deliverMessage_after config handler env
              r.webSocketDecoder.next.event.payload _)
            split
            · exact hdelivered.trans (ih _)
            · exact hdelivered
          · exact (hread.trans (sendControl_after config env _ _ _ _)).trans (ih _)
          · exact hread.trans (ih _)
          · exact (sendControl_after config env _ _ _ _).behind ⟨rfl, rfl, id⟩

theorem processWebSocket_after (bytes : Bytes) (r : Reading) :
    After r (processWebSocket config handler env bytes r) := by
  unfold processWebSocket
  split
  · exact After.refl r
  · have hread : After r { r with webSocketDecoder := (r.webSocketDecoder.append bytes).2 } :=
      ⟨rfl, rfl, id⟩
    dsimp only
    split
    · exact (close_after config env _ _ _).behind ⟨rfl, rfl, fun _ => rfl⟩
    · exact (hread.trans (updateInboundAccounting_after env _ _)).trans
        (webSocketLoop_after config handler env _ _)

end SessionInput

end RealtimeEngine
