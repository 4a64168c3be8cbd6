/-
**The server, one access of a shared variable at a time.**

A session has an outbound side, which is the one of `RealtimeEngine/Outbound.lean`, and a control
side: its `state`, its `transport`, and what the thread that handles its read works on.  The threads
are those of the completion port, of the timer, and of the callers of `Send` and `Close`; a read in
flight is a thread of its own, as a write is.  Every step makes at most one access of a variable
that other threads use, and whatever it does with the data of its own.

A thread that handles a read is always at one `ReadPoint`; what it calls on the way (`Disconnect`,
`Close`, `SendControl`, `StartNextWrite`) is on its stack before the point where it goes on.

Left open at a step are the bytes of a read, the success of `WSARecv`, the verdict of the message
handler and the clock, of which the timer's comparisons are the outcomes.  A handler that calls
`Send` or `Close` is one of the callers.  `UpdateInboundAccounting` is one step, so the model is
that of the code where one thread at a time changes the account of a session.  The timestamps, the
counters that nothing reads back, and `outstanding_operations` are left out.

Main definitions:

* `RealtimeEngine.ServerSteps.Server`, `RealtimeEngine.ServerSteps.Task` — the state and the steps;
* `RealtimeEngine.ServerSteps.exec`, `RealtimeEngine.ServerSteps.program` — what each step does;
* `RealtimeEngine.ServerSteps.Step` — the same as a relation.

Main results:

* `RealtimeEngine.ServerSteps.exec_step` — every step of the program is one of the relation.
-/

import RealtimeEngine.Detection
import RealtimeEngine.ServerItems

set_option relaxedAutoImplicit false
set_option autoImplicit false

namespace RealtimeEngine

/-- The bytes of a read, as the constructor of the server adjusts them. -/
def ServerConfig.receiveBuffer (config : ServerConfig) : ℕ :=
  max 1024 config.receiveBufferBytes.toNat

/-- The payload of the close frame of `Close`. -/
def closePayload (code : UInt16) (reason : Bytes) : Bytes :=
  (code >>> 8).toUInt8 :: code.toUInt8 :: reason.take 123

namespace ServerSteps

open Interleaving

/-! ### State -/

/-- The control side of a `ClientSession`. -/
structure Control where
  /-- `HandleAccept` has made the session. -/
  accepted : Bool := false
  /-- The session is in `sessions`. -/
  registered : Bool := false
  state : SessionState := .connecting
  transport : TransportKind := .detecting
  detectionBuffer : Bytes := []
  rawDecoder : LengthPrefixedAccumulator
  webSocketDecoder : WebSocketDecoder
  inboundAccounted : ℕ := 0
  malformedMessages : ℕ := 0
  rateWindowMs : ℤ := 0
  rateWindowMessages : ℕ := 0
  /-- The response to the handshake that was accepted; the code does not keep it. -/
  response : Option Bytes := none

/-- The constructor of `ClientSession`. -/
def Control.fresh (config : ServerConfig) : Control where
  rawDecoder := ⟨config.maxMessageBytes.toNat, config.maxSessionInboundBytes.toNat, [], 0, false⟩
  webSocketDecoder :=
    { maxMessageBytes := config.maxMessageBytes.toNat
      maxBufferedBytes := config.maxSessionInboundBytes.toNat
      requireMasking := true }

/-- What the threads share. -/
structure Server (ι : Type*) where
  out : Outbound.Shared ι
  /-- `metrics.inbound_bytes`. -/
  inboundBytes : ℕ
  control : ι → Control

variable {ι : Type*} [DecidableEq ι]

/-- Changing the control side of one session. -/
def Server.modify (sv : Server ι) (s : ι) (f : Control → Control) : Server ι :=
  { sv with control := Function.update sv.control s (f (sv.control s)) }

/-- `UpdateInboundAccounting`, and whether it is to disconnect. -/
def updateInboundAccounting (config : ServerConfig) (sv : Server ι) (s : ι) (bytes : ℕ) :
    Server ι × Bool :=
  let accounted := (sv.control s).inboundAccounted
  if bytes > accounted then
    let total := sv.inboundBytes + (bytes - accounted)
    ({ (sv.modify s fun c => { c with inboundAccounted := bytes }) with inboundBytes := total },
      total > config.maxGlobalInboundBytes.toNat)
  else if bytes < accounted then
    ({ (sv.modify s fun c => { c with inboundAccounted := bytes }) with
        inboundBytes := Outbound.sub64 sv.inboundBytes (accounted - bytes) }, false)
  else (sv, false)

/-! ### Steps -/

/-- Where the handling of a read stands. -/
inductive ReadPoint
  | postRead
  /-- The read is in flight. -/
  | reading
  | handleRead (succeeded : Bool) (bytes : Bytes)
  | processIncoming (bytes : Bytes)
  | processDetection (bytes : Bytes)
  /-- The decision of `ProcessDetection`. -/
  | detect
  /-- `SendRaw` of the response to an accepted handshake. -/
  | greet (result : HandshakeResult)
  /-- `ProcessDetection` stores the transport, then the state, then leaves its buffer. -/
  | store (transport : TransportKind) (consumed : ℕ)
  | storeOpen (transport : TransportKind) (consumed : ℕ)
  | leave (transport : TransportKind) (consumed : ℕ)
  | processRaw (bytes : Bytes)
  | rawLoop
  | processWebSocket (bytes : Bytes)
  | appendWebSocket (bytes : Bytes)
  /-- The loop of `ProcessWebSocket`: its test of `disconnect_started`, and that of `state`. -/
  | webSocketLoop
  | webSocketState
  | deliverMessage (message : Bytes) (loop : ReadPoint)
  | updateInbound (bytes : ℕ) (rest : ReadPoint)
  /-- The end of `HandleRead`. -/
  | repost

/-- Where a thread stands. -/
inductive Task (ι : Type*)
  /-- The completions of accepts, the timer, and the callers of `Send`, `Close` and `Stop`. -/
  | outside
  | out (action : Outbound.Action ι)
  /-- `HandleAccept` makes the session. -/
  | accept (s : ι)
  | reader (s : ι) (point : ReadPoint)
  /-- `Disconnect` stores `Closed`, leaves the registry, and at last the inbound account. -/
  | storeClosed (s : ι)
  | remove (s : ι)
  | releaseInbound (s : ι)
  /-- `Send`, at its accesses of the registry, the state and the transport. -/
  | send (s : ι) (payload : Bytes)
  | sendState (s : ι) (payload : Bytes)
  | sendTransport (s : ι) (payload : Bytes)
  /-- `Close`, at its accesses of the registry and the transport. -/
  | close (s : ι) (code : UInt16) (reason : Bytes)
  | closeTransport (s : ι) (code : UInt16) (reason : Bytes)
  | sendControl (s : ι) (opcode : WsOpcode) (payload : Bytes) (closeAfter : Bool)
  /-- A tick of the timer, at its accesses of `disconnect_started`, the state and the transport. -/
  | timer (s : ι)
  | timerState (s : ι)
  | timerTransport (s : ι)

/-- What is left open at a step. -/
inductive Choice (ι : Type*)
  | out (x : Outbound.Choice ι)
  | acceptor (s : ι)
  | sender (s : ι) (payload : Bytes)
  | closer (s : ι) (code : UInt16) (reason : Bytes)
  | ticker (s : ι)
  | stopper (s : ι)
  /-- The completion of a read. -/
  | reads (succeeded : Bool) (bytes : Bytes)
  /-- The clock, and the verdict of the message handler if there is one. -/
  | delivers (now : ℤ) (verdict : Option MessageDisposition)
  /-- Nothing, or that `WSARecv` or `running` fails, or that the timer finds a deadline passed. -/
  | passes
  | fails
  /-- The timer finds a ping due. -/
  | pings

/-- `Disconnect` is called. -/
def disconnect (s : ι) : Task ι := .out (.disconnect s)

/-- The rate window of `DeliverMessage` with one more message in it. -/
def rateWindow (c : Control) (now : ℤ) : Control :=
  if now - c.rateWindowMs ≥ 1000 then { c with rateWindowMs := now, rateWindowMessages := 1 }
  else { c with rateWindowMessages := c.rateWindowMessages + 1 }

/-- The call of `DeliverMessage`: the session behind it, and where its thread goes on. -/
def deliverMessage (config : ServerConfig) (c : Control) (s : ι) (now : ℤ)
    (verdict : Option MessageDisposition) (loop : ReadPoint) : Control × List (Task ι) :=
  let c := rateWindow c now
  if c.rateWindowMessages > config.maxMessagesPerSecond.toNat then
    (c, [.close s 1008 (ascii "message rate limit exceeded"), .reader s .repost])
  else
    match verdict with
    | none | some .accepted => (c, [.reader s loop])
    | some disposition =>
        let c := { c with malformedMessages := c.malformedMessages + 1 }
        if disposition = .close || c.malformedMessages ≥ config.malformedMessageLimit.toNat then
          (c, [.close s 1007 (ascii "invalid application message"), .reader s .repost])
        else (c, [.reader s loop])

/-- One call of `Next` in `ProcessWebSocket`, and what its event leads to. -/
def webSocketEvent (c : Control) (s : ι) : Control × List (Task ι) :=
  let r := c.webSocketDecoder.next
  let c := { c with webSocketDecoder := r.decoder }
  match r.status with
  | .needMoreData => (c, [.reader s (.updateInbound r.decoder.bufferedBytes .repost)])
  | .messageTooLarge | .bufferLimitExceeded =>
      (c, [.close s 1009 (ascii r.error), .reader s .repost])
  | .protocolError =>
      ({ c with malformedMessages := c.malformedMessages + 1 },
        [.close s 1002 (ascii r.error), .reader s .repost])
  | .eventReady =>
      match r.event.type with
      | .binaryMessage => (c, [.reader s (.deliverMessage r.event.payload .webSocketLoop)])
      | .ping => (c, [.sendControl s .pong r.event.payload false, .reader s .webSocketLoop])
      | .pong => (c, [.reader s .webSocketLoop])
      | .close => (c, [.sendControl s .close r.event.payload true, .reader s .repost])

/-- One call of `Next` in `ProcessRaw`, and what it leads to. -/
def rawEvent (c : Control) (s : ι) : Control × List (Task ι) :=
  let (status, message, decoder) := c.rawDecoder.next
  let c := { c with rawDecoder := decoder }
  match status with
  | .needMoreData => (c, [.reader s (.updateInbound decoder.bufferedBytes .repost)])
  | .messageReady => (c, [.reader s (.deliverMessage message .rawLoop)])
  | _ =>
      ({ c with malformedMessages := c.malformedMessages + 1 },
        [disconnect s, .reader s .repost])

/-- The steps of a reading thread that only concern its own data and one load. -/
def localStep (config : ServerConfig) (x : Choice ι) (disconnectStarted : Bool) (c : Control)
    (s : ι) : ReadPoint → Option (Control × List (Task ι))
  | .handleRead succeeded bytes =>
      if !succeeded || bytes.isEmpty || disconnectStarted then some (c, [disconnect s])
      else some (c, [.reader s (.processIncoming bytes)])
  | .processIncoming bytes =>
      match c.transport with
      | .detecting => some (c, [.reader s (.processDetection bytes)])
      | .rawTcp => some (c, [.reader s (.processRaw bytes)])
      | .webSocket => some (c, [.reader s (.processWebSocket bytes)])
  | .detect =>
      match detection config c.detectionBuffer with
      | .undecided => some (c, [.reader s .repost])
      | .raw => some (c, [.reader s (.store .rawTcp 0)])
      | .rejected result =>
          some (c, [.out (.enqueue s (responseItem result.response true)), .reader s .repost])
      | .accepted result => some (c, [.reader s (.greet result)])
  | .processRaw bytes =>
      let (appended, decoder) := c.rawDecoder.append bytes
      let c := { c with rawDecoder := decoder }
      if !appended then some (c, [disconnect s, .reader s .repost])
      else some (c, [.reader s (.updateInbound decoder.bufferedBytes .rawLoop)])
  | .rawLoop =>
      if disconnectStarted then
        some (c, [.reader s (.updateInbound c.rawDecoder.bufferedBytes .repost)])
      else some (rawEvent c s)
  | .processWebSocket bytes =>
      if c.state = .closing then some (c, [.reader s .repost])
      else some (c, [.reader s (.appendWebSocket bytes)])
  | .appendWebSocket bytes =>
      let (appended, decoder) := c.webSocketDecoder.append bytes
      let c := { c with webSocketDecoder := decoder }
      if !appended then
        some (c, [.close s 1009 (ascii "receive buffer limit exceeded"), .reader s .repost])
      else some (c, [.reader s (.updateInbound decoder.bufferedBytes .webSocketLoop)])
  | .webSocketLoop =>
      if disconnectStarted then
        some (c, [.reader s (.updateInbound c.webSocketDecoder.bufferedBytes .repost)])
      else some (c, [.reader s .webSocketState])
  | .webSocketState =>
      if c.state ≠ .opened then
        some (c, [.reader s (.updateInbound c.webSocketDecoder.bufferedBytes .repost)])
      else some (webSocketEvent c s)
  | .deliverMessage _ loop =>
      match x with
      | .delivers now verdict => some (deliverMessage config c s now verdict loop)
      | _ => none
  | .repost => some (c, if disconnectStarted then [disconnect s] else [.reader s .postRead])
  | _ => none

/-- What follows the hand-over of the detection buffer. -/
def handOver (transport : TransportKind) (remaining : Bytes) : ReadPoint :=
  .updateInbound 0
    (match transport with
    | .rawTcp => .processRaw remaining
    | _ => if remaining.isEmpty then .repost else .processWebSocket remaining)

/-- The steps of a reading thread. -/
def readerStep (config : ServerConfig) (x : Choice ι) (sv : Server ι) (s : ι) (point : ReadPoint) :
    Option (Outcome (Server ι) (Task ι)) :=
  match point with
  | .postRead =>
      match x with
      | .fails => some ⟨sv, [disconnect s], []⟩
      | _ =>
          if (sv.out.sessions s).socketOpen then some ⟨sv, [], [[.reader s .reading]]⟩
          else some ⟨sv, [disconnect s], []⟩
  | .reading =>
      match x with
      | .reads succeeded bytes =>
          if bytes.length ≤ config.receiveBuffer then
            some ⟨sv, [.reader s (.handleRead succeeded bytes)], []⟩
          else none
      | _ => none
  | .processDetection bytes =>
      let buffer := (sv.control s).detectionBuffer
      let limit := config.maxSessionInboundBytes.toNat
      if buffer.length > limit || bytes.length > limit - buffer.length then
        some ⟨sv, [disconnect s, .reader s .repost], []⟩
      else
        some ⟨sv.modify s fun c => { c with detectionBuffer := c.detectionBuffer ++ bytes },
          [.reader s (.updateInbound (buffer ++ bytes).length .detect)], []⟩
  | .greet result =>
      -- the result of `Enqueue` is dropped
      (Outbound.exec config .succeeds (.enqueue s (responseItem result.response false)) sv.out).map
        fun o =>
          ⟨{ (sv.modify s fun c => { c with response := some result.response }) with
              out := o.shared },
            o.next.map .out ++ [.reader s (.store .webSocket result.consumed)], []⟩
  | .store transport consumed =>
      some ⟨sv.modify s fun c => { c with transport := transport },
        [.reader s (.storeOpen transport consumed)], []⟩
  | .storeOpen transport consumed =>
      some ⟨sv.modify s fun c => { c with state := .opened },
        [.reader s (.leave transport consumed)], []⟩
  | .leave transport consumed =>
      some ⟨sv.modify s fun c => { c with detectionBuffer := [] },
        [.reader s (handOver transport ((sv.control s).detectionBuffer.drop consumed))], []⟩
  | .updateInbound bytes rest =>
      let (sv', exceeded) := updateInboundAccounting config sv s bytes
      some ⟨sv', (if exceeded then [disconnect s] else []) ++ [.reader s rest], []⟩
  | point =>
      (localStep config x (sv.out.sessions s).disconnectStarted (sv.control s) s point).map
        fun r => ⟨sv.modify s fun _ => r.1, r.2, []⟩

/-- The steps of a call of `Send`, `Close` or `SendControl`, and of the timer, which change at most
the state of the session. -/
def callStep (config : ServerConfig) (x : Choice ι) (disconnectStarted : Bool) (c : Control) :
    Task ι → Option (SessionState × List (Task ι))
  | .send s payload =>
      some (c.state,
        if !c.registered || payload.isEmpty || payload.length > config.maxMessageBytes.toNat then []
        else [.sendState s payload])
  | .sendState s payload => some (c.state, if c.state ≠ .opened then [] else [.sendTransport s payload])
  | .sendTransport s payload =>
      some (c.state,
        match c.transport with
        | .rawTcp => ((rawItem payload).map fun item => .out (.enqueue s item)).toList
        | .webSocket => [.out (.enqueue s (frameItem .binary payload false))]
        | .detecting => [])
  | .close s code reason =>
      some (c.state, if !c.registered then [] else [.closeTransport s code reason])
  | .closeTransport s code reason =>
      some (c.state,
        if c.transport ≠ .webSocket then [disconnect s]
        else [.sendControl s .close (closePayload code reason) true])
  | .sendControl s opcode payload closeAfter =>
      if closeAfter then
        -- the exchange of the state
        if c.state = .closed || c.state = .closing then some (c.state, [])
        else some (.closing, [.out (.enqueue s (frameItem opcode payload true))])
      else some (c.state, [.out (.enqueue s (frameItem opcode payload false))])
  | .timer s => some (c.state, if disconnectStarted then [] else [.timerState s])
  | .timerState s =>
      match c.state, x with
      | .handshaking, .fails | .closing, .fails | .opened, .fails => some (c.state, [disconnect s])
      | .opened, _ => some (c.state, [.timerTransport s])
      | _, _ => some (c.state, [])
  | .timerTransport s =>
      match c.transport, x with
      | .webSocket, .fails => some (c.state, [disconnect s])
      | .webSocket, .pings => some (c.state, [.sendControl s .ping [] false])
      | _, _ => some (c.state, [])
  | .storeClosed _ => some (.closed, [])
  | _ => none

/-- The session of a call. -/
def Task.session? : Task ι → Option ι
  | .outside => none
  | .out action => action.session?
  | .accept s | .reader s _ | .storeClosed s | .remove s | .releaseInbound s | .send s _
  | .sendState s _ | .sendTransport s _ | .close s _ _ | .closeTransport s _ _
  | .sendControl s _ _ _ | .timer s | .timerState s | .timerTransport s => some s

/-- What comes from outside. -/
def arrival (sv : Server ι) : Choice ι → Option (Task ι)
  | .acceptor s => if (sv.control s).accepted then none else some (.accept s)
  | .sender s payload => some (.send s payload)
  | .closer s code reason => some (.close s code reason)
  | .ticker s => if (sv.control s).registered then some (.timer s) else none
  | .stopper s => if (sv.control s).registered then some (disconnect s) else none
  | _ => none

/-- What follows an action of the outbound side: `Disconnect` does more than that side knows. -/
def continuation (action : Outbound.Action ι) (next : List (Outbound.Action ι)) : List (Task ι) :=
  match action, next with
  | .disconnect s, [_] =>
      [.storeClosed s, .remove s, .out (.closeSocket s), .releaseInbound s]
  | _, next => next.map .out

/-- What each step does, and what its thread does next. -/
def exec (config : ServerConfig) (x : Choice ι) (task : Task ι) (sv : Server ι) :
    Option (Outcome (Server ι) (Task ι)) :=
  match task with
  | .outside => (arrival sv x).map fun t => ⟨sv, [.outside], [[t]]⟩
  | .out action =>
      match action, x with
      | .outside, _ => none
      | action, .out y =>
          (Outbound.exec config y action sv.out).map fun o =>
            ⟨{ sv with out := o.shared }, continuation action o.next,
              o.forked.map fun stack => stack.map .out⟩
      | _, _ => none
  | .accept s =>
      if (sv.control s).accepted then none
      else
        some ⟨sv.modify s fun c =>
            { c with accepted := true, registered := true, state := .handshaking },
          [.reader s .postRead], []⟩
  | .reader s point => readerStep config x sv s point
  | .remove s => some ⟨sv.modify s fun c => { c with registered := false }, [], []⟩
  | .releaseInbound s => some ⟨(updateInboundAccounting config sv s 0).1, [], []⟩
  | task =>
      match task.session? with
      | none => none
      | some s =>
          (callStep config x (sv.out.sessions s).disconnectStarted (sv.control s) task).map
            fun r => ⟨sv.modify s fun c => { c with state := r.1 }, r.2, []⟩

/-- The server as a program of interleaving threads. -/
def program (config : ServerConfig) : Program (Server ι) (Task ι) (Choice ι) := ⟨exec config⟩

/-- The pool before any thread has been started. -/
def start (config : ServerConfig) : Config (Server ι) (Task ι) :=
  ⟨⟨{}, 0, fun _ => Control.fresh config⟩, [[.outside]]⟩

/-! ### Changing one session -/

@[simp] theorem modify_self (sv : Server ι) (s : ι) (f : Control → Control) :
    (sv.modify s f).control s = f (sv.control s) := by
  simp [Server.modify]

theorem modify_of_ne (sv : Server ι) {s s' : ι} (h : s' ≠ s) (f : Control → Control) :
    (sv.modify s f).control s' = sv.control s' := by
  simp [Server.modify, h]

@[simp] theorem modify_out (sv : Server ι) (s : ι) (f : Control → Control) :
    (sv.modify s f).out = sv.out := rfl

@[simp] theorem modify_inboundBytes (sv : Server ι) (s : ι) (f : Control → Control) :
    (sv.modify s f).inboundBytes = sv.inboundBytes := rfl

/-- `UpdateInboundAccounting` changes the account of its session and the server's sum. -/
theorem updateInboundAccounting_eq (config : ServerConfig) (sv : Server ι) (s : ι) (bytes : ℕ) :
    ∃ total, (updateInboundAccounting config sv s bytes).1 =
      { (sv.modify s fun c => { c with inboundAccounted := bytes }) with inboundBytes := total } := by
  unfold updateInboundAccounting
  dsimp only
  split
  · exact ⟨_, rfl⟩
  · split
    · exact ⟨_, rfl⟩
    · next hle hge =>
        have heq : (sv.control s).inboundAccounted = bytes := by omega
        refine ⟨sv.inboundBytes, ?_⟩
        simp [Server.modify, ← heq]

/-! ### What a step can do -/

/-- A step of a task: the state behind it, and the tasks that are pending instead of it. -/
inductive Step (config : ServerConfig) (sv : Server ι) : Task ι → Server ι → List (Task ι) → Prop
  | arrives {x : Choice ι} {t : Task ι} (h : arrival sv x = some t) :
      Step config sv .outside sv [.outside, t]
  | acts {action : Outbound.Action ι} {out : Outbound.Shared ι} {next : List (Outbound.Action ι)}
      (hne : action ≠ .outside)
      (hkeep : ∀ s, action = .disconnect s → (sv.out.sessions s).disconnectStarted = true)
      (h : Outbound.Step config sv.out action out next) :
      Step config sv (.out action) { sv with out := out } (next.map .out)
  | disconnects {s : ι} (h : (sv.out.sessions s).disconnectStarted = false) :
      Step config sv (.out (.disconnect s))
        { sv with out := sv.out.modify s fun x => { x with disconnectStarted := true } }
        [.storeClosed s, .remove s, .out (.closeSocket s), .releaseInbound s]
  | accepts {s : ι} (h : (sv.control s).accepted = false) :
      Step config sv (.accept s)
        (sv.modify s fun c => { c with accepted := true, registered := true, state := .handshaking })
        [.reader s .postRead]
  | posts {s : ι} (h : (sv.out.sessions s).socketOpen = true) :
      Step config sv (.reader s .postRead) sv [.reader s .reading]
  | notPosted (s : ι) : Step config sv (.reader s .postRead) sv [disconnect s]
  | reads (s : ι) (succeeded : Bool) {bytes : Bytes} (h : bytes.length ≤ config.receiveBuffer) :
      Step config sv (.reader s .reading) sv [.reader s (.handleRead succeeded bytes)]
  | overflows (s : ι) (bytes : Bytes) :
      Step config sv (.reader s (.processDetection bytes)) sv [disconnect s, .reader s .repost]
  | buffers (s : ι) (bytes : Bytes)
      (h : ((sv.control s).detectionBuffer ++ bytes).length ≤ config.maxSessionInboundBytes.toNat) :
      Step config sv (.reader s (.processDetection bytes))
        (sv.modify s fun c => { c with detectionBuffer := c.detectionBuffer ++ bytes })
        [.reader s (.updateInbound ((sv.control s).detectionBuffer ++ bytes).length .detect)]
  | greets {s : ι} (result : HandshakeResult) {out : Outbound.Shared ι}
      {next : List (Outbound.Action ι)}
      (h : Outbound.Step config sv.out (.enqueue s (responseItem result.response false)) out next) :
      Step config sv (.reader s (.greet result))
        { (sv.modify s fun c => { c with response := some result.response }) with out := out }
        (next.map .out ++ [.reader s (.store .webSocket result.consumed)])
  | stores (s : ι) (transport : TransportKind) (consumed : ℕ) :
      Step config sv (.reader s (.store transport consumed))
        (sv.modify s fun c => { c with transport := transport })
        [.reader s (.storeOpen transport consumed)]
  | opens (s : ι) (transport : TransportKind) (consumed : ℕ) :
      Step config sv (.reader s (.storeOpen transport consumed))
        (sv.modify s fun c => { c with state := .opened }) [.reader s (.leave transport consumed)]
  | leaves (s : ι) (transport : TransportKind) (consumed : ℕ) :
      Step config sv (.reader s (.leave transport consumed))
        (sv.modify s fun c => { c with detectionBuffer := [] })
        [.reader s (handOver transport ((sv.control s).detectionBuffer.drop consumed))]
  | updates (s : ι) (bytes : ℕ) (rest : ReadPoint) :
      Step config sv (.reader s (.updateInbound bytes rest))
        (updateInboundAccounting config sv s bytes).1
        ((if (updateInboundAccounting config sv s bytes).2 then [disconnect s] else []) ++
          [.reader s rest])
  | handles {x : Choice ι} {s : ι} {point : ReadPoint} {c : Control} {new : List (Task ι)}
      (h : localStep config x (sv.out.sessions s).disconnectStarted (sv.control s) s point =
        some (c, new)) :
      Step config sv (.reader s point) (sv.modify s fun _ => c) new
  | removes (s : ι) :
      Step config sv (.remove s) (sv.modify s fun c => { c with registered := false }) []
  | releases (s : ι) :
      Step config sv (.releaseInbound s) (updateInboundAccounting config sv s 0).1 []
  | calls {x : Choice ι} {s : ι} {task : Task ι} {state : SessionState} {new : List (Task ι)}
      (hs : task.session? = some s)
      (h : callStep config x (sv.out.sessions s).disconnectStarted (sv.control s) task =
        some (state, new)) :
      Step config sv task (sv.modify s fun c => { c with state := state }) new

section Steps

variable {config : ServerConfig} {x : Choice ι} {sv : Server ι}

theorem readerStep_step {s : ι} {point : ReadPoint} {o : Outcome (Server ι) (Task ι)}
    (h : readerStep config x sv s point = some o) :
    Step config sv (.reader s point) o.shared (o.next ++ o.forked.flatten) := by
  have hlocal : ∀ {o : Outcome (Server ι) (Task ι)},
      ((localStep config x (sv.out.sessions s).disconnectStarted (sv.control s) s point).map
        fun r => (⟨sv.modify s fun _ => r.1, r.2, []⟩ : Outcome (Server ι) (Task ι))) = some o →
      Step config sv (.reader s point) o.shared (o.next ++ o.forked.flatten) := by
    intro o ho
    obtain ⟨⟨c, new⟩, hr, rfl⟩ := Option.map_eq_some_iff.1 ho
    rw [List.flatten_nil, List.append_nil]
    exact .handles hr
  -- the points of the loop that touch the shared state have a step of their own
  cases point with
  | postRead =>
      simp only [readerStep] at h
      split at h
      · obtain rfl := Option.some.inj h
        exact .notPosted s
      · split at h
        · next hopen =>
            obtain rfl := Option.some.inj h
            exact .posts hopen
        · obtain rfl := Option.some.inj h
          exact .notPosted s
  | reading =>
      simp only [readerStep] at h
      split at h
      · split at h
        · next hlen =>
            obtain rfl := Option.some.inj h
            exact .reads s _ hlen
        · cases h
      · cases h
  | processDetection bytes =>
      simp only [readerStep] at h
      split at h
      · obtain rfl := Option.some.inj h
        exact .overflows s bytes
      · next hroom =>
          obtain rfl := Option.some.inj h
          refine .buffers s bytes ?_
          simp only [Bool.or_eq_true, decide_eq_true_eq, not_or, not_lt] at hroom
          rw [List.length_append]
          omega
  | greet result =>
      obtain ⟨o', ho', rfl⟩ := Option.map_eq_some_iff.1 h
      have hstep := Outbound.exec_step ho'
      have hforked : o'.forked = [] := by
        simp only [Outbound.exec] at ho'
        split at ho'
        · rw [← Option.some.inj ho']
        · rw [← Option.some.inj ho']
      rw [hforked, List.flatten_nil, List.append_nil] at hstep
      rw [List.flatten_nil, List.append_nil]
      exact .greets result hstep
  | store transport consumed =>
      obtain rfl := Option.some.inj h
      exact .stores s transport consumed
  | storeOpen transport consumed =>
      obtain rfl := Option.some.inj h
      exact .opens s transport consumed
  | leave transport consumed =>
      obtain rfl := Option.some.inj h
      exact .leaves s transport consumed
  | updateInbound bytes rest =>
      obtain rfl := Option.some.inj h
      rw [List.flatten_nil, List.append_nil]
      exact .updates s bytes rest
  | _ => exact hlocal h

/-- Every step of the program is one of these. -/
theorem exec_step {task : Task ι} {o : Outcome (Server ι) (Task ι)}
    (h : exec config x task sv = some o) :
    Step config sv task o.shared (o.next ++ o.forked.flatten) := by
  have hcall : ∀ {s : ι} {o : Outcome (Server ι) (Task ι)}, task.session? = some s →
      ((callStep config x (sv.out.sessions s).disconnectStarted (sv.control s) task).map
        fun r => (⟨sv.modify s fun c => { c with state := r.1 }, r.2, []⟩ :
          Outcome (Server ι) (Task ι))) = some o →
      Step config sv task o.shared (o.next ++ o.forked.flatten) := by
    intro s o hs ho
    obtain ⟨⟨state, new⟩, hr, rfl⟩ := Option.map_eq_some_iff.1 ho
    rw [List.flatten_nil, List.append_nil]
    exact .calls hs hr
  cases task with
  | outside =>
      obtain ⟨t, ht, rfl⟩ := Option.map_eq_some_iff.1 h
      exact .arrives ht
  | out action =>
      cases x with
      | out y =>
          have hne : action ≠ .outside := by
            rintro rfl
            cases h
          have hexec : (Outbound.exec config y action sv.out).map (fun o =>
              (⟨{ sv with out := o.shared }, continuation action o.next,
                o.forked.map fun stack => stack.map .out⟩ : Outcome (Server ι) (Task ι))) =
              some o := by
            cases action with
            | outside => cases h
            | _ => exact h
          obtain ⟨o', ho', rfl⟩ := Option.map_eq_some_iff.1 hexec
          have hstep := Outbound.exec_step ho'
          by_cases hstart : ∃ s, action = .disconnect s ∧
              (sv.out.sessions s).disconnectStarted = false
          · obtain ⟨s, rfl, hs⟩ := hstart
            simp only [Outbound.exec, hs, Bool.false_eq_true, if_false] at ho'
            obtain rfl := Option.some.inj ho'
            exact .disconnects hs
          · have hkeep : ∀ s, action = .disconnect s →
                (sv.out.sessions s).disconnectStarted = true := by
              intro s hs
              by_contra hnot
              exact hstart ⟨s, hs, by simpa using hnot⟩
            have hcont : continuation action o'.next = o'.next.map Task.out := by
              cases action with
              | disconnect s =>
                  simp only [Outbound.exec, hkeep s rfl, if_true] at ho'
                  rw [← Option.some.inj ho']
                  rfl
              | _ => rfl
            rw [hcont, ← List.map_flatten, ← List.map_append]
            exact .acts hne hkeep hstep
      | _ =>
          cases action <;> cases h
  | accept s =>
      simp only [exec] at h
      split at h
      · cases h
      · next hacc =>
          obtain rfl := Option.some.inj h
          exact .accepts (by simpa using hacc)
  | reader s point => exact readerStep_step h
  | remove s =>
      obtain rfl := Option.some.inj h
      exact .removes s
  | releaseInbound s =>
      obtain rfl := Option.some.inj h
      exact .releases s
  | _ => exact hcall rfl h

end Steps

/-! ### The handling of a read -/

/-- The points a reading thread goes to by steps of its own. -/
inductive Goes (config : ServerConfig) (c : Control) : ReadPoint → ReadPoint → Prop
  | stops (point : ReadPoint) : Goes config c point .repost
  | settles (point : ReadPoint) (bytes : ℕ) : Goes config c point (.updateInbound bytes .repost)
  | incoming (bytes : Bytes) : Goes config c (.handleRead true bytes) (.processIncoming bytes)
  | detecting (h : c.transport = .detecting) (bytes : Bytes) :
      Goes config c (.processIncoming bytes) (.processDetection bytes)
  | rawTcp (h : c.transport = .rawTcp) (bytes : Bytes) :
      Goes config c (.processIncoming bytes) (.processRaw bytes)
  | webSocket (h : c.transport = .webSocket) (bytes : Bytes) :
      Goes config c (.processIncoming bytes) (.processWebSocket bytes)
  | detectsRaw (h : detection config c.detectionBuffer = .raw) :
      Goes config c .detect (.store .rawTcp 0)
  | greets {result : HandshakeResult} (h : detection config c.detectionBuffer = .accepted result) :
      Goes config c .detect (.greet result)
  | appendsRaw (bytes : Bytes) (n : ℕ) :
      Goes config c (.processRaw bytes) (.updateInbound n .rawLoop)
  | rawMessage (message : Bytes) : Goes config c .rawLoop (.deliverMessage message .rawLoop)
  | appending (bytes : Bytes) : Goes config c (.processWebSocket bytes) (.appendWebSocket bytes)
  | appendsWebSocket (bytes : Bytes) (n : ℕ) :
      Goes config c (.appendWebSocket bytes) (.updateInbound n .webSocketLoop)
  | looping : Goes config c .webSocketLoop .webSocketState
  | webSocketMessage (message : Bytes) :
      Goes config c .webSocketState (.deliverMessage message .webSocketLoop)
  | webSocketAgain : Goes config c .webSocketState .webSocketLoop
  | delivered (message : Bytes) (loop : ReadPoint) :
      Goes config c (.deliverMessage message loop) loop
  | posting : Goes config c .repost .postRead

/-- What a reading thread calls on the way. -/
inductive Calls (config : ServerConfig) (c : Control) (s : ι) (point : ReadPoint) :
    List (Task ι) → Prop
  | nothing : Calls config c s point []
  | disconnects : Calls config c s point [disconnect s]
  | closes (code : UInt16) (reason : Bytes) : Calls config c s point [.close s code reason]
  | controls (h : point = .webSocketState) (opcode : WsOpcode) (payload : Bytes)
      (closeAfter : Bool) : Calls config c s point [.sendControl s opcode payload closeAfter]
  | rejects {result : HandshakeResult} (h : detection config c.detectionBuffer = .rejected result)
      (hpoint : point = .detect) :
      Calls config c s point [.out (.enqueue s (responseItem result.response true))]

/-- The thread gives up its read, or it goes on behind some calls. -/
def Proceeds (config : ServerConfig) (c : Control) (s : ι) (point : ReadPoint)
    (new : List (Task ι)) : Prop :=
  new = [disconnect s] ∨
    ∃ calls point', new = calls ++ [.reader s point'] ∧ Calls config c s point calls ∧
      Goes config c point point'

/-- The fields of the control side that a reading thread does not change by steps of its own. -/
structure Control.Kept (c c' : Control) : Prop where
  accepted : c'.accepted = c.accepted
  registered : c'.registered = c.registered
  state : c'.state = c.state
  transport : c'.transport = c.transport
  detectionBuffer : c'.detectionBuffer = c.detectionBuffer
  inboundAccounted : c'.inboundAccounted = c.inboundAccounted
  response : c'.response = c.response

section Reading

variable {config : ServerConfig} {c c' : Control} {s : ι} {new : List (Task ι)}

omit [DecidableEq ι] in
theorem Proceeds.go {point point' : ReadPoint} (h : Goes config c point point') :
    Proceeds config c s point [.reader s point'] :=
  Or.inr ⟨[], point', rfl, .nothing, h⟩

omit [DecidableEq ι] in
theorem Proceeds.call {point point' : ReadPoint} {t : Task ι} (ht : Calls config c s point [t])
    (h : Goes config c point point') : Proceeds config c s point [t, .reader s point'] :=
  Or.inr ⟨[t], point', rfl, ht, h⟩

theorem rateWindow_kept (c : Control) (now : ℤ) : Control.Kept c (rateWindow c now) := by
  unfold rateWindow
  split
  · exact ⟨rfl, rfl, rfl, rfl, rfl, rfl, rfl⟩
  · exact ⟨rfl, rfl, rfl, rfl, rfl, rfl, rfl⟩

omit [DecidableEq ι] in
theorem deliverMessage_spec {now : ℤ} {verdict : Option MessageDisposition} (message : Bytes)
    {loop : ReadPoint} (h : deliverMessage config c s now verdict loop = (c', new)) :
    Control.Kept c c' ∧ Proceeds config c s (.deliverMessage message loop) new := by
  obtain ⟨h1, h2, h3, h4, h5, h6, h7⟩ := rateWindow_kept c now
  unfold deliverMessage at h
  dsimp only at h
  split at h
  · obtain ⟨rfl, rfl⟩ := Prod.mk.inj h
    exact ⟨⟨h1, h2, h3, h4, h5, h6, h7⟩, .call (.closes _ _) (.stops _)⟩
  · split at h
    · obtain ⟨rfl, rfl⟩ := Prod.mk.inj h
      exact ⟨⟨h1, h2, h3, h4, h5, h6, h7⟩, .go (.delivered message loop)⟩
    · obtain ⟨rfl, rfl⟩ := Prod.mk.inj h
      exact ⟨⟨h1, h2, h3, h4, h5, h6, h7⟩, .go (.delivered message loop)⟩
    · split at h
      · obtain ⟨rfl, rfl⟩ := Prod.mk.inj h
        exact ⟨⟨h1, h2, h3, h4, h5, h6, h7⟩, .call (.closes _ _) (.stops _)⟩
      · obtain ⟨rfl, rfl⟩ := Prod.mk.inj h
        exact ⟨⟨h1, h2, h3, h4, h5, h6, h7⟩, .go (.delivered message loop)⟩

omit [DecidableEq ι] in
theorem rawEvent_spec (h : rawEvent c s = (c', new)) :
    Control.Kept c c' ∧ Proceeds config c s .rawLoop new := by
  unfold rawEvent at h
  dsimp only at h
  split at h
  · obtain ⟨rfl, rfl⟩ := Prod.mk.inj h
    exact ⟨⟨rfl, rfl, rfl, rfl, rfl, rfl, rfl⟩, .go (.settles _ _)⟩
  · obtain ⟨rfl, rfl⟩ := Prod.mk.inj h
    exact ⟨⟨rfl, rfl, rfl, rfl, rfl, rfl, rfl⟩, .go (.rawMessage _)⟩
  · obtain ⟨rfl, rfl⟩ := Prod.mk.inj h
    exact ⟨⟨rfl, rfl, rfl, rfl, rfl, rfl, rfl⟩, .call .disconnects (.stops _)⟩

omit [DecidableEq ι] in
theorem webSocketEvent_spec (h : webSocketEvent c s = (c', new)) :
    Control.Kept c c' ∧ Proceeds config c s .webSocketState new := by
  unfold webSocketEvent at h
  dsimp only at h
  split at h
  · obtain ⟨rfl, rfl⟩ := Prod.mk.inj h
    exact ⟨⟨rfl, rfl, rfl, rfl, rfl, rfl, rfl⟩, .go (.settles _ _)⟩
  · obtain ⟨rfl, rfl⟩ := Prod.mk.inj h
    exact ⟨⟨rfl, rfl, rfl, rfl, rfl, rfl, rfl⟩, .call (.closes _ _) (.stops _)⟩
  · obtain ⟨rfl, rfl⟩ := Prod.mk.inj h
    exact ⟨⟨rfl, rfl, rfl, rfl, rfl, rfl, rfl⟩, .call (.closes _ _) (.stops _)⟩
  · obtain ⟨rfl, rfl⟩ := Prod.mk.inj h
    exact ⟨⟨rfl, rfl, rfl, rfl, rfl, rfl, rfl⟩, .call (.closes _ _) (.stops _)⟩
  · split at h
    · obtain ⟨rfl, rfl⟩ := Prod.mk.inj h
      exact ⟨⟨rfl, rfl, rfl, rfl, rfl, rfl, rfl⟩, .go (.webSocketMessage _)⟩
    · obtain ⟨rfl, rfl⟩ := Prod.mk.inj h
      exact ⟨⟨rfl, rfl, rfl, rfl, rfl, rfl, rfl⟩, .call (.controls rfl _ _ _) .webSocketAgain⟩
    · obtain ⟨rfl, rfl⟩ := Prod.mk.inj h
      exact ⟨⟨rfl, rfl, rfl, rfl, rfl, rfl, rfl⟩, .go .webSocketAgain⟩
    · obtain ⟨rfl, rfl⟩ := Prod.mk.inj h
      exact ⟨⟨rfl, rfl, rfl, rfl, rfl, rfl, rfl⟩, .call (.controls rfl _ _ _) (.stops _)⟩

omit [DecidableEq ι] in
/-- **What a reading thread does by steps of its own.** -/
theorem localStep_spec {x : Choice ι} {started : Bool} {point : ReadPoint}
    (h : localStep config x started c s point = some (c', new)) :
    Control.Kept c c' ∧ Proceeds config c s point new := by
  have hkept : Control.Kept c c := ⟨rfl, rfl, rfl, rfl, rfl, rfl, rfl⟩
  cases point with
  | handleRead succeeded bytes =>
      simp only [localStep] at h
      split at h
      · obtain ⟨rfl, rfl⟩ := Prod.mk.inj (Option.some.inj h)
        exact ⟨hkept, Or.inl rfl⟩
      · next hgood =>
          obtain ⟨rfl, rfl⟩ := Prod.mk.inj (Option.some.inj h)
          obtain rfl : succeeded = true := by
            cases succeeded with
            | true => rfl
            | false => exact absurd rfl hgood
          exact ⟨hkept, .go (.incoming bytes)⟩
  | processIncoming bytes =>
      simp only [localStep] at h
      split at h
      · next htransport =>
          obtain ⟨rfl, rfl⟩ := Prod.mk.inj (Option.some.inj h)
          exact ⟨hkept, .go (.detecting htransport bytes)⟩
      · next htransport =>
          obtain ⟨rfl, rfl⟩ := Prod.mk.inj (Option.some.inj h)
          exact ⟨hkept, .go (.rawTcp htransport bytes)⟩
      · next htransport =>
          obtain ⟨rfl, rfl⟩ := Prod.mk.inj (Option.some.inj h)
          exact ⟨hkept, .go (.webSocket htransport bytes)⟩
  | detect =>
      simp only [localStep] at h
      split at h
      · obtain ⟨rfl, rfl⟩ := Prod.mk.inj (Option.some.inj h)
        exact ⟨hkept, .go (.stops _)⟩
      · next hraw =>
          obtain ⟨rfl, rfl⟩ := Prod.mk.inj (Option.some.inj h)
          exact ⟨hkept, .go (.detectsRaw hraw)⟩
      · next hrejected =>
          obtain ⟨rfl, rfl⟩ := Prod.mk.inj (Option.some.inj h)
          exact ⟨hkept, .call (.rejects hrejected rfl) (.stops _)⟩
      · next haccepted =>
          obtain ⟨rfl, rfl⟩ := Prod.mk.inj (Option.some.inj h)
          exact ⟨hkept, .go (.greets haccepted)⟩
  | processRaw bytes =>
      simp only [localStep] at h
      split at h
      · obtain ⟨rfl, rfl⟩ := Prod.mk.inj (Option.some.inj h)
        exact ⟨⟨rfl, rfl, rfl, rfl, rfl, rfl, rfl⟩, .call .disconnects (.stops _)⟩
      · obtain ⟨rfl, rfl⟩ := Prod.mk.inj (Option.some.inj h)
        exact ⟨⟨rfl, rfl, rfl, rfl, rfl, rfl, rfl⟩, .go (.appendsRaw bytes _)⟩
  | rawLoop =>
      simp only [localStep] at h
      split at h
      · obtain ⟨rfl, rfl⟩ := Prod.mk.inj (Option.some.inj h)
        exact ⟨hkept, .go (.settles _ _)⟩
      · exact rawEvent_spec (Option.some.inj h)
  | processWebSocket bytes =>
      simp only [localStep] at h
      split at h
      · obtain ⟨rfl, rfl⟩ := Prod.mk.inj (Option.some.inj h)
        exact ⟨hkept, .go (.stops _)⟩
      · obtain ⟨rfl, rfl⟩ := Prod.mk.inj (Option.some.inj h)
        exact ⟨hkept, .go (.appending bytes)⟩
  | appendWebSocket bytes =>
      simp only [localStep] at h
      split at h
      · obtain ⟨rfl, rfl⟩ := Prod.mk.inj (Option.some.inj h)
        exact ⟨⟨rfl, rfl, rfl, rfl, rfl, rfl, rfl⟩, .call (.closes _ _) (.stops _)⟩
      · obtain ⟨rfl, rfl⟩ := Prod.mk.inj (Option.some.inj h)
        exact ⟨⟨rfl, rfl, rfl, rfl, rfl, rfl, rfl⟩, .go (.appendsWebSocket bytes _)⟩
  | webSocketLoop =>
      simp only [localStep] at h
      split at h
      · obtain ⟨rfl, rfl⟩ := Prod.mk.inj (Option.some.inj h)
        exact ⟨hkept, .go (.settles _ _)⟩
      · obtain ⟨rfl, rfl⟩ := Prod.mk.inj (Option.some.inj h)
        exact ⟨hkept, .go .looping⟩
  | webSocketState =>
      simp only [localStep] at h
      split at h
      · obtain ⟨rfl, rfl⟩ := Prod.mk.inj (Option.some.inj h)
        exact ⟨hkept, .go (.settles _ _)⟩
      · exact webSocketEvent_spec (Option.some.inj h)
  | deliverMessage message loop =>
      simp only [localStep] at h
      split at h
      · exact deliverMessage_spec message (Option.some.inj h)
      · cases h
  | repost =>
      simp only [localStep] at h
      obtain ⟨rfl, rfl⟩ := Prod.mk.inj (Option.some.inj h)
      split
      · exact ⟨hkept, Or.inl rfl⟩
      · exact ⟨hkept, .go .posting⟩
  | _ => cases h

end Reading

/-! ### The calls -/

/-- What a call, or a tick of the timer, leads to. -/
inductive Leads (c : Control) : Task ι → Task ι → Prop
  | sending (s : ι) (payload : Bytes) : Leads c (.send s payload) (.sendState s payload)
  | sendingOpen (s : ι) (payload : Bytes) : Leads c (.sendState s payload) (.sendTransport s payload)
  | sendsRaw (h : c.transport = .rawTcp) (s : ι) (payload : Bytes) (item : OutboundItem) :
      Leads c (.sendTransport s payload) (.out (.enqueue s item))
  | sendsFrame (h : c.transport = .webSocket) (s : ι) (payload : Bytes) :
      Leads c (.sendTransport s payload) (.out (.enqueue s (frameItem .binary payload false)))
  | closing (s : ι) (code : UInt16) (reason : Bytes) :
      Leads c (.close s code reason) (.closeTransport s code reason)
  | disconnects {task : Task ι} {s : ι} (hs : task.session? = some s) : Leads c task (disconnect s)
  | controls (h : c.transport = .webSocket) {task : Task ι} {s : ι} (hs : task.session? = some s)
      (opcode : WsOpcode) (payload : Bytes) (closeAfter : Bool) :
      Leads c task (.sendControl s opcode payload closeAfter)
  | sendsControl (s : ι) (opcode : WsOpcode) (payload : Bytes) (closeAfter closeAfter' : Bool) :
      Leads c (.sendControl s opcode payload closeAfter)
        (.out (.enqueue s (frameItem opcode payload closeAfter')))
  | ticks (s : ι) : Leads c (.timer s) (.timerState s)
  | ticksOpen (s : ι) : Leads c (.timerState s) (.timerTransport s)

omit [DecidableEq ι] in
/-- **What the calls lead to.** -/
theorem callStep_spec {config : ServerConfig} {x : Choice ι} {started : Bool} {c : Control}
    {task : Task ι} {state : SessionState} {new : List (Task ι)}
    (h : callStep config x started c task = some (state, new)) : ∀ t ∈ new, Leads c task t := by
  intro t ht
  cases task with
  | send s payload =>
      simp only [callStep, Option.some.injEq, Prod.mk.injEq] at h
      obtain ⟨-, rfl⟩ := h
      split at ht
      · cases ht
      · rw [List.mem_singleton.1 ht]
        exact .sending s payload
  | sendState s payload =>
      simp only [callStep, Option.some.injEq, Prod.mk.injEq] at h
      obtain ⟨-, rfl⟩ := h
      split at ht
      · cases ht
      · rw [List.mem_singleton.1 ht]
        exact .sendingOpen s payload
  | sendTransport s payload =>
      simp only [callStep, Option.some.injEq, Prod.mk.injEq] at h
      obtain ⟨-, rfl⟩ := h
      split at ht
      · next htransport =>
          obtain ⟨item, -, rfl⟩ := Option.map_eq_some_iff.1 (Option.mem_toList.1 ht)
          exact .sendsRaw htransport s payload item
      · next htransport =>
          rw [List.mem_singleton.1 ht]
          exact .sendsFrame htransport s payload
      · cases ht
  | close s code reason =>
      simp only [callStep, Option.some.injEq, Prod.mk.injEq] at h
      obtain ⟨-, rfl⟩ := h
      split at ht
      · cases ht
      · rw [List.mem_singleton.1 ht]
        exact .closing s code reason
  | closeTransport s code reason =>
      simp only [callStep, Option.some.injEq, Prod.mk.injEq] at h
      obtain ⟨-, rfl⟩ := h
      split at ht
      · rw [List.mem_singleton.1 ht]
        exact .disconnects rfl
      · next htransport =>
          rw [List.mem_singleton.1 ht]
          exact .controls (not_not.1 htransport) rfl _ _ _
  | sendControl s opcode payload closeAfter =>
      simp only [callStep] at h
      split at h
      · split at h
        · obtain ⟨-, rfl⟩ := Prod.mk.inj (Option.some.inj h)
          cases ht
        · obtain ⟨-, rfl⟩ := Prod.mk.inj (Option.some.inj h)
          rw [List.mem_singleton.1 ht]
          exact .sendsControl s opcode payload _ _
      · obtain ⟨-, rfl⟩ := Prod.mk.inj (Option.some.inj h)
        rw [List.mem_singleton.1 ht]
        exact .sendsControl s opcode payload _ _
  | timer s =>
      simp only [callStep, Option.some.injEq, Prod.mk.injEq] at h
      obtain ⟨-, rfl⟩ := h
      split at ht
      · cases ht
      · rw [List.mem_singleton.1 ht]
        exact .ticks s
  | timerState s =>
      simp only [callStep] at h
      split at h <;> obtain ⟨-, rfl⟩ := Prod.mk.inj (Option.some.inj h)
      all_goals first
        | (rw [List.mem_singleton.1 ht]; exact .disconnects rfl)
        | (rw [List.mem_singleton.1 ht]; exact .ticksOpen s)
        | cases ht
  | timerTransport s =>
      simp only [callStep] at h
      split at h
      · obtain ⟨-, rfl⟩ := Prod.mk.inj (Option.some.inj h)
        rw [List.mem_singleton.1 ht]
        exact .disconnects rfl
      · next htransport =>
          obtain ⟨-, rfl⟩ := Prod.mk.inj (Option.some.inj h)
          rw [List.mem_singleton.1 ht]
          exact .controls htransport rfl _ _ _
      · obtain ⟨-, rfl⟩ := Prod.mk.inj (Option.some.inj h)
        cases ht
  | storeClosed s =>
      obtain ⟨-, rfl⟩ := Prod.mk.inj (Option.some.inj h)
      cases ht
  | _ => cases h

end ServerSteps

end RealtimeEngine
