/-
**The router, critical section by critical section.**

`Handle` takes the mutexes of the router one after the other: it looks the principal up, asks the
authorizer, enters the room registry, and between any two of these another thread can run.
`Disconnect` runs in such a thread; it calls `OnDisconnect`, which empties the two tables in two
critical sections of their own.  Here the router is taken apart into the atomic steps of
`RealtimeEngine/Interleaving.lean`: every step is one critical section, together with the local
computation that follows it, or one access to `disconnect_started`.

Main definitions:

* `RealtimeEngine.RouterSteps.Shared` — the router, the flags of the sessions and what was sent;
* `RealtimeEngine.RouterSteps.Action` — where a thread can stand;
* `RealtimeEngine.RouterSteps.program` — what each step does.

Main results:

* `RealtimeEngine.RouterSteps.handle_alone` — **the steps of a `Handle` that no other thread
  disturbs do what `RealtimeEngine.ProtocolRouter.handle` does**.
-/

import RealtimeEngine.Interleaving
import RealtimeEngine.ProtocolRouter

set_option relaxedAutoImplicit false
set_option autoImplicit false

namespace RealtimeEngine

namespace RouterSteps

open Interleaving

/-! ### State and steps -/

/-- What the threads share. -/
structure Shared where
  router : ProtocolRouter
  disconnectStarted : SessionHandle → Bool
  /-- `RemoveSession` has been run for the session by `OnDisconnect`. -/
  roomsRemoved : SessionHandle → Bool
  /-- The principal of the session has been erased by `OnDisconnect`. -/
  principalErased : SessionHandle → Bool
  /-- `OnDisconnect` has returned for the session. -/
  returned : SessionHandle → Bool
  sent : List (SessionHandle × Outgoing)

/-- Before any connection. -/
def Shared.initial : Shared :=
  ⟨.fresh, fun _ => false, fun _ => false, fun _ => false, fun _ => false, []⟩

/-- Where a thread stands.  The first handle of an action is the session whose message or whose
disconnect is being processed. -/
inductive Action
  /-- The completion port, the timer, `Stop`: they start threads. -/
  | outside
  /-- The loop of `ProcessRaw` and `ProcessWebSocket`, before its test of `disconnect_started`. -/
  | loop (s : SessionHandle) (messages : List Bytes)
  | handle (s : SessionHandle) (payload : Bytes)
  | storePrincipal (s : SessionHandle) (principal : Bytes)
  /-- `IsAuthenticated` for a `JoinRoom`. -/
  | checkJoin (s : SessionHandle) (requestId : UInt64) (table : Option RoomRequest)
  /-- `AuthorizeRoom` for a `JoinRoom`. -/
  | authorizeJoin (s : SessionHandle) (requestId : UInt64) (room : Room)
  /-- The critical section of `Join`. -/
  | insertPair (s : SessionHandle) (requestId : UInt64) (room : Room)
  | leave (s : SessionHandle) (requestId : UInt64) (room : Room)
  /-- `IsAuthenticated` for a `Publish`. -/
  | checkPublish (s : SessionHandle) (requestId : UInt64) (table : Option Publish)
      (payload : Bytes)
  /-- `AuthorizeRoom` for a `Publish`. -/
  | authorizePublish (s : SessionHandle) (requestId : UInt64) (room : Room) (payload : Bytes)
  /-- The critical section of `AuthorizePublish`. -/
  | findPair (s : SessionHandle) (requestId : UInt64) (room : Room) (payload : Bytes)
  | snapshot (s : SessionHandle) (room : Room) (payload : Bytes)
  /-- Building a message of the server, with the next sequence number. -/
  | respond (s : SessionHandle) (requestId : UInt64) (body : Reply)
  | send (s recipient : SessionHandle) (message : Outgoing)
  /-- `Disconnect`, before its exchange of `disconnect_started`. -/
  | disconnect (s : SessionHandle)
  | removeSession (s : SessionHandle)
  | erasePrincipal (s : SessionHandle)
  | onDisconnectReturns (s : SessionHandle)

/-- What is left open at a step: which thread is started, or what the callbacks answer. -/
inductive Choice
  | worker (s : SessionHandle) (messages : List Bytes)
  | disconnecter (s : SessionHandle)
  | services (svc : Services)

/-- The action is part of a `Handle` call for the session. -/
def Action.inHandle (s : SessionHandle) : Action → Bool
  | .handle s' _ | .storePrincipal s' _ | .checkJoin s' _ _ | .authorizeJoin s' _ _
  | .insertPair s' _ _ | .leave s' _ _ | .checkPublish s' _ _ _ | .authorizePublish s' _ _ _
  | .findPair s' _ _ _ | .snapshot s' _ _ | .respond s' _ _ | .send s' _ _ => s' == s
  | _ => false

/-- `send_error`. -/
def errorStep (s : SessionHandle) (requestId : UInt64) (code : ErrorCode) (text : String) :
    Action :=
  .respond s 0 (.errorResponse code text requestId)

/-- `send_ack`. -/
def ackStep (s : SessionHandle) (requestId : UInt64) (room : Room)
    (operation : SubscriptionOperation) (result : RoomResult) : Action :=
  .respond s requestId
    (.subscriptionAck room operation (decide (result = .ok)) (roomResultReason result))

/-- The steps of the case `Payload::Authenticate`. -/
def authenticateSteps (svc : Services) (s : SessionHandle) (requestId : UInt64)
    (table : Option Authenticate) : List Action :=
  match table.bind Authenticate.token with
  | none => [errorStep s requestId .malformedMessage "authentication token is required"]
  | some token =>
      if !validString (some token) maxTextLength then
        [errorStep s requestId .malformedMessage "authentication token is required"]
      else
        match svc.authenticator.bind fun authenticate => authenticate token with
        | some principal =>
            [.storePrincipal s principal,
              .respond s requestId (.authenticationResult true (some principal) none)]
        | none =>
            [.respond s requestId
              (.authenticationResult false none (some "authentication rejected"))]

/-- The case `Payload::LeaveRoom`, up to the registry. -/
def leaveSteps (s : SessionHandle) (requestId : UInt64) (table : Option RoomRequest) :
    List Action :=
  match table.bind RoomRequest.room with
  | none => [errorStep s requestId .invalidRoom "room is required"]
  | some room =>
      if !validString (some room) maxIdentifierLength then
        [errorStep s requestId .invalidRoom "room is required"]
      else [.leave s requestId room]

/-- `Handle` up to its first critical section. -/
def handleSteps (codec : Codec) (svc : Services) (s : SessionHandle) (payload : Bytes) :
    List Action :=
  if !codec.verify payload then []
  else
    let message := codec.getNetworkMessage payload
    if message.protocolVersion ≠ protocolVersion then
      [errorStep s message.requestId .unsupportedVersion "supported protocol_version is 1"]
    else if message.payload.isMissing then
      [errorStep s message.requestId .malformedMessage "payload is required"]
    else
      match message.payload with
      | .authenticate table => authenticateSteps svc s message.requestId table
      | .ping table =>
          match table with
          | none => []
          | some ping => [.respond s message.requestId (.pong ping.timestampMs)]
      | .pong _ => []
      | .joinRoom table => [.checkJoin s message.requestId table]
      | .leaveRoom table => leaveSteps s message.requestId table
      | .publish table => [.checkPublish s message.requestId table payload]
      | .serverOnly _ _ =>
          [errorStep s message.requestId .forbidden "payload type is server-to-client only"]
      | .unknown _ _ => []
      | .none => []

/-- `JoinRoom` after `IsAuthenticated`; `Join` tests the name of the room before it asks its
authorizer. -/
def joinSteps (router : ProtocolRouter) (s : SessionHandle) (requestId : UInt64)
    (table : Option RoomRequest) : List Action :=
  if !router.isAuthenticated s then
    [errorStep s requestId .unauthorized "authenticate before joining rooms"]
  else
    match table.bind RoomRequest.room with
    | none => [errorStep s requestId .invalidRoom "room is required"]
    | some room =>
        if !validString (some room) maxIdentifierLength then
          [errorStep s requestId .invalidRoom "room is required"]
        else if !isValidRoom room then [ackStep s requestId room .join .invalidRoom]
        else [.authorizeJoin s requestId room]

/-- `Publish` when the registry refuses. -/
def refusePublish (s : SessionHandle) (requestId : UInt64) (refusal : RoomResult) : Action :=
  errorStep s requestId (if refusal = .unauthorized then .forbidden else .notSubscribed)
    ((roomResultReason refusal).getD "")

/-- `Publish` after `IsAuthenticated`. -/
def publishSteps (router : ProtocolRouter) (s : SessionHandle) (requestId : UInt64)
    (table : Option Publish) (payload : Bytes) : List Action :=
  if !router.isAuthenticated s then
    [errorStep s requestId .unauthorized "authenticate before publishing"]
  else if !validateDomain table then
    [errorStep s requestId .malformedMessage "published domain payload is invalid"]
  else
    let room := (table.bind Publish.room).getD []
    if !isValidRoom room then [refusePublish s requestId .invalidRoom]
    else [.authorizePublish s requestId room payload]

/-- What each step does to the shared state, and what its thread does next. -/
def execWith (codec : Codec) (svc : Services) (sh : Shared) : Action → Shared × List Action
  | .outside => (sh, [.outside])
  | .loop _ [] => (sh, [])
  | .loop s (message :: messages) =>
      if sh.disconnectStarted s then (sh, []) else (sh, [.handle s message, .loop s messages])
  | .handle s payload => (sh, handleSteps codec svc s payload)
  | .storePrincipal s principal =>
      ({ sh with router :=
          { sh.router with
            principals := Function.update sh.router.principals s (some principal) } }, [])
  | .checkJoin s requestId table => (sh, joinSteps sh.router s requestId table)
  | .authorizeJoin s requestId room =>
      if sh.router.authorizeRoom svc s room false then (sh, [.insertPair s requestId room])
      else (sh, [ackStep s requestId room .join .unauthorized])
  | .insertPair s requestId room =>
      let joined := sh.router.rooms.join none s room
      ({ sh with router := { sh.router with rooms := joined.2 } },
        [ackStep s requestId room .join joined.1])
  | .leave s requestId room =>
      let left := sh.router.rooms.leave s room
      ({ sh with router := { sh.router with rooms := left.2 } },
        [ackStep s requestId room .leave left.1])
  | .checkPublish s requestId table payload =>
      (sh, publishSteps sh.router s requestId table payload)
  | .authorizePublish s requestId room payload =>
      if sh.router.authorizeRoom svc s room true then (sh, [.findPair s requestId room payload])
      else (sh, [refusePublish s requestId .unauthorized])
  | .findPair s requestId room payload =>
      match sh.router.rooms.authorizePublish none s room with
      | .ok => (sh, [.snapshot s room payload])
      | refusal => (sh, [refusePublish s requestId refusal])
  | .snapshot s room payload =>
      (sh, (sh.router.rooms.snapshot room).map fun recipient =>
        .send s recipient (.original payload))
  | .respond s requestId body =>
      ({ sh with router := { sh.router with serverSequence := sh.router.serverSequence + 1 } },
        [.send s s (.built protocolVersion requestId sh.router.serverSequence svc.unixTimeMs body)])
  | .send _ recipient message => ({ sh with sent := sh.sent ++ [(recipient, message)] }, [])
  | .disconnect s =>
      if sh.disconnectStarted s then (sh, [])
      else
        ({ sh with disconnectStarted := Function.update sh.disconnectStarted s true },
          [.removeSession s])
  | .removeSession s =>
      ({ sh with
          router := { sh.router with rooms := sh.router.rooms.removeSession s }
          roomsRemoved := Function.update sh.roomsRemoved s true }, [.erasePrincipal s])
  | .erasePrincipal s =>
      ({ sh with
          router :=
            { sh.router with principals := Function.update sh.router.principals s none }
          principalErased := Function.update sh.principalErased s true },
        [.onDisconnectReturns s])
  | .onDisconnectReturns s =>
      ({ sh with returned := Function.update sh.returned s true }, [])

/-- The router as a program of interleaving threads. -/
def program (codec : Codec) : Program Shared Action Choice where
  exec
    | .worker s messages, .outside, sh => some ⟨sh, [.outside], [[.loop s messages]]⟩
    | .disconnecter s, .outside, sh => some ⟨sh, [.outside], [[.disconnect s]]⟩
    | .services svc, p, sh =>
        some ⟨(execWith codec svc sh p).1, (execWith codec svc sh p).2, []⟩
    | _, _, _ => none

/-- The pool before any thread has been started. -/
def start : Config Shared Action := ⟨.initial, [[.outside]]⟩

/-! ### A `Handle` that nobody disturbs -/

section Alone

variable {codec : Codec} {svc : Services} {sh sh' : Shared} {s : SessionHandle}

/-- The steps run to their end, with nothing in between. -/
abbrev Alone (codec : Codec) (svc : Services) : List Action → Shared → Shared → Prop :=
  (program codec).Alone (.services svc)

theorem alone_cons {p : Action} {rest : List Action}
    (h : Alone codec svc ((execWith codec svc sh p).2 ++ rest) (execWith codec svc sh p).1 sh') :
    Alone codec svc (p :: rest) sh sh' := by
  refine .step (o := ⟨(execWith codec svc sh p).1, (execWith codec svc sh p).2, []⟩) ?_ rfl h
  cases p <;> rfl

/-- Sending one message to each of a list of sessions. -/
theorem alone_sends (recipients : List SessionHandle) (message : Outgoing) (sh : Shared) :
    Alone codec svc (recipients.map fun recipient => .send s recipient message) sh
      { sh with sent := sh.sent ++ recipients.map fun recipient => (recipient, message) } := by
  induction recipients generalizing sh with
  | nil => simpa using .done sh
  | cons recipient recipients ih =>
      refine alone_cons ?_
      have h := ih { sh with sent := sh.sent ++ [(recipient, message)] }
      simpa [execWith, List.append_assoc] using h

/-- The shared state after a call of `Handle` that was not disturbed. -/
def Shared.after (sh : Shared) (h : Handled) : Shared :=
  { sh with router := h.router, sent := sh.sent ++ h.sent }

/-- Answering with one message of the server. -/
theorem alone_reply (requestId : UInt64) (body : Reply) (disposition : MessageDisposition)
    (sh : Shared) (router : ProtocolRouter) :
    Alone codec svc [.respond s requestId body] { sh with router := router }
      (sh.after (ProtocolRouter.reply svc s requestId body disposition router)) :=
  alone_cons (alone_cons (.done _))

theorem authenticate_alone (requestId : UInt64) (table : Option Authenticate) (sh : Shared) :
    Alone codec svc (authenticateSteps svc s requestId table) sh
      (sh.after (sh.router.handleAuthenticate svc s requestId table)) := by
  unfold authenticateSteps ProtocolRouter.handleAuthenticate
  cases table.bind Authenticate.token with
  | none => exact alone_reply _ _ _ _ _
  | some token =>
      dsimp only
      cases validString (some token) maxTextLength with
      | false => exact alone_reply _ _ _ _ _
      | true =>
          cases svc.authenticator.bind fun authenticate => authenticate token with
          | none => exact alone_reply _ _ _ _ _
          | some principal => exact alone_cons (alone_reply _ _ _ _ _)

theorem leave_alone (requestId : UInt64) (table : Option RoomRequest) (sh : Shared) :
    Alone codec svc (leaveSteps s requestId table) sh
      (sh.after (sh.router.handleLeaveRoom svc s requestId table)) := by
  unfold leaveSteps ProtocolRouter.handleLeaveRoom
  cases table.bind RoomRequest.room with
  | none => exact alone_reply _ _ _ _ _
  | some room =>
      dsimp only
      cases validString (some room) maxIdentifierLength with
      | false => exact alone_reply _ _ _ _ _
      | true => exact alone_cons (alone_reply _ _ _ _ _)

theorem join_alone (requestId : UInt64) (table : Option RoomRequest) (sh : Shared) :
    Alone codec svc [.checkJoin s requestId table] sh
      (sh.after (sh.router.handleJoinRoom svc s requestId table)) := by
  refine alone_cons ?_
  rw [List.append_nil]
  simp only [execWith, joinSteps, ProtocolRouter.handleJoinRoom]
  cases sh.router.isAuthenticated s with
  | false => exact alone_reply _ _ _ _ _
  | true =>
      cases table.bind RoomRequest.room with
      | none => exact alone_reply _ _ _ _ _
      | some room =>
          dsimp only
          cases validString (some room) maxIdentifierLength with
          | false => exact alone_reply _ _ _ _ _
          | true =>
              -- `Join` tests the name, asks the authorizer and then enters the registry
              simp only [Bool.not_true, Bool.false_eq_true, if_false]
              have hjoin := RoomRegistry.join_eq (sh.router.authorizeRoom svc) s room
                sh.router.rooms
              rw [hjoin]
              cases isValidRoom room with
              | false => exact alone_reply _ _ _ _ _
              | true =>
                  refine alone_cons ?_
                  simp only [execWith]
                  cases sh.router.authorizeRoom svc s room false with
                  | false => exact alone_reply _ _ _ _ _
                  | true => exact alone_cons (alone_reply _ _ _ _ _)

theorem publish_alone (requestId : UInt64) (table : Option Publish) (payload : Bytes)
    (sh : Shared) :
    Alone codec svc [.checkPublish s requestId table payload] sh
      (sh.after (sh.router.handlePublish svc s requestId table payload)) := by
  refine alone_cons ?_
  rw [List.append_nil]
  simp only [execWith, publishSteps, ProtocolRouter.handlePublish]
  cases sh.router.isAuthenticated s with
  | false => exact alone_reply _ _ _ _ _
  | true =>
      cases validateDomain table with
      | false => exact alone_reply _ _ _ _ _
      | true =>
          simp only [Bool.not_true, Bool.false_eq_true, if_false]
          generalize (table.bind Publish.room).getD [] = room
          -- the callback and the test of the pair are two steps of the thread
          rw [RoomRegistry.authorizePublish_eq (sh.router.authorizeRoom svc)]
          cases isValidRoom room with
          | false => exact alone_reply _ _ _ _ _
          | true =>
              refine alone_cons ?_
              simp only [execWith, Bool.not_true, Bool.false_eq_true, if_false]
              cases sh.router.authorizeRoom svc s room true with
              | false => exact alone_reply _ _ _ _ _
              | true =>
                  refine alone_cons ?_
                  simp only [execWith, Bool.not_true, Bool.false_eq_true, if_false, if_true]
                  cases sh.router.rooms.authorizePublish none s room with
                  | ok =>
                      refine alone_cons ?_
                      simpa [execWith, Shared.after] using alone_sends _ _ sh
                  | invalidRoom => exact alone_reply _ _ _ _ _
                  | unauthorized => exact alone_reply _ _ _ _ _
                  | alreadySubscribed => exact alone_reply _ _ _ _ _
                  | notSubscribed => exact alone_reply _ _ _ _ _

/-- A call that changes nothing and sends nothing. -/
theorem alone_silent (disposition : MessageDisposition) (sh : Shared) :
    Alone codec svc [] sh (sh.after ⟨disposition, sh.router, []⟩) := by
  simpa [Shared.after] using .done sh

/-- **Undisturbed, the steps of a `Handle` do what `Handle` does.** -/
theorem handle_alone (codec : Codec) (svc : Services) (s : SessionHandle) (payload : Bytes)
    (sh : Shared) :
    Alone codec svc [.handle s payload] sh
      (sh.after (sh.router.handle codec svc s payload)) := by
  refine alone_cons ?_
  rw [List.append_nil]
  simp only [execWith, handleSteps, ProtocolRouter.handle]
  split
  · exact alone_silent _ _
  · split
    · exact alone_reply _ _ _ _ _
    · split
      · exact alone_reply _ _ _ _ _
      · cases (codec.getNetworkMessage payload).payload with
        | none => exact alone_silent _ _
        | unknown tag present => exact alone_silent _ _
        | serverOnly kind present => exact alone_reply _ _ _ _ _
        | ping table =>
            cases table with
            | none => exact alone_silent _ _
            | some ping => exact alone_reply _ _ _ _ _
        | pong present => exact alone_silent _ _
        | authenticate table => exact authenticate_alone _ _ _
        | joinRoom table => exact join_alone _ _ _
        | leaveRoom table => exact leave_alone _ _ _
        | publish table => exact publish_alone _ _ _ _

end Alone

end RouterSteps

end RealtimeEngine
