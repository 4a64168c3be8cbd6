/-
**The protocol router: one message in, one verdict and some sends out.**

`application/protocol_router.cpp` verifies a FlatBuffers envelope, authenticates sessions, keeps
their rooms in a `RoomRegistry` and forwards published messages.  FlatBuffers verification and
field access are not part of the repository, so they are the parameter
`RealtimeEngine.Codec`; the calls of `server_.Send` are recorded, in order, in the result.  The
authenticator and the room authorizer are `std::function`s that may be empty; together with the
clock they are `RealtimeEngine.Services`, which may change from call to call.

Main definitions:

* `RealtimeEngine.Codec`, `RealtimeEngine.Services` — what the router is given;
* `RealtimeEngine.ProtocolRouter` — its two tables and its sequence counter;
* `RealtimeEngine.ProtocolRouter.authorizeRoom` — the default room policy and the custom one;
* `RealtimeEngine.ProtocolRouter.handle`, `RealtimeEngine.ProtocolRouter.onDisconnect` — the two
  entry points.

* `RealtimeEngine.ProtocolRouter.Effect` — what one message can do, said once: nothing to the
  tables and an answer to the sender, an accepted authentication, a join, a leave, or an accepted
  publication.

Main results:

* `RealtimeEngine.ProtocolRouter.handle_effect` — **every call of `Handle` has one of these
  effects**;
* `RealtimeEngine.ProtocolRouter.authorizeRoom_booking` — under the default policy a booking room
  admits exactly the principal it is named after.
-/

import RealtimeEngine.Protocol
import RealtimeEngine.RoomRegistry

set_option relaxedAutoImplicit false
set_option autoImplicit false

namespace RealtimeEngine

open Unordered

/-! ### What the router is given -/

/-- FlatBuffers: `VerifyNetworkMessageBuffer` and `GetNetworkMessage`. -/
structure Codec where
  verify : Bytes → Bool
  getNetworkMessage : Bytes → NetworkMessage

/-- The callbacks of the router and the value of `UnixTimeMilliseconds` during a call. -/
structure Services where
  authenticator : Option (Bytes → Option Bytes)
  roomAuthorizer : Option (Bytes → Room → Bool → Bool)
  unixTimeMs : UInt64

/-! ### What the router sends -/

/-- `ErrorCode`. -/
inductive ErrorCode
  | none
  | malformedMessage
  | unsupportedVersion
  | unauthorized
  | forbidden
  | invalidRoom
  | notSubscribed
  | alreadySubscribed
  | rateLimited
  | backpressure
  | internalError
  deriving DecidableEq, Repr

/-- `SubscriptionOperation`. -/
inductive SubscriptionOperation
  | join
  | leave
  deriving DecidableEq, Repr

/-- The payload of a message made by the server. -/
inductive Reply
  | authenticationResult (accepted : Bool) (principalId : Option Bytes) (reason : Option String)
  | pong (timestampMs : UInt64)
  | subscriptionAck (room : Room) (operation : SubscriptionOperation) (accepted : Bool)
      (reason : Option String)
  | errorResponse (code : ErrorCode) (text : String) (relatedRequestId : UInt64)
  deriving DecidableEq, Repr

/-- An argument of `server_.Send`: a message built by the router, or the bytes it was given. -/
inductive Outgoing
  | built (version : UInt16) (requestId sequenceId sentAtMs : UInt64) (payload : Reply)
  | original (bytes : Bytes)
  deriving DecidableEq, Repr

/-- `RoomResultReason`; the empty reason of `Ok` becomes an absent string. -/
def roomResultReason : RoomResult → Option String
  | .ok => none
  | .invalidRoom => some "invalid room"
  | .unauthorized => some "room authorization denied"
  | .alreadySubscribed => some "already subscribed"
  | .notSubscribed => some "not subscribed"

/-! ### The router -/

/-- The state of `ProtocolRouter`. -/
structure ProtocolRouter where
  principals : SessionHandle → Option Bytes
  rooms : RoomRegistry
  serverSequence : UInt64

/-- What one call of `Handle` does. -/
structure Handled where
  disposition : MessageDisposition
  router : ProtocolRouter
  sent : List (SessionHandle × Outgoing)

namespace ProtocolRouter

/-- The router before the first call. -/
def fresh : ProtocolRouter := ⟨fun _ => none, RoomRegistry.empty, 1⟩

/-- `BookingPrefix`. -/
def bookingPrefix : Bytes := ascii "booking:user:"

/-- `ProtocolRouter::IsAuthenticated`. -/
def isAuthenticated (router : ProtocolRouter) (session : SessionHandle) : Bool :=
  (router.principals session).isSome

/-- `ProtocolRouter::AuthorizeRoom`. -/
def authorizeRoom (svc : Services) (router : ProtocolRouter) (session : SessionHandle)
    (room : Room) (publishing : Bool) : Bool :=
  match router.principals session with
  | none => false
  | some principal =>
      match svc.roomAuthorizer with
      | some answer => answer principal room publishing
      | none =>
          if bookingPrefix.isPrefixOf room then room.drop bookingPrefix.length == principal
          else true

/-- Sending one message built by the router, with the next sequence number. -/
def reply (svc : Services) (session : SessionHandle) (requestId : UInt64) (payload : Reply)
    (disposition : MessageDisposition) (router : ProtocolRouter) : Handled where
  disposition := disposition
  router := { router with serverSequence := router.serverSequence + 1 }
  sent := [(session,
    .built protocolVersion requestId router.serverSequence svc.unixTimeMs payload)]

/-- The lambda `send_error`, whose envelope has no request identifier of its own. -/
def sendError (svc : Services) (session : SessionHandle) (requestId : UInt64) (code : ErrorCode)
    (text : String) (disposition : MessageDisposition) (router : ProtocolRouter) : Handled :=
  reply svc session 0 (.errorResponse code text requestId) disposition router

/-- The lambda `send_ack`. -/
def sendAck (svc : Services) (session : SessionHandle) (requestId : UInt64) (room : Room)
    (operation : SubscriptionOperation) (result : RoomResult) (router : ProtocolRouter) :
    Handled :=
  reply svc session requestId
    (.subscriptionAck room operation (decide (result = .ok)) (roomResultReason result))
    .accepted router

/-- The case `Payload::Authenticate`. -/
def handleAuthenticate (svc : Services) (session : SessionHandle) (requestId : UInt64)
    (table : Option Authenticate) (router : ProtocolRouter) : Handled :=
  match table.bind Authenticate.token with
  | none =>
      sendError svc session requestId .malformedMessage "authentication token is required"
        .malformed router
  | some token =>
      if !validString (some token) maxTextLength then
        sendError svc session requestId .malformedMessage "authentication token is required"
          .malformed router
      else
        match svc.authenticator.bind fun authenticate => authenticate token with
        | some principal =>
            reply svc session requestId (.authenticationResult true (some principal) none)
              .accepted
              { router with principals := Function.update router.principals session principal }
        | none =>
            reply svc session requestId
              (.authenticationResult false none (some "authentication rejected"))
              .accepted router

/-- The case `Payload::JoinRoom`. -/
def handleJoinRoom (svc : Services) (session : SessionHandle) (requestId : UInt64)
    (table : Option RoomRequest) (router : ProtocolRouter) : Handled :=
  if !router.isAuthenticated session then
    sendError svc session requestId .unauthorized "authenticate before joining rooms"
      .accepted router
  else
    match table.bind RoomRequest.room with
    | none => sendError svc session requestId .invalidRoom "room is required" .malformed router
    | some room =>
        if !validString (some room) maxIdentifierLength then
          sendError svc session requestId .invalidRoom "room is required" .malformed router
        else
          let joined := router.rooms.join (some (router.authorizeRoom svc)) session room
          sendAck svc session requestId room .join joined.1 { router with rooms := joined.2 }

/-- The case `Payload::LeaveRoom`, which asks for no authentication. -/
def handleLeaveRoom (svc : Services) (session : SessionHandle) (requestId : UInt64)
    (table : Option RoomRequest) (router : ProtocolRouter) : Handled :=
  match table.bind RoomRequest.room with
  | none => sendError svc session requestId .invalidRoom "room is required" .malformed router
  | some room =>
      if !validString (some room) maxIdentifierLength then
        sendError svc session requestId .invalidRoom "room is required" .malformed router
      else
        let left := router.rooms.leave session room
        sendAck svc session requestId room .leave left.1 { router with rooms := left.2 }

/-- The case `Payload::Publish`. -/
def handlePublish (svc : Services) (session : SessionHandle) (requestId : UInt64)
    (table : Option Publish) (payload : Bytes) (router : ProtocolRouter) : Handled :=
  if !router.isAuthenticated session then
    sendError svc session requestId .unauthorized "authenticate before publishing"
      .accepted router
  else if !validateDomain table then
    sendError svc session requestId .malformedMessage "published domain payload is invalid"
      .malformed router
  else
    -- the room is present: `ValidateDomain` has checked it
    let room := (table.bind Publish.room).getD []
    match router.rooms.authorizePublish (some (router.authorizeRoom svc)) session room with
    | .ok =>
        { disposition := .accepted
          router := router
          sent := (router.rooms.snapshot room).map fun recipient =>
            (recipient, .original payload) }
    | refusal =>
        sendError svc session requestId
          (if refusal = .unauthorized then .forbidden else .notSubscribed)
          ((roomResultReason refusal).getD "") .accepted router

/-- `ProtocolRouter::Handle`. -/
def handle (codec : Codec) (svc : Services) (session : SessionHandle) (payload : Bytes)
    (router : ProtocolRouter) : Handled :=
  if !codec.verify payload then ⟨.malformed, router, []⟩
  else
    let message := codec.getNetworkMessage payload
    if message.protocolVersion ≠ protocolVersion then
      sendError svc session message.requestId .unsupportedVersion
        "supported protocol_version is 1" .accepted router
    else if message.payload.isMissing then
      sendError svc session message.requestId .malformedMessage "payload is required"
        .malformed router
    else
      match message.payload with
      | .authenticate table => handleAuthenticate svc session message.requestId table router
      | .ping table =>
          match table with
          | none => ⟨.malformed, router, []⟩
          | some ping =>
              reply svc session message.requestId (.pong ping.timestampMs) .accepted router
      | .pong _ => ⟨.accepted, router, []⟩
      | .joinRoom table => handleJoinRoom svc session message.requestId table router
      | .leaveRoom table => handleLeaveRoom svc session message.requestId table router
      | .publish table => handlePublish svc session message.requestId table payload router
      | .serverOnly _ _ =>
          sendError svc session message.requestId .forbidden
            "payload type is server-to-client only" .accepted router
      | .unknown _ _ => ⟨.malformed, router, []⟩
      | .none => ⟨.malformed, router, []⟩

/-- `ProtocolRouter::OnDisconnect`. -/
def onDisconnect (session : SessionHandle) (router : ProtocolRouter) : ProtocolRouter :=
  { router with
    rooms := router.rooms.removeSession session
    principals := Function.update router.principals session none }

/-! ### What one message can do -/

/-- The buffer verifies, has the supported version and carries this payload. -/
def Carries (codec : Codec) (payload : Bytes) (body : Payload) : Prop :=
  codec.verify payload = true ∧
    (codec.getNetworkMessage payload).protocolVersion = protocolVersion ∧
    (codec.getNetworkMessage payload).payload = body

/-- Some message built by the router carries this reply. -/
def Answers (out : Outgoing) (payload : Reply) : Prop :=
  ∃ requestId sequenceId sentAtMs,
    out = .built protocolVersion requestId sequenceId sentAtMs payload

/-- Everything that is sent is a message built by the router for the sender. -/
def ToSender (session : SessionHandle) (sent : List (SessionHandle × Outgoing)) : Prop :=
  ∀ s ∈ sent, s.1 = session ∧ ∃ body, Answers s.2 body

section Effects

variable (codec : Codec) (svc : Services) (session : SessionHandle) (payload : Bytes)
  (router : ProtocolRouter)

/-- The effects a call of `Handle` can have. -/
inductive Effect : Handled → Prop
  | quiet {h : Handled} (hp : h.router.principals = router.principals)
      (hr : h.router.rooms = router.rooms) (hs : ToSender session h.sent) : Effect h
  | authenticated {h : Handled} {token principal : Bytes}
      (hc : Carries codec payload (.authenticate (some ⟨some token⟩)))
      (hw : Within maxTextLength (some token))
      (ha : ∃ authenticate, svc.authenticator = some authenticate ∧
        authenticate token = some principal)
      (hp : h.router.principals = Function.update router.principals session (some principal))
      (hr : h.router.rooms = router.rooms) (hs : ToSender session h.sent) : Effect h
  | joined {h : Handled} {room : Room} {out : Outgoing}
      (hc : Carries codec payload (.joinRoom (some ⟨some room⟩)))
      (hp : h.router.principals = router.principals)
      (hr : h.router.rooms =
        (router.rooms.join (some (router.authorizeRoom svc)) session room).2)
      (hs : h.sent = [(session, out)])
      (ho : Answers out (.subscriptionAck room .join
        (decide ((router.rooms.join (some (router.authorizeRoom svc)) session room).1 = .ok))
        (roomResultReason
          (router.rooms.join (some (router.authorizeRoom svc)) session room).1))) : Effect h
  | left {h : Handled} {room : Room} {out : Outgoing}
      (hc : Carries codec payload (.leaveRoom (some ⟨some room⟩)))
      (hp : h.router.principals = router.principals)
      (hr : h.router.rooms = (router.rooms.leave session room).2)
      (hs : h.sent = [(session, out)])
      (ho : Answers out (.subscriptionAck room .leave
        (decide ((router.rooms.leave session room).1 = .ok))
        (roomResultReason (router.rooms.leave session room).1))) : Effect h
  | published {h : Handled} {publish : Publish} {room : Room}
      (hc : Carries codec payload (.publish (some publish))) (hroom : publish.room = some room)
      (hauth : router.isAuthenticated session = true)
      (hdomain : validateDomain (some publish) = true)
      (hok : router.rooms.authorizePublish (some (router.authorizeRoom svc)) session room = .ok)
      (hr : h.router = router)
      (hs : h.sent = (router.rooms.snapshot room).map fun recipient =>
        (recipient, .original payload)) : Effect h

variable {codec svc session payload router}

theorem toSender_reply (requestId : UInt64) (body : Reply) (disposition : MessageDisposition) :
    ToSender session (router.reply svc session requestId body disposition).sent := by
  simp only [ToSender, ProtocolRouter.reply, List.mem_singleton, forall_eq, true_and]
  exact ⟨body, _, _, _, rfl⟩

/-- Sending one reply to the sender is quiet. -/
theorem Effect.reply (requestId : UInt64) (body : Reply) (disposition : MessageDisposition) :
    Effect codec svc session payload router
      (router.reply svc session requestId body disposition) :=
  .quiet rfl rfl (toSender_reply _ _ _)

/-- Returning without a reply is quiet. -/
theorem Effect.silent (disposition : MessageDisposition) :
    Effect codec svc session payload router ⟨disposition, router, []⟩ :=
  .quiet rfl rfl (by simp [ToSender])

theorem handleAuthenticate_effect (requestId : UInt64) {table : Option Authenticate}
    (hc : Carries codec payload (.authenticate table)) :
    Effect codec svc session payload router
      (handleAuthenticate svc session requestId table router) := by
  unfold handleAuthenticate
  split
  · exact .reply _ _ _
  · next token htoken =>
      split
      · exact .reply _ _ _
      · next hvalid =>
          simp only [Bool.not_eq_true', Bool.not_eq_false] at hvalid
          split
          · next principal hprincipal =>
              obtain ⟨⟨t⟩, rfl, rfl⟩ := Option.bind_eq_some_iff.1 htoken
              exact .authenticated hc ((validString_iff _ _).1 hvalid)
                (Option.bind_eq_some_iff.1 hprincipal) rfl rfl (toSender_reply _ _ _)
          · exact .reply _ _ _

theorem handleJoinRoom_effect (requestId : UInt64) {table : Option RoomRequest}
    (hc : Carries codec payload (.joinRoom table)) :
    Effect codec svc session payload router
      (handleJoinRoom svc session requestId table router) := by
  unfold handleJoinRoom
  split
  · exact .reply _ _ _
  · split
    · exact .reply _ _ _
    · next room hroom =>
        split
        · exact .reply _ _ _
        · obtain ⟨⟨r⟩, rfl, rfl⟩ := Option.bind_eq_some_iff.1 hroom
          exact .joined hc rfl rfl rfl ⟨_, _, _, rfl⟩

theorem handleLeaveRoom_effect (requestId : UInt64) {table : Option RoomRequest}
    (hc : Carries codec payload (.leaveRoom table)) :
    Effect codec svc session payload router
      (handleLeaveRoom svc session requestId table router) := by
  unfold handleLeaveRoom
  split
  · exact .reply _ _ _
  · next room hroom =>
      split
      · exact .reply _ _ _
      · obtain ⟨⟨r⟩, rfl, rfl⟩ := Option.bind_eq_some_iff.1 hroom
        exact .left hc rfl rfl rfl ⟨_, _, _, rfl⟩

theorem handlePublish_effect (requestId : UInt64) {table : Option Publish}
    (hc : Carries codec payload (.publish table)) :
    Effect codec svc session payload router
      (handlePublish svc session requestId table payload router) := by
  unfold handlePublish
  split
  · exact .reply _ _ _
  · next hauth =>
      split
      · exact .reply _ _ _
      · next hdomain =>
          simp only [Bool.not_eq_true', Bool.not_eq_false] at hauth hdomain
          -- a valid publication has a table, and the table has a room
          obtain ⟨publish, rfl⟩ : ∃ publish, table = some publish := by
            cases table with
            | none => simp [validateDomain] at hdomain
            | some publish => exact ⟨publish, rfl⟩
          obtain ⟨room, hroom, -⟩ := ((validateDomain_iff publish).1 hdomain).1
          simp only [Option.bind_some, hroom, Option.getD_some]
          split
          · next hok => exact .published hc hroom hauth hdomain hok rfl rfl
          · exact .reply _ _ _

/-- **What one message can do.** -/
theorem handle_effect (codec : Codec) (svc : Services) (session : SessionHandle)
    (payload : Bytes) (router : ProtocolRouter) :
    Effect codec svc session payload router (router.handle codec svc session payload) := by
  unfold handle
  by_cases hv : codec.verify payload = true
  · by_cases hver : (codec.getNetworkMessage payload).protocolVersion = protocolVersion
    · by_cases hm : (codec.getNetworkMessage payload).payload.isMissing = true
      · simp only [hv, hver, hm, Bool.not_true, Bool.false_eq_true, ne_eq, not_true_eq_false,
          if_false, if_true]
        exact .reply _ _ _
      · simp only [hv, hver, hm, Bool.not_true, Bool.false_eq_true, ne_eq, not_true_eq_false,
          if_false]
        cases hp : (codec.getNetworkMessage payload).payload with
        | none => exact .silent _
        | unknown tag present => exact .silent _
        | serverOnly kind present => exact .reply _ _ _
        | ping table =>
            cases table with
            | none => exact .silent _
            | some ping => exact .reply _ _ _
        | pong present => exact .silent _
        | authenticate table => exact handleAuthenticate_effect _ ⟨hv, hver, hp⟩
        | joinRoom table => exact handleJoinRoom_effect _ ⟨hv, hver, hp⟩
        | leaveRoom table => exact handleLeaveRoom_effect _ ⟨hv, hver, hp⟩
        | publish table => exact handlePublish_effect _ ⟨hv, hver, hp⟩
    · simp only [hv, hver, Bool.not_true, Bool.false_eq_true, ne_eq, not_false_eq_true, if_false,
        if_true]
      exact .reply _ _ _
  · simp only [hv, Bool.not_false, if_true]
    exact .silent _

end Effects

/-! ### The default room policy -/

/-- **Under the default policy a booking room admits exactly the principal it is named after.** -/
theorem authorizeRoom_booking (svc : Services) (hsvc : svc.roomAuthorizer = none)
    (router : ProtocolRouter) (session : SessionHandle) (x : Bytes) (publishing : Bool) :
    router.authorizeRoom svc session (bookingPrefix ++ x) publishing = true ↔
      router.principals session = some x := by
  have hpre : bookingPrefix.isPrefixOf (bookingPrefix ++ x) = true := by
    rw [List.isPrefixOf_iff_prefix]
    exact List.prefix_append _ _
  unfold authorizeRoom
  cases router.principals session with
  | none => simp
  | some principal =>
      simp only [hsvc, hpre, if_true, List.drop_left, beq_iff_eq, Option.some.injEq]
      exact eq_comm

end ProtocolRouter

end RealtimeEngine
