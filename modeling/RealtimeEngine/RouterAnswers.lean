/-
**What the sender of a message is told.**

`docs/protocol.md` says that malformed buffers, missing payloads, bad versions, invalid rooms,
unauthorized access and invalid publications produce an `ErrorResponse`.  `Handle` has some twenty
return statements; this module says of each what has been sent to the session that asked.  Two of
them return `Malformed` and have sent nothing (`RealtimeEngine.ProtocolRouter.handle_answered_iff`),
and the branch for a refused publication has one code for every refusal but one, so that an invalid
room is reported as `NOT_SUBSCRIBED`, with the text "invalid room"
(`RealtimeEngine.ProtocolRouter.publish_error_iff`).

Main definitions:

* `RealtimeEngine.Handled.Replies` — one message to the sender, and nothing else;
* `RealtimeEngine.ProtocolRouter.AcceptedPublish` — the publications that are forwarded;
* `RealtimeEngine.ProtocolRouter.Answered` — every request is answered;
* `RealtimeEngine.ProtocolRouter.firstFailure` — the checks on a publication and the code of each,
  in their order.

Main results:

* `RealtimeEngine.ProtocolRouter.handle_answered_iff` — **exactly which inputs are answered**;
* `RealtimeEngine.ProtocolRouter.publish_error_iff` — **exactly when the code sent for a publication
  names the first check that failed**.
-/

import RealtimeEngine.ProtocolRouter

set_option relaxedAutoImplicit false
set_option autoImplicit false

namespace RealtimeEngine

/-! ### Replies -/

/-- One message built by the router goes to the sender, with this reply in it, and nothing else is
sent. -/
def Handled.Replies (session : SessionHandle) (body : Reply) (h : Handled) : Prop :=
  ∃ out, h.sent = [(session, out)] ∧ ProtocolRouter.Answers out body

/-- The sender gets an `ErrorResponse`. -/
def Handled.RepliesError (session : SessionHandle) (code : ErrorCode) (h : Handled) : Prop :=
  ∃ text requestId, h.Replies session (.errorResponse code text requestId)

/-- The sender gets one reply, and an `ErrorResponse` where the verdict is `Malformed`. -/
structure Handled.Told (session : SessionHandle) (h : Handled) : Prop where
  reply : ∃ body, h.Replies session body
  malformed : h.disposition = .malformed → ∃ code, h.RepliesError session code

namespace ProtocolRouter

section Told

variable (svc : Services) (session : SessionHandle) (requestId : UInt64) (router : ProtocolRouter)

theorem replies_reply (body : Reply) (disposition : MessageDisposition) :
    (router.reply svc session requestId body disposition).Replies session body :=
  ⟨_, rfl, _, _, _, rfl⟩

theorem repliesError_sendError (code : ErrorCode) (text : String)
    (disposition : MessageDisposition) :
    (router.sendError svc session requestId code text disposition).RepliesError session code :=
  ⟨text, requestId, replies_reply svc session 0 router _ disposition⟩

/-- A reply with the verdict `Accepted` tells the sender. -/
theorem told_reply (body : Reply) :
    (router.reply svc session requestId body .accepted).Told session where
  reply := ⟨body, replies_reply svc session requestId router body .accepted⟩
  malformed h := by simp [ProtocolRouter.reply] at h

/-- An error tells the sender, whatever the verdict. -/
theorem told_sendError (code : ErrorCode) (text : String) (disposition : MessageDisposition) :
    (router.sendError svc session requestId code text disposition).Told session where
  reply := ⟨_, replies_reply svc session 0 router _ disposition⟩
  malformed _ := ⟨code, repliesError_sendError svc session requestId router code text disposition⟩

theorem told_handleAuthenticate (table : Option Authenticate) :
    (handleAuthenticate svc session requestId table router).Told session := by
  unfold handleAuthenticate
  split
  · exact told_sendError _ _ _ _ _ _ _
  · split
    · exact told_sendError _ _ _ _ _ _ _
    · split
      · exact told_reply _ _ _ _ _
      · exact told_reply _ _ _ _ _

theorem told_handleJoinRoom (table : Option RoomRequest) :
    (handleJoinRoom svc session requestId table router).Told session := by
  unfold handleJoinRoom
  split
  · exact told_sendError _ _ _ _ _ _ _
  · split
    · exact told_sendError _ _ _ _ _ _ _
    · split
      · exact told_sendError _ _ _ _ _ _ _
      · exact told_reply _ _ _ _ _

theorem told_handleLeaveRoom (table : Option RoomRequest) :
    (handleLeaveRoom svc session requestId table router).Told session := by
  unfold handleLeaveRoom
  split
  · exact told_sendError _ _ _ _ _ _ _
  · split
    · exact told_sendError _ _ _ _ _ _ _
    · exact told_reply _ _ _ _ _

end Told

/-! ### Publications -/

/-- A publication that passes every check: the session is authenticated, the payload is valid, and
the registry lets the session publish in the room. -/
structure AcceptedPublish (codec : Codec) (svc : Services) (session : SessionHandle)
    (payload : Bytes) (router : ProtocolRouter) (room : Room) : Prop where
  carries : ∃ publish, Carries codec payload (.publish (some publish)) ∧
    publish.room = some room ∧ validateDomain (some publish) = true
  authenticated : router.isAuthenticated session = true
  authorized : router.rooms.authorizePublish (some (router.authorizeRoom svc)) session room = .ok

/-- The original bytes, for every subscriber of the room. -/
def broadcast (router : ProtocolRouter) (room : Room) (payload : Bytes) :
    List (SessionHandle × Outgoing) :=
  (router.rooms.snapshot room).map fun recipient => (recipient, .original payload)

/-- The checks on a publication, in their order, with the code of each. -/
def firstFailure (svc : Services) (session : SessionHandle) (router : ProtocolRouter)
    (publish : Publish) : Option ErrorCode :=
  let room := publish.room.getD []
  if !router.isAuthenticated session then some .unauthorized
  else if !validateDomain (some publish) then some .malformedMessage
  else if !isValidRoom room then some .invalidRoom
  else if !router.authorizeRoom svc session room true then some .forbidden
  else if !(router.rooms.roomsOf session).contains room then some .notSubscribed
  else none

/-- No check fails exactly when the session is authenticated, the payload is valid and the registry
answers `Ok`. -/
theorem firstFailure_eq_none_iff (svc : Services) (session : SessionHandle)
    (router : ProtocolRouter) (publish : Publish) :
    firstFailure svc session router publish = none ↔
      router.isAuthenticated session = true ∧ validateDomain (some publish) = true ∧
        router.rooms.authorizePublish (some (router.authorizeRoom svc)) session
          (publish.room.getD []) = .ok := by
  rw [RoomRegistry.authorizePublish_ok_iff, authorizes]
  simp only [firstFailure]
  cases router.isAuthenticated session with
  | false => simp
  | true =>
      cases validateDomain (some publish) with
      | false => simp
      | true =>
          cases isValidRoom (publish.room.getD []) with
          | false => simp
          | true => cases router.authorizeRoom svc session (publish.room.getD []) true <;> simp

/-- What the branch for refused publications sends: it knows `Unauthorized`, and everything else is
`NOT_SUBSCRIBED` to it. -/
def reportedAs : ErrorCode → ErrorCode
  | .invalidRoom => .notSubscribed
  | code => code

/-- What a publication does, told by its checks: the code of the first that fails is sent as it is
reported, and without a failure the publication is forwarded. -/
inductive PublishOutcome (svc : Services) (session : SessionHandle) (payload : Bytes)
    (router : ProtocolRouter) (publish : Publish) (h : Handled) : Prop
  | refused {code : ErrorCode} (hf : firstFailure svc session router publish = some code)
      (hcode : h.RepliesError session (reportedAs code)) (htold : h.Told session)
  | forwarded (hf : firstFailure svc session router publish = none)
      (hok : router.rooms.authorizePublish (some (router.authorizeRoom svc)) session
        (publish.room.getD []) = .ok)
      (hs : h.sent = router.broadcast (publish.room.getD []) payload)
      (hd : h.disposition = .accepted)

theorem handlePublish_outcome (svc : Services) (session : SessionHandle) (requestId : UInt64)
    (publish : Publish) (payload : Bytes) (router : ProtocolRouter) :
    PublishOutcome svc session payload router publish
      (handlePublish svc session requestId (some publish) payload router) := by
  -- a refusal with one of the codes of `send_error`
  have refuse : ∀ (code : ErrorCode) (text : String) (disposition : MessageDisposition),
      firstFailure svc session router publish = some code →
      PublishOutcome svc session payload router publish
        (router.sendError svc session requestId (reportedAs code) text disposition) :=
    fun _ text disposition hf => .refused hf (repliesError_sendError _ _ _ _ _ _ _)
      (told_sendError _ _ _ _ _ _ _)
  unfold handlePublish
  by_cases hauth : router.isAuthenticated session = true
  · by_cases hdomain : validateDomain (some publish) = true
    · simp only [hauth, hdomain, Bool.not_true, Bool.false_eq_true, if_false, Option.bind_some]
      by_cases hvalid : isValidRoom (publish.room.getD []) = true
      · by_cases hagree : router.authorizeRoom svc session (publish.room.getD []) true = true
        · by_cases hmem : publish.room.getD [] ∈ router.rooms.roomsOf session
          · have hok : router.rooms.authorizePublish (some (router.authorizeRoom svc)) session
                (publish.room.getD []) = .ok := by
              simp [RoomRegistry.authorizePublish_checks, hvalid, hagree, hmem]
            simp only [hok]
            exact .forwarded (by simp [firstFailure, hauth, hdomain, hvalid, hagree, hmem]) hok
              rfl rfl
          · simp only [RoomRegistry.authorizePublish_checks, hvalid, hagree, hmem, Bool.not_true,
              Bool.false_eq_true, if_false, reduceCtorEq]
            exact refuse .notSubscribed _ _
              (by simp [firstFailure, hauth, hdomain, hvalid, hagree, hmem])
        · simp only [RoomRegistry.authorizePublish_checks, hvalid, hagree, Bool.not_true,
            Bool.not_false, Bool.false_eq_true, if_false, if_true]
          exact refuse .forbidden _ _
            (by simp [firstFailure, hauth, hdomain, hvalid, hagree])
      · simp only [RoomRegistry.authorizePublish_checks, hvalid, Bool.not_false, if_true,
          reduceCtorEq, if_false]
        exact refuse .invalidRoom _ _ (by simp [firstFailure, hauth, hdomain, hvalid])
    · simp only [hauth, hdomain, Bool.not_true, Bool.not_false, Bool.false_eq_true, if_false,
        if_true]
      exact refuse .malformedMessage _ _ (by simp [firstFailure, hauth, hdomain])
  · simp only [hauth, Bool.not_false, if_true]
    exact refuse .unauthorized _ _ (by simp [firstFailure, hauth])

/-! ### Every request is answered -/

section Answered

variable (codec : Codec) (svc : Services) (session : SessionHandle) (payload : Bytes)
  (router : ProtocolRouter)

/-- Every request is answered: a version-1 `Pong` gets nothing, an accepted publication nothing but
the broadcast, everything else exactly one reply to the sender, and what is called `Malformed` an
`ErrorResponse`. -/
structure Answered (h : Handled) : Prop where
  pong : Carries codec payload (.pong true) → h.sent = []
  published : ∀ room, AcceptedPublish codec svc session payload router room →
    h.sent = router.broadcast room payload
  replied : ¬ Carries codec payload (.pong true) →
    (∀ room, ¬ AcceptedPublish codec svc session payload router room) →
    ∃ body, h.Replies session body
  malformed : h.disposition = .malformed → ∃ code, h.RepliesError session code

/-- The buffer verifies, and a version-1 message carries no payload of a type outside the schema. -/
def Understood : Prop :=
  codec.verify payload = true ∧ ∀ tag, ¬ Carries codec payload (.unknown tag true)

variable {codec svc session payload router}

/-- A message carries one payload. -/
theorem Carries.unique {body body' : Payload} (h : Carries codec payload body)
    (h' : Carries codec payload body') : body = body' :=
  h.2.2.symm.trans h'.2.2

/-- A sender that is told is answered, if the message is neither a `Pong` nor forwarded. -/
theorem answered_of_told {h : Handled} (ht : h.Told session)
    (hpong : ¬ Carries codec payload (.pong true))
    (hpublish : ∀ room, ¬ AcceptedPublish codec svc session payload router room) :
    Answered codec svc session payload router h where
  pong hc := absurd hc hpong
  published room hp := absurd hp (hpublish room)
  replied _ _ := ht.reply
  malformed := ht.malformed

/-- A sender that is told is answered, if the message carries another payload. -/
theorem answered_of_carries {h : Handled} (ht : h.Told session) {body : Payload}
    (hc : Carries codec payload body) (hpong : body ≠ .pong true)
    (hpublish : ∀ publish, body ≠ .publish (some publish)) :
    Answered codec svc session payload router h := by
  refine answered_of_told ht (fun h' => hpong (hc.unique h')) fun room hp => ?_
  obtain ⟨publish, hc', -⟩ := hp.carries
  exact hpublish publish (hc.unique hc')

/-- A verdict `Malformed` without a reply answers nobody. -/
theorem not_answered_silent :
    ¬ Answered codec svc session payload router ⟨.malformed, router, []⟩ := by
  intro h
  obtain ⟨code, text, requestId, out, hs, -⟩ := h.malformed rfl
  cases hs

/-- The accepted publications are those that fail no check. -/
theorem acceptedPublish_iff {publish : Publish}
    (hc : Carries codec payload (.publish (some publish))) (room : Room) :
    AcceptedPublish codec svc session payload router room ↔
      publish.room = some room ∧ firstFailure svc session router publish = none := by
  rw [firstFailure_eq_none_iff]
  constructor
  · rintro ⟨⟨publish', hc', hroom, hdomain⟩, hauth, hok⟩
    obtain rfl : publish = publish' := by
      injection hc.unique hc' with hsome
      exact Option.some.inj hsome
    exact ⟨hroom, hauth, hdomain, by rwa [hroom]⟩
  · rintro ⟨hroom, hauth, hdomain, hok⟩
    exact ⟨⟨publish, hc, hroom, hdomain⟩, hauth, by rwa [hroom] at hok⟩

/-- A publication is answered: by the code of the check that failed, or by the broadcast. -/
theorem answered_of_outcome {publish : Publish} {h : Handled}
    (hc : Carries codec payload (.publish (some publish)))
    (ho : PublishOutcome svc session payload router publish h) :
    Answered codec svc session payload router h := by
  have hpong : ¬ Carries codec payload (.pong true) := fun h' => by cases hc.unique h'
  cases ho with
  | refused hf _ htold =>
      refine answered_of_told htold hpong fun room hp => ?_
      rw [((acceptedPublish_iff hc room).1 hp).2] at hf
      cases hf
  | forwarded hf _ hs hd =>
      refine ⟨fun h' => absurd h' hpong, fun room hp => ?_, fun _ hnone => ?_, fun hm => ?_⟩
      · rw [hs, ((acceptedPublish_iff hc room).1 hp).1, Option.getD_some]
      · have hdomain := ((firstFailure_eq_none_iff svc session router publish).1 hf).2.1
        obtain ⟨room, hroom, -⟩ := ((validateDomain_iff publish).1 hdomain).1
        exact absurd ((acceptedPublish_iff hc room).2 ⟨hroom, hf⟩) (hnone room)
      · rw [hd] at hm
        cases hm

end Answered

/-- **Every request is answered, except a buffer that fails verification and a version-1 message
with a payload type outside the schema.** -/
theorem handle_answered_iff (codec : Codec) (svc : Services) (session : SessionHandle)
    (payload : Bytes) (router : ProtocolRouter) :
    Answered codec svc session payload router (router.handle codec svc session payload) ↔
      Understood codec payload := by
  unfold handle
  by_cases hv : codec.verify payload = true
  · by_cases hver : (codec.getNetworkMessage payload).protocolVersion = protocolVersion
    · have carries : ∀ {body}, (codec.getNetworkMessage payload).payload = body →
          Carries codec payload body := fun hb => ⟨hv, hver, hb⟩
      -- outside the silent branch the sender is told, and the message is understood
      have told : ∀ {h : Handled} {body : Payload}, h.Told session →
          (codec.getNetworkMessage payload).payload = body → body ≠ .pong true →
          (∀ publish, body ≠ .publish (some publish)) → (∀ tag, body ≠ .unknown tag true) →
          (Answered codec svc session payload router h ↔ Understood codec payload) :=
        fun ht hb hpong hpublish hunknown => iff_of_true
          (answered_of_carries ht (carries hb) hpong hpublish)
          ⟨hv, fun tag hc => hunknown tag ((carries hb).unique hc)⟩
      by_cases hm : (codec.getNetworkMessage payload).payload.isMissing = true
      · simp only [hv, hver, hm, Bool.not_true, Bool.false_eq_true, ne_eq, not_true_eq_false,
          if_false, if_true]
        refine told (told_sendError _ _ _ _ _ _ _) rfl ?_ ?_ ?_
        · intro hb
          simp [hb, Payload.isMissing] at hm
        · intro publish hb
          simp [hb, Payload.isMissing] at hm
        · intro tag hb
          simp [hb, Payload.isMissing] at hm
      · simp only [hv, hver, hm, Bool.not_true, Bool.false_eq_true, ne_eq, not_true_eq_false,
          if_false]
        cases hp : (codec.getNetworkMessage payload).payload with
        | none => simp [hp, Payload.isMissing] at hm
        | unknown tag present =>
            -- the switch has no case for the tag: `Malformed`, and nothing is sent
            obtain rfl : present = true := by simpa [hp, Payload.isMissing] using hm
            exact iff_of_false not_answered_silent fun h => h.2 tag (carries hp)
        | serverOnly kind present =>
            exact told (told_sendError _ _ _ _ _ _ _) hp (by simp) (by simp) (by simp)
        | ping table =>
            cases table with
            | none => simp [hp, Payload.isMissing] at hm
            | some ping => exact told (told_reply _ _ _ _ _) hp (by simp) (by simp) (by simp)
        | pong present =>
            obtain rfl : present = true := by simpa [hp, Payload.isMissing] using hm
            refine iff_of_true ⟨fun _ => rfl, fun room h => ?_, fun h => ?_, fun h => ?_⟩
              ⟨hv, fun tag hc => ?_⟩
            · obtain ⟨publish, hc, -⟩ := h.carries
              cases (carries hp).unique hc
            · exact absurd (carries hp) h
            · cases h
            · cases (carries hp).unique hc
        | authenticate table =>
            exact told (told_handleAuthenticate _ _ _ _ _) hp (by simp) (by simp) (by simp)
        | joinRoom table =>
            exact told (told_handleJoinRoom _ _ _ _ _) hp (by simp) (by simp) (by simp)
        | leaveRoom table =>
            exact told (told_handleLeaveRoom _ _ _ _ _) hp (by simp) (by simp) (by simp)
        | publish table =>
            cases table with
            | none => simp [hp, Payload.isMissing] at hm
            | some publish =>
                refine iff_of_true (answered_of_outcome (carries hp)
                  (handlePublish_outcome _ _ _ _ _ _)) ⟨hv, fun tag hc => ?_⟩
                cases (carries hp).unique hc
    · -- another version: an error, whatever the payload is
      simp only [hv, hver, Bool.not_true, Bool.false_eq_true, ne_eq, not_false_eq_true, if_false,
        if_true]
      refine iff_of_true (answered_of_told (told_sendError _ _ _ _ _ _ _)
        (fun h => hver h.2.1) fun room h => ?_) ⟨hv, fun tag hc => hver hc.2.1⟩
      obtain ⟨publish, hc, -⟩ := h.carries
      exact hver hc.2.1
  · simp only [hv, Bool.not_false, if_true]
    exact iff_of_false not_answered_silent fun h => hv h.1

/-- A buffer that fails verification is called `Malformed`, and its sender is told nothing. -/
theorem unverified_unanswered :
    ¬ Answered ⟨fun _ => false, fun _ => ⟨1, 0, .none⟩⟩ ⟨none, none, 0⟩ ⟨1, 1⟩ [0xde, 0xad] fresh
      (fresh.handle ⟨fun _ => false, fun _ => ⟨1, 0, .none⟩⟩ ⟨none, none, 0⟩ ⟨1, 1⟩
        [0xde, 0xad]) := by
  intro h
  obtain ⟨code, text, requestId, out, hs, -⟩ := h.malformed rfl
  cases hs

/-! ### The code of a refused publication -/

/-- Some message built by the router in what was sent is an `ErrorResponse`. -/
def Handled.SendsError (h : Handled) : Prop :=
  ∃ s ∈ h.sent, ∃ code text requestId, Answers s.2 (.errorResponse code text requestId)

/-- The sender of a publication is told the code of the first check that failed, and then nothing
else is sent; if none failed, no error is sent, and the publication goes to the subscribers. -/
def NamesFirstFailure (svc : Services) (session : SessionHandle) (payload : Bytes)
    (router : ProtocolRouter) (publish : Publish) (h : Handled) : Prop :=
  match firstFailure svc session router publish with
  | some code => h.RepliesError session code
  | none => ¬ Handled.SendsError h ∧ h.sent = router.broadcast (publish.room.getD []) payload

/-- An error carries one code. -/
theorem repliesError_unique {session : SessionHandle} {h : Handled} {code code' : ErrorCode}
    (h₁ : h.RepliesError session code) (h₂ : h.RepliesError session code') : code = code' := by
  obtain ⟨text, requestId, out, hs, a, b, c, rfl⟩ := h₁
  obtain ⟨text', requestId', out', hs', a', b', c', rfl⟩ := h₂
  rw [hs] at hs'
  simp only [List.cons.injEq, Prod.mk.injEq, Outgoing.built.injEq, Reply.errorResponse.injEq,
    and_true, true_and] at hs'
  exact hs'.2.2.2.1

/-- A broadcast consists of the original bytes. -/
theorem not_sendsError_broadcast {router : ProtocolRouter} {room : Room} {payload : Bytes}
    {h : Handled} (hs : h.sent = router.broadcast room payload) : ¬ Handled.SendsError h := by
  rintro ⟨s, hmem, code, text, requestId, a, b, c, hout⟩
  rw [hs, broadcast] at hmem
  obtain ⟨recipient, -, rfl⟩ := List.mem_map.1 hmem
  cases hout

/-- The first failing check is the one on the room name. -/
theorem firstFailure_eq_invalidRoom_iff (svc : Services) (session : SessionHandle)
    (router : ProtocolRouter) (publish : Publish) :
    firstFailure svc session router publish = some .invalidRoom ↔
      router.isAuthenticated session = true ∧ validateDomain (some publish) = true ∧
        isValidRoom (publish.room.getD []) = false := by
  simp only [firstFailure]
  cases router.isAuthenticated session with
  | false => simp
  | true =>
      cases validateDomain (some publish) with
      | false => simp
      | true =>
          cases isValidRoom (publish.room.getD []) with
          | false => simp
          | true =>
              cases router.authorizeRoom svc session (publish.room.getD []) true with
              | false => simp
              | true => by_cases h : publish.room.getD [] ∈ router.rooms.roomsOf session <;> simp [h]

/-- **The code sent for a publication names the first check that failed, except for a room that is
short enough for `ValidateDomain` and no room to `IsValidRoom`.** -/
theorem publish_error_iff (codec : Codec) (svc : Services) (session : SessionHandle)
    (payload : Bytes) (router : ProtocolRouter) (publish : Publish)
    (hc : Carries codec payload (.publish (some publish))) :
    NamesFirstFailure svc session payload router publish
        (router.handle codec svc session payload) ↔
      ¬ (router.isAuthenticated session = true ∧ validateDomain (some publish) = true ∧
        isValidRoom (publish.room.getD []) = false) := by
  rw [← firstFailure_eq_invalidRoom_iff svc]
  have ho : PublishOutcome svc session payload router publish
      (router.handle codec svc session payload) := by
    have h := handlePublish_outcome svc session (codec.getNetworkMessage payload).requestId
      publish payload router
    obtain ⟨hv, hver, hp⟩ := hc
    simpa [handle, hv, hver, hp, Payload.isMissing] using h
  cases ho with
  | @refused code hf hcode =>
      simp only [NamesFirstFailure, hf, Option.some.injEq]
      constructor
      · -- the code that was sent is the reported one
        rintro hnamed rfl
        cases repliesError_unique hnamed hcode
      · intro hne
        cases code <;> first | exact hcode | exact absurd rfl hne
  | forwarded hf _ hs hd =>
      simp only [NamesFirstFailure, hf, reduceCtorEq, not_false_eq_true, iff_true]
      exact ⟨not_sendsError_broadcast hs, hs⟩

/-- An alert for this room. -/
def alert (room : Room) : Publish := ⟨some room, .systemAlert (some ⟨some (ascii "hi")⟩)⟩

/-- Buffers that all verify and carry this publication. -/
def carrying (publish : Publish) : Codec :=
  ⟨fun _ => true, fun _ => ⟨protocolVersion, 7, .publish (some publish)⟩⟩

/-- A router on which every session is authenticated and none is in a room. -/
def allAuthenticated : ProtocolRouter := ⟨fun _ => some (ascii "ann"), RoomRegistry.empty, 1⟩

/-- A publication in a room that the session has not joined. -/
theorem publish_error_iff_notSubscribed :
    Carries (carrying (alert (ascii "match:1"))) [1]
        (.publish (some (alert (ascii "match:1")))) ∧
      NamesFirstFailure ⟨none, none, 0⟩ ⟨1, 1⟩ [1] allAuthenticated (alert (ascii "match:1"))
        (allAuthenticated.handle (carrying (alert (ascii "match:1"))) ⟨none, none, 0⟩ ⟨1, 1⟩
          [1]) := by
  refine ⟨⟨rfl, rfl, rfl⟩, (publish_error_iff _ _ _ _ _ _ ⟨rfl, rfl, rfl⟩).2 fun h => ?_⟩
  have hvalid : isValidRoom (ascii "match:1") = true := by decide
  rw [alert, Option.getD_some, hvalid] at h
  cases h.2.2

/-- A publication in the room `lobby`, which is no room: the first failing check is the one on the
room name, and the code that is sent is `NOT_SUBSCRIBED`. -/
theorem lobby_notSubscribed :
    ¬ NamesFirstFailure ⟨none, none, 0⟩ ⟨1, 1⟩ [1] allAuthenticated
        (alert (ascii "lobby"))
        (allAuthenticated.handle (carrying (alert (ascii "lobby"))) ⟨none, none, 0⟩ ⟨1, 1⟩
          [1]) := by
  have hfirst : firstFailure ⟨none, none, 0⟩ ⟨1, 1⟩ allAuthenticated (alert (ascii "lobby")) =
      some .invalidRoom := by
    decide
  have hsent : (allAuthenticated.handle (carrying (alert (ascii "lobby"))) ⟨none, none, 0⟩ ⟨1, 1⟩
      [1]).RepliesError ⟨1, 1⟩ .notSubscribed := ⟨"invalid room", 7, _, rfl, 0, 1, 0, rfl⟩
  rw [NamesFirstFailure, hfirst]
  intro h
  cases repliesError_unique h hsent

end ProtocolRouter

end RealtimeEngine
