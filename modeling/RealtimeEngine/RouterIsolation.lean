/-
**Router isolation: what a message of one session does to the others.**

`RealtimeEngine/ProtocolRouter.lean` lists the effects a message can have.  Read from the outside
they say that sessions are isolated from each other: a message of `s` changes no principal and no
subscription but those of `s`, it changes those of `s` only in the three ways the protocol has for
it, and the one way it reaches another session is an accepted publication, which goes once to
every subscriber of its room and carries the very bytes that came in.

The router state is arbitrary here, reachable or not; a subscription is looked up in both indexes
of the registry.

* `RealtimeEngine.ProtocolRouter.subscribed` — the pair is in the indexes;
* `RealtimeEngine.ProtocolRouter.handle_isolated` — **the isolation theorem**.
-/

import RealtimeEngine.RouterAnswers

set_option relaxedAutoImplicit false
set_option autoImplicit false

namespace RealtimeEngine

namespace ProtocolRouter

/-! ### Subscriptions -/

/-- The pair of a session and a room, as the two indexes have it. -/
def subscribed (router : ProtocolRouter) (s : SessionHandle) (room : Room) : Bool × Bool :=
  ((router.rooms.snapshot room).contains s, (router.rooms.roomsOf s).contains room)

theorem subscribed_eq (router : ProtocolRouter) (s : SessionHandle) (room : Room) :
    router.subscribed s room =
      (decide (s ∈ router.rooms.snapshot room), decide (room ∈ router.rooms.roomsOf s)) := by
  rw [subscribed, List.contains_eq_mem, List.contains_eq_mem]

/-- A message with an effect on the principal of its sender is an accepted authentication. -/
theorem Effect.principal_changed {codec : Codec} {svc : Services} {s : SessionHandle}
    {payload : Bytes} {router : ProtocolRouter} {h : Handled}
    (he : Effect codec svc s payload router h) (hne : h.router.principals s ≠ router.principals s) :
    ∃ token principal authenticate,
      Carries codec payload (.authenticate (some ⟨some token⟩)) ∧
      svc.authenticator = some authenticate ∧ authenticate token = some principal ∧
      h.router.principals s = some principal := by
  cases he with
  | quiet hp => exact absurd (by rw [hp]) hne
  | @authenticated token principal hc _ ha hp =>
      obtain ⟨authenticate, hauth, htoken⟩ := ha
      exact ⟨token, principal, authenticate, hc, hauth, htoken, by rw [hp]; simp⟩
  | joined _ hp => exact absurd (by rw [hp]) hne
  | left _ hp => exact absurd (by rw [hp]) hne
  | published _ _ _ _ _ hr => exact absurd (by rw [hr]) hne

/-- No message changes the principal of another session. -/
theorem Effect.principal_other {codec : Codec} {svc : Services} {s : SessionHandle}
    {payload : Bytes} {router : ProtocolRouter} {h : Handled}
    (he : Effect codec svc s payload router h) {s' : SessionHandle} (hne : s' ≠ s) :
    h.router.principals s' = router.principals s' := by
  cases he with
  | quiet hp => rw [hp]
  | authenticated _ _ _ hp => rw [hp, Function.update_of_ne hne]
  | joined _ hp => rw [hp]
  | left _ hp => rw [hp]
  | published _ _ _ _ _ hr => rw [hr]

/-- A message with an effect on a subscription is an accepted join or leave of its sender for the
named room. -/
theorem Effect.subscription_changed {codec : Codec} {svc : Services} {s : SessionHandle}
    {payload : Bytes} {router : ProtocolRouter} {h : Handled}
    (he : Effect codec svc s payload router h) {s' : SessionHandle} {room : Room}
    (hne : h.router.subscribed s' room ≠ router.subscribed s' room) :
    s' = s ∧ ∃ out reason, h.sent = [(s, out)] ∧
      ((Carries codec payload (.joinRoom (some ⟨some room⟩)) ∧
          Answers out (.subscriptionAck room .join true reason) ∧
          h.router.subscribed s room = (true, true)) ∨
        (Carries codec payload (.leaveRoom (some ⟨some room⟩)) ∧
          Answers out (.subscriptionAck room .leave true reason) ∧
          h.router.subscribed s room = (false, false))) := by
  cases he with
  | quiet hp hr => exact absurd (by rw [subscribed, subscribed, hr]) hne
  | authenticated _ _ _ _ hr => exact absurd (by rw [subscribed, subscribed, hr]) hne
  | @joined room₀ out hc hp hr hs ho =>
      have hframe := RoomRegistry.join_frame (some (router.authorizeRoom svc)) s room₀
        router.rooms s' room
      by_cases hpair : (router.rooms.join (some (router.authorizeRoom svc)) s room₀).1 = .ok ∧
          s' = s ∧ room = room₀
      · obtain ⟨hok, rfl, rfl⟩ := hpair
        refine ⟨rfl, out, _, hs, Or.inl ⟨hc, by simpa [hok] using ho, ?_⟩⟩
        simp [subscribed_eq, hr, hframe, hok]
      · refine absurd ?_ hne
        simp only [subscribed_eq, hr, hframe, hpair, false_or]
  | @left room₀ out hc hp hr hs ho =>
      have hframe := RoomRegistry.leave_frame s room₀ router.rooms s' room
      by_cases hpair : (router.rooms.leave s room₀).1 = .ok ∧ s' = s ∧ room = room₀
      · obtain ⟨hok, rfl, rfl⟩ := hpair
        refine ⟨rfl, out, _, hs, Or.inr ⟨hc, by simpa [hok] using ho, ?_⟩⟩
        simp [subscribed_eq, hr, hframe, hok]
      · refine absurd ?_ hne
        simp only [subscribed_eq, hr, hframe, hpair, not_false_eq_true, true_and]
  | published _ _ _ _ _ hr => exact absurd (by rw [hr]) hne

/-- A message that sends something to another session is an accepted publication. -/
theorem Effect.sent_other {codec : Codec} {svc : Services} {s : SessionHandle}
    {payload : Bytes} {router : ProtocolRouter} {h : Handled}
    (he : Effect codec svc s payload router h) {s' : SessionHandle} {out : Outgoing}
    (hsent : (s', out) ∈ h.sent) (hne : s' ≠ s) :
    ∃ publish room, Carries codec payload (.publish (some publish)) ∧ publish.room = some room ∧
      router.isAuthenticated s = true ∧
      (Within 160 publish.room ∧ publish.message.WellFormed) ∧ isValidRoom room = true ∧
      router.authorizeRoom svc s room true = true ∧ room ∈ router.rooms.roomsOf s ∧
      (router.rooms.snapshot room).Nodup ∧
      h.sent = (router.rooms.snapshot room).map fun recipient => (recipient, .original payload) := by
  have hown : ToSender s h.sent → False := fun hs => hne (hs _ hsent).1
  cases he with
  | quiet _ _ hs => exact (hown hs).elim
  | authenticated _ _ _ _ _ hs => exact (hown hs).elim
  | joined _ _ _ hs ho =>
      rw [hs, List.mem_singleton, Prod.mk.injEq] at hsent
      exact absurd hsent.1 hne
  | left _ _ _ hs ho =>
      rw [hs, List.mem_singleton, Prod.mk.injEq] at hsent
      exact absurd hsent.1 hne
  | @published publish room hc hroom hauth hdomain hok hr hs =>
      obtain ⟨hvalid, hagree, hmem⟩ := (RoomRegistry.authorizePublish_ok_iff _ _ _ _).1 hok
      exact ⟨publish, room, hc, hroom, hauth, (validateDomain_iff publish).1 hdomain, hvalid,
        hagree, hmem, RoomRegistry.snapshot_nodup _ _, hs⟩

/-- A publication that meets every condition is forwarded. -/
theorem handle_forwards {codec : Codec} {svc : Services} {s : SessionHandle} {payload : Bytes}
    {router : ProtocolRouter} {publish : Publish} {room : Room}
    (hc : Carries codec payload (.publish (some publish))) (hroom : publish.room = some room)
    (hauth : router.isAuthenticated s = true)
    (hdomain : Within 160 publish.room ∧ publish.message.WellFormed)
    (hvalid : isValidRoom room = true) (hagree : router.authorizeRoom svc s room true = true)
    (hmem : room ∈ router.rooms.roomsOf s) :
    (router.handle codec svc s payload).sent =
      (router.rooms.snapshot room).map fun recipient => (recipient, .original payload) := by
  have hok : router.rooms.authorizePublish (some (router.authorizeRoom svc)) s
      (publish.room.getD []) = .ok := by
    rw [hroom]
    exact (RoomRegistry.authorizePublish_ok_iff _ _ _ _).2 ⟨hvalid, hagree, hmem⟩
  have hnone := (firstFailure_eq_none_iff svc s router publish).2
    ⟨hauth, (validateDomain_iff publish).2 hdomain, hok⟩
  obtain ⟨hverify, hversion, hbody⟩ := hc
  have hhandle : router.handle codec svc s payload = handlePublish svc s
      (codec.getNetworkMessage payload).requestId (some publish) payload router := by
    simp [handle, hverify, hversion, hbody, Payload.isMissing]
  rw [hhandle]
  cases handlePublish_outcome svc s (codec.getNetworkMessage payload).requestId publish payload
      router with
  | refused hfails _ _ =>
      rw [hnone] at hfails
      cases hfails
  | forwarded _ _ hsent _ =>
      rw [hsent, hroom]
      rfl

/-- **Router isolation.**  For every router state, session and buffer, one call of `Handle`

* changes no principal and no subscription of another session;
* changes the principal of its sender only for a version-1 `Authenticate` whose token the
  authenticator accepts;
* changes a subscription of its sender only for the room named by a `JoinRoom` or a `LeaveRoom`
  that is acknowledged as accepted, which it adds or removes;
* sends to another session only for a version-1 `Publish` of an authenticated, authorized and
  subscribed sender whose domain payload meets every condition, and for each such `Publish` sends
  the original bytes, exactly once, to every subscriber of the room. -/
theorem handle_isolated (codec : Codec) (svc : Services) (s : SessionHandle) (payload : Bytes)
    (router : ProtocolRouter) :
    let h := router.handle codec svc s payload
    (∀ s', s' ≠ s → h.router.principals s' = router.principals s' ∧
      ∀ room, h.router.subscribed s' room = router.subscribed s' room) ∧
    (h.router.principals s ≠ router.principals s →
      ∃ token principal authenticate,
        Carries codec payload (.authenticate (some ⟨some token⟩)) ∧
        svc.authenticator = some authenticate ∧ authenticate token = some principal ∧
        h.router.principals s = some principal) ∧
    (∀ room, h.router.subscribed s room ≠ router.subscribed s room →
      ∃ out reason, h.sent = [(s, out)] ∧
        ((Carries codec payload (.joinRoom (some ⟨some room⟩)) ∧
            Answers out (.subscriptionAck room .join true reason) ∧
            h.router.subscribed s room = (true, true)) ∨
          (Carries codec payload (.leaveRoom (some ⟨some room⟩)) ∧
            Answers out (.subscriptionAck room .leave true reason) ∧
            h.router.subscribed s room = (false, false)))) ∧
    (∀ s' out, (s', out) ∈ h.sent → s' ≠ s →
      ∃ publish room, Carries codec payload (.publish (some publish)) ∧
        publish.room = some room ∧ router.isAuthenticated s = true ∧
        (Within 160 publish.room ∧ publish.message.WellFormed) ∧ isValidRoom room = true ∧
        router.authorizeRoom svc s room true = true ∧ room ∈ router.rooms.roomsOf s ∧
        (router.rooms.snapshot room).Nodup ∧
        h.sent =
          (router.rooms.snapshot room).map fun recipient => (recipient, .original payload)) ∧
    (∀ publish room, Carries codec payload (.publish (some publish)) →
      publish.room = some room → router.isAuthenticated s = true →
      (Within 160 publish.room ∧ publish.message.WellFormed) → isValidRoom room = true →
      router.authorizeRoom svc s room true = true → room ∈ router.rooms.roomsOf s →
      (router.rooms.snapshot room).Nodup ∧
        h.sent =
          (router.rooms.snapshot room).map fun recipient => (recipient, .original payload)) := by
  intro h
  have he : Effect codec svc s payload router h := handle_effect codec svc s payload router
  refine ⟨?_, he.principal_changed, ?_, fun s' out => he.sent_other,
    fun publish room hc hroom hauth hdomain hvalid hagree hmem =>
      ⟨RoomRegistry.snapshot_nodup _ _,
        handle_forwards hc hroom hauth hdomain hvalid hagree hmem⟩⟩
  · intro s' hne
    refine ⟨he.principal_other hne, fun room => ?_⟩
    by_contra hc
    exact hne (he.subscription_changed hc).1
  · exact fun room hne => (he.subscription_changed hne).2

/-- A router on which two sessions are in a room. -/
def twoSubscribers : ProtocolRouter :=
  { allAuthenticated with
    rooms := ((RoomRegistry.empty.join none ⟨1, 1⟩ (ascii "match:1")).2.join none ⟨2, 2⟩
      (ascii "match:1")).2 }

/-- An alert of one of them is sent once to both. -/
theorem handle_isolated_alert :
    (twoSubscribers.handle (carrying (alert (ascii "match:1"))) ⟨none, none, 0⟩ ⟨1, 1⟩ [1]).sent =
      [(⟨2, 2⟩, .original [1]), (⟨1, 1⟩, .original [1])] := by
  have hdomain : validateDomain (some (alert (ascii "match:1"))) = true := by
    decide
  obtain ⟨-, -, -, -, hforwards⟩ := handle_isolated (carrying (alert (ascii "match:1")))
    ⟨none, none, 0⟩ ⟨1, 1⟩ [1] twoSubscribers
  obtain ⟨-, hsent⟩ := hforwards (alert (ascii "match:1")) (ascii "match:1") ⟨rfl, rfl, rfl⟩ rfl
    rfl ((validateDomain_iff _).1 hdomain) (by decide) (by decide) (by decide)
  rw [hsent]
  decide

end ProtocolRouter

end RealtimeEngine
