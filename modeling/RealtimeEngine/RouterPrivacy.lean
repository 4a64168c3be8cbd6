/-
**Private booking rooms, and when they stay private.**

Under the default room policy a session is let into `booking:user:x` only while its principal is
`x`.  The check is made when the session joins and when it publishes; the principal itself can be
replaced later by another `Authenticate` message, and nothing then looks at the rooms the session
is in.  So the invariant "whoever is in `booking:user:x` is authenticated as `x`" does not hold of
every run (`RealtimeEngine.ProtocolRouter.reauthentication_breaks_privacy`), and it holds of
exactly the runs in which no accepted authentication changes the identity of a session that sits
in a booking room of another name (`RealtimeEngine.ProtocolRouter.booking_private_iff`).

Main definitions:

* `RealtimeEngine.ProtocolRouter.Call`, `RealtimeEngine.ProtocolRouter.step`,
  `RealtimeEngine.ProtocolRouter.run` — calls under the default policy, one after the other;
* `RealtimeEngine.ProtocolRouter.BookingPrivate` — the invariant, with what it says about
  publications;
* `RealtimeEngine.ProtocolRouter.KeepsIdentity` — the condition on a call.

Main results:

* `RealtimeEngine.ProtocolRouter.step_wellFormed` — calls keep the registry well-formed;
* `RealtimeEngine.ProtocolRouter.step_members` — a call that keeps identities keeps the invariant;
* `RealtimeEngine.ProtocolRouter.booking_private_iff` — **the exact condition**.
-/

import RealtimeEngine.RouterIsolation

set_option relaxedAutoImplicit false
set_option autoImplicit false

namespace RealtimeEngine

namespace ProtocolRouter

/-! ### Runs under the default policy -/

/-- A call on the router.  `Handle` carries the authenticator it consults and the time. -/
inductive Call
  | handle (authenticator : Option (Bytes → Option Bytes)) (unixTimeMs : UInt64)
      (session : SessionHandle) (payload : Bytes)
  | onDisconnect (session : SessionHandle)

/-- The services of a call under the default room policy. -/
def defaultPolicy (authenticator : Option (Bytes → Option Bytes)) (unixTimeMs : UInt64) :
    Services :=
  ⟨authenticator, none, unixTimeMs⟩

/-- The router after a call. -/
def step (codec : Codec) (router : ProtocolRouter) : Call → ProtocolRouter
  | .handle authenticator now s payload =>
      (router.handle codec (defaultPolicy authenticator now) s payload).router
  | .onDisconnect s => router.onDisconnect s

/-- The router after a list of calls. -/
def run (codec : Codec) (calls : List Call) (router : ProtocolRouter) : ProtocolRouter :=
  calls.foldl (step codec) router

/-- Whoever is in `booking:user:x` is authenticated as `x`. -/
def MembersMatch (router : ProtocolRouter) : Prop :=
  ∀ s x, s ∈ router.rooms.snapshot (bookingPrefix ++ x) → router.principals s = some x

/-- A publication to `booking:user:x` is forwarded only to sessions authenticated as `x`. -/
def ForwardsMatch (codec : Codec) (router : ProtocolRouter) : Prop :=
  ∀ authenticator now s payload publish x,
    Carries codec payload (.publish (some publish)) → publish.room = some (bookingPrefix ++ x) →
    ∀ s', (s', Outgoing.original payload) ∈
      (router.handle codec (defaultPolicy authenticator now) s payload).sent →
      router.principals s' = some x

/-- **Booking rooms are private**: their members and the receivers of their publications are
authenticated under the name of the room. -/
def BookingPrivate (codec : Codec) (router : ProtocolRouter) : Prop :=
  router.MembersMatch ∧ router.ForwardsMatch codec

/-- The condition on a call: an `Authenticate` that the authenticator accepts gives the session
the name of every booking room it is in. -/
def KeepsIdentity (codec : Codec) (router : ProtocolRouter) : Call → Prop
  | .handle authenticator _ s payload =>
      ∀ token principal, Carries codec payload (.authenticate (some ⟨some token⟩)) →
        Within maxTextLength (some token) →
        authenticator.bind (fun authenticate => authenticate token) = some principal →
        ∀ x, s ∈ router.rooms.snapshot (bookingPrefix ++ x) → principal = x
  | .onDisconnect _ => True

/-- Every call of a run keeps identities in the state it is made in. -/
def AllKeepIdentity (codec : Codec) : ProtocolRouter → List Call → Prop
  | _, [] => True
  | router, call :: calls =>
      router.KeepsIdentity codec call ∧ AllKeepIdentity codec (router.step codec call) calls

/-! ### One call -/

/-- Calls keep the registry well-formed. -/
theorem step_wellFormed {codec : Codec} {router : ProtocolRouter} (h : router.rooms.WellFormed)
    (call : Call) : (router.step codec call).rooms.WellFormed := by
  cases call with
  | handle authenticator now s payload =>
      have he := handle_effect codec (defaultPolicy authenticator now) s payload router
      rw [step]
      cases he with
      | quiet _ hr => rwa [hr]
      | authenticated _ _ _ _ hr => rwa [hr]
      | joined _ _ hr => rw [hr]; exact h.join _ _ _
      | left _ _ hr => rw [hr]; exact h.leave _ _
      | published _ _ _ _ _ hr => rwa [hr]
  | onDisconnect s => exact h.removeSession s

/-- An accepted `Authenticate` stores the principal and leaves the rooms alone. -/
theorem handle_authenticated (router : ProtocolRouter) (now : UInt64) (s : SessionHandle)
    {codec : Codec} {authenticator : Option (Bytes → Option Bytes)}
    {payload token principal : Bytes}
    (hc : Carries codec payload (.authenticate (some ⟨some token⟩)))
    (hw : Within maxTextLength (some token))
    (ha : authenticator.bind (fun authenticate => authenticate token) = some principal) :
    let h := router.handle codec (defaultPolicy authenticator now) s payload
    h.router.principals s = some principal ∧ h.router.rooms = router.rooms := by
  obtain ⟨hv, hver, hp⟩ := hc
  have hvalid : validString (some token) maxTextLength = true := (validString_iff _ _).2 hw
  simp [handle, hv, hver, hp, Payload.isMissing, handleAuthenticate, defaultPolicy, hvalid, ha,
    reply]

/-- **A call that keeps identities keeps the members matching.** -/
theorem step_members {codec : Codec} {router : ProtocolRouter} (hwf : router.rooms.WellFormed)
    (h : router.MembersMatch) {call : Call} (hk : router.KeepsIdentity codec call) :
    (router.step codec call).MembersMatch := by
  intro s' x hmem
  cases call with
  | handle authenticator now s payload =>
      have he := handle_effect codec (defaultPolicy authenticator now) s payload router
      rw [step] at hmem ⊢
      cases he with
      | quiet hp hr =>
          rw [hr] at hmem
          rw [hp]
          exact h s' x hmem
      | @authenticated token principal hc hw ha hp hr hs =>
          rw [hr] at hmem
          rw [hp]
          by_cases hs' : s' = s
          · subst hs'
            have hx := hk token principal hc hw (Option.bind_eq_some_iff.2 ha) x hmem
            simp [hx]
          · rw [Function.update_of_ne hs']
            exact h s' x hmem
      | @joined room out hc hp hr hs ho =>
          rw [hr, (RoomRegistry.join_frame _ _ _ _ _ _).1] at hmem
          rw [hp]
          rcases hmem with ⟨hok, rfl, rfl⟩ | hmem
          · -- the default policy has just compared the name of the room with the principal
            have hadmits := ((RoomRegistry.join_ok_iff _ _ _ _).1 hok).1
            exact (authorizeRoom_booking (defaultPolicy authenticator now) rfl router s' x false).1
              hadmits.2
          · exact h s' x hmem
      | left _ hp hr =>
          rw [hr, (RoomRegistry.leave_frame _ _ _ _ _).1] at hmem
          rw [hp]
          exact h s' x hmem.2
      | published _ _ _ _ _ hr =>
          rw [hr] at hmem ⊢
          exact h s' x hmem
  | onDisconnect s =>
      obtain ⟨hne, hmem⟩ := (RoomRegistry.mem_snapshot_removeSession hwf.inverse s' _).1 hmem
      simp only [step, onDisconnect, Function.update_of_ne hne]
      exact h s' x hmem

/-- A call that does not keep identities leaves a member under another name. -/
theorem keepsIdentity_of_members {codec : Codec} {router : ProtocolRouter} {call : Call}
    (h : (router.step codec call).MembersMatch) : router.KeepsIdentity codec call := by
  cases call with
  | handle authenticator now s payload =>
      intro token principal hc hw ha x hmem
      obtain ⟨hp, hr⟩ := handle_authenticated router now s hc hw ha
      have hx := h s x (by rw [step, hr]; exact hmem)
      rw [step, hp, Option.some.injEq] at hx
      exact hx
  | onDisconnect s => trivial

/-- **Publications follow the members**: where the members match, so do the receivers. -/
theorem forwardsMatch_of_members {codec : Codec} {router : ProtocolRouter}
    (h : router.MembersMatch) : router.ForwardsMatch codec := by
  intro authenticator now s payload publish x hc hroom s' hsent
  have hbuilt : ∀ {out : Outgoing}, (∃ body, Answers out body) → out ≠ .original payload := by
    rintro _ ⟨_, _, _, _, rfl⟩
    simp
  have he := handle_effect codec (defaultPolicy authenticator now) s payload router
  cases he with
  | quiet _ _ hs => exact absurd rfl (hbuilt (hs _ hsent).2)
  | authenticated _ _ _ _ _ hs => exact absurd rfl (hbuilt (hs _ hsent).2)
  | joined _ _ _ hs ho =>
      rw [hs, List.mem_singleton, Prod.mk.injEq] at hsent
      exact absurd hsent.2.symm (hbuilt ⟨_, ho⟩)
  | left _ _ _ hs ho =>
      rw [hs, List.mem_singleton, Prod.mk.injEq] at hsent
      exact absurd hsent.2.symm (hbuilt ⟨_, ho⟩)
  | published hc' hroom' _ _ _ _ hs =>
      -- the buffer carries one payload, so this is the publication of the statement
      have heq := hc.2.2.symm.trans hc'.2.2
      simp only [Payload.publish.injEq, Option.some.injEq] at heq
      subst heq
      obtain rfl := Option.some.inj (hroom.symm.trans hroom')
      rw [hs, List.mem_map] at hsent
      obtain ⟨recipient, hmem, heq⟩ := hsent
      obtain rfl : recipient = s' := congrArg Prod.fst heq
      exact h recipient x hmem

/-! ### Runs -/

/-- The members match after every prefix of a run exactly when its calls keep identities. -/
theorem members_iff (codec : Codec) (calls : List Call) :
    ∀ {router : ProtocolRouter}, router.rooms.WellFormed → router.MembersMatch →
      ((∀ pre, pre <+: calls → (run codec pre router).MembersMatch) ↔
        AllKeepIdentity codec router calls) := by
  induction calls with
  | nil =>
      intro router _ h
      simp [AllKeepIdentity, run, h]
  | cons call calls ih =>
      intro router hwf h
      constructor
      · intro hall
        have hstep : (router.step codec call).MembersMatch :=
          hall [call] (List.prefix_append [call] calls)
        refine ⟨keepsIdentity_of_members hstep, (ih (step_wellFormed hwf call) hstep).1 ?_⟩
        exact fun pre hpre => hall (call :: pre) (List.cons_prefix_cons.2 ⟨rfl, hpre⟩)
      · rintro ⟨hk, hall⟩ pre hpre
        rcases List.prefix_cons_iff.1 hpre with rfl | ⟨pre, rfl, htail⟩
        · exact h
        · exact (ih (step_wellFormed hwf call) (step_members hwf h hk)).2 hall pre htail

/-- **When booking rooms stay private.**  For every list of calls under the default policy,
booking rooms are private in every state of the run if and only if every accepted `Authenticate`
of the run gives its session the name of each booking room the session is in at that moment. -/
theorem booking_private_iff (codec : Codec) (calls : List Call) :
    (∀ pre, pre <+: calls → (run codec pre fresh).BookingPrivate codec) ↔
      AllKeepIdentity codec fresh calls := by
  have hfresh : fresh.MembersMatch := by
    intro s x hmem
    simp [fresh, RoomRegistry.empty, RoomRegistry.snapshot, Unordered.Index.members] at hmem
  rw [← members_iff codec calls RoomRegistry.wellFormed_empty hfresh]
  refine forall_congr' fun pre => imp_congr_right fun _ => ?_
  exact ⟨And.left, fun h => ⟨h, forwardsMatch_of_members h⟩⟩

/-! ### A run that is not private -/

/-- A codec with three buffers: two authentications and a request for a booking room. -/
def twoIdentities : Codec where
  verify _ := true
  getNetworkMessage
    | [1] => ⟨1, 1, .authenticate (some ⟨some (ascii "alice")⟩)⟩
    | [2] => ⟨1, 2, .authenticate (some ⟨some (ascii "bob")⟩)⟩
    | _ => ⟨1, 3, .joinRoom (some ⟨some (ascii "booking:user:alice")⟩)⟩

/-- A session authenticates as `alice`, joins her booking room and authenticates as `bob`. -/
def reauthentication : List Call :=
  [.handle (some some) 0 ⟨1, 1⟩ [1], .handle (some some) 0 ⟨1, 1⟩ [3],
    .handle (some some) 0 ⟨1, 1⟩ [2]]

/-- The run above leaves a session authenticated as `bob` in the booking room of `alice`. -/
theorem reauthentication_breaks_privacy :
    ¬ ∀ (codec : Codec) (calls : List Call), (run codec calls fresh).BookingPrivate codec := by
  intro hall
  have h := (hall twoIdentities reauthentication).1 ⟨1, 1⟩ (ascii "alice")
  have hmem : (⟨1, 1⟩ : SessionHandle) ∈
      (run twoIdentities reauthentication fresh).rooms.snapshot
        (bookingPrefix ++ ascii "alice") := by decide
  have hname : (run twoIdentities reauthentication fresh).principals ⟨1, 1⟩ =
      some (ascii "bob") := by decide
  have hne : ascii "bob" ≠ ascii "alice" := by decide
  exact hne (Option.some.inj (hname.symm.trans (h hmem)))

end ProtocolRouter

end RealtimeEngine
