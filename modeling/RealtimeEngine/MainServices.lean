/-
**The services of the program, and who they let in.**

`main` gives the router an authenticator that compares the token of a session with the configured
one, and no authorizer for rooms.  The comparison looks at every byte of the longer text and gathers
the differences, so that its duration says nothing about where the texts differ.

With these services in every run of the engine, a session that has never sent the configured token
takes no part in the rooms: it has no principal, it is in no room, nobody is sent a copy of its
messages, and it is sent a copy of nobody's.  All others have one and the same principal, and of the
booking rooms only the one of this principal can have members.

Main definitions:

* `RealtimeEngine.constantTimeEqual` — the comparison;
* `RealtimeEngine.authenticator` — the authenticator of `main`;
* `RealtimeEngine.EngineSteps.Presents` — the message presents the token.

Main results:

* `RealtimeEngine.constantTimeEqual_iff` — the comparison is equality, also of texts of different
  lengths;
* `RealtimeEngine.EngineSteps.strangers_apart` — **the run theorem**.
-/

import Mathlib.Data.Nat.Bitwise
import RealtimeEngine.EngineOrigins

set_option relaxedAutoImplicit false
set_option autoImplicit false

namespace RealtimeEngine

/-! ### The authenticator -/

/-- One turn of the loop of `ConstantTimeEqual`. -/
def gatherDifference (first second : Bytes) (difference index : ℕ) : ℕ :=
  let left := if index < first.length then first.getD index 0 else 0
  let right := if index < second.length then second.getD index 0 else 0
  difference ||| (left ^^^ right).toNat

/-- `ConstantTimeEqual`. -/
def constantTimeEqual (first second : Bytes) : Bool :=
  (List.range (max first.length second.length)).foldl (gatherDifference first second)
    (first.length ^^^ second.length) == 0

/-- The authenticator that `main` gives to the router. -/
def authenticator (authToken token : Bytes) : Option Bytes :=
  if !constantTimeEqual token authToken then none else some (ascii "service-user")

theorem gatherDifference_eq_zero {first second : Bytes} {difference index : ℕ} :
    gatherDifference first second difference index = 0 ↔
      difference = 0 ∧ first.getD index 0 = second.getD index 0 := by
  have hbyte : ∀ bytes : Bytes, (if index < bytes.length then bytes.getD index 0 else 0) =
      bytes.getD index 0 := by
    intro bytes
    split
    · rfl
    · next hout => exact (List.getD_eq_default _ _ (Nat.le_of_not_lt hout)).symm
  rw [gatherDifference, hbyte, hbyte, Nat.or_eq_zero_iff]
  exact and_congr_right fun _ => by rw [← UInt8.toNat_zero, UInt8.toNat_inj, UInt8.xor_eq_zero_iff]

/-- The differences that the loop gathers are those of the bytes it has looked at. -/
theorem foldl_gatherDifference {first second : Bytes} (indices : List ℕ) {difference : ℕ} :
    indices.foldl (gatherDifference first second) difference = 0 ↔
      difference = 0 ∧ ∀ index ∈ indices, first.getD index 0 = second.getD index 0 := by
  induction indices generalizing difference with
  | nil => simp
  | cons index indices ih =>
      rw [List.foldl_cons, ih, gatherDifference_eq_zero, List.forall_mem_cons, and_assoc]

/-- **The comparison is equality.** -/
theorem constantTimeEqual_iff {first second : Bytes} :
    constantTimeEqual first second = true ↔ first = second := by
  rw [constantTimeEqual, beq_iff_eq, foldl_gatherDifference, Nat.xor_eq_zero_iff]
  constructor
  · rintro ⟨hlength, hbytes⟩
    refine List.ext_getElem hlength fun index hfirst hsecond => ?_
    have hbyte := hbytes index (List.mem_range.2 (lt_max_of_lt_left hfirst))
    rwa [List.getD_eq_getElem _ _ hfirst, List.getD_eq_getElem _ _ hsecond] at hbyte
  · rintro rfl
    exact ⟨rfl, fun index _ => rfl⟩

/-- The authenticator accepts the configured token, and gives everybody the same principal. -/
theorem authenticator_eq_some {authToken token principal : Bytes} :
    authenticator authToken token = some principal ↔
      token = authToken ∧ principal = ascii "service-user" := by
  rw [← constantTimeEqual_iff, authenticator]
  cases constantTimeEqual token authToken with
  | false => simp
  | true => simp [eq_comm]

/-! ### The past of a run with these services -/

namespace RouterSteps

open Interleaving ProtocolRouter

/-- The services are those of `main`. -/
def OfMain (authToken : Bytes) (svc : Services) : Prop :=
  svc.authenticator = some (authenticator authToken) ∧ svc.roomAuthorizer = none

section Links

variable {codec : Codec} {past : List Deed} {authToken : Bytes} {s q : SessionHandle} {room : Room}
  {payload : Bytes}

/-- Who was identified has presented the token. -/
theorem Identified.ofMain {principal : Bytes} (h : Identified codec past s principal)
    (hmain : ∀ d ∈ past, OfMain authToken d.services) :
    Asked codec past s (.authenticate (some ⟨some authToken⟩)) ∧ principal = ascii "service-user" := by
  obtain ⟨d, hd, payload, token, authenticate, haction, hcarries, hauthenticator, haccepted⟩ := h
  rw [(hmain d hd).1] at hauthenticator
  obtain rfl := Option.some.inj hauthenticator
  obtain ⟨rfl, hprincipal⟩ := authenticator_eq_some.1 haccepted
  exact ⟨⟨payload, ⟨d, hd, haction⟩, hcarries⟩, hprincipal⟩

/-- Who has joined a room has presented the token, and the room is not the booking room of
another principal. -/
theorem Joined.ofMain (h : Joined codec past s room)
    (hmain : ∀ d ∈ past, OfMain authToken d.services) :
    Asked codec past s (.authenticate (some ⟨some authToken⟩)) ∧
      (bookingPrefix.isPrefixOf room = true →
        room.drop bookingPrefix.length = ascii "service-user") := by
  obtain ⟨before, d, after, rfl, -, hauthorized, ⟨principal, hprincipal, hidentified⟩, -, -⟩ := h
  obtain ⟨hasked, rfl⟩ :=
    hidentified.ofMain fun d' hd' => hmain d' (List.mem_append_left _ hd')
  refine ⟨?_, fun hbooking => ?_⟩
  · obtain ⟨payload, hreceived, hcarries⟩ := hasked
    exact ⟨payload, hreceived.append _, hcarries⟩
  · have hservices := hmain d (List.mem_append_right _ List.mem_cons_self)
    rw [authorizeRoom, hprincipal] at hauthorized
    dsimp only at hauthorized
    rw [hservices.2] at hauthorized
    dsimp only at hauthorized
    rw [if_pos hbooking] at hauthorized
    exact beq_iff_eq.1 hauthorized

/-- Behind a copy of a message both the publisher and the recipient have presented the token. -/
theorem Published.ofMain (h : Published codec past s q payload)
    (hmain : ∀ d ∈ past, OfMain authToken d.services) :
    Asked codec past s (.authenticate (some ⟨some authToken⟩)) ∧
      Asked codec past q (.authenticate (some ⟨some authToken⟩)) := by
  obtain ⟨room, before, d, after, rfl, -, -, -, hpublisher, hrecipient⟩ := h
  have hmain' : ∀ d' ∈ before, OfMain authToken d'.services := fun d' hd' =>
    hmain d' (List.mem_append_left _ hd')
  obtain ⟨payload, hreceived, hcarries⟩ := (hpublisher.ofMain hmain').1
  obtain ⟨payload', hreceived', hcarries'⟩ := (hrecipient.ofMain hmain').1
  exact ⟨⟨payload, hreceived.append _, hcarries⟩, ⟨payload', hreceived'.append _, hcarries'⟩⟩

end Links

end RouterSteps

/-! ### Runs -/

namespace EngineSteps

open Interleaving RouterSteps ProtocolRouter

/-- A step of the router has the services of `main`. -/
def Choice.OfMain (authToken : Bytes) : Choice → Prop
  | .services svc => RouterSteps.OfMain authToken svc
  | _ => True

/-- The message is an `Authenticate` with the token. -/
def Presents (codec : Codec) (authToken message : Bytes) : Prop :=
  Carries codec message (.authenticate (some ⟨some authToken⟩))

/-- Every step of the router in the past had the services of `main`. -/
theorem deeds_ofMain {codec : Codec} {build : Outgoing → Bytes} {config : ServerConfig}
    {authToken : Bytes} {moves : List (ℕ × Choice)} (hmain : ∀ move ∈ moves, move.2.OfMain authToken) :
    ∀ d ∈ deeds codec build config moves, RouterSteps.OfMain authToken d.services := by
  intro d hd
  obtain ⟨⟨x, task, e⟩, hevent, hdeed⟩ := List.mem_filterMap.1 hd
  obtain ⟨move, hmove, rfl⟩ := Program.choice_mem_of_history hevent
  have hservices := hmain move hmove
  generalize move.2 = x at hservices hdeed
  unfold deed? at hdeed
  split at hdeed
  · next heq =>
      obtain rfl := Option.some.inj hdeed
      obtain ⟨rfl, -, -⟩ := Event.mk.inj heq
      exact hservices
  · next heq =>
      obtain rfl := Option.some.inj hdeed
      obtain ⟨rfl, -, -⟩ := Event.mk.inj heq
      exact hservices
  · cases hdeed

/-- **Strangers take no part in the rooms.**  In every run of the engine with the services of `main`:
whoever has a principal has sent a message that presents the configured token, and the principal is
`service-user`; whoever is in a room has presented the token, and a booking room with a member is the
one of `service-user`; and both the publisher and the recipient of a copy of a message, queued or
given to `Send`, have presented the token.  The messages that present it were decoded from the bytes
of the session itself. -/
theorem strangers_apart (codec : Codec) (build : Outgoing → Bytes) (config : ServerConfig)
    (authToken : Bytes) (moves : List (ℕ × Choice)) {c : Config Engine Task}
    (hmain : ∀ move ∈ moves, move.2.OfMain authToken)
    (hrun : (program codec build config).run moves (start config) = some c) :
    (∀ s principal, c.shared.router.router.principals s = some principal →
      principal = ascii "service-user" ∧
        ∃ message ∈ c.shared.decoded s, Presents codec authToken message) ∧
      (∀ s room, s ∈ c.shared.router.router.rooms.snapshot room →
        (∃ message ∈ c.shared.decoded s, Presents codec authToken message) ∧
          (bookingPrefix.isPrefixOf room = true →
            room.drop bookingPrefix.length = ascii "service-user")) ∧
      (∀ s q k, some (s, k) ∈ c.shared.origins q →
        (∃ message ∈ c.shared.decoded s, Presents codec authToken message) ∧
          ∃ message ∈ c.shared.decoded q, Presents codec authToken message) ∧
      ∀ q payload, (q, .original payload) ∈ c.shared.router.sent →
        (∃ message ∈ c.shared.decoded q, Presents codec authToken message) ∧
          ∃ s, payload ∈ c.shared.decoded s ∧
            ∃ message ∈ c.shared.decoded s, Presents codec authToken message := by
  have hfounded := founded_run hrun
  have hpast : ∀ d ∈ deeds codec build config moves, RouterSteps.OfMain authToken d.services :=
    deeds_ofMain hmain
  have hsent : ∀ {s : SessionHandle}, Asked codec (deeds codec build config moves) s
      (.authenticate (some ⟨some authToken⟩)) →
        ∃ message ∈ c.shared.decoded s, Presents codec authToken message := by
    rintro s ⟨payload, hreceived, hcarries⟩
    exact ⟨payload, hfounded.received s payload hreceived, hcarries⟩
  refine ⟨fun s principal hs => ?_, fun s room hs => ?_, fun s q k hs => ?_, fun q payload hq => ?_⟩
  · obtain ⟨hasked, hprincipal⟩ := (hfounded.router.principals s principal hs).ofMain hpast
    exact ⟨hprincipal, hsent hasked⟩
  · obtain ⟨hasked, hbooking⟩ := (hfounded.router.members s room hs).ofMain hpast
    exact ⟨hsent hasked, hbooking⟩
  · obtain ⟨message, -, hpublished⟩ := hfounded.items q s k hs
    obtain ⟨hpublisher, hrecipient⟩ := hpublished.ofMain hpast
    exact ⟨hsent hpublisher, hsent hrecipient⟩
  · obtain ⟨s, hpublished⟩ := hfounded.router.sent q _ hq
    obtain ⟨hpublisher, hrecipient⟩ := hpublished.ofMain hpast
    exact ⟨hsent hrecipient, s, hfounded.received s payload hpublished.received, hsent hpublisher⟩

/-- The choice, with the services of `main` instead of those it has. -/
def Choice.withMain (authToken : Bytes) : Choice → Choice
  | .services svc => .services ⟨some (authenticator authToken), none, svc.unixTimeMs⟩
  | x => x

/-- The run of `alertForTwo`, where the token is `alice`. -/
def alertForTokens : List (ℕ × Choice) :=
  alertForTwo.map fun move => (move.1, move.2.withMain (ascii "alice"))

/-- The alert is queued to the first session, and both sessions have presented the token. -/
theorem strangers_apart_alertForTokens :
    ∃ c, (program alerts (fun _ => [0]) {}).run alertForTokens (start {}) = some c ∧
      c.shared.origins ⟨1, 1⟩ = [none, none, some (⟨2, 2⟩, 2)] ∧
      (∃ message ∈ c.shared.decoded ⟨2, 2⟩, Presents alerts (ascii "alice") message) ∧
        ∃ message ∈ c.shared.decoded ⟨1, 1⟩, Presents alerts (ascii "alice") message := by
  have hobserved : ((program alerts (fun _ => [0]) {}).run alertForTokens (start {})).map (fun c =>
      c.shared.origins ⟨1, 1⟩) = some [none, none, some (⟨2, 2⟩, 2)] := by
    decide +kernel
  obtain ⟨c, hrun, horigins⟩ := Option.map_eq_some_iff.1 hobserved
  have hmain : ∀ move ∈ alertForTokens, move.2.OfMain (ascii "alice") := by
    refine List.forall_mem_map.2 fun move _ => ?_
    cases move.2 with
    | services svc => exact ⟨rfl, rfl⟩
    | _ => trivial
  obtain ⟨-, -, hcopies, -⟩ :=
    strangers_apart alerts (fun _ => [0]) {} (ascii "alice") alertForTokens hmain hrun
  exact ⟨c, hrun, horigins, hcopies ⟨2, 2⟩ ⟨1, 1⟩ 2 (by rw [horigins]; simp)⟩

end EngineSteps

end RealtimeEngine
