/-
**Where a broadcast comes from.**

A message that a session receives although it has not asked for it is the copy of a publication.
Behind it stands a chain of earlier steps, of the publisher and of the recipient: each has presented
a token that the authenticator has accepted, each has asked to join the room and was let in under
the principal it had then, and the publisher was allowed to publish there.  Other sessions run
between any two of these steps, and a disconnect may come at any time, but no interleaving makes a
link of the chain unnecessary.

Here the chain is written down over the past of a run, and every critical section of the router is
shown to keep account of it.  A session was let in, or allowed to publish, behind its request and
behind the token that it had presented; the message was forwarded behind both of these of its
publisher and behind the joining of its recipient.  In which order the two sessions have joined, and
whether the recipient has joined before the publisher was allowed to publish, is left open: a
recipient may join while a message is being published.

Main definitions:

* `RealtimeEngine.RouterSteps.Deed` — a step of the router in the past;
* `RealtimeEngine.RouterSteps.Identified`, `RealtimeEngine.RouterSteps.Joined`,
  `RealtimeEngine.RouterSteps.Allowed`, `RealtimeEngine.RouterSteps.Published` — the links;
* `RealtimeEngine.RouterSteps.Justified` — what must have happened before a pending action;
* `RealtimeEngine.RouterSteps.Accounted` — the principals, the rooms and what was sent have a past.

Main results:

* `RealtimeEngine.RouterSteps.Accounted.exec` — **every critical section keeps account**;
* `RealtimeEngine.RouterSteps.Justified.exec` — **and justifies what its thread does next**.
-/

import RealtimeEngine.RouterSteps
import RealtimeEngine.RunHistory

set_option relaxedAutoImplicit false
set_option autoImplicit false

namespace RealtimeEngine

namespace RouterSteps

open Interleaving ProtocolRouter

/-! ### The past -/

/-- A step of the router, with the answers of the callbacks and the router it has found. -/
structure Deed where
  services : Services
  action : Action
  router : ProtocolRouter

section Links

variable (codec : Codec) (past : List Deed) (s q : SessionHandle) (room : Room) (payload : Bytes)

/-- `Handle` was called with this message of the session. -/
def Received : Prop := ∃ d ∈ past, d.action = .handle s payload

/-- `Handle` was called for the session. -/
def Heard : Prop := ∃ payload, Received past s payload

/-- The session has sent a message with this payload. -/
def Asked (body : Payload) : Prop :=
  ∃ payload, Received past s payload ∧ Carries codec payload body

/-- The session has sent an `Authenticate` whose token was accepted for the principal. -/
def Identified (principal : Bytes) : Prop :=
  ∃ d ∈ past, ∃ payload token authenticate, d.action = .handle s payload ∧
    Carries codec payload (.authenticate (some ⟨some token⟩)) ∧
    d.services.authenticator = some authenticate ∧ authenticate token = some principal

/-- The router that was found has a principal of the session, from an `Authenticate` before. -/
def Known (router : ProtocolRouter) : Prop :=
  ∃ principal, router.principals s = some principal ∧ Identified codec past s principal

/-- The session has asked to join the room, and `AuthorizeRoom` has let it in. -/
def Joined : Prop :=
  Happened (fun before d => (∃ requestId, d.action = .authorizeJoin s requestId room) ∧
    d.router.authorizeRoom d.services s room false = true ∧ Known codec before s d.router ∧
    isValidRoom room = true ∧ Asked codec before s (.joinRoom (some ⟨some room⟩))) past

/-- The message is a publication of the session for the room that meets every condition on its
payload. -/
def Proposed : Prop :=
  Received past s payload ∧ ∃ publish, Carries codec payload (.publish (some publish)) ∧
    publish.room = some room ∧ validateDomain (some publish) = true

/-- `AuthorizeRoom` has let the session publish the message in the room. -/
def Allowed : Prop :=
  Happened (fun before d => (∃ requestId, d.action = .authorizePublish s requestId room payload) ∧
    d.router.authorizeRoom d.services s room true = true ∧ Known codec before s d.router ∧
    Proposed codec before s room payload) past

/-- **The recipient was in the room of the publication when it was forwarded**, and the whole chain
stands before that. -/
def Published : Prop :=
  ∃ room, Happened (fun before d => d.action = .snapshot s room payload ∧
    q ∈ d.router.rooms.snapshot room ∧ Allowed codec before s room payload ∧
    Joined codec before s room ∧ Joined codec before q room) past

/-- What is sent to the session has a past: a publication, or a message of the session itself. -/
def Warranted : Outgoing → Prop
  | .original payload => ∃ s, Published codec past s q payload
  | .built _ _ _ _ _ => Heard past q

/-- **What must have happened before the action.** -/
def Justified : Action → Prop
  | .storePrincipal s principal => Identified codec past s principal
  | .checkJoin s _ table => Asked codec past s (.joinRoom table)
  | .authorizeJoin s _ room =>
      isValidRoom room = true ∧ Asked codec past s (.joinRoom (some ⟨some room⟩))
  | .insertPair s _ room => Joined codec past s room
  | .leave s _ _ => Heard past s
  | .checkPublish s _ table payload =>
      Received past s payload ∧ Carries codec payload (.publish table)
  | .authorizePublish s _ room payload => Proposed codec past s room payload
  | .findPair s _ room payload => Allowed codec past s room payload
  | .snapshot s room payload => Allowed codec past s room payload ∧ Joined codec past s room
  | .respond s _ _ => Heard past s
  | .send s recipient (.built _ _ _ _ _) => recipient = s ∧ Heard past s
  | .send s recipient (.original payload) => Published codec past s recipient payload
  | _ => True

/-- **The tables and what was sent have a past.** -/
structure Accounted (sh : Shared) : Prop where
  wellFormed : sh.router.rooms.WellFormed
  principals : ∀ s principal, sh.router.principals s = some principal →
    Identified codec past s principal
  members : ∀ s room, s ∈ sh.router.rooms.snapshot room → Joined codec past s room
  sent : ∀ q message, (q, message) ∈ sh.sent → Warranted codec past q message

end Links

/-! ### The past only grows -/

section Grows

variable {codec : Codec} {past : List Deed} {s q : SessionHandle} {room : Room} {payload : Bytes}

theorem Received.append (h : Received past s payload) (more : List Deed) :
    Received (past ++ more) s payload := by
  obtain ⟨d, hd, haction⟩ := h
  exact ⟨d, List.mem_append_left _ hd, haction⟩

theorem Heard.append (h : Heard past s) (more : List Deed) : Heard (past ++ more) s := by
  obtain ⟨payload, hpayload⟩ := h
  exact ⟨payload, hpayload.append more⟩

theorem Asked.append {body : Payload} (h : Asked codec past s body) (more : List Deed) :
    Asked codec (past ++ more) s body := by
  obtain ⟨payload, hpayload, hbody⟩ := h
  exact ⟨payload, hpayload.append more, hbody⟩

theorem Asked.heard {body : Payload} (h : Asked codec past s body) : Heard past s := by
  obtain ⟨payload, hpayload, -⟩ := h
  exact ⟨payload, hpayload⟩

theorem Identified.append {principal : Bytes} (h : Identified codec past s principal)
    (more : List Deed) : Identified codec (past ++ more) s principal := by
  obtain ⟨d, hd, hrest⟩ := h
  exact ⟨d, List.mem_append_left _ hd, hrest⟩

theorem Joined.append (h : Joined codec past s room) (more : List Deed) :
    Joined codec (past ++ more) s room :=
  Happened.append h more

theorem Joined.heard (h : Joined codec past s room) : Heard past s := by
  obtain ⟨before, d, after, rfl, -, -, -, -, hasked⟩ := h
  exact hasked.heard.append _

theorem Proposed.append (h : Proposed codec past s room payload) (more : List Deed) :
    Proposed codec (past ++ more) s room payload :=
  ⟨h.1.append more, h.2⟩

theorem Allowed.append (h : Allowed codec past s room payload) (more : List Deed) :
    Allowed codec (past ++ more) s room payload :=
  Happened.append h more

theorem Allowed.received (h : Allowed codec past s room payload) : Received past s payload := by
  obtain ⟨before, d, after, rfl, -, -, -, hreceived, -⟩ := h
  exact hreceived.append _

theorem Allowed.heard (h : Allowed codec past s room payload) : Heard past s :=
  ⟨payload, h.received⟩

theorem Published.append (h : Published codec past s q payload) (more : List Deed) :
    Published codec (past ++ more) s q payload := by
  obtain ⟨room, hroom⟩ := h
  exact ⟨room, hroom.append more⟩

/-- What is published was received from the publisher. -/
theorem Published.received (h : Published codec past s q payload) : Received past s payload := by
  obtain ⟨room, before, d, after, rfl, -, -, hallowed, -⟩ := h
  exact hallowed.received.append _

theorem Warranted.append {message : Outgoing} (h : Warranted codec past q message)
    (more : List Deed) : Warranted codec (past ++ more) q message := by
  cases message with
  | original payload =>
      obtain ⟨s, hs⟩ := h
      exact ⟨s, hs.append more⟩
  | built version requestId sequenceId sentAtMs body => exact Heard.append h more

/-- What has justified an action justifies it later. -/
theorem Justified.append {a : Action} (h : Justified codec past a) (more : List Deed) :
    Justified codec (past ++ more) a := by
  cases a with
  | storePrincipal s principal => exact Identified.append h more
  | checkJoin s requestId table => exact Asked.append h more
  | authorizeJoin s requestId room => exact ⟨h.1, h.2.append more⟩
  | insertPair s requestId room => exact Joined.append h more
  | leave s requestId room => exact Heard.append h more
  | checkPublish s requestId table payload => exact ⟨h.1.append more, h.2⟩
  | authorizePublish s requestId room payload => exact Proposed.append h more
  | findPair s requestId room payload => exact Allowed.append h more
  | snapshot s room payload => exact ⟨h.1.append more, h.2.append more⟩
  | respond s requestId body => exact Heard.append h more
  | send s recipient message =>
      cases message with
      | original payload => exact Published.append h more
      | built version requestId sequenceId sentAtMs body => exact ⟨h.1, h.2.append more⟩
  | _ => trivial

/-- The account of the same tables, with nothing new sent. -/
theorem Accounted.same {sh sh' : Shared} (h : Accounted codec past sh)
    (hrouter : sh'.router = sh.router) (hsent : sh'.sent = sh.sent) {more : List Deed} :
    Accounted codec (past ++ more) sh' where
  wellFormed := by rw [hrouter]; exact h.wellFormed
  principals s principal hs := by
    rw [hrouter] at hs
    exact (h.principals s principal hs).append more
  members s room hs := by
    rw [hrouter] at hs
    exact (h.members s room hs).append more
  sent q message hq := by
    rw [hsent] at hq
    exact (h.sent q message hq).append more

/-- The account of other rooms, each of whose members has joined. -/
theorem Accounted.rooms {sh sh' : Shared} (h : Accounted codec past sh)
    (hprincipals : sh'.router.principals = sh.router.principals) (hsent : sh'.sent = sh.sent)
    (hwf : sh'.router.rooms.WellFormed) {more : List Deed}
    (hmembers : ∀ s room, s ∈ sh'.router.rooms.snapshot room →
      s ∈ sh.router.rooms.snapshot room ∨ Joined codec past s room) :
    Accounted codec (past ++ more) sh' where
  wellFormed := hwf
  principals s principal hs := by
    rw [hprincipals] at hs
    exact (h.principals s principal hs).append more
  members s room hs := by
    rcases hmembers s room hs with hold | hjoined
    · exact (h.members s room hold).append more
    · exact hjoined.append more
  sent q message hq := by
    rw [hsent] at hq
    exact (h.sent q message hq).append more

/-- The account of other principals, each of which was accepted. -/
theorem Accounted.principal {sh sh' : Shared} (h : Accounted codec past sh)
    (hrooms : sh'.router.rooms = sh.router.rooms) (hsent : sh'.sent = sh.sent) {more : List Deed}
    (hprincipals : ∀ s principal, sh'.router.principals s = some principal →
      sh.router.principals s = some principal ∨ Identified codec past s principal) :
    Accounted codec (past ++ more) sh' where
  wellFormed := by rw [hrooms]; exact h.wellFormed
  principals s principal hs := by
    rcases hprincipals s principal hs with hold | hidentified
    · exact (h.principals s principal hold).append more
    · exact hidentified.append more
  members s room hs := by
    rw [hrooms] at hs
    exact (h.members s room hs).append more
  sent q message hq := by
    rw [hsent] at hq
    exact (h.sent q message hq).append more

/-- A session that `AuthorizeRoom` lets in has a principal. -/
theorem Accounted.known {sh : Shared} (h : Accounted codec past sh) {svc : Services}
    {publishing : Bool} (hauthorized : sh.router.authorizeRoom svc s room publishing = true) :
    Known codec past s sh.router := by
  unfold authorizeRoom at hauthorized
  cases hprincipal : sh.router.principals s with
  | none =>
      rw [hprincipal] at hauthorized
      cases hauthorized
  | some principal => exact ⟨principal, hprincipal, h.principals s principal hprincipal⟩

end Grows

/-! ### One critical section -/

section Steps

variable {codec : Codec} {svc : Services} {past : List Deed} {sh : Shared}

/-- **Every critical section keeps account.** -/
theorem Accounted.exec {a : Action} (h : Accounted codec past sh) (ha : Justified codec past a)
    (svc : Services) :
    Accounted codec (past ++ [⟨svc, a, sh.router⟩]) (execWith codec svc sh a).1 := by
  cases a with
  | storePrincipal s principal =>
      refine h.principal ?_ ?_ fun s' principal' hs' => ?_
      · rfl
      · rfl
      · by_cases hs : s' = s
        · subst hs
          simp only [execWith, Function.update_self, Option.some.injEq] at hs'
          subst hs'
          exact Or.inr ha
        · simp only [execWith, Function.update_of_ne hs] at hs'
          exact Or.inl hs'
  | insertPair s requestId room =>
      refine h.rooms ?_ ?_ ?_ fun s' room' hs' => ?_
      · rfl
      · rfl
      · exact h.wellFormed.join none s room
      · rcases (RoomRegistry.join_frame none s room sh.router.rooms s' room').1.1 hs' with
          ⟨-, rfl, rfl⟩ | hold
        · exact Or.inr ha
        · exact Or.inl hold
  | leave s requestId room =>
      refine h.rooms ?_ ?_ ?_ fun s' room' hs' => ?_
      · rfl
      · rfl
      · exact h.wellFormed.leave s room
      · exact Or.inl ((RoomRegistry.leave_frame s room sh.router.rooms s' room').1.1 hs').2
  | removeSession s =>
      refine h.rooms ?_ ?_ ?_ fun s' room' hs' => ?_
      · rfl
      · rfl
      · exact h.wellFormed.removeSession s
      · exact Or.inl
          ((RoomRegistry.mem_snapshot_removeSession h.wellFormed.inverse s' room').1 hs').2
  | erasePrincipal s =>
      refine h.principal ?_ ?_ fun s' principal hs' => Or.inl ?_
      · rfl
      · rfl
      · by_cases hs : s' = s
        · subst hs
          simp [execWith] at hs'
        · simpa only [execWith, Function.update_of_ne hs] using hs'
  | send s recipient message =>
      refine ⟨h.wellFormed, fun s' principal hs' => (h.principals s' principal hs').append _,
        fun s' room hs' => (h.members s' room hs').append _, fun q message' hq => ?_⟩
      rcases List.mem_append.1 hq with hold | hnew
      · exact (h.sent q message' hold).append _
      · obtain ⟨rfl, rfl⟩ := Prod.mk.inj (List.mem_singleton.1 hnew)
        refine Warranted.append ?_ _
        cases message' with
        | original payload => exact ⟨s, ha⟩
        | built version requestId sequenceId sentAtMs body =>
            obtain ⟨rfl, hheard⟩ := ha
            exact hheard
  | respond s requestId body =>
      exact ⟨h.wellFormed, fun s' principal hs' => (h.principals s' principal hs').append _,
        fun s' room hs' => (h.members s' room hs').append _,
        fun q message hq => (h.sent q message hq).append _⟩
  | loop s messages =>
      refine h.same ?_ ?_
      · cases messages with
        | nil => rfl
        | cons message messages =>
            rw [execWith]
            split <;> rfl
      · cases messages with
        | nil => rfl
        | cons message messages =>
            rw [execWith]
            split <;> rfl
  | authorizeJoin | authorizePublish | disconnect =>
      refine h.same ?_ ?_ <;>
      · unfold execWith
        dsimp only
        split <;> rfl
  | findPair s requestId room payload =>
      refine h.same ?_ ?_ <;>
      · unfold execWith
        dsimp only
        split <;> rfl
  | outside | handle | checkJoin | checkPublish | snapshot | onDisconnectReturns =>
      refine h.same ?_ ?_ <;> rfl

/-- One action that goes on for the session and is justified. -/
theorem goesOn_one {s : SessionHandle} {b : Action} (hb : Justified codec past b)
    (hs : b.inHandle s = true) : ∀ b' ∈ [b], Justified codec past b' ∧ b'.inHandle s = true := by
  intro b' hb'
  rw [List.mem_singleton.1 hb']
  exact ⟨hb, hs⟩

/-- An answer to the session is justified by any message of it. -/
theorem goesOn_respond {s : SessionHandle} (h : Heard past s) (requestId : UInt64) (body : Reply) :
    ∀ b ∈ [Action.respond s requestId body], Justified codec past b ∧ b.inHandle s = true :=
  goesOn_one h (beq_self_eq_true s)

theorem authenticateSteps_goOn {s : SessionHandle} {requestId : UInt64} {table : Option Authenticate}
    (h : Heard past s)
    (hidentified : ∀ token authenticate principal, table = some ⟨some token⟩ →
      svc.authenticator = some authenticate → authenticate token = some principal →
        Identified codec past s principal) :
    ∀ b ∈ authenticateSteps svc s requestId table,
      Justified codec past b ∧ b.inHandle s = true := by
  unfold authenticateSteps
  split
  · exact goesOn_respond h _ _
  · next token htoken =>
      split
      · exact goesOn_respond h _ _
      · split
        · next principal hprincipal =>
            obtain ⟨message, rfl, hmessage⟩ := Option.bind_eq_some_iff.1 htoken
            obtain ⟨authenticate, hauthenticate, haccepts⟩ := Option.bind_eq_some_iff.1 hprincipal
            obtain ⟨optional⟩ := message
            obtain rfl : optional = some token := hmessage
            intro b hb
            rcases List.mem_cons.1 hb with rfl | hb
            · exact ⟨hidentified token authenticate principal rfl hauthenticate haccepts,
                beq_self_eq_true s⟩
            · exact goesOn_respond h _ _ b hb
        · exact goesOn_respond h _ _

theorem leaveSteps_goOn {s : SessionHandle} {requestId : UInt64} {table : Option RoomRequest}
    (h : Heard past s) :
    ∀ b ∈ leaveSteps s requestId table, Justified codec past b ∧ b.inHandle s = true := by
  unfold leaveSteps
  split
  · exact goesOn_respond h _ _
  · split
    · exact goesOn_respond h _ _
    · exact goesOn_one h (beq_self_eq_true s)

theorem joinSteps_goOn {s : SessionHandle} {requestId : UInt64} {table : Option RoomRequest}
    (router : ProtocolRouter) (h : Asked codec past s (.joinRoom table)) :
    ∀ b ∈ joinSteps router s requestId table, Justified codec past b ∧ b.inHandle s = true := by
  unfold joinSteps
  split
  · exact goesOn_respond h.heard _ _
  · split
    · exact goesOn_respond h.heard _ _
    · next room hroom =>
        split
        · exact goesOn_respond h.heard _ _
        · split
          · exact goesOn_respond h.heard _ _
          · next hvalid =>
              obtain ⟨⟨optional⟩, rfl, hoptional⟩ := Option.bind_eq_some_iff.1 hroom
              obtain rfl : optional = some room := hoptional
              rw [Bool.not_eq_true', Bool.not_eq_false] at hvalid
              exact goesOn_one ⟨hvalid, h⟩ (beq_self_eq_true s)

theorem publishSteps_goOn {s : SessionHandle} {requestId : UInt64} {table : Option Publish}
    {payload : Bytes} (router : ProtocolRouter) (h : Received past s payload)
    (hcarries : Carries codec payload (.publish table)) :
    ∀ b ∈ publishSteps router s requestId table payload,
      Justified codec past b ∧ b.inHandle s = true := by
  unfold publishSteps
  split
  · exact goesOn_respond ⟨payload, h⟩ _ _
  · split
    · exact goesOn_respond ⟨payload, h⟩ _ _
    · next hdomain =>
        dsimp only
        split
        · exact goesOn_respond ⟨payload, h⟩ _ _
        · -- a valid publication has a table, and the table has a room
          rw [Bool.not_eq_true', Bool.not_eq_false] at hdomain
          cases table with
          | none => cases hdomain
          | some publish =>
              obtain ⟨room, hroom, -⟩ := ((validateDomain_iff publish).1 hdomain).1
              rw [Option.bind_some, hroom, Option.getD_some]
              exact goesOn_one ⟨h, publish, hcarries, hroom, hdomain⟩ (beq_self_eq_true s)

/-- What `Handle` starts with. -/
theorem handleSteps_goOn {s : SessionHandle} {payload : Bytes} (h : Received past s payload)
    (hidentified : ∀ token authenticate principal,
      Carries codec payload (.authenticate (some ⟨some token⟩)) →
      svc.authenticator = some authenticate → authenticate token = some principal →
        Identified codec past s principal) :
    ∀ b ∈ handleSteps codec svc s payload, Justified codec past b ∧ b.inHandle s = true := by
  have hheard : Heard past s := ⟨payload, h⟩
  have hnil : ∀ b ∈ ([] : List Action), Justified codec past b ∧ b.inHandle s = true :=
    fun b hb => absurd hb List.not_mem_nil
  unfold handleSteps
  split
  · exact hnil
  · next hverify =>
      rw [Bool.not_eq_true', Bool.not_eq_false] at hverify
      dsimp only
      split
      · exact goesOn_respond hheard _ _
      · next hversion =>
          have hcarries : ∀ {body : Payload}, (codec.getNetworkMessage payload).payload = body →
              Carries codec payload body := fun hbody => ⟨hverify, not_not.1 hversion, hbody⟩
          split
          · exact goesOn_respond hheard _ _
          · split
            · next table htable =>
                refine authenticateSteps_goOn hheard fun token authenticate principal heq => ?_
                subst heq
                exact hidentified token authenticate principal (hcarries htable)
            · split
              · exact hnil
              · exact goesOn_respond hheard _ _
            · exact hnil
            · next table htable =>
                exact goesOn_one ⟨payload, h, hcarries htable⟩ (beq_self_eq_true s)
            · exact leaveSteps_goOn hheard
            · next table htable =>
                exact goesOn_one ⟨h, hcarries htable⟩ (beq_self_eq_true s)
            · exact goesOn_respond hheard _ _
            · exact hnil
            · exact hnil

/-- **A critical section justifies what its thread does next**, and goes on for the same session. -/
theorem Justified.exec {a : Action} (h : Accounted codec past sh) (ha : Justified codec past a)
    (svc : Services) {s : SessionHandle} (hs : a.inHandle s = true) :
    ∀ b ∈ (execWith codec svc sh a).2,
      Justified codec (past ++ [⟨svc, a, sh.router⟩]) b ∧ b.inHandle s = true := by
  have hnil : ∀ b ∈ ([] : List Action),
      Justified codec (past ++ [⟨svc, a, sh.router⟩]) b ∧ b.inHandle s = true :=
    fun b hb => absurd hb List.not_mem_nil
  have hself : s == s := beq_self_eq_true s
  have hlater := ha.append [⟨svc, a, sh.router⟩]
  cases a with
  | handle s' payload =>
      obtain rfl : s' = s := beq_iff_eq.1 hs
      refine handleSteps_goOn ⟨_, List.mem_append_right _ List.mem_cons_self, rfl⟩ ?_
      intro token authenticate principal hcarries hauthenticator haccepts
      exact ⟨_, List.mem_append_right _ List.mem_cons_self, payload, token, authenticate, rfl,
        hcarries, hauthenticator, haccepts⟩
  | checkJoin s' requestId table =>
      obtain rfl : s' = s := beq_iff_eq.1 hs
      exact joinSteps_goOn sh.router hlater
  | authorizeJoin s' requestId room =>
      obtain rfl : s' = s := beq_iff_eq.1 hs
      simp only [execWith]
      split
      · next hauthorized =>
          refine goesOn_one ?_ hself
          exact happened_last ⟨⟨requestId, rfl⟩, hauthorized, h.known hauthorized, ha⟩
      · exact goesOn_respond hlater.2.heard _ _
  | insertPair s' requestId room =>
      obtain rfl : s' = s := beq_iff_eq.1 hs
      exact goesOn_respond (Joined.heard hlater) _ _
  | leave s' requestId room =>
      obtain rfl : s' = s := beq_iff_eq.1 hs
      exact goesOn_respond hlater _ _
  | checkPublish s' requestId table payload =>
      obtain rfl : s' = s := beq_iff_eq.1 hs
      exact publishSteps_goOn sh.router hlater.1 hlater.2
  | authorizePublish s' requestId room payload =>
      obtain rfl : s' = s := beq_iff_eq.1 hs
      simp only [execWith]
      split
      · next hauthorized =>
          refine goesOn_one ?_ hself
          exact happened_last ⟨⟨requestId, rfl⟩, hauthorized, h.known hauthorized, ha⟩
      · exact goesOn_respond ⟨payload, hlater.1⟩ _ _
  | findPair s' requestId room payload =>
      obtain rfl : s' = s := beq_iff_eq.1 hs
      simp only [execWith]
      split
      · next hok =>
          have hmem := ((RoomRegistry.authorizePublish_ok_iff _ _ _ _).1 hok).2.2
          refine goesOn_one ⟨hlater, Joined.append ?_ _⟩ hself
          exact h.members s' room ((h.wellFormed.inverse s' room).2 hmem)
      · exact goesOn_respond (Allowed.heard hlater) _ _
  | snapshot s' room payload =>
      obtain rfl : s' = s := beq_iff_eq.1 hs
      intro b hb
      obtain ⟨q, hq, rfl⟩ := List.mem_map.1 hb
      refine ⟨⟨room, ?_⟩, hself⟩
      exact happened_last ⟨rfl, hq, ha.1, ha.2, h.members q room hq⟩
  | respond s' requestId body =>
      obtain rfl : s' = s := beq_iff_eq.1 hs
      exact goesOn_one ⟨rfl, hlater⟩ hself
  | storePrincipal | send => exact hnil
  | _ => cases hs

end Steps

end RouterSteps

end RealtimeEngine
