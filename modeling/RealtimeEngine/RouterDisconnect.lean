/-
**What a disconnected session leaves behind.**

`Disconnect` sets `disconnect_started` and then calls `OnDisconnect`, which takes the session out of
the room registry and then forgets its principal.  The worker that processes the messages of the
session tests `disconnect_started` before each message, but not inside `Handle`: an insertion that
`Handle` has already decided on can come after the removal, and nothing removes it again, since
`Disconnect` runs once (`RealtimeEngine.RouterSteps.late_insertion_survives`).

Nothing survives in a run whose insertions are in time
(`RealtimeEngine.RouterSteps.nothing_survives`): no worker stands between a yes of `AuthorizeRoom`
and the critical section of `Join` when `RemoveSession` runs, and there is no such yes afterwards;
no worker stands between the acceptance of a token and the insertion of the principal when the
principal is erased, and no token is accepted afterwards.

Main definitions:

* `RealtimeEngine.RouterSteps.NothingSurvives` — the property, about a pool of threads;
* `RealtimeEngine.RouterSteps.InTime` — the condition on a step.

Main results:

* `RealtimeEngine.RouterSteps.Removed.exec` — a step that is in time keeps what has been removed
  out;
* `RealtimeEngine.RouterSteps.nothing_survives` — **the run theorem**.
-/

import RealtimeEngine.RouterSteps

set_option relaxedAutoImplicit false
set_option autoImplicit false

namespace RealtimeEngine

namespace RouterSteps

open Interleaving

/-! ### The property and the condition -/

/-- The session has no principal, no rooms, and is in no room. -/
def Forgotten (router : ProtocolRouter) (s : SessionHandle) : Prop :=
  router.principals s = none ∧ router.rooms.sessionToRooms s = none ∧
    ∀ r, s ∉ router.rooms.snapshot r

/-- **Nothing survives a disconnect**: a session for which `OnDisconnect` has returned and no
`Handle` call is running is forgotten. -/
def NothingSurvives (c : Config Shared Action) : Prop :=
  ∀ s, c.shared.returned s = true → (∀ p ∈ c.pending, p.inHandle s = false) →
    Forgotten c.shared.router s

/-- The steps of the message include the insertion of a principal for the session: it is an
`Authenticate` whose token is accepted. -/
def Accepts (codec : Codec) (svc : Services) (s : SessionHandle) (payload : Bytes) : Prop :=
  ∃ principal, Action.storePrincipal s principal ∈ handleSteps codec svc s payload

/-- **The step is in time**, beside the pending actions `R`. -/
def InTime (codec : Codec) (x : Choice) (p : Action) (sh : Shared) (R : Multiset Action) : Prop :=
  match p, x with
  | .removeSession s, _ => ∀ requestId room, Action.insertPair s requestId room ∉ R
  | .erasePrincipal s, _ => ∀ principal, Action.storePrincipal s principal ∉ R
  | .authorizeJoin s _ room, .services svc =>
      sh.roomsRemoved s = true → sh.router.authorizeRoom svc s room false = false
  | .handle s payload, .services svc =>
      sh.principalErased s = true → ¬ Accepts codec svc s payload
  | _, _ => True

/-! ### What has been removed stays out -/

/-- The invariant of runs in time. -/
structure Removed (sh : Shared) (pending : Multiset Action) : Prop where
  wellFormed : sh.router.rooms.WellFormed
  rooms : ∀ s, sh.roomsRemoved s = true → (∀ r, r ∉ sh.router.rooms.roomsOf s) ∧
    ∀ requestId room, Action.insertPair s requestId room ∉ pending
  principal : ∀ s, sh.principalErased s = true → sh.router.principals s = none ∧
    ∀ principal, Action.storePrincipal s principal ∉ pending
  /-- `OnDisconnect` removes the rooms, then the principal, and then returns. -/
  erasing : ∀ s, Action.erasePrincipal s ∈ pending → sh.roomsRemoved s = true
  returning : ∀ s, (Action.onDisconnectReturns s ∈ pending ∨ sh.returned s = true) →
    sh.roomsRemoved s = true ∧ sh.principalErased s = true

/-- The actions the invariant speaks about. -/
def Action.tracked : Action → Bool
  | .insertPair _ _ _ | .storePrincipal _ _ | .erasePrincipal _ | .onDisconnectReturns _ => true
  | _ => false

/-- The invariant looks at the tables, at the marks of `OnDisconnect` and at tracked actions. -/
theorem Removed.frame {sh sh' : Shared} {P P' : Multiset Action} (h : Removed sh P)
    (hrooms : sh'.router.rooms = sh.router.rooms)
    (hprincipals : sh'.router.principals = sh.router.principals)
    (hremoved : sh'.roomsRemoved = sh.roomsRemoved)
    (herased : sh'.principalErased = sh.principalErased) (hreturned : sh'.returned = sh.returned)
    (hpending : ∀ p ∈ P', p.tracked = true → p ∈ P) : Removed sh' P' where
  wellFormed := by rw [hrooms]; exact h.wellFormed
  rooms s hs := by
    rw [hremoved] at hs
    rw [hrooms]
    exact ⟨(h.rooms s hs).1, fun _ _ hp => (h.rooms s hs).2 _ _ (hpending _ hp rfl)⟩
  principal s hs := by
    rw [herased] at hs
    rw [hprincipals]
    exact ⟨(h.principal s hs).1, fun _ hp => (h.principal s hs).2 _ (hpending _ hp rfl)⟩
  erasing s hp := by
    rw [hremoved]
    exact h.erasing s (hpending _ hp rfl)
  returning s hp := by
    rw [hremoved, herased]
    rw [hreturned] at hp
    exact h.returning s (hp.imp_left fun hp => hpending _ hp rfl)

/-- Tracked actions among the new ones and the rest come from the rest if none is new. -/
theorem tracked_of_next {p : Action} (next : List Action) {R : Multiset Action}
    (hnext : ∀ q ∈ next, q.tracked = false) :
    ∀ q ∈ (next : Multiset Action) + R, q.tracked = true → q ∈ p ::ₘ R := by
  intro q hq htracked
  rcases Multiset.mem_add.1 hq with hq | hq
  · rw [hnext q hq] at htracked
    cases htracked
  · exact Multiset.mem_cons_of_mem hq

/-- The only tracked action among the steps is the insertion of a principal for the session. -/
def OnlyStores (s : SessionHandle) (steps : List Action) : Prop :=
  ∀ p ∈ steps, p.tracked = true → ∃ principal, p = .storePrincipal s principal

theorem onlyStores_nil {s : SessionHandle} : OnlyStores s [] := by
  simp [OnlyStores]

theorem onlyStores_cons {s : SessionHandle} {p : Action} {steps : List Action}
    (hp : p.tracked = false) (h : OnlyStores s steps) : OnlyStores s (p :: steps) := by
  intro q hq htracked
  rcases List.mem_cons.1 hq with rfl | hq
  · rw [hp] at htracked
    cases htracked
  · exact h q hq htracked

theorem onlyStores_single {s : SessionHandle} {p : Action} (hp : p.tracked = false) :
    OnlyStores s [p] :=
  onlyStores_cons hp onlyStores_nil

theorem authenticateSteps_onlyStores (svc : Services) (s : SessionHandle) (requestId : UInt64)
    (table : Option Authenticate) : OnlyStores s (authenticateSteps svc s requestId table) := by
  unfold authenticateSteps
  split
  · exact onlyStores_single rfl
  · split
    · exact onlyStores_single rfl
    · split
      · intro p hp htracked
        rcases List.mem_cons.1 hp with rfl | hp
        · exact ⟨_, rfl⟩
        · obtain rfl := List.mem_singleton.1 hp
          cases htracked
      · exact onlyStores_single rfl

theorem leaveSteps_onlyStores (s : SessionHandle) (requestId : UInt64)
    (table : Option RoomRequest) : OnlyStores s (leaveSteps s requestId table) := by
  unfold leaveSteps
  split
  · exact onlyStores_single rfl
  · split
    · exact onlyStores_single rfl
    · exact onlyStores_single rfl

/-- Before its first critical section a message can at most decide to insert its principal. -/
theorem handleSteps_onlyStores (codec : Codec) (svc : Services) (s : SessionHandle)
    (payload : Bytes) : OnlyStores s (handleSteps codec svc s payload) := by
  unfold handleSteps
  split
  · exact onlyStores_nil
  · dsimp only
    split
    · exact onlyStores_single rfl
    · split
      · exact onlyStores_single rfl
      · cases (codec.getNetworkMessage payload).payload with
        | none => exact onlyStores_nil
        | unknown tag present => exact onlyStores_nil
        | serverOnly kind present => exact onlyStores_single rfl
        | ping table =>
            cases table with
            | none => exact onlyStores_nil
            | some ping => exact onlyStores_single rfl
        | pong present => exact onlyStores_nil
        | authenticate table => exact authenticateSteps_onlyStores _ _ _ _
        | joinRoom table => exact onlyStores_single rfl
        | leaveRoom table => exact leaveSteps_onlyStores _ _ _
        | publish table => exact onlyStores_single rfl

theorem joinSteps_untracked (router : ProtocolRouter) (s : SessionHandle) (requestId : UInt64)
    (table : Option RoomRequest) : ∀ q ∈ joinSteps router s requestId table, q.tracked = false := by
  unfold joinSteps
  split
  · simp [errorStep, Action.tracked]
  · split
    · simp [errorStep, Action.tracked]
    · split
      · simp [errorStep, Action.tracked]
      · split <;> simp [ackStep, Action.tracked]

theorem publishSteps_untracked (router : ProtocolRouter) (s : SessionHandle) (requestId : UInt64)
    (table : Option Publish) (payload : Bytes) :
    ∀ q ∈ publishSteps router s requestId table payload, q.tracked = false := by
  unfold publishSteps
  split
  · simp [errorStep, Action.tracked]
  · split
    · simp [errorStep, Action.tracked]
    · dsimp only
      split <;> simp [refusePublish, errorStep, Action.tracked]

/-! ### One step -/

section Steps

variable {codec : Codec} {svc : Services} {sh : Shared} {R : Multiset Action} {s : SessionHandle}

/-- A step that changes none of the tables and decides on no insertion. -/
theorem Removed.quiet {p : Action} {sh' : Shared} {next : List Action} (h : Removed sh (p ::ₘ R))
    (hsh : sh'.router.rooms = sh.router.rooms ∧ sh'.router.principals = sh.router.principals ∧
      sh'.roomsRemoved = sh.roomsRemoved ∧ sh'.principalErased = sh.principalErased ∧
      sh'.returned = sh.returned)
    (hnext : ∀ q ∈ next, q.tracked = false) : Removed sh' (next + R) :=
  h.frame hsh.1 hsh.2.1 hsh.2.2.1 hsh.2.2.2.1 hsh.2.2.2.2 (tracked_of_next _ hnext)

theorem Removed.handle {payload : Bytes} (h : Removed sh (.handle s payload ::ₘ R))
    (hok : sh.principalErased s = true → ¬ Accepts codec svc s payload) :
    Removed sh (handleSteps codec svc s payload + R) := by
  have hold : ∀ q ∈ (handleSteps codec svc s payload : Multiset Action) + R,
      q.tracked = true → q ∈ R ∨ ∃ principal, q = .storePrincipal s principal := by
    intro q hq htracked
    rcases Multiset.mem_add.1 hq with hq | hq
    · exact Or.inr (handleSteps_onlyStores _ _ _ _ q hq htracked)
    · exact Or.inl hq
  refine ⟨h.wellFormed, fun s' hs' => ⟨(h.rooms s' hs').1, fun rid room hp => ?_⟩,
    fun s' hs' => ⟨(h.principal s' hs').1, fun principal hp => ?_⟩, fun s' hp => ?_,
    fun s' hp => h.returning s' (hp.imp_left fun hp => ?_)⟩
  · rcases hold _ hp rfl with hp | ⟨_, hp⟩
    · exact (h.rooms s' hs').2 rid room (Multiset.mem_cons_of_mem hp)
    · cases hp
  · rcases Multiset.mem_add.1 hp with hp | hp
    · obtain ⟨principal', heq⟩ := handleSteps_onlyStores _ _ _ _ _ hp rfl
      obtain ⟨rfl, rfl⟩ := Action.storePrincipal.inj heq
      exact hok hs' ⟨principal, hp⟩
    · exact (h.principal s' hs').2 principal (Multiset.mem_cons_of_mem hp)
  · rcases hold _ hp rfl with hp | ⟨_, hp⟩
    · exact h.erasing s' (Multiset.mem_cons_of_mem hp)
    · cases hp
  · rcases hold _ hp rfl with hp | ⟨_, hp⟩
    · exact Multiset.mem_cons_of_mem hp
    · cases hp

/-- The action that is run is no longer pending. -/
theorem Removed.drop {p : Action} (h : Removed sh (p ::ₘ R)) : Removed sh R :=
  h.frame rfl rfl rfl rfl rfl fun _ hq _ => Multiset.mem_cons_of_mem hq

/-- One more pending action that the invariant does not speak about. -/
theorem Removed.push {q : Action} (h : Removed sh R) (hq : q.tracked = false) :
    Removed sh (([q] : List Action) + R) := by
  refine h.frame rfl rfl rfl rfl rfl fun q' hq' htracked => ?_
  rcases Multiset.mem_add.1 hq' with hq' | hq'
  · obtain rfl := List.mem_singleton.1 hq'
    rw [hq] at htracked
    cases htracked
  · exact hq'

theorem Removed.storePrincipal {principal : Bytes}
    (h : Removed sh (.storePrincipal s principal ::ₘ R)) :
    Removed { sh with router :=
      { sh.router with
        principals := Function.update sh.router.principals s (some principal) } } R := by
  refine ⟨h.drop.wellFormed, h.drop.rooms, fun s' hs' => ⟨?_, (h.drop.principal s' hs').2⟩,
    h.drop.erasing, h.drop.returning⟩
  -- the principal of this session has not been erased yet: the insertion was pending
  have hne : s' ≠ s := by
    rintro rfl
    exact (h.principal s' hs').2 principal (Multiset.mem_cons_self _ _)
  simp only [Function.update_of_ne hne]
  exact (h.principal s' hs').1

theorem mem_single_add {p q : Action} (hq : q ∈ (([p] : List Action) : Multiset Action) + R) :
    q = p ∨ q ∈ R := by
  rcases Multiset.mem_add.1 hq with hq | hq
  · exact Or.inl (List.mem_singleton.1 hq)
  · exact Or.inr hq

theorem Removed.authorizeJoin {requestId : UInt64} {room : Room}
    (h : Removed sh (.authorizeJoin s requestId room ::ₘ R)) (hs : sh.roomsRemoved s = false) :
    Removed sh (([.insertPair s requestId room] : List Action) + R) := by
  refine ⟨h.wellFormed, fun s' hs' => ⟨(h.rooms s' hs').1, fun rid room' hp => ?_⟩,
    fun s' hs' => ⟨(h.principal s' hs').1, fun principal hp => ?_⟩, fun s' hp => ?_,
    fun s' hp => h.drop.returning s' (hp.imp_left fun hp => ?_)⟩
  · rcases mem_single_add hp with hp | hp
    · obtain ⟨rfl, -, -⟩ := Action.insertPair.inj hp
      rw [hs] at hs'
      cases hs'
    · exact (h.drop.rooms s' hs').2 rid room' hp
  · exact (h.drop.principal s' hs').2 principal ((mem_single_add hp).resolve_left (by simp))
  · exact h.drop.erasing s' ((mem_single_add hp).resolve_left (by simp))
  · exact (mem_single_add hp).resolve_left (by simp)

theorem Removed.insertPair {requestId : UInt64} {room : Room}
    (h : Removed sh (.insertPair s requestId room ::ₘ R)) :
    Removed { sh with router :=
      { sh.router with rooms := (sh.router.rooms.join none s room).2 } } R := by
  refine ⟨h.wellFormed.join none s room, fun s' hs' => ⟨fun r hr => ?_, (h.drop.rooms s' hs').2⟩,
    h.drop.principal, h.drop.erasing, h.drop.returning⟩
  rcases (RoomRegistry.join_frame none s room sh.router.rooms s' r).2.1 hr with ⟨-, rfl, -⟩ | hr
  · -- the rooms of this session have not been removed yet: the insertion was pending
    exact (h.rooms s' hs').2 requestId room (Multiset.mem_cons_self _ _)
  · exact (h.rooms s' hs').1 r hr

theorem Removed.leave {requestId : UInt64} {room : Room}
    (h : Removed sh (.leave s requestId room ::ₘ R)) :
    Removed { sh with router :=
      { sh.router with rooms := (sh.router.rooms.leave s room).2 } } R := by
  refine ⟨h.wellFormed.leave s room, fun s' hs' => ⟨fun r hr => ?_, (h.drop.rooms s' hs').2⟩,
    h.drop.principal, h.drop.erasing, h.drop.returning⟩
  exact (h.rooms s' hs').1 r ((RoomRegistry.leave_frame s room sh.router.rooms s' r).2.1 hr).2

theorem Removed.removeSession (h : Removed sh (.removeSession s ::ₘ R))
    (hok : ∀ requestId room, Action.insertPair s requestId room ∉ R) :
    Removed { sh with
      router := { sh.router with rooms := sh.router.rooms.removeSession s }
      roomsRemoved := Function.update sh.roomsRemoved s true }
      (([.erasePrincipal s] : List Action) + R) := by
  have hmark : ∀ s', sh.roomsRemoved s' = true →
      Function.update sh.roomsRemoved s true s' = true := by
    intro s' hs'
    by_cases hne : s' = s
    · subst hne; simp
    · rw [Function.update_of_ne hne]; exact hs'
  refine ⟨h.wellFormed.removeSession s, fun s' hs' => ⟨fun r hr => ?_, fun rid room hp => ?_⟩,
    fun s' hs' => ⟨(h.principal s' hs').1, fun principal hp => ?_⟩, fun s' hp => ?_,
    fun s' hp => ?_⟩
  · obtain ⟨hne, hr⟩ := (RoomRegistry.mem_roomsOf_removeSession s' r).1 hr
    simp only [Function.update_of_ne hne] at hs'
    exact (h.rooms s' hs').1 r hr
  · have hmem := (mem_single_add hp).resolve_left (by simp)
    by_cases hne : s' = s
    · subst hne
      exact hok rid room hmem
    · simp only [Function.update_of_ne hne] at hs'
      exact (h.drop.rooms s' hs').2 rid room hmem
  · exact (h.drop.principal s' hs').2 principal ((mem_single_add hp).resolve_left (by simp))
  · rcases mem_single_add hp with hp | hp
    · obtain rfl := Action.erasePrincipal.inj hp
      simp
    · exact hmark s' (h.drop.erasing s' hp)
  · obtain ⟨hr, he⟩ := h.drop.returning s'
      (hp.imp_left fun hp => (mem_single_add hp).resolve_left (by simp))
    exact ⟨hmark s' hr, he⟩

theorem Removed.erasePrincipal (h : Removed sh (.erasePrincipal s ::ₘ R))
    (hok : ∀ principal, Action.storePrincipal s principal ∉ R) :
    Removed { sh with
      router := { sh.router with principals := Function.update sh.router.principals s none }
      principalErased := Function.update sh.principalErased s true }
      (([.onDisconnectReturns s] : List Action) + R) := by
  have hrooms := h.erasing s (Multiset.mem_cons_self _ _)
  refine ⟨h.wellFormed, fun s' hs' => ⟨(h.rooms s' hs').1, fun rid room hp => ?_⟩,
    fun s' hs' => ?_, fun s' hp => ?_, fun s' hp => ?_⟩
  · exact (h.drop.rooms s' hs').2 rid room ((mem_single_add hp).resolve_left (by simp))
  · by_cases hne : s' = s
    · subst hne
      exact ⟨by simp, fun principal hp => hok principal ((mem_single_add hp).resolve_left (by simp))⟩
    · simp only [Function.update_of_ne hne] at hs' ⊢
      exact ⟨(h.drop.principal s' hs').1,
        fun principal hp => (h.drop.principal s' hs').2 principal
          ((mem_single_add hp).resolve_left (by simp))⟩
  · exact h.drop.erasing s' ((mem_single_add hp).resolve_left (by simp))
  · by_cases hne : s' = s
    · subst hne
      exact ⟨hrooms, by simp⟩
    · have hp' : Action.onDisconnectReturns s' ∈ R ∨ sh.returned s' = true :=
        hp.imp_left fun hp => (mem_single_add hp).resolve_left (by simp [hne])
      simpa [Function.update_of_ne hne] using h.drop.returning s' hp'

theorem Removed.onDisconnectReturns (h : Removed sh (.onDisconnectReturns s ::ₘ R)) :
    Removed { sh with returned := Function.update sh.returned s true } R := by
  refine ⟨h.wellFormed, h.drop.rooms, h.drop.principal, h.drop.erasing, fun s' hp => ?_⟩
  by_cases hne : s' = s
  · subst hne
    exact h.returning s' (Or.inl (Multiset.mem_cons_self _ _))
  · simp only [Function.update_of_ne hne] at hp
    exact h.drop.returning s' hp

/-- The same, step by step. -/
theorem Removed.services {p : Action} (h : Removed sh (p ::ₘ R))
    (hok : InTime codec (.services svc) p sh R) :
    Removed (execWith codec svc sh p).1 ((execWith codec svc sh p).2 + R) := by
  have hsame : sh.router.rooms = sh.router.rooms ∧ sh.router.principals = sh.router.principals ∧
      sh.roomsRemoved = sh.roomsRemoved ∧ sh.principalErased = sh.principalErased ∧
      sh.returned = sh.returned := ⟨rfl, rfl, rfl, rfl, rfl⟩
  cases p with
  | outside => exact h.quiet hsame (by simp [execWith, Action.tracked])
  | loop s messages =>
      cases messages with
      | nil => exact h.quiet hsame (by simp [execWith])
      | cons message messages =>
          simp only [execWith]
          split
          · exact h.quiet hsame (by simp)
          · exact h.quiet hsame (by simp [Action.tracked])
  | handle s payload => exact h.handle hok
  | storePrincipal s principal => simpa [execWith] using h.storePrincipal
  | checkJoin s requestId table => exact h.quiet hsame (joinSteps_untracked _ _ _ _)
  | authorizeJoin s requestId room =>
      simp only [execWith]
      by_cases hyes : sh.router.authorizeRoom svc s room false = true
      · simp only [hyes, if_true]
        refine h.authorizeJoin ?_
        -- behind `RemoveSession` nobody is authorized any more
        by_contra hs
        rw [hok (by simpa using hs)] at hyes
        cases hyes
      · simp only [hyes, Bool.false_eq_true, if_false]
        exact h.drop.push rfl
  | insertPair s requestId room => exact h.insertPair.push rfl
  | leave s requestId room => exact h.leave.push rfl
  | checkPublish s requestId table payload =>
      exact h.quiet hsame (publishSteps_untracked _ _ _ _ _)
  | authorizePublish s requestId room payload =>
      simp only [execWith]
      split
      · exact h.drop.push rfl
      · exact h.drop.push rfl
  | findPair s requestId room payload =>
      simp only [execWith]
      split
      · exact h.drop.push rfl
      · exact h.drop.push rfl
  | snapshot s room payload => exact h.quiet hsame (by simp [execWith, Action.tracked])
  | respond s requestId body =>
      exact h.quiet ⟨rfl, rfl, rfl, rfl, rfl⟩ (by simp [execWith, Action.tracked])
  | send s recipient message => exact h.quiet ⟨rfl, rfl, rfl, rfl, rfl⟩ (by simp [execWith])
  | disconnect s =>
      simp only [execWith]
      split
      · exact h.quiet hsame (by simp)
      · exact h.quiet ⟨rfl, rfl, rfl, rfl, rfl⟩ (by simp [Action.tracked])
  | removeSession s => exact h.removeSession hok
  | erasePrincipal s => exact h.erasePrincipal hok
  | onDisconnectReturns s => simpa [execWith] using h.onDisconnectReturns

/-- **A step that is in time keeps what has been removed out.** -/
theorem Removed.exec {x : Choice} {p : Action} {o : Outcome Shared Action}
    (ho : (program codec).exec x p sh = some o) (hok : InTime codec x p sh R)
    (h : Removed sh (p ::ₘ R)) : Removed o.shared (o.next + o.forked.flatten + R) := by
  cases x with
  | worker s messages =>
      cases p with
      | outside =>
          obtain rfl := Option.some.inj ho
          exact h.frame rfl rfl rfl rfl rfl (tracked_of_next [.outside, .loop s messages]
            (by simp [Action.tracked]))
      | _ => cases ho
  | disconnecter s =>
      cases p with
      | outside =>
          obtain rfl := Option.some.inj ho
          exact h.frame rfl rfl rfl rfl rfl (tracked_of_next [.outside, .disconnect s]
            (by simp [Action.tracked]))
      | _ => cases ho
  | services svc =>
      have hexec : o = ⟨(execWith codec svc sh p).1, (execWith codec svc sh p).2, []⟩ := by
        cases p <;> exact (Option.some.inj ho).symm
      subst hexec
      simp only [List.flatten_nil, Multiset.coe_nil, add_zero]
      exact h.services hok

end Steps

/-! ### Runs -/

theorem Removed.start : Removed start.shared start.pending := by
  refine ⟨RoomRegistry.wellFormed_empty, ?_, ?_, ?_, ?_⟩ <;>
    simp [RouterSteps.start, Shared.initial, Config.pending]

/-- **Nothing survives a disconnect in a run whose steps are all in time.** -/
theorem nothing_survives (codec : Codec) (moves : List (ℕ × Choice)) (c : Config Shared Action)
    (htime : (program codec).AllMeet (InTime codec) moves start)
    (hrun : (program codec).run moves start = some c) : NothingSurvives c := by
  have h : Removed c.shared c.pending :=
    Program.invariant_of_allMeet (fun _ _ _ _ _ ho hok h => h.exec ho hok) moves htime
      Removed.start hrun
  intro s hreturned _
  obtain ⟨hrooms, herased⟩ := h.returning s (Or.inr hreturned)
  obtain ⟨hnone, -⟩ := h.rooms s hrooms
  refine ⟨(h.principal s herased).1, ?_, fun r hr => hnone r ((h.wellFormed.inverse s r).1 hr)⟩
  exact h.wellFormed.sessionToRooms_eq_none hnone

/-! ### A run in time, and one that is not -/

/-- A codec whose messages are all an authentication as `alice`. -/
def aliceOnly : Codec where
  verify _ := true
  getNetworkMessage _ := ⟨1, 1, .authenticate (some ⟨some (ascii "alice")⟩)⟩

/-- Every token is accepted as the name of its principal. -/
def acceptAll : Choice := .services ⟨some some, none, 0⟩

/-- A worker processes one message, and then the session is disconnected. -/
def messageThenDisconnect : List (ℕ × Choice) :=
  [(0, .worker ⟨1, 1⟩ [[1]]), (1, acceptAll), (1, acceptAll), (1, acceptAll), (1, acceptAll),
    (1, acceptAll), (1, acceptAll), (0, .disconnecter ⟨1, 1⟩), (2, acceptAll), (2, acceptAll),
    (2, acceptAll), (2, acceptAll)]

/-- The run above is in time, and the session is forgotten at its end. -/
theorem nothing_survives_messageThenDisconnect :
    ∃ c, (program aliceOnly).run messageThenDisconnect start = some c ∧
      c.shared.returned ⟨1, 1⟩ = true ∧ NothingSurvives c := by
  refine ⟨_, rfl, rfl, nothing_survives aliceOnly messageThenDisconnect _ ?_ rfl⟩
  refine Program.allMeet_cons rfl rfl (fun _ _ => trivial) ?_
  refine Program.allMeet_cons rfl rfl (fun _ _ => trivial) ?_
  refine Program.allMeet_cons rfl rfl (fun _ _ h => absurd h (by decide)) ?_
  refine Program.allMeet_cons rfl rfl (fun _ _ => trivial) ?_
  refine Program.allMeet_cons rfl rfl (fun _ _ => trivial) ?_
  refine Program.allMeet_cons rfl rfl (fun _ _ => trivial) ?_
  refine Program.allMeet_cons rfl rfl (fun _ _ => trivial) ?_
  refine Program.allMeet_cons rfl rfl (fun _ _ => trivial) ?_
  refine Program.allMeet_cons rfl rfl (fun _ _ => trivial) ?_
  have hbeside : ∀ {p q : Action} {R : Multiset Action},
      (([.outside, p] : List Action) : Multiset Action) = p ::ₘ R → q ∈ R → q ∈ [.outside, p] :=
    fun hR hq => Multiset.mem_coe.1 (hR ▸ Multiset.mem_cons_of_mem hq)
  refine Program.allMeet_cons rfl rfl (fun R hR requestId room hmem => ?_) ?_
  · have hp := hbeside (p := .removeSession ⟨1, 1⟩) hR hmem
    simp at hp
  refine Program.allMeet_cons rfl rfl (fun R hR principal hmem => ?_) ?_
  · have hp := hbeside (p := .erasePrincipal ⟨1, 1⟩) hR hmem
    simp at hp
  exact Program.allMeet_cons rfl rfl (fun _ _ => trivial) trivial

/-- The worker has accepted the token when the session is disconnected by another thread, and
inserts the principal afterwards. -/
def lateInsertion : List (ℕ × Choice) :=
  [(0, .worker ⟨1, 1⟩ [[1]]), (1, acceptAll), (1, acceptAll), (0, .disconnecter ⟨1, 1⟩),
    (2, acceptAll), (2, acceptAll), (2, acceptAll), (2, acceptAll), (1, acceptAll),
    (1, acceptAll), (1, acceptAll), (1, acceptAll)]

/-- In the run above the principal survives: `OnDisconnect` has returned, no `Handle` call is
running, and the session still has a principal. -/
theorem late_insertion_survives :
    ¬ ∀ (codec : Codec) (moves : List (ℕ × Choice)) (c : Config Shared Action),
      (program codec).run moves start = some c → NothingSurvives c := by
  intro hall
  have hidle := hall aliceOnly lateInsertion _ rfl ⟨1, 1⟩ rfl
  have hforgotten := hidle fun p hp => by
    obtain rfl := List.mem_singleton.1 hp
    rfl
  exact absurd hforgotten.1 (by decide)

end RouterSteps

end RealtimeEngine
