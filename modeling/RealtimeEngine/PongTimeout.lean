/-
**The timer and the pings of a session.**

`TimerLoop` visits every registered session twice a second and disconnects it when one of its
timeouts is over.  A WebSocket session that has been quiet for `websocket_ping_interval` is sent a
Ping, and is disconnected when `websocket_pong_timeout` has passed without a Pong.  Whether a Ping
is under way is in `awaiting_pong`, and since when in `last_pong_ms`; the timer writes both before
it calls `SendControl`, which drops the result of `Enqueue`.

One session is followed here.  A visit of the timer and a Pong event of `ProcessWebSocket` are one
step each; whatever else happens to the session between them, and to the bytes queued by other
sessions, may set all other fields to anything.  The clock may even go back.

Main definitions:

* `RealtimeEngine.Timeouts` — the timeouts of `ServerConfig`;
* `RealtimeEngine.PongTimeout.timerTick` — the body of the loop of `TimerLoop`;
* `RealtimeEngine.PongTimeout.Unanswered` — a Ping was accepted long enough ago, and no Pong came.

Main results:

* `RealtimeEngine.PongTimeout.step_awaits` — what `awaiting_pong` means, if pings are accepted;
* `RealtimeEngine.PongTimeout.pong_timeout` — **the run theorem**;
* `RealtimeEngine.PongTimeout.ping_refused` — a session that is dropped for a ping nobody sent.
-/

import RealtimeEngine.ServerItems

set_option relaxedAutoImplicit false
set_option autoImplicit false

namespace RealtimeEngine

/-- The timeouts of `ServerConfig`, in milliseconds. -/
structure Timeouts where
  handshakeTimeout : ℤ := 5000
  idleTimeout : ℤ := 60000
  websocketPingInterval : ℤ := 20000
  websocketPongTimeout : ℤ := 10000
  closeTimeout : ℤ := 3000
  deriving DecidableEq, Repr

namespace PongTimeout

/-! ### The session and the timer -/

/-- The fields of a session that somebody other than the timer and the Pong events writes, with
`metrics.queued_bytes`. -/
structure Surroundings where
  disconnectStarted : Bool := false
  state : SessionState := .handshaking
  transport : TransportKind := .detecting
  lastActivityMs : ℤ
  closeStartedMs : ℤ := 0
  /-- `session->queued_bytes`. -/
  queuedBytes : ℕ := 0
  /-- `metrics.queued_bytes`. -/
  globalQueuedBytes : ℕ := 0
  deriving DecidableEq, Repr

/-- The session, as the timer sees it. -/
structure Session extends Surroundings where
  connectedAtMs : ℤ
  lastPongMs : ℤ
  awaitingPong : Bool := false
  deriving DecidableEq, Repr

/-- `ClientSession::ClientSession`. -/
def Session.connected (now : ℤ) : Session :=
  { lastActivityMs := now, connectedAtMs := now, lastPongMs := now }

/-- `ReserveGlobalQueued`, and the test of the session's own limit in front of it. -/
def fits (config : ServerConfig) (bytes : ℕ) (x : Surroundings) : Bool :=
  let sessionLimit := config.maxSessionQueuedBytes.toNat
  let globalLimit := config.maxGlobalQueuedBytes.toNat
  !(decide (bytes > sessionLimit) || decide (x.queuedBytes > sessionLimit - bytes) ||
    decide (bytes > globalLimit) || decide (x.globalQueuedBytes > globalLimit - bytes))

/-- `Enqueue`. -/
def enqueue (config : ServerConfig) (item : OutboundItem) (x : Session) : Bool × Session :=
  if x.disconnectStarted then (false, x)
  else if fits config item.size x.toSurroundings then
    (true, { x with
      queuedBytes := x.queuedBytes + item.size
      globalQueuedBytes := x.globalQueuedBytes + item.size })
  else (false, x)

/-- `Disconnect`, as far as the timer looks at its session again. -/
def disconnect (x : Session) : Session := { x with disconnectStarted := true, state := .closed }

/-- What a visit of the timer comes to. -/
inductive Visit
  | passes
  | handshakeTimeout
  | closeTimeout
  | idleTimeout
  | pongTimeout
  /-- A Ping is handed to `SendControl`, and `Enqueue` accepts or refuses it. -/
  | pings (accepted : Bool)
  deriving DecidableEq, Repr

/-- The item of a Ping. -/
def pingItem : OutboundItem := frameItem .ping [] false

/-- The body of the loop of `TimerLoop`. -/
def timerTick (timeouts : Timeouts) (config : ServerConfig) (now : ℤ) (x : Session) :
    Visit × Session :=
  if x.disconnectStarted then (.passes, x)
  else if x.state = .handshaking ∧ now - x.connectedAtMs > timeouts.handshakeTimeout then
    (.handshakeTimeout, disconnect x)
  else if x.state = .closing ∧ now - x.closeStartedMs > timeouts.closeTimeout then
    (.closeTimeout, disconnect x)
  else if x.state ≠ .opened then (.passes, x)
  else if now - x.lastActivityMs > timeouts.idleTimeout then (.idleTimeout, disconnect x)
  else if x.transport = .webSocket then
    if x.awaitingPong then
      if now - x.lastPongMs > timeouts.websocketPongTimeout then (.pongTimeout, disconnect x)
      else (.passes, x)
    else if now - x.lastPongMs > timeouts.websocketPingInterval then
      let x := { x with awaitingPong := true, lastPongMs := now }
      -- `SendControl` does not pass on what `Enqueue` returns
      let (accepted, x) := enqueue config pingItem x
      (.pings accepted, x)
    else (.passes, x)
  else (.passes, x)

/-! ### Runs -/

/-- A step: the timer visits the session, a Pong event is processed, or something else happens. -/
inductive Event
  | tick (now : ℤ)
  | pong (now : ℤ)
  | elsewhere (surroundings : Surroundings)
  deriving DecidableEq, Repr

/-- What is remembered of a step: a Ping, with the time of its visit and what `Enqueue` said, or a
Pong. -/
inductive Mark
  | ping (sent : ℤ) (accepted : Bool)
  | pong
  deriving DecidableEq, Repr

variable (timeouts : Timeouts) (config : ServerConfig)

/-- One step: what is remembered of it, and the session. -/
def step (event : Event) (x : Session) : List Mark × Session :=
  match event with
  | .tick now =>
      match timerTick timeouts config now x with
      | (.pings accepted, x) => ([.ping now accepted], x)
      | (_, x) => ([], x)
  | .pong now => ([.pong], { x with awaitingPong := false, lastPongMs := now })
  | .elsewhere surroundings => ([], { x with toSurroundings := surroundings })

/-- Steps, one after the other. -/
def run : List Event → Session → List Mark × Session
  | [], x => ([], x)
  | event :: events, x =>
      ((step timeouts config event x).1 ++ (run events (step timeouts config event x).2).1,
        (run events (step timeouts config event x).2).2)

/-- A Ping was accepted more than `websocket_pong_timeout` ago, and no Pong has come since. -/
def Unanswered (now : ℤ) (marks : List Mark) : Prop :=
  ∃ before sent after, marks = before ++ .ping sent true :: after ∧ .pong ∉ after ∧
    now - sent > timeouts.websocketPongTimeout

/-- The timer is about to send a Ping. -/
def sendsPing (now : ℤ) (x : Session) : Prop :=
  x.disconnectStarted = false ∧ x.state = .opened ∧
    now - x.lastActivityMs ≤ timeouts.idleTimeout ∧ x.transport = .webSocket ∧
    x.awaitingPong = false ∧ now - x.lastPongMs > timeouts.websocketPingInterval

/-- **The condition of a step**: where the timer sends a Ping, the limits have room for it. -/
def Roomy (event : Event) (x : Session) : Prop :=
  ∀ now, event = .tick now → sendsPing timeouts now x →
    fits config pingItem.size x.toSurroundings = true

/-- All steps of a run meet the condition. -/
def AllRoomy : List Event → Session → Prop
  | [], _ => True
  | event :: events, x =>
      Roomy timeouts config event x ∧ AllRoomy events (step timeouts config event x).2

/-! ### One step -/

/-- What a visit of the timer does to the marks of a Ping. -/
theorem timerTick_cases (now : ℤ) (x : Session) :
    (∃ visit x', timerTick timeouts config now x = (visit, x') ∧
        (∀ accepted, visit ≠ .pings accepted) ∧ x'.awaitingPong = x.awaitingPong ∧
        x'.lastPongMs = x.lastPongMs ∧
        (visit = .pongTimeout →
          x.awaitingPong = true ∧ now - x.lastPongMs > timeouts.websocketPongTimeout)) ∨
      sendsPing timeouts now x ∧ ∃ x',
        timerTick timeouts config now x =
            (.pings (fits config pingItem.size x.toSurroundings), x') ∧
          x'.awaitingPong = true ∧ x'.lastPongMs = now := by
  -- all ways out of the loop body but two leave the fields of a Ping alone
  have hother : ∀ {visit : Visit} {x' : Session}, timerTick timeouts config now x = (visit, x') →
      (∀ accepted, visit ≠ .pings accepted) → visit ≠ .pongTimeout →
        x'.awaitingPong = x.awaitingPong → x'.lastPongMs = x.lastPongMs →
          ∃ visit x', timerTick timeouts config now x = (visit, x') ∧
            (∀ accepted, visit ≠ .pings accepted) ∧ x'.awaitingPong = x.awaitingPong ∧
            x'.lastPongMs = x.lastPongMs ∧
            (visit = .pongTimeout →
              x.awaitingPong = true ∧ now - x.lastPongMs > timeouts.websocketPongTimeout) :=
    fun {visit x'} htick hping hpong hawaiting hlast =>
      ⟨visit, x', htick, hping, hawaiting, hlast, fun h => absurd h hpong⟩
  by_cases hconnected : x.disconnectStarted = true
  · have htick : timerTick timeouts config now x = (.passes, x) := by
      rw [timerTick, if_pos hconnected]
    exact Or.inl (hother htick (fun _ h => (by cases h)) (by decide) rfl rfl)
  by_cases hhandshake : x.state = .handshaking ∧ now - x.connectedAtMs > timeouts.handshakeTimeout
  · have htick : timerTick timeouts config now x = (.handshakeTimeout, disconnect x) := by
      rw [timerTick, if_neg hconnected, if_pos hhandshake]
    exact Or.inl (hother htick (fun _ h => (by cases h)) (by decide) rfl rfl)
  by_cases hclosing : x.state = .closing ∧ now - x.closeStartedMs > timeouts.closeTimeout
  · have htick : timerTick timeouts config now x = (.closeTimeout, disconnect x) := by
      rw [timerTick, if_neg hconnected, if_neg hhandshake, if_pos hclosing]
    exact Or.inl (hother htick (fun _ h => (by cases h)) (by decide) rfl rfl)
  have hbegin : timerTick timeouts config now x =
      if x.state ≠ .opened then (.passes, x)
      else if now - x.lastActivityMs > timeouts.idleTimeout then (.idleTimeout, disconnect x)
      else if x.transport = .webSocket then
        if x.awaitingPong then
          if now - x.lastPongMs > timeouts.websocketPongTimeout then (.pongTimeout, disconnect x)
          else (.passes, x)
        else if now - x.lastPongMs > timeouts.websocketPingInterval then
          let x := { x with awaitingPong := true, lastPongMs := now }
          let (accepted, x) := enqueue config pingItem x
          (.pings accepted, x)
        else (.passes, x)
      else (.passes, x) := by
    rw [timerTick, if_neg hconnected, if_neg hhandshake, if_neg hclosing]
  by_cases hopen : x.state = .opened
  swap
  · rw [if_pos hopen] at hbegin
    exact Or.inl (hother hbegin (fun _ h => (by cases h)) (by decide) rfl rfl)
  rw [if_neg (not_not.2 hopen)] at hbegin
  by_cases hidle : now - x.lastActivityMs > timeouts.idleTimeout
  · rw [if_pos hidle] at hbegin
    exact Or.inl (hother hbegin (fun _ h => (by cases h)) (by decide) rfl rfl)
  rw [if_neg hidle] at hbegin
  by_cases htransport : x.transport = .webSocket
  swap
  · rw [if_neg htransport] at hbegin
    exact Or.inl (hother hbegin (fun _ h => (by cases h)) (by decide) rfl rfl)
  rw [if_pos htransport] at hbegin
  by_cases hawaiting : x.awaitingPong = true
  · rw [if_pos hawaiting] at hbegin
    by_cases hover : now - x.lastPongMs > timeouts.websocketPongTimeout
    · rw [if_pos hover] at hbegin
      exact Or.inl ⟨.pongTimeout, _, hbegin, fun _ h => (by cases h), rfl, rfl,
        fun _ => ⟨hawaiting, hover⟩⟩
    · rw [if_neg hover] at hbegin
      exact Or.inl (hother hbegin (fun _ h => (by cases h)) (by decide) rfl rfl)
  rw [if_neg hawaiting] at hbegin
  by_cases hquiet : now - x.lastPongMs > timeouts.websocketPingInterval
  swap
  · rw [if_neg hquiet] at hbegin
    exact Or.inl (hother hbegin (fun _ h => (by cases h)) (by decide) rfl rfl)
  -- the Ping is noted whatever `Enqueue` says
  rw [if_pos hquiet] at hbegin
  dsimp only [enqueue] at hbegin
  rw [if_neg hconnected] at hbegin
  refine Or.inr ⟨⟨Bool.eq_false_iff.2 hconnected, hopen, not_lt.1 hidle, htransport,
    Bool.eq_false_iff.2 hawaiting, hquiet⟩, ?_⟩
  rw [hbegin]
  cases fits config pingItem.size x.toSurroundings with
  | true => exact ⟨_, rfl, rfl, rfl⟩
  | false => exact ⟨_, rfl, rfl, rfl⟩

variable {timeouts config}

/-- While a Pong is awaited, a Ping was accepted at `last_pong_ms`, and no Pong has come since. -/
def Awaits (marks : List Mark) (x : Session) : Prop :=
  x.awaitingPong = true →
    ∃ before after, marks = before ++ .ping x.lastPongMs true :: after ∧ .pong ∉ after

/-- **A step that meets the condition** leaves `awaiting_pong` with its meaning. -/
theorem step_awaits {marks : List Mark} {x : Session} {event : Event} (h : Awaits marks x)
    (hroomy : Roomy timeouts config event x) :
    Awaits (marks ++ (step timeouts config event x).1) (step timeouts config event x).2 := by
  cases event with
  | tick now =>
      rcases timerTick_cases timeouts config now x with
        ⟨visit, x', htick, hvisit, hawaiting, hpong, -⟩ | ⟨hsends, x', htick, -, hpong⟩
      · have hstep : step timeouts config (.tick now) x = ([], x') := by
          rw [step, htick]
          cases visit with
          | pings accepted => exact absurd rfl (hvisit accepted)
          | passes | handshakeTimeout | closeTimeout | idleTimeout | pongTimeout => rfl
        rw [hstep, List.append_nil]
        intro hx
        rw [hpong]
        exact h (hawaiting ▸ hx)
      · have hfits := hroomy now rfl hsends
        rw [hfits] at htick
        have hstep : step timeouts config (.tick now) x = ([.ping now true], x') := by
          rw [step, htick]
        rw [hstep]
        intro _
        rw [hpong]
        exact ⟨marks, [], rfl, List.not_mem_nil⟩
  | pong now =>
      intro hx
      cases hx
  | elsewhere surroundings =>
      rw [step, List.append_nil]
      exact h

/-- A run whose steps all meet the condition. -/
theorem run_awaits {marks : List Mark} {x : Session} {events : List Event} (h : Awaits marks x)
    (hroomy : AllRoomy timeouts config events x) :
    Awaits (marks ++ (run timeouts config events x).1) (run timeouts config events x).2 := by
  induction events generalizing marks x with
  | nil => simpa [run] using h
  | cons event events ih =>
      have hrest := ih (step_awaits h hroomy.1) hroomy.2
      rwa [run, ← List.append_assoc]

/-- **The pong timeout punishes unanswered pings only**, in every run in which the limits have room
for the pings the timer sends. -/
theorem pong_timeout (timeouts : Timeouts) (config : ServerConfig) (connectedAt : ℤ)
    {events : List Event} {marks : List Mark} {x : Session}
    (hroomy : AllRoomy timeouts config events (.connected connectedAt))
    (hrun : run timeouts config events (.connected connectedAt) = (marks, x)) (now : ℤ)
    (htick : (timerTick timeouts config now x).1 = .pongTimeout) : Unanswered timeouts now marks := by
  have hawaits : Awaits ([] ++ (run timeouts config events (.connected connectedAt)).1)
      (run timeouts config events (.connected connectedAt)).2 :=
    run_awaits (fun hx => by cases hx) hroomy
  rw [hrun, List.nil_append] at hawaits
  rcases timerTick_cases timeouts config now x with
    ⟨visit, x', hvisit, -, -, -, hover⟩ | ⟨-, x', hvisit, -⟩
  · rw [hvisit] at htick
    obtain ⟨hawaiting, htimeout⟩ := hover htick
    obtain ⟨before, after, hmarks, hnone⟩ := hawaits hawaiting
    exact ⟨before, x.lastPongMs, after, hmarks, hnone, htimeout⟩
  · rw [hvisit] at htick
    cases htick

/-- The surroundings of a session that is upgraded at once, with so many bytes queued by others. -/
def upgraded (queued : ℕ) : Surroundings where
  state := .opened
  transport := .webSocket
  lastActivityMs := 0
  globalQueuedBytes := queued

/-- The timer pings the session, and nothing comes back. -/
def silentPeer : List Event := [.elsewhere (upgraded 0), .tick 20001]

/-- The ping is accepted, and the session is disconnected for it. -/
theorem pong_timeout_silentPeer : ∃ marks x,
    run {} {} silentPeer (.connected 0) = (marks, x) ∧
      (timerTick {} {} 30002 x).1 = .pongTimeout ∧ Unanswered {} 30002 marks := by
  have hroomy : AllRoomy {} {} silentPeer (.connected 0) := by
    refine ⟨fun now hevent => ?_, fun now _ _ => by decide, trivial⟩
    cases hevent
  exact ⟨_, _, rfl, by decide, pong_timeout {} {} 0 hroomy rfl 30002 (by decide)⟩

/-- Other sessions have used up the limit of the server when the timer sends its ping, and have
given it back when it comes again. -/
def crowdedServer : List Event :=
  [.elsewhere (upgraded (512 * 1024 * 1024)), .tick 20001, .elsewhere (upgraded 0)]

/-- **A session is dropped for a ping that was never sent.** -/
theorem ping_refused : ∃ marks x,
    run {} {} crowdedServer (.connected 0) = (marks, x) ∧
      (timerTick {} {} 30002 x).1 = .pongTimeout ∧ marks = [.ping 20001 false] ∧
      ¬ Unanswered {} 30002 marks := by
  refine ⟨_, _, rfl, by decide, by decide, ?_⟩
  rintro ⟨before, sent, after, hmarks, -⟩
  have hmem : Mark.ping sent true ∈ before ++ .ping sent true :: after :=
    List.mem_append_right _ List.mem_cons_self
  rw [← hmarks] at hmem
  have hping : Mark.ping sent true = .ping 20001 false := List.mem_singleton.1 hmem
  cases hping

end PongTimeout

end RealtimeEngine
