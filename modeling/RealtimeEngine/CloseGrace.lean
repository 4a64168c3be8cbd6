/-
**The grace period of a session that is closing.**

`SendControl` with `close_after` moves the state of its session to `Closing` by a compare-and-swap,
then reads the clock, and then stores what it has read in `close_started_ms`.  `TimerLoop` loads the
state, and where it is `Closing` it loads `close_started_ms` and disconnects the session when
`close_timeout` has passed since.  Here every load, store and compare-and-swap is a step of its own,
and any number of calls of `SendControl` and visits of the timer run at the same time.

The fields that only other threads write (the transport, and the times of the connection and of the
last activity) have any value, and what `Disconnect` and `Enqueue` do to other fields is left out.

The model remembers what the code does not: the clock at the step that has moved the state to
`Closing`, and the clock at each `Disconnect` through the `Closing` branch of the timer.

Main definitions:

* `RealtimeEngine.CloseGrace.Shared`, `RealtimeEngine.CloseGrace.Task` — the session and the steps;
* `RealtimeEngine.CloseGrace.inTime` — the condition of a step.

Main results:

* `RealtimeEngine.CloseGrace.Graceful.exec` — every step that meets the condition keeps the
  invariant;
* `RealtimeEngine.CloseGrace.close_grace` — **the run theorem**;
* `RealtimeEngine.CloseGrace.close_cut` — a session that is disconnected at once.
-/

import RealtimeEngine.Interleaving
import RealtimeEngine.PongTimeout

set_option relaxedAutoImplicit false
set_option autoImplicit false

namespace RealtimeEngine

namespace CloseGrace

open Interleaving

/-! ### State and steps -/

/-- The session, and the clock. -/
structure Shared where
  clock : ℤ
  state : SessionState
  transport : TransportKind := .detecting
  disconnectStarted : Bool := false
  connectedAtMs : ℤ
  lastActivityMs : ℤ
  lastPongMs : ℤ
  closeStartedMs : ℤ := 0
  awaitingPong : Bool := false
  /-- The clock when the state was moved to `Closing`. -/
  closingSince : Option ℤ := none
  /-- The clock at each disconnect through the `Closing` branch. -/
  cuts : List ℤ := []
  deriving DecidableEq, Repr

/-- Where a thread stands.  In the timer, `now` is what it has read from the clock. -/
inductive Task
  /-- The callers of `SendControl`, the loop of the timer, and the clock. -/
  | outside
  /-- `SendControl` at `session->state.load()`. -/
  | loadCurrent
  /-- `SendControl` at the test of its loop, and at `compare_exchange_weak` if it goes on. -/
  | exchange (current : SessionState)
  /-- `SendControl` at `MonotonicMilliseconds()`. -/
  | readClock
  /-- `SendControl` at `session->close_started_ms.store`. -/
  | storeStarted (now : ℤ)
  /-- `SendControl` at its call of `Enqueue`. -/
  | enqueue
  /-- `Disconnect` at `disconnect_started.exchange(true)`. -/
  | disconnect
  /-- `Disconnect` at `session->state.store(SessionState::Closed)`. -/
  | storeClosed
  /-- The timer at `MonotonicMilliseconds()`. -/
  | tick
  | loadDisconnectStarted (now : ℤ)
  | loadState (now : ℤ)
  | loadConnectedAt (now : ℤ)
  | loadCloseStarted (now : ℤ)
  | loadLastActivity (now : ℤ)
  | loadTransport (now : ℤ)
  | loadAwaitingPong (now : ℤ)
  | loadLastPong (now : ℤ) (awaiting : Bool)
  | storeAwaitingPong (now : ℤ)
  | storeLastPong (now : ℤ)
  deriving DecidableEq, Repr

/-- What a step leaves open. -/
inductive Choice
  | passes
  /-- `compare_exchange_weak` fails although the state is the expected one. -/
  | failsSpuriously
  /-- `Enqueue` refuses the item. -/
  | refuses
  /-- The clock goes on by so many milliseconds. -/
  | clock (elapsed : ℕ)
  /-- Somebody calls `SendControl` with `close_after`. -/
  | closes
  /-- The timer begins a visit. -/
  | visits
  deriving DecidableEq, Repr

/-- A step that changes nothing but the thread. -/
def goes (sh : Shared) (next : List Task) : Option (Outcome Shared Task) := some ⟨sh, next, []⟩

/-- The loop of `SendControl` with this `current`. -/
def exchange (x : Choice) (current : SessionState) (sh : Shared) : Outcome Shared Task :=
  if current = .closed ∨ current = .closing then ⟨sh, [], []⟩
  else if sh.state = current ∧ x ≠ .failsSpuriously then
    ⟨{ sh with state := .closing, closingSince := some sh.clock }, [.readClock], []⟩
  else ⟨sh, [.exchange sh.state], []⟩

/-- The branch of the timer for this state. -/
def branch (now : ℤ) : SessionState → List Task
  | .handshaking => [.loadConnectedAt now]
  | .closing => [.loadCloseStarted now]
  | .opened => [.loadLastActivity now]
  | .connecting | .closed => []

/-- What each step does. -/
def exec (timeouts : Timeouts) (x : Choice) (t : Task) (sh : Shared) :
    Option (Outcome Shared Task) :=
  match t with
  | .outside =>
      match x with
      | .clock elapsed => goes { sh with clock := sh.clock + elapsed } [.outside]
      | .closes => some ⟨sh, [.outside], [[.loadCurrent]]⟩
      | .visits => some ⟨sh, [.outside], [[.tick]]⟩
      | .passes | .failsSpuriously | .refuses => none
  | .loadCurrent => goes sh [.exchange sh.state]
  | .exchange current => some (exchange x current sh)
  | .readClock => goes sh [.storeStarted sh.clock]
  | .storeStarted now => goes { sh with closeStartedMs := now } [.enqueue]
  | .enqueue => goes sh (if x = .refuses then [.disconnect] else [])
  | .disconnect =>
      goes { sh with disconnectStarted := true } (if sh.disconnectStarted then [] else [.storeClosed])
  | .storeClosed => goes { sh with state := .closed } []
  | .tick => goes sh [.loadDisconnectStarted sh.clock]
  | .loadDisconnectStarted now => goes sh (if sh.disconnectStarted then [] else [.loadState now])
  | .loadState now => goes sh (branch now sh.state)
  | .loadConnectedAt now =>
      goes sh (if now - sh.connectedAtMs > timeouts.handshakeTimeout then [.disconnect] else [])
  | .loadCloseStarted now =>
      if now - sh.closeStartedMs > timeouts.closeTimeout then
        goes { sh with cuts := sh.cuts ++ [sh.clock] } [.disconnect]
      else goes sh []
  | .loadLastActivity now =>
      goes sh (if now - sh.lastActivityMs > timeouts.idleTimeout then [.disconnect]
        else [.loadTransport now])
  | .loadTransport now =>
      goes sh (if sh.transport = .webSocket then [.loadAwaitingPong now] else [])
  | .loadAwaitingPong now => goes sh [.loadLastPong now sh.awaitingPong]
  | .loadLastPong now awaiting =>
      goes sh (if awaiting then
          if now - sh.lastPongMs > timeouts.websocketPongTimeout then [.disconnect] else []
        else if now - sh.lastPongMs > timeouts.websocketPingInterval then [.storeAwaitingPong now]
        else [])
  | .storeAwaitingPong now => goes { sh with awaitingPong := true } [.storeLastPong now]
  -- the Ping behind it has no `close_after`: it moves no state
  | .storeLastPong now => goes { sh with lastPongMs := now } []

/-- The program. -/
def program (timeouts : Timeouts) : Program Shared Task Choice := ⟨exec timeouts⟩

/-- Nothing has happened to the session yet. -/
def Shared.Fresh (sh : Shared) : Prop :=
  sh.state ≠ .closing ∧ sh.closeStartedMs = 0 ∧ sh.closingSince = none ∧ sh.cuts = []

/-- Where the runs begin. -/
def start (sh : Shared) : Config Shared Task := ⟨sh, [[.outside]]⟩

/-! ### The property and the condition -/

/-- **The grace period is honoured**: each disconnect through the `Closing` branch comes more than
`close_timeout` after the step that has moved the state to `Closing`. -/
def Honoured (timeouts : Timeouts) (sh : Shared) : Prop :=
  ∀ cut ∈ sh.cuts, ∃ since, sh.closingSince = some since ∧ cut - since > timeouts.closeTimeout

/-- `SendControl` has moved the state to `Closing` and has not stored its time. -/
def Task.stamping : Task → Bool
  | .readClock | .storeStarted _ => true
  | _ => false

/-- The steps that are between the move and the store, each counted once. -/
def beside (_ t : Task) : ℕ := t.stamping.toNat

/-- **The condition of a step**: where the timer finds that the grace period is over, no
`SendControl` still has to store when it has begun. -/
def inTime (timeouts : Timeouts) (t : Task) (sh : Shared) (storing : ℕ) : Bool :=
  match t with
  | .loadCloseStarted now =>
      decide (now - sh.closeStartedMs ≤ timeouts.closeTimeout) || storing == 0
  | _ => true

/-! ### The invariant -/

/-- What a pending step knows about the session. -/
def Task.Knows (sh : Shared) : Task → Prop
  | .readClock => sh.closingSince.isSome = true
  | .storeStarted now => ∃ since, sh.closingSince = some since ∧ since ≤ now
  | .loadDisconnectStarted now | .loadState now => now ≤ sh.clock
  | .loadCloseStarted now => now ≤ sh.clock ∧ sh.closingSince.isSome = true
  | _ => True

/-- The invariant of runs whose steps are all in time. -/
structure Graceful (timeouts : Timeouts) (sh : Shared) (P : Multiset Task) : Prop where
  knows : ∀ t ∈ P, t.Knows sh
  /-- The state has been `Closing` since it was moved there, or it is `Closed`. -/
  closing : sh.closingSince.isSome = true → sh.state = .closing ∨ sh.state = .closed
  since : sh.state = .closing → sh.closingSince.isSome = true
  past : ∀ since, sh.closingSince = some since → since ≤ sh.clock
  /-- The time of the move is stored, or a thread is going to store it. -/
  stamped : ∀ since, sh.closingSince = some since →
    (∃ t ∈ P, t.stamping = true) ∨ since ≤ sh.closeStartedMs
  honoured : Honoured timeouts sh

section Steps

variable {timeouts : Timeouts} {sh sh' : Shared} {t : Task} {R : Multiset Task}

/-- What is known stays known while the clock goes on and the session is `Closing` since the same
time. -/
theorem Task.Knows.mono {t : Task} (h : t.Knows sh) (hclock : sh.clock ≤ sh'.clock)
    (hsince : sh'.closingSince = sh.closingSince) : t.Knows sh' := by
  cases t with
  | readClock => simpa [Task.Knows, hsince] using h
  | storeStarted now => simpa [Task.Knows, hsince] using h
  | loadDisconnectStarted now => exact le_trans (show now ≤ sh.clock from h) hclock
  | loadState now => exact le_trans (show now ≤ sh.clock from h) hclock
  | loadCloseStarted now => exact ⟨le_trans h.1 hclock, by rw [hsince]; exact h.2⟩
  | _ => trivial

/-- A step that leaves the move to `Closing` alone and is not about to store its time. -/
theorem Graceful.quiet (h : Graceful timeouts sh (t ::ₘ R)) (next : List Task)
    (hclock : sh.clock ≤ sh'.clock) (hsince : sh'.closingSince = sh.closingSince)
    (hstate : sh'.state = sh.state ∨ sh'.state = .closed)
    (hstored : sh'.closeStartedMs = sh.closeStartedMs) (hcuts : sh'.cuts = sh.cuts)
    (hnext : ∀ t' ∈ next, t'.Knows sh')
    (hstamping : t.stamping = true → ∃ t' ∈ next, t'.stamping = true) :
    Graceful timeouts sh' (next + R) := by
  refine ⟨fun t' ht' => ?_, fun hsome => ?_, fun hclosing => ?_, fun since hs => ?_,
    fun since hs => ?_, fun cut hcut => ?_⟩
  · rcases Multiset.mem_add.1 ht' with hnew | hold
    · exact hnext t' (Multiset.mem_coe.1 hnew)
    · exact (h.knows t' (Multiset.mem_cons_of_mem hold)).mono hclock hsince
  · rw [hsince] at hsome
    rcases hstate with hsame | hclosed
    · rw [hsame]
      exact h.closing hsome
    · exact Or.inr hclosed
  · rw [hsince]
    rcases hstate with hsame | hclosed
    · exact h.since (hsame ▸ hclosing)
    · rw [hclosed] at hclosing
      cases hclosing
  · rw [hsince] at hs
    exact (h.past since hs).trans hclock
  · rw [hsince] at hs
    rw [hstored]
    rcases h.stamped since hs with ⟨t', ht', hstamps⟩ | hle
    · refine Or.inl ?_
      rcases Multiset.mem_cons.1 ht' with rfl | hold
      · obtain ⟨t'', hmem, hstamps'⟩ := hstamping hstamps
        exact ⟨t'', Multiset.mem_add.2 (Or.inl (Multiset.mem_coe.2 hmem)), hstamps'⟩
      · exact ⟨t', Multiset.mem_add.2 (Or.inr hold), hstamps⟩
    · exact Or.inr hle
  · rw [hcuts] at hcut
    rw [hsince]
    exact h.honoured cut hcut

/-- A step that only goes on. -/
theorem Graceful.goes (h : Graceful timeouts sh (t ::ₘ R)) (next : List Task)
    (hnext : ∀ t' ∈ next, t'.Knows sh) (hstamping : t.stamping = false) :
    Graceful timeouts sh (next + R) :=
  h.quiet next le_rfl rfl (Or.inl rfl) rfl rfl hnext fun hstamps => by
    rw [hstamping] at hstamps
    cases hstamps

/-- Most steps start no thread. -/
theorem Graceful.unforked {next : List Task} (h : Graceful timeouts sh (next + R)) :
    Graceful timeouts sh (next + ([] : List (List Task)).flatten + R) := by
  simpa using h

/-- The move to `Closing`: it happens once. -/
theorem Graceful.moves (h : Graceful timeouts sh (t ::ₘ R)) (hstate : sh.state ≠ .closing)
    (hopen : sh.state ≠ .closed) :
    Graceful timeouts { sh with state := .closing, closingSince := some sh.clock }
      (([.readClock] : List Task) + R) := by
  have hnone : sh.closingSince = none := by
    cases hsince : sh.closingSince with
    | none => rfl
    | some since =>
        rcases h.closing (by rw [hsince]; rfl) with hclosing | hclosed
        · exact absurd hclosing hstate
        · exact absurd hclosed hopen
  have hknows : ∀ {t' : Task}, t'.Knows sh →
      t'.Knows { sh with state := .closing, closingSince := some sh.clock } := by
    intro t' ht'
    cases t' with
    | readClock => rfl
    -- nobody stores the time of a move that has not happened
    | storeStarted now =>
        obtain ⟨since, hsince, -⟩ := ht'
        rw [hnone] at hsince
        cases hsince
    | loadDisconnectStarted now => exact ht'
    | loadState now => exact ht'
    | loadCloseStarted now => exact ⟨ht'.1, rfl⟩
    | _ => trivial
  refine ⟨fun t' ht' => ?_, fun _ => Or.inl rfl, fun _ => rfl, fun since hs => ?_,
    fun since _ => Or.inl ⟨.readClock, by simp, rfl⟩, fun cut hcut => ?_⟩
  · rcases Multiset.mem_add.1 ht' with hnew | hold
    · rw [List.mem_singleton.1 (Multiset.mem_coe.1 hnew)]
      rfl
    · exact hknows (h.knows t' (Multiset.mem_cons_of_mem hold))
  · exact (Option.some.inj hs).ge
  · obtain ⟨since, hsince, -⟩ := h.honoured cut hcut
    rw [hnone] at hsince
    cases hsince

/-- The time of the move is stored. -/
theorem Graceful.stores {now : ℤ} (h : Graceful timeouts sh (.storeStarted now ::ₘ R)) :
    Graceful timeouts { sh with closeStartedMs := now } (([.enqueue] : List Task) + R) := by
  obtain ⟨since, hsince, hle⟩ := h.knows _ (Multiset.mem_cons_self _ _)
  refine ⟨fun t' ht' => ?_, h.closing, h.since, h.past, fun since' hs => Or.inr ?_, h.honoured⟩
  · rcases Multiset.mem_add.1 ht' with hnew | hold
    · rw [List.mem_singleton.1 (Multiset.mem_coe.1 hnew)]
      trivial
    · exact (h.knows t' (Multiset.mem_cons_of_mem hold)).mono le_rfl rfl
  · obtain rfl := Option.some.inj (hsince.symm.trans hs)
    exact hle

/-- **The timer cuts the session off**, and the time of the move is stored. -/
theorem Graceful.cuts {now : ℤ} (h : Graceful timeouts sh (.loadCloseStarted now ::ₘ R))
    (hover : now - sh.closeStartedMs > timeouts.closeTimeout)
    (hstamped : ∀ t' ∈ R, t'.stamping = false) :
    Graceful timeouts { sh with cuts := sh.cuts ++ [sh.clock] }
      (([.disconnect] : List Task) + R) := by
  obtain ⟨hnow, hsome⟩ := h.knows _ (Multiset.mem_cons_self _ _)
  obtain ⟨since, hsince⟩ := Option.isSome_iff_exists.1 hsome
  have hstored : since ≤ sh.closeStartedMs := by
    rcases h.stamped since hsince with ⟨t', ht', hstamps⟩ | hle
    · rcases Multiset.mem_cons.1 ht' with rfl | hold
      · cases hstamps
      · rw [hstamped t' hold] at hstamps
        cases hstamps
    · exact hle
  refine ⟨fun t' ht' => ?_, h.closing, h.since, h.past, fun since' hs => Or.inr ?_,
    fun cut hcut => ?_⟩
  · rcases Multiset.mem_add.1 ht' with hnew | hold
    · rw [List.mem_singleton.1 (Multiset.mem_coe.1 hnew)]
      trivial
    · exact (h.knows t' (Multiset.mem_cons_of_mem hold)).mono le_rfl rfl
  · obtain rfl := Option.some.inj (hsince.symm.trans hs)
    exact hstored
  · rcases List.mem_append.1 hcut with hold | hnew
    · exact h.honoured cut hold
    · rw [List.mem_singleton.1 hnew]
      exact ⟨since, hsince, by omega⟩

/-- **Every step that meets the condition keeps the invariant.** -/
theorem Graceful.exec {x : Choice} {o : Outcome Shared Task}
    (h : Graceful timeouts sh (t ::ₘ R)) (hexec : CloseGrace.exec timeouts x t sh = some o)
    (hok : inTime timeouts t sh (weight (beside t) R) = true) :
    Graceful timeouts o.shared (o.next + o.forked.flatten + R) := by
  have hself := h.knows t (Multiset.mem_cons_self _ _)
  cases t with
  | outside =>
      cases x with
      | clock elapsed =>
          obtain rfl := Option.some.inj hexec
          refine Graceful.unforked ?_
          exact h.quiet [.outside] (by simp) rfl (Or.inl rfl) rfl rfl (by simp [Task.Knows])
            (by simp [Task.stamping])
      | closes =>
          obtain rfl := Option.some.inj hexec
          exact h.goes [.outside, .loadCurrent] (by simp [Task.Knows]) rfl
      | visits =>
          obtain rfl := Option.some.inj hexec
          exact h.goes [.outside, .tick] (by simp [Task.Knows]) rfl
      | passes | failsSpuriously | refuses => cases hexec
  | exchange current =>
      obtain rfl := Option.some.inj hexec
      unfold CloseGrace.exchange
      split
      · refine Graceful.unforked ?_
        exact h.goes [] (by simp) rfl
      · next hcurrent =>
          obtain ⟨hclosed, hclosing⟩ := not_or.1 hcurrent
          split
          · next heq =>
              refine Graceful.unforked ?_
              exact h.moves (heq.1 ▸ hclosing) (heq.1 ▸ hclosed)
          · refine Graceful.unforked ?_
            exact h.goes [.exchange sh.state] (by simp [Task.Knows]) rfl
  | storeStarted now =>
      obtain rfl := Option.some.inj hexec
      simpa using h.stores
  | loadCloseStarted now =>
      rw [CloseGrace.exec] at hexec
      split at hexec
      · next hover =>
          obtain rfl := Option.some.inj hexec
          have hnone : weight (beside (.loadCloseStarted now)) R = 0 := by
            simpa [inTime, not_le.2 hover] using hok
          -- nobody is between the move and its store, so what is stored is the time of the move
          have hstamped : ∀ t' ∈ R, t'.stamping = false := by
            intro t' ht'
            have hle := le_weight (f := beside (.loadCloseStarted now)) ht'
            rw [hnone, Nat.le_zero, beside, Bool.toNat_eq_zero] at hle
            exact hle
          simpa using h.cuts hover hstamped
      · obtain rfl := Option.some.inj hexec
        simpa using h.goes [] (by simp) rfl
  | readClock =>
      obtain rfl := Option.some.inj hexec
      obtain ⟨since, hsince⟩ := Option.isSome_iff_exists.1 hself
      refine Graceful.unforked ?_
      refine h.quiet [.storeStarted sh.clock] le_rfl rfl (Or.inl rfl) rfl rfl (fun t' ht' => ?_)
        fun _ => ⟨_, List.mem_singleton_self _, rfl⟩
      rw [List.mem_singleton.1 ht']
      exact ⟨since, hsince, h.past since hsince⟩
  | loadState now =>
      obtain rfl := Option.some.inj hexec
      refine Graceful.unforked ?_
      refine h.goes _ (fun t' ht' => ?_) rfl
      cases hstate : sh.state with
      | closing =>
          rw [hstate, branch] at ht'
          rw [List.mem_singleton.1 ht']
          exact ⟨hself, h.since hstate⟩
      | handshaking | opened =>
          rw [hstate, branch] at ht'
          rw [List.mem_singleton.1 ht']
          trivial
      | connecting | closed =>
          rw [hstate] at ht'
          cases ht'
  | tick =>
      obtain rfl := Option.some.inj hexec
      refine Graceful.unforked ?_
      refine h.goes _ (fun t' ht' => ?_) rfl
      rw [List.mem_singleton.1 ht']
      exact le_rfl
  | loadDisconnectStarted now =>
      obtain rfl := Option.some.inj hexec
      refine Graceful.unforked ?_
      refine h.goes _ (fun t' ht' => ?_) rfl
      split at ht'
      · cases ht'
      · rw [List.mem_singleton.1 ht']
        exact hself
  | disconnect =>
      obtain rfl := Option.some.inj hexec
      refine Graceful.unforked ?_
      refine h.quiet _ le_rfl rfl (Or.inl rfl) rfl rfl ?_ (by simp [Task.stamping])
      split <;> simp [Task.Knows]
  | storeClosed =>
      obtain rfl := Option.some.inj hexec
      refine Graceful.unforked ?_
      exact h.quiet [] le_rfl rfl (Or.inr rfl) rfl rfl (by simp) (by simp [Task.stamping])
  | storeAwaitingPong now | storeLastPong now =>
      obtain rfl := Option.some.inj hexec
      refine Graceful.unforked ?_
      exact h.quiet _ le_rfl rfl (Or.inl rfl) rfl rfl (by simp [Task.Knows])
        (by simp [Task.stamping])
  | loadCurrent | loadAwaitingPong now =>
      obtain rfl := Option.some.inj hexec
      refine Graceful.unforked ?_
      exact h.goes _ (by simp [Task.Knows]) rfl
  | enqueue | loadConnectedAt now | loadLastActivity now | loadTransport now =>
      obtain rfl := Option.some.inj hexec
      refine Graceful.unforked ?_
      refine h.goes _ ?_ rfl
      split <;> simp [Task.Knows]
  | loadLastPong now awaiting =>
      obtain rfl := Option.some.inj hexec
      refine Graceful.unforked ?_
      refine h.goes _ ?_ rfl
      split <;> split <;> simp [Task.Knows]

end Steps

/-! ### Every run -/

theorem Graceful.start {timeouts : Timeouts} {sh : Shared} (h : sh.Fresh) :
    Graceful timeouts sh (start sh).pending := by
  obtain ⟨hstate, -, hnone, hcuts⟩ := h
  refine ⟨fun t ht => ?_, fun hsome => ?_, fun hclosing => absurd hclosing hstate, fun since hs => ?_,
    fun since hs => ?_, fun cut hcut => ?_⟩
  · have hone : t = .outside := by simpa [CloseGrace.start, Config.pending] using ht
    rw [hone]
    trivial
  · rw [hnone] at hsome
    cases hsome
  · rw [hnone] at hs
    cases hs
  · rw [hnone] at hs
    cases hs
  · rw [hcuts] at hcut
    cases hcut

/-- **The grace period is honoured in every run whose steps are all in time.** -/
theorem close_grace (timeouts : Timeouts) {sh : Shared} (hfresh : sh.Fresh)
    (moves : List (ℕ × Choice)) {c : Config Shared Task}
    (htime : (program timeouts).AllMeet
      (fun _ t sh R => inTime timeouts t sh (weight (beside t) R) = true) moves (start sh))
    (hrun : (program timeouts).run moves (start sh) = some c) : Honoured timeouts c.shared :=
  (Program.invariant_of_allMeet (I := Graceful timeouts)
    (fun _ _ _ _ _ hexec hok h => h.exec hexec hok) moves htime
    (Graceful.start hfresh) hrun).honoured

/-- An open session, at this time. -/
def openAt (clock : ℤ) : Shared where
  clock := clock
  state := .opened
  connectedAtMs := 0
  lastActivityMs := clock
  lastPongMs := clock

/-- `SendControl` runs to its end, and the timer comes when the grace period is over. -/
def closedByTimer : List (ℕ × Choice) :=
  [(0, .closes), (1, .passes), (1, .passes), (1, .passes), (1, .passes), (1, .passes),
    (0, .clock 3001), (0, .visits), (2, .passes), (2, .passes), (2, .passes), (2, .passes)]

/-- The session is disconnected through the `Closing` branch, in time. -/
theorem close_grace_closedByTimer : ∃ c,
    (program {}).run closedByTimer (start (openAt 10000)) = some c ∧ c.shared.cuts = [13001] ∧
      Honoured {} c.shared := by
  have hobserved : ((program {}).run closedByTimer (start (openAt 10000))).map
      (fun c => c.shared.cuts) = some [13001] := by
    decide
  obtain ⟨c, hrun, hcuts⟩ := Option.map_eq_some_iff.1 hobserved
  have hchecks : (program {}).checks beside (inTime {}) closedByTimer (start (openAt 10000)) =
      true := by
    decide
  have hfresh : (openAt 10000).Fresh := ⟨by decide, rfl, rfl, rfl⟩
  exact ⟨c, hrun, hcuts, close_grace {} hfresh closedByTimer
    (Program.allMeet_of_checks beside (inTime {}) closedByTimer hchecks) hrun⟩

/-- The timer comes between the compare-and-swap of `SendControl` and its store. -/
def timerInBetween : List (ℕ × Choice) :=
  [(0, .closes), (1, .passes), (1, .passes), (0, .visits), (2, .passes), (2, .passes),
    (2, .passes), (2, .passes)]

/-- **A session is cut off at once**: it is disconnected through the `Closing` branch in the very
millisecond in which its state was moved. -/
theorem close_cut : ∃ c, (program {}).run timerInBetween (start (openAt 10000)) = some c ∧
    c.shared.closingSince = some 10000 ∧ c.shared.cuts = [10000] ∧ ¬ Honoured {} c.shared := by
  have hobserved : ((program {}).run timerInBetween (start (openAt 10000))).map
      (fun c => (c.shared.closingSince, c.shared.cuts)) = some (some 10000, [10000]) := by
    decide
  obtain ⟨c, hrun, hc⟩ := Option.map_eq_some_iff.1 hobserved
  obtain ⟨hsince, hcuts⟩ := Prod.mk.inj hc
  refine ⟨c, hrun, hsince, hcuts, fun h => ?_⟩
  obtain ⟨since, hsome, hover⟩ := h 10000 (by rw [hcuts]; exact List.mem_singleton_self _)
  obtain rfl := Option.some.inj (hsince.symm.trans hsome)
  exact absurd hover (by decide)

end CloseGrace

end RealtimeEngine
