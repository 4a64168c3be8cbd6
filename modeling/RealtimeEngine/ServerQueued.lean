/-
**What is queued fits the transport of its session.**

`Send` looks at the transport before it builds an item, `SendControl` is called where the session is
known to speak WebSocket, and `SendRaw` answers a handshake.  Between the look and the `Enqueue`
other threads run, and one of them may decide the transport.  What keeps the items apart is that a
session whose buffer has begun with `GET ` never becomes a raw one, and that nothing is queued for a
session before it has.

So the items of a raw session are the frames of payloads that `Send` was given, and those of a
WebSocket session are responses to its handshake, messages and control frames.

Main definitions:

* `RealtimeEngine.ServerSteps.RawFrame`, `RealtimeEngine.ServerSteps.WebSocketFrame` — the items of
  the two transports;
* `RealtimeEngine.ServerSteps.Aware` — what a pending task knows about what it is going to queue;
* `RealtimeEngine.ServerSteps.Queued` — the invariant.

Main results:

* `RealtimeEngine.ServerSteps.callStep_aware`, `RealtimeEngine.ServerSteps.localStep_aware` — a task
  leads to tasks that know enough;
* `RealtimeEngine.ServerSteps.Queued.step` — **every step keeps the invariant**;
* `RealtimeEngine.ServerSteps.queued_run` — so it holds in every run.
-/

import RealtimeEngine.ServerFrames
import RealtimeEngine.ServerGreeting

set_option relaxedAutoImplicit false
set_option autoImplicit false

namespace RealtimeEngine

namespace ServerSteps

open Interleaving WebSocketDecoder

variable {ι : Type*}

/-! ### The items -/

/-- `Send` takes the payload. -/
def Sendable (config : ServerConfig) (payload : Bytes) : Prop :=
  1 ≤ payload.length ∧ payload.length ≤ config.maxMessageBytes.toNat

/-- A control frame that `SendControl` is asked for; a close frame is the last one. -/
structure Signal (opcode : WsOpcode) (payload : Bytes) (closeAfter : Bool) : Prop where
  control : isControlOpcode opcode = true
  short : payload.length ≤ 125
  last : closeAfter = true ↔ opcode = .close

/-- The item of `Send` on a raw session. -/
def RawFrame (config : ServerConfig) (item : OutboundItem) : Prop :=
  ∃ payload, Sendable config payload ∧ rawItem payload = some item

/-- The item of `Send` or of `SendControl` on a WebSocket session. -/
def WebSocketFrame (config : ServerConfig) (item : OutboundItem) : Prop :=
  (∃ payload, Sendable config payload ∧ item = frameItem .binary payload false) ∨
    ∃ opcode payload closeAfter, Signal opcode payload closeAfter ∧
      item = frameItem opcode payload closeAfter

/-- The item of `SendRaw`. -/
def IsResponse (item : OutboundItem) : Prop :=
  ∃ response closeAfter, item = responseItem response closeAfter

/-- The buffer has begun with `GET `: its session does not become a raw one. -/
def AsksHttp (buffer : Bytes) : Prop := 4 ≤ buffer.length ∧ possibleHttp buffer = true

/-- What may be queued for a session with this transport. -/
def Suits (config : ServerConfig) (transport : TransportKind) (buffer : Bytes)
    (item : OutboundItem) : Prop :=
  match transport with
  | .detecting => IsResponse item ∧ AsksHttp buffer
  | .rawTcp => RawFrame config item
  | .webSocket => IsResponse item ∨ WebSocketFrame config item

/-! ### What a pending task knows -/

/-- What a reading thread knows about the transport. -/
def Decided (transport : TransportKind) (buffer : Bytes) : ReadPoint → Prop
  | .processDetection _ | .detect => transport = .detecting
  | .greet _ => transport = .detecting ∧ AsksHttp buffer
  | .store .webSocket _ => transport = .detecting
  | .store .rawTcp _ => transport = .detecting ∧ ¬ AsksHttp buffer
  | .store .detecting _ => False
  | .storeOpen decided _ | .leave decided _ => transport = decided ∧ decided ≠ .detecting
  | .processWebSocket _ | .appendWebSocket _ | .webSocketLoop | .webSocketState =>
      transport = .webSocket
  | .deliverMessage _ loop => Decided transport buffer loop
  | .updateInbound _ rest => Decided transport buffer rest
  | _ => True

/-- What a pending task knows about what it is going to queue. -/
def Aware (config : ServerConfig) (transport : TransportKind) (buffer : Bytes) (s : ι) :
    Task ι → Prop
  | .reader s' point => s' = s → Decided transport buffer point
  | .out (.enqueue s' item) => s' = s → Suits config transport buffer item
  | .sendState s' payload | .sendTransport s' payload => s' = s → Sendable config payload
  | .sendControl s' opcode payload closeAfter =>
      s' = s → transport = .webSocket ∧ Signal opcode payload closeAfter
  | _ => True

theorem asksHttp_append {buffer : Bytes} (h : AsksHttp buffer) (more : Bytes) :
    AsksHttp (buffer ++ more) := by
  refine ⟨?_, (possibleHttp_append h.1 more).trans h.2⟩
  rw [List.length_append]
  exact h.1.trans (Nat.le_add_right _ _)

/-- Whatever is decided but raw TCP was asked for. -/
theorem asksHttp_of_detection {config : ServerConfig} {buffer : Bytes} (result : HandshakeResult)
    (h : detection config buffer = .accepted result ∨ detection config buffer = .rejected result) :
    AsksHttp buffer := by
  have hraw : detection config buffer ≠ .raw := by
    rcases h with h | h <;> rw [h] <;> exact fun heq => by cases heq
  have hundecided : detection config buffer ≠ .undecided := by
    rcases h with h | h <;> rw [h] <;> exact fun heq => by cases heq
  unfold detection at hraw hundecided
  split at hraw
  · exact absurd rfl hraw
  · next hhttp =>
      rw [if_neg hhttp] at hundecided
      split at hundecided
      · exact absurd rfl hundecided
      · next hlen => exact ⟨not_lt.1 hlen, by simpa using hhttp⟩

theorem not_asksHttp_of_detection {config : ServerConfig} {buffer : Bytes}
    (h : detection config buffer = .raw) : ¬ AsksHttp buffer := by
  rintro ⟨hlen, hhttp⟩
  rw [detection, hhttp, if_neg (by decide), if_neg (by omega)] at h
  dsimp only at h
  split at h <;> cases h

section Tasks

variable {config : ServerConfig} {transport : TransportKind} {buffer : Bytes} {s : ι}
  {t task : Task ι} {new : List (Task ι)}

theorem aware_of_session (h : t.session? ≠ some s) : Aware config transport buffer s t := by
  cases t with
  | reader s' point => exact fun heq => absurd (congrArg some heq) h
  | sendState s' payload => exact fun heq => absurd (congrArg some heq) h
  | sendTransport s' payload => exact fun heq => absurd (congrArg some heq) h
  | sendControl s' opcode payload closeAfter => exact fun heq => absurd (congrArg some heq) h
  | out action =>
      cases action with
      | enqueue s' item => exact fun heq => absurd (congrArg some heq) h
      | _ => trivial
  | _ => trivial

theorem aware_of_arrives (h : t.arrives = true) : Aware config transport buffer s t := by
  cases t with
  | reader s' point => cases h
  | sendState s' payload => cases h
  | sendTransport s' payload => cases h
  | sendControl s' opcode payload closeAfter => cases h
  | out action =>
      cases action with
      | enqueue s' item => cases h
      | _ => trivial
  | _ => trivial

theorem aware_map_out {actions : List (Outbound.Action ι)}
    (h : ∀ a ∈ actions, ∀ s item, a ≠ .enqueue s item) :
    ∀ t ∈ actions.map Task.out, Aware config transport buffer s t := by
  intro t ht
  obtain ⟨a, ha, rfl⟩ := List.mem_map.1 ht
  cases a with
  | enqueue s' item => exact absurd rfl (h _ ha s' item)
  | _ => trivial

/-- **A call leads to tasks that know enough**: `Send` checks the payload first, and a control frame
is asked for where the transport is WebSocket. -/
theorem callStep_aware {x : Choice ι} {started : Bool} {c : Control} {state : SessionState}
    (h : callStep config x started c task = some (state, new)) (hs : task.session? = some s)
    (htransport : transport = c.transport) (hknows : Aware config transport buffer s task) :
    ∀ t ∈ new, Aware config transport buffer s t := by
  intro t ht
  cases task with
  | send s' payload =>
      simp only [callStep, Option.some.injEq, Prod.mk.injEq] at h
      obtain ⟨-, rfl⟩ := h
      split at ht
      · cases ht
      · next hchecks =>
          simp only [Bool.or_eq_true, Bool.not_eq_true', decide_eq_true_eq, not_or, Nat.not_lt,
            List.isEmpty_iff] at hchecks
          rw [List.mem_singleton.1 ht]
          exact fun _ => ⟨List.length_pos_iff.2 hchecks.1.2, hchecks.2⟩
  | sendState s' payload =>
      simp only [callStep, Option.some.injEq, Prod.mk.injEq] at h
      obtain ⟨-, rfl⟩ := h
      split at ht
      · cases ht
      · rw [List.mem_singleton.1 ht]
        exact hknows
  | sendTransport s' payload =>
      simp only [callStep, Option.some.injEq, Prod.mk.injEq] at h
      obtain ⟨-, rfl⟩ := h
      split at ht
      · next hraw =>
          obtain ⟨item, hitem, rfl⟩ := Option.map_eq_some_iff.1 (Option.mem_toList.1 ht)
          have hraw' := htransport.trans hraw
          subst hraw'
          exact fun heq => ⟨payload, hknows heq, hitem⟩
      · next hwebSocket =>
          rw [List.mem_singleton.1 ht]
          have hwebSocket' := htransport.trans hwebSocket
          subst hwebSocket'
          exact fun heq => Or.inr (Or.inl ⟨payload, hknows heq, rfl⟩)
      · cases ht
  | close s' code reason =>
      simp only [callStep, Option.some.injEq, Prod.mk.injEq] at h
      obtain ⟨-, rfl⟩ := h
      split at ht
      · cases ht
      · rw [List.mem_singleton.1 ht]
        trivial
  | closeTransport s' code reason =>
      simp only [callStep, Option.some.injEq, Prod.mk.injEq] at h
      obtain ⟨-, rfl⟩ := h
      split at ht
      · rw [List.mem_singleton.1 ht]
        trivial
      · next hwebSocket =>
          rw [List.mem_singleton.1 ht]
          exact fun _ => ⟨htransport.trans (not_not.1 hwebSocket), rfl,
            length_closePayload code reason, iff_of_true rfl rfl⟩
  | sendControl s' opcode payload closeAfter =>
      obtain rfl := Option.some.inj hs
      obtain ⟨rfl, hsignal⟩ := hknows rfl
      -- the frame is queued with the mark that it was asked for
      have hframe : Aware config .webSocket buffer s'
          (.out (.enqueue s' (frameItem opcode payload closeAfter))) :=
        fun _ => Or.inr (Or.inr ⟨opcode, payload, closeAfter, hsignal, rfl⟩)
      simp only [callStep] at h
      split at h
      · next hclose =>
          subst hclose
          split at h <;> obtain ⟨-, rfl⟩ := Prod.mk.inj (Option.some.inj h)
          · cases ht
          · rw [List.mem_singleton.1 ht]
            exact hframe
      · next hopen =>
          obtain rfl : closeAfter = false := by simpa using hopen
          obtain ⟨-, rfl⟩ := Prod.mk.inj (Option.some.inj h)
          rw [List.mem_singleton.1 ht]
          exact hframe
  | timer s' =>
      simp only [callStep, Option.some.injEq, Prod.mk.injEq] at h
      obtain ⟨-, rfl⟩ := h
      split at ht
      · cases ht
      · rw [List.mem_singleton.1 ht]
        trivial
  | timerState s' =>
      simp only [callStep] at h
      split at h <;> obtain ⟨-, rfl⟩ := Prod.mk.inj (Option.some.inj h)
      all_goals first
        | (rw [List.mem_singleton.1 ht]; trivial)
        | cases ht
  | timerTransport s' =>
      simp only [callStep] at h
      split at h
      · obtain ⟨-, rfl⟩ := Prod.mk.inj (Option.some.inj h)
        rw [List.mem_singleton.1 ht]
        trivial
      · next hwebSocket =>
          obtain ⟨-, rfl⟩ := Prod.mk.inj (Option.some.inj h)
          rw [List.mem_singleton.1 ht]
          exact fun _ => ⟨htransport.trans hwebSocket, rfl, Nat.zero_le _,
            iff_of_false (by decide) (by decide)⟩
      · obtain ⟨-, rfl⟩ := Prod.mk.inj (Option.some.inj h)
        cases ht
  | storeClosed s' =>
      obtain ⟨-, rfl⟩ := Prod.mk.inj (Option.some.inj h)
      cases ht
  | _ => cases h

/-- A reading thread goes where it knows enough. -/
theorem Goes.decided {c : Control} {point point' : ReadPoint} (h : Goes config c point point')
    (htransport : transport = c.transport) (hbuffer : buffer = c.detectionBuffer)
    (hdecided : Decided transport buffer point) : Decided transport buffer point' := by
  cases h with
  | stops | settles | incoming | rawTcp | appendsRaw | rawMessage | posting => trivial
  | detecting hdetecting bytes => exact htransport.trans hdetecting
  | webSocket hwebSocket bytes => exact htransport.trans hwebSocket
  | detectsRaw hraw => exact ⟨hdecided, hbuffer ▸ not_asksHttp_of_detection hraw⟩
  | @greets result haccepted =>
      exact ⟨hdecided, hbuffer ▸ asksHttp_of_detection result (Or.inl haccepted)⟩
  | _ => exact hdecided

/-- What the decoder of a session answers to is a ping or a close, and it is short. -/
theorem signal_of_event {c : Control} {opcode : WsOpcode} {payload : Bytes} {closeAfter : Bool}
    (h : .sendControl s opcode payload closeAfter ∈ (webSocketEvent c s).2) :
    Signal opcode payload closeAfter := by
  obtain ⟨hready, hpayload, htype⟩ := mem_webSocketEvent h
  have hcontrol : c.webSocketDecoder.next.event.type ≠ .binaryMessage := by
    rcases htype with ⟨htype, -⟩ | ⟨htype, -⟩ <;> rw [htype] <;> decide
  have hshort := (next_control hready hcontrol).1
  rw [hpayload] at hshort
  unfold webSocketEvent at h
  dsimp only at h
  rw [hready] at h
  dsimp only at h
  rcases htype with ⟨htype, rfl⟩ | ⟨htype, rfl⟩
  · simp only [htype, List.mem_cons, Task.sendControl.injEq, List.not_mem_nil, or_false,
      reduceCtorEq] at h
    exact ⟨rfl, hshort, by simp [h.2.2.2]⟩
  · simp only [htype, List.mem_cons, Task.sendControl.injEq, List.not_mem_nil, or_false,
      reduceCtorEq] at h
    exact ⟨rfl, hshort, by simp [h.2.2.2]⟩

/-- **A step of a reading thread leads to tasks that know enough.** -/
theorem localStep_aware {x : Choice ι} {started : Bool} {c c' : Control} {point : ReadPoint}
    (h : localStep config x started c s point = some (c', new)) (htransport : transport = c.transport)
    (hbuffer : buffer = c.detectionBuffer) (hdecided : Decided transport buffer point) :
    ∀ t ∈ new, Aware config transport buffer s t := by
  intro t ht
  rcases (localStep_spec h).2 with rfl | ⟨calls, point', rfl, hcalls, hgoes⟩
  · rw [List.mem_singleton.1 ht]
    trivial
  · rcases List.mem_append.1 ht with hcall | hlast
    · cases hcalls with
      | nothing => cases hcall
      | disconnects | closes =>
          rw [List.mem_singleton.1 hcall]
          trivial
      | controls hpoint opcode payload closeAfter =>
          subst hpoint
          rw [List.mem_singleton.1 hcall]
          refine fun _ => ⟨hdecided, ?_⟩
          -- the loop asks for a control frame only where it answers an event
          simp only [localStep] at h
          split at h
          · have hnew := (Prod.mk.inj (Option.some.inj h)).2
            simp at hnew
          · refine signal_of_event (c := c) (s := s) ?_
            rw [Option.some.inj h]
            exact List.mem_cons_self
      | @rejects result hrejected hpoint =>
          subst hpoint
          rw [List.mem_singleton.1 hcall]
          obtain rfl : transport = .detecting := hdecided
          exact fun _ => ⟨⟨_, _, rfl⟩, hbuffer ▸ asksHttp_of_detection result (Or.inr hrejected)⟩
    · rw [List.mem_singleton.1 hlast]
      exact fun _ => hgoes.decided htransport hbuffer hdecided

end Tasks

/-! ### The invariant -/

variable [DecidableEq ι]

/-- **What is queued, or is going to be, fits the transport.** -/
structure Queued (config : ServerConfig) (sv : Server ι) (P : Multiset (Task ι)) (s : ι) : Prop where
  oneReader : weight (reader s) P ≤ (sv.control s).reads
  aware : ∀ t ∈ P, Aware config (sv.control s).transport (sv.control s).detectionBuffer s t
  pushed : ∀ item ∈ (sv.out.sessions s).pushed,
    Suits config (sv.control s).transport (sv.control s).detectionBuffer item

section Steps

variable {config : ServerConfig} {sv sv' : Server ι} {task : Task ι} {new : List (Task ι)}
  {R : Multiset (Task ι)} {s : ι}

/-- A step that changes neither the transport nor the buffer. -/
theorem Queued.same (h : Queued config sv (task ::ₘ R) s) (hstep : Step config sv task sv' new)
    (htransport : (sv'.control s).transport = (sv.control s).transport)
    (hbuffer : (sv'.control s).detectionBuffer = (sv.control s).detectionBuffer)
    (hpushed : ∀ item ∈ (sv'.out.sessions s).pushed, item ∈ (sv.out.sessions s).pushed ∨
      Suits config (sv.control s).transport (sv.control s).detectionBuffer item)
    (hnew : ∀ t ∈ new, Aware config (sv.control s).transport (sv.control s).detectionBuffer s t) :
    Queued config sv' (new + R) s := by
  refine ⟨hstep.oneReader h.oneReader, fun t ht => ?_, fun item hitem => ?_⟩
  · rw [htransport, hbuffer]
    rcases Multiset.mem_add.1 ht with ht | ht
    · exact hnew t ht
    · exact h.aware t (Multiset.mem_cons_of_mem ht)
  · rw [htransport, hbuffer]
    exact (hpushed item hitem).elim (h.pushed item) id

/-- A step of another session. -/
theorem Queued.other (h : Queued config sv (task ::ₘ R) s) (hstep : Step config sv task sv' new)
    (hs : task.session? ≠ some s) : Queued config sv' (new + R) s := by
  obtain ⟨hcontrol, hout, hnew⟩ := hstep.frame hs
  refine h.same hstep (by rw [hcontrol]) (by rw [hcontrol]) (fun item hitem => ?_) fun t ht => ?_
  · rw [hout] at hitem
    exact Or.inl hitem
  · by_cases hsession : t.session? = some s
    · exact aware_of_arrives (hnew t ht hsession)
    · exact aware_of_session hsession

/-- A step of a reading thread that changes the transport or the buffer: no other thread handles a
read of the session, so what is left to know is about what is going to be queued. -/
theorem Queued.turn {point point' : ReadPoint} (h : Queued config sv (.reader s point ::ₘ R) s)
    (hstep : Step config sv (.reader s point) sv' [.reader s point'])
    (hpushed : (sv'.out.sessions s).pushed = (sv.out.sessions s).pushed)
    (hpoint : Decided (sv'.control s).transport (sv'.control s).detectionBuffer point')
    (hsuits : ∀ item,
      Suits config (sv.control s).transport (sv.control s).detectionBuffer item →
        Suits config (sv'.control s).transport (sv'.control s).detectionBuffer item)
    (hcontrol : (sv.control s).transport = .webSocket → (sv'.control s).transport = .webSocket) :
    Queued config sv' ((([.reader s point'] : List (Task ι)) : Multiset (Task ι)) + R) s := by
  refine ⟨hstep.oneReader h.oneReader, fun t ht => ?_, fun item hitem => ?_⟩
  · rcases Multiset.mem_add.1 ht with hnew | hold
    · rw [List.mem_singleton.1 (Multiset.mem_coe.1 hnew)]
      exact fun _ => hpoint
    · have haware := h.aware t (Multiset.mem_cons_of_mem hold)
      cases t with
      -- the only reading thread of the session is the one that took the step
      | reader s' point'' =>
          rintro rfl
          exact absurd hold ((alone_of_oneReader h.oneReader).2 point'')
      | sendControl s' opcode payload closeAfter =>
          exact fun heq => ⟨hcontrol (haware heq).1, (haware heq).2⟩
      | out action =>
          cases action with
          | enqueue s' item => exact fun heq => hsuits item (haware heq)
          | _ => trivial
      | _ => exact haware
  · rw [hpushed] at hitem
    exact hsuits item (h.pushed item hitem)

/-- A call of `Enqueue`. -/
theorem Queued.acts {action : Outbound.Action ι} {out : Outbound.Shared ι}
    {next : List (Outbound.Action ι)} (h : Queued config sv (.out action ::ₘ R) s)
    (hstep : Step config sv (.out action) { sv with out := out } (next.map .out))
    (houtside : action ≠ .outside) (hact : Outbound.Step config sv.out action out next) :
    Queued config { sv with out := out } ((next.map Task.out : List (Task ι)) + R) s := by
  refine h.same hstep rfl rfl (fun item hitem => ?_)
    (aware_map_out fun a ha => (hact.session houtside a ha).2)
  rcases hact.pushed s with hsame | ⟨item', rfl, hpushed⟩
  · exact Or.inl (hsame ▸ hitem)
  · rw [show (out.sessions s).pushed = _ from hpushed] at hitem
    rcases List.mem_append.1 hitem with hold | hlast
    · exact Or.inl hold
    · rw [List.mem_singleton.1 hlast]
      exact Or.inr (h.aware _ (Multiset.mem_cons_self _ R) rfl)

/-- The response to an accepted request is queued, or refused. -/
theorem Queued.greets {result : HandshakeResult} {out : Outbound.Shared ι}
    {next : List (Outbound.Action ι)} (h : Queued config sv (.reader s (.greet result) ::ₘ R) s)
    (hstep : Step config sv (.reader s (.greet result))
      { (sv.modify s fun c => { c with response := some result.response }) with out := out }
      (next.map .out ++ [.reader s (.store .webSocket result.consumed)]))
    (hact : Outbound.Step config sv.out (.enqueue s (responseItem result.response false)) out next) :
    Queued config
      ({ (sv.modify s fun c => { c with response := some result.response }) with out := out } :
        Server ι)
      ((next.map .out ++ [.reader s (.store .webSocket result.consumed)] : List (Task ι)) + R)
      s := by
  obtain ⟨hdetecting, hasks⟩ := h.aware _ (Multiset.mem_cons_self _ R) rfl
  refine h.same hstep (by simp) (by simp) (fun item hitem => ?_) fun t ht => ?_
  · rcases hact.pushed s with hsame | ⟨item', hitem', hpushed⟩
    · exact Or.inl (hsame ▸ hitem)
    · obtain ⟨-, rfl⟩ := Outbound.Action.enqueue.inj hitem'
      rw [show (out.sessions s).pushed = _ from hpushed] at hitem
      rcases List.mem_append.1 hitem with hold | hlast
      · exact Or.inl hold
      · rw [List.mem_singleton.1 hlast, hdetecting]
        exact Or.inr ⟨⟨_, _, rfl⟩, hasks⟩
  · rcases List.mem_append.1 ht with hout | hlast
    · have hnext := hact.session (by intro heq; cases heq)
      exact aware_map_out (fun a ha => (hnext a ha).2) t hout
    · rw [List.mem_singleton.1 hlast]
      exact fun _ => hdetecting

/-- The transport is decided: what waits to be queued for a session that asked for HTTP is the
answer to its request, and nothing waits for any other. -/
theorem Queued.stores {transport : TransportKind} {consumed : ℕ}
    (h : Queued config sv (.reader s (.store transport consumed) ::ₘ R) s)
    (hstep : Step config sv (.reader s (.store transport consumed))
      (sv.modify s fun c => { c with transport := transport })
      [.reader s (.storeOpen transport consumed)]) :
    Queued config (sv.modify s fun c => { c with transport := transport })
      ((([.reader s (.storeOpen transport consumed)] : List (Task ι)) : Multiset (Task ι)) + R)
      s := by
  have hself := h.aware _ (Multiset.mem_cons_self _ R) rfl
  cases transport with
  | detecting => exact hself.elim
  | rawTcp =>
      obtain ⟨hdetecting, hasks⟩ := hself
      refine h.turn hstep rfl (by simp [Decided]) (fun item hsuits => ?_) fun heq => ?_
      · rw [hdetecting] at hsuits
        exact absurd hsuits.2 hasks
      · rw [hdetecting] at heq
        cases heq
  | webSocket =>
      have hdetecting : (sv.control s).transport = .detecting := hself
      refine h.turn hstep rfl (by simp [Decided]) (fun item hsuits => ?_) fun _ => by simp
      rw [hdetecting] at hsuits
      rw [modify_self]
      exact Or.inl hsuits.1

/-- **Every step keeps what is queued fitting.** -/
theorem Queued.step (hstep : Step config sv task sv' new) (h : Queued config sv (task ::ₘ R) s) :
    Queued config sv' (new + R) s := by
  by_cases hs : task.session? ≠ some s
  · exact h.other hstep hs
  rw [not_not] at hs
  have hself := h.aware task (Multiset.mem_cons_self task R)
  have hsame := hstep
  cases hstep with
  | arrives harrival => cases hs
  | acts houtside hkeep hact => exact h.acts hsame houtside hact
  | @disconnects s' hstarted =>
      obtain rfl := Option.some.inj hs
      refine h.same hsame rfl rfl (fun item hitem => Or.inl (by simpa using hitem)) fun t ht => ?_
      simp only [List.mem_cons, List.not_mem_nil, or_false] at ht
      rcases ht with rfl | rfl | rfl | rfl <;> trivial
  | accepts hnot =>
      obtain rfl := Option.some.inj hs
      refine h.same hsame (by simp) (by simp) (fun item hitem => Or.inl hitem) fun t ht => ?_
      rw [List.mem_singleton.1 ht]
      exact fun _ => trivial
  | posts hopen =>
      refine h.same hsame rfl rfl (fun item hitem => Or.inl hitem) fun t ht => ?_
      rw [List.mem_singleton.1 ht]
      exact fun _ => trivial
  | notPosted s' =>
      refine h.same hsame rfl rfl (fun item hitem => Or.inl hitem) fun t ht => ?_
      rw [List.mem_singleton.1 ht]
      trivial
  | reads s' succeeded hlen =>
      refine h.same hsame rfl rfl (fun item hitem => Or.inl hitem) fun t ht => ?_
      rw [List.mem_singleton.1 ht]
      exact fun _ => trivial
  | overflows s' bytes =>
      refine h.same hsame rfl rfl (fun item hitem => Or.inl hitem) fun t ht => ?_
      rcases List.mem_pair.1 ht with rfl | rfl
      · trivial
      · exact fun _ => trivial
  | buffers s' bytes =>
      obtain rfl := Option.some.inj hs
      have hdetecting : (sv.control s').transport = .detecting := hself rfl
      refine h.turn hsame rfl (by simpa [Decided] using hdetecting) (fun item hsuits => ?_)
        fun heq => by simpa using heq
      rw [hdetecting] at hsuits
      simp only [modify_self, hdetecting]
      exact ⟨hsuits.1, asksHttp_append hsuits.2 bytes⟩
  | greets result hact =>
      obtain rfl := Option.some.inj hs
      exact h.greets hsame hact
  | stores s' transport consumed =>
      obtain rfl := Option.some.inj hs
      exact h.stores hsame
  | opens s' transport consumed =>
      obtain rfl := Option.some.inj hs
      refine h.same hsame (by simp) (by simp) (fun item hitem => Or.inl hitem) fun t ht => ?_
      rw [List.mem_singleton.1 ht]
      exact hself
  | leaves s' transport consumed =>
      obtain rfl := Option.some.inj hs
      obtain ⟨htransport, hknown⟩ := hself rfl
      refine h.turn hsame rfl ?_ (fun item hsuits => ?_) fun heq => by simpa using heq
      · simp only [modify_self, htransport]
        cases transport with
        | detecting => exact absurd rfl hknown
        | rawTcp => trivial
        | webSocket =>
            simp only [handOver, Decided]
            split
            · trivial
            · rfl
      · -- the buffer matters only while the transport is not known
        rw [htransport] at hsuits
        simp only [modify_self, htransport]
        cases transport with
        | detecting => exact absurd rfl hknown
        | rawTcp => exact hsuits
        | webSocket => exact hsuits
  | updates s' bytes rest =>
      obtain rfl := Option.some.inj hs
      obtain ⟨total, htotal⟩ := updateInboundAccounting_eq config sv s' bytes
      refine h.same hsame (by simp [htotal]) (by simp [htotal])
        (fun item hitem => Or.inl (by simpa [htotal] using hitem)) fun t ht => ?_
      rcases List.mem_append.1 ht with hcall | hlast
      · split at hcall
        · rw [List.mem_singleton.1 hcall]
          trivial
        · cases hcall
      · rw [List.mem_singleton.1 hlast]
        exact hself
  | @handles x s' point c new hlocal =>
      obtain rfl := Option.some.inj hs
      have hkept := (localStep_spec hlocal).1
      exact h.same hsame (by simp [hkept.transport]) (by simp [hkept.detectionBuffer])
        (fun item hitem => Or.inl hitem) (localStep_aware hlocal rfl rfl (hself rfl))
  | removes s' =>
      obtain rfl := Option.some.inj hs
      exact h.same hsame (by simp) (by simp) (fun item hitem => Or.inl hitem)
        fun t ht => absurd ht List.not_mem_nil
  | releases s' =>
      obtain rfl := Option.some.inj hs
      obtain ⟨total, htotal⟩ := updateInboundAccounting_eq config sv s' 0
      exact h.same hsame (by simp [htotal]) (by simp [htotal])
        (fun item hitem => Or.inl (by simpa [htotal] using hitem))
        fun t ht => absurd ht List.not_mem_nil
  | @calls x s' task state new hsession hcall =>
      obtain rfl : s' = s := Option.some.inj (hsession.symm.trans hs)
      exact h.same hsame (by simp) (by simp) (fun item hitem => Or.inl hitem)
        (callStep_aware hcall hs rfl hself)

end Steps

theorem queued_start (config : ServerConfig) (s : ι) :
    Queued config (start config).shared (start config).pending s := by
  refine ⟨Nat.zero_le _, fun t ht => ?_, fun item hitem => ?_⟩
  · rw [List.mem_singleton.1 (show t ∈ [Task.outside] from ht)]
    trivial
  · cases hitem

/-- **In every run, what a session has queued fits its transport.** -/
theorem queued_run {config : ServerConfig} {moves : List (ℕ × Choice ι)}
    {c : Config (Server ι) (Task ι)} (hrun : (program config).run moves (start config) = some c)
    (s : ι) : Queued config c.shared c.pending s := by
  refine Program.invariant (I := fun sv P => Queued config sv P s)
    (fun x p sv R o hexec h => ?_) moves (queued_start config s) hrun
  rw [Multiset.coe_add]
  exact h.step (exec_step hexec)

end ServerSteps

end RealtimeEngine
