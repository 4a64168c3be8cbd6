/-
**The response to the handshake comes first, when it is accepted.**

`ProcessDetection` queues the response to an accepted handshake and then makes the session an open
WebSocket session.  Nobody else queues anything before that: `Send` and `Close` look at the
transport, and a session whose request was rejected is never upgraded.  But the result of the
`Enqueue` of the response is dropped.  When the outbound limits refuse it, the session is opened all
the same, and the frames that follow are transmitted without it.

The invariant says what every pending task knows about its session; it is kept by every step but the
refused response.

Main definitions:

* `RealtimeEngine.ServerSteps.Settled`, `RealtimeEngine.ServerSteps.Knows` — what a pending task
  knows;
* `RealtimeEngine.ServerSteps.Greeted` — the invariant;
* `RealtimeEngine.ServerSteps.welcomes` — the response finds room.

Main results:

* `RealtimeEngine.ServerSteps.response_first` — **in every run in which the responses find room,
  every WebSocket session starts with its response**;
* `RealtimeEngine.ServerSteps.response_lost` — a run in which one does not.
-/

import RealtimeEngine.OutboundStream
import RealtimeEngine.ServerReaders

set_option relaxedAutoImplicit false
set_option autoImplicit false

namespace RealtimeEngine

namespace ServerSteps

open Interleaving

variable {ι : Type*}

/-! ### What is known about a session -/

/-- The part of a session that its handshake is about. -/
structure View where
  transport : TransportKind
  buffer : Bytes
  response : Option Bytes
  pushed : List OutboundItem

/-- The view of a session. -/
def view (sv : Server ι) (s : ι) : View where
  transport := (sv.control s).transport
  buffer := (sv.control s).detectionBuffer
  response := (sv.control s).response
  pushed := (sv.out.sessions s).pushed

/-- What a reading thread knows about its session. -/
def Settled (config : ServerConfig) (v : View) : ReadPoint → Prop
  | .postRead | .reading | .handleRead _ _ | .processIncoming _ | .repost => True
  | .processDetection _ | .detect => v.transport = .detecting ∧ v.response = none
  | .greet result =>
      v.transport = .detecting ∧ v.response = none ∧ detection config v.buffer = .accepted result
  | .store .webSocket _ =>
      v.transport = .detecting ∧ ∃ result, detection config v.buffer = .accepted result ∧
        v.response = some result.response ∧ v.pushed = [responseItem result.response false]
  | .store .rawTcp _ => v.transport = .detecting ∧ v.response = none
  | .store .detecting _ => False
  | .storeOpen transport _ | .leave transport _ => v.transport = transport ∧ transport ≠ .detecting
  | .processRaw _ | .rawLoop => v.transport = .rawTcp
  | .processWebSocket _ | .appendWebSocket _ | .webSocketLoop | .webSocketState =>
      v.transport = .webSocket
  | .deliverMessage _ loop => Settled config v loop
  | .updateInbound _ rest => Settled config v rest

/-- What is about to be queued fits the transport. -/
def Queueable (config : ServerConfig) (v : View) (item : OutboundItem) : Prop :=
  match v.transport with
  | .detecting => ∃ result, detection config v.buffer = .rejected result
  | .rawTcp => True
  | .webSocket => IsFrame item

/-- What a pending task knows about the session. -/
def Knows (config : ServerConfig) (v : View) (s : ι) : Task ι → Prop
  | .reader s' point => s' = s → Settled config v point
  | .out (.enqueue s' item) => s' = s → Queueable config v item
  | .sendControl s' _ _ _ => s' = s → v.transport = .webSocket
  | _ => True

variable [DecidableEq ι]

/-- **The state of the handshake of a session.** -/
structure Greeted (config : ServerConfig) (sv : Server ι) (P : Multiset (Task ι)) (s : ι) : Prop where
  /-- At most one thread handles a read of the session. -/
  oneReader : weight (reader s) P ≤ if (sv.control s).accepted then 1 else 0
  knows : ∀ t ∈ P, Knows config (view sv s) s t
  /-- What is queued before the transport is known rejects the request. -/
  rejected : (view sv s).transport = .detecting → (view sv s).response = none →
    (view sv s).pushed ≠ [] → ∃ result, detection config (view sv s).buffer = .rejected result
  /-- A request is accepted right before the session is upgraded. -/
  greeting : (view sv s).transport = .detecting → (view sv s).response ≠ none →
    ∃ n, .reader s (.store .webSocket n) ∈ P
  /-- A WebSocket session starts with its response, and goes on with frames. -/
  greeted : (view sv s).transport = .webSocket → ∃ key frames,
    (view sv s).response = some (switchingProtocols key) ∧
      (view sv s).pushed = responseItem (switchingProtocols key) false :: frames ∧
      ∀ item ∈ frames, IsFrame item

section Steps

variable {config : ServerConfig} {sv sv' : Server ι} {task : Task ι} {new : List (Task ι)}
  {R : Multiset (Task ι)} {s : ι}

omit [DecidableEq ι] in
theorem knows_of_session {v : View} {t : Task ι} (h : t.session? ≠ some s) :
    Knows config v s t := by
  cases t with
  | reader s' point => exact fun heq => absurd (congrArg some heq) h
  | sendControl s' opcode payload closeAfter => exact fun heq => absurd (congrArg some heq) h
  | out action =>
      cases action with
      | enqueue s' item => exact fun heq => absurd (congrArg some heq) h
      | _ => trivial
  | _ => trivial

omit [DecidableEq ι] in
theorem knows_of_arrives {v : View} {t : Task ι} (h : t.arrives = true) : Knows config v s t := by
  cases t with
  | reader s' point => cases h
  | sendControl s' opcode payload closeAfter => cases h
  | out action =>
      cases action with
      | enqueue s' item => cases h
      | _ => trivial
  | _ => trivial

/-- A step that does not touch the handshake. -/
theorem Greeted.same (h : Greeted config sv (task ::ₘ R) s) (hview : view sv' s = view sv s)
    (haccepted : (sv'.control s).accepted = (sv.control s).accepted)
    (hreader : (new.map (reader s)).sum ≤ reader s task)
    (hnew : ∀ t ∈ new, Knows config (view sv s) s t)
    (hstore : ∀ n, task ≠ .reader s (.store .webSocket n)) : Greeted config sv' (new + R) s := by
  refine ⟨?_, ?_, ?_, ?_, ?_⟩
  · have hone := h.oneReader
    rw [weight_cons] at hone
    rw [weight_add, weight_coe, haccepted]
    omega
  · intro t ht
    rw [hview]
    rcases Multiset.mem_add.1 ht with ht | ht
    · exact hnew t ht
    · exact h.knows t (Multiset.mem_cons_of_mem ht)
  · rw [hview]
    exact h.rejected
  · rw [hview]
    intro htransport hresponse
    obtain ⟨n, hn⟩ := h.greeting htransport hresponse
    refine ⟨n, Multiset.mem_add.2 (Or.inr ?_)⟩
    exact (Multiset.mem_cons.1 hn).resolve_left fun heq => hstore n heq.symm
  · rw [hview]
    exact h.greeted

/-- A step of another session. -/
theorem Greeted.other (h : Greeted config sv (task ::ₘ R) s) (hstep : Step config sv task sv' new)
    (hs : task.session? ≠ some s) : Greeted config sv' (new + R) s := by
  obtain ⟨hcontrol, hout, hnew⟩ := hstep.frame hs
  refine h.same (by rw [view, view, hcontrol, hout]) (by rw [hcontrol]) ?_ (fun t ht => ?_)
    fun n heq => hs (by rw [heq]; rfl)
  · rw [readers_eq_zero fun t ht => ?_]
    · exact Nat.zero_le _
    · by_cases hsession : t.session? = some s
      · exact reader_of_arrives (hnew t ht hsession)
      · exact reader_of_session hsession
  · by_cases hsession : t.session? = some s
    · exact knows_of_arrives (hnew t ht hsession)
    · exact knows_of_session hsession

/-- A step of a reading thread that may change the handshake: no other thread of the session
handles a read, so what is left to know is about what is going to be queued. -/
theorem Greeted.turn {point point' : ReadPoint} (calls : List (Task ι))
    (h : Greeted config sv (.reader s point ::ₘ R) s)
    (haccepted : (sv'.control s).accepted = (sv.control s).accepted)
    (hcalls : ∀ t ∈ calls, reader s t = 0 ∧ Knows config (view sv' s) s t)
    (hpoint : Settled config (view sv' s) point')
    (hqueue : ∀ item, .out (.enqueue s item) ∈ R → Queueable config (view sv' s) item)
    (hcontrol : ∀ opcode payload closeAfter, .sendControl s opcode payload closeAfter ∈ R →
      (view sv' s).transport = .webSocket)
    (hrejected : (view sv' s).transport = .detecting → (view sv' s).response = none →
      (view sv' s).pushed ≠ [] → ∃ result, detection config (view sv' s).buffer = .rejected result)
    (hgreeting : (view sv' s).transport = .detecting → (view sv' s).response ≠ none →
      ∃ n, point' = .store .webSocket n)
    (hgreeted : (view sv' s).transport = .webSocket → ∃ key frames,
      (view sv' s).response = some (switchingProtocols key) ∧
        (view sv' s).pushed = responseItem (switchingProtocols key) false :: frames ∧
        ∀ item ∈ frames, IsFrame item) :
    Greeted config sv' ((calls ++ [.reader s point'] : List (Task ι)) + R) s := by
  obtain ⟨hacc, hnone⟩ := alone_of_oneReader h.oneReader
  have hone := h.oneReader
  refine ⟨?_, fun t ht => ?_, hrejected, fun htransport hresponse => ?_, hgreeted⟩
  · rw [weight_cons] at hone
    rw [weight_add, weight_coe, readers_proceed (fun t ht => (hcalls t ht).1) s point point',
      haccepted]
    exact hone
  · rcases Multiset.mem_add.1 ht with hnew | hold
    · rcases List.mem_append.1 hnew with hcall | hlast
      · exact (hcalls t hcall).2
      · rw [List.mem_singleton.1 hlast]
        exact fun _ => hpoint
    · cases t with
      -- the only reading thread of the session is the one that took the step
      | reader s' point'' =>
          rintro rfl
          exact absurd hold (hnone point'')
      | sendControl s' opcode payload closeAfter =>
          rintro rfl
          exact hcontrol opcode payload closeAfter hold
      | out action =>
          cases action with
          | enqueue s' item =>
              rintro rfl
              exact hqueue item hold
          | _ => trivial
      | _ => trivial
  · obtain ⟨n, rfl⟩ := hgreeting htransport hresponse
    exact ⟨n, Multiset.mem_add.2 (Or.inl (by simp))⟩

omit [DecidableEq ι] in
/-- A reading thread goes where it knows enough. -/
theorem Goes.settled {c : Control} {v : View} {point point' : ReadPoint}
    (h : Goes config c point point') (htransport : v.transport = c.transport)
    (hbuffer : v.buffer = c.detectionBuffer)
    (hresponse : v.transport = .detecting → v.response = none)
    (hsettled : Settled config v point) : Settled config v point' := by
  cases h with
  | stops | settles | incoming => trivial
  | detecting hdetecting bytes =>
      have hdetecting' := htransport.trans hdetecting
      exact ⟨hdetecting', hresponse hdetecting'⟩
  | rawTcp hraw bytes => exact htransport.trans hraw
  | webSocket hwebSocket bytes => exact htransport.trans hwebSocket
  | greets haccepted => exact ⟨hsettled.1, hsettled.2, hbuffer ▸ haccepted⟩
  | _ => exact hsettled

/-- What a reading thread calls on the way knows enough. -/
theorem Calls.knows {c : Control} {v : View} {point : ReadPoint} {calls : List (Task ι)}
    (h : Calls config c s point calls) (hbuffer : v.buffer = c.detectionBuffer)
    (hsettled : Settled config v point) :
    ∀ t ∈ calls, reader s t = 0 ∧ Knows config v s t := by
  intro t ht
  cases h with
  | nothing => cases ht
  | disconnects | closes =>
      rw [List.mem_singleton.1 ht]
      exact ⟨rfl, trivial⟩
  | controls hpoint opcode payload closeAfter =>
      subst hpoint
      rw [List.mem_singleton.1 ht]
      exact ⟨rfl, fun _ => hsettled⟩
  | @rejects result hrejected hpoint =>
      subst hpoint
      rw [List.mem_singleton.1 ht]
      refine ⟨rfl, fun _ => ?_⟩
      rw [Queueable, hsettled.1]
      exact ⟨result, hbuffer ▸ hrejected⟩

omit [DecidableEq ι] in
/-- What a call leads to knows enough. -/
theorem Leads.knows {c : Control} {v : View} {t : Task ι} (h : Leads c task t)
    (htransport : v.transport = c.transport) (hs : task.session? = some s)
    (hknows : Knows config v s task) : Knows config v s t := by
  cases h with
  | sendsRaw hraw s' payload item =>
      intro _
      rw [Queueable, htransport, hraw]
      trivial
  | sendsFrame hwebSocket s' payload =>
      intro _
      rw [Queueable, htransport, hwebSocket]
      exact isFrame_frameItem _ _ _
  | controls hwebSocket hs' opcode payload closeAfter => exact fun _ => htransport.trans hwebSocket
  | sendsControl s' opcode payload closeAfter closeAfter' =>
      intro heq
      have hwebSocket : v.transport = .webSocket := hknows heq
      rw [Queueable, hwebSocket]
      exact isFrame_frameItem _ _ _
  | _ => trivial

/-- Before its session is upgraded, a reading thread has no response yet. -/
theorem Greeted.response_eq_none {point : ReadPoint}
    (h : Greeted config sv (.reader s point ::ₘ R) s) (hpoint : ∀ n, point ≠ .store .webSocket n)
    (htransport : (view sv s).transport = .detecting) : (view sv s).response = none := by
  by_contra hresponse
  obtain ⟨n, hn⟩ := h.greeting htransport hresponse
  rcases Multiset.mem_cons.1 hn with heq | hmem
  · injection heq with _ hpoint'
    exact hpoint n hpoint'.symm
  · exact (alone_of_oneReader h.oneReader).2 _ hmem

/-- The steps of a reading thread that only concern its own data. -/
theorem Greeted.handles {point : ReadPoint} {c : Control}
    (h : Greeted config sv (.reader s point ::ₘ R) s) (hpoint : ∀ n, point ≠ .store .webSocket n)
    (hkept : Control.Kept (sv.control s) c) (hnew : Proceeds config (sv.control s) s point new) :
    Greeted config (sv.modify s fun _ => c) (new + R) s := by
  have hsettled : Settled config (view sv s) point := h.knows _ (Multiset.mem_cons_self _ R) rfl
  refine h.same ?_ ?_ ?_ ?_ fun n heq => ?_
  · simp only [view, modify_self, modify_out, hkept.transport, hkept.detectionBuffer,
      hkept.response]
  · rw [modify_self, hkept.accepted]
  · exact hnew.readers
  · intro t ht
    rcases hnew with rfl | ⟨calls, point', rfl, hcalls, hgoes⟩
    · rw [List.mem_singleton.1 ht]
      trivial
    · rcases List.mem_append.1 ht with hcall | hlast
      · exact (hcalls.knows rfl hsettled t hcall).2
      · rw [List.mem_singleton.1 hlast]
        exact fun _ => hgoes.settled rfl rfl (h.response_eq_none hpoint) hsettled
  · injection heq with _ heq'
    exact hpoint n heq'

/-- A reading thread goes on, and the handshake stays as it is. -/
theorem Greeted.pass {point point' : ReadPoint} (calls : List (Task ι))
    (h : Greeted config sv (.reader s point ::ₘ R) s) (hview : view sv' s = view sv s)
    (haccepted : (sv'.control s).accepted = (sv.control s).accepted)
    (hpoint : ∀ n, point ≠ .store .webSocket n) (hsettled : Settled config (view sv s) point')
    (hcalls : ∀ t ∈ calls, t = disconnect s) :
    Greeted config sv' ((calls ++ [.reader s point'] : List (Task ι)) + R) s := by
  refine h.same hview haccepted ?_ (fun t ht => ?_) fun n heq => ?_
  · refine (readers_proceed (fun t ht => ?_) s point point').le
    rw [hcalls t ht]
    rfl
  · rcases List.mem_append.1 ht with hcall | hlast
    · rw [hcalls t hcall]
      trivial
    · rw [List.mem_singleton.1 hlast]
      exact fun _ => hsettled
  · injection heq with _ heq'
    exact hpoint n heq'

/-- The task of a caller or of the outbound side leaves the handshake as it is. -/
theorem Greeted.quiet (h : Greeted config sv (task ::ₘ R) s) (hview : view sv' s = view sv s)
    (haccepted : (sv'.control s).accepted = (sv.control s).accepted)
    (htask : ∀ n, task ≠ .reader s (.store .webSocket n))
    (hnew : ∀ t ∈ new, reader s t = 0 ∧ Knows config (view sv s) s t) :
    Greeted config sv' (new + R) s := by
  refine h.same hview haccepted ?_ (fun t ht => (hnew t ht).2) htask
  rw [readers_eq_zero fun t ht => (hnew t ht).1]
  exact Nat.zero_le _

omit [DecidableEq ι] in
/-- What was accepted is not rejected. -/
theorem not_rejected {v : View} {result : HandshakeResult}
    (h : detection config v.buffer = .accepted result) :
    ¬ ∃ result', detection config v.buffer = .rejected result' := by
  rintro ⟨result', hrejected⟩
  rw [h] at hrejected
  cases hrejected

/-- An item joins the queue. -/
theorem Greeted.pushed {item : OutboundItem} {actions : List (Outbound.Action ι)}
    (h : Greeted config sv (.out (.enqueue s item) ::ₘ R) s)
    (hcontrol : sv'.control s = sv.control s)
    (hpushed : (sv'.out.sessions s).pushed = (sv.out.sessions s).pushed ++ [item])
    (hactions : ∀ a ∈ actions, ∀ s item, a ≠ .enqueue s item) :
    Greeted config sv' ((actions.map Task.out : List (Task ι)) + R) s := by
  have hqueueable : Queueable config (view sv s) item :=
    h.knows _ (Multiset.mem_cons_self _ R) rfl
  have hview : view sv' s = { view sv s with pushed := (view sv s).pushed ++ [item] } := by
    simp only [view, hcontrol, hpushed]
  -- a session that is about to be upgraded has nothing else to queue
  have hsettled : ∀ point, Settled config (view sv s) point →
      Settled config (view sv' s) point := by
    intro point
    rw [hview]
    induction point with
    | store transport consumed =>
        cases transport with
        | detecting => exact id
        | rawTcp => exact id
        | webSocket =>
            rintro ⟨htransport, result, haccepted, -⟩
            rw [Queueable, htransport] at hqueueable
            exact absurd hqueueable (not_rejected haccepted)
    | deliverMessage message loop ih => exact ih
    | updateInbound bytes rest ih => exact ih
    | _ => exact id
  have hknows : ∀ t : Task ι, Knows config (view sv s) s t → Knows config (view sv' s) s t := by
    intro t ht
    cases t with
    | reader s' point => exact fun heq => hsettled point (ht heq)
    | sendControl s' opcode payload closeAfter =>
        intro heq
        rw [hview]
        exact ht heq
    | out action =>
        cases action with
        | enqueue s' item' =>
            intro heq
            rw [hview]
            exact ht heq
        | _ => trivial
    | _ => trivial
  refine ⟨?_, fun t ht => ?_, ?_, ?_, ?_⟩
  · have hone := h.oneReader
    have hzero : ((actions.map Task.out).map (reader s)).sum = 0 := by
      refine readers_eq_zero fun t ht => ?_
      obtain ⟨a, -, rfl⟩ := List.mem_map.1 ht
      rfl
    rw [weight_cons] at hone
    rw [weight_add, weight_coe, hzero, hcontrol]
    exact (Nat.le_add_left _ _).trans (by rwa [Nat.zero_add])
  · rcases Multiset.mem_add.1 ht with hnew | hold
    · obtain ⟨a, ha, rfl⟩ := List.mem_map.1 hnew
      cases a with
      | enqueue s' item' => exact absurd rfl (hactions _ ha s' item')
      | _ => trivial
    · exact hknows t (h.knows t (Multiset.mem_cons_of_mem hold))
  · rw [hview]
    intro htransport _ _
    rw [Queueable, htransport] at hqueueable
    exact hqueueable
  · rw [hview]
    intro htransport hresponse
    obtain ⟨n, hn⟩ := h.greeting htransport hresponse
    refine ⟨n, Multiset.mem_add.2 (Or.inr ?_)⟩
    exact (Multiset.mem_cons.1 hn).resolve_left (by intro heq; cases heq)
  · rw [hview]
    intro htransport
    obtain ⟨key, frames, hresponse, hframes, hall⟩ := h.greeted htransport
    rw [Queueable, htransport] at hqueueable
    refine ⟨key, frames ++ [item], hresponse, ?_, fun item' hitem' => ?_⟩
    · rw [hframes]
      rfl
    · rcases List.mem_append.1 hitem' with hmem | hmem
      · exact hall item' hmem
      · rw [List.mem_singleton.1 hmem]
        exact hqueueable

/-- The response that the task is about to queue, if there is one, finds room. -/
def welcomes (config : ServerConfig) (sv : Server ι) : Task ι → Bool
  | .reader s (.greet result) =>
      Outbound.accepts config sv.out s (responseItem result.response false)
  | _ => true

/-! ### The steps that change the handshake -/

/-- What another thread is about to queue for a session that is not known yet rejects its
request. -/
theorem Greeted.queued_rejected {item : OutboundItem} (h : Greeted config sv (task ::ₘ R) s)
    (htransport : (view sv s).transport = .detecting) (hitem : .out (.enqueue s item) ∈ R) :
    ∃ result, detection config (view sv s).buffer = .rejected result := by
  have hqueueable := h.knows _ (Multiset.mem_cons_of_mem hitem) rfl
  rwa [Queueable, htransport] at hqueueable

/-- No control frame is on its way to a session that is not known yet. -/
theorem Greeted.not_controls (h : Greeted config sv (task ::ₘ R) s)
    (htransport : (view sv s).transport = .detecting) (opcode : WsOpcode) (payload : Bytes)
    (closeAfter : Bool) : .sendControl s opcode payload closeAfter ∉ R := by
  intro hmem
  have hwebSocket : (view sv s).transport = .webSocket :=
    h.knows _ (Multiset.mem_cons_of_mem hmem) rfl
  rw [htransport] at hwebSocket
  cases hwebSocket

/-- `HandleAccept` starts the first read of the session. -/
theorem Greeted.accepts (h : Greeted config sv (.accept s ::ₘ R) s)
    (hnot : (sv.control s).accepted = false) :
    Greeted config
      (sv.modify s fun c => { c with accepted := true, registered := true, state := .handshaking })
      (([.reader s .postRead] : List (Task ι)) + R) s := by
  have hview : view (sv.modify s fun c =>
      { c with accepted := true, registered := true, state := .handshaking }) s = view sv s := by
    simp [view]
  have hone := h.oneReader
  rw [hnot, weight_cons] at hone
  have hrest : weight (reader s) R = 0 := by simpa using Nat.le_of_add_left_le hone
  refine ⟨?_, fun t ht => ?_, ?_, ?_, ?_⟩
  · rw [weight_add, hrest, weight_coe]
    simp [reader, Task.reader?]
  · rw [hview]
    rcases Multiset.mem_add.1 ht with hnew | hold
    · rw [List.mem_singleton.1 hnew]
      exact fun _ => trivial
    · exact h.knows t (Multiset.mem_cons_of_mem hold)
  · rw [hview]
    exact h.rejected
  · rw [hview]
    intro htransport hresponse
    obtain ⟨n, hn⟩ := h.greeting htransport hresponse
    refine ⟨n, Multiset.mem_add.2 (Or.inr ?_)⟩
    exact (Multiset.mem_cons.1 hn).resolve_left (by intro heq; cases heq)
  · rw [hview]
    exact h.greeted

/-- `ProcessDetection` puts what it has read behind the detection buffer: a request that was
rejected stays rejected. -/
theorem Greeted.buffers {bytes : Bytes}
    (h : Greeted config sv (.reader s (.processDetection bytes) ::ₘ R) s) (point : ReadPoint)
    (hpoint : ∀ v : View, v.transport = .detecting → v.response = none → Settled config v point) :
    Greeted config
      (sv.modify s fun c => { c with detectionBuffer := c.detectionBuffer ++ bytes })
      (([.reader s point] : List (Task ι)) + R) s := by
  obtain ⟨htransport, hresponse⟩ := h.knows _ (Multiset.mem_cons_self _ R) rfl
  have hview : view (sv.modify s fun c =>
      { c with detectionBuffer := c.detectionBuffer ++ bytes }) s =
      { view sv s with buffer := (view sv s).buffer ++ bytes } := by
    simp [view]
  refine h.turn [] ?_ (fun t ht => absurd ht List.not_mem_nil) ?_ ?_ ?_ ?_ ?_ ?_
  · rw [modify_self]
  · rw [hview]
    exact hpoint _ htransport hresponse
  · intro item hitem
    obtain ⟨result, hrejected⟩ := h.queued_rejected htransport hitem
    rw [hview, Queueable, htransport]
    exact detection_rejected_append hrejected bytes
  · intro opcode payload closeAfter hmem
    exact absurd hmem (h.not_controls htransport opcode payload closeAfter)
  · rw [hview]
    intro _ _ hpushed
    obtain ⟨result, hrejected⟩ := h.rejected htransport hresponse hpushed
    exact detection_rejected_append hrejected bytes
  · rw [hview]
    intro _ hsome
    exact absurd hresponse hsome
  · rw [hview]
    intro hwebSocket
    rw [htransport] at hwebSocket
    cases hwebSocket

/-- The response to an accepted request finds room: nothing has been queued before it, and nothing
else is about to be queued. -/
theorem Greeted.greets {result : HandshakeResult} {out : Outbound.Shared ι}
    {next : List (Outbound.Action ι)}
    (h : Greeted config sv (.reader s (.greet result) ::ₘ R) s)
    (hact : Outbound.Step config sv.out (.enqueue s (responseItem result.response false)) out next)
    (hroom : Outbound.accepts config sv.out s (responseItem result.response false) = true) :
    Greeted config
      ({ (sv.modify s fun c => { c with response := some result.response }) with out := out } :
        Server ι)
      ((next.map .out ++ [.reader s (.store .webSocket result.consumed)] : List (Task ι)) + R)
      s := by
  obtain ⟨htransport, hresponse, haccepted⟩ := h.knows _ (Multiset.mem_cons_self _ R) rfl
  -- what was queued before would have rejected the request
  have hempty : (view sv s).pushed = [] := by
    by_contra hpushed
    exact not_rejected haccepted (h.rejected htransport hresponse hpushed)
  have hnext := hact.session (by intro heq; cases heq)
  have hpushed : (out.sessions s).pushed = [responseItem result.response false] := by
    cases hact with
    | accepted hacc =>
        have hempty' : (sv.out.sessions s).pushed = [] := hempty
        simp [Outbound.push, hempty']
    | refused hacc =>
        rw [hroom] at hacc
        cases hacc
  have hview : view ({ (sv.modify s fun c => { c with response := some result.response }) with
      out := out } : Server ι) s =
      ⟨(view sv s).transport, (view sv s).buffer, some result.response,
        [responseItem result.response false]⟩ := by
    simp [view, hpushed]
  refine h.turn _ ?_ (fun t ht => ?_) ?_ ?_ ?_ ?_ ?_ ?_
  · simp
  · obtain ⟨q, hq, rfl⟩ := List.mem_map.1 ht
    refine ⟨rfl, ?_⟩
    cases q with
    | enqueue s' item => exact absurd rfl ((hnext _ hq).2 s' item)
    | _ => trivial
  · rw [hview]
    exact ⟨htransport, result, haccepted, rfl, rfl⟩
  · intro item hitem
    exact absurd (h.queued_rejected htransport hitem) (not_rejected haccepted)
  · intro opcode payload closeAfter hmem
    exact absurd hmem (h.not_controls htransport opcode payload closeAfter)
  · rw [hview]
    intro _ hnone
    cases hnone
  · intro _ _
    exact ⟨result.consumed, rfl⟩
  · rw [hview]
    intro hwebSocket
    rw [htransport] at hwebSocket
    cases hwebSocket

/-- The transport of a session is decided: a raw one queues anything from here on, and a WebSocket
session has its response in the queue. -/
theorem Greeted.stores {transport : TransportKind} {consumed : ℕ}
    (h : Greeted config sv (.reader s (.store transport consumed) ::ₘ R) s) :
    Greeted config (sv.modify s fun c => { c with transport := transport })
      (([.reader s (.storeOpen transport consumed)] : List (Task ι)) + R) s := by
  have hsettled := h.knows _ (Multiset.mem_cons_self _ R) rfl
  have hview : view (sv.modify s fun c => { c with transport := transport }) s =
      { view sv s with transport := transport } := by
    simp [view]
  have haccepted : ((sv.modify s fun c => { c with transport := transport }).control s).accepted =
      (sv.control s).accepted := by
    rw [modify_self]
  cases transport with
  | detecting => exact hsettled.elim
  | rawTcp =>
      obtain ⟨htransport, hresponse⟩ := hsettled
      refine h.turn [] haccepted (fun t ht => absurd ht List.not_mem_nil) ?_ ?_ ?_ ?_ ?_ ?_
      · rw [hview]
        exact ⟨rfl, (by intro heq; cases heq)⟩
      · intro item hitem
        rw [hview, Queueable]
        trivial
      · intro opcode payload closeAfter hmem
        exact absurd hmem (h.not_controls htransport opcode payload closeAfter)
      · rw [hview]
        intro hdetecting
        cases hdetecting
      · rw [hview]
        intro hdetecting
        cases hdetecting
      · rw [hview]
        intro hwebSocket
        cases hwebSocket
  | webSocket =>
      obtain ⟨htransport, result, hgranted, hresponse, hpushed⟩ := hsettled
      refine h.turn [] haccepted (fun t ht => absurd ht List.not_mem_nil) ?_ ?_ ?_ ?_ ?_ ?_
      · rw [hview]
        exact ⟨rfl, (by intro heq; cases heq)⟩
      · intro item hitem
        exact absurd (h.queued_rejected htransport hitem) (not_rejected hgranted)
      · intro opcode payload closeAfter hmem
        exact absurd hmem (h.not_controls htransport opcode payload closeAfter)
      · rw [hview]
        intro hdetecting
        cases hdetecting
      · rw [hview]
        intro hdetecting
        cases hdetecting
      · rw [hview]
        intro _
        obtain ⟨key, hkey⟩ := response_of_detection hgranted
        rw [hkey] at hresponse hpushed
        exact ⟨key, [], hresponse, hpushed, fun item hitem => absurd hitem List.not_mem_nil⟩

/-- The detection buffer is handed over; nothing that is known later is about it. -/
theorem Greeted.leaves {transport : TransportKind} {consumed : ℕ} (rest : Bytes)
    (h : Greeted config sv (.reader s (.leave transport consumed) ::ₘ R) s) :
    Greeted config (sv.modify s fun c => { c with detectionBuffer := [] })
      (([.reader s (handOver transport rest)] : List (Task ι)) + R) s := by
  obtain ⟨htransport, hknown⟩ := h.knows _ (Multiset.mem_cons_self _ R) rfl
  have hview : view (sv.modify s fun c => { c with detectionBuffer := [] }) s =
      { view sv s with buffer := [] } := by
    simp [view]
  -- `Queueable` reads the buffer only while the transport is not known
  have hnotDetecting : (view sv s).transport ≠ .detecting := htransport ▸ hknown
  refine h.turn [] ?_ (fun t ht => absurd ht List.not_mem_nil) ?_ ?_ ?_ ?_ ?_ ?_
  · rw [modify_self]
  · rw [hview]
    cases transport with
    | detecting => exact absurd rfl hknown
    | rawTcp => exact htransport
    | webSocket =>
        simp only [handOver, Settled]
        split
        · trivial
        · exact htransport
  · intro item hitem
    have hqueueable := h.knows _ (Multiset.mem_cons_of_mem hitem) rfl
    rw [hview]
    cases transport with
    | detecting => exact absurd rfl hknown
    | rawTcp =>
        rw [Queueable, htransport]
        trivial
    | webSocket =>
        rw [Queueable, htransport] at hqueueable ⊢
        exact hqueueable
  · rw [hview]
    intro opcode payload closeAfter hmem
    exact h.knows _ (Multiset.mem_cons_of_mem hmem) rfl
  · rw [hview]
    intro hdetecting
    exact absurd hdetecting hnotDetecting
  · rw [hview]
    intro hdetecting
    exact absurd hdetecting hnotDetecting
  · rw [hview]
    exact h.greeted

/-- **Every step keeps the handshakes in order**, unless a response finds no room. -/
theorem Greeted.step (hstep : Step config sv task sv' new) (hok : welcomes config sv task = true)
    (h : Greeted config sv (task ::ₘ R) s) : Greeted config sv' (new + R) s := by
  by_cases hs : task.session? ≠ some s
  · exact h.other hstep hs
  rw [not_not] at hs
  have hself := h.knows task (Multiset.mem_cons_self task R)
  cases hstep with
  | arrives harrival => cases hs
  | @acts action out next houtside hkeep hact =>
      have hnext := hact.session houtside
      rcases hact.pushed s with hpushed | ⟨item, rfl, hpushed⟩
      · refine h.quiet ?_ rfl (by intro n heq; cases heq) fun t ht => ?_
        · simp only [view, hpushed]
        · obtain ⟨q, hq, rfl⟩ := List.mem_map.1 ht
          refine ⟨rfl, ?_⟩
          cases q with
          | enqueue s' item => exact absurd rfl ((hnext _ hq).2 s' item)
          | _ => trivial
      · exact h.pushed rfl hpushed fun a ha => (hnext a ha).2
  | @disconnects s' hstarted =>
      obtain rfl := Option.some.inj hs
      refine h.quiet ?_ rfl (by intro n heq; cases heq) fun t ht => ?_
      · simp [view]
      · simp only [List.mem_cons, List.not_mem_nil, or_false] at ht
        rcases ht with rfl | rfl | rfl | rfl <;> exact ⟨rfl, trivial⟩
  | accepts hnot =>
      obtain rfl := Option.some.inj hs
      exact h.accepts hnot
  | posts hopen =>
      obtain rfl := Option.some.inj hs
      refine h.pass [] rfl rfl (by intro n heq; cases heq) ?_ fun t ht => absurd ht List.not_mem_nil
      trivial
  | notPosted s' =>
      refine h.quiet rfl rfl (by intro n heq; cases heq) fun t ht => ?_
      rw [List.mem_singleton.1 ht]
      exact ⟨rfl, trivial⟩
  | reads s' succeeded hlen =>
      obtain rfl := Option.some.inj hs
      refine h.pass [] rfl rfl (by intro n heq; cases heq) ?_ fun t ht => absurd ht List.not_mem_nil
      trivial
  | overflows s' bytes =>
      obtain rfl := Option.some.inj hs
      refine h.pass [disconnect s'] rfl rfl (by intro n heq; cases heq) ?_
        fun t ht => List.mem_singleton.1 ht
      trivial
  | buffers s' bytes =>
      obtain rfl := Option.some.inj hs
      exact h.buffers _ fun v htransport hresponse => ⟨htransport, hresponse⟩
  | greets result hact =>
      obtain rfl := Option.some.inj hs
      exact h.greets hact hok
  | stores s' transport consumed =>
      obtain rfl := Option.some.inj hs
      exact h.stores
  | opens s' transport consumed =>
      obtain rfl := Option.some.inj hs
      have hview : view (sv.modify s' fun c => { c with state := .opened }) s' = view sv s' := by
        simp [view]
      refine h.pass [] hview (by rw [modify_self]) (by intro n heq; cases heq) ?_
        fun t ht => absurd ht List.not_mem_nil
      exact hself rfl
  | leaves s' transport consumed =>
      obtain rfl := Option.some.inj hs
      exact h.leaves _
  | updates s' bytes rest =>
      obtain rfl := Option.some.inj hs
      obtain ⟨total, htotal⟩ := updateInboundAccounting_eq config sv s' bytes
      refine h.pass _ ?_ ?_ (by intro n heq; cases heq) (hself rfl) fun t ht => ?_
      · rw [htotal]
        simp [view]
      · rw [htotal]
        simp
      · split at ht
        · exact List.mem_singleton.1 ht
        · cases ht
  | @handles x s' point c new hlocal =>
      obtain rfl := Option.some.inj hs
      -- the other points of the read loop leave the transport alone
      obtain ⟨hkept, hnew⟩ := localStep_spec hlocal
      refine h.handles (fun n heq => ?_) hkept hnew
      subst heq
      cases hlocal
  | removes s' =>
      obtain rfl := Option.some.inj hs
      exact h.quiet (by simp [view]) (by simp) (by intro n heq; cases heq)
        fun t ht => absurd ht List.not_mem_nil
  | releases s' =>
      obtain rfl := Option.some.inj hs
      obtain ⟨total, htotal⟩ := updateInboundAccounting_eq config sv s' 0
      refine h.quiet ?_ ?_ (by intro n heq; cases heq) fun t ht => absurd ht List.not_mem_nil
      · rw [htotal]
        simp [view]
      · rw [htotal]
        simp
  | @calls x s' task state new hsession hcall =>
      obtain rfl : s' = s := Option.some.inj (hsession.symm.trans hs)
      refine h.quiet (by simp [view]) (by simp) (fun n heq => ?_) fun t ht => ?_
      · subst heq
        cases hcall
      · have hleads := callStep_spec hcall t ht
        exact ⟨hleads.reader_eq_zero, hleads.knows rfl hs hself⟩

end Steps

/-! ### Every run -/

/-- The handshakes are in order before any thread has been started. -/
theorem greeted_start (config : ServerConfig) (s : ι) :
    Greeted config (start config : Config (Server ι) (Task ι)).shared
      (start config : Config (Server ι) (Task ι)).pending s := by
  refine ⟨Nat.zero_le _, fun t ht => ?_, fun _ _ hpushed => absurd rfl hpushed,
    fun _ hresponse => absurd rfl hresponse, (by intro htransport; cases htransport)⟩
  rw [List.mem_singleton.1 (show t ∈ [Task.outside] from ht)]
  trivial

/-- In every run in which each response finds room, an upgraded session was answered first. -/
theorem greeted_run {config : ServerConfig} {moves : List (ℕ × Choice ι)}
    {c : Config (Server ι) (Task ι)}
    (hok : (program config).AllMeet (fun _ t sv _ => welcomes config sv t = true) moves
      (start config))
    (hrun : (program config).run moves (start config) = some c) (s : ι) :
    Greeted config c.shared c.pending s := by
  refine Program.invariant_of_allMeet (I := fun sv P => Greeted config sv P s)
    (fun x p sv R o hexec hwelcomes hI => ?_) moves hok (greeted_start config s) hrun
  rw [Multiset.coe_add]
  exact hI.step (exec_step hexec) hwelcomes

/-- **The response comes first.**  In every run in which each response to an accepted handshake
finds room when it is queued, every session that is upgraded has accepted its `101` response before
anything else and only frames behind it, and what it has transmitted is a prefix of these. -/
theorem response_first (config : ServerConfig) (moves : List (ℕ × Choice ι))
    {c : Config (Server ι) (Task ι)}
    (hok : (program config).AllMeet (fun _ t sv _ => welcomes config sv t = true) moves
      (start config))
    (hrun : (program config).run moves (start config) = some c) (s : ι)
    (htransport : (c.shared.control s).transport = .webSocket) :
    ∃ key frames, (c.shared.control s).response = some (switchingProtocols key) ∧
      (c.shared.out.sessions s).pushed =
        responseItem (switchingProtocols key) false :: frames ∧
      (∀ item ∈ frames, IsFrame item) ∧
      (c.shared.out.sessions s).wire <+: switchingProtocols key ++ Outbound.stream frames := by
  obtain ⟨key, frames, hresponse, hpushed, hframes⟩ := (greeted_run hok hrun s).greeted htransport
  refine ⟨key, frames, hresponse, hpushed, hframes, ?_⟩
  have hwire := (run_reachable hrun).wire_begins s
  rw [show (c.shared.out.sessions s).pushed = _ from hpushed, ← List.singleton_append,
    Outbound.stream_append, Outbound.stream_singleton] at hwire
  exact hwire

/-- The thread that handles the read of a session, from the accept on: it is the thread `thread + 1`
once the read is posted. -/
def firstRead (s : Bool) (thread : ℕ) (bytes : Bytes) : List (ℕ × Choice Bool) :=
  [(0, .acceptor s), (thread, .passes), (thread, .passes), (thread + 1, .reads true bytes),
    (thread + 1, .passes), (thread + 1, .passes), (thread + 1, .passes), (thread + 1, .passes),
    (thread + 1, .passes)]

/-- A session is upgraded. -/
def upgrade : List (ℕ × Choice Bool) :=
  firstRead false 1 upgradeRequest ++
    [(2, .passes), (2, .out .succeeds), (2, .out .succeeds), (2, .out .succeeds),
      (2, .out .succeeds), (2, .passes), (2, .passes)]

/-- Its response is the first item. -/
theorem response_first_upgrade : ∃ c, (program {}).run upgrade (start {}) = some c ∧
    ∃ key frames, (c.shared.out.sessions false).pushed =
      responseItem (switchingProtocols key) false :: frames := by
  have hobserved : ((program {}).run upgrade (start {})).map
      (fun c => (c.shared.control false).transport) = some .webSocket := by
    decide +kernel
  obtain ⟨c, hrun, htransport⟩ := Option.map_eq_some_iff.1 hobserved
  have hok := Program.allMeet_of_meets (P := program {}) (fun _ t sv => welcomes {} sv t)
    upgrade (c := start {}) (by decide +kernel)
  obtain ⟨key, frames, -, hpushed, -⟩ := response_first {} upgrade hok hrun false htransport
  exact ⟨c, hrun, key, frames, hpushed⟩

/-- The server may have 150 bytes queued. -/
def smallBudget : ServerConfig := { maxGlobalQueuedBytes := 150 }

/-- One session waits for the response that rejects its request; then another one is upgraded, and
a message is sent to it. -/
def busyServer : List (ℕ × Choice Bool) :=
  firstRead true 1 (ascii "GET \r\n\r\n") ++ [(2, .out .succeeds)] ++
    firstRead false 3 upgradeRequest ++ [(4, .passes), (4, .passes), (4, .passes)] ++
    [(0, .sender false [7]), (5, .passes), (5, .passes), (5, .passes), (5, .out .succeeds),
      (5, .out .succeeds), (5, .out .succeeds), (5, .out .succeeds), (5, .out .succeeds),
      (6, .out (.completes true 3))]

/-- **The response is lost**: the upgraded session is open, its first item is a frame, and the
frame is all it has transmitted. -/
theorem response_lost : ∃ c, (program smallBudget).run busyServer (start smallBudget) = some c ∧
    (c.shared.control false).transport = .webSocket ∧ (c.shared.control false).state = .opened ∧
    (c.shared.out.sessions false).pushed.map OutboundItem.bytes = [[130, 1, 7]] ∧
    (c.shared.out.sessions false).wire = [130, 1, 7] := by
  have hobserved : ((program smallBudget).run busyServer (start smallBudget)).map (fun c =>
      ((c.shared.control false).transport, (c.shared.control false).state,
        (c.shared.out.sessions false).pushed.map OutboundItem.bytes,
        (c.shared.out.sessions false).wire)) =
      some (.webSocket, .opened, [[130, 1, 7]], [130, 1, 7]) := by
    decide +kernel
  obtain ⟨c, hrun, hc⟩ := Option.map_eq_some_iff.1 hobserved
  simp only [Prod.mk.injEq] at hc
  exact ⟨c, hrun, hc⟩

end ServerSteps

end RealtimeEngine
