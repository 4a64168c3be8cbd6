/-
**The order of one publisher's messages.**

A session has one read at a time, and the thread that handles it decodes, routes and queues one
message after the other, in the order of the bytes.  So the messages that a session publishes reach
the send queue of a recipient in the order in which they were decoded, whatever the other threads
queue in between, and each of them at most once; and the recipient's queue is transmitted in order.

Main definitions:

* `RealtimeEngine.EngineSteps.Before` — the order of the messages of one publisher;
* `RealtimeEngine.EngineSteps.History` — what holds of the send queues;
* `RealtimeEngine.EngineSteps.Work.mayQueue`, `RealtimeEngine.EngineSteps.Work.Carries` — what is
  left to do in a handler;
* `RealtimeEngine.EngineSteps.Publishing` — the invariant.

Main results:

* `RealtimeEngine.EngineSteps.publisher_order` — **the run theorem**: one read at a time, the
  messages in the order of the bytes, those of a publisher in this order and at most once in every
  queue, and the wire a beginning of the queue.
-/

import RealtimeEngine.EngineInput

set_option relaxedAutoImplicit false
set_option autoImplicit false

namespace RealtimeEngine

namespace EngineSteps

open Interleaving
open scoped List

/-! ### The send queues -/

/-- If both items publish messages of one session, the first one publishes an earlier message. -/
def Before (first second : Option MessageId) : Prop :=
  ∀ s k l, first = some (s, k) → second = some (s, l) → k < l

/-- The items that `Enqueue` of the session has accepted. -/
abbrev Engine.pushed (e : Engine) (q : SessionHandle) : List OutboundItem :=
  (e.server.out.sessions q).pushed

/-- **What holds of the send queues.** -/
structure History (e : Engine) : Prop where
  length : ∀ q, (e.origins q).length = (e.pushed q).length
  /-- An item that publishes a message has its bytes. -/
  content : ∀ (q : SessionHandle) (i : ℕ) (s : SessionHandle) (k : ℕ),
    (e.origins q)[i]? = some (some (s, k)) →
      ∃ item, (e.pushed q)[i]? = some item ∧ (e.decoded s)[k]? = some item.payload
  order : ∀ q, (e.origins q).Pairwise Before

section Steps

variable {codec : Codec} {build : Outgoing → Bytes} {config : ServerConfig} {e e' : Engine}
  {t : ServerSteps.Task SessionHandle} {server : ServerSteps.Server SessionHandle}
  {new : List (ServerSteps.Task SessionHandle)} {origin : Option MessageId}

/-- A message that is published was decoded. -/
theorem History.lt_length (h : History e) {q s : SessionHandle} {k : ℕ}
    (hmem : some (s, k) ∈ e.origins q) : k < (e.decoded s).length := by
  obtain ⟨i, hi, hget⟩ := List.mem_iff_getElem.1 hmem
  obtain ⟨item, -, hitem⟩ := h.content q i s k (List.getElem?_eq_some_iff.2 ⟨hi, hget⟩)
  exact (List.getElem?_eq_some_iff.1 hitem).1

/-- What a step of the server does to a queue. -/
theorem advance_cases (hstep : ServerSteps.Step config e.server t server new)
    (origin : Option MessageId) (q : SessionHandle) :
    (e.advance t server new origin).pushed q = e.pushed q ∧
        (e.advance t server new origin).origins q = e.origins q ∨
      ∃ item, (t = .out (.enqueue q item) ∨ ∃ result, t = .reader q (.greet result)) ∧
        (e.advance t server new origin).pushed q = e.pushed q ++ [item] ∧
        (e.advance t server new origin).origins q = e.origins q ++ [origin] := by
  rcases hstep.pushed q with hsame | ⟨item, htask, hpushed⟩
  · refine Or.inl ⟨hsame, ?_⟩
    simp only [Engine.advance]
    rw [hsame, Nat.sub_self, List.replicate_zero, List.append_nil]
  · refine Or.inr ⟨item, htask, hpushed, ?_⟩
    simp only [Engine.advance]
    rw [hpushed, List.length_append, Nat.add_sub_cancel_left]
    rfl

/-- What a step of the server does to the messages of a session: only its own reading thread
decodes. -/
theorem advance_decoded (hstep : ServerSteps.Step config e.server t server new)
    (origin : Option MessageId) (s : SessionHandle) :
    (e.advance t server new origin).decoded s = e.decoded s ∧
        (∀ message loop, .reader s (.deliverMessage message loop) ∉ new) ∨
      ∃ before message, t = .reader s before ∧
        (e.advance t server new origin).decoded s = e.decoded s ++ [message] ∧
        ∀ message' loop, .reader s (.deliverMessage message' loop) ∈ new → message' = message := by
  have hnone : ∀ l : List (ServerSteps.Task SessionHandle), (∀ t ∈ l, t.reader? = none) →
      l.filterMap (decodes s) = [] := by
    intro l hl
    refine List.filterMap_eq_nil_iff.2 fun t ht => ?_
    cases t with
    | reader s' point => cases hl _ ht
    | _ => rfl
  have hreader : ∀ {l : List (ServerSteps.Task SessionHandle)} {message : Bytes}
      {loop : ServerSteps.ReadPoint}, (∀ t ∈ l, t.reader? = none) →
      .reader s (.deliverMessage message loop) ∉ l := by
    intro l message loop hl hmem
    cases hl _ hmem
  simp only [Engine.advance]
  rcases hstep.goesOn with hquiet | ⟨s', calls, point, rfl, hcalls, htask⟩
  · rw [hnone new hquiet, List.append_nil]
    exact Or.inl ⟨rfl, fun message loop => hreader hquiet⟩
  · rw [List.filterMap_append, hnone calls hcalls, List.nil_append]
    -- the one point that has decoded a message is the call of `DeliverMessage`
    by_cases hdelivers : ∃ message loop, s' = s ∧ point = .deliverMessage message loop
    · obtain ⟨message, loop, rfl, rfl⟩ := hdelivers
      obtain ⟨before, rfl⟩ | hpost := htask
      · refine Or.inr ⟨before, message, rfl, ?_, fun message' loop' hmem => ?_⟩
        · have hone : ([.reader s' (.deliverMessage message loop)] :
              List (ServerSteps.Task SessionHandle)).filterMap (decodes s') = [message] := by
            simp [decodes]
          rw [hone]
        · rcases List.mem_append.1 hmem with hold | hlast
          · exact absurd hold (hreader hcalls)
          · exact (ServerSteps.ReadPoint.deliverMessage.inj
              (ServerSteps.Task.reader.inj (List.mem_singleton.1 hlast)).2).1
      · cases hpost
    · have hnothing : ([.reader s' point] : List (ServerSteps.Task SessionHandle)).filterMap
          (decodes s) = [] := by
        refine List.filterMap_eq_nil_iff.2 fun t ht => ?_
        rw [List.mem_singleton.1 ht]
        cases point with
        | deliverMessage message loop => exact if_neg fun hs => hdelivers ⟨message, loop, hs, rfl⟩
        | _ => rfl
      rw [hnothing, List.append_nil]
      refine Or.inl ⟨rfl, fun message loop hmem => ?_⟩
      rcases List.mem_append.1 hmem with hold | hlast
      · exact hreader hcalls hold
      · obtain ⟨rfl, rfl⟩ := ServerSteps.Task.reader.inj (List.mem_singleton.1 hlast)
        exact hdelivers ⟨message, loop, rfl, rfl⟩

/-- Messages are only added. -/
theorem advance_prefix (hstep : ServerSteps.Step config e.server t server new)
    (origin : Option MessageId) (s : SessionHandle) :
    e.decoded s <+: (e.advance t server new origin).decoded s := by
  rcases advance_decoded hstep origin s with ⟨heq, -⟩ | ⟨before, message, -, heq, -⟩
  · rw [heq]
  · rw [heq]
    exact List.prefix_append _ _

/-- **A step of the server keeps the history**, if what it publishes is the last message of its
session and is not in the queue yet. -/
theorem History.advance (h : History e) (hstep : ServerSteps.Step config e.server t server new)
    (hpublishes : ∀ q item s k, t = .out (.enqueue q item) → origin = some (s, k) →
      (e.decoded s)[k]? = some item.payload ∧ (e.decoded s).length = k + 1 ∧
        some (s, k) ∉ e.origins q)
    (hgreets : ∀ q result, t = .reader q (.greet result) → origin = none) :
    History (e.advance t server new origin) := by
  have hkept : ∀ {s : SessionHandle} {k : ℕ} {message : Bytes}, (e.decoded s)[k]? = some message →
      ((e.advance t server new origin).decoded s)[k]? = some message := by
    intro s k message hget
    obtain ⟨more, hmore⟩ := advance_prefix hstep origin s
    obtain ⟨hk, hmessage⟩ := List.getElem?_eq_some_iff.1 hget
    rw [← hmore, List.getElem?_append_left hk]
    exact hget
  refine ⟨fun q => ?_, fun q i s k hget => ?_, fun q => ?_⟩
  · rcases advance_cases hstep origin q with ⟨hpushed, horigins⟩ | ⟨item, -, hpushed, horigins⟩
    · rw [hpushed, horigins]
      exact h.length q
    · rw [hpushed, horigins, List.length_append, List.length_append, h.length q]
      rfl
  · rcases advance_cases hstep origin q with ⟨hpushed, horigins⟩ | ⟨item, htask, hpushed, horigins⟩
    · rw [horigins] at hget
      obtain ⟨item, hitem, hmessage⟩ := h.content q i s k hget
      exact ⟨item, by rw [hpushed, hitem], hkept hmessage⟩
    · rw [horigins] at hget
      by_cases hi : i < (e.origins q).length
      · rw [List.getElem?_append_left hi] at hget
        obtain ⟨item', hitem, hmessage⟩ := h.content q i s k hget
        rw [h.length q] at hi
        exact ⟨item', by rw [hpushed, List.getElem?_append_left hi, hitem], hkept hmessage⟩
      · -- the item that was queued by this step
        obtain ⟨hlt, hlast⟩ := List.getElem?_eq_some_iff.1 hget
        rw [List.length_append, List.length_singleton] at hlt
        have hi' : i = (e.origins q).length := by omega
        subst hi'
        rw [List.getElem?_append_right le_rfl, Nat.sub_self] at hget
        have horigin : origin = some (s, k) := Option.some.inj hget
        rcases htask with htask | ⟨result, htask⟩
        · refine ⟨item, ?_, hkept (hpublishes q item s k htask horigin).1⟩
          rw [hpushed, h.length q, List.getElem?_append_right le_rfl, Nat.sub_self]
          rfl
        · rw [hgreets q result htask] at horigin
          cases horigin
  · rcases advance_cases hstep origin q with ⟨-, horigins⟩ | ⟨item, htask, -, horigins⟩
    · rw [horigins]
      exact h.order q
    · rw [horigins, List.pairwise_append]
      refine ⟨h.order q, List.pairwise_singleton _ _, fun first hfirst second hsecond => ?_⟩
      rw [List.mem_singleton.1 hsecond]
      rintro s k l rfl horigin
      have hlt := h.lt_length hfirst
      rcases htask with htask | ⟨result, htask⟩
      · obtain ⟨-, hlength, hnot⟩ := hpublishes q item s l htask horigin
        have hne : k ≠ l := fun heq => hnot (heq ▸ hfirst)
        omega
      · rw [hgreets q result htask] at horigin
        cases horigin

end Steps

/-! ### The handler -/

/-- The task is a stage of `Send` for the payload. -/
def sending (payload : Bytes) : ServerSteps.Task SessionHandle → Prop
  | .send _ bytes | .sendState _ bytes | .sendTransport _ bytes => bytes = payload
  | .out (.enqueue _ item) => item.payload = payload
  | _ => False

/-- What is left to do carries the message: whatever publishes it has its bytes. -/
def Work.Carries (id : MessageId) (message : Bytes) : Work → Prop
  | .call t origin => origin = none ∨ origin = some id ∧ sending message t
  | .act (.handle _ bytes) | .act (.checkPublish _ _ _ bytes) | .act (.authorizePublish _ _ _ bytes)
  | .act (.findPair _ _ _ bytes) | .act (.snapshot _ _ bytes)
  | .act (.send _ _ (.original bytes)) => bytes = message
  | .act (.loop _ _) => False
  | _ => True

/-- How often the message may still be queued to the recipient. -/
def Work.mayQueue (q : SessionHandle) : Work → ℕ
  | .call t (some _) => if t.session? = some q then 1 else 0
  | .act (.handle _ _) | .act (.checkPublish _ _ _ _) | .act (.authorizePublish _ _ _ _)
  | .act (.findPair _ _ _ _) | .act (.snapshot _ _ _) => 1
  | .act (.send _ recipient (.original _)) => if recipient = q then 1 else 0
  | _ => 0

/-- The action does not publish. -/
def quiet : RouterSteps.Action → Bool
  | .handle _ _ | .checkPublish _ _ _ _ | .authorizePublish _ _ _ _ | .findPair _ _ _ _
  | .snapshot _ _ _ | .send _ _ (.original _) | .loop _ _ => false
  | _ => true

section Handler

variable {codec : Codec} {build : Outgoing → Bytes} {config : ServerConfig} {svc : Services}
  {id : MessageId} {message : Bytes}

theorem Work.carries_of_quiet {a : RouterSteps.Action} (h : quiet a = true) :
    Work.Carries id message (.act a) := by
  cases a with
  | send s recipient outgoing => cases outgoing with
    | original bytes => cases h
    | built => trivial
  | handle | checkPublish | authorizePublish | findPair | snapshot | loop => cases h
  | _ => trivial

theorem Work.mayQueue_of_quiet {a : RouterSteps.Action} (h : quiet a = true) (q : SessionHandle) :
    Work.mayQueue q (.act a) = 0 := by
  cases a with
  | send s recipient outgoing => cases outgoing with
    | original bytes => cases h
    | built => rfl
  | handle | checkPublish | authorizePublish | findPair | snapshot | loop => cases h
  | _ => rfl

/-- Quiet actions carry any message and queue none. -/
theorem works_of_quiet (id : MessageId) (message : Bytes) {actions : List RouterSteps.Action}
    (h : ∀ a ∈ actions, quiet a = true) :
    (∀ w ∈ actions.map Work.act, Work.Carries id message w) ∧
      ∀ q, ((actions.map Work.act).map (Work.mayQueue q)).sum = 0 := by
  refine ⟨List.forall_mem_map.2 fun a ha => Work.carries_of_quiet (h a ha), fun q => ?_⟩
  refine List.sum_eq_zero (List.forall_mem_map.2 (List.forall_mem_map.2 fun a ha => ?_))
  exact Work.mayQueue_of_quiet (h a ha) q

theorem quiet_authenticateSteps (s : SessionHandle) (requestId : UInt64)
    (table : Option Authenticate) :
    ∀ a ∈ RouterSteps.authenticateSteps svc s requestId table, quiet a = true := by
  intro a ha
  unfold RouterSteps.authenticateSteps at ha
  split at ha
  · rw [List.mem_singleton.1 ha]
    rfl
  · split at ha
    · rw [List.mem_singleton.1 ha]
      rfl
    · split at ha
      · rcases List.mem_pair.1 ha with rfl | rfl <;> rfl
      · rw [List.mem_singleton.1 ha]
        rfl

theorem quiet_leaveSteps (s : SessionHandle) (requestId : UInt64) (table : Option RoomRequest) :
    ∀ a ∈ RouterSteps.leaveSteps s requestId table, quiet a = true := by
  intro a ha
  unfold RouterSteps.leaveSteps at ha
  split at ha
  · rw [List.mem_singleton.1 ha]
    rfl
  · split at ha <;>
    · rw [List.mem_singleton.1 ha]
      rfl

theorem quiet_joinSteps (router : ProtocolRouter) (s : SessionHandle) (requestId : UInt64)
    (table : Option RoomRequest) :
    ∀ a ∈ RouterSteps.joinSteps router s requestId table, quiet a = true := by
  intro a ha
  unfold RouterSteps.joinSteps at ha
  split at ha
  · rw [List.mem_singleton.1 ha]
    rfl
  · split at ha
    · rw [List.mem_singleton.1 ha]
      rfl
    · split at ha
      · rw [List.mem_singleton.1 ha]
        rfl
      · split at ha <;>
        · rw [List.mem_singleton.1 ha]
          rfl

/-- `Handle` starts at most one publication, of the message it was given. -/
theorem handleSteps_cases (codec : Codec) (svc : Services) (s : SessionHandle) (payload : Bytes) :
    (∀ a ∈ RouterSteps.handleSteps codec svc s payload, quiet a = true) ∨
      ∃ requestId table, RouterSteps.handleSteps codec svc s payload =
        [.checkPublish s requestId table payload] := by
  have hone : ∀ {a : RouterSteps.Action}, quiet a = true → ∀ b ∈ [a], quiet b = true := by
    intro a ha b hb
    rw [List.mem_singleton.1 hb]
    exact ha
  have hnil : ∀ b ∈ ([] : List RouterSteps.Action), quiet b = true :=
    fun b hb => absurd hb List.not_mem_nil
  unfold RouterSteps.handleSteps
  split
  · exact Or.inl hnil
  · dsimp only
    split
    · exact Or.inl (hone rfl)
    · split
      · exact Or.inl (hone rfl)
      · split
        · exact Or.inl (quiet_authenticateSteps s _ _)
        · split
          · exact Or.inl hnil
          · exact Or.inl (hone rfl)
        · exact Or.inl hnil
        · exact Or.inl (hone rfl)
        · exact Or.inl (quiet_leaveSteps s _ _)
        · exact Or.inr ⟨_, _, rfl⟩
        · exact Or.inl (hone rfl)
        · exact Or.inl hnil
        · exact Or.inl hnil

/-- `Publish` goes on with its own message, or it answers. -/
theorem publishSteps_cases (router : ProtocolRouter) (s : SessionHandle) (requestId : UInt64)
    (table : Option Publish) (payload : Bytes) :
    (∀ a ∈ RouterSteps.publishSteps router s requestId table payload, quiet a = true) ∨
      ∃ room, RouterSteps.publishSteps router s requestId table payload =
        [.authorizePublish s requestId room payload] := by
  have hone : ∀ {a : RouterSteps.Action}, quiet a = true → ∀ b ∈ [a], quiet b = true := by
    intro a ha b hb
    rw [List.mem_singleton.1 hb]
    exact ha
  unfold RouterSteps.publishSteps
  split
  · exact Or.inl (hone rfl)
  · split
    · exact Or.inl (hone rfl)
    · dsimp only
      split
      · exact Or.inl (hone rfl)
      · exact Or.inr ⟨_, rfl⟩

/-- Sending the message to every member of a room. -/
theorem works_of_snapshot (s : SessionHandle) {recipients : List SessionHandle}
    (hnodup : recipients.Nodup) :
    (∀ w ∈ (recipients.map fun r => RouterSteps.Action.send s r (.original message)).map Work.act,
        Work.Carries id message w) ∧
      ∀ q, (((recipients.map fun r => RouterSteps.Action.send s r (.original message)).map
        Work.act).map (Work.mayQueue q)).sum ≤ 1 := by
  constructor
  · intro w hw
    obtain ⟨a, ha, rfl⟩ := List.mem_map.1 hw
    obtain ⟨r, -, rfl⟩ := List.mem_map.1 ha
    rfl
  · intro q
    have hcount : (((recipients.map fun r => RouterSteps.Action.send s r (.original message)).map
        Work.act).map (Work.mayQueue q)).sum = recipients.count q := by
      clear hnodup
      induction recipients with
      | nil => rfl
      | cons r recipients ih =>
          rw [List.map_cons, List.map_cons, List.map_cons, List.sum_cons, ih, List.count_cons,
            add_comm]
          refine congrArg (recipients.count q + ·) ?_
          simp [Work.mayQueue]
    rw [hcount]
    exact List.nodup_iff_count_le_one.1 hnodup q

/-- **An action of the router hands its message on**: what it leaves to do carries it, and queues it
at most as often as the action. -/
theorem execAct_works (codec : Codec) (build : Outgoing → Bytes) (svc : Services) (e : Engine)
    {a : RouterSteps.Action} (h : Work.Carries id message (.act a)) :
    (∀ w ∈ (execAct codec build svc (some id) e a).2, Work.Carries id message w) ∧
      ∀ q, ((execAct codec build svc (some id) e a).2.map (Work.mayQueue q)).sum ≤
        Work.mayQueue q (.act a) := by
  -- what answers the publisher neither carries the message nor queues it
  have hquiet : ∀ {actions : List RouterSteps.Action}, (∀ b ∈ actions, quiet b = true) →
      (∀ w ∈ actions.map Work.act, Work.Carries id message w) ∧
        ∀ q, ((actions.map Work.act).map (Work.mayQueue q)).sum ≤ Work.mayQueue q (.act a) := by
    intro actions hactions
    obtain ⟨hcarries, hqueue⟩ := works_of_quiet id message hactions
    exact ⟨hcarries, fun q => (hqueue q).trans_le (Nat.zero_le _)⟩
  have hone : ∀ {b : RouterSteps.Action}, quiet b = true →
      (∀ w ∈ [b].map Work.act, Work.Carries id message w) ∧
        ∀ q, (([b].map Work.act).map (Work.mayQueue q)).sum ≤ Work.mayQueue q (.act a) := by
    intro b hb
    refine hquiet fun b' hb' => ?_
    rw [List.mem_singleton.1 hb']
    exact hb
  -- what goes on towards the recipients carries the message as it is
  have hnext : ∀ {b : RouterSteps.Action}, Work.Carries id message (.act b) →
      (∀ q, Work.mayQueue q (.act b) = Work.mayQueue q (.act a)) →
      (∀ w ∈ [b].map Work.act, Work.Carries id message w) ∧
        ∀ q, (([b].map Work.act).map (Work.mayQueue q)).sum ≤ Work.mayQueue q (.act a) := by
    intro b hb hqueue
    refine ⟨fun w hw => ?_, fun q => ?_⟩
    · rw [List.mem_singleton.1 hw]
      exact hb
    · rw [← hqueue q]
      exact le_rfl
  unfold execAct
  cases a with
  | loop => exact h.elim
  | handle s bytes =>
      obtain rfl : bytes = message := h
      dsimp only [RouterSteps.execWith]
      rcases handleSteps_cases codec svc s bytes with hall | ⟨requestId, table, heq⟩
      · exact hquiet hall
      · rw [heq]
        exact hnext rfl fun q => rfl
  | checkPublish s requestId table bytes =>
      obtain rfl : bytes = message := h
      dsimp only [RouterSteps.execWith]
      rcases publishSteps_cases e.router.router s requestId table bytes with hall | ⟨room, heq⟩
      · exact hquiet hall
      · rw [heq]
        exact hnext rfl fun q => rfl
  | authorizePublish s requestId room bytes =>
      obtain rfl : bytes = message := h
      dsimp only [RouterSteps.execWith]
      split
      · exact hnext rfl fun q => rfl
      · exact hone rfl
  | findPair s requestId room bytes =>
      obtain rfl : bytes = message := h
      dsimp only [RouterSteps.execWith]
      split
      · exact hnext rfl fun q => rfl
      · exact hone rfl
  | snapshot s room bytes =>
      obtain rfl : bytes = message := h
      exact works_of_snapshot s (RoomRegistry.snapshot_nodup _ _)
  | send s recipient outgoing =>
      dsimp only
      cases outgoing with
      | original bytes =>
          obtain rfl : bytes = message := h
          refine ⟨fun w hw => ?_, fun q => ?_⟩
          · rw [List.mem_singleton.1 hw]
            exact Or.inr ⟨rfl, rfl⟩
          · simp [Work.mayQueue, published, ServerSteps.Task.session?]
      | built =>
          refine ⟨fun w hw => ?_, fun q => ?_⟩
          · rw [List.mem_singleton.1 hw]
            exact Or.inl rfl
          · exact le_rfl
  | checkJoin s requestId table => exact hquiet (quiet_joinSteps _ s requestId table)
  | authorizeJoin s requestId room =>
      dsimp only [RouterSteps.execWith]
      split <;> exact hone rfl
  | disconnect s =>
      dsimp only [RouterSteps.execWith]
      split
      · exact hquiet fun b hb => absurd hb List.not_mem_nil
      · exact hone rfl
  | outside | insertPair | leave | respond | removeSession | erasePrincipal => exact hone rfl
  | storePrincipal | onDisconnectReturns => exact hquiet fun b hb => absurd hb List.not_mem_nil

theorem payload_rawItem {payload : Bytes} {item : OutboundItem} (h : rawItem payload = some item) :
    item.payload = payload := by
  unfold rawItem at h
  split at h
  · cases h
  · obtain rfl := Option.some.inj h
    rfl

/-- **A stage of `Send` leads to the next one**, for the same recipient and payload. -/
theorem sending_step {sv sv' : ServerSteps.Server SessionHandle}
    {t : ServerSteps.Task SessionHandle} {new : List (ServerSteps.Task SessionHandle)}
    (hstep : ServerSteps.Step config sv t sv' new) (hsending : sending message t)
    (hout : ∀ action, t ≠ .out action) :
    new.length ≤ 1 ∧ ∀ t' ∈ new, sending message t' ∧ t'.session? = t.session? := by
  have hnil : ([] : List (ServerSteps.Task SessionHandle)).length ≤ 1 ∧
      ∀ t' ∈ ([] : List (ServerSteps.Task SessionHandle)),
        sending message t' ∧ t'.session? = t.session? :=
    ⟨Nat.zero_le _, fun t' ht' => absurd ht' List.not_mem_nil⟩
  -- a stage of `Send` leads to at most one further stage, of the same session
  have hone : ∀ {t' : ServerSteps.Task SessionHandle}, sending message t' →
      t'.session? = t.session? → [t'].length ≤ 1 ∧
        ∀ t'' ∈ [t'], sending message t'' ∧ t''.session? = t.session? := by
    intro t' hsending' hsession
    refine ⟨le_rfl, fun t'' ht'' => ?_⟩
    rw [List.mem_singleton.1 ht'']
    exact ⟨hsending', hsession⟩
  cases t with
  | send s bytes =>
      obtain rfl : bytes = message := hsending
      cases hstep with
      | calls hs hcall =>
          obtain ⟨-, rfl⟩ := Prod.mk.inj (Option.some.inj hcall)
          split
          · exact hnil
          · exact hone rfl rfl
  | sendState s bytes =>
      obtain rfl : bytes = message := hsending
      cases hstep with
      | calls hs hcall =>
          obtain ⟨-, rfl⟩ := Prod.mk.inj (Option.some.inj hcall)
          split
          · exact hnil
          · exact hone rfl rfl
  | sendTransport s bytes =>
      obtain rfl : bytes = message := hsending
      cases hstep with
      | calls hs hcall =>
          obtain ⟨-, rfl⟩ := Prod.mk.inj (Option.some.inj hcall)
          split
          · cases hitem : rawItem bytes with
            | none => exact hnil
            | some item => exact hone (payload_rawItem hitem) rfl
          · exact hone rfl rfl
          · exact hnil
  | out action => exact absurd rfl (hout action)
  | _ => exact hsending.elim

end Handler

/-! ### The invariant -/

/-- The session whose read the task handles. -/
def Task.read? : Task → Option SessionHandle
  | .server (.reader s _) => some s
  | .handling s _ _ _ _ _ => some s
  | _ => none

/-- Where a message stands that is about to be delivered, or in its handler: it is the last one that
was decoded, and it is queued to nobody yet, or at most once with what is left to do. -/
def Placed (e : Engine) : Task → Prop
  | .server (.reader s (.deliverMessage message _)) =>
      ∃ before, e.decoded s = before ++ [message] ∧ ∀ q, some (s, before.length) ∉ e.origins q
  | .handling s n _ message _ todo =>
      ∃ before, e.decoded s = before ++ [message] ∧ n = before.length ∧
        (∀ w ∈ todo, Work.Carries (s, n) message w) ∧
        ∀ q, (todo.map (Work.mayQueue q)).sum + (e.origins q).count (some (s, n)) ≤ 1
  | _ => True

/-- **What holds of the messages.** -/
structure Publishing (config : ServerConfig) (e : Engine) (P : Multiset Task) : Prop where
  serving : Serving config e (serverTasks P)
  history : History e
  placed : ∀ t ∈ P, Placed e t

section Steps

variable {codec : Codec} {build : Outgoing → Bytes} {config : ServerConfig} {e e' : Engine}
  {task : Task} {R : Multiset Task} {t : ServerSteps.Task SessionHandle}
  {server : ServerSteps.Server SessionHandle} {new : List (ServerSteps.Task SessionHandle)}
  {origin : Option MessageId}

theorem le_reader_of_read {task : Task} {s : SessionHandle} (h : task.read? = some s) :
    1 ≤ weight (ServerSteps.reader s) task.calls := by
  cases task with
  | server t =>
      cases t with
      | reader s' point =>
          obtain rfl := Option.some.inj h
          have hle := le_weight (f := ServerSteps.reader s') (Multiset.mem_singleton_self
            (ServerSteps.Task.reader s' point))
          rwa [ServerSteps.reader_self] at hle
      | _ => cases h
  | router a => cases h
  | handling s' n now message loop todo =>
      obtain rfl := Option.some.inj h
      rw [Task.calls, weight_cons, ServerSteps.reader_self]
      exact Nat.le_add_right _ _

/-- A session has one read, so the others handle reads of other sessions. -/
theorem Serves.alone (h : Serves config e (serverTasks (task ::ₘ R))) {s : SessionHandle}
    (hs : 1 ≤ weight (ServerSteps.reader s) task.calls) {t : Task} (ht : t ∈ R) :
    t.read? ≠ some s := by
  intro hread
  obtain ⟨R', rfl⟩ := Multiset.exists_cons_of_mem ht
  have hone := h.readers s
  have hle := le_reader_of_read hread
  have hreads : (e.server.control s).reads ≤ 1 := by
    unfold ServerSteps.Control.reads
    split <;> omega
  rw [serverTasks_cons, serverTasks_cons, weight_add, weight_add] at hone
  omega

/-- A task stays where it is while its session decodes and publishes nothing. -/
theorem Placed.same {t : Task} (h : Placed e t)
    (hdecoded : ∀ s, t.read? = some s → e'.decoded s = e.decoded s)
    (horigins : ∀ s, t.read? = some s → ∀ q k, (e'.origins q).count (some (s, k)) =
      (e.origins q).count (some (s, k))) : Placed e' t := by
  cases t with
  | server t =>
      cases t with
      | reader s point =>
          cases point with
          | deliverMessage message loop =>
              obtain ⟨before, hbefore, hnot⟩ := h
              refine ⟨before, (hdecoded s rfl).trans hbefore, fun q hmem => hnot q ?_⟩
              have hcount := List.count_pos_iff.2 hmem
              rw [horigins s rfl] at hcount
              exact List.count_pos_iff.1 hcount
          | _ => trivial
      | _ => trivial
  | router a => trivial
  | handling s n now message loop todo =>
      obtain ⟨before, hbefore, hn, hcarries, hqueue⟩ := h
      refine ⟨before, (hdecoded s rfl).trans hbefore, hn, hcarries, fun q => ?_⟩
      rw [horigins s rfl]
      exact hqueue q

/-- What a step of the server leaves in the queues of a message that it does not publish. -/
theorem count_advance (hstep : ServerSteps.Step config e.server t server new)
    {id : MessageId} (hid : origin ≠ some id) (q : SessionHandle) :
    ((e.advance t server new origin).origins q).count (some id) = (e.origins q).count (some id) := by
  rcases advance_cases hstep origin q with ⟨-, heq⟩ | ⟨item, -, -, heq⟩
  · rw [heq]
  · rw [heq, List.count_append, List.count_singleton]
    simp [hid]

/-- The tasks beside a step of the server stay where they are. -/
theorem Placed.beside (hserves : Serves config e (serverTasks (task ::ₘ R)))
    (hstep : ServerSteps.Step config e.server t server new) (ht : t ∈ task.calls)
    (horigin : ∀ s k, origin = some (s, k) → task.read? = some s) {t' : Task} (ht' : t' ∈ R)
    (h : Placed e t') : Placed (e.advance t server new origin) t' := by
  refine h.same (fun s hs => ?_) fun s hs q k => ?_
  · rcases advance_decoded hstep origin s with ⟨heq, -⟩ | ⟨before, message, rfl, -, -⟩
    · exact heq
    · have hle := le_weight (f := ServerSteps.reader s) ht
      rw [ServerSteps.reader_self] at hle
      exact absurd hs (hserves.alone hle ht')
  · refine count_advance hstep (fun heq => ?_) q
    exact absurd hs (hserves.alone (le_reader_of_read (horigin s k heq)) ht')

/-- A message that was decoded by a step is queued to nobody. -/
theorem Placed.decoded (hhistory : History e)
    (hstep : ServerSteps.Step config e.server t server new)
    (horigin : origin = none ∨ t.reader? = none) :
    ∀ t' ∈ new, Placed (e.advance t server new origin) (.server t') := by
  intro t' ht'
  cases t' with
  | reader s point =>
      cases point with
      | deliverMessage message loop =>
          rcases advance_decoded hstep origin s with ⟨-, hnot⟩ | ⟨before, message', rfl, heq, hsame⟩
          · exact absurd ht' (hnot message loop)
          · obtain rfl := hsame message loop ht'
            obtain rfl : origin = none := by
              rcases horigin with hnone | hreader
              · exact hnone
              · cases hreader
            refine ⟨e.decoded s, heq, fun q hmem => ?_⟩
            have hcount := List.count_pos_iff.2 hmem
            rw [count_advance hstep (Option.some_ne_none _).symm] at hcount
            exact lt_irrefl _ (hhistory.lt_length (List.count_pos_iff.1 hcount))
      | _ => trivial
  | _ => trivial

/-- A step that publishes nothing keeps the history. -/
theorem History.quiet (h : History e) (hstep : ServerSteps.Step config e.server t server new) :
    History (e.advance t server new none) :=
  h.advance hstep (by intro _ _ _ _ _ horigin; cases horigin) fun _ _ _ => rfl

/-- An action of the router leaves the messages and the queues alone. -/
theorem History.act (h : History e) (svc : Services) (a : RouterSteps.Action) :
    History (execAct codec build svc origin e a).1 :=
  ⟨h.length, h.content, h.order⟩

/-- The work outside of a handler is not about a message. -/
theorem Placed.act {svc : Services} {a : RouterSteps.Action} {w : Work}
    (hw : w ∈ (execAct codec build svc none e a).2) (e' : Engine) : Placed e' w.task := by
  cases w with
  | act b => trivial
  | call t origin =>
      obtain ⟨router, -, hsends⟩ := execAct_calls codec build svc none e a
      obtain ⟨recipient, payload, rfl⟩ := hsends t (List.mem_filterMap.2 ⟨_, hw, rfl⟩)
      trivial

/-- Calls that publish nothing carry any message and queue none. -/
theorem works_of_none (id : MessageId) (message : Bytes) (l : List (ServerSteps.Task SessionHandle))
    (t : ServerSteps.Task SessionHandle) :
    (∀ w ∈ l.map (fun t' => Work.call t' none) ++ onDisconnect t, Work.Carries id message w) ∧
      ∀ q, ((l.map (fun t' => Work.call t' none) ++ onDisconnect t).map
        (Work.mayQueue q)).sum = 0 := by
  have hwork : ∀ w ∈ l.map (fun t' => Work.call t' none) ++ onDisconnect t,
      Work.Carries id message w ∧ ∀ q, Work.mayQueue q w = 0 := by
    intro w hw
    rcases List.mem_append.1 hw with hcall | hact
    · obtain ⟨t', -, rfl⟩ := List.mem_map.1 hcall
      exact ⟨Or.inl rfl, fun q => rfl⟩
    · cases t with
      | releaseInbound s =>
          rw [List.mem_singleton.1 hact]
          exact ⟨trivial, fun q => rfl⟩
      | _ => cases hact
  refine ⟨fun w hw => (hwork w hw).1, fun q => ?_⟩
  exact List.sum_eq_zero (List.forall_mem_map.2 fun w hw => (hwork w hw).2 q)

/-- The next stage of `Send` carries the message, and queues it at most as often. -/
theorem works_of_sending (id : MessageId) {message : Bytes}
    {next : List (ServerSteps.Task SessionHandle)} (hlength : next.length ≤ 1)
    (hnext : ∀ t' ∈ next, sending message t' ∧ t'.session? = t.session?) :
    (∀ w ∈ next.map fun t' => Work.call t' (some id), Work.Carries id message w) ∧
      ∀ q, ((next.map fun t' => Work.call t' (some id)).map (Work.mayQueue q)).sum ≤
        Work.mayQueue q (.call t (some id)) := by
  constructor
  · intro w hw
    obtain ⟨t', ht', rfl⟩ := List.mem_map.1 hw
    exact Or.inr ⟨rfl, (hnext t' ht').1⟩
  · intro q
    cases next with
    | nil => exact Nat.zero_le _
    | cons t' rest =>
        obtain rfl : rest = [] := by
          rw [List.length_cons] at hlength
          exact List.length_eq_zero_iff.1 (by omega)
        have hsame : Work.mayQueue q (.call t' (some id)) = Work.mayQueue q (.call t (some id)) := by
          simp only [Work.mayQueue]
          rw [(hnext t' List.mem_cons_self).2]
        exact hsame.le

/-- **`Send` in a handler**: what it leaves to do carries the message, and what was queued and may
be queued to a recipient does not grow. -/
theorem call_works {id : MessageId} {message : Bytes}
    {next forked : List (ServerSteps.Task SessionHandle)}
    (h : Work.Carries id message (.call t origin))
    (hstep : ServerSteps.Step config e.server t server (next ++ forked)) :
    (∀ w ∈ next.map (fun t' => Work.call t' (passedOn origin t)) ++ onDisconnect t,
        Work.Carries id message w) ∧
      ∀ q, ((next.map (fun t' => Work.call t' (passedOn origin t)) ++ onDisconnect t).map
          (Work.mayQueue q)).sum +
            ((e.advance t server (next ++ forked) origin).origins q).count (some id) ≤
        Work.mayQueue q (.call t origin) + (e.origins q).count (some id) := by
  rcases h with rfl | ⟨rfl, hsending⟩
  · have hnone : passedOn none t = none := by
      cases t <;> rfl
    obtain ⟨hcarries, hqueue⟩ := works_of_none id message next t
    rw [hnone]
    refine ⟨hcarries, fun q => ?_⟩
    rw [hqueue, count_advance hstep (Option.some_ne_none _).symm, zero_add]
    exact Nat.le_add_left _ _
  · by_cases hout : ∃ action, t = .out action
    · obtain ⟨action, rfl⟩ := hout
      obtain ⟨hcarries, hqueue⟩ := works_of_none id message next (.out action)
      refine ⟨hcarries, fun q => ?_⟩
      have hzero : ((next.map (fun t' => Work.call t' (passedOn (some id) (.out action))) ++
          onDisconnect (.out action)).map (Work.mayQueue q)).sum = 0 := hqueue q
      rw [hzero, zero_add]
      rcases advance_cases hstep (some id) q with ⟨-, heq⟩ | ⟨item, htask, -, heq⟩
      · rw [heq]
        exact Nat.le_add_left _ _
      · -- the item was queued, and is not to be queued again
        rcases htask with henqueue | ⟨result, hgreet⟩
        · have hone : Work.mayQueue q (.call (.out action) (some id)) = 1 := by
            rw [henqueue]
            exact if_pos rfl
          rw [heq, hone, List.count_append, List.count_singleton_self, add_comm]
        · cases hgreet
    · have hnot : ∀ action, t ≠ .out action := fun action heq => hout ⟨action, heq⟩
      obtain ⟨hlength, hnext⟩ := sending_step hstep hsending hnot
      have hpassed : passedOn (some id) t = some id := by
        cases t with
        | out action => exact absurd rfl (hnot action)
        | _ => rfl
      have hdisconnect : onDisconnect t = [] := by
        cases t with
        | releaseInbound s => exact hsending.elim
        | _ => rfl
      have hcount : ∀ q, (e.advance t server (next ++ forked) (some id)).origins q = e.origins q := by
        intro q
        rcases advance_cases hstep (some id) q with ⟨-, heq⟩ | ⟨item, htask, -, -⟩
        · exact heq
        · rcases htask with htask | ⟨result, htask⟩
          · exact absurd htask (hnot _)
          · subst htask
            exact hsending.elim
      rw [List.length_append] at hlength
      obtain ⟨hcarries, hqueue⟩ := works_of_sending id (show next.length ≤ 1 by omega)
        fun t' ht' => hnext t' (List.mem_append_left forked ht')
      rw [hpassed, hdisconnect, List.append_nil]
      refine ⟨hcarries, fun q => ?_⟩
      rw [hcount q]
      exact Nat.add_le_add_right (hqueue q) _

/-- A handler goes on behind a step of the server. -/
theorem Placed.call {s : SessionHandle} {n : ℕ} {now : ℤ} {message : Bytes}
    {loop : ServerSteps.ReadPoint} {todo : List Work}
    {next forked : List (ServerSteps.Task SessionHandle)}
    (h : Placed e (.handling s n now message loop (.call t origin :: todo)))
    (hreader : ∀ point, t ≠ .reader s point)
    (hstep : ServerSteps.Step config e.server t server (next ++ forked)) :
    Placed (e.advance t server (next ++ forked) origin) (.handling s n now message loop
      (next.map (fun t' => .call t' (passedOn origin t)) ++ onDisconnect t ++ todo)) := by
  obtain ⟨before, hbefore, hn, hcarries, hqueue⟩ := h
  obtain ⟨hworks, hcount⟩ := call_works (hcarries _ List.mem_cons_self) hstep
  refine ⟨before, ?_, hn, fun w hw => ?_, fun q => ?_⟩
  · rcases advance_decoded hstep origin s with ⟨heq, -⟩ | ⟨point, message', rfl, -, -⟩
    · exact heq.trans hbefore
    · exact absurd rfl (hreader point)
  · rcases List.mem_append.1 hw with hnew | hold
    · exact hworks w hnew
    · exact hcarries w (List.mem_cons_of_mem _ hold)
  · have hle := hqueue q
    have hnew := hcount q
    rw [List.map_cons, List.sum_cons] at hle
    rw [List.map_append, List.sum_append]
    omega

/-- A handler goes on behind an action of the router. -/
theorem Placed.acts {s : SessionHandle} {n : ℕ} {now : ℤ} {message : Bytes}
    {loop : ServerSteps.ReadPoint} {a : RouterSteps.Action} {todo : List Work} (svc : Services)
    (h : Placed e (.handling s n now message loop (.act a :: todo))) :
    Placed (execAct codec build svc (some (s, n)) e a).1 (.handling s n now message loop
      ((execAct codec build svc (some (s, n)) e a).2 ++ todo)) := by
  obtain ⟨before, hbefore, hn, hcarries, hqueue⟩ := h
  obtain ⟨hworks, hcount⟩ := execAct_works codec build svc e (hcarries _ List.mem_cons_self)
  refine ⟨before, hbefore, hn, fun w hw => ?_, fun q => ?_⟩
  · rcases List.mem_append.1 hw with hnew | hold
    · exact hworks w hnew
    · exact hcarries w (List.mem_cons_of_mem _ hold)
  · have hle := hqueue q
    have hnew := hcount q
    have hsame : (execAct codec build svc (some (s, n)) e a).1.origins q = e.origins q := rfl
    rw [List.map_cons, List.sum_cons] at hle
    rw [List.map_append, List.sum_append, hsame]
    omega

/-- **Every step keeps the order.** -/
theorem Publishing.step {new : List Task} (hstep : Step codec build config e task e' new)
    (h : Publishing config e (task ::ₘ R)) : Publishing config e' (new + R) := by
  have hserving := h.serving.step hstep
  have hself := h.placed task (Multiset.mem_cons_self task R)
  have hrest : ∀ t ∈ R, Placed e t := fun t ht => h.placed t (Multiset.mem_cons_of_mem ht)
  have hplaced : ∀ {e' : Engine} {new : List Task}, (∀ t ∈ new, Placed e' t) →
      (∀ t ∈ R, Placed e' t) → ∀ t ∈ (new : Multiset Task) + R, Placed e' t := by
    intro e' new hnew hold t ht
    rcases Multiset.mem_add.1 ht with ht | ht
    · exact hnew t ht
    · exact hold t ht
  cases hstep with
  | @serves t server next forked hserver =>
      refine ⟨hserving, h.history.quiet hserver, hplaced (fun t' ht' => ?_) fun t' ht' => ?_⟩
      · have hdecoded := Placed.decoded h.history hserver (Or.inl rfl)
        rcases List.mem_append.1 ht' with ht' | hforked
        · rcases List.mem_append.1 ht' with hnext | hact
          · obtain ⟨t'', ht'', rfl⟩ := List.mem_map.1 hnext
            exact hdecoded t'' (List.mem_append_left _ ht'')
          · cases t with
            | releaseInbound s =>
                rw [List.mem_singleton.1 hact]
                trivial
            | _ => cases hact
        · obtain ⟨t'', ht'', rfl⟩ := List.mem_map.1 hforked
          exact hdecoded t'' (List.mem_append_right _ ht'')
      · exact (hrest t' ht').beside h.serving.1 hserver (Multiset.mem_singleton_self t)
          (fun s k horigin => absurd horigin.symm (Option.some_ne_none _)) ht'
  | routes a svc =>
      refine ⟨hserving, h.history.act svc a, hplaced (fun t' ht' => ?_) fun t' ht' => ?_⟩
      · obtain ⟨w, hw, rfl⟩ := List.mem_map.1 ht'
        exact Placed.act hw _
      · exact (hrest t' ht').same (fun s hs => rfl) fun s hs q k => rfl
  | handles s now message loop =>
      refine ⟨hserving, h.history, hplaced (fun t' ht' => ?_) hrest⟩
      obtain rfl := List.mem_singleton.1 ht'
      obtain ⟨before, hbefore, hnot⟩ := hself
      have hn : (e.decoded s).length - 1 = before.length := by
        rw [hbefore, List.length_append, List.length_singleton, Nat.add_sub_cancel]
      refine ⟨before, hbefore, hn, fun w hw => ?_, fun q => ?_⟩
      · rw [List.mem_singleton.1 hw]
        rfl
      · rw [hn, List.count_eq_zero.2 (hnot q)]
        exact le_rfl
  | @concludes s n now message loop server new hserver =>
      refine ⟨hserving, h.history.quiet hserver, hplaced (fun t' ht' => ?_) fun t' ht' => ?_⟩
      · obtain ⟨t'', ht'', rfl⟩ := List.mem_map.1 ht'
        exact Placed.decoded h.history hserver (Or.inl rfl) t'' ht''
      · have hmem : .reader s (.deliverMessage message loop) ∈
            (Task.handling s n now message loop []).calls := by
          rw [Task.calls]
          exact Multiset.mem_cons_self _ _
        exact (hrest t' ht').beside h.serving.1 hserver hmem
          (fun s k horigin => absurd horigin.symm (Option.some_ne_none _)) ht'
  | acts s n now message loop a todo svc =>
      refine ⟨hserving, h.history.act svc a, hplaced (fun t' ht' => ?_) fun t' ht' => ?_⟩
      · obtain rfl := List.mem_singleton.1 ht'
        exact hself.acts svc
      · exact (hrest t' ht').same (fun s hs => rfl) fun s hs q k => rfl
  | @calls s n now message loop t origin todo server next forked hserver =>
      obtain ⟨before, hbefore, hn, hcarries, hqueue⟩ := id hself
      have hcall : origin = none ∨ origin = some (s, n) ∧ sending message t :=
        hcarries _ List.mem_cons_self
      have hmem : t ∈ (Task.handling s n now message loop (.call t origin :: todo)).calls :=
        Multiset.mem_cons_of_mem (Multiset.mem_coe.2 List.mem_cons_self)
      -- the handler is the one read of its session
      have hreader : ∀ point, t ≠ .reader s point := by
        rintro point rfl
        have hone := h.serving.1.readers s
        have hreads : (e.server.control s).reads ≤ 1 := by
          unfold ServerSteps.Control.reads
          split <;> omega
        rw [serverTasks_cons, weight_add, Task.calls, weight_cons, ServerSteps.reader_self] at hone
        have hle := le_weight (f := ServerSteps.reader s) (P := ((Work.call (.reader s point) origin ::
          todo).filterMap Work.call? : List _)) (Multiset.mem_coe.2 List.mem_cons_self)
        rw [ServerSteps.reader_self] at hle
        omega
      have horigin : origin = none ∨ t.reader? = none := by
        rcases hcall with hnone | ⟨-, hsending⟩
        · exact Or.inl hnone
        · cases t with
          | reader s' point => exact hsending.elim
          | _ => exact Or.inr rfl
      refine ⟨hserving, h.history.advance hserver ?_ ?_, hplaced (fun t' ht' => ?_) fun t' ht' => ?_⟩
      · rintro q item s' k rfl rfl
        rcases hcall with hnone | ⟨hid, hsending⟩
        · cases hnone
        · obtain ⟨rfl, rfl⟩ := Prod.mk.inj (Option.some.inj hid)
          have hpayload : item.payload = message := hsending
          refine ⟨?_, ?_, ?_⟩
          · rw [hbefore, hn, hpayload, List.getElem?_append_right le_rfl, Nat.sub_self]
            rfl
          · rw [hbefore, hn, List.length_append, List.length_singleton]
          · have hle := hqueue q
            have hone : Work.mayQueue q (.call (.out (.enqueue q item)) (some (s', k))) = 1 :=
              if_pos rfl
            rw [List.map_cons, List.sum_cons, hone] at hle
            exact List.count_eq_zero.1 (by omega)
      · rintro q result rfl
        rcases hcall with hnone | ⟨-, hsending⟩
        · exact hnone
        · exact hsending.elim
      · rcases List.mem_cons.1 ht' with rfl | hforked
        · exact hself.call hreader hserver
        · obtain ⟨t'', ht'', rfl⟩ := List.mem_map.1 hforked
          exact Placed.decoded h.history hserver horigin t'' (List.mem_append_right _ ht'')
      · refine (hrest t' ht').beside h.serving.1 hserver hmem (fun s' k horigin => ?_) ht'
        rcases hcall with hnone | ⟨hid, -⟩
        · rw [hnone] at horigin
          cases horigin
        · obtain ⟨rfl, rfl⟩ := Prod.mk.inj (Option.some.inj (hid.symm.trans horigin))
          rfl

end Steps

/-! ### Runs -/

theorem publishing_start (config : ServerConfig) :
    Publishing config (start config).shared (start config).pending := by
  refine ⟨serving_start config, ⟨fun q => rfl, fun q i s k hget => ?_, fun q => .nil⟩,
    fun t ht => ?_⟩
  · cases hget
  · rw [List.mem_singleton.1 ht]
    trivial

/-- The order of the messages, in every run. -/
theorem publishing_run {codec : Codec} {build : Outgoing → Bytes} {config : ServerConfig}
    {moves : List (ℕ × Choice)} {c : Config Engine Task}
    (hrun : (program codec build config).run moves (start config) = some c) :
    Publishing config c.shared c.pending := by
  refine Program.invariant (I := Publishing config) (fun x p e R o hexec h => ?_) moves
    (publishing_start config) hrun
  rw [Multiset.coe_add]
  exact h.step (exec_step hexec)

/-- A session has at most one read in flight or being handled. -/
theorem Serves.one_read {config : ServerConfig} {e : Engine} {P : Multiset Task}
    (h : Serves config e (serverTasks P)) (s : SessionHandle) :
    (holders Task.read? P).count s ≤ 1 := by
  have hle : (holders Task.read? P).count s ≤ weight (ServerSteps.reader s) (serverTasks P) := by
    clear h
    induction P using Multiset.induction_on with
    | empty => exact le_rfl
    | cons t P ih =>
        rw [holders_cons, Multiset.count_add, serverTasks_cons, weight_add]
        refine Nat.add_le_add ?_ ih
        cases hread : t.read? with
        | none => exact Nat.zero_le _
        | some s' =>
            by_cases hs : s = s'
            · subst hs
              refine le_trans ?_ (le_reader_of_read hread)
              simp
            · simp [hs]
  refine hle.trans ((h.readers s).trans ?_)
  unfold ServerSteps.Control.reads
  split <;> omega

/-- **The order of one publisher's messages**, in every run.  A session has at most one read in
flight or being handled; its decoder was given bytes of its reads in their order, and the messages
that were decoded are the first ones in these bytes.  For every recipient, the items of its queue
that publish messages have the bytes of these messages; of two that publish messages of one session
the one for the message that comes first is queued first, and no message is queued twice; and what
is transmitted is a beginning of the queue. -/
theorem publisher_order (codec : Codec) (build : Outgoing → Bytes) (config : ServerConfig)
    (moves : List (ℕ × Choice)) {c : Config Engine Task}
    (hrun : (program codec build config).run moves (start config) = some c) :
    (∀ s, (holders Task.read? c.pending).count s ≤ 1 ∧ c.shared.fed s <+ c.shared.received s ∧
      c.shared.decoded s <+: messages config (c.shared.server.control s).transport (c.shared.fed s)) ∧
      ∀ q, (c.shared.origins q).length = (c.shared.pushed q).length ∧
        (∀ (i : ℕ) (s : SessionHandle) (k : ℕ), (c.shared.origins q)[i]? = some (some (s, k)) →
          ∃ item, (c.shared.pushed q)[i]? = some item ∧
            (c.shared.decoded s)[k]? = some item.payload) ∧
        (∀ (i j : ℕ) (s : SessionHandle) (k l : ℕ), (c.shared.origins q)[i]? = some (some (s, k)) →
          (c.shared.origins q)[j]? = some (some (s, l)) → (k < l ↔ i < j) ∧ (k = l → i = j)) ∧
        (c.shared.server.out.sessions q).wire <+: Outbound.stream (c.shared.pushed q) := by
  have h := publishing_run hrun
  refine ⟨fun s => ⟨h.serving.1.one_read s, (h.serving.2 s).arrives,
    (h.serving.2 s).follows.prefix_messages⟩,
    fun q => ⟨h.history.length q, h.history.content q, ?_, ?_⟩⟩
  · intro i j s k l hi hj
    have hless : ∀ {i j k l : ℕ}, (c.shared.origins q)[i]? = some (some (s, k)) →
        (c.shared.origins q)[j]? = some (some (s, l)) → i < j → k < l := by
      intro i j k l hi hj hij
      obtain ⟨hi, hgeti⟩ := List.getElem?_eq_some_iff.1 hi
      obtain ⟨hj, hgetj⟩ := List.getElem?_eq_some_iff.1 hj
      exact List.pairwise_iff_getElem.1 (h.history.order q) i j hi hj hij s k l hgeti hgetj
    rcases lt_trichotomy i j with hlt | rfl | hgt
    · have hkl := hless hi hj hlt
      exact ⟨⟨fun _ => hlt, fun _ => hkl⟩, fun heq => by omega⟩
    · obtain ⟨-, rfl⟩ := Prod.mk.inj (Option.some.inj (Option.some.inj (hi.symm.trans hj)))
      exact ⟨⟨fun hkl => absurd hkl (lt_irrefl _), fun hij => absurd hij (lt_irrefl _)⟩, fun _ => rfl⟩
    · have hlk := hless hj hi hgt
      exact ⟨⟨fun hkl => by omega, fun hij => by omega⟩, fun heq => by omega⟩
  · exact h.serving.1.refines.wire_begins q

/-- A codec with an authentication, a request for a room, and alerts for the room. -/
def alerts : Codec where
  verify _ := true
  getNetworkMessage
    | [1] => ⟨1, 1, .authenticate (some ⟨some (ascii "alice")⟩)⟩
    | [2] => ⟨1, 2, .joinRoom (some ⟨some (ascii "match:1")⟩)⟩
    | _ => ⟨1, 3, .publish (some ⟨some (ascii "match:1"), .systemAlert (some ⟨some (ascii "on")⟩)⟩)⟩

/-- The handler of a message, with so many actions of the router and one `Send`, whose item is
queued in so many steps. -/
def handled (actions queueing : ℕ) : List (ℕ × Choice) :=
  (2, .handles 0) :: List.replicate actions (2, .services ⟨some some, none, 0⟩) ++
    List.replicate 3 (2, .server .passes) ++ List.replicate queueing (2, .server (.out .succeeds)) ++
      [(2, .judges .accepted), (2, .server .passes)]

/-- A session sends four messages at once: it authenticates, joins a room and publishes two alerts.
-/
def twoAlerts : List (ℕ × Choice) :=
  [(0, .server (.acceptor ⟨1, 1⟩)), (1, .server .passes), (1, .server .passes),
    (2, .server (.reads true [0, 0, 0, 1, 1, 0, 0, 0, 1, 2, 0, 0, 0, 1, 3, 0, 0, 0, 1, 4]))] ++
    List.replicate 12 (2, .server .passes) ++ handled 4 5 ++ handled 6 1 ++ handled 6 1 ++ handled 6 1 ++
      List.replicate 3 (2, .server .passes)

/-- Both alerts are queued to the session itself, one behind the other. -/
theorem publisher_order_twoAlerts :
    ∃ c, (program alerts (fun _ => [0]) {}).run twoAlerts (start {}) = some c ∧
      c.shared.decoded ⟨1, 1⟩ = [[1], [2], [3], [4]] ∧
      c.shared.origins ⟨1, 1⟩ = [none, none, some (⟨1, 1⟩, 2), some (⟨1, 1⟩, 3)] ∧
      (holders Task.read? c.pending).count ⟨1, 1⟩ ≤ 1 ∧
      ∃ item, (c.shared.pushed ⟨1, 1⟩)[3]? = some item ∧ item.payload = [4] := by
  have hobserved : ((program alerts (fun _ => [0]) {}).run twoAlerts (start {})).map (fun c =>
      (c.shared.decoded ⟨1, 1⟩, c.shared.origins ⟨1, 1⟩)) =
      some ([[1], [2], [3], [4]], [none, none, some (⟨1, 1⟩, 2), some (⟨1, 1⟩, 3)]) := by
    decide +kernel
  obtain ⟨c, hrun, hc⟩ := Option.map_eq_some_iff.1 hobserved
  obtain ⟨hdecoded, horigins⟩ := Prod.mk.inj hc
  obtain ⟨hsessions, hqueues⟩ := publisher_order alerts (fun _ => [0]) {} twoAlerts hrun
  obtain ⟨-, hcontent, -⟩ := hqueues ⟨1, 1⟩
  obtain ⟨item, hitem, hpayload⟩ := hcontent 3 ⟨1, 1⟩ 3 (by rw [horigins]; rfl)
  rw [hdecoded] at hpayload
  exact ⟨c, hrun, hdecoded, horigins, (hsessions ⟨1, 1⟩).1, item, hitem,
    (Option.some.inj hpayload).symm⟩

end EngineSteps

end RealtimeEngine
