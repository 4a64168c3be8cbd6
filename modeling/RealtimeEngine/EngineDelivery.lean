/-
**From the publisher to the subscriber.**

The parts of the engine are put together here: the messages in the bytes that a publisher has sent,
the handler that forwards them, the queue of a subscriber and the bytes that are transmitted to it.
Whatever its peer has read was given to `Send`, by the router or from outside, and no more often
than that; what is a copy of a published message has the whole chain of
`RealtimeEngine/RouterOrigins.lean` behind it; and the copies of one publisher's messages are, in
their order, among the messages in the bytes of this publisher.

Main definitions:

* `RealtimeEngine.EngineSteps.called` — what callers outside of the router have given to `Send`;
* `RealtimeEngine.EngineSteps.tagged` — the messages that a session has accepted, with what they
  publish;
* `RealtimeEngine.EngineSteps.Delivered` — what holds of the messages that a peer has read.

Main results:

* `RealtimeEngine.EngineSteps.given_run` — **every message of a session was given to `Send`**, in
  every run of the engine;
* `RealtimeEngine.EngineSteps.raw_subscriber`, `RealtimeEngine.EngineSteps.webSocket_subscriber` —
  **what a subscriber has read**.
-/

import RealtimeEngine.EngineOrigins
import RealtimeEngine.EngineParts
import RealtimeEngine.ServerDelivery

set_option relaxedAutoImplicit false
set_option autoImplicit false

namespace RealtimeEngine

namespace EngineSteps

open Interleaving WebSocketDecoder
open scoped List

/-! ### What was given to `Send` -/

/-- What a step outside of the router gives to `Send` for the session. -/
def caller? (q : SessionHandle) (event : Event Engine Task Choice) : Option Bytes :=
  match event.choice, event.action.order.head? with
  | .server y, some t => ServerSteps.offer? q ⟨y, t, event.found.server⟩
  | _, _ => none

/-- What callers outside of the router have given to `Send` for the session in a run. -/
def called (codec : Codec) (build : Outgoing → Bytes) (config : ServerConfig)
    (moves : List (ℕ × Choice)) (q : SessionHandle) : List Bytes :=
  ((program codec build config).history moves (start config)).filterMap (caller? q)

/-- The bytes of a message that the router sends, if it is for the session. -/
def sentTo? (build : Outgoing → Bytes) (q : SessionHandle) (sent : SessionHandle × Outgoing) :
    Option Bytes :=
  if sent.1 = q then some (outgoingBytes build sent.2) else none

/-- What the router has given to `Send` for the session. -/
def routed (build : Outgoing → Bytes) (e : Engine) (q : SessionHandle) : List Bytes :=
  e.router.sent.filterMap (sentTo? build q)

section Steps

variable {codec : Codec} {build : Outgoing → Bytes} {config : ServerConfig} {x : Choice}
  {e : Engine} {task : Task} {o : Outcome Engine Task} {R : Multiset Task} {q : SessionHandle}

/-- The router sends by `Send` only. -/
theorem sent_execWith (codec : Codec) (svc : Services) (sh : RouterSteps.Shared)
    {a : RouterSteps.Action} (ha : ∀ s recipient message, a ≠ .send s recipient message) :
    (RouterSteps.execWith codec svc sh a).1.sent = sh.sent := by
  cases a with
  | send s recipient message => exact absurd rfl (ha s recipient message)
  | loop s messages =>
      cases messages with
      | nil => rfl
      | cons message messages =>
          unfold RouterSteps.execWith
          dsimp only
          split <;> rfl
  | authorizeJoin | authorizePublish | findPair | disconnect =>
      unfold RouterSteps.execWith
      dsimp only
      split <;> rfl
  | _ => rfl

/-- **What a step of the router gives to `Send`** it records. -/
theorem routed_execAct (svc : Services) (origin : Option MessageId) (a : RouterSteps.Action) :
    routed build (execAct codec build svc origin e a).1 q = routed build e q ++
      ((execAct codec build svc origin e a).2.filterMap Work.call?).filterMap
        (ServerSteps.Task.message? q) := by
  have hquiet : (∀ s recipient message, a ≠ .send s recipient message) →
      routed build (execAct codec build svc origin e a).1 q = routed build e q ++
        (((RouterSteps.execWith codec svc e.router a).2.map Work.act).filterMap
          Work.call?).filterMap (ServerSteps.Task.message? q) := by
    intro ha
    rw [filterMap_act, List.filterMap_nil, List.append_nil]
    exact congrArg (List.filterMap (sentTo? build q)) (sent_execWith codec svc e.router ha)
  cases a with
  | send s recipient message =>
      show (e.router.sent ++ [(recipient, message)]).filterMap (sentTo? build q) = _
      rw [List.filterMap_append, filterMap_singleton]
      exact congrArg (routed build e q ++ ·) (filterMap_singleton _ _).symm
  | _ => exact hquiet fun _ _ _ => by rintro ⟨⟩

/-- New calls of `Send` keep what is queued fitting. -/
theorem queued_sends {sv : ServerSteps.Server SessionHandle}
    {Q : Multiset (ServerSteps.Task SessionHandle)} (h : ServerSteps.Queued config sv Q q)
    {sends : List (ServerSteps.Task SessionHandle)}
    (hsends : ∀ t ∈ sends, ∃ recipient payload, t = .send recipient payload) :
    ServerSteps.Queued config sv (sends + Q) q := by
  refine ⟨?_, fun t ht => ?_, h.pushed⟩
  · have hzero : (sends.map (ServerSteps.reader q)).sum = 0 := by
      refine ServerSteps.readers_eq_zero fun t ht => ?_
      obtain ⟨recipient, payload, rfl⟩ := hsends t ht
      rfl
    rw [weight_add, weight_coe, hzero, zero_add]
    exact h.oneReader
  · rcases Multiset.mem_add.1 ht with ht | ht
    · obtain ⟨recipient, payload, rfl⟩ := hsends t ht
      trivial
    · exact h.aware t ht

/-- **What is queued fits its transport, and was given to `Send`.** -/
def Given (build : Outgoing → Bytes) (config : ServerConfig) (e : Engine) (P : Multiset Task)
    (q : SessionHandle) (outside : List Bytes) : Prop :=
  ServerSteps.Queued config e.server (serverTasks P) q ∧
    ServerSteps.Accounts e.server (serverTasks P) q (routed build e q ++ outside : List Bytes)

/-- Every step keeps what is queued fitting, and records what it gives to `Send`. -/
theorem Given.exec {outside : List Bytes} (h : Given build config e (task ::ₘ R) q outside)
    (hexec : exec codec build config x task e = some o) :
    Given build config o.shared ((o.next ++ o.forked.flatten : List Task) + R) q
      (outside ++ (caller? q ⟨x, task, e⟩).toList) := by
  obtain ⟨hqueued, haccounts⟩ := h
  unfold Given
  rw [serverTasks_cons, ← coe_order] at hqueued haccounts
  rw [serverTasks_add, serverTasks_coe, View.stack_append, stack_flatten]
  cases exec_turn hexec with
  | @serves y t o' rest origin hchoice hserver horder hshared hnext hforked =>
      rw [horder, coe_cons_add] at hqueued haccounts
      have hpending : ((o'.next ++ rest ++ o'.forked.flatten : List _) : Multiset _) +
          serverTasks R = ((o'.next ++ o'.forked.flatten : List _) : Multiset _) +
            ((rest : Multiset _) + serverTasks R) := by
        simp only [← Multiset.coe_add]
        ac_rfl
      have hcaller : caller? q ⟨x, task, e⟩ = ServerSteps.offer? q ⟨y, t, e.server⟩ := by
        rcases hchoice with rfl | ⟨hx, now, verdict, rfl⟩
        · simp only [caller?, horder, List.head?_cons]
        · unfold caller?
          cases x with
          | server y' => exact absurd rfl (hx y')
          | _ => rfl
      rw [hnext, hforked, hpending, hshared, hcaller, ← List.append_assoc, ← Multiset.coe_add]
      exact ⟨hqueued.step (ServerSteps.exec_step hserver), haccounts.exec hserver hqueued⟩
  | routes svc origin a hchoice hshared hnext hforked =>
      subst hchoice
      obtain ⟨router, hrouter, hsends⟩ := execAct_calls codec build svc origin e a
      have hserver : (execAct codec build svc origin e a).1.server = e.server := by
        rw [hrouter]
      rw [hnext, hforked, List.map_nil, List.flatten_nil, List.append_nil, hshared, hserver,
        routed_execAct, ← Multiset.coe_add, add_assoc]
      refine ⟨queued_sends hqueued hsends, ?_⟩
      have hgiven := haccounts.add ((execAct codec build svc origin e a).2.filterMap Work.call?)
      rwa [Multiset.coe_add, List.append_assoc, Multiset.coe_eq_coe.2
        (List.Perm.append_left _ List.perm_append_comm), ← List.append_assoc,
        ← List.append_nil outside] at hgiven
  | enters now hchoice hshared hnext hforked =>
      subst hchoice
      rw [hnext, hforked, hshared, List.map_nil, List.flatten_nil, List.append_nil]
      exact ⟨hqueued, by rwa [show caller? q ⟨.handles now, task, e⟩ = none from rfl,
        Option.toList_none, List.append_nil]⟩

end Steps

/-- **Every message of a session was given to `Send`**, in every run. -/
theorem given_run {codec : Codec} {build : Outgoing → Bytes} {config : ServerConfig}
    {moves : List (ℕ × Choice)} {c : Config Engine Task}
    (hrun : (program codec build config).run moves (start config) = some c) (q : SessionHandle) :
    Given build config c.shared c.pending q (called codec build config moves q) := by
  refine Program.invariant_history (h := [])
    (I := fun h e P => Given build config e P q (h.filterMap (caller? q))) ?_ moves
    ⟨ServerSteps.queued_start config q, Multiset.zero_le _⟩ hrun
  intro h x task e R o hexec hI
  rw [List.filterMap_append, filterMap_singleton, Multiset.coe_add]
  exact hI.exec hexec

/-! ### The messages of a queue, and what they publish -/

/-- The messages that a session has accepted, each with the message that it publishes. -/
def tagged (e : Engine) (q : SessionHandle) : List (Option MessageId × Bytes) :=
  ((e.origins q).zip (e.pushed q)).filterMap fun entry =>
    entry.2.message?.map fun message => (entry.1, message)

/-- The copies of a publisher's messages among some messages. -/
def copiesOf (s : SessionHandle) (entries : List (Option MessageId × Bytes)) : List Bytes :=
  (entries.filterMap fun entry => entry.1.bind fun id =>
    if id.1 = s then some (id.2, entry.2) else none).map Prod.snd

/-- Entries of a list, at places that only grow, are entries in their order. -/
theorem sublist_of_increasing {α : Type*} {l : List α} {entries : List (ℕ × α)}
    (hgrows : (entries.map Prod.fst).Pairwise (· < ·))
    (hget : ∀ entry ∈ entries, l[entry.1]? = some entry.2) : entries.map Prod.snd <+ l := by
  induction entries using List.reverseRecOn generalizing l with
  | nil => exact List.nil_sublist l
  | append_singleton entries entry ih =>
      rw [List.map_append, List.pairwise_append] at hgrows
      obtain ⟨hgrows, -, hlast⟩ := hgrows
      -- the entries before the last one are found before its place
      have hbefore : entries.map Prod.snd <+ l.take entry.1 := by
        refine ih hgrows fun other hother => ?_
        rw [List.getElem?_take_of_lt
          (hlast _ (List.mem_map_of_mem hother) _ (List.mem_singleton_self _))]
        exact hget other (List.mem_append_left _ hother)
      have hfrom : [entry.2] <+ l.drop entry.1 := by
        refine List.singleton_sublist.2 (List.mem_of_getElem? (i := 0) ?_)
        rw [List.getElem?_drop]
        exact hget entry (List.mem_append_right _ (List.mem_singleton_self _))
      have hwhole := hbefore.append hfrom
      rwa [List.take_append_drop, ← List.map_singleton, ← List.map_append] at hwhole

/-- Tagging the entries of a list loses none of them. -/
theorem map_filterMap_zip {α β γ : Type*} (f : β → Option γ) {l : List α} {l' : List β}
    (h : l.length = l'.length) :
    ((l.zip l').filterMap fun entry => (f entry.2).map fun c => (entry.1, c)).map Prod.snd =
      l'.filterMap f := by
  induction l generalizing l' with
  | nil =>
      obtain rfl := List.length_eq_zero_iff.1 h.symm
      rfl
  | cons a l ih =>
      cases l' with
      | nil => cases h
      | cons b l' =>
          rw [List.zip_cons_cons, List.filterMap_cons, List.filterMap_cons]
          cases f b with
          | none => exact ih (Nat.succ.inj h)
          | some c => exact congrArg (c :: ·) (ih (Nat.succ.inj h))

/-- What is tagged are the messages of the queue. -/
theorem map_tagged {e : Engine} (h : History e) (q : SessionHandle) :
    (tagged e q).map Prod.snd = ServerSteps.messages e.server q :=
  map_filterMap_zip OutboundItem.message? (h.length q)

theorem message?_eq_some {item : OutboundItem} {message : Bytes} (h : item.message? = some message) :
    item.payload = message := by
  unfold OutboundItem.message? at h
  split at h
  · exact Option.some.inj h
  · cases h

/-- A tagged message stands in the queue. -/
theorem mem_tagged {e : Engine} {q : SessionHandle} {origin : Option MessageId} {message : Bytes}
    (h : (origin, message) ∈ tagged e q) : ∃ (i : ℕ) (item : OutboundItem),
      (e.origins q)[i]? = some origin ∧ (e.pushed q)[i]? = some item ∧ item.payload = message := by
  obtain ⟨⟨origin', item⟩, hmem, hmessage⟩ := List.mem_filterMap.1 h
  obtain ⟨m, hm, heq⟩ := Option.map_eq_some_iff.1 hmessage
  obtain ⟨rfl, rfl⟩ := Prod.mk.inj heq
  obtain ⟨i, hi⟩ := List.getElem?_of_mem hmem
  obtain ⟨horigin, hitem⟩ := List.getElem?_zip_eq_some.1 hi
  exact ⟨i, item, horigin, hitem, message?_eq_some hm⟩

/-- The messages of one publisher are tagged in their order. -/
theorem tagged_before {e : Engine} (h : History e) (q : SessionHandle) :
    (tagged e q).Pairwise fun first second => Before first.1 second.1 := by
  have horigins : ((e.origins q).zip (e.pushed q)).map Prod.fst = e.origins q :=
    List.map_fst_zip (h.length q).le
  have hzip : ((e.origins q).zip (e.pushed q)).Pairwise fun first second =>
      Before first.1 second.1 := by
    rw [← List.pairwise_map (R := Before), horigins]
    exact h.order q
  refine List.pairwise_filterMap.2 (hzip.imp fun {first second} hbefore => ?_)
  rintro entry hentry entry' hentry'
  obtain ⟨m, -, rfl⟩ := Option.map_eq_some_iff.1 hentry
  obtain ⟨m', -, rfl⟩ := Option.map_eq_some_iff.1 hentry'
  exact hbefore

/-! ### What a peer has read -/

/-- **What holds of the messages that the peer of a session has read.** -/
structure Delivered (codec : Codec) (past : List RouterSteps.Deed) (config : ServerConfig)
    (given : List Bytes) (e : Engine) (q : SessionHandle) (read : List Bytes) : Prop where
  /-- They are the first messages of the queue. -/
  first : ((tagged e q).take read.length).map Prod.snd = read
  /-- They were given to `Send`, and as often as they were read. -/
  given : (read : Multiset Bytes) ≤ given
  /-- What the router gave to `Send` has its past. -/
  warranted : ∀ message, (q, message) ∈ e.router.sent → RouterSteps.Warranted codec past q message
  /-- A copy of a published message has its bytes, and the whole chain behind it. -/
  published : ∀ s k message, (some (s, k), message) ∈ (tagged e q).take read.length →
    (e.decoded s)[k]? = some message ∧ RouterSteps.Published codec past s q message
  /-- The copies of a publisher's messages are among these, in their order. -/
  ordered : ∀ s, copiesOf s ((tagged e q).take read.length) <+ e.decoded s
  /-- The messages of a publisher are the first ones in the bytes of its reads. -/
  arrived : ∀ s, e.fed s <+ e.received s ∧
    e.decoded s <+: messages config (e.server.control s).transport (e.fed s)

section Peers

variable {codec : Codec} {past : List RouterSteps.Deed} {build : Outgoing → Bytes}
  {config : ServerConfig} {e : Engine} {P : Multiset Task} {q : SessionHandle}
  {outside read : List Bytes}

/-- The copies of a publisher's messages are among these, in their order. -/
theorem copiesOf_sublist (h : History e) {entries : List (Option MessageId × Bytes)}
    (hentries : entries <+: tagged e q) (s : SessionHandle) : copiesOf s entries <+ e.decoded s := by
  refine sublist_of_increasing ?_ fun entry hentry => ?_
  · rw [List.pairwise_map, List.pairwise_filterMap]
    refine ((tagged_before h q).sublist hentries.sublist).imp fun {first second} hbefore => ?_
    rintro copy hcopy copy' hcopy'
    obtain ⟨⟨s₁, k⟩, hfirst, hcopy⟩ := Option.bind_eq_some_iff.1 hcopy
    obtain ⟨⟨s₂, l⟩, hsecond, hcopy'⟩ := Option.bind_eq_some_iff.1 hcopy'
    split at hcopy
    · next hs₁ =>
        split at hcopy'
        · next hs₂ =>
            obtain rfl := Option.some.inj hcopy
            obtain rfl := Option.some.inj hcopy'
            obtain rfl : s₁ = s := hs₁
            obtain rfl : s₂ = s₁ := hs₂
            exact hbefore s₂ k l hfirst hsecond
        · cases hcopy'
    · cases hcopy
  · obtain ⟨⟨origin, message⟩, hmem, hcopy⟩ := List.mem_filterMap.1 hentry
    obtain ⟨⟨s', k⟩, rfl, hcopy⟩ := Option.bind_eq_some_iff.1 hcopy
    split at hcopy
    · next hs =>
        obtain rfl := Option.some.inj hcopy
        obtain rfl : s' = s := hs
        obtain ⟨i, item, horigin, hitem, rfl⟩ := mem_tagged (hentries.subset hmem)
        obtain ⟨item', hitem', hmessage⟩ := h.content q i s' k horigin
        obtain rfl := Option.some.inj (hitem.symm.trans hitem')
        exact hmessage
    · cases hcopy

/-- **The first messages of a queue**, whoever reads them. -/
theorem delivered_of_prefix (hfounded : Founded codec past config e P)
    (hgiven : Given build config e P q outside)
    (hread : read <+: ServerSteps.messages e.server q) :
    Delivered codec past config (routed build e q ++ outside) e q read where
  first := by
    rw [List.map_take, map_tagged hfounded.publishing.history q]
    exact (List.prefix_iff_eq_take.1 hread).symm
  given := (Multiset.coe_le.2 hread.sublist.subperm).trans
    ((Multiset.le_add_right _ _).trans hgiven.2)
  warranted := hfounded.router.sent q
  published s k message hmem := by
    have hhistory := hfounded.publishing.history
    obtain ⟨i, item, horigin, hitem, rfl⟩ := mem_tagged ((List.take_prefix _ _).subset hmem)
    obtain ⟨item', hitem', hmessage⟩ := hhistory.content q i s k horigin
    obtain rfl := Option.some.inj (hitem.symm.trans hitem')
    obtain ⟨message', hmessage', hpublished⟩ :=
      hfounded.items q s k (List.mem_of_getElem? horigin)
    obtain rfl := Option.some.inj (hmessage.symm.trans hmessage')
    exact ⟨hmessage, hpublished⟩
  ordered := copiesOf_sublist hfounded.publishing.history (List.take_prefix _ _)
  arrived s := ⟨(hfounded.publishing.serving.2 s).arrives,
    (hfounded.publishing.serving.2 s).follows.prefix_messages⟩

end Peers

/-! ### Runs -/

section Runs

variable {codec : Codec} {build : Outgoing → Bytes} {config : ServerConfig}
  {moves : List (ℕ × Choice)} {c : Config Engine Task}

/-- The queue of a session is transmitted in order. -/
theorem engine_reachable (hrun : (program codec build config).run moves (start config) = some c) :
    Outbound.Reachable config c.shared.server.out
      (.outside ::ₘ ServerSteps.outActions (serverTasks c.pending)) := by
  obtain ⟨moves', d, hrun', hmatches, -⟩ :=
    (matches_start config).run (inside_server codec build config) hrun
  rw [← matches_shared hmatches, ← matches_pending hmatches]
  exact ServerSteps.run_reachable hrun'

/-- **What the first messages of a queue are**, in every run. -/
theorem delivered_run (hrun : (program codec build config).run moves (start config) = some c)
    {q : SessionHandle} {read : List Bytes}
    (hread : read <+: ServerSteps.messages c.shared.server q) :
    Delivered codec (deeds codec build config moves) config
      (routed build c.shared q ++ called codec build config moves q) c.shared q read :=
  delivered_of_prefix (founded_run hrun) (given_run hrun q) hread

end Runs

/-- **What a raw subscriber has read**, in every run of the engine.  Its peer has no complaint,
however the transmitted bytes are cut for it, when its limit for a message is not below the limit of
the server, and its buffer has room for a message with a header and for one received piece besides.
What it has read are the first messages of the queue, among them every one that is transmitted to its
last byte; they were given to `Send`, by the router for a message with its past or from outside, each
as often as it was read; what is a copy of a published message has the whole chain of this message
behind it; and the copies of one publisher's messages are, in their order, among the messages in the
bytes of its reads. -/
theorem raw_subscriber (codec : Codec) (build : Outgoing → Bytes) (config : ServerConfig)
    (moves : List (ℕ × Choice)) {c : Config Engine Task}
    (hrun : (program codec build config).run moves (start config) = some c) (q : SessionHandle)
    (hraw : (c.shared.server.control q).transport = .rawTcp) {M R B : ℕ}
    (hM : config.maxMessageBytes.toNat ≤ M) (hroom : M + 3 + R ≤ B) {cut : List Bytes}
    (hcut : cut.flatten = (c.shared.server.out.sessions q).wire)
    (hchunks : ∀ chunk ∈ cut, chunk.length ≤ R) :
    let peer := LengthPrefixedAccumulator.decode M B cut
    peer.refused = false ∧ peer.status = .needMoreData ∧
      Delivered codec (deeds codec build config moves) config
        (routed build c.shared q ++ called codec build config moves q) c.shared q peer.messages ∧
      ∀ first bytes, first <+: ServerSteps.messages c.shared.server q →
        encodeMessages first = some bytes → bytes <+: (c.shared.server.out.sessions q).wire →
          first <+: peer.messages := by
  obtain ⟨-, -, hpeer⟩ := (given_run hrun q).1.raw_peer ((engine_reachable hrun).wire_begins q) hraw
  obtain ⟨hrefused, hstatus, hread, hwhole⟩ := hpeer M R B hM hroom cut hcut hchunks
  exact ⟨hrefused, hstatus, delivered_run hrun hread, hwhole⟩

/-- The alert of `alertForTwo` is transmitted to the first session, behind the two responses. -/
def alertArrives : List (ℕ × Choice) :=
  alertForTwo ++ [3, 8].flatMap (fun i => (i, .server (.out (.completes true 5))) ::
    List.replicate 7 (i, .server (.out .succeeds))) ++ [(9, .server (.out (.completes true 5)))]

/-- The first session has read the alert of the second one. -/
theorem raw_subscriber_alertArrives :
    ∃ c, (program alerts (fun _ => [0]) {}).run alertArrives (start {}) = some c ∧
      Delivered alerts (deeds alerts (fun _ => [0]) {} alertArrives) {}
        (routed (fun _ => [0]) c.shared ⟨1, 1⟩ ++ called alerts (fun _ => [0]) {} alertArrives ⟨1, 1⟩)
        c.shared ⟨1, 1⟩ [[0], [0], [3]] := by
  have hobserved : ((program alerts (fun _ => [0]) {}).run alertArrives (start {})).map (fun c =>
      ((c.shared.server.control ⟨1, 1⟩).transport, (c.shared.server.out.sessions ⟨1, 1⟩).wire)) =
      some (.rawTcp, [0, 0, 0, 1, 0, 0, 0, 0, 1, 0, 0, 0, 0, 1, 3]) := by
    decide +kernel
  obtain ⟨c, hrun, hc⟩ := Option.map_eq_some_iff.1 hobserved
  obtain ⟨hraw, hwire⟩ := Prod.mk.inj hc
  have hcut : ([[0, 0, 0, 1, 0, 0, 0], [0, 1, 0, 0, 0, 0, 1, 3]] : List Bytes).flatten =
      (c.shared.server.out.sessions ⟨1, 1⟩).wire := by
    rw [hwire]
    rfl
  obtain ⟨-, -, hdelivered, -⟩ := raw_subscriber alerts (fun _ => [0]) {} alertArrives hrun ⟨1, 1⟩ hraw
    (M := 1048576) (R := 8) (B := 1048587) (by decide) (by decide) hcut (by decide)
  have hread : (LengthPrefixedAccumulator.decode 1048576 1048587
      [[0, 0, 0, 1, 0, 0, 0], [0, 1, 0, 0, 0, 0, 1, 3]]).messages = [[0], [0], [3]] := by
    decide +kernel
  rw [hread] at hdelivered
  exact ⟨c, hrun, hdelivered⟩

/-! ### WebSocket subscribers -/

/-- The messages among what a WebSocket peer has read. -/
def binaryMessages (events : List WsEvent) : List Bytes :=
  events.filterMap fun event => if event.type = .binaryMessage then some event.payload else none

theorem binaryMessages_eventOf (sent : List (WsEventType × Bytes)) :
    binaryMessages (sent.map fun event => eventOf event.1 event.2) = ServerSteps.messagesIn sent :=
  List.filterMap_map

/-- The response that the task is about to queue, if there is one, finds room. -/
def welcomes (config : ServerConfig) (e : Engine) (t : Task) : Bool :=
  t.order.head?.all (ServerSteps.welcomes config e.server)

/-- In every run in which each response finds room, an upgraded session was answered first. -/
theorem engine_greeted {codec : Codec} {build : Outgoing → Bytes} {config : ServerConfig}
    {moves : List (ℕ × Choice)} {c : Config Engine Task}
    (hok : (program codec build config).AllMeet (fun _ t e _ => welcomes config e t = true) moves
      (start config))
    (hrun : (program codec build config).run moves (start config) = some c) (q : SessionHandle) :
    ServerSteps.Greeted config c.shared.server (serverTasks c.pending) q := by
  obtain ⟨moves', d, hrun', hmatches, hcarries⟩ :=
    (matches_start config).run (inside_server codec build config) hrun
  rw [← matches_shared hmatches, ← matches_pending hmatches]
  simp only [welcomes, Option.all_eq_true] at hok
  refine ServerSteps.greeted_run ?_ hrun' q
  exact hcarries (fun y sv => ServerSteps.welcomes config sv y = true) (fun _ => rfl) hok

/-- **What a WebSocket subscriber has read**, in every run of the engine in which each response to an
accepted handshake finds room.  Behind the response the queue holds frames that go on, and then what
begins with a close frame; the bytes of what is behind this close frame are not transmitted.  The
peer has no complaint about the bytes before the close frame, however they are cut for it, when its
limit for a message is not below the limit of the server nor below 125, and its buffer has room for
a message with a header and for one received piece besides.  The messages among the events it has
read are the first messages of the queue, among them every one that is transmitted to its last byte;
they were given to `Send`, by the router for a message with its past or from outside, each as often
as it was read; what is a copy of a published message has the whole chain of this message behind it;
and the copies of one publisher's messages are, in their order, among the messages in the bytes of
its reads.  A payload is a `std::vector`. -/
theorem webSocket_subscriber (codec : Codec) (build : Outgoing → Bytes) (config : ServerConfig)
    (moves : List (ℕ × Choice)) {c : Config Engine Task}
    (hok : (program codec build config).AllMeet (fun _ t e _ => welcomes config e t = true) moves
      (start config))
    (hrun : (program codec build config).run moves (start config) = some c) (q : SessionHandle)
    (htransport : (c.shared.server.control q).transport = .webSocket)
    (hvector : ∀ item ∈ (c.shared.server.out.sessions q).pushed, item.payload.length < 2 ^ 63)
    {M R B : ℕ} (hM : max 125 config.maxMessageBytes.toNat ≤ M) (hroom : M + 13 + R ≤ B) :
    ∃ key sent closing, (∀ event ∈ sent, ServerSteps.Sends config event) ∧
      (∀ item, closing.head? = some item → ∃ payload, payload.length ≤ 125 ∧
        item = frameItem .close payload true) ∧
      (c.shared.server.out.sessions q).pushed =
        responseItem (switchingProtocols key) false :: (ServerSteps.frames sent ++ closing) ∧
      ServerSteps.messagesIn sent <+: ServerSteps.messages c.shared.server q ∧
      (c.shared.server.out.sessions q).wire <+:
        switchingProtocols key ++ (encodeFrames sent ++ Outbound.stream (closing.take 1)) ∧
      ∀ cut : List Bytes,
        cut.flatten = ((c.shared.server.out.sessions q).wire.drop
          (switchingProtocols key).length).take (encodeFrames sent).length →
        (∀ chunk ∈ cut, chunk.length ≤ R) →
        let peer := WebSocketDecoder.decode M B false cut
        peer.refused = false ∧ peer.status = .needMoreData ∧
          peer.events <+: sent.map (fun event => eventOf event.1 event.2) ∧
          Delivered codec (deeds codec build config moves) config
            (routed build c.shared q ++ called codec build config moves q) c.shared q
            (binaryMessages peer.events) ∧
          ∀ first, first <+: sent → encodeFrames first <+: cut.flatten →
            first.map (fun event => eventOf event.1 event.2) <+: peer.events ∧
              ServerSteps.messagesIn first <+: binaryMessages peer.events := by
  obtain ⟨key, sent, closing, hsends, hclosing, hpushed, hsent, hwire, hpeer⟩ :=
    (given_run hrun q).1.webSocket_peer (engine_greeted hok hrun q) (engine_reachable hrun)
      htransport hvector
  refine ⟨key, sent, closing, hsends, hclosing, hpushed, hsent, hwire, fun cut hcut hchunks => ?_⟩
  obtain ⟨hrefused, hstatus, hread, hwhole⟩ := hpeer M R B hM hroom cut hcut hchunks
  refine ⟨hrefused, hstatus, hread, delivered_run hrun ?_, fun first hfirst hbytes => ?_⟩
  · rw [← binaryMessages_eventOf] at hsent
    exact (hread.filterMap _).trans hsent
  · have hevents := hwhole first hfirst hbytes
    refine ⟨hevents, ?_⟩
    rw [← binaryMessages_eventOf]
    exact hevents.filterMap _

/-- A WebSocket session authenticates, joins a room and publishes an alert there, with three frames
behind its handshake; the responses and the alert are transmitted to it. -/
def webSocketAlert : List (ℕ × Choice) :=
  [(0, .server (.acceptor ⟨1, 1⟩)), (1, .server .passes), (1, .server .passes),
    (2, .server (.reads true (upgradeRequest ++
      [1, 2, 3].flatMap fun byte => [0x82, 0x81, 0, 0, 0, 0, byte])))] ++
    List.replicate 6 (2, .server .passes) ++ List.replicate 4 (2, .server (.out .succeeds)) ++
    List.replicate 9 (2, .server .passes) ++ handled 4 1 ++ [(2, .server .passes)] ++ handled 6 1 ++
    [(2, .server .passes)] ++ handled 6 1 ++
    [(3, 129), (4, 3), (5, 3)].flatMap (fun (i, transferred) =>
      (i, .server (.out (.completes true transferred))) ::
        List.replicate 7 (i, .server (.out .succeeds))) ++
      [(6, .server (.out (.completes true 3)))]

/-- The session has read the two responses and its own alert, in three frames that are cut in two. -/
theorem webSocket_subscriber_webSocketAlert :
    ∃ c, (program alerts (fun _ => [0]) {}).run webSocketAlert (start {}) = some c ∧
      (c.shared.server.out.sessions ⟨1, 1⟩).wire =
        switchingProtocols (ascii "dGhlIHNhbXBsZSBub25jZQ==") ++
          [0x82, 1, 0, 0x82, 1, 0, 0x82, 1, 3] ∧
      binaryMessages (WebSocketDecoder.decode 1048576 1048594 false
        [[0x82, 1, 0, 0x82], [1, 0, 0x82, 1, 3]]).events = [[0], [0], [3]] ∧
      Delivered alerts (deeds alerts (fun _ => [0]) {} webSocketAlert) {}
        (routed (fun _ => [0]) c.shared ⟨1, 1⟩ ++
          called alerts (fun _ => [0]) {} webSocketAlert ⟨1, 1⟩) c.shared ⟨1, 1⟩
        [[0], [0], [3]] := by
  have hobserved : ((program alerts (fun _ => [0]) {}).run webSocketAlert (start {})).map (fun c =>
      ((c.shared.server.control ⟨1, 1⟩).transport,
        (c.shared.server.out.sessions ⟨1, 1⟩).pushed.all (fun item =>
          item.payload.length < 2 ^ 63 && !item.closeAfter),
        (c.shared.server.out.sessions ⟨1, 1⟩).pushed.head?.map OutboundItem.payload,
        Outbound.stream (c.shared.server.out.sessions ⟨1, 1⟩).pushed,
        (c.shared.server.out.sessions ⟨1, 1⟩).wire)) =
      some (.webSocket, true, some sampleResponse,
        sampleResponse ++ [0x82, 1, 0, 0x82, 1, 0, 0x82, 1, 3],
        sampleResponse ++ [0x82, 1, 0, 0x82, 1, 0, 0x82, 1, 3]) := by
    decide +kernel
  rw [← switchingProtocols_sample] at hobserved
  obtain ⟨c, hrun, hc⟩ := Option.map_eq_some_iff.1 hobserved
  simp only [Prod.mk.injEq, List.all_eq_true, Bool.and_eq_true, decide_eq_true_eq,
    Bool.not_eq_true'] at hc
  obtain ⟨htransport, hitems, hfirst, hstream, hwire⟩ := hc
  have hok := Program.allMeet_of_meets (P := program alerts (fun _ => [0]) {})
    (fun _ t e => welcomes {} e t) webSocketAlert (c := start {}) (by decide +kernel)
  obtain ⟨key, sent, closing, -, hclosing, hpushed, -, -, hpeer⟩ := webSocket_subscriber alerts
    (fun _ => [0]) {} webSocketAlert hok hrun ⟨1, 1⟩ htransport
      (fun item hitem => (hitems item hitem).1) (M := 1048576) (R := 5) (B := 1048594)
      (by decide) (by decide)
  obtain ⟨-, hkey, hsent⟩ := ServerSteps.frames_of_stream hpushed hclosing
    (fun item hitem => (hitems item hitem).2) hfirst hstream
  have hread : binaryMessages (WebSocketDecoder.decode 1048576 1048594 false
      [[0x82, 1, 0, 0x82], [1, 0, 0x82, 1, 3]]).events = [[0], [0], [3]] := by
    decide +kernel
  have hcut : ([[0x82, 1, 0, 0x82], [1, 0, 0x82, 1, 3]] : List Bytes).flatten =
      ((c.shared.server.out.sessions ⟨1, 1⟩).wire.drop (switchingProtocols key).length).take
        (encodeFrames sent).length := by
    rw [hkey, hsent, hwire, List.drop_left]
    rfl
  obtain ⟨-, -, -, hdelivered, -⟩ := hpeer _ hcut (by decide)
  rw [hread] at hdelivered
  exact ⟨c, hrun, hwire, hread, hdelivered⟩

end EngineSteps

end RealtimeEngine
