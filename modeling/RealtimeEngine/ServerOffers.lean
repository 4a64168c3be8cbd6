/-
**What `Send` was given.**

A call of `Send` leads to one item at most, and no other call makes a message: `SendControl` makes
control frames, and `SendRaw` the answer to a handshake.  So the messages that a session has
accepted are, counted as often as they occur, among the payloads that `Send` was given for it.

Main definitions:

* `RealtimeEngine.OutboundItem.message?`, `RealtimeEngine.ServerSteps.Task.message?` — the message
  in an item, and the one that a task is about to queue;
* `RealtimeEngine.ServerSteps.offered` — what `Send` was given in a run;
* `RealtimeEngine.ServerSteps.Accounts` — the invariant.

Main results:

* `RealtimeEngine.ServerSteps.Step.messages` — **a step makes no message**;
* `RealtimeEngine.ServerSteps.accounts_run` — so every message in every run was given to `Send`.
-/

import RealtimeEngine.RunHistory
import RealtimeEngine.ServerQueued

set_option relaxedAutoImplicit false
set_option autoImplicit false

namespace RealtimeEngine

/-- The message in an item of `Send`: its header is the length of a raw frame, or begins as that of
a binary frame. -/
def OutboundItem.message? (item : OutboundItem) : Option Bytes :=
  if item.header.length = 4 ∨ item.header.head? = some 0x82 then some item.payload else none

namespace ServerSteps

open Interleaving WebSocketDecoder

/-! ### Messages -/

theorem rawItem_eq_some {payload : Bytes} {item : OutboundItem} (h : rawItem payload = some item) :
    encodeLength payload.length = some item.header ∧ item.payload = payload := by
  unfold rawItem at h
  split at h
  · cases h
  · next header hheader =>
      obtain rfl := Option.some.inj h
      exact ⟨hheader, rfl⟩

theorem message?_rawItem {payload : Bytes} {item : OutboundItem} (h : rawItem payload = some item) :
    item.message? = some payload := by
  obtain ⟨hheader, rfl⟩ := rawItem_eq_some h
  exact if_pos (Or.inl (length_of_encodeLength hheader))

theorem message?_binary (payload : Bytes) (closeAfter : Bool) :
    (frameItem .binary payload closeAfter).message? = some payload := by
  refine if_pos (Or.inr ?_)
  unfold frameItem buildFrameHeader
  dsimp only
  split
  · rfl
  · split <;> rfl

theorem message?_response (response : Bytes) (closeAfter : Bool) :
    (responseItem response closeAfter).message? = none :=
  if_neg (by simp [responseItem])

theorem message?_signal {opcode : WsOpcode} {payload : Bytes} {closeAfter : Bool}
    (h : Signal opcode payload closeAfter) (closeAfter' : Bool) :
    (frameItem opcode payload closeAfter').message? = none := by
  have hheader : (frameItem opcode payload closeAfter').header =
      [0x80 ||| opcode.code, UInt8.ofNat payload.length] := if_pos h.short
  have hcontrol := h.control
  refine if_neg ?_
  rw [hheader]
  cases opcode with
  | close | ping | pong =>
      rintro (hlength | hhead)
      · cases hlength
      · exact absurd (Option.some.inj hhead) (by decide)
  | _ => cases hcontrol

variable {ι : Type*} [DecidableEq ι]

/-- The message for the session that the task is about to queue. -/
def Task.message? (s : ι) : Task ι → Option Bytes
  | .send s' payload | .sendState s' payload | .sendTransport s' payload =>
      if s' = s then some payload else none
  | .out (.enqueue s' item) => if s' = s then item.message? else none
  | _ => none

/-- The messages that a session has accepted. -/
def messages (sv : Server ι) (s : ι) : List Bytes :=
  (sv.out.sessions s).pushed.filterMap OutboundItem.message?

/-- **The messages that a session has accepted, or is about to, were given.** -/
def Accounts (sv : Server ι) (P : Multiset (Task ι)) (s : ι) (given : Multiset Bytes) : Prop :=
  (messages sv s : Multiset Bytes) + holders (Task.message? s) P ≤ given

section Steps

variable {config : ServerConfig} {sv sv' : Server ι} {task : Task ι} {new : List (Task ι)}
  {R : Multiset (Task ι)} {s : ι} {transport : TransportKind} {buffer : Bytes}

theorem filterMap_message?_eq_nil (h : ∀ t ∈ new, t.message? s = none) :
    new.filterMap (Task.message? s) = [] :=
  List.filterMap_eq_nil_iff.2 h

/-- The actions of the outbound side make no message. -/
theorem message?_map_out {actions : List (Outbound.Action ι)}
    (h : ∀ a ∈ actions, ∀ s item, a ≠ .enqueue s item) :
    ∀ t ∈ actions.map Task.out, t.message? s = none := by
  intro t ht
  obtain ⟨a, ha, rfl⟩ := List.mem_map.1 ht
  cases a with
  | enqueue s' item => exact absurd rfl (h _ ha s' item)
  | _ => rfl

/-- A call hands its message on, or drops it. -/
theorem callStep_messages {x : Choice ι} {started : Bool} {c : Control} {state : SessionState}
    (h : callStep config x started c task = some (state, new))
    (haware : Aware config transport buffer s task) :
    new.filterMap (Task.message? s) <+: (task.message? s).toList := by
  -- whatever does not hand its message on leads to nothing that has one
  have hquiet : (∀ t ∈ new, t.message? s = none) →
      new.filterMap (Task.message? s) <+: (task.message? s).toList := by
    intro hnew
    rw [filterMap_message?_eq_nil hnew]
    exact List.nil_prefix
  have hleads := callStep_spec h
  cases task with
  | send s' payload =>
      simp only [callStep, Option.some.injEq, Prod.mk.injEq] at h
      obtain ⟨-, rfl⟩ := h
      split
      · exact List.nil_prefix
      · rw [filterMap_singleton]
        exact List.prefix_rfl
  | sendState s' payload =>
      simp only [callStep, Option.some.injEq, Prod.mk.injEq] at h
      obtain ⟨-, rfl⟩ := h
      split
      · exact List.nil_prefix
      · rw [filterMap_singleton]
        exact List.prefix_rfl
  | sendTransport s' payload =>
      simp only [callStep, Option.some.injEq, Prod.mk.injEq] at h
      obtain ⟨-, rfl⟩ := h
      split
      · cases hitem : rawItem payload with
        | none => exact List.nil_prefix
        | some item =>
            rw [Option.map_some, Option.toList_some, filterMap_singleton]
            simp only [Task.message?, message?_rawItem hitem]
            exact List.prefix_rfl
      · rw [filterMap_singleton]
        simp only [Task.message?, message?_binary]
        exact List.prefix_rfl
      · exact List.nil_prefix
  | sendControl s' opcode payload closeAfter =>
      refine hquiet fun t ht => ?_
      cases hleads t ht with
      | sendsControl _ _ _ _ closeAfter' =>
          by_cases hs : s' = s
          · exact (if_pos hs).trans (message?_signal (haware hs).2 closeAfter')
          · exact if_neg hs
      | disconnects | controls => rfl
  | _ =>
      refine hquiet fun t ht => ?_
      cases hleads t ht <;> rfl

/-- A reading thread makes no message. -/
theorem localStep_messages {x : Choice ι} {started : Bool} {c c' : Control} {s' : ι}
    {point : ReadPoint} (h : localStep config x started c s' point = some (c', new)) :
    ∀ t ∈ new, t.message? s = none := by
  intro t ht
  rcases (localStep_spec h).2 with rfl | ⟨calls, point', rfl, hcalls, -⟩
  · rw [List.mem_singleton.1 ht]
    rfl
  · rcases List.mem_append.1 ht with hcall | hlast
    · cases hcalls with
      | nothing => cases hcall
      | disconnects | closes | controls =>
          rw [List.mem_singleton.1 hcall]
          rfl
      | rejects =>
          rw [List.mem_singleton.1 hcall]
          exact (ite_eq_right_iff.2 fun _ => message?_response _ _)
    · rw [List.mem_singleton.1 hlast]
      rfl

/-- **A step makes no message**: what it queues, or leads to, it was about to queue. -/
theorem Step.messages (hstep : Step config sv task sv' new) (houtside : task ≠ .outside)
    (haware : Aware config (sv.control s).transport (sv.control s).detectionBuffer s task) :
    (ServerSteps.messages sv' s : Multiset Bytes) + (new.filterMap (Task.message? s) : List Bytes) ≤
      ServerSteps.messages sv s + ((task.message? s).toList : Multiset Bytes) := by
  -- most steps queue nothing, and lead to nothing that has a message
  have hquiet : (sv'.out.sessions s).pushed = (sv.out.sessions s).pushed →
      (∀ t ∈ new, t.message? s = none) →
      (ServerSteps.messages sv' s : Multiset Bytes) + (new.filterMap (Task.message? s) : List Bytes) ≤
        ServerSteps.messages sv s + ((task.message? s).toList : Multiset Bytes) := by
    intro hpushed hnew
    rw [filterMap_message?_eq_nil hnew, Multiset.coe_nil, add_zero, ServerSteps.messages, hpushed]
    exact Multiset.le_add_right _ _
  have hqueues : ∀ item : OutboundItem,
      (sv'.out.sessions s).pushed = (sv.out.sessions s).pushed ++ [item] →
      (item.message? = none ∨ item.message? = task.message? s) →
      (∀ t ∈ new, t.message? s = none) →
      (ServerSteps.messages sv' s : Multiset Bytes) + (new.filterMap (Task.message? s) : List Bytes) ≤
        ServerSteps.messages sv s + ((task.message? s).toList : Multiset Bytes) := by
    intro item hpushed hitem hnew
    rw [filterMap_message?_eq_nil hnew, Multiset.coe_nil, add_zero, ServerSteps.messages, hpushed,
      List.filterMap_append, filterMap_singleton, ← Multiset.coe_add]
    rcases hitem with hnone | hsome
    · rw [hnone, Option.toList_none, Multiset.coe_nil, add_zero]
      exact Multiset.le_add_right _ _
    · rw [hsome, ServerSteps.messages]
  cases hstep with
  | arrives harrival => exact absurd rfl houtside
  | acts hout hkeep hact =>
      have hnext := message?_map_out (s := s) fun a ha => (hact.session hout a ha).2
      rcases hact.pushed s with hsame | ⟨item, rfl, hpushed⟩
      · exact hquiet hsame hnext
      · exact hqueues item hpushed (Or.inr (if_pos rfl).symm) hnext
  | @greets s' result out next hact =>
      have hnext : ∀ t ∈ next.map Task.out ++ [.reader s' (.store .webSocket result.consumed)],
          t.message? s = none := by
        intro t ht
        rcases List.mem_append.1 ht with hout | hlast
        · exact message?_map_out (fun a ha => (hact.session (by rintro ⟨⟩) a ha).2) t hout
        · rw [List.mem_singleton.1 hlast]
          rfl
      rcases hact.pushed s with hsame | ⟨item, hitem, hpushed⟩
      · exact hquiet hsame hnext
      · obtain ⟨-, rfl⟩ := Outbound.Action.enqueue.inj hitem
        exact hqueues _ hpushed (Or.inl (message?_response _ _)) hnext
  | handles hlocal => exact hquiet rfl (localStep_messages hlocal)
  | calls hs hcall =>
      refine Multiset.add_le_add_left ?_
      exact Multiset.coe_le.2 (callStep_messages hcall haware).sublist.subperm
  | updates s' bytes rest =>
      obtain ⟨total, htotal⟩ := updateInboundAccounting_eq config sv s' bytes
      refine hquiet (by simp [htotal]) fun t ht => ?_
      rcases List.mem_append.1 ht with hcall | hlast
      · split at hcall
        · rw [List.mem_singleton.1 hcall]
          rfl
        · cases hcall
      · rw [List.mem_singleton.1 hlast]
        rfl
  | releases s' =>
      obtain ⟨total, htotal⟩ := updateInboundAccounting_eq config sv s' 0
      exact hquiet (by simp [htotal]) fun t ht => absurd ht List.not_mem_nil
  | @disconnects s' hstarted =>
      refine hquiet ?_ fun t ht => ?_
      · by_cases hs : s = s'
        · subst hs
          simp
        · simp [Outbound.modify_of_ne sv.out hs]
      · simp only [List.mem_cons, List.not_mem_nil, or_false] at ht
        rcases ht with rfl | rfl | rfl | rfl <;> rfl
  | overflows s' bytes =>
      exact hquiet rfl (List.forall_mem_cons.2 ⟨rfl, List.forall_mem_singleton.2 rfl⟩)
  | removes s' => exact hquiet rfl fun t ht => absurd ht List.not_mem_nil
  | _ => exact hquiet rfl (List.forall_mem_singleton.2 rfl)

/-- So every step keeps the account. -/
theorem Accounts.step {given : Multiset Bytes} (hstep : Step config sv task sv' new)
    (houtside : task ≠ .outside) (hqueued : Queued config sv (task ::ₘ R) s)
    (h : Accounts sv (task ::ₘ R) s given) : Accounts sv' (new + R) s given := by
  have hmessages := hstep.messages houtside (hqueued.aware task (Multiset.mem_cons_self task R))
  unfold Accounts at h ⊢
  rw [holders_cons, ← add_assoc] at h
  rw [holders_add, holders_coe, ← add_assoc]
  exact (Multiset.add_le_add_right hmessages).trans h

/-- Tasks that come from outside bring their messages along. -/
theorem Accounts.add {given : Multiset Bytes} (h : Accounts sv R s given) (l : List (Task ι)) :
    Accounts sv (l + R) s (given + (l.filterMap (Task.message? s) : List Bytes)) := by
  unfold Accounts at h ⊢
  rw [holders_add, holders_coe, add_left_comm, add_comm]
  exact Multiset.add_le_add_right h

/-- What comes from outside but a call of `Send` has no message. -/
theorem message?_of_arrival {x : Choice ι} {t : Task ι} (h : arrival sv x = some t)
    (hsender : ∀ s payload, x ≠ .sender s payload) : t.message? s = none := by
  cases x with
  | sender s' payload => exact absurd rfl (hsender s' payload)
  | acceptor | ticker | stopper =>
      simp only [arrival] at h
      split at h <;> cases h
      rfl
  | closer =>
      obtain rfl := Option.some.inj h
      rfl
  | _ => cases h

end Steps

/-! ### Runs -/

/-- The payload that a step of a caller gives to `Send`. -/
def offer? (s : ι) : Event (Server ι) (Task ι) (Choice ι) → Option Bytes
  | ⟨.sender s' payload, .outside, _⟩ => if s' = s then some payload else none
  | _ => none

/-- What `Send` was given for a session in a run, in order. -/
def offered (config : ServerConfig) (moves : List (ℕ × Choice ι)) (s : ι) : List Bytes :=
  ((program config).history moves (start config)).filterMap (offer? s)

/-- A step keeps the account, with what it gives to `Send`. -/
theorem Accounts.exec {config : ServerConfig} {x : Choice ι} {task : Task ι} {sv : Server ι}
    {o : Outcome (Server ι) (Task ι)} {R : Multiset (Task ι)} {s : ι} {given : Multiset Bytes}
    (hexec : exec config x task sv = some o) (hqueued : Queued config sv (task ::ₘ R) s)
    (h : Accounts sv (task ::ₘ R) s given) :
    Accounts o.shared ((o.next ++ o.forked.flatten : List (Task ι)) + R) s
      (given + ((offer? s ⟨x, task, sv⟩).toList : List Bytes)) := by
  by_cases houtside : task = .outside
  · subst houtside
    obtain ⟨t, ht, rfl⟩ := Option.map_eq_some_iff.1 hexec
    have hpending : (([.outside] ++ [[t]].flatten : List (Task ι)) : Multiset (Task ι)) + R =
        t ::ₘ .outside ::ₘ R := by
      rw [Multiset.cons_swap, ← coe_singleton_add t R, ← Multiset.cons_add]
      rfl
    have hoffer : (offer? s ⟨x, .outside, sv⟩).toList = [t].filterMap (Task.message? s) := by
      rw [filterMap_singleton]
      by_cases hsender : ∃ s' payload, x = .sender s' payload
      · obtain ⟨s', payload, rfl⟩ := hsender
        obtain rfl := Option.some.inj ht
        rfl
      · have hx : ∀ s' payload, x ≠ .sender s' payload := fun s' payload hx =>
          hsender ⟨s', payload, hx⟩
        rw [message?_of_arrival ht hx]
        cases x with
        | sender s' payload => exact absurd rfl (hx s' payload)
        | _ => rfl
    rw [hpending, hoffer, ← coe_singleton_add]
    exact h.add [t]
  · have hnone : offer? s ⟨x, task, sv⟩ = none := by
      cases task with
      | outside => exact absurd rfl houtside
      | _ => cases x <;> rfl
    rw [hnone, Option.toList_none, Multiset.coe_nil, add_zero]
    exact h.step (exec_step hexec) houtside hqueued

/-- **Every message was given to `Send`**, in every run. -/
theorem accounts_run {config : ServerConfig} {moves : List (ℕ × Choice ι)}
    {c : Config (Server ι) (Task ι)} (hrun : (program config).run moves (start config) = some c)
    (s : ι) : Accounts c.shared c.pending s (offered config moves s) := by
  refine (Program.invariant_history (h := [])
    (I := fun h sv P => Queued config sv P s ∧
      Accounts sv P s (h.filterMap (offer? s) : List Bytes)) ?_ moves
    ⟨queued_start config s, Multiset.zero_le _⟩ hrun).2
  rintro h x task sv R o hexec ⟨hqueued, haccounts⟩
  rw [Multiset.coe_add, List.filterMap_append, filterMap_singleton, ← Multiset.coe_add]
  exact ⟨hqueued.step (exec_step hexec), haccounts.exec hexec hqueued⟩

end ServerSteps

end RealtimeEngine
