/-
**The state of a session moves forward, unless `Open` is stored too late.**

A session goes from `Connecting` through `Handshaking` and `Open` to `Closing` and `Closed`, and may
skip some of them.  `SendControl` exchanges the state for `Closing` only where the session has not
got so far, and `Disconnect` stores the last state there is.  `ProcessDetection` stores `Open`
whatever it finds: another thread, or the charge of its own read, may have closed the session
before.  Then a session that is disconnected is open again, and a session that has queued its close
frame may queue another one.

Main definitions:

* `RealtimeEngine.SessionState.rank` — the order of the states;
* `RealtimeEngine.ServerSteps.opensForward` — `Open` is stored over a state that comes before it;
* `RealtimeEngine.ServerSteps.Forward` — the invariant.

Main results:

* `RealtimeEngine.ServerSteps.Step.forward` — **every step moves the states forward**;
* `RealtimeEngine.ServerSteps.states_forward` — **so does every run** that stores `Open` in time,
  and no session queues more than one close frame;
* `RealtimeEngine.ServerSteps.reopened` — a session that is open behind its `Disconnect`.
-/

import RealtimeEngine.ServerInbound

set_option relaxedAutoImplicit false
set_option autoImplicit false

namespace RealtimeEngine

/-! ### States and close frames -/

/-- The order of the states. -/
def SessionState.rank : SessionState → ℕ
  | .connecting => 0
  | .handshaking => 1
  | .opened => 2
  | .closing => 3
  | .closed => 4

/-- The session is closing or closed. -/
def SessionState.ending : SessionState → Bool
  | .closing | .closed => true
  | _ => false

theorem SessionState.rank_le_closed (state : SessionState) :
    state.rank ≤ SessionState.closed.rank := by
  cases state <;> decide

theorem SessionState.rank_le_opened {state : SessionState} (h : state.ending = false) :
    state.rank ≤ SessionState.opened.rank := by
  cases state with
  | closing => cases h
  | closed => cases h
  | _ => decide

theorem SessionState.eq_closed_of_rank {state : SessionState}
    (h : SessionState.closed.rank ≤ state.rank) : state = .closed := by
  cases state with
  | closed => rfl
  | _ => exact absurd h (by decide)

/-- The item is a close frame. -/
def isCloseFrame (item : OutboundItem) : Bool :=
  item.header = buildFrameHeader .close item.payload.length

theorem isCloseFrame_responseItem (response : Bytes) (closeAfter : Bool) :
    isCloseFrame (responseItem response closeAfter) = false := by
  have hne : ([] : Bytes) ≠ buildFrameHeader .close response.length := by
    unfold buildFrameHeader
    split
    · simp
    · split <;> simp
  exact decide_eq_false hne

/-- A frame has the opcode of its header. -/
theorem isCloseFrame_frameItem {opcode : WsOpcode} (h : opcode ≠ .close) (payload : Bytes)
    (closeAfter : Bool) : isCloseFrame (frameItem opcode payload closeAfter) = false := by
  have hcode : (0x80 : UInt8) ||| opcode.code ≠ 0x80 ||| WsOpcode.close.code := by
    cases opcode with
    | close => exact absurd rfl h
    | _ => decide
  have hne : buildFrameHeader opcode payload.length ≠ buildFrameHeader .close payload.length := by
    unfold buildFrameHeader
    split
    · exact fun heq => hcode (List.cons.inj heq).1
    · split
      · exact fun heq => hcode (List.cons.inj heq).1
      · exact fun heq => hcode (List.cons.inj heq).1
  exact decide_eq_false hne

/-- The length of a raw message does not start like a close frame. -/
theorem isCloseFrame_rawItem {payload : Bytes} {item : OutboundItem}
    (h : rawItem payload = some item) : isCloseFrame item = false := by
  unfold rawItem at h
  split at h
  · cases h
  · next header hheader =>
      obtain rfl := Option.some.inj h
      have hfour := length_of_encodeLength hheader
      have hne : header ≠ buildFrameHeader .close payload.length := by
        intro heq
        unfold buildFrameHeader at heq
        split at heq
        · rw [heq] at hfour
          cases hfour
        · split at heq
          · next hshort =>
              -- the first byte of a length below 65536 is zero
              have hlength : BigEndian.toNat header = payload.length := by
                unfold encodeLength at hheader
                split at hheader
                · cases hheader
                · obtain rfl := Option.some.inj hheader
                  exact BigEndian.toNat_ofNat (by norm_num; omega)
              rw [heq, BigEndian.toNat_cons, List.length_cons, BigEndian.length_ofNat] at hlength
              have hcode : (0x80 ||| WsOpcode.close.code : UInt8).toNat = 136 := by decide
              rw [hcode] at hlength
              omega
          · rw [heq] at hfour
            simp at hfour
      exact decide_eq_false hne

namespace ServerSteps

open Interleaving

variable {ι : Type*}

/-! ### The invariant -/

/-- A call that has not looked its session up yet. -/
def Task.calling : Task ι → Bool
  | .accept _ | .send _ _ | .close _ _ _ => true
  | _ => false

/-- `Open` is stored over a state that comes before it. -/
def opensForward (sv : Server ι) : Task ι → Bool
  | .reader s (.storeOpen _ _) => !(sv.control s).state.ending
  | _ => true

variable [DecidableEq ι]

/-- The close frames of the session that are about to be queued. -/
def closing (s : ι) : Task ι → ℕ
  | .out (.enqueue s' item) => if s' = s ∧ isCloseFrame item = true then 1 else 0
  | _ => 0

/-- The close frames that a state stands for. -/
def closeFrames (state : SessionState) : ℕ := if state.ending then 1 else 0

/-- **What the state of a session says about it.** -/
structure Forward (sv : Server ι) (P : Multiset (Task ι)) (s : ι) : Prop where
  /-- Nobody knows a session that was not accepted. -/
  fresh : (sv.control s).accepted = false →
    (sv.control s).state = .connecting ∧ (sv.control s).registered = false ∧
      ∀ t ∈ P, t.session? = some s → t.calling = true
  /-- A disconnected session is closed, or it is about to be. -/
  closed : (sv.out.sessions s).disconnectStarted = true →
    (sv.control s).state = .closed ∨ .storeClosed s ∈ P
  /-- A close frame closes. -/
  lawful : ∀ opcode payload closeAfter, .sendControl s opcode payload closeAfter ∈ P →
    opcode = .close → closeAfter = true
  frames : (sv.out.sessions s).pushed.countP isCloseFrame + weight (closing s) P ≤
    closeFrames (sv.control s).state

section Steps

variable {config : ServerConfig} {sv sv' : Server ι} {task : Task ι} {new : List (Task ι)}
  {R : Multiset (Task ι)} {s : ι}

/-- A task that works on a session finds it accepted. -/
theorem Forward.accepted (h : Forward sv (task ::ₘ R) s) (hs : task.session? = some s)
    (hcalling : task.calling = false) : (sv.control s).accepted = true := by
  by_contra hnot
  have hcalls := (h.fresh (by simpa using hnot)).2.2 task (Multiset.mem_cons_self task R) hs
  rw [hcalling] at hcalls
  cases hcalls

omit [DecidableEq ι] in
theorem closing_of_session [DecidableEq ι] {t : Task ι} (h : t.session? ≠ some s) :
    closing s t = 0 := by
  cases t with
  | out action =>
      cases action with
      | enqueue s' item => exact if_neg fun hboth => h (congrArg some hboth.1)
      | _ => rfl
  | _ => rfl

theorem closing_of_arrives {t : Task ι} (h : t.arrives = true) : closing s t = 0 := by
  cases t with
  | out action =>
      cases action with
      | enqueue s' item => cases h
      | _ => rfl
  | _ => rfl

/-- Unless the task is the store itself, the state of a disconnected session is stored, or another
task is about to store it. -/
theorem Forward.closed_rest (h : Forward sv (task ::ₘ R) s) (htask : task ≠ .storeClosed s)
    (hstarted : (sv.out.sessions s).disconnectStarted = true) :
    (sv.control s).state = .closed ∨ .storeClosed s ∈ R :=
  (h.closed hstarted).imp_right fun hmem =>
    (Multiset.mem_cons.1 hmem).resolve_left fun heq => htask heq.symm

/-- While the session is open, the end of a `Disconnect` that has started is still under way. -/
theorem Forward.rest_of_open (h : Forward sv (task ::ₘ R) s) (htask : task ≠ .storeClosed s)
    (hending : (sv.control s).state.ending = false)
    (hstarted : (sv.out.sessions s).disconnectStarted = true) : .storeClosed s ∈ R := by
  refine (h.closed_rest htask hstarted).resolve_left fun hclosed => ?_
  rw [hclosed] at hending
  cases hending

/-- A step of a session that was accepted. -/
theorem Forward.turn (h : Forward sv (task ::ₘ R) s)
    (haccepted : (sv'.control s).accepted = true)
    (hclosed : (sv'.out.sessions s).disconnectStarted = true →
      (sv'.control s).state = .closed ∨ .storeClosed s ∈ new ∨ .storeClosed s ∈ R)
    (hlawful : ∀ opcode payload closeAfter, .sendControl s opcode payload closeAfter ∈ new →
      opcode = .close → closeAfter = true)
    (hframes : (sv'.out.sessions s).pushed.countP isCloseFrame + (new.map (closing s)).sum +
        closeFrames (sv.control s).state ≤
      (sv.out.sessions s).pushed.countP isCloseFrame + closing s task +
        closeFrames (sv'.control s).state) : Forward sv' (new + R) s := by
  refine ⟨fun hnot => ?_, fun hstarted => ?_, fun opcode payload closeAfter hmem => ?_, ?_⟩
  · rw [haccepted] at hnot
    cases hnot
  · rcases hclosed hstarted with hstate | hnew | hrest
    · exact Or.inl hstate
    · exact Or.inr (Multiset.mem_add.2 (Or.inl hnew))
    · exact Or.inr (Multiset.mem_add.2 (Or.inr hrest))
  · rcases Multiset.mem_add.1 hmem with hnew | hrest
    · exact hlawful opcode payload closeAfter hnew
    · exact h.lawful opcode payload closeAfter (Multiset.mem_cons_of_mem hrest)
  · have hbefore := h.frames
    rw [weight_cons] at hbefore
    rw [weight_add, weight_coe]
    omega

/-- A step of another session. -/
theorem Forward.other (h : Forward sv (task ::ₘ R) s) (hstep : Step config sv task sv' new)
    (hs : task.session? ≠ some s) : Forward sv' (new + R) s := by
  obtain ⟨hcontrol, hout, hnew⟩ := hstep.frame hs
  refine ⟨fun hnot => ?_, fun hstarted => ?_, fun opcode payload closeAfter hmem => ?_, ?_⟩
  · rw [hcontrol] at hnot ⊢
    obtain ⟨hstate, hregistered, hcalls⟩ := h.fresh hnot
    refine ⟨hstate, hregistered, fun t ht hsession => ?_⟩
    rcases Multiset.mem_add.1 ht with ht | ht
    · by_cases htask : task = .outside
      · subst htask
        cases hstep with
        | @arrives x t' harrival =>
            rcases List.mem_pair.1 ht with rfl | rfl
            · cases hsession
            · -- the timer and `Stop` look at the registry first
              cases x with
              | ticker s' | stopper s' =>
                  simp only [arrival] at harrival
                  split at harrival
                  · next hin =>
                      obtain rfl := Option.some.inj harrival
                      obtain rfl := Option.some.inj hsession
                      rw [hregistered] at hin
                      cases hin
                  · cases harrival
              | acceptor s' =>
                  simp only [arrival] at harrival
                  split at harrival
                  · cases harrival
                  · obtain rfl := Option.some.inj harrival
                    rfl
              | sender s' payload | closer s' code reason =>
                  obtain rfl := Option.some.inj harrival
                  rfl
              | _ => cases harrival
        | calls hsession' hcall => cases hcall
      · exact absurd ((hstep.session htask t ht).symm.trans hsession) hs
    · exact hcalls t (Multiset.mem_cons_of_mem ht) hsession
  · rw [hout] at hstarted
    rw [hcontrol]
    rcases h.closed hstarted with hstate | hmem
    · exact Or.inl hstate
    · refine Or.inr (Multiset.mem_add.2 (Or.inr ?_))
      exact (Multiset.mem_cons.1 hmem).resolve_left fun heq => hs (by rw [← heq]; rfl)
  · rcases Multiset.mem_add.1 hmem with hmem | hmem
    · cases hnew _ hmem rfl
    · exact h.lawful opcode payload closeAfter (Multiset.mem_cons_of_mem hmem)
  · have hzero : (new.map (closing s)).sum = 0 := by
      refine List.sum_eq_zero (List.forall_mem_map.2 fun t ht => ?_)
      by_cases hsession : t.session? = some s
      · exact closing_of_arrives (hnew t ht hsession)
      · exact closing_of_session hsession
    have hbefore := h.frames
    rw [weight_cons] at hbefore
    rw [weight_add, weight_coe, hzero, hcontrol, hout]
    omega

/-- A task that is no close frame, nor a control frame that would be one by mistake. -/
def Task.harmless (s : ι) (t : Task ι) : Prop :=
  closing s t = 0 ∧ ∀ opcode payload closeAfter, t = .sendControl s opcode payload closeAfter →
    opcode = .close → closeAfter = true

theorem closings_eq_zero {l : List (Task ι)} (h : ∀ t ∈ l, t.harmless s) :
    (l.map (closing s)).sum = 0 :=
  List.sum_eq_zero (List.forall_mem_map.2 fun t ht => (h t ht).1)

theorem harmless_of_arrives {t : Task ι} (h : t.arrives = true) : t.harmless s :=
  ⟨closing_of_arrives h, fun _ _ _ heq => by rw [heq] at h; cases h⟩

theorem harmless_enqueue {item : OutboundItem} (h : isCloseFrame item = false) (s' : ι) :
    (Task.out (.enqueue s' item)).harmless s :=
  ⟨if_neg fun hboth => by rw [h] at hboth; exact Bool.false_ne_true hboth.2,
    (by intro _ _ _ heq; cases heq)⟩

/-- What queues nothing and sends no control frame is harmless. -/
theorem harmless_of_ne {t : Task ι} (henqueue : ∀ s' item, t ≠ .out (.enqueue s' item))
    (hcontrol : ∀ s' opcode payload closeAfter, t ≠ .sendControl s' opcode payload closeAfter) :
    t.harmless s := by
  refine ⟨?_, fun opcode payload closeAfter heq => absurd heq (hcontrol _ _ _ _)⟩
  cases t with
  | out action =>
      cases action with
      | enqueue s' item => exact absurd rfl (henqueue s' item)
      | _ => rfl
  | _ => rfl

/-- A step that goes on with one task, or with none. -/
theorem harmless_of_mem_ite {p : Prop} [Decidable p] {t next : Task ι}
    (ht : t ∈ if p then [] else [next]) (h : next.harmless s) : t.harmless s := by
  split at ht
  · cases ht
  · rw [List.mem_singleton.1 ht]
    exact h

/-- **What a call does to the state**: nothing, or it closes the session, or it is the end of a
`Disconnect`. -/
theorem callStep_state {x : Choice ι} {started : Bool} {c : Control} {state : SessionState}
    (h : callStep config x started c task = some (state, new))
    (hlawful : ∀ s opcode payload, task = .sendControl s opcode payload false → opcode ≠ .close) :
    (state = c.state ∧ (∀ t ∈ new, t.harmless s) ∧
      (c.registered = false → task.calling = true → new = []) ∧ ∀ s, task ≠ .storeClosed s) ∨
    (∃ s' opcode payload, task = .sendControl s' opcode payload true ∧ c.state.ending = false ∧
      state = .closing ∧ new = [.out (.enqueue s' (frameItem opcode payload true))]) ∨
    ∃ s', task = .storeClosed s' ∧ state = .closed ∧ new = [] := by
  cases task with
  | send s' payload =>
      obtain ⟨rfl, rfl⟩ := Prod.mk.inj (Option.some.inj h)
      refine Or.inl ⟨rfl, fun t ht => ?_, fun hregistered _ => if_pos (by simp [hregistered]),
        (by intro _ heq; cases heq)⟩
      exact harmless_of_mem_ite ht
        (harmless_of_ne (by intro _ _ heq; cases heq) (by intro _ _ _ _ heq; cases heq))
  | sendState s' payload =>
      obtain ⟨rfl, rfl⟩ := Prod.mk.inj (Option.some.inj h)
      refine Or.inl ⟨rfl, fun t ht => ?_, (by intro _ hcalling; cases hcalling),
        (by intro _ heq; cases heq)⟩
      exact harmless_of_mem_ite ht
        (harmless_of_ne (by intro _ _ heq; cases heq) (by intro _ _ _ _ heq; cases heq))
  | sendTransport s' payload =>
      obtain ⟨rfl, rfl⟩ := Prod.mk.inj (Option.some.inj h)
      refine Or.inl ⟨rfl, fun t ht => ?_, (by intro _ hcalling; cases hcalling),
        (by intro _ heq; cases heq)⟩
      split at ht
      · obtain ⟨item, hitem, rfl⟩ := Option.map_eq_some_iff.1 (Option.mem_toList.1 ht)
        exact harmless_enqueue (isCloseFrame_rawItem hitem) s'
      · rw [List.mem_singleton.1 ht]
        exact harmless_enqueue (isCloseFrame_frameItem (by decide) _ _) s'
      · cases ht
  | close s' code reason =>
      obtain ⟨rfl, rfl⟩ := Prod.mk.inj (Option.some.inj h)
      refine Or.inl ⟨rfl, fun t ht => ?_, fun hregistered _ => if_pos (by simp [hregistered]),
        (by intro _ heq; cases heq)⟩
      exact harmless_of_mem_ite ht
        (harmless_of_ne (by intro _ _ heq; cases heq) (by intro _ _ _ _ heq; cases heq))
  | closeTransport s' code reason =>
      obtain ⟨rfl, rfl⟩ := Prod.mk.inj (Option.some.inj h)
      refine Or.inl ⟨rfl, fun t ht => ?_, (by intro _ hcalling; cases hcalling),
        (by intro _ heq; cases heq)⟩
      split at ht
      · rw [List.mem_singleton.1 ht]
        exact harmless_of_ne (by intro _ _ heq; cases heq) (by intro _ _ _ _ heq; cases heq)
      · rw [List.mem_singleton.1 ht]
        refine ⟨rfl, fun opcode payload closeAfter heq _ => ?_⟩
        injection heq with _ _ _ hclose
        exact hclose.symm
  | sendControl s' opcode payload closeAfter =>
      simp only [callStep] at h
      split at h
      · next hclose =>
          obtain rfl : closeAfter = true := hclose
          split at h
          · obtain ⟨rfl, rfl⟩ := Prod.mk.inj (Option.some.inj h)
            exact Or.inl ⟨rfl, fun t ht => absurd ht List.not_mem_nil,
              (by intro _ hcalling; cases hcalling), (by intro _ heq; cases heq)⟩
          · next hstate =>
              obtain ⟨rfl, rfl⟩ := Prod.mk.inj (Option.some.inj h)
              -- the compare-and-swap of `SendControl` has won
              refine Or.inr (Or.inl ⟨s', opcode, payload, rfl, ?_, rfl, rfl⟩)
              cases hc : c.state with
              | closing => exact absurd (by simp [hc]) hstate
              | closed => exact absurd (by simp [hc]) hstate
              | _ => rfl
      · -- without `close_after` the frame is a ping or a pong
        next hclose =>
          obtain ⟨rfl, rfl⟩ := Prod.mk.inj (Option.some.inj h)
          obtain rfl : closeAfter = false := by simpa using hclose
          refine Or.inl ⟨rfl, fun t ht => ?_, (by intro _ hcalling; cases hcalling),
            (by intro _ heq; cases heq)⟩
          rw [List.mem_singleton.1 ht]
          exact harmless_enqueue
            (isCloseFrame_frameItem (hlawful s' opcode payload rfl) _ _) s'
  | timer s' =>
      obtain ⟨rfl, rfl⟩ := Prod.mk.inj (Option.some.inj h)
      refine Or.inl ⟨rfl, fun t ht => ?_, (by intro _ hcalling; cases hcalling),
        (by intro _ heq; cases heq)⟩
      exact harmless_of_mem_ite ht
        (harmless_of_ne (by intro _ _ heq; cases heq) (by intro _ _ _ _ heq; cases heq))
  | timerState s' =>
      refine Or.inl ?_
      simp only [callStep] at h
      split at h <;> obtain ⟨rfl, rfl⟩ := Prod.mk.inj (Option.some.inj h)
      all_goals
        refine ⟨rfl, fun t ht => ?_, (by intro _ hcalling; cases hcalling),
          (by intro _ heq; cases heq)⟩
        first
          | cases ht; done
          | (rw [List.mem_singleton.1 ht]
             exact harmless_of_ne (by intro _ _ heq; cases heq) (by intro _ _ _ _ heq; cases heq))
  | timerTransport s' =>
      simp only [callStep] at h
      split at h
      · obtain ⟨rfl, rfl⟩ := Prod.mk.inj (Option.some.inj h)
        refine Or.inl ⟨rfl, fun t ht => ?_, (by intro _ hcalling; cases hcalling),
          (by intro _ heq; cases heq)⟩
        rw [List.mem_singleton.1 ht]
        exact harmless_of_ne (by intro _ _ heq; cases heq) (by intro _ _ _ _ heq; cases heq)
      · obtain ⟨rfl, rfl⟩ := Prod.mk.inj (Option.some.inj h)
        refine Or.inl ⟨rfl, fun t ht => ?_, (by intro _ hcalling; cases hcalling),
          (by intro _ heq; cases heq)⟩
        rw [List.mem_singleton.1 ht]
        refine ⟨rfl, fun opcode payload closeAfter heq hclose => ?_⟩
        injection heq with _ hping
        rw [hclose] at hping
        cases hping
      · obtain ⟨rfl, rfl⟩ := Prod.mk.inj (Option.some.inj h)
        exact Or.inl ⟨rfl, fun t ht => absurd ht List.not_mem_nil,
          (by intro _ hcalling; cases hcalling), (by intro _ heq; cases heq)⟩
  | storeClosed s' =>
      obtain ⟨rfl, rfl⟩ := Prod.mk.inj (Option.some.inj h)
      exact Or.inr (Or.inr ⟨s', rfl, rfl, rfl⟩)
  | _ => cases h

/-! ### Every step -/

/-- What a pending control frame may not be. -/
theorem Forward.lawful_false (h : Forward sv (task ::ₘ R) s) (hs : task.session? = some s) :
    ∀ s' opcode payload, task = .sendControl s' opcode payload false → opcode ≠ .close := by
  rintro s' opcode payload rfl hclose
  obtain rfl := Option.some.inj hs
  cases h.lawful opcode payload false (Multiset.mem_cons_self _ R) hclose

/-- **Every step moves the states forward**, if it stores `Open` in time. -/
theorem Step.forward (hstep : Step config sv task sv' new) (hok : opensForward sv task = true)
    (h : Forward sv (task ::ₘ R) s) :
    (sv.control s).state.rank ≤ (sv'.control s).state.rank := by
  by_cases hs : task.session? ≠ some s
  · rw [(hstep.frame hs).1]
  rw [not_not] at hs
  cases hstep with
  | @accepts s' hnot =>
      obtain rfl := Option.some.inj hs
      rw [(h.fresh hnot).1]
      exact Nat.zero_le _
  | opens s' transport consumed =>
      obtain rfl := Option.some.inj hs
      -- the store of `Open` is the one that could lead back
      simp only [opensForward, Bool.not_eq_true'] at hok
      rw [modify_self]
      exact SessionState.rank_le_opened hok
  | updates s' bytes rest =>
      obtain rfl := Option.some.inj hs
      obtain ⟨total, htotal⟩ := updateInboundAccounting_eq config sv s' bytes
      simp [htotal]
  | releases s' =>
      obtain rfl := Option.some.inj hs
      obtain ⟨total, htotal⟩ := updateInboundAccounting_eq config sv s' 0
      simp [htotal]
  | handles hlocal =>
      obtain rfl := Option.some.inj hs
      rw [modify_self, (localStep_spec hlocal).1.state]
  | @calls x s' task state new hsession hcall =>
      obtain rfl := Option.some.inj (hsession.symm.trans hs)
      rw [modify_self]
      rcases callStep_state (s := s') hcall (h.lawful_false hs) with
        ⟨rfl, -⟩ | ⟨s'', opcode, payload, -, hending, rfl, -⟩ | ⟨s'', -, rfl, -⟩
      · exact le_rfl
      · exact (SessionState.rank_le_opened hending).trans
          (show SessionState.opened.rank ≤ SessionState.closing.rank by decide)
      · exact SessionState.rank_le_closed _
  | buffers s' bytes | stores s' transport consumed | leaves s' transport consumed | removes s' =>
      obtain rfl := Option.some.inj hs
      rw [modify_self]
  | greets result hact =>
      obtain rfl := Option.some.inj hs
      simp
  | _ => exact le_rfl

/-- A step that leaves the state and the close frames of its session alone. -/
theorem Forward.quiet (h : Forward sv (task ::ₘ R) s) (hknown : (sv.control s).accepted = true)
    (hclosing : ∀ s, task ≠ .storeClosed s)
    (haccepted : (sv'.control s).accepted = (sv.control s).accepted)
    (hstate : (sv'.control s).state = (sv.control s).state)
    (hstarted : (sv'.out.sessions s).disconnectStarted = (sv.out.sessions s).disconnectStarted)
    (hpushed : (sv'.out.sessions s).pushed = (sv.out.sessions s).pushed)
    (hnew : ∀ t ∈ new, t.harmless s) : Forward sv' (new + R) s := by
  refine h.turn (haccepted.trans hknown) (fun hstarted' => ?_)
    (fun opcode payload closeAfter hmem => (hnew _ hmem).2 opcode payload closeAfter rfl) ?_
  · rw [hstarted] at hstarted'
    rw [hstate]
    exact (h.closed_rest (hclosing s) hstarted').imp_right Or.inr
  · rw [hpushed, hstate, closings_eq_zero hnew]
    omega

theorem harmless_reader (s' : ι) (point : ReadPoint) : (Task.reader s' point).harmless s :=
  ⟨rfl, (by intro _ _ _ heq; cases heq)⟩

/-- An event is answered by a pong or by a close frame that closes. -/
theorem webSocketEvent_harmless {c c' : Control} (h : webSocketEvent c s = (c', new)) :
    ∀ t ∈ new, t.harmless s := by
  have hcloses : ∀ code reason, ∀ t ∈ [Task.close s code reason, .reader s .repost],
      t.harmless s := by
    intro code reason t ht
    rcases List.mem_pair.1 ht with rfl | rfl
    · exact harmless_of_arrives rfl
    · exact harmless_reader s _
  have hgoes : ∀ point, ∀ t ∈ [Task.reader s point], t.harmless s := by
    intro point t ht
    rw [List.mem_singleton.1 ht]
    exact harmless_reader s point
  unfold webSocketEvent at h
  dsimp only at h
  split at h
  · obtain ⟨-, rfl⟩ := Prod.mk.inj h
    exact hgoes _
  · obtain ⟨-, rfl⟩ := Prod.mk.inj h
    exact hcloses _ _
  · obtain ⟨-, rfl⟩ := Prod.mk.inj h
    exact hcloses _ _
  · obtain ⟨-, rfl⟩ := Prod.mk.inj h
    exact hcloses _ _
  · split at h
    · obtain ⟨-, rfl⟩ := Prod.mk.inj h
      exact hgoes _
    · obtain ⟨-, rfl⟩ := Prod.mk.inj h
      intro t ht
      rcases List.mem_pair.1 ht with rfl | rfl
      · refine ⟨rfl, fun opcode payload closeAfter heq hclose => ?_⟩
        -- the pong is no close frame
        injection heq with _ hpong
        rw [hclose] at hpong
        cases hpong
      · exact harmless_reader s _
    · obtain ⟨-, rfl⟩ := Prod.mk.inj h
      exact hgoes _
    · obtain ⟨-, rfl⟩ := Prod.mk.inj h
      intro t ht
      rcases List.mem_pair.1 ht with rfl | rfl
      · refine ⟨rfl, fun opcode payload closeAfter heq _ => ?_⟩
        -- the echo of a close frame closes
        injection heq with _ _ _ hcloses
        exact hcloses.symm
      · exact harmless_reader s _

/-- What a reading thread leaves to be done is harmless. -/
theorem localStep_harmless {x : Choice ι} {started : Bool} {c c' : Control} {point : ReadPoint}
    (h : localStep config x started c s point = some (c', new)) : ∀ t ∈ new, t.harmless s := by
  intro t ht
  by_cases hpoint : point = .webSocketState
  · subst hpoint
    simp only [localStep] at h
    split at h
    · obtain ⟨rfl, rfl⟩ := Prod.mk.inj (Option.some.inj h)
      rw [List.mem_singleton.1 ht]
      exact harmless_reader s _
    · exact webSocketEvent_harmless (Option.some.inj h) t ht
  · rcases (localStep_spec h).2 with rfl | ⟨calls, point', rfl, hcalls, -⟩
    · rw [List.mem_singleton.1 ht]
      exact harmless_of_arrives rfl
    · rcases List.mem_append.1 ht with ht | ht
      · cases hcalls with
        | nothing => cases ht
        | disconnects | closes =>
            rw [List.mem_singleton.1 ht]
            exact harmless_of_arrives rfl
        | controls hstate => exact absurd hstate hpoint
        | rejects =>
            rw [List.mem_singleton.1 ht]
            exact harmless_enqueue (isCloseFrame_responseItem _ _) s
      · rw [List.mem_singleton.1 ht]
        exact harmless_reader s _

/-- The outbound side starts nothing but its own actions. -/
theorem harmless_next {action : Outbound.Action ι} {out : Outbound.Shared ι}
    {next : List (Outbound.Action ι)} (hact : Outbound.Step config sv.out action out next)
    (hne : action ≠ .outside) : ∀ t ∈ next.map Task.out, t.harmless s := by
  intro t ht
  obtain ⟨q, hq, rfl⟩ := List.mem_map.1 ht
  refine ⟨?_, (by intro _ _ _ heq; cases heq)⟩
  cases q with
  | enqueue s' item => exact absurd rfl ((hact.session hne _ hq).2 s' item)
  | _ => rfl

/-- A close frame that was about to be queued is queued. -/
theorem Forward.enqueues {item : OutboundItem} (h : Forward sv (.out (.enqueue s item) ::ₘ R) s)
    (hcontrol : sv'.control s = sv.control s)
    (hstarted : (sv'.out.sessions s).disconnectStarted = (sv.out.sessions s).disconnectStarted)
    (hpushed : (sv'.out.sessions s).pushed = (sv.out.sessions s).pushed ++ [item])
    (hnew : ∀ t ∈ new, t.harmless s) : Forward sv' (new + R) s := by
  refine h.turn (by rw [hcontrol]; exact h.accepted rfl rfl) (fun hstarted' => ?_)
    (fun opcode payload closeAfter hmem => (hnew _ hmem).2 opcode payload closeAfter rfl) ?_
  · rw [hstarted] at hstarted'
    rw [hcontrol]
    exact (h.closed_rest (by intro heq; cases heq) hstarted').imp_right Or.inr
  · rw [hpushed, hcontrol, closings_eq_zero hnew, List.countP_append]
    cases hitem : isCloseFrame item with
    | false => simp [closing, hitem]
    | true => simp [closing, hitem]

/-- The response to an accepted request is no close frame. -/
theorem Forward.greets {result : HandshakeResult} {out : Outbound.Shared ι}
    {next : List (Outbound.Action ι)}
    (h : Forward sv (.reader s (.greet result) ::ₘ R) s)
    (hact : Outbound.Step config sv.out (.enqueue s (responseItem result.response false)) out next) :
    Forward
      ({ (sv.modify s fun c => { c with response := some result.response }) with out := out } :
        Server ι)
      ((next.map .out ++ [.reader s (.store .webSocket result.consumed)] : List (Task ι)) + R)
      s := by
  have hpushed : (out.sessions s).pushed.countP isCloseFrame =
      (sv.out.sessions s).pushed.countP isCloseFrame := by
    rcases hact.pushed s with hpushed | ⟨item, hitem, hpushed⟩
    · rw [hpushed]
    · injection hitem with _ hitem
      rw [hpushed, List.countP_append, ← hitem]
      simp [isCloseFrame_responseItem]
  have hnext : ∀ t ∈ next.map Task.out ++ [Task.reader s (.store .webSocket result.consumed)],
      t.harmless s := by
    intro t ht
    rcases List.mem_append.1 ht with ht | ht
    · exact harmless_next hact (by intro heq; cases heq) t ht
    · rw [List.mem_singleton.1 ht]
      exact harmless_reader s _
  refine h.turn (by simpa using h.accepted rfl rfl) (fun hstarted => ?_)
    (fun opcode payload closeAfter hmem => (hnext _ hmem).2 opcode payload closeAfter rfl) ?_
  · rw [hact.disconnectStarted (by intro heq; cases heq)] at hstarted
    simpa using h.closed_rest (by intro heq; cases heq) hstarted
  · rw [closings_eq_zero hnext]
    simp [hpushed]

/-- The store of `Open` comes before the session is closing or closed. -/
theorem Forward.opens {transport : TransportKind} {consumed : ℕ}
    (h : Forward sv (.reader s (.storeOpen transport consumed) ::ₘ R) s)
    (hending : (sv.control s).state.ending = false) :
    Forward (sv.modify s fun c => { c with state := .opened })
      (([.reader s (.leave transport consumed)] : List (Task ι)) + R) s := by
  refine h.turn (by simpa using h.accepted rfl rfl) (fun hstarted => ?_)
    (fun opcode payload closeAfter hmem => ?_) ?_
  · exact Or.inr (Or.inr (h.rest_of_open (by intro heq; cases heq) hending hstarted))
  · simp at hmem
  · simp [closing, closeFrames, hending]

/-- A call does not find its session. -/
theorem Forward.unheard (h : Forward sv (task ::ₘ R) s) (htask : task ≠ .storeClosed s)
    (haccepted : (sv.control s).accepted = false) :
    Forward (sv.modify s fun c => { c with state := (sv.control s).state }) R s := by
  obtain ⟨hstate, hregistered, hcalls⟩ := h.fresh haccepted
  have hbefore := h.frames
  rw [weight_cons] at hbefore
  refine ⟨fun _ => ?_, fun hstarted => ?_, fun opcode payload closeAfter hmem => ?_, ?_⟩
  · rw [modify_self]
    exact ⟨hstate, hregistered, fun t ht => hcalls t (Multiset.mem_cons_of_mem ht)⟩
  · rw [modify_self]
    exact h.closed_rest htask hstarted
  · exact h.lawful opcode payload closeAfter (Multiset.mem_cons_of_mem hmem)
  · simp only [modify_self, modify_out]
    omega

/-- `SendControl` moves the state to `Closing`, and one close frame is about to be queued. -/
theorem Forward.closes {opcode : WsOpcode} {payload : Bytes}
    (h : Forward sv (.sendControl s opcode payload true ::ₘ R) s)
    (hending : (sv.control s).state.ending = false) :
    Forward (sv.modify s fun c => { c with state := .closing })
      (([.out (.enqueue s (frameItem opcode payload true))] : List (Task ι)) + R) s := by
  refine h.turn (by simpa using h.accepted rfl rfl) (fun hstarted => ?_)
    (fun opcode payload closeAfter hmem => ?_) ?_
  · exact Or.inr (Or.inr (h.rest_of_open (by intro heq; cases heq) hending hstarted))
  · simp at hmem
  · have hone : closing s (Task.out (.enqueue s (frameItem opcode payload true))) ≤ 1 := by
      simp only [closing]
      split <;> omega
    have hbefore : closeFrames (sv.control s).state = 0 := by simp [closeFrames, hending]
    have hafter : closeFrames .closing = 1 := rfl
    simp only [modify_self, modify_out, List.map_cons, List.map_nil, List.sum_cons,
      List.sum_nil, hbefore, hafter]
    omega

/-- `Disconnect` stores `Closed`. -/
theorem Forward.storesClosed (h : Forward sv (.storeClosed s ::ₘ R) s) :
    Forward (sv.modify s fun c => { c with state := .closed }) (([] : List (Task ι)) + R) s := by
  refine h.turn (by simpa using h.accepted rfl rfl) (fun _ => Or.inl (by simp))
    (fun opcode payload closeAfter hmem => absurd hmem List.not_mem_nil) ?_
  have hbefore : closeFrames (sv.control s).state ≤ 1 := by
    unfold closeFrames
    split <;> omega
  have hafter : closeFrames .closed = 1 := rfl
  simp only [modify_self, modify_out, List.map_nil, List.sum_nil, hafter]
  omega

/-- **Every step keeps the invariant**, if it stores `Open` in time. -/
theorem Forward.step (hstep : Step config sv task sv' new) (hok : opensForward sv task = true)
    (h : Forward sv (task ::ₘ R) s) : Forward sv' (new + R) s := by
  by_cases hs : task.session? ≠ some s
  · exact h.other hstep hs
  rw [not_not] at hs
  have hdisconnects : ∀ t ∈ [disconnect s], t.harmless s := by
    intro t ht
    rw [List.mem_singleton.1 ht]
    exact harmless_of_arrives rfl
  have hgoes : ∀ point, ∀ t ∈ [Task.reader s point], t.harmless s := by
    intro point t ht
    rw [List.mem_singleton.1 ht]
    exact harmless_reader s point
  cases hstep with
  | arrives harrival => cases hs
  | @acts action out next houtside hkeep hact =>
      have hnext : ∀ t ∈ next.map Task.out, t.harmless s := harmless_next hact houtside
      have hstarted := hact.disconnectStarted (hkeep s)
      rcases hact.pushed s with hpushed | ⟨item, rfl, hpushed⟩
      · exact h.quiet (h.accepted hs rfl) (by intro _ heq; cases heq) rfl rfl hstarted hpushed hnext
      · exact h.enqueues rfl hstarted hpushed hnext
  | @disconnects s' hstarted =>
      obtain rfl := Option.some.inj hs
      refine h.turn (h.accepted hs rfl) (fun _ => Or.inr (Or.inl (by simp)))
        (fun opcode payload closeAfter hmem => ?_) ?_
      · simp at hmem
      · simp [closing]
  | @accepts s' hnot =>
      obtain rfl := Option.some.inj hs
      obtain ⟨hstate, -, hcalls⟩ := h.fresh hnot
      refine h.turn (by simp) (fun hstarted => ?_) (fun opcode payload closeAfter hmem => ?_) ?_
      · rcases h.closed hstarted with hclosed | hmem
        · rw [hstate] at hclosed
          cases hclosed
        · cases hcalls _ hmem rfl
      · simp at hmem
      · simp [closing, closeFrames, hstate, SessionState.ending]
  | @posts s' hopen =>
      obtain rfl := Option.some.inj hs
      exact h.quiet (h.accepted hs rfl) (by intro _ heq; cases heq) rfl rfl rfl rfl (hgoes _)
  | notPosted s' =>
      obtain rfl := Option.some.inj hs
      exact h.quiet (h.accepted hs rfl) (by intro _ heq; cases heq) rfl rfl rfl rfl hdisconnects
  | reads s' succeeded hlen =>
      obtain rfl := Option.some.inj hs
      exact h.quiet (h.accepted hs rfl) (by intro _ heq; cases heq) rfl rfl rfl rfl (hgoes _)
  | overflows s' bytes =>
      obtain rfl := Option.some.inj hs
      refine h.quiet (h.accepted hs rfl) (by intro _ heq; cases heq) rfl rfl rfl rfl fun t ht => ?_
      rcases List.mem_pair.1 ht with rfl | rfl
      · exact harmless_of_arrives rfl
      · exact harmless_reader s' _
  | buffers s' bytes | stores s' transport consumed | leaves s' transport consumed =>
      obtain rfl := Option.some.inj hs
      exact h.quiet (h.accepted hs rfl) (by intro _ heq; cases heq) (by simp) (by simp) rfl rfl
        (hgoes _)
  | greets result hact =>
      obtain rfl := Option.some.inj hs
      exact h.greets hact
  | opens s' transport consumed =>
      obtain rfl := Option.some.inj hs
      simp only [opensForward, Bool.not_eq_true'] at hok
      exact h.opens hok
  | updates s' bytes rest =>
      obtain rfl := Option.some.inj hs
      obtain ⟨total, htotal⟩ := updateInboundAccounting_eq config sv s' bytes
      rw [htotal]
      refine h.quiet (h.accepted hs rfl) (by intro _ heq; cases heq) (by simp) (by simp) rfl rfl
        fun t ht => ?_
      rcases List.mem_append.1 ht with ht | ht
      · split at ht
        · exact hdisconnects t ht
        · cases ht
      · exact hgoes _ t ht
  | handles hlocal =>
      obtain rfl := Option.some.inj hs
      have hkept := (localStep_spec hlocal).1
      exact h.quiet (h.accepted hs rfl) (by intro _ heq; cases heq) (by simp [hkept.accepted])
        (by simp [hkept.state]) rfl rfl (localStep_harmless hlocal)
  | removes s' =>
      obtain rfl := Option.some.inj hs
      exact h.quiet (h.accepted hs rfl) (by intro _ heq; cases heq) (by simp) (by simp) rfl rfl
        fun t ht => absurd ht List.not_mem_nil
  | releases s' =>
      obtain rfl := Option.some.inj hs
      obtain ⟨total, htotal⟩ := updateInboundAccounting_eq config sv s' 0
      rw [htotal]
      exact h.quiet (h.accepted hs rfl) (by intro _ heq; cases heq) (by simp) (by simp) rfl rfl
        fun t ht => absurd ht List.not_mem_nil
  | @calls x s' task state new hsession hcall =>
      obtain rfl := Option.some.inj (hsession.symm.trans hs)
      rcases callStep_state (s := s') hcall (h.lawful_false hs) with
        ⟨rfl, hharmless, hempty, hnot⟩ | ⟨s'', opcode, payload, rfl, hending, rfl, rfl⟩ |
          ⟨s'', rfl, rfl, rfl⟩
      · cases haccepted : (sv.control s').accepted with
        | true => exact h.quiet haccepted hnot (by simp) (by simp) rfl rfl hharmless
        | false =>
            -- a call for a session that was never accepted finds nothing in the registry
            obtain ⟨-, hregistered, hcalls⟩ := h.fresh haccepted
            obtain rfl := hempty hregistered (hcalls task (Multiset.mem_cons_self task R) hs)
            rw [Multiset.coe_nil, zero_add]
            exact h.unheard (hnot s') haccepted
      · obtain rfl := Option.some.inj hs
        exact h.closes hending
      · obtain rfl := Option.some.inj hs
        exact h.storesClosed

end Steps

/-! ### Whole runs -/

theorem forward_start (config : ServerConfig) (s : ι) :
    Forward (start config : Config (Server ι) (Task ι)).shared (start config).pending s := by
  refine ⟨fun _ => ⟨rfl, rfl, fun t ht hsession => ?_⟩,
    fun hstarted => (Bool.false_ne_true hstarted).elim,
    fun opcode payload closeAfter hmem => ?_, Nat.zero_le _⟩
  · have ht' : t ∈ ([.outside] : List (Task ι)) := ht
    rw [List.mem_singleton.1 ht'] at hsession
    cases hsession
  · have hmem' : Task.sendControl s opcode payload closeAfter ∈ ([.outside] : List (Task ι)) := hmem
    cases List.mem_singleton.1 hmem'

/-- **The states move forward**, in every run that stores `Open` over an earlier state only: between
any two of its configurations no state is smaller than it was, a session whose `Disconnect` has
stored `Closed` stays closed, and no session queues a second close frame. -/
theorem states_forward (config : ServerConfig) (moves moves' : List (ℕ × Choice ι))
    {c c' : Config (Server ι) (Task ι)}
    (hok : (program config).AllMeet (fun _ t sv _ => opensForward sv t = true) (moves ++ moves')
      (start config))
    (hrun : (program config).run moves (start config) = some c)
    (hrun' : (program config).run moves' c = some c') (s : ι) :
    (c.shared.control s).state.rank ≤ (c'.shared.control s).state.rank ∧
      ((c.shared.out.sessions s).disconnectStarted = true → .storeClosed s ∉ c.pending →
        (c'.shared.control s).state = .closed) ∧
      (c'.shared.out.sessions s).pushed.countP isCloseFrame ≤ 1 := by
  obtain ⟨hbefore, hafter⟩ := Program.allMeet_append hok hrun
  have h : Forward c.shared c.pending s := by
    refine Program.invariant_of_allMeet (I := fun sv P => Forward sv P s)
      (fun x p sv R o hexec hopens hI => ?_) moves hbefore (forward_start config s) hrun
    rw [Multiset.coe_add]
    exact hI.step (exec_step hexec) hopens
  have h' : Forward c'.shared c'.pending s ∧
      (c.shared.control s).state.rank ≤ (c'.shared.control s).state.rank := by
    refine Program.invariant_of_allMeet
      (I := fun sv P => Forward sv P s ∧ (c.shared.control s).state.rank ≤ (sv.control s).state.rank)
      (fun x p sv R o hexec hopens hI => ?_) moves' hafter ⟨h, le_rfl⟩ hrun'
    rw [Multiset.coe_add]
    exact ⟨hI.1.step (exec_step hexec) hopens, hI.2.trans ((exec_step hexec).forward hopens hI.1)⟩
  refine ⟨h'.2, fun hstarted hnot => ?_, ?_⟩
  · have hclosed := (h.closed hstarted).resolve_right hnot
    have hrank := h'.2
    rw [hclosed] at hrank
    exact SessionState.eq_closed_of_rank hrank
  · have hframes := h'.1.frames
    have hone : closeFrames (c'.shared.control s).state ≤ 1 := by
      unfold closeFrames
      split <;> omega
    omega

/-- An incomplete raw message opens its session. -/
theorem states_forward_incompleteMessage :
    ∃ c c', (program {}).run (rawRead [0, 0, 0]) (start {}) = some c ∧
      (program {}).run (List.replicate 11 (2, .passes)) c = some c' ∧
      (c.shared.control false).state.rank ≤ (c'.shared.control false).state.rank := by
  obtain ⟨c, hrun, -⟩ : ∃ c, (program {}).run (rawRead [0, 0, 0]) (start {}) = some c ∧
      (c.shared.control false).state = .handshaking := by
    have hobserved : ((program {}).run (rawRead [0, 0, 0]) (start {})).map
        (fun c => (c.shared.control false).state) = some .handshaking := by
      decide +kernel
    exact Option.map_eq_some_iff.1 hobserved
  obtain ⟨c', hrun', -⟩ : ∃ c', (program {}).run incompleteMessage (start {}) = some c' ∧
      (c'.shared.control false).state = .opened := by
    have hobserved : ((program {}).run incompleteMessage (start {})).map
        (fun c => (c.shared.control false).state) = some .opened := by
      decide +kernel
    exact Option.map_eq_some_iff.1 hobserved
  rw [incompleteMessage, Program.run_append, hrun] at hrun'
  have hok := Program.allMeet_of_meets (P := program {}) (fun _ t sv => opensForward sv t)
    incompleteMessage (c := start {}) (by decide +kernel)
  exact ⟨c, c', hrun, hrun', (states_forward {} _ _ hok hrun hrun' false).1⟩

/-- The charge of a read is beyond the limit of the server, and its session is disconnected. -/
def overloadedRead : List (ℕ × Choice Bool) :=
  rawRead [0, 0, 0, 200, 1, 2, 3, 4] ++
    [(2, .out .succeeds), (2, .passes), (2, .passes), (2, .out .succeeds), (2, .out .succeeds),
      (2, .passes)]

/-- **A session is open behind its `Disconnect`**: the `Disconnect` has returned and the session is
closed; then the read goes on, and `ProcessDetection` stores `Open`. -/
theorem reopened :
    ∃ c c', (program smallInput).run overloadedRead (start smallInput) = some c ∧
      (program smallInput).run (List.replicate 3 (2, .passes)) c = some c' ∧
      (c.shared.out.sessions false).disconnectStarted = true ∧
      (c.threads.flatten.all fun t => !t.disconnecting) = true ∧
      (c.shared.control false).state = .closed ∧ (c'.shared.control false).state = .opened := by
  have hbefore : ((program smallInput).run overloadedRead (start smallInput)).map (fun c =>
      ((c.shared.out.sessions false).disconnectStarted, c.threads.flatten.all fun t => !t.disconnecting,
        (c.shared.control false).state)) = some (true, true, .closed) := by
    decide +kernel
  have hafter : ((program smallInput).run (overloadedRead ++ List.replicate 3 (2, .passes))
      (start smallInput)).map (fun c => (c.shared.control false).state) = some .opened := by
    decide +kernel
  obtain ⟨c, hrun, hc⟩ := Option.map_eq_some_iff.1 hbefore
  obtain ⟨c', hrun', hc'⟩ := Option.map_eq_some_iff.1 hafter
  simp only [Prod.mk.injEq] at hc
  rw [Program.run_append, hrun] at hrun'
  exact ⟨c, c', hrun, hrun', hc.1, hc.2.1, hc.2.2, hc'⟩

end ServerSteps

end RealtimeEngine
