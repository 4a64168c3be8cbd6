/-
**What a session transmits is an in-order stream of the items it was given.**

The items a session has accepted are, in this order, the ones taken off its queue and the ones still
in it, until a disconnect drops the rest.  The bytes on the wire are those of the items taken off
the queue, the last of them up to where its cursor stands.  Where that is depends on the action that
holds the token of the pipeline, so the invariant has a part for each of them.

Main definitions:

* `RealtimeEngine.Outbound.Writing` — the wire ends where the cursor of the operation stands;
* `RealtimeEngine.Outbound.Local` — what a pending action knows about the wire;
* `RealtimeEngine.Outbound.Stream` — the invariant.

Main results:

* `RealtimeEngine.Outbound.Writing.completed` — a completion moves the wire and the cursor alike,
  also inside the header or at its end;
* `RealtimeEngine.Outbound.Stream.step`, `RealtimeEngine.Outbound.Reachable.streams` — the invariant
  holds in every reachable state;
* `RealtimeEngine.Outbound.wire_stream` — **the run theorem**: one write in flight, a prefix of what
  was accepted, nothing behind a last item, and no lost wake-up.
-/

import RealtimeEngine.OutboundPipeline

set_option relaxedAutoImplicit false
set_option autoImplicit false

namespace RealtimeEngine

namespace Outbound

open Interleaving

variable {ι : Type*}

/-! ### The wire and the pending write -/

/-- The bytes of the items, one after the other. -/
def stream (items : List OutboundItem) : Bytes := items.flatMap OutboundItem.bytes

@[simp] theorem stream_append (items items' : List OutboundItem) :
    stream (items ++ items') = stream items ++ stream items' := by
  simp [stream]

@[simp] theorem stream_singleton (item : OutboundItem) : stream [item] = item.bytes := by
  simp [stream]

theorem stream_mono {items items' : List OutboundItem} (h : items <+: items') :
    stream items <+: stream items' := by
  obtain ⟨rest, rfl⟩ := h
  rw [stream_append]
  exact List.prefix_append _ _

/-- Everything taken off the queue is on the wire, and there is more to come. -/
def Caught (x : OutSession) : Prop :=
  x.wire = stream x.popped ∧ ∀ item ∈ x.popped, item.closeAfter = false

/-- The operation writes the item taken off last, of which `n` bytes are on the wire. -/
def Writing (x : OutSession) (op : WriteOperation) (n : ℕ) : Prop :=
  ∃ before item, x.popped = before ++ [item] ∧ op.cursor.header = item.header ∧
    op.cursor.payload = item.payload ∧ op.closeAfter = item.closeAfter ∧
    (∀ item' ∈ before, item'.closeAfter = false) ∧
    n ≤ item.size ∧ x.wire = stream before ++ item.bytes.take n

/-- What a pending action knows about the wire. -/
def Local (x : OutSession) : Action ι → Prop
  | .startNextWrite _ => Caught x
  | .allocate _ item => Writing x item.operation 0
  | .postWrite _ op | .wsaSend _ op | .inFlight _ op => Writing x op op.cursor.sent
  | .handleWrite _ op _ n => Writing x op (op.cursor.sent + n)
  | .finishWrite _ op succeeded => succeeded = true → op.closeAfter = false → Caught x
  | .finishServer _ _ succeeded closeAfter => succeeded = true → closeAfter = false → Caught x
  | _ => True

/-- The histories of a session. -/
structure Record (x : OutSession) : Prop where
  /-- Nothing is taken off the queue or waits in it that was not accepted, in this order. -/
  history : x.popped ++ x.sendQueue <+: x.pushed
  /-- Only a disconnect drops what was accepted. -/
  complete : x.disconnectStarted = false → x.popped ++ x.sendQueue = x.pushed
  sent : x.wire <+: stream x.popped
  /-- Only the item taken off last can be the last one. -/
  last : ∀ item ∈ x.popped.dropLast, item.closeAfter = false
  caught : x.writeActive = false → Caught x

/-- The fields that the record looks at. -/
def view (x : OutSession) :
    List OutboundItem × List OutboundItem × List OutboundItem × Bytes × Bool × Bool :=
  (x.pushed, x.popped, x.sendQueue, x.wire, x.writeActive, x.disconnectStarted)

theorem Record.congr {x y : OutSession} (h : Record x) (hview : view y = view x) : Record y := by
  simp only [view, Prod.mk.injEq] at hview
  obtain ⟨hpushed, hpopped, hqueue, hwire, hactive, hstarted⟩ := hview
  constructor
  · rw [hpushed, hpopped, hqueue]
    exact h.history
  · rw [hpushed, hpopped, hqueue, hstarted]
    exact h.complete
  · rw [hwire, hpopped]
    exact h.sent
  · rw [hpopped]
    exact h.last
  · rw [hactive, Caught, hwire, hpopped]
    exact h.caught

/-- What an action knows is about the wire and the items taken off the queue. -/
theorem Record.push {x : OutSession} (h : Record x) (hopen : x.disconnectStarted = false)
    (item : OutboundItem) (queuedBytes : ℕ) :
    Record { x with
      queuedBytes := queuedBytes
      sendQueue := x.sendQueue ++ [item]
      writeActive := true
      pushed := x.pushed ++ [item] } := by
  have hall := h.complete hopen
  refine ⟨?_, fun _ => ?_, h.sent, h.last, fun hidle => ?_⟩
  · rw [← List.append_assoc, hall]
  · rw [← List.append_assoc, hall]
  · cases hidle

/-- An item is taken off the queue when all that was taken off before is on the wire. -/
theorem Record.pop {x : OutSession} (h : Record x) (hactive : x.writeActive = true)
    (hcaught : Caught x) {item : OutboundItem} {queue : List OutboundItem}
    (hqueue : x.sendQueue = item :: queue) :
    Record { x with sendQueue := queue, popped := x.popped ++ [item] } := by
  have hall : (x.popped ++ [item]) ++ queue = x.popped ++ x.sendQueue := by
    rw [hqueue, List.append_assoc]
    rfl
  refine ⟨?_, fun hopen => ?_, ?_, ?_, fun hidle => ?_⟩
  · rw [hall]
    exact h.history
  · rw [hall]
    exact h.complete hopen
  · rw [stream_append]
    exact h.sent.trans (List.prefix_append _ _)
  · rw [List.dropLast_concat]
    exact hcaught.2
  · rw [hactive] at hidle
    cases hidle

/-- The write of the item starts at its first byte. -/
theorem Caught.writing {x : OutSession} (h : Caught x) (item : OutboundItem)
    (queue : List OutboundItem) :
    Writing { x with sendQueue := queue, popped := x.popped ++ [item] } item.operation 0 := by
  refine ⟨x.popped, item, rfl, rfl, rfl, rfl, h.2, Nat.zero_le _, ?_⟩
  rw [List.take_zero, List.append_nil]
  exact h.1

/-- A disconnect drops the queue. -/
theorem Record.drain {x : OutSession} (h : Record x) (hstarted : x.disconnectStarted = true)
    (queuedBytes : ℕ) : Record { x with queuedBytes := queuedBytes, sendQueue := [] } := by
  refine ⟨?_, fun hopen => ?_, h.sent, h.last, h.caught⟩
  · rw [List.append_nil]
    exact (List.prefix_append _ _).trans h.history
  · rw [hstarted] at hopen
    cases hopen

theorem Local.congr {x y : OutSession} {q : Action ι} (h : Local x q) (hpopped : y.popped = x.popped)
    (hwire : y.wire = x.wire) : Local y q := by
  cases q <;> simp only [Local, Caught, Writing, hpopped, hwire] at h ⊢ <;> exact h

/-! ### The cursor -/

/-- **A completion moves the wire and the cursor alike.** -/
theorem Writing.completed {x : OutSession} {op : WriteOperation}
    (h : Writing x op op.cursor.sent) {n : ℕ} (hn : n ≤ op.cursor.buffers.length) :
    Writing { x with wire := x.wire ++ op.cursor.buffers.take n } op (op.cursor.sent + n) := by
  obtain ⟨before, item, hpopped, hheader, hpayload, hclose, hbefore, hsent, hwire⟩ := h
  have hbuffers : op.cursor.buffers <+: item.bytes.drop op.cursor.sent := by
    rw [OutboundItem.bytes, ← hheader, ← hpayload]
    exact op.cursor.buffers_prefix (hheader ▸ item.header_le)
  have hlen := hbuffers.length_le
  rw [List.length_drop, item.length_bytes] at hlen
  refine ⟨before, item, hpopped, hheader, hpayload, hclose, hbefore, by omega, ?_⟩
  have htake : op.cursor.buffers.take n = (item.bytes.drop op.cursor.sent).take n := by
    obtain ⟨rest, hrest⟩ := hbuffers
    rw [← hrest, List.take_append_of_le_length hn]
  calc x.wire ++ op.cursor.buffers.take n
      = stream before ++ (item.bytes.take op.cursor.sent ++
          (item.bytes.drop op.cursor.sent).take n) := by
        rw [hwire, htake, List.append_assoc]
    _ = stream before ++ item.bytes.take (op.cursor.sent + n) := by
        rw [← List.take_add]

/-- The wire of a write is a prefix of what was taken off the queue. -/
theorem Writing.prefix {x : OutSession} {op : WriteOperation} {n : ℕ} (h : Writing x op n) :
    x.wire <+: stream x.popped := by
  obtain ⟨before, item, hpopped, -, -, -, -, -, hwire⟩ := h
  rw [hwire, hpopped, stream_append, stream_singleton]
  exact (List.prefix_append_right_inj _).2 (List.take_prefix _ _)

/-- `Consume` of what was transmitted. -/
theorem Writing.consume {x : OutSession} {op : WriteOperation} {n : ℕ}
    (h : Writing x op (op.cursor.sent + n)) :
    Writing x { op with cursor := op.cursor.consume n } (op.cursor.consume n).sent := by
  obtain ⟨before, item, hpopped, hheader, hpayload, hclose, hbefore, hle, hwire⟩ := h
  have hsize : op.cursor.totalSize = item.size := by
    rw [SendCursor.totalSize, OutboundItem.size, hheader, hpayload]
  have hremaining : ¬ n > op.cursor.remaining := by
    rw [SendCursor.remaining, hsize]
    omega
  have hsent : (op.cursor.consume n).sent = op.cursor.sent + n := by
    rw [SendCursor.consume, if_neg hremaining]
  rw [hsent]
  exact ⟨before, item, hpopped, hheader, hpayload, hclose, hbefore, hle, hwire⟩

/-- A write that is complete and not the last one has caught up. -/
theorem Writing.caught {x : OutSession} {op : WriteOperation} (h : Writing x op op.cursor.sent)
    (hcomplete : op.cursor.complete = true) (hlast : op.closeAfter = false) : Caught x := by
  obtain ⟨before, item, hpopped, hheader, hpayload, hclose, hbefore, hle, hwire⟩ := h
  have hsize : op.cursor.totalSize = item.size := by
    rw [SendCursor.totalSize, OutboundItem.size, hheader, hpayload]
  have hremaining : op.cursor.remaining = 0 := by
    simpa [SendCursor.complete] using hcomplete
  rw [SendCursor.remaining, hsize] at hremaining
  constructor
  · rw [hwire, hpopped, stream_append, stream_singleton,
      List.take_of_length_le (by rw [item.length_bytes]; omega)]
  · intro item' hitem'
    rw [hpopped] at hitem'
    rcases List.mem_append.1 hitem' with hmem | hmem
    · exact hbefore item' hmem
    · rw [List.mem_singleton.1 hmem, ← hclose, hlast]

/-- `HandleWrite` goes on where the completion ended. -/
theorem Local.handled {x : OutSession} {s : ι} {op : WriteOperation} {succeeded : Bool} {n : ℕ}
    (h : Writing x op (op.cursor.sent + n)) : Local x (handleWriteNext s op succeeded n) := by
  unfold handleWriteNext
  split
  · intro hfalse
    cases hfalse
  · have hconsume := h.consume
    dsimp only
    split
    · exact hconsume
    · next hcomplete =>
        intro _ hlast
        exact hconsume.caught (by simpa using hcomplete) hlast

/-! ### One step -/

variable [DecidableEq ι]

/-- **The state of the stream of a session.** -/
structure Stream (sh : Shared ι) (P : Multiset (Action ι)) (s : ι) : Prop where
  record : Record (sh.sessions s)
  knows : ∀ q ∈ P, q.session? = some s → Local (sh.sessions s) q
  /-- The queue is only dropped after a disconnect. -/
  closing : ∀ q ∈ P, q = .closeSocket s ∨ q = .drain s → (sh.sessions s).disconnectStarted = true

section Steps

variable {config : ServerConfig} {sh sh' : Shared ι} {p : Action ι} {new : List (Action ι)}
  {R : Multiset (Action ι)} {s : ι}

/-- An action of the session without the token knows nothing about the wire. -/
theorem local_of_token {x : OutSession} {q : Action ι} (hs : q.session? = some s)
    (h : token s q = 0) : Local x q := by
  cases q with
  | outside | enqueue _ _ | disconnect _ | closeSocket _ | drain _ | drainServer _ _ => trivial
  | _ =>
      obtain rfl := Option.some.inj hs
      rw [token_self rfl] at h
      cases h

omit [DecidableEq ι] in
/-- A step that does not touch the histories. -/
theorem Stream.same (h : Stream sh (p ::ₘ R) s)
    (hview : view (sh'.sessions s) = view (sh.sessions s))
    (hnew : ∀ q ∈ new, q.session? = some s → Local (sh.sessions s) q)
    (hclosing : ∀ q ∈ new, q = .closeSocket s ∨ q = .drain s →
      (sh.sessions s).disconnectStarted = true) : Stream sh' (new + R) s := by
  have hfields := hview
  simp only [view, Prod.mk.injEq] at hfields
  obtain ⟨-, hpopped, -, hwire, -, hstarted⟩ := hfields
  refine ⟨h.record.congr hview, fun q hq hs => ?_, fun q hq hs => ?_⟩
  · rcases Multiset.mem_add.1 hq with hq | hq
    · exact (hnew q hq hs).congr hpopped hwire
    · exact (h.knows q (Multiset.mem_cons_of_mem hq) hs).congr hpopped hwire
  · rw [hstarted]
    rcases Multiset.mem_add.1 hq with hq | hq
    · exact hclosing q hq hs
    · exact h.closing q (Multiset.mem_cons_of_mem hq) hs

/-- A step of another session. -/
theorem Stream.other (h : Stream sh (p ::ₘ R) s) (hstep : Step config sh p sh' new)
    (hp : p.session? ≠ some s) : Stream sh' (new + R) s := by
  obtain ⟨hsame, hnew⟩ := hstep.frame hp
  refine h.same (by rw [hsame]) (fun q hq hs => ?_) (fun q hq hs => ?_)
  · rcases hnew q hq hs with ⟨item, rfl⟩ | rfl
    · trivial
    · trivial
  · have hq' : q.session? = some s := by
      rcases hs with rfl | rfl
      · rfl
      · rfl
    rcases hnew q hq hq' with ⟨item, rfl⟩ | rfl
    · rcases hs with hs | hs <;> cases hs
    · rcases hs with hs | hs <;> cases hs

/-- A step of the action with the token, which may write: the others know nothing. -/
theorem Stream.turn (h : Stream sh (p ::ₘ R) s) (hrest : weight (token s) R = 0)
    (hrecord : Record (sh'.sessions s))
    (hstarted : (sh'.sessions s).disconnectStarted = (sh.sessions s).disconnectStarted)
    (hnew : ∀ q ∈ new, Local (sh'.sessions s) q ∧ q ≠ .closeSocket s ∧ q ≠ .drain s) :
    Stream sh' (new + R) s := by
  refine ⟨hrecord, fun q hq hs => ?_, fun q hq hs => ?_⟩
  · rcases Multiset.mem_add.1 hq with hq | hq
    · exact (hnew q hq).1
    · have hle : token s q ≤ weight (token s) R := le_weight hq
      exact local_of_token hs (by omega)
  · rw [hstarted]
    rcases Multiset.mem_add.1 hq with hq | hq
    · exact absurd hs (not_or.2 (hnew q hq).2)
    · exact h.closing q (Multiset.mem_cons_of_mem hq) hs

/-- **Every step keeps the streams in order.** -/
theorem Stream.step (hstep : Step config sh p sh' new) (hpipe : Pipeline sh (p ::ₘ R) s)
    (h : Stream sh (p ::ₘ R) s) : Stream sh' (new + R) s := by
  by_cases hp : p.session? ≠ some s
  · exact h.other hstep hp
  rw [not_not] at hp
  have hself := h.knows p (Multiset.mem_cons_self p R) hp
  have hrecord := h.record
  -- a step that hands the token on without touching the histories
  have hone : ∀ {q : Action ι}, view (sh'.sessions s) = view (sh.sessions s) →
      Local (sh.sessions s) q → q ≠ .closeSocket s → q ≠ .drain s →
      Stream sh' (([q] : List (Action ι)) + R) s := by
    intro q hview hlocal hclose hdrain
    refine h.same hview (fun q' hq' _ => ?_) fun q' hq' hs => ?_
    · rw [List.mem_singleton.1 hq']
      exact hlocal
    · rw [List.mem_singleton.1 hq'] at hs
      exact absurd hs (not_or.2 ⟨hclose, hdrain⟩)
  cases hstep with
  | enqueuer s' item => cases hp
  | disconnecter s' => cases hp
  | @accepted s' item hacc =>
      obtain rfl := Option.some.inj hp
      have hopen := (accepts_iff.1 hacc).1
      have hx : (push sh s' item).sessions s' =
          { sh.sessions s' with
            queuedBytes := (sh.sessions s').queuedBytes + item.size
            sendQueue := (sh.sessions s').sendQueue ++ [item]
            writeActive := true
            pushed := (sh.sessions s').pushed ++ [item] } := by
        simp [push]
      refine ⟨?_, fun q hq hs => ?_, fun q hq hs => ?_⟩
      · rw [hx]
        exact hrecord.push hopen item _
      · rw [hx]
        rcases Multiset.mem_add.1 hq with hq | hq
        · -- the pipeline was idle, and an idle pipeline has caught up
          split at hq
          · cases hq
          · next hidle =>
              rw [List.mem_singleton.1 hq]
              exact hrecord.caught (by simpa using hidle)
        · exact (h.knows q (Multiset.mem_cons_of_mem hq) hs).congr rfl rfl
      · rcases Multiset.mem_add.1 hq with hq | hq
        · split at hq
          · cases hq
          · rw [List.mem_singleton.1 hq] at hs
            rcases hs with hs | hs <;> cases hs
        · have hstarted := h.closing q (Multiset.mem_cons_of_mem hq) hs
          rw [hopen] at hstarted
          cases hstarted
  | refused hacc =>
      refine h.same rfl (fun q hq _ => ?_) fun q hq hs => ?_
      · split at hq
        · rw [List.mem_singleton.1 hq]
          trivial
        · cases hq
      · split at hq
        · rw [List.mem_singleton.1 hq] at hs
          rcases hs with hs | hs <;> cases hs
        · cases hq
  | @idle s' hqueue =>
      obtain rfl := Option.some.inj hp
      obtain ⟨-, hrest⟩ := hpipe.alone rfl
      refine h.turn hrest ?_ (by rw [modify_self]) fun q hq => absurd hq List.not_mem_nil
      rw [modify_self]
      exact ⟨hrecord.history, hrecord.complete, hrecord.sent, hrecord.last, fun _ => hself⟩
  | @popped s' item queue hqueue =>
      obtain rfl := Option.some.inj hp
      obtain ⟨hactive, hrest⟩ := hpipe.alone rfl
      have hcaught : Caught (sh.sessions s') := hself
      have hx : (pop sh s' item queue).sessions s' =
          { sh.sessions s' with
            sendQueue := queue, popped := (sh.sessions s').popped ++ [item] } := modify_self sh s' _
      refine h.turn hrest ?_ (by rw [hx]) fun q hq => ?_
      · rw [hx]
        exact hrecord.pop hactive hcaught hqueue
      · rw [List.mem_singleton.1 hq, hx]
        exact ⟨hcaught.writing item queue, by simp⟩
  | allocated s' item => exact hone rfl hself (by intro heq; cases heq) (by intro heq; cases heq)
  | notAllocated s' item => exact hone rfl trivial (by intro heq; cases heq) (by intro heq; cases heq)
  | unchargedSession s' bytes =>
      obtain rfl := Option.some.inj hp
      exact hone (by rw [modify_self]; rfl) trivial (by intro heq; cases heq) (by intro heq; cases heq)
  | unchargedServer s' bytes =>
      exact hone rfl trivial (by intro heq; cases heq) (by intro heq; cases heq)
  | posting op hopen => exact hone rfl hself (by intro heq; cases heq) (by intro heq; cases heq)
  | notPosted op hopen =>
      exact hone rfl (by intro hfalse; cases hfalse) (by intro heq; cases heq)
        (by intro heq; cases heq)
  | sent s' op => exact hone rfl hself (by intro heq; cases heq) (by intro heq; cases heq)
  | notSent s' op =>
      exact hone rfl (by intro hfalse; cases hfalse) (by intro heq; cases heq)
        (by intro heq; cases heq)
  | @completed s' op succeeded n hn =>
      obtain rfl := Option.some.inj hp
      obtain ⟨hactive, hrest⟩ := hpipe.alone rfl
      have hwriting : Writing (sh.sessions s') op op.cursor.sent := hself
      have hafter := hwriting.completed hn
      refine h.turn hrest ?_ (by rw [modify_self]) fun q hq => ?_
      · rw [modify_self]
        refine ⟨hrecord.history, hrecord.complete, hafter.prefix, hrecord.last, fun hidle => ?_⟩
        rw [hactive] at hidle
        cases hidle
      · rw [List.mem_singleton.1 hq, modify_self]
        exact ⟨hafter, by simp⟩
  | handled s' op succeeded n =>
      have htoken := token_handleWriteNext s' op succeeded n
      refine hone rfl (Local.handled hself) (fun heq => ?_) (fun heq => ?_)
      · rw [heq] at htoken
        cases htoken
      · rw [heq] at htoken
        cases htoken
  | finished s' op succeeded =>
      obtain rfl := Option.some.inj hp
      exact hone (by rw [modify_self]; rfl) hself (by intro heq; cases heq) (by intro heq; cases heq)
  | finishedServer s' bytes succeeded closeAfter =>
      by_cases hlast : (!succeeded || closeAfter) = true
      · rw [if_pos hlast]
        exact hone rfl trivial (by intro heq; cases heq) (by intro heq; cases heq)
      · rw [if_neg hlast]
        have hflags : succeeded = true ∧ closeAfter = false := by simpa using hlast
        exact hone rfl (hself hflags.1 hflags.2) (by intro heq; cases heq) (by intro heq; cases heq)
  | disconnected hstarted =>
      exact h.same rfl (fun q hq => absurd hq List.not_mem_nil)
        fun q hq => absurd hq List.not_mem_nil
  | @disconnecting s' hstarted =>
      obtain rfl := Option.some.inj hp
      refine ⟨?_, fun q hq hs => ?_, fun q hq hs => ?_⟩
      · rw [modify_self]
        exact ⟨hrecord.history, fun hopen => (Bool.false_ne_true hopen.symm).elim, hrecord.sent,
          hrecord.last, hrecord.caught⟩
      · rw [modify_self]
        rcases Multiset.mem_add.1 hq with hq | hq
        · rw [List.mem_singleton.1 hq]
          trivial
        · exact (h.knows q (Multiset.mem_cons_of_mem hq) hs).congr rfl rfl
      · rw [modify_self]
  | closed s' =>
      obtain rfl := Option.some.inj hp
      have hstarted := h.closing _ (Multiset.mem_cons_self _ R) (Or.inl rfl)
      refine h.same (by rw [modify_self]; rfl) (fun q hq _ => ?_) fun _ _ _ => hstarted
      rw [List.mem_singleton.1 hq]
      trivial
  | drained s' =>
      obtain rfl := Option.some.inj hp
      have hstarted := h.closing _ (Multiset.mem_cons_self _ R) (Or.inr rfl)
      refine ⟨?_, fun q hq hs => ?_, fun q hq hs => ?_⟩
      · rw [drainQueue, modify_self]
        exact hrecord.drain hstarted _
      · rw [drainQueue, modify_self]
        rcases Multiset.mem_add.1 hq with hq | hq
        · obtain ⟨item, -, rfl⟩ := List.mem_map.1 hq
          trivial
        · exact (h.knows q (Multiset.mem_cons_of_mem hq) hs).congr rfl rfl
      · rw [drainQueue, modify_self]
        exact hstarted
  | drainedServer s' bytes =>
      exact h.same rfl (fun q hq => absurd hq List.not_mem_nil)
        fun q hq => absurd hq List.not_mem_nil

end Steps

/-! ### Every reachable state -/

section Reachable

variable {config : ServerConfig} {sh : Shared ι} {P : Multiset (Action ι)}

theorem Reachable.streams (h : Reachable config sh P) (s : ι) : Stream sh P s := by
  refine (h.invariant (I := fun sh P => Pipeline sh P s ∧ Stream sh P s) ⟨?_, ?_⟩
    fun hstep hI => ⟨hI.1.step hstep, hI.2.step hstep hI.1⟩).2
  · exact ⟨Nat.zero_le _, fun hs => (Bool.false_ne_true hs).elim, fun _ => rfl, fun _ => Or.inl rfl⟩
  · refine ⟨⟨List.prefix_refl _, fun _ => rfl, List.prefix_refl _, ?_, fun _ => ⟨rfl, ?_⟩⟩, ?_, ?_⟩
    · exact fun item hitem => absurd hitem List.not_mem_nil
    · exact fun item hitem => absurd hitem List.not_mem_nil
    · intro q hq hs
      rw [Multiset.mem_singleton.1 hq] at hs
      cases hs
    · intro q hq hs
      rw [Multiset.mem_singleton.1 hq] at hs
      rcases hs with hs | hs <;> cases hs

/-- What is on the wire comes from what was accepted. -/
theorem Reachable.wire_begins (h : Reachable config sh P) (s : ι) :
    (sh.sessions s).wire <+: stream (sh.sessions s).pushed := by
  have hrecord := (h.streams s).record
  exact hrecord.sent.trans (stream_mono ((List.prefix_append _ _).trans hrecord.history))

/-- An item behind a last one has not been taken off the queue. -/
theorem Reachable.popped_prefix (h : Reachable config sh P) {s : ι}
    {before after : List OutboundItem} {item : OutboundItem}
    (hpushed : (sh.sessions s).pushed = before ++ item :: after) (hlast : item.closeAfter = true) :
    (sh.sessions s).popped <+: before ++ [item] := by
  have hrecord := (h.streams s).record
  have hpopped : (sh.sessions s).popped <+: before ++ [item] ++ after := by
    rw [List.append_assoc, List.singleton_append, ← hpushed]
    exact (List.prefix_append _ _).trans hrecord.history
  rcases List.prefix_or_prefix_of_prefix hpopped (List.prefix_append _ _) with hle | ⟨rest, hrest⟩
  · exact hle
  · rcases List.eq_nil_or_concat rest with rfl | ⟨rest', item', rfl⟩
    · rw [← hrest, List.append_nil]
    · -- then the last item is not the one taken off last
      have hmem : item ∈ (sh.sessions s).popped.dropLast := by
        rw [← hrest, List.concat_eq_append, ← List.append_assoc, List.dropLast_concat]
        simp
      rw [hrecord.last item hmem] at hlast
      cases hlast

/-- Whoever leaves items in the queue of a live session leaves someone to go on with them. -/
theorem Reachable.wakeUp (h : Reachable config sh P) {s : ι}
    (hlive : (sh.sessions s).disconnectStarted = false) (hqueue : (sh.sessions s).sendQueue ≠ []) :
    ∃ p ∈ P, p.token? = some s ∨ p = .disconnect s := by
  have hpipe := h.pipeline s
  have hactive : (sh.sessions s).writeActive = true := by
    cases hidle : (sh.sessions s).writeActive with
    | true => rfl
    | false => exact absurd (hpipe.idle hidle) hqueue
  rcases hpipe.awake hactive with hone | hpending | hstarted
  · by_contra hnone
    have hzero : weight (token s) P = 0 := by
      refine weight_eq_zero fun p hp => if_neg fun htoken => hnone ⟨p, hp, Or.inl htoken⟩
    omega
  · exact ⟨_, hpending, Or.inr rfl⟩
  · rw [hlive] at hstarted
    cases hstarted

end Reachable

/-- The session of a write in flight. -/
def Action.inFlight? : Action ι → Option ι
  | .inFlight s _ => some s
  | _ => none

/-- **The wire of a session is an in-order, gap-free stream.**  In every reachable state at most one
write of a session is in flight; its wire is a prefix of the bytes of the items accepted, in their
order, and of those up to the first item that is to be the last; and when items wait in the queue of
a live session, some thread or write holds its token or is about to disconnect it. -/
theorem wire_stream (config : ServerConfig) (moves : List (ℕ × Choice ι))
    {c : Config (Shared ι) (Action ι)} (hrun : (program config).run moves start = some c) (s : ι) :
    c.pending.countP (fun p => p.inFlight? = some s) ≤ 1 ∧
    (c.shared.sessions s).wire <+: stream (c.shared.sessions s).pushed ∧
    (∀ before item after, (c.shared.sessions s).pushed = before ++ item :: after →
      item.closeAfter = true → (c.shared.sessions s).wire <+: stream (before ++ [item])) ∧
    ((c.shared.sessions s).disconnectStarted = false → (c.shared.sessions s).sendQueue ≠ [] →
      ∃ p ∈ c.pending, p.token? = some s ∨ p = .disconnect s) := by
  have h : Reachable config c.shared c.pending := reachable_of_run hrun
  refine ⟨?_, h.wire_begins s, fun before item after hpushed hlast => ?_, h.wakeUp⟩
  · have htoken : ∀ p : Action ι, p.inFlight? = some s → 1 ≤ token s p := by
      intro p hp
      cases p with
      | inFlight s' op =>
          obtain rfl := Option.some.inj hp
          rw [token_self rfl]
      | _ => cases hp
    have hone := (h.pipeline s).atMostOne
    have hle := countP_le_weight htoken c.pending
    split at hone <;> omega
  · exact (h.streams s).record.sent.trans (stream_mono (h.popped_prefix hpushed hlast))

/-- Two items are queued, and `WSASend` fails for the first of them. -/
def failedWrite : List (ℕ × Choice Bool) :=
  [(0, .enqueuer false shortItem), (0, .enqueuer false shortItem), (1, .succeeds), (2, .succeeds),
    (1, .succeeds), (1, .succeeds), (1, .succeeds), (1, .fails), (1, .succeeds), (1, .succeeds)]

/-- Behind it the second item waits, and nobody is going to start a write for it. -/
theorem failedWrite_waits : ∃ c, (program {}).run failedWrite start = some c ∧
    (c.shared.sessions false).disconnectStarted = false ∧ (c.shared.sessions false).sendQueue ≠ [] ∧
    ∀ p ∈ c.pending, p.token? ≠ some false :=
  ⟨_, rfl, rfl, by decide, by decide⟩

/-- The pending disconnect is what the theorem finds there. -/
theorem wire_stream_failedWrite : ∃ c, (program {}).run failedWrite start = some c ∧
    ∃ p ∈ c.pending, p.token? = some false ∨ p = .disconnect false :=
  ⟨_, rfl, (wire_stream {} failedWrite rfl false).2.2.2 rfl (by decide)⟩

end Outbound

end RealtimeEngine
