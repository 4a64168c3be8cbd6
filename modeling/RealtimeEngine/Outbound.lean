/-
**The outbound path, critical section by critical section.**

Every session has a queue of items, and a write pipeline that takes them off it one by one.
`Enqueue` charges an item to the session and to the server and queues it; whoever finds the pipeline
idle starts it.  `StartNextWrite` pops an item, `PostWrite` hands it to `WSASend`, `HandleWrite`
consumes what a completion reports and posts the rest, `FinishWrite` gives the bytes back and starts
the next write.  `Disconnect` drains the queue.

The steps are those of `RealtimeEngine/Interleaving.lean`: a critical section under `send_mutex`, an
update of `metrics.queued_bytes` outside of one, an access to the socket or to `disconnect_started`,
a call of `WSASend` or the completion of one.  A write in flight is a thread of its own.  Threads
that call `Enqueue` or `Disconnect` can start at any time, for any session and item.

The model carries three histories that the code does not have: the items that `Enqueue` has
accepted, those that `StartNextWrite` has taken off the queue, and the bytes transmitted so far.

Main definitions:

* `RealtimeEngine.SendCursor` — how far an item has been transmitted;
* `RealtimeEngine.Outbound.Shared`, `RealtimeEngine.Outbound.Action` — the state and the steps;
* `RealtimeEngine.Outbound.exec`, `RealtimeEngine.Outbound.program` — what each step does.

Main results:

* `RealtimeEngine.SendCursor.remainder_eq` — **the two buffers of a write are what is left of its
  item**, wherever the last completion ended;
* `RealtimeEngine.Outbound.exec_step` — what a step can do, said once;
* `RealtimeEngine.Outbound.Reachable.invariant` — the invariant rule over these steps.
-/

import RealtimeEngine.Basic
import RealtimeEngine.Interleaving

set_option relaxedAutoImplicit false
set_option autoImplicit false

namespace RealtimeEngine

/-! ### Items and cursors -/

/-- `OutboundItem`; the header is what `header_size` keeps of the array. -/
structure OutboundItem where
  header : Bytes
  payload : Bytes
  closeAfter : Bool
  header_le : header.length ≤ 16

namespace OutboundItem

/-- The bytes of the item on the wire. -/
def bytes (item : OutboundItem) : Bytes := item.header ++ item.payload

/-- `item.header_size + item.payload->size()`. -/
def size (item : OutboundItem) : ℕ := item.header.length + item.payload.length

theorem length_bytes (item : OutboundItem) : item.bytes.length = item.size := by
  rw [bytes, size, List.length_append]

end OutboundItem

/-- `SendCursor`. -/
structure SendCursor where
  header : Bytes
  payload : Bytes
  sent : ℕ

namespace SendCursor

/-- `SendCursor::TotalSize`. -/
def totalSize (c : SendCursor) : ℕ := c.header.length + c.payload.length

/-- `SendCursor::Remaining`. -/
def remaining (c : SendCursor) : ℕ := c.totalSize - c.sent

/-- `SendCursor::Consume`. -/
def consume (n : ℕ) (c : SendCursor) : SendCursor :=
  { c with sent := c.sent + if n > c.remaining then c.remaining else n }

/-- `SendCursor::Complete`. -/
def complete (c : SendCursor) : Bool := c.remaining == 0

/-- `SendCursor::HeaderRemainder`. -/
def headerRemainder (c : SendCursor) : Bytes :=
  if c.sent ≥ c.header.length then [] else c.header.drop c.sent

/-- `SendCursor::PayloadRemainder`. -/
def payloadRemainder (c : SendCursor) : Bytes :=
  c.payload.drop (if c.sent > c.header.length then c.sent - c.header.length else 0)

/-- What `PostWrite` puts into the buffers of `WSASend`: their lengths are `ULONG`s. -/
def buffers (c : SendCursor) : Bytes :=
  c.headerRemainder.take (c.headerRemainder.length % 2 ^ 32) ++
    c.payloadRemainder.take (c.payloadRemainder.length % 2 ^ 32)

/-- **The two remainders are what is left**, also when the last completion ended inside the header,
at its end or inside the payload. -/
theorem remainder_eq (c : SendCursor) :
    c.headerRemainder ++ c.payloadRemainder = (c.header ++ c.payload).drop c.sent := by
  rw [headerRemainder, payloadRemainder, List.drop_append]
  by_cases h : c.sent ≥ c.header.length
  · have hnil : c.header.drop c.sent = [] := List.drop_eq_nil_of_le h
    rw [if_pos h, hnil]
    by_cases hgt : c.sent > c.header.length
    · rw [if_pos hgt]
    · have heq : c.sent - c.header.length = 0 := by omega
      rw [if_neg hgt, heq]
  · have hsub : c.sent - c.header.length = 0 := by omega
    rw [if_neg h, if_neg (by omega), hsub]

/-- The buffers start what is left. -/
theorem buffers_prefix (c : SendCursor) (h : c.header.length ≤ 16) :
    c.buffers <+: (c.header ++ c.payload).drop c.sent := by
  have hlen : c.headerRemainder.length ≤ 16 := by
    unfold headerRemainder
    split
    · simp
    · rw [List.length_drop]
      omega
  have hheader : c.headerRemainder.take (c.headerRemainder.length % 2 ^ 32) =
      c.headerRemainder := by
    rw [Nat.mod_eq_of_lt (by omega), List.take_length]
  rw [buffers, hheader, ← remainder_eq]
  exact (List.prefix_append_right_inj _).2 (List.take_prefix _ _)

end SendCursor

/-- `WriteOperation`. -/
structure WriteOperation where
  cursor : SendCursor
  closeAfter : Bool

/-- `WriteOperation::WriteOperation`. -/
def OutboundItem.operation (item : OutboundItem) : WriteOperation :=
  ⟨⟨item.header, item.payload, 0⟩, item.closeAfter⟩

namespace Outbound

open Interleaving

/-! ### State -/

/-- The outbound side of a `ClientSession`, with its histories. -/
structure OutSession where
  disconnectStarted : Bool := false
  socketOpen : Bool := true
  sendQueue : List OutboundItem := []
  queuedBytes : ℕ := 0
  writeActive : Bool := false
  /-- The items `Enqueue` has accepted. -/
  pushed : List OutboundItem := []
  /-- The items `StartNextWrite` has taken off the queue. -/
  popped : List OutboundItem := []
  /-- The bytes transmitted so far. -/
  wire : Bytes := []

variable {ι : Type*} [DecidableEq ι]

/-- What the threads share: `metrics.queued_bytes` and the sessions. -/
structure Shared (ι : Type*) where
  queuedBytes : ℕ := 0
  sessions : ι → OutSession := fun _ => {}

/-- Changing one session. -/
def Shared.modify (sh : Shared ι) (s : ι) (f : OutSession → OutSession) : Shared ι :=
  { sh with sessions := Function.update sh.sessions s (f (sh.sessions s)) }

/-- Subtraction on 64 bits, as `fetch_sub` and `-=` do it. -/
def sub64 (a b : ℕ) : ℕ := if b ≤ a then a - b else (a + 2 ^ 64 - b % 2 ^ 64) % 2 ^ 64

/-- `metrics.queued_bytes.fetch_sub(bytes)`. -/
def Shared.release (sh : Shared ι) (bytes : ℕ) : Shared ι :=
  { sh with queuedBytes := sub64 sh.queuedBytes bytes }

/-- The sum of the sizes of the items. -/
def totalBytes (items : List OutboundItem) : ℕ := (items.map OutboundItem.size).sum

/-! ### Steps -/

/-- Where a thread stands. -/
inductive Action (ι : Type*)
  /-- The callers of `Enqueue` and `Disconnect`. -/
  | outside
  | enqueue (s : ι) (item : OutboundItem)
  | startNextWrite (s : ι)
  /-- `StartNextWrite` before the allocation of the operation. -/
  | allocate (s : ι) (item : OutboundItem)
  /-- The allocation has failed; the session is to be credited. -/
  | unchargeSession (s : ι) (bytes : ℕ)
  /-- The allocation has failed; the server is to be credited. -/
  | unchargeServer (s : ι) (bytes : ℕ)
  | postWrite (s : ι) (op : WriteOperation)
  | wsaSend (s : ι) (op : WriteOperation)
  /-- The write is in flight. -/
  | inFlight (s : ι) (op : WriteOperation)
  | handleWrite (s : ι) (op : WriteOperation) (succeeded : Bool) (bytesTransferred : ℕ)
  | finishWrite (s : ι) (op : WriteOperation) (succeeded : Bool)
  /-- `FinishWrite` behind its critical section. -/
  | finishServer (s : ι) (bytes : ℕ) (succeeded closeAfter : Bool)
  | disconnect (s : ι)
  | closeSocket (s : ι)
  /-- The critical section of `Disconnect`. -/
  | drain (s : ι)
  /-- In it, the update of the server's counter for one item. -/
  | drainServer (s : ι) (bytes : ℕ)

/-- What is left open at a step. -/
inductive Choice (ι : Type*)
  /-- Nothing, or that the allocation or the call of `WSASend` succeeds. -/
  | succeeds
  /-- The allocation or the call of `WSASend` fails. -/
  | fails
  /-- The completion of a write. -/
  | completes (succeeded : Bool) (bytesTransferred : ℕ)
  /-- A thread calls `Enqueue`. -/
  | enqueuer (s : ι) (item : OutboundItem)
  /-- A thread calls `Disconnect`. -/
  | disconnecter (s : ι)

/-- `ReserveGlobalQueued`, and the test of the session's own limit before it. -/
def admits (config : ServerConfig) (sh : Shared ι) (s : ι) (bytes : ℕ) : Bool :=
  !(bytes > config.maxSessionQueuedBytes.toNat ||
    (sh.sessions s).queuedBytes > config.maxSessionQueuedBytes.toNat - bytes ||
    bytes > config.maxGlobalQueuedBytes.toNat ||
    sh.queuedBytes > config.maxGlobalQueuedBytes.toNat - bytes)

/-- The item is accepted by the critical section of `Enqueue`. -/
def accepts (config : ServerConfig) (sh : Shared ι) (s : ι) (item : OutboundItem) : Bool :=
  !(sh.sessions s).disconnectStarted && admits config sh s item.size

/-- The critical section of `Enqueue` when the item is accepted. -/
def push (sh : Shared ι) (s : ι) (item : OutboundItem) : Shared ι :=
  { (sh.modify s fun x =>
      { x with
        queuedBytes := x.queuedBytes + item.size
        sendQueue := x.sendQueue ++ [item]
        writeActive := true
        pushed := x.pushed ++ [item] }) with
    queuedBytes := sh.queuedBytes + item.size }

/-- The critical section of `StartNextWrite` when there is an item. -/
def pop (sh : Shared ι) (s : ι) (item : OutboundItem) (queue : List OutboundItem) : Shared ι :=
  sh.modify s fun x => { x with sendQueue := queue, popped := x.popped ++ [item] }

/-- The critical section of `Disconnect`, as far as the session is concerned. -/
def drainQueue (sh : Shared ι) (s : ι) : Shared ι :=
  sh.modify s fun x =>
    { x with
      queuedBytes := x.sendQueue.foldl (fun bytes item => sub64 bytes item.size) x.queuedBytes
      sendQueue := [] }

/-- `HandleWrite`. -/
def handleWriteNext (s : ι) (op : WriteOperation) (succeeded : Bool) (n : ℕ) : Action ι :=
  if !succeeded || n == 0 then .finishWrite s op false
  else
    let op' : WriteOperation := { op with cursor := op.cursor.consume n }
    if !op'.cursor.complete then .postWrite s op' else .finishWrite s op' true

/-- What each step does, and what its thread does next. -/
def exec (config : ServerConfig) (x : Choice ι) (p : Action ι) (sh : Shared ι) :
    Option (Outcome (Shared ι) (Action ι)) :=
  match p with
  | .outside =>
      match x with
      | .enqueuer s item => some ⟨sh, [.outside], [[.enqueue s item]]⟩
      | .disconnecter s => some ⟨sh, [.outside], [[.disconnect s]]⟩
      | _ => none
  | .enqueue s item =>
      if accepts config sh s item then
        some ⟨push sh s item,
          if (sh.sessions s).writeActive then [] else [.startNextWrite s], []⟩
      else
        -- `SendControl` and `SendRaw` disconnect when a last item is refused
        some ⟨sh, if item.closeAfter then [.disconnect s] else [], []⟩
  | .startNextWrite s =>
      match (sh.sessions s).sendQueue with
      | [] => some ⟨sh.modify s fun x => { x with writeActive := false }, [], []⟩
      | item :: queue => some ⟨pop sh s item queue, [.allocate s item], []⟩
  | .allocate s item =>
      match x with
      | .fails => some ⟨sh, [.unchargeSession s item.size], []⟩
      | _ => some ⟨sh, [.postWrite s item.operation], []⟩
  | .unchargeSession s bytes =>
      some ⟨sh.modify s fun x => { x with queuedBytes := sub64 x.queuedBytes bytes },
        [.unchargeServer s bytes], []⟩
  | .unchargeServer s bytes => some ⟨sh.release bytes, [.disconnect s], []⟩
  | .postWrite s op =>
      some ⟨sh, [if (sh.sessions s).socketOpen then .wsaSend s op else .finishWrite s op false],
        []⟩
  | .wsaSend s op =>
      match x with
      | .fails => some ⟨sh, [.finishWrite s op false], []⟩
      | _ => some ⟨sh, [], [[.inFlight s op]]⟩
  | .inFlight s op =>
      match x with
      | .completes succeeded n =>
          if n ≤ op.cursor.buffers.length then
            some ⟨sh.modify s fun x => { x with wire := x.wire ++ op.cursor.buffers.take n },
              [.handleWrite s op succeeded n], []⟩
          else none
      | _ => none
  | .handleWrite s op succeeded n => some ⟨sh, [handleWriteNext s op succeeded n], []⟩
  | .finishWrite s op succeeded =>
      some ⟨sh.modify s fun x =>
          { x with
            queuedBytes :=
              if op.cursor.totalSize > x.queuedBytes then 0
              else x.queuedBytes - op.cursor.totalSize },
        [.finishServer s op.cursor.totalSize succeeded op.closeAfter], []⟩
  | .finishServer s bytes succeeded closeAfter =>
      some ⟨sh.release bytes,
        [if !succeeded || closeAfter then .disconnect s else .startNextWrite s], []⟩
  | .disconnect s =>
      if (sh.sessions s).disconnectStarted then some ⟨sh, [], []⟩
      else
        some ⟨sh.modify s fun x => { x with disconnectStarted := true }, [.closeSocket s], []⟩
  | .closeSocket s =>
      some ⟨sh.modify s fun x => { x with socketOpen := false }, [.drain s], []⟩
  | .drain s =>
      -- only this thread sees the session before the section ends, but the others see each update
      -- of the server's counter
      some ⟨drainQueue sh s, (sh.sessions s).sendQueue.map fun item => .drainServer s item.size, []⟩
  | .drainServer _ bytes => some ⟨sh.release bytes, [], []⟩

/-- The outbound path as a program of interleaving threads. -/
def program (config : ServerConfig) : Program (Shared ι) (Action ι) (Choice ι) := ⟨exec config⟩

/-- The pool before any thread has been started. -/
def start : Config (Shared ι) (Action ι) := ⟨{}, [[.outside]]⟩

/-! ### Changing one session -/

@[simp] theorem modify_self (sh : Shared ι) (s : ι) (f : OutSession → OutSession) :
    (sh.modify s f).sessions s = f (sh.sessions s) := by
  simp [Shared.modify]

theorem modify_of_ne (sh : Shared ι) {s s' : ι} (h : s' ≠ s) (f : OutSession → OutSession) :
    (sh.modify s f).sessions s' = sh.sessions s' := by
  simp [Shared.modify, h]

@[simp] theorem modify_queuedBytes (sh : Shared ι) (s : ι) (f : OutSession → OutSession) :
    (sh.modify s f).queuedBytes = sh.queuedBytes := rfl

theorem sub64_eq {a b : ℕ} (h : b ≤ a) : sub64 a b = a - b := if_pos h

@[simp] theorem totalBytes_nil : totalBytes [] = 0 := rfl

@[simp] theorem totalBytes_cons (item : OutboundItem) (items : List OutboundItem) :
    totalBytes (item :: items) = item.size + totalBytes items := by
  simp [totalBytes]

@[simp] theorem totalBytes_append (items items' : List OutboundItem) :
    totalBytes (items ++ items') = totalBytes items + totalBytes items' := by
  simp [totalBytes]

omit [DecidableEq ι] in
/-- What `accepts` asks for. -/
theorem accepts_iff {config : ServerConfig} {sh : Shared ι} {s : ι} {item : OutboundItem} :
    accepts config sh s item = true ↔
      (sh.sessions s).disconnectStarted = false ∧
        item.size ≤ config.maxSessionQueuedBytes.toNat ∧
        (sh.sessions s).queuedBytes ≤ config.maxSessionQueuedBytes.toNat - item.size ∧
        item.size ≤ config.maxGlobalQueuedBytes.toNat ∧
        sh.queuedBytes ≤ config.maxGlobalQueuedBytes.toNat - item.size := by
  simp [accepts, admits, and_assoc]

/-- The drain gives back what the queue holds. -/
theorem drainLoop_eq (items : List OutboundItem) {bytes : ℕ} (h : totalBytes items ≤ bytes) :
    items.foldl (fun bytes item => sub64 bytes item.size) bytes = bytes - totalBytes items := by
  induction items generalizing bytes with
  | nil => simp
  | cons item items ih =>
      rw [totalBytes_cons] at h
      rw [List.foldl_cons, sub64_eq (by omega), ih (by omega), totalBytes_cons, Nat.sub_sub]

/-! ### What a step can do -/

/-- The session the action belongs to. -/
def Action.session? : Action ι → Option ι
  | .outside => none
  | .enqueue s _ | .startNextWrite s | .allocate s _ | .unchargeSession s _ | .unchargeServer s _
  | .postWrite s _ | .wsaSend s _ | .inFlight s _ | .handleWrite s _ _ _ | .finishWrite s _ _
  | .finishServer s _ _ _ | .disconnect s | .closeSocket s | .drain s | .drainServer s _ => some s

/-- A call of `Enqueue` or `Disconnect` that has not begun, or where such calls come from. -/
def Action.caller : Action ι → Bool
  | .outside | .enqueue _ _ | .disconnect _ => true
  | _ => false

section Steps

variable (config : ServerConfig) (sh : Shared ι)

/-- A step of an action: the state behind it, and the actions that are pending instead of it. -/
inductive Step : Action ι → Shared ι → List (Action ι) → Prop
  | enqueuer (s : ι) (item : OutboundItem) : Step .outside sh [.outside, .enqueue s item]
  | disconnecter (s : ι) : Step .outside sh [.outside, .disconnect s]
  | accepted {s : ι} {item : OutboundItem} (h : accepts config sh s item = true) :
      Step (.enqueue s item) (push sh s item)
        (if (sh.sessions s).writeActive then [] else [.startNextWrite s])
  | refused {s : ι} {item : OutboundItem} (h : accepts config sh s item = false) :
      Step (.enqueue s item) sh (if item.closeAfter then [.disconnect s] else [])
  | idle {s : ι} (h : (sh.sessions s).sendQueue = []) :
      Step (.startNextWrite s) (sh.modify s fun x => { x with writeActive := false }) []
  | popped {s : ι} {item : OutboundItem} {queue : List OutboundItem}
      (h : (sh.sessions s).sendQueue = item :: queue) :
      Step (.startNextWrite s) (pop sh s item queue) [.allocate s item]
  | allocated (s : ι) (item : OutboundItem) :
      Step (.allocate s item) sh [.postWrite s item.operation]
  | notAllocated (s : ι) (item : OutboundItem) :
      Step (.allocate s item) sh [.unchargeSession s item.size]
  | unchargedSession (s : ι) (bytes : ℕ) :
      Step (.unchargeSession s bytes)
        (sh.modify s fun x => { x with queuedBytes := sub64 x.queuedBytes bytes })
        [.unchargeServer s bytes]
  | unchargedServer (s : ι) (bytes : ℕ) :
      Step (.unchargeServer s bytes) (sh.release bytes) [.disconnect s]
  | posting {s : ι} (op : WriteOperation) (h : (sh.sessions s).socketOpen = true) :
      Step (.postWrite s op) sh [.wsaSend s op]
  | notPosted {s : ι} (op : WriteOperation) (h : (sh.sessions s).socketOpen = false) :
      Step (.postWrite s op) sh [.finishWrite s op false]
  | sent (s : ι) (op : WriteOperation) : Step (.wsaSend s op) sh [.inFlight s op]
  | notSent (s : ι) (op : WriteOperation) : Step (.wsaSend s op) sh [.finishWrite s op false]
  | completed (s : ι) {op : WriteOperation} (succeeded : Bool) {n : ℕ}
      (h : n ≤ op.cursor.buffers.length) :
      Step (.inFlight s op)
        (sh.modify s fun x => { x with wire := x.wire ++ op.cursor.buffers.take n })
        [.handleWrite s op succeeded n]
  | handled (s : ι) (op : WriteOperation) (succeeded : Bool) (n : ℕ) :
      Step (.handleWrite s op succeeded n) sh [handleWriteNext s op succeeded n]
  | finished (s : ι) (op : WriteOperation) (succeeded : Bool) :
      Step (.finishWrite s op succeeded)
        (sh.modify s fun x =>
          { x with
            queuedBytes :=
              if op.cursor.totalSize > x.queuedBytes then 0
              else x.queuedBytes - op.cursor.totalSize })
        [.finishServer s op.cursor.totalSize succeeded op.closeAfter]
  | finishedServer (s : ι) (bytes : ℕ) (succeeded closeAfter : Bool) :
      Step (.finishServer s bytes succeeded closeAfter) (sh.release bytes)
        [if !succeeded || closeAfter then .disconnect s else .startNextWrite s]
  | disconnected {s : ι} (h : (sh.sessions s).disconnectStarted = true) :
      Step (.disconnect s) sh []
  | disconnecting {s : ι} (h : (sh.sessions s).disconnectStarted = false) :
      Step (.disconnect s) (sh.modify s fun x => { x with disconnectStarted := true })
        [.closeSocket s]
  | closed (s : ι) :
      Step (.closeSocket s) (sh.modify s fun x => { x with socketOpen := false }) [.drain s]
  | drained (s : ι) :
      Step (.drain s) (drainQueue sh s)
        ((sh.sessions s).sendQueue.map fun item => .drainServer s item.size)
  | drainedServer (s : ι) (bytes : ℕ) : Step (.drainServer s bytes) (sh.release bytes) []

end Steps

/-- Every step of the program is one of these. -/
theorem exec_step {config : ServerConfig} {x : Choice ι} {p : Action ι} {sh : Shared ι}
    {o : Outcome (Shared ι) (Action ι)} (h : exec config x p sh = some o) :
    Step config sh p o.shared (o.next ++ o.forked.flatten) := by
  cases p with
  | outside =>
      cases x with
      | enqueuer s item =>
          obtain rfl := Option.some.inj h
          exact .enqueuer s item
      | disconnecter s =>
          obtain rfl := Option.some.inj h
          exact .disconnecter s
      | _ => cases h
  | enqueue s item =>
      simp only [exec] at h
      split at h
      · next hacc =>
          obtain rfl := Option.some.inj h
          rw [List.flatten_nil, List.append_nil]
          exact .accepted hacc
      · next hacc =>
          obtain rfl := Option.some.inj h
          rw [List.flatten_nil, List.append_nil]
          exact .refused (by simpa using hacc)
  | startNextWrite s =>
      simp only [exec] at h
      split at h
      · next hqueue =>
          obtain rfl := Option.some.inj h
          exact .idle hqueue
      · next item queue hqueue =>
          obtain rfl := Option.some.inj h
          exact .popped hqueue
  | allocate s item =>
      cases x with
      | fails =>
          obtain rfl := Option.some.inj h
          exact .notAllocated s item
      | _ =>
          obtain rfl := Option.some.inj h
          exact .allocated s item
  | unchargeSession s bytes =>
      obtain rfl := Option.some.inj h
      exact .unchargedSession s bytes
  | unchargeServer s bytes =>
      obtain rfl := Option.some.inj h
      exact .unchargedServer s bytes
  | postWrite s op =>
      obtain rfl := Option.some.inj h
      cases hsocket : (sh.sessions s).socketOpen with
      | true => simpa [hsocket] using .posting op hsocket
      | false => simpa [hsocket] using .notPosted op hsocket
  | wsaSend s op =>
      cases x with
      | fails =>
          obtain rfl := Option.some.inj h
          exact .notSent s op
      | _ =>
          obtain rfl := Option.some.inj h
          exact .sent s op
  | inFlight s op =>
      cases x with
      | completes succeeded n =>
          simp only [exec] at h
          split at h
          · next hn =>
              obtain rfl := Option.some.inj h
              exact .completed s succeeded hn
          · cases h
      | _ => cases h
  | handleWrite s op succeeded n =>
      obtain rfl := Option.some.inj h
      exact .handled s op succeeded n
  | finishWrite s op succeeded =>
      obtain rfl := Option.some.inj h
      exact .finished s op succeeded
  | finishServer s bytes succeeded closeAfter =>
      obtain rfl := Option.some.inj h
      exact .finishedServer s bytes succeeded closeAfter
  | disconnect s =>
      simp only [exec] at h
      split at h
      · next hstarted =>
          obtain rfl := Option.some.inj h
          exact .disconnected hstarted
      · next hstarted =>
          obtain rfl := Option.some.inj h
          exact .disconnecting (by simpa using hstarted)
  | closeSocket s =>
      obtain rfl := Option.some.inj h
      exact .closed s
  | drain s =>
      obtain rfl := Option.some.inj h
      rw [List.flatten_nil, List.append_nil]
      exact .drained s
  | drainServer s bytes =>
      obtain rfl := Option.some.inj h
      exact .drainedServer s bytes

/-- And each of these is a step of the program. -/
theorem Step.exec {config : ServerConfig} {sh sh' : Shared ι} {p : Action ι}
    {new : List (Action ι)} (hstep : Step config sh p sh' new) :
    ∃ x o, Outbound.exec config x p sh = some o ∧ o.shared = sh' ∧
      o.next ++ o.forked.flatten = new := by
  cases hstep with
  | enqueuer s item => exact ⟨.enqueuer s item, _, rfl, rfl, rfl⟩
  | disconnecter s => exact ⟨.disconnecter s, _, rfl, rfl, rfl⟩
  | accepted h => exact ⟨.succeeds, _, if_pos h, rfl, List.append_nil _⟩
  | refused h => exact ⟨.succeeds, _, if_neg (by simp [h]), rfl, List.append_nil _⟩
  | @idle s h =>
      exact ⟨.succeeds, ⟨sh.modify s fun x => { x with writeActive := false }, [], []⟩,
        by simp only [Outbound.exec, h], rfl, rfl⟩
  | @popped s item queue h =>
      exact ⟨.succeeds, ⟨pop sh s item queue, [.allocate s item], []⟩,
        by simp only [Outbound.exec, h], rfl, rfl⟩
  | posting op h => exact ⟨.succeeds, _, rfl, rfl, by simp [h]⟩
  | notPosted op h => exact ⟨.succeeds, _, rfl, rfl, by simp [h]⟩
  | notAllocated s item => exact ⟨.fails, _, rfl, rfl, rfl⟩
  | notSent s op => exact ⟨.fails, _, rfl, rfl, rfl⟩
  | completed s succeeded h => exact ⟨.completes succeeded _, _, if_pos h, rfl, rfl⟩
  | disconnected h => exact ⟨.succeeds, _, if_pos h, rfl, rfl⟩
  | disconnecting h => exact ⟨.succeeds, _, if_neg (by simp [h]), rfl, rfl⟩
  | drained s => exact ⟨.succeeds, _, rfl, rfl, List.append_nil _⟩
  | _ => exact ⟨.succeeds, _, rfl, rfl, rfl⟩

/-- What follows an action belongs to the same session, and only a caller calls `Enqueue`. -/
theorem Step.session {config : ServerConfig} {sh sh' : Shared ι} {p : Action ι}
    {new : List (Action ι)} (hstep : Step config sh p sh' new) (hp : p ≠ .outside) :
    ∀ q ∈ new, q.session? = p.session? ∧ ∀ s item, q ≠ .enqueue s item := by
  intro q hq
  cases hstep with
  | enqueuer s item => exact absurd rfl hp
  | disconnecter s => exact absurd rfl hp
  | accepted hacc =>
      split at hq
      · cases hq
      · rw [List.mem_singleton.1 hq]
        exact ⟨rfl, (by intro _ _ heq; cases heq)⟩
  | refused hacc =>
      split at hq
      · rw [List.mem_singleton.1 hq]
        exact ⟨rfl, (by intro _ _ heq; cases heq)⟩
      · cases hq
  | handled s op succeeded n =>
      rw [List.mem_singleton.1 hq, handleWriteNext]
      split
      · exact ⟨rfl, (by intro _ _ heq; cases heq)⟩
      · dsimp only
        split
        · exact ⟨rfl, (by intro _ _ heq; cases heq)⟩
        · exact ⟨rfl, (by intro _ _ heq; cases heq)⟩
  | finishedServer s bytes succeeded closeAfter =>
      rw [List.mem_singleton.1 hq]
      split
      · exact ⟨rfl, (by intro _ _ heq; cases heq)⟩
      · exact ⟨rfl, (by intro _ _ heq; cases heq)⟩
  | drained s =>
      obtain ⟨item, -, rfl⟩ := List.mem_map.1 hq
      exact ⟨rfl, (by intro _ _ heq; cases heq)⟩
  | _ =>
      first
        | (rw [List.mem_singleton.1 hq]; exact ⟨rfl, (by intro _ _ heq; cases heq)⟩)
        | cases hq

/-- **A step leaves the sessions of other actions alone**: only a new caller can turn up there. -/
theorem Step.frame {config : ServerConfig} {sh sh' : Shared ι} {p : Action ι}
    {new : List (Action ι)} (hstep : Step config sh p sh' new) {s : ι} (hp : p.session? ≠ some s) :
    sh'.sessions s = sh.sessions s ∧
      ∀ q ∈ new, q.session? = some s → (∃ item, q = .enqueue s item) ∨ q = .disconnect s := by
  by_cases houtside : p = .outside
  · subst houtside
    cases hstep with
    | enqueuer s' item =>
        refine ⟨rfl, fun q hq hs => ?_⟩
        rcases List.mem_pair.1 hq with rfl | rfl
        · cases hs
        · obtain rfl := Option.some.inj hs
          exact Or.inl ⟨item, rfl⟩
    | disconnecter s' =>
        refine ⟨rfl, fun q hq hs => ?_⟩
        rcases List.mem_pair.1 hq with rfl | rfl
        · cases hs
        · obtain rfl := Option.some.inj hs
          exact Or.inr rfl
  · refine ⟨?_, fun q hq hs => absurd ((hstep.session houtside q hq).1.symm.trans hs) hp⟩
    have hne : ∀ {s' : ι}, p.session? = some s' → s ≠ s' := by
      intro s' hs' heq
      exact hp (heq ▸ hs')
    cases hstep with
    | accepted hacc => simp [push, modify_of_ne sh (hne rfl)]
    | _ => first | rfl | exact modify_of_ne sh (hne rfl) _

/-- Only an accepted item changes what was accepted. -/
theorem Step.pushed {config : ServerConfig} {sh sh' : Shared ι} {p : Action ι}
    {new : List (Action ι)} (hstep : Step config sh p sh' new) (s : ι) :
    (sh'.sessions s).pushed = (sh.sessions s).pushed ∨
      ∃ item, p = .enqueue s item ∧ (sh'.sessions s).pushed = (sh.sessions s).pushed ++ [item] := by
  by_cases hp : p.session? = some s
  · cases hstep with
    | enqueuer s' item => exact Or.inl rfl
    | disconnecter s' => exact Or.inl rfl
    | @accepted s' item hacc =>
        obtain rfl := Option.some.inj hp
        exact Or.inr ⟨item, rfl, by simp [push]⟩
    | _ =>
        refine Or.inl ?_
        obtain rfl := Option.some.inj hp
        first | rfl | simp [pop, drainQueue]
  · rw [(hstep.frame hp).1]
    exact Or.inl rfl

/-- Only `Disconnect` changes `disconnect_started`. -/
theorem Step.disconnectStarted {config : ServerConfig} {sh sh' : Shared ι} {p : Action ι}
    {new : List (Action ι)} (hstep : Step config sh p sh' new) {s : ι}
    (hp : p = .disconnect s → (sh.sessions s).disconnectStarted = true) :
    (sh'.sessions s).disconnectStarted = (sh.sessions s).disconnectStarted := by
  by_cases hs : p.session? = some s
  · cases hstep with
    | @disconnecting s' hstarted =>
        obtain rfl := Option.some.inj hs
        rw [hp rfl] at hstarted
        cases hstarted
    | accepted hacc =>
        obtain rfl := Option.some.inj hs
        simp [push]
    | enqueuer s' item => rfl
    | disconnecter s' => rfl
    | _ =>
        obtain rfl := Option.some.inj hs
        first | rfl | simp [pop, drainQueue]
  · rw [(hstep.frame hs).1]

/-- What the outbound path can reach. -/
def Reachable (config : ServerConfig) : Shared ι → Multiset (Action ι) → Prop :=
  (program config).Reaches {} {.outside}

/-- **The invariant rule of the outbound path.** -/
theorem Reachable.invariant {config : ServerConfig} {I : Shared ι → Multiset (Action ι) → Prop}
    (hstart : I {} {.outside})
    (hstep : ∀ {sh sh' p new R}, Step config sh p sh' new → I sh (p ::ₘ R) → I sh' (new + R))
    {sh : Shared ι} {P : Multiset (Action ι)} (h : Reachable config sh P) : I sh P := by
  induction h with
  | start => exact hstart
  | step _ hexec ih =>
      rw [Multiset.coe_add]
      exact hstep (exec_step hexec) ih

/-- What can be reached from there by one of the steps. -/
theorem Reachable.step {config : ServerConfig} {sh sh' : Shared ι} {p : Action ι}
    {new : List (Action ι)} {R : Multiset (Action ι)} (h : Reachable config sh (p ::ₘ R))
    (hstep : Step config sh p sh' new) : Reachable config sh' (new + R) := by
  obtain ⟨x, o, hexec, rfl, rfl⟩ := hstep.exec
  have hreach := Program.Reaches.step (P := program config) h hexec
  rwa [Multiset.coe_add] at hreach

theorem reachable_of_run {config : ServerConfig} {moves : List (ℕ × Choice ι)}
    {c : Config (Shared ι) (Action ι)} (hrun : (program config).run moves start = some c) :
    Reachable config c.shared c.pending :=
  Program.run_reaches hrun

end Outbound

end RealtimeEngine
