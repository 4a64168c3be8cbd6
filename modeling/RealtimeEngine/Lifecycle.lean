/-
**The life of the sessions and of their operations.**

An accept, a read or a write is posted to the kernel and comes back as a completion, which a worker
handles: `HandleAccept` makes a session and posts its first read, `HandleRead` posts the next one, a
write is followed by the next item of the queue.  `Disconnect` ends a session, and `Stop` ends all
of them and waits until `outstanding_operations` is zero.

The steps are the accesses of `running`, of `metrics.active_connections`, of
`outstanding_operations`, of the shards of the registry and of the fields of a session that other
threads use; the calls of `AcceptEx`, `WSARecv` and `WSASend` and their completions; the allocations
and releases of operation contexts; and the calls of the handlers.  An operation in the kernel is a
thread of its own, which a completion wakes up.

Whether a call succeeds is left open at every step, and so is what the bytes of a read lead to:
`ProcessIncoming` may deliver any number of messages, and close, disconnect or answer its session in
between.  The timer may look at a registered session at any time, also while `Stop` is under way,
which only adds runs.  What `Stop` does behind its wait is left out, and the handlers are those that
were registered before `Start`.

The model carries histories that the code does not have: the sessions that were inserted, how often
a context was released, and the calls of the handlers.

Main definitions:

* `RealtimeEngine.Lifecycle.Server`, `RealtimeEngine.Lifecycle.Task` — the state and the steps;
* `RealtimeEngine.Lifecycle.exec`, `RealtimeEngine.Lifecycle.program` — what each step does;
* `RealtimeEngine.Lifecycle.Moves`, `RealtimeEngine.Lifecycle.Step` — the same as a relation.

Main results:

* `RealtimeEngine.Lifecycle.exec_step` — every step of the program is one of the relation.
-/

import RealtimeEngine.Outbound

set_option relaxedAutoImplicit false
set_option autoImplicit false

namespace RealtimeEngine

namespace Lifecycle

open Interleaving

/-! ### State -/

/-- A call of one of the handlers. -/
inductive Callback
  | connect
  | message
  | disconnect
  deriving DecidableEq, Repr

/-- A `ClientSession`, as far as its life is concerned. -/
structure Session where
  /-- `HandleAccept` has inserted the session into the registry. -/
  inserted : Bool := false
  /-- The session is in the registry. -/
  registered : Bool := false
  disconnectStarted : Bool := false
  socketOpen : Bool := true
  /-- The `close_after` of the items. -/
  sendQueue : List Bool := []
  writeActive : Bool := false
  /-- The calls of the handlers that were started. -/
  callbacks : List Callback := []

/-- What the threads share. -/
structure Server where
  running : Bool := true
  /-- `listen_socket` is open. -/
  listening : Bool := true
  /-- `metrics.active_connections`, unwrapped. -/
  activeConnections : ℤ := 0
  outstandingOperations : ℕ := 0
  nextSessionId : ℕ := 1
  /-- The operation contexts allocated so far. -/
  contexts : ℕ := 0
  /-- How often a context was released. -/
  released : ℕ → ℕ := fun _ => 0
  sessions : ℕ → Session := fun _ => {}

/-- Changing one session. -/
def Server.modify (sv : Server) (s : ℕ) (f : Session → Session) : Server :=
  { sv with sessions := Function.update sv.sessions s (f (sv.sessions s)) }

/-- `metrics.active_connections.load()`. -/
def Server.loadActive (sv : Server) : ℕ := (sv.activeConnections % 2 ^ 64).toNat

/-- `TrackOperation`. -/
def Server.trackOperation (sv : Server) : Server :=
  { sv with outstandingOperations := sv.outstandingOperations + 1 }

/-- `CompleteOperation`. -/
def Server.completeOperation (sv : Server) : Server :=
  { sv with outstandingOperations := Outbound.sub64 sv.outstandingOperations 1 }

/-- The allocation of a context; its name is the number of contexts before it. -/
def Server.allocate (sv : Server) : Server := { sv with contexts := sv.contexts + 1 }

/-- The release of a context. -/
def Server.release (sv : Server) (op : ℕ) : Server :=
  { sv with released := Function.update sv.released op (sv.released op + 1) }

/-- A handler is called. -/
def Server.call (sv : Server) (s : ℕ) (callback : Callback) : Server :=
  sv.modify s fun x => { x with callbacks := x.callbacks ++ [callback] }

/-- The shards of the registry. -/
def shardCount : ℕ := 32

/-- The sessions in a shard of the registry. -/
def Server.shard (sv : Server) (k : ℕ) : List ℕ :=
  (List.range sv.nextSessionId).filter fun s =>
    (sv.sessions s).registered && s % shardCount == k

/-! ### Steps -/

/-- Where a thread stands.  `posted` says whether its operation has been in the kernel before. -/
inductive Task
  /-- The callers of `Send`, `Close` and `Stop`, the timer, and the loop of `Start`. -/
  | outside
  | postNewAccept
  /-- `PostNewAccept` before its allocations. -/
  | createAccept
  | trackAccept (op : ℕ)
  | postAccept (op : ℕ) (posted : Bool)
  /-- The accept is in the kernel. -/
  | accepting (op : ℕ)
  | handleAccept (op : ℕ) (succeeded : Bool)
  /-- `HandleAccept` at its test of `metrics.active_connections`. -/
  | checkLimit (op : ℕ)
  /-- `HandleAccept` at its calls of `setsockopt` and `Associate`. -/
  | associate (op : ℕ)
  /-- `HandleAccept` at `next_session_id.fetch_add(1)`. -/
  | identify (op : ℕ)
  | insert (op s : ℕ)
  /-- `HandleAccept` at `metrics.active_connections.fetch_add(1)`. -/
  | count (op s : ℕ)
  | invokeConnect (op s : ℕ)
  /-- `HandleAccept` behind its session: the test of `running`, and the next socket. -/
  | nextAccept (op : ℕ)
  | reaccept (op : ℕ)
  /-- `accept_pool->Destroy(operation)`. -/
  | releaseAccept (op : ℕ) (posted : Bool)
  /-- `PostRead` of a session, before its allocation. -/
  | newRead (s : ℕ)
  | trackRead (s op : ℕ)
  /-- `PostRead` of an operation, at its load of the socket. -/
  | postRead (s op : ℕ) (posted : Bool)
  | receive (s op : ℕ) (posted : Bool)
  /-- The read is in the kernel. -/
  | reading (s op : ℕ)
  | handleRead (s op : ℕ) (good : Bool)
  | processIncoming (s op : ℕ)
  /-- The test of `disconnect_started` before a message. -/
  | testMessage (s op : ℕ)
  /-- `DeliverMessage` before it calls the handler. -/
  | deliverMessage (s op : ℕ)
  /-- The end of `HandleRead`: its test of `disconnect_started`, and that of `running`. -/
  | repost (s op : ℕ)
  | repostRunning (s op : ℕ)
  /-- `delete operation` of a read. -/
  | releaseRead (s op : ℕ) (posted : Bool)
  /-- `CompleteOperation` of an accept or a read. -/
  | completeOperation
  | enqueue (s : ℕ) (closeAfter : Bool)
  | startNextWrite (s : ℕ)
  /-- `StartNextWrite` before its allocation. -/
  | newWrite (s : ℕ) (closeAfter : Bool)
  | trackWrite (s op : ℕ) (closeAfter : Bool)
  | postWrite (s op : ℕ) (closeAfter posted : Bool)
  | wsaSend (s op : ℕ) (closeAfter posted : Bool)
  /-- The write is in the kernel. -/
  | writing (s op : ℕ) (closeAfter : Bool)
  | handleWrite (s op : ℕ) (closeAfter good : Bool)
  /-- `FinishWrite` at its `delete operation`, and at its `CompleteOperation`; `again` says whether
  the next write is started behind it. -/
  | finishWrite (s op : ℕ) (again posted : Bool)
  | completeWrite (s : ℕ) (again : Bool)
  /-- `Disconnect`, access by access. -/
  | disconnect (s : ℕ)
  | remove (s : ℕ)
  | closeSocket (s : ℕ)
  | drain (s : ℕ)
  | uncount (s : ℕ)
  | invokeDisconnect (s : ℕ)
  /-- `Send` and `Close` at their access of the registry, the timer at `disconnect_started`. -/
  | send (s : ℕ)
  | close (s : ℕ)
  | timer (s : ℕ)
  | stop
  | stopListening
  /-- `Stop` in its snapshot, before a shard, with the sessions of the shards before it. -/
  | snapshot (k : ℕ) (found : List ℕ)
  /-- The loop of `Stop` over its snapshot. -/
  | stopLoop (found : List ℕ)
  | stopDisconnect (s : ℕ) (rest : List ℕ)
  /-- `Stop` waits for `outstanding_operations`. -/
  | stopWait
  | stopped

/-- What is left open at a step. -/
inductive Choice
  /-- Nothing, or that a call succeeds. -/
  | passes
  /-- A call fails, or a limit refuses an item. -/
  | fails
  /-- A completion; a read or a write is good if it has succeeded and transferred some bytes. -/
  | completes (good : Bool)
  /-- A write has not transferred all of its bytes. -/
  | rest
  /-- What `ProcessIncoming` does next. -/
  | delivers
  | disconnects
  | closes
  | queues (closeAfter : Bool)
  /-- The next session of the loop of `Stop`. -/
  | picks (i : ℕ)
  | poster
  | sender (s : ℕ)
  | closer (s : ℕ)
  | ticker (s : ℕ)
  | stopper

/-- The limits of `Enqueue` refuse the item. -/
def Choice.refuses : Choice → Bool
  | .fails => true
  | _ => false

/-- What comes from outside. -/
def arrival (sv : Server) : Choice → Option Task
  | .poster => some .postNewAccept
  | .sender s => some (.send s)
  | .closer s => some (.close s)
  | .ticker s => if (sv.sessions s).registered then some (.timer s) else none
  | .stopper => some .stop
  | _ => none

/-- A read was not posted: the caller of `PostRead` deletes the operation and disconnects. -/
def notPosted (s op : ℕ) (posted : Bool) : List Task :=
  if posted then [.disconnect s, .releaseRead s op true] else [.releaseRead s op false, .disconnect s]

/-- What `ProcessIncoming` does next. -/
def processNext (s op : ℕ) : Choice → Option (List Task)
  | .passes => some [.repost s op]
  | .delivers => some [.testMessage s op]
  | .disconnects => some [.disconnect s, .processIncoming s op]
  | .closes => some [.close s, .processIncoming s op]
  | .queues closeAfter => some [.enqueue s closeAfter, .processIncoming s op]
  | _ => none

/-- The steps that only decide where the thread goes on. -/
def control (config : ServerConfig) (x : Choice) (sv : Server) : Task → Option (List Task)
  | .postNewAccept => some (if sv.running && sv.listening then [.createAccept] else [])
  | .postAccept op posted =>
      match x with
      | .passes => some (if sv.listening then [.accepting op] else [.releaseAccept op posted])
      | _ => some [.releaseAccept op posted]
  | .accepting op =>
      match x with
      | .completes succeeded => some [.handleAccept op succeeded]
      | _ => none
  | .handleAccept op succeeded =>
      some (if succeeded && sv.running then [.checkLimit op] else [.nextAccept op])
  | .checkLimit op =>
      some (if sv.loadActive ≥ config.maxConnections.toNat then [.nextAccept op]
        else [.associate op])
  | .associate op =>
      match x with
      | .fails => some [.nextAccept op]
      | _ => some [.identify op]
  | .nextAccept op => some (if sv.running then [.reaccept op] else [.releaseAccept op true])
  | .reaccept op =>
      match x with
      | .fails => some [.releaseAccept op true]
      | _ => some [.postAccept op true]
  | .postRead s op posted =>
      some (if (sv.sessions s).socketOpen then [.receive s op posted] else notPosted s op posted)
  | .receive s op posted =>
      match x with
      | .passes => some [.reading s op]
      | _ => some (notPosted s op posted)
  | .reading s op =>
      match x with
      | .completes good => some [.handleRead s op good]
      | _ => none
  | .handleRead s op good =>
      some (if !good || (sv.sessions s).disconnectStarted then
        [.disconnect s, .releaseRead s op true] else [.processIncoming s op])
  | .processIncoming s op => processNext s op x
  | .testMessage s op =>
      some (if (sv.sessions s).disconnectStarted then [.processIncoming s op]
        else [.deliverMessage s op])
  | .repost s op =>
      some (if (sv.sessions s).disconnectStarted then [.disconnect s, .releaseRead s op true]
        else [.repostRunning s op])
  | .repostRunning s op =>
      some (if sv.running then [.postRead s op true] else [.disconnect s, .releaseRead s op true])
  | .postWrite s op closeAfter posted =>
      some (if (sv.sessions s).socketOpen then [.wsaSend s op closeAfter posted]
        else [.finishWrite s op false posted])
  | .wsaSend s op closeAfter posted =>
      match x with
      | .passes => some [.writing s op closeAfter]
      | _ => some [.finishWrite s op false posted]
  | .writing s op closeAfter =>
      match x with
      | .completes good => some [.handleWrite s op closeAfter good]
      | _ => none
  | .handleWrite s op closeAfter good =>
      if !good then some [.finishWrite s op false true]
      else
        match x with
        | .rest => some [.postWrite s op closeAfter true]
        | _ => some [.finishWrite s op (!closeAfter) true]
  | .send s =>
      match x with
      | .passes => some (if (sv.sessions s).registered then [.enqueue s false] else [])
      | _ => some []
  | .close s =>
      -- the transport decides between `Disconnect` and a close frame, the state may refuse the frame
      match x with
      | .passes => some (if (sv.sessions s).registered then [.disconnect s] else [])
      | .queues _ => some (if (sv.sessions s).registered then [.enqueue s true] else [])
      | _ => some []
  | .timer s =>
      match x with
      | .passes => some (if (sv.sessions s).disconnectStarted then [] else [.disconnect s])
      | .queues _ => some (if (sv.sessions s).disconnectStarted then [] else [.enqueue s false])
      | _ => some []
  | .snapshot k found =>
      some [if k + 1 < shardCount then .snapshot (k + 1) (found ++ sv.shard k)
        else .stopLoop (found ++ sv.shard k)]
  | .stopLoop found =>
      match x with
      | .picks i => found[i]?.map fun s => [.stopDisconnect s (found.eraseIdx i)]
      | _ => if found.isEmpty then some [.stopWait] else none
  | .stopWait => if sv.outstandingOperations = 0 then some [.stopped] else none
  | _ => none

/-- The operation is in the kernel, where its thread does not follow it. -/
def Task.inKernel : Task → Bool
  | .accepting _ | .reading _ _ | .writing _ _ _ => true
  | _ => false

/-- The steps that change what the threads share. -/
def effect (x : Choice) (sv : Server) : Task → Option (Server × List Task)
  | .createAccept =>
      match x with
      | .fails => some (sv, [])
      | _ => some (sv.allocate, [.trackAccept sv.contexts])
  | .trackAccept op => some (sv.trackOperation, [.postAccept op false])
  | .identify op =>
      some ({ sv with nextSessionId := sv.nextSessionId + 1 }, [.insert op sv.nextSessionId])
  | .insert op s =>
      some (sv.modify s fun x => { x with inserted := true, registered := true }, [.count op s])
  | .count op s =>
      some ({ sv with activeConnections := sv.activeConnections + 1 }, [.invokeConnect op s])
  | .invokeConnect op s => some (sv.call s .connect, [.newRead s, .nextAccept op])
  | .releaseAccept op _ => some (sv.release op, [.completeOperation])
  | .newRead s =>
      match x with
      | .fails => some (sv, [.disconnect s])
      | _ => some (sv.allocate, [.trackRead s sv.contexts])
  | .trackRead s op => some (sv.trackOperation, [.postRead s op false])
  | .deliverMessage s op => some (sv.call s .message, [.processIncoming s op])
  | .releaseRead _ op _ => some (sv.release op, [.completeOperation])
  | .completeOperation => some (sv.completeOperation, [])
  | .enqueue s closeAfter =>
      if (sv.sessions s).disconnectStarted || x.refuses then
        -- `SendControl` and `SendRaw` disconnect when a last item is refused
        some (sv, if closeAfter then [.disconnect s] else [])
      else
        some (sv.modify s fun x =>
            { x with sendQueue := x.sendQueue ++ [closeAfter], writeActive := true },
          if (sv.sessions s).writeActive then [] else [.startNextWrite s])
  | .startNextWrite s =>
      match (sv.sessions s).sendQueue with
      | [] => some (sv.modify s fun x => { x with writeActive := false }, [])
      | closeAfter :: queue =>
          some (sv.modify s fun x => { x with sendQueue := queue }, [.newWrite s closeAfter])
  | .newWrite s closeAfter =>
      match x with
      | .fails => some (sv, [.disconnect s])
      | _ => some (sv.allocate, [.trackWrite s sv.contexts closeAfter])
  | .trackWrite s op closeAfter => some (sv.trackOperation, [.postWrite s op closeAfter false])
  | .finishWrite s op again _ => some (sv.release op, [.completeWrite s again])
  | .completeWrite s again =>
      some (sv.completeOperation, [if again then .startNextWrite s else .disconnect s])
  | .disconnect s =>
      if (sv.sessions s).disconnectStarted then some (sv, [])
      else some (sv.modify s fun x => { x with disconnectStarted := true }, [.remove s])
  | .remove s => some (sv.modify s fun x => { x with registered := false }, [.closeSocket s])
  | .closeSocket s => some (sv.modify s fun x => { x with socketOpen := false }, [.drain s])
  | .drain s => some (sv.modify s fun x => { x with sendQueue := [] }, [.uncount s])
  | .uncount s =>
      some ({ sv with activeConnections := sv.activeConnections - 1 }, [.invokeDisconnect s])
  | .invokeDisconnect s => some (sv.call s .disconnect, [])
  | .stop =>
      if sv.running then some ({ sv with running := false }, [.stopListening]) else some (sv, [])
  | .stopListening => some ({ sv with listening := false }, [.snapshot 0 []])
  | .stopDisconnect s rest =>
      if (sv.sessions s).disconnectStarted then some (sv, [.stopLoop rest])
      else
        some (sv.modify s fun x => { x with disconnectStarted := true }, [.remove s, .stopLoop rest])
  | _ => none

/-- What each step does, and what its thread does next. -/
def exec (config : ServerConfig) (x : Choice) (task : Task) (sv : Server) :
    Option (Outcome Server Task) :=
  match task with
  | .outside => (arrival sv x).map fun t => ⟨sv, [.outside], [[t]]⟩
  | task =>
      match control config x sv task with
      | some new =>
          if new.any Task.inKernel then some ⟨sv, [], [new]⟩ else some ⟨sv, new, []⟩
      | none => (effect x sv task).map fun r => ⟨r.1, r.2, []⟩

/-- The server as a program of interleaving threads. -/
def program (config : ServerConfig) : Program Server Task Choice := ⟨exec config⟩

/-- The pool at the beginning of `Start`, with `running` set. -/
def start : Config Server Task := ⟨{}, [[.outside]]⟩

/-! ### Changing one session -/

@[simp] theorem modify_self (sv : Server) (s : ℕ) (f : Session → Session) :
    (sv.modify s f).sessions s = f (sv.sessions s) := by
  simp [Server.modify]

theorem modify_of_ne (sv : Server) {s s' : ℕ} (h : s' ≠ s) (f : Session → Session) :
    (sv.modify s f).sessions s' = sv.sessions s' := by
  simp [Server.modify, h]

/-- A field of the sessions that a change of one session leaves alone. -/
theorem modify_field {α : Type*} (g : Session → α) (sv : Server) (s s' : ℕ)
    {f : Session → Session} (h : g (f (sv.sessions s)) = g (sv.sessions s)) :
    g ((sv.modify s f).sessions s') = g (sv.sessions s') := by
  by_cases hs : s' = s
  · subst hs
    rw [modify_self, h]
  · rw [modify_of_ne sv hs]

/-! ### What a step can do -/

/-- A step that only decides where the thread goes on. -/
inductive Moves (config : ServerConfig) (sv : Server) : Task → List Task → Prop
  | creates : Moves config sv .postNewAccept [.createAccept]
  | notCreated : Moves config sv .postNewAccept []
  | postsAccept (op : ℕ) (posted : Bool) : Moves config sv (.postAccept op posted) [.accepting op]
  | notAccepting (op : ℕ) (posted : Bool) :
      Moves config sv (.postAccept op posted) [.releaseAccept op posted]
  | completesAccept (op : ℕ) (succeeded : Bool) :
      Moves config sv (.accepting op) [.handleAccept op succeeded]
  | accepts {op : ℕ} (h : sv.running = true) (succeeded : Bool) :
      Moves config sv (.handleAccept op succeeded) [.checkLimit op]
  | notAccepted (op : ℕ) (succeeded : Bool) :
      Moves config sv (.handleAccept op succeeded) [.nextAccept op]
  | full (op : ℕ) : Moves config sv (.checkLimit op) [.nextAccept op]
  | admits {op : ℕ} (h : sv.loadActive < config.maxConnections.toNat) :
      Moves config sv (.checkLimit op) [.associate op]
  | notAssociated (op : ℕ) : Moves config sv (.associate op) [.nextAccept op]
  | associates (op : ℕ) : Moves config sv (.associate op) [.identify op]
  | accepting (op : ℕ) : Moves config sv (.nextAccept op) [.reaccept op]
  | stopsAccepting (op : ℕ) : Moves config sv (.nextAccept op) [.releaseAccept op true]
  | noSocket (op : ℕ) : Moves config sv (.reaccept op) [.releaseAccept op true]
  | reaccepts (op : ℕ) : Moves config sv (.reaccept op) [.postAccept op true]
  | loads (s op : ℕ) (posted : Bool) : Moves config sv (.postRead s op posted) [.receive s op posted]
  | noPeer (s op : ℕ) (posted : Bool) :
      Moves config sv (.postRead s op posted) (notPosted s op posted)
  | postsRead (s op : ℕ) (posted : Bool) : Moves config sv (.receive s op posted) [.reading s op]
  | notReading (s op : ℕ) (posted : Bool) :
      Moves config sv (.receive s op posted) (notPosted s op posted)
  | completesRead (s op : ℕ) (good : Bool) :
      Moves config sv (.reading s op) [.handleRead s op good]
  | reads (s op : ℕ) (good : Bool) : Moves config sv (.handleRead s op good) [.processIncoming s op]
  | badRead (s op : ℕ) (good : Bool) :
      Moves config sv (.handleRead s op good) [.disconnect s, .releaseRead s op true]
  | processed (s op : ℕ) : Moves config sv (.processIncoming s op) [.repost s op]
  | delivers (s op : ℕ) : Moves config sv (.processIncoming s op) [.testMessage s op]
  | disconnects (s op : ℕ) :
      Moves config sv (.processIncoming s op) [.disconnect s, .processIncoming s op]
  | closes (s op : ℕ) : Moves config sv (.processIncoming s op) [.close s, .processIncoming s op]
  | queues (s op : ℕ) (closeAfter : Bool) :
      Moves config sv (.processIncoming s op) [.enqueue s closeAfter, .processIncoming s op]
  | noMessage (s op : ℕ) : Moves config sv (.testMessage s op) [.processIncoming s op]
  | message {s : ℕ} (h : (sv.sessions s).disconnectStarted = false) (op : ℕ) :
      Moves config sv (.testMessage s op) [.deliverMessage s op]
  | reposts (s op : ℕ) : Moves config sv (.repost s op) [.repostRunning s op]
  | disconnected (s op : ℕ) : Moves config sv (.repost s op) [.disconnect s, .releaseRead s op true]
  | running (s op : ℕ) : Moves config sv (.repostRunning s op) [.postRead s op true]
  | notRunning (s op : ℕ) :
      Moves config sv (.repostRunning s op) [.disconnect s, .releaseRead s op true]
  | loadsSocket (s op : ℕ) (closeAfter posted : Bool) :
      Moves config sv (.postWrite s op closeAfter posted) [.wsaSend s op closeAfter posted]
  | noSocketLeft (s op : ℕ) (closeAfter posted : Bool) :
      Moves config sv (.postWrite s op closeAfter posted) [.finishWrite s op false posted]
  | postsWrite (s op : ℕ) (closeAfter posted : Bool) :
      Moves config sv (.wsaSend s op closeAfter posted) [.writing s op closeAfter]
  | notWriting (s op : ℕ) (closeAfter posted : Bool) :
      Moves config sv (.wsaSend s op closeAfter posted) [.finishWrite s op false posted]
  | completesWrite (s op : ℕ) (closeAfter good : Bool) :
      Moves config sv (.writing s op closeAfter) [.handleWrite s op closeAfter good]
  | writesRest (s op : ℕ) (closeAfter good : Bool) :
      Moves config sv (.handleWrite s op closeAfter good) [.postWrite s op closeAfter true]
  | written (s op : ℕ) (closeAfter good again : Bool) :
      Moves config sv (.handleWrite s op closeAfter good) [.finishWrite s op again true]
  | sends {s : ℕ} (h : (sv.sessions s).registered = true) :
      Moves config sv (.send s) [.enqueue s false]
  | notSent (s : ℕ) : Moves config sv (.send s) []
  | closesSession {s : ℕ} (h : (sv.sessions s).registered = true) :
      Moves config sv (.close s) [.disconnect s]
  | closesFrame {s : ℕ} (h : (sv.sessions s).registered = true) :
      Moves config sv (.close s) [.enqueue s true]
  | notClosed (s : ℕ) : Moves config sv (.close s) []
  | expires (s : ℕ) : Moves config sv (.timer s) [.disconnect s]
  | pings (s : ℕ) : Moves config sv (.timer s) [.enqueue s false]
  | notDue (s : ℕ) : Moves config sv (.timer s) []
  | sweeps {k : ℕ} (h : k + 1 < shardCount) (found : List ℕ) :
      Moves config sv (.snapshot k found) [.snapshot (k + 1) (found ++ sv.shard k)]
  | swept {k : ℕ} (h : shardCount ≤ k + 1) (found : List ℕ) :
      Moves config sv (.snapshot k found) [.stopLoop (found ++ sv.shard k)]
  | picks {found : List ℕ} {i s : ℕ} (h : found[i]? = some s) :
      Moves config sv (.stopLoop found) [.stopDisconnect s (found.eraseIdx i)]
  | waits : Moves config sv (.stopLoop []) [.stopWait]
  | stops (h : sv.outstandingOperations = 0) : Moves config sv .stopWait [.stopped]

/-- A step of a task: the state behind it, and the tasks that are pending instead of it. -/
inductive Step (config : ServerConfig) (sv : Server) : Task → Server → List Task → Prop
  | arrives {x : Choice} {t : Task} (h : arrival sv x = some t) :
      Step config sv .outside sv [.outside, t]
  | moves {task : Task} {new : List Task} (h : Moves config sv task new) :
      Step config sv task sv new
  | noAccept : Step config sv .createAccept sv []
  | createsAccept : Step config sv .createAccept sv.allocate [.trackAccept sv.contexts]
  | tracksAccept (op : ℕ) :
      Step config sv (.trackAccept op) sv.trackOperation [.postAccept op false]
  | identifies (op : ℕ) :
      Step config sv (.identify op) { sv with nextSessionId := sv.nextSessionId + 1 }
        [.insert op sv.nextSessionId]
  | inserts (op s : ℕ) :
      Step config sv (.insert op s)
        (sv.modify s fun x => { x with inserted := true, registered := true }) [.count op s]
  | counts (op s : ℕ) :
      Step config sv (.count op s) { sv with activeConnections := sv.activeConnections + 1 }
        [.invokeConnect op s]
  | invokesConnect (op s : ℕ) :
      Step config sv (.invokeConnect op s) (sv.call s .connect) [.newRead s, .nextAccept op]
  | releasesAccept (op : ℕ) (posted : Bool) :
      Step config sv (.releaseAccept op posted) (sv.release op) [.completeOperation]
  | noRead (s : ℕ) : Step config sv (.newRead s) sv [.disconnect s]
  | createsRead (s : ℕ) : Step config sv (.newRead s) sv.allocate [.trackRead s sv.contexts]
  | tracksRead (s op : ℕ) :
      Step config sv (.trackRead s op) sv.trackOperation [.postRead s op false]
  | deliversMessage (s op : ℕ) :
      Step config sv (.deliverMessage s op) (sv.call s .message) [.processIncoming s op]
  | releasesRead (s op : ℕ) (posted : Bool) :
      Step config sv (.releaseRead s op posted) (sv.release op) [.completeOperation]
  | completes : Step config sv .completeOperation sv.completeOperation []
  | refuses (s : ℕ) (closeAfter : Bool) :
      Step config sv (.enqueue s closeAfter) sv (if closeAfter then [.disconnect s] else [])
  | enqueues (s : ℕ) (closeAfter : Bool) :
      Step config sv (.enqueue s closeAfter)
        (sv.modify s fun x =>
          { x with sendQueue := x.sendQueue ++ [closeAfter], writeActive := true })
        (if (sv.sessions s).writeActive then [] else [.startNextWrite s])
  | idles (s : ℕ) :
      Step config sv (.startNextWrite s) (sv.modify s fun x => { x with writeActive := false }) []
  | pops (s : ℕ) (closeAfter : Bool) (queue : List Bool) :
      Step config sv (.startNextWrite s) (sv.modify s fun x => { x with sendQueue := queue })
        [.newWrite s closeAfter]
  | noWrite (s : ℕ) (closeAfter : Bool) : Step config sv (.newWrite s closeAfter) sv [.disconnect s]
  | createsWrite (s : ℕ) (closeAfter : Bool) :
      Step config sv (.newWrite s closeAfter) sv.allocate [.trackWrite s sv.contexts closeAfter]
  | tracksWrite (s op : ℕ) (closeAfter : Bool) :
      Step config sv (.trackWrite s op closeAfter) sv.trackOperation
        [.postWrite s op closeAfter false]
  | finishes (s op : ℕ) (again posted : Bool) :
      Step config sv (.finishWrite s op again posted) (sv.release op) [.completeWrite s again]
  | completesWrite (s : ℕ) (again : Bool) :
      Step config sv (.completeWrite s again) sv.completeOperation
        [if again then .startNextWrite s else .disconnect s]
  | alreadyDisconnected {s : ℕ} (h : (sv.sessions s).disconnectStarted = true) :
      Step config sv (.disconnect s) sv []
  | disconnects {s : ℕ} (h : (sv.sessions s).disconnectStarted = false) :
      Step config sv (.disconnect s) (sv.modify s fun x => { x with disconnectStarted := true })
        [.remove s]
  | removes (s : ℕ) :
      Step config sv (.remove s) (sv.modify s fun x => { x with registered := false })
        [.closeSocket s]
  | closesSocket (s : ℕ) :
      Step config sv (.closeSocket s) (sv.modify s fun x => { x with socketOpen := false })
        [.drain s]
  | drains (s : ℕ) :
      Step config sv (.drain s) (sv.modify s fun x => { x with sendQueue := [] }) [.uncount s]
  | uncounts (s : ℕ) :
      Step config sv (.uncount s) { sv with activeConnections := sv.activeConnections - 1 }
        [.invokeDisconnect s]
  | invokesDisconnect (s : ℕ) : Step config sv (.invokeDisconnect s) (sv.call s .disconnect) []
  | alreadyStopped : Step config sv .stop sv []
  | stops : Step config sv .stop { sv with running := false } [.stopListening]
  | stopsListening : Step config sv .stopListening { sv with listening := false } [.snapshot 0 []]
  | skips {s : ℕ} (h : (sv.sessions s).disconnectStarted = true) (rest : List ℕ) :
      Step config sv (.stopDisconnect s rest) sv [.stopLoop rest]
  | stopsSession {s : ℕ} (h : (sv.sessions s).disconnectStarted = false) (rest : List ℕ) :
      Step config sv (.stopDisconnect s rest)
        (sv.modify s fun x => { x with disconnectStarted := true }) [.remove s, .stopLoop rest]

section Steps

variable {config : ServerConfig} {x : Choice} {sv : Server} {task : Task}

/-- What comes from outside. -/
theorem arrival_cases {t : Task} (h : arrival sv x = some t) :
    t = .postNewAccept ∨ (∃ s, t = .send s) ∨ (∃ s, t = .close s) ∨
      (∃ s, t = .timer s ∧ (sv.sessions s).registered = true) ∨ t = .stop := by
  cases x with
  | poster => exact Or.inl (Option.some.inj h).symm
  | sender s => exact Or.inr (Or.inl ⟨s, (Option.some.inj h).symm⟩)
  | closer s => exact Or.inr (Or.inr (Or.inl ⟨s, (Option.some.inj h).symm⟩))
  | ticker s =>
      simp only [arrival] at h
      split at h
      · next hin => exact Or.inr (Or.inr (Or.inr (Or.inl ⟨s, (Option.some.inj h).symm, hin⟩)))
      · cases h
  | stopper => exact Or.inr (Or.inr (Or.inr (Or.inr (Option.some.inj h).symm)))
  | _ => cases h

theorem control_moves {new : List Task} (h : control config x sv task = some new) :
    Moves config sv task new := by
  cases task with
  | postNewAccept =>
      obtain rfl := Option.some.inj h
      split
      · exact .creates
      · exact .notCreated
  | postAccept op posted =>
      simp only [control] at h
      split at h
      · obtain rfl := Option.some.inj h
        split
        · exact .postsAccept op posted
        · exact .notAccepting op posted
      · obtain rfl := Option.some.inj h
        exact .notAccepting op posted
  | accepting op =>
      simp only [control] at h
      split at h
      · obtain rfl := Option.some.inj h
        exact .completesAccept op _
      · cases h
  | handleAccept op succeeded =>
      obtain rfl := Option.some.inj h
      split
      · next hrunning => exact .accepts (Bool.and_eq_true_iff.1 hrunning).2 succeeded
      · exact .notAccepted op succeeded
  | checkLimit op =>
      obtain rfl := Option.some.inj h
      split
      · exact .full op
      · next hroom => exact .admits (not_le.1 hroom)
  | associate op =>
      simp only [control] at h
      split at h
      · obtain rfl := Option.some.inj h
        exact .notAssociated op
      · obtain rfl := Option.some.inj h
        exact .associates op
  | nextAccept op =>
      obtain rfl := Option.some.inj h
      split
      · exact .accepting op
      · exact .stopsAccepting op
  | reaccept op =>
      simp only [control] at h
      split at h
      · obtain rfl := Option.some.inj h
        exact .noSocket op
      · obtain rfl := Option.some.inj h
        exact .reaccepts op
  | postRead s op posted =>
      obtain rfl := Option.some.inj h
      split
      · exact .loads s op posted
      · exact .noPeer s op posted
  | receive s op posted =>
      simp only [control] at h
      split at h
      · obtain rfl := Option.some.inj h
        exact .postsRead s op posted
      · obtain rfl := Option.some.inj h
        exact .notReading s op posted
  | reading s op =>
      simp only [control] at h
      split at h
      · obtain rfl := Option.some.inj h
        exact .completesRead s op _
      · cases h
  | handleRead s op good =>
      obtain rfl := Option.some.inj h
      split
      · exact .badRead s op good
      · exact .reads s op good
  | processIncoming s op =>
      simp only [control] at h
      cases x with
      | passes =>
          obtain rfl := Option.some.inj h
          exact .processed s op
      | delivers =>
          obtain rfl := Option.some.inj h
          exact .delivers s op
      | disconnects =>
          obtain rfl := Option.some.inj h
          exact .disconnects s op
      | closes =>
          obtain rfl := Option.some.inj h
          exact .closes s op
      | queues closeAfter =>
          obtain rfl := Option.some.inj h
          exact .queues s op closeAfter
      | _ => cases h
  | testMessage s op =>
      obtain rfl := Option.some.inj h
      split
      · exact .noMessage s op
      · next hlive => exact .message (by simpa using hlive) op
  | repost s op =>
      obtain rfl := Option.some.inj h
      split
      · exact .disconnected s op
      · exact .reposts s op
  | repostRunning s op =>
      obtain rfl := Option.some.inj h
      split
      · exact .running s op
      · exact .notRunning s op
  | postWrite s op closeAfter posted =>
      obtain rfl := Option.some.inj h
      split
      · exact .loadsSocket s op closeAfter posted
      · exact .noSocketLeft s op closeAfter posted
  | wsaSend s op closeAfter posted =>
      simp only [control] at h
      split at h
      · obtain rfl := Option.some.inj h
        exact .postsWrite s op closeAfter posted
      · obtain rfl := Option.some.inj h
        exact .notWriting s op closeAfter posted
  | writing s op closeAfter =>
      simp only [control] at h
      split at h
      · obtain rfl := Option.some.inj h
        exact .completesWrite s op closeAfter _
      · cases h
  | handleWrite s op closeAfter good =>
      simp only [control] at h
      split at h
      · obtain rfl := Option.some.inj h
        exact .written s op closeAfter good false
      · split at h
        · obtain rfl := Option.some.inj h
          exact .writesRest s op closeAfter good
        · obtain rfl := Option.some.inj h
          exact .written s op closeAfter good _
  | send s =>
      simp only [control] at h
      split at h
      · obtain rfl := Option.some.inj h
        split
        · next hin => exact .sends hin
        · exact .notSent s
      · obtain rfl := Option.some.inj h
        exact .notSent s
  | close s =>
      simp only [control] at h
      split at h
      · obtain rfl := Option.some.inj h
        split
        · next hin => exact .closesSession hin
        · exact .notClosed s
      · obtain rfl := Option.some.inj h
        split
        · next hin => exact .closesFrame hin
        · exact .notClosed s
      · obtain rfl := Option.some.inj h
        exact .notClosed s
  | timer s =>
      simp only [control] at h
      split at h
      · obtain rfl := Option.some.inj h
        split
        · exact .notDue s
        · exact .expires s
      · obtain rfl := Option.some.inj h
        split
        · exact .notDue s
        · exact .pings s
      · obtain rfl := Option.some.inj h
        exact .notDue s
  | snapshot k found =>
      obtain rfl := Option.some.inj h
      split
      · next hmore => exact .sweeps hmore found
      · next hlast => exact .swept (not_lt.1 hlast) found
  | stopLoop found =>
      simp only [control] at h
      split at h
      · obtain ⟨s, hs, rfl⟩ := Option.map_eq_some_iff.1 h
        exact .picks hs
      · split at h
        · next hempty =>
            obtain rfl := Option.some.inj h
            obtain rfl := List.isEmpty_iff.1 hempty
            exact .waits
        · cases h
  | stopWait =>
      simp only [control] at h
      split at h
      · next hzero =>
          obtain rfl := Option.some.inj h
          exact .stops hzero
      · cases h
  | _ => cases h

theorem effect_step {sv' : Server} {new : List Task} (h : effect x sv task = some (sv', new)) :
    Step config sv task sv' new := by
  cases task with
  | createAccept =>
      simp only [effect] at h
      split at h
      · obtain ⟨rfl, rfl⟩ := Prod.mk.inj (Option.some.inj h)
        exact .noAccept
      · obtain ⟨rfl, rfl⟩ := Prod.mk.inj (Option.some.inj h)
        exact .createsAccept
  | newRead s =>
      simp only [effect] at h
      split at h
      · obtain ⟨rfl, rfl⟩ := Prod.mk.inj (Option.some.inj h)
        exact .noRead s
      · obtain ⟨rfl, rfl⟩ := Prod.mk.inj (Option.some.inj h)
        exact .createsRead s
  | newWrite s closeAfter =>
      simp only [effect] at h
      split at h
      · obtain ⟨rfl, rfl⟩ := Prod.mk.inj (Option.some.inj h)
        exact .noWrite s closeAfter
      · obtain ⟨rfl, rfl⟩ := Prod.mk.inj (Option.some.inj h)
        exact .createsWrite s closeAfter
  | enqueue s closeAfter =>
      simp only [effect] at h
      split at h
      · obtain ⟨rfl, rfl⟩ := Prod.mk.inj (Option.some.inj h)
        exact .refuses s closeAfter
      · obtain ⟨rfl, rfl⟩ := Prod.mk.inj (Option.some.inj h)
        exact .enqueues s closeAfter
  | startNextWrite s =>
      simp only [effect] at h
      split at h
      · obtain ⟨rfl, rfl⟩ := Prod.mk.inj (Option.some.inj h)
        exact .idles s
      · obtain ⟨rfl, rfl⟩ := Prod.mk.inj (Option.some.inj h)
        exact .pops s _ _
  | disconnect s =>
      simp only [effect] at h
      split at h
      · next hstarted =>
          obtain ⟨rfl, rfl⟩ := Prod.mk.inj (Option.some.inj h)
          exact .alreadyDisconnected hstarted
      · next hlive =>
          obtain ⟨rfl, rfl⟩ := Prod.mk.inj (Option.some.inj h)
          exact .disconnects (by simpa using hlive)
  | stop =>
      simp only [effect] at h
      split at h
      · obtain ⟨rfl, rfl⟩ := Prod.mk.inj (Option.some.inj h)
        exact .stops
      · obtain ⟨rfl, rfl⟩ := Prod.mk.inj (Option.some.inj h)
        exact .alreadyStopped
  | stopDisconnect s rest =>
      simp only [effect] at h
      split at h
      · next hstarted =>
          obtain ⟨rfl, rfl⟩ := Prod.mk.inj (Option.some.inj h)
          exact .skips hstarted rest
      · next hlive =>
          obtain ⟨rfl, rfl⟩ := Prod.mk.inj (Option.some.inj h)
          exact .stopsSession (by simpa using hlive) rest
  | trackAccept | identify | insert | count | invokeConnect | releaseAccept | trackRead
  | deliverMessage | releaseRead | completeOperation | trackWrite | finishWrite | completeWrite
  | remove | closeSocket | drain | uncount | invokeDisconnect | stopListening =>
      obtain ⟨rfl, rfl⟩ := Prod.mk.inj (Option.some.inj h)
      constructor
  | _ => cases h

/-- Every step of the program is one of these. -/
theorem exec_step {o : Outcome Server Task} (h : exec config x task sv = some o) :
    Step config sv task o.shared (o.next ++ o.forked.flatten) := by
  have hstep : ∀ {o : Outcome Server Task},
      (match control config x sv task with
      | some new =>
          if new.any Task.inKernel then some (⟨sv, [], [new]⟩ : Outcome Server Task)
          else some ⟨sv, new, []⟩
      | none => (effect x sv task).map fun r => ⟨r.1, r.2, []⟩) = some o →
      Step config sv task o.shared (o.next ++ o.forked.flatten) := by
    intro o ho
    split at ho
    · next new hnew =>
        have hmoves := control_moves hnew
        split at ho
        · obtain rfl := Option.some.inj ho
          rw [List.flatten_cons, List.flatten_nil, List.append_nil, List.nil_append]
          exact .moves hmoves
        · obtain rfl := Option.some.inj ho
          rw [List.flatten_nil, List.append_nil]
          exact .moves hmoves
    · obtain ⟨⟨sv', new⟩, hr, rfl⟩ := Option.map_eq_some_iff.1 ho
      rw [List.flatten_nil, List.append_nil]
      exact effect_step hr
  cases task with
  | outside =>
      obtain ⟨t, ht, rfl⟩ := Option.map_eq_some_iff.1 h
      exact .arrives ht
  | _ => exact hstep h

end Steps

end Lifecycle

end RealtimeEngine
