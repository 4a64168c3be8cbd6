/-
**No message behind the end of a session.**

A session is to end for one of eleven reasons, and the code says so in three ways: `Disconnect` sets
`disconnect_started`, a close frame sets the state of a WebSocket session to `Closing`, and a
rejected handshake leaves the session in detection, where the same bytes are rejected again.  Every
path to the message handler tests one of them.  So in whatever way a session is to end, and whatever
is still in its buffers, the handler does not see another message of it.

Main definitions:

* `RealtimeEngine.SessionInput.Input` — a read, or what others do to the session between two reads;
* `RealtimeEngine.SessionInput.Over` — the three ways to be at the end;
* `RealtimeEngine.SessionInput.Orderly` — the invariant.

Main results:

* `RealtimeEngine.SessionInput.handleRead_orderly` — **a read keeps the invariant**;
* `RealtimeEngine.SessionInput.nothing_delivered_behind_end` — **nothing is delivered behind the end
  of a session**, and so the malformed messages are limited.
-/

import RealtimeEngine.SessionStreams

set_option relaxedAutoImplicit false
set_option autoImplicit false

namespace RealtimeEngine

namespace SessionInput

/-! ### Reads and what is between them -/

/-- What a session meets: a read, or what others do to it between two reads. -/
inductive Input
  | read (bytes : Bytes)
  | meanwhile (interference : Interference)
  deriving DecidableEq, Repr

/-- A message was delivered. -/
def Note.isDelivery : Note → Bool
  | .delivered _ _ => true
  | .ended _ => false

/-- A message was delivered and found malformed. -/
def Note.isMalformed : Note → Bool
  | .delivered _ (some .malformed) => true
  | _ => false

section Inputs

variable (config : ServerConfig) (handler : Option Handler) (env : Environment)

/-- The session behind one more input. -/
def meet (r : Reading) : Input → Reading
  | .read bytes => handleRead config handler env bytes r
  | .meanwhile interference => interfere config env interference r

/-- A fresh session behind some inputs. -/
def runInputs (inputs : List Input) : Reading :=
  inputs.foldl (meet config handler env) (opening config)

end Inputs

/-! ### The invariant -/

variable (config : ServerConfig)

/-- The session is at its end: it is disconnected, it is closing, or its handshake was rejected. -/
def Over (r : Reading) : Prop :=
  r.disconnectStarted = true ∨ r.transport = .webSocket ∧ r.state = .closing ∨
    r.transport = .detecting ∧ ∃ result, detection config r.detectionBuffer = .rejected result

/-- What the notes of a session and its fields have to do with each other.  `owed` counts a verdict
that is noted and not yet recorded. -/
structure Tidy (owed : ℕ) (r : Reading) : Prop where
  registered : r.registered = true ∨ r.disconnectStarted = true
  opened : r.transport ≠ .detecting →
    r.disconnectStarted = true ∨ r.state = .opened ∨ r.transport = .webSocket ∧ r.state = .closing
  ordered : r.trace.Pairwise fun n n' => n.isDelivery = false → n'.isDelivery = false
  malformed : r.trace.countP Note.isMalformed ≤ max 1 config.malformedMessageLimit.toNat
  recorded : (∀ n ∈ r.trace, n.isDelivery = true) →
    r.trace.countP Note.isMalformed ≤ r.malformedMessages + owed ∧
      (r.malformedMessages = 0 ∨ r.malformedMessages < config.malformedMessageLimit.toNat)

/-- **The invariant**: a session that has a reason to end is at its end. -/
structure Orderly (r : Reading) : Prop extends Tidy config 0 r where
  finished : (∃ n ∈ r.trace, n.isDelivery = false) → Over config r

variable {config} {handler : Option Handler} {env : Environment} {r : Reading} {owed : ℕ}

theorem Over.of_stopped (h : Stopped r) : Over config r := by
  rcases h with hstarted | hclosing
  · exact Or.inl hstarted
  · exact Or.inr (Or.inl hclosing)

/-- A reason to end is noted. -/
theorem Tidy.note (h : Tidy config owed r) (reason : Ending) (limited : Bool) (malformed : ℕ) :
    Tidy config 0 (note reason { r with limited := limited, malformedMessages := malformed }) where
  registered := h.registered
  opened := h.opened
  ordered := by
    refine List.pairwise_append.2 ⟨h.ordered, List.pairwise_singleton _ _, ?_⟩
    intro n _ n' hn' _
    rw [List.mem_singleton.1 hn']
    rfl
  malformed := by
    show (r.trace ++ [Note.ended reason]).countP Note.isMalformed ≤ _
    rw [List.countP_append]
    exact h.malformed
  recorded := by
    intro hall
    cases hall (.ended reason) (List.mem_append_right _ (List.mem_singleton_self _))

theorem Tidy.disconnect (h : Tidy config owed r) : Tidy config owed (disconnect r) := by
  unfold SessionInput.disconnect
  split
  · exact h
  · obtain ⟨-, -, hordered, hmalformed, -⟩ := h.note .disconnected r.limited r.malformedMessages
    refine ⟨Or.inr rfl, fun _ => Or.inl rfl, hordered, hmalformed, ?_⟩
    intro hall
    cases hall (.ended .disconnected) (List.mem_append_right _ (List.mem_singleton_self _))

theorem disconnect_over (r : Reading) : Over config (disconnect r) :=
  .of_stopped (disconnect_stops r).1

theorem disconnect_orderly (h : Tidy config 0 r) : Orderly config (disconnect r) :=
  ⟨h.disconnect, fun _ => disconnect_over r⟩

/-! ### What is queued -/

variable (env) in
theorem updateInboundAccounting_orderly (bytes : ℕ) (h : Orderly config r) :
    Orderly config (updateInboundAccounting env bytes r) := by
  unfold updateInboundAccounting
  dsimp only
  split
  · split
    · exact disconnect_orderly ⟨h.registered, h.opened, h.ordered, h.malformed, h.recorded⟩
    · exact ⟨⟨h.registered, h.opened, h.ordered, h.malformed, h.recorded⟩, h.finished⟩
  · exact ⟨⟨h.registered, h.opened, h.ordered, h.malformed, h.recorded⟩, h.finished⟩

variable (env) in
theorem enqueue_tidy (item : OutboundItem) (h : Tidy config owed r) :
    Tidy config owed (enqueue config env item r).2 := by
  have hcounted : ∀ calls bytes,
      Tidy config owed { r with enqueues := calls, acceptedBytes := bytes } :=
    fun _ _ => ⟨h.registered, h.opened, h.ordered, h.malformed, h.recorded⟩
  obtain ⟨calls, bytes, hr | ⟨-, -, hr⟩⟩ := enqueue_cases config env item r
  · rw [hr]
    exact hcounted calls bytes
  · rw [hr]
    exact (hcounted calls bytes).disconnect

variable (env) in
theorem enqueue_over (item : OutboundItem) (h : Over config r) :
    Over config (enqueue config env item r).2 := by
  obtain ⟨calls, bytes, hr | ⟨-, -, hr⟩⟩ := enqueue_cases config env item r
  · rw [hr]
    exact h
  · rw [hr]
    exact disconnect_over _

variable (env) in
theorem enqueue_orderly (item : OutboundItem) (h : Orderly config r) :
    Orderly config (enqueue config env item r).2 := by
  obtain ⟨calls, bytes, hr | ⟨-, -, hr⟩⟩ := enqueue_cases config env item r
  · rw [hr]
    exact ⟨⟨h.registered, h.opened, h.ordered, h.malformed, h.recorded⟩, h.finished⟩
  · rw [hr]
    exact disconnect_orderly ⟨h.registered, h.opened, h.ordered, h.malformed, h.recorded⟩

variable (env) in
/-- A close frame is not queued twice; otherwise it ends a WebSocket session. -/
theorem sendControl_cases (config : ServerConfig) (opcode : WsOpcode) (payload : Bytes)
    (htransport : r.transport = .webSocket) :
    (r.state = .closed ∨ r.state = .closing) ∧ sendControl config env opcode payload true r = r ∨
      Over config (sendControl config env opcode payload true r) := by
  by_cases hclosed : r.state = .closed ∨ r.state = .closing
  · refine Or.inl ⟨hclosed, ?_⟩
    rw [sendControl, if_pos (by simpa using hclosed)]
  · refine Or.inr ?_
    rw [sendControl_close config env opcode payload hclosed]
    dsimp only
    split
    · exact enqueue_over env _ (Or.inr (Or.inl ⟨htransport, rfl⟩))
    · exact disconnect_over _

variable (env) in
theorem sendControl_tidy (opcode : WsOpcode) (payload : Bytes) (htransport : r.transport = .webSocket)
    (h : Tidy config owed r) : Tidy config owed (sendControl config env opcode payload true r) := by
  by_cases hclosed : r.state = .closed ∨ r.state = .closing
  · rw [sendControl, if_pos (by simpa using hclosed)]
    exact h
  · rw [sendControl_close config env opcode payload hclosed]
    have hclosing : Tidy config owed { r with state := .closing } :=
      ⟨h.registered, fun _ => Or.inr (Or.inr ⟨htransport, rfl⟩), h.ordered, h.malformed, h.recorded⟩
    dsimp only
    split
    · exact enqueue_tidy env _ hclosing
    · exact (enqueue_tidy env _ hclosing).disconnect

variable (env) in
theorem close_tidy (code : UInt16) (reason : Bytes) (h : Tidy config owed r) :
    Tidy config owed (close config env code reason r) := by
  unfold close
  split
  · exact h
  · split
    · exact h.disconnect
    · next htransport => exact sendControl_tidy env _ _ (not_not.1 htransport) h

variable (env) in
/-- **`Close` brings a session to its end**, once its transport is known. -/
theorem close_over (code : UInt16) (reason : Bytes) (h : Tidy config owed r)
    (htransport : r.transport ≠ .detecting) : Over config (close config env code reason r) := by
  unfold close
  split
  · next hregistered =>
      rcases h.registered with hin | hstarted
      · exact absurd hin (by simpa using hregistered)
      · exact Or.inl hstarted
  · split
    · exact disconnect_over r
    · next hws =>
        rcases sendControl_cases env config .close (closePayload code reason) (not_not.1 hws) with
          ⟨hclosed, hsame⟩ | hover
        · rw [hsame]
          rcases h.opened htransport with hstarted | hopened | hclosing
          · exact Or.inl hstarted
          · rcases hclosed with hstate | hstate <;> rw [hstate] at hopened <;> cases hopened
          · exact Or.inr (Or.inl hclosing)
        · exact hover

variable (env) in
theorem close_orderly (code : UInt16) (reason : Bytes) (h : Orderly config r) :
    Orderly config (close config env code reason r) := by
  by_cases hdetecting : r.transport = .detecting
  · -- nothing is queued for a session in detection
    unfold close
    split
    · exact h
    · rw [if_pos (by rw [hdetecting]; decide)]
      exact disconnect_orderly h.toTidy
  · exact ⟨close_tidy env code reason h.toTidy,
      fun _ => close_over env code reason h.toTidy hdetecting⟩

variable (env) in
/-- Whoever interferes with a session brings it to its end, once its transport is known. -/
theorem interfere_spec (i : Interference) (h : Tidy config owed r)
    (htransport : r.transport ≠ .detecting) :
    let r' := interfere config env i r
    Tidy config owed r' ∧ r'.transport ≠ .detecting ∧ (r' = r ∨ Over config r') := by
  have hknown : (interfere config env i r).transport ≠ .detecting := by
    rw [(interfere_after config env i r).transport]
    exact htransport
  cases i with
  | nothing => exact ⟨h, hknown, Or.inl rfl⟩
  | disconnected => exact ⟨h.disconnect, hknown, Or.inr (disconnect_over r)⟩
  | closed code reason =>
      exact ⟨close_tidy env code reason h, hknown, Or.inr (close_over env code reason h htransport)⟩

variable (env) in
theorem interfere_orderly (i : Interference) (h : Orderly config r) :
    Orderly config (interfere config env i r) := by
  cases i with
  | nothing => exact h
  | disconnected => exact disconnect_orderly h.toTidy
  | closed code reason => exact close_orderly env code reason h

/-! ### Delivering -/

/-- A session that has no reason to end gets a message. -/
theorem Tidy.deliver (h : Tidy config 0 r) (hnot : ∀ n ∈ r.trace, n.isDelivery = true)
    (message : Bytes) (verdict : Option MessageDisposition) (delivered : List Bytes) :
    Tidy config (if verdict = some .malformed then 1 else 0)
      { r with delivered := delivered, trace := r.trace ++ [.delivered message verdict] } := by
  obtain ⟨hcount, hlimit⟩ := h.recorded hnot
  have hcount' : (r.trace ++ [Note.delivered message verdict]).countP Note.isMalformed ≤
      r.malformedMessages + if verdict = some .malformed then 1 else 0 := by
    rw [List.countP_append]
    cases verdict with
    | none => simpa [Note.isMalformed] using hcount
    | some disposition => cases disposition <;> simpa [Note.isMalformed] using hcount
  refine ⟨h.registered, h.opened, ?_, ?_, fun _ => ⟨hcount', hlimit⟩⟩
  · refine List.pairwise_append.2 ⟨h.ordered, List.pairwise_singleton _ _, ?_⟩
    intro n hn n' _ hend
    rw [hnot n hn] at hend
    cases hend
  · refine hcount'.trans ?_
    split <;> omega

/-- A message is no reason to end. -/
theorem not_ended_append {trace : List Note} (h : ∀ n ∈ trace, n.isDelivery = true)
    (message : Bytes) (verdict : Option MessageDisposition) :
    ¬ ∃ n ∈ trace ++ [Note.delivered message verdict], n.isDelivery = false := by
  rintro ⟨n, hn, hn'⟩
  rcases List.mem_append.1 hn with hn | hn
  · rw [h n hn] at hn'
    cases hn'
  · rw [List.mem_singleton.1 hn] at hn'
    cases hn'

/-- **`DeliverMessage` keeps the invariant**, in a session that has no reason to end. -/
theorem deliverMessage_orderly (handler : Option Handler) (env : Environment) (message : Bytes)
    (h : Orderly config r)
    (htransport : r.transport ≠ .detecting) (hnot : ¬ Over config r) :
    Orderly config (deliverMessage config handler env message r).2 := by
  -- nothing but deliveries so far, since the session is not over
  have hall : ∀ n ∈ r.trace, n.isDelivery = true := by
    intro n hn
    cases hn' : n.isDelivery with
    | true => rfl
    | false => exact absurd (h.finished ⟨n, hn, hn'⟩) hnot
  obtain ⟨start, count, -, hwindow⟩ := rateWindow_eq r.toControl (env.clock r.delivered.length)
  have hr : Tidy config 0 { r with rateWindowMs := start, rateWindowMessages := count } :=
    ⟨h.registered, h.opened, h.ordered, h.malformed, h.recorded⟩
  unfold deliverMessage
  rw [hwindow]
  dsimp only
  split
  · have hnoted := hr.note .rateLimit true r.malformedMessages
    exact ⟨close_tidy env _ _ hnoted, fun _ => close_over env _ _ hnoted htransport⟩
  · cases handler with
    | none =>
        refine ⟨hr.deliver hall message none (r.delivered ++ [message]), fun hended => ?_⟩
        exact absurd hended (not_ended_append hall message none)
    | some verdict =>
        have hnoted := hr.deliver hall message (some (verdict (r.delivered ++ [message])))
          (r.delivered ++ [message])
        have hnot' := not_ended_append hall message (some (verdict (r.delivered ++ [message])))
        obtain ⟨htidy, hknown, hover⟩ := interfere_spec env
          (env.meanwhile (r.delivered ++ [message]).length) hnoted htransport
        dsimp only at htidy hover hknown ⊢
        generalize interfere config env _ _ = r' at htidy hover hknown ⊢
        have hend : (∃ n ∈ r'.trace, n.isDelivery = false) → Over config r' := by
          intro hended
          rcases hover with rfl | hover
          · exact absurd hended hnot'
          · exact hover
        by_cases haccepted : verdict (r.delivered ++ [message]) = .accepted
        · rw [if_pos haccepted]
          rw [haccepted, if_neg (by decide)] at htidy
          exact ⟨htidy, hend⟩
        · rw [if_neg haccepted]
          split
          · have hended := htidy.note (if verdict (r.delivered ++ [message]) = .close then
              .closeVerdict else .malformedLimit) r'.limited (r'.malformedMessages + 1)
            exact ⟨close_tidy env _ _ hended, fun _ => close_over env _ _ hended hknown⟩
          · next hbelow =>
              simp only [Bool.or_eq_true, decide_eq_true_eq, not_or, Nat.not_le] at hbelow
              have hmalformed : verdict (r.delivered ++ [message]) = .malformed := by
                cases hverdict : verdict (r.delivered ++ [message]) with
                | accepted => exact absurd hverdict haccepted
                | malformed => rfl
                | close => exact absurd hverdict hbelow.1
              rw [hmalformed, if_pos rfl] at htidy
              refine ⟨⟨htidy.registered, htidy.opened, htidy.ordered, htidy.malformed, ?_⟩, hend⟩
              intro hdeliveries
              exact ⟨(htidy.recorded hdeliveries).1, Or.inr hbelow.2⟩

/-! ### The loops -/

/-- A raw session goes on until it is disconnected. -/
theorem not_over_raw (htransport : r.transport = .rawTcp) (hconnected : ¬ r.disconnectStarted = true) :
    ¬ Over config r := by
  rintro (hstarted | ⟨hws, -⟩ | ⟨hdetecting, -⟩)
  · exact hconnected hstarted
  · rw [htransport] at hws
    cases hws
  · rw [htransport] at hdetecting
    cases hdetecting

/-- A WebSocket session goes on until it is disconnected or leaves its open state. -/
theorem not_over_webSocket (htransport : r.transport = .webSocket)
    (hopen : ¬ (r.disconnectStarted || r.state ≠ .opened) = true) : ¬ Over config r := by
  simp only [Bool.or_eq_true, decide_eq_true_eq, not_or, not_not] at hopen
  rintro (hstarted | ⟨-, hclosing⟩ | ⟨hdetecting, -⟩)
  · exact hopen.1 hstarted
  · rw [hopen.2] at hclosing
    cases hclosing
  · rw [htransport] at hdetecting
    cases hdetecting

theorem rawLoop_orderly (rounds : ℕ) (h : Orderly config r) (htransport : r.transport = .rawTcp) :
    Orderly config (rawLoop config handler env rounds r) := by
  induction rounds generalizing r with
  | zero => exact h
  | succ rounds ih =>
      unfold rawLoop
      split
      · exact updateInboundAccounting_orderly env _ h
      · next hconnected =>
          have hread : Orderly config { r with rawDecoder := r.rawDecoder.next.2.2 } :=
            ⟨⟨h.registered, h.opened, h.ordered, h.malformed, h.recorded⟩, h.finished⟩
          have hnot : ¬ Over config { r with rawDecoder := r.rawDecoder.next.2.2 } :=
            not_over_raw htransport hconnected
          dsimp only
          split
          · exact updateInboundAccounting_orderly env _ hread
          · have hdelivered := deliverMessage_orderly handler env
              r.rawDecoder.next.2.1 hread (by rw [htransport]; decide) hnot
            split
            · exact ih hdelivered ((deliverMessage_after config handler env _ _).transport.trans
                htransport)
            · exact hdelivered
          · exact disconnect_orderly (hread.toTidy.note .invalidLength r.limited _)
          · exact disconnect_orderly (hread.toTidy.note .invalidLength r.limited _)

theorem processRaw_orderly (bytes : Bytes) (h : Orderly config r)
    (htransport : r.transport = .rawTcp) :
    Orderly config (processRaw config handler env bytes r) := by
  have hread : Orderly config { r with rawDecoder := (r.rawDecoder.append bytes).2 } :=
    ⟨⟨h.registered, h.opened, h.ordered, h.malformed, h.recorded⟩, h.finished⟩
  unfold processRaw
  dsimp only
  split
  · exact disconnect_orderly (hread.toTidy.note .appendFailed true r.malformedMessages)
  · exact rawLoop_orderly _ (updateInboundAccounting_orderly env _ hread)
      ((updateInboundAccounting_after env _ _).transport.trans htransport)

theorem webSocketLoop_orderly (rounds : ℕ) (h : Orderly config r)
    (htransport : r.transport = .webSocket) :
    Orderly config (webSocketLoop config handler env rounds r) := by
  induction rounds generalizing r with
  | zero => exact h
  | succ rounds ih =>
      unfold webSocketLoop
      split
      · exact updateInboundAccounting_orderly env _ h
      · next hopen =>
          have hread : Orderly config { r with webSocketDecoder := r.webSocketDecoder.next.decoder } :=
            ⟨⟨h.registered, h.opened, h.ordered, h.malformed, h.recorded⟩, h.finished⟩
          have hnot : ¬ Over config { r with webSocketDecoder := r.webSocketDecoder.next.decoder } :=
            not_over_webSocket htransport hopen
          have hknown : r.transport ≠ .detecting := by
            rw [htransport]
            decide
          -- each way to end writes its note first and then closes
          have hends : ∀ (reason : Ending) (malformed : ℕ) (code : UInt16) (text : Bytes),
              Orderly config (close config env code text (note reason
                { r with
                  webSocketDecoder := r.webSocketDecoder.next.decoder
                  malformedMessages := malformed })) := by
            intro reason malformed code text
            have hnoted := hread.toTidy.note reason r.limited malformed
            exact ⟨close_tidy env _ _ hnoted, fun _ => close_over env _ _ hnoted hknown⟩
          dsimp only
          split
          · exact updateInboundAccounting_orderly env _ hread
          · exact hends .messageTooLarge r.malformedMessages _ _
          · exact hends .bufferLimitExceeded r.malformedMessages _ _
          · exact hends .protocolError (r.malformedMessages + 1) _ _
          · split
            · have hdelivered := deliverMessage_orderly handler env
                r.webSocketDecoder.next.event.payload hread hknown hnot
              split
              · exact ih hdelivered ((deliverMessage_after config handler env _ _).transport.trans
                  htransport)
              · exact hdelivered
            · rw [sendControl_false]
              exact ih (enqueue_orderly env _ hread)
                ((enqueue_after config env _ _).transport.trans htransport)
            · exact ih hread htransport
            · have hnoted := hread.toTidy.note .closeFrame r.limited r.malformedMessages
              refine ⟨sendControl_tidy env _ _ htransport hnoted, fun _ => ?_⟩
              rcases sendControl_cases env config .close
                r.webSocketDecoder.next.event.payload
                (r := note .closeFrame { r with webSocketDecoder := r.webSocketDecoder.next.decoder })
                htransport with ⟨hclosed, -⟩ | hover
              · simp only [Bool.or_eq_true, decide_eq_true_eq, not_or, not_not] at hopen
                rcases hclosed with hstate | hstate
                · exact absurd (hopen.2.symm.trans hstate) (by decide)
                · exact absurd (hopen.2.symm.trans hstate) (by decide)
              · exact hover

theorem processWebSocket_orderly (bytes : Bytes) (h : Orderly config r)
    (htransport : r.transport = .webSocket) :
    Orderly config (processWebSocket config handler env bytes r) := by
  have hread : Orderly config { r with webSocketDecoder := (r.webSocketDecoder.append bytes).2 } :=
    ⟨⟨h.registered, h.opened, h.ordered, h.malformed, h.recorded⟩, h.finished⟩
  unfold processWebSocket
  split
  · exact h
  · dsimp only
    split
    · have hnoted := hread.toTidy.note .appendFailed true r.malformedMessages
      refine ⟨close_tidy env _ _ hnoted, fun _ => close_over env _ _ hnoted ?_⟩
      show r.transport ≠ .detecting
      rw [htransport]
      decide
    · exact webSocketLoop_orderly _ (updateInboundAccounting_orderly env _ hread)
        ((updateInboundAccounting_after env _ _).transport.trans htransport)

/-! ### Detection -/

/-- The bytes of a read do not turn a rejected handshake into another. -/
theorem buffer_orderly (bytes : Bytes) (h : Orderly config r) (htransport : r.transport = .detecting) :
    Orderly config (buffer bytes r) := by
  refine ⟨⟨h.registered, h.opened, h.ordered, h.malformed, h.recorded⟩, fun hended => ?_⟩
  rcases h.finished hended with hstarted | ⟨hws, -⟩ | ⟨-, result, hrejected⟩
  · exact Or.inl hstarted
  · rw [htransport] at hws
    cases hws
  · exact Or.inr (Or.inr ⟨htransport, detection_rejected_append hrejected bytes⟩)

/-- `ProcessDetection` leaves detection with a session that was not rejected. -/
theorem leaveDetection_orderly (transport : TransportKind) (h : Orderly config r)
    (htransport : r.transport = .detecting)
    (hnot : ∀ result, detection config r.detectionBuffer ≠ .rejected result) :
    Orderly config (leaveDetection env transport r) := by
  refine updateInboundAccounting_orderly env 0
    ⟨⟨h.registered, fun _ => Or.inr (Or.inl rfl), h.ordered, h.malformed, h.recorded⟩,
      fun hended => ?_⟩
  rcases h.finished hended with hstarted | ⟨hws, -⟩ | ⟨-, result, hrejected⟩
  · exact Or.inl hstarted
  · rw [htransport] at hws
    cases hws
  · exact absurd hrejected (hnot result)

theorem disconnect_detectionBuffer (r : Reading) :
    (disconnect r).detectionBuffer = r.detectionBuffer := by
  unfold disconnect
  split <;> rfl

variable (env) in
theorem updateInboundAccounting_detectionBuffer (bytes : ℕ) (r : Reading) :
    (updateInboundAccounting env bytes r).detectionBuffer = r.detectionBuffer := by
  unfold updateInboundAccounting
  dsimp only
  split
  · split
    · exact disconnect_detectionBuffer _
    · rfl
  · rfl

variable (env) in
theorem enqueue_detectionBuffer (config : ServerConfig) (item : OutboundItem) (r : Reading) :
    (enqueue config env item r).2.detectionBuffer = r.detectionBuffer := by
  obtain ⟨calls, bytes, hr | ⟨-, -, hr⟩⟩ := enqueue_cases config env item r
  · rw [hr]
  · rw [hr]
    exact disconnect_detectionBuffer _

variable (env) in
/-- The response to an accepted handshake. -/
theorem sendRaw_false (config : ServerConfig) (response : Bytes) (r : Reading) :
    ∃ replies, sendRaw config env response false r =
      { (enqueue config env (responseItem response false) r).2 with replies := replies } := by
  unfold sendRaw
  dsimp only
  rw [if_neg (by simp)]
  split
  · exact ⟨_, rfl⟩
  · exact ⟨_, rfl⟩

variable (env) in
/-- The response to a rejected one, in a session that is at its end. -/
theorem sendRaw_over (response : Bytes) (h : Tidy config 0 r) (hover : Over config r) :
    Orderly config (sendRaw config env response true r) := by
  have hqueued := enqueue_tidy env (responseItem response true) h
  have hqueuedOver := enqueue_over env (responseItem response true) hover
  unfold sendRaw
  dsimp only
  generalize enqueue config env (responseItem response true) r = result at hqueued hqueuedOver ⊢
  cases hresult : result.1 with
  | false => simpa using disconnect_orderly hqueued
  | true =>
      simp only [if_true, Bool.not_true, Bool.false_and, Bool.false_eq_true, if_false]
      exact ⟨⟨hqueued.registered, hqueued.opened, hqueued.ordered, hqueued.malformed,
        hqueued.recorded⟩, fun _ => hqueuedOver⟩

theorem processDetection_orderly (bytes : Bytes) (h : Orderly config r)
    (htransport : r.transport = .detecting) :
    Orderly config (processDetection config handler env bytes r) := by
  unfold processDetection
  dsimp only
  split
  · exact disconnect_orderly h.toTidy
  · have hr := updateInboundAccounting_orderly env (r.detectionBuffer ++ bytes).length
      (buffer_orderly bytes h htransport)
    have hdetecting : (updateInboundAccounting env (r.detectionBuffer ++ bytes).length
        (buffer bytes r)).transport = .detecting :=
      (updateInboundAccounting_after env _ _).transport.trans htransport
    have hbuffer := updateInboundAccounting_detectionBuffer env
      (r.detectionBuffer ++ bytes).length (buffer bytes r)
    generalize updateInboundAccounting env (r.detectionBuffer ++ bytes).length (buffer bytes r) = r'
      at hr hdetecting hbuffer ⊢
    have hbuffered : r'.detectionBuffer = r.detectionBuffer ++ bytes := hbuffer
    rw [← hbuffered]
    cases hdetection : detection config r'.detectionBuffer with
    | undecided => exact hr
    | raw =>
        refine processRaw_orderly _ (leaveDetection_orderly .rawTcp hr hdetecting ?_) ?_
        · intro result hrejected
          rw [hdetection] at hrejected
          cases hrejected
        · exact (updateInboundAccounting_after env 0 _).transport
    | rejected result =>
        exact sendRaw_over env result.response (hr.toTidy.note .rejectedHandshake r'.limited _)
          (Or.inr (Or.inr ⟨hdetecting, result, hdetection⟩))
    | accepted result =>
        dsimp only
        obtain ⟨replies, hsent⟩ := sendRaw_false env config result.response r'
        have hqueued := enqueue_orderly env (responseItem result.response false) hr
        have hstill := (enqueue_after config env (responseItem result.response false)
          r').transport.trans hdetecting
        have hsame := enqueue_detectionBuffer env config
          (responseItem result.response false) r'
        rw [hsent]
        have hleft : Orderly config (leaveDetection env .webSocket
            { (enqueue config env (responseItem result.response false) r').2 with
              replies := replies }) := by
          refine leaveDetection_orderly .webSocket
            ⟨⟨hqueued.registered, hqueued.opened, hqueued.ordered, hqueued.malformed,
              hqueued.recorded⟩, hqueued.finished⟩ hstill ?_
          intro result' hrejected
          dsimp only at hrejected
          rw [hsame, hdetection] at hrejected
          cases hrejected
        split
        · exact hleft
        · exact processWebSocket_orderly _ hleft (updateInboundAccounting_after env 0 _).transport

/-- **A read keeps the invariant.** -/
theorem handleRead_orderly (bytes : Bytes) (h : Orderly config r) :
    Orderly config (handleRead config handler env bytes r) := by
  unfold handleRead
  split
  · exact disconnect_orderly h.toTidy
  · unfold processIncoming
    split
    · next htransport => exact processDetection_orderly bytes h htransport
    · next htransport => exact processRaw_orderly bytes h htransport
    · next htransport => exact processWebSocket_orderly bytes h htransport

/-- Whatever a session meets keeps the invariant. -/
theorem runInputs_orderly (inputs : List Input) :
    Orderly config (runInputs config handler env inputs) := by
  have hmeet : ∀ r, Orderly config r → Orderly config
      (inputs.foldl (meet config handler env) r) := by
    induction inputs with
    | nil => exact fun r h => h
    | cons input inputs ih =>
        intro r h
        refine ih _ ?_
        cases input with
        | read bytes => exact handleRead_orderly bytes h
        | meanwhile i => exact interfere_orderly env i h
  refine hmeet (opening config) ⟨⟨Or.inl rfl, fun hknown => absurd rfl hknown, List.Pairwise.nil, ?_,
    fun _ => ⟨Nat.zero_le _, Or.inl rfl⟩⟩, fun hended => ?_⟩
  · exact Nat.zero_le _
  · obtain ⟨n, hn, -⟩ := hended
    cases hn

variable (config) (handler) (env)

/-- **Nothing is delivered behind the end of a session**: no message follows a reason to end it, and
so the handler finds no more messages malformed than the limit allows. -/
theorem nothing_delivered_behind_end (inputs : List Input) :
    (∀ before reason after,
      (runInputs config handler env inputs).trace = before ++ .ended reason :: after →
        ∀ n ∈ after, n.isDelivery = false) ∧
    (runInputs config handler env inputs).trace.countP Note.isMalformed ≤
      max 1 config.malformedMessageLimit.toNat := by
  have h : Orderly config (runInputs config handler env inputs) := runInputs_orderly inputs
  refine ⟨?_, h.malformed⟩
  intro before reason after htrace n hn
  have hordered := h.ordered
  rw [htrace] at hordered
  exact (List.pairwise_cons.1 (List.pairwise_append.1 hordered).2.1).1 n hn rfl

/-- Two raw messages in one read: the first one is malformed, the second one is not delivered. -/
example :
    (runInputs { malformedMessageLimit := 1 } (some fun _ => .malformed)
      ⟨fun _ => 0, fun _ => 0, fun _ => false, fun _ => false, fun _ => false, fun _ => .nothing⟩
      [.read [0, 0, 0, 1, 7, 0, 0, 0, 1, 8]]).trace =
    [.delivered [7] (some .malformed), .ended .malformedLimit, .ended .disconnected] := by
  decide +kernel

end SessionInput

end RealtimeEngine
