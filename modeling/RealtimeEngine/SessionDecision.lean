/-
**What detection comes to.**

At each read `ProcessDetection` looks at everything it has buffered.  What it makes of a buffer is
one of four decisions, or none yet; the first decision settles the transport of the session and its
reply to the handshake, and everything behind it goes where the decision says.

For the beginnings of one stream the decisions are known in advance: where the first byte is that
cannot belong to `GET `, where the header block ends, and where the buffer outgrows a limit.

Main definitions:

* `RealtimeEngine.SessionInput.Decision`, `RealtimeEngine.SessionInput.decision`;
* `RealtimeEngine.SessionInput.Settled` — what a session is like behind a decision.

Main results:

* `RealtimeEngine.SessionInput.decision_take_raw`, `RealtimeEngine.SessionInput.decision_take_http`
  — **the decisions on the beginnings of a stream**;
* `RealtimeEngine.SessionInput.handleRead_decides`, `RealtimeEngine.SessionInput.Settled.read` —
  what a read does before a decision, and behind one.
-/

import RealtimeEngine.SessionStreams

set_option relaxedAutoImplicit false
set_option autoImplicit false

namespace RealtimeEngine

open TextSearch

/-- The bytes that may be buffered before the handshake is complete: the limit is not looked at
before the fourth byte. -/
def ServerConfig.handshakeLimit (config : ServerConfig) : ℕ :=
  max 3 config.maxHandshakeBytes.toNat

namespace SessionInput

/-- What is answered to a request that outgrows its limit. -/
def requestTooLarge : Bytes :=
  ascii "HTTP/1.1 431 Request Header Fields Too Large\r\nConnection: close\r\n\r\n"

/-- What detection comes to. -/
inductive Decision
  /-- The buffer is full, and the session is disconnected. -/
  | overflow
  | raw
  | rejected (response : Bytes)
  | accepted (response : Bytes) (consumed : ℕ)
  deriving DecidableEq

/-- The decision on a buffer, if there is one. -/
def decision (config : ServerConfig) (buffer : Bytes) : Option Decision :=
  if buffer.length > config.maxSessionInboundBytes.toNat then some .overflow
  else
    match detection config buffer with
    | .undecided => none
    | .raw => some .raw
    | .rejected result => some (.rejected result.response)
    | .accepted result => some (.accepted result.response result.consumed)

/-- The decision on a header block that ends in front of its empty line. -/
def blockDecision (config : ServerConfig) (stream : Bytes) (headerEnd : ℕ) : Decision :=
  let result := parseBlock stream headerEnd config.originValidator
  if result.status = .accepted then .accepted result.response result.consumed
  else .rejected result.response

variable {config : ServerConfig} {stream : Bytes} {n : ℕ}

/-- The decisions on a stream that is not HTTP. -/
theorem decision_take_raw (hraw : possibleHttp stream = false) (hn : n ≤ stream.length) :
    decision config (stream.take n) =
      if n > config.maxSessionInboundBytes.toNat then some .overflow
      else if agreement stream (ascii "GET ") < n then some .raw
      else none := by
  have hlength : (stream.take n).length = n := by
    rw [List.length_take]
    omega
  have hforeign := agreement_lt hraw
  have hbegins := possibleHttp_take hn
  unfold decision detection
  rw [hlength]
  by_cases hfull : n > config.maxSessionInboundBytes.toNat
  · rw [if_pos hfull, if_pos hfull]
  · rw [if_neg hfull, if_neg hfull]
    by_cases hseen : agreement stream (ascii "GET ") < n
    · have hnot : possibleHttp (stream.take n) = false :=
        Bool.eq_false_iff.2 fun htrue => by
          have hle := hbegins.1 htrue
          omega
      rw [if_pos hseen, hnot]
      rfl
    · have hmay : possibleHttp (stream.take n) = true := hbegins.2 (by omega)
      rw [if_neg hseen, hmay, if_neg (by decide), if_pos (by omega)]

/-- The decisions on a stream that starts as HTTP does. -/
theorem decision_take_http (hhttp : possibleHttp stream = true) (hn : n ≤ stream.length) :
    decision config (stream.take n) =
      if n > config.maxSessionInboundBytes.toNat then some .overflow
      else if n > config.handshakeLimit then some (.rejected requestTooLarge)
      else
        match find headerTerminator stream with
        | none => none
        | some headerEnd =>
            if headerEnd + 4 ≤ n then some (blockDecision config stream headerEnd) else none := by
  have hlength : (stream.take n).length = n := by
    rw [List.length_take]
    omega
  have hlimit : config.handshakeLimit = max 3 config.maxHandshakeBytes.toNat := rfl
  have hstream := possibleHttp_take (le_refl stream.length)
  rw [List.take_length] at hstream
  have hmay : possibleHttp (stream.take n) = true :=
    (possibleHttp_take hn).2 ((by omega : min n 4 ≤ min stream.length 4).trans (hstream.1 hhttp))
  have hsplit : stream.take n ++ stream.drop n = stream := List.take_append_drop n stream
  unfold decision detection
  rw [hlength]
  by_cases hfull : n > config.maxSessionInboundBytes.toNat
  · rw [if_pos hfull, if_pos hfull]
  · rw [if_neg hfull, if_neg hfull, hmay, if_neg (by decide)]
    -- fewer bytes than `GET ` are not yet handed to the parser
    by_cases hshort : n < 4
    · rw [if_pos hshort, if_neg (by omega)]
      cases find headerTerminator stream with
      | none => rfl
      | some headerEnd => exact (if_neg (by omega)).symm
    · rw [if_neg hshort]
      by_cases hlarge : n > config.maxHandshakeBytes.toNat
      · rw [if_pos (by omega), parseHandshake, if_pos (by omega)]
        rfl
      · rw [if_neg (by omega), parseHandshake, if_neg (by omega)]
        cases hfind : find headerTerminator stream with
        | none =>
            have hnone : find headerTerminator (stream.take n) = none := by
              cases hsome : find headerTerminator (stream.take n) with
              | none => rfl
              | some i =>
                  have hagain := find_append hsome (stream.drop n)
                  rw [hsplit, hfind] at hagain
                  cases hagain
            rw [hnone]
        | some headerEnd =>
            dsimp only
            by_cases hend : headerEnd + 4 ≤ n
            · have hfound := find_take hfind (n := n) hend
              have hblock := parseBlock_append hfound (stream.drop n) config.originValidator
              rw [hsplit] at hblock
              rw [hfound, if_pos hend, blockDecision, hblock]
              dsimp only
              rcases (@parseBlock_cases (stream.take n) config.originValidator headerEnd).2 with
                ⟨hrejected, -⟩ | ⟨haccepted, -⟩
              · rw [hrejected]
                rfl
              · rw [haccepted]
                rfl
            · rw [find_take_none hfind (show n < headerEnd + headerTerminator.length from
                Nat.not_le.1 hend), if_neg hend]

/-- A beginning of what is not decided is not decided either. -/
theorem decision_take_mono {m : ℕ} (hmn : m ≤ n) (hn : n ≤ stream.length)
    (h : decision config (stream.take n) = none) : decision config (stream.take m) = none := by
  cases hhttp : possibleHttp stream with
  | false =>
      rw [decision_take_raw hhttp hn] at h
      rw [decision_take_raw hhttp (by omega)]
      split at h
      · cases h
      · split at h
        · cases h
        · rw [if_neg (by omega), if_neg (by omega)]
  | true =>
      rw [decision_take_http hhttp hn] at h
      rw [decision_take_http hhttp (by omega)]
      split at h
      · cases h
      · split at h
        · cases h
        · rw [if_neg (by omega), if_neg (by omega)]
          cases hfind : find headerTerminator stream with
          | none => rfl
          | some headerEnd =>
              rw [hfind] at h
              dsimp only at h ⊢
              split at h
              · cases h
              · exact if_neg (by omega)

/-- A header block is not rejected for its size. -/
theorem requestTooLarge_notMem : requestTooLarge ∉ refusals := by
  decide

/-! ### Replies -/

/-- The reply fits into the queue of the session. -/
def Fits (config : ServerConfig) (response : Bytes) : Prop :=
  response.length ≤ config.maxSessionQueuedBytes.toNat

instance (config : ServerConfig) (response : Bytes) : Decidable (Fits config response) :=
  inferInstanceAs (Decidable (_ ≤ _))

variable {env : Environment} {r : Reading} {response : Bytes}

theorem size_responseItem (response : Bytes) (closeAfter : Bool) :
    (responseItem response closeAfter).size = response.length := by
  simp [responseItem, OutboundItem.size]

/-- The first reply of a session is queued when it fits. -/
theorem sendRaw_fits (henv : env.Calm) (h : Fits config response)
    (hconnected : r.disconnectStarted = false)
    (hqueue : r.acceptedBytes = 0) (closeAfter : Bool) :
    ∃ calls bytes, sendRaw config env response closeAfter r =
      { r with enqueues := calls, acceptedBytes := bytes, replies := r.replies ++ [response] } := by
  have hqueued : enqueue config env (responseItem response closeAfter) r =
      (true, { r with
        enqueues := r.enqueues + 1, acceptedBytes := 0 + response.length }) := by
    unfold Fits at h
    simp only [enqueue, hconnected, hqueue, size_responseItem, Nat.zero_sub, henv.crowded]
    rw [if_neg (by decide), if_neg (by simp; omega), henv.severed]
    rfl
  refine ⟨r.enqueues + 1, 0 + response.length, ?_⟩
  rw [sendRaw, hqueued]
  rfl

/-- The first reply of a session is not queued when it does not fit. -/
theorem sendRaw_refused (henv : env.Calm) (h : ¬ Fits config response) (closeAfter : Bool) :
    ∃ calls bytes, sendRaw config env response closeAfter r =
      (if closeAfter then disconnect else id)
        { r with enqueues := calls, acceptedBytes := bytes } := by
  obtain ⟨calls, bytes, hr⟩ := enqueue_eq config henv (responseItem response closeAfter) r
  have hrefused : (enqueue config env (responseItem response closeAfter) r).1 = false := by
    unfold Fits at h
    unfold enqueue
    dsimp only
    split
    · rfl
    · rw [if_pos (by rw [size_responseItem]; simp; omega)]
  refine ⟨calls, bytes, ?_⟩
  rw [← hr, sendRaw]
  dsimp only
  rw [hrefused]
  cases closeAfter with
  | false => rfl
  | true => rfl

/-! ### Behind a decision -/

/-- The transport of the session. -/
def Decision.transport : Decision → TransportKind
  | .overflow | .rejected _ => .detecting
  | .raw => .rawTcp
  | .accepted _ _ => .webSocket

/-- The reply to the handshake, if one is transmitted. -/
def Decision.reply (config : ServerConfig) : Decision → Option Bytes
  | .overflow | .raw => none
  | .rejected response | .accepted response _ =>
      if Fits config response then some response else none

/-- A WebSocket session before its first frame. -/
def firstFrame (config : ServerConfig) : WebSocketDecoder × Deliveries :=
  ((ServerSteps.Control.fresh config).webSocketDecoder, {})

/-- The messages that are delivered, from the whole stream. -/
def Decision.delivered (config : ServerConfig) (handler : Option Handler) (stream : Bytes) :
    Decision → List Bytes
  | .overflow | .rejected _ => []
  | .raw => ((rawConsumer config handler).drain {} stream).state.delivered
  | .accepted _ consumed =>
      ((webSocketConsumer config handler).drain (firstFrame config)
        (stream.drop consumed)).state.2.delivered

variable (config) (handler : Option Handler)

/-- What has become of the bytes seen so far. -/
def Decision.Digested (seen : Bytes) (r : Reading) : Decision → Prop
  | .overflow => r.disconnectStarted = true ∧ r.delivered = []
  | .rejected _ =>
      r.delivered = [] ∧ (r.disconnectStarted = true ∨
        r.replies ≠ [] ∧ ∃ result, detection config r.detectionBuffer = .rejected result)
  | .raw => r.limited = true ∨ FollowsRaw config r ((rawConsumer config handler).drain {} seen)
  | .accepted _ consumed =>
      consumed ≤ seen.length ∧ (r.limited = true ∨ FollowsWebSocket r
        ((webSocketConsumer config handler).drain (firstFrame config) (seen.drop consumed)))

/-- The session has decided, and has seen so many bytes. -/
structure Settled (d : Decision) (seen : Bytes) (r : Reading) : Prop where
  transport : r.transport = d.transport
  reply : r.replies.head? = d.reply config
  digested : d.Digested config handler seen r

/-- The session has seen some bytes, and has not decided. -/
def Undecided (seen : Bytes) (r : Reading) : Prop :=
  ∃ accounted charges, r =
    { opening config with
      detectionBuffer := seen, inboundAccounted := accounted, charges := charges }

variable {config} {handler} {seen : Bytes} {d : Decision}

/-- What a session has delivered. -/
theorem Settled.delivered (h : Settled config handler d seen r) (hlimited : r.limited = false) :
    r.delivered = d.delivered config handler seen := by
  have hdigested := h.digested
  cases d with
  | overflow => exact hdigested.2
  | rejected response => exact hdigested.1
  | raw =>
      rcases hdigested with hlimit | hfollows
      · rw [hlimited] at hlimit
        cases hlimit
      · rw [Decision.delivered]
        cases hfed : (rawConsumer config handler).drain {} seen with
        | halted p =>
            rw [hfed] at hfollows
            exact hfollows.2
        | waiting p rest =>
            rw [hfed] at hfollows
            obtain ⟨-, -, -, -, rfl, -⟩ := hfollows
            rfl
  | accepted response consumed =>
      rcases hdigested.2 with hlimit | hfollows
      · rw [hlimited] at hlimit
        cases hlimit
      · rw [Decision.delivered]
        cases hfed : (webSocketConsumer config handler).drain (firstFrame config)
            (seen.drop consumed) with
        | halted p =>
            rw [hfed] at hfollows
            exact hfollows.2
        | waiting p rest =>
            rw [hfed] at hfollows
            obtain ⟨-, -, -, rfl, -⟩ := hfollows
            rfl

/-- A session that is disconnected is not touched any more. -/
theorem handleRead_started (bytes : Bytes) (h : r.disconnectStarted = true) :
    handleRead config handler env bytes r = r := by
  rw [handleRead, if_pos (by simp [h]), disconnect, if_pos h]

theorem handleRead_detecting {bytes : Bytes} (hbytes : bytes ≠ [])
    (hconnected : r.disconnectStarted = false) (htransport : r.transport = .detecting) :
    handleRead config handler env bytes r = processDetection config handler env bytes r := by
  rw [handleRead, if_neg (by simp [hconnected, hbytes]), processIncoming, htransport]

/-- The test of `ProcessDetection` is about the buffer with the read in it. -/
theorem overflow_iff (buffer bytes : Bytes) (limit : ℕ) :
    (buffer.length > limit || bytes.length > limit - buffer.length) = true ↔
      (buffer ++ bytes).length > limit := by
  rw [List.length_append, Bool.or_eq_true, decide_eq_true_iff, decide_eq_true_iff]
  omega

/-- The session with a read in its detection buffer, charged for it. -/
def buffered (bytes : Bytes) (charges : ℕ) (r : Reading) : Reading :=
  { r with
    detectionBuffer := r.detectionBuffer ++ bytes
    inboundAccounted := (r.detectionBuffer ++ bytes).length, charges := charges }

variable (config) (handler) in
/-- `ProcessDetection`, by its decision, below the limits of the server. -/
theorem processDetection_eq (henv : env.Calm) (bytes : Bytes) (r : Reading) :
    ∃ charges, processDetection config handler env bytes r =
      if (r.detectionBuffer ++ bytes).length > config.maxSessionInboundBytes.toNat then disconnect r
      else
        match detection config (r.detectionBuffer ++ bytes) with
        | .undecided => buffered bytes charges r
        | .raw =>
            processRaw config handler env (r.detectionBuffer ++ bytes)
              (leaveDetection env .rawTcp (buffered bytes charges r))
        | .rejected result =>
            sendRaw config env result.response true
              (note .rejectedHandshake (buffered bytes charges r))
        | .accepted result =>
            let r' := leaveDetection env .webSocket
              (sendRaw config env result.response false (buffered bytes charges r))
            let remaining := (r.detectionBuffer ++ bytes).drop result.consumed
            if remaining.isEmpty then r' else processWebSocket config handler env remaining r' := by
  obtain ⟨charges, hupdate⟩ := updateInboundAccounting_calm henv
    (r.detectionBuffer ++ bytes).length (buffer bytes r)
  refine ⟨charges, ?_⟩
  rw [processDetection]
  dsimp only
  by_cases hfull : (r.detectionBuffer ++ bytes).length > config.maxSessionInboundBytes.toNat
  · rw [if_pos hfull, if_pos ((overflow_iff _ _ _).2 hfull)]
  · rw [if_neg hfull, if_neg (mt (overflow_iff _ _ _).1 hfull), hupdate]
    rfl

/-- A reply that closes is queued, or the session is disconnected. -/
theorem sendRaw_closes (henv : env.Calm) (response : Bytes) (r : Reading) :
    ∃ calls bytes, sendRaw config env response true r =
        { r with enqueues := calls, acceptedBytes := bytes, replies := r.replies ++ [response] } ∨
      sendRaw config env response true r =
        disconnect { r with enqueues := calls, acceptedBytes := bytes } := by
  obtain ⟨calls, bytes, hr⟩ := enqueue_eq config henv (responseItem response true) r
  refine ⟨calls, bytes, ?_⟩
  rw [sendRaw]
  dsimp only
  rw [hr]
  cases (enqueue config env (responseItem response true) r).1 with
  | true => exact Or.inl rfl
  | false => exact Or.inr rfl

theorem disconnect_started (r : Reading) : (disconnect r).disconnectStarted = true := by
  unfold disconnect
  split
  · next hstarted => exact hstarted
  · rfl

/-- A session that is rejected and disconnected keeps what it has. -/
theorem Settled.disconnect {response : Bytes} {r' : Reading} (more : Bytes)
    (h : Settled config handler (.rejected response) seen r) (htransport : r'.transport = r.transport)
    (hreplies : r'.replies = r.replies) (hdelivered : r'.delivered = r.delivered) :
    Settled config handler (.rejected response) (seen ++ more) (disconnect r') := by
  have hafter := disconnect_after r'
  refine ⟨(hafter.transport.trans htransport).trans h.transport, ?_, ?_,
    Or.inl (disconnect_started r')⟩
  · rw [hafter.replies, hreplies]
    exact h.reply
  · rw [(disconnect_stops r').2, hdelivered]
    exact h.digested.1

/-- A read behind a rejected request changes nothing that matters. -/
theorem Settled.rejected (henv : env.Calm) (bytes : Bytes) (hbytes : bytes ≠ []) {response : Bytes}
    (h : Settled config handler (.rejected response) seen r) :
    Settled config handler (.rejected response) (seen ++ bytes)
      (handleRead config handler env bytes r) := by
  have hwhole := h
  obtain ⟨htransport, hreply, hdelivered, hdigested⟩ := h
  cases hconnected : r.disconnectStarted with
  | true =>
      rw [handleRead_started bytes hconnected]
      exact ⟨htransport, hreply, hdelivered, Or.inl hconnected⟩
  | false =>
      obtain ⟨hreplies, result, hdetection⟩ := hdigested.resolve_left (by simp [hconnected])
      obtain ⟨result', hagain⟩ := detection_rejected_append hdetection bytes
      obtain ⟨charges, hprocess⟩ := processDetection_eq config handler henv bytes r
      rw [handleRead_detecting hbytes hconnected htransport, hprocess]
      split
      · exact hwhole.disconnect bytes rfl rfl rfl
      · rw [hagain]
        obtain ⟨calls, accepted, hsent | hsent⟩ := sendRaw_closes henv result'.response
          (note .rejectedHandshake (buffered bytes charges r))
        · dsimp only
          rw [hsent]
          refine ⟨htransport, ?_, hdelivered, Or.inr ⟨by simp, result', hagain⟩⟩
          rw [← hreply]
          exact List.head?_append_of_ne_nil _ hreplies
        · dsimp only
          rw [hsent]
          exact hwhole.disconnect bytes rfl rfl rfl

/-- **Behind a decision**, the next read is digested. -/
theorem Settled.read (henv : env.Calm) (bytes : Bytes) (hbytes : bytes ≠ [])
    (h : Settled config handler d seen r) :
    Settled config handler d (seen ++ bytes) (handleRead config handler env bytes r) := by
  have hone : ∀ piece ∈ [bytes], piece ≠ [] := fun piece hpiece => by
    rw [List.mem_singleton.1 hpiece]
    exact hbytes
  obtain ⟨htransport, hreply, hdigested⟩ := h
  cases d with
  | overflow =>
      rw [handleRead_started bytes hdigested.1]
      exact ⟨htransport, hreply, hdigested⟩
  | rejected response => exact Settled.rejected henv bytes hbytes ⟨htransport, hreply, hdigested⟩
  | raw =>
      have hafter := handleRead_after config handler env bytes (r := r) (by rw [htransport]; decide)
      obtain ⟨htransport', hreads⟩ := reads_raw henv hone htransport hdigested
      refine ⟨htransport', by rw [hafter.replies]; exact hreply, ?_⟩
      rw [Decision.Digested]
      simpa using hreads
  | accepted response consumed =>
      have hafter := handleRead_after config handler env bytes (r := r)
        (by rw [htransport]; simp [Decision.transport])
      obtain ⟨hle, hfollows⟩ := hdigested
      obtain ⟨htransport', hreads⟩ := reads_webSocket henv hone htransport hfollows
      refine ⟨htransport', by rw [hafter.replies]; exact hreply,
        by rw [List.length_append]; omega, ?_⟩
      rw [List.drop_append_of_le_length hle]
      simpa using hreads

/-- The first reply of a session, when the session is not closed behind it. -/
theorem sendRaw_first (henv : env.Calm) (response : Bytes) (hconnected : r.disconnectStarted = false)
    (hqueue : r.acceptedBytes = 0) (hreplies : r.replies = []) :
    ∃ calls bytes, sendRaw config env response false r =
      { r with
        enqueues := calls, acceptedBytes := bytes
        replies := (if Fits config response then some response else none).toList } := by
  by_cases hfits : Fits config response
  · obtain ⟨calls, bytes, hsent⟩ := sendRaw_fits henv hfits hconnected hqueue false
    exact ⟨calls, bytes, by rw [hsent, if_pos hfits, hreplies]; rfl⟩
  · obtain ⟨calls, bytes, hsent⟩ := sendRaw_refused henv hfits (r := r) false
    refine ⟨calls, bytes, ?_⟩
    rw [hsent, if_neg hfits]
    show _ = { r with enqueues := calls, acceptedBytes := bytes, replies := [] }
    rw [← hreplies]
    rfl

/-- **Before a decision**, a read is added to the buffer, and decides or not. -/
theorem handleRead_decides (handler : Option Handler) (henv : env.Calm) (bytes : Bytes)
    (hbytes : bytes ≠ []) (h : Undecided config seen r) :
    match decision config (seen ++ bytes) with
    | none => Undecided config (seen ++ bytes) (handleRead config handler env bytes r)
    | some d => Settled config handler d (seen ++ bytes) (handleRead config handler env bytes r) := by
  obtain ⟨accounted, charged, rfl⟩ := h
  obtain ⟨charges, hprocess⟩ := processDetection_eq config handler henv bytes
    { opening config with
      detectionBuffer := seen, inboundAccounted := accounted, charges := charged }
  rw [handleRead_detecting hbytes rfl rfl, hprocess, decision]
  dsimp only
  by_cases hfull : (seen ++ bytes).length > config.maxSessionInboundBytes.toNat
  · rw [if_pos hfull, if_pos hfull]
    exact ⟨rfl, rfl, rfl, rfl⟩
  · rw [if_neg hfull, if_neg hfull]
    generalize hbuffered : buffered bytes charges { opening config with
      detectionBuffer := seen, inboundAccounted := accounted, charges := charged } = b
    cases hdetection : detection config (seen ++ bytes) with
    | undecided =>
        subst hbuffered
        exact ⟨_, _, rfl⟩
    | raw =>
        have hstart : FollowsRaw config (leaveDetection env .rawTcp b) (.waiting {} []) := by
          rw [leaveDetection, updateInboundAccounting_zero, ← hbuffered]
          exact ⟨⟨rfl, rfl, rfl⟩, rfl, ⟨rfl, le_rfl⟩, rfl, rfl, rfl⟩
        have hafter := processRaw_after config handler env (seen ++ bytes)
          (leaveDetection env .rawTcp b)
        refine ⟨hafter.transport.trans hstart.2.1, ?_, processRaw_follows henv _ hstart⟩
        dsimp only
        rw [hafter.replies, leaveDetection, updateInboundAccounting_zero, ← hbuffered]
        rfl
    | rejected result =>
        dsimp only
        by_cases hfits : Fits config result.response
        · obtain ⟨calls, queued, hsent⟩ := sendRaw_fits henv hfits (r := note .rejectedHandshake b)
            (by rw [← hbuffered]; rfl) (by rw [← hbuffered]; rfl) true
          rw [hsent, ← hbuffered]
          exact ⟨rfl, (if_pos hfits).symm, rfl, Or.inr ⟨by simp, result, hdetection⟩⟩
        · obtain ⟨calls, queued, hsent⟩ := sendRaw_refused henv hfits
            (r := note .rejectedHandshake b) true
          rw [hsent, ← hbuffered]
          exact ⟨rfl, (if_neg hfits).symm, rfl, Or.inl rfl⟩
    | accepted result =>
        dsimp only
        have hconsumed := consumed_of_detection hdetection
        obtain ⟨calls, queued, hsent⟩ := sendRaw_first henv result.response (r := b)
          (by rw [← hbuffered]; rfl) (by rw [← hbuffered]; rfl) (by rw [← hbuffered]; rfl)
        rw [hsent, leaveDetection, updateInboundAccounting_zero, ← hbuffered]
        generalize hr : Reading.mk _ _ _ _ _ _ _ _ _ = r
        have hstart : FollowsWebSocket r (.waiting (firstFrame config) []) := by
          subst hr
          exact ⟨⟨rfl, rfl, rfl⟩, rfl, ⟨rfl, le_rfl⟩, rfl, rfl⟩
        have hreply : r.replies.head? =
            (Decision.accepted result.response result.consumed).reply config := by
          rw [← hr]
          exact Option.head?_toList
        split
        · next hempty =>
            refine ⟨hstart.2.1, hreply, hconsumed, Or.inr ?_⟩
            rw [List.isEmpty_iff.1 hempty]
            exact hstart
        · have hafter := processWebSocket_after config handler env
            ((seen ++ bytes).drop result.consumed) r
          exact ⟨hafter.transport.trans hstart.2.1, by rw [← hreply]; exact congrArg _ hafter.replies,
            hconsumed, processWebSocket_follows henv _ hstart⟩

end SessionInput

end RealtimeEngine
