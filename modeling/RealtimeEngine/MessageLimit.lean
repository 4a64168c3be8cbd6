/-
**How long a raw message may be.**

The documentation gives one limit, `--max-message-bytes`.  A message also has to fit, with its
length in front of it, into the buffer of `LengthPrefixedAccumulator`, which holds
`max_session_inbound_bytes`; no option sets that field, and nothing relates the two limits.  So a
message that arrives in many reads is followed here from the first read to the last: what the
session has buffered is all it has read, until the message is complete or the buffer is full.

Main definitions:

* `RealtimeEngine.SessionInput.Environment.Alone` — the server has no other session;
* `RealtimeEngine.SessionInput.Arrives` — the message is delivered, and the session goes on;
* `RealtimeEngine.SessionInput.Progress` — how far a session has got with its message.

Main results:

* `RealtimeEngine.SessionInput.handleRead_progress`, `RealtimeEngine.SessionInput.run_progress` —
  one read, and all of them;
* `RealtimeEngine.SessionInput.message_arrives_iff` — **the limit that is in force**.
-/

import RealtimeEngine.MainOptions
import RealtimeEngine.Segmentation

set_option relaxedAutoImplicit false
set_option autoImplicit false

namespace RealtimeEngine

open LengthPrefixedAccumulator

namespace SessionInput

/-! ### The session and its message -/

/-- The server has no other session: it holds what this one has buffered, which is part of its
stream, and nobody else ends the session. -/
structure Environment.Alone (config : ServerConfig) (env : Environment) (stream : Bytes) : Prop where
  overloaded : ∀ charge, env.overloaded charge = true →
    config.maxGlobalInboundBytes.toNat < stream.length
  meanwhile : ∀ count, env.meanwhile count = .nothing

/-- The message has been delivered as it is, and the session has not been disconnected, unless the
handler closes it. -/
def Arrives (handler : Option Handler) (message : Bytes) (r : Reading) : Prop :=
  r.delivered = [message] ∧ (r.disconnectStarted = true →
    ∃ verdict, handler = some verdict ∧ verdict [message] = .close)

/-- A raw session that has buffered all it has read. -/
structure Waits (config : ServerConfig) (seen : Bytes) (r : Reading) : Prop where
  live : Live r
  transport : r.transport = .rawTcp
  sound : r.rawDecoder.Sound
  maxMessageBytes : r.rawDecoder.maxMessageBytes = config.maxMessageBytes.toNat
  maxBufferedBytes : r.rawDecoder.maxBufferedBytes = config.maxSessionInboundBytes.toNat
  available : r.rawDecoder.available = seen
  delivered : r.delivered = []
  malformedMessages : r.malformedMessages = 0
  rateWindowMessages : r.rateWindowMessages = 0

/-- A session that was disconnected before its message was complete. -/
def Lost (r : Reading) : Prop := r.disconnectStarted = true ∧ r.delivered = []

/-- How far a session has got that has read so much of the stream. -/
inductive Progress (config : ServerConfig) (handler : Option Handler) (env : Environment)
    (stream message seen : Bytes) (r : Reading) : Prop
  | lost (hlost : Lost r) (hlimit : config.maxSessionInboundBytes.toNat < seen.length ∨
      ∃ charge, env.overloaded charge = true)
  | undecided (hle : seen.length ≤ config.maxSessionInboundBytes.toNat) (hfew : seen.length < 4)
      (hundecided : Undecided config seen r)
  | waits (hle : seen.length ≤ config.maxSessionInboundBytes.toNat) (hne : seen ≠ stream)
      (hwaits : Waits config seen r)
  | arrived (hle : seen.length ≤ config.maxSessionInboundBytes.toNat) (heq : seen = stream)
      (harrives : Arrives handler message r)

variable {config : ServerConfig} {handler : Option Handler} {env : Environment}
  {stream message header seen bytes : Bytes} {r : Reading}

/-! ### A session that is lost -/

theorem disconnect_lost (h : r.delivered = []) : Lost (disconnect r) :=
  ⟨disconnect_started r, (disconnect_stops r).2.trans h⟩

theorem updateInboundAccounting_cases (env : Environment) (n : ℕ) (r : Reading) :
    ∃ charges, updateInboundAccounting env n r =
        { r with inboundAccounted := n, charges := charges } ∨
      (∃ charge, env.overloaded charge = true) ∧
        updateInboundAccounting env n r =
          disconnect { r with inboundAccounted := n, charges := charges } := by
  unfold updateInboundAccounting
  dsimp only
  split
  · split
    · next hcrowded => exact ⟨_, Or.inr ⟨⟨_, hcrowded⟩, rfl⟩⟩
    · exact ⟨_, Or.inl rfl⟩
  · exact ⟨_, Or.inl rfl⟩

theorem Lost.update (h : Lost r) (env : Environment) (n : ℕ) : Lost
    (updateInboundAccounting env n r) := by
  obtain ⟨charges, hupdate | ⟨-, hupdate⟩⟩ := updateInboundAccounting_cases env n r
  · rw [hupdate]
    exact h
  · rw [hupdate]
    exact disconnect_lost h.2

/-- Nothing is delivered behind `Disconnect`. -/
theorem Lost.processRaw (h : Lost r) (bytes : Bytes) :
    Lost (processRaw config handler env bytes r) := by
  unfold SessionInput.processRaw
  dsimp only
  split
  · exact disconnect_lost h.2
  · have hlost : Lost { r with rawDecoder := (r.rawDecoder.append bytes).2 } := h
    have hupdate := hlost.update env (r.rawDecoder.append bytes).2.bufferedBytes
    rw [rawLoop, if_pos hupdate.1]
    exact hupdate.update env _

/-! ### A read of a raw session -/

/-- The account of a session that waits may be too much for the server. -/
theorem Waits.update (h : Waits config seen r) (env : Environment) (n : ℕ) :
    Waits config seen (updateInboundAccounting env n r) ∨
      (∃ charge, env.overloaded charge = true) ∧ Lost (updateInboundAccounting env n r) := by
  obtain ⟨charges, hupdate | ⟨hcrowded, hupdate⟩⟩ := updateInboundAccounting_cases env n r
  · rw [hupdate]
    exact Or.inl ⟨⟨h.live.1, h.live.2, h.live.3⟩, h.2, h.3, h.4, h.5, h.6, h.7, h.8, h.9⟩
  · rw [hupdate]
    exact Or.inr ⟨hcrowded, disconnect_lost h.delivered⟩

/-- The frame of a message is not found before its last byte. -/
theorem readPrefixed_of_prefix (hpos : 1 ≤ message.length)
    (hmax : message.length ≤ config.maxMessageBytes.toNat)
    (hheader : encodeLength message.length = some header) (hbegins : seen <+: header ++ message)
    (hne : seen ≠ header ++ message) :
    readPrefixed config.maxMessageBytes.toNat seen = .needMoreData := by
  obtain ⟨rest, hrest⟩ := hbegins
  by_contra hread
  have hwhole := readPrefixed_append hread rest
  have hmessage := readPrefixed_encode hpos hmax hheader []
  rw [List.append_nil] at hmessage
  rw [hrest, hmessage] at hwhole
  have hsize := (readPrefixed_message hwhole.symm).2
  have hlen := congrArg List.length hrest
  simp only [List.length_append, length_of_encodeLength hheader] at hlen
  have hnil : rest = [] := List.eq_nil_of_length_eq_zero (by omega)
  exact hne (by rw [← hrest, hnil, List.append_nil])

/-- `Next` finds nothing yet. -/
theorem Waits.rawLoop_of_wait (h : Waits config seen r)
    (hread : readPrefixed config.maxMessageBytes.toNat seen = .needMoreData) (rounds : ℕ) :
    rawLoop config handler env (rounds + 1) r =
      updateInboundAccounting env r.rawDecoder.bufferedBytes r := by
  have hnext : r.rawDecoder.next = (.needMoreData, [], r.rawDecoder) := by
    rw [next_eq h.sound.limit, h.maxMessageBytes, h.available, hread]
  rw [rawLoop, if_neg (by simp [h.live.connected]), hnext]

variable (handler) in
/-- **The first message of a session** is below the rate limit, and only the handler ends the
session. -/
theorem deliverMessage_first (hkeeps : config.Keeps)
    (hquiet : ∀ count, env.meanwhile count = .nothing) (hlive : Live r) (hdelivered : r.delivered = [])
    (hmalformed : r.malformedMessages = 0) (hwindow : r.rateWindowMessages = 0) (message : Bytes) :
    let result := deliverMessage config handler env message r
    result.2.delivered = [message] ∧
      (result.1 = true → Live result.2 ∧ result.2.rawDecoder = r.rawDecoder) ∧
      (result.1 = false → ∃ verdict, handler = some verdict ∧ verdict [message] = .close) := by
  obtain ⟨start, count, hcount, hfirst⟩ :=
    rateWindow_eq r.toControl (env.clock r.delivered.length)
  -- a first message is within both limits, which no option changes
  have hrate : ¬ count > config.maxMessagesPerSecond.toNat := by
    have hmany : config.maxMessagesPerSecond.toNat = 10000 := by
      rw [hkeeps.maxMessagesPerSecond]
      decide
    omega
  have hlimit : ¬ 0 + 1 ≥ config.malformedMessageLimit.toNat := by
    rw [hkeeps.malformedMessageLimit]
    decide
  intro result
  have hresult : result = deliverMessage config handler env message r := rfl
  unfold deliverMessage at hresult
  rw [hfirst] at hresult
  dsimp only at hresult
  rw [if_neg hrate, hdelivered] at hresult
  cases handler with
  | none =>
      rw [hresult]
      exact ⟨rfl, fun _ => ⟨⟨hlive.1, hlive.2, hlive.3⟩, rfl⟩, fun h => (by cases h)⟩
  | some verdict =>
      dsimp only [List.nil_append] at hresult
      simp only [hquiet, interfere, hmalformed] at hresult
      by_cases haccepted : verdict [message] = .accepted
      · rw [if_pos haccepted] at hresult
        rw [hresult]
        exact ⟨rfl, fun _ => ⟨⟨hlive.1, hlive.2, hlive.3⟩, rfl⟩, fun h => (by cases h)⟩
      · rw [if_neg haccepted] at hresult
        by_cases hclose : verdict [message] = .close
        · rw [if_pos (by simp [hclose])] at hresult
          rw [hresult]
          refine ⟨?_, fun h => (by cases h), fun _ => ⟨verdict, rfl, hclose⟩⟩
          refine (close_stops config env _ _ ?_).2
          exact ⟨hlive.1, hlive.2, hlive.3⟩
        · rw [if_neg (by simp [hclose, hlimit])] at hresult
          rw [hresult]
          exact ⟨rfl, fun _ => ⟨⟨hlive.1, hlive.2, hlive.3⟩, rfl⟩, fun h => (by cases h)⟩

/-- `Next` returns the message, and leaves nothing. -/
theorem Waits.next_of_complete (h : Waits config (header ++ message) r) (hpos : 1 ≤ message.length)
    (hmax : message.length ≤ config.maxMessageBytes.toNat)
    (hheader : encodeLength message.length = some header) :
    ∃ d, r.rawDecoder.next = (.messageReady, message, d) ∧ d.next = (.needMoreData, [], d) ∧
      d.bufferedBytes = 0 := by
  have hread := readPrefixed_encode hpos hmax hheader []
  rw [List.append_nil, ← h.maxMessageBytes, ← h.available] at hread
  obtain ⟨hsound, hrest, -⟩ := h.sound.advance hread
  have hlen : (header ++ message).length = 4 + message.length := by
    rw [List.length_append, length_of_encodeLength hheader]
  have hnil : ({ r.rawDecoder with
      cursor := r.rawDecoder.cursor + (4 + message.length) } : LengthPrefixedAccumulator).available =
        [] := by
    rw [hrest, h.available, ← hlen, List.drop_length]
  refine ⟨_, by rw [next_eq h.sound.limit, hread], ?_, ?_⟩
  · rw [next_eq hsound.limit, hnil]
    rfl
  · rw [← length_available, hnil]
    rfl

/-- **The message is complete.** -/
theorem Waits.rawLoop_arrives (h : Waits config (header ++ message) r) (hkeeps : config.Keeps)
    (hquiet : ∀ count, env.meanwhile count = .nothing) (hpos : 1 ≤ message.length)
    (hmax : message.length ≤ config.maxMessageBytes.toNat)
    (hheader : encodeLength message.length = some header) (rounds : ℕ) :
    Arrives handler message (rawLoop config handler env (rounds + 2) r) := by
  obtain ⟨d, hnext, hwait, hempty⟩ := h.next_of_complete hpos hmax hheader
  obtain ⟨hdelivered, hgoes, hcloses⟩ := deliverMessage_first handler hkeeps hquiet
    (r := { r with rawDecoder := d }) ⟨h.live.1, h.live.2, h.live.3⟩ h.delivered
    h.malformedMessages h.rateWindowMessages message
  rw [rawLoop, if_neg (by simp [h.live.connected]), hnext]
  dsimp only
  split
  · next hgoesOn =>
      obtain ⟨hlive, hdecoder⟩ := hgoes hgoesOn
      rw [rawLoop, if_neg (by simp [hlive.connected]), hdecoder, hwait]
      dsimp only
      rw [hempty, updateInboundAccounting_zero]
      refine ⟨hdelivered, fun hstarted => ?_⟩
      have hconnected := hlive.connected
      rw [hconnected] at hstarted
      cases hstarted
  · next hstops => exact ⟨hdelivered, fun _ => hcloses (Bool.eq_false_iff.2 hstops)⟩

/-- **A read of a raw session**: the buffer is full, or the message is complete, or the session
waits for the rest. -/
theorem Waits.processRaw (h : Waits config seen r) (hkeeps : config.Keeps)
    (hquiet : ∀ count, env.meanwhile count = .nothing) (hpos : 1 ≤ message.length)
    (hmax : message.length ≤ config.maxMessageBytes.toNat)
    (hheader : encodeLength message.length = some header)
    (hbegins : seen ++ bytes <+: header ++ message) :
    Progress config handler env (header ++ message) message (seen ++ bytes)
      (processRaw config handler env bytes r) := by
  have hbuffered : r.rawDecoder.bufferedBytes = seen.length := by
    rw [← length_available, h.available]
  have hfails := append_fails_iff h.sound bytes
  rw [h.maxBufferedBytes, hbuffered, ← List.length_append] at hfails
  unfold SessionInput.processRaw
  cases happend : r.rawDecoder.append bytes with
  | mk appended d =>
      rw [happend] at hfails
      cases appended with
      | false => exact .lost (disconnect_lost h.delivered) (Or.inl (hfails.1 rfl))
      | true =>
          have hle : (seen ++ bytes).length ≤ config.maxSessionInboundBytes.toNat :=
            Nat.not_lt.1 (mt hfails.2 (by simp))
          obtain ⟨hsound, hmaxMessage, hmaxBuffered, havailable⟩ := append_eq h.sound happend
          rw [h.available] at havailable
          have hwaits : Waits config (seen ++ bytes) { r with rawDecoder := d } :=
            ⟨⟨h.live.1, h.live.2, h.live.3⟩, h.transport, hsound,
              hmaxMessage.trans h.maxMessageBytes, hmaxBuffered.trans h.maxBufferedBytes,
              havailable, h.delivered, h.malformedMessages, h.rateWindowMessages⟩
          dsimp only
          rw [if_neg (by decide)]
          rcases hwaits.update env d.bufferedBytes with hwaits' | ⟨hcrowded, hlost⟩
          · by_cases hwhole : seen ++ bytes = header ++ message
            · rw [hwhole] at hwaits' hle ⊢
              have hlen := congrArg List.length hwaits'.available
              rw [length_available, List.length_append] at hlen
              obtain ⟨rounds, hrounds⟩ := Nat.exists_eq_add_of_le' (hpos.trans (Nat.le_add_left _ _))
              rw [hlen, hrounds]
              exact .arrived hle rfl (hwaits'.rawLoop_arrives hkeeps hquiet hpos hmax hheader rounds)
            · have hread := readPrefixed_of_prefix hpos hmax hheader hbegins hwhole
              rw [hwaits'.rawLoop_of_wait hread]
              rcases hwaits'.update env _ with hwaits'' | ⟨hcrowded, hlost⟩
              · exact .waits hle hwhole hwaits''
              · exact .lost hlost (Or.inr hcrowded)
          · -- `ProcessRaw` goes on behind the disconnect, and its loop does nothing
            rw [rawLoop, if_pos hlost.1]
            exact .lost (hlost.update env _) (Or.inr hcrowded)

/-! ### The first reads -/

/-- A session that has decided for raw TCP has read nothing of it yet. -/
theorem Undecided.waits {accounted charges : ℕ} (buffer : Bytes)
    (hr : r = { opening config with
      detectionBuffer := buffer, inboundAccounted := accounted, charges := charges }) :
    Waits config [] (leaveDetection env .rawTcp r) := by
  subst hr
  rw [leaveDetection, updateInboundAccounting_zero]
  exact ⟨⟨rfl, rfl, rfl⟩, rfl, ⟨rfl, le_rfl⟩, rfl, rfl, rfl, rfl, rfl, rfl⟩

theorem Lost.leaveDetection (h : Lost r) (transport : TransportKind) :
    Lost (leaveDetection env transport r) := by
  rw [SessionInput.leaveDetection, updateInboundAccounting_zero]
  exact h

/-- A stream that can be HTTP for four bytes starts with `GET` and a blank. -/
theorem get_of_possibleHttp {buffer : Bytes} (h : possibleHttp buffer = true)
    (hlen : 4 ≤ buffer.length) : ascii "GET " <+: buffer := by
  unfold possibleHttp at h
  rw [Nat.min_eq_right hlen, beq_iff_eq] at h
  have htake : (ascii "GET ").take 4 = ascii "GET " := rfl
  rw [htake] at h
  exact h ▸ List.take_prefix 4 buffer

/-- **A read of a session that is not decided.** -/
theorem Undecided.progress (h : Undecided config seen r) (hbytes : bytes ≠ [])
    (hkeeps : config.Keeps) (hquiet : ∀ count, env.meanwhile count = .nothing)
    (hpos : 1 ≤ message.length) (hmax : message.length ≤ config.maxMessageBytes.toNat)
    (hheader : encodeLength message.length = some header)
    (hraw : ¬ ascii "GET " <+: header ++ message) (hbegins : seen ++ bytes <+: header ++ message) :
    Progress config handler env (header ++ message) message (seen ++ bytes)
      (handleRead config handler env bytes r) := by
  obtain ⟨accounted, charges, rfl⟩ := h
  rw [handleRead_detecting hbytes rfl rfl, processDetection]
  dsimp only
  by_cases hfull : (seen ++ bytes).length > config.maxSessionInboundBytes.toNat
  · rw [if_pos ((overflow_iff _ _ _).2 hfull)]
    exact .lost (disconnect_lost rfl) (Or.inl hfull)
  · have hle : (seen ++ bytes).length ≤ config.maxSessionInboundBytes.toNat := Nat.not_lt.1 hfull
    rw [if_neg (mt (overflow_iff _ _ _).1 hfull)]
    obtain ⟨charges', hupdate⟩ := updateInboundAccounting_cases env (seen ++ bytes).length
      (buffer bytes { opening config with
        detectionBuffer := seen, inboundAccounted := accounted, charges := charges })
    cases hhttp : possibleHttp (seen ++ bytes) with
    | true =>
        -- what looks like a request has to be shorter than `GET `
        have hfew : (seen ++ bytes).length < 4 := by
          by_contra hlong
          exact hraw ((get_of_possibleHttp hhttp (Nat.not_lt.1 hlong)).trans hbegins)
        have hdetection : detection config (seen ++ bytes) = .undecided := by
          rw [detection, hhttp, if_neg (by decide), if_pos hfew]
        rw [hdetection]
        dsimp only
        rcases hupdate with hupdate | ⟨hcrowded, hupdate⟩
        · rw [hupdate]
          exact .undecided hle hfew ⟨_, _, rfl⟩
        · rw [hupdate]
          exact .lost (disconnect_lost rfl) (Or.inr hcrowded)
    | false =>
        have hdetection : detection config (seen ++ bytes) = .raw := by
          rw [detection, hhttp, if_pos (by decide)]
        rw [hdetection]
        dsimp only
        rcases hupdate with hupdate | ⟨hcrowded, hupdate⟩
        · rw [hupdate]
          exact (Undecided.waits _ rfl).processRaw hkeeps hquiet hpos hmax hheader hbegins
        · rw [hupdate]
          exact .lost (((disconnect_lost rfl).leaveDetection _).processRaw _) (Or.inr hcrowded)

/-! ### All reads -/

/-- **One read more.** -/
theorem handleRead_progress (hkeeps : config.Keeps) (hquiet : ∀ count, env.meanwhile count = .nothing)
    (hpos : 1 ≤ message.length) (hmax : message.length ≤ config.maxMessageBytes.toNat)
    (hheader : encodeLength message.length = some header)
    (hraw : ¬ ascii "GET " <+: header ++ message) (hbytes : bytes ≠ [])
    (hbegins : seen ++ bytes <+: header ++ message)
    (h : Progress config handler env (header ++ message) message seen r) :
    Progress config handler env (header ++ message) message (seen ++ bytes)
      (handleRead config handler env bytes r) := by
  cases h with
  | lost hlost hlimit =>
      rw [handleRead_started bytes hlost.1]
      refine .lost hlost (hlimit.imp_left fun hlong => ?_)
      rw [List.length_append]
      omega
  | undecided hle hfew hundecided =>
      exact hundecided.progress hbytes hkeeps hquiet hpos hmax hheader hraw hbegins
  | waits hle hne hwaits =>
      rw [handleRead, if_neg (by simp [hbytes, hwaits.live.connected]), processIncoming,
        hwaits.transport]
      exact hwaits.processRaw hkeeps hquiet hpos hmax hheader hbegins
  | arrived hle heq harrives =>
      -- nothing is left of the stream
      have hlen := hbegins.length_le
      rw [heq, List.length_append] at hlen
      exact absurd (List.eq_nil_of_length_eq_zero (by omega)) hbytes

variable (handler) in
/-- **All of them**, in any order of sizes. -/
theorem run_progress (hkeeps : config.Keeps) (hquiet : ∀ count, env.meanwhile count = .nothing)
    (hpos : 1 ≤ message.length) (hmax : message.length ≤ config.maxMessageBytes.toNat)
    (hheader : encodeLength message.length = some header)
    (hraw : ¬ ascii "GET " <+: header ++ message) {reads : List Bytes}
    (hreads : ∀ bytes ∈ reads, bytes ≠ []) (hbegins : reads.flatten <+: header ++ message) :
    Progress config handler env (header ++ message) message reads.flatten
      (run config handler env reads) := by
  induction reads using List.reverseRecOn with
  | nil => exact .undecided (Nat.zero_le _) (by decide) ⟨0, 0, rfl⟩
  | append_singleton reads bytes ih =>
      have hflatten : (reads ++ [bytes]).flatten = reads.flatten ++ bytes := by simp
      rw [hflatten] at hbegins ⊢
      have hbefore := ih (fun b hb => hreads b (List.mem_append_left _ hb))
        ((List.prefix_append _ _).trans hbegins)
      rw [run, List.foldl_append]
      exact handleRead_progress hkeeps hquiet hpos hmax hheader hraw
        (hreads bytes (List.mem_append_right _ (List.mem_singleton_self bytes))) hbegins hbefore

/-- **The limit that is in force**: a message that is as long as it may be by its own limit arrives
exactly if it fits into the buffer, with its length in front of it. -/
theorem arrives_iff (hkeeps : config.Keeps) (hpos : 1 ≤ message.length)
    (hmax : message.length ≤ config.maxMessageBytes.toNat)
    (hheader : encodeLength message.length = some header)
    (hraw : ¬ ascii "GET " <+: header ++ message) (halone : env.Alone config (header ++ message))
    {reads : List Bytes} (hcut : IsCut config (header ++ message) reads) :
    Arrives handler message (run config handler env reads) ↔
      message.length + 4 ≤ config.maxSessionInboundBytes.toNat := by
  have hprogress := run_progress handler hkeeps halone.meanwhile hpos hmax hheader hraw
    hcut.nonempty (hcut.flatten ▸ List.prefix_refl _)
  have hlen : (header ++ message).length = message.length + 4 := by
    rw [List.length_append, length_of_encodeLength hheader, Nat.add_comm]
  rw [hcut.flatten] at hprogress
  cases hprogress with
  | lost hlost hlimit =>
      rw [hlen] at hlimit
      constructor
      · intro harrives
        have hnothing := harrives.1.symm.trans hlost.2
        cases hnothing
      · intro hfits
        have hlimits : config.maxSessionInboundBytes.toNat ≤ config.maxGlobalInboundBytes.toNat := by
          rw [hkeeps.maxSessionInboundBytes, hkeeps.maxGlobalInboundBytes]
          decide
        rcases hlimit with hlong | ⟨charge, hcrowded⟩
        · omega
        · have hglobal := halone.overloaded charge hcrowded
          omega
  | undecided hle hfew hundecided => omega
  | waits hle hne hwaits => exact absurd rfl hne
  | arrived hle heq harrives =>
      rw [hlen] at hle
      exact ⟨fun _ => hle, fun _ => harrives⟩

/-- **The limit that is in force**, over all configurations of `main`: a message that is within
`--max-message-bytes` arrives exactly if it fits into 2 MiB, with its length in front of it. -/
theorem message_arrives_iff {environment : Bytes → Option Bytes} {args : List Bytes}
    (hconfig : mainConfig environment args = .ok config) (handler : Option Handler)
    (hpos : 1 ≤ message.length) (hmax : message.length ≤ min config.maxMessageBytes.toNat (2 ^ 32 - 1))
    (hheader : encodeLength message.length = some header)
    (hraw : ¬ ascii "GET " <+: header ++ message) (halone : env.Alone config (header ++ message))
    {reads : List Bytes} (hcut : IsCut config (header ++ message) reads) :
    Arrives handler message (run config handler env reads) ↔
      message.length + 4 ≤ 2 * 1024 * 1024 := by
  have hkeeps := mainConfig_keeps hconfig
  have hlimit : config.maxSessionInboundBytes.toNat = 2 * 1024 * 1024 := by
    rw [hkeeps.maxSessionInboundBytes]
    decide
  rw [← hlimit]
  exact arrives_iff hkeeps hpos (hmax.trans (Nat.min_le_left _ _)) hheader hraw halone hcut

theorem idle_alone (config : ServerConfig) (stream : Bytes) : idle.Alone config stream where
  overloaded := by
    intro charge h
    cases h
  meanwhile _ := rfl

/-- A message in two reads. -/
theorem message_arrives_iff_two :
    Arrives none [7] (run {} none idle [[0, 0], [0, 1, 7]]) ↔ 1 + 4 ≤ 2 * 1024 * 1024 :=
  have hconfig : mainConfig (fun _ => none) [] = .ok {} := rfl
  have hheader : encodeLength ([7] : Bytes).length = some [0, 0, 0, 1] := by decide
  message_arrives_iff hconfig none (by decide) (by decide) hheader (by decide) (idle_alone _ _)
    ⟨by decide, by decide, by decide⟩

/-- The options of a server for messages of 4 MiB. -/
def fourMiB : List Bytes := [ascii "--max-message-bytes", ascii "4194304"]

/-- A message of 3 MiB, and its length. -/
def threeMiB : Bytes := List.replicate (3 * 1024 * 1024) 0

theorem length_threeMiB : threeMiB.length = 3145728 := by
  rw [threeMiB, List.length_replicate]

/-- **A message of 3 MiB is lost** where messages of 4 MiB are allowed. -/
theorem three_mebibytes_lost :
    ∃ config header, mainConfig (fun _ => none) fourMiB = .ok config ∧
      config.maxMessageBytes = 4194304 ∧ encodeLength threeMiB.length = some header ∧
      1 ≤ threeMiB.length ∧ threeMiB.length ≤ min config.maxMessageBytes.toNat (2 ^ 32 - 1) ∧
      ¬ ascii "GET " <+: header ++ threeMiB ∧ idle.Alone config (header ++ threeMiB) ∧
      IsCut config (header ++ threeMiB) (singly (header ++ threeMiB)) ∧
      ¬ Arrives none threeMiB (run config none idle (singly (header ++ threeMiB))) := by
  have hconfig : mainConfig (fun _ => none) fourMiB = .ok { maxMessageBytes := 4194304 } := rfl
  have hheader : encodeLength threeMiB.length = some [0, 0x30, 0, 0] := by
    rw [length_threeMiB]
    decide
  have hpos : 1 ≤ threeMiB.length := by
    rw [length_threeMiB]
    decide
  have hmax : threeMiB.length ≤ (4194304 : UInt64).toNat := by
    rw [length_threeMiB]
    decide
  have hraw : ¬ ascii "GET " <+: [0, 0x30, 0, 0] ++ threeMiB := by
    intro hget
    have hfirst : ascii "GET " = 71 :: [69, 84, 32] := rfl
    rw [hfirst, List.cons_append] at hget
    exact absurd (List.cons_prefix_cons.1 hget).1 (by decide)
  have hcut : IsCut { maxMessageBytes := 4194304 } ([0, 0x30, 0, 0] ++ threeMiB)
      (singly ([0, 0x30, 0, 0] ++ threeMiB)) := by
    refine ⟨?_, ?_, flatten_singly _⟩
    · intro bytes hbytes
      obtain ⟨b, -, rfl⟩ := List.mem_map.1 hbytes
      exact List.cons_ne_nil b []
    · intro bytes hbytes
      obtain ⟨b, -, rfl⟩ := List.mem_map.1 hbytes
      exact le_max_of_le_left (by simp)
  refine ⟨_, _, hconfig, rfl, hheader, hpos, le_min hmax ?_, hraw, idle_alone _ _, hcut, ?_⟩
  · rw [length_threeMiB]
    decide
  · -- the condition is decided; the run over three million reads is not evaluated
    rw [arrives_iff (mainConfig_keeps hconfig) hpos hmax hheader hraw (idle_alone _ _) hcut,
      length_threeMiB]
    decide

end SessionInput

end RealtimeEngine
