/-
**Detection.**

The first bytes of a client tell what it speaks.  `ProcessDetection` looks at all it has buffered:
as long as that can be the beginning of `GET ` it waits, then it waits for the header block of a
handshake, and everything else is raw TCP.

* `RealtimeEngine.detection` — what `ProcessDetection` makes of its buffer;
* `RealtimeEngine.possibleHttp_take` — how far the beginning of a stream can be HTTP;
* `RealtimeEngine.detection_rejected_append` — **a request that was rejected stays rejected**;
* `RealtimeEngine.response_of_detection` — what is answered to a request that is accepted.
-/

import RealtimeEngine.Handshake

set_option relaxedAutoImplicit false
set_option autoImplicit false

namespace RealtimeEngine

open TextSearch

/-! ### The decision -/

/-- `possible_http`: as far as the buffer goes, it starts with `GET` and a blank. -/
def possibleHttp (buffer : Bytes) : Bool :=
  let compareLength := min buffer.length 4
  buffer.take compareLength == (ascii "GET ").take compareLength

/-- What `ProcessDetection` makes of its buffer. -/
inductive Detection
  | undecided
  | raw
  | rejected (result : HandshakeResult)
  | accepted (result : HandshakeResult)
  deriving DecidableEq, Repr

/-- The decision of `ProcessDetection`. -/
def detection (config : ServerConfig) (buffer : Bytes) : Detection :=
  if !possibleHttp buffer then .raw
  else if buffer.length < 4 then .undecided
  else
    let result := parseHandshake buffer config.maxHandshakeBytes.toNat config.originValidator
    match result.status with
    | .needMoreData => .undecided
    | .rejected => .rejected result
    | .accepted => .accepted result

/-! ### A buffer that grows -/

theorem possibleHttp_append {buffer : Bytes} (h : 4 ≤ buffer.length) (more : Bytes) :
    possibleHttp (buffer ++ more) = possibleHttp buffer := by
  have hmin : min (buffer ++ more).length 4 = 4 := by
    rw [List.length_append]
    omega
  have hmin' : min buffer.length 4 = 4 := by omega
  simp only [possibleHttp, hmin, hmin', List.take_append_of_le_length h]

/-- The beginning of a stream may be HTTP as long as it agrees with `GET `. -/
theorem possibleHttp_take {stream : Bytes} {n : ℕ} (hn : n ≤ stream.length) :
    possibleHttp (stream.take n) = true ↔ min n 4 ≤ agreement stream (ascii "GET ") := by
  have hlength : (stream.take n).length = n := by
    rw [List.length_take]
    omega
  have hfour : (ascii "GET ").length = 4 := rfl
  rw [← take_eq_take_iff (by omega) (by omega)]
  simp only [possibleHttp, hlength, beq_iff_eq, List.take_take]
  rw [show min (min n 4) n = min n 4 by omega]

/-- What is not HTTP shows it in one of its first four bytes. -/
theorem agreement_lt {stream : Bytes} (h : possibleHttp stream = false) :
    agreement stream (ascii "GET ") < min stream.length 4 := by
  have hstream := possibleHttp_take (le_refl stream.length)
  rw [List.take_length, h] at hstream
  exact Nat.not_le.1 fun hle => absurd (hstream.2 hle) (by decide)

/-- **A request that was rejected stays rejected.** -/
theorem detection_rejected_append {config : ServerConfig} {buffer : Bytes} {result : HandshakeResult}
    (h : detection config buffer = .rejected result) (more : Bytes) :
    ∃ result', detection config (buffer ++ more) = .rejected result' := by
  unfold detection at h
  split at h
  · cases h
  · next hhttp =>
      split at h
      · cases h
      · next hlen =>
          have hlen' : ¬ (buffer ++ more).length < 4 := by
            rw [List.length_append]
            omega
          have hhttp' : ¬ (!possibleHttp (buffer ++ more)) = true := by
            rw [possibleHttp_append (by omega)]
            exact hhttp
          have hstatus : (parseHandshake buffer config.maxHandshakeBytes.toNat
              config.originValidator).status = .rejected := by
            dsimp only at h
            split at h
            · cases h
            · next hrejected => exact hrejected
            · cases h
          refine ⟨parseHandshake (buffer ++ more) config.maxHandshakeBytes.toNat
            config.originValidator, ?_⟩
          rw [detection, if_neg hhttp', if_neg hlen']
          dsimp only
          rw [rejected_append hstatus more]

/-- What the server answers to a request it accepts. -/
theorem response_of_detection {config : ServerConfig} {buffer : Bytes} {result : HandshakeResult}
    (h : detection config buffer = .accepted result) :
    ∃ key, result.response = switchingProtocols key := by
  unfold detection at h
  split at h
  · cases h
  · split at h
    · cases h
    · dsimp only at h
      split at h
      · cases h
      · cases h
      · next haccepted =>
          obtain rfl := Detection.accepted.inj h
          exact response_of_accepted haccepted

/-- An accepted request ends in the buffer. -/
theorem consumed_of_detection {config : ServerConfig} {buffer : Bytes} {result : HandshakeResult}
    (h : detection config buffer = .accepted result) : result.consumed ≤ buffer.length := by
  unfold detection at h
  split at h
  · cases h
  · split at h
    · cases h
    · dsimp only at h
      split at h
      · cases h
      · cases h
      · next haccepted =>
          obtain rfl := Detection.accepted.inj h
          unfold parseHandshake at haccepted ⊢
          split at haccepted
          · cases haccepted
          · next hle =>
              rw [if_neg hle]
              cases hfind : find headerTerminator buffer with
              | none =>
                  rw [hfind] at haccepted
                  cases haccepted
              | some headerEnd =>
                  dsimp only
                  rw [(parseBlock_cases headerEnd).1]
                  exact find_add_le hfind

/-- A handshake. -/
def upgradeRequest : Bytes :=
  ascii "GET / HTTP/1.1\r\nUpgrade: websocket\r\nConnection: Upgrade\r\n" ++
    ascii "Sec-WebSocket-Key: dGhlIHNhbXBsZSBub25jZQ==\r\nSec-WebSocket-Version: 13\r\n\r\n"

end RealtimeEngine
