/-
**The options of the program.**

`main` starts from a `ServerConfig` with its defaults and goes through the arguments.  Some options
set a limit, and most limits have no option: they keep their default whatever is passed.

The environment variables are a function of their names.  `argv` is the list of its texts, without
the name of the program.  `std::stoull` reads what `strtoull` reads in the `"C"` locale: blanks, a
sign, decimal digits; a number behind a minus sign is taken modulo `2 ^ 64`.

Main definitions:

* `RealtimeEngine.stoull`, `RealtimeEngine.parseSize`;
* `RealtimeEngine.setOption`, `RealtimeEngine.optionLoop` — the loop of `main`;
* `RealtimeEngine.mainConfig` — the configuration that `main` hands to the server;
* `RealtimeEngine.OptionRun` — what the loop goes through when it accepts its arguments.

Main results:

* `RealtimeEngine.mainConfig_keeps` — **the fields without an option keep their defaults**.
-/

import RealtimeEngine.Basic

set_option relaxedAutoImplicit false
set_option autoImplicit false

namespace RealtimeEngine

/-! ### Numbers -/

/-- What ends the program before the server starts. -/
inductive OptionError
  /-- The `std::invalid_argument` of `main` and `ParseSize`, with its text. -/
  | invalidArgument (what : Bytes)
  /-- `std::stoull` finds no digit, or too large a number. -/
  | noConversion
  | outOfRange
  deriving DecidableEq, Repr

/-- `std::isspace`. -/
def isSpace (ch : UInt8) : Bool := ch == ' '.toUInt8 || ('\t'.toUInt8 ≤ ch && ch ≤ '\r'.toUInt8)

/-- `std::isdigit`. -/
def isDigit (ch : UInt8) : Bool := '0'.toUInt8 ≤ ch && ch ≤ '9'.toUInt8

/-- The number that decimal digits stand for. -/
def digitsValue (digits : Bytes) : ℕ :=
  digits.foldl (fun value ch => 10 * value + (ch - '0'.toUInt8).toNat) 0

/-- `std::stoull`: the number, and how many bytes it takes. -/
def stoull (value : Bytes) : Except OptionError (ℕ × ℕ) :=
  let blanks := value.takeWhile isSpace
  let text := value.dropWhile isSpace
  let negative := text.head? == some '-'.toUInt8
  let sign := if negative || text.head? == some '+'.toUInt8 then 1 else 0
  let digits := (text.drop sign).takeWhile isDigit
  if digits.isEmpty then .error .noConversion
  else if digitsValue digits ≥ 2 ^ 64 then .error .outOfRange
  else
    .ok (if negative then (2 ^ 64 - digitsValue digits) % 2 ^ 64 else digitsValue digits,
      blanks.length + sign + digits.length)

/-- `ParseSize`. -/
def parseSize (value option : Bytes) : Except OptionError UInt64 :=
  match stoull value with
  | .error error => .error error
  | .ok (parsed, consumed) =>
      if consumed ≠ value.length then .error (.invalidArgument (ascii "invalid " ++ option))
      else .ok (UInt64.ofNat parsed)

/-! ### The loop -/

/-- What the loop assigns to.  The fields of `ServerConfig` that `RealtimeEngine.ServerConfig`
leaves out stand beside it. -/
structure MainOptions where
  config : ServerConfig := {}
  port : UInt16 := 8080
  workerCount : UInt64 := 0
  enableThreadAffinity : Bool := false
  authToken : Bytes
  allowedOrigin : Bytes
  metricsIntervalMs : UInt64 := 5000

/-- The options that take a value. -/
def valueOptions : List Bytes :=
  [ascii "--port", ascii "--workers", ascii "--max-connections", ascii "--max-message-bytes",
    ascii "--session-queue-bytes", ascii "--global-queue-bytes", ascii "--auth-token",
    ascii "--allowed-origin", ascii "--metrics-interval-ms"]

/-- An option that is set to a number. -/
def setSize (option value : Bytes) (assign : UInt64 → MainOptions) : Except OptionError MainOptions :=
  match parseSize value option with
  | .error error => .error error
  | .ok parsed => .ok (assign parsed)

/-- What the loop makes of an option with its value. -/
def setOption (option value : Bytes) (o : MainOptions) : Except OptionError MainOptions :=
  if option = ascii "--port" then
    match parseSize value option with
    | .error error => .error error
    | .ok port =>
        if port = 0 || port > 65535 then
          .error (.invalidArgument (ascii "port must be between 1 and 65535"))
        else .ok { o with port := UInt16.ofNat port.toNat }
  else if option = ascii "--workers" then
    setSize option value fun n => { o with workerCount := n }
  else if option = ascii "--max-connections" then
    setSize option value fun n => { o with config := { o.config with maxConnections := n } }
  else if option = ascii "--max-message-bytes" then
    setSize option value fun n => { o with config := { o.config with maxMessageBytes := n } }
  else if option = ascii "--session-queue-bytes" then
    setSize option value fun n => { o with config := { o.config with maxSessionQueuedBytes := n } }
  else if option = ascii "--global-queue-bytes" then
    setSize option value fun n => { o with config := { o.config with maxGlobalQueuedBytes := n } }
  else if option = ascii "--auth-token" then .ok { o with authToken := value }
  else if option = ascii "--allowed-origin" then .ok { o with allowedOrigin := value }
  else setSize option value fun n => { o with metricsIntervalMs := n }

/-- The loop of `main` over its arguments. -/
def optionLoop : List Bytes → MainOptions → Except OptionError MainOptions
  | [], o => .ok o
  | option :: rest, o =>
      if option = ascii "--thread-affinity" then optionLoop rest { o with enableThreadAffinity := true }
      else if !valueOptions.contains option then
        .error (.invalidArgument (ascii "unknown option: " ++ option))
      else
        match rest with
        | [] => .error (.invalidArgument (ascii "missing value for " ++ option))
        | value :: rest =>
            match setOption option value o with
            | .error error => .error error
            | .ok o => optionLoop rest o

/-- The configuration that `main` hands to the server. -/
def mainConfig (environment : Bytes → Option Bytes) (args : List Bytes) :
    Except OptionError ServerConfig :=
  let authToken := (environment (ascii "IOCP_AUTH_TOKEN")).getD (ascii "development-only-change-me")
  let allowedOrigin := (environment (ascii "IOCP_ALLOWED_ORIGIN")).getD []
  match optionLoop args { authToken := authToken, allowedOrigin := allowedOrigin } with
  | .error error => .error error
  | .ok o =>
      if o.allowedOrigin.length ≠ 0 then
        .ok { o.config with originValidator := some fun origin => origin == o.allowedOrigin }
      else .ok o.config

/-! ### What no option changes -/

/-- The fields that no option sets have their defaults. -/
structure ServerConfig.Keeps (config : ServerConfig) : Prop where
  receiveBufferBytes : config.receiveBufferBytes = 8192
  maxSessionInboundBytes : config.maxSessionInboundBytes = 2 * 1024 * 1024
  maxGlobalInboundBytes : config.maxGlobalInboundBytes = 256 * 1024 * 1024
  maxHandshakeBytes : config.maxHandshakeBytes = 16 * 1024
  maxMessagesPerSecond : config.maxMessagesPerSecond = 10000
  malformedMessageLimit : config.malformedMessageLimit = 3

theorem setSize_keeps {option value : Bytes} {assign : UInt64 → MainOptions} {o : MainOptions}
    (h : setSize option value assign = .ok o) (hassign : ∀ n, (assign n).config.Keeps) :
    o.config.Keeps := by
  unfold setSize at h
  split at h
  · cases h
  · next n _ =>
      obtain rfl := Except.ok.inj h
      exact hassign n

/-- An option with its value leaves the other fields alone. -/
theorem setOption_keeps {option value : Bytes} {o o' : MainOptions}
    (h : setOption option value o = .ok o') (hkeeps : o.config.Keeps) : o'.config.Keeps := by
  unfold setOption at h
  split at h
  · split at h
    · cases h
    · split at h
      · cases h
      · obtain rfl := Except.ok.inj h
        exact hkeeps
  split at h
  · exact setSize_keeps h fun _ => hkeeps
  -- the four limits with an option
  iterate 4
    split at h
    · exact setSize_keeps h fun _ =>
        ⟨hkeeps.1, hkeeps.2, hkeeps.3, hkeeps.4, hkeeps.5, hkeeps.6⟩
  iterate 2
    split at h
    · obtain rfl := Except.ok.inj h
      exact hkeeps
  exact setSize_keeps h fun _ => hkeeps

/-- What the loop goes through when it accepts its arguments: flags, and options with their
values. -/
inductive OptionRun : List Bytes → MainOptions → MainOptions → Prop
  | nil (o : MainOptions) : OptionRun [] o o
  | flag {rest : List Bytes} {o o' : MainOptions}
      (hrest : OptionRun rest { o with enableThreadAffinity := true } o') :
      OptionRun (ascii "--thread-affinity" :: rest) o o'
  | option {option value : Bytes} {rest : List Bytes} {o o₁ o' : MainOptions}
      (hflag : option ≠ ascii "--thread-affinity") (hset : setOption option value o = .ok o₁)
      (hrest : OptionRun rest o₁ o') : OptionRun (option :: value :: rest) o o'

theorem optionRun_of_optionLoop {args : List Bytes} {o o' : MainOptions}
    (h : optionLoop args o = .ok o') : OptionRun args o o' := by
  induction args, o using optionLoop.induct with
  | case1 o =>
      obtain rfl := Except.ok.inj h
      exact .nil o
  | case2 rest o ih =>
      unfold optionLoop at h
      rw [if_pos rfl] at h
      exact .flag (ih h)
  | case3 option rest o hflag hunknown =>
      unfold optionLoop at h
      rw [if_neg hflag, if_pos hunknown] at h
      cases h
  | case4 option o hflag hknown =>
      rw [optionLoop, if_neg hflag, if_neg hknown] at h
      cases h
  | case5 option o hflag hknown value rest error herror =>
      rw [optionLoop, if_neg hflag, if_neg hknown, herror] at h
      cases h
  | case6 option o hflag hknown value rest o₁ hset ih =>
      rw [optionLoop, if_neg hflag, if_neg hknown, hset] at h
      exact .option hflag hset (ih h)

/-- The loop leaves them alone, whatever it is passed. -/
theorem OptionRun.keeps {args : List Bytes} {o o' : MainOptions} (h : OptionRun args o o')
    (hkeeps : o.config.Keeps) : o'.config.Keeps := by
  induction h with
  | nil o => exact hkeeps
  | flag hrest ih => exact ih hkeeps
  | option hflag hset hrest ih => exact ih (setOption_keeps hset hkeeps)

/-- **The fields without an option keep their defaults.** -/
theorem mainConfig_keeps {environment : Bytes → Option Bytes} {args : List Bytes}
    {config : ServerConfig} (h : mainConfig environment args = .ok config) : config.Keeps := by
  unfold mainConfig at h
  dsimp only at h
  split at h
  · cases h
  · next o hloop =>
      have hkeeps : o.config.Keeps :=
        (optionRun_of_optionLoop hloop).keeps ⟨rfl, rfl, rfl, rfl, rfl, rfl⟩
      split at h
      · obtain rfl := Except.ok.inj h
        exact ⟨hkeeps.1, hkeeps.2, hkeeps.3, hkeeps.4, hkeeps.5, hkeeps.6⟩
      · obtain rfl := Except.ok.inj h
        exact hkeeps

end RealtimeEngine
