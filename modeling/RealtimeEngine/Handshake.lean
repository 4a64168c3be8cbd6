/-
**The WebSocket handshake.**

`ParseHandshake` looks at everything a client has sent so far.  Once the empty line that ends an
HTTP request is there, the header block before it is taken apart: the request line, then one header
a line, then the checks of the headers that an upgrade needs.  The server calls it again whenever
more bytes have arrived, so what matters is how its verdict changes on a longer buffer.

`std::tolower` is the one of the `"C"` locale.  The header map is the list of its entries.

Main definitions:

* `RealtimeEngine.HandshakeResult`, `RealtimeEngine.parseHandshake`;
* `RealtimeEngine.parseBlock` — the part of `ParseHandshake` behind the search for the empty line.

Main results:

* `RealtimeEngine.parseBlock_append` — **the verdict on a header block does not depend on what
  follows it**;
* `RealtimeEngine.parseHandshake_append`, `RealtimeEngine.rejected_append` — the verdict on a longer
  buffer;
* `RealtimeEngine.response_of_accepted` — what the server answers.
-/

import RealtimeEngine.AcceptKey
import RealtimeEngine.TextSearch

set_option relaxedAutoImplicit false
set_option autoImplicit false

namespace RealtimeEngine

open TextSearch

/-! ### Texts -/

/-- The line end of HTTP. -/
def crlf : Bytes := ascii "\r\n"

/-- The empty line that ends a request. -/
def headerTerminator : Bytes := ascii "\r\n\r\n"

/-- What `Trim` removes. -/
def isBlank (ch : UInt8) : Bool := ch == ' '.toUInt8 || ch == '\t'.toUInt8

/-- `Trim`. -/
def trim (value : Bytes) : Bytes := ((value.dropWhile isBlank).reverse.dropWhile isBlank).reverse

/-- `Lower`. -/
def lower (value : Bytes) : Bytes :=
  value.map fun ch => if ch ≥ 'A'.toUInt8 && ch ≤ 'Z'.toUInt8 then ch + 32 else ch

/-- The loop of `ContainsToken`, with a bound on its steps. -/
def containsTokenLoop (expected : Bytes) : ℕ → Bytes → Bool
  | 0, _ => false
  | fuel + 1, value =>
      if value.isEmpty then false
      else
        match find [','.toUInt8] value with
        | none => lower (trim value) == lower expected
        | some separator =>
            if lower (trim (value.take separator)) == lower expected then true
            else containsTokenLoop expected fuel (value.drop (separator + 1))

/-- `ContainsToken`. -/
def containsToken (value expected : Bytes) : Bool := containsTokenLoop expected value.length value

/-! ### The verdict -/

/-- `HandshakeStatus`. -/
inductive HandshakeStatus
  | needMoreData
  | accepted
  | rejected
  deriving DecidableEq, Repr

/-- `HandshakeResult`. -/
structure HandshakeResult where
  status : HandshakeStatus := .needMoreData
  consumed : ℕ := 0
  response : Bytes := []
  origin : Bytes := []
  error : String := ""
  deriving DecidableEq, Repr

/-- The request is rejected. -/
def HandshakeResult.reject (result : HandshakeResult) (error response : String) : HandshakeResult :=
  { result with status := .rejected, error := error, response := ascii response }

/-- `HTTP/1.1 400`. -/
def badRequest : String := "HTTP/1.1 400 Bad Request\r\nConnection: close\r\n\r\n"

/-- `HTTP/1.1 101`. -/
def switchingProtocols (key : Bytes) : Bytes :=
  ascii "HTTP/1.1 101 Switching Protocols\r\nUpgrade: websocket\r\n" ++
    ascii "Connection: Upgrade\r\nSec-WebSocket-Accept: " ++ computeAcceptKey key ++
    ascii "\r\n\r\n"

/-- The answer always has 129 bytes. -/
theorem length_switchingProtocols (key : Bytes) : (switchingProtocols key).length = 129 := by
  simp only [switchingProtocols, List.length_append, length_computeAcceptKey]
  rfl

/-- The response to the key `dGhlIHNhbXBsZSBub25jZQ==`. -/
def sampleResponse : Bytes :=
  ascii "HTTP/1.1 101 Switching Protocols\r\nUpgrade: websocket\r\nConnection: Upgrade\r\n" ++
    ascii "Sec-WebSocket-Accept: s3pPLMBiTxaQ9kYGzzhZRbK+xOo=\r\n\r\n"

theorem switchingProtocols_sample :
    switchingProtocols (ascii "dGhlIHNhbXBsZSBub25jZQ==") = sampleResponse := by
  decide +kernel

/-- The loop over the header lines, with a bound on its steps: the headers, or an error. -/
def headerLoop (request : Bytes) (headerEnd : ℕ) :
    ℕ → ℕ → List (Bytes × Bytes) → Except String (List (Bytes × Bytes))
  | 0, _, headers => .ok headers
  | fuel + 1, position, headers =>
      if position < headerEnd then
        match findFrom crlf request position with
        | none => .ok headers -- the terminator starts with a line end
        | some lineEnd =>
            let line := (request.drop position).take (lineEnd - position)
            match find [':'.toUInt8] line with
            | none => .error "malformed HTTP header"
            | some colon =>
                let name := lower (trim (line.take colon))
                if (headers.lookup name).isSome then .error "duplicate HTTP header"
                else
                  headerLoop request headerEnd fuel (lineEnd + 2)
                    (headers ++ [(name, trim (line.drop (colon + 1)))])
      else .ok headers

/-- The checks of the headers. -/
def checkHeaders (result : HandshakeResult) (headers : List (Bytes × Bytes))
    (originValidator : Option (Bytes → Bool)) : HandshakeResult :=
  let upgrade := headers.lookup (ascii "upgrade")
  let connection := headers.lookup (ascii "connection")
  let key := headers.lookup (ascii "sec-websocket-key")
  let version := headers.lookup (ascii "sec-websocket-version")
  if upgrade.map lower ≠ some (ascii "websocket") ||
      !(connection.any fun value => containsToken value (ascii "upgrade")) ||
      !(key.any isValidWebSocketKey) || version ≠ some (ascii "13") then
    result.reject "required WebSocket upgrade headers are missing or invalid"
      "HTTP/1.1 400 Bad Request\r\nSec-WebSocket-Version: 13\r\nConnection: close\r\n\r\n"
  else
    let result := { result with origin := (headers.lookup (ascii "origin")).getD [] }
    if originValidator.any fun validator => !validator result.origin then
      result.reject "WebSocket Origin is not allowed"
        "HTTP/1.1 403 Forbidden\r\nConnection: close\r\n\r\n"
    else { result with status := .accepted, response := switchingProtocols (key.getD []) }

/-- The request line is `GET`, a target and `HTTP/1.1`. -/
def isUpgradeLine (requestLine : Bytes) : Bool :=
  match find [' '.toUInt8] requestLine with
  | none => false
  | some firstSpace =>
      match findFrom [' '.toUInt8] requestLine (firstSpace + 1) with
      | none => false
      | some secondSpace =>
          requestLine.take firstSpace == ascii "GET" &&
            requestLine.drop (secondSpace + 1) == ascii "HTTP/1.1"

/-- `ParseHandshake` once the empty line has been found. -/
def parseBlock (request : Bytes) (headerEnd : ℕ) (originValidator : Option (Bytes → Bool)) :
    HandshakeResult :=
  let result : HandshakeResult := { consumed := headerEnd + 4 }
  match find crlf request with
  | none => result.reject "missing HTTP request line" badRequest
  | some requestLineEnd =>
      if !isUpgradeLine (request.take requestLineEnd) then
        result.reject "WebSocket upgrade requires GET over HTTP/1.1" badRequest
      else
        match headerLoop request headerEnd headerEnd (requestLineEnd + 2) [] with
        | .error error => result.reject error badRequest
        | .ok headers => checkHeaders result headers originValidator

/-- `ParseHandshake`. -/
def parseHandshake (bytes : Bytes) (maxHeaderBytes : ℕ) (originValidator : Option (Bytes → Bool)) :
    HandshakeResult :=
  if bytes.length > maxHeaderBytes then
    HandshakeResult.reject {} "HTTP upgrade headers exceed configured limit"
      "HTTP/1.1 431 Request Header Fields Too Large\r\nConnection: close\r\n\r\n"
  else
    match find headerTerminator bytes with
    | none => {}
    | some headerEnd => parseBlock bytes headerEnd originValidator

/-! ### A buffer that grows -/

section Grows

variable {request : Bytes} {headerEnd : ℕ}

theorem crlf_prefix_headerTerminator : crlf <+: headerTerminator := by
  decide

/-- The empty line starts with a line end. -/
theorem crlf_at_headerEnd (h : find headerTerminator request = some headerEnd) :
    headerEnd + 4 ≤ request.length ∧ crlf <+: request.drop headerEnd := by
  obtain ⟨-, hfound, -⟩ := find_eq_some_iff.1 h
  exact ⟨find_add_le h, crlf_prefix_headerTerminator.trans hfound⟩

/-- The lines of a header block do not depend on what follows the block. -/
theorem headerLoop_append (h : find headerTerminator request = some headerEnd) (more : Bytes)
    (fuel position : ℕ) (headers : List (Bytes × Bytes)) :
    headerLoop (request ++ more) headerEnd fuel position headers =
      headerLoop request headerEnd fuel position headers := by
  obtain ⟨hlen, hcrlf⟩ := crlf_at_headerEnd h
  induction fuel generalizing position headers with
  | zero => rfl
  | succ fuel ih =>
      unfold headerLoop
      by_cases hpos : position < headerEnd
      · obtain ⟨lineEnd, hfind, hge, hle⟩ := findFrom_of_prefix hpos.le (by omega) hcrlf
        have hline : ((request ++ more).drop position).take (lineEnd - position) =
            (request.drop position).take (lineEnd - position) :=
          take_drop_append (by omega) more
        simp only [if_pos hpos, hfind, findFrom_append hfind (by omega) more, hline, ih]
      · rw [if_neg hpos, if_neg hpos]

/-- **The verdict on a header block does not depend on what follows it.** -/
theorem parseBlock_append (h : find headerTerminator request = some headerEnd) (more : Bytes)
    (originValidator : Option (Bytes → Bool)) :
    parseBlock (request ++ more) headerEnd originValidator =
      parseBlock request headerEnd originValidator := by
  obtain ⟨hlen, hcrlf⟩ := crlf_at_headerEnd h
  obtain ⟨requestLineEnd, hfind, -, hle⟩ :=
    findFrom_of_prefix (Nat.zero_le headerEnd) (by omega) hcrlf
  have hfind' : find crlf request = some requestLineEnd := by
    simpa [findFrom] using hfind
  have hline : (request ++ more).take requestLineEnd = request.take requestLineEnd :=
    List.take_append_of_le_length (by omega)
  simp only [parseBlock, hfind', find_append hfind' more, hline, headerLoop_append h more]

end Grows

section Verdicts

variable {bytes : Bytes} {limit : ℕ} {originValidator : Option (Bytes → Bool)}

theorem parseHandshake_of_gt (h : bytes.length > limit) :
    (parseHandshake bytes limit originValidator).status = .rejected := by
  rw [parseHandshake, if_pos h]
  rfl

theorem parseHandshake_of_find {headerEnd : ℕ} (hle : bytes.length ≤ limit)
    (h : find headerTerminator bytes = some headerEnd) :
    parseHandshake bytes limit originValidator = parseBlock bytes headerEnd originValidator := by
  rw [parseHandshake, if_neg (Nat.not_lt.2 hle), h]

theorem parseHandshake_of_none (hle : bytes.length ≤ limit)
    (h : find headerTerminator bytes = none) :
    parseHandshake bytes limit originValidator = {} := by
  rw [parseHandshake, if_neg (Nat.not_lt.2 hle), h]

/-- The responses to a header block that is rejected. -/
def refusals : List Bytes :=
  [ascii badRequest,
    ascii "HTTP/1.1 400 Bad Request\r\nSec-WebSocket-Version: 13\r\nConnection: close\r\n\r\n",
    ascii "HTTP/1.1 403 Forbidden\r\nConnection: close\r\n\r\n"]

/-- The result rejects the request, or it accepts it and the response says so. -/
def Answers (result : HandshakeResult) : Prop :=
  result.status = .rejected ∧ result.response ∈ refusals ∨
    result.status = .accepted ∧ ∃ key, result.response = switchingProtocols key

theorem checkHeaders_cases (result : HandshakeResult) (headers : List (Bytes × Bytes)) :
    (checkHeaders result headers originValidator).consumed = result.consumed ∧
      Answers (checkHeaders result headers originValidator) := by
  unfold checkHeaders
  dsimp only
  split
  · exact ⟨rfl, Or.inl ⟨rfl, List.mem_cons_of_mem _ List.mem_cons_self⟩⟩
  · split
    · exact ⟨rfl, Or.inl ⟨rfl, List.mem_cons_of_mem _ (List.mem_cons_of_mem _ List.mem_cons_self)⟩⟩
    · exact ⟨rfl, Or.inr ⟨rfl, _, rfl⟩⟩

/-- **A header block is accepted or rejected.** -/
theorem parseBlock_cases (headerEnd : ℕ) :
    (parseBlock bytes headerEnd originValidator).consumed = headerEnd + 4 ∧
      Answers (parseBlock bytes headerEnd originValidator) := by
  unfold parseBlock
  dsimp only
  split
  · exact ⟨rfl, Or.inl ⟨rfl, List.mem_cons_self⟩⟩
  · split
    · exact ⟨rfl, Or.inl ⟨rfl, List.mem_cons_self⟩⟩
    · split
      · exact ⟨rfl, Or.inl ⟨rfl, List.mem_cons_self⟩⟩
      · exact checkHeaders_cases _ _

/-- The verdict on a longer buffer, within the limit, is the one on the header block. -/
theorem parseHandshake_append {headerEnd : ℕ} (h : find headerTerminator bytes = some headerEnd)
    (more : Bytes) (hle : (bytes ++ more).length ≤ limit) :
    parseHandshake (bytes ++ more) limit originValidator =
      parseHandshake bytes limit originValidator := by
  have hle' : bytes.length ≤ limit := by
    rw [List.length_append] at hle
    omega
  rw [parseHandshake_of_find hle (find_append h more), parseHandshake_of_find hle' h,
    parseBlock_append h more]

/-- **A rejected request stays rejected**, whatever follows it. -/
theorem rejected_append (h : (parseHandshake bytes limit originValidator).status = .rejected)
    (more : Bytes) : (parseHandshake (bytes ++ more) limit originValidator).status = .rejected := by
  by_cases hlong : (bytes ++ more).length > limit
  · exact parseHandshake_of_gt hlong
  · have hle : (bytes ++ more).length ≤ limit := Nat.not_lt.1 hlong
    have hle' : bytes.length ≤ limit := by
      rw [List.length_append] at hle
      omega
    cases hfind : find headerTerminator bytes with
    | none =>
        rw [parseHandshake_of_none hle' hfind] at h
        cases h
    | some headerEnd =>
        rw [parseHandshake_append hfind more hle]
        exact h

/-- What is accepted has its header block, within the limit. -/
theorem find_of_accepted (h : (parseHandshake bytes limit originValidator).status = .accepted) :
    bytes.length ≤ limit ∧ ∃ headerEnd, find headerTerminator bytes = some headerEnd := by
  by_cases hlong : bytes.length > limit
  · rw [parseHandshake_of_gt hlong] at h
    cases h
  · have hle : bytes.length ≤ limit := Nat.not_lt.1 hlong
    cases hfind : find headerTerminator bytes with
    | none =>
        rw [parseHandshake_of_none hle hfind] at h
        cases h
    | some headerEnd => exact ⟨hle, headerEnd, rfl⟩

/-- **What the server answers** to a request it accepts. -/
theorem response_of_accepted
    (h : (parseHandshake bytes limit originValidator).status = .accepted) :
    ∃ key, (parseHandshake bytes limit originValidator).response = switchingProtocols key := by
  obtain ⟨hle, headerEnd, hfind⟩ := find_of_accepted h
  rw [parseHandshake_of_find hle hfind] at h ⊢
  rcases (parseBlock_cases headerEnd).2 with ⟨hrejected, -⟩ | ⟨-, hresponse⟩
  · rw [hrejected] at h
    cases h
  · exact hresponse

end Verdicts

end RealtimeEngine
