/-
**The grammar of the WebSocket handshake, and that `ParseHandshake` accepts exactly it.**

The grammar is written without positions.  The header block is the text before the first empty line,
it is cut into lines, the first line is the request line, and every other line is a header: a name,
a colon and a value.  What blanks and capitals come to is said by relations between texts.
`ParseHandshake` finds the lines with offsets into the whole buffer.  The two meet because a line end
cannot overlap the next one, and because an empty header line would have ended the block earlier.

Main definitions:

* `RealtimeEngine.HeaderBlock` — the text before the first empty line;
* `RealtimeEngine.Trimmed`, `RealtimeEngine.Lowered` — blanks at the ends, and capitals;
* `RealtimeEngine.IsHeader`, `RealtimeEngine.IsUpgrade` — header lines, and what they have to say;
* `RealtimeEngine.HandshakeRequest` — the grammar.

Main results:

* `RealtimeEngine.trimmed_iff`, `RealtimeEngine.lowered_iff` — what `Trim` and `Lower` compute;
* `RealtimeEngine.headerLoop_eq` — the loop over the offsets is a loop over the lines;
* `RealtimeEngine.readHeaders_iff` — what the loop over the lines accepts;
* `RealtimeEngine.handshake_grammar` — **the three verdicts of `ParseHandshake`**.
-/

import RealtimeEngine.Handshake
import RealtimeEngine.TextSplit

set_option relaxedAutoImplicit false
set_option autoImplicit false

namespace RealtimeEngine

open TextSearch

/-! ### The grammar -/

/-- The text before the first empty line. -/
def HeaderBlock (bytes block : Bytes) : Prop :=
  ∃ rest, bytes = block ++ (headerTerminator ++ rest) ∧
    ∀ j < block.length, ¬ headerTerminator <+: bytes.drop j

/-- Spaces and tabs. -/
def BlankByte (ch : UInt8) : Prop := ch = 32 ∨ ch = 9

/-- The inner text is the text without the blanks at its ends. -/
def Trimmed (text inner : Bytes) : Prop :=
  ∃ before behind, text = before ++ (inner ++ behind) ∧ (∀ ch ∈ before, BlankByte ch) ∧
    (∀ ch ∈ behind, BlankByte ch) ∧ (∀ ch ∈ inner.head?, ¬ BlankByte ch) ∧
    ∀ ch ∈ inner.getLast?, ¬ BlankByte ch

/-- The second text is the first one with small letters for the capitals of ASCII. -/
def Lowered : Bytes → Bytes → Prop :=
  List.Forall₂ fun ch small =>
    if 65 ≤ ch.toNat ∧ ch.toNat ≤ 90 then small.toNat = ch.toNat + 32 else small = ch

/-- A header line: the name is before the first colon, and the value is behind it. -/
def IsHeader (line : Bytes) (header : Bytes × Bytes) : Prop :=
  ∃ before behind name, line = before ++ ':'.toUInt8 :: behind ∧ ':'.toUInt8 ∉ before ∧
    Trimmed before name ∧ Lowered name header.1 ∧ Trimmed behind header.2

/-- The origin is the value of its header, empty if there is none. -/
def IsOrigin (headers : List (Bytes × Bytes)) (origin : Bytes) : Prop :=
  (ascii "origin", origin) ∈ headers ∨ ascii "origin" ∉ headers.map Prod.fst ∧ origin = []

/-- What the headers of an upgrade say, with this key. -/
structure IsUpgrade (headers : List (Bytes × Bytes)) (originValidator : Option (Bytes → Bool))
    (key : Bytes) : Prop where
  upgrade : ∃ value, (ascii "upgrade", value) ∈ headers ∧ Lowered value (ascii "websocket")
  connection : ∃ value items, (ascii "connection", value) ∈ headers ∧
    Splits [','.toUInt8] value items ∧ ∃ item ∈ items, ∃ token, Trimmed item token ∧
      Lowered token (ascii "upgrade")
  key : (ascii "sec-websocket-key", key) ∈ headers ∧ isValidWebSocketKey key = true
  version : (ascii "sec-websocket-version", ascii "13") ∈ headers
  origin : ∃ origin, IsOrigin headers origin ∧
    ∀ validator, originValidator = some validator → validator origin = true

/-- **The grammar**: a request line and header lines with distinct names. -/
def HandshakeRequest (originValidator : Option (Bytes → Bool)) (block key : Bytes) : Prop :=
  ∃ target lines headers,
    Splits crlf block ((ascii "GET " ++ (target ++ ascii " HTTP/1.1")) :: lines) ∧
      ' '.toUInt8 ∉ target ∧ List.Forall₂ IsHeader lines headers ∧
      (headers.map Prod.fst).Nodup ∧ IsUpgrade headers originValidator key

/-- The buffer is within the limit and starts with a request of the grammar. -/
def HasRequest (bytes : Bytes) (maxHeaderBytes : ℕ) (originValidator : Option (Bytes → Bool))
    (block key : Bytes) : Prop :=
  bytes.length ≤ maxHeaderBytes ∧ HeaderBlock bytes block ∧
    HandshakeRequest originValidator block key

/-! ### Blanks and capitals -/

theorem isBlank_iff (ch : UInt8) : isBlank ch = true ↔ BlankByte ch := by
  simp only [isBlank, Bool.or_eq_true, beq_iff_eq, BlankByte]
  exact Iff.rfl

/-- What `dropWhile` leaves does not begin with what it drops. -/
theorem not_blank_head_dropWhile (text : Bytes) :
    ∀ ch ∈ (text.dropWhile isBlank).head?, ¬ BlankByte ch := by
  intro ch hch
  have hnot := List.head?_dropWhile_not isBlank text
  rw [Option.mem_def.1 hch] at hnot
  rw [← isBlank_iff]
  simpa using hnot

/-- **`Trim`** leaves a text without blanks at its ends. -/
theorem trimmed_trim (text : Bytes) : Trimmed text (trim text) := by
  have hfront : text.takeWhile isBlank ++ text.dropWhile isBlank = text :=
    List.takeWhile_append_dropWhile
  generalize hrest : text.dropWhile isBlank = rest at hfront
  have hback : (rest.reverse.dropWhile isBlank).reverse ++ (rest.reverse.takeWhile isBlank).reverse =
      rest := by
    rw [← List.reverse_append, List.takeWhile_append_dropWhile, List.reverse_reverse]
  have hblanks : ∀ l : Bytes, ∀ ch ∈ l.takeWhile isBlank, BlankByte ch := fun l ch hch =>
    (isBlank_iff ch).1 (List.all_eq_true.1 List.all_takeWhile ch hch)
  have htrim : trim text = (rest.reverse.dropWhile isBlank).reverse := by rw [trim, hrest]
  refine ⟨text.takeWhile isBlank, (rest.reverse.takeWhile isBlank).reverse, ?_, hblanks text,
    fun ch hch => hblanks _ ch (List.mem_reverse.1 hch), fun ch hch => ?_, fun ch hch => ?_⟩
  · rw [htrim, hback, hfront]
  · -- the first byte of what is left is the one that stopped the first loop
    rw [htrim] at hch
    refine not_blank_head_dropWhile text ch ?_
    rw [hrest, ← hback]
    exact List.mem_head?_append_of_mem_head? hch
  · rw [htrim, List.getLast?_reverse] at hch
    exact not_blank_head_dropWhile _ ch hch

theorem dropWhile_of_not_blank {text : Bytes} (h : ∀ ch ∈ text.head?, ¬ BlankByte ch) :
    text.dropWhile isBlank = text := by
  cases text with
  | nil => rfl
  | cons ch text => exact List.dropWhile_cons_of_neg fun hblank => h ch rfl ((isBlank_iff ch).1 hblank)

theorem dropWhile_blanks {blanks : Bytes} (h : ∀ ch ∈ blanks, BlankByte ch) (text : Bytes) :
    (blanks ++ text).dropWhile isBlank = text.dropWhile isBlank :=
  List.dropWhile_append_of_pos fun ch hch => (isBlank_iff ch).2 (h ch hch)

/-- It is the only inner text. -/
theorem Trimmed.eq_trim {text inner : Bytes} (h : Trimmed text inner) : inner = trim text := by
  obtain ⟨before, behind, rfl, hbefore, hbehind, hhead, hlast⟩ := h
  rw [trim, dropWhile_blanks hbefore]
  cases inner with
  | nil =>
      have hnone : behind.dropWhile isBlank = [] := by
        have hall := dropWhile_blanks hbehind []
        rwa [List.append_nil] at hall
      rw [List.nil_append, hnone]
      rfl
  | cons ch inner =>
      have hfront : ((ch :: inner) ++ behind).dropWhile isBlank = (ch :: inner) ++ behind :=
        dropWhile_of_not_blank fun a ha => hhead a ha
      have hback : (ch :: inner).reverse.dropWhile isBlank = (ch :: inner).reverse :=
        dropWhile_of_not_blank fun a ha => hlast a (by rwa [List.head?_reverse] at ha)
      rw [hfront, List.reverse_append,
        dropWhile_blanks (fun a ha => hbehind a (List.mem_reverse.1 ha)), hback, List.reverse_reverse]

theorem trimmed_iff {text inner : Bytes} : Trimmed text inner ↔ inner = trim text :=
  ⟨Trimmed.eq_trim, fun h => h ▸ trimmed_trim text⟩

/-- One byte of `Lower`. -/
theorem lowered_byte (ch small : UInt8) :
    (if 65 ≤ ch.toNat ∧ ch.toNat ≤ 90 then small.toNat = ch.toNat + 32 else small = ch) ↔
      small = if ch ≥ 'A'.toUInt8 && ch ≤ 'Z'.toUInt8 then ch + 32 else ch := by
  have hcapital : (ch ≥ 'A'.toUInt8 && ch ≤ 'Z'.toUInt8) = true ↔
      65 ≤ ch.toNat ∧ ch.toNat ≤ 90 := by
    rw [Bool.and_eq_true, decide_eq_true_eq, decide_eq_true_eq, ge_iff_le, UInt8.le_iff_toNat_le,
      UInt8.le_iff_toNat_le]
    exact Iff.rfl
  by_cases h : 65 ≤ ch.toNat ∧ ch.toNat ≤ 90
  · have hsum : (ch + 32).toNat = ch.toNat + 32 := by
      rw [UInt8.toNat_add]
      exact Nat.mod_eq_of_lt (by simp; omega)
    rw [if_pos h, if_pos (hcapital.2 h), ← UInt8.toNat_inj, hsum]
  · rw [if_neg h, if_neg (mt hcapital.1 h)]

/-- **`Lower`** makes small letters of the capitals. -/
theorem lowered_iff {text small : Bytes} : Lowered text small ↔ small = lower text := by
  induction text generalizing small with
  | nil => simp [Lowered, lower]
  | cons ch text ih =>
      rw [Lowered, List.forall₂_cons_left_iff]
      constructor
      · rintro ⟨first, rest, hfirst, hrest, rfl⟩
        rw [(lowered_byte ch first).1 hfirst, ih.1 hrest]
        rfl
      · rintro rfl
        exact ⟨_, _, (lowered_byte ch _).2 rfl, ih.2 rfl, rfl⟩

/-! ### Lines -/

theorem unbordered_crlf : Unbordered crlf := by
  unfold Unbordered
  decide

theorem crlf_ne_nil : crlf ≠ [] := by
  decide

/-- A line that is empty, behind a line end and before one, is the end of the header block. -/
theorem pieces_ne_nil {text : Bytes} {lines : List Bytes} (hlines : Splits crlf text lines)
    (hblock : ¬ headerTerminator <:+: crlf ++ (text ++ crlf)) : ∀ line ∈ lines, line ≠ [] := by
  have hterminator : headerTerminator = crlf ++ crlf := by decide
  rw [hterminator] at hblock
  induction hlines with
  | last hfree =>
      rintro line hline rfl
      obtain rfl := List.mem_singleton.1 hline
      exact hblock (List.infix_refl _)
  | @next piece text pieces hfree hrest ih =>
      intro line hline
      rcases List.mem_cons.1 hline with rfl | hline
      · rintro rfl
        refine hblock ⟨[], text ++ crlf, ?_⟩
        simp
      · refine ih ?_ line hline
        intro hinside
        refine hblock (hinside.trans ⟨crlf ++ piece, [], ?_⟩)
        simp

/-- The loop over the lines: the headers, or an error. -/
def readHeaders : List Bytes → List (Bytes × Bytes) → Except String (List (Bytes × Bytes))
  | [], headers => .ok headers
  | line :: lines, headers =>
      match find [':'.toUInt8] line with
      | none => .error "malformed HTTP header"
      | some colon =>
          if (headers.lookup (lower (trim (line.take colon)))).isSome then
            .error "duplicate HTTP header"
          else
            readHeaders lines
              (headers ++ [(lower (trim (line.take colon)), trim (line.drop (colon + 1)))])

/-- The loop behind the last line. -/
theorem headerLoop_of_le {request : Bytes} {headerEnd position : ℕ} (h : headerEnd ≤ position)
    (fuel : ℕ) (headers : List (Bytes × Bytes)) :
    headerLoop request headerEnd fuel position headers = .ok headers := by
  cases fuel with
  | zero => rfl
  | succ fuel => rw [headerLoop, if_neg (Nat.not_lt.2 h)]

/-- **The loop over the offsets is a loop over the lines.** -/
theorem headerLoop_eq {text : Bytes} {lines : List Bytes} (hlines : Splits crlf text lines)
    (hne : ∀ line ∈ lines, line ≠ []) (before : Bytes) {rest : Bytes} (hrest : crlf <+: rest)
    {fuel : ℕ} (hfuel : lines.length ≤ fuel) (headers : List (Bytes × Bytes)) :
    headerLoop (before ++ (text ++ rest)) (before.length + text.length) fuel before.length headers =
      readHeaders lines headers := by
  induction hlines generalizing before fuel headers with
  -- the last line ends at the CRLF of the terminator
  | @last piece hfree =>
      obtain ⟨behind, rfl⟩ := hrest
      obtain ⟨fuel, rfl⟩ : ∃ n, fuel = n + 1 := ⟨fuel - 1, by simp at hfuel; omega⟩
      have hpos := List.length_pos_iff.2 (hne piece (List.mem_singleton_self piece))
      have hfind : findFrom crlf (before ++ (piece ++ (crlf ++ behind))) before.length =
          some (before.length + piece.length) := by
        rw [findFrom, List.drop_left, find_append_pattern unbordered_crlf hfree, Option.map_some,
          Nat.add_comm]
      rw [headerLoop, if_pos (by omega), hfind, readHeaders]
      simp only [List.drop_left, Nat.add_sub_cancel_left, List.take_left]
      cases find [':'.toUInt8] piece with
      | none => rfl
      | some colon =>
          dsimp only
          split_ifs
          · rfl
          · exact headerLoop_of_le (by omega) fuel _
  | @next piece text pieces hfree hpieces ih =>
      obtain ⟨fuel, rfl⟩ : ∃ n, fuel = n + 1 := ⟨fuel - 1, by simp at hfuel; omega⟩
      have hpos := List.length_pos_iff.2 (hne piece List.mem_cons_self)
      have hfind : findFrom crlf (before ++ ((piece ++ (crlf ++ text)) ++ rest)) before.length =
          some (before.length + piece.length) := by
        rw [findFrom, List.drop_left, List.append_assoc, List.append_assoc,
          find_append_pattern unbordered_crlf hfree, Option.map_some, Nat.add_comm]
      have hlen : (piece ++ (crlf ++ text)).length = piece.length + 2 + text.length := by
        simp only [List.length_append]
        rw [show crlf.length = 2 from rfl]
        omega
      have hshorter : pieces.length ≤ fuel := by simpa using hfuel
      -- the induction is on the lines; `before` holds what the loop has passed
      have hstep := ih (fun line hline => hne line (List.mem_cons_of_mem _ hline))
        (before ++ (piece ++ crlf)) hshorter
      have hbefore : (before ++ (piece ++ crlf)).length = before.length + piece.length + 2 := by
        simp only [List.length_append]
        rw [show crlf.length = 2 from rfl]
        omega
      have htext : before ++ (piece ++ crlf) ++ (text ++ rest) =
          before ++ ((piece ++ (crlf ++ text)) ++ rest) := by
        simp only [List.append_assoc]
      have hend : before.length + piece.length + 2 + text.length =
          before.length + (piece ++ (crlf ++ text)).length := by
        rw [hlen]
        omega
      rw [hbefore, htext, hend] at hstep
      rw [headerLoop, if_pos (by omega), hfind, readHeaders]
      simp only [List.drop_left, Nat.add_sub_cancel_left, List.append_assoc, List.take_left]
      simp only [List.append_assoc] at hstep
      cases find [':'.toUInt8] piece with
      | none => rfl
      | some colon =>
          dsimp only
          split_ifs
          · rfl
          · exact hstep _

/-! ### Headers -/

theorem lookup_isSome_iff_mem {headers : List (Bytes × Bytes)} {name : Bytes} :
    (headers.lookup name).isSome = true ↔ name ∈ headers.map Prod.fst := by
  rw [List.lookup_isSome_iff, List.mem_map]
  constructor
  · rintro ⟨header, hheader, hname⟩
    exact ⟨header, hheader, (beq_iff_eq.1 hname).symm⟩
  · rintro ⟨header, hheader, rfl⟩
    exact ⟨header, hheader, beq_self_eq_true _⟩

/-- Where the names are distinct, a header that is there is the one that is looked up. -/
theorem lookup_eq_some_iff_mem {headers : List (Bytes × Bytes)}
    (hnames : (headers.map Prod.fst).Nodup) {name value : Bytes} :
    headers.lookup name = some value ↔ (name, value) ∈ headers := by
  induction headers with
  | nil => simp
  | cons header headers ih =>
      obtain ⟨name', value'⟩ := header
      rw [List.map_cons, List.nodup_cons] at hnames
      rw [List.lookup_cons]
      by_cases hname : name = name'
      · subst hname
        have habsent : (name, value) ∉ headers :=
          fun hmem => hnames.1 (List.mem_map.2 ⟨_, hmem, rfl⟩)
        simp [habsent, eq_comm]
      · have hdiffer : (name == name') = false := beq_eq_false_iff_ne.2 hname
        simp [hdiffer, hname, ih hnames.2]

/-- One header line. -/
theorem isHeader_iff {line : Bytes} {header : Bytes × Bytes} :
    IsHeader line header ↔
      ∃ colon, find [':'.toUInt8] line = some colon ∧
        header = (lower (trim (line.take colon)), trim (line.drop (colon + 1))) := by
  constructor
  · rintro ⟨before, behind, name, rfl, hfree, hname, hlowered, hvalue⟩
    refine ⟨before.length, find_singleton_iff.2 ⟨before, behind, rfl, hfree, rfl⟩, ?_⟩
    rw [List.take_left, ← List.drop_drop, List.drop_left, ← trimmed_iff.1 hname,
      ← lowered_iff.1 hlowered]
    exact Prod.ext rfl (trimmed_iff.1 hvalue)
  · rintro ⟨colon, hfind, rfl⟩
    obtain ⟨before, behind, rfl, hfree, rfl⟩ := find_singleton_iff.1 hfind
    refine ⟨before, behind, trim before, rfl, hfree, trimmed_trim before, ?_, ?_⟩
    · rw [List.take_left]
      exact lowered_iff.2 rfl
    · rw [← List.drop_drop, List.drop_left]
      exact trimmed_trim behind

/-- **What the loop over the lines accepts**: every line is a header, and its name is new. -/
theorem readHeaders_iff {lines : List Bytes} {former headers : List (Bytes × Bytes)}
    (hnames : (former.map Prod.fst).Nodup) :
    readHeaders lines former = .ok headers ↔
      ∃ new, headers = former ++ new ∧ List.Forall₂ IsHeader lines new ∧
        (headers.map Prod.fst).Nodup := by
  induction lines generalizing former with
  | nil =>
      constructor
      · intro h
        obtain rfl := Except.ok.inj h
        exact ⟨[], (List.append_nil _).symm, .nil, hnames⟩
      · rintro ⟨new, rfl, hnew, -⟩
        cases hnew
        rw [List.append_nil, readHeaders]
  | cons line lines ih =>
      rw [readHeaders]
      cases hfind : find [':'.toUInt8] line with
      | none =>
          constructor
          · intro h
            cases h
          · rintro ⟨new, -, hnew, -⟩
            cases hnew with
            | cons hheader _ =>
                obtain ⟨colon, hfind', -⟩ := isHeader_iff.1 hheader
                rw [hfind] at hfind'
                cases hfind'
      | some colon =>
          dsimp only
          -- a line with a colon has one reading
          generalize hheader : (lower (trim (line.take colon)), trim (line.drop (colon + 1))) = header
          have hname : lower (trim (line.take colon)) = header.1 := congrArg Prod.fst hheader
          have hisHeader : ∀ header', IsHeader line header' ↔ header' = header := by
            intro header'
            rw [isHeader_iff]
            constructor
            · rintro ⟨colon', hfind', rfl⟩
              rw [hfind] at hfind'
              obtain rfl := Option.some.inj hfind'
              exact hheader
            · rintro rfl
              exact ⟨colon, hfind, hheader.symm⟩
          rw [hname]
          -- a name that was read before makes the names not distinct
          by_cases hknown : (former.lookup header.1).isSome = true
          · rw [if_pos hknown]
            constructor
            · intro h
              cases h
            · rintro ⟨new, rfl, hnew, hdistinct⟩
              cases hnew with
              | cons hfirst _ =>
                  obtain rfl := (hisHeader _).1 hfirst
                  rw [List.map_append, List.nodup_append] at hdistinct
                  exact absurd rfl (hdistinct.2.2 _ (lookup_isSome_iff_mem.1 hknown) _
                    List.mem_cons_self)
          · rw [if_neg hknown]
            have hnew : header.1 ∉ former.map Prod.fst := mt lookup_isSome_iff_mem.2 hknown
            have hnames' : ((former ++ [header]).map Prod.fst).Nodup := by
              rw [List.map_append, List.nodup_append]
              refine ⟨hnames, List.nodup_singleton _, ?_⟩
              rintro name hmem _ hlast rfl
              rw [List.map_singleton, List.mem_singleton] at hlast
              exact hnew (hlast ▸ hmem)
            rw [ih hnames']
            constructor
            · rintro ⟨new, rfl, hlines, hdistinct⟩
              refine ⟨header :: new, ?_, .cons ((hisHeader header).2 rfl) hlines, hdistinct⟩
              rw [List.append_assoc, List.singleton_append]
            · rintro ⟨new, rfl, hlines, hdistinct⟩
              cases hlines with
              | cons hfirst hrest =>
                  obtain rfl := (hisHeader _).1 hfirst
                  exact ⟨_, (List.append_cons _ _ _), hrest, hdistinct⟩

/-! ### What the headers say -/

theorem containsTokenLoop_iff {expected value : Bytes} {items : List Bytes}
    (hitems : Splits [','.toUInt8] value items) (hexpected : lower expected ≠ []) {fuel : ℕ}
    (hfuel : value.length ≤ fuel) :
    containsTokenLoop expected fuel value = true ↔
      ∃ item ∈ items, lower (trim item) = lower expected := by
  have hempty : lower (trim []) = [] := rfl
  induction hitems generalizing fuel with
  | @last piece hfree =>
      have hnone := find_eq_none_iff_free.2 hfree
      cases piece with
      -- the loop stops before an empty last item, which is no token anyway
      | nil =>
          have hloop : containsTokenLoop expected fuel [] = false := by
            cases fuel <;> rfl
          simp [hloop, hempty, hexpected.symm]
      | cons a piece =>
          obtain ⟨fuel, rfl⟩ : ∃ n, fuel = n + 1 := ⟨fuel - 1, by simp at hfuel; omega⟩
          rw [containsTokenLoop, hnone]
          simp
  | @next piece text pieces hfree hpieces ih =>
      have hsome := find_append_pattern (unbordered_singleton ','.toUInt8) hfree text
      have hlen : (piece ++ ([','.toUInt8] ++ text)).length = piece.length + 1 + text.length := by
        simp only [List.length_append, List.length_singleton]
        omega
      obtain ⟨fuel, rfl⟩ : ∃ n, fuel = n + 1 := ⟨fuel - 1, by omega⟩
      have hnonempty : (piece ++ ([','.toUInt8] ++ text)).isEmpty = false := by
        cases piece <;> rfl
      have hdrop : (piece ++ ([','.toUInt8] ++ text)).drop (piece.length + 1) = text := by
        rw [← List.drop_drop, List.drop_left]
        rfl
      rw [containsTokenLoop, hnonempty, hsome]
      dsimp only
      rw [List.take_left, hdrop]
      have hshorter : text.length ≤ fuel := by omega
      have hrest := ih hshorter
      by_cases htoken : lower (trim piece) = lower expected
      · simp [htoken]
      · simp [htoken, hrest]

/-- **`ContainsToken`**: one of the items between the commas is the expected one. -/
theorem containsToken_iff {expected value : Bytes} (hexpected : lower expected ≠ []) :
    containsToken value expected = true ↔
      ∃ items, Splits [','.toUInt8] value items ∧
        ∃ item ∈ items, lower (trim item) = lower expected := by
  constructor
  · intro h
    obtain ⟨items, hitems⟩ := exists_splits (List.cons_ne_nil ','.toUInt8 []) value
    exact ⟨items, hitems, (containsTokenLoop_iff hitems hexpected le_rfl).1 h⟩
  · rintro ⟨items, hitems, hitem⟩
    exact (containsTokenLoop_iff hitems hexpected le_rfl).2 hitem

/-- The origin that is looked up is the one of the grammar. -/
theorem isOrigin_iff {headers : List (Bytes × Bytes)} (hnames : (headers.map Prod.fst).Nodup)
    {origin : Bytes} :
    IsOrigin headers origin ↔ (headers.lookup (ascii "origin")).getD [] = origin := by
  rw [IsOrigin, ← lookup_eq_some_iff_mem hnames, ← lookup_isSome_iff_mem]
  cases headers.lookup (ascii "origin") with
  | none => simp [eq_comm]
  | some value => simp

theorem any_eq_true_iff {α : Type*} {p : α → Bool} {o : Option α} :
    o.any p = true ↔ ∃ a, o = some a ∧ p a = true := by
  cases o <;> simp

/-- **The checks of the headers**: an upgrade is accepted, and answered with its key. -/
theorem checkHeaders_of_isUpgrade {headers : List (Bytes × Bytes)}
    (hnames : (headers.map Prod.fst).Nodup) {originValidator : Option (Bytes → Bool)} {key : Bytes}
    (h : IsUpgrade headers originValidator key) (result : HandshakeResult) :
    (checkHeaders result headers originValidator).status = .accepted ∧
      (checkHeaders result headers originValidator).response = switchingProtocols key := by
  obtain ⟨upgrade, hupgrade, hwebsocket⟩ := h.upgrade
  obtain ⟨connection, items, hconnection, hitems, item, hitem, token, htrimmed, hlowered⟩ :=
    h.connection
  have hwebsocket : lower upgrade = ascii "websocket" := (lowered_iff.1 hwebsocket).symm
  have htoken : lower (trim item) = ascii "upgrade" := by
    rw [← trimmed_iff.1 htrimmed, ← lowered_iff.1 hlowered]
  obtain ⟨hkey, hvalid⟩ := h.key
  obtain ⟨origin, horigin, hallowed⟩ := h.origin
  have hlower : lower (ascii "upgrade") = ascii "upgrade" := by decide
  have hcontains : containsToken connection (ascii "upgrade") = true :=
    (containsToken_iff (by decide)).2 ⟨items, hitems, item, hitem, htoken.trans hlower.symm⟩
  have hvalidator : (originValidator.any fun validator => !validator origin) = false := by
    cases originValidator with
    | none => rfl
    | some validator => simp [hallowed validator rfl]
  rw [checkHeaders, (lookup_eq_some_iff_mem hnames).2 hupgrade,
    (lookup_eq_some_iff_mem hnames).2 hconnection, (lookup_eq_some_iff_mem hnames).2 hkey,
    (lookup_eq_some_iff_mem hnames).2 h.version, (isOrigin_iff hnames).1 horigin]
  simp [hwebsocket, hcontains, hvalid, hvalidator]

theorem isUpgrade_of_checkHeaders {headers : List (Bytes × Bytes)}
    (hnames : (headers.map Prod.fst).Nodup) {originValidator : Option (Bytes → Bool)}
    {result : HandshakeResult}
    (h : (checkHeaders result headers originValidator).status = .accepted) :
    ∃ key, IsUpgrade headers originValidator key := by
  unfold checkHeaders at h
  dsimp only at h
  split at h
  · cases h
  · next hrequired =>
      split at h
      · cases h
      · next hvalidator =>
          simp only [Bool.or_eq_true, decide_eq_true_eq, not_or, ne_eq, not_not,
            Bool.not_eq_true', Bool.not_eq_false, any_eq_true_iff, Option.map_eq_some_iff]
            at hrequired
          obtain ⟨⟨⟨⟨upgrade, hupgrade, hwebsocket⟩, connection, hconnection, hcontains⟩,
            key, hkey, hvalid⟩, hversion⟩ := hrequired
          obtain ⟨items, hitems, item, hitem, htoken⟩ :=
            (containsToken_iff (by decide)).1 hcontains
          have hlower : lower (ascii "upgrade") = ascii "upgrade" := by decide
          refine ⟨key,
            ⟨upgrade, (lookup_eq_some_iff_mem hnames).1 hupgrade, lowered_iff.2 hwebsocket.symm⟩,
            ⟨connection, items, (lookup_eq_some_iff_mem hnames).1 hconnection, hitems, item, hitem,
              trim item, trimmed_trim item, lowered_iff.2 (htoken.trans hlower).symm⟩,
            ⟨(lookup_eq_some_iff_mem hnames).1 hkey, hvalid⟩,
            (lookup_eq_some_iff_mem hnames).1 hversion, _, (isOrigin_iff hnames).2 rfl, ?_⟩
          rintro validator rfl
          simpa using hvalidator

/-! ### The request line -/

theorem drop_length_succ (before behind : Bytes) (a : UInt8) :
    (before ++ a :: behind).drop (before.length + 1) = behind := by
  rw [← List.drop_drop, List.drop_left]
  rfl

/-- A line with two blanks. -/
theorem isUpgradeLine_words {method target : Bytes} (hmethod : ' '.toUInt8 ∉ method)
    (htarget : ' '.toUInt8 ∉ target) (version : Bytes) :
    isUpgradeLine (method ++ ' '.toUInt8 :: (target ++ ' '.toUInt8 :: version)) =
      (method == ascii "GET" && version == ascii "HTTP/1.1") := by
  have hfirst := find_singleton_iff.2 ⟨method, target ++ ' '.toUInt8 :: version, rfl, hmethod, rfl⟩
  have hsecond := find_singleton_iff.2 ⟨target, version, rfl, htarget, rfl⟩
  have hversion : (method ++ ' '.toUInt8 :: (target ++ ' '.toUInt8 :: version)).drop
      (target.length + (method.length + 1) + 1) = version := by
    rw [show target.length + (method.length + 1) + 1 = method.length + 1 + (target.length + 1) by
      omega, ← List.drop_drop, drop_length_succ, drop_length_succ]
  rw [isUpgradeLine, hfirst]
  dsimp only
  rw [findFrom, drop_length_succ, hsecond]
  dsimp only [Option.map_some]
  rw [List.take_left, hversion]

/-- **The request line**: `GET`, a target without blanks, and the version. -/
theorem isUpgradeLine_iff (line : Bytes) :
    isUpgradeLine line = true ↔
      ∃ target, line = ascii "GET " ++ (target ++ ascii " HTTP/1.1") ∧ ' '.toUInt8 ∉ target := by
  have hwords : ∀ target, ascii "GET " ++ (target ++ ascii " HTTP/1.1") =
      ascii "GET" ++ ' '.toUInt8 :: (target ++ ' '.toUInt8 :: ascii "HTTP/1.1") := fun target => rfl
  constructor
  · intro h
    cases hfirst : find [' '.toUInt8] line with
    | none =>
        rw [isUpgradeLine, hfirst] at h
        cases h
    | some firstSpace =>
        obtain ⟨method, behind, rfl, hmethod, rfl⟩ := find_singleton_iff.1 hfirst
        cases hsecond : find [' '.toUInt8] behind with
        | none =>
            rw [isUpgradeLine, hfirst] at h
            dsimp only at h
            rw [findFrom, drop_length_succ, hsecond] at h
            cases h
        | some secondSpace =>
            obtain ⟨target, version, rfl, htarget, rfl⟩ := find_singleton_iff.1 hsecond
            rw [isUpgradeLine_words hmethod htarget, Bool.and_eq_true, beq_iff_eq, beq_iff_eq] at h
            obtain ⟨rfl, rfl⟩ := h
            exact ⟨target, (hwords target).symm, htarget⟩
  · rintro ⟨target, rfl, htarget⟩
    rw [hwords, isUpgradeLine_words (by decide) htarget]
    simp

/-! ### The verdicts -/

theorem headerBlock_iff {bytes block : Bytes} :
    HeaderBlock bytes block ↔
      find headerTerminator bytes = some block.length ∧ block = bytes.take block.length := by
  constructor
  · rintro ⟨rest, rfl, hfirst⟩
    refine ⟨find_eq_some_iff.2 ⟨by simp, ?_, hfirst⟩, List.take_left.symm⟩
    rw [List.drop_left]
    exact List.prefix_append _ _
  · rintro ⟨hfind, hblock⟩
    obtain ⟨-, -, hfirst⟩ := find_eq_some_iff.1 hfind
    obtain ⟨htext, -⟩ := split_of_find (by decide) hfind
    rw [← hblock] at htext
    exact ⟨_, htext, hfirst⟩

/-- Behind the header block there is no empty line that starts in it. -/
theorem HeaderBlock.free {bytes block : Bytes} (h : HeaderBlock bytes block) :
    ¬ headerTerminator <:+: block ++ crlf := by
  obtain ⟨rest, rfl, hfirst⟩ := h
  rintro ⟨before, behind, hinside⟩
  have hlen := congrArg List.length hinside
  simp only [List.length_append] at hlen
  rw [show headerTerminator.length = 4 from rfl, show crlf.length = 2 from rfl] at hlen
  refine hfirst before.length (by omega) ?_
  have htext : block ++ (headerTerminator ++ rest) =
      before ++ (headerTerminator ++ (behind ++ (crlf ++ rest))) := by
    have hterminator : headerTerminator = crlf ++ crlf := by decide
    rw [← List.append_assoc, ← List.append_assoc before, ← List.append_assoc (before ++ _), hinside,
      List.append_assoc, List.append_assoc]
    rw [hterminator, List.append_assoc]
  rw [htext, List.drop_left]
  exact List.prefix_append _ _

/-- **The verdict on a header block**, line by line. -/
theorem parseBlock_eq {bytes block requestLine : Bytes} {lines : List Bytes}
    (hblock : HeaderBlock bytes block) (hlines : Splits crlf block (requestLine :: lines))
    (originValidator : Option (Bytes → Bool)) :
    parseBlock bytes block.length originValidator =
      let result : HandshakeResult := { consumed := block.length + 4 }
      if !isUpgradeLine requestLine then
        result.reject "WebSocket upgrade requires GET over HTTP/1.1" badRequest
      else
        match readHeaders lines [] with
        | .error error => result.reject error badRequest
        | .ok headers => checkHeaders result headers originValidator := by
  have hfull := hblock.free
  obtain ⟨rest, rfl, -⟩ := hblock
  have hterminator : headerTerminator = crlf ++ crlf := by decide
  have hcrlf : crlf <+: headerTerminator ++ rest :=
    crlf_prefix_headerTerminator.trans (List.prefix_append _ _)
  unfold parseBlock
  cases hlines with
  -- no CRLF in the block: the first one is that of the terminator
  | last hfree =>
      have hfind : find crlf (block ++ (headerTerminator ++ rest)) = some block.length := by
        rw [hterminator, List.append_assoc, find_append_pattern unbordered_crlf hfree]
      rw [hfind]
      dsimp only
      rw [List.take_left, headerLoop_of_le (Nat.le_add_right _ _)]
      rfl
  | @next _ text _ hfree hlines =>
      have hfind : find crlf (requestLine ++ (crlf ++ text) ++ (headerTerminator ++ rest)) =
          some requestLine.length := by
        rw [List.append_assoc, List.append_assoc, find_append_pattern unbordered_crlf hfree]
      -- an empty line would be the terminator
      have hne := pieces_ne_nil hlines fun hinside => hfull (hinside.trans ⟨requestLine, [], by simp⟩)
      have hlen : (requestLine ++ (crlf ++ text)).length = requestLine.length + 2 + text.length := by
        simp only [List.length_append]
        rw [show crlf.length = 2 from rfl]
        omega
      have hcount := hlines.length_le crlf_ne_nil
      have hfuel : lines.length ≤ (requestLine ++ (crlf ++ text)).length := by omega
      have hloop := headerLoop_eq hlines hne (requestLine ++ crlf) hcrlf hfuel []
      have hstart : (requestLine ++ crlf).length = requestLine.length + 2 := List.length_append
      rw [hstart, ← hlen] at hloop
      have htake : (requestLine ++ (crlf ++ text) ++ (headerTerminator ++ rest)).take
          requestLine.length = requestLine := by
        rw [List.append_assoc, List.take_left]
      have hbuffer : requestLine ++ crlf ++ (text ++ (headerTerminator ++ rest)) =
          requestLine ++ (crlf ++ text) ++ (headerTerminator ++ rest) := by
        simp only [List.append_assoc]
      rw [hbuffer] at hloop
      rw [hfind]
      dsimp only
      rw [htake]
      exact hloop ▸ rfl

/-- A request of the grammar is accepted. -/
theorem parseHandshake_of_hasRequest {bytes : Bytes} {limit : ℕ}
    {originValidator : Option (Bytes → Bool)} {block key : Bytes}
    (h : HasRequest bytes limit originValidator block key) :
    let r := parseHandshake bytes limit originValidator
    r.status = .accepted ∧ r.consumed = block.length + 4 ∧ r.response = switchingProtocols key := by
  obtain ⟨hle, hblock, target, lines, headers, hlines, htarget, hheaders, hnames, hupgrade⟩ := h
  have hline := (isUpgradeLine_iff _).2 ⟨target, rfl, htarget⟩
  have hread : readHeaders lines [] = .ok headers :=
    (readHeaders_iff (by simp)).2 ⟨headers, rfl, hheaders, hnames⟩
  have hparse : parseHandshake bytes limit originValidator = _ :=
    parseHandshake_of_find hle (headerBlock_iff.1 hblock).1
  have hconsumed := (@parseBlock_cases bytes originValidator block.length).1
  rw [parseBlock_eq hblock hlines, hline] at hparse hconsumed
  dsimp only at hparse hconsumed
  rw [hread] at hparse hconsumed
  obtain ⟨hstatus, hresponse⟩ := checkHeaders_of_isUpgrade hnames hupgrade
    { consumed := block.length + 4 }
  intro r
  have hr : r = checkHeaders { consumed := block.length + 4 } headers originValidator := hparse
  rw [hr]
  exact ⟨hstatus, hconsumed, hresponse⟩

/-- What is accepted is a request of the grammar. -/
theorem hasRequest_of_accepted {bytes : Bytes} {limit : ℕ}
    {originValidator : Option (Bytes → Bool)}
    (h : (parseHandshake bytes limit originValidator).status = .accepted) :
    ∃ block key, HasRequest bytes limit originValidator block key := by
  obtain ⟨hle, headerEnd, hfind⟩ := find_of_accepted h
  have hend := find_add_le hfind
  have hlen : (bytes.take headerEnd).length = headerEnd := by
    rw [List.length_take]
    omega
  have hblock : HeaderBlock bytes (bytes.take headerEnd) := by
    rw [headerBlock_iff, hlen]
    exact ⟨hfind, rfl⟩
  obtain ⟨pieces, hlines⟩ := exists_splits crlf_ne_nil (bytes.take headerEnd)
  obtain ⟨requestLine, lines, rfl⟩ := hlines.exists_cons
  -- every refusal of the parser contradicts `h`; what passes is the grammar
  have hparse := parseBlock_eq hblock hlines originValidator
  rw [hlen] at hparse
  rw [parseHandshake_of_find hle hfind, hparse] at h
  dsimp only at h
  split at h
  · cases h
  · next hline =>
      simp only [Bool.not_eq_true', Bool.not_eq_false] at hline
      obtain ⟨target, rfl, htarget⟩ := (isUpgradeLine_iff requestLine).1 hline
      split at h
      · cases h
      · next headers hread =>
          obtain ⟨new, hnew, hheaders, hnames⟩ := (readHeaders_iff (by simp)).1 hread
          rw [List.nil_append] at hnew
          subst hnew
          obtain ⟨key, hupgrade⟩ := isUpgrade_of_checkHeaders hnames h
          exact ⟨_, key, hle, hblock, target, lines, headers, hlines, htarget, hheaders, hnames,
            hupgrade⟩

theorem parseHandshake_needMoreData_iff {bytes : Bytes} {limit : ℕ}
    {originValidator : Option (Bytes → Bool)} :
    (parseHandshake bytes limit originValidator).status = .needMoreData ↔
      bytes.length ≤ limit ∧ ¬ headerTerminator <:+: bytes := by
  rw [← find_eq_none_iff_free]
  by_cases hlong : bytes.length > limit
  · rw [parseHandshake_of_gt hlong]
    constructor
    · intro h
      cases h
    · rintro ⟨hle, -⟩
      omega
  · have hle : bytes.length ≤ limit := Nat.not_lt.1 hlong
    cases hfind : find headerTerminator bytes with
    | none =>
        rw [parseHandshake_of_none hle hfind]
        exact ⟨fun _ => ⟨hle, rfl⟩, fun _ => rfl⟩
    | some headerEnd =>
        rw [parseHandshake_of_find hle hfind]
        rcases (@parseBlock_cases bytes originValidator headerEnd).2 with
          ⟨hstatus, -⟩ | ⟨hstatus, -⟩
        · simp [hstatus]
        · simp [hstatus]

/-- The text of the answer. -/
theorem switchingProtocols_eq (key : Bytes) :
    switchingProtocols key = ascii "HTTP/1.1 101 Switching Protocols\r\nUpgrade: websocket\r\n" ++
      (ascii "Connection: Upgrade\r\nSec-WebSocket-Accept: " ++
        (computeAcceptKey key ++ ascii "\r\n\r\n")) := by
  simp only [switchingProtocols, List.append_assoc]

/-- **`ParseHandshake` accepts exactly its grammar.**  For every buffer, limit and origin validator:
more data is needed exactly when the buffer is within the limit and has no empty line; the handshake
is accepted exactly when the buffer is within the limit and has, up to its first empty line, a
request of the grammar; otherwise it is rejected.  An accepted request is consumed up to behind the
empty line, and it is answered with the key that is computed from its own. -/
theorem handshake_grammar (bytes : Bytes) (limit : ℕ) (originValidator : Option (Bytes → Bool)) :
    let r := parseHandshake bytes limit originValidator
    (r.status = .needMoreData ↔ bytes.length ≤ limit ∧ ¬ headerTerminator <:+: bytes) ∧
      (r.status = .accepted ↔ ∃ block key, HasRequest bytes limit originValidator block key) ∧
      (r.status = .rejected ↔ ¬ (bytes.length ≤ limit ∧ ¬ headerTerminator <:+: bytes) ∧
        ¬ ∃ block key, HasRequest bytes limit originValidator block key) ∧
      ∀ block key, HasRequest bytes limit originValidator block key →
        r.consumed = block.length + 4 ∧
          r.response = ascii "HTTP/1.1 101 Switching Protocols\r\nUpgrade: websocket\r\n" ++
            (ascii "Connection: Upgrade\r\nSec-WebSocket-Accept: " ++
              (computeAcceptKey key ++ ascii "\r\n\r\n")) := by
  intro r
  have hmore : r.status = .needMoreData ↔ _ := parseHandshake_needMoreData_iff
  have haccepted : r.status = .accepted ↔
      ∃ block key, HasRequest bytes limit originValidator block key :=
    ⟨hasRequest_of_accepted, fun ⟨_, _, h⟩ => (parseHandshake_of_hasRequest h).1⟩
  have hanswer : ∀ block key, HasRequest bytes limit originValidator block key →
      r.consumed = block.length + 4 ∧ r.response = _ := fun block key h => by
    obtain ⟨-, hconsumed, hresponse⟩ := parseHandshake_of_hasRequest h
    rw [switchingProtocols_eq] at hresponse
    exact ⟨hconsumed, hresponse⟩
  refine ⟨hmore, haccepted, ?_, hanswer⟩
  rw [← hmore, ← haccepted]
  cases r.status with
  | needMoreData => simp
  | accepted => simp
  | rejected => simp

/-- A header block with a list of tokens, with capitals and with blanks around a value. -/
def upgradeBlock : Bytes :=
  ascii "GET / HTTP/1.1" ++ (crlf ++ (ascii "Upgrade: WebSocket" ++ (crlf ++
    (ascii "Connection: a, Upgrade" ++ (crlf ++
      (ascii "Sec-WebSocket-Key:dGhlIHNhbXBsZSBub25jZQ==" ++ (crlf ++
        ascii "Sec-WebSocket-Version: 13 ")))))))

/-- The key of `upgradeBlock`. -/
def upgradeKey : Bytes := ascii "dGhlIHNhbXBsZSBub25jZQ=="

theorem hasRequest_upgradeBlock :
    HasRequest (upgradeBlock ++ headerTerminator) 1000 none upgradeBlock upgradeKey := by
  have hblock : HeaderBlock (upgradeBlock ++ headerTerminator) upgradeBlock :=
    ⟨[], by simp, by decide +kernel⟩
  have hlines : Splits crlf upgradeBlock [ascii "GET / HTTP/1.1", ascii "Upgrade: WebSocket",
      ascii "Connection: a, Upgrade", ascii "Sec-WebSocket-Key:dGhlIHNhbXBsZSBub25jZQ==",
      ascii "Sec-WebSocket-Version: 13 "] := by
    refine .next ?_ (.next ?_ (.next ?_ (.next ?_ (.last ?_)))) <;> decide +kernel
  have hitems : Splits [','.toUInt8] (ascii "a, Upgrade") [ascii "a", ascii " Upgrade"] := by
    have hfirst : ¬ [','.toUInt8] <:+: ascii "a" := by decide +kernel
    have hsecond : ¬ [','.toUInt8] <:+: ascii " Upgrade" := by decide +kernel
    exact .next hfirst (.last hsecond)
  refine ⟨by decide +kernel, hblock, ascii "/", _,
    [(ascii "upgrade", ascii "WebSocket"), (ascii "connection", ascii "a, Upgrade"),
      (ascii "sec-websocket-key", upgradeKey), (ascii "sec-websocket-version", ascii "13")],
    hlines, by decide, ?_, by decide, ?_⟩
  · refine .cons ?_ (.cons ?_ (.cons ?_ (.cons ?_ .nil)))
    · exact isHeader_iff.2 ⟨7, by decide +kernel, by decide +kernel⟩
    · exact isHeader_iff.2 ⟨10, by decide +kernel, by decide +kernel⟩
    · exact isHeader_iff.2 ⟨17, by decide +kernel, by decide +kernel⟩
    · exact isHeader_iff.2 ⟨21, by decide +kernel, by decide +kernel⟩
  · exact {
      upgrade := ⟨_, List.mem_cons_self, lowered_iff.2 (by decide)⟩
      connection := ⟨_, _, List.mem_cons_of_mem _ List.mem_cons_self, hitems, _,
        List.mem_cons_of_mem _ List.mem_cons_self, ascii "Upgrade", trimmed_iff.2 (by decide),
        lowered_iff.2 (by decide)⟩
      key := ⟨by decide, by decide +kernel⟩
      version := by decide
      origin := ⟨[], Or.inr ⟨by decide, rfl⟩, by simp⟩ }

/-- What is sent, and what is answered, as texts. -/
theorem handshake_grammar_upgrade :
    let request := ascii "GET / HTTP/1.1\r\nUpgrade: WebSocket\r\nConnection: a, Upgrade\r\n" ++
      ascii "Sec-WebSocket-Key:dGhlIHNhbXBsZSBub25jZQ==\r\nSec-WebSocket-Version: 13 \r\n\r\n"
    (parseHandshake request 1000 none).consumed = 134 ∧
      (parseHandshake request 1000 none).response =
        ascii "HTTP/1.1 101 Switching Protocols\r\nUpgrade: websocket\r\nConnection: Upgrade\r\n" ++
          ascii "Sec-WebSocket-Accept: s3pPLMBiTxaQ9kYGzzhZRbK+xOo=\r\n\r\n" := by
  intro request
  have hrequest : request = upgradeBlock ++ headerTerminator := by
    decide +kernel
  obtain ⟨hconsumed, hresponse⟩ := (handshake_grammar (upgradeBlock ++ headerTerminator) 1000
    none).2.2.2 upgradeBlock upgradeKey hasRequest_upgradeBlock
  rw [hrequest]
  exact ⟨hconsumed.trans (by decide +kernel),
    hresponse.trans ((switchingProtocols_eq _).symm.trans switchingProtocols_sample)⟩

end RealtimeEngine
