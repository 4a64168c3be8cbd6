/-
**The numbers on the command line.**

`ParseSize` compares how much `std::stoull` has read with the length of the text, and so refuses
what stands behind a number.  What stands in front of it is read by `std::stoull` itself: white
space and a sign are accepted, and a number behind a minus sign is negated modulo `2 ^ 64`.

Main definitions:

* `RealtimeEngine.NumericOption` — the options that set a number of `ServerConfig`;
* `RealtimeEngine.givenOptions`, `RealtimeEngine.lastGiven` — the options of an argument list with
  their values, and the value given last.

Main results:

* `RealtimeEngine.parseSize_ok_iff` — **the texts that `ParseSize` accepts**, and what it makes of
  them;
* `RealtimeEngine.parseSize_exact_iff` — when only numerals are accepted;
* `RealtimeEngine.OptionRun.field` — **the value given last counts**, whatever the argument list;
* `RealtimeEngine.numericOptions_exact_iff` — when the fields are what the numerals say.
-/

import RealtimeEngine.MainOptions
import RealtimeEngine.Numerals

set_option relaxedAutoImplicit false
set_option autoImplicit false

namespace RealtimeEngine

open Numerals

/-! ### What `std::stoull` reads -/

theorem isSpace_iff {ch : UInt8} : isSpace ch = true ↔ IsBlank ch := by
  simp only [isSpace, IsBlank, Bool.or_eq_true, beq_iff_eq, Bool.and_eq_true, decide_eq_true_eq]
  rfl

theorem isDigit_iff {ch : UInt8} : isDigit ch = true ↔ IsDigit ch := by
  simp only [isDigit, IsDigit, Bool.and_eq_true, decide_eq_true_eq]
  rfl

theorem isSpace_eq_false_of_isDigit {ch : UInt8} (h : IsDigit ch) : isSpace ch = false := by
  rw [Bool.eq_false_iff, Ne, isSpace_iff]
  rintro (rfl | hle)
  · exact absurd h (by decide)
  · exact absurd (UInt8.le_trans h.1 hle.2) (by decide)

/-- The accumulator of the source computes the value of the digits. -/
theorem digitsValue_eq {digits : Bytes} (h : ∀ ch ∈ digits, IsDigit ch) :
    digitsValue digits = value digits := by
  induction digits using List.reverseRecOn with
  | nil => rfl
  | append_singleton digits ch ih =>
      have hch : IsDigit ch := h ch (by simp)
      have hsub : (ch - '0'.toUInt8).toNat = ch.toNat - 48 := UInt8.toNat_sub_of_le _ _ hch.1
      rw [digitsValue, List.foldl_append, List.foldl_cons, List.foldl_nil, ← digitsValue,
        ih fun ch' hch' => h ch' (by simp [hch']), value_concat, hsub]

/-- The first character behind the white space: no white space, and a sign if there is one. -/
theorem head?_sign_append (sign : Sign) {digits : Bytes} (rest : Bytes) (h : IsNumeral digits) :
    (∀ ch ∈ (sign.text ++ (digits ++ rest)).head?, isSpace ch = false) ∧
      ((sign.text ++ (digits ++ rest)).head? == some '-'.toUInt8) = decide (sign = .minus) ∧
      ((sign.text ++ (digits ++ rest)).head? == some '+'.toUInt8) = decide (sign = .plus) := by
  obtain ⟨hne, hdigits⟩ := h
  obtain ⟨ch₀, digits, rfl⟩ := List.exists_cons_of_ne_nil hne
  have hch₀ : IsDigit ch₀ := hdigits ch₀ (List.mem_cons_self ..)
  cases sign with
  | absent =>
      refine ⟨fun ch hch => ?_, ?_, ?_⟩
      · obtain rfl : ch₀ = ch := by simpa [Sign.text] using hch
        exact isSpace_eq_false_of_isDigit hch₀
      · have hminus : ch₀ ≠ '-'.toUInt8 := fun heq => absurd (heq ▸ hch₀) (by decide)
        simpa [Sign.text] using hminus
      · have hplus : ch₀ ≠ '+'.toUInt8 := fun heq => absurd (heq ▸ hch₀) (by decide)
        simpa [Sign.text] using hplus
  | plus =>
      refine ⟨fun ch hch => ?_, rfl, rfl⟩
      obtain rfl : 43 = ch := by simpa [Sign.text] using hch
      rfl
  | minus =>
      refine ⟨fun ch hch => ?_, rfl, rfl⟩
      obtain rfl : 45 = ch := by simpa [Sign.text] using hch
      rfl

/-- **`std::stoull` on a text that can be read**: out of range, or the number with its sign applied
and the length of what was read. -/
theorem stoull_of_reads {text blanks digits rest : Bytes} {sign : Sign}
    (h : Reads text blanks sign digits rest) :
    stoull text =
      if value digits < 2 ^ 64 then
        .ok (sign.apply (2 ^ 64) (value digits),
          blanks.length + sign.text.length + digits.length)
      else .error .outOfRange := by
  obtain ⟨rfl, hblank, hnumeral, hstops⟩ := h
  obtain ⟨hspace, hminus, hplus⟩ := head?_sign_append sign rest hnumeral
  obtain ⟨htake, hdrop⟩ :=
    scan_append (p := isSpace) (fun ch hch => isSpace_iff.2 (hblank ch hch)) hspace
  have hstop : ∀ ch ∈ rest.head?, isDigit ch = false := fun ch hch =>
    Bool.eq_false_iff.2 fun hdigit => hstops ch hch (isDigit_iff.1 hdigit)
  obtain ⟨hdigits, -⟩ :=
    scan_append (p := isDigit) (fun ch hch => isDigit_iff.2 (hnumeral.2 ch hch)) hstop
  have hempty : digits.isEmpty = false := by simpa using hnumeral.1
  have hvalue := digitsValue_eq hnumeral.2
  have hsign : (sign.text ++ (digits ++ rest)).drop
      (if decide (sign = .minus) || decide (sign = .plus) then 1 else 0) = digits ++ rest := by
    cases sign <;> rfl
  simp only [stoull, htake, hdrop, hminus, hplus, hsign, hdigits, hempty, hvalue]
  by_cases hbound : value digits < 2 ^ 64
  · rw [if_pos hbound, if_neg (Nat.not_le.2 hbound)]
    cases sign <;> rfl
  · rw [if_neg hbound, if_pos (Nat.not_lt.1 hbound)]
    rfl

/-- The sign in front of a text, if there is one, is one character. -/
theorem exists_sign (text : Bytes) :
    ∃ sign : Sign, text = sign.text ++ text.drop
      (if text.head? == some '-'.toUInt8 || text.head? == some '+'.toUInt8 then 1 else 0) := by
  cases text with
  | nil => exact ⟨.absent, rfl⟩
  | cons ch text =>
      by_cases hminus : ch = '-'.toUInt8
      · exact ⟨.minus, by subst hminus; rfl⟩
      by_cases hplus : ch = '+'.toUInt8
      · exact ⟨.plus, by subst hplus; rfl⟩
      exact ⟨.absent, by simp [Sign.text, hminus, hplus]⟩

/-- Whatever `std::stoull` makes a number of can be read. -/
theorem reads_of_stoull {text : Bytes} {result : ℕ × ℕ} (h : stoull text = .ok result) :
    ∃ blanks sign digits rest, Reads text blanks sign digits rest := by
  obtain ⟨sign, hsign⟩ := exists_sign (text.dropWhile isSpace)
  generalize hunsigned : (text.dropWhile isSpace).drop _ = unsigned at hsign
  -- without a digit there would be no conversion
  have hdigits : unsigned.takeWhile isDigit ≠ [] := by
    intro hnil
    simp only [stoull, hunsigned, hnil, List.isEmpty_nil, if_true, reduceCtorEq] at h
  refine ⟨text.takeWhile isSpace, sign, unsigned.takeWhile isDigit, unsigned.dropWhile isDigit,
    ⟨?_, fun ch hch => ?_, ⟨hdigits, fun ch hch => ?_⟩, fun ch hch => ?_⟩⟩
  · rw [List.takeWhile_append_dropWhile, ← hsign, List.takeWhile_append_dropWhile]
  · exact isSpace_iff.1 (List.mem_takeWhile_imp hch)
  · exact isDigit_iff.1 (List.mem_takeWhile_imp hch)
  · rw [← isDigit_iff, head?_dropWhile_eq_false hch]
    decide

/-! ### What `ParseSize` accepts -/

/-- **The texts that `ParseSize` accepts**: white space, a sign and digits, and nothing behind
them. -/
theorem parseSize_ok_iff {text option : Bytes} {n : UInt64} :
    parseSize text option = .ok n ↔
      ∃ blanks sign digits, Reads text blanks sign digits [] ∧ value digits < 2 ^ 64 ∧
        n.toNat = sign.apply (2 ^ 64) (value digits) := by
  constructor
  · intro h
    unfold parseSize at h
    split at h
    · cases h
    · next parsed consumed hstoull =>
        obtain ⟨blanks, sign, digits, rest, hreads⟩ := reads_of_stoull hstoull
        rw [stoull_of_reads hreads] at hstoull
        split at hstoull
        · next hbound =>
            obtain ⟨rfl, rfl⟩ := Prod.mk.inj (Except.ok.inj hstoull)
            split at h
            · cases h
            · next hlength =>
                -- the whole text has been consumed
                obtain rfl : rest = [] := by
                  have hall := congrArg List.length hreads.split
                  simp only [List.length_append] at hall
                  exact List.length_eq_zero_iff.1 (by omega)
                obtain rfl := Except.ok.inj h
                exact ⟨blanks, sign, digits, hreads, hbound,
                  UInt64.toNat_ofNat_of_lt' (sign.apply_lt hbound)⟩
        · cases hstoull
  · rintro ⟨blanks, sign, digits, hreads, hbound, hvalue⟩
    have hlength : blanks.length + sign.text.length + digits.length = text.length := by
      rw [hreads.split]
      simp only [List.length_append, List.length_nil]
      omega
    rw [parseSize, stoull_of_reads hreads, if_pos hbound]
    dsimp only
    rw [if_neg (not_not.2 hlength), ← hvalue, UInt64.ofNat_toNat]

example : parseSize (ascii " +4194304") (ascii "--max-message-bytes") = .ok 4194304 := by decide

example : parseSize (ascii "-1") (ascii "--workers") = .ok 18446744073709551615 := by decide

/-- A numeral is accepted with its value. -/
theorem parseSize_of_numeral {text option : Bytes} (h : IsNumeral text)
    (hbound : value text < 2 ^ 64) : parseSize text option = .ok (UInt64.ofNat (value text)) :=
  parseSize_ok_iff.2 ⟨[], .absent, text, h.reads, hbound, UInt64.toNat_ofNat_of_lt' hbound⟩

/-- What is accepted without anything in front is a numeral. -/
theorem numeral_of_parseSize {text option : Bytes} {n : UInt64}
    (h : parseSize text option = .ok n) (hplain : ¬Decorated (2 ^ 64) text) :
    IsNumeral text ∧ value text = n.toNat := by
  obtain ⟨blanks, sign, digits, hreads, hbound, hvalue⟩ := parseSize_ok_iff.1 h
  obtain hdecorated | ⟨hnumeral, rfl, rfl⟩ := decorated_or_numeral hreads hbound
  · exact absurd hdecorated hplain
  · exact ⟨hnumeral, hvalue.symm⟩

/-- A numeral with something in front is accepted. -/
theorem parseSize_of_decorated {text : Bytes} (option : Bytes) (h : Decorated (2 ^ 64) text) :
    ∃ n, parseSize text option = .ok n := by
  obtain ⟨blanks, sign, digits, hreads, hbound, -⟩ := h
  exact ⟨UInt64.ofNat (sign.apply (2 ^ 64) (value digits)), parseSize_ok_iff.2
    ⟨blanks, sign, digits, hreads, hbound, UInt64.toNat_ofNat_of_lt' (sign.apply_lt hbound)⟩⟩

/-- What is asked of `ParseSize` at a text: a number for a numeral that has one below `2 ^ 64`, and
an error for anything else. -/
structure ParsesNumeral (text option : Bytes) : Prop where
  returns : ∀ n : ℕ, (∃ m : UInt64, parseSize text option = .ok m ∧ m.toNat = n) ↔
    IsNumeral text ∧ value text = n ∧ n < 2 ^ 64
  throws : ¬(IsNumeral text ∧ value text < 2 ^ 64) → ∃ error, parseSize text option = .error error

/-- **Only numerals are accepted** exactly where nothing stands in front of one. -/
theorem parseSize_exact_iff {text option : Bytes} :
    ParsesNumeral text option ↔ ¬Decorated (2 ^ 64) text := by
  constructor
  · rintro ⟨hreturns, -⟩ hdecorated
    obtain ⟨n, hn⟩ := parseSize_of_decorated option hdecorated
    exact not_decorated_of_numeral ((hreturns n.toNat).1 ⟨n, hn, rfl⟩).1 hdecorated
  · intro hplain
    refine ⟨fun n => ⟨?_, ?_⟩, fun hnone => ?_⟩
    · rintro ⟨m, hm, rfl⟩
      obtain ⟨hnumeral, hvalue⟩ := numeral_of_parseSize hm hplain
      exact ⟨hnumeral, hvalue, m.toNat_lt⟩
    · rintro ⟨hnumeral, rfl, hbound⟩
      exact ⟨_, parseSize_of_numeral hnumeral hbound, UInt64.toNat_ofNat_of_lt' hbound⟩
    · cases hparse : parseSize text option with
      | error error => exact ⟨error, rfl⟩
      | ok n =>
          obtain ⟨hnumeral, hvalue⟩ := numeral_of_parseSize hparse hplain
          exact absurd ⟨hnumeral, hvalue ▸ n.toNat_lt⟩ hnone

/-! ### The options -/

/-- The options that set a number of `ServerConfig`. -/
inductive NumericOption
  | port
  | workers
  | maxConnections
  | maxMessageBytes
  | sessionQueueBytes
  | globalQueueBytes
  deriving DecidableEq, Repr

namespace NumericOption

/-- The option as it is written. -/
def name : NumericOption → Bytes
  | .port => ascii "--port"
  | .workers => ascii "--workers"
  | .maxConnections => ascii "--max-connections"
  | .maxMessageBytes => ascii "--max-message-bytes"
  | .sessionQueueBytes => ascii "--session-queue-bytes"
  | .globalQueueBytes => ascii "--global-queue-bytes"

/-- The number that the option sets. -/
def field : NumericOption → MainOptions → ℕ
  | .port, o => o.port.toNat
  | .workers, o => o.workerCount.toNat
  | .maxConnections, o => o.config.maxConnections.toNat
  | .maxMessageBytes, o => o.config.maxMessageBytes.toNat
  | .sessionQueueBytes, o => o.config.maxSessionQueuedBytes.toNat
  | .globalQueueBytes, o => o.config.maxGlobalQueuedBytes.toNat

/-- The numbers that `main` lets through. -/
def Allows : NumericOption → ℕ → Prop
  | .port, n => 1 ≤ n ∧ n ≤ 65535
  | _, _ => True

end NumericOption

/-- The options of an argument list with their values, as the loop pairs them. -/
def givenOptions : List Bytes → List (Bytes × Bytes)
  | [] => []
  | option :: rest =>
      if option = ascii "--thread-affinity" then givenOptions rest
      else
        match rest with
        | [] => []
        | value :: rest => (option, value) :: givenOptions rest

/-- The value given last for an option. -/
def lastGiven (option : Bytes) (args : List Bytes) : Option Bytes :=
  (givenOptions args).reverse.lookup option

theorem lastGiven_flag (option : Bytes) (rest : List Bytes) :
    lastGiven option (ascii "--thread-affinity" :: rest) = lastGiven option rest := by
  rw [lastGiven, givenOptions.eq_def]
  dsimp only
  rw [if_pos rfl, lastGiven]

theorem lastGiven_cons {given : Bytes} (hflag : given ≠ ascii "--thread-affinity")
    (option value : Bytes) (rest : List Bytes) :
    lastGiven option (given :: value :: rest) =
      (lastGiven option rest).or (if option = given then some value else none) := by
  rw [lastGiven, givenOptions, if_neg hflag, List.reverse_cons, List.lookup_append,
    List.lookup_singleton, lastGiven]
  simp only [beq_iff_eq]

theorem setSize_ok {option value : Bytes} {assign : UInt64 → MainOptions} {o : MainOptions}
    (h : setSize option value assign = .ok o) :
    ∃ n, parseSize value option = .ok n ∧ o = assign n := by
  unfold setSize at h
  split at h
  · cases h
  · next n hparse => exact ⟨n, hparse, (Except.ok.inj h).symm⟩

/-- An option that is set to any number: what is to be shown of its assignment. -/
theorem setSize_numeric {x : NumericOption} {option text : Bytes} {assign : UInt64 → MainOptions}
    {o o' : MainOptions} (h : setSize option text assign = .ok o')
    (hallows : ∀ n, x.Allows n) (hnew : ∀ n, x.field (assign n) = n.toNat)
    (hframe : ∀ n y, y ≠ x → y.field (assign n) = y.field o) :
    ∃ n, parseSize text option = .ok n ∧ x.Allows n.toNat ∧ x.field o' = n.toNat ∧
      ∀ y, y ≠ x → y.field o' = y.field o := by
  obtain ⟨n, hparse, rfl⟩ := setSize_ok h
  exact ⟨n, hparse, hallows n.toNat, hnew n, hframe n⟩

/-- **What a numeric option does**: its field becomes the number, and no other number changes. -/
theorem setOption_numeric {x : NumericOption} {text : Bytes} {o o' : MainOptions}
    (h : setOption x.name text o = .ok o') :
    ∃ n, parseSize text x.name = .ok n ∧ x.Allows n.toNat ∧ x.field o' = n.toNat ∧
      ∀ y, y ≠ x → y.field o' = y.field o := by
  cases x with
  | port =>
      rw [setOption, NumericOption.name, if_pos rfl] at h
      split at h
      · cases h
      · next n hparse =>
          split at h
          · cases h
          · -- the range of a port is checked before the number is cut to sixteen bits
            next hrange =>
              simp only [Bool.or_eq_true, decide_eq_true_eq, not_or] at hrange
              have hpositive : n.toNat ≠ 0 := fun hzero => hrange.1 (UInt64.toNat_inj.1 hzero)
              have hsmall : n.toNat ≤ 65535 := Nat.not_lt.1 hrange.2
              obtain rfl := Except.ok.inj h
              refine ⟨n, hparse, ⟨by omega, hsmall⟩, ?_, fun y hy => ?_⟩
              · exact UInt16.toNat_ofNat_of_lt' (Nat.lt_succ_of_le hsmall)
              · cases y <;> first | rfl | exact absurd rfl hy
  | workers =>
      rw [setOption, NumericOption.name, if_neg (by decide), if_pos rfl] at h
      exact setSize_numeric h (fun _ => trivial) (fun _ => rfl) fun n y hy => by
        cases y <;> first | rfl | exact absurd rfl hy
  | maxConnections =>
      rw [setOption, NumericOption.name, if_neg (by decide), if_neg (by decide), if_pos rfl] at h
      exact setSize_numeric h (fun _ => trivial) (fun _ => rfl) fun n y hy => by
        cases y <;> first | rfl | exact absurd rfl hy
  | maxMessageBytes =>
      rw [setOption, NumericOption.name, if_neg (by decide), if_neg (by decide),
        if_neg (by decide), if_pos rfl] at h
      exact setSize_numeric h (fun _ => trivial) (fun _ => rfl) fun n y hy => by
        cases y <;> first | rfl | exact absurd rfl hy
  | sessionQueueBytes =>
      rw [setOption, NumericOption.name, if_neg (by decide), if_neg (by decide),
        if_neg (by decide), if_neg (by decide), if_pos rfl] at h
      exact setSize_numeric h (fun _ => trivial) (fun _ => rfl) fun n y hy => by
        cases y <;> first | rfl | exact absurd rfl hy
  | globalQueueBytes =>
      rw [setOption, NumericOption.name, if_neg (by decide), if_neg (by decide),
        if_neg (by decide), if_neg (by decide), if_neg (by decide), if_pos rfl] at h
      exact setSize_numeric h (fun _ => trivial) (fun _ => rfl) fun n y hy => by
        cases y <;> first | rfl | exact absurd rfl hy

/-- Any other option leaves all the numbers alone. -/
theorem setOption_other {option text : Bytes} {o o' : MainOptions}
    (hother : ∀ x : NumericOption, option ≠ x.name) (h : setOption option text o = .ok o')
    (x : NumericOption) : x.field o' = x.field o := by
  have hport : option ≠ ascii "--port" := hother .port
  have hworkers : option ≠ ascii "--workers" := hother .workers
  have hconnections : option ≠ ascii "--max-connections" := hother .maxConnections
  have hmessage : option ≠ ascii "--max-message-bytes" := hother .maxMessageBytes
  have hsession : option ≠ ascii "--session-queue-bytes" := hother .sessionQueueBytes
  have hglobal : option ≠ ascii "--global-queue-bytes" := hother .globalQueueBytes
  rw [setOption, if_neg hport, if_neg hworkers, if_neg hconnections, if_neg hmessage,
    if_neg hsession, if_neg hglobal] at h
  split at h
  · obtain rfl := Except.ok.inj h
    cases x <;> rfl
  split at h
  · obtain rfl := Except.ok.inj h
    cases x <;> rfl
  obtain ⟨n, -, rfl⟩ := setSize_ok h
  cases x <;> rfl

/-- What an option list makes of a number: without the option it stays, and otherwise it is what
`ParseSize` has read in the value given last. -/
structure FieldRead (x : NumericOption) (args : List Bytes) (o o' : MainOptions) : Prop where
  kept : lastGiven x.name args = none → x.field o' = x.field o
  read : ∀ text, lastGiven x.name args = some text →
    ∃ n, parseSize text x.name = .ok n ∧ x.Allows n.toNat ∧ x.field o' = n.toNat

/-- An option with its value in front of a list. -/
theorem FieldRead.cons {x : NumericOption} {option value : Bytes} {rest : List Bytes}
    {o o₁ o' : MainOptions} (hflag : option ≠ ascii "--thread-affinity")
    (hset : setOption option value o = .ok o₁) (hrest : FieldRead x rest o₁ o') :
    FieldRead x (option :: value :: rest) o o' := by
  obtain ⟨hkept, hread⟩ := hrest
  have hcons := lastGiven_cons hflag x.name value rest
  cases hlast : lastGiven x.name rest with
  | some text =>
      -- a later value takes the place of this one
      rw [hlast, Option.some_or] at hcons
      refine ⟨fun hnone => ?_, fun text' htext => ?_⟩
      · rw [hcons] at hnone
        cases hnone
      · rw [hcons] at htext
        exact hread text' (hlast.trans htext)
  | none =>
      rw [hlast, Option.none_or] at hcons
      have hfield := hkept hlast
      by_cases hname : x.name = option
      · subst hname
        obtain ⟨n, hparse, hallows, hnew, -⟩ := setOption_numeric hset
        rw [if_pos rfl] at hcons
        refine ⟨fun hnone => ?_, fun text htext => ?_⟩
        · rw [hcons] at hnone
          cases hnone
        · obtain rfl := Option.some.inj (hcons.symm.trans htext)
          exact ⟨n, hparse, hallows, hfield.trans hnew⟩
      · rw [if_neg hname] at hcons
        refine ⟨fun _ => hfield.trans ?_, fun text htext => ?_⟩
        · by_cases hother : ∀ y : NumericOption, option ≠ y.name
          · exact setOption_other hother hset x
          · obtain ⟨y, hy⟩ := not_forall_not.1 hother
            subst hy
            obtain ⟨-, -, -, -, hframe⟩ := setOption_numeric hset
            exact hframe x fun heq => hname (heq ▸ rfl)
        · rw [hcons] at htext
          cases htext

/-- The flag in front of a list. -/
theorem FieldRead.flag {x : NumericOption} {rest : List Bytes} {o o' : MainOptions}
    (hrest : FieldRead x rest { o with enableThreadAffinity := true } o') :
    FieldRead x (ascii "--thread-affinity" :: rest) o o' := by
  obtain ⟨hkept, hread⟩ := hrest
  have hfield : x.field { o with enableThreadAffinity := true } = x.field o := by
    cases x <;> rfl
  refine ⟨fun hnone => ?_, fun text htext => ?_⟩
  · rw [lastGiven_flag] at hnone
    exact (hkept hnone).trans hfield
  · rw [lastGiven_flag] at htext
    exact hread text htext

/-- **The value given last counts**, whatever the argument list. -/
theorem OptionRun.field {args : List Bytes} {o o' : MainOptions} (h : OptionRun args o o')
    (x : NumericOption) : FieldRead x args o o' := by
  induction h with
  | nil o => exact ⟨fun _ => rfl, fun text htext => by cases htext⟩
  | flag hrest ih => exact ih.flag
  | option hflag hset hrest ih => exact ih.cons hflag hset

/-! ### What the numbers mean -/

/-- What is asked of a number: without the option it stays, and otherwise the value given last is a
numeral, and the number is what it says. -/
structure FieldExact (x : NumericOption) (args : List Bytes) (o o' : MainOptions) : Prop where
  kept : lastGiven x.name args = none → x.field o' = x.field o
  agrees : ∀ text, lastGiven x.name args = some text →
    IsNumeral text ∧ x.field o' = value text ∧ x.Allows (value text)

/-- Where the loop accepts its arguments, a number is what its numeral says unless something stands
in front of that numeral. -/
theorem fieldExact_iff {x : NumericOption} {args : List Bytes} {o o' : MainOptions}
    (h : optionLoop args o = .ok o') :
    FieldExact x args o o' ↔
      ∀ text, lastGiven x.name args = some text → ¬Decorated (2 ^ 64) text := by
  obtain ⟨hkept, hread⟩ := (optionRun_of_optionLoop h).field x
  constructor
  · rintro ⟨-, hexact⟩ text htext
    exact not_decorated_of_numeral (hexact text htext).1
  · refine fun hplain => ⟨hkept, fun text htext => ?_⟩
    obtain ⟨n, hparse, hallows, hfield⟩ := hread text htext
    obtain ⟨hnumeral, hvalue⟩ := numeral_of_parseSize hparse (hplain text htext)
    exact ⟨hnumeral, hfield.trans hvalue.symm, hvalue ▸ hallows⟩

/-- What the options start from, with the texts of the environment. -/
def startOptions (authToken allowedOrigin : Bytes) : MainOptions :=
  { authToken := authToken, allowedOrigin := allowedOrigin }

/-- **The numbers on the command line mean what they say** exactly where nothing stands in front of
a numeral: `ParseSize` accepts numerals only, and a number of the configuration is what the numeral
given last says, a port among the ports. -/
theorem numericOptions_exact_iff (text option : Bytes) (args : List Bytes) (o : MainOptions) :
    (ParsesNumeral text option ↔ ¬Decorated (2 ^ 64) text) ∧
      ∀ o', optionLoop args o = .ok o' →
        ((∀ x, FieldExact x args o o') ↔
          ∀ (x : NumericOption) (given : Bytes), lastGiven x.name args = some given →
            ¬Decorated (2 ^ 64) given) :=
  ⟨parseSize_exact_iff, fun _ h => forall_congr' fun _ => fieldExact_iff h⟩

/-- Options with numerals, one of them given twice. -/
def plainArgs : List Bytes :=
  [ascii "--workers", ascii "4", ascii "--port", ascii "80", ascii "--thread-affinity",
    ascii "--workers", ascii "08"]

theorem numericOptions_exact_iff_plainArgs :
    ¬Decorated (2 ^ 64) (ascii "08") ∧ ParsesNumeral (ascii "08") (ascii "--workers") ∧
      ∃ o', optionLoop plainArgs (startOptions [] []) = .ok o' ∧
        NumericOption.workers.field o' = 8 ∧ NumericOption.port.field o' = 80 ∧
        ∀ x, FieldExact x plainArgs (startOptions [] []) o' := by
  have hplain : ¬Decorated (2 ^ 64) (ascii "08") := not_decorated_of_numeral (by decide)
  have hexact := numericOptions_exact_iff (ascii "08") (ascii "--workers") plainArgs
    (startOptions [] [])
  refine ⟨hplain, hexact.1.2 hplain, _, rfl, rfl, rfl, ?_⟩
  refine (hexact.2 _ rfl).2 fun x text htext => ?_
  cases x with
  | port =>
      obtain rfl : ascii "80" = text := Option.some.inj htext
      exact not_decorated_of_numeral (by decide)
  | workers =>
      obtain rfl : ascii "08" = text := Option.some.inj htext
      exact hplain
  | maxConnections => cases htext
  | maxMessageBytes => cases htext
  | sessionQueueBytes => cases htext
  | globalQueueBytes => cases htext

/-- Options with negative numbers, which are accepted. -/
def negativeArgs : List Bytes :=
  [ascii "--max-connections", ascii "-1", ascii "--port", ascii "-18446744073709551615"]

/-- A limit that is switched off, and a port that nobody has written down. -/
theorem numericOptions_negativeArgs :
    parseSize (ascii "-1") (ascii "--max-connections") = .ok 18446744073709551615 ∧
      ¬ParsesNumeral (ascii "-1") (ascii "--max-connections") ∧
      ∃ o', optionLoop negativeArgs (startOptions [] []) = .ok o' ∧
        NumericOption.maxConnections.field o' = 18446744073709551615 ∧
        NumericOption.port.field o' = 1 ∧
        ¬FieldExact .maxConnections negativeArgs (startOptions [] []) o' ∧
        ¬FieldExact .port negativeArgs (startOptions [] []) o' := by
  refine ⟨by decide, fun h => ?_, _, rfl, rfl, rfl, fun h => ?_, fun h => ?_⟩
  · have hnumeral := ((h.returns 18446744073709551615).1 ⟨_, rfl, rfl⟩).1
    exact absurd hnumeral (by decide)
  · exact absurd (h.agrees (ascii "-1") rfl).1 (by decide)
  · exact absurd (h.agrees (ascii "-18446744073709551615") rfl).1 (by decide)

end RealtimeEngine
