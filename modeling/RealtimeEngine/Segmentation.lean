/-
**Detection and the cuts of TCP.**

A client's byte stream reaches `ProcessIncoming` in reads, and the network decides where one ends.
What a session makes of a stream does not depend on that, except at the read that settles the
detection: `ProcessDetection` and `ParseHandshake` compare their limits with all they have buffered,
and the read that settles the matter can carry bytes that lie behind it.

`RealtimeEngine.SessionInput.Unaffected` says when this cannot happen: wherever the read that
settles the detection may end, it stays within the limits.

Main definitions:

* `RealtimeEngine.SessionInput.IsCut` — the reads of a stream;
* `RealtimeEngine.SessionInput.IgnoresCuts` — all cuts come to the same;
* `RealtimeEngine.SessionInput.Unaffected` — the condition on the stream and the limits.

Main results:

* `RealtimeEngine.SessionInput.ignoresCuts_iff` — **a stream is read the same way however it is cut
  exactly if** no read that can settle its detection reaches beyond a limit;
* `RealtimeEngine.SessionInput.pipelined_frame` — a handshake with a frame right behind it.
-/

import RealtimeEngine.SessionDecision

set_option relaxedAutoImplicit false
set_option autoImplicit false

namespace RealtimeEngine

open TextSearch

namespace SessionInput

/-! ### Cuts -/

/-- The reads of a stream. -/
structure IsCut (config : ServerConfig) (stream : Bytes) (reads : List Bytes) : Prop where
  nonempty : ∀ bytes ∈ reads, bytes ≠ []
  bounded : ∀ bytes ∈ reads, bytes.length ≤ config.receiveBuffer
  flatten : reads.flatten = stream

/-- The same transport, the same reply to the handshake, and, unless a limit on the messages was
reached, the same messages. -/
structure Alike (r r' : Reading) : Prop where
  transport : r.transport = r'.transport
  reply : r.replies.head? = r'.replies.head?
  delivered : r.limited = false → r'.limited = false → r.delivered = r'.delivered

/-- All cuts of the stream come to the same, as long as the server is below its limits. -/
def IgnoresCuts (config : ServerConfig) (handler : Option Handler) (stream : Bytes) : Prop :=
  ∀ reads reads', IsCut config stream reads → IsCut config stream reads' →
    ∀ env env', env.Calm → env'.Calm →
      Alike (run config handler env reads) (run config handler env' reads')

variable {config : ServerConfig} {handler : Option Handler} {env : Environment} {stream : Bytes}

theorem Settled.reads (henv : env.Calm) {d : Decision} {seen : Bytes} {r : Reading}
    (reads : List Bytes)
    (hreads : ∀ bytes ∈ reads, bytes ≠ []) (h : Settled config handler d seen r) :
    Settled config handler d (seen ++ reads.flatten)
      (reads.foldl (fun r bytes => handleRead config handler env bytes r) r) := by
  induction reads generalizing seen r with
  | nil => simpa using h
  | cons bytes reads ih =>
      have hnext := ih (fun b hb => hreads b (List.mem_cons_of_mem _ hb))
        (h.read henv bytes (hreads bytes List.mem_cons_self))
      rw [List.foldl_cons, List.flatten_cons, ← List.append_assoc]
      exact hnext

/-- A read that may settle the detection: it starts at `m` and ends at `n`. -/
structure MaySettle (config : ServerConfig) (stream : Bytes) (m n : ℕ) (d : Decision) : Prop where
  lt : m < n
  le : n ≤ m + config.receiveBuffer
  length : n ≤ stream.length
  undecided : decision config (stream.take m) = none
  decided : decision config (stream.take n) = some d

theorem MaySettle.append {m n : ℕ} {d : Decision} (h : MaySettle config stream m n d)
    (more : Bytes) : MaySettle config (stream ++ more) m n d where
  lt := h.lt
  le := h.le
  length := by
    have hle := h.length
    rw [List.length_append]
    omega
  undecided := by
    have hlt := h.lt
    have hle := h.length
    rw [List.take_append_of_le_length (by omega)]
    exact h.undecided
  decided := by
    rw [List.take_append_of_le_length h.length]
    exact h.decided

variable (handler) in
/-- **Where a run gets to**: the detection is not settled, or one of its reads has settled it. -/
theorem run_settles (henv : env.Calm) {reads : List Bytes} (hcut : IsCut config stream reads) :
    decision config stream = none ∧ Undecided config stream (run config handler env reads) ∨
    ∃ m n d, MaySettle config stream m n d ∧
      Settled config handler d stream (run config handler env reads) := by
  obtain ⟨hnonempty, hbounded, rfl⟩ := hcut
  induction reads using List.reverseRecOn with
  | nil => exact Or.inl ⟨rfl, 0, 0, rfl⟩
  | append_singleton reads bytes ih =>
      have hbytes : bytes ∈ reads ++ [bytes] := by simp
      have hsplit : (reads ++ [bytes]).flatten = reads.flatten ++ bytes := by simp
      have hrun : run config handler env (reads ++ [bytes]) =
          handleRead config handler env bytes (run config handler env reads) := by
        rw [run, List.foldl_append]
        rfl
      rw [hsplit, hrun]
      -- the last read decides, or an earlier one has and this one only goes on
      rcases ih (fun b hb => hnonempty b (by simp [hb])) (fun b hb => hbounded b (by simp [hb])) with
        ⟨hnone, hundecided⟩ | ⟨m, n, d, hmay, hsettled⟩
      · have hread := handleRead_decides handler henv bytes
          (hnonempty bytes hbytes) hundecided
        cases hdecision : decision config (reads.flatten ++ bytes) with
        | none =>
            rw [hdecision] at hread
            exact Or.inl ⟨rfl, hread⟩
        | some d =>
            rw [hdecision] at hread
            have hpos := List.length_pos_of_ne_nil (hnonempty bytes hbytes)
            have hlong := hbounded bytes hbytes
            refine Or.inr ⟨reads.flatten.length, (reads.flatten ++ bytes).length, d,
              ⟨?_, ?_, le_rfl, ?_, ?_⟩, hread⟩
            · rw [List.length_append]
              omega
            · rw [List.length_append]
              omega
            · rw [List.take_left]
              exact hnone
            · rw [List.take_length]
              exact hdecision
      · exact Or.inr ⟨m, n, d, hmay.append bytes, hsettled.read henv bytes (hnonempty bytes hbytes)⟩

/-- The bytes of a stream, one by one. -/
def singly (bytes : Bytes) : List Bytes := bytes.map fun b => [b]

@[simp] theorem flatten_singly (bytes : Bytes) : (singly bytes).flatten = bytes := by
  induction bytes with
  | nil => rfl
  | cons b bytes ih =>
      rw [singly, List.map_cons, List.flatten_cons]
      exact congrArg (b :: ·) ih

variable (handler) in
/-- As long as nothing is decided, the bytes can come one by one. -/
theorem undecided_singly (henv : env.Calm) (bytes : Bytes) {seen : Bytes} {r : Reading}
    (hr : Undecided config seen r)
    (h : ∀ i ≤ bytes.length, decision config (seen ++ bytes.take i) = none) :
    Undecided config (seen ++ bytes)
      ((singly bytes).foldl (fun r bytes => handleRead config handler env bytes r) r) := by
  induction bytes generalizing seen r with
  | nil => simpa [singly] using hr
  | cons b bytes ih =>
      have hread := handleRead_decides handler henv [b] (by simp) hr
      have hone := h 1 (by simp)
      rw [List.take_succ_cons, List.take_zero] at hone
      rw [hone] at hread
      have hrest : ∀ i ≤ bytes.length, decision config ((seen ++ [b]) ++ bytes.take i) = none := by
        intro i hi
        have hnext := h (i + 1) (by simpa using hi)
        rwa [List.take_succ_cons, ← List.singleton_append, ← List.append_assoc] at hnext
      have hall := ih hread hrest
      rwa [List.append_assoc, List.singleton_append] at hall

/-- **Every read that may settle the detection is one of some cut.** -/
theorem MaySettle.exists_cut {m n : ℕ} {d : Decision} (h : MaySettle config stream m n d)
    (hall : ∀ i ≤ m, decision config (stream.take i) = none) :
    ∃ reads, IsCut config stream reads ∧
      ∀ handler env, env.Calm →
        Settled config handler d stream (run config handler env reads) := by
  obtain ⟨hlt, hle, hlength, -, hdecided⟩ := h
  have hR : 1024 ≤ config.receiveBuffer := Nat.le_max_left _ _
  have hmiddle : ((stream.drop m).take (n - m)).length = n - m := by
    rw [List.length_take, List.length_drop]
    omega
  have hjoin : stream.take m ++ (stream.drop m).take (n - m) = stream.take n := by
    rw [← List.take_add, Nat.add_sub_cancel' hlt.le]
  -- byte by byte up to `m`, then one read up to `n`, then byte by byte
  refine ⟨singly (stream.take m) ++ [(stream.drop m).take (n - m)] ++ singly (stream.drop n),
    ⟨?_, ?_, ?_⟩, ?_⟩
  · intro bytes hbytes
    simp only [singly, List.mem_append, List.mem_map, List.mem_singleton] at hbytes
    rcases hbytes with (⟨b, -, rfl⟩ | rfl) | ⟨b, -, rfl⟩
    · simp
    · exact List.ne_nil_of_length_pos (by omega)
    · simp
  · intro bytes hbytes
    simp only [singly, List.mem_append, List.mem_map, List.mem_singleton] at hbytes
    rcases hbytes with (⟨b, -, rfl⟩ | rfl) | ⟨b, -, rfl⟩
    · simp only [List.length_singleton]
      omega
    · omega
    · simp only [List.length_singleton]
      omega
  · rw [List.flatten_append, List.flatten_append, flatten_singly, flatten_singly,
      List.flatten_singleton, hjoin, List.take_append_drop]
  · intro handler env henv
    have hstart : Undecided config [] (opening config) := ⟨0, 0, rfl⟩
    have hbefore := undecided_singly handler henv (stream.take m) hstart
      (fun i hi => by
        rw [List.length_take] at hi
        rw [List.nil_append, List.take_take]
        exact hall _ (by omega))
    have hread := handleRead_decides handler henv
      ((stream.drop m).take (n - m)) (List.ne_nil_of_length_pos (by omega)) hbefore
    rw [List.nil_append, hjoin, hdecided] at hread
    have hbehind := Settled.reads henv (singly (stream.drop n)) (by
      intro bytes hbytes
      obtain ⟨b, -, rfl⟩ := List.mem_map.1 hbytes
      simp) hread
    rw [flatten_singly, List.take_append_drop] at hbehind
    rw [run, List.foldl_append, List.foldl_append]
    exact hbehind

/-! ### The answers of the reads that may settle the detection -/

/-- The transport and the reply. -/
def Decision.answer (config : ServerConfig) (d : Decision) : TransportKind × Option Bytes :=
  (d.transport, d.reply config)

/-- Every read that may settle the detection gives the same answer. -/
def SameAnswer (config : ServerConfig) (stream : Bytes) : Prop :=
  ∀ m n d m' n' d', MaySettle config stream m n d → MaySettle config stream m' n' d' →
    d.answer config = d'.answer config

/-- An accepted handshake ends with its header block. -/
theorem MaySettle.consumed {m n : ℕ} {response : Bytes} {consumed : ℕ}
    (h : MaySettle config stream m n (.accepted response consumed)) :
    (find headerTerminator stream).map (· + 4) = some consumed := by
  have hdecided := h.decided
  cases hhttp : possibleHttp stream with
  | false =>
      rw [decision_take_raw hhttp h.length] at hdecided
      split at hdecided
      · cases hdecided
      · split at hdecided <;> cases hdecided
  | true =>
      rw [decision_take_http hhttp h.length] at hdecided
      split at hdecided
      · cases hdecided
      · split at hdecided
        · cases hdecided
        · cases hfind : find headerTerminator stream with
          | none =>
              rw [hfind] at hdecided
              cases hdecided
          -- an accepted request ends at its first terminator, wherever the reads ended
          | some headerEnd =>
              rw [hfind] at hdecided
              dsimp only at hdecided
              split at hdecided
              · have hblock := Option.some.inj hdecided
                unfold blockDecision at hblock
                dsimp only at hblock
                split at hblock
                · obtain ⟨-, rfl⟩ := Decision.accepted.inj hblock
                  rw [(parseBlock_cases headerEnd).1]
                  rfl
                · cases hblock
              · cases hdecided

/-- Where the answers are the same, so are the messages. -/
theorem MaySettle.delivered_eq {m n m' n' : ℕ} {d d' : Decision}
    (h : MaySettle config stream m n d) (h' : MaySettle config stream m' n' d')
    (htransport : d.transport = d'.transport) :
    d.delivered config handler stream = d'.delivered config handler stream := by
  cases d with
  | overflow => cases d' <;> first | rfl | cases htransport
  | rejected response => cases d' <;> first | rfl | cases htransport
  | raw => cases d' <;> first | rfl | cases htransport
  | accepted response consumed =>
      cases d' with
      | accepted response' consumed' =>
          have hconsumed := h.consumed.symm.trans h'.consumed
          rw [Decision.delivered, Decision.delivered, Option.some.inj hconsumed]
      | _ => cases htransport

/-- **All cuts come to the same exactly if all reads that may settle the detection do.** -/
theorem ignoresCuts_iff_sameAnswer :
    IgnoresCuts config handler stream ↔ SameAnswer config stream := by
  constructor
  · intro h m n d m' n' d' hmay hmay'
    have hbefore : ∀ {m n d}, MaySettle config stream m n d →
        ∀ i ≤ m, decision config (stream.take i) = none := by
      intro m n d hmay i hi
      have hlt := hmay.lt
      have hle := hmay.length
      exact decision_take_mono hi (by omega) hmay.undecided
    obtain ⟨reads, hcut, hsettled⟩ := hmay.exists_cut (hbefore hmay)
    obtain ⟨reads', hcut', hsettled'⟩ := hmay'.exists_cut (hbefore hmay')
    -- any calm surroundings will do
    let env : Environment :=
      { clock := fun _ => 0, finished := fun _ => 0, crowded := fun _ => false
        overloaded := fun _ => false }
    have henv : env.Calm := ⟨fun _ => rfl, fun _ => rfl, fun _ => rfl, fun _ => rfl⟩
    have halike := h reads reads' hcut hcut' env env henv henv
    have h1 := hsettled handler env henv
    have h2 := hsettled' handler env henv
    exact Prod.ext (h1.transport.symm.trans (halike.transport.trans h2.transport))
      (h1.reply.symm.trans (halike.reply.trans h2.reply))
  · intro h reads reads' hcut hcut' env env' henv henv'
    -- a stream that stays undecided is so for every cut
    have hnever : decision config stream = none → ∀ {m n d}, ¬ MaySettle config stream m n d := by
      intro hnone m n d hmay
      rw [← stream.take_length] at hnone
      have hagain := decision_take_mono hmay.length le_rfl hnone
      rw [hmay.decided] at hagain
      cases hagain
    rcases run_settles handler henv hcut with
      ⟨hnone, accounted, charges, hr⟩ | ⟨m, n, d, hmay, hsettled⟩
    · rcases run_settles handler henv' hcut' with
        ⟨-, accounted', charges', hr'⟩ | ⟨m', n', d', hmay', -⟩
      · rw [hr, hr']
        exact ⟨rfl, rfl, fun _ _ => rfl⟩
      · exact absurd hmay' (hnever hnone)
    · rcases run_settles handler henv' hcut' with
        ⟨hnone, -⟩ | ⟨m', n', d', hmay', hsettled'⟩
      · exact absurd hmay (hnever hnone)
      · obtain ⟨htransport, hreply⟩ := Prod.mk.inj (h m n d m' n' d' hmay hmay')
        refine ⟨?_, ?_, fun hlimit hlimit' => ?_⟩
        · rw [hsettled.transport, hsettled'.transport, htransport]
        · rw [hsettled.reply, hsettled'.reply, hreply]
        · rw [hsettled.delivered hlimit, hsettled'.delivered hlimit',
            hmay.delivered_eq hmay' htransport]

/-! ### The condition -/

/-- The furthest a read can get that starts before the byte `n`. -/
def reach (config : ServerConfig) (stream : Bytes) (n : ℕ) : ℕ :=
  min stream.length (n - 1 + config.receiveBuffer)

/-- A stream that is not HTTP: the read with the first byte that shows it stays within the limit of
the session, if that byte does. -/
def RawUnaffected (config : ServerConfig) (stream : Bytes) : Prop :=
  let first := agreement stream (ascii "GET ") + 1
  first ≤ config.maxSessionInboundBytes.toNat →
    reach config stream first ≤ config.maxSessionInboundBytes.toNat

/-- A header block that ends within the limits: the read with its end stays within them, or the
block is rejected and no reply is small enough to be queued. -/
def BlockUnaffected (config : ServerConfig) (stream : Bytes) (headerEnd : ℕ) : Prop :=
  let furthest := reach config stream (headerEnd + 4)
  let session := config.maxSessionInboundBytes.toNat
  let result := parseBlock stream headerEnd config.originValidator
  furthest ≤ min config.handshakeLimit session ∨
    (result.status = .rejected ∧ ¬ Fits config result.response) ∧
      (¬ Fits config requestTooLarge ∨ min furthest session ≤ config.handshakeLimit)

/-- A request that outgrows a limit before its header block ends: the read that outgrows the limit
on the handshake stays within the one of the session, if that is larger, or the reply is too large
to be queued. -/
def LimitUnaffected (config : ServerConfig) (stream : Bytes) : Prop :=
  config.handshakeLimit < config.maxSessionInboundBytes.toNat →
    reach config stream (config.handshakeLimit + 1) ≤ config.maxSessionInboundBytes.toNat ∨
      ¬ Fits config requestTooLarge

/-- No read that may settle the detection reaches beyond a limit that would change the answer. -/
def Unaffected (config : ServerConfig) (stream : Bytes) : Prop :=
  if possibleHttp stream = false then RawUnaffected config stream
  else
    match find headerTerminator stream with
    | none => LimitUnaffected config stream
    | some headerEnd =>
        if headerEnd + 4 ≤ min config.handshakeLimit config.maxSessionInboundBytes.toNat then
          BlockUnaffected config stream headerEnd
        else LimitUnaffected config stream

variable {m n : ℕ} {d : Decision}

/-- A read that may settle the detection does not get beyond its reach. -/
theorem MaySettle.le_reach (h : MaySettle config stream m n d) {k : ℕ}
    (hk : decision config (stream.take k) ≠ none ∨ stream.length < k) : n ≤ reach config stream k := by
  have hlt := h.lt
  have hle := h.le
  have hlength := h.length
  have hmk : m < k := by
    by_contra hkm
    rcases hk with hdecided | hlong
    · exact hdecided (decision_take_mono (Nat.not_lt.1 hkm) (by omega) h.undecided)
    · omega
  unfold reach
  omega

/-- Two reads from the same byte on that settle the detection. -/
theorem SameAnswer.of_points (h : SameAnswer config stream) (m n n' : ℕ) {d d' : Decision}
    (hnone : decision config (stream.take m) = none) (hlt : m < n) (hlt' : m < n')
    (hn : n ≤ reach config stream (m + 1)) (hn' : n' ≤ reach config stream (m + 1))
    (hd : decision config (stream.take n) = some d)
    (hd' : decision config (stream.take n') = some d') : d.answer config = d'.answer config := by
  unfold reach at hn hn'
  exact h m n d m n' d' ⟨hlt, by omega, by omega, hnone, hd⟩ ⟨hlt', by omega, by omega, hnone, hd'⟩

theorem sameAnswer_iff_raw (hraw : possibleHttp stream = false) :
    SameAnswer config stream ↔ RawUnaffected config stream := by
  have hforeign := agreement_lt hraw
  have hR : 1024 ≤ config.receiveBuffer := Nat.le_max_left _ _
  have hdecision : ∀ {n}, n ≤ stream.length → _ := fun hn => @decision_take_raw config stream _ hraw hn
  constructor
  · intro h hfirst
    by_contra hbeyond
    have hreach : reach config stream (agreement stream (ascii "GET ") + 1) ≤ stream.length :=
      Nat.min_le_left _ _
    -- stopping at the first foreign byte decides for raw, reading on overflows
    have hsame : Decision.raw.answer config = Decision.overflow.answer config := h.of_points
      (agreement stream (ascii "GET ")) (agreement stream (ascii "GET ") + 1)
      (reach config stream (agreement stream (ascii "GET ") + 1))
      (by rw [hdecision (by omega), if_neg (by omega), if_neg (by omega)])
      (Nat.lt_succ_self _) (by omega) (by omega) le_rfl
      (by rw [hdecision (by omega), if_neg (by omega), if_pos (by omega)])
      (by rw [hdecision hreach, if_pos (by omega)])
    cases congrArg Prod.fst hsame
  · intro h
    have hall : ∀ m n d, MaySettle config stream m n d →
        d = if agreement stream (ascii "GET ") + 1 ≤ config.maxSessionInboundBytes.toNat then .raw
          else .overflow := by
      intro m n d hmay
      have hle : n ≤ reach config stream (agreement stream (ascii "GET ") + 1) :=
        hmay.le_reach (Or.inl (by
          rw [hdecision (by omega)]
          split
          · simp
          · rw [if_pos (by omega)]
            simp))
      have hdecided := hmay.decided
      rw [hdecision hmay.length] at hdecided
      split at hdecided
      · next hfull =>
          obtain rfl := Option.some.inj hdecided
          rw [if_neg]
          intro hfirst
          have := h hfirst
          omega
      · split at hdecided
        · obtain rfl := Option.some.inj hdecided
          rw [if_pos (by omega)]
        · cases hdecided
    intro m n d m' n' d' hmay hmay'
    rw [hall m n d hmay, hall m' n' d' hmay']

section Http

variable (hhttp : possibleHttp stream = true)
include hhttp

/-- Beyond the limit of the session. -/
theorem decision_overflow (hn : n ≤ stream.length)
    (hfull : config.maxSessionInboundBytes.toNat < n) :
    decision config (stream.take n) = some .overflow := by
  rw [decision_take_http hhttp hn, if_pos hfull]

/-- Beyond the limit on the handshake only. -/
theorem decision_tooLarge (hn : n ≤ stream.length)
    (hfull : n ≤ config.maxSessionInboundBytes.toNat) (hlarge : config.handshakeLimit < n) :
    decision config (stream.take n) = some (.rejected requestTooLarge) := by
  rw [decision_take_http hhttp hn, if_neg (by omega), if_pos hlarge]

/-- Within the limits, behind the header block. -/
theorem decision_block {headerEnd : ℕ} (hfind : find headerTerminator stream = some headerEnd)
    (hn : n ≤ stream.length)
    (hwithin : n ≤ min config.handshakeLimit config.maxSessionInboundBytes.toNat)
    (hend : headerEnd + 4 ≤ n) :
    decision config (stream.take n) = some (blockDecision config stream headerEnd) := by
  rw [decision_take_http hhttp hn, if_neg (by omega), if_neg (by omega), hfind]
  exact if_pos hend

/-- Within the limits, before the end of the header block. -/
theorem decision_before (hn : n ≤ stream.length)
    (hwithin : n ≤ min config.handshakeLimit config.maxSessionInboundBytes.toNat)
    (hlate : ∀ headerEnd, find headerTerminator stream = some headerEnd → n < headerEnd + 4) :
    decision config (stream.take n) = none := by
  rw [decision_take_http hhttp hn, if_neg (by omega), if_neg (by omega)]
  cases hfind : find headerTerminator stream with
  | none => rfl
  | some headerEnd =>
      have hlt := hlate headerEnd hfind
      exact if_neg (by omega)

/-- What a read comes to that settles the detection. -/
theorem MaySettle.cases_http (h : MaySettle config stream m n d) :
    config.maxSessionInboundBytes.toNat < n ∧ d = .overflow ∨
    n ≤ config.maxSessionInboundBytes.toNat ∧ config.handshakeLimit < n ∧
      d = .rejected requestTooLarge ∨
    n ≤ min config.handshakeLimit config.maxSessionInboundBytes.toNat ∧
      ∃ headerEnd, find headerTerminator stream = some headerEnd ∧ headerEnd + 4 ≤ n ∧
        d = blockDecision config stream headerEnd := by
  have hdecided := h.decided
  rw [decision_take_http hhttp h.length] at hdecided
  split at hdecided
  · next hfull => exact Or.inl ⟨hfull, (Option.some.inj hdecided).symm⟩
  · next hfull =>
      split at hdecided
      · next hlarge =>
          exact Or.inr (Or.inl ⟨Nat.not_lt.1 hfull, hlarge, (Option.some.inj hdecided).symm⟩)
      · refine Or.inr (Or.inr ⟨by omega, ?_⟩)
        cases hfind : find headerTerminator stream with
        | none =>
            rw [hfind] at hdecided
            cases hdecided
        | some headerEnd =>
            rw [hfind] at hdecided
            dsimp only at hdecided
            split at hdecided
            · next hend => exact ⟨headerEnd, rfl, hend, (Option.some.inj hdecided).symm⟩
            · cases hdecided

omit hhttp in
/-- A block that is rejected answers with its response, if that fits. -/
theorem reply_blockDecision {headerEnd : ℕ}
    (h : (parseBlock stream headerEnd config.originValidator).status = .rejected) :
    blockDecision config stream headerEnd =
      .rejected (parseBlock stream headerEnd config.originValidator).response := by
  rw [blockDecision, if_neg (by rw [h]; decide)]

omit hhttp in
/-- A block that does not switch to WebSocket is rejected. -/
theorem rejected_of_transport {headerEnd : ℕ}
    (h : (blockDecision config stream headerEnd).transport = .detecting) :
    (parseBlock stream headerEnd config.originValidator).status = .rejected ∧
      (parseBlock stream headerEnd config.originValidator).response ∈ refusals := by
  rcases (@parseBlock_cases stream config.originValidator headerEnd).2 with
    hrejected | ⟨haccepted, -⟩
  · exact hrejected
  · rw [blockDecision, if_pos haccepted] at h
    cases h

theorem sameAnswer_iff_block {headerEnd : ℕ} (hfind : find headerTerminator stream = some headerEnd)
    (hin : headerEnd + 4 ≤ min config.handshakeLimit config.maxSessionInboundBytes.toNat) :
    SameAnswer config stream ↔ BlockUnaffected config stream headerEnd := by
  have hend : headerEnd + 4 ≤ stream.length := find_add_le hfind
  have hR : 1024 ≤ config.receiveBuffer := Nat.le_max_left _ _
  have hreach : reach config stream (headerEnd + 4) ≤ stream.length := Nat.min_le_left _ _
  have hreach' : headerEnd + 4 ≤ reach config stream (headerEnd + 4) := by
    unfold reach
    omega
  constructor
  · intro h
    -- whatever a read that reaches the end of the block comes to is what the block comes to
    have hpoint : ∀ {n d}, headerEnd + 4 ≤ n → n ≤ reach config stream (headerEnd + 4) →
        decision config (stream.take n) = some d →
        (blockDecision config stream headerEnd).answer config = d.answer config := by
      intro n d hbehind hle hd
      refine h.of_points (headerEnd + 3) _ _ ?_ (Nat.lt_succ_self _) hbehind hreach' hle
        (decision_block hhttp hfind hend hin le_rfl) hd
      refine decision_before hhttp (by omega) (by omega) fun e he => ?_
      obtain rfl := Option.some.inj (hfind.symm.trans he)
      exact Nat.lt_succ_self _
    by_cases hfar : reach config stream (headerEnd + 4) ≤
        min config.handshakeLimit config.maxSessionInboundBytes.toNat
    · exact Or.inl hfar
    · right
      obtain ⟨htransport, hreply⟩ : (blockDecision config stream headerEnd).transport = .detecting ∧
          ((blockDecision config stream headerEnd).reply config = none ∨
            (blockDecision config stream headerEnd).reply config = some requestTooLarge) := by
        by_cases hfull : config.maxSessionInboundBytes.toNat < reach config stream (headerEnd + 4)
        · obtain ⟨ht, hr⟩ := Prod.mk.inj (hpoint hreach' le_rfl (decision_overflow hhttp hreach hfull))
          exact ⟨ht, Or.inl hr⟩
        · obtain ⟨ht, hr⟩ := Prod.mk.inj (hpoint hreach' le_rfl
            (decision_tooLarge hhttp hreach (by omega) (by omega)))
          refine ⟨ht, ?_⟩
          rw [hr, Decision.reply]
          split
          · exact Or.inr rfl
          · exact Or.inl rfl
      obtain ⟨hrejected, hmem⟩ := rejected_of_transport htransport
      have hunfit : ¬ Fits config
          (parseBlock stream headerEnd config.originValidator).response := by
        intro hfits
        rw [reply_blockDecision hrejected, Decision.reply, if_pos hfits] at hreply
        rcases hreply with hnone | hsame
        · cases hnone
        · rw [Option.some.inj hsame] at hmem
          exact requestTooLarge_notMem hmem
      refine ⟨⟨hrejected, hunfit⟩, ?_⟩
      by_cases hfits : Fits config requestTooLarge
      · right
        by_contra hgt
        have hlarge := (Prod.mk.inj (hpoint (n := config.handshakeLimit + 1) (by omega) (by omega)
          (decision_tooLarge hhttp (by omega) (by omega) (Nat.lt_succ_self _)))).2
        rw [reply_blockDecision hrejected, Decision.reply, Decision.reply, if_neg hunfit,
          if_pos hfits] at hlarge
        cases hlarge
      · exact Or.inl hfits
  · intro h
    obtain ⟨answer, hall⟩ : ∃ answer, ∀ m n d, MaySettle config stream m n d →
        d.answer config = answer := by
      refine ⟨(blockDecision config stream headerEnd).answer config, fun m n d hmay => ?_⟩
      have hle := hmay.le_reach (k := headerEnd + 4)
        (Or.inl (by rw [decision_block hhttp hfind hend hin le_rfl]; simp))
      rcases hmay.cases_http hhttp with ⟨hfull, rfl⟩ | ⟨hfull, hlarge, rfl⟩ |
        ⟨-, headerEnd', hfind', -, rfl⟩
      · rcases h with hfar | ⟨⟨hrejected, hunfit⟩, -⟩
        · omega
        · rw [reply_blockDecision hrejected, Decision.answer, Decision.answer, Decision.reply,
            Decision.reply, if_neg hunfit]
          rfl
      · rcases h with hfar | ⟨⟨hrejected, hunfit⟩, hunfit' | hnear⟩
        · omega
        · rw [reply_blockDecision hrejected, Decision.answer, Decision.answer, Decision.reply,
            Decision.reply, if_neg hunfit, if_neg hunfit']
          rfl
        · omega
      · obtain rfl := Option.some.inj (hfind.symm.trans hfind')
        rfl
    intro m n d m' n' d' hmay hmay'
    rw [hall m n d hmay, hall m' n' d' hmay']

theorem sameAnswer_iff_limit (hlate : ∀ headerEnd, find headerTerminator stream = some headerEnd →
      min config.handshakeLimit config.maxSessionInboundBytes.toNat < headerEnd + 4) :
    SameAnswer config stream ↔ LimitUnaffected config stream := by
  have hreach : reach config stream (config.handshakeLimit + 1) ≤ stream.length :=
    Nat.min_le_left _ _
  constructor
  · intro h hlt
    by_contra hcontra
    rw [not_or, not_not, Nat.not_le] at hcontra
    obtain ⟨hfar, hfits⟩ := hcontra
    -- one byte over the handshake limit rejects, and as many as a read holds overflow
    have hsame := h.of_points config.handshakeLimit (config.handshakeLimit + 1)
      (reach config stream (config.handshakeLimit + 1))
      (decision_before hhttp (by omega) (by omega) fun e he => by
        have hend := hlate e he
        omega)
      (Nat.lt_succ_self _) (by omega) (by omega) le_rfl
      (decision_tooLarge hhttp (by omega) (by omega) (Nat.lt_succ_self _))
      (decision_overflow hhttp hreach hfar)
    have hreply := (Prod.mk.inj hsame).2
    rw [Decision.reply, Decision.reply, if_pos hfits] at hreply
    cases hreply
  · intro h
    obtain ⟨answer, hall⟩ : ∃ answer, ∀ m n d, MaySettle config stream m n d →
        d.answer config = answer := by
      by_cases hlt : config.handshakeLimit < config.maxSessionInboundBytes.toNat
      · refine ⟨(Decision.rejected requestTooLarge).answer config, fun m n d hmay => ?_⟩
        rcases hmay.cases_http hhttp with ⟨hfull, rfl⟩ | ⟨-, -, rfl⟩ |
          ⟨hwithin, headerEnd, hfind, hend, -⟩
        · rcases h hlt with hnear | hunfit
          · have hlength := hmay.length
            have hle := hmay.le_reach (k := config.handshakeLimit + 1)
              (Or.inl (by
                rw [decision_tooLarge hhttp (by omega) (by omega) (Nat.lt_succ_self _)]
                simp))
            omega
          · rw [Decision.answer, Decision.answer, Decision.reply, Decision.reply, if_neg hunfit]
            rfl
        · rfl
        · have := hlate headerEnd hfind
          omega
      · refine ⟨Decision.overflow.answer config, fun m n d hmay => ?_⟩
        rcases hmay.cases_http hhttp with ⟨-, rfl⟩ | ⟨hfull, hlarge, -⟩ |
          ⟨hwithin, headerEnd, hfind, hend, -⟩
        · rfl
        · omega
        · have := hlate headerEnd hfind
          omega
    intro m n d m' n' d' hmay hmay'
    rw [hall m n d hmay, hall m' n' d' hmay']


end Http

/-- **When the cuts do not matter.**  All cuts of a stream into reads come to the same transport,
the same reply and the same messages exactly if no read that can settle the detection reaches beyond
a limit that would change the answer. -/
theorem ignoresCuts_iff (config : ServerConfig) (handler : Option Handler) (stream : Bytes) :
    IgnoresCuts config handler stream ↔ Unaffected config stream := by
  rw [ignoresCuts_iff_sameAnswer, Unaffected]
  cases hhttp : possibleHttp stream with
  | false =>
      rw [if_pos rfl]
      exact sameAnswer_iff_raw hhttp
  | true =>
      rw [if_neg (by decide)]
      cases hfind : find headerTerminator stream with
      | none => exact sameAnswer_iff_limit hhttp (fun e he => by rw [hfind] at he; cases he)
      | some headerEnd =>
          dsimp only
          split
          · next hin => exact sameAnswer_iff_block hhttp hfind hin
          · next hout =>
              refine sameAnswer_iff_limit hhttp fun e he => ?_
              obtain rfl := Option.some.inj (hfind.symm.trans he)
              exact Nat.not_le.1 hout

/-! ### A frame right behind the handshake -/

/-- The limit on the handshake is the length of `upgradeRequest`. -/
def tightHandshake : ServerConfig := { maxHandshakeBytes := 131 }

/-- A masked binary frame with one byte in it. -/
def oneByteFrame : Bytes := [0x82, 0x81, 0, 0, 0, 0, 7]

/-- **A handshake with a frame right behind it**: in one read it is too large, in two it is accepted
and the message is delivered. -/
theorem pipelined_frame :
    ¬ IgnoresCuts tightHandshake none (upgradeRequest ++ oneByteFrame) ∧
    (run tightHandshake none idle [upgradeRequest ++ oneByteFrame]).replies = [requestTooLarge] ∧
    (run tightHandshake none idle [upgradeRequest, oneByteFrame]).transport = .webSocket ∧
    (run tightHandshake none idle [upgradeRequest, oneByteFrame]).delivered = [[7]] := by
  have hone : IsCut tightHandshake (upgradeRequest ++ oneByteFrame)
      [upgradeRequest ++ oneByteFrame] := ⟨by decide, by decide +kernel, by simp⟩
  have htwo : IsCut tightHandshake (upgradeRequest ++ oneByteFrame)
      [upgradeRequest, oneByteFrame] := ⟨by decide, by decide +kernel, by simp⟩
  have hwhole : (fun r : Reading => (r.transport, r.replies))
      (run tightHandshake none idle [upgradeRequest ++ oneByteFrame]) =
        (.detecting, [requestTooLarge]) := by
    decide +kernel
  have hparts : (fun r : Reading => (r.transport, r.delivered))
      (run tightHandshake none idle [upgradeRequest, oneByteFrame]) = (.webSocket, [[7]]) := by
    decide +kernel
  obtain ⟨hdetecting, hreply⟩ := Prod.mk.inj hwhole
  obtain ⟨htransport, hdelivered⟩ := Prod.mk.inj hparts
  refine ⟨fun h => ?_, hreply, htransport, hdelivered⟩
  have hsame := (h _ _ hone htwo idle idle idle_calm idle_calm).transport
  rw [hdetecting, htransport] at hsame
  cases hsame

end SessionInput

end RealtimeEngine
