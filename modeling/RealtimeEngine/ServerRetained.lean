/-
**What a session retains, and what its account covers.**

The input of a session is in its detection buffer, behind the cursor of its decoder, or in the
message that the WebSocket decoder assembles from fragments.  The account of the session is set to
what is in the buffers, and the limits of a session and of the server are about the account.  The
fragments are not counted: a client that never sends the last one keeps up to a message in memory
that no account covers.

Apart from that the account is right.  A step of a read takes bytes from one container to the next
or delivers them, and every read is charged before its bytes are decoded.

Main definitions:

* `RealtimeEngine.ServerSteps.retained` — the bytes of undelivered input of a session;
* `RealtimeEngine.ServerSteps.Covered` — they are within the account and the limit;
* `RealtimeEngine.ServerSteps.accountsAll` — the account is set while no fragment waits.

Main results:

* `RealtimeEngine.ServerSteps.retained_covered` — **in every run in which no fragment waits when an
  account is set, what the sessions retain between their reads is covered**;
* `RealtimeEngine.ServerSteps.fragment_uncovered` — a fragment that is not.
-/

import RealtimeEngine.FramingStream
import RealtimeEngine.ServerGreeting
import RealtimeEngine.ServerState
import RealtimeEngine.WebSocketInvariant
import RealtimeEngine.WebSocketStream

set_option relaxedAutoImplicit false
set_option autoImplicit false

namespace RealtimeEngine

/-! ### The decoders -/

namespace LengthPrefixedAccumulator

/-- The decoder buffers no more than it may. -/
structure Within (B : ℕ) (d : LengthPrefixedAccumulator) : Prop where
  limit : d.maxBufferedBytes = B
  cursor : d.cursor ≤ d.buffer.length
  bufferedBytes : d.bufferedBytes ≤ B

variable {B : ℕ} {d : LengthPrefixedAccumulator}

theorem Within.compactIfUseful (h : d.Within B) :
    d.compactIfUseful.Within B ∧ d.compactIfUseful.bufferedBytes = d.bufferedBytes := by
  have hbuffered : d.compactIfUseful.bufferedBytes = d.bufferedBytes := by
    rw [← length_available, compactIfUseful_available, length_available]
  refine ⟨⟨?_, ?_, hbuffered.trans_le h.bufferedBytes⟩, hbuffered⟩
  · unfold LengthPrefixedAccumulator.compactIfUseful
    split_ifs <;> exact h.limit
  · unfold LengthPrefixedAccumulator.compactIfUseful
    split_ifs
    · exact h.cursor
    · exact Nat.zero_le _
    · exact Nat.zero_le _
    · exact h.cursor

/-- `Append` adds its bytes, or it fails and adds nothing. -/
theorem Within.append (h : d.Within B) (bytes : Bytes) :
    (d.append bytes).2.Within B ∧
      ((d.append bytes).1 = false → (d.append bytes).2.bufferedBytes = d.bufferedBytes) := by
  obtain ⟨hcompact, hbuffered⟩ := h.compactIfUseful
  unfold LengthPrefixedAccumulator.append
  dsimp only
  split
  · exact ⟨⟨hcompact.limit, hcompact.cursor, hcompact.bufferedBytes⟩, fun _ => hbuffered⟩
  · next hroom =>
      refine ⟨⟨hcompact.limit, ?_, ?_⟩, (by intro hfails; cases hfails)⟩
      · rw [List.length_append]
        exact hcompact.cursor.trans (Nat.le_add_right _ _)
      · have hlimit := hcompact.limit
        have hcursor := hcompact.cursor
        simp only [LengthPrefixedAccumulator.bufferedBytes, List.length_append] at hroom ⊢
        omega

/-- `Next` takes bytes away. -/
theorem Within.next (h : d.Within B) :
    d.next.2.2.Within B ∧ d.next.2.2.bufferedBytes ≤ d.bufferedBytes := by
  have hcursor := h.cursor
  have hbuffered := h.bufferedBytes
  unfold LengthPrefixedAccumulator.next
  dsimp only
  split_ifs with hlimit hshort hlength hpart
  · exact ⟨h, le_rfl⟩
  · exact ⟨h, le_rfl⟩
  · exact ⟨h, le_rfl⟩
  · exact ⟨h, le_rfl⟩
  · simp only [LengthPrefixedAccumulator.bufferedBytes] at hshort hpart hbuffered ⊢
    refine ⟨⟨h.limit, ?_, ?_⟩, ?_⟩
    · dsimp only
      omega
    · simp only [LengthPrefixedAccumulator.bufferedBytes]
      omega
    · omega

end LengthPrefixedAccumulator

namespace ServerSteps

open Interleaving

variable {ι : Type*}

/-! ### What a session retains -/

/-- The bytes of undelivered input of a session. -/
def retained (c : Control) : ℕ :=
  c.detectionBuffer.length + c.rawDecoder.bufferedBytes + c.webSocketDecoder.held

/-- What the session retains is within its account and its limit. -/
def Covered (config : ServerConfig) (c : Control) : Prop :=
  retained c ≤ c.inboundAccounted ∧ retained c ≤ config.maxSessionInboundBytes.toNat

/-- The task does not set the account of an open session while a fragment waits. -/
def accountsAll (sv : Server ι) : Task ι → Bool
  | .reader s (.updateInbound _ _) =>
      (sv.control s).webSocketDecoder.fragmentedPayload.isEmpty ||
        (sv.out.sessions s).disconnectStarted || (sv.control s).state.ending
  | _ => true

/-- The handling of the last read is over. -/
def ReadPoint.idle : ReadPoint → Bool
  | .postRead | .reading | .handleRead _ _ => true
  | _ => false

/-- Only the container of its transport holds input of the session. -/
structure Sorted (c : Control) : Prop where
  detecting : c.transport ≠ .detecting → c.detectionBuffer = []
  rawTcp : c.transport ≠ .rawTcp → c.rawDecoder.bufferedBytes = 0
  webSocket : c.transport ≠ .webSocket → c.webSocketDecoder.held = 0

/-- What a reading thread knows about the containers of its session. -/
def Placed (c : Control) : ReadPoint → Prop
  | .postRead | .reading | .handleRead _ _ | .processIncoming _ | .repost => Sorted c
  | .processDetection _ | .detect | .greet _ => c.transport = .detecting ∧ Sorted c
  | .store transport _ => transport ≠ .detecting ∧ c.transport = .detecting ∧ Sorted c
  | .storeOpen transport _ | .leave transport _ =>
      transport ≠ .detecting ∧ c.transport = transport ∧ c.rawDecoder.bufferedBytes = 0 ∧
        c.webSocketDecoder.held = 0
  | .processRaw _ | .rawLoop => c.transport = .rawTcp ∧ Sorted c
  | .processWebSocket _ | .appendWebSocket _ | .webSocketLoop | .webSocketState =>
      c.transport = .webSocket ∧ Sorted c
  | .deliverMessage _ loop => (loop = .rawLoop ∨ loop = .webSocketLoop) ∧ Placed c loop
  | .updateInbound _ rest => (∀ bytes rest', rest ≠ .updateInbound bytes rest') ∧ Placed c rest

/-- What a reading thread knows about the account of its session: it is about to be set, or it
covers what the session retains. -/
def Balanced (config : ServerConfig) (c : Control) : ReadPoint → Prop
  | .updateInbound bytes _ =>
      c.detectionBuffer.length + c.rawDecoder.bufferedBytes + c.webSocketDecoder.bufferedBytes =
          bytes ∧ bytes ≤ config.maxSessionInboundBytes.toNat
  | _ =>
      Covered config c ∨
        c.state.ending = true ∧ c.webSocketDecoder.fragmentedPayload ≠ []

/-- **What a reading thread knows about its session.** -/
structure Holds (config : ServerConfig) (c : Control) (point : ReadPoint) : Prop where
  raw : c.rawDecoder.Within config.maxSessionInboundBytes.toNat
  webSocket : c.webSocketDecoder.Within config.maxSessionInboundBytes.toNat
  placed : Placed c point
  balanced : Balanced config c point

section Reading

variable {config : ServerConfig} {c : Control}

theorem Sorted.fragment (h : Sorted c) (htransport : c.transport ≠ .webSocket) :
    c.webSocketDecoder.fragmentedPayload = [] := by
  have hheld := h.webSocket htransport
  rw [WebSocketDecoder.held] at hheld
  exact List.length_eq_zero_iff.1 (by omega)

/-- The containers are as they were. -/
structure Alike (c c' : Control) : Prop where
  transport : c'.transport = c.transport
  detectionBuffer : c'.detectionBuffer = c.detectionBuffer
  rawDecoder : c'.rawDecoder = c.rawDecoder
  webSocketDecoder : c'.webSocketDecoder = c.webSocketDecoder

theorem Sorted.congr {c' : Control} (h : Sorted c) (halike : Alike c c') : Sorted c' := by
  obtain ⟨htransport, hdetection, hraw, hwebSocket⟩ := halike
  constructor
  · rw [htransport, hdetection]
    exact h.detecting
  · rw [htransport, hraw]
    exact h.rawTcp
  · rw [htransport, hwebSocket]
    exact h.webSocket

theorem Placed.congr {c' : Control} (halike : Alike c c') {point : ReadPoint}
    (h : Placed c point) : Placed c' point := by
  induction point with
  | deliverMessage message loop ih => exact ⟨h.1, ih h.2⟩
  | updateInbound bytes rest ih => exact ⟨h.1, ih h.2⟩
  | postRead | reading | handleRead | processIncoming | repost => exact Sorted.congr h halike
  | store transport consumed =>
      exact ⟨h.1, halike.transport.trans h.2.1, Sorted.congr h.2.2 halike⟩
  | storeOpen transport consumed | leave transport consumed =>
      obtain ⟨hne, htransport, hraw, hwebSocket⟩ := h
      refine ⟨hne, halike.transport.trans htransport, ?_, ?_⟩
      · rwa [halike.rawDecoder]
      · rwa [halike.webSocketDecoder]
  | _ => exact ⟨halike.transport.trans h.1, Sorted.congr h.2 halike⟩

/-- Nothing that the containers or the account are about has changed. -/
theorem Holds.congr {c' : Control} {point : ReadPoint} (h : Holds config c point)
    (halike : Alike c c') (haccounted : c'.inboundAccounted = c.inboundAccounted)
    (hstate : c'.state = c.state ∨ c'.state.ending = true) : Holds config c' point := by
  have hretained : retained c' = retained c := by
    rw [retained, retained, halike.detectionBuffer, halike.rawDecoder, halike.webSocketDecoder]
  have hfine : Covered config c ∨
      c.state.ending = true ∧ c.webSocketDecoder.fragmentedPayload ≠ [] →
      Covered config c' ∨
        c'.state.ending = true ∧ c'.webSocketDecoder.fragmentedPayload ≠ [] := by
    rintro (hcovered | ⟨hending, hne⟩)
    · refine Or.inl ?_
      rw [Covered, hretained, haccounted]
      exact hcovered
    · refine Or.inr ⟨?_, by rwa [halike.webSocketDecoder]⟩
      rcases hstate with hsame | hending'
      · rwa [hsame]
      · exact hending'
  refine ⟨by rw [halike.rawDecoder]; exact h.raw, by rw [halike.webSocketDecoder]; exact h.webSocket,
    h.placed.congr halike, ?_⟩
  have hbalanced := h.balanced
  cases point with
  | updateInbound bytes rest =>
      rw [Balanced, halike.detectionBuffer, halike.rawDecoder, halike.webSocketDecoder]
      exact hbalanced
  | _ => exact hfine hbalanced

/-- Where no fragment waits, the account covers what is retained. -/
theorem covered_of_empty (h : Covered config c ∨
    c.state.ending = true ∧ c.webSocketDecoder.fragmentedPayload ≠ [])
    (hempty : c.webSocketDecoder.fragmentedPayload = []) : Covered config c := by
  rcases h with hcovered | ⟨-, hne⟩
  · exact hcovered
  · exact absurd hempty hne

/-- The account has been set. -/
theorem Holds.account {bytes : ℕ} {rest : ReadPoint}
    (h : Holds config c (.updateInbound bytes rest))
    (hall : c.webSocketDecoder.fragmentedPayload = [] ∨ c.state.ending = true) :
    Holds config { c with inboundAccounted := bytes } rest := by
  obtain ⟨hne, hplaced⟩ := h.placed
  obtain ⟨hsum, hle⟩ := h.balanced
  have hbalanced : Covered config { c with inboundAccounted := bytes } ∨
      c.state.ending = true ∧ c.webSocketDecoder.fragmentedPayload ≠ [] := by
    by_cases hempty : c.webSocketDecoder.fragmentedPayload = []
    · refine Or.inl ⟨?_, ?_⟩
      · simp only [retained, WebSocketDecoder.held, hempty, List.length_nil]
        omega
      · simp only [retained, WebSocketDecoder.held, hempty, List.length_nil]
        omega
    · exact Or.inr ⟨hall.resolve_left hempty, hempty⟩
  have halike : Alike c { c with inboundAccounted := bytes } := ⟨rfl, rfl, rfl, rfl⟩
  refine ⟨h.raw, h.webSocket, hplaced.congr halike, ?_⟩
  cases rest with
  | updateInbound bytes' rest' => exact absurd rfl (hne bytes' rest')
  | _ => exact hbalanced


/-- What is known where a reading thread goes, or behind it if it gives up its read. -/
def HoldsAt (config : ServerConfig) (c : Control) (s : ι) (new : List (Task ι)) : Prop :=
  (∀ point, .reader s point ∈ new → Holds config c point) ∧
    ((∀ point, .reader s point ∉ new) → Holds config c .postRead)

theorem Holds.goes {s : ι} (calls : List (Task ι)) {point : ReadPoint} (h : Holds config c point)
    (hcalls : ∀ point', .reader s point' ∉ calls) :
    HoldsAt config c s (calls ++ [.reader s point]) := by
  refine ⟨fun point' hmem => ?_, fun hnone => absurd ?_ (hnone point)⟩
  · rcases List.mem_append.1 hmem with hcall | hlast
    · exact absurd hcall (hcalls point')
    · injection List.mem_singleton.1 hlast with _ hpoint
      rwa [hpoint]
  · exact List.mem_append_right _ (List.mem_singleton_self _)

theorem Holds.goes_on {s : ι} {point : ReadPoint} (h : Holds config c point) :
    HoldsAt config c s [Task.reader s point] :=
  h.goes [] fun _ => List.not_mem_nil

theorem Holds.goes_behind {s : ι} {t : Task ι} {point : ReadPoint} (h : Holds config c point)
    (ht : t.reader? = none) : HoldsAt config c s [t, .reader s point] := by
  refine h.goes [t] fun point' hmem => ?_
  rw [← List.mem_singleton.1 hmem] at ht
  cases ht

theorem Holds.gives_up {s : ι} (h : Holds config c .postRead) :
    HoldsAt config c s [disconnect s] :=
  ⟨by simp [disconnect], fun _ => h⟩

/-- The loop of a decoder ends: the handling of the read is over. -/
theorem Holds.stops {point : ReadPoint} (h : Holds config c point) (hsorted : Sorted c)
    (hpoint : ∀ bytes rest, point ≠ .updateInbound bytes rest) : Holds config c .repost := by
  refine ⟨h.raw, h.webSocket, hsorted, ?_⟩
  have hbalanced := h.balanced
  cases point with
  | updateInbound bytes rest => exact absurd rfl (hpoint bytes rest)
  | _ => exact hbalanced

/-- The containers behind a call of `Next` of the raw decoder. -/
theorem Holds.rawEvent {s : ι} (h : Holds config c .rawLoop) :
    HoldsAt config (rawEvent c s).1 s (rawEvent c s).2 := by
  obtain ⟨htransport, hsorted⟩ := h.placed
  obtain ⟨hwithin, hle⟩ := h.raw.next
  have hcovered := covered_of_empty h.balanced (hsorted.fragment (by simp [htransport]))
  have hdetection := hsorted.detecting (by simp [htransport])
  have hwebSocket := hsorted.webSocket (by simp [htransport])
  have hsorted' : Sorted { c with rawDecoder := c.rawDecoder.next.2.2 } :=
    ⟨hsorted.detecting, fun hne => absurd htransport hne, hsorted.webSocket⟩
  have hcovered' : Covered config { c with rawDecoder := c.rawDecoder.next.2.2 } := by
    obtain ⟨haccount, hlimit⟩ := hcovered
    simp only [retained] at haccount hlimit
    refine ⟨?_, ?_⟩
    · simp only [retained]
      omega
    · simp only [retained]
      omega
  unfold ServerSteps.rawEvent
  dsimp only
  split
  · refine Holds.goes_on ⟨hwithin, h.webSocket, ⟨(by intro _ _ heq; cases heq), hsorted'⟩, ?_⟩
    refine ⟨?_, hwithin.bufferedBytes⟩
    rw [WebSocketDecoder.held] at hwebSocket
    simp only [hdetection, List.length_nil]
    omega
  · exact Holds.goes_on ⟨hwithin, h.webSocket, ⟨Or.inl rfl, htransport, hsorted'⟩,
      Or.inl hcovered'⟩
  · refine Holds.goes_behind ⟨hwithin, h.webSocket, ?_, Or.inl hcovered'⟩ rfl
    exact hsorted'.congr ⟨rfl, rfl, rfl, rfl⟩

/-- The containers behind a call of `Next` of the WebSocket decoder, of an open session. -/
theorem Holds.webSocketEvent {s : ι} (h : Holds config c .webSocketState)
    (hopen : c.state = .opened) :
    HoldsAt config (webSocketEvent c s).1 s (webSocketEvent c s).2 := by
  obtain ⟨htransport, hsorted⟩ := h.placed
  obtain ⟨hwithin, hle⟩ := h.webSocket.next
  have hcovered : Covered config c := by
    rcases h.balanced with hcovered | ⟨hending, -⟩
    · exact hcovered
    · rw [hopen] at hending
      cases hending
  have hdetection := hsorted.detecting (by simp [htransport])
  have hraw := hsorted.rawTcp (by simp [htransport])
  have hsorted' : Sorted { c with webSocketDecoder := c.webSocketDecoder.next.decoder } :=
    ⟨hsorted.detecting, hsorted.rawTcp, fun hne => absurd htransport hne⟩
  -- what `Next` takes over into the fragment it takes off the buffer
  have hcovered' : Covered config { c with webSocketDecoder := c.webSocketDecoder.next.decoder } := by
    obtain ⟨haccount, hlimit⟩ := hcovered
    simp only [retained] at haccount hlimit
    refine ⟨?_, ?_⟩
    · simp only [retained]
      omega
    · simp only [retained]
      omega
  have hrepost : Holds config { c with webSocketDecoder := c.webSocketDecoder.next.decoder }
      .repost := ⟨h.raw, hwithin, hsorted', Or.inl hcovered'⟩
  have hloop : Holds config { c with webSocketDecoder := c.webSocketDecoder.next.decoder }
      .webSocketLoop := ⟨h.raw, hwithin, ⟨htransport, hsorted'⟩, Or.inl hcovered'⟩
  unfold ServerSteps.webSocketEvent
  dsimp only
  split
  · -- needs more data: `UpdateInboundAccounting` is called with the rest
    refine Holds.goes_on ⟨h.raw, hwithin, ⟨(by intro _ _ heq; cases heq), hsorted'⟩, ?_⟩
    refine ⟨?_, hwithin.bufferedBytes⟩
    simp only [hdetection, hraw, List.length_nil]
    omega
  · exact hrepost.goes_behind rfl
  · exact hrepost.goes_behind rfl
  · refine Holds.goes_behind (hrepost.congr ⟨rfl, rfl, rfl, rfl⟩ rfl (Or.inl rfl)) rfl
  · split
    · exact Holds.goes_on ⟨h.raw, hwithin, ⟨Or.inr rfl, htransport, hsorted'⟩, Or.inl hcovered'⟩
    · exact hloop.goes_behind rfl
    · exact hloop.goes_on
    · exact hrepost.goes_behind rfl

/-- `DeliverMessage` leaves the containers alone. -/
theorem Holds.deliverMessage {s : ι} {message : Bytes} {loop : ReadPoint}
    (h : Holds config c (.deliverMessage message loop)) (now : ℤ)
    (verdict : Option MessageDisposition) :
    HoldsAt config (deliverMessage config c s now verdict loop).1 s
      (deliverMessage config c s now verdict loop).2 := by
  obtain ⟨hloop, hplaced⟩ := h.placed
  have hsorted : Sorted c := by
    rcases hloop with rfl | rfl
    · exact hplaced.2
    · exact hplaced.2
  have hstop : Holds config c .repost := h.stops hsorted (by intro _ _ heq; cases heq)
  have hgoes : Holds config c loop := by
    refine ⟨h.raw, h.webSocket, hplaced, ?_⟩
    rcases hloop with rfl | rfl
    · exact h.balanced
    · exact h.balanced
  -- the window and the count of malformed messages are no containers
  have hwindow : ∀ {point : ReadPoint}, Holds config c point →
      Holds config (rateWindow c now) point := by
    intro point hpoint
    unfold rateWindow
    split
    · exact hpoint.congr ⟨rfl, rfl, rfl, rfl⟩ rfl (Or.inl rfl)
    · exact hpoint.congr ⟨rfl, rfl, rfl, rfl⟩ rfl (Or.inl rfl)
  have hmalformed : ∀ {point : ReadPoint}, Holds config c point →
      Holds config { rateWindow c now with
        malformedMessages := (rateWindow c now).malformedMessages + 1 } point :=
    fun hpoint => (hwindow hpoint).congr ⟨rfl, rfl, rfl, rfl⟩ rfl (Or.inl rfl)
  unfold ServerSteps.deliverMessage
  dsimp only
  split
  · exact (hwindow hstop).goes_behind rfl
  · split
    · exact (hwindow hgoes).goes_on
    · exact (hwindow hgoes).goes_on
    · split
      · exact (hmalformed hstop).goes_behind rfl
      · exact (hmalformed hgoes).goes_on

/-- **A reading thread knows enough about its session where it goes.** -/
theorem Holds.localStep {s : ι} {x : Choice ι} {point : ReadPoint} {c' : Control}
    {new : List (Task ι)} (h : Holds config c point)
    (hstep : localStep config x false c s point = some (c', new)) : HoldsAt config c' s new := by
  have hbalanced := h.balanced
  cases point with
  | handleRead succeeded bytes =>
      simp only [ServerSteps.localStep] at hstep
      split at hstep
      · obtain ⟨rfl, rfl⟩ := Prod.mk.inj (Option.some.inj hstep)
        exact Holds.gives_up ⟨h.raw, h.webSocket, h.placed, hbalanced⟩
      · obtain ⟨rfl, rfl⟩ := Prod.mk.inj (Option.some.inj hstep)
        exact Holds.goes_on ⟨h.raw, h.webSocket, h.placed, hbalanced⟩
  | processIncoming bytes =>
      have hsorted : Sorted c := h.placed
      simp only [ServerSteps.localStep] at hstep
      split at hstep
      · next htransport =>
          obtain ⟨rfl, rfl⟩ := Prod.mk.inj (Option.some.inj hstep)
          exact Holds.goes_on ⟨h.raw, h.webSocket, ⟨htransport, hsorted⟩, hbalanced⟩
      · next htransport =>
          obtain ⟨rfl, rfl⟩ := Prod.mk.inj (Option.some.inj hstep)
          exact Holds.goes_on ⟨h.raw, h.webSocket, ⟨htransport, hsorted⟩, hbalanced⟩
      · next htransport =>
          obtain ⟨rfl, rfl⟩ := Prod.mk.inj (Option.some.inj hstep)
          exact Holds.goes_on ⟨h.raw, h.webSocket, ⟨htransport, hsorted⟩, hbalanced⟩
  | detect =>
      obtain ⟨htransport, hsorted⟩ := h.placed
      simp only [ServerSteps.localStep] at hstep
      split at hstep
      · obtain ⟨rfl, rfl⟩ := Prod.mk.inj (Option.some.inj hstep)
        exact Holds.goes_on ⟨h.raw, h.webSocket, hsorted, hbalanced⟩
      · obtain ⟨rfl, rfl⟩ := Prod.mk.inj (Option.some.inj hstep)
        exact Holds.goes_on ⟨h.raw, h.webSocket, ⟨by decide, htransport, hsorted⟩, hbalanced⟩
      · obtain ⟨rfl, rfl⟩ := Prod.mk.inj (Option.some.inj hstep)
        exact Holds.goes_behind ⟨h.raw, h.webSocket, hsorted, hbalanced⟩ rfl
      · obtain ⟨rfl, rfl⟩ := Prod.mk.inj (Option.some.inj hstep)
        exact Holds.goes_on ⟨h.raw, h.webSocket, ⟨htransport, hsorted⟩, hbalanced⟩
  | processRaw bytes =>
      obtain ⟨htransport, hsorted⟩ := h.placed
      obtain ⟨hwithin, hfails⟩ := h.raw.append bytes
      have hdetection := hsorted.detecting (by simp [htransport])
      have hwebSocket := hsorted.webSocket (by simp [htransport])
      have hsorted' : Sorted { c with rawDecoder := (c.rawDecoder.append bytes).2 } :=
        ⟨hsorted.detecting, fun hne => absurd htransport hne, hsorted.webSocket⟩
      simp only [ServerSteps.localStep] at hstep
      split at hstep
      · next hrefused =>
          obtain ⟨rfl, rfl⟩ := Prod.mk.inj (Option.some.inj hstep)
          refine Holds.goes_behind ⟨hwithin, h.webSocket, hsorted', ?_⟩ rfl
          -- `Append` refuses the bytes and leaves the buffer as it was
          have hcovered := covered_of_empty hbalanced (hsorted.fragment (by simp [htransport]))
          refine Or.inl ?_
          rw [Covered, retained, hfails (by simpa using hrefused)]
          exact hcovered
      · obtain ⟨rfl, rfl⟩ := Prod.mk.inj (Option.some.inj hstep)
        refine Holds.goes_on ⟨hwithin, h.webSocket,
          ⟨(by intro _ _ heq; cases heq), htransport, hsorted'⟩, ?_⟩
        refine ⟨?_, hwithin.bufferedBytes⟩
        rw [WebSocketDecoder.held] at hwebSocket
        simp only [hdetection, List.length_nil]
        omega
  | rawLoop =>
      simp only [ServerSteps.localStep, Bool.false_eq_true, if_false] at hstep
      have hevent := h.rawEvent (s := s)
      rwa [Option.some.inj hstep] at hevent
  | processWebSocket bytes =>
      obtain ⟨htransport, hsorted⟩ := h.placed
      simp only [ServerSteps.localStep] at hstep
      split at hstep
      · obtain ⟨rfl, rfl⟩ := Prod.mk.inj (Option.some.inj hstep)
        exact Holds.goes_on ⟨h.raw, h.webSocket, hsorted, hbalanced⟩
      · obtain ⟨rfl, rfl⟩ := Prod.mk.inj (Option.some.inj hstep)
        exact Holds.goes_on ⟨h.raw, h.webSocket, ⟨htransport, hsorted⟩, hbalanced⟩
  | appendWebSocket bytes =>
      obtain ⟨htransport, hsorted⟩ := h.placed
      obtain ⟨hwithin, hfragment, hfails⟩ := h.webSocket.append bytes
      have hdetection := hsorted.detecting (by simp [htransport])
      have hraw := hsorted.rawTcp (by simp [htransport])
      have hsorted' : Sorted { c with webSocketDecoder := (c.webSocketDecoder.append bytes).2 } :=
        ⟨hsorted.detecting, hsorted.rawTcp, fun hne => absurd htransport hne⟩
      simp only [ServerSteps.localStep] at hstep
      split at hstep
      · next hrefused =>
          obtain ⟨rfl, rfl⟩ := Prod.mk.inj (Option.some.inj hstep)
          -- refused, and the account is as it was
          refine Holds.goes_behind ⟨h.raw, hwithin, hsorted', ?_⟩ rfl
          rw [Balanced, Covered, retained, WebSocketDecoder.held, hfragment,
            hfails (by simpa using hrefused)]
          · exact hbalanced
          · intro _ _ heq
            cases heq
      · obtain ⟨rfl, rfl⟩ := Prod.mk.inj (Option.some.inj hstep)
        refine Holds.goes_on ⟨h.raw, hwithin,
          ⟨(by intro _ _ heq; cases heq), htransport, hsorted'⟩, ?_⟩
        refine ⟨?_, hwithin.bufferedBytes⟩
        simp only [hdetection, hraw, List.length_nil]
        omega
  | webSocketLoop =>
      simp only [ServerSteps.localStep, Bool.false_eq_true, if_false] at hstep
      obtain ⟨rfl, rfl⟩ := Prod.mk.inj (Option.some.inj hstep)
      exact Holds.goes_on ⟨h.raw, h.webSocket, h.placed, hbalanced⟩
  | webSocketState =>
      obtain ⟨htransport, hsorted⟩ := h.placed
      simp only [ServerSteps.localStep] at hstep
      split at hstep
      · obtain ⟨rfl, rfl⟩ := Prod.mk.inj (Option.some.inj hstep)
        refine Holds.goes_on ⟨h.raw, h.webSocket, ⟨(by intro _ _ heq; cases heq), hsorted⟩, ?_⟩
        refine ⟨?_, h.webSocket.bufferedBytes⟩
        -- the account is about to be set to what the decoder still has
        rw [hsorted.detecting (by simp [htransport]), hsorted.rawTcp (by simp [htransport])]
        simp
      · next hopen =>
          have hevent := h.webSocketEvent (s := s) (not_not.1 hopen)
          rwa [Option.some.inj hstep] at hevent
  | deliverMessage message loop =>
      simp only [ServerSteps.localStep] at hstep
      split at hstep
      · next now verdict =>
          have hdelivers := h.deliverMessage (s := s) now verdict
          rwa [Option.some.inj hstep] at hdelivers
      · cases hstep
  | repost =>
      obtain ⟨rfl, rfl⟩ := Prod.mk.inj (Option.some.inj hstep)
      exact Holds.goes_on ⟨h.raw, h.webSocket, h.placed, hbalanced⟩
  | _ => cases hstep

end Reading

/-! ### The invariant -/

variable [DecidableEq ι]

/-- **What is known about the input of a session.** -/
structure Retained (config : ServerConfig) (sv : Server ι) (P : Multiset (Task ι)) (s : ι) : Prop where
  oneReader : weight (reader s) P ≤ (sv.control s).reads
  fresh : (sv.control s).accepted = false → (sv.control s).transport = .detecting
  /-- Only a `Disconnect` closes an account. -/
  releasing : .releaseInbound s ∈ P → (sv.out.sessions s).disconnectStarted = true
  holds : (sv.out.sessions s).disconnectStarted = false →
    ∀ point, .reader s point ∈ P → Holds config (sv.control s) point
  /-- Before its first read, or behind its last one. -/
  behind : (sv.out.sessions s).disconnectStarted = false →
    (∀ point, .reader s point ∉ P) → Holds config (sv.control s) .postRead

section Steps

variable {config : ServerConfig} {sv sv' : Server ι} {task : Task ι} {new : List (Task ι)}
  {R : Multiset (Task ι)} {s : ι}

theorem not_reader_of_zero {t : Task ι} (h : reader s t = 0) (point : ReadPoint) :
    .reader s point ≠ t := by
  rintro rfl
  rw [reader_self] at h
  cases h

/-- A step of a thread that does not handle a read of the session. -/
theorem Retained.quiet (h : Retained config sv (task ::ₘ R) s)
    (hone : weight (reader s) (new + R) ≤ (sv'.control s).reads)
    (htask : reader s task = 0) (hnew : ∀ t ∈ new, reader s t = 0)
    (hrelease : .releaseInbound s ∈ new → (sv'.out.sessions s).disconnectStarted = true)
    (hstarted : (sv'.out.sessions s).disconnectStarted = false →
      (sv.out.sessions s).disconnectStarted = false)
    (haccepted : (sv'.control s).accepted = (sv.control s).accepted)
    (htransport : (sv'.control s).transport = (sv.control s).transport)
    (hcontrol : (sv'.out.sessions s).disconnectStarted = false →
      ∀ point, Holds config (sv.control s) point → Holds config (sv'.control s) point) :
    Retained config sv' (new + R) s := by
  refine ⟨hone, fun hnot => ?_, fun hmem => ?_, fun hopen point hmem => ?_, fun hopen hnone => ?_⟩
  · rw [htransport]
    exact h.fresh (haccepted ▸ hnot)
  · rcases Multiset.mem_add.1 hmem with hnew' | hrest
    · exact hrelease hnew'
    · by_contra hnot
      have hbefore := hstarted (by simpa using hnot)
      rw [h.releasing (Multiset.mem_cons_of_mem hrest)] at hbefore
      cases hbefore
  · refine hcontrol hopen point (h.holds (hstarted hopen) point ?_)
    rcases Multiset.mem_add.1 hmem with hnew' | hrest
    · exact absurd rfl (not_reader_of_zero (hnew _ hnew') point)
    · exact Multiset.mem_cons_of_mem hrest
  · refine hcontrol hopen _ (h.behind (hstarted hopen) fun point hmem => ?_)
    rcases Multiset.mem_cons.1 hmem with heq | hrest
    · exact not_reader_of_zero htask point heq
    · exact hnone point (Multiset.mem_add.2 (Or.inr hrest))

/-- A step of the thread that handles a read of the session. -/
theorem Retained.turn {point : ReadPoint} (h : Retained config sv (.reader s point ::ₘ R) s)
    (hone : weight (reader s) (new + R) ≤ (sv'.control s).reads)
    (haccepted : (sv'.control s).accepted = (sv.control s).accepted)
    (hrelease : .releaseInbound s ∉ new)
    (hstarted : (sv'.out.sessions s).disconnectStarted = (sv.out.sessions s).disconnectStarted)
    (hholds : (sv.out.sessions s).disconnectStarted = false → Holds config (sv.control s) point →
      HoldsAt config (sv'.control s) s new) : Retained config sv' (new + R) s := by
  obtain ⟨hacc, halone⟩ := alone_of_oneReader h.oneReader
  have hat : (sv'.out.sessions s).disconnectStarted = false →
      HoldsAt config (sv'.control s) s new := by
    intro hopen
    rw [hstarted] at hopen
    exact hholds hopen (h.holds hopen point (Multiset.mem_cons_self _ R))
  refine ⟨hone, fun hnot => ?_, fun hmem => ?_, fun hopen point' hmem => ?_, fun hopen hnone => ?_⟩
  · rw [haccepted, hacc] at hnot
    cases hnot
  · rw [hstarted]
    rcases Multiset.mem_add.1 hmem with hnew | hrest
    · exact absurd hnew hrelease
    · exact h.releasing (Multiset.mem_cons_of_mem hrest)
  · rcases Multiset.mem_add.1 hmem with hnew | hrest
    · exact (hat hopen).1 point' hnew
    · exact absurd hrest (halone point')
  · exact (hat hopen).2 fun point' hmem => hnone point' (Multiset.mem_add.2 (Or.inl hmem))

/-- A step of another session. -/
theorem Retained.other (h : Retained config sv (task ::ₘ R) s) (hstep : Step config sv task sv' new)
    (hs : task.session? ≠ some s) : Retained config sv' (new + R) s := by
  obtain ⟨hcontrol, hout, hnew⟩ := hstep.frame hs
  refine h.quiet (hstep.oneReader h.oneReader) (reader_of_session hs) (fun t ht => ?_) (fun hmem => ?_)
    (fun hopen => ?_) (by rw [hcontrol]) (by rw [hcontrol]) fun _ point hpoint => ?_
  · by_cases hsession : t.session? = some s
    · exact reader_of_arrives (hnew t ht hsession)
    · exact reader_of_session hsession
  · cases hnew _ hmem rfl
  · rwa [← hout]
  · rwa [hcontrol]

/-- The session is accepted. -/
theorem Retained.accepts (h : Retained config sv (.accept s ::ₘ R) s)
    (hone : weight (reader s) (([.reader s .postRead] : List (Task ι)) + R) ≤ 1)
    (hnot : (sv.control s).accepted = false) :
    Retained config (sv.modify s fun c =>
        { c with accepted := true, registered := true, state := .handshaking })
      (([.reader s .postRead] : List (Task ι)) + R) s := by
  have hnone : ∀ point, .reader s point ∉ R := by
    intro point hmem
    have hle : reader s (.reader s point) ≤ weight (reader s) R := le_weight hmem
    rw [weight_add, weight_coe] at hone
    simp only [List.map_cons, List.map_nil, List.sum_cons, List.sum_nil, reader_self] at hone hle
    omega
  have hholds : (sv.out.sessions s).disconnectStarted = false →
      Holds config { sv.control s with accepted := true, registered := true, state := .handshaking }
        .postRead := by
    intro hopen
    have hbefore := h.behind hopen fun point hmem =>
      hnone point ((Multiset.mem_cons.1 hmem).resolve_left (by intro heq; cases heq))
    have hsorted : Sorted (sv.control s) := hbefore.placed
    -- nothing was read before the accept, so no fragment is open
    have hcovered : Covered config (sv.control s) :=
      covered_of_empty hbefore.balanced (hsorted.fragment (by rw [h.fresh hnot]; decide))
    exact ⟨hbefore.raw, hbefore.webSocket, hsorted.congr ⟨rfl, rfl, rfl, rfl⟩, Or.inl hcovered⟩
  refine ⟨?_, fun hfalse => ?_, fun hmem => ?_, fun hopen point hmem => ?_, fun hopen hnone' => ?_⟩
  · rw [modify_self]
    exact hone
  · rw [modify_self] at hfalse
    cases hfalse
  · rcases Multiset.mem_add.1 hmem with hnew | hrest
    · cases List.mem_singleton.1 hnew
    · exact h.releasing (Multiset.mem_cons_of_mem hrest)
  · rw [modify_self]
    rcases Multiset.mem_add.1 hmem with hnew | hrest
    · injection List.mem_singleton.1 hnew with _ hpoint
      rw [hpoint]
      exact hholds hopen
    · exact absurd hrest (hnone point)
  · rw [modify_self]
    exact hholds hopen

omit [DecidableEq ι] in
/-- `ProcessDetection` adds the bytes of a read to its buffer. -/
theorem Holds.buffers {c : Control} {bytes : Bytes} (h : Holds config c (.processDetection bytes))
    (hroom : (c.detectionBuffer ++ bytes).length ≤ config.maxSessionInboundBytes.toNat) :
    Holds config { c with detectionBuffer := c.detectionBuffer ++ bytes }
      (.updateInbound (c.detectionBuffer ++ bytes).length .detect) := by
  obtain ⟨htransport, hsorted⟩ := h.placed
  have hraw := hsorted.rawTcp (by simp [htransport])
  have hwebSocket := hsorted.webSocket (by simp [htransport])
  refine ⟨h.raw, h.webSocket, ⟨(by intro _ _ heq; cases heq), htransport, ?_⟩, ?_, hroom⟩
  · exact ⟨fun hne => absurd htransport hne, hsorted.rawTcp, hsorted.webSocket⟩
  · rw [WebSocketDecoder.held] at hwebSocket
    dsimp only
    omega

omit [DecidableEq ι] in
/-- `ProcessDetection` stores the transport and opens the session. -/
theorem Holds.stores {c : Control} {transport : TransportKind} {consumed : ℕ}
    (h : Holds config c (.store transport consumed)) :
    Holds config { c with transport := transport } (.storeOpen transport consumed) := by
  obtain ⟨hne, htransport, hsorted⟩ := h.placed
  exact ⟨h.raw, h.webSocket, ⟨hne, rfl, hsorted.rawTcp (by simp [htransport]),
    hsorted.webSocket (by simp [htransport])⟩, h.balanced⟩

omit [DecidableEq ι] in
theorem Holds.opens {c : Control} {transport : TransportKind} {consumed : ℕ}
    (h : Holds config c (.storeOpen transport consumed)) :
    Holds config { c with state := .opened } (.leave transport consumed) := by
  obtain ⟨hne, htransport, hraw, hheld⟩ := h.placed
  have hempty : c.webSocketDecoder.fragmentedPayload = [] := by
    rw [WebSocketDecoder.held] at hheld
    exact List.length_eq_zero_iff.1 (by omega)
  have hcovered : Covered config c := covered_of_empty h.balanced hempty
  exact ⟨h.raw, h.webSocket, ⟨hne, htransport, hraw, hheld⟩, Or.inl hcovered⟩

omit [DecidableEq ι] in
/-- `ProcessDetection` leaves its buffer. -/
theorem Holds.leaves {c : Control} {transport : TransportKind} {consumed : ℕ}
    (h : Holds config c (.leave transport consumed)) (remaining : Bytes) :
    Holds config { c with detectionBuffer := [] } (handOver transport remaining) := by
  obtain ⟨hne, htransport, hraw, hheld⟩ := h.placed
  have hsorted : Sorted { c with detectionBuffer := [] } :=
    ⟨fun _ => rfl, fun _ => hraw, fun _ => hheld⟩
  have hsum : ([] : Bytes).length + c.rawDecoder.bufferedBytes + c.webSocketDecoder.bufferedBytes =
      0 := by
    rw [WebSocketDecoder.held] at hheld
    simp only [List.length_nil]
    omega
  refine ⟨h.raw, h.webSocket, ?_, hsum, Nat.zero_le _⟩
  cases transport with
  | detecting => exact absurd rfl hne
  | rawTcp => exact ⟨(by intro _ _ heq; cases heq), htransport, hsorted⟩
  | webSocket =>
      unfold handOver
      dsimp only
      split
      · exact ⟨(by intro _ _ heq; cases heq), hsorted⟩
      · exact ⟨(by intro _ _ heq; cases heq), htransport, hsorted⟩

omit [DecidableEq ι] in
/-- A call leaves the state alone, or it ends the session. -/
theorem callStep_ending {x : Choice ι} {started : Bool} {c : Control} {state : SessionState}
    (h : callStep config x started c task = some (state, new)) :
    state = c.state ∨ state.ending = true := by
  cases task with
  | sendControl s' opcode payload closeAfter =>
      simp only [callStep] at h
      split_ifs at h
      · exact Or.inl (Prod.mk.inj (Option.some.inj h)).1.symm
      · exact Or.inr ((Prod.mk.inj (Option.some.inj h)).1 ▸ rfl)
      · exact Or.inl (Prod.mk.inj (Option.some.inj h)).1.symm
  | timerState s' =>
      simp only [callStep] at h
      split at h <;> exact Or.inl (Prod.mk.inj (Option.some.inj h)).1.symm
  | timerTransport s' =>
      simp only [callStep] at h
      split at h <;> exact Or.inl (Prod.mk.inj (Option.some.inj h)).1.symm
  | storeClosed s' => exact Or.inr ((Prod.mk.inj (Option.some.inj h)).1 ▸ rfl)
  | send | sendState | sendTransport | close | closeTransport | timer =>
      exact Or.inl (Prod.mk.inj (Option.some.inj h)).1.symm
  | _ => cases h

/-- **Every step keeps the input covered**, if it sets no account while a fragment waits. -/
theorem Retained.step (hstep : Step config sv task sv' new) (hok : accountsAll sv task = true)
    (h : Retained config sv (task ::ₘ R) s) : Retained config sv' (new + R) s := by
  by_cases hs : task.session? = some s
  · have hone := hstep.oneReader h.oneReader
    cases hstep with
    | arrives harrival => cases hs
    | @acts action out next houtside hkeep hact =>
        refine h.quiet hone rfl (fun t ht => ?_) (fun hmem => ?_) (fun hopen => ?_) rfl rfl
          fun _ _ hpoint => hpoint
        · obtain ⟨q, -, rfl⟩ := List.mem_map.1 ht
          rfl
        · obtain ⟨q, -, hq⟩ := List.mem_map.1 hmem
          cases hq
        · rwa [← hact.disconnectStarted (hkeep s)]
    | @disconnects s' hstarted =>
        obtain rfl := Option.some.inj hs
        refine h.quiet hone rfl (fun t ht => ?_) (fun _ => by simp) (fun _ => hstarted) rfl rfl
          fun _ _ hpoint => hpoint
        simp only [List.mem_cons, List.not_mem_nil, or_false] at ht
        rcases ht with rfl | rfl | rfl | rfl <;> rfl
    | @accepts s' hnot =>
        obtain rfl := Option.some.inj hs
        rw [modify_self] at hone
        exact h.accepts hone hnot
    | @posts s' hsocket =>
        obtain rfl := Option.some.inj hs
        refine h.turn hone rfl (by simp) rfl fun _ hpoint => ?_
        exact Holds.goes_on ⟨hpoint.raw, hpoint.webSocket, hpoint.placed, hpoint.balanced⟩
    | notPosted s' =>
        obtain rfl := Option.some.inj hs
        exact h.turn hone rfl (by simp [disconnect]) rfl
          fun _ hpoint => hpoint.gives_up
    | reads s' succeeded hlen =>
        obtain rfl := Option.some.inj hs
        refine h.turn hone rfl (by simp) rfl fun _ hpoint => ?_
        exact Holds.goes_on ⟨hpoint.raw, hpoint.webSocket, hpoint.placed, hpoint.balanced⟩
    | overflows s' bytes =>
        obtain rfl := Option.some.inj hs
        refine h.turn hone rfl (fun hmem => ?_) rfl fun _ hpoint => ?_
        · rcases List.mem_pair.1 hmem with heq | heq <;> cases heq
        · exact (hpoint.stops hpoint.placed.2 (by intro _ _ heq; cases heq)).goes_behind rfl
    | buffers s' bytes hroom =>
        obtain rfl := Option.some.inj hs
        refine h.turn hone (by rw [modify_self]) (by simp) rfl
          fun _ hpoint => ?_
        rw [modify_self]
        exact (hpoint.buffers hroom).goes_on
    | @greets s' result out next hact =>
        obtain rfl := Option.some.inj hs
        refine h.turn hone (by simp) (fun hmem => ?_)
          (hact.disconnectStarted (by intro heq; cases heq)) fun _ hpoint => ?_
        · rcases List.mem_append.1 hmem with hcall | hlast
          · obtain ⟨q, -, hq⟩ := List.mem_map.1 hcall
            cases hq
          · cases List.mem_singleton.1 hlast
        · have hstore : Holds config (sv.control s') (.store .webSocket result.consumed) :=
            ⟨hpoint.raw, hpoint.webSocket, ⟨by decide, hpoint.placed⟩, hpoint.balanced⟩
          have hstore' : Holds config { sv.control s' with response := some result.response }
              (.store .webSocket result.consumed) :=
            hstore.congr ⟨rfl, rfl, rfl, rfl⟩ rfl (Or.inl rfl)
          simp only [modify_self]
          refine hstore'.goes _ fun point hmem => ?_
          obtain ⟨q, -, hq⟩ := List.mem_map.1 hmem
          cases hq
    | stores s' transport consumed =>
        obtain rfl := Option.some.inj hs
        refine h.turn hone (by rw [modify_self]) (by simp) rfl
          fun _ hpoint => ?_
        rw [modify_self]
        exact hpoint.stores.goes_on
    | opens s' transport consumed =>
        obtain rfl := Option.some.inj hs
        refine h.turn hone (by rw [modify_self]) (by simp) rfl
          fun _ hpoint => ?_
        rw [modify_self]
        exact hpoint.opens.goes_on
    | leaves s' transport consumed =>
        obtain rfl := Option.some.inj hs
        refine h.turn hone (by rw [modify_self]) (by simp) rfl
          fun _ hpoint => ?_
        rw [modify_self]
        exact (hpoint.leaves _).goes_on
    | updates s' bytes rest =>
        obtain rfl := Option.some.inj hs
        obtain ⟨total, htotal⟩ := updateInboundAccounting_eq config sv s' bytes
        refine h.turn hone (by rw [htotal]; simp) (fun hmem => ?_) (by rw [htotal]; rfl)
          fun hopen hpoint => ?_
        · rcases List.mem_append.1 hmem with hcall | hlast
          · split at hcall
            · cases List.mem_singleton.1 hcall
            · cases hcall
          · cases List.mem_singleton.1 hlast
        · -- the account is set: no fragment is open, or the session is disconnected
          simp only [accountsAll, hopen, Bool.or_false, Bool.or_eq_true, List.isEmpty_iff] at hok
          rw [htotal]
          simp only [modify_self]
          refine (hpoint.account hok).goes _ fun point hmem => ?_
          split at hmem
          · cases List.mem_singleton.1 hmem
          · cases hmem
    | @handles x s' point c new hlocal =>
        obtain rfl := Option.some.inj hs
        obtain ⟨hkept, hproceeds⟩ := localStep_spec hlocal
        refine h.turn hone (by rw [modify_self, hkept.accepted]) (fun hmem => ?_) rfl
          fun hopen hpoint => ?_
        · rcases hproceeds with rfl | ⟨calls, point', rfl, hcalls, -⟩
          · cases List.mem_singleton.1 hmem
          · rcases List.mem_append.1 hmem with hcall | hlast
            · cases hcalls with
              | nothing => cases hcall
              | _ => cases List.mem_singleton.1 hcall
            · cases List.mem_singleton.1 hlast
        · rw [modify_self]
          rw [hopen] at hlocal
          exact hpoint.localStep hlocal
    | removes s' =>
        obtain rfl := Option.some.inj hs
        refine h.quiet hone rfl (by intro t ht; cases ht) (by intro hmem; cases hmem) id
          (by rw [modify_self]) (by rw [modify_self]) fun _ point hpoint => ?_
        rw [modify_self]
        exact hpoint.congr ⟨rfl, rfl, rfl, rfl⟩ rfl (Or.inl rfl)
    | releases s' =>
        obtain rfl := Option.some.inj hs
        have hstarted := h.releasing (Multiset.mem_cons_self _ R)
        obtain ⟨total, htotal⟩ := updateInboundAccounting_eq config sv s' 0
        have hout : (updateInboundAccounting config sv s' 0).1.out = sv.out := by
          rw [htotal]
          rfl
        refine h.quiet hone rfl (by intro t ht; cases ht) (by intro hmem; cases hmem)
          (fun hopen => by rwa [hout] at hopen) (by rw [htotal]; simp) (by rw [htotal]; simp)
          fun hopen => ?_
        -- only `Disconnect` gets here, and a disconnected session is not covered any more
        rw [hout, hstarted] at hopen
        cases hopen
    | @calls x s' task state new hsession hcall =>
        obtain rfl := Option.some.inj (hs.symm.trans hsession)
        have hleads := callStep_spec hcall
        refine h.quiet hone ?_ (fun t ht => (hleads t ht).reader_eq_zero) (fun hmem => ?_) id
          (by rw [modify_self]) (by rw [modify_self]) fun _ point hpoint => ?_
        · cases task with
          | reader => cases hcall
          | _ => rfl
        · cases hleads _ hmem
        · rw [modify_self]
          exact hpoint.congr ⟨rfl, rfl, rfl, rfl⟩ rfl (callStep_ending hcall)
  · exact h.other hstep hs

end Steps

/-! ### Whole runs -/

/-- The session is connected and not closing, and the handling of its last read is over. -/
structure Resting (c : Config (Server ι) (Task ι)) (s : ι) : Prop where
  connected : (c.shared.out.sessions s).disconnectStarted = false
  notClosing : (c.shared.control s).state.ending = false
  idle : ∀ point, .reader s point ∈ c.pending → point.idle = true

omit [DecidableEq ι] in
theorem holds_fresh (config : ServerConfig) :
    Holds config (Control.fresh config) .postRead := by
  refine ⟨⟨rfl, le_rfl, Nat.zero_le _⟩, ⟨rfl, le_rfl, Nat.zero_le _⟩, ⟨?_, ?_, ?_⟩, Or.inl ⟨?_, ?_⟩⟩
  · exact fun hne => absurd rfl hne
  · exact fun _ => rfl
  · exact fun _ => rfl
  · exact Nat.zero_le _
  · exact Nat.zero_le _

/-- Between its reads, the input of a session is covered. -/
theorem Retained.covered {config : ServerConfig} {c : Config (Server ι) (Task ι)} {s : ι}
    (h : Retained config c.shared c.pending s) (hresting : Resting c s) :
    Covered config (c.shared.control s) := by
  have hfine : Covered config (c.shared.control s) ∨ (c.shared.control s).state.ending = true ∧
      (c.shared.control s).webSocketDecoder.fragmentedPayload ≠ [] := by
    by_cases hreader : ∃ point, .reader s point ∈ c.pending
    · obtain ⟨point, hmem⟩ := hreader
      have hbalanced := (h.holds hresting.connected point hmem).balanced
      have hidle := hresting.idle point hmem
      cases point with
      | postRead | reading | handleRead => exact hbalanced
      | _ => cases hidle
    · exact (h.behind hresting.connected fun point hmem => hreader ⟨point, hmem⟩).balanced
  rcases hfine with hcovered | ⟨hending, -⟩
  · exact hcovered
  · rw [hresting.notClosing] at hending
    cases hending

/-- **The limits cover everything the sessions retain**, in every run in which no fragment waits
when the account of an open session is set. -/
theorem retained_covered [Fintype ι] (config : ServerConfig) (moves : List (ℕ × Choice ι))
    {c : Config (Server ι) (Task ι)}
    (hok : (program config).AllMeet (fun _ t sv _ => accountsAll sv t = true) moves (start config))
    (hrun : (program config).run moves (start config) = some c) :
    (∀ s, Resting c s → retained (c.shared.control s) ≤ config.maxSessionInboundBytes.toNat ∧
        retained (c.shared.control s) ≤ (c.shared.control s).inboundAccounted) ∧
      ∀ S : Finset ι, (∀ s ∈ S, Resting c s) →
        ∑ s ∈ S, retained (c.shared.control s) ≤ c.shared.inboundBytes := by
  have hall : ∀ s, Retained config c.shared c.pending s := by
    intro s
    refine Program.invariant_of_allMeet (I := fun sv P => Retained config sv P s)
      (fun x p sv R o hexec haccounts h => ?_) moves hok ?_ hrun
    · rw [Multiset.coe_add]
      exact h.step (exec_step hexec) haccounts
    · refine ⟨Nat.zero_le _, fun _ => rfl, fun hmem => ?_, fun _ point hmem => ?_,
        fun _ _ => holds_fresh config⟩
      · cases List.mem_singleton.1 hmem
      · cases List.mem_singleton.1 hmem
  have htotal : c.shared.inboundBytes = ∑ s, (c.shared.control s).inboundAccounted := by
    refine Program.invariant (I := fun sv _ =>
      sv.inboundBytes = ∑ s, (sv.control s).inboundAccounted) (fun x p sv R o hexec h => ?_) moves ?_
      hrun
    · exact (exec_step hexec).total h
    · exact (Finset.sum_eq_zero fun s _ => rfl).symm
  refine ⟨fun s hresting => ((hall s).covered hresting).symm, fun S hS => ?_⟩
  calc ∑ s ∈ S, retained (c.shared.control s)
      ≤ ∑ s ∈ S, (c.shared.control s).inboundAccounted :=
        Finset.sum_le_sum fun s hs => ((hall s).covered (hS s hs)).1
    _ ≤ ∑ s, (c.shared.control s).inboundAccounted :=
        Finset.sum_le_sum_of_subset (Finset.subset_univ S)
    _ = c.shared.inboundBytes := htotal.symm

/-- The task handles no read, or the read of a session between two reads. -/
def Task.between : Task ι → Bool
  | .reader _ point => point.idle
  | _ => true

omit [DecidableEq ι] in
theorem resting_of_between {c : Config (Server ι) (Task ι)} {s : ι}
    (hconnected : (c.shared.out.sessions s).disconnectStarted = false)
    (hstate : (c.shared.control s).state.ending = false)
    (hbetween : (c.threads.flatten.all fun t => t.between) = true) : Resting c s :=
  ⟨hconnected, hstate, fun _ hmem => List.all_eq_true.1 hbetween _ hmem⟩

/-- The three bytes of an incomplete raw message are covered. -/
theorem retained_covered_incompleteMessage :
    ∃ c, (program {}).run incompleteMessage (start {}) = some c ∧ Resting c false ∧
      retained (c.shared.control false) = 3 ∧
      retained (c.shared.control false) ≤ (c.shared.control false).inboundAccounted := by
  have hobserved : ((program {}).run incompleteMessage (start {})).map (fun c =>
      ((c.shared.out.sessions false).disconnectStarted, (c.shared.control false).state.ending,
        c.threads.flatten.all fun t => t.between, retained (c.shared.control false))) =
      some (false, false, true, 3) := by
    decide +kernel
  obtain ⟨c, hrun, hc⟩ := Option.map_eq_some_iff.1 hobserved
  simp only [Prod.mk.injEq] at hc
  obtain ⟨hconnected, hstate, hbetween, hretained⟩ := hc
  have hresting := resting_of_between hconnected hstate hbetween
  have hok := Program.allMeet_of_meets (P := program {}) (fun _ t sv => accountsAll sv t)
    incompleteMessage (c := start {}) (by decide +kernel)
  exact ⟨c, hrun, hresting, hretained,
    ((retained_covered {} incompleteMessage hok hrun).1 false hresting).2⟩

/-- A session is upgraded, and the first fragment of a message comes with its request. -/
def fragmentRead : List (ℕ × Choice Bool) :=
  firstRead false 1 (upgradeRequest ++ [0x02, 0x85, 0, 0, 0, 0, 1, 2, 3, 4, 5]) ++
    [(2, .passes), (2, .out .succeeds), (2, .out .succeeds), (2, .out .succeeds),
      (2, .out .succeeds)] ++ List.replicate 12 (2, .passes)

/-- **A fragment that no account covers**: the session is open and waits for its next read, it
retains five bytes, and neither its account nor the sum of the server knows of them. -/
theorem fragment_uncovered :
    ∃ c, (program {}).run fragmentRead (start {}) = some c ∧
      ({} : ServerConfig).maxMessageBytes ≤ ({} : ServerConfig).maxSessionInboundBytes ∧
      Resting c false ∧ (c.shared.control false).state = .opened ∧
      retained (c.shared.control false) = 5 ∧
      (c.shared.control false).inboundAccounted = 0 ∧ c.shared.inboundBytes = 0 := by
  have hobserved : ((program {}).run fragmentRead (start {})).map (fun c =>
      ((c.shared.out.sessions false).disconnectStarted, c.threads.flatten.all fun t => t.between,
        (c.shared.control false).state, retained (c.shared.control false),
        (c.shared.control false).inboundAccounted, c.shared.inboundBytes)) =
      some (false, true, .opened, 5, 0, 0) := by
    decide +kernel
  obtain ⟨c, hrun, hc⟩ := Option.map_eq_some_iff.1 hobserved
  simp only [Prod.mk.injEq] at hc
  obtain ⟨hconnected, hbetween, hopen, hretained, haccount, htotal⟩ := hc
  have hstate : (c.shared.control false).state.ending = false := by rw [hopen]; rfl
  exact ⟨c, hrun, by decide, resting_of_between hconnected hstate hbetween, hopen, hretained,
    haccount, htotal⟩

end ServerSteps

end RealtimeEngine
