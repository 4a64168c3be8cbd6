/-
**WebSocket frames on a stream.**

The bytes of a WebSocket session arrive in chunks, and `Next` is called behind each `Append` until
it has no event to report.  The decoder is stated here without its buffer, as a consumer in the
sense of `RealtimeEngine/StreamConsumer.lean` whose turn is one frame: so the events, the error and
the bytes that are left are a matter of the stream, and neither the chunks nor the compaction of the
buffer show in them.

Main definitions:

* `RealtimeEngine.WebSocketDecoder.bare` — the decoder without its buffer;
* `RealtimeEngine.WebSocketDecoder.Decoding` — a decoder fed chunk by chunk;
* `RealtimeEngine.WebSocketDecoder.eventConsumer` — the consumer.

Main results:

* `RealtimeEngine.WebSocketDecoder.next_cases` — what one call of `Next` does;
* `RealtimeEngine.WebSocketDecoder.decode_follows` — **the loop follows the consumer**;
* `RealtimeEngine.WebSocketDecoder.events_of_stream` — **the events do not depend on the cut**, and
  no `Append` fails while the buffer holds a frame and a chunk.
-/

import RealtimeEngine.StreamConsumer
import RealtimeEngine.WebSocketDecoder

set_option relaxedAutoImplicit false
set_option autoImplicit false

namespace RealtimeEngine

open StreamConsumer

namespace WebSocketDecoder

/-! ### A decoder without its buffer -/

/-- The decoder without its buffer. -/
def bare (d : WebSocketDecoder) : WebSocketDecoder := { d with buffer := [], cursor := 0 }

theorem dispatch_bare (fin : Bool) (opcode : WsOpcode) (payload : Bytes) (d : WebSocketDecoder) :
    d.bare.dispatch fin opcode payload =
      ((d.dispatch fin opcode payload).1, (d.dispatch fin opcode payload).2.bare) := by
  obtain ⟨M, _, _, _, _, fragmented, fragmentedOpcode, fragmentedPayload, _⟩ := d
  cases opcode with
  | text => rfl
  | continuation =>
      cases fragmented with
      | false => rfl
      | true =>
          by_cases hlarge : payload.length > M - fragmentedPayload.length
          · simp [dispatch, bare, hlarge]
          · cases fin with
            | false => simp [dispatch, bare, hlarge]
            | true =>
                by_cases hbinary : fragmentedOpcode = .binary
                · simp [dispatch, bare, hlarge, hbinary]
                · simp [dispatch, bare, hlarge, hbinary]
  | binary =>
      cases fragmented with
      | false => cases fin <;> rfl
      | true => rfl
  | close => rfl
  | ping => rfl
  | pong => rfl

/-- The decoder has not failed, and its cursor is in its buffer. -/
structure Sound (d : WebSocketDecoder) : Prop where
  limit : d.limitExceeded = false
  cursor : d.cursor ≤ d.buffer.length

theorem compactIfUseful_eq {d : WebSocketDecoder} (hd : d.Sound) :
    d.compactIfUseful.Sound ∧ d.compactIfUseful.bare = d.bare ∧
      d.compactIfUseful.available = d.available := by
  unfold compactIfUseful
  split
  · exact ⟨hd, rfl, rfl⟩
  · split
    · next hend => exact ⟨⟨hd.limit, le_rfl⟩, rfl, by simp [available, hend]⟩
    · split
      · exact ⟨⟨hd.limit, Nat.zero_le _⟩, rfl, rfl⟩
      · exact ⟨hd, rfl, rfl⟩

/-- What `Append` does when it does not fail. -/
theorem append_eq {d d' : WebSocketDecoder} {bytes : Bytes} (hd : d.Sound)
    (h : d.append bytes = (true, d')) :
    d'.Sound ∧ d'.bare = d.bare ∧ d'.available = d.available ++ bytes := by
  obtain ⟨hsound, hbare, havailable⟩ := compactIfUseful_eq hd
  unfold append at h
  dsimp only at h
  split at h
  · cases h
  · obtain ⟨-, rfl⟩ := Prod.mk.inj h
    refine ⟨⟨hsound.limit, ?_⟩, hbare, ?_⟩
    · rw [List.length_append]
      exact hsound.cursor.trans (Nat.le_add_right _ _)
    · rw [← havailable]
      exact List.drop_append_of_le_length hsound.cursor

/-- A frame behind the cursor is behind it, in the buffer. -/
theorem Sound.dispatch {d : WebSocketDecoder} (hd : d.Sound) {fin : Bool} {opcode : WsOpcode}
    {payload : Bytes} {totalSize : ℕ}
    (h : readFrame d.requireMasking d.maxMessageBytes d.available =
      .frame fin opcode payload totalSize) :
    ((d.advance totalSize).dispatch fin opcode payload).2.Sound := by
  have hle := (readFrame_size h).2
  rw [length_available, bufferedBytes] at hle
  have hcursor := hd.cursor
  have hframe := dispatch_frame fin opcode payload (d.advance totalSize)
  refine ⟨by rw [hframe]; exact hd.limit, ?_⟩
  rw [hframe]
  show d.cursor + totalSize ≤ d.buffer.length
  omega

/-- `Append` fails when the bytes do not fit behind those that are not read yet. -/
theorem append_fails_iff {d : WebSocketDecoder} (hd : d.Sound) (bytes : Bytes) :
    (d.append bytes).1 = false ↔ d.maxBufferedBytes < d.bufferedBytes + bytes.length := by
  obtain ⟨-, hbare, havailable⟩ := compactIfUseful_eq hd
  have hbuffered : d.compactIfUseful.bufferedBytes = d.bufferedBytes := by
    rw [← length_available, havailable, length_available]
  have hmax : d.compactIfUseful.maxBufferedBytes = d.maxBufferedBytes :=
    congrArg (fun d => d.maxBufferedBytes) hbare
  unfold append
  dsimp only
  rw [hbuffered, hmax]
  split
  · next hlimit => exact ⟨fun _ => (by omega), fun _ => rfl⟩
  · next hlimit => exact ⟨fun h => (by cases h), fun h => absurd h (by omega)⟩

/-- The decoder behind a frame of so many bytes. -/
structure Behind (d d' : WebSocketDecoder) (size : ℕ) : Prop where
  sound : d'.Sound
  available : d'.available = d.available.drop size
  bufferedBytes : d'.bufferedBytes < d.bufferedBytes

/-- **What a call of `Next` does**: it waits, it refuses a header, it stores a fragment and starts
again, or it reports what has become of a frame. -/
theorem next_cases {d : WebSocketDecoder} (hd : d.Sound) :
    let read := readFrame d.requireMasking d.maxMessageBytes d.available
    read = .needMoreData ∧ d.next = ⟨.needMoreData, {}, "", d⟩ ∨
    (∃ status error, read = .failed status error ∧ d.next = ⟨status, {}, error, d⟩ ∧
      status ≠ .needMoreData ∧ status ≠ .eventReady) ∨
    (∃ fin opcode payload size d', read = .frame fin opcode payload size ∧
      d.bare.dispatch fin opcode payload = (none, d'.bare) ∧ d.next = d'.next ∧
      Behind d d' size) ∨
    ∃ fin opcode payload size status event error d', read = .frame fin opcode payload size ∧
      d.bare.dispatch fin opcode payload = (some (status, event, error), d'.bare) ∧
      d.next = ⟨status, event, error, d'⟩ ∧ status ≠ .needMoreData ∧ Behind d d' size := by
  have hnext := next_eq hd.limit
  cases hread : readFrame d.requireMasking d.maxMessageBytes d.available with
  | needMoreData =>
      rw [hread] at hnext
      exact Or.inl ⟨rfl, hnext⟩
  | failed status error =>
      rw [hread] at hnext
      refine Or.inr (Or.inl ⟨status, error, rfl, hnext, ?_⟩)
      rcases readFrame_failed hread with rfl | rfl
      · exact ⟨by decide, by decide⟩
      · exact ⟨by decide, by decide⟩
  | frame fin opcode payload size =>
      have hless := bufferedBytes_dispatch hread
      have hsound := hd.dispatch hread
      have hrest := (dispatch_advance size fin opcode payload d).1
      have hbare := (d.advance size).dispatch_bare fin opcode payload
      rw [hread] at hnext
      dsimp only at hnext
      cases hdispatch : (d.advance size).dispatch fin opcode payload with
      | mk outcome d' =>
          rw [hdispatch] at hless hsound hrest hnext hbare
          have hbehind : Behind d d' size := ⟨hsound, hrest, by dsimp only at hless; omega⟩
          cases outcome with
          -- a fragment goes on with the next frame
          | none =>
              exact Or.inr (Or.inr (Or.inl
                ⟨fin, opcode, payload, size, d', rfl, hbare, hnext, hbehind⟩))
          | some result =>
              obtain ⟨status, event, error⟩ := result
              have hmore : status ≠ .needMoreData :=
                dispatch_status (r := (status, event, error)) (by rw [hdispatch])
              exact Or.inr (Or.inr (Or.inr ⟨fin, opcode, payload, size, status, event, error, d', rfl,
                hbare, hnext, hmore, hbehind⟩))

/-! ### Chunk by chunk -/

/-- A decoder that is fed: the events so far, the last status with its error, and whether `Append`
has failed. -/
structure Decoding where
  decoder : WebSocketDecoder
  events : List WsEvent := []
  status : WsParseStatus := .needMoreData
  error : String := ""
  refused : Bool := false
  deriving DecidableEq, Repr

/-- One more chunk, unless the decoder has failed before. -/
def Decoding.feed (s : Decoding) (chunk : Bytes) : Decoding :=
  if s.refused ∨ s.status ≠ .needMoreData then s
  else
    let (appended, d) := s.decoder.append chunk
    if !appended then { s with decoder := d, refused := true }
    else
      let (events, last) := d.drain
      { decoder := last.decoder, events := s.events ++ events, status := last.status
        error := last.error }

/-- A fresh decoder behind some chunks. -/
def decode (maxMessageBytes maxBufferedBytes : ℕ) (requireMasking : Bool) (chunks : List Bytes) :
    Decoding :=
  chunks.foldl Decoding.feed { decoder := { maxMessageBytes, maxBufferedBytes, requireMasking } }

/-! ### The consumer -/

/-- What the frames so far have come to. -/
structure Decoded where
  decoder : WebSocketDecoder
  events : List WsEvent := []
  status : WsParseStatus := .needMoreData
  error : String := ""

/-- One frame of the stream; the decoder of the state has no buffer. -/
def frameTurn (s : Decoded) (data : Bytes) : Turn Decoded :=
  match readFrame s.decoder.requireMasking s.decoder.maxMessageBytes data with
  | .needMoreData => .wait
  | .failed status error => .halt { s with status := status, error := error }
  | .frame fin opcode payload totalSize =>
      match s.decoder.dispatch fin opcode payload with
      | (none, d) => .consume { s with decoder := d } totalSize
      | (some (status, event, error), d) =>
          if status = .eventReady then
            .consume { s with decoder := d, events := s.events ++ [event] } totalSize
          else .halt { s with decoder := d, status := status, error := error }

theorem frameTurn_append {s : Decoded} {data : Bytes} (h : frameTurn s data ≠ .wait)
    (more : Bytes) : frameTurn s (data ++ more) = frameTurn s data := by
  have hread : readFrame s.decoder.requireMasking s.decoder.maxMessageBytes data ≠
      .needMoreData := fun hmore => h (by rw [frameTurn, hmore])
  rw [frameTurn, frameTurn, readFrame_append hread more]

/-- The consumer of a stream of frames. -/
def eventConsumer : Consumer Decoded UInt8 where
  turn := frameTurn
  consumes {s s'} {data} {n} h := by
    unfold frameTurn at h
    split at h
    · cases h
    · cases h
    · next hread =>
        obtain ⟨htwo, hle⟩ := readFrame_size hread
        split at h
        · obtain ⟨-, rfl⟩ := Turn.consume.inj h
          exact ⟨by omega, hle⟩
        · split at h
          · obtain ⟨-, rfl⟩ := Turn.consume.inj h
            exact ⟨by omega, hle⟩
          · cases h
  halt_append h more := by rw [frameTurn_append (by simp [h]) more, h]
  consume_append h more := by rw [frameTurn_append (by simp [h]) more, h]

@[simp] theorem eventConsumer_turn : eventConsumer.turn = frameTurn := rfl

/-! ### The loop follows the consumer -/

/-- Where the consumer of a decoder stands. -/
def Follows (M B : ℕ) (s : Decoding) : Fed Decoded UInt8 → Prop
  | .halted c =>
      s.refused = false ∧ s.status ≠ .needMoreData ∧ s.status = c.status ∧ s.error = c.error ∧
        s.events = c.events
  | .waiting c rest =>
      s.refused = false ∧ s.decoder.Sound ∧ s.status = .needMoreData ∧ s.error = "" ∧
        s.decoder.available = rest ∧ c = { decoder := s.decoder.bare, events := s.events } ∧
        s.decoder.maxMessageBytes = M ∧ s.decoder.maxBufferedBytes = B ∧
        readFrame s.decoder.requireMasking M rest = .needMoreData

/-- A frame does not change the limits. -/
theorem dispatch_limits {d d' : WebSocketDecoder} {fin : Bool} {opcode : WsOpcode} {payload : Bytes}
    {outcome : Option (WsParseStatus × WsEvent × String)}
    (h : d.bare.dispatch fin opcode payload = (outcome, d'.bare)) :
    d'.maxMessageBytes = d.maxMessageBytes ∧ d'.maxBufferedBytes = d.maxBufferedBytes := by
  have hframe := dispatch_frame fin opcode payload d.bare
  rw [h] at hframe
  exact ⟨congrArg (fun d => d.maxMessageBytes) hframe,
    congrArg (fun d => d.maxBufferedBytes) hframe⟩

theorem drain_follows {d : WebSocketDecoder} (hd : d.Sound) (events : List WsEvent) :
    Follows d.maxMessageBytes d.maxBufferedBytes
      ⟨d.drain.2.decoder, events ++ d.drain.1, d.drain.2.status, d.drain.2.error, false⟩
      (eventConsumer.drain { decoder := d.bare, events := events } d.available) := by
  -- every frame shortens what is behind the cursor
  induction hbytes : d.bufferedBytes using Nat.strongRecOn generalizing d events with
  | _ bytes ih =>
      subst hbytes
      rw [Consumer.drain_eq, eventConsumer_turn, frameTurn]
      rcases next_cases hd with ⟨hread, hnext⟩ | ⟨status, error, hread, hnext, hmore, hevent⟩ |
        ⟨fin, opcode, payload, size, d', hread, hdispatch, hnext, hbehind⟩ |
        ⟨fin, opcode, payload, size, status, event, error, d', hread, hdispatch, hnext, hmore,
          hbehind⟩
      · have hdrain : d.drain = ([], d.next) := by
          rw [drain_eq, hnext, if_neg (by simp)]
        rw [hdrain, hnext, show readFrame d.bare.requireMasking d.bare.maxMessageBytes d.available =
          .needMoreData from hread]
        dsimp only
        rw [List.append_nil]
        exact ⟨rfl, hd, rfl, rfl, rfl, rfl, rfl, rfl, hread⟩
      · have hdrain : d.drain = ([], d.next) := by
          rw [drain_eq, hnext, if_neg hevent]
        rw [hdrain, hnext, show readFrame d.bare.requireMasking d.bare.maxMessageBytes d.available =
          .failed status error from hread]
        dsimp only
        rw [List.append_nil]
        exact ⟨rfl, hmore, rfl, rfl, rfl⟩
      · rw [drain_congr hnext, show readFrame d.bare.requireMasking d.bare.maxMessageBytes
          d.available = .frame fin opcode payload size from hread]
        dsimp only
        rw [hdispatch]
        dsimp only
        obtain ⟨hmessage, hbuffered⟩ := dispatch_limits hdispatch
        rw [Consumer.outcome, ← hbehind.available, ← hmessage, ← hbuffered]
        exact ih d'.bufferedBytes hbehind.bufferedBytes hbehind.sound events rfl
      · rw [show readFrame d.bare.requireMasking d.bare.maxMessageBytes d.available =
          .frame fin opcode payload size from hread]
        dsimp only
        rw [hdispatch]
        dsimp only
        by_cases hevent : status = .eventReady
        · have hdrain : d.drain = (event :: d'.drain.1, d'.drain.2) := by
            rw [drain_eq, hnext, if_pos hevent]
          have hfollows := ih d'.bufferedBytes hbehind.bufferedBytes hbehind.sound
            (events ++ [event]) rfl
          obtain ⟨hmessage, hbuffered⟩ := dispatch_limits hdispatch
          rw [List.append_assoc, hmessage, hbuffered] at hfollows
          rw [if_pos hevent, Consumer.outcome, ← hbehind.available, hdrain]
          exact hfollows
        · have hdrain : d.drain = ([], d.next) := by
            rw [drain_eq, hnext, if_neg hevent]
          rw [if_neg hevent, hdrain, hnext]
          dsimp only
          rw [List.append_nil]
          exact ⟨rfl, hmore, rfl, rfl, rfl⟩

variable {M B : ℕ} {s : Decoding} {f : Fed Decoded UInt8}

/-- A chunk more. -/
theorem Follows.feed (h : Follows M B s f) (chunk : Bytes) :
    (s.feed chunk).refused = true ∨ Follows M B (s.feed chunk) (eventConsumer.feed f chunk) := by
  cases f with
  | halted c =>
      rw [Decoding.feed, if_pos (Or.inr h.2.1)]
      exact Or.inr h
  | waiting c rest =>
      obtain ⟨hrefused, hsound, hstatus, -, rfl, rfl, rfl, rfl, -⟩ := h
      rw [Decoding.feed, if_neg (by simp [hrefused, hstatus])]
      cases happend : s.decoder.append chunk with
      | mk appended d =>
          cases appended with
          | false => exact Or.inl rfl
          | true =>
              obtain ⟨hsound', hbare, havailable⟩ := append_eq hsound happend
              have hfollows := drain_follows hsound' s.events
              rw [hbare, havailable,
                show d.maxMessageBytes = s.decoder.maxMessageBytes from
                  congrArg (fun d => d.maxMessageBytes) hbare,
                show d.maxBufferedBytes = s.decoder.maxBufferedBytes from
                  congrArg (fun d => d.maxBufferedBytes) hbare] at hfollows
              exact Or.inr hfollows

/-- There is room for a chunk behind what `Next` has left. -/
theorem Follows.feed_of_le (h : Follows M B s f) {R : ℕ} (hroom : M + 13 + R ≤ B) {chunk : Bytes}
    (hchunk : chunk.length ≤ R) : (s.feed chunk).refused = false := by
  cases f with
  | halted c =>
      rw [Decoding.feed, if_pos (Or.inr h.2.1)]
      exact h.1
  | waiting c rest =>
      obtain ⟨hrefused, hsound, hstatus, -, rfl, rfl, rfl, rfl, hread⟩ := h
      have hrest := readFrame_needMoreData hread
      rw [length_available] at hrest
      rw [Decoding.feed, if_neg (by simp [hrefused, hstatus])]
      cases happend : s.decoder.append chunk with
      | mk appended d =>
          cases appended with
          | true => rfl
          | false =>
              have hfails := (append_fails_iff hsound chunk).1 (by rw [happend])
              omega

theorem follows_fresh (M B : ℕ) (rm : Bool) :
    let fresh : WebSocketDecoder := ⟨M, B, rm, [], 0, false, .continuation, [], false⟩
    Follows M B { decoder := fresh } (eventConsumer.drain { decoder := fresh } []) :=
  ⟨rfl, ⟨rfl, le_rfl⟩, rfl, rfl, rfl, rfl, rfl, rfl, rfl⟩

/-- **The loop follows the consumer**, as long as no `Append` fails. -/
theorem decode_follows (M B : ℕ) (rm : Bool) (cut : List Bytes) :
    (decode M B rm cut).refused = true ∨
      Follows M B (decode M B rm cut) (eventConsumer.drain
        { decoder := ⟨M, B, rm, [], 0, false, .continuation, [], false⟩ } cut.flatten) := by
  refine eventConsumer.foldl_related
    (R := fun s f => s.refused = true ∨ Follows M B s f) cut ?_ _ []
    (Or.inr (follows_fresh M B rm))
  intro chunk _ s f h
  rcases h with hrefused | hfollows
  · rw [Decoding.feed, if_pos (Or.inl hrefused)]
    exact Or.inl hrefused
  · exact hfollows.feed chunk

/-- **No `Append` fails** when the buffer holds a frame and a chunk. -/
theorem decode_not_refused {R : ℕ} (hroom : M + 13 + R ≤ B) (rm : Bool) {cut : List Bytes}
    (hcut : ∀ chunk ∈ cut, chunk.length ≤ R) : (decode M B rm cut).refused = false := by
  refine (eventConsumer.foldl_related
    (R := fun s f => s.refused = false ∧ Follows M B s f) cut ?_ _ []
    ⟨rfl, follows_fresh M B rm⟩).1
  intro chunk hmem s f h
  have haccepted := h.2.feed_of_le hroom (hcut chunk hmem)
  refine ⟨haccepted, (h.2.feed chunk).resolve_left ?_⟩
  rw [haccepted]
  decide

/-- **The events do not depend on the cut**, nor do the last status, its error and the bytes that
are left; and no `Append` fails while the buffer holds a frame and a chunk. -/
theorem events_of_stream (M B : ℕ) (rm : Bool) (stream : Bytes) :
    (∀ cut cut' : List Bytes, cut.flatten = stream → cut'.flatten = stream →
      (decode M B rm cut).refused = false → (decode M B rm cut').refused = false →
        (decode M B rm cut).events = (decode M B rm cut').events ∧
        (decode M B rm cut).status = (decode M B rm cut').status ∧
        (decode M B rm cut).error = (decode M B rm cut').error ∧
        ((decode M B rm cut).status = .needMoreData →
          (decode M B rm cut).decoder.bufferedBytes =
            (decode M B rm cut').decoder.bufferedBytes)) ∧
    ∀ R, M + 13 + R ≤ B → ∀ cut : List Bytes, cut.flatten = stream →
      (∀ chunk ∈ cut, chunk.length ≤ R) → (decode M B rm cut).refused = false := by
  refine ⟨?_, fun R hroom cut _ hcut => decode_not_refused hroom rm hcut⟩
  intro cut cut' h h' hcut hcut'
  have hfollows := (decode_follows M B rm cut).resolve_left (by rw [hcut]; decide)
  have hfollows' := (decode_follows M B rm cut').resolve_left (by rw [hcut']; decide)
  rw [h] at hfollows
  rw [h'] at hfollows'
  cases hdrain : eventConsumer.drain
      { decoder := ⟨M, B, rm, [], 0, false, .continuation, [], false⟩ } stream with
  | halted c =>
      rw [hdrain] at hfollows hfollows'
      obtain ⟨-, hmore, hstatus, herror, hevents⟩ := hfollows
      obtain ⟨-, -, hstatus', herror', hevents'⟩ := hfollows'
      exact ⟨hevents.trans hevents'.symm, hstatus.trans hstatus'.symm, herror.trans herror'.symm,
        fun hwaiting => absurd hwaiting hmore⟩
  | waiting c rest =>
      rw [hdrain] at hfollows hfollows'
      obtain ⟨-, -, hstatus, herror, hrest, hc, -⟩ := hfollows
      obtain ⟨-, -, hstatus', herror', hrest', hc', -⟩ := hfollows'
      refine ⟨congrArg Decoded.events (hc.symm.trans hc'), hstatus.trans hstatus'.symm,
        herror.trans herror'.symm, fun _ => ?_⟩
      rw [← length_available, ← length_available, hrest, hrest']

/-- A masked message, in one chunk and in chunks that end inside its header. -/
theorem events_of_stream_binary :
    (decode 4 25 true [[0x82, 0x82, 0], [0, 0, 0, 7], [8]]).events =
      (decode 4 25 true [[0x82, 0x82, 0, 0, 0, 0, 7, 8]]).events := by
  obtain ⟨hcuts, hroom⟩ := events_of_stream 4 25 true [0x82, 0x82, 0, 0, 0, 0, 7, 8]
  exact (hcuts _ _ rfl rfl (hroom 8 (by decide) _ rfl (by decide))
    (hroom 8 (by decide) _ rfl (by decide))).1

end WebSocketDecoder

end RealtimeEngine
