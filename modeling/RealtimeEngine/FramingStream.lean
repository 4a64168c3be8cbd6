/-
**Length-prefixed frames on a stream.**

The bytes of a raw session arrive in chunks that have nothing to do with the messages.  Each chunk
goes through `Append`, and `Next` is called until it has no message to return.  The loop follows a
consumer in the sense of `RealtimeEngine/StreamConsumer.lean`, so its messages are a matter of the
stream alone; and since `Next` leaves less than one frame behind, `Append` finds room for a chunk as
long as the buffer is larger than a frame and a chunk.

Main definitions:

* `RealtimeEngine.LengthPrefixedAccumulator.drain` — `Next`, until it has no message to return;
* `RealtimeEngine.LengthPrefixedAccumulator.Decoding` — a decoder fed chunk by chunk.

Main results:

* `RealtimeEngine.LengthPrefixedAccumulator.decode_follows` — **the loop follows the consumer**;
* `RealtimeEngine.LengthPrefixedAccumulator.messages_roundTrip` — **every stream of messages is read
  back, however it is cut**, and two cuts of any stream agree.
-/

import RealtimeEngine.Framing
import RealtimeEngine.StreamConsumer

set_option relaxedAutoImplicit false
set_option autoImplicit false

namespace RealtimeEngine

open StreamConsumer

namespace LengthPrefixedAccumulator

/-! ### The buffer -/

/-- The decoder has not failed, and its cursor is in its buffer. -/
structure Sound (d : LengthPrefixedAccumulator) : Prop where
  limit : d.limitExceeded = false
  cursor : d.cursor ≤ d.buffer.length

theorem length_available (d : LengthPrefixedAccumulator) :
    d.available.length = d.bufferedBytes := by
  rw [available, bufferedBytes, List.length_drop]

theorem compactIfUseful_available (d : LengthPrefixedAccumulator) :
    d.compactIfUseful.available = d.available := by
  unfold compactIfUseful
  split
  · rfl
  · split
    · next hend => simp [available, hend]
    · split <;> rfl

theorem compactIfUseful_eq {d : LengthPrefixedAccumulator} (hd : d.Sound) :
    d.compactIfUseful.Sound ∧ d.compactIfUseful.maxMessageBytes = d.maxMessageBytes ∧
      d.compactIfUseful.maxBufferedBytes = d.maxBufferedBytes := by
  unfold compactIfUseful
  split
  · exact ⟨hd, rfl, rfl⟩
  · split
    · exact ⟨⟨hd.limit, le_rfl⟩, rfl, rfl⟩
    · split
      · exact ⟨⟨hd.limit, Nat.zero_le _⟩, rfl, rfl⟩
      · exact ⟨hd, rfl, rfl⟩

/-- What `Append` does when it does not fail. -/
theorem append_eq {d d' : LengthPrefixedAccumulator} {bytes : Bytes} (hd : d.Sound)
    (h : d.append bytes = (true, d')) :
    d'.Sound ∧ d'.maxMessageBytes = d.maxMessageBytes ∧
      d'.maxBufferedBytes = d.maxBufferedBytes ∧ d'.available = d.available ++ bytes := by
  obtain ⟨hsound, hmax, hbuffered⟩ := compactIfUseful_eq hd
  unfold append at h
  dsimp only at h
  split at h
  · cases h
  · obtain ⟨-, rfl⟩ := Prod.mk.inj h
    refine ⟨⟨hsound.limit, ?_⟩, hmax, hbuffered, ?_⟩
    · rw [List.length_append]
      exact hsound.cursor.trans (Nat.le_add_right _ _)
    · rw [← compactIfUseful_available d]
      exact List.drop_append_of_le_length hsound.cursor

/-- `Append` fails when the bytes do not fit behind those that are not read yet. -/
theorem append_fails_iff {d : LengthPrefixedAccumulator} (hd : d.Sound) (bytes : Bytes) :
    (d.append bytes).1 = false ↔ d.maxBufferedBytes < d.bufferedBytes + bytes.length := by
  have hbuffered : d.compactIfUseful.bufferedBytes = d.bufferedBytes := by
    rw [← length_available, compactIfUseful_available, length_available]
  have hmax := (compactIfUseful_eq hd).2.2
  unfold append
  dsimp only
  rw [hbuffered, hmax]
  split
  · next hlimit => exact ⟨fun _ => (by omega), fun _ => rfl⟩
  · next hlimit => exact ⟨fun h => (by cases h), fun h => absurd h (by omega)⟩

/-- **A failing `Append` leaves the unread bytes alone.** -/
theorem append_failed_available {d : LengthPrefixedAccumulator} {bytes : Bytes}
    (h : (d.append bytes).1 = false) : (d.append bytes).2.available = d.available := by
  rw [← compactIfUseful_available d]
  unfold append at h ⊢
  dsimp only at h ⊢
  split at h
  · next hlimit =>
      rw [if_pos hlimit]
      rfl
  · cases h

/-! ### One frame -/

/-- What `Next` finds at the cursor. -/
inductive PrefixedRead
  | needMoreData
  | invalidLength
  | message (payload : Bytes) (size : ℕ)

/-- `Next`, on the bytes behind the cursor. -/
def readPrefixed (maxMessageBytes : ℕ) (data : Bytes) : PrefixedRead :=
  if data.length < 4 then .needMoreData
  else
    let length := BigEndian.toNat (data.take 4)
    if length = 0 ∨ length > maxMessageBytes then .invalidLength
    else if data.length - 4 < length then .needMoreData
    else .message ((data.drop 4).take length) (4 + length)

variable {M B : ℕ}

/-- **What has been found at the cursor is found again** when more bytes have arrived. -/
theorem readPrefixed_append {data : Bytes} (h : readPrefixed M data ≠ .needMoreData)
    (more : Bytes) : readPrefixed M (data ++ more) = readPrefixed M data := by
  have hlen : (data ++ more).length = data.length + more.length := List.length_append
  unfold readPrefixed at h ⊢
  by_cases hshort : data.length < 4
  · exact absurd (if_pos hshort) h
  · rw [if_neg hshort] at h ⊢
    rw [if_neg (by omega), List.take_append_of_le_length (by omega)]
    dsimp only at h ⊢
    by_cases hwrong : BigEndian.toNat (data.take 4) = 0 ∨ BigEndian.toNat (data.take 4) > M
    · rw [if_pos hwrong, if_pos hwrong]
    · rw [if_neg hwrong] at h ⊢
      rw [if_neg hwrong]
      by_cases hpart : data.length - 4 < BigEndian.toNat (data.take 4)
      · exact absurd (if_pos hpart) h
      · rw [if_neg hpart, if_neg (by omega), take_drop_append (by omega) more]

/-- What is left where `Next` asks for more is less than a frame. -/
theorem readPrefixed_needMoreData {data : Bytes} (h : readPrefixed M data = .needMoreData) :
    data.length ≤ M + 3 := by
  unfold readPrefixed at h
  dsimp only at h
  split at h
  · omega
  · split at h
    · cases h
    · split at h
      · omega
      · cases h

/-- A message that was found is there, behind its length. -/
theorem readPrefixed_message {data payload : Bytes} {size : ℕ}
    (h : readPrefixed M data = .message payload size) : 0 < size ∧ size ≤ data.length := by
  unfold readPrefixed at h
  dsimp only at h
  split at h
  · cases h
  · split at h
    · cases h
    · split at h
      · cases h
      · obtain ⟨-, rfl⟩ := PrefixedRead.message.inj h
        omega

theorem readPrefixed_invalidLength_iff {data : Bytes} :
    readPrefixed M data = .invalidLength ↔ 4 ≤ data.length ∧
      (BigEndian.toNat (data.take 4) = 0 ∨ BigEndian.toNat (data.take 4) > M) := by
  unfold readPrefixed
  split
  · next hshort => exact ⟨fun h => (by cases h), fun h => absurd h.1 (by omega)⟩
  · next hlong =>
      dsimp only
      split
      · next hwrong => exact ⟨fun _ => ⟨by omega, hwrong⟩, fun _ => rfl⟩
      · next hright =>
          split
          · exact ⟨fun h => (by cases h), fun h => absurd h.2 hright⟩
          · exact ⟨fun h => (by cases h), fun h => absurd h.2 hright⟩

/-- `Next`, by what is at the cursor. -/
theorem next_eq {d : LengthPrefixedAccumulator} (hd : d.limitExceeded = false) :
    d.next =
      match readPrefixed d.maxMessageBytes d.available with
      | .needMoreData => (.needMoreData, [], d)
      | .invalidLength => (.invalidLength, [], d)
      | .message payload size => (.messageReady, payload, { d with cursor := d.cursor + size }) := by
  unfold next readPrefixed
  rw [hd, if_neg (by decide), length_available]
  dsimp only
  split
  · rfl
  · split
    · rfl
    · split
      · rfl
      · rfl

/-- The decoder behind a message. -/
theorem Sound.advance {d : LengthPrefixedAccumulator} (hd : d.Sound) {payload : Bytes} {size : ℕ}
    (h : readPrefixed d.maxMessageBytes d.available = .message payload size) :
    let d' := { d with cursor := d.cursor + size }
    d'.Sound ∧ d'.available = d.available.drop size ∧ d'.bufferedBytes < d.bufferedBytes := by
  obtain ⟨hpos, hle⟩ := readPrefixed_message h
  rw [length_available, bufferedBytes] at hle
  have hcursor := hd.cursor
  refine ⟨⟨hd.limit, ?_⟩, ?_, ?_⟩
  · show d.cursor + size ≤ d.buffer.length
    omega
  · rw [available, available, List.drop_drop]
  · show d.buffer.length - (d.cursor + size) < d.buffer.length - d.cursor
    omega

/-! ### Chunk by chunk -/

/-- Calling `Next` until it has no message to return, at most so many times: the messages, the last
status, and the decoder behind the calls. -/
def drainLoop : ℕ → LengthPrefixedAccumulator →
    List Bytes × FrameDecodeStatus × LengthPrefixedAccumulator
  | 0, d => ([], d.next.1, d.next.2.2)
  | calls + 1, d =>
      if d.next.1 = .messageReady then
        (d.next.2.1 :: (drainLoop calls d.next.2.2).1, (drainLoop calls d.next.2.2).2)
      else ([], d.next.1, d.next.2.2)

/-- Calling `Next` until it has no message to return. -/
def drain (d : LengthPrefixedAccumulator) :
    List Bytes × FrameDecodeStatus × LengthPrefixedAccumulator := drainLoop d.bufferedBytes d

/-- A decoder that is fed: the messages so far, the last status, and whether `Append` has failed. -/
structure Decoding where
  decoder : LengthPrefixedAccumulator
  messages : List Bytes := []
  status : FrameDecodeStatus := .needMoreData
  refused : Bool := false
  deriving DecidableEq, Repr

/-- One more chunk, unless the decoder has failed before. -/
def Decoding.feed (s : Decoding) (chunk : Bytes) : Decoding :=
  if s.refused ∨ s.status ≠ .needMoreData then s
  else
    let (appended, d) := s.decoder.append chunk
    if !appended then { s with decoder := d, refused := true }
    else
      let (messages, status, d) := d.drain
      { decoder := d, messages := s.messages ++ messages, status := status }

/-- A fresh decoder behind some chunks. -/
def decode (maxMessageBytes maxBufferedBytes : ℕ) (chunks : List Bytes) : Decoding :=
  chunks.foldl Decoding.feed ⟨{ maxMessageBytes, maxBufferedBytes }, [], .needMoreData, false⟩

/-! ### The consumer -/

/-- One frame of the stream; the state are the messages so far. -/
def frameTurn (maxMessageBytes : ℕ) (messages : List Bytes) (data : Bytes) : Turn (List Bytes) :=
  match readPrefixed maxMessageBytes data with
  | .needMoreData => .wait
  | .invalidLength => .halt messages
  | .message payload size => .consume (messages ++ [payload]) size

theorem frameTurn_append {messages : List Bytes} {data : Bytes}
    (h : frameTurn M messages data ≠ .wait) (more : Bytes) :
    frameTurn M messages (data ++ more) = frameTurn M messages data := by
  have hread : readPrefixed M data ≠ .needMoreData := fun hmore => h (by rw [frameTurn, hmore])
  rw [frameTurn, frameTurn, readPrefixed_append hread more]

/-- The consumer of a stream of frames. -/
def frameConsumer (M : ℕ) : Consumer (List Bytes) UInt8 where
  turn := frameTurn M
  consumes {messages messages'} {data} {n} h := by
    unfold frameTurn at h
    split at h
    · cases h
    · cases h
    · next hread =>
        obtain ⟨-, rfl⟩ := Turn.consume.inj h
        exact readPrefixed_message hread
  halt_append h more := by rw [frameTurn_append (by simp [h]) more, h]
  consume_append h more := by rw [frameTurn_append (by simp [h]) more, h]

@[simp] theorem frameConsumer_turn (M : ℕ) : (frameConsumer M).turn = frameTurn M := rfl

/-! ### The loop follows the consumer -/

/-- Where the consumer of a decoder stands. -/
def Place (s : Decoding) : Fed (List Bytes) UInt8 → Prop
  | .halted messages => s.status = .invalidLength ∧ s.messages = messages
  | .waiting messages rest =>
      s.status = .needMoreData ∧ s.messages = messages ∧ s.decoder.available = rest

/-- The decoder stands where the consumer of its stream stands. -/
structure Follows (M B : ℕ) (s : Decoding) (f : Fed (List Bytes) UInt8) : Prop where
  refused : s.refused = false
  sound : s.decoder.Sound
  maxMessageBytes : s.decoder.maxMessageBytes = M
  maxBufferedBytes : s.decoder.maxBufferedBytes = B
  status : s.status = s.decoder.next.1
  place : Place s f

theorem drainLoop_follows {calls : ℕ} {d : LengthPrefixedAccumulator} (hd : d.Sound)
    (hcalls : d.bufferedBytes ≤ calls) (messages : List Bytes) :
    let result := drainLoop calls d
    Follows d.maxMessageBytes d.maxBufferedBytes
      ⟨result.2.2, messages ++ result.1, result.2.1, false⟩
      ((frameConsumer d.maxMessageBytes).drain messages d.available) := by
  induction calls generalizing d messages with
  -- no calls left means that nothing was buffered
  | zero =>
      have hnext := next_eq hd.limit
      have hnil : d.available = [] := by
        rw [← List.length_eq_zero_iff, length_available]
        omega
      rw [hnil] at hnext ⊢
      have hstop : d.next = (.needMoreData, [], d) := hnext
      rw [drainLoop, hstop]
      exact ⟨rfl, hd, rfl, rfl, (congrArg Prod.fst hstop).symm, rfl, List.append_nil _, hnil⟩
  | succ calls ih =>
      have hnext := next_eq hd.limit
      rw [Consumer.drain_eq, frameConsumer_turn, frameTurn, drainLoop]
      cases hread : readPrefixed d.maxMessageBytes d.available with
      | needMoreData =>
          have hstop : d.next = (.needMoreData, [], d) := by rw [hnext, hread]
          rw [hstop]
          exact ⟨rfl, hd, rfl, rfl, (congrArg Prod.fst hstop).symm, rfl, List.append_nil _, rfl⟩
      | invalidLength =>
          have hstop : d.next = (.invalidLength, [], d) := by rw [hnext, hread]
          rw [hstop]
          exact ⟨rfl, hd, rfl, rfl, (congrArg Prod.fst hstop).symm, rfl, List.append_nil _⟩
      | message payload size =>
          have hready : d.next = (.messageReady, payload, { d with cursor := d.cursor + size }) := by
            rw [hnext, hread]
          obtain ⟨hsound, hrest, hless⟩ := hd.advance hread
          have hfollows := ih hsound (by omega) (messages ++ [payload])
          simp only [List.append_assoc] at hfollows
          rw [hready, if_pos rfl, Consumer.outcome, ← hrest]
          exact hfollows

variable {s : Decoding} {f : Fed (List Bytes) UInt8}

/-- A chunk more. -/
theorem Follows.feed (h : Follows M B s f) (chunk : Bytes) :
    (s.feed chunk).refused = true ∨ Follows M B (s.feed chunk) ((frameConsumer M).feed f chunk) := by
  have hplace := h.place
  cases f with
  | halted messages =>
      rw [Decoding.feed, if_pos (Or.inr (by rw [hplace.1]; decide))]
      exact Or.inr h
  | waiting messages rest =>
      obtain ⟨hstatus, hmessages, hrest⟩ := hplace
      rw [Decoding.feed, if_neg (by simp [h.refused, hstatus])]
      cases happend : s.decoder.append chunk with
      | mk appended d =>
          cases appended with
          | false => exact Or.inl rfl
          | true =>
              obtain ⟨hsound, hmax, hbuffered, havailable⟩ := append_eq h.sound happend
              have hfollows := drainLoop_follows hsound le_rfl s.messages
              rw [hmax, hbuffered, h.maxMessageBytes, h.maxBufferedBytes, havailable, hmessages,
                hrest] at hfollows
              refine Or.inr ?_
              dsimp only
              rw [hmessages]
              exact hfollows

/-- There is room for a chunk behind what `Next` has left. -/
theorem Follows.feed_of_le (h : Follows M B s f) {R : ℕ} (hroom : M + 3 + R ≤ B) {chunk : Bytes}
    (hchunk : chunk.length ≤ R) : (s.feed chunk).refused = false := by
  unfold Decoding.feed
  split
  · exact h.refused
  · next hwaiting =>
      have hstatus : s.decoder.next.1 = .needMoreData := by
        rw [← h.status]
        exact not_not.1 fun hne => hwaiting (Or.inr hne)
      have hread : readPrefixed M s.decoder.available = .needMoreData := by
        rw [next_eq h.sound.limit, h.maxMessageBytes] at hstatus
        cases hread : readPrefixed M s.decoder.available with
        | needMoreData => rfl
        | invalidLength => simp [hread] at hstatus
        | message payload size => simp [hread] at hstatus
      have hrest := readPrefixed_needMoreData hread
      rw [length_available] at hrest
      cases happend : s.decoder.append chunk with
      | mk appended d =>
          cases appended with
          | true => rfl
          | false =>
              have hfails := (append_fails_iff h.sound chunk).1 (by rw [happend])
              rw [h.maxBufferedBytes] at hfails
              omega

/-- **The loop follows the consumer**, as long as no `Append` fails. -/
theorem decode_follows (M B : ℕ) (cut : List Bytes) :
    (decode M B cut).refused = true ∨
      Follows M B (decode M B cut) ((frameConsumer M).drain [] cut.flatten) := by
  refine (frameConsumer M).foldl_related
    (R := fun s f => s.refused = true ∨ Follows M B s f) cut ?_ [] [] ?_
  · intro chunk _ s f h
    rcases h with hrefused | hfollows
    · rw [Decoding.feed, if_pos (Or.inl hrefused)]
      exact Or.inl hrefused
    · exact hfollows.feed chunk
  · exact Or.inr ⟨rfl, ⟨rfl, le_rfl⟩, rfl, rfl, rfl, rfl, rfl, rfl⟩

/-- **No `Append` fails** when the buffer holds a frame and a chunk. -/
theorem decode_not_refused {R : ℕ} (hroom : M + 3 + R ≤ B) {cut : List Bytes}
    (hcut : ∀ chunk ∈ cut, chunk.length ≤ R) : (decode M B cut).refused = false := by
  refine ((frameConsumer M).foldl_related
    (R := fun s f => s.refused = false ∧ Follows M B s f) cut ?_ [] [] ?_).1
  · intro chunk hmem s f h
    have haccepted := h.2.feed_of_le hroom (hcut chunk hmem)
    refine ⟨haccepted, (h.2.feed chunk).resolve_left ?_⟩
    rw [haccepted]
    decide
  · exact ⟨rfl, rfl, ⟨rfl, le_rfl⟩, rfl, rfl, rfl, rfl, rfl, rfl⟩

/-! ### Round trips -/

/-- The frame of a message is found at its head. -/
theorem readPrefixed_encode {message header : Bytes} (hpos : 1 ≤ message.length)
    (hmax : message.length ≤ M) (h : encodeLength message.length = some header) (stream : Bytes) :
    readPrefixed M (header ++ message ++ stream) = .message message (4 + message.length) := by
  have hheader := length_of_encodeLength h
  have hlength : BigEndian.toNat header = message.length := by
    unfold encodeLength at h
    split at h
    · cases h
    · next hsmall =>
        obtain rfl := Option.some.inj h
        exact BigEndian.toNat_ofNat (by norm_num at hsmall ⊢; omega)
  have htake : (header ++ message ++ stream).take 4 = header := by
    rw [List.append_assoc, ← hheader, List.take_left]
  have hdrop : (header ++ message ++ stream).drop 4 = message ++ stream := by
    rw [List.append_assoc, ← hheader, List.drop_left]
  have hlen : (header ++ message ++ stream).length = 4 + message.length + stream.length := by
    rw [List.length_append, List.length_append, hheader]
  unfold readPrefixed
  rw [htake, hdrop, hlength, if_neg (by omega)]
  dsimp only
  rw [if_neg (by omega), if_neg (by omega), List.take_left]

/-- The consumer reads the messages back. -/
theorem drain_encode {messages : List Bytes} (hmessages : ∀ m ∈ messages, 1 ≤ m.length ∧ m.length ≤ M)
    {stream : Bytes} (h : encodeMessages messages = some stream) (before : List Bytes) :
    (frameConsumer M).drain before stream = .waiting (before ++ messages) [] := by
  induction messages generalizing stream before with
  | nil =>
      obtain rfl := Option.some.inj h
      rw [List.append_nil]
      rfl
  | cons message messages ih =>
      obtain ⟨header, hheader, h⟩ := Option.bind_eq_some_iff.1 h
      obtain ⟨rest, hrest, h⟩ := Option.bind_eq_some_iff.1 h
      obtain rfl := Option.some.inj h
      obtain ⟨hpos, hmax⟩ := hmessages message List.mem_cons_self
      have hsize : 4 + message.length = (header ++ message).length := by
        rw [List.length_append, length_of_encodeLength hheader]
      rw [Consumer.drain_eq, frameConsumer_turn, frameTurn,
        readPrefixed_encode hpos hmax hheader rest]
      dsimp only
      rw [Consumer.outcome, hsize, List.drop_left,
        ih (fun m hm => hmessages m (List.mem_cons_of_mem _ hm)) hrest, List.append_assoc]
      rfl

/-- Messages that are not too long have a stream. -/
theorem exists_encodeMessages (hM : M ≤ 2 ^ 32 - 1) {messages : List Bytes}
    (hmessages : ∀ m ∈ messages, 1 ≤ m.length ∧ m.length ≤ M) :
    ∃ stream, encodeMessages messages = some stream := by
  induction messages with
  | nil => exact ⟨[], rfl⟩
  | cons message messages ih =>
      obtain ⟨stream, hstream⟩ := ih fun m hm => hmessages m (List.mem_cons_of_mem _ hm)
      have hlength := (hmessages message List.mem_cons_self).2
      have hheader : encodeLength message.length = some (BigEndian.ofNat 4 message.length) := by
        rw [encodeLength, if_neg (by omega)]
      refine ⟨BigEndian.ofNat 4 message.length ++ message ++ stream, ?_⟩
      rw [encodeMessages, hheader, hstream]
      rfl

/-- Two cuts of one stream agree. -/
theorem decode_cuts {cut cut' : List Bytes} (h : cut.flatten = cut'.flatten)
    (hcut : (decode M B cut).refused = false) (hcut' : (decode M B cut').refused = false) :
    (decode M B cut).messages = (decode M B cut').messages ∧
      (decode M B cut).status = (decode M B cut').status := by
  have hfollows := (decode_follows M B cut).resolve_left (by rw [hcut]; decide)
  have hfollows' := (decode_follows M B cut').resolve_left (by rw [hcut']; decide)
  rw [← h] at hfollows'
  have hplace := hfollows.place
  have hplace' := hfollows'.place
  cases hdrain : (frameConsumer M).drain [] cut.flatten with
  | halted messages =>
      rw [hdrain] at hplace hplace'
      exact ⟨hplace.2.trans hplace'.2.symm, hplace.1.trans hplace'.1.symm⟩
  | waiting messages rest =>
      rw [hdrain] at hplace hplace'
      exact ⟨hplace.2.1.trans hplace'.2.1.symm, hplace.1.trans hplace'.1.symm⟩

/-- When `Next` finds a length that is wrong. -/
theorem next_invalidLength_iff {d : LengthPrefixedAccumulator} (hd : d.limitExceeded = false) :
    d.next.1 = .invalidLength ↔ 4 ≤ d.available.length ∧
      (BigEndian.toNat (d.available.take 4) = 0 ∨
        BigEndian.toNat (d.available.take 4) > d.maxMessageBytes) := by
  rw [next_eq hd, ← readPrefixed_invalidLength_iff]
  cases readPrefixed d.maxMessageBytes d.available with
  | needMoreData => simp
  | invalidLength => simp
  | message payload size => simp

/-- So it is at the end of a run. -/
theorem decode_invalidLength_iff {cut : List Bytes} (hcut : (decode M B cut).refused = false) :
    let unread := (decode M B cut).decoder.available
    (decode M B cut).status = .invalidLength ↔ 4 ≤ unread.length ∧
      (BigEndian.toNat (unread.take 4) = 0 ∨ BigEndian.toNat (unread.take 4) > M) := by
  have hfollows := (decode_follows M B cut).resolve_left (by rw [hcut]; decide)
  rw [hfollows.status, next_invalidLength_iff hfollows.sound.limit, hfollows.maxMessageBytes]

/-- **Every stream of messages is read back, however it is cut**, and two cuts of any stream agree;
the stream is refused where the next four bytes are no length, and an `Append` that fails leaves the
unread bytes alone. -/
theorem messages_roundTrip :
    (∀ M R B : ℕ, M ≤ 2 ^ 32 - 1 → 1 ≤ R → M + 3 + R ≤ B →
      ∀ messages : List Bytes, (∀ m ∈ messages, 1 ≤ m.length ∧ m.length ≤ M) →
        ∃ stream, encodeMessages messages = some stream ∧
          ∀ cut : List Bytes, cut.flatten = stream → (∀ chunk ∈ cut, chunk.length ≤ R) →
            (decode M B cut).refused = false ∧ (decode M B cut).messages = messages ∧
              (decode M B cut).decoder.bufferedBytes = 0) ∧
    (∀ (M B : ℕ) (cut cut' : List Bytes), cut.flatten = cut'.flatten →
      (decode M B cut).refused = false → (decode M B cut').refused = false →
        (decode M B cut).messages = (decode M B cut').messages ∧
          (decode M B cut).status = (decode M B cut').status) ∧
    (∀ (M B : ℕ) (cut : List Bytes), (decode M B cut).refused = false →
      let unread := (decode M B cut).decoder.available
      ((decode M B cut).status = .invalidLength ↔ 4 ≤ unread.length ∧
        (BigEndian.toNat (unread.take 4) = 0 ∨ BigEndian.toNat (unread.take 4) > M))) ∧
    (∀ d : LengthPrefixedAccumulator, d.limitExceeded = false →
      (d.next.1 = .invalidLength ↔ 4 ≤ d.available.length ∧
        (BigEndian.toNat (d.available.take 4) = 0 ∨
          BigEndian.toNat (d.available.take 4) > d.maxMessageBytes))) ∧
    ∀ (d : LengthPrefixedAccumulator) (chunk : Bytes), (d.append chunk).1 = false →
      (d.append chunk).2.available = d.available := by
  refine ⟨?_, fun M B cut cut' h hcut hcut' => decode_cuts h hcut hcut',
    fun M B cut hcut => decode_invalidLength_iff hcut, fun d hd => next_invalidLength_iff hd,
    fun d chunk hfailed => append_failed_available hfailed⟩
  intro M R B hM _ hB messages hmessages
  obtain ⟨stream, hstream⟩ := exists_encodeMessages hM hmessages
  refine ⟨stream, hstream, fun cut hcut hchunks => ?_⟩
  have haccepted := decode_not_refused hB hchunks
  have hplace := ((decode_follows M B cut).resolve_left (by rw [haccepted]; decide)).place
  rw [hcut, drain_encode hmessages hstream] at hplace
  obtain ⟨-, hread, hrest⟩ := hplace
  refine ⟨haccepted, hread, ?_⟩
  rw [← length_available, hrest]
  rfl

/-- Two messages, in chunks that end inside a prefix and inside a message. -/
theorem messages_roundTrip_two :
    (decode 3 9 [[0, 0], [0, 2, 7], [8, 0, 0], [0, 1, 9]]).messages = [[7, 8], [9]] ∧
      (decode 3 9 [[0, 0], [0, 2, 7], [8, 0, 0], [0, 1, 9]]).decoder.bufferedBytes = 0 := by
  obtain ⟨stream, hstream, hcuts⟩ := messages_roundTrip.1 3 3 9 (by decide) (by decide) (by decide)
    [[7, 8], [9]] (by decide)
  obtain rfl : [0, 0, 0, 2, 7, 8, 0, 0, 0, 1, 9] = stream := Option.some.inj (hstream ▸ by decide)
  exact (hcuts _ rfl (by decide)).2

end LengthPrefixedAccumulator

end RealtimeEngine
