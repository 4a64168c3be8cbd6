/-
**The engine at rest.**

`RealtimeEngine/EngineDelivery.lean` says that a subscriber has read the first messages of its queue.
When no thread of the outbound path is at work for it any more, and it is not disconnected, it has
read all of them: nothing that `Send` has accepted waits in the queue for a thread that will not
come, and no close frame has been transmitted.  That its threads come to their end is
`RealtimeEngine.Outbound.transmits`.

Main definitions:

* `RealtimeEngine.EngineSteps.AtRest` — no thread of the outbound path is at work for the session.

Main results:

* `RealtimeEngine.EngineSteps.settled_run` — what is transmitted at rest;
* `RealtimeEngine.EngineSteps.subscriber_settled` — **a subscriber at rest has read everything**.
-/

import RealtimeEngine.EngineDelivery
import RealtimeEngine.OutboundProgress

set_option relaxedAutoImplicit false
set_option autoImplicit false

namespace RealtimeEngine

namespace EngineSteps

open Interleaving WebSocketDecoder

/-- No thread of the outbound path is at work for the session. -/
def AtRest (P : Multiset Task) (q : SessionHandle) : Prop :=
  ∀ a ∈ ServerSteps.outActions (serverTasks P), a.session? ≠ some q

instance (P : Multiset Task) (q : SessionHandle) : Decidable (AtRest P q) :=
  inferInstanceAs (Decidable (∀ a ∈ ServerSteps.outActions (serverTasks P), a.session? ≠ some q))

section Runs

variable {codec : Codec} {build : Outgoing → Bytes} {config : ServerConfig}
  {moves : List (ℕ × Choice)} {c : Config Engine Task} {q : SessionHandle}

/-- At rest everything that a live session has accepted is transmitted, and nothing of it is to be
the last item. -/
theorem settled_run (hrun : (program codec build config).run moves (start config) = some c)
    (hrest : AtRest c.pending q) (hlive : (c.shared.server.out.sessions q).disconnectStarted = false) :
    (c.shared.server.out.sessions q).wire =
        Outbound.stream (c.shared.server.out.sessions q).pushed ∧
      ∀ item ∈ (c.shared.server.out.sessions q).pushed, item.closeAfter = false := by
  have hsettled := ((engine_reachable hrun).settled (s := q) fun a ha => by
    rcases Multiset.mem_cons.1 ha with rfl | ha
    · rintro ⟨⟩
    · exact hrest a ha).2
  rw [hlive] at hsettled
  exact hsettled.resolve_left Bool.false_ne_true

end Runs

/-- **A subscriber at rest has read everything**, in every run of the engine: when no thread of the
outbound path is at work for a live session, its peer has read each message that `Send` has accepted
for it, and nothing else, however the transmitted bytes are cut.  The limit of the peer for a message
is not below the limit of the server nor below 125, and its buffer has room for a message with a
header and for one received piece besides.  The peer of a WebSocket session has the response before
the messages, if each response to an accepted handshake has found room.  A payload is a
`std::vector`. -/
theorem subscriber_settled (codec : Codec) (build : Outgoing → Bytes) (config : ServerConfig)
    (moves : List (ℕ × Choice)) {c : Config Engine Task}
    (hrun : (program codec build config).run moves (start config) = some c) (q : SessionHandle)
    (hrest : AtRest c.pending q) (hlive : (c.shared.server.out.sessions q).disconnectStarted = false)
    (hvector : ∀ item ∈ (c.shared.server.out.sessions q).pushed, item.payload.length < 2 ^ 63)
    {M R B : ℕ} (hM : max 125 config.maxMessageBytes.toNat ≤ M) (hroom : M + 13 + R ≤ B) :
    ((c.shared.server.control q).transport = .rawTcp → ∀ cut : List Bytes,
        cut.flatten = (c.shared.server.out.sessions q).wire →
        (∀ chunk ∈ cut, chunk.length ≤ R) →
        (LengthPrefixedAccumulator.decode M B cut).messages =
          ServerSteps.messages c.shared.server q) ∧
      ((program codec build config).AllMeet (fun _ t e _ => welcomes config e t = true) moves
          (start config) →
        (c.shared.server.control q).transport = .webSocket → ∃ key sent,
          (c.shared.server.out.sessions q).wire = switchingProtocols key ++ encodeFrames sent ∧
          ∀ cut : List Bytes, cut.flatten = encodeFrames sent →
            (∀ chunk ∈ cut, chunk.length ≤ R) →
            binaryMessages (WebSocketDecoder.decode M B false cut).events =
              ServerSteps.messages c.shared.server q) := by
  obtain ⟨hwire, hlast⟩ := settled_run hrun hrest hlive
  have hreachable := engine_reachable hrun
  have hqueued := (given_run hrun q).1
  refine ⟨fun hraw cut hcut hchunks => ?_, fun hok htransport => ?_⟩
  · obtain ⟨-, hitems, hpeer⟩ := hqueued.raw_peer (hreachable.wire_begins q) hraw
    obtain ⟨-, -, hread, hwhole⟩ :=
      hpeer M R B ((le_max_right _ _).trans hM) (by omega) cut hcut hchunks
    refine hread.eq_of_length_le (hwhole _ _ List.prefix_rfl
      (ServerSteps.encodeMessages_eq hitems) ?_).length_le
    rw [hwire]
  · obtain ⟨key, sent, closing, hsent, hclosing, hpushed, -, -, hpeer⟩ :=
      hqueued.webSocket_peer (engine_greeted hok hrun q) hreachable htransport hvector
    -- a close frame would be the last item
    obtain rfl : closing = [] := by
      cases closing with
      | nil => rfl
      | cons item items =>
          obtain ⟨payload, -, rfl⟩ := hclosing item rfl
          have hnot := hlast (frameItem .close payload true) (by rw [hpushed]; simp)
          cases hnot
    rw [List.append_nil] at hpushed
    have hmessages : ServerSteps.messages c.shared.server q = ServerSteps.messagesIn sent := by
      rw [ServerSteps.messages, hpushed,
        List.filterMap_cons_none (ServerSteps.message?_response _ _),
        ServerSteps.filterMap_frames hsent]
    rw [hpushed, ← List.singleton_append, Outbound.stream_append, ServerSteps.stream_frames,
      Outbound.stream_singleton] at hwire
    replace hwire : (c.shared.server.out.sessions q).wire =
      switchingProtocols key ++ encodeFrames sent := hwire
    refine ⟨key, sent, hwire, fun cut hcut hchunks => ?_⟩
    obtain ⟨-, -, hread, hwhole⟩ := hpeer M R B hM hroom cut
      (by rw [hwire, List.drop_left, List.take_length, hcut]) hchunks
    have heq := hread.eq_of_length_le (hwhole sent List.prefix_rfl (by rw [hcut])).length_le
    rw [heq, binaryMessages_eventOf, hmessages]

/-- The threads that transmit the alert of `alertArrives` come to their end. -/
def alertSettles : List (ℕ × Choice) :=
  alertArrives ++ List.replicate 4 (9, .server (.out .succeeds))

/-- The threads that transmit the alert of `webSocketAlert` come to their end. -/
def webSocketSettles : List (ℕ × Choice) :=
  webSocketAlert ++ List.replicate 4 (6, .server (.out .succeeds))

/-- The first session has read all that was sent to it, and so has the WebSocket session of the other
run. -/
theorem subscriber_settled_alertSettles :
    (∃ c, (program alerts (fun _ => [0]) {}).run alertSettles (start {}) = some c ∧
      ServerSteps.messages c.shared.server ⟨1, 1⟩ = [[0], [0], [3]] ∧
      (LengthPrefixedAccumulator.decode 1048576 1048597
        [[0, 0, 0, 1, 0, 0, 0], [0, 1, 0, 0, 0, 0, 1, 3]]).messages =
          ServerSteps.messages c.shared.server ⟨1, 1⟩) ∧
    ∃ c, (program alerts (fun _ => [0]) {}).run webSocketSettles (start {}) = some c ∧
      (c.shared.server.out.sessions ⟨1, 1⟩).wire =
        switchingProtocols (ascii "dGhlIHNhbXBsZSBub25jZQ==") ++
          [0x82, 1, 0, 0x82, 1, 0, 0x82, 1, 3] ∧
      ServerSteps.messages c.shared.server ⟨1, 1⟩ = [[0], [0], [3]] ∧
      binaryMessages (WebSocketDecoder.decode 1048576 1048597 false
        [[0x82, 1, 0, 0x82], [1, 0, 0x82, 1, 3]]).events =
          ServerSteps.messages c.shared.server ⟨1, 1⟩ := by
  constructor
  · have hobserved : ((program alerts (fun _ => [0]) {}).run alertSettles (start {})).map (fun c =>
        (decide (AtRest c.pending ⟨1, 1⟩ ∧
            (c.shared.server.out.sessions ⟨1, 1⟩).disconnectStarted = false ∧
            (c.shared.server.control ⟨1, 1⟩).transport = .rawTcp),
          (c.shared.server.out.sessions ⟨1, 1⟩).pushed.all (fun item => item.payload.length < 2 ^ 63),
          (c.shared.server.out.sessions ⟨1, 1⟩).wire,
          ServerSteps.messages c.shared.server ⟨1, 1⟩)) =
        some (true, true, [0, 0, 0, 1, 0, 0, 0, 0, 1, 0, 0, 0, 0, 1, 3], [[0], [0], [3]]) := by
      decide +kernel
    obtain ⟨c, hrun, hc⟩ := Option.map_eq_some_iff.1 hobserved
    simp only [Prod.mk.injEq] at hc
    obtain ⟨hsettled, hvector, hwire, hmessages⟩ := hc
    obtain ⟨hrest, hlive, hraw⟩ := of_decide_eq_true hsettled
    obtain ⟨hread, -⟩ := subscriber_settled alerts (fun _ => [0]) {} alertSettles hrun ⟨1, 1⟩ hrest
      hlive (fun item hitem => by simpa using List.all_eq_true.1 hvector item hitem) (M := 1048576)
      (R := 8) (B := 1048597) (by decide) (by decide)
    exact ⟨c, hrun, hmessages, hread hraw _ (by rw [hwire]; rfl) (by decide)⟩
  · have hobserved : ((program alerts (fun _ => [0]) {}).run webSocketSettles (start {})).map
        (fun c => (decide (AtRest c.pending ⟨1, 1⟩ ∧
            (c.shared.server.out.sessions ⟨1, 1⟩).disconnectStarted = false ∧
            (c.shared.server.control ⟨1, 1⟩).transport = .webSocket),
          (c.shared.server.out.sessions ⟨1, 1⟩).pushed.all (fun item => item.payload.length < 2 ^ 63),
          (c.shared.server.out.sessions ⟨1, 1⟩).wire,
          ServerSteps.messages c.shared.server ⟨1, 1⟩)) =
        some (true, true, sampleResponse ++ [0x82, 1, 0, 0x82, 1, 0, 0x82, 1, 3],
          [[0], [0], [3]]) := by
      decide +kernel
    rw [← switchingProtocols_sample] at hobserved
    obtain ⟨c, hrun, hc⟩ := Option.map_eq_some_iff.1 hobserved
    simp only [Prod.mk.injEq] at hc
    obtain ⟨hsettled, hvector, hwire, hmessages⟩ := hc
    obtain ⟨hrest, hlive, htransport⟩ := of_decide_eq_true hsettled
    have hok := Program.allMeet_of_meets (P := program alerts (fun _ => [0]) {})
      (fun _ t e => welcomes {} e t) webSocketSettles (c := start {}) (by decide +kernel)
    obtain ⟨-, hpeer⟩ := subscriber_settled alerts (fun _ => [0]) {} webSocketSettles hrun ⟨1, 1⟩
      hrest hlive (fun item hitem => by simpa using List.all_eq_true.1 hvector item hitem)
      (M := 1048576) (R := 8) (B := 1048597) (by decide) (by decide)
    obtain ⟨key, sent, hsent, hread⟩ := hpeer hok htransport
    -- both responses have 129 bytes
    obtain ⟨-, hframes⟩ := List.append_inj (hsent.symm.trans hwire)
      (by rw [length_switchingProtocols, length_switchingProtocols])
    exact ⟨c, hrun, hwire, hmessages, hread _ (by rw [hframes]; rfl) (by decide)⟩

end EngineSteps

end RealtimeEngine
