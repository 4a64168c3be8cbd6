/-
**The room registry refines a set of pairs.**

`RealtimeEngine/RoomRegistry.lean` says what one call does to the two indexes.  Here the calls are
put in sequence: the registry reached by any list of calls represents the set of
`(session, room)` pairs obtained by replaying the list on sets, where joining is inserting a pair,
leaving is removing one, and removing a session is removing all its pairs.

Main definitions:

* `RealtimeEngine.RoomRegistry.Call`, `RealtimeEngine.RoomRegistry.apply`,
  `RealtimeEngine.RoomRegistry.applyAll` — a call, its effect, and a list of calls;
* `RealtimeEngine.Pairs`, `RealtimeEngine.Pairs.apply`, `RealtimeEngine.Pairs.applyAll` — the
  abstract state and the replay of the calls on it.

Main results:

* `RealtimeEngine.RoomRegistry.applyAll_wellFormed` — every reachable registry is well-formed;
* `RealtimeEngine.RoomRegistry.mem_snapshot_applyAll` — its snapshots are the replayed pairs;
* `RealtimeEngine.RoomRegistry.registry_refines_pairs` — **the refinement**, with the results of
  the calls.
-/

import RealtimeEngine.RoomRegistry
import Mathlib.Data.Set.Basic

set_option relaxedAutoImplicit false
set_option autoImplicit false

namespace RealtimeEngine

open Unordered

/-! ### Calls -/

namespace RoomRegistry

/-- A mutating call on the registry.  A `Join` carries the authorizer it consults, so that the
answers of the authorizer may change from call to call. -/
inductive Call
  | join (authorizer : Option Authorizer) (session : SessionHandle) (room : Room)
  | leave (session : SessionHandle) (room : Room)
  | removeSession (session : SessionHandle)

/-- The registry after a call. -/
def apply (reg : RoomRegistry) : Call → RoomRegistry
  | .join auth s r => (reg.join auth s r).2
  | .leave s r => (reg.leave s r).2
  | .removeSession s => reg.removeSession s

/-- The result of a call; `RemoveSession` returns nothing. -/
def result (reg : RoomRegistry) : Call → Option RoomResult
  | .join auth s r => some (reg.join auth s r).1
  | .leave s r => some (reg.leave s r).1
  | .removeSession _ => none

/-- The registry after a list of calls. -/
def applyAll (calls : List Call) (reg : RoomRegistry) : RoomRegistry := calls.foldl apply reg

end RoomRegistry

/-! ### The abstract state -/

/-- What the registry is for: a set of subscriptions. -/
abbrev Pairs := Set (SessionHandle × Room)

/-- A call on the set of pairs. -/
def Pairs.apply (pairs : Pairs) : RoomRegistry.Call → Pairs
  | .join auth s r => pairs ∪ {p | RoomRegistry.Admits auth s r ∧ p = (s, r)}
  | .leave s r => pairs \ {(s, r)}
  | .removeSession s => {p ∈ pairs | p.1 ≠ s}

/-- A list of calls replayed on the set of pairs. -/
def Pairs.applyAll (calls : List RoomRegistry.Call) (pairs : Pairs) : Pairs :=
  calls.foldl Pairs.apply pairs

namespace RoomRegistry

/-! ### One call -/

/-- The registry represents the pairs. -/
def Represents (reg : RoomRegistry) (pairs : Pairs) : Prop :=
  ∀ s r, s ∈ reg.snapshot r ↔ (s, r) ∈ pairs

theorem WellFormed.apply {reg : RoomRegistry} (h : reg.WellFormed) (call : Call) :
    (reg.apply call).WellFormed := by
  cases call with
  | join auth s r => exact h.join auth s r
  | leave s r => exact h.leave s r
  | removeSession s => exact h.removeSession s

/-- **One call on the registry is one call on the pairs.** -/
theorem Represents.apply {reg : RoomRegistry} {pairs : Pairs} (hwf : reg.WellFormed)
    (h : reg.Represents pairs) (call : Call) : (reg.apply call).Represents (pairs.apply call) := by
  intro s' r'
  cases call with
  | join auth s r =>
      rw [RoomRegistry.apply, mem_snapshot_join hwf.inverse, h s' r']
      simp only [Pairs.apply, Set.mem_union, Set.mem_ofPred_eq, Prod.mk.injEq]
      tauto
  | leave s r =>
      rw [RoomRegistry.apply, mem_snapshot_leave hwf.inverse, h s' r']
      simp only [Pairs.apply, Set.mem_sdiff, Set.mem_singleton_iff, Prod.mk.injEq]
      tauto
  | removeSession s =>
      rw [RoomRegistry.apply, mem_snapshot_removeSession hwf.inverse, h s' r']
      simp only [Pairs.apply, Set.mem_ofPred_eq]
      tauto

/-- A call that answers anything but `Ok` changes neither index. -/
theorem apply_unchanged {reg : RoomRegistry} {call : Call} {res : RoomResult}
    (hres : reg.result call = some res) (hne : res ≠ .ok) : reg.apply call = reg := by
  cases call with
  | join auth s r =>
      simp only [result, Option.some.injEq] at hres
      exact join_unchanged (by rwa [hres])
  | leave s r =>
      simp only [result, Option.some.injEq] at hres
      exact leave_unchanged (by rwa [hres])
  | removeSession s => simp [result] at hres

/-! ### Sequences of calls -/

theorem WellFormed.applyAll {reg : RoomRegistry} (h : reg.WellFormed) (calls : List Call) :
    (reg.applyAll calls).WellFormed := by
  unfold RoomRegistry.applyAll
  induction calls generalizing reg with
  | nil => exact h
  | cons call calls ih => exact ih (h.apply call)

theorem Represents.applyAll {reg : RoomRegistry} {pairs : Pairs} (hwf : reg.WellFormed)
    (h : reg.Represents pairs) (calls : List Call) :
    (reg.applyAll calls).Represents (pairs.applyAll calls) := by
  unfold RoomRegistry.applyAll Pairs.applyAll
  induction calls generalizing reg pairs with
  | nil => exact h
  | cons call calls ih => exact ih (hwf.apply call) (h.apply hwf call)

/-- Every reachable registry is well-formed. -/
theorem applyAll_wellFormed (calls : List Call) : (empty.applyAll calls).WellFormed :=
  wellFormed_empty.applyAll calls

/-- The snapshots of a reachable registry list the replayed pairs. -/
theorem mem_snapshot_applyAll (calls : List Call) (s : SessionHandle) (r : Room) :
    s ∈ (empty.applyAll calls).snapshot r ↔ (s, r) ∈ Pairs.applyAll calls ∅ := by
  refine Represents.applyAll wellFormed_empty ?_ calls s r
  intro s r
  simp [snapshot, empty, Index.members]

/-- The rooms of a session in a reachable registry are the replayed pairs of the session. -/
theorem mem_roomsOf_applyAll (calls : List Call) (s : SessionHandle) (r : Room) :
    r ∈ (empty.applyAll calls).roomsOf s ↔ (s, r) ∈ Pairs.applyAll calls ∅ := by
  rw [← (applyAll_wellFormed calls).inverse, mem_snapshot_applyAll]

/-- **The registry refines a set of pairs.**  After any list of calls on an empty registry, with
any authorizers: the two indexes are inverse to each other, hold no empty set and only valid
rooms; a snapshot lists, each once, the sessions whose pair is in the replayed set; the results of
the next call are what the replayed set says; and a call that does not answer `Ok` changes
neither index. -/
theorem registry_refines_pairs (calls : List Call) :
    let reg := empty.applyAll calls
    let pairs := Pairs.applyAll calls ∅
    (∀ s r, s ∈ reg.roomToSessions.members r ↔ r ∈ reg.sessionToRooms.members s) ∧
    (∀ r sessions, reg.roomToSessions r = some sessions → sessions.elems ≠ []) ∧
    (∀ s rooms, reg.sessionToRooms s = some rooms → rooms.elems ≠ []) ∧
    (∀ r sessions, reg.roomToSessions r = some sessions → isValidRoom r = true) ∧
    (∀ s rooms, reg.sessionToRooms s = some rooms → ∀ r ∈ rooms.elems, isValidRoom r = true) ∧
    (∀ r, (reg.snapshot r).Nodup ∧ ∀ s, s ∈ reg.snapshot r ↔ (s, r) ∈ pairs) ∧
    (∀ auth s r, (reg.join auth s r).1 = .ok ↔
      isValidRoom r = true ∧ authorizes auth s r false = true ∧ (s, r) ∉ pairs) ∧
    (∀ s r, (reg.leave s r).1 = .ok ↔ (s, r) ∈ pairs) ∧
    (∀ s s' r, (s' ∈ (reg.removeSession s).snapshot r ↔ s' ≠ s ∧ (s', r) ∈ pairs) ∧
      (r ∈ (reg.removeSession s).roomsOf s' ↔ s' ≠ s ∧ (s', r) ∈ pairs)) ∧
    (∀ auth s r, reg.authorizePublish auth s r = .ok ↔
      isValidRoom r = true ∧ authorizes auth s r true = true ∧ (s, r) ∈ pairs) ∧
    (∀ call res, reg.result call = some res → res ≠ .ok → reg.apply call = reg) := by
  intro reg pairs
  have hwf : reg.WellFormed := applyAll_wellFormed calls
  have hsnap : ∀ s r, s ∈ reg.snapshot r ↔ (s, r) ∈ pairs := mem_snapshot_applyAll calls
  have hrooms : ∀ s r, r ∈ reg.roomsOf s ↔ (s, r) ∈ pairs := mem_roomsOf_applyAll calls
  refine ⟨hwf.inverse, hwf.roomNoEmpty, hwf.sessionNoEmpty, ?_, ?_, ?_, ?_, ?_, ?_, ?_, ?_⟩
  · intro r sessions hr
    -- a stored room has a member, which vouches for its name
    obtain ⟨s, hs⟩ := List.exists_mem_of_ne_nil _ (hwf.roomNoEmpty r sessions hr)
    refine hwf.valid s r ?_
    rw [snapshot, Index.members_of_some hr]
    exact hs
  · intro s rooms hs r hr
    refine hwf.valid s r ((hwf.inverse s r).2 ?_)
    rw [roomsOf, Index.members_of_some hs]
    exact hr
  · exact fun r => ⟨snapshot_nodup reg r, fun s => hsnap s r⟩
  · intro auth s r
    rw [join_ok_iff, hrooms, Admits, and_assoc]
  · intro s r
    rw [leave_ok_iff, hrooms]
  · intro s s' r
    rw [mem_snapshot_removeSession hwf.inverse, mem_roomsOf_removeSession, hsnap, hrooms]
    exact ⟨Iff.rfl, Iff.rfl⟩
  · intro auth s r
    rw [authorizePublish_ok_iff, hrooms]
  · exact fun call res hres hne => apply_unchanged hres hne

end RoomRegistry

end RealtimeEngine
