/-
**The room registry: who is subscribed to what.**

`pubsub/room_registry.hpp` keeps two indexes, from rooms to sessions and from sessions to rooms,
under one mutex.  This module embeds its functions and shows what each of them does to the set of
`(session, room)` pairs; `RealtimeEngine/RoomRegistryRefinement.lean` draws the conclusion for
sequences of calls.

The authorizer of the source is a `std::function` that may be empty and may answer differently
from one call to the next; it is an argument of the calls that consult it.

Main definitions:

* `RealtimeEngine.isValidRoom` — the room names the registry stores;
* `RealtimeEngine.RoomRegistry`, with `join`, `leave`, `authorizePublish`, `snapshot`,
  `removeSession` — the registry and its operations;
* `RealtimeEngine.RoomRegistry.WellFormed` — the two indexes are inverse to each other, hold no
  empty set and only valid rooms.

Main results:

* `RealtimeEngine.RoomRegistry.mem_snapshot_join`, `RealtimeEngine.RoomRegistry.mem_snapshot_leave`,
  `RealtimeEngine.RoomRegistry.mem_snapshot_removeSession` — the effect of a call on the pairs;
* `RealtimeEngine.RoomRegistry.WellFormed.join`, `RealtimeEngine.RoomRegistry.WellFormed.leave`,
  `RealtimeEngine.RoomRegistry.WellFormed.removeSession` — well-formedness is kept;
* `RealtimeEngine.RoomRegistry.join_unchanged`, `RealtimeEngine.RoomRegistry.leave_unchanged` — a
  refused call changes neither index.
-/

import RealtimeEngine.Basic
import RealtimeEngine.UnorderedIndex

set_option relaxedAutoImplicit false
set_option autoImplicit false

namespace RealtimeEngine

open Unordered

/-! ### Room names -/

/-- A room name. -/
abbrev Room := Bytes

/-- The prefixes `IsValidRoom` knows. -/
def roomPrefixes : List Bytes :=
  [ascii "match:", ascii "facility:", ascii "court:", ascii "equipment:", ascii "booking:user:"]

/-- The bytes `IsValidRoom` allows in a room name. -/
def isRoomByte (value : UInt8) : Bool :=
  (97 ≤ value && value ≤ 122) || (65 ≤ value && value ≤ 90) || (48 ≤ value && value ≤ 57) ||
    value == 58 || value == 45 || value == 95 || value == 46

/-- `RoomRegistry::IsValidRoom`. -/
def isValidRoom (room : Room) : Bool :=
  if room.isEmpty || decide (160 < room.length) then false
  else if !(roomPrefixes.any fun p => p.isPrefixOf room) then false
  else room.all isRoomByte

/-! ### The registry -/

/-- `RoomResult`. -/
inductive RoomResult
  | ok
  | invalidRoom
  | unauthorized
  | alreadySubscribed
  | notSubscribed
  deriving DecidableEq, Repr

/-- `RoomRegistry::Authorizer`: the last argument says whether the session wants to publish. -/
abbrev Authorizer := SessionHandle → Room → Bool → Bool

/-- An authorizer, if there is one, agrees. -/
def authorizes (authorizer : Option Authorizer) (session : SessionHandle) (room : Room)
    (publishing : Bool) : Bool :=
  match authorizer with
  | none => true
  | some answer => answer session room publishing

/-- The two indexes of `RoomRegistry`. -/
structure RoomRegistry where
  roomToSessions : Index Room SessionHandle
  sessionToRooms : Index SessionHandle Room

namespace RoomRegistry

/-- The registry before the first call. -/
def empty : RoomRegistry := ⟨fun _ => none, fun _ => none⟩

/-- `RoomRegistry::Join`. -/
def join (authorizer : Option Authorizer) (session : SessionHandle) (room : Room)
    (reg : RoomRegistry) : RoomResult × RoomRegistry :=
  if !isValidRoom room then (.invalidRoom, reg)
  else if !authorizes authorizer session room false then (.unauthorized, reg)
  else
    -- `session_to_rooms_[session]` creates the entry before the insertion is tried
    let touched := reg.sessionToRooms.touch session
    if room ∈ touched.members session then
      (.alreadySubscribed, { reg with sessionToRooms := touched })
    else
      (.ok, { roomToSessions := reg.roomToSessions.add room session
              sessionToRooms := touched.add session room })

/-- `RoomRegistry::Leave`. -/
def leave (session : SessionHandle) (room : Room) (reg : RoomRegistry) :
    RoomResult × RoomRegistry :=
  match reg.sessionToRooms session with
  | none => (.notSubscribed, reg)
  | some rooms =>
      if room ∈ rooms.elems then
        (.ok, { roomToSessions := reg.roomToSessions.drop room session
                sessionToRooms := reg.sessionToRooms.drop session room })
      else (.notSubscribed, reg)

/-- `RoomRegistry::AuthorizePublish`. -/
def authorizePublish (authorizer : Option Authorizer) (session : SessionHandle) (room : Room)
    (reg : RoomRegistry) : RoomResult :=
  if !isValidRoom room then .invalidRoom
  else if !authorizes authorizer session room true then .unauthorized
  else
    match reg.sessionToRooms session with
    | none => .notSubscribed
    | some rooms => if room ∈ rooms.elems then .ok else .notSubscribed

/-- `RoomRegistry::Snapshot`. -/
def snapshot (room : Room) (reg : RoomRegistry) : List SessionHandle :=
  reg.roomToSessions.members room

/-- `RoomRegistry::RemoveSession`. -/
def removeSession (session : SessionHandle) (reg : RoomRegistry) : RoomRegistry :=
  match reg.sessionToRooms session with
  | none => reg
  | some rooms =>
      { roomToSessions := reg.roomToSessions.dropAll rooms.elems session
        sessionToRooms := Function.update reg.sessionToRooms session none }

/-- The rooms of a session. -/
def roomsOf (session : SessionHandle) (reg : RoomRegistry) : List Room :=
  reg.sessionToRooms.members session

/-- The two indexes are inverse to each other, and hold no empty set and only valid rooms. -/
structure WellFormed (reg : RoomRegistry) : Prop where
  inverse : ∀ s r, s ∈ reg.snapshot r ↔ r ∈ reg.roomsOf s
  roomNoEmpty : reg.roomToSessions.NoEmpty
  sessionNoEmpty : reg.sessionToRooms.NoEmpty
  valid : ∀ s r, s ∈ reg.snapshot r → isValidRoom r = true

theorem snapshot_nodup (reg : RoomRegistry) (r : Room) : (reg.snapshot r).Nodup :=
  Index.members_nodup _ _

theorem wellFormed_empty : empty.WellFormed where
  inverse := by simp [snapshot, roomsOf, empty, Index.members]
  roomNoEmpty := by simp [empty, Index.NoEmpty]
  sessionNoEmpty := by simp [empty, Index.NoEmpty]
  valid := by simp [snapshot, empty, Index.members]

/-! ### Joining -/

/-- The condition under which `Join` reaches its critical section. -/
def Admits (authorizer : Option Authorizer) (s : SessionHandle) (r : Room) : Prop :=
  isValidRoom r = true ∧ authorizes authorizer s r false = true

/-- `Join` tests the name, asks the authorizer, and then enters the indexes. -/
theorem join_eq (auth : Authorizer) (s : SessionHandle) (r : Room) (reg : RoomRegistry) :
    reg.join (some auth) s r =
      if !isValidRoom r then (.invalidRoom, reg)
      else if !auth s r false then (.unauthorized, reg)
      else reg.join none s r := by
  unfold join
  cases isValidRoom r with
  | false => rfl
  | true => cases h : auth s r false <;> simp [authorizes, h]

/-- What `Join` does, case by case: it is refused, or it finds the pair, or it inserts it in both
indexes. -/
theorem join_cases (auth : Option Authorizer) (s : SessionHandle) (r : Room) (reg : RoomRegistry) :
    (¬ Admits auth s r ∧ (reg.join auth s r).1 ≠ .ok ∧ (reg.join auth s r).2 = reg) ∨
    (Admits auth s r ∧ r ∈ reg.roomsOf s ∧
      (reg.join auth s r).1 = .alreadySubscribed ∧ (reg.join auth s r).2 = reg) ∨
    (Admits auth s r ∧ r ∉ reg.roomsOf s ∧ reg.join auth s r =
      (.ok, { roomToSessions := reg.roomToSessions.add r s
              sessionToRooms := reg.sessionToRooms.add s r })) := by
  unfold join
  by_cases hv : isValidRoom r = true
  · by_cases ha : authorizes auth s r false = true
    · by_cases hm : r ∈ reg.roomsOf s
      · right; left
        -- the entry exists, so touching it changed nothing
        obtain ⟨rooms, hrooms⟩ : ∃ rooms, reg.sessionToRooms s = some rooms := by
          cases h : reg.sessionToRooms s with
          | none => rw [roomsOf, Index.members_of_none h] at hm; simp at hm
          | some rooms => exact ⟨rooms, rfl⟩
        have hm' : r ∈ reg.sessionToRooms.members s := hm
        simp [Admits, hv, ha, hm, Index.touch_of_some hrooms, hm']
      · right; right
        have hm' : r ∉ reg.sessionToRooms.members s := hm
        simp [Admits, hv, ha, hm, Index.members_touch, hm', Index.add_touch]
    · left
      simp [Admits, hv, ha]
  · left
    simp [Admits, hv]

/-- `Join` succeeds exactly when it is admitted and the pair is new. -/
theorem join_ok_iff (auth : Option Authorizer) (s : SessionHandle) (r : Room)
    (reg : RoomRegistry) :
    (reg.join auth s r).1 = .ok ↔ Admits auth s r ∧ r ∉ reg.roomsOf s := by
  rcases join_cases auth s r reg with ⟨ha, hr, -⟩ | ⟨-, hm, hr, -⟩ | ⟨ha, hm, hr⟩
  · simp [ha, hr]
  · simp [hm, hr]
  · simp [ha, hm, hr]

/-- **A refused `Join` changes neither index.** -/
theorem join_unchanged {auth : Option Authorizer} {s : SessionHandle} {r : Room}
    {reg : RoomRegistry} (h : (reg.join auth s r).1 ≠ .ok) : (reg.join auth s r).2 = reg := by
  rcases join_cases auth s r reg with ⟨-, -, hr⟩ | ⟨-, -, -, hr⟩ | ⟨-, -, hr⟩
  · exact hr
  · exact hr
  · exact absurd (by rw [hr]) h

/-- A `Join` touches its own pair only, and that one only when it answers `Ok`; this holds in any
state of the registry. -/
theorem join_frame (auth : Option Authorizer) (s : SessionHandle) (r : Room) (reg : RoomRegistry)
    (s' : SessionHandle) (r' : Room) :
    (s' ∈ (reg.join auth s r).2.snapshot r' ↔
      ((reg.join auth s r).1 = .ok ∧ s' = s ∧ r' = r) ∨ s' ∈ reg.snapshot r') ∧
    (r' ∈ (reg.join auth s r).2.roomsOf s' ↔
      ((reg.join auth s r).1 = .ok ∧ s' = s ∧ r' = r) ∨ r' ∈ reg.roomsOf s') := by
  by_cases hok : (reg.join auth s r).1 = .ok
  · rcases join_cases auth s r reg with ⟨-, hr, -⟩ | ⟨-, -, hr, -⟩ | ⟨-, -, hr⟩
    · exact absurd hok hr
    · rw [hr] at hok
      cases hok
    · simp only [hr, snapshot, roomsOf, Index.mem_members_add, true_and]
      tauto
  · simp [hok, join_unchanged hok]

/-- An admitted `Join` adds its pair to the room index. -/
theorem mem_snapshot_join {auth : Option Authorizer} {s : SessionHandle} {r : Room}
    {reg : RoomRegistry} (hwf : ∀ s r, s ∈ reg.snapshot r ↔ r ∈ reg.roomsOf s)
    (s' : SessionHandle) (r' : Room) :
    s' ∈ (reg.join auth s r).2.snapshot r' ↔
      (Admits auth s r ∧ s' = s ∧ r' = r) ∨ s' ∈ reg.snapshot r' := by
  rcases join_cases auth s r reg with ⟨ha, -, hr⟩ | ⟨-, hm, -, hr⟩ | ⟨ha, -, hr⟩
  · rw [hr]
    simp [ha]
  · rw [hr]
    constructor
    · exact Or.inr
    · rintro (⟨-, rfl, rfl⟩ | h)
      · exact (hwf _ _).2 hm
      · exact h
  · rw [hr]
    simp only [snapshot, Index.mem_members_add, ha, true_and]
    tauto

/-- `Join` keeps the registry well-formed. -/
theorem WellFormed.join {reg : RoomRegistry} (h : reg.WellFormed) (auth : Option Authorizer)
    (s : SessionHandle) (r : Room) : (reg.join auth s r).2.WellFormed := by
  rcases join_cases auth s r reg with ⟨-, -, hr⟩ | ⟨-, -, -, hr⟩ | ⟨ha, -, hr⟩
  · rwa [hr]
  · rwa [hr]
  · rw [hr]
    refine ⟨?_, h.roomNoEmpty.add r s, h.sessionNoEmpty.add s r, ?_⟩
    · intro s' r'
      have hinv := h.inverse s' r'
      simp only [snapshot, roomsOf] at hinv
      simp only [snapshot, roomsOf, Index.mem_members_add, hinv]
      tauto
    · intro s' r' hm
      simp only [snapshot, Index.mem_members_add] at hm
      rcases hm with ⟨rfl, -⟩ | hm
      · exact ha.1
      · exact h.valid s' r' hm

/-! ### Leaving -/

/-- What `Leave` does, case by case. -/
theorem leave_cases (s : SessionHandle) (r : Room) (reg : RoomRegistry) :
    (r ∉ reg.roomsOf s ∧ reg.leave s r = (.notSubscribed, reg)) ∨
    (r ∈ reg.roomsOf s ∧ reg.leave s r =
      (.ok, { roomToSessions := reg.roomToSessions.drop r s
              sessionToRooms := reg.sessionToRooms.drop s r })) := by
  unfold leave roomsOf
  cases h : reg.sessionToRooms s with
  | none => exact Or.inl ⟨by simp [Index.members_of_none h], rfl⟩
  | some rooms =>
      rw [Index.members_of_some h]
      by_cases hm : r ∈ rooms.elems
      · exact Or.inr ⟨hm, by simp [hm]⟩
      · exact Or.inl ⟨hm, by simp [hm]⟩

/-- `Leave` succeeds exactly when the session is in the room. -/
theorem leave_ok_iff (s : SessionHandle) (r : Room) (reg : RoomRegistry) :
    (reg.leave s r).1 = .ok ↔ r ∈ reg.roomsOf s := by
  rcases leave_cases s r reg with ⟨hm, hr⟩ | ⟨hm, hr⟩
  · simp [hm, hr]
  · simp [hm, hr]

/-- **A refused `Leave` changes neither index.** -/
theorem leave_unchanged {s : SessionHandle} {r : Room} {reg : RoomRegistry}
    (h : (reg.leave s r).1 ≠ .ok) : (reg.leave s r).2 = reg := by
  rcases leave_cases s r reg with ⟨-, hr⟩ | ⟨-, hr⟩
  · rw [hr]
  · exact absurd (by rw [hr]) h

/-- A `Leave` touches its own pair only, and that one only when it answers `Ok`; this holds in any
state of the registry. -/
theorem leave_frame (s : SessionHandle) (r : Room) (reg : RoomRegistry) (s' : SessionHandle)
    (r' : Room) :
    (s' ∈ (reg.leave s r).2.snapshot r' ↔
      ¬ ((reg.leave s r).1 = .ok ∧ s' = s ∧ r' = r) ∧ s' ∈ reg.snapshot r') ∧
    (r' ∈ (reg.leave s r).2.roomsOf s' ↔
      ¬ ((reg.leave s r).1 = .ok ∧ s' = s ∧ r' = r) ∧ r' ∈ reg.roomsOf s') := by
  rcases leave_cases s r reg with ⟨-, hr⟩ | ⟨-, hr⟩
  · simp [hr]
  · simp only [hr, snapshot, roomsOf, Index.mem_members_drop, true_and]
    tauto

/-- `Leave` removes its pair from the room index. -/
theorem mem_snapshot_leave {s : SessionHandle} {r : Room} {reg : RoomRegistry}
    (hwf : ∀ s r, s ∈ reg.snapshot r ↔ r ∈ reg.roomsOf s) (s' : SessionHandle) (r' : Room) :
    s' ∈ (reg.leave s r).2.snapshot r' ↔ ¬ (s' = s ∧ r' = r) ∧ s' ∈ reg.snapshot r' := by
  rcases leave_cases s r reg with ⟨hm, hr⟩ | ⟨-, hr⟩
  · rw [hr]
    constructor
    · intro h
      refine ⟨?_, h⟩
      rintro ⟨rfl, rfl⟩
      exact hm ((hwf _ _).1 h)
    · exact And.right
  · rw [hr]
    simp only [snapshot, Index.mem_members_drop]
    tauto

/-- `Leave` keeps the registry well-formed. -/
theorem WellFormed.leave {reg : RoomRegistry} (h : reg.WellFormed) (s : SessionHandle)
    (r : Room) : (reg.leave s r).2.WellFormed := by
  rcases leave_cases s r reg with ⟨-, hr⟩ | ⟨-, hr⟩
  · rwa [hr]
  · rw [hr]
    refine ⟨?_, h.roomNoEmpty.drop r s, h.sessionNoEmpty.drop s r, ?_⟩
    · intro s' r'
      have hinv := h.inverse s' r'
      simp only [snapshot, roomsOf] at hinv
      simp only [snapshot, roomsOf, Index.mem_members_drop, hinv]
      tauto
    · intro s' r' hm
      simp only [snapshot, Index.mem_members_drop] at hm
      exact h.valid s' r' hm.2

/-! ### Removing a session -/

/-- `RemoveSession` removes the pairs of its session from the room index. -/
theorem mem_snapshot_removeSession {s : SessionHandle} {reg : RoomRegistry}
    (hwf : ∀ s r, s ∈ reg.snapshot r ↔ r ∈ reg.roomsOf s) (s' : SessionHandle) (r' : Room) :
    s' ∈ (reg.removeSession s).snapshot r' ↔ s' ≠ s ∧ s' ∈ reg.snapshot r' := by
  have hs := hwf s r'
  unfold removeSession
  cases h : reg.sessionToRooms s with
  | none =>
      rw [roomsOf, Index.members_of_none h] at hs
      constructor
      · intro hm
        refine ⟨?_, hm⟩
        rintro rfl
        simpa using hs.1 hm
      · exact And.right
  | some rooms =>
      rw [roomsOf, Index.members_of_some h] at hs
      simp only [snapshot] at hs
      simp only [snapshot, Index.mem_members_dropAll]
      constructor
      · rintro ⟨hn, hm⟩
        refine ⟨?_, hm⟩
        rintro rfl
        exact hn ⟨hs.1 hm, rfl⟩
      · rintro ⟨hne, hm⟩
        exact ⟨fun hc => hne hc.2, hm⟩

/-- The rooms of a session after `RemoveSession`. -/
theorem mem_roomsOf_removeSession {s : SessionHandle} {reg : RoomRegistry} (s' : SessionHandle)
    (r' : Room) : r' ∈ (reg.removeSession s).roomsOf s' ↔ s' ≠ s ∧ r' ∈ reg.roomsOf s' := by
  unfold removeSession roomsOf
  by_cases hs : s' = s
  · subst hs
    cases h : reg.sessionToRooms s' with
    | none => simp [Index.members_of_none h]
    | some rooms => simp [Index.members]
  · cases h : reg.sessionToRooms s with
    | none => simp [hs]
    | some rooms =>
        simp only [ne_eq, hs, not_false_eq_true, true_and]
        rw [Index.members_congr (Function.update_of_ne hs _ _)]

/-- `RemoveSession` keeps the registry well-formed. -/
theorem WellFormed.removeSession {reg : RoomRegistry} (h : reg.WellFormed) (s : SessionHandle) :
    (reg.removeSession s).WellFormed := by
  refine ⟨?_, ?_, ?_, ?_⟩
  · intro s' r'
    rw [mem_snapshot_removeSession h.inverse, mem_roomsOf_removeSession, h.inverse]
  · unfold RoomRegistry.removeSession
    split
    · exact h.roomNoEmpty
    · exact h.roomNoEmpty.dropAll _ _
  · unfold RoomRegistry.removeSession
    split
    · exact h.sessionNoEmpty
    · intro s' set hset
      by_cases hs : s' = s
      · subst hs
        simp at hset
      · refine h.sessionNoEmpty s' set ?_
        rw [← hset]
        exact (Function.update_of_ne hs _ _).symm
  · intro s' r' hm
    exact h.valid s' r' ((mem_snapshot_removeSession h.inverse s' r').1 hm).2

/-- A session without rooms has no entry. -/
theorem WellFormed.sessionToRooms_eq_none {reg : RoomRegistry} (h : reg.WellFormed)
    {s : SessionHandle} (hs : ∀ r, r ∉ reg.roomsOf s) : reg.sessionToRooms s = none := by
  cases hentry : reg.sessionToRooms s with
  | none => rfl
  | some rooms =>
      have hempty : rooms.elems = [] := by
        refine List.eq_nil_iff_forall_not_mem.2 fun r hr => hs r ?_
        rw [roomsOf, Index.members_of_some hentry]
        exact hr
      exact absurd hempty (h.sessionNoEmpty s rooms hentry)

/-! ### Publishing -/

/-- `AuthorizePublish` tests the name, asks the authorizer, and then looks the pair up. -/
theorem authorizePublish_eq (auth : Authorizer) (s : SessionHandle) (r : Room)
    (reg : RoomRegistry) :
    reg.authorizePublish (some auth) s r =
      if !isValidRoom r then .invalidRoom
      else if !auth s r true then .unauthorized
      else reg.authorizePublish none s r := by
  unfold authorizePublish
  cases isValidRoom r with
  | false => rfl
  | true => cases h : auth s r true <;> simp [authorizes, h]

/-- `AuthorizePublish` with its three checks in their order, the last of them about the rooms of the
session. -/
theorem authorizePublish_checks (auth : Authorizer) (s : SessionHandle) (r : Room)
    (reg : RoomRegistry) :
    reg.authorizePublish (some auth) s r =
      if !isValidRoom r then .invalidRoom
      else if !auth s r true then .unauthorized
      else if r ∈ reg.roomsOf s then .ok else .notSubscribed := by
  unfold authorizePublish roomsOf
  cases h : reg.sessionToRooms s with
  | none => simp [authorizes, Index.members_of_none h]
  | some rooms => simp [authorizes, Index.members_of_some h]

/-- `AuthorizePublish` succeeds exactly for a valid room, an agreeing authorizer and a subscribed
session. -/
theorem authorizePublish_ok_iff (auth : Option Authorizer) (s : SessionHandle) (r : Room)
    (reg : RoomRegistry) :
    reg.authorizePublish auth s r = .ok ↔
      isValidRoom r = true ∧ authorizes auth s r true = true ∧ r ∈ reg.roomsOf s := by
  unfold authorizePublish roomsOf
  by_cases hv : isValidRoom r = true
  · by_cases ha : authorizes auth s r true = true
    · cases h : reg.sessionToRooms s with
      | none => simp [hv, ha, Index.members_of_none h]
      | some rooms => simp [hv, ha, Index.members_of_some h]
    · simp [hv, ha]
  · simp [hv]

end RoomRegistry

end RealtimeEngine
