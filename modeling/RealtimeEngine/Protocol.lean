/-
**The application messages and the validation of published domain payloads.**

`schema/protocol.fbs` defines the envelope `NetworkMessage` and its payloads.  FlatBuffers gives
access to a verified buffer through pointers that may be null, so an optional table, string or
vector is an `Option` here, also where the schema marks it as required: the router checks for
null itself.  A union is its type tag together with the table behind it; a tag outside the schema
passes verification and is kept as `unknown`.

Main definitions:

* `RealtimeEngine.NetworkMessage`, `RealtimeEngine.Payload`, `RealtimeEngine.Publish`,
  `RealtimeEngine.DomainPayload` and the tables — what the router reads of a message;
* `RealtimeEngine.validString`, `RealtimeEngine.validateMatchInfo`, …,
  `RealtimeEngine.validateDomain` — the validators of `application/protocol_router.cpp`;
* `RealtimeEngine.DomainPayload.WellFormed` — the conditions on a published payload, spelled out.

Main results:

* `RealtimeEngine.validString_iff` — what a valid string is;
* `RealtimeEngine.validateDomain_iff` — **the validators check exactly the conditions**, for every
  court and every inventory item.
-/

import RealtimeEngine.Basic

set_option relaxedAutoImplicit false
set_option autoImplicit false

namespace RealtimeEngine

/-! ### The tables of the schema -/

/-- `MatchInfo`, without the scores, the status and the time, which nothing reads. -/
structure MatchInfo where
  matchId : Option Bytes
  sportName : Option Bytes
  team1 : Option Bytes
  team2 : Option Bytes

/-- `MatchScoreUpdate`. -/
structure MatchScoreUpdate where
  matchId : Option Bytes
  timelineEvent : Option Bytes

/-- `CourtStatus`. -/
structure CourtStatus where
  facilityId : Option Bytes
  courtId : Option Bytes
  sportName : Option Bytes
  courtName : Option Bytes

/-- `FacilityUpdate`. -/
structure FacilityUpdate where
  facilityId : Option Bytes
  courts : Option (List (Option CourtStatus))

/-- `EquipmentStatus`. -/
structure EquipmentStatus where
  facilityId : Option Bytes
  equipmentId : Option Bytes
  itemName : Option Bytes
  totalInventory : UInt32
  availableCount : UInt32

/-- `EquipmentUpdate`. -/
structure EquipmentUpdate where
  facilityId : Option Bytes
  inventory : Option (List (Option EquipmentStatus))

/-- `BookingNotification`. -/
structure BookingNotification where
  bookingId : Option Bytes
  userId : Option Bytes
  resourceId : Option Bytes
  userDisplayName : Option Bytes
  startTimeMs : UInt64
  endTimeMs : UInt64

/-- `SystemAlert`. -/
structure SystemAlert where
  message : Option Bytes

/-- The union `DomainPayload`: the tag, and the table unless the pointer is null. -/
inductive DomainPayload
  | none
  | unknown (tag : UInt8)
  | matchInfo (table : Option MatchInfo)
  | matchScoreUpdate (table : Option MatchScoreUpdate)
  | facilityUpdate (table : Option FacilityUpdate)
  | equipmentUpdate (table : Option EquipmentUpdate)
  | bookingNotification (table : Option BookingNotification)
  | systemAlert (table : Option SystemAlert)

/-- `Ping`. -/
structure PingTable where
  timestampMs : UInt64

/-- `Authenticate`. -/
structure Authenticate where
  token : Option Bytes

/-- `JoinRoom` and `LeaveRoom`, which have the same fields. -/
structure RoomRequest where
  room : Option Bytes

/-- `Publish`. -/
structure Publish where
  room : Option Bytes
  message : DomainPayload

/-- The tags of the union `Payload` that only the server sends. -/
inductive ServerPayload
  | matchInfo
  | matchScoreUpdate
  | facilityUpdate
  | equipmentUpdate
  | bookingNotification
  | systemAlert
  | authenticationResult
  | subscriptionAck
  | errorResponse
  deriving DecidableEq, Repr

/-- The union `Payload`.  Of the payloads that only the server sends, and of those with a tag
outside the schema, the router reads no more than whether the pointer is null. -/
inductive Payload
  | none
  | unknown (tag : UInt8) (present : Bool)
  | serverOnly (kind : ServerPayload) (present : Bool)
  | ping (table : Option PingTable)
  | pong (present : Bool)
  | authenticate (table : Option Authenticate)
  | joinRoom (table : Option RoomRequest)
  | leaveRoom (table : Option RoomRequest)
  | publish (table : Option Publish)

/-- `payload_type() == Payload::NONE || payload() == nullptr`. -/
def Payload.isMissing : Payload → Bool
  | none => true
  | unknown _ present => !present
  | serverOnly _ present => !present
  | ping table => table.isNone
  | pong present => !present
  | authenticate table => table.isNone
  | joinRoom table => table.isNone
  | leaveRoom table => table.isNone
  | publish table => table.isNone

/-- `NetworkMessage`, without the client's sequence number and time, which nothing reads. -/
structure NetworkMessage where
  protocolVersion : UInt16
  requestId : UInt64
  payload : Payload

/-! ### Validation -/

/-- `ProtocolVersion`. -/
def protocolVersion : UInt16 := 1

/-- `MaxIdentifierLength`. -/
def maxIdentifierLength : ℕ := 160

/-- `MaxDisplayLength`. -/
def maxDisplayLength : ℕ := 256

/-- `MaxTextLength`. -/
def maxTextLength : ℕ := 4096

/-- `ValidString`. -/
def validString (value : Option Bytes) (maxLength : ℕ) (allowEmpty : Bool := false) : Bool :=
  match value with
  | none => false
  | some text => decide (text.length ≤ maxLength) && (allowEmpty || !text.isEmpty)

/-- `ValidateMatchInfo`. -/
def validateMatchInfo (value : Option MatchInfo) : Bool :=
  match value with
  | none => false
  | some v =>
      validString v.matchId maxIdentifierLength && validString v.sportName maxIdentifierLength &&
        validString v.team1 maxDisplayLength && validString v.team2 maxDisplayLength &&
        v.team1 != v.team2

/-- `ValidateMatchScore`. -/
def validateMatchScore (value : Option MatchScoreUpdate) : Bool :=
  match value with
  | none => false
  | some v =>
      validString v.matchId maxIdentifierLength &&
        (v.timelineEvent.isNone || validString v.timelineEvent maxTextLength true)

/-- The body of the loop over the courts in `ValidateFacility`. -/
def validCourt (facilityId : Option Bytes) (court : Option CourtStatus) : Bool :=
  match court with
  | none => false
  | some c =>
      validString c.facilityId maxIdentifierLength && validString c.courtId maxIdentifierLength &&
        validString c.sportName maxIdentifierLength && validString c.courtName maxDisplayLength &&
        c.facilityId == facilityId

/-- `ValidateFacility`. -/
def validateFacility (value : Option FacilityUpdate) : Bool :=
  match value with
  | none => false
  | some v =>
      validString v.facilityId maxIdentifierLength &&
        match v.courts with
        | none => false
        | some courts => decide (courts.length ≤ 1024) && courts.all (validCourt v.facilityId)

/-- The body of the loop over the inventory in `ValidateEquipment`. -/
def validItem (facilityId : Option Bytes) (item : Option EquipmentStatus) : Bool :=
  match item with
  | none => false
  | some i =>
      validString i.facilityId maxIdentifierLength &&
        validString i.equipmentId maxIdentifierLength && validString i.itemName maxDisplayLength &&
        i.facilityId == facilityId && decide (i.availableCount ≤ i.totalInventory)

/-- `ValidateEquipment`. -/
def validateEquipment (value : Option EquipmentUpdate) : Bool :=
  match value with
  | none => false
  | some v =>
      validString v.facilityId maxIdentifierLength &&
        match v.inventory with
        | none => false
        | some inventory =>
            decide (inventory.length ≤ 4096) && inventory.all (validItem v.facilityId)

/-- `ValidateBooking`. -/
def validateBooking (value : Option BookingNotification) : Bool :=
  match value with
  | none => false
  | some v =>
      validString v.bookingId maxIdentifierLength && validString v.userId maxIdentifierLength &&
        validString v.resourceId maxIdentifierLength &&
        (v.userDisplayName.isNone || validString v.userDisplayName maxDisplayLength true) &&
        decide (v.startTimeMs < v.endTimeMs)

/-- `ValidateAlert`. -/
def validateAlert (value : Option SystemAlert) : Bool :=
  match value with
  | none => false
  | some v => validString v.message maxTextLength

/-- `ValidateDomain`.  A null `message()` is a null table under its tag, which the validator of
the tag rejects as well. -/
def validateDomain (publish : Option Publish) : Bool :=
  match publish with
  | none => false
  | some p =>
      validString p.room maxIdentifierLength &&
        match p.message with
        | .none => false
        | .unknown _ => false
        | .matchInfo table => validateMatchInfo table
        | .matchScoreUpdate table => validateMatchScore table
        | .facilityUpdate table => validateFacility table
        | .equipmentUpdate table => validateEquipment table
        | .bookingNotification table => validateBooking table
        | .systemAlert table => validateAlert table

/-! ### What the validators check -/

/-- A string that is present, not empty and no longer than the limit. -/
def Within (limit : ℕ) (value : Option Bytes) : Prop :=
  ∃ text, value = some text ∧ text ≠ [] ∧ text.length ≤ limit

/-- A string that may be absent or empty, and is no longer than the limit. -/
def AtMost (limit : ℕ) (value : Option Bytes) : Prop :=
  ∀ text, value = some text → text.length ≤ limit

theorem validString_iff (value : Option Bytes) (limit : ℕ) :
    validString value limit = true ↔ Within limit value := by
  cases value with
  | none => simp [validString, Within]
  | some text =>
      simp [validString, Within]
      tauto

theorem validString_empty_iff (value : Option Bytes) (limit : ℕ) :
    (value.isNone || validString value limit true) = true ↔ AtMost limit value := by
  cases value with
  | none => simp [AtMost]
  | some text => simp [validString, AtMost]

/-- The conditions on a court of a facility. -/
def CourtStatus.WellFormed (facilityId : Option Bytes) (c : CourtStatus) : Prop :=
  Within 160 c.facilityId ∧ Within 160 c.courtId ∧ Within 160 c.sportName ∧
    Within 256 c.courtName ∧ c.facilityId = facilityId

/-- The conditions on an inventory item of a facility. -/
def EquipmentStatus.WellFormed (facilityId : Option Bytes) (i : EquipmentStatus) : Prop :=
  Within 160 i.facilityId ∧ Within 160 i.equipmentId ∧ Within 256 i.itemName ∧
    i.facilityId = facilityId ∧ i.availableCount ≤ i.totalInventory

/-- The conditions on a published payload, spelled out: which strings must be present and how long
they may be, how many courts and items there may be and what each of them must satisfy, and that a
booking ends after it starts. -/
def DomainPayload.WellFormed : DomainPayload → Prop
  | matchInfo (some v) =>
      Within 160 v.matchId ∧ Within 160 v.sportName ∧ Within 256 v.team1 ∧ Within 256 v.team2 ∧
        v.team1 ≠ v.team2
  | matchScoreUpdate (some v) => Within 160 v.matchId ∧ AtMost 4096 v.timelineEvent
  | facilityUpdate (some v) =>
      Within 160 v.facilityId ∧ ∃ courts, v.courts = some courts ∧ courts.length ≤ 1024 ∧
        ∀ court ∈ courts, ∃ c, court = some c ∧ c.WellFormed v.facilityId
  | equipmentUpdate (some v) =>
      Within 160 v.facilityId ∧ ∃ inventory, v.inventory = some inventory ∧
        inventory.length ≤ 4096 ∧ ∀ item ∈ inventory, ∃ i, item = some i ∧ i.WellFormed v.facilityId
  | bookingNotification (some v) =>
      Within 160 v.bookingId ∧ Within 160 v.userId ∧ Within 160 v.resourceId ∧
        AtMost 256 v.userDisplayName ∧ v.startTimeMs < v.endTimeMs
  | systemAlert (some v) => Within 4096 v.message
  | _ => False

theorem validCourt_iff (facilityId : Option Bytes) (court : Option CourtStatus) :
    validCourt facilityId court = true ↔ ∃ c, court = some c ∧ c.WellFormed facilityId := by
  cases court with
  | none => simp [validCourt]
  | some c =>
      simp [validCourt, CourtStatus.WellFormed, validString_iff, maxIdentifierLength,
        maxDisplayLength, and_assoc]

theorem validItem_iff (facilityId : Option Bytes) (item : Option EquipmentStatus) :
    validItem facilityId item = true ↔ ∃ i, item = some i ∧ i.WellFormed facilityId := by
  cases item with
  | none => simp [validItem]
  | some i =>
      simp [validItem, EquipmentStatus.WellFormed, validString_iff, maxIdentifierLength,
        maxDisplayLength, and_assoc]

theorem validateFacility_iff (value : Option FacilityUpdate) :
    validateFacility value = true ↔ (DomainPayload.facilityUpdate value).WellFormed := by
  cases value with
  | none => simp [validateFacility, DomainPayload.WellFormed]
  | some v =>
      cases hc : v.courts with
      | none => simp [validateFacility, DomainPayload.WellFormed, hc]
      | some courts =>
          simp [validateFacility, DomainPayload.WellFormed, hc, validString_iff, validCourt_iff,
            maxIdentifierLength]

theorem validateEquipment_iff (value : Option EquipmentUpdate) :
    validateEquipment value = true ↔ (DomainPayload.equipmentUpdate value).WellFormed := by
  cases value with
  | none => simp [validateEquipment, DomainPayload.WellFormed]
  | some v =>
      cases hi : v.inventory with
      | none => simp [validateEquipment, DomainPayload.WellFormed, hi]
      | some inventory =>
          simp [validateEquipment, DomainPayload.WellFormed, hi, validString_iff, validItem_iff,
            maxIdentifierLength]

/-- **`ValidateDomain` checks exactly the conditions**: the room string and, under the tag of the
payload, every condition of its table. -/
theorem validateDomain_iff (p : Publish) :
    validateDomain (some p) = true ↔ Within 160 p.room ∧ p.message.WellFormed := by
  simp only [validateDomain, Bool.and_eq_true, validString_iff, maxIdentifierLength]
  refine and_congr_right fun _ => ?_
  cases hm : p.message with
  | none => simp [DomainPayload.WellFormed]
  | unknown tag => simp [DomainPayload.WellFormed]
  | matchInfo table =>
      cases table <;> simp [validateMatchInfo, DomainPayload.WellFormed, validString_iff,
        maxIdentifierLength, maxDisplayLength, and_assoc]
  | matchScoreUpdate table =>
      cases table with
      | none => simp [validateMatchScore, DomainPayload.WellFormed]
      | some v =>
          simp only [validateMatchScore, DomainPayload.WellFormed, Bool.and_eq_true,
            validString_iff, validString_empty_iff, maxIdentifierLength, maxTextLength]
  | facilityUpdate table => exact validateFacility_iff table
  | equipmentUpdate table => exact validateEquipment_iff table
  | bookingNotification table =>
      cases table with
      | none => simp [validateBooking, DomainPayload.WellFormed]
      | some v =>
          simp only [validateBooking, DomainPayload.WellFormed, Bool.and_eq_true,
            validString_iff, validString_empty_iff, maxIdentifierLength, maxDisplayLength,
            decide_eq_true_eq, and_assoc]
  | systemAlert table =>
      cases table <;> simp [validateAlert, DomainPayload.WellFormed, validString_iff,
        maxTextLength]

end RealtimeEngine
