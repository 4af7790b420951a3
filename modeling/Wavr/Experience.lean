import Wavr.Dict
import Wavr.Fusion
import Wavr.Text

/-!
# What an experience is told of a room

The context of a room is built from what the Core holds, and reduced to the scopes that the caller was
granted.
-/

namespace Wavr.Experience
open Fusion (Arith Level)
open Text

def CAP_PRESENCE : String := "presence"
def CAP_COUNT : String := "count"
def CAP_POSITION : String := "position"
def CAP_ANCHORS : String := "anchors"
def CAP_DISPLAY : String := "display"
def CAP_AUDIO : String := "audio"

def SCOPE_PRESENCE : String := "room.presence"
def SCOPE_COUNT : String := "room.count"
def SCOPE_POSITION : String := "room.position"
def SCOPE_ANCHORS : String := "anchors.read"
def SCOPE_DEVICES : String := "devices.read"

/-- The scope that each capability needs. -/
def CAPABILITY_SCOPE : List (String × String) :=
  [(CAP_PRESENCE, SCOPE_PRESENCE), (CAP_COUNT, SCOPE_COUNT), (CAP_POSITION, SCOPE_POSITION),
    (CAP_ANCHORS, SCOPE_ANCHORS), (CAP_DISPLAY, SCOPE_DEVICES), ( CAP_AUDIO, SCOPE_DEVICES)]

/-! ## What the Core holds -/

/-- A device with what it said of itself; `none` where it did not say. -/
structure Device where
  deviceId : String
  room : String
  functions : List String
  display : Option Bool
  audio : Option Bool
  uwb : Option Bool
  deriving DecidableEq

/-- A row of the sensor coverage. A text that is missing is empty. -/
structure CoverageRow where
  sensorId : String
  room : String
  modality : String
  health : Option String
  precisionLevel : Option String
  deriving DecidableEq

/-- A source that feeds the fusion of a room. -/
structure Source where
  modality : String
  health : Option String
  precisionLevel : Option String
  deriving DecidableEq

structure RoomState (R : Type) where
  precisionLevel : Option String
  confidence : Option R
  occupied : Option Bool
  personCount : Option ℤ
  sources : List Source
  deriving DecidableEq

/-- An anchor is passed on as it is. -/
structure Anchor (A : Type) where
  room : String
  rest : A
  deriving DecidableEq

/-- The reliability of a sensor. -/
structure Profile (R : Type) where
  measured : Bool
  accuracy : Option R
  deriving DecidableEq

structure Space where
  spaceId : String
  name : String
  deriving DecidableEq

/-- `_pieces`: what the routes hand to the builders. `profile` is the read of the reliability of a sensor
for a capability in a room, `none` also where that raises. -/
structure Pieces (R A : Type) where
  space : Option Space
  coverageRows : List CoverageRow
  anchors : List (Anchor A)
  devices : List Device
  profile : String → String → String → Option (Profile R)

/-! ## How wrong an answer might be -/

def BASIS_MEASURED : String := "measured"
def BASIS_UNMEASURED : String := "unmeasured"
def BASIS_NONE : String := "none"

structure Uncertainty (R : Type) where
  room : String
  precision : String
  basis : String
  sensors : ℕ
  measuredSensors : ℕ
  worstAccuracy : Option R
  residualM : Option R
  deriving DecidableEq

section
variable {R : Type} (ar : Arith R)

/-- `_SCOPE_RANK`, which is zero for other texts. -/
def scopeRank (level : String) : ℕ :=
  ([("none", 0), ("house", 1), ("room", 2), ("count", 3), ("position", 4)].lookup level).getD 0

def assess (room precision : String) (rows : List CoverageRow)
    (profile : String → String → String → Option (Profile R)) (residualM : Option R) : Uncertainty R :=
  let working := rows.filter fun r => r.room = room && r.health = some "ok"
  if working = [] ∨ scopeRank precision = 0 then
    { room
      precision := if truthy precision then precision else "none"
      basis := BASIS_NONE
      sensors := 0
      measuredSensors := 0
      worstAccuracy := none
      residualM := none }
  else
    let capability := if scopeRank "count" ≤ scopeRank precision then "count" else "presence"
    let accuracies := working.filterMap fun r =>
      ((profile r.sensorId capability room).filter Profile.measured).bind Profile.accuracy
    { room
      precision
      basis := if accuracies = [] then BASIS_UNMEASURED else BASIS_MEASURED
      sensors := working.length
      measuredSensors := accuracies.length
      worstAccuracy := accuracies.foldl (fun worst a => some ((worst.map (ar.min · a)).getD a)) none
      residualM }

def GRANULARITY : List (String × String) :=
  [("none", "nothing — no reading at all"),
    ("house", "the whole house; this cannot tell rooms apart"),
    ("room", "which room, and no finer"),
    ("count", "which room and how many, but not where in it"),
    ("position", "roughly where in the room")]

def granularity (precision : String) : String :=
  (GRANULARITY.lookup precision).getD "nothing — no reading at all"

/-- `_note`. -/
def Uncertainty.note (u : Uncertainty R) : String :=
  if u.basis = BASIS_NONE then
    "Nothing is reporting in " ++ u.room ++ ", so there is no answer to be uncertain about."
  else if u.basis = BASIS_UNMEASURED then
    "This answer is about " ++ granularity u.precision ++ ". How often it is RIGHT has not been " ++
      "measured here — run a guided check to find out. Wavr will not print an error figure it did " ++
      "not measure."
  else
    "This answer is about " ++ granularity u.precision ++ ". " ++ toString u.measuredSensors ++ " of " ++
      toString u.sensors ++ " sensors here have been checked against a guided walk." ++
      match u.worstAccuracy with
      | none => ""
      | some accuracy =>
        " Its least accurate sensor was right " ++ toString (ar.roundInt (ar.mul accuracy (ar.lit 100))) ++
          "% of the time in the checks so far."

/-- `Uncertainty.to_dict`; it has no residual where none is known. -/
structure UncertaintyDict (R : Type) where
  room : String
  granularity : String
  precision : String
  basis : String
  sensors : ℕ
  measuredSensors : ℕ
  worstAccuracy : Option R
  note : String
  residualM : Option R
  deriving DecidableEq

def Uncertainty.toDict (u : Uncertainty R) : UncertaintyDict R where
  room := u.room
  granularity := Experience.granularity u.precision
  precision := u.precision
  basis := u.basis
  sensors := u.sensors
  measuredSensors := u.measuredSensors
  worstAccuracy := u.worstAccuracy
  note := u.note ar
  residualM := u.residualM.map ar.round3

end

/-! ## The parts of a context -/

/-- Each element with how many of its key have come so far, itself counted. -/
def numbered {α : Type} (key : α → String) : Dict String ℕ → List α → List (α × ℕ)
  | _, [] => []
  | counts, a :: l =>
    let n := (counts.get? (key a)).getD 0 + 1
    (a, n) :: numbered key (counts.set (key a) n) l

/-- What a device is to a user. -/
def deviceKind (d : Device) : String :=
  if d.display = some true then "screen" else if d.audio = some true then "speaker" else "device"

structure VisibleDevice where
  deviceId : String
  label : String
  functions : List String
  display : Option Bool
  audio : Option Bool
  uwb : Option Bool
  deriving DecidableEq

def visibleDevices (devices : List Device) (room : String) : List VisibleDevice :=
  (numbered deviceKind .empty (devices.filter fun d => d.room = room)).map fun (d, n) =>
    let label := if truthy room then strip (room ++ " " ++ deviceKind d) else deviceKind d
    { deviceId := d.deviceId
      label := if 1 < n then label ++ " " ++ toString n else label
      functions := d.functions
      display := d.display
      audio := d.audio
      uwb := d.uwb }

/-- `str(row.get("modality") or "sensor")`. -/
def modalityOf (r : CoverageRow) : String := if truthy r.modality then r.modality else "sensor"

/-- `_SENSOR_SOURCE`. -/
def sensorSource (sensorId : String) : String :=
  (([("sim:", "simulated"), ("ha:", "home_assistant"), ("ext:", "external")].find? fun e =>
    e.1.toList.isPrefixOf sensorId.toList).map Prod.snd).getD "wavr"

/-- Every row with its label and its source. -/
def labelled (rows : List CoverageRow) : List (CoverageRow × String × String) :=
  (numbered modalityOf .empty rows).map fun (r, n) =>
    (r, modalityOf r ++ " " ++ toString n, sensorSource r.sensorId)

structure VisibleSensor where
  label : String
  modality : String
  health : Option String
  precisionLevel : Option String
  source : String
  simulated : Bool
  deriving DecidableEq

def visibleSensors (rows : List CoverageRow) : List VisibleSensor :=
  (labelled rows).map fun (r, label, source) =>
    { label
      modality := modalityOf r
      health := r.health
      precisionLevel := r.precisionLevel
      source
      simulated := source = "simulated" }

/-- `_LIVE_OK`. -/
def isLive (s : Source) : Bool := s.health = some "fresh" || s.health = some "stale"

def isWorking (r : CoverageRow) : Bool := r.health = some "ok"

def levelName : Fusion.Level → String
  | .none => "none"
  | .house => "house"
  | .room => "room"
  | .count => "count"
  | .position => "position"

/-- A level that is declared, or else that of the modality. -/
def levelOf (modality : String) (precisionLevel : Option String) : String :=
  (precisionLevel.filter (truthy ·)).getD (levelName (Fusion.scopeOf modality))

/-- `_capability_from`. -/
def capabilityFrom (level : String) : List String :=
  (if level ∈ ["room", "count", "position"] then [CAP_PRESENCE] else []) ++
  (if level ∈ ["count", "position"] then [CAP_COUNT] else []) ++
  (if level = "position" then [CAP_POSITION] else [])

variable {R A V : Type}

def liveSources (rs : Option (RoomState R)) : List Source :=
  match rs with
  | none => []
  | some rs => rs.sources.filter isLive

def roomCapabilities (rows : List CoverageRow) (anchors : List (Anchor A)) (devices : List VisibleDevice)
    (rs : Option (RoomState R)) : List String :=
  sortedSet (
    ((rows.filter isWorking).flatMap fun r => capabilityFrom (levelOf r.modality r.precisionLevel)) ++
    ((liveSources rs).flatMap fun s => capabilityFrom (levelOf s.modality s.precisionLevel)) ++
    (if anchors = [] then [] else [CAP_ANCHORS]) ++
    (if devices.any fun d => d.display = some true then [CAP_DISPLAY] else []) ++
    (if devices.any fun d => d.audio = some true then [ CAP_AUDIO] else [])).toFinset

/-- `sorted` of a list. -/
def sortedList (l : List String) : List String := l.insertionSort (· ≤ ·)

/-- The labels of the rows that should report and do not. -/
def silentNames (rows : List CoverageRow) : List String :=
  sortedList ((labelled rows).filterMap fun (r, label, _) =>
    if r.health ∈ [some "ok", some "disabled"] then none else some label)

/-- A count, with a row that declares it, from a sensor that loses who stays still. -/
def countMayLag (rows : List CoverageRow) : Bool :=
  let counting := rows.filter fun r =>
    isWorking r && r.precisionLevel ∈ [some "count", some "position"]
  counting ≠ [] && ! counting.any fun r => Fusion.isTrustedAbsence r.modality

def limitations (room : String) (rs : Option (RoomState R)) (rows : List CoverageRow)
    (capabilities : List String) : List String :=
  let live := liveSources rs
  if rows = [] ∧ live = [] then
    ["No sensor covers " ++ room ++ ". Wavr cannot tell whether anybody is here."]
  else if rows = [] then
    let what := sortedSet (live.map fun s => if truthy s.modality then s.modality else "?").toFinset
    [room ++ " is sensed by an integration rather than by a sensor Wavr manages (" ++
      ", ".intercalate what ++ "). If it stops reporting, the fix is over there, not here."]
  else if (∀ r ∈ rows, ¬ isWorking r) ∧ live = [] then
    let one := rows.length = 1
    [(if one then "The sensor" else "All " ++ toString rows.length ++ " sensors") ++ " in " ++ room ++ " " ++
      (if one then "is" else "are") ++ " not reporting. Nothing here is being observed right now."]
  else
    (if silentNames rows = [] then [] else
      ["Not everything here is reporting: " ++ ", ".intercalate (silentNames rows) ++ ". What Wavr says about " ++
        room ++ " rests on fewer sensors than it should."]) ++
    (if CAP_COUNT ∉ capabilities then
      ["Wavr can tell whether somebody is in " ++ room ++ ", not how many."]
    else if CAP_POSITION ∉ capabilities then
      ["Wavr can count people in " ++ room ++ ", not place them within it."]
    else []) ++
    (if countMayLag rows then
      ["The counting sensors in " ++ room ++ " detect movement, so somebody who stays very still can " ++
        "disappear from them. A count here can lag reality by up to the freshness window."]
    else []) ++
    (if (∃ s ∈ rs, s.personCount = none) ∧ CAP_COUNT ∈ capabilities then
      ["Nothing in " ++ room ++ " has produced a headcount yet."]
    else [])

/-! ## The context of a room -/

/-- `ExperienceContext.to_dict` and what is left of it for a caller. `withheld` is a key of the second
alone; `others` are keys that no context has today. -/
structure Body (R A V : Type) where
  protocolVersion : ℤ
  space : Space
  room : String
  precision : String
  confidence : R
  occupied : Option Bool
  occupancy : Option ℤ
  occupancyKnown : Bool
  capabilities : List String
  anchors : List (Anchor A)
  devices : List VisibleDevice
  sensors : List VisibleSensor
  uncertainty : UncertaintyDict R
  limitations : List String
  note : String
  withheld : Option (List String)
  others : Dict String V

/-- `contracts.version("experience_context")`. -/
def CONTRACT_VERSION : ℤ := 2

def contextNote : String :=
  "`limitations` says what this room cannot answer right now. An absent value is not a negative one — " ++
    "`occupancy: null` means nobody is counting here, never that the room is empty."

section
variable (ar : Arith R) (pieces : Pieces R A)

/-- `build_context` with `to_dict`. -/
def buildContext (residualM : Option R) (protocolVersion : Option ℤ) (room : String)
    (rs : Option (RoomState R)) : Body R A V :=
  let rows := pieces.coverageRows.filter fun r => r.room = room
  let roomAnchors := pieces.anchors.filter fun a => a.room = room
  let dev := visibleDevices pieces.devices room
  let caps := roomCapabilities rows roomAnchors dev rs
  let precision := ((rs.bind RoomState.precisionLevel).filter (truthy ·)).getD "none"
  let occupancy := rs.bind RoomState.personCount
  { protocolVersion := protocolVersion.getD CONTRACT_VERSION
    space := pieces.space.getD ⟨"", ""⟩
    room
    precision
    confidence := ar.round3 ((rs.bind RoomState.confidence).getD (ar.lit 0))
    occupied := rs.bind RoomState.occupied
    occupancy
    occupancyKnown := occupancy.isSome
    capabilities := caps
    anchors := roomAnchors
    devices := dev
    sensors := visibleSensors rows
    uncertainty := (assess ar room precision rows pieces.profile residualM).toDict ar
    limitations := limitations room rs rows caps
    note := contextNote
    withheld := none
    others := .empty }

/-- Every room at once. -/
structure SpaceBody (R A V : Type) where
  protocolVersion : Option ℤ
  space : Space
  rooms : List (Body R A V)
  roomsWithoutSensing : List String
  note : String

def buildSpaceContext (protocolVersion : Option ℤ) (rooms : List String)
    (states : String → Option (RoomState R)) : SpaceBody R A V :=
  let out := rooms.map fun r => buildContext ar pieces none protocolVersion r (states r)
  { protocolVersion
    space := pieces.space.getD ⟨"", ""⟩
    rooms := out
    roomsWithoutSensing := (out.filter fun c => CAP_PRESENCE ∉ c.capabilities).map Body.room
    note := "Each room reports its own capabilities and its own limitations. They differ — a house is " ++
      "not uniformly observed, and treating it as one is how an application ends up trusting the darkest " ++
      "room as much as the brightest." }

end

/-! ## What a caller was granted -/

/-- `_NAMES_SENSORS`. -/
def NAMES_SENSORS : String := "Not everything here is reporting"

def limitationsWithoutNames (body : Body R A V) : List String :=
  body.limitations.map fun line =>
    if NAMES_SENSORS.toList.isPrefixOf line.toList then
      let quiet := if body.sensors = [] then 0 else line.toList.count ',' + 1
      "Not everything in this room is reporting" ++
        (if quiet = 0 then "" else
          " (" ++ toString quiet ++ " sensor" ++ (if quiet = 1 then "" else "s") ++ " quiet)") ++
        ". What Wavr says here rests on fewer sensors than it should."
    else line

/-- What a set of scopes leaves out, in the order in which that is said. -/
def removed (allowed : Finset String) : List String :=
  (if SCOPE_COUNT ∈ allowed then [] else [CAP_COUNT]) ++
  (if SCOPE_POSITION ∈ allowed then [] else [CAP_POSITION]) ++
  (if SCOPE_ANCHORS ∈ allowed then [] else [CAP_ANCHORS]) ++
  (if SCOPE_DEVICES ∈ allowed then [] else ["devices"])

/-- `none` is a caller that is not scoped: the Core itself. -/
def redact (body : Body R A V) : Option (Finset String) → Body R A V
  | none => body
  | some allowed =>
    { protocolVersion := body.protocolVersion
      space := body.space
      room := body.room
      precision := body.precision
      confidence := body.confidence
      occupied := body.occupied
      uncertainty := body.uncertainty
      occupancy := if SCOPE_COUNT ∈ allowed then body.occupancy else none
      occupancyKnown := if SCOPE_COUNT ∈ allowed then body.occupancyKnown else false
      anchors := if SCOPE_ANCHORS ∈ allowed then body.anchors else []
      devices := if SCOPE_DEVICES ∈ allowed then body.devices else []
      sensors := if SCOPE_DEVICES ∈ allowed then body.sensors else []
      limitations := if SCOPE_DEVICES ∈ allowed then body.limitations else limitationsWithoutNames body
      capabilities := body.capabilities.filter (· ∉ removed allowed)
      withheld := if removed allowed = [] then none else some (removed allowed)
      note := if removed allowed = [] then body.note else
        body.note ++ " Some of this room's answers are not in this response because this experience was " ++
          "not granted them: " ++ ", ".intercalate (removed allowed) ++ "."
      others := .empty }

end Wavr.Experience
