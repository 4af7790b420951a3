import Wavr.Dict
import Wavr.Flips
import Wavr.Fusion
import Wavr.MqttTopics
import Wavr.Run

/-!
# Room states on the broker

`RulesEngine`: what is published of the rooms as they are fused, and how the coverage summaries decide
whether a room can be spoken of.
-/

namespace Wavr.Rules
open Fusion (Level)
open Run Text

/-- A payload carries the health of a room by name. -/
inductive Health
  | none
  | ok
  | offline
  | disabled
  | unknown
  deriving DecidableEq

structure Sensor where
  observing : Bool
  health : Option String
  deriving DecidableEq

structure Entry where
  room : Option String
  sensors : List Sensor
  precisionLevel : Option String
  deriving DecidableEq

/-- What `sensor_coverage.summarize` returns. -/
structure Summary where
  rooms : List Entry
  uncovered : List String
  deriving DecidableEq

structure Row where
  sensors : ℕ
  observing : ℕ
  health : Health
  precisionPct : ℕ
  deriving DecidableEq

/-- Of the last two, the outer level says whether the state carries the key. -/
structure RoomState where
  room : String
  occupied : Bool
  confidence : ℚ
  ts : ℚ
  personCount : Option (Option ℤ)
  precisionPct : Option ℤ
  deriving DecidableEq

/-- What a state tells of the coverage of its room. -/
structure Seen where
  available : Bool
  sensors : ℕ
  observing : ℕ
  health : Health
  deriving DecidableEq

structure Body where
  occupied : Option Bool
  confidence : ℚ
  ts : ℚ
  personCount : Option (Option ℤ)
  precisionPct : Option ℤ
  seen : Option Seen
  deriving DecidableEq

structure Tally where
  rooms : ℕ
  covered : ℕ
  uncovered : ℕ
  observing : ℕ
  deriving DecidableEq

/-- What is published, before it is written as JSON. Rows and tallies are compared as they are: equal
ones have equal payloads, and only they. -/
inductive Message
  | state (room : String) (body : Body)
  | event (room : String) (occupied : Bool)
  | availability (room : String) (online : Bool)
  | coverage (room : String) (row : Row)
  | houseCoverage (house : Tally)
  deriving DecidableEq

/-- The kind of a message and the room it is about; a tally is about the house. -/
def Message.about : Message → Option (MqttTopics.RoomTopic × String)
  | .state room _ => some (.state, room)
  | .event room _ => some (.event, room)
  | .availability room _ => some (.availability, room)
  | .coverage room _ => some (.coverage, room)
  | .houseCoverage _ => none

def Message.topic (pf : MqttTopics.Platform) (mqttPrefix : String) (m : Message) : String :=
  match m.about with
  | some (k, room) => k.topic pf mqttPrefix room
  | none => MqttTopics.houseCoverageTopic mqttPrefix

/-- Messages meet on a topic where their kinds are the same and the slugs of their rooms. -/
theorem Message.topic_inj {pf : MqttTopics.Platform} {mqttPrefix : String} {m m' : Message} :
    m.topic pf mqttPrefix = m'.topic pf mqttPrefix ↔
      m.about.map (fun e => (e.1, MqttTopics.slugRoom pf e.2)) =
        m'.about.map fun e => (e.1, MqttTopics.slugRoom pf e.2) := by
  have hapart : ∀ e : MqttTopics.RoomTopic × String,
      e.1.topic pf mqttPrefix e.2 ≠ MqttTopics.houseCoverageTopic mqttPrefix := by
    intro e he
    have hnot : e.1.topic pf mqttPrefix e.2 ∉ MqttTopics.houseTopics pf mqttPrefix :=
      MqttTopics.topic_not_mem_houseTopics
    rw [he] at hnot
    exact hnot (List.mem_cons_of_mem _ List.mem_cons_self)
  unfold Message.topic
  cases m.about with
  | none =>
    cases m'.about with
    | none => simp
    | some e => simpa using (hapart e).symm
  | some e =>
    cases m'.about with
    | none => simpa using hapart e
    | some e' => simp [MqttTopics.topic_inj]

inductive Output
  | publish (m : Message)
  | onEdge (room : String) (occupied : Bool)
  deriving DecidableEq

/-- Which callbacks are wired. -/
structure Config where
  coverageProvider : Bool
  coverageInterval : ℚ
  onEdge : Bool
  deriving DecidableEq

structure RulesEngine where
  last : Dict String Bool
  coverageAt : Option ℚ
  roomCoverage : Dict String Row
  lastCoverage : Dict String Row
  lastHouseCoverage : Option Tally
  lastAvailability : Dict String Bool
  lastSeenOccupied : Dict String Bool
  deriving DecidableEq

def newEngine : RulesEngine := ⟨.empty, none, .empty, .empty, none, .empty, .empty⟩

variable (cfg : Config)

/-- `_SCOPE_RANK`. -/
def SCOPE_RANK : List (String × Level) :=
  [("none", .none), ("house", .house), ("room", .room), ("count", .count), ("position", .position)]

def precisionPct (level : Option String) : ℕ :=
  ((SCOPE_RANK.lookup (level.getD "none")).getD .none).pct

/-- `_room_health`. -/
def roomHealth (sensors : List Sensor) : Health :=
  if sensors = [] then .none
  else if sensors.any Sensor.observing then .ok
  else if sensors.any fun s => s.health = some "offline" then .offline
  else if sensors.any fun s => s.health = some "disabled" then .disabled
  else .unknown

def availableOf (row : Option Row) (seen : Option Bool) : Bool :=
  match row with
  | none => true
  | some row => row.observing ≠ 0 || seen = some true

def available (room : String) (e : RulesEngine) : Bool :=
  availableOf (e.roomCoverage.get? room) (e.lastSeenOccupied.get? room)

def publishAvailability (room : String) (available : Bool) (e : RulesEngine) : List Output × RulesEngine :=
  if e.lastAvailability.get? room = some available then ([], e)
  else
    ([.publish (.availability room available)],
      { e with lastAvailability := e.lastAvailability.set room available })

def recordRoomCoverage (room : String) (row : Row) (e : RulesEngine) : List Output × RulesEngine :=
  let e := { e with roomCoverage := e.roomCoverage.set room row }
  let (out, e) :=
    if e.lastCoverage.get? room ≠ some row then
      ([.publish (.coverage room row)], { e with lastCoverage := e.lastCoverage.set room row })
    else ([], e)
  let (out', e) := publishAvailability room (available room e) e
  (out ++ out', e)

def observing (entry : Entry) : ℕ := entry.sensors.countP Sensor.observing

/-- The entries that name a room. -/
def covered (s : Summary) : List (String × Entry) :=
  s.rooms.filterMap fun entry => (entry.room.filter (truthy ·)).map fun room => (room, entry)

/-- The row of every room in the order they are recorded. -/
def rows (s : Summary) : List (String × Row) :=
  ((covered s).map fun e =>
    (e.1, ⟨e.2.sensors.length, observing e.2, roomHealth e.2.sensors, precisionPct e.2.precisionLevel⟩)) ++
  (s.uncovered.filter (truthy ·)).map fun room => (room, ⟨0, 0, .none, 0⟩)

def recordAll : List (String × Row) → RulesEngine → List Output × RulesEngine
  | [], e => ([], e)
  | (room, row) :: rest, e =>
    let (out, e) := recordRoomCoverage room row e
    let (out', e) := recordAll rest e
    (out ++ out', e)

def tally (s : Summary) : Tally :=
  let covered := covered s
  let uncovered := s.uncovered.filter (truthy ·)
  { rooms := covered.length + uncovered.length
    covered := covered.length
    uncovered := uncovered.length
    observing := covered.countP fun e => observing e.2 ≠ 0 }

def applyCoverage (s : Summary) (e : RulesEngine) : List Output × RulesEngine :=
  let (out, e) := recordAll (rows s) e
  if e.lastHouseCoverage = some (tally s) then (out, e)
  else
    (out ++ [.publish (.houseCoverage (tally s))], { e with lastHouseCoverage := some (tally s) })

/-- The provider is asked again. -/
def due (now : ℚ) (e : RulesEngine) : Bool :=
  cfg.coverageProvider &&
    match e.coverageAt with
    | none => true
    | some t => ¬ now - t < cfg.coverageInterval

/-- `pull` is what the provider would return; `none` where it raises or has nothing. -/
def refreshCoverage (now : ℚ) (pull : Option Summary) (e : RulesEngine) : List Output × RulesEngine :=
  if due cfg now e then
    let e := { e with coverageAt := some now }
    match pull with
    | some summary => applyCoverage summary e
    | none => ([], e)
  else ([], e)

def stateBody (row : Option Row) (available : Bool) (rs : RoomState) : Body where
  occupied := if available then some rs.occupied else none
  confidence := rs.confidence
  ts := rs.ts
  personCount := rs.personCount
  precisionPct := rs.precisionPct
  seen := row.map fun row => ⟨available, row.sensors, row.observing, row.health⟩

/-- What `handle` does before it looks at the room. -/
def noticed (rs : RoomState) (now : ℚ) (pull : Option Summary) (e : RulesEngine) :
    List Output × RulesEngine :=
  refreshCoverage cfg now pull { e with lastSeenOccupied := e.lastSeenOccupied.set rs.room rs.occupied }

/-- The state of the room, and where its coverage is known its availability. -/
def tell (row : Option Row) (available : Bool) (rs : RoomState) (e : RulesEngine) :
    List Output × RulesEngine :=
  let (out, e) := if row.isSome then publishAvailability rs.room available e else ([], e)
  (.publish (.state rs.room (stateBody row available rs)) :: out, e)

/-- The event of a flip, and the call that goes with it. -/
def edge (rs : RoomState) (e : RulesEngine) : List Output :=
  match e.last.get? rs.room with
  | none => []
  | some prev =>
    if prev ≠ rs.occupied then
      .publish (.event rs.room rs.occupied) ::
        if cfg.onEdge then [.onEdge rs.room rs.occupied] else []
    else []

def handle (rs : RoomState) (now : ℚ) (pull : Option Summary) (e : RulesEngine) :
    List Output × RulesEngine :=
  let (out, e) := noticed cfg rs now pull e
  let cov := e.roomCoverage.get? rs.room
  let available := match cov with
    | none => true
    | some _ => available rs.room e
  let (out', e) := tell cov available rs e
  if ¬ available then (out ++ out', e)
  else (out ++ out' ++ edge cfg rs e, { e with last := e.last.set rs.room rs.occupied })

inductive Op
  | handle (rs : RoomState) (now : ℚ) (pull : Option Summary)
  | handleCoverage (summary : Summary)

def call (e : RulesEngine) : Op → List Output × RulesEngine
  | .handle rs now pull => handle cfg rs now pull e
  | .handleCoverage summary => applyCoverage summary e

def step (e : RulesEngine) (op : Op) : RulesEngine := (call cfg e op).2

/-- What comes out of the calls, in order. -/
def emitted (e : RulesEngine) (ops : List Op) : List Output :=
  emissions (step cfg) (fun e op => (call cfg e op).1) e ops

def Output.event? : Output → Option (String × Bool)
  | .publish (.event room occupied) => some (room, occupied)
  | _ => none

def Output.called? : Output → Option (String × Bool)
  | .onEdge room occupied => some (room, occupied)
  | _ => none

/-! ## What a call leaves alone -/

/-- No event is published and nothing is called, and the edges stand where they stood. -/
structure Quiet (e : RulesEngine) (r : List Output × RulesEngine) : Prop where
  last : r.2.last = e.last
  silent : ∀ o ∈ r.1, o.event? = none ∧ o.called? = none

section
variable {cfg} {e : RulesEngine} {room : String} {rs : RoomState} {now : ℚ} {pull : Option Summary}

theorem quiet_publishAvailability (room : String) (available : Bool) (e : RulesEngine) :
    Quiet e (publishAvailability room available e) := by
  unfold publishAvailability
  split
  · exact ⟨rfl, by simp⟩
  · exact ⟨rfl, by simp [Output.event?, Output.called?]⟩

theorem quiet_recordRoomCoverage (room : String) (row : Row) (e : RulesEngine) :
    Quiet e (recordRoomCoverage room row e) := by
  unfold recordRoomCoverage
  dsimp only
  split
  · have hquiet := quiet_publishAvailability room
    refine ⟨(hquiet _ _).last, fun o ho => ?_⟩
    rcases List.mem_append.mp ho with ho | ho
    · rw [List.mem_singleton.mp ho]
      exact ⟨rfl, rfl⟩
    · exact (hquiet _ _).silent o ho
  · exact ⟨(quiet_publishAvailability room _ _).last, (quiet_publishAvailability room _ _).silent⟩

theorem quiet_recordAll (l : List (String × Row)) (e : RulesEngine) : Quiet e (recordAll l e) := by
  induction l generalizing e with
  | nil => exact ⟨rfl, by simp [recordAll]⟩
  | cons r rest ih =>
    have hrow := quiet_recordRoomCoverage r.1 r.2 e
    have hrest := ih (recordRoomCoverage r.1 r.2 e).2
    exact ⟨hrest.last.trans hrow.last, fun o ho => (List.mem_append.mp ho).elim (hrow.silent o) (hrest.silent o)⟩

theorem quiet_applyCoverage (s : Summary) (e : RulesEngine) : Quiet e (applyCoverage s e) := by
  have hrows := quiet_recordAll (rows s) e
  unfold applyCoverage
  dsimp only
  split
  · exact hrows
  · refine ⟨hrows.last, fun o ho => ?_⟩
    rcases List.mem_append.mp ho with ho | ho
    · exact hrows.silent o ho
    · rw [List.mem_singleton.mp ho]
      exact ⟨rfl, rfl⟩

theorem quiet_noticed : Quiet e (noticed cfg rs now pull e) := by
  unfold noticed refreshCoverage
  split
  · split
    · exact ⟨(quiet_applyCoverage _ _).last, (quiet_applyCoverage _ _).silent⟩
    · exact ⟨rfl, by simp⟩
  · exact ⟨rfl, by simp⟩

theorem quiet_tell (row : Option Row) (available : Bool) (rs : RoomState) (e : RulesEngine) :
    Quiet e (tell row available rs e) := by
  unfold tell
  dsimp only
  split
  · have hquiet := quiet_publishAvailability rs.room available e
    exact ⟨hquiet.last, List.forall_mem_cons.mpr ⟨⟨rfl, rfl⟩, hquiet.silent⟩⟩
  · exact ⟨rfl, List.forall_mem_singleton.mpr ⟨rfl, rfl⟩⟩

/-- A room whose coverage is not known is available. -/
theorem handle_eq (cfg : Config) (rs : RoomState) (now : ℚ) (pull : Option Summary) (e : RulesEngine) :
    handle cfg rs now pull e =
      let (out, e) := noticed cfg rs now pull e
      let (out', e') := tell (e.roomCoverage.get? rs.room) (available rs.room e) rs e
      if ¬ available rs.room e then (out ++ out', e')
      else (out ++ out' ++ edge cfg rs e', { e' with last := e'.last.set rs.room rs.occupied }) := by
  have hav : (match (noticed cfg rs now pull e).2.roomCoverage.get? rs.room with
      | none => true
      | some _ => available rs.room (noticed cfg rs now pull e).2) =
      available rs.room (noticed cfg rs now pull e).2 := by
    unfold available availableOf
    split <;> simp [*]
  unfold handle
  dsimp only
  rw [hav]

/-- A reading of a room that cannot be spoken of. -/
theorem quiet_handle (h : available rs.room (noticed cfg rs now pull e).2 = false) :
    Quiet e (handle cfg rs now pull e) := by
  have hnoticed : Quiet e (noticed cfg rs now pull e) := quiet_noticed
  have htell := quiet_tell ((noticed cfg rs now pull e).2.roomCoverage.get? rs.room) false rs
    (noticed cfg rs now pull e).2
  rw [handle_eq]
  dsimp only
  rw [h, if_pos (by decide)]
  exact ⟨htell.last.trans hnoticed.last,
    fun o ho => (List.mem_append.mp ho).elim (hnoticed.silent o) (htell.silent o)⟩

/-- A reading of an available room ends with the edge, if it is one, and moves the tracker. -/
theorem handle_available (h : available rs.room (noticed cfg rs now pull e).2 = true) :
    (handle cfg rs now pull e).2.last = e.last.set rs.room rs.occupied ∧
      ∃ out, (∀ o ∈ out, o.event? = none ∧ o.called? = none) ∧
        (handle cfg rs now pull e).1 = out ++ edge cfg rs e := by
  have hnoticed : Quiet e (noticed cfg rs now pull e) := quiet_noticed
  have htell := quiet_tell ((noticed cfg rs now pull e).2.roomCoverage.get? rs.room) true rs
    (noticed cfg rs now pull e).2
  have hlast := htell.last.trans hnoticed.last
  rw [handle_eq]
  dsimp only
  rw [h, if_neg (by decide)]
  refine ⟨congrArg (fun l => l.set rs.room rs.occupied) hlast, _,
    fun o ho => (List.mem_append.mp ho).elim (hnoticed.silent o) (htell.silent o), ?_⟩
  unfold edge
  rw [hlast]

end

end Wavr.Rules
