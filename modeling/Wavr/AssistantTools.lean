import Wavr.Assistant
import Wavr.Auth
import Wavr.FusionCoherence
import Wavr.FusionHiding
import Wavr.OptionList
import Wavr.UrlSplit

/-!
# What the assistant's tools tell

The tools read the engine of fusion and what else the app knows, each through a list of fields that
may be told. An engine whose endpoint is not this machine reaches the coarse ones only.
-/

namespace Wavr.Assistant
open Text Fusion

/-! ## Engines -/

def ENGINE_IDS : List String := ["wavr_assistant", "local_llm", "openai", "anthropic", "gemini", "manual"]

def CLOUD_FIXED_IDS : List String := ["openai", "anthropic", "gemini"]

def LOOPBACK_HOSTS : List String := ["127.0.0.1", "::1", "localhost"]

def isLoopbackUrl (baseUrl : Option String) : Bool :=
  match baseUrl.filter truthy with
  | none => false
  | some url =>
    match UrlSplit.urlsplit url.toList with
    | none => false
    | some parts => lower (strip (String.ofList (parts.hostname.getD []))) ∈ LOOPBACK_HOSTS

structure EngineConfig where
  ollamaUrl : String
  localLlmBaseUrl : String
  openaiApiKey : String
  anthropicApiKey : String
  geminiApiKey : String
  engineDefault : String
  maxToolSteps : ℤ

/-- The row of the engine that was added by hand. -/
structure ManualConfig where
  baseUrl : String
  model : String
  keyEnvVar : Option String

/-- The one URL that decides; the engines that are always elsewhere have none. -/
def endpointFor (engineId : String) (cfg : EngineConfig) (manualBaseUrl : Option String) : Option String :=
  if engineId = "wavr_assistant" then some cfg.ollamaUrl
  else if engineId = "local_llm" then some cfg.localLlmBaseUrl
  else if engineId = "manual" then manualBaseUrl
  else none

/-- `none` is the ValueError. -/
def engineIsCloud (engineId : String) (cfg : EngineConfig) (manualBaseUrl : Option String) : Option Bool :=
  if engineId ∈ CLOUD_FIXED_IDS then some true
  else if engineId ∈ ["wavr_assistant", "local_llm", "manual"] then
    some (! isLoopbackUrl (endpointFor engineId cfg manualBaseUrl))
  else none

def MCP_TOOL_NAMES : Finset String :=
  {"list_rooms", "get_room_context", "get_house_map", "get_ha_entities", "get_network_inventory",
    "get_alerts", "query_occupancy_history", "get_house_status", "call_ha_service", "get_space_context",
    "explain_room_state", "get_sensor_coverage", "get_core_health", "get_device_context"}

def AGENT_READ_TOOL_SCOPE : Finset String := MCP_TOOL_NAMES.erase "call_ha_service"

def toolScopeFor (engineId : String) (cfg : EngineConfig) (manualBaseUrl : Option String) :
    Option (Finset String) :=
  (engineIsCloud engineId cfg manualBaseUrl).map fun cloud =>
    if cloud then Auth.AGENT_DEFAULT_TOOL_SCOPE else AGENT_READ_TOOL_SCOPE

/-! ## Fields that may be told -/

section
variable {R : Type}

/-- `d.get(k)` for each of the keys. -/
def pick (keys : List String) (fields : Args R) : Args R := keys.map fun k => (k, Json.get fields k)

/-- `{k: d[k] for k in keys if k in d}`. -/
def project (keys : List String) (fields : Args R) : Args R :=
  keys.filterMap fun k => (fields.lookup k).map (k, ·)

/-- The dictionaries of a list. -/
def dicts : Json R → List (Args R)
  | .arr items => items.filterMap fun v => match v with
    | .obj fields => some fields
    | _ => none
  | _ => []

def numberOr (x : Option R) : Json R := (x.map Json.float).getD .null

def textOr (s : Option String) : Json R := (s.map Json.str).getD .null

def wholeOr (n : Option ℤ) : Json R := (n.map Json.int).getD .null

def Level.text : Level → String
  | .none => "none"
  | .house => "house"
  | .room => "room"
  | .count => "count"
  | .position => "position"

def sourceDict (s : Source R) : Json R :=
  .obj ([("modality", .str s.modality), ("sensor_id", .str s.sensorId), ("presence", .bool s.presence),
      ("confidence", .float s.confidence), ("age_s", .int s.ageS), ("health", .str s.health),
      ("count", wholeOr (s.count.map Int.ofNat))] ++
    (match s.reliability with
      | some (factor, reason) => [("reliability", .float factor), ("reliability_reason", .str reason)]
      | none => []) ++
    [("share", .float s.share)])

def vitalsDict : Option (R × Option R) → Json R
  | none => .obj []
  | some (breathing, heart) => .obj [("breathing_bpm", .float breathing), ("heart_bpm", numberOr heart)]

def targetDict (t : Target R) : Json R :=
  .obj [("id", .int t.id), ("x", numberOr t.x), ("y", numberOr t.y), ("z", numberOr t.z),
    ("posture", textOr t.posture), ("velocity", numberOr t.velocity), ("confidence", .float t.confidence),
    ("frame", .str t.frame)]

def identityDict (i : Identity) : Json R :=
  .obj [("person", .str i.person), ("source", .str i.source), ("rssi", wholeOr i.rssi)]

/-- `RoomState.to_dict`. -/
def toDict (rs : RoomState R) : Args R :=
  [("room", .str rs.room), ("occupied", .bool rs.occupied), ("confidence", .float rs.confidence),
    ("vitals", vitalsDict rs.vitals), ("sources", .arr (rs.sources.map sourceDict)),
    ("targets", .arr (rs.targets.map targetDict)), ("identities", .arr (rs.identities.map identityDict)),
    ("person_count", wholeOr (rs.personCount.map Int.ofNat)), ("explanation", .str rs.explanation),
    ("ts", .str rs.ts), ("precision_level", .str (Level.text rs.precisionLevel)),
    ("precision_pct", .int rs.precisionPct), ("precision_next", textOr rs.precisionNext)]

def ROOM_CONTEXT_FIELDS : List String :=
  ["room", "occupied", "confidence", "person_count", "precision_level", "precision_pct", "precision_next",
    "sources", "explanation", "ts"]

def HOUSE_MAP_ROOM_FIELDS : List String := ["id", "polygon"]

def INVENTORY_AGENT_CORE_FIELDS : List String := ["ip", "vendor", "device_type", "type_confidence", "known"]

def INVENTORY_AGENT_OPTIONAL_FIELDS : List String := ["make", "model", "os"]

def INVENTORY_AGENT_MAX_DEVICES : ℕ := 200

def ALERT_AGENT_FIELDS : List String := ["kind", "severity", "room", "ts"]

def HOUSE_STATUS_REASON_FIELDS : List String := ["layer", "kind", "severity", "ts"]

def minimizeFloorForAgent (floor : Args R) : Json R :=
  .obj [("id", Json.get floor "id"), ("level", Json.get floor "level"),
    ("rooms", .arr ((dicts (Json.get floor "rooms")).map fun room => .obj (pick HOUSE_MAP_ROOM_FIELDS room)))]

def minimizeHouseMap : Json R → Json R
  | .obj house => .obj [("floors", .arr ((dicts (Json.get house "floors")).map minimizeFloorForAgent))]
  | _ => .obj [("floors", .arr [])]

def minimizeDeviceForAgent (nb : Numbers R) (device : Args R) : Json R :=
  .obj (pick INVENTORY_AGENT_CORE_FIELDS device ++
    (pick INVENTORY_AGENT_OPTIONAL_FIELDS device).filter (fun e => Json.truthy nb e.2) ++
    if Json.truthy nb (Json.get device "is_gateway") then [("is_gateway", .bool true)] else [])

def minimizeInventory (nb : Numbers R) (raw : List (Args R)) : Json R :=
  .obj [("devices", .arr ((raw.take INVENTORY_AGENT_MAX_DEVICES).map (minimizeDeviceForAgent nb))),
    ("count", .int raw.length)]

def minimizeAlerts (alerts : List (Args R)) : Json R :=
  .obj [("alerts", .arr (alerts.map fun alert => .obj (pick ALERT_AGENT_FIELDS alert)))]

def minimizeHouseStatusForAgent (status : Args R) : Json R :=
  .obj [("status", Json.get status "status"), ("score", Json.get status "score"),
    ("reasons", .arr ((dicts (Json.get status "reasons")).map fun r => .obj (pick HOUSE_STATUS_REASON_FIELDS r))),
    ("ts", Json.get status "ts")]

/-- The verdict of a house that cannot be asked. -/
def unknownStatus : Json R := .obj [("status", .str "unknown"), ("score", .int 0), ("reasons", .arr []), ("ts", .null)]

end

/-! ## The tools -/

/-- Something to be asked that may not be there. -/
inductive Feed (α : Type)
  | unwired
  | raised
  | value (a : α)

/-- What the log of occupancy answers; `none` where it raises. -/
structure OccupancyHistory (R : Type) where
  timeline : Json R → ℤ → Option (Json R)
  routine : Json R → Option (Json R)
  isUnusual : Json R → Bool → Option (Json R)

/-- What else the app knows at one moment. -/
structure Feeds (R : Type) where
  houseMap : Json R
  haEntities : Feed (Json R)
  inventory : Feed (List (Args R))
  alerts : Feed (List (Args R))
  occupancy : Option (OccupancyHistory R)
  houseStatus : R → Feed (Json R)

section
variable {R : Type} {ar : Arith R} {asUtc : String → Option ℤ}

/-- The app between two looks at the clock. -/
structure App (R : Type) (asUtc : String → Option ℤ) where
  engine : Engine (R := R) asUtc
  looks : ℕ
  feeds : Feeds R

/-- What a tool meets: its configuration, the clock at every look and how long a call takes. -/
structure Wiring (ar : Arith R) where
  cfg : Config ar
  nb : Numbers R
  envAt : ℕ → Env R
  /-- Beyond `tool_timeout`. -/
  late : ℕ → Bool

def OCCUPANCY_MAX_HOURS : ℤ := 24 * 365

variable (w : Wiring ar)

/-- `fusion.state(room)`. -/
def stateOf (room : String) (app : App R asUtc) : Reply R × App R asUtc :=
  let call : Call R := ⟨.state room, w.envAt app.looks⟩
  ((run w.cfg call app.engine).1, { app with engine := step w.cfg app.engine call, looks := app.looks + 1 })

def Reply.known : Reply R → Except Raised (Option (RoomState R))
  | .fused rs => .ok (some rs)
  | .unfused .unknown => .ok none
  | .unfused .valueError => .error .valueError

/-- `provider.room_state(room)`, whatever the room is. -/
def roomState (room : Json R) (app : App R asUtc) : Except Raised (Option (RoomState R)) × App R asUtc :=
  match room with
  | .str name => (Reply.known (stateOf w name app).1, (stateOf w name app).2)
  | .arr _ => (.error .typeError, app)
  | .obj _ => (.error .typeError, app)
  | _ => (.ok none, app)

def roomRow (rs : RoomState R) : Json R := .obj (pick ["room", "occupied", "confidence"] (toDict rs))

def roomRows : List String → App R asUtc → Except Raised (List (Json R)) × App R asUtc
  | [], app => (.ok [], app)
  | name :: names, app =>
    match roomState w (.str name) app with
    | (.ok (some rs), app) => ((roomRows names app).1.map (roomRow rs :: ·), (roomRows names app).2)
    | (.ok none, app) => roomRows names app
    | (.error e, app) => (.error e, app)

def listRooms (app : App R asUtc) : Except Raised (Json R) × App R asUtc :=
  let rows := roomRows w (sortedSet app.engine.latest.keys.toFinset) app
  (rows.1.map .arr, rows.2)

def getRoomContext (args : Args R) (app : App R asUtc) : Except Raised (Json R) × App R asUtc :=
  let room := Json.get args "room"
  if ¬ Json.truthy w.nb room then (.ok (.obj [("error", .str "missing required 'room' argument")]), app)
  else
    let state := roomState w room app
    (state.1.map fun rs => (rs.map fun rs => Json.obj (project ROOM_CONTEXT_FIELDS (toDict rs))).getD .null, state.2)

/-- The verdict, less what names a device. -/
def coarse : Feed (Json R) → Except Raised (Json R)
  | .unwired => .ok unknownStatus
  | .raised => .error .valueError
  | .value (.obj status) => .ok (minimizeHouseStatusForAgent status)
  | .value _ => .ok unknownStatus

def windowMinutes (ar : Arith R) (nb : Numbers R) (args : Args R) : Except Raised R :=
  match Json.get args "window_minutes" with
  | .null => .ok (ar.lit 60)
  | window => catching [.typeError, .valueError] (Json.toFloat nb window) (.ok (ar.lit 60))

def getHouseStatus (args : Args R) (app : App R asUtc) : Except Raised (Json R) × App R asUtc :=
  (do coarse (app.feeds.houseStatus (← windowMinutes ar w.nb args)), app)

def fed {α : Type} (disabled : Json R) (tell : α → Json R) : Feed α → Except Raised (Json R)
  | .unwired => .ok disabled
  | .raised => .error .valueError
  | .value a => .ok (tell a)

def hoursOf (nb : Numbers R) (args : Args R) : Except Raised ℤ :=
  catching [.typeError, .valueError] (Json.toInt nb ((args.lookup "hours").getD (.int 24))) (.ok 24)

def orRaise {α : Type} (x : Option α) : Except Raised α :=
  match x with
  | some a => .ok a
  | none => .error .valueError

def queryOccupancyHistory (args : Args R) (app : App R asUtc) : Except Raised (Json R) × App R asUtc :=
  let room := Json.get args "room"
  match hoursOf w.nb args with
  | .error e => (.error e, app)
  | .ok hours =>
    match app.feeds.occupancy with
    | none => (.ok (.obj [("enabled", .bool false), ("history", .arr []), ("routine", .null), ("unusual", .null)]),
        app)
    | some log =>
      match log.timeline room (max 1 (min hours OCCUPANCY_MAX_HOURS)) with
      | none => (.error .valueError, app)
      | some history =>
        let answer (routine unusual : Json R) : Json R := .obj [("enabled", .bool true), ("history", history),
          ("routine", routine), ("unusual", unusual)]
        match room with
        | .null => (.ok (answer .null .null), app)
        | room =>
          match log.routine room with
          | none => (.error .valueError, app)
          | some routine =>
            match roomState w room app with
            | (.error e, app) => (.error e, app)
            | (.ok none, app) => (.ok (answer routine .null), app)
            | (.ok (some rs), app) => ((orRaise (log.isUnusual room rs.occupied)).map (answer routine), app)

/-- A call under its time limit; a thread that is late still runs to its end. -/
def timed (body : Args R → App R asUtc → Except Raised (Json R) × App R asUtc) : Tool R (App R asUtc) :=
  fun args app =>
    let ran := body args app
    (if w.late app.looks then .timedOut
      else match ran.1 with
        | .ok v => .result v
        | .error _ => .failed, { ran.2 with looks := ran.2.looks + 1 })

/-- `build_tool_runtime`. -/
def buildToolRuntime : Dict String (Tool R (App R asUtc)) where
  entries := [
    ("list_rooms", timed w fun _ app => listRooms w app),
    ("get_room_context", timed w (getRoomContext w)),
    ("get_house_map", timed w fun _ app => (.ok (minimizeHouseMap app.feeds.houseMap), app)),
    ("get_house_status", timed w (getHouseStatus w)),
    ("get_network_inventory", timed w fun _ app =>
      (fed (minimizeInventory w.nb []) (minimizeInventory w.nb) app.feeds.inventory, app)),
    ("get_alerts", timed w fun _ app => (fed (minimizeAlerts []) minimizeAlerts app.feeds.alerts, app)),
    ("query_occupancy_history", timed w (queryOccupancyHistory w)),
    ("get_ha_entities", timed w fun _ app => (fed (.arr []) id app.feeds.haEntities, app))]
  nodup := by simp

/-! ## Who and how people are stays in the house -/

/-- Identities and vitals hidden, positions shown. -/
def personal : Hiding := ⟨true, false⟩

/-- Two apps that differ in what is personal, and in everything else no coarse tool reads. -/
structure Alike (app app' : App R asUtc) : Prop where
  engine : app.engine.hide personal = app'.engine.hide personal
  looks : app.looks = app'.looks
  status : ∀ window, coarse (app.feeds.houseStatus window) = coarse (app'.feeds.houseStatus window)

variable {w} {app app' : App R asUtc}

theorem stateOf_alike (h : Alike app app') (room : String) :
    (stateOf w room app).1.hide personal = (stateOf w room app').1.hide personal ∧
      Alike (stateOf w room app).2 (stateOf w room app').2 := by
  have hcall (env : Env R) : Call.hide personal ⟨.state room, env⟩ = ⟨.state room, env⟩ := rfl
  obtain ⟨hreply, hengine⟩ := run_hide personal app.engine w.cfg ⟨.state room, w.envAt app.looks⟩
  obtain ⟨hreply', hengine'⟩ := run_hide personal app'.engine w.cfg ⟨.state room, w.envAt app.looks⟩
  rw [hcall, h.engine] at hreply hengine
  rw [hcall] at hreply' hengine'
  unfold stateOf
  rw [← h.looks]
  exact ⟨hreply.symm.trans hreply', hengine.symm.trans hengine', rfl, h.status⟩

/-- What may be told of a room does not show what is hidden. -/
theorem lookup_toDict_hide (rs : RoomState R) {k : String} (hk : k ∈ ROOM_CONTEXT_FIELDS) :
    (toDict (rs.hide personal)).lookup k = (toDict rs).lookup k := by
  simp only [ROOM_CONTEXT_FIELDS, List.mem_cons, List.not_mem_nil, or_false] at hk
  rcases hk with rfl | rfl | rfl | rfl | rfl | rfl | rfl | rfl | rfl | rfl <;> rfl

theorem project_hide (rs : RoomState R) :
    project ROOM_CONTEXT_FIELDS (toDict (rs.hide personal)) = project ROOM_CONTEXT_FIELDS (toDict rs) :=
  List.filterMap_congr fun _ hk => by rw [lookup_toDict_hide rs hk]

theorem roomRow_hide (rs : RoomState R) : roomRow (rs.hide personal) = roomRow rs := rfl

/-- What is read of a room, hidden. -/
def hideRead (x : Except Raised (Option (RoomState R))) : Except Raised (Option (RoomState R)) :=
  x.map (Option.map (RoomState.hide personal))

theorem known_hide (r : Reply R) : Reply.known (r.hide personal) = hideRead (Reply.known r) := by
  rcases r with rs | why
  · rfl
  · cases why <;> rfl

theorem roomState_alike (h : Alike app app') (room : Json R) :
    hideRead (roomState w room app).1 = hideRead (roomState w room app').1 ∧
      Alike (roomState w room app).2 (roomState w room app').2 := by
  cases room with
  | str name =>
    obtain ⟨hreply, happ⟩ := stateOf_alike (w := w) h name
    refine ⟨?_, happ⟩
    rw [roomState, roomState, ← known_hide, hreply, known_hide]
  | _ => exact ⟨rfl, h⟩

theorem hideRead_eq {x x' : Except Raised (Option (RoomState R))} (h : hideRead x = hideRead x') :
    (∃ e, x = .error e ∧ x' = .error e) ∨ (x = .ok none ∧ x' = .ok none) ∨
      ∃ rs rs', x = .ok (some rs) ∧ x' = .ok (some rs') ∧ rs.hide personal = rs'.hide personal := by
  rcases x with e | _ | rs <;> rcases x' with e' | _ | rs' <;>
    simp only [hideRead, Except.map, Except.ok.injEq, Option.map_none, Option.map_some, reduceCtorEq,
      Option.some.injEq, Except.error.injEq] at h
  · exact .inl ⟨e, rfl, congrArg Except.error h.symm⟩
  · exact .inr (.inl ⟨rfl, rfl⟩)
  · exact .inr (.inr ⟨rs, rs', rfl, rfl, h⟩)

theorem roomRows_alike (h : Alike app app') (names : List String) :
    (roomRows w names app).1 = (roomRows w names app').1 ∧
      Alike (roomRows w names app).2 (roomRows w names app').2 := by
  induction names generalizing app app' with
  | nil => exact ⟨rfl, h⟩
  | cons name names ih =>
    obtain ⟨hread, happ⟩ := roomState_alike (w := w) h (.str name)
    unfold roomRows
    revert hread happ
    generalize roomState w (.str name) app = x
    generalize roomState w (.str name) app' = x'
    obtain ⟨r, b⟩ := x
    obtain ⟨r', b'⟩ := x'
    intro hread happ
    dsimp only at hread happ
    rcases hideRead_eq hread with ⟨e, rfl, rfl⟩ | ⟨rfl, rfl⟩ | ⟨rs, rs', rfl, rfl, hrs⟩
    · exact ⟨rfl, happ⟩
    · exact ih happ
    · obtain ⟨hrows, hrest⟩ := ih happ
      refine ⟨?_, hrest⟩
      dsimp only
      rw [hrows, ← roomRow_hide rs, hrs, roomRow_hide rs']

theorem listRooms_alike (h : Alike app app') :
    (listRooms w app).1 = (listRooms w app').1 ∧ Alike (listRooms w app).2 (listRooms w app').2 := by
  have hkeys : app.engine.latest.keys = app'.engine.latest.keys := by
    have hlatest := congrArg (fun s => Dict.keys s.latest) h.engine
    simpa only [Engine.hide, Dict.keys_mapValues] using hlatest
  obtain ⟨hrows, happ⟩ := roomRows_alike (w := w) h (sortedSet app'.engine.latest.keys.toFinset)
  unfold listRooms
  rw [hkeys]
  exact ⟨congrArg (Except.map Json.arr) hrows, happ⟩

theorem getRoomContext_alike (h : Alike app app') (args : Args R) :
    (getRoomContext w args app).1 = (getRoomContext w args app').1 ∧
      Alike (getRoomContext w args app).2 (getRoomContext w args app').2 := by
  unfold getRoomContext
  dsimp only
  split
  · exact ⟨rfl, h⟩
  · obtain ⟨hread, happ⟩ := roomState_alike (w := w) h (Json.get args "room")
    refine ⟨?_, happ⟩
    rcases hideRead_eq hread with ⟨e, he, he'⟩ | ⟨hn, hn'⟩ | ⟨rs, rs', hs, hs', hrs⟩
    · rw [he, he']
    · rw [hn, hn']
    · rw [hs, hs']
      simp only [Except.map, Option.map_some, Option.getD_some]
      rw [← project_hide rs, hrs, project_hide rs']

theorem timed_agree {body : Args R → App R asUtc → Except Raised (Json R) × App R asUtc}
    (hbody : ∀ args app app', Alike app app' →
      (body args app).1 = (body args app').1 ∧ Alike (body args app).2 (body args app').2) :
    ToolsAgree Alike (timed w body) (timed w body) := by
  intro args app app' h
  obtain ⟨hout, happ⟩ := hbody args app app' h
  unfold timed
  dsimp only
  rw [hout, h.looks]
  exact ⟨rfl, happ.engine, congrArg (· + 1) happ.looks, happ.status⟩

/-- The coarse tools do not tell two houses apart that differ in what is personal. -/
theorem coarseTools_agree {name : String} (hname : name ∈ Auth.AGENT_DEFAULT_TOOL_SCOPE) :
    Option.Rel (ToolsAgree Alike) ((buildToolRuntime w).get? name : Option (Tool R (App R asUtc)))
      ((buildToolRuntime w).get? name) := by
  simp only [Auth.AGENT_DEFAULT_TOOL_SCOPE, Finset.mem_insert, Finset.mem_singleton] at hname
  rcases hname with rfl | rfl | rfl | rfl | rfl | rfl | rfl <;>
    simp only [buildToolRuntime, Dict.get?, List.find?_cons, String.reduceEq, decide_false, decide_true,
      List.find?_nil, Option.map_some, Option.map_none]
  · exact .some (timed_agree fun _ _ _ h => listRooms_alike h)
  · exact .some (timed_agree fun args _ _ h => getRoomContext_alike h args)
  · refine .some (timed_agree fun args app app' h => ⟨?_, h⟩)
    unfold getHouseStatus
    cases windowMinutes ar w.nb args with
    | error e => rfl
    | ok window => exact h.status window
  all_goals exact .none

end

/-! ## The route -/

/-- What the catalogue says of an engine, as far as the route reads it. -/
structure Descriptor where
  id : String
  egress : Bool
  available : Bool
  needs : Option String
  deriving DecidableEq

def isAvailable (engineId : String) (cfg : EngineConfig) (manualCfg : Option ManualConfig) : Bool :=
  if engineId = "openai" then truthy cfg.openaiApiKey
  else if engineId = "anthropic" then truthy cfg.anthropicApiKey
  else if engineId = "gemini" then truthy cfg.geminiApiKey
  else if engineId = "manual" then manualCfg.any fun m => truthy m.baseUrl && truthy m.model
  else true

def descriptor (engineId : String) (cfg : EngineConfig) (manualCfg : Option ManualConfig) (cloudGateOn : Bool) :
    Option Descriptor :=
  (engineIsCloud engineId cfg (manualCfg.map (·.baseUrl))).map fun cloud =>
    let available := isAvailable engineId cfg manualCfg
    ⟨engineId, cloud, available,
      if ¬ available then some "config" else if cloud ∧ ¬ cloudGateOn then some "connector" else none⟩

/-- The configuration, and what the stores hold. -/
structure Deployment where
  cfg : EngineConfig
  selected : Option String
  manual : Option ManualConfig
  /-- `is_enabled("assistant-cloud")`. -/
  connectorOn : Bool
  egressAllowed : Bool

def engineCatalog (d : Deployment) : Option (List Descriptor) :=
  ENGINE_IDS.mapM fun id => descriptor id d.cfg d.manual (d.connectorOn && d.egressAllowed)

/-- `none` is the StopIteration of a default that is no engine. -/
def selectedEngine (d : Deployment) : Option Descriptor :=
  (engineCatalog d).bind fun catalog =>
    (catalog.find? fun e => e.id = d.selected.getD d.cfg.engineDefault).or
      (catalog.find? fun e => e.id = d.cfg.engineDefault)

/-- What the engines complete, each at its own endpoint. -/
abbrev Endpoints := String → Option ManualConfig → Generate

def makeGenerateForEngine (endpoints : Endpoints) (engineId : String) (manualCfg : Option ManualConfig) :
    Except String Generate :=
  if engineId = "manual" ∧ ¬ (manualCfg.any fun m => truthy m.baseUrl && truthy m.model) then
    .error "manual engine is not configured"
  else .ok (endpoints engineId manualCfg)

structure AuditRow where
  engineId : String
  question : String
  toolNamesCalled : List String
  answer : String
  deriving DecidableEq

inductive Response
  | answered (answer : String) (trace : List Entry)
  | refused (status : ℕ) (detail : String)
  /-- An exception that no one maps. -/
  | crashed

def QUESTION_MAX_LEN : ℕ := 2000

def CLOUD_DISABLED : String :=
  "cloud assistant engine disabled in Connectors — enable 'Wavr Assistant (cloud engine)' to use it"

section
variable {R : Type} {ar : Arith R} {asUtc : String → Option ℤ}

/-- What goes on in a house while the assistant is at work. -/
structure House (R : Type) where
  arrivals : ℕ → List (Call R)
  feedsAt : ℕ → Feeds R

def House.meanwhile (house : House R) (cfg : Config ar) (n : ℕ) (app : App R asUtc) : App R asUtc :=
  { app with engine := Run.finish (step cfg) app.engine (house.arrivals n), feeds := house.feedsAt n }

/-- What surrounds the route: the endpoints, the tools' wiring and the JSON texts. -/
structure Surroundings (ar : Arith R) where
  endpoints : Endpoints
  w : Wiring ar
  dumps : Json R → String
  loads : String → Loaded R

/-- What came of a request: the answer, the conversation if there was one, and the row for the log. -/
structure Asked (R : Type) where
  response : Response
  conversation : Option (Log R)
  audit : Option AuditRow

variable (d : Deployment) (sur : Surroundings ar)

def Surroundings.setting (q : String) (generate : Generate) (toolScope : Finset String) (house : House R) :
    Setting R (App R asUtc) where
  question := q
  generate := generate
  toolScope := toolScope
  dumps := sur.dumps
  loads := sur.loads
  tools := buildToolRuntime sur.w
  meanwhile := house.meanwhile sur.w.cfg

/-- The conversation itself, and what is made of its end. -/
def converse (engineId q : String) (generate : Generate) (toolScope : Finset String) (house : House R)
    (app : App R asUtc) : Asked R :=
  let asked := runAsk (sur.setting q generate toolScope house) d.cfg.maxToolSteps app
  match asked.1 with
  | .answered answer => ⟨.answered answer asked.2.log.trace, some asked.2.log,
      some ⟨engineId, q, asked.2.log.toolNamesCalled, answer⟩⟩
  | .engineFailed _ => ⟨.refused 502 "assistant engine error", some asked.2.log, none⟩
  | .escaped _ => ⟨.crashed, some asked.2.log, none⟩

def ask (question : String) (house : House R) (app : App R asUtc) : Asked R :=
  let q := strip question
  if ¬ truthy q then ⟨.refused 422 "question must not be empty", none, none⟩
  else if QUESTION_MAX_LEN < q.length then
    ⟨.refused 422 ("question too long (max " ++ toString QUESTION_MAX_LEN ++ " chars)"), none, none⟩
  else
    match selectedEngine d with
    | none => ⟨.crashed, none, none⟩
    | some engine =>
      if engine.needs = some "config" then
        ⟨.refused 503 ("assistant engine '" ++ engine.id ++ "' is not configured yet"), none, none⟩
      else if engine.needs = some "connector" then ⟨.refused 503 CLOUD_DISABLED, none, none⟩
      else if engine.egress ∧ ¬ d.connectorOn then ⟨.refused 503 CLOUD_DISABLED, none, none⟩
      else if engine.egress ∧ ¬ d.egressAllowed then
        ⟨.refused 503 "egress disabled by operator (System tab)", none, none⟩
      else
        let manualCfg := if engine.id = "manual" then d.manual else none
        match makeGenerateForEngine sur.endpoints engine.id manualCfg with
        | .error detail => ⟨.refused 503 detail, none, none⟩
        | .ok generate =>
          match toolScopeFor engine.id d.cfg (manualCfg.map (·.baseUrl)) with
          | none => ⟨.crashed, none, none⟩
          | some toolScope => converse d sur engine.id q generate toolScope house app

/-! ## What leaves the house -/

theorem endpointFor_manual (engineId : String) (cfg : EngineConfig) (manual : Option ManualConfig) :
    endpointFor engineId cfg ((if engineId = "manual" then manual else none).map (·.baseUrl)) =
      endpointFor engineId cfg (manual.map (·.baseUrl)) := by
  by_cases h : engineId = "manual"
  · rw [if_pos h]
  · simp [endpointFor, h]

/-- The scope the route asks for is that of the descriptor. -/
theorem toolScopeFor_of_descriptor {engineId : String} {cfg : EngineConfig} {manual : Option ManualConfig}
    {gate : Bool} {e : Descriptor} (h : descriptor engineId cfg manual gate = some e) :
    e.id = engineId ∧ toolScopeFor engineId cfg ((if engineId = "manual" then manual else none).map (·.baseUrl)) =
      some (if e.egress then Auth.AGENT_DEFAULT_TOOL_SCOPE else AGENT_READ_TOOL_SCOPE) := by
  obtain ⟨cloud, hcloud, rfl⟩ := Option.map_eq_some_iff.mp h
  refine ⟨rfl, ?_⟩
  unfold toolScopeFor
  unfold engineIsCloud at hcloud ⊢
  rw [endpointFor_manual, hcloud]
  rfl

theorem descriptor_of_selectedEngine {e : Descriptor} (h : selectedEngine d = some e) :
    descriptor e.id d.cfg d.manual (d.connectorOn && d.egressAllowed) = some e := by
  obtain ⟨catalog, hcatalog, hfind⟩ := Option.bind_eq_some_iff.mp h
  have hmem : e ∈ catalog := by
    rcases Option.or_eq_some_iff.mp hfind with hfind | ⟨-, hfind⟩
    · exact List.mem_of_find?_eq_some hfind
    · exact List.mem_of_find?_eq_some hfind
  obtain ⟨id, -, hid⟩ := OptionList.exists_of_mem_mapM hcatalog hmem
  exact (toolScopeFor_of_descriptor hid).1 ▸ hid

variable {house house' : House R} {app app' : App R asUtc}

/-- Two houses where the same happens, but for what is personal. -/
structure AlikeHouses (house house' : House R) : Prop where
  arrivals : ∀ n, (house.arrivals n).map (Call.hide personal) = (house'.arrivals n).map (Call.hide personal)
  status : ∀ n window, coarse ((house.feedsAt n).houseStatus window) = coarse ((house'.feedsAt n).houseStatus window)

theorem finish_hide (cfg : Config ar) (s : Engine (R := R) asUtc) (calls : List (Call R)) :
    (Run.finish (step cfg) s calls).hide personal =
      Run.finish (step cfg) (s.hide personal) (calls.map (Call.hide personal)) := by
  induction calls generalizing s with
  | nil => rfl
  | cons call calls ih =>
    rw [Run.finish, List.foldl_cons, ← Run.finish, ih]
    show Run.finish _ ((run cfg call s).2.hide personal) _ = _
    rw [← (run_hide personal s cfg call).2]
    rfl

theorem meanwhile_alike (hh : AlikeHouses house house') (cfg : Config ar) (n : ℕ) (h : Alike app app') :
    Alike (house.meanwhile cfg n app) (house'.meanwhile cfg n app') where
  engine := by
    show (Run.finish (step cfg) app.engine _).hide personal = (Run.finish (step cfg) app'.engine _).hide personal
    rw [finish_hide, finish_hide, h.engine, hh.arrivals]
  looks := h.looks
  status := hh.status n

variable {d sur}

theorem converse_alike (hh : AlikeHouses house house') (h : Alike app app') (engineId q : String)
    (generate : Generate) : converse d sur engineId q generate Auth.AGENT_DEFAULT_TOOL_SCOPE house app =
      converse d sur engineId q generate Auth.AGENT_DEFAULT_TOOL_SCOPE house' app' := by
  let setting (house : House R) : Setting R (App R asUtc) :=
    sur.setting q generate Auth.AGENT_DEFAULT_TOOL_SCOPE house
  have hsimilar : Similar Alike (setting house) (setting house') :=
    ⟨rfl, fun _ hname => coarseTools_agree hname, fun n _ _ happ => meanwhile_alike hh sur.w.cfg n happ⟩
  obtain ⟨hended, hlog, -⟩ := runAsk_sim hsimilar d.cfg.maxToolSteps h
  unfold converse
  dsimp only
  rw [hended, hlog]

/-- A question to an engine elsewhere: nothing is sent unless both switches are on, and in two houses
that differ in who is where, in their vitals and in all that the coarse tools do not read, the same is
sent, answered and logged, prompt for prompt, whatever the engine replies. -/
theorem ask_cloud {e : Descriptor} (he : selectedEngine d = some e) (hcloud : e.egress = true)
    (hh : AlikeHouses house house') (h : Alike app app') (question : String) :
    ask d sur question house app = ask d sur question house' app' ∧
      ((ask d sur question house app).conversation.isSome → d.connectorOn = true ∧ d.egressAllowed = true) := by
  have hscope : toolScopeFor e.id d.cfg ((if e.id = "manual" then d.manual else none).map (·.baseUrl)) =
      some Auth.AGENT_DEFAULT_TOOL_SCOPE := by
    have hdescriptor := (toolScopeFor_of_descriptor (descriptor_of_selectedEngine d he)).2
    rwa [hcloud, if_pos rfl] at hdescriptor
  unfold ask
  dsimp only
  rw [he]
  dsimp only
  rw [hscope, hcloud]
  by_cases hblank : truthy (strip question)
  swap
  · simp [hblank]
  by_cases hlong : QUESTION_MAX_LEN < (strip question).length
  · simp [hblank, hlong]
  by_cases hconfig : e.needs = some "config"
  · simp [hblank, hlong, hconfig]
  by_cases hconnector : e.needs = some "connector"
  · simp [hblank, hlong, hconnector]
  cases hon : d.connectorOn with
  | false => simp [hblank, hlong, hconfig, hconnector]
  | true =>
    cases hallowed : d.egressAllowed with
    | false => simp [hblank, hlong, hconfig, hconnector]
    | true =>
      refine ⟨?_, fun _ => ⟨rfl, rfl⟩⟩
      cases makeGenerateForEngine sur.endpoints e.id (if e.id = "manual" then d.manual else none) with
      | error detail => rfl
      | ok generate => simp only [converse_alike hh h]

/-- A phone is seen at home, again and again; what else the app knows is nothing. -/
def phoneSeen (identities : List Identity) : House ℚ where
  arrivals _ := [⟨.update ⟨"casa", "ble", true, none, none, 1, "", [], identities, none, ""⟩,
    ⟨.unwired, 0, "", fun _ _ => none, fun _ _ => none⟩⟩]
  feedsAt _ := ⟨.null, .unwired, .unwired, .unwired, none, fun _ => .unwired⟩

/-- An engine that looks at the house once. -/
def curious : Surroundings ratArith where
  endpoints _ _ prompts := .text (some (if prompts.length = 1 then "TOOL: list_rooms" else "ANSWER: somebody"))
  w := ⟨defaultConfig, ⟨fun x => x = 0, fun _ => .error .valueError, fun n => some n, fun _ => none, fun _ => none⟩,
    fun _ => ⟨.unwired, 0, "", fun _ _ => none, fun _ _ => none⟩, fun _ => false⟩
  dumps _ := "[]"
  loads _ := .undecodable

def openaiSelected : Deployment where
  cfg := ⟨"", "", "key", "", "", "wavr_assistant", 4⟩
  selected := some "openai"
  manual := none
  connectorOn := true
  egressAllowed := true

theorem selectedEngine_openai : selectedEngine openaiSelected = some ⟨"openai", true, true, none⟩ := by
  simp [selectedEngine, engineCatalog, openaiSelected, ENGINE_IDS, descriptor, engineIsCloud, CLOUD_FIXED_IDS,
    isAvailable, truthy, List.mapM_cons]

def atHome : App ℚ fun _ => some 0 := ⟨newEngine _, 0, (phoneSeen []).feedsAt 0⟩

theorem ask_cloud_whoever :
    ask openaiSelected curious "Who is home?" (phoneSeen [⟨"Ana", "ble", none⟩]) atHome =
      ask openaiSelected curious "Who is home?" (phoneSeen []) atHome ∧
    ((ask openaiSelected curious "Who is home?" (phoneSeen [⟨"Ana", "ble", none⟩]) atHome).conversation.isSome →
      openaiSelected.connectorOn = true ∧ openaiSelected.egressAllowed = true) := by
  have hhouses : AlikeHouses (phoneSeen [⟨"Ana", "ble", none⟩]) (phoneSeen []) :=
    ⟨fun _ => rfl, fun _ _ => rfl⟩
  have happs : Alike atHome atHome := ⟨rfl, rfl, fun _ => rfl⟩
  exact ask_cloud selectedEngine_openai rfl hhouses happs "Who is home?"

end

end Wavr.Assistant
