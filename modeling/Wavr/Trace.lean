import Wavr.FusionReading
import Wavr.Json

/-!
# Traces

`TraceRecorder` and `replay`: the events as they were ingested, written as JSON, and fed to a fresh
engine whose clock is the trace's own timestamps.
-/

namespace Wavr.Trace
open Fusion Run
open Json (get)

def TRACE_VERSION : ℤ := 1

variable {R : Type}

/-- An event as a sensor reports it. Its motion is recorded, and fused nowhere. -/
structure Observed (R : Type) where
  event : SensingEvent R
  motion : R

/-! ## Recording -/

/-- `None` or a value. -/
def optional {α : Type} (f : α → Json R) : Option α → Json R
  | none => .null
  | some a => f a

def Target.fields (t : Target R) : List (String × Json R) :=
  [("id", .int t.id), ("x", optional .float t.x), ("y", optional .float t.y), ("z", optional .float t.z),
    ("posture", optional .str t.posture), ("velocity", optional .float t.velocity),
    ("confidence", .float t.confidence), ("frame", .str t.frame)]

def Identity.fields (i : Identity) : List (String × Json R) :=
  [("person", .str i.person), ("source", .str i.source), ("rssi", optional .int i.rssi)]

/-- `SensingEvent.to_dict`. -/
def Observed.fields (o : Observed R) : List (String × Json R) :=
  [("room", .str o.event.room), ("modality", .str o.event.modality), ("presence", .bool o.event.presence),
    ("motion", .float o.motion), ("breathing_bpm", optional .float o.event.breathingBpm),
    ("heart_bpm", optional .float o.event.heartBpm), ("confidence", .float o.event.confidence),
    ("ts", .str o.event.ts),
    ("targets", .arr (o.event.targets.map fun t => .obj (Target.fields t))),
    ("identities", .arr (o.event.identities.map fun i => .obj (Identity.fields i))),
    ("count", optional (fun n : ℕ => .int n) o.event.count), ("sensor_id", .str o.event.sensorId)]

/-- `_event_to_row`. -/
def eventToRow (o : Observed R) : Json R := .obj [("t", .str o.event.ts), ("event", .obj o.fields)]

structure TraceRecorder (R : Type) where
  label : String
  max : ℤ
  rows : List (Json R)
  dropped : ℕ
  started : String

def newRecorder (label : String) (maxEvents : ℤ) (started : String) : TraceRecorder R :=
  ⟨label, Max.max 1 maxEvents, [], 0, started⟩

def TraceRecorder.record (r : TraceRecorder R) (o : Observed R) : TraceRecorder R :=
  if r.max ≤ r.rows.length then { r with dropped := r.dropped + 1 }
  else { r with rows := r.rows ++ [eventToRow o] }

def TraceRecorder.toDict (r : TraceRecorder R) : Json R :=
  .obj [("version", .int TRACE_VERSION), ("label", .str r.label), ("started", .str r.started),
    ("events", .arr r.rows), ("truncated", .bool (0 < r.dropped)), ("dropped", .int r.dropped),
    ("sanitized", .bool false)]

/-- What a fresh recorder has written down behind these events. -/
def recorded (label : String) (maxEvents : ℤ) (started : String) (observed : List (Observed R)) : Json R :=
  (finish TraceRecorder.record (newRecorder label maxEvents started) observed).toDict

/-! ## Reading a row back -/

/-- Why a row is no event. -/
inductive Unread
  /-- An argument is missing, or a list is none. -/
  | typeError
  /-- A value is not of its annotated type. The interpreter carries it into the engine, which is
  not followed here. -/
  | untyped
  deriving DecidableEq

def asStr : Json R → Option String
  | .str s => some s
  | _ => none

def asBool : Json R → Option Bool
  | .bool b => some b
  | _ => none

def asInt : Json R → Option ℤ
  | .int n => some n
  | _ => none

def asCount : Json R → Option ℕ
  | .int n => if 0 ≤ n then some n.toNat else none
  | _ => none

def asFloat : Json R → Option R
  | .float x => some x
  | _ => none

def asObj : Json R → Option (List (String × Json R))
  | .obj fields => some fields
  | _ => none

def asOptional {α : Type} (f : Json R → Option α) : Json R → Option (Option α)
  | .null => some none
  | v => (f v).map some

/-- A keyword argument, with the field's default. Keys that name no field are not looked at. -/
def argument {α : Type} (fields : List (String × Json R)) (k : String) (default : Option α)
    (f : Json R → Option α) : Except Unread α :=
  match fields.lookup k with
  | none => match default with
    | some a => .ok a
    | none => .error .typeError
  | some v => match f v with
    | some a => .ok a
    | none => .error .untyped

/-- `Target(**fields)`. -/
def targetOf (ar : Arith R) (fields : List (String × Json R)) : Except Unread (Target R) := do
  let id ← argument fields "id" none asInt
  let x ← argument fields "x" none (asOptional asFloat)
  let y ← argument fields "y" none (asOptional asFloat)
  let z ← argument fields "z" (some none) (asOptional asFloat)
  let posture ← argument fields "posture" (some none) (asOptional asStr)
  let velocity ← argument fields "velocity" (some none) (asOptional asFloat)
  let confidence ← argument fields "confidence" (some (ar.lit 0)) asFloat
  let frame ← argument fields "frame" (some FRAME_ROOM) asStr
  return { id, x, y, z, posture, velocity, confidence, frame }

/-- `Identity(**fields)`. -/
def identityOf (fields : List (String × Json R)) : Except Unread Identity := do
  let person ← argument fields "person" none asStr
  let source ← argument fields "source" none asStr
  let rssi ← argument fields "rssi" (some none) (asOptional asInt)
  return { person, source, rssi }

/-- `_rebuild`: rows that are no objects are passed over. -/
def rebuild {α : Type} (nb : Numbers R) (cls : List (String × Json R) → Except Unread α) (rows : Json R) :
    Except Unread (List α) :=
  match Json.orElse nb rows (.arr []) with
  | .arr items => (items.filterMap asObj).mapM cls
  -- the keys of an object and the characters of a text are no objects
  | .obj _ => .ok []
  | .str _ => .ok []
  | _ => .error .typeError

section
variable (nb : Numbers R) (ar : Arith R)

/-- `SensingEvent(**known, targets=…, identities=…)`. -/
def eventOf (raw : List (String × Json R)) : Except Unread (Observed R) := do
  let targets ← rebuild nb (targetOf ar) (get raw "targets")
  let identities ← rebuild nb identityOf (get raw "identities")
  let room ← argument raw "room" none asStr
  let modality ← argument raw "modality" none asStr
  let presence ← argument raw "presence" none asBool
  let motion ← argument raw "motion" none asFloat
  let breathingBpm ← argument raw "breathing_bpm" none (asOptional asFloat)
  let heartBpm ← argument raw "heart_bpm" none (asOptional asFloat)
  let confidence ← argument raw "confidence" none asFloat
  let ts ← argument raw "ts" none asStr
  let count ← argument raw "count" (some none) (asOptional asCount)
  let sensorId ← argument raw "sensor_id" (some "") asStr
  let event : SensingEvent R :=
    ⟨room, modality, presence, breathingBpm, heartBpm, confidence, ts, targets, identities, count, sensorId⟩
  return { event, motion }

/-- `_row_to_event`. -/
def rowToEvent : Json R → Except Unread (Observed R)
  | .obj row =>
    match Json.orElse nb (get row "event") (.obj []) with
    | .obj raw => eventOf nb ar raw
    | _ => .error .untyped
  | _ => .error .untyped

end

/-! ## Replaying -/

/-- What `engine_factory` builds an engine from, the clock apart. -/
structure Factory (ar : Arith R) where
  cfg : Config ar
  reliability : String → String → Option (R × String)
  mount : String → String → Option (MountPose R)

/-- What the machine's own clock answers during an update. -/
structure Wall where
  instant : ℤ
  iso : String

/-- The clock of a replay holds no instant until a timestamp parses, and what holds none is no
clock to the engine. -/
def Factory.env {ar : Arith R} (f : Factory ar) (clock : Option ℤ) (wall : Wall) : Env R where
  now := match clock with
    | some t => .at t
    | none => .unusable
  wall := wall.instant
  wallIso := wall.iso
  reliability := f.reliability
  mount := f.mount

/-- The clock behind an event. -/
def tick (asUtc : String → Option ℤ) (clock : Option ℤ) (e : SensingEvent R) : Option ℤ :=
  (asUtc e.ts).or clock

section
variable {ar : Arith R} (nb : Numbers R) (f : Factory ar) (asUtc : String → Option ℤ)

/-- The loop of `replay`. -/
def replayRows : (ℕ → Wall) → Option ℤ → Engine (R := R) asUtc → List (Json R) →
    Except Unread (List (RoomState R))
  | _, _, _, [] => .ok []
  | walls, clock, s, row :: rows => do
    let observed ← rowToEvent nb ar row
    let clock := tick asUtc clock observed.event
    let result := run f.cfg ⟨.update observed.event, f.env clock (walls 0)⟩ s
    let states ← replayRows (fun n => walls (n + 1)) clock result.2 rows
    return result.1.state?.toList ++ states

def replay (walls : ℕ → Wall) : Json R → Except Unread (List (RoomState R))
  | .obj trace =>
    match Json.orElse nb (get trace "events") (.arr []) with
    | .arr rows => replayRows nb f asUtc walls none (newEngine asUtc) rows
    | _ => .error .untyped
  | _ => .error .untyped

/-- The events as calls to an engine whose clock they drive. -/
def driven : (ℕ → Wall) → Option ℤ → List (SensingEvent R) → List (Call R)
  | _, _, [] => []
  | walls, clock, e :: es =>
    ⟨.update e, f.env (tick asUtc clock e) (walls 0)⟩ ::
      driven (fun n => walls (n + 1)) (tick asUtc clock e) es

/-- The room states that an engine in this state returns for the events. -/
def feedFrom (walls : ℕ → Wall) (clock : Option ℤ) (s : Engine (R := R) asUtc)
    (events : List (SensingEvent R)) : List (RoomState R) :=
  outputs (step f.cfg) (fun s call => (run f.cfg call s).1.state?) s (driven f asUtc walls clock events)

/-- The room states that a fresh engine returns for the events. -/
def feed (walls : ℕ → Wall) (events : List (SensingEvent R)) : List (RoomState R) :=
  feedFrom f asUtc walls none (newEngine asUtc) events

end

/-! ## Rows read back -/

section
variable {ar : Arith R} (nb : Numbers R)

theorem argument_eq {α : Type} {fields : List (String × Json R)} {k : String} {default : Option α}
    {f : Json R → Option α} {v : Json R} {a : α} (hk : fields.lookup k = some v) (ha : f v = some a) :
    argument fields k default f = .ok a := by
  simp [argument, hk, ha]

theorem asOptional_optional {α : Type} {f : Json R → Option α} {g : α → Json R} (h : ∀ a, f (g a) = some a)
    (hnull : ∀ a, g a ≠ .null) (a : Option α) : asOptional f (optional g a) = some a := by
  cases a with
  | none => rfl
  | some a =>
    have hsome := hnull a
    have hf := h a
    rw [optional]
    cases hg : g a with
    | null => exact absurd hg hsome
    | _ =>
      rw [hg] at hf
      simp [asOptional, hf]

theorem asOptional_float (x : Option R) : asOptional asFloat (optional .float x) = some x := by
  refine asOptional_optional (f := asFloat) (fun _ => rfl) (fun a h => ?_) x
  cases h

theorem asOptional_str (s : Option String) : asOptional asStr (optional (Json.str (F := R)) s) = some s := by
  refine asOptional_optional (f := asStr) (fun _ => rfl) (fun a h => ?_) s
  cases h

theorem asOptional_int (n : Option ℤ) : asOptional asInt (optional (Json.int (F := R)) n) = some n := by
  refine asOptional_optional (f := asInt) (fun _ => rfl) (fun a h => ?_) n
  cases h

theorem asOptional_count (n : Option ℕ) :
    asOptional asCount (optional (fun n : ℕ => Json.int (F := R) n) n) = some n := by
  refine asOptional_optional (fun n => ?_) (fun a h => ?_) n
  · simp [asCount]
  · cases h

theorem targetOf_fields (t : Target R) : targetOf ar (Target.fields t) = .ok t := by
  have hid : argument (Target.fields t) "id" none asInt = .ok t.id := rfl
  have hx : argument (Target.fields t) "x" none (asOptional asFloat) = .ok t.x :=
    argument_eq rfl (asOptional_float t.x)
  have hy : argument (Target.fields t) "y" none (asOptional asFloat) = .ok t.y :=
    argument_eq rfl (asOptional_float t.y)
  have hz : argument (Target.fields t) "z" (some none) (asOptional asFloat) = .ok t.z :=
    argument_eq rfl (asOptional_float t.z)
  have hposture : argument (Target.fields t) "posture" (some none) (asOptional asStr) = .ok t.posture :=
    argument_eq rfl (asOptional_str t.posture)
  have hvelocity : argument (Target.fields t) "velocity" (some none) (asOptional asFloat) = .ok t.velocity :=
    argument_eq rfl (asOptional_float t.velocity)
  have hconfidence : argument (Target.fields t) "confidence" (some (ar.lit 0)) asFloat = .ok t.confidence := rfl
  have hframe : argument (Target.fields t) "frame" (some FRAME_ROOM) asStr = .ok t.frame := rfl
  rw [targetOf, hid, hx, hy, hz, hposture, hvelocity, hconfidence, hframe]
  rfl

theorem identityOf_fields (i : Identity) : identityOf (Identity.fields (R := R) i) = .ok i := by
  have hperson : argument (Identity.fields (R := R) i) "person" none asStr = .ok i.person := rfl
  have hsource : argument (Identity.fields (R := R) i) "source" none asStr = .ok i.source := rfl
  have hrssi : argument (Identity.fields (R := R) i) "rssi" (some none) (asOptional asInt) = .ok i.rssi :=
    argument_eq rfl (asOptional_int i.rssi)
  rw [identityOf, hperson, hsource, hrssi]
  rfl

/-- A list of dictionaries is rebuilt where each of them is. -/
theorem rebuild_map {α : Type} {cls : List (String × Json R) → Except Unread α}
    {fields : α → List (String × Json R)} (h : ∀ a, cls (fields a) = .ok a) (as : List α) :
    rebuild nb cls (.arr (as.map fun a => .obj (fields a))) = .ok as := by
  have hobjects : (as.map fun a => Json.obj (fields a)).filterMap asObj = as.map fields := by
    rw [List.filterMap_map]
    exact congrFun (List.filterMap_eq_map (f := fields)) as
  rw [rebuild, Json.orElse_arr]
  dsimp only
  rw [hobjects, mapM_map_ok h, List.map_id']

theorem eventOf_fields (o : Observed R) : eventOf nb ar o.fields = .ok o := by
  have htargets : rebuild nb (targetOf ar) (get o.fields "targets") = .ok o.event.targets :=
    rebuild_map nb targetOf_fields o.event.targets
  have hidentities : rebuild nb identityOf (get o.fields "identities") = .ok o.event.identities :=
    rebuild_map nb identityOf_fields o.event.identities
  have hroom : argument o.fields "room" none asStr = .ok o.event.room := rfl
  have hmodality : argument o.fields "modality" none asStr = .ok o.event.modality := rfl
  have hpresence : argument o.fields "presence" none asBool = .ok o.event.presence := rfl
  have hmotion : argument o.fields "motion" none asFloat = .ok o.motion := rfl
  have hbreathing : argument o.fields "breathing_bpm" none (asOptional asFloat) = .ok o.event.breathingBpm :=
    argument_eq rfl (asOptional_float o.event.breathingBpm)
  have hheart : argument o.fields "heart_bpm" none (asOptional asFloat) = .ok o.event.heartBpm :=
    argument_eq rfl (asOptional_float o.event.heartBpm)
  have hconfidence : argument o.fields "confidence" none asFloat = .ok o.event.confidence := rfl
  have hts : argument o.fields "ts" none asStr = .ok o.event.ts := rfl
  have hcount : argument o.fields "count" (some none) (asOptional asCount) = .ok o.event.count :=
    argument_eq rfl (asOptional_count o.event.count)
  have hsensor : argument o.fields "sensor_id" (some "") asStr = .ok o.event.sensorId := rfl
  rw [eventOf, htargets, hidentities, hroom, hmodality, hpresence, hmotion, hbreathing, hheart, hconfidence,
    hts, hcount, hsensor]
  rfl

theorem rowToEvent_eventToRow (o : Observed R) : rowToEvent nb ar (eventToRow o) = .ok o :=
  eventOf_fields nb o

/-! ## A recording read back -/

theorem finish_record (observed : List (Observed R)) (r : TraceRecorder R) :
    finish TraceRecorder.record r observed =
      { r with
        rows := r.rows ++ (observed.take (r.max - r.rows.length).toNat).map eventToRow
        dropped := r.dropped + (observed.length - (r.max - r.rows.length).toNat) } := by
  induction observed generalizing r with
  | nil => simp
  | cons o observed ih =>
    rw [finish_cons]
    by_cases hfull : r.max ≤ r.rows.length
    · have hnone : (r.max - r.rows.length).toNat = 0 := by omega
      rw [TraceRecorder.record, if_pos hfull, ih]
      simp only [hnone, List.take_zero, List.map_nil, List.append_nil, List.length_cons, Nat.sub_zero]
      congr 1
      omega
    · obtain ⟨n, hn⟩ : ∃ n : ℕ, (r.max - r.rows.length).toNat = n + 1 :=
        ⟨(r.max - r.rows.length).toNat - 1, by omega⟩
      have hrest : (r.max - (r.rows ++ [eventToRow o]).length).toNat = n := by
        rw [List.length_append, List.length_singleton]
        push_cast
        omega
      rw [TraceRecorder.record, if_neg hfull, ih, hn]
      simp only [hrest, List.take_succ_cons, List.map_cons, List.append_assoc, List.singleton_append,
        List.length_cons, Nat.add_sub_add_right]

/-- The events that a recorder has room for: the first ones. -/
def kept (maxEvents : ℤ) (observed : List (Observed R)) : List (Observed R) :=
  observed.take (max 1 maxEvents).toNat

theorem recorded_eq (label started : String) (maxEvents : ℤ) (observed : List (Observed R)) :
    recorded label maxEvents started observed = TraceRecorder.toDict ⟨label, max 1 maxEvents,
      (kept maxEvents observed).map eventToRow, observed.length - (max 1 maxEvents).toNat, started⟩ := by
  rw [recorded, finish_record]
  simp [newRecorder, kept]

/-- A recorder with room for the events has them all. -/
theorem kept_eq_self {maxEvents : ℤ} {observed : List (Observed R)}
    (h : (observed.length : ℤ) ≤ max 1 maxEvents) : kept maxEvents observed = observed := by
  refine List.take_of_length_le ?_
  omega

theorem distinct_optional {α : Type} {f : α → Json R} (h : ∀ a, (f a).Distinct) (a : Option α) :
    (optional f a).Distinct := by
  cases a with
  | none => exact .null
  | some a => exact h a

theorem distinct_target (t : Target R) : (Json.obj (Target.fields t)).Distinct := by
  refine .obj ?_ ?_
  · show (["id", "x", "y", "z", "posture", "velocity", "confidence", "frame"] : List String).Nodup
    decide
  · have hfloat := fun x => distinct_optional (R := R) .float x
    have hstr := fun s => distinct_optional (R := R) .str s
    simp only [Target.fields, List.forall_mem_cons, List.not_mem_nil, false_imp_iff, implies_true, and_true]
    exact ⟨.int _, hfloat _, hfloat _, hfloat _, hstr _, hfloat _, .float _, .str _⟩

theorem distinct_identity (i : Identity) : (Json.obj (Identity.fields (R := R) i)).Distinct := by
  refine .obj ?_ ?_
  · show (["person", "source", "rssi"] : List String).Nodup
    decide
  · simp only [Identity.fields, List.forall_mem_cons, List.not_mem_nil, false_imp_iff, implies_true, and_true]
    exact ⟨.str _, .str _, distinct_optional .int _⟩

theorem distinct_row (o : Observed R) : (eventToRow o).Distinct := by
  have hfloat := fun x => distinct_optional (R := R) .float x
  have hcount := fun n => distinct_optional (R := R) (f := fun n : ℕ => .int n) (fun n => .int n) n
  have hevent : (Json.obj o.fields).Distinct := by
    refine .obj ?_ ?_
    · show (["room", "modality", "presence", "motion", "breathing_bpm", "heart_bpm", "confidence", "ts",
        "targets", "identities", "count", "sensor_id"] : List String).Nodup
      decide
    · simp only [Observed.fields, List.forall_mem_cons, List.not_mem_nil, false_imp_iff, implies_true, and_true]
      refine ⟨.str _, .str _, .bool _, .float _, hfloat _, hfloat _, .float _, .str _, .arr ?_, .arr ?_,
        hcount _, .str _⟩
      · intro v hv
        obtain ⟨t, -, rfl⟩ := List.mem_map.mp hv
        exact distinct_target t
      · intro v hv
        obtain ⟨i, -, rfl⟩ := List.mem_map.mp hv
        exact distinct_identity i
  refine .obj ?_ ?_
  · show (["t", "event"] : List String).Nodup
    decide
  · simp only [List.forall_mem_cons, List.not_mem_nil, false_imp_iff, implies_true, and_true]
    exact ⟨.str _, hevent⟩

theorem distinct_toDict {r : TraceRecorder R} (h : ∀ v ∈ r.rows, v.Distinct) : r.toDict.Distinct := by
  refine .obj ?_ ?_
  · show (["version", "label", "started", "events", "truncated", "dropped", "sanitized"] : List String).Nodup
    decide
  · simp only [List.forall_mem_cons, List.not_mem_nil, false_imp_iff, implies_true, and_true]
    exact ⟨.int _, .str _, .str _, .arr h, .bool _, .int _, .bool _⟩

theorem distinct_recorded (label started : String) (maxEvents : ℤ) (observed : List (Observed R)) :
    (recorded label maxEvents started observed).Distinct := by
  rw [recorded_eq]
  refine distinct_toDict fun v hv => ?_
  obtain ⟨o, -, rfl⟩ := List.mem_map.mp hv
  exact distinct_row o

theorem replayRows_eq (f : Factory ar) {asUtc : String → Option ℤ} (walls : ℕ → Wall) (clock : Option ℤ)
    (s : Engine (R := R) asUtc) (observed : List (Observed R)) :
    replayRows nb f asUtc walls clock s (observed.map eventToRow) =
      .ok (feedFrom f asUtc walls clock s (observed.map (·.event))) := by
  induction observed generalizing walls clock s with
  | nil => rfl
  | cons o observed ih =>
    rw [List.map_cons, replayRows, rowToEvent_eventToRow]
    dsimp only [bind, Except.bind]
    rw [ih]
    rfl

/-- An object with these rows for events replays as the events do. -/
theorem replay_obj (f : Factory ar) (asUtc : String → Option ℤ) (walls : ℕ → Wall)
    {trace : List (String × Json R)} {observed : List (Observed R)}
    (h : get trace "events" = .arr (observed.map eventToRow)) :
    replay nb f asUtc walls (.obj trace) = .ok (feed f asUtc walls (observed.map (·.event))) := by
  rw [replay, h, Json.orElse_arr]
  exact replayRows_eq nb f walls none (newEngine asUtc) observed

theorem replay_recorded (f : Factory ar) (asUtc : String → Option ℤ) (walls : ℕ → Wall) (label started : String)
    (maxEvents : ℤ) (observed : List (Observed R)) :
    replay nb f asUtc walls (recorded label maxEvents started observed) =
      .ok (feed f asUtc walls ((kept maxEvents observed).map (·.event))) := by
  rw [recorded_eq]
  exact replay_obj nb f asUtc walls rfl

end

end Wavr.Trace
