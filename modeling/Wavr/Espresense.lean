import Mathlib.Data.Int.ConditionallyCompleteOrder
import Mathlib.Data.List.MinMax
import Wavr.Dict
import Wavr.Events
import Wavr.Json
import Wavr.MqttSubscriber
import Wavr.Run

/-!
# Rooms of BLE devices, from ESPresense boards

Each board publishes how far it is from an enrolled device, whether it is online and whether
its motion sensor is on. The device is in the room of the nearest board with a fresh reading;
absence is timed out here, and a board that goes offline stops counting.
-/

namespace Wavr.Espresense

open Fusion (SensingEvent)
open Mqtt (CONNECTED DISCONNECTED MAX_PAYLOAD_BYTES)

def PREFIX : String := "espresense"

def DEFAULT_CONFIDENCE : ℚ := 3 / 5

def MOTION_CONFIDENCE : ℚ := 13 / 20

/-- The library underneath. -/
structure Platform where
  /-- `json.loads`, where it returns. -/
  loads : ByteArray → Option (Json Double)
  /-- `float(n)`; `none` is the OverflowError. -/
  ofInt : ℤ → Option ℚ
  /-- `total_seconds()`: not less for a longer time. -/
  seconds : ℤ → ℚ
  seconds_mono : Monotone seconds
  isoformat : ℤ → String
  /-- The first twelve hex digits of the SHA-256 digest. -/
  digest : String → String
  digest_hex : ∀ s, ':' ∉ (digest s).toList

/-- Enrolled device ids, and board slug to room; a pair without a room is not loaded. -/
structure Config where
  devices : List String
  rooms : Dict String String
  maxDistanceM : ℚ
  timeoutS : ℚ
  rooms_ne : ∀ slug room, rooms.get? slug = some room → room ≠ ""

structure Tracker where
  /-- Device id to board slug to distance and time of receipt. -/
  readings : Dict String (Dict String (ℚ × ℤ))
  current : Dict String String
  motion : Dict String Bool
  online : Dict String Bool
  unknownDevice : ℕ
  unknownRoom : ℕ
  malformed : ℕ

def Tracker.new : Tracker := ⟨.empty, .empty, .empty, .empty, 0, 0, 0⟩

inductive Input
  | message (topic : String) (payload : ByteArray) (now : ℤ)
  | tick (now : ℤ)

def Input.now : Input → ℤ
  | .message _ _ now => now
  | .tick now => now

section
variable (pf : Platform) (cfg : Config)

def sensorIdFor (deviceId : String) : String := "espresense:" ++ pf.digest deviceId

def motionSensor (slug : String) : String := "espresense:" ++ slug ++ ":motion"

/-! ## Evidence -/

def event (room deviceId : String) (present : Bool) (now : ℤ) : SensingEvent ℚ :=
  { room := room, modality := "ble", presence := present, breathingBpm := none, heartBpm := none,
    confidence := if present then DEFAULT_CONFIDENCE else 0, ts := pf.isoformat now, targets := [],
    identities := [], count := none, sensorId := sensorIdFor pf deviceId }

def motionEvent (slug : String) (on : Bool) (now : ℤ) : SensingEvent ℚ :=
  { room := (cfg.rooms.get? slug).getD "", modality := "pir", presence := on, breathingBpm := none,
    heartBpm := none, confidence := if on then MOTION_CONFIDENCE else 0, ts := pf.isoformat now,
    targets := [], identities := [], count := none, sensorId := motionSensor slug }

/-- `self._online.get(slug, True)`. -/
def Tracker.hears (t : Tracker) (slug : String) : Bool := (t.online.get? slug).getD true

/-- The readings of a device that still count as readings. -/
def kept (t : Tracker) (deviceId : String) (now : ℤ) : Dict String (ℚ × ℤ) :=
  ((t.readings.get? deviceId).getD .empty).filter fun slug e =>
    ! (cfg.timeoutS < pf.seconds (now - e.2) || ! t.hears slug)

/-- The first of the nearest boards in range, in the order the boards were heard. -/
def nearest (readings : Dict String (ℚ × ℤ)) : Option String :=
  ((readings.entries.filter fun e => e.2.1 ≤ cfg.maxDistanceM).argmin fun e => e.2.1).map Prod.fst

def roomOf (readings : Dict String (ℚ × ℤ)) : Option String :=
  (nearest cfg readings).bind cfg.rooms.get?

/-- A truth value of `str | None`. -/
def named (room : Option String) : Option String := room.filter (· ≠ "")

def reconcile (t : Tracker) (deviceId : String) (now : ℤ) : Tracker × List (SensingEvent ℚ) :=
  let readings := kept pf cfg t deviceId now
  let room := named (roomOf cfg readings)
  let previous := named (t.current.get? deviceId)
  let released := match previous with
    | some p => if some p = room then [] else [event pf p deviceId false now]
    | none => []
  let readings' := if readings.entries = [] then t.readings.erase deviceId else t.readings.set deviceId readings
  match room with
  | some r => ({ t with readings := readings', current := t.current.set deviceId r },
      released ++ [event pf r deviceId true now])
  | none => ({ t with readings := readings', current := t.current.erase deviceId }, released)

/-- One device after the other. -/
def reconcileAll (devices : List String) (t : Tracker) (now : ℤ) : Tracker × List (SensingEvent ℚ) :=
  devices.foldl (fun s d => let out := reconcile pf cfg s.1 d now; (out.1, s.2 ++ out.2)) (t, [])

/-! ## Messages -/

def Tracker.dropMalformed (t : Tracker) : Tracker := { t with malformed := t.malformed + 1 }

/-- The distance in a decoded body; `isfinite` raises on an integer no double holds. -/
def asDistance (body : Json Double) : Except Raised (Option ℚ) :=
  match body with
  | .obj fields => match fields.lookup "distance" with
    | some (.int n) => match pf.ofInt n with
      | some _ => .ok (if 0 ≤ n then some n else none)
      | none => .error .overflowError
    | some (.float (.finite q)) => .ok (if 0 ≤ q then some q else none)
    | _ => .ok none
  | _ => .ok none

def onDevice (t : Tracker) (deviceId slug : String) (payload : ByteArray) (now : ℤ) :
    Except Raised (Tracker × List (SensingEvent ℚ)) :=
  if deviceId ∉ cfg.devices then .ok ({ t with unknownDevice := t.unknownDevice + 1 }, [])
  else if (cfg.rooms.get? slug).isNone then .ok ({ t with unknownRoom := t.unknownRoom + 1 }, [])
  else if MAX_PAYLOAD_BYTES < payload.size then .ok (t.dropMalformed, [])
  else match pf.loads payload with
  | none => .ok (t.dropMalformed, [])
  | some body => match asDistance pf body with
    | .error e => .error e
    | .ok none => .ok (t.dropMalformed, [])
    | .ok (some distance) =>
      let readings := ((t.readings.get? deviceId).getD .empty).set slug (distance, now)
      .ok (reconcile pf cfg
        { t with online := t.online.set slug true, readings := t.readings.set deviceId readings } deviceId now)

/-- A board's readings go, device by device. -/
def releaseBoard (slug : String) (t : Tracker) (now : ℤ) : Tracker × List (SensingEvent ℚ) :=
  t.readings.keys.foldl (fun s d =>
    let readings := ((s.1.readings.get? d).getD .empty).erase slug
    let out := reconcile pf cfg { s.1 with readings := s.1.readings.set d readings } d now
    (out.1, s.2 ++ out.2)) (t, [])

def onStatus (t : Tracker) (slug value : String) (now : ℤ) : Tracker × List (SensingEvent ℚ) :=
  if value = "offline" then
    releaseBoard pf cfg slug { t with online := t.online.set slug false, motion := t.motion.erase slug } now
  else if value = "online" then ({ t with online := t.online.set slug true }, [])
  else (t, [])

def onMotion (t : Tracker) (slug value : String) (now : ℤ) : Tracker × List (SensingEvent ℚ) :=
  if value = "ON" ∨ value = "OFF" then
    let on : Bool := value = "ON"
    ({ t with motion := t.motion.set slug on }, [motionEvent pf cfg slug on now])
  else (t.dropMalformed, [])

def onRoom (t : Tracker) (slug kind : String) (payload : ByteArray) (now : ℤ) :
    Tracker × List (SensingEvent ℚ) :=
  if (cfg.rooms.get? slug).isNone then ({ t with unknownRoom := t.unknownRoom + 1 }, [])
  else if MAX_PAYLOAD_BYTES < payload.size then (t.dropMalformed, [])
  else match Mqtt.text payload with
  | none => (t.dropMalformed, [])
  | some text =>
    if kind = "status" then onStatus pf cfg t slug (Text.lower text) now
    else if kind = "motion" then onMotion pf cfg t slug (Text.upper text) now
    else (t, [])

def onMessage (t : Tracker) (topic : String) (payload : ByteArray) (now : ℤ) :
    Except Raised (Tracker × List (SensingEvent ℚ)) :=
  if topic = DISCONNECTED then
    .ok ({ t with readings := .empty, current := .empty, motion := .empty, online := .empty }, [])
  else if topic = CONNECTED then .ok (t, [])
  else match Text.pieces '/' topic with
  | [p, kind, a, b] =>
    if p = PREFIX ∧ kind = "devices" then onDevice pf cfg t a b payload now
    else if p = PREFIX ∧ kind = "rooms" then .ok (onRoom pf cfg t a b payload now)
    else .ok (t, [])
  | _ => .ok (t, [])

/-! ## Time -/

def tick (t : Tracker) (now : ℤ) : Tracker × List (SensingEvent ℚ) :=
  let out := reconcileAll pf cfg t.readings.keys t now
  (out.1, out.2 ++ out.1.motion.entries.filterMap fun e =>
    if out.1.hears e.1 then some (motionEvent pf cfg e.1 e.2 now) else none)

/-- A message that raises leaves the tracker as it was, and nothing is emitted. -/
def respond (t : Tracker) : Input → Tracker × List (SensingEvent ℚ)
  | .message topic payload now => match onMessage pf cfg t topic payload now with
    | .ok out => out
    | .error _ => (t, [])
  | .tick now => tick pf cfg t now

end

/-! ## What has been published

The account of a run by its messages alone. A board is known to be offline from its offline
message until it says otherwise or a reading of it comes in, and what it read before is void.
-/

inductive Report
  | reading (deviceId slug : String) (distance : ℚ)
  | offline (slug : String)
  | online (slug : String)
  | motion (slug : String) (on : Bool)

structure Heard where
  reading : String → String → Option (ℚ × ℤ)
  offline : String → Bool
  motion : String → Option Bool

def Heard.nothing : Heard := ⟨fun _ _ => none, fun _ => false, fun _ => none⟩

def Heard.hear (h : Heard) (now : ℤ) : Report → Heard
  | .reading d b x =>
    { h with reading := Function.update h.reading d (Function.update (h.reading d) b (some (x, now))),
             offline := Function.update h.offline b false }
  | .offline b =>
    { h with reading := fun d => Function.update (h.reading d) b none,
             offline := Function.update h.offline b true }
  | .online b => { h with offline := Function.update h.offline b false }
  | .motion b on => { h with motion := Function.update h.motion b (some on) }

section
variable (pf : Platform) (cfg : Config)

/-- A board's own message, by the last level of its topic. -/
def roomReport (slug kind text : String) : Option Report :=
  if kind = "status" then
    if Text.lower text = "offline" then some (.offline slug)
    else if Text.lower text = "online" then some (.online slug)
    else none
  else if kind = "motion" then
    if Text.upper text = "ON" then some (.motion slug true)
    else if Text.upper text = "OFF" then some (.motion slug false)
    else none
  else none

def deviceReport (deviceId slug : String) (payload : ByteArray) : Option Report :=
  if deviceId ∈ cfg.devices ∧ payload.size ≤ MAX_PAYLOAD_BYTES then
    match (pf.loads payload).map (asDistance pf) with
    | some (.ok (some distance)) => some (.reading deviceId slug distance)
    | _ => none
  else none

def report (topic : String) (payload : ByteArray) : Option Report :=
  if topic = DISCONNECTED then none
  else if topic = CONNECTED then none
  else match Text.pieces '/' topic with
  | [p, kind, a, b] =>
    if p = PREFIX ∧ kind = "devices" then
      if (cfg.rooms.get? b).isSome then deviceReport pf cfg a b payload else none
    else if p = PREFIX ∧ kind = "rooms" then
      if (cfg.rooms.get? a).isSome ∧ payload.size ≤ MAX_PAYLOAD_BYTES then
        (Mqtt.text payload).bind (roomReport a b)
      else none
    else none
  | _ => none

def said : Input → Option Report
  | .message topic payload _ => report pf cfg topic payload
  | .tick _ => none

/-- A board vouches for a device: it is not known to be offline, and its last reading is fresh
and in range. -/
def Vouches (h : Heard) (now : ℤ) (d b : String) (x : ℚ) : Prop :=
  ∃ at_, h.reading d b = some (x, at_) ∧ pf.seconds (now - at_) ≤ cfg.timeoutS ∧ x ≤ cfg.maxDistanceM ∧
    h.offline b = false

def Nearest (h : Heard) (now : ℤ) (d b : String) : Prop :=
  ∃ x, Vouches pf cfg h now d b x ∧ ∀ b' x', Vouches pf cfg h now d b' x' → x ≤ x'

end

/-! ## What is shown

The presence the last event left for each sensor and room.
-/

abbrev Shown := String × String → Bool

def Shown.show (s : Shown) (e : SensingEvent ℚ) : Shown := Function.update s (e.sensorId, e.room) e.presence

def Shown.showAll (s : Shown) (es : List (SensingEvent ℚ)) : Shown := es.foldl Shown.show s

structure World where
  tracker : Tracker
  heard : Heard
  shown : Shown

def World.start : World := ⟨.new, .nothing, fun _ => false⟩

section
variable (pf : Platform) (cfg : Config)

def step (w : World) (i : Input) : World :=
  let out := respond pf cfg w.tracker i
  ⟨out.1, (said pf cfg i).elim w.heard (w.heard.hear i.now), w.shown.showAll out.2⟩

def OnePlace (s : Shown) : Prop :=
  ∀ d ∈ cfg.devices, ∀ r r', s (sensorIdFor pf d, r) = true → s (sensorIdFor pf d, r') = true → r = r'

/-- The device is shown where a nearest board stands, and nowhere if no board vouches for it. -/
def Placed (h : Heard) (now : ℤ) (s : Shown) (d : String) : Prop :=
  (∃ b, Nearest pf cfg h now d b ∧ ∀ r, s (sensorIdFor pf d, r) = true ↔ cfg.rooms.get? b = some r) ∨
    ((∀ b x, ¬ Vouches pf cfg h now d b x) ∧ ∀ r, s (sensorIdFor pf d, r) = false)

/-- Nothing is shown on the word of the board alone. -/
def Released (h : Heard) (now : ℤ) (s : Shown) (b : String) : Prop :=
  (∀ d ∈ cfg.devices, ∀ r, s (sensorIdFor pf d, r) = true →
      ∃ b' x, b' ≠ b ∧ Vouches pf cfg h now d b' x ∧ cfg.rooms.get? b' = some r) ∧
    ∀ r, s (motionSensor b, r) = false

/-- A device is in one place, after a tick in the right one, and an offline board vouches for nothing. -/
def StepKept (w : World) (i : Input) : Prop :=
  let w' := step pf cfg w i
  OnePlace pf cfg w'.shown ∧
    (∀ now, i = .tick now → ∀ d ∈ cfg.devices, Placed pf cfg w'.heard now w'.shown d) ∧
    ∀ b, said pf cfg i = some (.offline b) → Released pf cfg w'.heard i.now w'.shown b

/-- A board that goes offline last said that nothing moves, if anything. -/
def MotionOff (w : World) (i : Input) : Prop :=
  ∀ b, said pf cfg i = some (.offline b) → w.heard.motion b ≠ some true

end

/-! ## Messages as reports -/

section
variable {pf : Platform} {cfg : Config} {t : Tracker}

/-- What a tracker does with a report. -/
def take (pf : Platform) (cfg : Config) (t : Tracker) (now : ℤ) : Report → Tracker × List (SensingEvent ℚ)
  | .reading d b x =>
    reconcile pf cfg { t with
      online := t.online.set b true,
      readings := t.readings.set d (((t.readings.get? d).getD .empty).set b (x, now)) } d now
  | .offline b =>
    releaseBoard pf cfg b { t with online := t.online.set b false, motion := t.motion.erase b } now
  | .online b => ({ t with online := t.online.set b true }, [])
  | .motion b on => ({ t with motion := t.motion.set b on }, [motionEvent pf cfg b on now])

/-- Equal but for the counts of dropped messages. -/
structure Same (t t' : Tracker) : Prop where
  readings : t'.readings = t.readings
  current : t'.current = t.current
  motion : t'.motion = t.motion
  online : t'.online = t.online

/-- The tracker's answer is that to the report, and without one nothing happens. -/
def Answers (pf : Platform) (cfg : Config) (t : Tracker) (now : ℤ) (r : Option Report)
    (out : Tracker × List (SensingEvent ℚ)) : Prop :=
  match r with
  | some r => out = take pf cfg t now r
  | none => Same t out.1 ∧ out.2 = []

theorem answers_none (now : ℤ) : Answers pf cfg t now none (t, []) := ⟨⟨rfl, rfl, rfl, rfl⟩, rfl⟩

theorem answers_dropMalformed (now : ℤ) : Answers pf cfg t now none (t.dropMalformed, []) :=
  ⟨⟨rfl, rfl, rfl, rfl⟩, rfl⟩

theorem answers_onRoom (slug kind : String) (payload : ByteArray) (now : ℤ) :
    Answers pf cfg t now
      (if (cfg.rooms.get? slug).isSome ∧ payload.size ≤ MAX_PAYLOAD_BYTES then
        (Mqtt.text payload).bind (roomReport slug kind) else none)
      (onRoom pf cfg t slug kind payload now) := by
  unfold onRoom
  -- the handler counts what it drops as malformed; the report of such a message is none
  cases hroom : cfg.rooms.get? slug with
  | none => exact ⟨⟨rfl, rfl, rfl, rfl⟩, rfl⟩
  | some room =>
    have hmapped : ¬ (some room).isNone = true := by simp
    rw [if_neg hmapped]
    by_cases hsize : MAX_PAYLOAD_BYTES < payload.size
    · rw [if_pos hsize, if_neg fun h => absurd h.2 (by omega)]
      exact answers_dropMalformed now
    rw [if_neg hsize, if_pos ⟨rfl, by omega⟩]
    cases Mqtt.text payload with
    | none => exact answers_dropMalformed now
    | some text =>
      simp only [Option.bind_some, roomReport]
      by_cases hstatus : kind = "status"
      · rw [if_pos hstatus, if_pos hstatus, onStatus]
        split_ifs
        · rfl
        · rfl
        · exact answers_none now
      rw [if_neg hstatus, if_neg hstatus]
      by_cases hmotion : kind = "motion"
      · rw [if_pos hmotion, if_pos hmotion, onMotion]
        by_cases hon : Text.upper text = "ON"
        · rw [if_pos hon, if_pos (.inl hon)]
          simp only [hon]
          rfl
        rw [if_neg hon]
        by_cases hoff : Text.upper text = "OFF"
        · rw [if_pos hoff, if_pos (.inr hoff)]
          simp only [hoff]
          rfl
        · rw [if_neg hoff, if_neg fun h => h.elim hon hoff]
          exact answers_dropMalformed now
      · rw [if_neg hmotion, if_neg hmotion]
        exact answers_none now

/-- What an answer that may be an exception leaves behind. -/
def settle (t : Tracker) : Except Raised (Tracker × List (SensingEvent ℚ)) → Tracker × List (SensingEvent ℚ)
  | .ok out => out
  | .error _ => (t, [])

theorem answers_onDevice (deviceId slug : String) (payload : ByteArray) (now : ℤ) :
    Answers pf cfg t now
      (if (cfg.rooms.get? slug).isSome then deviceReport pf cfg deviceId slug payload else none)
      (settle t (onDevice pf cfg t deviceId slug payload now)) := by
  unfold onDevice deviceReport
  by_cases hdev : deviceId ∈ cfg.devices
  · rw [if_neg (not_not.mpr hdev)]
    cases hroom : cfg.rooms.get? slug with
    | none => exact ⟨⟨rfl, rfl, rfl, rfl⟩, rfl⟩
    | some room =>
      have hmapped : ¬ (some room).isNone = true := by simp
      have hsome : (some room).isSome = true := rfl
      rw [if_neg hmapped, if_pos hsome]
      by_cases hsize : MAX_PAYLOAD_BYTES < payload.size
      · rw [if_pos hsize, if_neg fun h => absurd h.2 (by omega)]
        exact answers_dropMalformed now
      rw [if_neg hsize, if_pos ⟨hdev, by omega⟩]
      cases pf.loads payload with
      | none => exact answers_dropMalformed now
      | some body =>
        simp only [Option.map_some]
        cases asDistance pf body with
        | error e => exact answers_none now
        | ok distance =>
          cases distance with
          | none => exact answers_dropMalformed now
          | some x => rfl
  · have hno : ¬ (deviceId ∈ cfg.devices ∧ payload.size ≤ MAX_PAYLOAD_BYTES) := fun h => hdev h.1
    rw [if_pos hdev, if_neg hno, ite_self]
    exact ⟨⟨rfl, rfl, rfl, rfl⟩, rfl⟩

theorem answers_message {topic : String} (htopic : topic ≠ DISCONNECTED) (payload : ByteArray) (now : ℤ) :
    Answers pf cfg t now (report pf cfg topic payload) (respond pf cfg t (.message topic payload now)) := by
  have hsettle : respond pf cfg t (.message topic payload now) =
      settle t (onMessage pf cfg t topic payload now) := by
    simp only [respond]
    cases onMessage pf cfg t topic payload now <;> rfl
  rw [hsettle]
  unfold report onMessage
  rw [if_neg htopic, if_neg htopic]
  by_cases hcon : topic = CONNECTED
  · rw [if_pos hcon, if_pos hcon]
    exact answers_none now
  rw [if_neg hcon, if_neg hcon]
  split
  · rename_i p kind a b _
    by_cases hdev : p = PREFIX ∧ kind = "devices"
    · rw [if_pos hdev, if_pos hdev]
      exact answers_onDevice a b payload now
    rw [if_neg hdev, if_neg hdev]
    by_cases hrooms : p = PREFIX ∧ kind = "rooms"
    · rw [if_pos hrooms, if_pos hrooms]
      exact answers_onRoom a b payload now
    · rw [if_neg hrooms, if_neg hrooms]
      exact answers_none now
  · exact answers_none now

end

end Wavr.Espresense
