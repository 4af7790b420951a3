import Wavr.Dict
import Wavr.Events
import Wavr.MqttSubscriber
import Wavr.Run

/-!
# Person counts from Frigate

Counts, availability and the detection state of each camera arrive on topics of their own, in
any order, and a timer repeats what is held. The tracker answers each message and each tick
with the events it emits; a repeated count speaks for the moment it is repeated.
-/

namespace Wavr.Frigate

open Fusion (SensingEvent)
open Mqtt (CONNECTED DISCONNECTED MAX_PAYLOAD_BYTES)

def LABEL : String := "person"

def DEFAULT_CONFIDENCE : ℚ := 3 / 4

def MAX_COUNT : ℕ := 1000

/-- Camera or zone name to room, as an operator mapped it. -/
structure Config where
  names : Dict String String
  mqttPrefix : String

/-- What Frigate says of itself. -/
inductive Availability
  | online
  | stopped
  | offline
  deriving DecidableEq

structure Tracker where
  available : Option Availability
  counts : Dict String ℕ
  detect : Dict String Bool
  unknownName : ℕ
  malformed : ℕ

def Tracker.new : Tracker := ⟨none, .empty, .empty, 0, 0⟩

inductive Input
  | message (topic : String) (payload : ByteArray) (now : ℤ)
  | tick (now : ℤ)

/-- `text.lower()` as an availability. -/
def asAvailability (text : String) : Option Availability :=
  if Text.lower text = "online" then some .online
  else if Text.lower text = "offline" then some .offline
  else if Text.lower text = "stopped" then some .stopped
  else none

/-- `text.upper() == "ON"`, where the text is one of `ON` and `OFF`. -/
def asSwitch (text : String) : Option Bool :=
  if Text.upper text = "ON" then some true else if Text.upper text = "OFF" then some false else none

/-- `int(text)` of a text of ASCII digits, where the number is in range. -/
def asCount (text : String) : Option ℕ :=
  if text ≠ "" ∧ text.toList.all Char.isDigit = true then
    let count := text.toList.foldl (fun n c => 10 * n + (c.toNat - '0'.toNat)) 0
    if count ≤ MAX_COUNT then some count else none
  else none

def sensorId (name : String) : String := "frigate:" ++ name

section
variable (cfg : Config) (isoformat : ℤ → String)

/-- `_event`, for a count that is held. -/
def event (t : Tracker) (name : String) (count : ℕ) (now : ℤ) : Option (SensingEvent ℚ) :=
  if count = 0 ∧ ¬ (t.available = some .online ∧ t.detect.get? name = some true) then none
  else some
    { room := (cfg.names.get? name).getD "", modality := "camera", presence := 0 < count,
      breathingBpm := none, heartBpm := none,
      confidence := if 0 < count then DEFAULT_CONFIDENCE else 0, ts := isoformat now,
      targets := [], identities := [], count := some count, sensorId := sensorId name }

def Tracker.dropMalformed (t : Tracker) : Tracker := { t with malformed := t.malformed + 1 }

def onCount (t : Tracker) (name : String) (count : ℕ) (now : ℤ) : Tracker × List (SensingEvent ℚ) :=
  let t' := { t with counts := t.counts.set name count }
  (t', (event cfg isoformat t' name count now).toList)

def onAvailability (t : Tracker) (a : Availability) : Tracker :=
  if a = .online then { t with available := some a }
  else { t with available := some a, counts := .empty, detect := .empty }

/-- A message under a mapped name, by the levels behind the name. -/
def onName (t : Tracker) (name : String) (rest : List String) (text : String) (now : ℤ) :
    Tracker × List (SensingEvent ℚ) :=
  if rest = ["detect", "state"] then
    match asSwitch text with
    | none => (t.dropMalformed, [])
    | some on => ({ t with detect := t.detect.set name on }, [])
  else if rest ≠ [LABEL] then (t, [])
  else match asCount text with
    | none => (t.dropMalformed, [])
    | some count => onCount cfg isoformat t name count now

def onMessage (t : Tracker) (topic : String) (payload : ByteArray) (now : ℤ) :
    Tracker × List (SensingEvent ℚ) :=
  if topic = DISCONNECTED then ({ t with available := none, counts := .empty, detect := .empty }, [])
  else if topic = CONNECTED then (t, [])
  else if MAX_PAYLOAD_BYTES < payload.size then (t.dropMalformed, [])
  else match Mqtt.text payload with
  | none => (t.dropMalformed, [])
  | some text =>
    if topic = cfg.mqttPrefix ++ "/available" then
      match asAvailability text with
      | none => (t.dropMalformed, [])
      | some a => (onAvailability t a, [])
    else match Text.pieces '/' topic with
    | p :: name :: rest =>
      if rest = [] ∨ p ≠ cfg.mqttPrefix then (t, [])
      else if (cfg.names.get? name).isNone then ({ t with unknownName := t.unknownName + 1 }, [])
      else onName cfg isoformat t name rest text now
    | _ => (t, [])

def tick (t : Tracker) (now : ℤ) : List (SensingEvent ℚ) :=
  if t.available ≠ some .online then []
  else t.counts.entries.filterMap fun e => event cfg isoformat t e.1 e.2 now

def step (t : Tracker) : Input → Tracker
  | .message topic payload now => (onMessage cfg isoformat t topic payload now).1
  | .tick _ => t

def emitted (t : Tracker) : Input → List (SensingEvent ℚ)
  | .message topic payload now => (onMessage cfg isoformat t topic payload now).2
  | .tick now => tick cfg isoformat t now

end

/-! ## What has been published

The account of a run that owes nothing to the tracker: what each message says, and from that
what Frigate last said of itself, of each camera's detection and of each name's count. A
disconnect or an outage ends the counts. Whether a disconnect also ends what was last said of
availability and detection, and an outage what was said of detection, depends on how one reads
"last"; `across` keeps them.
-/

inductive Report
  | disconnected
  | availability (a : Availability)
  | detect (name : String) (on : Bool)
  | count (name : String) (n : ℕ)

structure Heard where
  availability : Option Availability
  detect : String → Option Bool
  count : String → Option ℕ

def Heard.nothing : Heard := ⟨none, fun _ => none, fun _ => none⟩

section
variable (cfg : Config)

/-- A mapped name's message, by the levels behind the name. -/
def nameReport (name : String) (rest : List String) (text : String) : Option Report :=
  if rest = ["detect", "state"] then (asSwitch text).map (.detect name)
  else if rest = [LABEL] then (asCount text).map (.count name)
  else none

def report (topic : String) (payload : ByteArray) : Option Report :=
  if topic = DISCONNECTED then some .disconnected
  else if topic = CONNECTED then none
  else if MAX_PAYLOAD_BYTES < payload.size then none
  else match Mqtt.text payload with
  | none => none
  | some text =>
    if topic = cfg.mqttPrefix ++ "/available" then (asAvailability text).map .availability
    else match Text.pieces '/' topic with
    | p :: name :: rest =>
      if p = cfg.mqttPrefix ∧ (cfg.names.get? name).isSome then nameReport name rest text else none
    | _ => none

def said : Input → Option Report
  | .message topic payload _ => report cfg topic payload
  | .tick _ => none

variable (across : Bool)

def Heard.hear (h : Heard) : Report → Heard
  | .disconnected => if across then { h with count := fun _ => none } else .nothing
  | .availability a =>
    if a = .online then { h with availability := some a }
    else ⟨some a, if across then h.detect else fun _ => none, fun _ => none⟩
  | .detect name on => { h with detect := Function.update h.detect name (some on) }
  | .count name n => { h with count := Function.update h.count name (some n) }

def Heard.hearAll (h : Heard) (r : Option Report) : Heard := r.elim h (h.hear across)

end

/-- An event that rests on what is current: its count is the last one published for its name,
a zero comes from a camera known to be detecting, and no positive count from one that is known
not to be. -/
def Vouched (h : Heard) (e : SensingEvent ℚ) : Prop :=
  ∃ name n, e.sensorId = sensorId name ∧ e.count = some n ∧ h.count name = some n ∧
    (n = 0 → h.availability = some .online ∧ h.detect name = some true) ∧
    (0 < n → h.availability ≠ some .offline ∧ h.availability ≠ some .stopped ∧ h.detect name ≠ some false)

/-- A positive count of a name that may be passed on. -/
def Current (h : Heard) (name : String) : Prop :=
  h.availability ≠ some .offline ∧ h.availability ≠ some .stopped ∧ h.detect name ≠ some false

/-- No positive count comes in, and none is held when the timer fires, for a name that Frigate
has stopped answering for. -/
def InTime (cfg : Config) (t : Tracker) (h : Heard) : Input → Prop
  | .message topic payload _ => ∀ name n, report cfg topic payload = some (.count name n) → 0 < n → Current h name
  | .tick _ => t.available = some .online →
      ∀ name n, t.counts.get? name = some n → 0 < n → h.detect name ≠ some false

section
variable (cfg : Config) (isoformat : ℤ → String) (across : Bool)

/-- The tracker next to what has been heard. -/
def stepBoth (s : Tracker × Heard) (i : Input) : Tracker × Heard :=
  (step cfg isoformat s.1 i, s.2.hearAll across (said cfg i))

def start : Tracker × Heard := (.new, .nothing)

/-- Every event of a step is vouched for by what has been heard, the message itself included. -/
def StepVouched (s : Tracker × Heard) (i : Input) : Prop :=
  ∀ e ∈ emitted cfg isoformat s.1 i, Vouched (s.2.hearAll across (said cfg i)) e

end

/-! ## The tracker holds what was heard -/

def Tracker.heard (t : Tracker) : Heard := ⟨t.available, t.detect.get?, t.counts.get?⟩

/-- An account that forgot more, the counts apart. -/
structure Below (h' h : Heard) : Prop where
  availability : ∀ a, h'.availability = some a → h.availability = some a
  detect : ∀ name on, h'.detect name = some on → h.detect name = some on
  count : h'.count = h.count

section
variable {cfg : Config} {isoformat : ℤ → String} {across : Bool} {t : Tracker} {h : Heard}

@[simp] theorem heard_dropMalformed : t.dropMalformed.heard = t.heard := rfl

theorem heard_onAvailability (a : Availability) :
    (onAvailability t a).heard = t.heard.hear false (.availability a) := by
  unfold onAvailability
  cases a <;> rfl

theorem heard_onCount (name : String) (n : ℕ) (now : ℤ) :
    (onCount cfg isoformat t name n now).1.heard = t.heard.hear false (.count name n) := by
  have hget : (t.counts.set name n).get? = Function.update t.counts.get? name (some n) := by
    funext k
    simp [Function.update_apply]
  simp [onCount, Tracker.heard, Heard.hear, hget]

theorem heard_detect (name : String) (on : Bool) :
    Tracker.heard { t with detect := t.detect.set name on } = t.heard.hear false (.detect name on) := by
  have hget : (t.detect.set name on).get? = Function.update t.detect.get? name (some on) := by
    funext k
    simp [Function.update_apply]
  simp [Tracker.heard, Heard.hear, hget]

/-- The events a report is answered with. -/
def answer (cfg : Config) (isoformat : ℤ → String) (t : Tracker) (now : ℤ) : Option Report → List (SensingEvent ℚ)
  | some (.count name n) => (onCount cfg isoformat t name n now).2
  | _ => []

/-- The tracker takes a report in and answers it. -/
def Takes (cfg : Config) (isoformat : ℤ → String) (t : Tracker) (now : ℤ) (r : Option Report)
    (out : Tracker × List (SensingEvent ℚ)) : Prop :=
  out.1.heard = t.heard.hearAll false r ∧ out.2 = answer cfg isoformat t now r

theorem takes_onName (name : String) (rest : List String) (text : String) (now : ℤ) :
    Takes cfg isoformat t now (nameReport name rest text) (onName cfg isoformat t name rest text now) := by
  unfold nameReport onName
  by_cases hdet : rest = ["detect", "state"]
  · rw [if_pos hdet, if_pos hdet]
    cases asSwitch text with
    | none => exact ⟨rfl, rfl⟩
    | some on => exact ⟨heard_detect name on, rfl⟩
  rw [if_neg hdet, if_neg hdet]
  by_cases hlab : rest = [LABEL]
  · rw [if_pos hlab, if_neg (not_not.mpr hlab)]
    cases asCount text with
    | none => exact ⟨rfl, rfl⟩
    | some n => exact ⟨heard_onCount name n now, rfl⟩
  · rw [if_neg hlab, if_pos hlab]
    exact ⟨rfl, rfl⟩

/-- What a message says is what the tracker takes from it. -/
theorem takes_onMessage (topic : String) (payload : ByteArray) (now : ℤ) :
    Takes cfg isoformat t now (report cfg topic payload) (onMessage cfg isoformat t topic payload now) := by
  unfold report onMessage
  -- the report and the handler look at the topic and the payload in the same order
  by_cases hdis : topic = DISCONNECTED
  · rw [if_pos hdis, if_pos hdis]
    exact ⟨rfl, rfl⟩
  rw [if_neg hdis, if_neg hdis]
  by_cases hcon : topic = CONNECTED
  · rw [if_pos hcon, if_pos hcon]
    exact ⟨rfl, rfl⟩
  rw [if_neg hcon, if_neg hcon]
  by_cases hsize : MAX_PAYLOAD_BYTES < payload.size
  · rw [if_pos hsize, if_pos hsize]
    exact ⟨rfl, rfl⟩
  rw [if_neg hsize, if_neg hsize]
  cases Mqtt.text payload with
  | none => exact ⟨rfl, rfl⟩
  | some text =>
    by_cases hav : topic = cfg.mqttPrefix ++ "/available"
    · simp only [if_pos hav]
      cases asAvailability text with
      | none => exact ⟨rfl, rfl⟩
      | some a => exact ⟨heard_onAvailability a, rfl⟩
    simp only [if_neg hav]
    rcases Text.pieces '/' topic with _ | ⟨p, _ | ⟨name, rest⟩⟩
    · exact ⟨rfl, rfl⟩
    · exact ⟨rfl, rfl⟩
    by_cases hstop : rest = [] ∨ p ≠ cfg.mqttPrefix
    · have hnone : (if p = cfg.mqttPrefix ∧ (cfg.names.get? name).isSome then nameReport name rest text
          else none) = none := by
        rcases hstop with rfl | hp
        · exact ite_self none
        · exact if_neg fun h => hp h.1
      simp only [if_pos hstop, hnone]
      exact ⟨rfl, rfl⟩
    have hp : p = cfg.mqttPrefix := not_not.mp (not_or.mp hstop).2
    simp only [if_neg hstop]
    cases hname : cfg.names.get? name with
    | none =>
      rw [if_neg (by simp)]
      exact ⟨rfl, rfl⟩
    | some room =>
      rw [if_pos ⟨hp, rfl⟩, if_neg (by simp)]
      exact takes_onName name rest text now

/-- A step of the tracker is a step of what it holds. -/
theorem heard_step (i : Input) : (step cfg isoformat t i).heard = t.heard.hearAll false (said cfg i) := by
  cases i with
  | message topic payload now => exact (takes_onMessage topic payload now).1
  | tick now => rfl

/-- Hearing keeps the tracker's account below the full one, whatever the full one keeps. -/
theorem Below.hear {h' : Heard} (hb : Below h' h) (r : Report) : Below (h'.hear false r) (h.hear across r) := by
  cases r with
  | disconnected =>
    refine ⟨nofun, nofun, ?_⟩
    cases across <;> rfl
  | availability a =>
    by_cases ha : a = .online
    · simp only [Heard.hear, if_pos ha]
      exact ⟨fun _ => id, hb.detect, hb.count⟩
    · simp only [Heard.hear, if_neg ha]
      exact ⟨fun _ => id, fun _ _ he => by simp at he, rfl⟩
  | detect name on =>
    refine ⟨hb.availability, fun k v hk => ?_, hb.count⟩
    simp only [Heard.hear, Function.update_apply] at hk ⊢
    split_ifs at hk ⊢ with he
    · exact hk
    · exact hb.detect k v hk
  | count name n =>
    refine ⟨hb.availability, hb.detect, ?_⟩
    simp only [Heard.hear, hb.count]

theorem Below.hearAll {h' : Heard} (hb : Below h' h) (r : Option Report) :
    Below (h'.hearAll false r) (h.hearAll across r) := by
  cases r with
  | none => exact hb
  | some r => exact hb.hear r

/-! ## What is emitted -/

theorem sensorId_inj {a b : String} : sensorId a = sensorId b ↔ a = b := by
  rw [sensorId, sensorId, String.append_right_inj]

theorem vouched_iff {e : SensingEvent ℚ} {name : String} {n : ℕ} (hid : e.sensorId = sensorId name)
    (hcount : e.count = some n) : Vouched h e ↔ h.count name = some n ∧
      (n = 0 → h.availability = some .online ∧ h.detect name = some true) ∧ (0 < n → Current h name) := by
  constructor
  · rintro ⟨name', n', hid', hcount', rest⟩
    rw [sensorId_inj.mp (hid.symm.trans hid'), Option.some.inj (hcount.symm.trans hcount')]
    exact rest
  · exact fun rest => ⟨name, n, hid, hcount, rest⟩

variable (cfg isoformat) in
/-- Of a held count everything is vouched for, unless it is positive and no longer current. -/
theorem event_vouched_iff (hb : Below t.heard h) {name : String} {n : ℕ} (hcount : h.count name = some n)
    (now : ℤ) : (∀ e ∈ event cfg isoformat t name n now, Vouched h e) ↔ (0 < n → Current h name) := by
  unfold event
  by_cases hz : n = 0 ∧ ¬ (t.available = some .online ∧ t.detect.get? name = some true)
  · rw [if_pos hz]
    exact ⟨fun _ hpos => absurd hz.1 hpos.ne', fun _ _ he => by simp at he⟩
  · have hzero : n = 0 → h.availability = some .online ∧ h.detect name = some true := by
      intro hn
      obtain ⟨hav, hdet⟩ := not_not.mp (not_and.mp hz hn)
      exact ⟨hb.availability _ hav, hb.detect _ _ hdet⟩
    rw [if_neg hz]
    simp only [Option.mem_some_iff, forall_eq']
    rw [vouched_iff rfl rfl]
    exact ⟨fun hv => hv.2.2, fun hpos => ⟨hcount, hzero, hpos⟩⟩

theorem stepVouched_iff (hb : Below t.heard h) (i : Input) :
    StepVouched cfg isoformat across (t, h) i ↔ InTime cfg t h i := by
  cases i with
  | message topic payload now =>
    simp only [StepVouched, emitted, (takes_onMessage topic payload now).2, said, InTime]
    cases hr : report cfg topic payload with
    | none => simp [answer]
    | some r =>
      cases r with
      | count name n =>
        have hb' : Below (onCount cfg isoformat t name n now).1.heard (h.hear across (.count name n)) := by
          rw [heard_onCount]
          exact hb.hear (.count name n)
        have hn : (h.hear across (.count name n)).count name = some n := by simp [Heard.hear]
        -- one count is taken in, so the one event is vouched for as that count is
        have hiff := event_vouched_iff cfg isoformat hb' hn now
        simp only [answer, onCount, Option.mem_toList]
        refine hiff.trans ⟨?_, ?_⟩
        · rintro hcur name' n' he hpos
          cases he
          exact hcur hpos
        · exact fun hall hpos => hall name n rfl hpos
      | disconnected => simp [answer]
      | availability a => simp [answer]
      | detect name on => simp [answer]
  | tick now =>
    simp only [StepVouched, emitted, tick, said, InTime]
    -- a tick repeats every count, and only while Frigate is online
    by_cases hav : t.available = some .online
    · have honline : h.availability ≠ some .offline ∧ h.availability ≠ some .stopped := by
        rw [hb.availability _ hav]
        exact ⟨by decide, by decide⟩
      rw [if_neg (not_not.mpr hav)]
      constructor
      · intro hall _ name n hn hpos
        have hcount : h.count name = some n := by rw [← hb.count]; exact hn
        have hev : ∀ e ∈ event cfg isoformat t name n now, Vouched h e := fun e he =>
          hall e (List.mem_filterMap.mpr ⟨(name, n), Dict.mem_entries.mpr hn, he⟩)
        exact ((event_vouched_iff cfg isoformat hb hcount now).mp hev hpos).2.2
      · intro hcur e he
        obtain ⟨⟨name, n⟩, hmem, hev⟩ := List.mem_filterMap.mp he
        have hn : t.counts.get? name = some n := Dict.mem_entries.mp hmem
        have hcount : h.count name = some n := by rw [← hb.count]; exact hn
        exact (event_vouched_iff cfg isoformat hb hcount now).mpr
          (fun hpos => ⟨honline.1, honline.2, hcur hav name n hn hpos⟩) e hev
    · simp [hav]

/-- Whatever the order of messages and ticks, every event is vouched for exactly where no positive
count is taken in, or repeated, for a name Frigate no longer answers for. -/
theorem events_vouched_iff (cfg : Config) (isoformat : ℤ → String) (across : Bool) (is : List Input) :
    Run.AllSteps (stepBoth cfg isoformat across) (StepVouched cfg isoformat across) start is ↔
      Run.AllSteps (stepBoth cfg isoformat across) (fun s i => InTime cfg s.1 s.2 i) start is := by
  have hok : Run.AllSteps (stepBoth cfg isoformat across) (fun _ _ => True) start is :=
    Run.allSteps_of_forall fun _ _ _ => trivial
  refine Run.allSteps_congr_of_invariant (I := fun s => Below s.1.heard s.2) ?_ ?_ ?_ hok
  · intro s i hb _
    rw [stepBoth, heard_step]
    exact hb.hearAll (said cfg i)
  · exact fun s i hb _ => stepVouched_iff hb i
  · exact ⟨fun _ => id, fun _ _ => id, rfl⟩

end

/-- Somebody is at the front door, detection is switched off there, and the timer fires. -/
def switchedOff : Config × List Input :=
  (⟨Dict.empty.set "front_door" "hall", "frigate"⟩,
    [.message "frigate/available" "online".toUTF8 0, .message "frigate/front_door/person" "2".toUTF8 1,
      .message "frigate/front_door/detect/state" "OFF".toUTF8 2, .tick 3])

/-- The state the timer fires in. -/
def switchedOffState (across : Bool) : Tracker × Heard :=
  Run.finish (stepBoth switchedOff.1 (fun _ => "") across) start (switchedOff.2.take 3)

theorem tick_not_vouched (across : Bool) :
    ¬ StepVouched switchedOff.1 (fun _ => "") across (switchedOffState across) (.tick 3) := by
  intro h
  obtain ⟨e, he, hid, hn⟩ : ∃ e ∈ emitted switchedOff.1 (fun _ => "") (switchedOffState across).1 (.tick 3),
      e.sensorId = sensorId "front_door" ∧ e.count = some 2 := by
    cases across <;> exact ⟨_, List.mem_singleton.mpr rfl, rfl, rfl⟩
  have hdetect : (switchedOffState across).2.detect "front_door" = some false := by
    cases across <;> decide
  exact (((vouched_iff hid hn).mp (h e he)).2.2 (by decide)).2.2 hdetect

/-- The two people seen last are there again. -/
theorem switchedOff_not_vouched :
    ¬ Run.AllSteps (stepBoth switchedOff.1 (fun _ => "") false) (StepVouched switchedOff.1 (fun _ => "") false)
        start switchedOff.2 ∧
      ¬ Run.AllSteps (stepBoth switchedOff.1 (fun _ => "") true) (StepVouched switchedOff.1 (fun _ => "") true)
        start switchedOff.2 :=
  ⟨fun h => tick_not_vouched false h.2.2.2.1, fun h => tick_not_vouched true h.2.2.2.1⟩

end Wavr.Frigate
