import Mathlib.Data.Finset.Card
import Mathlib.Data.Int.Order.Basic
import Wavr.Events
import Wavr.Fanout
import Wavr.Text
import Wavr.Watch

/-!
# What leaves the Core

The last stretch of `_publish`, behind which nothing is awaited, and the switch for Watch. `latest`
keeps the whole truth of every room; what leaves is a projection of it. A room state is an input
here, whatever fusion made of the sensors.
-/

namespace Wavr.Egress
open Fusion Run Text
open Watch (Verdict IntrusionAlertLog)

variable {R : Type}

/-! ## Contradictions -/

/-- What one sensor has to say where sensors contradict each other; the field `says` is the third. -/
structure Saying where
  sensorId : String
  modality : String
  spoken : String
  deriving DecidableEq

structure Disagreement where
  disagree : Bool
  sensors : List Saying
  countsDisagree : Option Bool
  note : Option String
  deriving DecidableEq

def NOTE : String :=
  "These sensors contradict each other. Wavr gives a report of absence no weight in the merge — a sensor " ++
    "that fails to see a still person is weaker evidence than one that sees somebody — so the room reads as " ++
    "occupied while the disagreement stands."

def disagreement (sources : List (Source R)) : Disagreement :=
  let fresh := sources.filter fun s => s.health = "fresh"
  let sayingPresent := fresh.filter (·.presence)
  let sayingEmpty := fresh.filter fun s => ! s.presence
  if sayingPresent = [] ∨ sayingEmpty = [] then ⟨false, [], none, none⟩
  else
    ⟨true, fresh.map fun s => ⟨s.sensorId, s.modality, if s.presence then "occupied" else "empty"⟩,
      some (1 < (fresh.filterMap (·.count)).toFinset.card), some NOTE⟩

/-- A room in `latest`. -/
structure Live (R : Type) where
  state : RoomState R
  disagreement : Disagreement
  deriving DecidableEq

def withDisagreement (rs : RoomState R) : Live R := ⟨rs, disagreement rs.sources⟩

/-! ## Watch -/

/-- A room as others get it; the fields `watch` and `unrecognized` are there only while Watch is on. -/
structure View (R : Type) where
  state : RoomState R
  disagreement : Disagreement
  watch : Option Bool
  unrecognized : Option Bool

def suppress (rs : RoomState R) : RoomState R := { rs with targets := [], identities := [], vitals := none }

def projectState (d : Live R) (watchOn unrecognized : Bool) : View R :=
  if watchOn then ⟨suppress d.state, d.disagreement, some true, some unrecognized⟩
  else ⟨d.state, d.disagreement, none, none⟩

def knownPresentPersons (states : List (Live R)) : Finset String :=
  ((states.flatMap fun d => d.state.identities.map Identity.person).filter fun p => truthy p).toFinset

def roomUnrecognized (d : Live R) (known : ℤ) : Bool :=
  match d.state.personCount with
  | none => false
  | some count => max 0 known < count

def houseUnrecognized (houseCount : Option ℕ) (known : ℤ) : Bool :=
  match houseCount with
  | none => false
  | some count => max 0 known < count

def housePersonCount (states : List (Live R)) : Option ℕ :=
  (states.filterMap fun d => d.state.personCount).foldl (fun total c => some (total.getD 0 + c)) none

/-! ## The Core -/

structure Config where
  identityEnabled : Bool
  /-- Whether `_notify` and `_rules` are there. -/
  notify : Bool
  rules : Bool

inductive Effect
  | notify (text : String)
  /-- A call of `handle_intrusion`. -/
  | intrusion (room : Watch.Room) (active : Bool)
  /-- ... and one for each of these rooms. -/
  | cleared (rooms : Finset Watch.Room)

structure World (R : Type) where
  latest : Dict String (Live R)
  watch : Bool
  intrusion : IntrusionAlertLog
  hub : Fanout.Hub (View R)
  /-- All that went to notifications and rules. -/
  effects : List Effect

def World.init : World R := ⟨.empty, false, Watch.newLog 50 2, Fanout.newHub Fanout.MAX_QUEUE, []⟩

variable (cfg : Config)

def alertText : Watch.Room → String
  | some room => "Wavr Vigia: pessoa nao reconhecida em " ++ room
  | none => "Wavr Vigia: pessoa nao reconhecida em casa"

/-- A verdict is recorded, and whatever follows from it told. -/
def assess (w : World R) (v : Verdict) : World R :=
  let (hit, intrusion) := Watch.record v w.intrusion
  { w with
    intrusion
    effects := w.effects ++ (if hit.isSome && cfg.notify then [.notify (alertText v.room)] else []) ++
      if cfg.rules then [.intrusion v.room (v.room ∈ intrusion.active)] else [] }

def roomVerdict (known : ℤ) (now : String) (room : String) (d : Live R) : Verdict where
  room := some room
  unrecognized := roomUnrecognized d known
  personCount := d.state.personCount.map (↑)
  knownPresent := known
  ts := some d.state.ts
  now := now

def houseVerdict (known : ℤ) (ts : Option String) (now : String) (states : List (Live R)) : Verdict where
  room := none
  unrecognized := houseUnrecognized (housePersonCount states) known
  personCount := (housePersonCount states).map (↑)
  knownPresent := known
  ts := ts
  now := now

def known (w : World R) : ℤ := (knownPresentPersons w.latest.values).card

/-- Whether unknown persons can be told from known ones. -/
def gate (w : World R) : Bool := w.watch && cfg.identityEnabled

def view (w : World R) (d : Live R) : View R :=
  projectState d w.watch (gate cfg w && roomUnrecognized d (known w))

def World.learn (d : Live R) (w : World R) : World R := { w with latest := w.latest.set d.state.room d }

/-- `_publish` from where it sets `latest`. -/
def publish (now : String) (d : Live R) (w : World R) : World R :=
  let w := w.learn d
  let w' := if gate cfg w then
      assess cfg (assess cfg w (roomVerdict (known w) now d.state.room d))
        (houseVerdict (known w) (some d.state.ts) now w.latest.values)
    else w
  { w' with hub := Fanout.publish (view cfg w d) w'.hub }

/-- `set_watch`. -/
def setWatch (now : String) (on : Bool) (w : World R) : World R :=
  let w := { w with watch := on }
  if on then
    if cfg.identityEnabled then
      let w' := (w.latest.entries.map fun e => roomVerdict (known w) now e.1 e.2).foldl (assess cfg) w
      assess cfg w' (houseVerdict (known w) none now w.latest.values)
    else w
  else
    { w with
      intrusion := Watch.reset w.intrusion
      effects := w.effects ++ if cfg.rules then [.cleared w.intrusion.active] else [] }

/-- `_project_all`. -/
def projectAll (w : World R) : Dict String (View R) := w.latest.mapValues (view cfg w)

inductive Input (R : Type)
  /-- The last stretch of `_publish`, with a reading of the clock. -/
  | publish (now : String) (rs : RoomState R)
  | setWatch (now : String) (on : Bool)
  | subscribe (k : ℕ)
  | unsubscribe (k : ℕ)
  | receive (k : ℕ)

def step (w : World R) : Input R → World R
  | .publish now rs => publish cfg now (withDisagreement rs) w
  | .setWatch now on => setWatch cfg now on w
  | .subscribe k => { w with hub := Fanout.subscribe k w.hub }
  | .unsubscribe k => { w with hub := Fanout.unsubscribe k w.hub }
  | .receive k => { w with hub := Fanout.receive k w.hub }

/-- What the hub is given by a step. -/
def sent (w : World R) : Input R → Option (View R)
  | .publish _ rs => some (view cfg (w.learn (withDisagreement rs)) (withDisagreement rs))
  | _ => none

/-- What the reader of one queue is handed. -/
def delivered (k : ℕ) (w : World R) : Input R → Option (View R)
  | .receive j => if j = k then Fanout.head k w.hub else none
  | _ => none

/-! ## The hub of a run -/

section
variable {w : World R} {k : ℕ}

def hubOp (w : World R) : Input R → Option (Fanout.Op (View R))
  | .publish now rs => (sent cfg w (.publish now rs)).map .publish
  | .setWatch _ _ => none
  | .subscribe k => some (.subscribe k)
  | .unsubscribe k => some (.unsubscribe k)
  | .receive k => some (.receive k)

variable {cfg}

@[simp] theorem assess_hub (v : Verdict) : (assess cfg w v).hub = w.hub := rfl

@[simp] theorem assess_latest (v : Verdict) : (assess cfg w v).latest = w.latest := rfl

@[simp] theorem assess_watch (v : Verdict) : (assess cfg w v).watch = w.watch := rfl

variable (cfg) in
theorem assessAll_frame (vs : List Verdict) (w : World R) :
    (vs.foldl (assess cfg) w).hub = w.hub ∧ (vs.foldl (assess cfg) w).latest = w.latest ∧
      (vs.foldl (assess cfg) w).watch = w.watch := by
  induction vs generalizing w with
  | nil => exact ⟨rfl, rfl, rfl⟩
  | cons v vs ih => exact ih (assess cfg w v)

/-- A switch of Watch tells nobody anything of the rooms. -/
theorem setWatch_frame (now : String) (on : Bool) (w : World R) :
    (setWatch cfg now on w).hub = w.hub ∧ (setWatch cfg now on w).latest = w.latest ∧
      (setWatch cfg now on w).watch = on := by
  unfold setWatch
  cases on with
  | false => exact ⟨rfl, rfl, rfl⟩
  | true =>
    rw [if_pos rfl]
    split
    · obtain ⟨hhub, hlatest, hwatch⟩ := assessAll_frame cfg
        (w.latest.entries.map fun e => roomVerdict (known { w with watch := true }) now e.1 e.2)
        { w with watch := true }
      exact ⟨hhub, hlatest, hwatch⟩
    · exact ⟨rfl, rfl, rfl⟩

theorem publish_frame (now : String) (d : Live R) (w : World R) :
    (publish cfg now d w).hub = Fanout.publish (view cfg (w.learn d) d) w.hub ∧
      (publish cfg now d w).latest = w.latest.set d.state.room d ∧ (publish cfg now d w).watch = w.watch := by
  unfold publish
  dsimp only
  split
  · exact ⟨rfl, rfl, rfl⟩
  · exact ⟨rfl, rfl, rfl⟩

theorem hub_step (w : World R) (i : Input R) :
    (step cfg w i).hub = finish Fanout.step w.hub (hubOp cfg w i).toList := by
  cases i with
  | publish now rs => exact (publish_frame now (withDisagreement rs) w).1
  | setWatch now on => exact (setWatch_frame now on w).1
  | subscribe k => rfl
  | unsubscribe k => rfl
  | receive k => rfl

theorem delivered_step (k : ℕ) (w : World R) (i : Input R) :
    (delivered k w i).toList = outputs Fanout.step (Fanout.delivered k) w.hub (hubOp cfg w i).toList := by
  cases i with
  | receive j => simp [delivered, hubOp, outputs, Fanout.delivered]
  | publish now rs => rfl
  | setWatch now on => rfl
  | subscribe j => rfl
  | unsubscribe j => rfl

theorem hub_run (w : World R) (is : List (Input R)) :
    (finish (step cfg) w is).hub = finish Fanout.step w.hub (outputs (step cfg) (hubOp cfg) w is) :=
  finish_part hub_step w is

theorem delivered_run (k : ℕ) (w : World R) (is : List (Input R)) :
    outputs (step cfg) (delivered k) w is =
      outputs Fanout.step (Fanout.delivered k) w.hub (outputs (step cfg) (hubOp cfg) w is) :=
  outputs_part hub_step (delivered_step k) w is

/-- What the hub publishes is what the steps send. -/
theorem published_run (w : World R) (is : List (Input R)) :
    (outputs (step cfg) (hubOp cfg) w is).filterMap Fanout.Op.published = outputs (step cfg) (sent cfg) w is := by
  induction is generalizing w with
  | nil => rfl
  | cons i is ih =>
    rw [outputs, outputs, List.filterMap_append, ih]
    congr 1
    cases i with
    | publish now rs => rfl
    | setWatch now on => rfl
    | subscribe j => rfl
    | unsubscribe j => rfl
    | receive j => rfl

end

/-! ## What a reader knows of a room -/

section
variable {cfg} {w : World R} {k : ℕ}

theorem latest_of_sent_none {i : Input R} (h : sent cfg w i = none) : (step cfg w i).latest = w.latest := by
  cases i with
  | publish now rs => cases h
  | setWatch now on => exact (setWatch_frame now on w).2.1
  | subscribe k => rfl
  | unsubscribe k => rfl
  | receive k => rfl

/-- A room with somebody in it, and one that says who is home. -/
def kitchen : RoomState ℚ :=
  ⟨"kitchen", true, 4 / 5, none, [], [], [], some 1, "", "2026-07-01T10:00:00+00:00", .count, 75, none⟩

def casa (person : String) : RoomState ℚ :=
  ⟨"casa", true, 1, none, [], [], [⟨person, "wifi", none⟩], none, "", "2026-07-01T10:00:01+00:00", .house, 25, none⟩

end

/-! ## While Watch is on -/

section
variable {cfg} {w : World R} {k : ℕ}

/-- Where somebody is, who it is, or how they are. -/
def personal (v : View R) : Bool :=
  ! v.state.targets.isEmpty || ! v.state.identities.isEmpty || v.state.vitals.isSome

theorem personal_projectState (d : Live R) (unrecognized : Bool) :
    personal (projectState d true unrecognized) = false := rfl

theorem impersonal_run {is : List (Input R)} (hw : w.watch = true) (hon : ∀ now, Input.setWatch now false ∉ is) :
    (∀ v ∈ outputs (step cfg) (sent cfg) w is, personal v = false) ∧ (finish (step cfg) w is).watch = true := by
  induction is generalizing w with
  | nil => exact ⟨fun _ hv => absurd hv List.not_mem_nil, hw⟩
  | cons i is ih =>
    have hstay : (step cfg w i).watch = true := by
      cases i with
      | publish now rs => exact (publish_frame now (withDisagreement rs) w).2.2.trans hw
      | setWatch now on =>
        cases on with
        | false => exact absurd List.mem_cons_self (hon now)
        | true => exact (setWatch_frame now true w).2.2
      | subscribe k => exact hw
      | unsubscribe k => exact hw
      | receive k => exact hw
    obtain ⟨hlater, hend⟩ := ih hstay fun now hmem => hon now (List.mem_cons_of_mem i hmem)
    refine ⟨fun v hv => ?_, hend⟩
    rw [outputs, List.mem_append] at hv
    rcases hv with hhere | hv
    · cases i with
      | publish now rs =>
        rw [sent, Option.toList_some, List.mem_singleton] at hhere
        rw [hhere, view]
        show personal (projectState _ w.watch _) = false
        rw [hw]
        exact personal_projectState _ _
      | setWatch now on => cases hhere
      | subscribe k => cases hhere
      | unsubscribe k => cases hhere
      | receive k => cases hhere
    · exact hlater v hv

/-- Once Watch is on, and as long as it stays on, nothing personal is sent or can be read. What is still
handed out of it is what was in a queue when Watch was switched on, which is at most 256 items a
reader. -/
theorem personal_after (before is : List (Input R)) (k : ℕ) (now : String)
    (hon : ∀ now, Input.setWatch now false ∉ is) :
    let w := finish (step cfg) .init (before ++ [.setWatch now true])
    ((outputs (step cfg) (delivered k) w is ++ Fanout.queue k (finish (step cfg) w is).hub).filter
        personal).Sublist (Fanout.queue k w.hub) ∧
      (Fanout.queue k w.hub).length ≤ 256 ∧
      ∀ v ∈ (projectAll cfg (finish (step cfg) w is)).values, personal v = false := by
  intro w
  have hw : w.watch = true := by
    show (finish (step cfg) .init (before ++ [.setWatch now true])).watch = true
    rw [finish_append]
    exact (setWatch_frame now true _).2.2
  obtain ⟨hsent, hwatch⟩ := impersonal_run hw hon
  refine ⟨?_, ?_, fun v hv => ?_⟩
  · have hrest := Fanout.rest_run (fun v => ! personal v) w.hub k (outputs (step cfg) (hubOp cfg) w is) fun v hv => by
      rw [published_run] at hv
      rw [hsent v hv]
      rfl
    rw [← delivered_run, ← hub_run] at hrest
    simpa using hrest
  · show (Fanout.queue k (finish (step cfg) .init (before ++ [.setWatch now true])).hub).length ≤ 256
    rw [hub_run]
    exact Fanout.bounded_run (by decide) rfl (fun _ => Nat.zero_le _) _ k
  · rw [projectAll, Dict.values_mapValues, List.mem_map] at hv
    obtain ⟨d, -, rfl⟩ := hv
    rw [view, hwatch]
    exact personal_projectState _ _

theorem personal_after_backlog :
    let cfg : Config := ⟨true, true, true⟩
    let w := finish (step cfg) (.init : World ℚ)
      ([.subscribe 0, .publish "" (casa "ana"), .publish "" (casa "bea")] ++ [.setWatch "" true])
    ((outputs (step cfg) (delivered 0) w [.publish "" (casa "bea"), .receive 0] ++
      Fanout.queue 0 (finish (step cfg) w [.publish "" (casa "bea"), .receive 0]).hub).filter
        personal).Sublist (Fanout.queue 0 w.hub) :=
  (personal_after [.subscribe 0, .publish "" (casa "ana"), .publish "" (casa "bea")]
    [.publish "" (casa "bea"), .receive 0] 0 "" (by simp)).1

end

end Wavr.Egress
