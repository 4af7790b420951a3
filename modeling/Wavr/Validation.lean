import Mathlib.Algebra.Group.Prod
import Mathlib.Data.String.Basic
import Mathlib.Tactic.Abel
import Wavr.Connection
import Wavr.Dict
import Wavr.Events
import Wavr.Run
import Wavr.Signal

/-!
# Guided validation

A person walks through the home and declares the truth, every sensor is graded against it, and
`finish` turns the walk into counted evidence: `ValidationSession` over its two stores. The
fault of a call is the storage operation of it that fails, counted from the read of the session.
-/

namespace Wavr.Validation
open Run
open Fusion (roundHalfEven)

def CAP_PRESENCE : String := "presence"
def CAP_ABSENCE : String := "absence"
def CAP_COUNT : String := "count"
def CAP_STILL : String := "still_person"

def CAPABILITIES : List String := [CAP_PRESENCE, CAP_ABSENCE, CAP_COUNT, CAP_STILL]

def WINDOW_MAX_S : ℚ := 300

inductive SessionState
  | active
  | finished
  | abandoned
  deriving DecidableEq

def SessionState.text : SessionState → String
  | .active => "active"
  | .finished => "finished"
  | .abandoned => "abandoned"

/-- A reading of the clock: the instant in microseconds, and its text. -/
structure Now where
  micros : ℤ
  isoformat : String
  deriving DecidableEq

/-- What one sensor did in one window. -/
structure SensorRow where
  modality : String
  agreed : ℕ
  checked : ℕ
  firstAgreedS : Option ℚ
  countRight : ℕ
  countChecked : ℕ
  agreed_le : agreed ≤ checked
  countRight_le : countRight ≤ countChecked
  deriving DecidableEq

def SensorRow.empty (modality : String) : SensorRow := ⟨modality, 0, 0, none, 0, 0, Nat.le_refl _, Nat.le_refl _⟩

/-- `round(x, 2)`. -/
def round2 (x : ℚ) : ℚ := roundHalfEven (x * 100) / 100

/-- `round(x, 1)`. -/
def round1 (x : ℚ) : ℚ := roundHalfEven (x * 10) / 10

def SensorRow.note (row : SensorRow) (agreed : Bool) (elapsedS : ℚ) (countRight : Option Bool) : SensorRow where
  modality := row.modality
  agreed := row.agreed + agreed.toNat
  checked := row.checked + 1
  firstAgreedS :=
    if agreed ∧ row.firstAgreedS = none then some (round2 elapsedS) else row.firstAgreedS
  countRight := row.countRight + (countRight.getD false).toNat
  countChecked := row.countChecked + countRight.isSome.toNat
  agreed_le := Nat.add_le_add row.agreed_le (Bool.toNat_le agreed)
  countRight_le := by
    refine Nat.add_le_add row.countRight_le ?_
    cases countRight with
    | none => exact Nat.le_refl _
    | some right => exact Bool.toNat_le right

/-- One declared truth, and what the sensors did about it. No anonymous source is among them. -/
structure Window where
  truthOccupied : Bool
  truthCount : Option ℤ
  openedTs : ℤ
  sensors : Dict String SensorRow
  samples : ℕ
  named : sensors.get? "" = none
  deriving DecidableEq

def Window.note (w : Window) (sensorId : String) (h : sensorId ≠ "") (modality : String) (agreed : Bool)
    (elapsedS : ℚ) (countRight : Option Bool) : Window where
  truthOccupied := w.truthOccupied
  truthCount := w.truthCount
  openedTs := w.openedTs
  sensors := w.sensors.set sensorId
    (((w.sensors.get? sensorId).getD (.empty modality)).note agreed elapsedS countRight)
  samples := w.samples
  named := by rw [Dict.get?_set_ne _ h.symm, w.named]

/-- A row of `sources`, as far as grading reads it. -/
structure Reading where
  sensorId : String
  modality : String
  health : String
  presence : Bool
  count : Option ℤ
  deriving DecidableEq

def sensorAgreed (src : Reading) (truthOccupied : Bool) : Option Bool :=
  if src.health ∉ ["fresh"] then none else some (src.presence == truthOccupied)

def countRight (src : Reading) (truthCount : Option ℤ) : Option Bool :=
  match truthCount, src.count with
  | some truth, some count => some (count == truth)
  | _, _ => none

/-- One turn of the loop of `sample`. -/
def grade (elapsedS : ℚ) (w : Window) (src : Reading) : Window :=
  if h : src.sensorId = "" then w
  else match sensorAgreed src w.truthOccupied with
    | none => w
    | some agreed => w.note src.sensorId h src.modality agreed elapsedS (countRight src w.truthCount)

/-- One measured check. -/
structure Check where
  sensorId : String
  capability : String
  room : String
  correct : Bool
  deriving DecidableEq

/-- What `_commit_to_reliability` records of one sensor in one window. -/
def sensorChecks (room : String) (truthOccupied : Bool) (sensorId : String) (row : SensorRow) : List Check :=
  let cap := if truthOccupied then CAP_PRESENCE else CAP_ABSENCE
  List.replicate row.agreed ⟨sensorId, cap, room, true⟩ ++
    List.replicate (row.checked - row.agreed) ⟨sensorId, cap, room, false⟩ ++
    List.replicate row.countRight ⟨sensorId, CAP_COUNT, room, true⟩ ++
    List.replicate (row.countChecked - row.countRight) ⟨sensorId, CAP_COUNT, room, false⟩

def checks (room : String) (windows : List Window) : List Check :=
  windows.flatMap fun w => w.sensors.entries.flatMap fun e => sensorChecks room w.truthOccupied e.1 e.2

/-! ## The summary -/

structure Aggregate where
  modality : String
  checked : ℕ
  agreed : ℕ
  countChecked : ℕ
  countRight : ℕ
  latencies : List ℚ

def Aggregate.add (agg : Aggregate) (row : SensorRow) : Aggregate :=
  { agg with
    checked := agg.checked + row.checked
    agreed := agg.agreed + row.agreed
    countChecked := agg.countChecked + row.countChecked
    countRight := agg.countRight + row.countRight
    latencies := agg.latencies ++ row.firstAgreedS.toList }

def perSensor (windows : List Window) : Dict String Aggregate :=
  (windows.flatMap fun w => w.sensors.entries).foldl (fun d e =>
    d.set e.1 (((d.get? e.1).getD ⟨e.2.modality, 0, 0, 0, 0, []⟩).add e.2)) .empty

def verdict (accuracy : Option ℚ) (checks : ℕ) : String :=
  match accuracy with
  | none => "not measured"
  | some accuracy =>
    if checks = 0 then "not measured"
    else if checks < 4 then "too few checks"
    else if 95 / 100 ≤ accuracy then "excellent"
    else if 8 / 10 ≤ accuracy then "good"
    else if 6 / 10 ≤ accuracy then "mixed"
    else "poor"

structure SensorSummary where
  sensorId : String
  modality : String
  checks : ℕ
  agreed : ℕ
  accuracy : Option ℚ
  typicalResponseS : Option ℚ
  countChecks : ℕ
  countRight : ℕ
  verdict : String
  deriving DecidableEq

def sensorSummary (sensorId : String) (agg : Aggregate) : SensorSummary :=
  let acc : Option ℚ := if agg.checked = 0 then none else some (agg.agreed / agg.checked)
  { sensorId := sensorId
    modality := agg.modality
    checks := agg.checked
    agreed := agg.agreed
    accuracy := acc
    typicalResponseS := if agg.latencies = [] then none
      else some (round1 (agg.latencies.sum / agg.latencies.length))
    countChecks := agg.countChecked
    countRight := agg.countRight
    verdict := verdict acc agg.checked }

structure Summary where
  room : String
  windows : ℕ
  totalChecks : ℕ
  sensors : List SensorSummary
  deriving DecidableEq

def summarize (room : String) (windows : List Window) : Summary :=
  let sensors := Signal.inOrder SensorSummary.sensorId
    ((perSensor windows).entries.map fun e => sensorSummary e.1 e.2)
  { room := room
    windows := windows.length
    totalChecks := (sensors.map SensorSummary.checks).sum
    sensors := sensors }

/-! ## The two stores -/

structure SessionRow where
  room : String
  state : SessionState
  startedTs : String
  endedTs : Option String
  windows : List Window
  summary : Option Summary
  deriving DecidableEq

/-- The table of `ValidationStore`, by `session_id`. -/
abbrev Sessions := Dict String SessionRow

def create (sid room ts : String) (t : Sessions) : Sessions := t.set sid ⟨room, .active, ts, none, [], none⟩

/-- `UPDATE … WHERE session_id = ?`. -/
def update (sid : String) (f : SessionRow → SessionRow) (t : Sessions) : Sessions :=
  match t.get? sid with
  | none => t
  | some row => t.set sid (f row)

def saveWindows (sid : String) (windows : List Window) : Sessions → Sessions :=
  update sid fun row => { row with windows := windows }

def closeSession (sid : String) (state : SessionState) (summary : Option Summary) (now : Now) :
    Sessions → Sessions :=
  update sid fun row => { row with state := state, endedTs := some now.isoformat, summary := summary }

/-- The newest of the room's active sessions. -/
def activeForRoom (room : String) (t : Sessions) : Option String :=
  let rows := t.entries.filter fun e => e.2.room = room ∧ e.2.state = .active
  (Signal.inOrder (fun e => OrderDual.toDual e.2.startedTs) rows).head?.map Prod.fst

structure Evidence where
  samples : ℕ
  correct : ℕ
  deriving DecidableEq

/-- The table of `ReliabilityStore`, by sensor, capability and room. -/
abbrev Table := Dict (String × String × String) Evidence

def Check.key (c : Check) : String × String × String := (c.sensorId, c.capability, c.room)

def record (c : Check) (t : Table) : Table :=
  if c.capability ∉ CAPABILITIES ∨ c.sensorId = "" then t
  else match t.get? c.key with
    | none => t.set c.key ⟨1, c.correct.toNat⟩
    | some row => t.set c.key ⟨row.samples + 1, row.correct + c.correct.toNat⟩

/-! ## The session -/

inductive Failure
  | validation (message : String)
  | storage
  deriving DecidableEq

structure System where
  sessions : Connection Sessions
  reliability : Connection Table
  /-- `_windows`. -/
  windows : Dict String (List Window)
  deriving DecidableEq

def init (base : Table) : System := ⟨.opened .empty, .opened base, .empty⟩

def requireActive (sid : String) (s : System) : Except Failure (SessionRow × System) :=
  match s.sessions.seen.get? sid with
  | none => .error (.validation "unknown session")
  | some row =>
    if row.state ≠ .active then .error (.validation ("this session is already " ++ row.state.text))
    else .ok (row, { s with windows := s.windows.setDefault sid row.windows })

def persist (sid : String) (s : System) : System :=
  { s with sessions := s.sessions.write (saveWindows sid ((s.windows.get? sid).getD [])) none }

def start (room sid : String) (now : Now) (s : System) : Except Failure (String × Bool) × System :=
  if room = "" then (.error (.validation "a room is required"), s)
  else match activeForRoom room s.sessions.seen with
    | some existing => (.ok (existing, true), s)
    | none =>
      -- the table refuses an identifier it already has
      if (s.sessions.seen.get? sid).isSome then (.error .storage, s)
      else (.ok (sid, false),
        { s with sessions := s.sessions.write (create sid room now.isoformat) none,
                 windows := s.windows.set sid [] })

def declare (sid : String) (occupied : Bool) (count : Option ℤ) (now : Now) (s : System) :
    Except Failure ℕ × System :=
  match requireActive sid s with
  | .error e => (.error e, s)
  | .ok (_, s) =>
    let windows := (s.windows.get? sid).getD [] ++ [⟨occupied, count, now.micros, .empty, 0, rfl⟩]
    (.ok windows.length, persist sid { s with windows := s.windows.set sid windows })

inductive Sampled
  | windowExpired (elapsedS : ℚ)
  | graded (sensors : ℕ) (elapsedS : ℚ) (windows : ℕ)
  deriving DecidableEq

def sample (sid : String) (sources : List Reading) (now : Now) (s : System) : Except Failure Sampled × System :=
  match requireActive sid s with
  | .error e => (.error e, s)
  | .ok (_, s) =>
    let windows := (s.windows.get? sid).getD []
    match windows.getLast? with
    | none => (.error (.validation "declare what is true before sampling"), s)
    | some window =>
      let elapsedS : ℚ := (now.micros - window.openedTs : ℤ) / 1000000
      if WINDOW_MAX_S < elapsedS then (.ok (.windowExpired (round1 elapsedS)), s)
      else
        let graded := sources.countP fun src =>
          src.sensorId ≠ "" ∧ (sensorAgreed src window.truthOccupied).isSome
        let noted := sources.foldl (grade elapsedS) window
        let windows := windows.dropLast ++ [{ noted with samples := noted.samples + 1 }]
        (.ok (.graded graded (round1 elapsedS) windows.length),
          persist sid { s with windows := s.windows.set sid windows })

/-- The fault of a call, as seen from behind its first `n` storage operations. -/
def later (n : ℕ) (fault : Option (ℕ × Fault)) : Option (ℕ × Fault) :=
  fault.bind fun p => if p.1 < n then none else some (p.1 - n, p.2)

/-- The fault of the `n`th storage operation. -/
def at' (n : ℕ) (fault : Option (ℕ × Fault)) : Option Fault :=
  fault.bind fun p => if p.1 = n then some p.2 else none

/-- A read that fails writes nothing. -/
def read (e : Fault) (s : System) : System := { s with sessions := s.sessions.write id (some e) }

def commitToReliability (room : String) (windows : List Window) (fault : Option (ℕ × Fault))
    (c : Connection Table) : Connection Table :=
  c.writeAll record fault (checks room windows)

/-- `close_session` and, where it came through, the windows forgotten. -/
def close (sid : String) (state : SessionState) (summary : Option Summary) (now : Now) (fault : Option Fault)
    (s : System) : System :=
  let sessions := s.sessions.write (closeSession sid state summary now) fault
  { s with sessions := sessions, windows := if fault = none then s.windows.erase sid else s.windows }

def finish (sid : String) (now : Now) (fault : Option (ℕ × Fault)) (s : System) :
    Except Failure Summary × System :=
  match at' 0 fault with
  | some e => (.error .storage, read e s)
  | none =>
    match requireActive sid s with
    | .error e => (.error e, s)
    | .ok (session, s) =>
      let windows := (s.windows.get? sid).getD []
      let summary := summarize session.room windows
      let n := (checks session.room windows).length
      let s := { s with reliability := commitToReliability session.room windows (later 1 fault) s.reliability }
      if (later 1 fault).any fun p => p.1 < n then (.error .storage, s)
      else
        let s := close sid .finished (some summary) now (at' (n + 1) fault) s
        if (at' (n + 1) fault).isSome then (.error .storage, s) else (.ok summary, s)

def abandon (sid : String) (now : Now) (fault : Option (ℕ × Fault)) (s : System) : Except Failure Unit × System :=
  match at' 0 fault with
  | some e => (.error .storage, read e s)
  | none =>
    match requireActive sid s with
    | .error e => (.error e, s)
    | .ok (_, s) =>
      let s := close sid .abandoned none now (at' 1 fault) s
      if (at' 1 fault).isSome then (.error .storage, s) else (.ok (), s)

/-- The Core starts anew: what was open is lost, the tables are read again. -/
def restart (s : System) : System := ⟨s.sessions.restart, s.reliability.restart, .empty⟩

inductive Op
  | start (room sid : String) (now : Now)
  | declare (sid : String) (occupied : Bool) (count : Option ℤ) (now : Now)
  | sample (sid : String) (sources : List Reading) (now : Now)
  | finish (sid : String) (now : Now) (fault : Option (ℕ × Fault))
  | abandon (sid : String) (now : Now) (fault : Option (ℕ × Fault))
  | restart

def step (s : System) : Op → System
  | .start room sid now => (start room sid now s).2
  | .declare sid occupied count now => (declare sid occupied count now s).2
  | .sample sid sources now => (sample sid sources now s).2
  | .finish sid now fault => (finish sid now fault s).2
  | .abandon sid now fault => (abandon sid now fault s).2
  | .restart => restart s

/-! ## What the store holds -/

/-- Samples and correct ones under a key. -/
def held (t : Table) (k : String × String × String) : ℕ × ℕ :=
  match t.get? k with
  | none => 0
  | some e => (e.samples, e.correct)

def evidence (cs : List Check) (k : String × String × String) : ℕ × ℕ :=
  (cs.countP fun c => c.key = k, cs.countP fun c => c.key = k ∧ c.correct)

/-- The checks of a session that is finished. -/
def said (row : SessionRow) : List Check := if row.state = .finished then checks row.room row.windows else []

def finishedChecks (t : Sessions) : List Check := t.values.flatMap said

/-- Every check of every finished session stands in the table once, and nothing else does. -/
def Counted (base table : Table) (sessions : Sessions) : Prop :=
  ∀ k, held table k = held base k + evidence (finishedChecks sessions) k

/-- What is read now, and what a restart would find. -/
def Exact (base : Table) (s : System) : Prop :=
  Counted base s.reliability.seen s.sessions.seen ∧ Counted base s.reliability.committed s.sessions.committed

/-- The checks that `finish` is about to record. -/
def due (sid : String) (s : System) : List Check :=
  match requireActive sid s with
  | .error _ => []
  | .ok (session, s) => checks session.room ((s.windows.get? sid).getD [])

/-- A call of `finish` that comes through, or fails before a check is in the store. -/
def Harmless (s : System) : Op → Prop
  | .finish sid _ (some (k, e)) =>
    due sid s = [] ∨ k = 0 ∨ (k = 1 ∧ e ≠ .commit) ∨ (due sid s).length + 1 < k
  | _ => True

def Recordable (c : Check) : Prop := c.capability ∈ CAPABILITIES ∧ c.sensorId ≠ ""

variable {base t table : Table} {cs : List Check} {c : Check} {k : String × String × String}
  {sessions : Sessions} {s : System} {sid : String}

theorem evidence_append (cs ds : List Check) (k : String × String × String) :
    evidence (cs ++ ds) k = evidence cs k + evidence ds k := by
  simp [evidence, List.countP_append]

@[simp] theorem evidence_nil (k : String × String × String) : evidence [] k = 0 := rfl

theorem evidence_ne_zero (h : c ∈ cs) : evidence cs c.key ≠ 0 := by
  have hpos : 0 < cs.countP fun d => d.key = c.key := List.countP_pos_iff.mpr ⟨c, h, by simp⟩
  intro h0
  have := congrArg Prod.fst h0
  exact hpos.ne' this

theorem held_record (hc : Recordable c) (t : Table) (k : String × String × String) :
    held (record c t) k = held t k + evidence [c] k := by
  have hif : ¬ (c.capability ∉ CAPABILITIES ∨ c.sensorId = "") := by
    rintro (h | h)
    · exact h hc.1
    · exact hc.2 h
  unfold record
  rw [if_neg hif]
  by_cases hk : k = c.key
  · subst hk
    cases hget : t.get? c.key with
    | none => cases hcorrect : c.correct <;> simp [held, evidence, hget, hcorrect]
    | some row => cases hcorrect : c.correct <;> simp [held, evidence, hget, hcorrect]
  · have hk' : ¬ c.key = k := fun h => hk h.symm
    cases hget : t.get? c.key with
    | none => simp [held, evidence, hk, hk']
    | some row => simp [held, evidence, hk, hk']

theorem held_foldl_record (h : ∀ c ∈ cs, Recordable c) (t : Table) (k : String × String × String) :
    held (cs.foldl (fun t c => record c t) t) k = held t k + evidence cs k := by
  induction cs generalizing t with
  | nil => simp
  | cons c cs ih =>
    obtain ⟨hc, hcs⟩ := List.forall_mem_cons.mp h
    have happ : evidence (c :: cs) k = evidence [c] k + evidence cs k := evidence_append [c] cs k
    rw [List.foldl_cons, ih hcs, held_record hc, happ, add_assoc]

theorem recordable_sensorChecks {room sensorId : String} {truth : Bool} {row : SensorRow} (h : sensorId ≠ "")
    (hc : c ∈ sensorChecks room truth sensorId row) : Recordable c := by
  have hcap : (if truth then CAP_PRESENCE else CAP_ABSENCE) ∈ CAPABILITIES := by
    cases truth <;> decide
  have hcount : CAP_COUNT ∈ CAPABILITIES := by decide
  simp only [sensorChecks, List.mem_append, List.mem_replicate] at hc
  rcases hc with ((hc | hc) | hc) | hc <;> obtain ⟨-, rfl⟩ := hc
  · exact ⟨hcap, h⟩
  · exact ⟨hcap, h⟩
  · exact ⟨hcount, h⟩
  · exact ⟨hcount, h⟩

theorem recordable_checks {room : String} {windows : List Window} (hc : c ∈ checks room windows) :
    Recordable c := by
  obtain ⟨w, -, hw⟩ := List.mem_flatMap.mp hc
  obtain ⟨⟨sensorId, row⟩, he, hrow⟩ := List.mem_flatMap.mp hw
  refine recordable_sensorChecks ?_ hrow
  rintro rfl
  cases (Dict.mem_entries.mp he).symm.trans w.named

/-- A row that is assigned brings in its checks in place of those it replaces. -/
theorem evidence_finishedChecks_set (t : Sessions) (sid : String) (row : SessionRow)
    (k : String × String × String) :
    evidence (finishedChecks (t.set sid row)) k + evidence ((t.get? sid).toList.flatMap said) k =
      evidence (finishedChecks t) k + evidence (said row) k := by
  obtain ⟨pre, post, hset, hold⟩ := t.exists_values_set sid row
  simp only [finishedChecks, hset, hold, List.flatMap_append, List.flatMap_cons, evidence_append]
  abel

/-! ## Sessions under their writes -/

/-- What no closing changes about a session. -/
def walk (t : Sessions) (sid : String) : Option (String × List Window) :=
  (t.get? sid).map fun row => (row.room, row.windows)

theorem walk_closeSession (state : SessionState) (summary : Option Summary) (now : Now) (t : Sessions)
    (sid' : String) : walk (closeSession sid state summary now t) sid' = walk t sid' := by
  unfold closeSession update
  cases hrow : t.get? sid with
  | none => rfl
  | some row =>
    by_cases h : sid' = sid
    · simp [walk, h, hrow]
    · simp [walk, h]

theorem walk_saveWindows (windows : List Window) (t : Sessions) (sid' : String) :
    walk (saveWindows sid windows t) sid' =
      if sid' = sid then (walk t sid).map fun w => (w.1, windows) else walk t sid' := by
  unfold saveWindows update
  cases hrow : t.get? sid with
  | none =>
    by_cases h : sid' = sid
    · simp [walk, h, hrow]
    · simp [h]
  | some row =>
    by_cases h : sid' = sid
    · simp [walk, h, hrow]
    · simp [walk, h]

theorem counted_set_of_said {row : SessionRow} (h : Counted base table sessions)
    (hsaid : said row = (sessions.get? sid).toList.flatMap said) : Counted base table (sessions.set sid row) := by
  intro k
  have hset := evidence_finishedChecks_set sessions sid row k
  rw [hsaid] at hset
  rw [h k, add_right_cancel hset]

/-- Closing a session whose checks are these. -/
theorem counted_closeSession {state : SessionState} {summary : Option Summary} {now : Now} {table' : Table}
    (h : Counted base table sessions) {row : SessionRow} (hrow : sessions.get? sid = some row)
    (hactive : row.state = .active)
    (htable : ∀ k, held table' k = held table k + evidence (said { row with state := state }) k) :
    Counted base table' (closeSession sid state summary now sessions) := by
  intro k
  have hset := evidence_finishedChecks_set sessions sid
    { row with state := state, endedTs := some now.isoformat, summary := summary } k
  have hold : said row = [] := by simp [said, hactive]
  simp only [hrow, Option.toList_some, List.flatMap_cons, List.flatMap_nil, List.append_nil, hold,
    evidence_nil, add_zero] at hset
  simp only [closeSession, update, hrow]
  rw [htable k, h k, hset, add_assoc]
  rfl

theorem counted_saveWindows {windows : List Window} (h : Counted base table sessions) {row : SessionRow}
    (hrow : sessions.get? sid = some row) (hactive : row.state = .active) :
    Counted base table (saveWindows sid windows sessions) := by
  simp only [saveWindows, update, hrow]
  exact counted_set_of_said h (by simp [said, hrow, hactive])

theorem counted_create {room ts : String} (h : Counted base table sessions) (hnew : sessions.get? sid = none) :
    Counted base table (create sid room ts sessions) :=
  counted_set_of_said h (by simp [said, hnew])

/-- More evidence than the finished sessions have given. -/
theorem not_counted_of_more {table' : Table} (h : Counted base table sessions) (hcs : cs ≠ [])
    (htable : ∀ k, held table' k = held table k + evidence cs k) : ¬ Counted base table' sessions := by
  intro h'
  obtain ⟨c, hc⟩ := List.exists_mem_of_ne_nil cs hcs
  have heq := htable c.key
  rw [h' c.key, h c.key] at heq
  exact evidence_ne_zero hc (left_eq_add.mp heq)

/-! ## The invariant -/

structure Inv (base : Table) (s : System) : Prop where
  exact : Exact base s
  settled : s.reliability = .opened s.reliability.seen
  /-- An open transaction holds nothing but closings. -/
  agree : ∀ sid, walk s.sessions.seen sid = walk s.sessions.committed sid
  recalls : ∀ sid ws, s.windows.get? sid = some ws → (walk s.sessions.seen sid).map Prod.snd = some ws

theorem Inv.reliability_committed (hi : Inv base s) : s.reliability.committed = s.reliability.seen := by
  rw [hi.settled]
  rfl

/-- What the call finds once the session has been let through. -/
theorem requireActive_ok {row : SessionRow} {s' : System} (hi : Inv base s)
    (h : requireActive sid s = .ok (row, s')) :
    s.sessions.seen.get? sid = some row ∧ row.state = .active ∧
      s' = { s with windows := s.windows.setDefault sid row.windows } ∧
      s'.windows.get? sid = some row.windows ∧ Inv base s' := by
  unfold requireActive at h
  cases hrow : s.sessions.seen.get? sid with
  | none => simp [hrow] at h
  | some found =>
    simp only [hrow] at h
    by_cases hstate : found.state ≠ .active
    · rw [if_pos hstate] at h
      cases h
    · rw [if_neg hstate] at h
      obtain ⟨rfl, rfl⟩ : found = row ∧ _ = s' := by simpa using h
      have hwalk : walk s.sessions.seen sid = some (found.room, found.windows) := by simp [walk, hrow]
      have hget : (s.windows.setDefault sid found.windows).get? sid = some found.windows := by
        rw [Dict.get?_setDefault, if_pos rfl]
        cases hmem : s.windows.get? sid with
        | none => rfl
        | some ws =>
          have := hi.recalls sid ws hmem
          rw [hwalk] at this
          exact this.symm
      refine ⟨rfl, not_not.mp hstate, rfl, hget, hi.exact, hi.settled, hi.agree, fun sid' ws hws => ?_⟩
      by_cases hsid : sid' = sid
      · subst hsid
        rw [hget] at hws
        rw [hwalk, ← hws]
        rfl
      · rw [Dict.get?_setDefault, if_neg hsid] at hws
        exact hi.recalls sid' ws hws

theorem due_of_ok {out : SessionRow × System} (hi : Inv base s) (h : requireActive sid s = .ok out) :
    due sid s = checks out.1.room out.1.windows := by
  obtain ⟨-, -, -, hget, -⟩ := requireActive_ok hi h
  simp only [due, h, hget, Option.getD_some]

/-! ## One step -/

theorem Inv.persist {row : SessionRow} {windows : List Window} (hi : Inv base s)
    (hrow : s.sessions.seen.get? sid = some row) (hactive : row.state = .active) :
    Inv base (persist sid { s with windows := s.windows.set sid windows }) := by
  have hget : (s.windows.set sid windows).get? sid = some windows := Dict.get?_set_self _ _ _
  have hwalk : walk s.sessions.seen sid = some (row.room, row.windows) := by simp [walk, hrow]
  have hcount : Counted base s.reliability.seen (saveWindows sid windows s.sessions.seen) :=
    counted_saveWindows hi.exact.1 hrow hactive
  simp only [Validation.persist, hget, Option.getD_some, Connection.write_none]
  refine ⟨⟨hcount, ?_⟩, hi.settled, fun _ => rfl, fun sid' ws hws => ?_⟩
  · show Counted base s.reliability.committed _
    rw [hi.reliability_committed]
    exact hcount
  · show (walk (saveWindows sid windows s.sessions.seen) sid').map Prod.snd = some ws
    rw [walk_saveWindows]
    by_cases hsid : sid' = sid
    · subst hsid
      rw [if_pos rfl, hwalk]
      exact hget.symm.trans hws
    · rw [if_neg hsid]
      have hold : s.windows.get? sid' = some ws := (Dict.get?_set_ne _ hsid _).symm.trans hws
      exact hi.recalls sid' ws hold

theorem Inv.start (hi : Inv base s) (room : String) (now : Now) : Inv base (start room sid now s).2 := by
  unfold Validation.start
  by_cases hroom : room = ""
  · rw [if_pos hroom]
    exact hi
  rw [if_neg hroom]
  cases activeForRoom room s.sessions.seen with
  | some existing => exact hi
  | none =>
    by_cases hnew : (s.sessions.seen.get? sid).isSome
    · simpa [hnew] using hi
    have hnone : s.sessions.seen.get? sid = none := by simpa using hnew
    have hcount : Counted base s.reliability.seen (create sid room now.isoformat s.sessions.seen) :=
      counted_create hi.exact.1 hnone
    simp only [hnew, if_false, Connection.write_none, Bool.false_eq_true]
    refine ⟨⟨hcount, ?_⟩, hi.settled, fun _ => rfl, fun sid' ws hws => ?_⟩
    · show Counted base s.reliability.committed _
      rw [hi.reliability_committed]
      exact hcount
    · show (walk (create sid room now.isoformat s.sessions.seen) sid').map Prod.snd = some ws
      by_cases hsid : sid' = sid
      · subst hsid
        have hws' : some [] = some ws := (Dict.get?_set_self _ _ _).symm.trans hws
        rw [← hws']
        simp [walk, create]
      · have hold : s.windows.get? sid' = some ws := (Dict.get?_set_ne _ hsid _).symm.trans hws
        rw [← hi.recalls sid' ws hold]
        simp [walk, create, hsid]

theorem Inv.declare (hi : Inv base s) (occupied : Bool) (count : Option ℤ) (now : Now) :
    Inv base (declare sid occupied count now s).2 := by
  unfold Validation.declare
  cases h : requireActive sid s with
  | error e => exact hi
  | ok out =>
    obtain ⟨hrow, hactive, hs', -, hi'⟩ := requireActive_ok hi h
    exact hi'.persist (by rw [hs']; exact hrow) hactive

theorem Inv.sample (hi : Inv base s) (sources : List Reading) (now : Now) :
    Inv base (sample sid sources now s).2 := by
  unfold Validation.sample
  cases h : requireActive sid s with
  | error e => exact hi
  | ok out =>
    obtain ⟨hrow, hactive, hs', hget, hi'⟩ := requireActive_ok hi h
    simp only [hget, Option.getD_some]
    cases out.1.windows.getLast? with
    | none => exact hi'
    | some window =>
      simp only
      split
      · exact hi'
      · exact hi'.persist (by rw [hs']; exact hrow) hactive

theorem Inv.restart (hi : Inv base s) : Inv base (restart s) where
  exact := ⟨hi.exact.2, hi.exact.2⟩
  settled := rfl
  agree := fun _ => rfl
  recalls := fun sid ws h => by cases h

theorem Inv.read (hi : Inv base s) (e : Fault) : Inv base (read e s) := by
  have hback : Counted base s.reliability.seen s.sessions.committed := by
    rw [← hi.reliability_committed]
    exact hi.exact.2
  cases e with
  | statement => exact hi
  | commit => exact hi
  | rollback =>
    exact ⟨⟨hback, hi.exact.2⟩, hi.settled, fun _ => rfl, fun sid ws h => hi.agree sid ▸ hi.recalls sid ws h⟩

theorem Counted.congr {table' : Table} (h : Counted base table sessions)
    (htable : ∀ k, held table' k = held table k) : Counted base table' sessions := fun k => by
  rw [htable k, h k]

/-- A session closed, its checks being in the table already. A closing that fails is for
sessions without any. -/
theorem Inv.close {row : SessionRow} {state : SessionState} {table' : Table} (hi : Inv base s)
    (hrow : s.sessions.seen.get? sid = some row) (hactive : row.state = .active)
    (htable : ∀ k, held table' k = held s.reliability.seen k + evidence (said { row with state := state }) k)
    (summary : Option Summary) (now : Now) {fault : Option Fault}
    (hfault : fault = none ∨ said { row with state := state } = []) :
    Inv base (close sid state summary now fault { s with reliability := .opened table' }) := by
  have hclosed : Counted base table' (closeSession sid state summary now s.sessions.seen) :=
    counted_closeSession hi.exact.1 hrow hactive htable
  have hcommitted : Counted base s.reliability.seen s.sessions.committed := by
    rw [← hi.reliability_committed]
    exact hi.exact.2
  rcases fault with _ | e
  · refine ⟨⟨hclosed, hclosed⟩, rfl, fun _ => rfl, fun sid' ws hws => ?_⟩
    have hws' : (s.windows.erase sid).get? sid' = some ws := hws
    rw [Dict.get?_erase] at hws'
    show (walk (closeSession sid state summary now s.sessions.seen) sid').map Prod.snd = some ws
    rw [walk_closeSession]
    by_cases hsid : sid' = sid
    · simp [hsid] at hws'
    · exact hi.recalls sid' ws (by simpa [hsid] using hws')
  · obtain hsaid : said { row with state := state } = [] := by simpa using hfault
    have hsame : ∀ k, held table' k = held s.reliability.seen k := by simpa [hsaid] using htable
    cases e with
    | statement =>
      exact ⟨⟨hi.exact.1.congr hsame, hcommitted.congr hsame⟩, rfl, hi.agree, hi.recalls⟩
    | commit =>
      refine ⟨⟨hclosed, hcommitted.congr hsame⟩, rfl, fun sid' => ?_, fun sid' ws hws => ?_⟩
      · exact (walk_closeSession _ _ _ _ _).trans (hi.agree sid')
      · show (walk (closeSession sid state summary now s.sessions.seen) sid').map Prod.snd = some ws
        rw [walk_closeSession]
        exact hi.recalls sid' ws hws
    | rollback =>
      refine ⟨⟨hcommitted.congr hsame, hcommitted.congr hsame⟩, rfl, fun _ => rfl, fun sid' ws hws => ?_⟩
      exact hi.agree sid' ▸ hi.recalls sid' ws hws

theorem Inv.abandon (hi : Inv base s) (now : Now) (fault : Option (ℕ × Fault)) :
    Inv base (abandon sid now fault s).2 := by
  unfold Validation.abandon
  cases at' 0 fault with
  | some e => exact hi.read e
  | none =>
    cases h : requireActive sid s with
    | error e => exact hi
    | ok out =>
      obtain ⟨hrow, hactive, hs', -, hi'⟩ := requireActive_ok hi h
      have hnone : said { out.1 with state := .abandoned } = [] := rfl
      have hclose : Inv base (Validation.close sid .abandoned none now (at' 1 fault)
          { out.2 with reliability := .opened out.2.reliability.seen }) :=
        hi'.close (by rw [hs']; exact hrow) hactive (by simp [hnone]) none now (.inr hnone)
      rw [← hi'.settled] at hclose
      simp only
      split
      · exact hclose
      · exact hclose

/-! ## Where a fault stands -/

section
variable {fault : Option (ℕ × Fault)} {n : ℕ}

theorem eq_of_at' {e : Fault} (h : at' n fault = some e) : fault = some (n, e) := by
  obtain ⟨⟨m, e'⟩, rfl, hp⟩ := Option.bind_eq_some_iff.mp h
  by_cases hm : m = n
  · simp only [hm, if_true, Option.some.injEq] at hp
    rw [hm, hp]
  · simp [hm] at hp

theorem ne_of_at'_eq_none (h : at' n fault = none) : ∀ p ∈ fault, p.1 ≠ n := by
  rintro ⟨m, e⟩ rfl hm
  have hsome : at' n (some (m, e)) = some e := if_pos hm
  cases hsome.symm.trans h

/-- A fault behind the first operation meets one of the next `n`, or comes behind them. -/
theorem meets_or_late (hpos : ∀ p ∈ fault, p.1 ≠ 0) :
    (∃ k e, fault = some (k + 1, e) ∧ k < n) ∨ ∀ p ∈ fault, n < p.1 := by
  rcases fault with _ | ⟨m, e⟩
  · exact .inr fun p hp => by cases hp
  · have hm : m ≠ 0 := hpos (m, e) rfl
    obtain ⟨k, rfl⟩ := Nat.exists_eq_succ_of_ne_zero hm
    rcases Nat.lt_or_ge k n with hk | hk
    · exact .inl ⟨k, e, rfl, hk⟩
    · refine .inr fun p hp => ?_
      cases hp
      exact Nat.lt_succ_of_le hk

theorem le_of_later (h : ∀ p ∈ fault, n < p.1) : ∀ p ∈ later 1 fault, n ≤ p.1 := by
  intro p hp
  obtain ⟨q, hq, hpq⟩ := Option.bind_eq_some_iff.mp hp
  have hlt := h q hq
  have hnot : ¬ q.1 < 1 := by omega
  simp only [hnot, if_false, Option.some.injEq] at hpq
  subst hpq
  exact Nat.le_sub_one_of_lt hlt

end

variable (sid) in
/-- Everything that `finish` can do. -/
theorem finish_cases (hi : Inv base s) (now : Now) (fault : Option (ℕ × Fault)) :
    (∃ e, fault = some (0, e) ∧ (finish sid now fault s).2 = read e s) ∨
    (due sid s = [] ∧ (finish sid now fault s).2 = s) ∨
    ∃ row s', requireActive sid s = .ok (row, s') ∧ due sid s = checks row.room row.windows ∧
      ((∃ k e, fault = some (k + 1, e) ∧ k < (due sid s).length ∧ (finish sid now fault s).2 =
          { s' with reliability := s.reliability.writeAll record (some (k, e)) (due sid s) }) ∨
        ((∀ p ∈ fault, (due sid s).length < p.1) ∧ (finish sid now fault s).2 =
          close sid .finished (some (summarize row.room row.windows)) now (at' ((due sid s).length + 1) fault)
            { s' with reliability :=
                .opened ((due sid s).foldl (fun t c => record c t) s.reliability.seen) })) := by
  unfold finish
  cases hread : at' 0 fault with
  | some e => exact .inl ⟨e, eq_of_at' hread, rfl⟩
  | none =>
    cases h : requireActive sid s with
    | error e => exact .inr (.inl ⟨by simp [due, h], rfl⟩)
    | ok out =>
      obtain ⟨row, s'⟩ := out
      obtain ⟨-, -, hs', hget, -⟩ := requireActive_ok hi h
      have hdue := due_of_ok hi h
      have hrel : s'.reliability = .opened s.reliability.seen := by rw [hs', ← hi.settled]
      refine .inr (.inr ⟨row, s', rfl, hdue, ?_⟩)
      simp only [hget, Option.getD_some, commitToReliability, ← hdue]
      rcases meets_or_late (n := (due sid s).length) (ne_of_at'_eq_none hread) with ⟨k, e, rfl, hk⟩ | hlate
      · refine .inl ⟨k, e, rfl, hk, ?_⟩
        simp [later, hk, hs']
      · have hbehind := le_of_later hlate
        have hany : ¬ (later 1 fault).any (fun p => decide (p.1 < (due sid s).length)) = true := by
          rw [Option.any_eq_true]
          rintro ⟨p, hp, hlt⟩
          exact absurd (of_decide_eq_true hlt) (not_lt.mpr (hbehind p hp))
        refine .inr ⟨hlate, ?_⟩
        rw [if_neg hany, hrel, Connection.writeAll_opened hbehind]
        split <;> rfl

theorem recordable_due (hi : Inv base s) : ∀ c ∈ due sid s, Recordable c := by
  intro c hc
  cases h : requireActive sid s with
  | error e => simp [due, h] at hc
  | ok out =>
    rw [due_of_ok hi h] at hc
    exact recordable_checks hc

/-- A write that fails at once, and not in its commit, leaves the store as it was. -/
theorem writeAll_record_first (hi : Inv base s) {e : Fault} (he : e ≠ .commit) (hk : 0 < cs.length) :
    s.reliability.writeAll record (some (0, e)) cs = s.reliability := by
  rw [hi.settled, Connection.writeAll_fault hk]
  cases e with
  | statement => rfl
  | commit => exact absurd rfl he
  | rollback => rfl

theorem Inv.finish (hi : Inv base s) (now : Now) (fault : Option (ℕ × Fault))
    (hok : Harmless s (.finish sid now fault)) : Inv base (finish sid now fault s).2 := by
  rcases finish_cases sid hi now fault with
    ⟨e, -, hs⟩ | ⟨-, hs⟩ | ⟨row, s', h, hdue, ⟨k, e, hfault, hk, hs⟩ | ⟨hlate, hs⟩⟩
  · rw [hs]
    exact hi.read e
  · rw [hs]
    exact hi
  · obtain ⟨-, -, hs', -, hi'⟩ := requireActive_ok hi h
    -- the first check, refused without a trace
    have hfirst : k = 0 ∧ e ≠ .commit := by
      rw [hfault] at hok
      rcases hok with hnone | hzero | ⟨hone, he⟩ | hlong
      · rw [hnone] at hk
        cases hk
      · cases hzero
      · exact ⟨by omega, he⟩
      · omega
    obtain ⟨rfl, he⟩ := hfirst
    rw [hs, writeAll_record_first hi he hk]
    rw [hs'] at hi' ⊢
    exact hi'
  · obtain ⟨hrow, hactive, hs', -, hi'⟩ := requireActive_ok hi h
    rw [hs]
    have hrel : s'.reliability = s.reliability := by rw [hs']
    refine hi'.close (by rw [hs']; exact hrow) hactive (fun k => ?_) _ now ?_
    · rw [held_foldl_record (recordable_due hi), hrel, hdue]
      rfl
    · rcases fault with _ | ⟨n, e⟩
      · exact .inl rfl
      · by_cases hn : n = (due sid s).length + 1
        · right
          show checks row.room row.windows = []
          rw [← hdue]
          rcases hok with hnone | hzero | ⟨hone, -⟩ | hlong
          · exact hnone
          · omega
          · exact List.eq_nil_of_length_eq_zero (by omega)
          · omega
        · left
          simp [at', hn]

theorem Inv.step (hi : Inv base s) (op : Op) (hok : Harmless s op) : Inv base (step s op) := by
  cases op with
  | start room sid now => exact hi.start room now
  | declare sid occupied count now => exact hi.declare occupied count now
  | sample sid sources now => exact hi.sample sources now
  | finish sid now fault => exact hi.finish now fault hok
  | abandon sid now fault => exact hi.abandon now fault
  | restart => exact hi.restart

theorem take_ne_nil {α : Type*} {l : List α} (hl : l ≠ []) {n : ℕ} (hn : n ≠ 0) : l.take n ≠ [] := by
  rw [ne_eq, List.take_eq_nil_iff]
  rintro (h | h)
  · exact hn h
  · exact hl h

/-- Stopped behind its first check, a session has given evidence and is not finished. -/
theorem not_exact_stopped (hi : Inv base s) {row : SessionRow} {s' : System} {k : ℕ} {e : Fault}
    (h : requireActive sid s = .ok (row, s')) (hne : due sid s ≠ []) (hk : k < (due sid s).length)
    (hfirst : ¬ (k = 0 ∧ e ≠ .commit)) :
    ¬ Exact base { s' with reliability := s.reliability.writeAll record (some (k, e)) (due sid s) } := by
  obtain ⟨-, -, hs', -, -⟩ := requireActive_ok hi h
  have htaken : (if e = .commit then k + 1 else k) ≠ 0 := by
    split
    · omega
    · rename_i he
      rintro rfl
      exact hfirst ⟨rfl, he⟩
  rintro ⟨hseen, -⟩
  rw [hs'] at hseen
  refine not_counted_of_more hi.exact.1 (take_ne_nil hne htaken) (fun k => ?_) hseen
  have hrec : ∀ c ∈ due sid s, Recordable c := recordable_due hi
  have hrel := hi.settled
  rw [hrel, Connection.seen_writeAll_fault hk, held_foldl_record fun c hc => hrec c (List.mem_of_mem_take hc)]
  rfl

/-- All checks are in the store and the session is not closed, or not for good. -/
theorem not_exact_unclosed (hi : Inv base s) {row : SessionRow} {s' : System}
    (h : requireActive sid s = .ok (row, s')) (hne : due sid s ≠ []) (state : SessionState)
    (summary : Option Summary) (now : Now) (e : Fault) :
    ¬ Exact base (close sid state summary now (some e)
      { s' with reliability := .opened ((due sid s).foldl (fun t c => record c t) s.reliability.seen) }) := by
  obtain ⟨-, -, hs', -, -⟩ := requireActive_ok hi h
  have hmore : ∀ k, held ((due sid s).foldl (fun t c => record c t) s.reliability.seen) k =
      held s.reliability.seen k + evidence (due sid s) k := held_foldl_record (recordable_due hi) s.reliability.seen
  have hcommitted : Counted base s.reliability.seen s.sessions.committed := by
    rw [← hi.reliability_committed]
    exact hi.exact.2
  rintro ⟨hseen, hcom⟩
  rw [hs'] at hseen hcom
  simp only [close] at hseen hcom
  cases e with
  | statement => exact not_counted_of_more hi.exact.1 hne hmore hseen
  | commit => exact not_counted_of_more hcommitted hne hmore hcom
  | rollback => exact not_counted_of_more hcommitted hne hmore hseen

/-- A failure behind the first check leaves evidence of a session that is not finished. -/
theorem not_exact_of_not_harmless (hi : Inv base s) (op : Op) (hbad : ¬ Harmless s op) :
    ¬ Exact base (step s op) := by
  cases op with
  | finish sid now fault =>
    rcases fault with _ | ⟨n, e⟩
    · exact absurd trivial hbad
    simp only [Harmless, not_or, not_lt] at hbad
    obtain ⟨hne, hn, hfirst, hle⟩ := hbad
    show ¬ Exact base (Validation.finish sid now (some (n, e)) s).2
    rcases finish_cases sid hi now (some (n, e)) with
      ⟨e', he, -⟩ | ⟨hnone, -⟩ | ⟨row, s', h, hdue, ⟨k, e', hfault, hk, hs⟩ | ⟨hlate, hs⟩⟩
    · cases he
      exact absurd rfl hn
    · exact absurd hnone hne
    · cases hfault
      rw [hs]
      exact not_exact_stopped hi h hne hk fun hk0 => hfirst ⟨congrArg (· + 1) hk0.1, hk0.2⟩
    · -- the one place behind the checks that is not too late is the write that closes
      have hlt := hlate (n, e) rfl
      have hend : n = (due sid s).length + 1 := by simp only at hlt; omega
      have hat : at' ((due sid s).length + 1) (some (n, e)) = some e := by simp [at', hend]
      rw [hs, hat]
      exact not_exact_unclosed hi h hne _ _ now e
  | start room sid now => exact absurd trivial hbad
  | declare sid occupied count now => exact absurd trivial hbad
  | sample sid sources now => exact absurd trivial hbad
  | abandon sid now fault => exact absurd trivial hbad
  | restart => exact absurd trivial hbad

theorem inv_init (base : Table) : Inv base (init base) where
  exact := ⟨fun _ => rfl, fun _ => rfl⟩
  settled := rfl
  agree := fun _ => rfl
  recalls := fun sid ws h => by cases h

/-- The store holds each check of the finished sessions once, and nothing of any other, in
every state of the runs in which no `finish` fails behind its first check. -/
theorem exact_iff_harmless (base : Table) (ops : List Op) :
    AllStates step (Exact base) (init base) ops ↔ AllSteps step Harmless (init base) ops :=
  allStates_iff_allSteps (I := Inv base) (fun _ op hi hok => hi.step op hok) (fun _ hi => hi.exact)
    (fun _ op hi hbad => not_exact_of_not_harmless hi op hbad) (inv_init base)

/-! ## A retry that counts a check twice -/

def noon : Now := ⟨0, "2026-09-03T12:00:00+00:00"⟩

/-- The camera sees the person, the motion sensor does not, and the store fails at the second
of the two checks. -/
def interrupted : List Op :=
  [.start "kitchen" "s1" noon, .declare "s1" true none noon,
   .sample "s1" [⟨"kitchen-cam", "camera", "fresh", true, none⟩, ⟨"kitchen-pir", "pir", "fresh", false, none⟩] noon,
   .finish "s1" noon (some (2, .statement))]

def camera : String × String × String := ("kitchen-cam", CAP_PRESENCE, "kitchen")

theorem not_exact_of_held {base : Table} {s : System} {k : String × String × String} (seen due : ℕ × ℕ)
    (hheld : held s.reliability.seen k = seen)
    (hdue : held base k + evidence (finishedChecks s.sessions.seen) k = due) (hne : seen ≠ due) :
    ¬ Exact base s := by
  rintro ⟨h, -⟩
  exact hne (hheld.symm.trans ((h k).trans hdue))

/-- The retried `finish` succeeds with the camera's one check counted twice, and an abandonment
in its place leaves it in the store. -/
theorem retried_finish_counts_twice :
    (finish "s1" noon none (Run.finish step (init .empty) interrupted)).1.isOk = true ∧
      ¬ Exact .empty (Run.finish step (init .empty) (interrupted ++ [.finish "s1" noon none])) ∧
      ¬ Exact .empty (Run.finish step (init .empty) (interrupted ++ [.abandon "s1" noon none])) := by
  refine ⟨by decide +kernel, ?_, ?_⟩
  · exact not_exact_of_held (k := camera) (2, 2) (1, 1) (by decide +kernel) (by decide +kernel) (by decide +kernel)
  · exact not_exact_of_held (k := camera) (1, 1) (0, 0) (by decide +kernel) (by decide +kernel) (by decide +kernel)

end Wavr.Validation
