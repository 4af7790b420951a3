import Mathlib.Data.List.Sort
import Wavr.Dict
import Wavr.Events
import Wavr.Text

/-!
# What Wavr says of itself

`assess`: the findings about a running Core, and the state they come to.
-/

namespace Wavr.Runtime
open Fusion (roundHalfEven)
open Text

inductive State where
  | starting
  | healthy
  | updating
  | paused
  | degraded
  | attention
  | unavailable
  deriving DecidableEq

/-- `starting` is no severity. -/
def SEVERITY : List State := [.healthy, .updating, .paused, .degraded, .attention, .unavailable]

def STALE_AFTER_S : ℚ := 900

def DEAD_AFTER_S : ℚ := 3600

def STARTING_UNTIL_S : ℚ := 90

/-- What `_age_s` is given: nothing, a `datetime` in UTC, or anything else as `str` shows it. -/
inductive Stamp where
  | absent
  | moment (utc : ℚ)
  | text (s : String)

/-- A slot of a sentence. -/
inductive Arg where
  | number (n : ℕ)
  | seconds (s : ℚ)

structure Finding where
  key : String
  state : State
  textTemplate : String := ""
  textArgs : List (String × Arg) := []
  detail : String := ""

/-- A row of the sensor coverage, its health as `str` shows it. -/
structure Row where
  sensorId : Option String
  health : String

structure Inputs where
  uptimeS : Option ℚ := none
  lastStateAt : Stamp := .absent
  spaceName : String := ""
  role : String := ""
  coverageRows : List Row := []
  sourceStates : Dict String String := .empty
  nodes : ℕ := 0
  egressConnectors : List String := []
  sensingPaused : Bool := false
  updating : Bool := false
  dbOk : Bool := true
  now : ℚ

structure RuntimeStatus where
  state : State
  headline : String
  headlineTemplate : String
  space : String
  findings : List Finding
  uptimeS : Option ℚ
  lastStateAgeS : Option ℚ
  role : String

/-! ## Sentences -/

def plural (n : ℤ) : String := if n = 1 then "" else "s"

/-- A duration the way somebody says it. -/
def human (seconds : ℚ) : String :=
  let s := seconds.floor
  if s < 60 then toString s ++ " second" ++ plural s
  else if s < 3600 then toString (s / 60) ++ " minute" ++ plural (s / 60)
  else if s < 86400 then toString (s / 3600) ++ " hour" ++ plural (s / 3600)
  else toString (s / 86400) ++ " day" ++ plural (s / 86400)

/-- One arm of `one|many`, by the count. -/
def arm (template : String) (args : List (String × Arg)) : String :=
  let cs := template.toList
  if '|' ∈ cs then
    match args.lookup "n" with
    | some (.number 1) => String.ofList (before '|' cs)
    | _ => String.ofList (after '|' cs)
  else template

/-- A slot filled; no sentence has a slot for bare seconds. -/
def fillSlot (text : String) : String × Arg → String
  | (key, .number n) => text.replace ("\x7b" ++ key ++ "\x7d") (toString n)
  | ("age_s", .seconds s) => text.replace "{age}" (human s)
  | (_, .seconds _) => text

def fill (template : String) (args : List (String × Arg)) : String := args.foldl fillSlot (arm template args)

def Finding.text (f : Finding) : String := fill f.textTemplate f.textArgs

def STATE_STARTING_TEXT : String := "Wavr has just started and has not worked out any room yet."

def STATE_NO_READING : String :=
  "Wavr has not worked out the state of any room. Nothing it can see is producing readings."

def STATE_DEAD : String := "No room reading for {age}. Treat Wavr as not running until this clears."

def STATE_STALE : String := "The last room reading was {age} ago. Wavr is up but it is not learning anything new."

def STATE_FRESH : String := "Rooms updated {age} ago."

def SENSORS_NONE : String := "No sensor is reporting. Wavr cannot see anything right now."

def SENSORS_OFFLINE : String := "{n} of {total} sensors are not reporting."

def SENSORS_UNKNOWN : String := "Wavr cannot tell whether {n} of {total} sensors are working."

def SENSORS_ALL_OFF : String := "Every sensor is switched off. Wavr is running and watching nothing."

def SENSORS_OK : String := "{n} sensor reporting.|{n} sensors reporting."

def SOURCES_STOPPED : String := "{n} input stopped and Wavr is retrying.|{n} inputs stopped and Wavr is retrying."

def STORAGE_BAD : String := "Wavr cannot write to its database. Nothing is being recorded."

def SENSING_PAUSED_TEXT : String := "Sensing is paused. Wavr is running and deliberately not watching."

def UPDATE_RUNNING : String := "An update is in progress."

def EGRESS_ON : String :=
  "{n} connection to the outside is switched on.|{n} connections to the outside are switched on."

def NODES_PAIRED : String := "{n} sensor node paired.|{n} sensor nodes paired."

/-! ## Findings -/

/-- Seconds since a stamp, by `fromisoformat` in UTC. -/
def ageS (fromisoformat : String → Option ℚ) (now : ℚ) : Stamp → Option ℚ
  | .absent => none
  | .moment utc => some (max 0 (now - utc))
  | .text s => if s = "" then none else (fromisoformat s).map fun utc => max 0 (now - utc)

def Inputs.starting (i : Inputs) : Bool := i.uptimeS.any (· < STARTING_UNTIL_S)

/-- Whether this Core has produced anything. -/
def stateFinding (starting : Bool) : Option ℚ → Finding
  | none =>
    if starting then ⟨"state", .starting, STATE_STARTING_TEXT, [], ""⟩
    else ⟨"state", .attention, STATE_NO_READING, [], "no fusion output since this Core started"⟩
  | some age =>
    let detail := "last fusion output " ++ toString (roundHalfEven age) ++ "s ago"
    if DEAD_AFTER_S ≤ age then ⟨"state", .unavailable, STATE_DEAD, [("age_s", .seconds age)], detail⟩
    else if STALE_AFTER_S ≤ age then ⟨"state", .degraded, STATE_STALE, [("age_s", .seconds age)], detail⟩
    else ⟨"state", .healthy, STATE_FRESH, [("age_s", .seconds age)], ""⟩

def Row.offline (r : Row) : Bool := r.health ∈ ["offline", "silent", "failed"]

def Row.disabled (r : Row) : Bool := r.health = "disabled"

def Row.unknown (r : Row) : Bool := r.health = "unknown"

/-- `str(r.get("sensor_id") or "?")`. -/
def Row.name (r : Row) : String := (r.sensorId.filter (· ≠ "")).getD "?"

/-- Sensors, counted from what observes them. -/
def sensorFinding (rows : List Row) : Finding :=
  let offline := rows.filter Row.offline
  let disabled := rows.filter Row.disabled
  let unknown := rows.filter Row.unknown
  let live := rows.length - offline.length - disabled.length - unknown.length
  if offline ≠ [] ∧ live = 0 then
    ⟨"sensors", .attention, SENSORS_NONE, [],
      toString offline.length ++ " of " ++ toString rows.length ++ " not reporting"⟩
  else if offline ≠ [] then
    ⟨"sensors", .degraded, SENSORS_OFFLINE, [("n", .number offline.length), ("total", .number rows.length)],
      ", ".intercalate (offline.map Row.name)⟩
  else if unknown ≠ [] then
    ⟨"sensors", .degraded, SENSORS_UNKNOWN, [("n", .number unknown.length), ("total", .number rows.length)],
      ", ".intercalate (unknown.map Row.name)⟩
  else if live = 0 then
    ⟨"sensors", .paused, SENSORS_ALL_OFF, [],
      toString disabled.length ++ " of " ++ toString rows.length ++ " switched off"⟩
  else ⟨"sensors", .healthy, SENSORS_OK, [("n", .number live)], ""⟩

def sensorFindings (rows : List Row) : List Finding := if rows = [] then [] else [sensorFinding rows]

/-- The sources that the supervisor says have stopped. -/
def broken (sources : Dict String String) : List String :=
  ((sources.entries.filter fun e => e.2 = "failed" ∨ e.2 = "silent").map Prod.fst).insertionSort (· ≤ ·)

def sourceFindings (sources : Dict String String) : List Finding :=
  if broken sources = [] then []
  else [⟨"sources", .degraded, SOURCES_STOPPED, [("n", .number (broken sources).length)],
    ", ".intercalate (broken sources)⟩]

/-- What is there only when a flag says so. -/
def flagFindings (i : Inputs) : List Finding :=
  (if i.dbOk then [] else [⟨"storage", .attention, STORAGE_BAD, [], "storage check failed"⟩]) ++
    (if i.sensingPaused then [⟨"sensing", .paused, SENSING_PAUSED_TEXT, [], ""⟩] else []) ++
    if i.updating then [⟨"update", .updating, UPDATE_RUNNING, [], ""⟩] else []

/-- What is no health, but must be seen. -/
def plainFindings (i : Inputs) : List Finding :=
  (if i.egressConnectors = [] then []
    else [⟨"egress", .healthy, EGRESS_ON, [("n", .number i.egressConnectors.length)],
      ", ".intercalate i.egressConnectors⟩]) ++
    if i.nodes = 0 then [] else [⟨"nodes", .healthy, NODES_PAIRED, [("n", .number i.nodes)], ""⟩]

/-- All findings but the one about the readings. -/
def otherFindings (i : Inputs) : List Finding :=
  sensorFindings i.coverageRows ++ (sourceFindings i.sourceStates ++ (flagFindings i ++ plainFindings i))

/-! ## The state -/

def rank (s : State) : ℕ := SEVERITY.idxOf s

def worst (states : List State) : State :=
  states.foldl (fun worst s => if rank worst < rank s then s else worst) .healthy

/-- The label of a bad state. -/
def State.label : State → String
  | .starting => "starting"
  | .healthy => "healthy"
  | .updating => "updating"
  | .paused => "paused"
  | .degraded => "degraded"
  | .attention => "needs attention"
  | .unavailable => "not running"

def headlineTemplate : State → String
  | .healthy => "Wavr — running · {space} · everything reporting"
  | .starting => "Wavr — starting · {space}"
  | .paused => "Wavr — running · {space} · sensing paused"
  | .updating => "Wavr — updating · {space}"
  | .degraded => "Wavr — degraded · {space}"
  | .attention => "Wavr — needs attention · {space}"
  | .unavailable => "Wavr — not running · {space}"

def headline (state : State) (space : String) (findings : List Finding) : String :=
  let place := if space = "" then "" else " · " ++ space
  match state with
  | .healthy => "Wavr — running" ++ place ++ " · everything reporting"
  | .starting => "Wavr — starting" ++ place
  | .paused => "Wavr — running" ++ place ++ " · sensing paused"
  | .updating => "Wavr — updating" ++ place
  | bad =>
    "Wavr — " ++ bad.label ++ place ++
      match findings.find? fun f => f.state = bad with
      | some f => " · " ++ f.text
      | none => ""

section
variable (fromisoformat : String → Option ℚ)

def assess (i : Inputs) : RuntimeStatus :=
  let age := ageS fromisoformat i.now i.lastStateAt
  let findings := stateFinding i.starting age :: otherFindings i
  let state := worst ((findings.map Finding.state).filter (· ≠ .starting))
  -- a Core that has just come up has not failed
  let state := if i.starting ∧ age = none ∧ state ≠ .unavailable then .starting else state
  { state := state
    headline := headline state i.spaceName findings
    headlineTemplate := if i.spaceName = "" then headline state "" findings else headlineTemplate state
    space := i.spaceName
    findings := findings
    uptimeS := i.uptimeS
    lastStateAgeS := age
    role := i.role }

end

/-! ## Statements -/

/-- The worst of some severities; of none, that all is well. -/
structure IsWorst (states : List State) (s : State) : Prop where
  mem : s = .healthy ∨ s ∈ states
  le : ∀ t ∈ states, rank t ≤ rank s

/-- How bad a state is; to be starting is nothing bad. -/
def badness (s : State) : ℕ := if s = .starting then 0 else rank s

def RuntimeStatus.severities (st : RuntimeStatus) : List State :=
  (st.findings.map Finding.state).filter (· ≠ .starting)

/-- A row is there with its sensor offline, where there was none or one in any state. -/
def OneMoreOffline (rows rows' : List Row) : Prop :=
  ∃ front o back, o.offline = true ∧ rows' = front ++ o :: back ∧
    (rows = front ++ back ∨ ∃ r, rows = front ++ r :: back)

section
variable (fromisoformat : String → Option ℚ)

def NoReadingYet (i : Inputs) : Prop := i.starting = true ∧ ageS fromisoformat i.now i.lastStateAt = none

/-- The state hides no fault. -/
structure Truthful (i : Inputs) : Prop where
  /-- The worst finding is reported; while there is no reading yet, starting instead of healthy. -/
  worst : ∃ s, IsWorst (assess fromisoformat i).severities s ∧
    (NoReadingYet fromisoformat i ∧ s = .healthy → (assess fromisoformat i).state = .starting) ∧
    (¬ (NoReadingYet fromisoformat i ∧ s = .healthy) → (assess fromisoformat i).state = s)
  storage : i.dbOk = false → (assess fromisoformat i).state ≠ .starting ∧ (assess fromisoformat i).state ≠ .healthy
  sensors : ∀ rows, OneMoreOffline i.coverageRows rows →
    badness (assess fromisoformat i).state ≤ badness (assess fromisoformat { i with coverageRows := rows }).state
  sources : ∀ k, badness (assess fromisoformat i).state ≤
    badness (assess fromisoformat { i with sourceStates := i.sourceStates.set k "failed" }).state

end

/-- Nothing but a missing reading is wrong. -/
structure AllWell (i : Inputs) : Prop where
  reporting : ∀ r ∈ i.coverageRows, r.offline = false ∧ r.unknown = false
  watching : i.coverageRows ≠ [] → ∃ r ∈ i.coverageRows, r.disabled = false
  running : broken i.sourceStates = []
  storage : i.dbOk = true
  sensing : i.sensingPaused = false
  settled : i.updating = false

/-! ## The worst -/

section
variable {states states' : List State} {s t : State}

theorem isWorst_worst (states : List State) : IsWorst states (worst states) := by
  have hfold : ∀ (states : List State) (w : State),
      (states.foldl (fun worst s => if rank worst < rank s then s else worst) w = w ∨
        states.foldl (fun worst s => if rank worst < rank s then s else worst) w ∈ states) ∧
      rank w ≤ rank (states.foldl (fun worst s => if rank worst < rank s then s else worst) w) ∧
      ∀ t ∈ states, rank t ≤ rank (states.foldl (fun worst s => if rank worst < rank s then s else worst) w) := by
    intro states
    induction states with
    | nil => exact fun w => ⟨.inl rfl, le_rfl, by simp⟩
    | cons s states ih =>
      intro w
      rw [List.foldl_cons]
      by_cases hlt : rank w < rank s
      · rw [if_pos hlt]
        obtain ⟨hmem, hle, hall⟩ := ih s
        exact ⟨.inr (List.mem_cons.mpr hmem), hlt.le.trans hle,
          List.forall_mem_cons.mpr ⟨hle, hall⟩⟩
      · rw [if_neg hlt]
        obtain ⟨hmem, hle, hall⟩ := ih w
        exact ⟨hmem.imp_right (List.mem_cons_of_mem s), hle,
          List.forall_mem_cons.mpr ⟨(not_lt.mp hlt).trans hle, hall⟩⟩
  obtain ⟨hmem, -, hall⟩ := hfold states .healthy
  exact ⟨hmem, hall⟩

theorem rank_injective (h : rank s = rank t) : s = t := by
  cases s <;> cases t <;> first | rfl | exact absurd h (by decide)

theorem IsWorst.eq (h : IsWorst states s) (h' : IsWorst states t) : s = t := by
  refine rank_injective (le_antisymm ?_ ?_)
  · rcases h.mem with rfl | hmem
    · exact Nat.zero_le _
    · exact h'.le s hmem
  · rcases h'.mem with rfl | hmem
    · exact Nat.zero_le _
    · exact h.le t hmem

/-- Where every severity has one as bad, the worst is as bad. -/
theorem rank_worst_le (h : ∀ s ∈ states, ∃ t ∈ states', rank s ≤ rank t) :
    rank (worst states) ≤ rank (worst states') := by
  rcases (isWorst_worst states).mem with heq | hmem
  · rw [heq]
    exact Nat.zero_le _
  · obtain ⟨t, ht, hle⟩ := h _ hmem
    exact hle.trans ((isWorst_worst states').le t ht)

end

/-! ## Sensors and sources -/

def Row.live (r : Row) : Bool := !r.offline && !r.disabled && !r.unknown

theorem live_eq (rows : List Row) : rows.length - (rows.filter Row.offline).length -
    (rows.filter Row.disabled).length - (rows.filter Row.unknown).length = (rows.filter Row.live).length := by
  have hsum : rows.length = (rows.filter Row.offline).length + (rows.filter Row.disabled).length +
      (rows.filter Row.unknown).length + (rows.filter Row.live).length := by
    induction rows with
    | nil => rfl
    | cons r rows ih =>
      have hone : (if r.offline then 1 else 0) + (if r.disabled then 1 else 0) + (if r.unknown then 1 else 0) +
          (if r.live then 1 else 0) = 1 := by
        simp only [Row.live, Row.offline, Row.disabled, Row.unknown]
        by_cases hd : r.health = "disabled"
        · simp [hd]
        · by_cases hu : r.health = "unknown"
          · simp [hu]
          · by_cases ho : r.health ∈ ["offline", "silent", "failed"] <;> simp [hd, hu, ho]
      have hcount : ∀ p : Row → Bool,
          ((r :: rows).filter p).length = (if p r then 1 else 0) + (rows.filter p).length := by
        intro p
        rw [List.filter_cons]
        split
        · rw [List.length_cons, add_comm]
        · rw [zero_add]
      rw [hcount, hcount, hcount, hcount, List.length_cons]
      omega
  omega

/-- The state of the sensors, by what rows there are. -/
theorem sensorFinding_state (rows : List Row) : (sensorFinding rows).state =
    if rows.any Row.offline then (if rows.any Row.live then .degraded else .attention)
    else if rows.any Row.unknown then .degraded
    else if rows.any Row.live then .healthy else .paused := by
  have hany : ∀ p : Row → Bool, rows.any p = true ↔ rows.filter p ≠ [] := by
    intro p
    simp [List.filter_eq_nil_iff]
  have hnone : (rows.filter Row.live).length = 0 ↔ ¬ rows.any Row.live = true := by
    rw [hany, List.length_eq_zero_iff, not_not]
  rw [sensorFinding]
  simp only [live_eq, hnone, ← hany]
  by_cases ho : rows.any Row.offline = true <;> by_cases hl : rows.any Row.live = true <;>
    by_cases hu : rows.any Row.unknown = true <;> simp [ho, hl, hu]

theorem rank_sensorFinding_le {rows rows' : List Row} (h : OneMoreOffline rows rows') :
    rank (sensorFinding rows).state ≤ rank (sensorFinding rows').state := by
  obtain ⟨front, o, back, ho, rfl, hrows⟩ := h
  have hnot : o.live = false := by simp [Row.live, ho]
  have hoffline : (front ++ o :: back).any Row.offline = true := by simp [ho]
  have hlive : (front ++ o :: back).any Row.live = true → rows.any Row.live = true := by
    intro hlive
    obtain ⟨x, hx, hl⟩ := List.any_eq_true.mp hlive
    have hne : x ≠ o := by
      rintro rfl
      rw [hnot] at hl
      cases hl
    have hrest : x ∈ front ∨ x ∈ back := by simpa [hne] using hx
    refine List.any_eq_true.mpr ⟨x, ?_, hl⟩
    rcases hrows with rfl | ⟨r, rfl⟩
    · simpa using hrest
    · rcases hrest with hmem | hmem <;> simp [hmem]
  rw [sensorFinding_state, sensorFinding_state, if_pos hoffline]
  by_cases hl : (front ++ o :: back).any Row.live = true
  · rw [if_pos hl, if_pos (hlive hl)]
    split_ifs <;> decide
  · rw [if_neg hl]
    split_ifs <;> decide

/-- No row is missing, and of those there are the sensors do no worse. -/
theorem sensorFindings_le {rows rows' : List Row} (h : OneMoreOffline rows rows') :
    ∀ f ∈ sensorFindings rows, ∃ f' ∈ sensorFindings rows', f'.state ≠ .starting ∧
      rank f.state ≤ rank f'.state := by
  intro f hf
  have hne : rows' ≠ [] := by
    obtain ⟨front, o, back, -, rfl, -⟩ := h
    simp
  have hle := rank_sensorFinding_le h
  rw [sensorFindings] at hf
  split at hf
  · cases hf
  · rw [List.mem_singleton] at hf
    refine ⟨sensorFinding rows', by rw [sensorFindings, if_neg hne]; exact List.mem_singleton_self _, ?_, hf ▸ hle⟩
    rw [sensorFinding_state]
    split_ifs <;> decide

theorem mem_broken {sources : Dict String String} {k : String} :
    k ∈ broken sources ↔ ∃ v, sources.get? k = some v ∧ (v = "failed" ∨ v = "silent") := by
  rw [broken, List.mem_insertionSort, List.mem_map]
  constructor
  · rintro ⟨e, he, rfl⟩
    obtain ⟨hmem, hv⟩ := List.mem_filter.mp he
    exact ⟨e.2, Dict.mem_entries.mp hmem, by simpa using hv⟩
  · rintro ⟨v, hget, hv⟩
    exact ⟨(k, v), List.mem_filter.mpr ⟨Dict.mem_entries.mpr hget, by simpa using hv⟩, rfl⟩

theorem sourceFindings_le {sources : Dict String String} (k : String) :
    ∀ f ∈ sourceFindings sources, ∃ f' ∈ sourceFindings (sources.set k "failed"),
      f'.state ≠ .starting ∧ rank f.state ≤ rank f'.state := by
  intro f hf
  have hne : broken (sources.set k "failed") ≠ [] := by
    have hk : k ∈ broken (sources.set k "failed") := mem_broken.mpr ⟨"failed", Dict.get?_set_self .., .inl rfl⟩
    exact List.ne_nil_of_mem hk
  rw [sourceFindings] at hf
  split at hf
  · cases hf
  · rw [List.mem_singleton] at hf
    rw [sourceFindings, if_neg hne, hf]
    exact ⟨_, List.mem_singleton_self _, nofun, le_rfl⟩

/-! ## The verdict -/

section
variable {fromisoformat : String → Option ℚ} {i : Inputs}

theorem stateFinding_of_reading (h : ¬ NoReadingYet fromisoformat i) :
    (stateFinding i.starting (ageS fromisoformat i.now i.lastStateAt)).state ≠ .starting := by
  rw [NoReadingYet, not_and] at h
  cases hage : ageS fromisoformat i.now i.lastStateAt with
  | none =>
    have hstarting : ¬ i.starting = true := fun hs => h hs hage
    simp [stateFinding, hstarting]
  | some age =>
    simp only [stateFinding]
    split_ifs <;> exact nofun

theorem stateFinding_of_none (h : NoReadingYet fromisoformat i) :
    (stateFinding i.starting (ageS fromisoformat i.now i.lastStateAt)).state = .starting := by
  rw [h.1, h.2]
  rfl

theorem mem_otherFindings {f : Finding} : f ∈ otherFindings i ↔
    f ∈ sensorFindings i.coverageRows ∨ f ∈ sourceFindings i.sourceStates ∨ f ∈ flagFindings i ∨
      f ∈ plainFindings i := by
  simp only [otherFindings, List.mem_append]

/-- What the other findings can be. -/
theorem otherFindings_state {f : Finding} (h : f ∈ otherFindings i) :
    f.state ≠ .starting ∧ f.state ≠ .unavailable := by
  rcases mem_otherFindings.mp h with h | h | h | h
  · rw [sensorFindings] at h
    split at h
    · cases h
    · rw [List.mem_singleton.mp h, sensorFinding_state]
      split_ifs <;> decide
  · rw [sourceFindings] at h
    split at h
    · cases h
    · rw [List.mem_singleton.mp h]
      exact ⟨nofun, nofun⟩
  · simp only [flagFindings, List.mem_append] at h
    rcases h with (h | h) | h <;> split at h <;> simp_all
  · simp only [plainFindings, List.mem_append] at h
    rcases h with h | h <;> split at h <;> simp_all

theorem mem_severities {s : State} : s ∈ (assess fromisoformat i).severities ↔
    s ≠ .starting ∧ (s = (stateFinding i.starting (ageS fromisoformat i.now i.lastStateAt)).state ∨
      ∃ f ∈ otherFindings i, f.state = s) := by
  have hfindings : (assess fromisoformat i).findings =
      stateFinding i.starting (ageS fromisoformat i.now i.lastStateAt) :: otherFindings i := rfl
  rw [RuntimeStatus.severities, hfindings, List.mem_filter, List.map_cons, List.mem_cons, List.mem_map, and_comm,
    decide_eq_true_eq]

theorem assess_state : (assess fromisoformat i).state =
    if i.starting = true ∧ ageS fromisoformat i.now i.lastStateAt = none ∧
      worst (assess fromisoformat i).severities ≠ .unavailable then .starting
    else worst (assess fromisoformat i).severities := rfl

/-- Before the first reading everything is called starting. -/
theorem assess_starting (h : NoReadingYet fromisoformat i) : (assess fromisoformat i).state = .starting := by
  have hne : worst (assess fromisoformat i).severities ≠ .unavailable := by
    intro heq
    rcases (isWorst_worst (assess fromisoformat i).severities).mem with hw | hmem
    · rw [hw] at heq
      cases heq
    · obtain ⟨hs, hstate | ⟨f, hf, hfs⟩⟩ := mem_severities.mp hmem
      · exact hs (hstate.trans (stateFinding_of_none h))
      · exact (otherFindings_state hf).2 (hfs.trans heq)
  rw [assess_state, if_pos ⟨h.1, h.2, hne⟩]

theorem assess_worst (h : ¬ NoReadingYet fromisoformat i) :
    (assess fromisoformat i).state = worst (assess fromisoformat i).severities := by
  rw [assess_state, if_neg fun hc => h ⟨hc.1, hc.2.1⟩]

theorem worst_ne_starting : worst (assess fromisoformat i).severities ≠ .starting := by
  rcases (isWorst_worst (assess fromisoformat i).severities).mem with hw | hmem
  · rw [hw]
    exact nofun
  · exact (mem_severities.mp hmem).1

/-- More faults, and the state is no better. -/
theorem badness_le {i' : Inputs} (hsame : i'.uptimeS = i.uptimeS ∧ i'.lastStateAt = i.lastStateAt ∧ i'.now = i.now)
    (hmore : ∀ f ∈ otherFindings i, ∃ f' ∈ otherFindings i', f'.state ≠ .starting ∧ rank f.state ≤ rank f'.state) :
    badness (assess fromisoformat i).state ≤ badness (assess fromisoformat i').state := by
  obtain ⟨hup, hlast, hnow⟩ := hsame
  have hstarting : i'.starting = i.starting := by rw [Inputs.starting, hup]; rfl
  by_cases h : NoReadingYet fromisoformat i
  · rw [assess_starting h]
    exact Nat.zero_le _
  · have h' : ¬ NoReadingYet fromisoformat i' := by rwa [NoReadingYet, hstarting, hlast, hnow]
    rw [assess_worst h, assess_worst h', badness, badness, if_neg worst_ne_starting, if_neg worst_ne_starting]
    refine rank_worst_le fun s hs => ?_
    obtain ⟨hne, hstate | ⟨f, hf, rfl⟩⟩ := mem_severities.mp hs
    · refine ⟨s, mem_severities.mpr ⟨hne, .inl ?_⟩, le_rfl⟩
      rw [hstarting, hlast, hnow]
      exact hstate
    · obtain ⟨f', hf', hne', hle⟩ := hmore f hf
      exact ⟨f'.state, mem_severities.mpr ⟨hne', .inr ⟨f', hf', rfl⟩⟩, hle⟩

theorem sensors_healthy_iff {rows : List Row} : (∀ f ∈ sensorFindings rows, f.state = .healthy) ↔
    (∀ r ∈ rows, r.offline = false ∧ r.unknown = false) ∧ (rows ≠ [] → ∃ r ∈ rows, r.disabled = false) := by
  by_cases hrows : rows = []
  · simp [sensorFindings, hrows]
  · rw [sensorFindings, if_neg hrows]
    simp only [List.mem_singleton, forall_eq, sensorFinding_state, ne_eq, hrows, not_false_eq_true, true_imp_iff]
    constructor
    · intro h
      have ho : ¬ rows.any Row.offline = true := fun ho => by
        rw [if_pos ho] at h
        split at h <;> cases h
      rw [if_neg ho] at h
      have hu : ¬ rows.any Row.unknown = true := fun hu => by
        rw [if_pos hu] at h
        cases h
      rw [if_neg hu] at h
      have hl : rows.any Row.live = true := by
        by_contra hl
        rw [if_neg hl] at h
        cases h
      have hall : ∀ r ∈ rows, r.offline = false ∧ r.unknown = false := fun r hr =>
        ⟨by simpa using fun h => ho (List.any_eq_true.mpr ⟨r, hr, h⟩),
          by simpa using fun h => hu (List.any_eq_true.mpr ⟨r, hr, h⟩)⟩
      obtain ⟨r, hr, hlive⟩ := List.any_eq_true.mp hl
      refine ⟨hall, r, hr, ?_⟩
      simp only [Row.live, Bool.and_eq_true, Bool.not_eq_true'] at hlive
      exact hlive.1.2
    · rintro ⟨hall, r, hr, hd⟩
      have ho : ¬ rows.any Row.offline = true := by simpa using fun r hr => (hall r hr).1
      have hu : ¬ rows.any Row.unknown = true := by simpa using fun r hr => (hall r hr).2
      have hl : rows.any Row.live = true := List.any_eq_true.mpr ⟨r, hr, by simp [Row.live, hd, hall r hr]⟩
      rw [if_neg ho, if_neg hu, if_pos hl]

theorem others_healthy_iff : (∀ f ∈ otherFindings i, f.state = .healthy) ↔ AllWell i := by
  have hsources : (∀ f ∈ sourceFindings i.sourceStates, f.state = .healthy) ↔ broken i.sourceStates = [] := by
    by_cases hb : broken i.sourceStates = [] <;> simp [sourceFindings, hb]
  have hflags : (∀ f ∈ flagFindings i, f.state = .healthy) ↔
      i.dbOk = true ∧ i.sensingPaused = false ∧ i.updating = false := by
    cases hdb : i.dbOk <;> cases hp : i.sensingPaused <;> cases hu : i.updating <;>
      simp [flagFindings, hdb, hp, hu]
  have hplain : ∀ f ∈ plainFindings i, f.state = .healthy := by
    intro f hf
    simp only [plainFindings, List.mem_append] at hf
    rcases hf with hf | hf <;> split at hf <;> simp_all
  constructor
  · intro h
    obtain ⟨hreporting, hwatching⟩ := sensors_healthy_iff.mp fun f hf => h f (mem_otherFindings.mpr (.inl hf))
    obtain ⟨hdb, hpaused, hupdating⟩ := hflags.mp fun f hf => h f (mem_otherFindings.mpr (.inr (.inr (.inl hf))))
    exact ⟨hreporting, hwatching, hsources.mp fun f hf => h f (mem_otherFindings.mpr (.inr (.inl hf))), hdb,
      hpaused,
      hupdating⟩
  · intro h f hf
    rcases mem_otherFindings.mp hf with hf | hf | hf | hf
    · exact sensors_healthy_iff.mpr ⟨h.reporting, h.watching⟩ f hf
    · exact hsources.mpr h.running f hf
    · exact hflags.mpr ⟨h.storage, h.sensing, h.settled⟩ f hf
    · exact hplain f hf

/-- Before the first reading the worst of the rest is healthy exactly if nothing else is wrong. -/
theorem isWorst_healthy_iff (h : NoReadingYet fromisoformat i) :
    IsWorst (assess fromisoformat i).severities .healthy ↔ AllWell i := by
  rw [← others_healthy_iff]
  constructor
  · intro hworst f hf
    have hle := hworst.le f.state (mem_severities.mpr ⟨(otherFindings_state hf).1, .inr ⟨f, hf, rfl⟩⟩)
    exact rank_injective (Nat.le_zero.mp hle)
  · intro hall
    refine ⟨.inl rfl, fun t ht => ?_⟩
    obtain ⟨hne, hstate | ⟨f, hf, rfl⟩⟩ := mem_severities.mp ht
    · exact absurd (hstate.trans (stateFinding_of_none h)) hne
    · rw [hall f hf]

theorem sensors_truthful (rows : List Row) (h : OneMoreOffline i.coverageRows rows) :
    badness (assess fromisoformat i).state ≤ badness (assess fromisoformat { i with coverageRows := rows }).state := by
  refine badness_le ⟨rfl, rfl, rfl⟩ fun f hf => ?_
  rcases mem_otherFindings.mp hf with hs | hrest
  · obtain ⟨f', hf', hle⟩ := sensorFindings_le h f hs
    exact ⟨f', mem_otherFindings.mpr (.inl hf'), hle⟩
  · exact ⟨f, mem_otherFindings.mpr (.inr hrest), (otherFindings_state hf).1, le_rfl⟩

theorem sources_truthful (k : String) : badness (assess fromisoformat i).state ≤
    badness (assess fromisoformat { i with sourceStates := i.sourceStates.set k "failed" }).state := by
  refine badness_le ⟨rfl, rfl, rfl⟩ fun f hf => ?_
  rcases mem_otherFindings.mp hf with hs | hs | hrest
  · exact ⟨f, mem_otherFindings.mpr (.inl hs), (otherFindings_state hf).1, le_rfl⟩
  · obtain ⟨f', hf', hle⟩ := sourceFindings_le k f hs
    exact ⟨f', mem_otherFindings.mpr (.inr (.inl hf')), hle⟩
  · exact ⟨f, mem_otherFindings.mpr (.inr (.inr hrest)), (otherFindings_state hf).1, le_rfl⟩

theorem storage_truthful (h : ¬ NoReadingYet fromisoformat i) (hdb : i.dbOk = false) :
    (assess fromisoformat i).state ≠ .starting ∧ (assess fromisoformat i).state ≠ .healthy := by
  rw [assess_worst h]
  refine ⟨worst_ne_starting, fun heq => ?_⟩
  have hmem : Finding.mk "storage" .attention STORAGE_BAD [] "storage check failed" ∈ otherFindings i := by
    refine mem_otherFindings.mpr (.inr (.inr (.inl ?_)))
    simp [flagFindings, hdb]
  have hle := (isWorst_worst (assess fromisoformat i).severities).le .attention
    (mem_severities.mpr ⟨nofun, .inr ⟨_, hmem, rfl⟩⟩)
  rw [heq] at hle
  exact absurd hle (by decide)

/-- The state is the worst of the findings exactly if, before the first reading, nothing else is wrong. -/
theorem assess_truthful_iff (fromisoformat : String → Option ℚ) (i : Inputs) :
    Truthful fromisoformat i ↔ (NoReadingYet fromisoformat i → AllWell i) := by
  constructor
  · intro h hphase
    obtain ⟨s, hworst, -, hstate⟩ := h.worst
    rw [← isWorst_healthy_iff hphase]
    by_cases hs : s = .healthy
    · exact hs ▸ hworst
    · have hstarting := (hstate fun hc => hs hc.2).symm.trans (assess_starting hphase)
      rcases hworst.mem with hw | hmem
      · exact absurd hw hs
      · exact absurd hstarting (mem_severities.mp hmem).1
  · intro h
    by_cases hphase : NoReadingYet fromisoformat i
    · have hwell := h hphase
      refine ⟨⟨.healthy, (isWorst_healthy_iff hphase).mpr hwell, fun _ => assess_starting hphase,
        fun hnot => absurd ⟨hphase, rfl⟩ hnot⟩, fun hdb => ?_, sensors_truthful, sources_truthful⟩
      rw [hwell.storage] at hdb
      cases hdb
    · exact ⟨⟨_, isWorst_worst _, fun hc => absurd hc.1 hphase, fun _ => assess_worst hphase⟩,
        storage_truthful hphase, sensors_truthful, sources_truthful⟩

/-- Ten seconds up, no reading yet, and the database cannot be written. -/
def unwritable : Inputs := { uptimeS := some 10, dbOk := false, now := 0 }

theorem unwritable_is_starting : ¬ Truthful (fun _ => none) unwritable := by
  intro h
  exact (h.storage rfl).1 (by decide)

end

end Wavr.Runtime
