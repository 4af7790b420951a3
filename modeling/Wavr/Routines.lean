import Mathlib.Algebra.Order.Ring.Rat
import Mathlib.Data.List.Sort
import Mathlib.Data.PNat.Defs
import Wavr.Dict
import Wavr.Pass
import Wavr.Text

/-!
# Routines

`RoutineStore` and the two parts of `RoutinesEngine` that remember what they have returned: the time
triggers of the tick, and the `no_motion` routines.
-/

namespace Wavr.Routines
open Pass Text

/-- `HH:MM`, as it is parsed when a routine is written. -/
structure TimeOfDay where
  hour : Fin 24
  minute : Fin 60
  deriving DecidableEq

/-- A local time: its day, counted, and the microseconds since midnight. -/
structure Datetime where
  date : ℤ
  micros : ℕ
  deriving DecidableEq

instance : LE Datetime := ⟨fun a b => a.date < b.date ∨ a.date = b.date ∧ a.micros ≤ b.micros⟩

instance (a b : Datetime) : Decidable (a ≤ b) := inferInstanceAs (Decidable (_ ∨ _))

/-- The trigger of a routine with its params. -/
inductive Trigger
  | schedule (time : TimeOfDay)
  | houseAwayByTime (time : TimeOfDay)
  | noMotion (room : String) (minutes : ℕ+)
  /-- The kinds that wait for an edge. -/
  | edge (kind param : String)
  deriving DecidableEq

/-- The condition `{"house": ...}`, the only one there is. -/
inductive House
  | home
  | away
  deriving DecidableEq

structure Routine where
  name : String
  enabled : Bool
  trigger : Trigger
  condition : Option House
  lastFired : Option String
  deriving DecidableEq

/-- The table by id. The version is kept in memory. -/
structure RoutineStore where
  rows : Dict String Routine
  version : ℕ
  deriving DecidableEq

/-- What `sensing_on` and `house_home` return. -/
structure Env where
  sensingOn : Bool
  houseHome : Option Bool
  deriving DecidableEq

/-- `datetime.isoformat` and `datetime.fromisoformat`, which may raise. -/
structure Platform where
  isoformat : Datetime → String
  fromisoformat : String → Option Datetime

/-- A time is read back from what is written of it, which is not the empty text. -/
structure Platform.Inverts (pf : Platform) (t : Datetime) : Prop where
  fromisoformat_isoformat : pf.fromisoformat (pf.isoformat t) = some t
  truthy_isoformat : truthy (pf.isoformat t) = true

structure RoutinesEngine where
  firedDay : Dict String ℤ
  /-- By id, the room a routine fired in. -/
  stillnessLatched : Dict String String
  nmCache : List (String × Routine)
  nmCacheVer : Option ℕ
  deriving DecidableEq

def newEngine : RoutinesEngine := ⟨.empty, .empty, [], none⟩

/-! ## The store -/

/-- A routine that passed the checks is written, its times and whether it is enabled as they are. -/
def update (rid name : String) (trigger : Trigger) (condition : Option House) (s : RoutineStore) :
    RoutineStore where
  rows := s.rows.map fun k r => if k = rid then { r with name, trigger, condition } else r
  version := s.version + 1

def setEnabled (rid : String) (on : Bool) (s : RoutineStore) : RoutineStore where
  rows := s.rows.map fun k r => if k = rid then { r with enabled := on } else r
  version := s.version + 1

def markFired (rid when : String) (s : RoutineStore) : RoutineStore :=
  { s with rows := s.rows.map fun k r => if k = rid then { r with lastFired := some when } else r }

def delete (rid : String) (s : RoutineStore) : RoutineStore where
  rows := s.rows.erase rid
  version := s.version + 1

/-- What the routes change of a routine. -/
inductive Edit
  | update (rid name : String) (trigger : Trigger) (condition : Option House)
  | setEnabled (rid : String) (on : Bool)
  | delete (rid : String)

def applyEdit (s : RoutineStore) : Edit → RoutineStore
  | .update rid name trigger condition => update rid name trigger condition s
  | .setEnabled rid on => setEnabled rid on s
  | .delete rid => delete rid s

/-- `ORDER BY name, id`. -/
def list (s : RoutineStore) : List (String × Routine) :=
  s.rows.entries.insertionSort fun a b => a.2.name < b.2.name ∨ a.2.name = b.2.name ∧ a.1 ≤ b.1

/-! ## The engine -/

def enabledRows (s : RoutineStore) : List (String × Routine) := (list s).filter (·.2.enabled)

def isNoMotion : Trigger → Bool
  | .noMotion .. => true
  | _ => false

/-- Read again where the version is another one. -/
def noMotionEnabled (s : RoutineStore) (e : RoutinesEngine) : List (String × Routine) × RoutinesEngine :=
  if e.nmCacheVer ≠ some s.version then
    let rs := (list s).filter fun r => r.2.enabled && isNoMotion r.2.trigger
    (rs, { e with nmCache := rs, nmCacheVer := some s.version })
  else (e.nmCache, e)

/-- `none` where the house cannot tell. -/
def conditionOk (env : Env) (r : Routine) : Option Bool :=
  match r.condition with
  | none => some true
  | some house =>
    if ¬ env.sensingOn then none
    else env.houseHome.map fun home => home == (house == .home)

/-- One `no_motion` routine at a report of more than zero. -/
def stillOne (room : String) (elapsed : ℚ) (env : Env) (x : String × Routine) (e : RoutinesEngine) :
    Bool × RoutinesEngine :=
  match x.2.trigger with
  | .noMotion room' minutes =>
    if room' ≠ room ∨ (e.stillnessLatched.get? x.1).isSome then (false, e)
    else if elapsed < (minutes : ℕ) * 60 then (false, e)
    else if conditionOk env x.2 ≠ some true then (false, e)
    else (true, { e with stillnessLatched := e.stillnessLatched.set x.1 room })
  | _ => (false, e)

def onStillness (room : String) (elapsed : ℚ) (env : Env) (s : RoutineStore) (e : RoutinesEngine) :
    List (String × Routine) × RoutinesEngine :=
  if elapsed ≤ 0 then
    ([], { e with stillnessLatched := e.stillnessLatched.filter fun _ rm => rm ≠ room })
  else
    let (rs, e) := noMotionEnabled s e
    collect (stillOne room elapsed env) rs e

def reached (now : Datetime) (hhmm : TimeOfDay) : Bool :=
  (hhmm.hour.val * 60 + hhmm.minute.val) * 60000000 ≤ now.micros

variable (pf : Platform)

/-- The day of `last_fired`. -/
def lastDay (r : Routine) : Option ℤ :=
  ((r.lastFired.filter (truthy ·)).bind pf.fromisoformat).map Datetime.date

def once (x : String × Routine) (now : Datetime) (e : RoutinesEngine) : Bool × RoutinesEngine :=
  if e.firedDay.get? x.1 = some now.date then (false, e)
  else
    let e := { e with firedDay := e.firedDay.set x.1 now.date }
    if lastDay pf x.2 = some now.date then (false, e) else (true, e)

/-- The checks in front of `once`. -/
def gates (now : Datetime) (env : Env) (houseHome : Option Bool) (r : Routine) : Bool :=
  match r.trigger with
  | .schedule time => reached now time && conditionOk env r = some true
  | .houseAwayByTime time =>
    env.sensingOn && houseHome = some false && reached now time && conditionOk env r = some true
  | _ => false

def tickOne (now : Datetime) (env : Env) (houseHome : Option Bool) (x : String × Routine)
    (e : RoutinesEngine) : Bool × RoutinesEngine :=
  if gates now env houseHome x.2 then once pf x now e else (false, e)

def tick (now : Datetime) (env : Env) (houseHome : Option Bool) (s : RoutineStore) (e : RoutinesEngine) :
    List (String × Routine) × RoutinesEngine :=
  collect (tickOne pf now env houseHome) (enabledRows s) e

/-! ## What the store does to one routine -/

section
variable {pf} {s : RoutineStore} {e : RoutinesEngine} {rid rid' : String} {x : String × Routine}

theorem get?_rows_update (rid name : String) (trigger : Trigger) (condition : Option House) :
    (update rid name trigger condition s).rows.get? rid' =
      (s.rows.get? rid').map fun r => if rid' = rid then { r with name, trigger, condition } else r :=
  Dict.get?_map _ _ _

theorem get?_rows_setEnabled (rid : String) (on : Bool) : (setEnabled rid on s).rows.get? rid' =
    (s.rows.get? rid').map fun r => if rid' = rid then { r with enabled := on } else r :=
  Dict.get?_map _ _ _

theorem get?_rows_markFired (rid when : String) : (markFired rid when s).rows.get? rid' =
    (s.rows.get? rid').map fun r => if rid' = rid then { r with lastFired := some when } else r :=
  Dict.get?_map _ _ _

theorem get?_rows_delete (rid : String) : (delete rid s).rows.get? rid' =
    if rid' = rid then none else s.rows.get? rid' :=
  Dict.get?_erase _ _ _

theorem mem_list : x ∈ list s ↔ s.rows.get? x.1 = some x.2 := by
  rw [list, List.mem_insertionSort]
  exact Dict.mem_entries

theorem nodup_list : ((list s).map Prod.fst).Nodup :=
  ((List.perm_insertionSort _ _).map Prod.fst).nodup_iff.mpr s.rows.nodup

theorem mem_enabledRows : x ∈ enabledRows s ↔ s.rows.get? x.1 = some x.2 ∧ x.2.enabled = true := by
  rw [enabledRows, List.mem_filter, mem_list]

theorem nodup_enabledRows : ((enabledRows s).map Prod.fst).Nodup :=
  nodup_list.sublist (List.filter_sublist.map _)

/-! ## What a pass of the engine does to one routine -/

theorem tickOne_eq (now : Datetime) (env : Env) (houseHome : Option Bool) (x : String × Routine)
    (e : RoutinesEngine) :
    tickOne pf now env houseHome x e =
      (gates now env houseHome x.2 && e.firedDay.get? x.1 ≠ some now.date && lastDay pf x.2 ≠ some now.date,
        if gates now env houseHome x.2 = true ∧ e.firedDay.get? x.1 ≠ some now.date then
          { e with firedDay := e.firedDay.set x.1 now.date }
        else e) := by
  unfold tickOne once
  cases gates now env houseHome x.2 with
  | false => simp
  | true =>
    by_cases hday : e.firedDay.get? x.1 = some now.date
    · simp [hday]
    · by_cases hlast : lastDay pf x.2 = some now.date <;> simp [hday, hlast]

/-- The tick looks at the day a routine fired on, and moves it where the gates are open. -/
theorem tickLocal (pf : Platform) (now : Datetime) (env : Env) (houseHome : Option Bool) :
    Local Prod.fst (fun e : RoutinesEngine => e.firedDay.get?) (tickOne pf now env houseHome)
      (fun x day => gates now env houseHome x.2 && day ≠ some now.date && lastDay pf x.2 ≠ some now.date)
      (fun x day => if gates now env houseHome x.2 then some now.date else day) where
  hit x e := by rw [tickOne_eq]
  own x e := by
    rw [tickOne_eq]
    cases gates now env houseHome x.2 with
    | false => simp
    | true => by_cases hday : e.firedDay.get? x.1 = some now.date <;> simp [hday]
  other x e k hk := by
    rw [tickOne_eq]
    dsimp only
    split
    · exact Dict.get?_set_ne _ hk _
    · rfl

theorem lastDay_markFired {now : Datetime} (h : pf.Inverts now) (r : Routine) :
    lastDay pf { r with lastFired := some (pf.isoformat now) } = some now.date := by
  simp [lastDay, Option.filter, h.fromisoformat_isoformat, h.truthy_isoformat]

/-- An edit leaves the last time a routine fired. -/
theorem lastFired_edit (edit : Edit) {r : Routine} (h : (applyEdit s edit).rows.get? rid = some r) :
    ∃ r', s.rows.get? rid = some r' ∧ r'.lastFired = r.lastFired := by
  cases edit with
  | update rid' name trigger condition =>
    rw [applyEdit, get?_rows_update] at h
    obtain ⟨r', hr', rfl⟩ := Option.map_eq_some_iff.mp h
    exact ⟨r', hr', by split <;> rfl⟩
  | setEnabled rid' on =>
    rw [applyEdit, get?_rows_setEnabled] at h
    obtain ⟨r', hr', rfl⟩ := Option.map_eq_some_iff.mp h
    exact ⟨r', hr', by split <;> rfl⟩
  | delete rid' =>
    rw [applyEdit, get?_rows_delete] at h
    split at h
    · cases h
    · exact ⟨r, h, rfl⟩

/-- A tick returns an enabled routine whose gates are open and that neither guard has for the day. -/
theorem mem_tick {now : Datetime} {env : Env} {houseHome : Option Bool} :
    x ∈ (tick pf now env houseHome s e).1 ↔
      s.rows.get? x.1 = some x.2 ∧ x.2.enabled = true ∧ gates now env houseHome x.2 = true ∧
        e.firedDay.get? x.1 ≠ some now.date ∧ lastDay pf x.2 ≠ some now.date := by
  rw [tick, (tickLocal pf now env houseHome).collect_fst nodup_enabledRows, List.mem_filter, mem_enabledRows]
  simp only [ne_eq, decide_not, Bool.and_eq_true, Bool.not_eq_true', decide_eq_false_iff_not, and_assoc]

theorem nodup_tick {now : Datetime} {env : Env} {houseHome : Option Bool} :
    ((tick pf now env houseHome s e).1.map Prod.fst).Nodup := by
  rw [tick, (tickLocal pf now env houseHome).collect_fst nodup_enabledRows]
  exact nodup_enabledRows.sublist (List.filter_sublist.map _)

/-- What a `no_motion` routine asks of a report, the latch left aside. -/
def stillDue (room : String) (elapsed : ℚ) (env : Env) (r : Routine) : Bool :=
  match r.trigger with
  | .noMotion room' minutes => room' = room && ¬ elapsed < (minutes : ℕ) * 60 && conditionOk env r = some true
  | _ => false

theorem stillOne_eq (room : String) (elapsed : ℚ) (env : Env) (x : String × Routine) (e : RoutinesEngine) :
    stillOne room elapsed env x e =
      (stillDue room elapsed env x.2 && (e.stillnessLatched.get? x.1).isNone,
        if stillDue room elapsed env x.2 = true ∧ e.stillnessLatched.get? x.1 = none then
          { e with stillnessLatched := e.stillnessLatched.set x.1 room }
        else e) := by
  unfold stillOne stillDue
  cases x.2.trigger with
  | noMotion room' minutes =>
    dsimp only
    by_cases hroom : room' = room
    · cases hlatch : e.stillnessLatched.get? x.1 with
      | some room'' => simp [hroom]
      | none =>
        by_cases helapsed : elapsed < (minutes : ℕ) * 60
        · simp [hroom, helapsed]
        · by_cases hcond : conditionOk env x.2 = some true <;> simp [hroom, helapsed, hcond]
    · simp [hroom]
  | _ => simp

/-- A report looks at the latch of a routine, and sets it where the routine fires. -/
theorem stillLocal (room : String) (elapsed : ℚ) (env : Env) :
    Local Prod.fst (fun e : RoutinesEngine => e.stillnessLatched.get?) (stillOne room elapsed env)
      (fun x latch => stillDue room elapsed env x.2 && latch.isNone)
      (fun x latch => if stillDue room elapsed env x.2 = true ∧ latch = none then some room else latch) where
  hit x e := by rw [stillOne_eq]
  own x e := by
    rw [stillOne_eq]
    dsimp only
    split <;> simp [*]
  other x e k hk := by
    rw [stillOne_eq]
    dsimp only
    split
    · exact Dict.get?_set_ne _ hk _
    · rfl

end

end Wavr.Routines
