import Mathlib.Algebra.Order.AbsoluteValue.Basic
import Mathlib.Algebra.Order.BigOperators.Group.List
import Mathlib.Tactic.Linarith
import Wavr.FusionConfidence
import Wavr.Json

/-!
# The rows of evidence

The dictionaries of `sources` as `_fuse` builds them: one loop writes the rows with their mass
aside, a second one turns the masses into shares once the total is known.
-/

namespace Wavr.Fusion
open Run

/-- A value of a row. -/
inductive Cell (R : Type)
  | text (s : String)
  | flag (b : Bool)
  | number (x : R)
  | whole (n : ℤ)
  | null
  deriving DecidableEq

abbrev Row (R : Type) := Dict String (Cell R)

variable {R : Type} {ar : Arith R} {asUtc : String → Option ℤ}

def Cell.count : Option ℕ → Cell R
  | some n => .whole n
  | none => .null

/-- The row of a stored event whose timestamp does not parse. -/
def invalidRow (ar : Arith R) (e : SensingEvent R) : Row R where
  entries := [("modality", .text e.modality), ("sensor_id", .text e.sensorId), ("presence", .flag e.presence),
    ("confidence", .number (ar.round3 e.confidence)), ("age_s", .null), ("health", .text "invalid_ts"),
    ("count", .null)]
  nodup := by simp

section
variable (cfg : Config ar) (env : Env R) (room : String) (ref : ℤ) (e : Stored (R := R) asUtc)

def validRow : Row R where
  entries := [("modality", .text e.event.modality), ("sensor_id", .text e.event.sensorId),
    ("presence", .flag e.event.presence), ("confidence", .number (ar.round3 e.event.confidence)),
    ("age_s", .whole (ar.roundInt (ageS ar ref e))), ("health", .text (freshness cfg (ageS ar ref e)).2),
    ("count", .count (if isCounting e.event.modality then e.event.count else none))]
  nodup := by simp

/-- The first loop. -/
def row : Row R :=
  match asUtc e.event.ts with
  | none => invalidRow ar e.event
  | some _ =>
    let rel := relFactor ar env room e
    let row := (validRow cfg ref e).set "_mass" (.number (mass cfg env room ref e))
    if ar.eq rel.1 (ar.lit 1) then row
    else (row.set "reliability" (.number (ar.round3 rel.1))).set "reliability_reason" (.text rel.2)

/-- One turn of the second loop. -/
def withShare (ar : Arith R) (den : R) (row : Row R) : Except Raised (Row R) :=
  if ar.lt (ar.lit 0) den then
    match row.get? "_mass" with
    | some (.number m) => .ok ((row.erase "_mass").set "share" (.number (ar.round3 (ar.div m den))))
    | _ => .error .keyError
  else .ok (row.set "share" (.number (ar.lit 0)))

def sourceRows (es : List (Stored (R := R) asUtc)) : Except Raised (List (Row R)) :=
  (es.map (row cfg env room ref)).mapM (withShare ar (tally cfg env room ref es).den)

/-- A source with its fields in a row, and what of the mass is left in it. -/
def cells (s : Source R) (mass : Option R) : List (String × Cell R) :=
  [("modality", .text s.modality), ("sensor_id", .text s.sensorId), ("presence", .flag s.presence),
    ("confidence", .number s.confidence), ("age_s", .whole s.ageS), ("health", .text s.health),
    ("count", .count s.count)] ++
  (mass.map fun m => ("_mass", Cell.number m)).toList ++
  (match s.reliability with
    | some (factor, reason) => [("reliability", .number factor), ("reliability_reason", .text reason)]
    | none => []) ++
  [("share", .number s.share)]

end

section
variable {cfg : Config ar} {env : Env R} {room : String} {ref : ℤ} {e : Stored (R := R) asUtc}

/-- The rows are the sources of the room state; the mass stays in them where the total is not
positive. -/
theorem withShare_row (den : R) : (withShare ar den (row cfg env room ref e)).map Dict.entries =
    .ok (cells (sourceRow cfg env room ref e den)
      (if ar.lt (ar.lit 0) den then none else some (mass cfg env room ref e))) := by
  unfold row
  rw [e.parsed]
  by_cases hrel : ar.eq (relFactor ar env room e).1 (ar.lit 1)
  · by_cases hden : ar.lt (ar.lit 0) den
    · simp [withShare, hden, hrel, Dict.set, Dict.setEntry, validRow, Dict.get?, Dict.erase, Dict.filter,
        Except.map, cells, sourceRow]
    · simp [withShare, hden, hrel, Dict.set, Dict.setEntry, validRow, Except.map, cells, sourceRow]
  · by_cases hden : ar.lt (ar.lit 0) den
    · simp [withShare, hden, hrel, Dict.set, Dict.setEntry, validRow, Dict.get?, Dict.erase, Dict.filter,
        Except.map, cells, sourceRow]
    · simp [withShare, hden, hrel, Dict.set, Dict.setEntry, validRow, Except.map, cells, sourceRow]

/-- A row that shows a source, with what of the mass is left in it. -/
def Shows (cfg : Config ar) (env : Env R) (room : String) (ref : ℤ) (den : R) (r : Row R)
    (e : Stored (R := R) asUtc) : Prop :=
  r.entries = cells (sourceRow cfg env room ref e den)
    (if ar.lt (ar.lit 0) den then none else some (mass cfg env room ref e))

theorem sourceRows_ok (es : List (Stored (R := R) asUtc)) : ∃ rows, sourceRows cfg env room ref es = .ok rows ∧
    List.Forall₂ (Shows cfg env room ref (tally cfg env room ref es).den) rows es := by
  unfold sourceRows
  generalize (tally cfg env room ref es).den = den
  induction es with
  | nil => exact ⟨[], rfl, .nil⟩
  | cons e es ih =>
    obtain ⟨rows, hrows, hshows⟩ := ih
    have hrow : (withShare ar den (row cfg env room ref e)).map Dict.entries = _ := withShare_row den
    rw [List.map_cons, List.mapM_cons, hrows]
    cases hr : withShare ar den (row cfg env room ref e) with
    | error err => simp [hr, Except.map] at hrow
    | ok r =>
      simp only [hr, Except.map, Except.ok.injEq] at hrow
      exact ⟨r :: rows, rfl, .cons hrow hshows⟩

end

/-! ## Honest rows -/

/-- The fields of every row. -/
def PUBLISHED : List String :=
  ["modality", "sensor_id", "presence", "confidence", "age_s", "health", "count", "share"]

/-- The fields that go with a reliability factor other than 1. -/
def OPTIONAL : List String := ["reliability", "reliability_reason"]

def Row.share? (r : Row R) : Option R :=
  match r.get? "share" with
  | some (.number x) => some x
  | _ => none

section
variable {r : Row R} {s : Source R} {mass : Option R}

theorem share?_of_cells (h : r.entries = cells s mass) : Row.share? r = some s.share := by
  unfold Row.share? Dict.get?
  rw [h]
  cases mass <;> cases hrel : s.reliability <;> simp [cells, hrel]

theorem fields_of_cells (h : r.entries = cells s mass) :
    (r.keys.filter fun k => k ∉ OPTIONAL) = PUBLISHED ↔ mass = none := by
  unfold Dict.keys
  rw [h]
  cases mass <;> cases hrel : s.reliability <;> simp [cells, hrel, OPTIONAL, PUBLISHED]

end

section
variable (cfg : Config ratArith) (env : Env ℚ) (room : String) (ref : ℤ) (es : List (Stored (R := ℚ) asUtc))

/-- Some source carries mass. -/
def Carried : Prop := ∃ e ∈ es, 0 < mass cfg env room ref e

structure Honest (carried : Prop) (rows : List (Row ℚ)) : Prop where
  fields : ∀ r ∈ rows, (r.keys.filter fun k => k ∉ OPTIONAL) = PUBLISHED
  unit : ∀ r ∈ rows, ∃ x, Row.share? r = some x ∧ 0 ≤ x ∧ x ≤ 1
  /-- Up to the rounding of each row. -/
  total : carried → |(rows.filterMap Row.share?).sum - 1| ≤ rows.length / 2000
  silent : ¬ carried → ∀ r ∈ rows, Row.share? r = some 0

end

/-! ## Rounded shares -/

theorem abs_roundHalfEven_sub_le (q : ℚ) : |(roundHalfEven q : ℚ) - q| ≤ 1 / 2 := by
  have hlow : (q.floor : ℚ) ≤ q := Rat.floor_le q
  have hhigh : q < q.floor + 1 := by exact_mod_cast Rat.lt_floor_add_one q
  unfold roundHalfEven
  dsimp only
  split
  · rename_i h
    have hfrac : q - q.floor ≤ 1 / 2 := by
      rcases h with h | ⟨h, -⟩
      · exact h.le
      · exact h.le
    rw [abs_sub_comm, abs_of_nonneg (sub_nonneg.mpr hlow)]
    exact hfrac
  · rename_i h
    have hfrac : 1 / 2 ≤ q - q.floor := by
      by_contra hlt
      exact h (.inl (not_le.mp hlt))
    push_cast
    rw [abs_of_nonneg (by linarith)]
    linarith

theorem abs_round3_sub_le (x : ℚ) : |ratArith.round3 x - x| ≤ 1 / 2000 := by
  have h := abs_roundHalfEven_sub_le (x * 1000)
  show |(roundHalfEven (x * 1000) : ℚ) / 1000 - x| ≤ 1 / 2000
  rw [abs_le] at h ⊢
  constructor <;> linarith [h.1, h.2]

theorem abs_sum_round3_sub_le (xs : List ℚ) :
    |(xs.map ratArith.round3).sum - xs.sum| ≤ xs.length / 2000 := by
  induction xs with
  | nil => simp
  | cons x xs ih =>
    have hx := abs_round3_sub_le x
    rw [List.map_cons, List.sum_cons, List.sum_cons, List.length_cons]
    rw [abs_le] at hx ih ⊢
    push_cast
    constructor <;> linarith [hx.1, hx.2, ih.1, ih.2]

theorem sum_map_div (xs : List ℚ) (d : ℚ) : (xs.map fun x => x / d).sum = xs.sum / d := by
  induction xs with
  | nil => simp
  | cons x xs ih => rw [List.map_cons, List.sum_cons, List.sum_cons, ih, add_div]

section
variable {cfg : Config ratArith} {env : Env ℚ} {room : String} {ref : ℤ} {es : List (Stored (R := ℚ) asUtc)}

theorem den_eq_sum : (tally cfg env room ref es).den = (es.map (mass cfg env room ref)).sum := by
  rw [tally_den]
  induction es with
  | nil => simp [presentMass, absentMass]
  | cons e es ih =>
    rw [presentMass_cons, absentMass_cons, List.map_cons, List.sum_cons, ← ih]
    split <;> linarith

theorem masses_nonneg (hw : WeightsNonneg cfg) (hes : ∀ e ∈ es, InRange env room e) :
    ∀ m ∈ es.map (mass cfg env room ref), 0 ≤ m := by
  intro m hm
  obtain ⟨e, he, rfl⟩ := List.mem_map.mp hm
  exact mass_nonneg hw (hes e he)

theorem den_pos_iff (hw : WeightsNonneg cfg) (hes : ∀ e ∈ es, InRange env room e) :
    0 < (tally cfg env room ref es).den ↔ Carried cfg env room ref es := by
  have hnonneg : ∀ m ∈ es.map (mass cfg env room ref), 0 ≤ m := masses_nonneg hw hes
  rw [den_eq_sum]
  constructor
  · intro hpos
    by_contra hnone
    have hzero : (es.map (mass cfg env room ref)).sum = 0 := by
      refine List.sum_eq_zero fun m hm => ?_
      obtain ⟨e, he, rfl⟩ := List.mem_map.mp hm
      exact le_antisymm (not_lt.mp fun h => hnone ⟨e, he, h⟩) (hnonneg _ hm)
    exact hpos.ne' hzero
  · rintro ⟨e, he, hpos⟩
    exact hpos.trans_le (List.single_le_sum hnonneg _ (List.mem_map_of_mem he))

/-- The share of a source, where there is mass to share. -/
theorem sourceRow_share {den : ℚ} (hden : 0 < den) (e : Stored (R := ℚ) asUtc) :
    (sourceRow cfg env room ref e den).share = ratArith.round3 (mass cfg env room ref e / den) := by
  have hlt : ratArith.lt (ratArith.lit 0) den = true := decide_eq_true hden
  simp only [sourceRow, hlt, if_true]
  rfl

theorem filterMap_share? {den : ℚ} {rows : List (Row ℚ)} (h : List.Forall₂ (Shows cfg env room ref den) rows es) :
    rows.filterMap Row.share? = es.map fun e => (sourceRow cfg env room ref e den).share := by
  induction h with
  | nil => rfl
  | cons hr _ ih => rw [List.filterMap_cons_some (share?_of_cells hr), ih, List.map_cons]

theorem exists_shown {den : ℚ} {rows : List (Row ℚ)} (h : List.Forall₂ (Shows cfg env room ref den) rows es)
    {r : Row ℚ} (hr : r ∈ rows) : ∃ e ∈ es, Shows cfg env room ref den r e := by
  induction h with
  | nil => cases hr
  | cons hshows _ ih =>
    rcases List.mem_cons.mp hr with rfl | hr
    · exact ⟨_, List.mem_cons_self, hshows⟩
    · obtain ⟨e, he, hshown⟩ := ih hr
      exact ⟨e, List.mem_cons_of_mem _ he, hshown⟩

/-- The share of each of the sources lies between 0 and 1. -/
theorem share_unit {den : ℚ} (hden : 0 < den) {m : ℚ} (hm : 0 ≤ m) (hle : m ≤ den) :
    0 ≤ ratArith.round3 (m / den) ∧ ratArith.round3 (m / den) ≤ 1 := by
  constructor
  · exact round3_zero.symm.trans_le (round3_mono (div_nonneg hm hden.le))
  · exact (round3_mono ((div_le_one hden).mpr hle)).trans_eq round3_one

theorem honest_of_carried (hw : WeightsNonneg cfg) (hes : ∀ e ∈ es, InRange env room e)
    (hc : Carried cfg env room ref es) {rows : List (Row ℚ)}
    (h : List.Forall₂ (Shows cfg env room ref (tally cfg env room ref es).den) rows es) :
    Honest (Carried cfg env room ref es) rows := by
  have hden : 0 < (tally cfg env room ref es).den := (den_pos_iff hw hes).mpr hc
  have hlt : ratArith.lt (ratArith.lit 0) (tally cfg env room ref es).den = true := decide_eq_true hden
  refine ⟨fun r hr => ?_, fun r hr => ?_, fun _ => ?_, fun hnot => absurd hc hnot⟩
  · obtain ⟨e, -, he⟩ := exists_shown h hr
    exact (fields_of_cells he).mpr (if_pos hlt)
  · obtain ⟨e, he, hshows⟩ := exists_shown h hr
    refine ⟨_, share?_of_cells hshows, ?_⟩
    rw [sourceRow_share hden]
    refine share_unit hden (mass_nonneg hw (hes e he)) ?_
    -- a source is one term of the sum that it is divided by
    rw [den_eq_sum]
    exact List.single_le_sum (masses_nonneg hw hes) _ (List.mem_map_of_mem he)
  · have hshares : rows.filterMap Row.share? =
        ((es.map (mass cfg env room ref)).map (· / (tally cfg env room ref es).den)).map ratArith.round3 := by
      rw [filterMap_share? h, List.map_map, List.map_map]
      exact List.map_congr_left fun e _ => sourceRow_share hden e
    -- exactly 1 before each row is rounded
    have hone : ((es.map (mass cfg env room ref)).map (· / (tally cfg env room ref es).den)).sum = 1 := by
      rw [sum_map_div, ← den_eq_sum, div_self hden.ne']
    have hround := abs_sum_round3_sub_le ((es.map (mass cfg env room ref)).map (· / (tally cfg env room ref es).den))
    rw [hone, ← hshares] at hround
    simpa [h.length_eq] using hround

/-- The rows of a fuse are honest exactly where some source carries mass or there is no row. -/
theorem honest_iff (hw : WeightsNonneg cfg) (hes : ∀ e ∈ es, InRange env room e) :
    (∃ rows, sourceRows cfg env room ref es = .ok rows ∧ Honest (Carried cfg env room ref es) rows) ↔
      es = [] ∨ Carried cfg env room ref es := by
  obtain ⟨rows, hrows, hshows⟩ : ∃ rows, sourceRows cfg env room ref es = .ok rows ∧ _ := sourceRows_ok es
  constructor
  · rintro ⟨rows', hrows', honest⟩
    cases hrows.symm.trans hrows'
    by_contra hnot
    rw [not_or] at hnot
    -- without mass every row keeps its own
    have hlt : ratArith.lt (ratArith.lit 0) (tally cfg env room ref es).den = false :=
      decide_eq_false fun h => hnot.2 ((den_pos_iff hw hes).mp h)
    cases hshows with
    | nil => exact hnot.1 rfl
    | cons hr _ =>
      have hfields := (fields_of_cells hr).mp (honest.fields _ List.mem_cons_self)
      simp [hlt] at hfields
  · rintro (rfl | hcarried)
    · cases hshows
      refine ⟨[], hrows, ?_, ?_, ?_, ?_⟩
      · exact fun r hr => absurd hr List.not_mem_nil
      · exact fun r hr => absurd hr List.not_mem_nil
      · rintro ⟨e, he, -⟩
        cases he
      · exact fun _ r hr => absurd hr List.not_mem_nil
    · exact ⟨rows, hrows, honest_of_carried hw hes hcarried hshows⟩

end

/-! ## Every room state of a run -/

section
variable (cfg : Config ratArith)

/-- The event a call brings and the reliability it meets are in range. -/
structure InRangeCall (call : Call ℚ) : Prop where
  confidence : ∀ e, call.op = .update e → 0 ≤ e.confidence ∧ e.confidence ≤ 1
  reliability : ∀ sensor room rel, call.env.reliability sensor room = some rel → 0 ≤ rel.1 ∧ rel.1 ≤ 1

def ConfidencesInRange (s : Engine (R := ℚ) asUtc) : Prop :=
  ∀ room, ∀ e ∈ s.events room, 0 ≤ e.event.confidence ∧ e.event.confidence ≤ 1

/-- The rows of the room state a call returns, if any, are honest. -/
def HonestCall (s : Engine (R := ℚ) asUtc) (call : Call ℚ) : Prop :=
  ∀ rs, (run cfg call s).1 = .fused rs →
    ∃ rows, sourceRows cfg call.env rs.room (reference asUtc call.env rs.ts)
        ((step cfg s call).events rs.room) = .ok rows ∧
      Honest (Carried cfg call.env rs.room (reference asUtc call.env rs.ts)
        ((step cfg s call).events rs.room)) rows

/-- In the room a call fuses, if any, some source carries mass, or none is stored. -/
def CarriedCall (s : Engine (R := ℚ) asUtc) (call : Call ℚ) : Prop :=
  ∀ room ts, (begin call s).1 = .ok (room, ts) → (begin call s).2.events room = [] ∨
    Carried cfg call.env room (reference asUtc call.env ts) ((begin call s).2.events room)

variable {cfg} {s : Engine (R := ℚ) asUtc} {call : Call ℚ}

theorem ConfidencesInRange.begin (h : ConfidencesInRange s) (hc : InRangeCall call) :
    ConfidencesInRange (begin call s).2 := by
  rcases sensors_begin call s with ⟨e, hop, hput⟩ | hsame
  · rw [hput]
    intro room e' he'
    by_cases hroom : room = e.event.room
    · subst hroom
      obtain ⟨pre, post, hnew, hold⟩ := exists_events_put s e
      rw [hnew] at he'
      have hs := h e.event.room
      rw [hold] at hs
      simp only [List.mem_append, List.mem_cons] at he' hs
      rcases he' with hpre | rfl | hpost
      · exact hs e' (.inl hpre)
      · exact hc.confidence _ hop
      · exact hs e' (.inr (.inr hpost))
    · rw [events_eq_sensors, sensors_put, if_neg hroom] at he'
      exact h room e' he'
  · intro room e he
    rw [events_eq_sensors, hsame] at he
    exact h room e he

theorem ConfidencesInRange.step (h : ConfidencesInRange s) (hc : InRangeCall call) :
    ConfidencesInRange (step cfg s call) := by
  have hbegin := h.begin hc
  revert hbegin
  unfold Fusion.step run
  rcases Fusion.begin call s with ⟨why | ⟨room, ts⟩, s₁⟩
  · exact id
  · intro hbegin room' e he
    dsimp only at he
    rw [events_eq_sensors, sensors_fuse] at he
    exact hbegin room' e he

theorem ConfidencesInRange.inRange (h : ConfidencesInRange s) (hc : InRangeCall call) {room : String}
    {e : Stored (R := ℚ) asUtc} (he : e ∈ s.events room) : InRange call.env room e where
  confidence := h room e he
  reliability := by
    have hone : (0 : ℚ) ≤ 1 ∧ (1 : ℚ) ≤ 1 := ⟨zero_le_one, le_refl 1⟩
    unfold relFactor
    split
    · cases hrel : call.env.reliability e.event.sensorId room with
      | none => exact hone
      | some rel => exact hc.reliability _ _ rel hrel
    · exact hone

theorem honestCall_iff (hw : WeightsNonneg cfg) (h : ConfidencesInRange s) (hc : InRangeCall call) :
    HonestCall cfg s call ↔ CarriedCall cfg s call :=
  owed_iff_of cfg
    (P := fun env ref es rs => ∃ rows, sourceRows cfg env rs.room ref es = .ok rows ∧
      Honest (Carried cfg env rs.room ref es) rows)
    (Q := fun env room ref s => s.events room = [] ∨ Carried cfg env room ref (s.events room))
    fun _ _ => honest_iff hw fun _ he => (h.begin hc).inRange hc he

/-- The rows of every room state of a run are honest exactly when some source of the room carries
mass in every fuse of a room with sources. -/
theorem rows_honest_iff (cfg : Config ratArith) (hw : WeightsNonneg cfg) (calls : List (Call ℚ))
    (hcalls : ∀ call ∈ calls, InRangeCall call) :
    AllSteps (step cfg) (HonestCall cfg) (newEngine (R := ℚ) asUtc) calls ↔
      AllSteps (step cfg) (CarriedCall cfg) (newEngine asUtc) calls := by
  have hok : AllSteps (step cfg) (fun _ call => InRangeCall call) (newEngine (R := ℚ) asUtc) calls :=
    allSteps_of_forall fun call hcall _ => hcalls call hcall
  refine allSteps_congr_of_invariant (I := ConfidencesInRange) (fun _ _ h hc => h.step hc)
    (fun _ _ h hc => honestCall_iff hw h hc) ?_ hok
  intro room e he
  cases he

end

/-! ## A room without mass -/

/-- A motion sensor that sees nobody reports with confidence 0. -/
def quietSensor : Call ℚ := ⟨.update (sighting "pir" "hall" false 0 none), clockAt 1767225600000000⟩

/-- One that sees somebody. -/
def busySensor : Call ℚ := ⟨.update (sighting "pir" "hall" true (9 / 10) none), clockAt 1767225600000000⟩

theorem inRange_clockAt {event : SensingEvent ℚ} {t : ℤ} (h : 0 ≤ event.confidence ∧ event.confidence ≤ 1) :
    InRangeCall ⟨.update event, clockAt t⟩ where
  confidence := by
    rintro e he
    cases he
    exact h
  reliability := by
    intro sensor room rel hrel
    cases hrel

theorem busySensor_honest : AllSteps (step defaultConfig) (HonestCall defaultConfig) (newEngine (R := ℚ) parse)
    [busySensor] := by
  refine (rows_honest_iff defaultConfig defaultConfig_weightsNonneg [busySensor] ?_).mpr ⟨?_, trivial⟩
  · intro call hcall
    rw [List.mem_singleton.mp hcall]
    exact inRange_clockAt ⟨by decide +kernel, by decide +kernel⟩
  · intro room ts hb
    have hmass : ((begin busySensor (newEngine (R := ℚ) parse)).2.events "sala").any
        (fun e => decide (0 < mass defaultConfig (clockAt 1767225600000000) "sala" 1767225600000000 e)) = true := by
      decide +kernel
    obtain ⟨e, he, hpos⟩ := List.any_eq_true.mp hmass
    cases hb
    exact .inr ⟨e, he, of_decide_eq_true hpos⟩

/-- The only row of the room is published with its mass in it. -/
theorem quietSensor_not_honest : ¬ AllSteps (step defaultConfig) (HonestCall defaultConfig)
    (newEngine (R := ℚ) parse) [quietSensor] := by
  rintro ⟨honest, -⟩
  have hview : ((run defaultConfig quietSensor (newEngine parse)).1.state?.map fun rs => rs.room) =
      some "sala" := by decide +kernel
  have hkeys : (sourceRows defaultConfig (clockAt 1767225600000000) "sala" 1767225600000000
      ((step defaultConfig (newEngine parse) quietSensor).events "sala")).toOption.map
        (fun rows => rows.any fun r => r.keys.any (· = "_mass")) = some true := by decide +kernel
  obtain ⟨rs, hrs, hroom⟩ := Option.map_eq_some_iff.mp hview
  obtain ⟨rows, hrows, hhonest⟩ := honest rs (Reply.eq_fused hrs)
  have hrows' : sourceRows defaultConfig (clockAt 1767225600000000) "sala" 1767225600000000
      ((step defaultConfig (newEngine parse) quietSensor).events "sala") = .ok rows := by
    rw [← hroom]
    exact hrows
  rw [hrows'] at hkeys
  obtain ⟨r, hr, hmass⟩ := List.any_eq_true.mp (Option.some.inj hkeys)
  obtain ⟨k, hk, hkmass⟩ := List.any_eq_true.mp hmass
  have hin : k ∈ r.keys.filter fun k => k ∉ OPTIONAL := by
    rw [List.mem_filter, of_decide_eq_true hkmass]
    exact ⟨of_decide_eq_true hkmass ▸ hk, by decide⟩
  rw [hhonest.fields r hr, of_decide_eq_true hkmass] at hin
  revert hin
  decide

end Wavr.Fusion
