import Mathlib.Data.Nat.Cast.Order.Ring
import Wavr.RoutinesTick

/-!
# A `no_motion` routine and its episode

Runs of stillness reports between which the routines are edited.
-/

namespace Wavr.Routines
open Pass Run

inductive StillOp
  | report (room : String) (elapsed : ℚ) (env : Env)
  | edit (e : Edit)
  | tick (now : Datetime) (env : Env) (houseHome : Option Bool)
  | marked (rid when : String)

variable (pf : Platform)

def stillStep (s : System) : StillOp → System
  | .report room elapsed env => { s with engine := (onStillness room elapsed env s.store s.engine).2 }
  | .edit e => tickStep pf s (.edit e)
  | .tick now env houseHome => tickStep pf s (.tick now env houseHome)
  | .marked rid when => { s with store := markFired rid when s.store }

/-- The system, and how often each routine was returned for each room since that last reported zero. -/
structure Watched where
  system : System
  returns : String → String → ℕ

def Watched.start (store : RoutineStore) : Watched := ⟨⟨store, newEngine⟩, fun _ _ => 0⟩

def counted (w : Watched) (rid room : String) : StillOp → ℕ
  | .report room' elapsed env =>
    if room ≠ room' then w.returns rid room
    else if elapsed ≤ 0 then 0
    else
      w.returns rid room +
        ((onStillness room' elapsed env w.system.store w.system.engine).1.map Prod.fst).count rid
  | _ => w.returns rid room

def watch (w : Watched) (op : StillOp) : Watched :=
  ⟨stillStep pf w.system op, fun rid room => counted w rid room op⟩

def AtMostOnce (w : Watched) : Prop := ∀ rid room, w.returns rid room ≤ 1

/-- A report meets the threshold of an enabled routine of the room, and its condition holds. -/
def Due (s : System) (op : StillOp) (rid room : String) : Prop :=
  ∃ elapsed env r, op = .report room elapsed env ∧ s.store.rows.get? rid = some r ∧ r.enabled = true ∧
    stillDue room elapsed env r = true

/-- Then it is returned, at this report or before in the episode, and once. -/
def ReturnedOnce (w : Watched) (op : StillOp) : Prop :=
  ∀ rid room, Due w.system op rid room → (watch pf w op).returns rid room = 1

/-- It has not fired in another room that has not reported zero since. -/
def NotLatchedElsewhere (w : Watched) (op : StillOp) : Prop :=
  ∀ rid room, Due w.system op rid room →
    ∀ room', w.system.engine.stillnessLatched.get? rid = some room' → room' = room

/-! ## The cached routines -/

/-- The routines of a list are the enabled `no_motion` ones of the table, as far as a report looks at
them. -/
def Lists (rs : List (String × Routine)) (s : RoutineStore) : Prop :=
  (rs.map Prod.fst).Nodup ∧ ∀ rid t c, (∃ r, (rid, r) ∈ rs ∧ r.trigger = t ∧ r.condition = c) ↔
    isNoMotion t = true ∧ ∃ r, s.rows.get? rid = some r ∧ r.enabled = true ∧ r.trigger = t ∧ r.condition = c

structure Cached (s : System) : Prop where
  older : ∀ v, s.engine.nmCacheVer = some v → v ≤ s.store.version
  lists : s.engine.nmCacheVer = some s.store.version → Lists s.engine.nmCache s.store

section
variable {pf} {s : System} {w : Watched} {op : StillOp} {rid room : String} {elapsed : ℚ} {env : Env}

theorem lists_filter (s : RoutineStore) :
    Lists ((list s).filter fun r => r.2.enabled && isNoMotion r.2.trigger) s := by
  refine ⟨nodup_list.sublist (List.filter_sublist.map _), fun rid t c => ?_⟩
  simp only [List.mem_filter, mem_list, Bool.and_eq_true]
  constructor
  · rintro ⟨r, ⟨hget, henabled, hkind⟩, rfl, rfl⟩
    exact ⟨hkind, r, hget, henabled, rfl, rfl⟩
  · rintro ⟨hkind, r, hget, henabled, rfl, rfl⟩
    exact ⟨r, ⟨hget, henabled, hkind⟩, rfl, rfl⟩

theorem Cached.noMotionEnabled (h : Cached s) :
    Lists (noMotionEnabled s.store s.engine).1 s.store ∧
      Cached { s with engine := (noMotionEnabled s.store s.engine).2 } ∧
      (Routines.noMotionEnabled s.store s.engine).2.stillnessLatched = s.engine.stillnessLatched := by
  unfold Routines.noMotionEnabled
  split
  · refine ⟨lists_filter s.store, ⟨fun v hv => ?_, fun _ => lists_filter s.store⟩, rfl⟩
    exact (Option.some.inj hv).ge
  · rename_i hsame
    exact ⟨h.lists (not_not.mp hsame), h, rfl⟩

/-- A mark is not what a report looks at. -/
theorem Lists.markFired {rs : List (String × Routine)} {s : RoutineStore} (h : Lists rs s) (rid when : String) :
    Lists rs (markFired rid when s) := by
  refine ⟨h.1, fun rid' t c => (h.2 rid' t c).trans (and_congr_right fun _ => ?_)⟩
  rw [get?_rows_markFired]
  constructor
  · rintro ⟨r, hget, henabled, htrigger, hcond⟩
    refine ⟨_, Option.map_eq_some_iff.mpr ⟨r, hget, rfl⟩, ?_⟩
    split <;> exact ⟨henabled, htrigger, hcond⟩
  · rintro ⟨r', hget, henabled, htrigger, hcond⟩
    obtain ⟨r, hr, rfl⟩ := Option.map_eq_some_iff.mp hget
    refine ⟨r, hr, ?_⟩
    by_cases hid : rid' = rid
    · rw [if_pos hid] at henabled htrigger hcond
      exact ⟨henabled, htrigger, hcond⟩
    · rw [if_neg hid] at henabled htrigger hcond
      exact ⟨henabled, htrigger, hcond⟩

theorem Cached.markFired (h : Cached s) (rid when : String) :
    Cached { s with store := markFired rid when s.store } :=
  ⟨h.older, fun hver => (h.lists hver).markFired rid when⟩

theorem Cached.markAll (h : Cached s) (when : String) (out : List (String × Routine)) :
    Cached { s with store := markAll when out s.store } := by
  induction out generalizing s with
  | nil => exact h
  | cons x out ih => exact ih (h.markFired x.1 when)

/-- Another engine with the same cache. -/
theorem Cached.congr (h : Cached s) {e : RoutinesEngine} (hcache : e.nmCache = s.engine.nmCache)
    (hver : e.nmCacheVer = s.engine.nmCacheVer) : Cached { s with engine := e } := by
  constructor
  · dsimp only
    rw [hver]
    exact h.older
  · dsimp only
    rw [hver, hcache]
    exact h.lists

theorem Cached.edit (h : Cached s) (edit : Edit) : Cached { s with store := applyEdit s.store edit } := by
  have hversion : (applyEdit s.store edit).version = s.store.version + 1 := by cases edit <;> rfl
  constructor
  · intro v hv
    dsimp only
    rw [hversion]
    exact (h.older v hv).trans (Nat.le_succ _)
  · dsimp only
    rw [hversion]
    intro hv
    exact absurd (h.older _ hv) (Nat.not_succ_le_self _)

theorem stillOne_frame (x : String × Routine) (e : RoutinesEngine) :
    ((stillOne room elapsed env x e).2.nmCache, (stillOne room elapsed env x e).2.nmCacheVer) =
      (e.nmCache, e.nmCacheVer) := by
  rw [stillOne_eq]
  dsimp only
  split <;> rfl

theorem tickOne_frame {now : Datetime} {houseHome : Option Bool} (x : String × Routine) (e : RoutinesEngine) :
    ((tickOne pf now env houseHome x e).2.nmCache, (tickOne pf now env houseHome x e).2.nmCacheVer,
      (tickOne pf now env houseHome x e).2.stillnessLatched) = (e.nmCache, e.nmCacheVer, e.stillnessLatched) := by
  rw [tickOne_eq]
  dsimp only
  split <;> rfl

theorem tick_frame (pf : Platform) (now : Datetime) (env : Env) (houseHome : Option Bool) (s : RoutineStore)
    (e : RoutinesEngine) :
    ((tick pf now env houseHome s e).2.nmCache, (tick pf now env houseHome s e).2.nmCacheVer,
      (tick pf now env houseHome s e).2.stillnessLatched) = (e.nmCache, e.nmCacheVer, e.stillnessLatched) :=
  collect_frame (r := fun e : RoutinesEngine => (e.nmCache, e.nmCacheVer, e.stillnessLatched))
    (fun x e => tickOne_frame x e) _ e

theorem stillDue_congr {r r' : Routine} (htrigger : r.trigger = r'.trigger)
    (hcond : r.condition = r'.condition) : stillDue room elapsed env r = stillDue room elapsed env r' := by
  unfold stillDue conditionOk
  rw [htrigger, hcond]

theorem isNoMotion_of_stillDue {r : Routine} (h : stillDue room elapsed env r = true) :
    isNoMotion r.trigger = true := by
  unfold stillDue at h
  split at h
  · simp [isNoMotion, *]
  · cases h

/-- Thresholds are positive. -/
theorem pos_of_stillDue {r : Routine} (h : stillDue room elapsed env r = true) : 0 < elapsed := by
  unfold stillDue at h
  split at h
  · rename_i room' minutes _
    simp only [Bool.and_eq_true, decide_eq_true_eq, not_lt] at h
    have hminutes : (0 : ℚ) < (minutes : ℕ) := Nat.cast_pos.mpr minutes.pos
    exact lt_of_lt_of_le (mul_pos hminutes (by decide)) h.1.2
  · cases h

theorem due_iff {rs : List (String × Routine)} (h : Lists rs s.store) :
    Due s (.report room elapsed env) rid room ↔ ∃ r, (rid, r) ∈ rs ∧ stillDue room elapsed env r = true := by
  constructor
  · rintro ⟨elapsed', env', r, heq, hget, henabled, hdue⟩
    cases heq
    obtain ⟨r', hr', htrigger, hcond⟩ :=
      (h.2 rid r.trigger r.condition).mpr ⟨isNoMotion_of_stillDue hdue, r, hget, henabled, rfl, rfl⟩
    exact ⟨r', hr', (stillDue_congr htrigger hcond).trans hdue⟩
  · rintro ⟨r, hr, hdue⟩
    obtain ⟨-, r', hget, henabled, htrigger, hcond⟩ := (h.2 rid r.trigger r.condition).mp ⟨r, hr, rfl, rfl⟩
    exact ⟨elapsed, env, r', rfl, hget, henabled, (stillDue_congr htrigger hcond).trans hdue⟩

theorem Cached.onStillness (h : Cached s) :
    Cached { s with engine := (onStillness room elapsed env s.store s.engine).2 } := by
  unfold Routines.onStillness
  split
  · exact h.congr rfl rfl
  · have hkeeps : ∀ x e, ((stillOne room elapsed env x e).2.nmCache,
      (stillOne room elapsed env x e).2.nmCacheVer) =
        (e.nmCache, e.nmCacheVer) := fun x e => stillOne_frame x e
    have hframe := collect_frame (r := fun e : RoutinesEngine => (e.nmCache, e.nmCacheVer)) hkeeps
      (Routines.noMotionEnabled s.store s.engine).1 (Routines.noMotionEnabled s.store s.engine).2
    obtain ⟨hcache, hver⟩ := Prod.mk.injEq .. ▸ hframe
    exact h.noMotionEnabled.2.1.congr hcache hver

/-- A report of more than zero returns the routines that are due and not latched, and latches them. -/
theorem onStillness_spec (room : String) (env : Env) (h : Cached s) (helapsed : ¬ elapsed ≤ 0) (rid : String) :
    (Due s (.report room elapsed env) rid room → s.engine.stillnessLatched.get? rid = none →
      ((onStillness room elapsed env s.store s.engine).1.map Prod.fst).count rid = 1 ∧
        (onStillness room elapsed env s.store s.engine).2.stillnessLatched.get? rid = some room) ∧
    (¬ (Due s (.report room elapsed env) rid room ∧ s.engine.stillnessLatched.get? rid = none) →
      ((onStillness room elapsed env s.store s.engine).1.map Prod.fst).count rid = 0 ∧
        (onStillness room elapsed env s.store s.engine).2.stillnessLatched.get? rid =
          s.engine.stillnessLatched.get? rid) := by
  obtain ⟨hlists, -, hlatched⟩ := h.noMotionEnabled
  have hdue : Due s (.report room elapsed env) rid room ↔ _ := due_iff hlists
  have hlocal := stillLocal room elapsed env
  rw [hdue, Routines.onStillness, if_neg helapsed]
  dsimp only
  generalize noMotionEnabled s.store s.engine = p at hlists hlatched ⊢
  obtain ⟨rs, e⟩ := p
  dsimp only at hlists hlatched ⊢
  rw [← hlatched, hlocal.collect_fst hlists.1]
  have hmem : rid ∈ (rs.filter fun x => stillDue room elapsed env x.2 && (e.stillnessLatched.get? x.1).isNone).map
      Prod.fst ↔ (∃ r, (rid, r) ∈ rs ∧ stillDue room elapsed env r = true) ∧
        e.stillnessLatched.get? rid = none := by
    simp only [List.mem_map, List.mem_filter, Bool.and_eq_true, Option.isNone_iff_eq_none, Prod.exists,
      exists_and_right, exists_eq_right, ← and_assoc]
  constructor
  · rintro ⟨r, hr, hstill⟩ hnone
    refine ⟨List.count_eq_one_of_mem (hlists.1.sublist (List.filter_sublist.map _)) ?_, ?_⟩
    · exact hmem.mpr ⟨⟨r, hr, hstill⟩, hnone⟩
    · have hafter := hlocal.collect_snd_of_mem hlists.1 hr e
      exact hafter.trans (if_pos ⟨hstill, hnone⟩)
  · intro hnot
    refine ⟨List.count_eq_zero.mpr fun hin => hnot (hmem.mp hin), ?_⟩
    by_cases hrid : rid ∈ rs.map Prod.fst
    · obtain ⟨⟨rid', r⟩, hr, hid⟩ := List.mem_map.mp hrid
      obtain rfl : rid' = rid := hid
      have hafter := hlocal.collect_snd_of_mem hlists.1 hr e
      exact hafter.trans (if_neg fun hboth => hnot ⟨⟨r, hr, hboth.1⟩, hboth.2⟩)
    · exact hlocal.collect_snd_of_not_mem hrid e

/-! ## Episodes -/

/-- A routine has been returned in the episode of a room exactly where it is latched for the room. -/
structure Tracked (w : Watched) : Prop where
  cached : Cached w.system
  returns : ∀ rid room,
    w.returns rid room = if w.system.engine.stillnessLatched.get? rid = some room then 1 else 0

theorem latched_zero (h : elapsed ≤ 0) (rid room' : String) :
    (onStillness room elapsed env s.store s.engine).2.stillnessLatched.get? rid = some room' ↔
      s.engine.stillnessLatched.get? rid = some room' ∧ room' ≠ room := by
  rw [onStillness, if_pos h, Dict.get?_filter]
  simp [Option.filter_eq_some_iff]

/-- What is counted at a report is what the latch then says. -/
theorem Tracked.counted_report (h : Tracked w) (rid room' : String) :
    counted w rid room' (.report room elapsed env) =
      if (onStillness room elapsed env w.system.store w.system.engine).2.stillnessLatched.get? rid = some room'
      then 1 else 0 := by
  have hbefore := h.returns rid room'
  unfold counted
  dsimp only
  by_cases helapsed : elapsed ≤ 0
  · by_cases hroom : room' = room
    · rw [if_neg (not_not.mpr hroom), if_pos helapsed,
        if_neg fun hl => ((latched_zero helapsed rid room').mp hl).2 hroom]
    · rw [if_pos hroom, hbefore]
      exact if_congr ((latched_zero helapsed rid room').trans (and_iff_left hroom)).symm rfl rfl
  · obtain ⟨hfires, helse⟩ := onStillness_spec room env h.cached helapsed rid
    by_cases hroom : room' = room
    · subst hroom
      rw [if_neg (not_not.mpr rfl), if_neg helapsed, hbefore]
      by_cases hboth : Due w.system (.report room' elapsed env) rid room' ∧
          w.system.engine.stillnessLatched.get? rid = none
      · obtain ⟨hcount, hlatch⟩ := hfires hboth.1 hboth.2
        rw [hcount, hlatch, hboth.2, if_neg (by simp), if_pos rfl]
      · obtain ⟨hcount, hlatch⟩ := helse hboth
        rw [hcount, hlatch, Nat.add_zero]
    · rw [if_pos hroom, hbefore]
      by_cases hboth : Due w.system (.report room elapsed env) rid room ∧
          w.system.engine.stillnessLatched.get? rid = none
      · rw [(hfires hboth.1 hboth.2).2, hboth.2, if_neg (by simp), if_neg (by simpa using Ne.symm hroom)]
      · rw [(helse hboth).2]

theorem Tracked.watch (h : Tracked w) (op : StillOp) : Tracked (watch pf w op) := by
  cases op with
  | report room elapsed env => exact ⟨h.cached.onStillness, fun rid room' => h.counted_report rid room'⟩
  | edit e => exact ⟨h.cached.edit e, h.returns⟩
  | tick now env houseHome =>
    have hframe := tick_frame pf now env houseHome w.system.store w.system.engine
    simp only [Prod.mk.injEq] at hframe
    obtain ⟨hcache, hver, hlatch⟩ := hframe
    refine ⟨(h.cached.congr hcache hver).markAll _ _, fun rid room => ?_⟩
    have hreturns := h.returns rid room
    rw [← hlatch] at hreturns
    exact hreturns
  | marked rid when => exact ⟨h.cached.markFired rid when, h.returns⟩

theorem Tracked.atMostOnce (h : Tracked w) : AtMostOnce w := by
  intro rid room
  rw [h.returns]
  split
  · exact le_rfl
  · exact Nat.zero_le 1

/-- A routine that is due is returned, unless it is latched for another room. -/
theorem Tracked.returnedOnce_iff (h : Tracked w) (op : StillOp) :
    ReturnedOnce pf w op ↔ NotLatchedElsewhere w op := by
  refine forall_congr' fun rid => forall_congr' fun room => forall_congr' fun hdue => ?_
  obtain ⟨elapsed, env, r, rfl, hget, henabled, hstill⟩ := hdue
  have helapsed : ¬ elapsed ≤ 0 := not_le.mpr (pos_of_stillDue hstill)
  have hdue : Due w.system (.report room elapsed env) rid room :=
    ⟨elapsed, env, r, rfl, hget, henabled, hstill⟩
  obtain ⟨hfires, helse⟩ := onStillness_spec room env h.cached helapsed rid
  change counted w rid room (.report room elapsed env) = 1 ↔ _
  rw [h.counted_report]
  cases hlatch : w.system.engine.stillnessLatched.get? rid with
  | none => simp [(hfires hdue hlatch).2]
  | some room' =>
    have hnot : ¬ (Due w.system (.report room elapsed env) rid room ∧
        w.system.engine.stillnessLatched.get? rid = none) := by simp [hlatch]
    rw [(helse hnot).2, hlatch]
    simp

end

/-- Between two reports of zero of a room a routine is returned once at most, and at a report it is due
at it has been returned, as long as it is due nowhere while it is latched for another room. -/
theorem stillness_once (store : RoutineStore) (ops : List StillOp) :
    AllStates (watch pf) AtMostOnce (.start store) ops ∧
        AllSteps (watch pf) (ReturnedOnce pf) (.start store) ops ↔
      AllSteps (watch pf) NotLatchedElsewhere (.start store) ops := by
  have hstart : Tracked (.start store) := by
    refine ⟨⟨fun v hv => ?_, fun hv => ?_⟩, fun rid room => rfl⟩
    · cases hv
    · cases hv
  have htrue : AllSteps (watch pf) (fun _ _ => True) (.start store) ops :=
    allSteps_of_forall fun _ _ _ => trivial
  have honce : AllStates (watch pf) AtMostOnce (.start store) ops :=
    allStates_of_invariant (fun _ op h _ => h.watch op) (fun _ h => h.atMostOnce) hstart htrue
  have hiff : AllSteps (watch pf) (ReturnedOnce pf) (.start store) ops ↔
      AllSteps (watch pf) NotLatchedElsewhere (.start store) ops :=
    allSteps_congr_of_invariant (fun _ op h _ => h.watch op) (fun _ op h _ => h.returnedOnce_iff op) hstart htrue
  rw [hiff]
  exact and_iff_right honce

/-- One routine, for ten minutes without motion in the kitchen. -/
def sampleStore : RoutineStore :=
  ⟨Dict.empty.set "check" ⟨"check", true, .noMotion "kitchen" 10, none, none⟩, 0⟩

/-- It fires there and is moved to the bedroom: ten still minutes there do not return it. -/
theorem moved_routine_stays_latched :
    ¬ AllSteps (watch samplePlatform) (ReturnedOnce samplePlatform) (.start sampleStore)
      [.report "kitchen" 600 ⟨true, none⟩, .edit (.update "check" "check" (.noMotion "bedroom" 10) none),
        .report "bedroom" 600 ⟨true, none⟩] := by
  intro h
  have hdue : Due (finish (watch samplePlatform) (.start sampleStore) [.report "kitchen" 600 ⟨true, none⟩,
      .edit (.update "check" "check" (.noMotion "bedroom" 10) none)]).system
      (.report "bedroom" 600 ⟨true, none⟩) "check" "bedroom" :=
    ⟨600, ⟨true, none⟩, ⟨"check", true, .noMotion "bedroom" 10, none, none⟩, rfl, by decide +kernel, rfl,
      by decide +kernel⟩
  have honce := h.2.2.1 "check" "bedroom" hdue
  revert honce
  decide +kernel

end Wavr.Routines
