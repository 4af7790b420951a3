import Wavr.Routines
import Wavr.Run

/-!
# Time triggers fire once a day

Runs of ticks, edits and restarts. Who ticks marks what fired.
-/

namespace Wavr.Routines
open Pass Run Text

structure System where
  store : RoutineStore
  engine : RoutinesEngine
  deriving DecidableEq

inductive TickOp
  | tick (now : Datetime) (env : Env) (houseHome : Option Bool)
  | edit (e : Edit)
  /-- A new engine over the same table. -/
  | restart

variable (pf : Platform)

/-- What was returned is marked. -/
def markAll (when : String) (out : List (String × Routine)) (s : RoutineStore) : RoutineStore :=
  out.foldl (fun s x => markFired x.1 when s) s

def tickStep (s : System) : TickOp → System
  | .tick now env houseHome =>
    let (out, engine) := tick pf now env houseHome s.store s.engine
    ⟨markAll (pf.isoformat now) out s.store, engine⟩
  | .edit e => { s with store := applyEdit s.store e }
  | .restart => ⟨{ s.store with version := 0 }, newEngine⟩

/-- The routines a tick returns, with its day. -/
def returned (s : System) : TickOp → List (String × ℤ)
  | .tick now env houseHome =>
    (tick pf now env houseHome s.store s.engine).1.map fun x => (x.1, now.date)
  | _ => []

def times (ops : List TickOp) : List Datetime :=
  ops.filterMap fun
    | .tick now .. => some now
    | _ => none

/-- One of the two guards has the day. -/
def Consumed (day : ℤ) (rid : String) (s : System) : Prop :=
  s.engine.firedDay.get? rid = some day ∨
    ∃ r, s.store.rows.get? rid = some r ∧ lastDay pf r = some day

/-- A tick of the day finds the condition of the routine false, or cannot tell. -/
def Barred (day : ℤ) (rid : String) (s : System) (op : TickOp) : Prop :=
  ∀ now env houseHome r, op = .tick now env houseHome → now.date = day →
    s.store.rows.get? rid = some r → conditionOk env r ≠ some true

/-- The routine has fired, no earlier than `day` and no later than `now`. -/
def Held (day now : ℤ) (rid : String) (s : System) : Prop :=
  ∀ r, s.store.rows.get? rid = some r → ∃ d, lastDay pf r = some d ∧ day ≤ d ∧ d ≤ now

section
variable {pf} {s : System} {op : TickOp} {ops : List TickOp} {rid : String} {day today : ℤ}
  {now : Datetime} {env : Env} {houseHome : Option Bool}

theorem get?_markAll (when : String) (out : List (String × Routine)) (st : RoutineStore) :
    (markAll when out st).rows.get? rid = (st.rows.get? rid).map fun r =>
      if rid ∈ out.map Prod.fst then { r with lastFired := some when } else r := by
  induction out generalizing st with
  | nil => simp [markAll]
  | cons x out ih =>
    have hrest := ih (markFired x.1 when st)
    rw [get?_rows_markFired, Option.map_map] at hrest
    refine hrest.trans (congrArg (fun f => (st.rows.get? rid).map f) (funext fun r => ?_))
    by_cases hx : rid = x.1
    · subst hx
      simp
    · have hmem : rid ∈ (x :: out).map Prod.fst ↔ rid ∈ out.map Prod.fst := by simp [hx]
      rw [Function.comp_apply, if_neg hx]
      by_cases hout : rid ∈ out.map Prod.fst
      · rw [if_pos hout, if_pos (hmem.mpr hout)]
      · rw [if_neg hout, if_neg fun h => hout (hmem.mp h)]

theorem date_le_of_le {t t' : Datetime} (h : t ≤ t') : t.date ≤ t'.date := by
  rcases h with h | ⟨h, -⟩
  · exact h.le
  · exact h.le

/-- What the table has of a routine behind a tick: the time, where the tick returned it. -/
theorem lastDay_tick (hpf : pf.Inverts now) {r : Routine}
    (h : (tickStep pf s (.tick now env houseHome)).store.rows.get? rid = some r) :
    ∃ r', s.store.rows.get? rid = some r' ∧ r'.trigger = r.trigger ∧ lastDay pf r =
      if (rid, now.date) ∈ returned pf s (.tick now env houseHome) then some now.date else lastDay pf r' := by
  have hmem : (rid, now.date) ∈ returned pf s (.tick now env houseHome) ↔
      rid ∈ (tick pf now env houseHome s.store s.engine).1.map Prod.fst := by
    simp [returned]
  rw [tickStep] at h
  dsimp only at h
  rw [get?_markAll] at h
  obtain ⟨r', hr', rfl⟩ := Option.map_eq_some_iff.mp h
  refine ⟨r', hr', ?_, ?_⟩
  · split <;> rfl
  · simp only [hmem]
    split
    · exact lastDay_markFired hpf r'
    · rfl

/-- A day behind which the routine has fired is not returned again. -/
theorem Held.not_returned (h : Held pf day today rid s) (hnow : today ≤ now.date) :
    (rid, day) ∉ returned pf s (.tick now env houseHome) := by
  intro hmem
  obtain ⟨x, hx, heq⟩ := List.mem_map.mp hmem
  obtain ⟨rfl, rfl⟩ := Prod.mk.injEq .. ▸ heq
  obtain ⟨hget, -, -, -, hlast⟩ := mem_tick.mp hx
  obtain ⟨d, hd, hle, hge⟩ := h x.2 hget
  exact hlast (hd.trans (congrArg some (le_antisymm (hge.trans hnow) hle)))

/-- The guard moves on with the time. -/
theorem Held.step (h : Held pf day today rid s)
    (hop : ∀ now ∈ times [op], pf.Inverts now ∧ today ≤ now.date) :
    ∀ today', today ≤ today' → (∀ now ∈ times [op], today' = now.date) →
      Held pf day today' rid (tickStep pf s op) := by
  intro today' hle htoday r hr
  cases op with
  | tick now env houseHome =>
    obtain ⟨hpf, hnow⟩ := hop now List.mem_cons_self
    obtain ⟨r', hr', -, hlast⟩ := lastDay_tick hpf hr
    obtain ⟨d, hd, hday, htop⟩ := h r' hr'
    rw [hlast, htoday now List.mem_cons_self]
    split
    · exact ⟨now.date, rfl, hday.trans (htop.trans hnow), le_rfl⟩
    · exact ⟨d, hd, hday, htop.trans hnow⟩
  | edit e =>
    obtain ⟨r', hr', hfired⟩ := lastFired_edit e hr
    obtain ⟨d, hd, hday, htop⟩ := h r' hr'
    refine ⟨d, ?_, hday, htop.trans hle⟩
    rw [← hd, lastDay, lastDay, hfired]
  | restart =>
    obtain ⟨d, hd, hday, htop⟩ := h r hr
    exact ⟨d, hd, hday, htop.trans hle⟩

theorem times_cons : times (op :: ops) = times [op] ++ times ops := by
  cases op <;> rfl

/-- A day behind which a routine has fired is not returned in a run whose ticks come later. -/
theorem Held.not_returned_later (h : Held pf day today rid s) (hpf : ∀ now ∈ times ops, pf.Inverts now)
    (hlater : ∀ now ∈ times ops, today ≤ now.date) (hmono : (times ops).Pairwise (· ≤ ·)) :
    (rid, day) ∉ emissions (tickStep pf) (returned pf) s ops := by
  induction ops generalizing s today with
  | nil => exact List.not_mem_nil
  | cons op ops ih =>
    rw [times_cons] at hpf hlater hmono
    obtain ⟨-, hrest, hafter⟩ := List.pairwise_append.mp hmono
    have hop : ∀ now ∈ times [op], pf.Inverts now ∧ today ≤ now.date := fun now hnow =>
      ⟨hpf now (List.mem_append_left _ hnow), hlater now (List.mem_append_left _ hnow)⟩
    rw [emissions, List.mem_append, not_or]
    cases op with
    | tick now env houseHome =>
      have hnow := (hop now List.mem_cons_self).2
      refine ⟨h.not_returned hnow, ih (h.step hop now.date hnow fun t ht => ?_)
        (fun t ht => hpf t (List.mem_append_right _ ht)) (fun t ht => ?_) hrest⟩
      · rw [List.mem_singleton.mp ht]
      · exact date_le_of_le (hafter now List.mem_cons_self t ht)
    | edit e =>
      exact ⟨List.not_mem_nil, ih (h.step hop today le_rfl fun t ht => by cases ht)
        (fun t ht => hpf t (List.mem_append_right _ ht)) (fun t ht => hlater t (List.mem_append_right _ ht)) hrest⟩
    | restart =>
      exact ⟨List.not_mem_nil, ih (h.step hop today le_rfl fun t ht => by cases ht)
        (fun t ht => hpf t (List.mem_append_right _ ht)) (fun t ht => hlater t (List.mem_append_right _ ht)) hrest⟩

/-- What a tick returns has fired. -/
theorem held_of_returned (hpf : pf.Inverts now)
    (h : (rid, day) ∈ returned pf s (.tick now env houseHome)) :
    Held pf day now.date rid (tickStep pf s (.tick now env houseHome)) := by
  have hday : day = now.date := by
    obtain ⟨x, -, heq⟩ := List.mem_map.mp h
    exact (congrArg Prod.snd heq).symm
  subst hday
  intro r hr
  obtain ⟨r', -, -, hlast⟩ := lastDay_tick hpf hr
  exact ⟨now.date, hlast.trans (if_pos h), le_rfl, le_rfl⟩

theorem nodup_returned : (returned pf s op).Nodup := by
  cases op with
  | tick now env houseHome =>
    refine List.Nodup.of_map Prod.fst ?_
    rw [returned, List.map_map]
    exact nodup_tick
  | _ => exact List.nodup_nil

theorem nodup_emissions_returned (hpf : ∀ now ∈ times ops, pf.Inverts now)
    (hmono : (times ops).Pairwise (· ≤ ·)) (s : System) :
    (emissions (tickStep pf) (returned pf) s ops).Nodup := by
  induction ops generalizing s with
  | nil => exact List.nodup_nil
  | cons op ops ih =>
    rw [times_cons] at hpf hmono
    obtain ⟨-, hrest, hafter⟩ := List.pairwise_append.mp hmono
    have hpf' : ∀ now ∈ times ops, pf.Inverts now := fun t ht => hpf t (List.mem_append_right _ ht)
    rw [emissions]
    refine List.nodup_append.mpr ⟨nodup_returned, ih hpf' hrest _, fun x hx y hy hxy => ?_⟩
    subst hxy
    cases op with
    | tick now env houseHome =>
      have hheld := held_of_returned (hpf now List.mem_cons_self) hx
      exact hheld.not_returned_later hpf' (fun t ht => date_le_of_le (hafter now List.mem_cons_self t ht)) hrest hy
    | edit e => cases hx
    | restart => cases hx

/-! ## Guards -/

/-- A tick returns exactly the routines that are enabled, whose gates are open and that neither guard has
for the day. -/
theorem returned_iff {r : Routine} (h : s.store.rows.get? rid = some r) :
    (rid, now.date) ∈ returned pf s (.tick now env houseHome) ↔
      r.enabled = true ∧ gates now env houseHome r = true ∧ ¬ Consumed pf now.date rid s := by
  have hmem : (rid, now.date) ∈ returned pf s (.tick now env houseHome) ↔
      (rid, r) ∈ (tick pf now env houseHome s.store s.engine).1 := by
    refine ⟨fun hret => ?_, fun hret => List.mem_map_of_mem hret⟩
    obtain ⟨⟨rid', r'⟩, hx, heq⟩ := List.mem_map.mp hret
    obtain rfl : rid' = rid := congrArg Prod.fst heq
    have hget := (mem_tick.mp hx).1
    rw [h] at hget
    cases hget
    exact hx
  rw [hmem, mem_tick]
  simp [Consumed, h, not_or]

theorem conditionOk_of_gates {r : Routine} (h : gates now env houseHome r = true) :
    conditionOk env r = some true ∧
      ∃ time, (r.trigger = .schedule time ∨ r.trigger = .houseAwayByTime time) ∧ reached now time = true := by
  unfold gates at h
  split at h
  · simp only [Bool.and_eq_true, decide_eq_true_eq] at h
    exact ⟨h.2, _, .inl ‹_›, h.1⟩
  · simp only [Bool.and_eq_true, decide_eq_true_eq] at h
    exact ⟨h.2, _, .inr ‹_›, h.1.2⟩
  · cases h

theorem Barred.not_returned (h : Barred day rid s op) : (rid, day) ∉ returned pf s op := by
  intro hmem
  cases op with
  | tick now env houseHome =>
    obtain ⟨x, hx, heq⟩ := List.mem_map.mp hmem
    obtain ⟨rfl, rfl⟩ := Prod.mk.injEq .. ▸ heq
    obtain ⟨hget, -, hgates, -⟩ := mem_tick.mp hx
    exact h now env houseHome x.2 rfl rfl hget (conditionOk_of_gates hgates).1
  | edit e => cases hmem
  | restart => cases hmem

/-- A tick moves the guard in memory only where the gates are open. -/
theorem firedDay_tick (h : (tick pf now env houseHome s.store s.engine).2.firedDay.get? rid = some day) :
    s.engine.firedDay.get? rid = some day ∨
      now.date = day ∧ ∃ r, s.store.rows.get? rid = some r ∧ gates now env houseHome r = true := by
  have hlocal := tickLocal pf now env houseHome
  by_cases hrid : rid ∈ (enabledRows s.store).map Prod.fst
  · obtain ⟨⟨rid', r⟩, hx, hid⟩ := List.mem_map.mp hrid
    obtain rfl : rid' = rid := hid
    have hafter := hlocal.collect_snd_of_mem nodup_enabledRows hx s.engine
    rw [tick, hafter] at h
    split at h
    · rename_i hgates
      exact .inr ⟨Option.some.inj h, r, (mem_enabledRows.mp hx).1, hgates⟩
    · exact .inl h
  · have hafter := hlocal.collect_snd_of_not_mem hrid s.engine
    rw [tick, hafter] at h
    exact .inl h

theorem Barred.consumed (h : Barred day rid s op) (hpf : ∀ now ∈ times [op], pf.Inverts now)
    (hafter : Consumed pf day rid (tickStep pf s op)) : Consumed pf day rid s := by
  cases op with
  | tick now env houseHome =>
    rcases hafter with hday | ⟨r, hr, hlast⟩
    · rcases firedDay_tick hday with hsame | ⟨hdate, r, hget, hgates⟩
      · exact .inl hsame
      · exact absurd (conditionOk_of_gates hgates).1 (h now env houseHome r rfl hdate hget)
    · obtain ⟨r', hget, -, hr'⟩ := lastDay_tick (hpf now List.mem_cons_self) hr
      rw [hlast] at hr'
      split at hr'
      · rename_i hret
        rw [← Option.some.inj hr'] at hret
        exact absurd hret h.not_returned
      · exact .inr ⟨r', hget, hr'.symm⟩
  | edit e =>
    rcases hafter with hday | ⟨r, hr, hlast⟩
    · exact .inl hday
    · obtain ⟨r', hget, hfired⟩ := lastFired_edit e hr
      refine .inr ⟨r', hget, ?_⟩
      rw [← hlast, lastDay, lastDay, hfired]
  | restart =>
    rcases hafter with hday | hlast
    · cases hday
    · exact .inr hlast

/-- A routine whose condition bars it at every tick of a day is not returned, and not consumed for it. -/
theorem barred_run (hpf : ∀ now ∈ times ops, pf.Inverts now) {s : System}
    (h : AllSteps (tickStep pf) (Barred day rid) s ops) :
    (rid, day) ∉ emissions (tickStep pf) (returned pf) s ops ∧
      (Consumed pf day rid (finish (tickStep pf) s ops) → Consumed pf day rid s) := by
  induction ops generalizing s with
  | nil => exact ⟨List.not_mem_nil, id⟩
  | cons op ops ih =>
    rw [times_cons] at hpf
    obtain ⟨hop, hops⟩ := h
    obtain ⟨hnot, hconsumed⟩ := ih (fun t ht => hpf t (List.mem_append_right _ ht)) hops
    rw [emissions, List.mem_append, not_or, finish_cons]
    exact ⟨⟨hop.not_returned, hnot⟩,
      fun hend => hop.consumed (fun t ht => hpf t (List.mem_append_left _ ht)) (hconsumed hend)⟩

end

/-- A time trigger is returned once a day at most, and not before its time. A day at whose ticks the
condition of a routine does not hold is neither a day it is returned on nor one that its guards have,
and the guards are all that keeps back a routine that is due. -/
theorem schedule_once_a_day (s : System) (ops : List TickOp) (hpf : ∀ now ∈ times ops, pf.Inverts now)
    (hmono : (times ops).Pairwise (· ≤ ·)) :
    (emissions (tickStep pf) (returned pf) s ops).Nodup ∧
    AllSteps (tickStep pf) (fun s op => ∀ now env houseHome, op = .tick now env houseHome →
      ∀ x ∈ (tick pf now env houseHome s.store s.engine).1, s.store.rows.get? x.1 = some x.2 ∧
        ∃ time, (x.2.trigger = .schedule time ∨ x.2.trigger = .houseAwayByTime time) ∧
          reached now time = true) s ops ∧
    (∀ rid day, AllSteps (tickStep pf) (Barred day rid) s ops →
      (rid, day) ∉ emissions (tickStep pf) (returned pf) s ops ∧
        (Consumed pf day rid (finish (tickStep pf) s ops) → Consumed pf day rid s)) ∧
    AllSteps (tickStep pf) (fun s op => ∀ now env houseHome rid r, op = .tick now env houseHome →
      s.store.rows.get? rid = some r → ((rid, now.date) ∈ returned pf s op ↔
        r.enabled = true ∧ gates now env houseHome r = true ∧ ¬ Consumed pf now.date rid s)) s ops := by
  refine ⟨nodup_emissions_returned hpf hmono s, ?_, fun rid day h => barred_run hpf h, ?_⟩
  · refine allSteps_of_forall fun op _ s now env houseHome _ x hx => ?_
    obtain ⟨hget, -, hgates, -⟩ := mem_tick.mp hx
    exact ⟨hget, (conditionOk_of_gates hgates).2⟩
  · refine allSteps_of_forall fun op _ s now env houseHome rid r hop hget => ?_
    subst hop
    exact returned_iff hget

/-- The first of March, at seven and at half past. -/
def sampleTimes : List (Datetime × String) :=
  [(⟨739676, 25200000000⟩, "2026-03-01T07:00:00"), (⟨739676, 27000000000⟩, "2026-03-01T07:30:00")]

def sampleText (t : Datetime) : String := ((sampleTimes.find? fun e => e.1 = t).map Prod.snd).getD ""

def samplePlatform : Platform where
  isoformat := sampleText
  fromisoformat text := (sampleTimes.find? fun e => e.2 = text).map Prod.fst

/-- One routine, for seven o'clock. -/
def sampleHouse : System :=
  ⟨⟨Dict.empty.set "lights" ⟨"lights", true, .schedule ⟨7, 0⟩, none, none⟩, 0⟩, newEngine⟩

/-- It fires at seven; half an hour later it does not, though the engine is a new one. -/
theorem schedule_once_a_day_sample :
    emissions (tickStep samplePlatform) (returned samplePlatform) sampleHouse
        [.tick ⟨739676, 25200000000⟩ ⟨false, none⟩ none, .restart,
          .tick ⟨739676, 27000000000⟩ ⟨false, none⟩ none] = [("lights", 739676)] ∧
      (emissions (tickStep samplePlatform) (returned samplePlatform) sampleHouse
        [.tick ⟨739676, 25200000000⟩ ⟨false, none⟩ none, .restart,
          .tick ⟨739676, 27000000000⟩ ⟨false, none⟩ none]).Nodup := by
  refine ⟨by decide +kernel, (schedule_once_a_day samplePlatform sampleHouse _ (fun now hnow => ?_) ?_).1⟩
  · rcases List.mem_cons.mp hnow with rfl | hnow
    · exact ⟨by decide, by decide⟩
    · obtain rfl := List.mem_singleton.mp hnow
      exact ⟨by decide, by decide⟩
  · decide

end Wavr.Routines
