import Wavr.Episode
import Wavr.Timebase
import Wavr.Watch

/-!
# Fall suspicion

`FallDetector`: how long a room has been at risk, with one alert for each episode that reaches
the dwell. A report that cannot be dated changes nothing.
-/

namespace Wavr.FallDetect
open Episode Run
open Fusion (roundHalfEven)
open Timebase (seconds)
open Watch (SEVERITY_ALERT trim)

def FLICKER_GRACE_S : ℚ := 6

structure FallAlert where
  room : String
  durationS : ℚ
  severity : String
  ts : String
  deriving DecidableEq

structure FallDetector where
  dwellS : ℚ
  max : ℤ
  since : Dict String ℤ
  lastSeen : Dict String ℤ
  fired : Finset String
  alerts : List FallAlert
  deriving DecidableEq

def newDetector (dwellS : ℚ) (maxAlerts : ℤ) : FallDetector :=
  ⟨Max.max 0 dwellS, maxAlerts, .empty, .empty, ∅, []⟩

/-- `ts or now()`. -/
def stampOr (ts : Option String) (now : String) : String :=
  match ts with
  | some ts => if ts = "" then now else ts
  | none => now

/-- `round(x, 1)`. -/
def round1 (x : ℚ) : ℚ := roundHalfEven (x * 10) / 10

/-- A call of `record`, with the reading of the clock that it may take. -/
structure Report where
  room : String
  atRisk : Bool
  ts : Option String
  now : String
  deriving DecidableEq

def Report.stamp (r : Report) : String := stampOr r.ts r.now

variable (asUtc : String → Option ℤ)

def record (r : Report) (s : FallDetector) : Option FallAlert × FallDetector :=
  match asUtc r.stamp with
  | none => (none, s)
  | some now =>
    if r.atRisk = false then
      match s.lastSeen.get? r.room with
      | none => (none, s)
      | some last =>
        if FLICKER_GRACE_S < seconds (now - last) then
          (none, { s with
            since := s.since.erase r.room
            lastSeen := s.lastSeen.erase r.room
            fired := s.fired.erase r.room })
        else (none, s)
    else
      let seen := { s with lastSeen := s.lastSeen.set r.room now }
      match s.since.get? r.room with
      | none => (none, { seen with since := s.since.set r.room now })
      | some since =>
        let elapsed := seconds (now - since)
        if elapsed < s.dwellS ∨ r.room ∈ s.fired then (none, seen)
        else
          let alert : FallAlert := ⟨r.room, round1 elapsed, SEVERITY_ALERT, r.stamp⟩
          (some alert, { seen with
            fired := insert r.room s.fired
            alerts := trim s.max (s.alerts ++ [alert]) })

def reset (s : FallDetector) : FallDetector :=
  { s with since := .empty, lastSeen := .empty, fired := ∅ }

inductive Op
  | record (r : Report)
  | reset
  deriving DecidableEq

def apply (s : FallDetector) : Op → FallDetector
  | .record r => (record asUtc r s).2
  | .reset => reset s

/-! ## The episode of a room -/

def tooLong (gap : ℤ) : Bool := FLICKER_GRACE_S < seconds gap

/-- An episode that only a late report of no risk ends. -/
def keptPolicy : Policy := ⟨fun _ => false, tooLong⟩

/-- An episode that any report behind too long a gap ends. -/
def gracePolicy : Policy := ⟨tooLong, tooLong⟩

/-- What a call says of the room. -/
def input (room : String) : Op → Option Input
  | .record r => if r.room = room then (asUtc r.stamp).map fun t => .sample ⟨r.atRisk, t⟩ else none
  | .reset => some .reset

def inputs (room : String) (ops : List Op) : List Input := ops.filterMap (input asUtc room)

def timer (room : String) (s : FallDetector) : Option Timer := held s.since s.lastSeen room

/-- When a report is dated. -/
def instant : Op → Option ℤ
  | .record r => asUtc r.stamp
  | .reset => none

/-- The dates never go back. -/
def Chronological (ops : List Op) : Prop := (ops.filterMap (instant asUtc)).Pairwise (· ≤ ·)

/-- The at-risk reports of the room, from the one at `now` back to one at least the dwell
earlier, are nowhere more than the grace apart. -/
def Sustained (dwellS : ℚ) (now : ℤ) (history : List Input) : Prop :=
  ∃ older since window, history = older ++ .sample ⟨true, since⟩ :: window.map .sample ∧
    Unbroken ⟨tooLong, fun _ => false⟩ since window ∧ lastPositive since window = now ∧
    dwellS ≤ seconds (now - since)

/-- No report of risk carries on an episode behind a gap of more than the grace, unless the alert
of the episode is out, or every second report is an alert anyway. -/
def Timely (s : FallDetector) : Op → Prop
  | .record r => ∀ now last, asUtc r.stamp = some now → r.atRisk = true →
      s.lastSeen.get? r.room = some last →
      s.dwellS = 0 ∨ r.room ∈ s.fired ∨ seconds (now - last) ≤ FLICKER_GRACE_S
  | .reset => True

section
variable {asUtc} {s : FallDetector} {r : Report} {op : Op} {room : String} {alert : FallAlert}

theorem input_record_of_ne (h : room ≠ r.room) : input asUtc room (.record r) = none :=
  if_neg h.symm

theorem input_record_self {now : ℤ} (h : asUtc r.stamp = some now) :
    input asUtc r.room (.record r) = some (.sample ⟨r.atRisk, now⟩) := by
  simp [input, h]

/-- What a report can do. -/
inductive Recorded (asUtc : String → Option ℤ) (r : Report) (s : FallDetector) :
    Option FallAlert × FallDetector → Prop
  | undated (hat : asUtc r.stamp = none) : Recorded asUtc r s (none, s)
  | idle {now} (hat : asUtc r.stamp = some now) (hrisk : r.atRisk = false)
    (hlast : s.lastSeen.get? r.room = none) : Recorded asUtc r s (none, s)
  | within {now last} (hat : asUtc r.stamp = some now) (hrisk : r.atRisk = false)
    (hlast : s.lastSeen.get? r.room = some last) (hgap : tooLong (now - last) = false) :
    Recorded asUtc r s (none, s)
  | ended {now last} (hat : asUtc r.stamp = some now) (hrisk : r.atRisk = false)
    (hlast : s.lastSeen.get? r.room = some last) (hgap : tooLong (now - last) = true) :
    Recorded asUtc r s (none, { s with
      since := s.since.erase r.room
      lastSeen := s.lastSeen.erase r.room
      fired := s.fired.erase r.room })
  | began {now} (hat : asUtc r.stamp = some now) (hrisk : r.atRisk = true)
    (hsince : s.since.get? r.room = none) :
    Recorded asUtc r s (none, { s with
      since := s.since.set r.room now
      lastSeen := s.lastSeen.set r.room now })
  | carried {now since} (hat : asUtc r.stamp = some now) (hrisk : r.atRisk = true)
    (hsince : s.since.get? r.room = some since) :
    Recorded asUtc r s (none, { s with lastSeen := s.lastSeen.set r.room now })
  | raised {now since alerts} (hat : asUtc r.stamp = some now) (hrisk : r.atRisk = true)
    (hsince : s.since.get? r.room = some since) (hdwell : s.dwellS ≤ seconds (now - since))
    (hfired : r.room ∉ s.fired) :
    Recorded asUtc r s (some ⟨r.room, round1 (seconds (now - since)), SEVERITY_ALERT, r.stamp⟩,
      { s with
        lastSeen := s.lastSeen.set r.room now
        fired := insert r.room s.fired
        alerts := alerts })

theorem record_recorded (asUtc : String → Option ℤ) (r : Report) (s : FallDetector) :
    Recorded asUtc r s (record asUtc r s) := by
  unfold record
  split
  · rename_i hat
    exact .undated hat
  · rename_i now hat
    split
    · rename_i hrisk
      split
      · rename_i hlast
        exact .idle hat hrisk hlast
      · rename_i last hlast
        split
        · rename_i hgap
          exact .ended hat hrisk hlast (by simpa [tooLong] using hgap)
        · rename_i hgap
          exact .within hat hrisk hlast (by simpa [tooLong] using hgap)
    · rename_i hrisk
      have hrisk : r.atRisk = true := Bool.eq_true_of_not_eq_false hrisk
      dsimp only
      split
      · rename_i hsince
        exact .began hat hrisk hsince
      · rename_i since hsince
        split
        · exact .carried hat hrisk hsince
        · rename_i hdue
          obtain ⟨hdwell, hfired⟩ := not_or.mp hdue
          exact .raised hat hrisk hsince (not_lt.mp hdwell) hfired

theorem paired_apply (h : Paired s.since s.lastSeen) (op : Op) :
    Paired (apply asUtc s op).since (apply asUtc s op).lastSeen := by
  cases op with
  | reset => exact fun k => Iff.rfl
  | record r =>
    unfold apply
    dsimp only
    have hrec := record_recorded asUtc r s
    generalize record asUtc r s = out at hrec ⊢
    cases hrec with
    | undated | idle | within => exact h
    | ended => exact h.erase r.room
    | began => exact h.begin r.room _
    | carried _ _ hsince | raised _ _ hsince => exact h.extend hsince _

/-- A report is about its own room only. -/
theorem timer_apply_other (r : Report) (h : room ≠ r.room) :
    timer room (apply asUtc s (.record r)) = timer room s := by
  unfold apply timer
  dsimp only
  have hrec := record_recorded asUtc r s
  generalize record asUtc r s = out at hrec ⊢
  cases hrec with
  | undated | idle | within => rfl
  | ended => rw [held_erase, if_neg h]
  | began => rw [held_begin, if_neg h]
  | carried _ _ hsince | raised _ _ hsince => rw [held_extend hsince, if_neg h]

theorem timer_apply_own (h : Paired s.since s.lastSeen) {now : ℤ} (hat : asUtc r.stamp = some now) :
    timer r.room (apply asUtc s (.record r)) =
      Episode.step keptPolicy (timer r.room s) (.sample ⟨r.atRisk, now⟩) := by
  unfold apply timer
  dsimp only
  have hrec := record_recorded asUtc r s
  generalize record asUtc r s = out at hrec ⊢
  rcases h.cases r.room with ⟨hnone, hnoLast, hheld⟩ | ⟨e, hsome, hsomeLast, hheld⟩
  · rw [hheld]
    cases hrec with
    | undated hat' => cases hat'.symm.trans hat
    | idle _ hrisk => simp [Episode.step, hrisk, hheld]
    | within _ _ hlast | ended _ _ hlast => cases hlast.symm.trans hnoLast
    | began hat' hrisk =>
      cases hat'.symm.trans hat
      simp [Episode.step, hrisk, held_begin]
    | carried _ _ hsince | raised _ _ hsince => cases hsince.symm.trans hnone
  · rw [hheld]
    cases hrec with
    | undated hat' => cases hat'.symm.trans hat
    | idle _ _ hlast => cases hlast.symm.trans hsomeLast
    | within hat' hrisk hlast hgap =>
      cases hat'.symm.trans hat
      cases hlast.symm.trans hsomeLast
      simp [Episode.step, keptPolicy, hrisk, hgap, hheld]
    | ended hat' hrisk hlast hgap =>
      cases hat'.symm.trans hat
      cases hlast.symm.trans hsomeLast
      simp [Episode.step, keptPolicy, hrisk, hgap, held_erase]
    | began _ _ hsince => cases hsince.symm.trans hsome
    | carried hat' hrisk hsince | raised hat' hrisk hsince =>
      cases hat'.symm.trans hat
      simp [Episode.step, keptPolicy, hrisk, held_extend hsome]

/-- A call moves the episode of a room by what it says of the room. -/
theorem timer_apply (h : Paired s.since s.lastSeen) (op : Op) :
    timer room (apply asUtc s op) =
      finish (Episode.step keptPolicy) (timer room s) (input asUtc room op).toList := by
  cases op with
  | reset => rfl
  | record r =>
    by_cases hroom : room = r.room
    · subst hroom
      cases hat : asUtc r.stamp with
      | none => simp [input, apply, record, hat]
      | some now =>
        rw [input_record_self hat, timer_apply_own h hat]
        rfl
    · rw [input_record_of_ne hroom, timer_apply_other r hroom]
      rfl

/-- An episode whose alert is out goes on until it ends. -/
theorem timer_eq_none_of_cleared (hfired : room ∈ s.fired) (hcleared : room ∉ (apply asUtc s op).fired) :
    timer room (apply asUtc s op) = none := by
  cases op with
  | reset => rfl
  | record r =>
    unfold apply timer at *
    dsimp only at *
    have hrec := record_recorded asUtc r s
    generalize record asUtc r s = out at hrec hcleared ⊢
    cases hrec with
    | undated | idle | within | began | carried => exact absurd hfired hcleared
    | ended =>
      have hroom : room = r.room := by
        by_contra hne
        exact hcleared (Finset.mem_erase.mpr ⟨hne, hfired⟩)
      rw [held_erase, if_pos hroom]
    | raised => exact absurd (Finset.mem_insert_of_mem hfired) hcleared

theorem dwellS_apply (op : Op) : (apply asUtc s op).dwellS = s.dwellS := by
  cases op with
  | reset => rfl
  | record r =>
    unfold apply
    dsimp only
    have hrec := record_recorded asUtc r s
    generalize record asUtc r s = out at hrec ⊢
    cases hrec <;> rfl

/-! ## Runs -/

/-- Until its alert is out, the episode of a room is the one that the grace allows. -/
structure Follows (room : String) (history : List Input) (s : FallDetector) : Prop where
  paired : Paired s.since s.lastSeen
  last : (timer room s).map Timer.last = (finish (Episode.step gracePolicy) none history).map Timer.last
  same : room ∉ s.fired → timer room s = finish (Episode.step gracePolicy) none history

/-- What the room's episode does at a call that keeps to the grace. -/
theorem step_kept_eq_grace (hpaired : Paired s.since s.lastSeen) (hdwell : s.dwellS ≠ 0)
    (hfired : room ∉ s.fired) (hok : Timely asUtc s op) {i : Input} (hi : input asUtc room op = some i) :
    Episode.step keptPolicy (timer room s) i = Episode.step gracePolicy (timer room s) i := by
  refine step_congr (p := keptPolicy) (q := gracePolicy) rfl fun e t he hit => ?_
  cases op with
  | reset => cases hit.symm.trans (Option.some.inj hi).symm
  | record r =>
    have hroom : room = r.room := by
      by_contra hne
      cases (input_record_of_ne hne).symm.trans hi
    subst hroom
    cases hat : asUtc r.stamp with
    | none => simp [input, hat] at hi
    | some now =>
      have hsample := Option.some.inj (((input_record_self hat).symm.trans hi).trans (congrArg some hit))
      obtain ⟨hrisk, rfl⟩ : r.atRisk = true ∧ now = t := by simpa using hsample
      have hlast : s.lastSeen.get? r.room = some e.last := by
        rcases hpaired.cases r.room with ⟨-, -, hheld⟩ | ⟨e', -, hlast, hheld⟩
        · cases hheld.symm.trans he
        · cases hheld.symm.trans he
          exact hlast
      have hgap : tooLong (now - e.last) = false := by
        rcases hok now e.last hat hrisk hlast with h | h | h
        · exact absurd h hdwell
        · exact absurd h hfired
        · simpa [tooLong] using h
      exact hgap.symm

theorem Follows.apply {history : List Input} (h : Follows room history s) (hdwell : s.dwellS ≠ 0)
    (hok : Timely asUtc s op) :
    Follows room (history ++ (input asUtc room op).toList) (apply asUtc s op) := by
  have hlast : (timer room (FallDetect.apply asUtc s op)).map Timer.last =
      (finish (Episode.step gracePolicy) none (history ++ (input asUtc room op).toList)).map Timer.last := by
    rw [timer_apply h.paired op, finish_append]
    cases input asUtc room op with
    | none => exact h.last
    | some i => exact map_last_step (p := keptPolicy) (q := gracePolicy) rfl h.last i
  refine ⟨paired_apply h.paired op, hlast, fun hclear => ?_⟩
  by_cases hfired : room ∈ s.fired
  · -- the alert is taken back only with the episode
    have hnone := timer_eq_none_of_cleared hfired hclear
    rw [hnone] at hlast ⊢
    exact (Option.map_eq_none_iff.mp hlast.symm).symm
  · rw [timer_apply h.paired op, finish_append, ← h.same hfired]
    cases hi : input asUtc room op with
    | none => rfl
    | some i => exact step_kept_eq_grace h.paired hdwell hfired hok hi

theorem follows_newDetector (room : String) (dwellS : ℚ) (maxAlerts : ℤ) :
    Follows room [] (newDetector dwellS maxAlerts) :=
  ⟨fun _ => Iff.rfl, rfl, fun _ => rfl⟩

theorem follows_run (hdwell : s.dwellS ≠ 0) {history : List Input} (h : Follows room history s)
    {ops : List Op} (hok : AllSteps (apply asUtc) (Timely asUtc) s ops) :
    Follows room (history ++ inputs asUtc room ops) (finish (apply asUtc) s ops) := by
  induction ops generalizing s history with
  | nil => simpa [inputs] using h
  | cons op ops ih =>
    have hnext := ih ((dwellS_apply op).trans_ne hdwell) (h.apply hdwell hok.1) hok.2
    rwa [inputs, filterMap_cons_eq_append, ← List.append_assoc]

theorem record_raises (h : (record asUtc r s).1 = some alert) :
    ∃ now since, asUtc r.stamp = some now ∧ r.atRisk = true ∧ s.since.get? r.room = some since ∧
      s.dwellS ≤ seconds (now - since) ∧ r.room ∉ s.fired ∧
      alert = ⟨r.room, round1 (seconds (now - since)), SEVERITY_ALERT, r.stamp⟩ := by
  have hrec := record_recorded asUtc r s
  generalize record asUtc r s = out at hrec h
  cases hrec with
  | undated | idle | within | ended | began | carried => cases h
  | raised hat hrisk hsince hdwell hfired =>
    exact ⟨_, _, hat, hrisk, hsince, hdwell, hfired, (Option.some.inj h).symm⟩

/-- A report that is dated and at risk is enough of a chain where there is no dwell. -/
theorem sustained_of_dwell_zero (now : ℤ) (history : List Input) :
    Sustained 0 now (history ++ [.sample ⟨true, now⟩]) :=
  ⟨history, now, [], rfl, trivial, rfl, by simp [seconds]⟩

theorem Follows.sustained {history : List Input} (h : Follows r.room history s)
    (hok : Timely asUtc s (.record r)) (hraised : (record asUtc r s).1 = some alert) :
    ∃ now, asUtc r.stamp = some now ∧
      Sustained s.dwellS now (history ++ (input asUtc r.room (.record r)).toList) := by
  obtain ⟨now, since, hat, hrisk, hsince, hdwell, hfired, -⟩ := record_raises hraised
  refine ⟨now, hat, ?_⟩
  rw [input_record_self hat, hrisk]
  by_cases hzero : s.dwellS = 0
  · rw [hzero]
    exact sustained_of_dwell_zero now history
  obtain ⟨e, hsince', -, hheld⟩ := (h.paired.cases r.room).resolve_left fun hnone => by
    cases hsince.symm.trans hnone.1
  have hsinceEq : since = e.since := Option.some.inj (hsince.symm.trans hsince')
  have htimer : timer r.room s = some e := hheld
  have hend : finish (Episode.step gracePolicy) none (history ++ [.sample ⟨true, now⟩]) =
      some ⟨since, now⟩ := by
    have hstep := step_kept_eq_grace h.paired hzero hfired hok (input_record_self hat)
    rw [hrisk] at hstep
    rw [finish_append, ← h.same hfired, finish_cons, finish_nil, ← hstep, htimer, hsinceEq]
    rfl
  obtain ⟨older, window, hhistory, hunbroken, hwindow⟩ := holds_of_finish gracePolicy _ _ hend
  refine ⟨older, since, window, hhistory, hunbroken.mono fun last x hbreaks => ?_, hwindow, hdwell⟩
  obtain ⟨positive, t⟩ := x
  cases positive with
  | true => exact hbreaks
  | false => cases hbreaks

/-- An alert is raised behind a chain of at-risk reports as long as the dwell, where no report of
risk carries on an episode behind a gap of more than the grace. -/
theorem alert_sustained (asUtc : String → Option ℤ) (dwellS : ℚ) (maxAlerts : ℤ) (ops : List Op)
    (r : Report) (alert : FallAlert)
    (hok : AllSteps (apply asUtc) (Timely asUtc) (newDetector dwellS maxAlerts) (ops ++ [.record r]))
    (hraised : (record asUtc r (finish (apply asUtc) (newDetector dwellS maxAlerts) ops)).1 = some alert) :
    ∃ now, asUtc r.stamp = some now ∧
      Sustained (max 0 dwellS) now (inputs asUtc r.room (ops ++ [.record r])) := by
  obtain ⟨hops, hlast, -⟩ := allSteps_append.mp hok
  have hdwell : (finish (apply asUtc) (newDetector dwellS maxAlerts) ops).dwellS = max 0 dwellS :=
    finish_of_invariant (I := fun s => s.dwellS = max 0 dwellS)
      (fun s op hs _ => (dwellS_apply op).trans hs) rfl hops
  rw [inputs, filterMap_append_singleton]
  by_cases hzero : max 0 dwellS = 0
  · obtain ⟨now, -, hat, hrisk, -⟩ := record_raises hraised
    refine ⟨now, hat, ?_⟩
    rw [input_record_self hat, hrisk, hzero]
    exact sustained_of_dwell_zero now _
  · have hfollows := follows_run hzero (follows_newDetector r.room dwellS maxAlerts) hops
    have hsustained := hfollows.sustained hlast hraised
    rwa [hdwell] at hsustained

/-! ## Two reports of risk -/

/-- Midnight, five seconds past, and a hundred seconds past, as texts and in microseconds. -/
def parse (ts : String) : Option ℤ :=
  if ts = "2026-01-01T00:00:00+00:00" then some 1767225600000000
  else if ts = "2026-01-01T00:00:05+00:00" then some 1767225605000000
  else if ts = "2026-01-01T00:01:40+00:00" then some 1767225700000000
  else none

def lying (ts : String) : Report := ⟨"quarto", true, some ts, "2026-01-01T00:00:00+00:00"⟩

/-- With a dwell of five seconds, a second report in time. -/
theorem alert_sustained_in_time : ∃ now, parse (lying "2026-01-01T00:00:05+00:00").stamp = some now ∧
    Sustained (max 0 5) now (inputs parse "quarto" [.record (lying "2026-01-01T00:00:00+00:00"),
      .record (lying "2026-01-01T00:00:05+00:00")]) :=
  alert_sustained parse 5 50 [.record (lying "2026-01-01T00:00:00+00:00")]
    (lying "2026-01-01T00:00:05+00:00")
    ⟨"quarto", 5, "alert", "2026-01-01T00:00:05+00:00"⟩
    ⟨fun _ _ _ _ hlast => by simp [newDetector] at hlast,
      fun now last hnow _ hlast => by
        have hnow : now = 1767225605000000 := by simpa [parse, lying, Report.stamp, stampOr] using hnow.symm
        have hlast : last = 1767225600000000 := by
          simpa [apply, record, newDetector, parse, lying, Report.stamp, stampOr] using hlast.symm
        refine .inr (.inr ?_)
        rw [hnow, hlast]
        decide +kernel,
      trivial⟩
    (by decide +kernel)

/-- Nothing is heard of the room for a hundred seconds between two reports of risk, and the second
one is an alert of a minute's dwell. -/
theorem alert_over_silence :
    Chronological parse [.record (lying "2026-01-01T00:00:00+00:00"),
      .record (lying "2026-01-01T00:01:40+00:00")] ∧
    ((record parse (lying "2026-01-01T00:01:40+00:00") (finish (apply parse) (newDetector 60 50)
      [.record (lying "2026-01-01T00:00:00+00:00")])).1.map FallAlert.durationS) = some 100 ∧
    ¬ ∃ now, parse (lying "2026-01-01T00:01:40+00:00").stamp = some now ∧
      Sustained 60 now (inputs parse "quarto" [.record (lying "2026-01-01T00:00:00+00:00"),
        .record (lying "2026-01-01T00:01:40+00:00")]) := by
  refine ⟨?_, by decide +kernel, ?_⟩
  · unfold Chronological
    decide +kernel
  · rintro ⟨now, -, older, since, window, hhistory, hunbroken, hlast, hdwell⟩
    have hinputs : inputs parse "quarto" [.record (lying "2026-01-01T00:00:00+00:00"),
        .record (lying "2026-01-01T00:01:40+00:00")] =
        [.sample ⟨true, 1767225600000000⟩, .sample ⟨true, 1767225700000000⟩] := by decide +kernel
    rw [hinputs] at hhistory
    cases older with
    | nil =>
      -- the chain is both reports, and they are too far apart
      obtain ⟨hsince, hwindow⟩ := List.cons.inj hhistory
      cases window with
      | nil => cases hwindow
      | cons x xs =>
        cases hsince
        cases (List.cons.inj hwindow).1
        exact absurd hunbroken.1 (by decide +kernel)
    | cons x older =>
      obtain ⟨-, hrest⟩ := List.cons.inj hhistory
      cases older with
      | nil =>
        -- the chain is the last report alone
        obtain ⟨-, hwindow⟩ := List.cons.inj hrest
        obtain rfl := List.map_eq_nil_iff.mp hwindow.symm
        obtain rfl : since = now := hlast
        rw [Int.sub_self] at hdwell
        exact absurd hdwell (by decide +kernel)
      | cons y older =>
        have hlength := congrArg List.length hrest
        simp at hlength

end

end Wavr.FallDetect
