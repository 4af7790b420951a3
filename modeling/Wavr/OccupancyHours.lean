import Mathlib.Algebra.BigOperators.Field
import Mathlib.Algebra.Order.Ring.Rat
import Wavr.Signal
import Wavr.Timebase

/-!
# The hours of a segment

`OccupancyLog._accumulate_hours` splits the time for which a room stays as it is at the hours of the
clock that the segment starts on. Instants are whole microseconds, seconds exact.
-/

namespace Wavr.Occupancy
open Signal
open Timebase (seconds)

def HOUR : ℤ := 3600000000
def DAY : ℤ := 86400000000

/-- An aware `datetime`: its instant, and how far its clock is ahead of UTC. -/
structure Moment where
  utc : ℤ
  offset : ℤ
  deriving DecidableEq

namespace Moment

def hour (m : Moment) : ℕ := ((m.utc + m.offset) / HOUR % 24).toNat

def date (m : Moment) : ℤ := (m.utc + m.offset) / DAY

def plus (m : Moment) (delta : ℤ) : Moment := { m with utc := m.utc + delta }

/-- `replace(minute=0, second=0, microsecond=0)`. -/
def hourStart (m : Moment) : Moment := { m with utc := m.utc - (m.utc + m.offset) % HOUR }

/-- `max(a, b)`. -/
def latest (a b : Moment) : Moment := if a.utc < b.utc then b else a

/-- `min(a, b)`. -/
def earliest (a b : Moment) : Moment := if b.utc < a.utc then b else a

end Moment

/-- The seconds and days by clock hour. -/
structure Tally where
  occSeconds : ℕ → ℚ
  totalSeconds : ℕ → ℚ
  dayHoursSeen : ℕ → Finset ℤ

def Tally.empty : Tally := ⟨fun _ => 0, fun _ => 0, fun _ => ∅⟩

/-- One slice of an hour. -/
def Tally.add (h : ℕ) (date : ℤ) (dur : ℚ) (occupied : Bool) (tally : Tally) : Tally where
  occSeconds := if occupied then
    Function.update tally.occSeconds h (tally.occSeconds h + dur) else tally.occSeconds
  totalSeconds := Function.update tally.totalSeconds h (tally.totalSeconds h + dur)
  dayHoursSeen := Function.update tally.dayHoursSeen h (insert date (tally.dayHoursSeen h))

/-- Where the hour that `m` is in ends. -/
def nextHour (m : Moment) : Moment := m.hourStart.plus HOUR

theorem lt_nextHour (m : Moment) : m.utc < (nextHour m).utc := by
  have hmod : (m.utc + m.offset) % HOUR < HOUR := Int.emod_lt_of_pos _ (by decide)
  show m.utc < m.utc - (m.utc + m.offset) % HOUR + HOUR
  omega

def accumulateHours (cur segEnd : Moment) (occupied : Bool) (tally : Tally) : Tally :=
  if cur.utc < segEnd.utc then
    let sliceEnd := Moment.earliest segEnd (nextHour cur)
    accumulateHours sliceEnd segEnd occupied
      (tally.add cur.hour cur.date (seconds (sliceEnd.utc - cur.utc)) occupied)
  else tally
termination_by (segEnd.utc - cur.utc).toNat
decreasing_by
  have hnext := lt_nextHour cur
  unfold Moment.earliest
  split <;> omega

/-- The clock hour of an instant on a clock with this offset. -/
def hourAt (offset t : ℤ) : ℕ := (Moment.mk t offset).hour

/-! ## What the loop adds -/

theorem seconds_add (a b : ℤ) : seconds (a + b) = seconds a + seconds b := by
  unfold Timebase.seconds
  rw [Int.cast_add, add_div]

@[simp] theorem seconds_zero : seconds 0 = 0 := zero_div _

theorem hourAt_eq {cur : Moment} {t : ℤ} (h : cur.utc ≤ t) (h' : t < (nextHour cur).utc) :
    hourAt cur.offset t = cur.hour := by
  have hdiv : (t + cur.offset) / HOUR = (cur.utc + cur.offset) / HOUR := by
    have hnext : t < cur.utc - (cur.utc + cur.offset) % HOUR + HOUR := h'
    unfold HOUR at *
    omega
  rw [hourAt, Moment.hour, hdiv]
  rfl

section
variable {cur segEnd : Moment} {tally : Tally} {occupied : Bool}

/-- A slice is all of one hour. -/
theorem span_slice {b : ℤ} (hcur : cur.utc ≤ b) (hb : b ≤ (nextHour cur).utc) (h : ℕ) :
    seconds (span (fun t => hourAt cur.offset t = h) cur.utc b) =
      if h = cur.hour then seconds (b - cur.utc) else 0 := by
  have hconst : ∀ t, cur.utc ≤ t → t < b → hourAt cur.offset t = cur.hour :=
    fun t hle hlt => hourAt_eq hle (hlt.trans_le hb)
  split
  · rename_i hh
    rw [span_of_all fun t hle hlt => (hconst t hle hlt).trans hh.symm,
      Int.toNat_of_nonneg (Int.sub_nonneg_of_le hcur)]
  · rename_i hh
    rw [span_of_none fun t hle hlt heq => hh (heq.symm.trans (hconst t hle hlt))]
    exact seconds_zero

theorem totalSeconds_add (h h' : ℕ) (date : ℤ) (dur : ℚ) :
    (tally.add h date dur occupied).totalSeconds h' =
      tally.totalSeconds h' + if h' = h then dur else 0 := by
  show Function.update tally.totalSeconds h (tally.totalSeconds h + dur) h' = _
  by_cases hh : h' = h
  · rw [hh, Function.update_self, if_pos rfl]
  · rw [Function.update_of_ne hh, if_neg hh, add_zero]

theorem occSeconds_add (h h' : ℕ) (date : ℤ) (dur : ℚ) :
    (tally.add h date dur occupied).occSeconds h' =
      tally.occSeconds h' + if occupied then (if h' = h then dur else 0) else 0 := by
  cases occupied with
  | false => exact (add_zero _).symm
  | true =>
    show Function.update tally.occSeconds h (tally.occSeconds h + dur) h' = _
    rw [if_pos rfl]
    by_cases hh : h' = h
    · rw [hh, Function.update_self, if_pos rfl]
    · rw [Function.update_of_ne hh, if_neg hh, add_zero]

/-- The hours between two instants fall in those up to the end of the slice and those behind it. -/
theorem span_sliceEnd (hlt : cur.utc < segEnd.utc) (h : ℕ) :
    seconds (span (fun t => hourAt cur.offset t = h) cur.utc segEnd.utc) =
      (if h = cur.hour then seconds ((Moment.earliest segEnd (nextHour cur)).utc - cur.utc) else 0) +
        seconds (span (fun t => hourAt (Moment.earliest segEnd (nextHour cur)).offset t = h)
          (Moment.earliest segEnd (nextHour cur)).utc segEnd.utc) := by
  have hnext := lt_nextHour cur
  by_cases hslice : (nextHour cur).utc < segEnd.utc
  · rw [Moment.earliest, if_pos hslice, span_add hnext.le hslice.le, Nat.cast_add, seconds_add,
      span_slice hnext.le le_rfl]
    rfl
  · rw [Moment.earliest, if_neg hslice, span_slice hlt.le (not_lt.mp hslice), span_eq_zero le_rfl,
      Nat.cast_zero, seconds_zero, add_zero]

/-- The loop adds the time from `cur` until `segEnd` to the hours it falls in. -/
theorem accumulateHours_spec (cur segEnd : Moment) (occupied : Bool) (tally : Tally) (h : ℕ) :
    (accumulateHours cur segEnd occupied tally).totalSeconds h = tally.totalSeconds h +
        seconds (span (fun t => hourAt cur.offset t = h) cur.utc segEnd.utc) ∧
      (accumulateHours cur segEnd occupied tally).occSeconds h = tally.occSeconds h +
        if occupied then seconds (span (fun t => hourAt cur.offset t = h) cur.utc segEnd.utc) else 0 := by
  fun_induction accumulateHours cur segEnd occupied tally with
  | case1 cur tally hlt sliceEnd ih =>
    obtain ⟨htotal, hocc⟩ := ih
    have hspan := span_sliceEnd hlt h
    constructor
    · rw [htotal, totalSeconds_add, hspan, add_assoc]
    · rw [hocc, occSeconds_add, hspan]
      cases occupied with
      | false => simp
      | true =>
        rw [if_pos rfl, if_pos rfl, if_pos rfl, add_assoc]
  | case2 cur tally hge =>
    rw [span_eq_zero (not_lt.mp hge)]
    simp

end

/-! ## Accounting -/

/-- One turn of the loop, on its cursor and what it has added up. -/
def turn (segEnd : Moment) (occupied : Bool) (s : Moment × Tally) : Moment × Tally :=
  let sliceEnd := Moment.earliest segEnd (nextHour s.1)
  (sliceEnd, s.2.add s.1.hour s.1.date (seconds (sliceEnd.utc - s.1.utc)) occupied)

end Wavr.Occupancy
