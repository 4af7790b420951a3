import Wavr.OccupancyHours
import Wavr.OccupancyLog

/-!
# The routine of a room

`OccupancyLog.routine`: the share of each clock hour for which a room was occupied, over a window
that ends now. The rows of the window come from `timeline`, and the row before it seeds the first
interval. Instants are whole microseconds, seconds exact.
-/

namespace Wavr.Occupancy
open Fusion Signal
open Timebase (seconds micros)

/-- What the interpreter supplies: the clock reading of a text with the offset it states, if any,
and the text of a moment. -/
structure Calendar where
  fromisoformat : String → Option (ℤ × Option ℤ)
  isoformat : Moment → String

section
variable {R : Type} (cal : Calendar)

/-- `_parse`; nothing where `fromisoformat` raises. -/
def parse (ts : String) : Option Moment :=
  (cal.fromisoformat ts).map fun stated =>
    ⟨stated.1 - stated.2.getD 0, stated.2.getD 0⟩

/-- `timeline`: by `ts`, the newest `limit` of those that pass. -/
def timeline (room start end' : Option String) (limit : ℤ) (table : List (String × Row R)) :
    List (String × Row R) :=
  let rows := inOrder (fun e => e.2.ts) (table.filter fun e =>
    room.all (e.1 = ·) ∧ start.all (· ≤ e.2.ts) ∧ end'.all (e.2.ts < ·))
  rows.drop (rows.length - (max 1 (min limit 5000)).toNat)

/-- The last row of the room strictly before a stamp. -/
def prior (room start : String) (table : List (String × Row R)) : Option (String × Row R) :=
  (inOrder (fun e => e.2.ts) (table.filter fun e => e.1 = room ∧ e.2.ts < start)).getLast?

/-- `segments[i + 1]["ts"]`; the last segment holds until now. -/
def nextStart (now : Moment) : List (String × Row R) → Option Moment
  | [] => some now
  | next :: _ => parse cal next.2.ts

/-- The loop over the segments; nothing where a stamp does not parse. -/
def accumulate (windowStart now : Moment) :
    List (String × Row R) → Tally → Option Tally
  | [], tally => some tally
  | seg :: rest, tally => do
    let stamped ← parse cal seg.2.ts
    let next ← nextStart cal now rest
    let segStart := Moment.latest stamped windowStart
    let segEnd := Moment.earliest next now
    accumulate windowStart now rest (if segEnd.utc ≤ segStart.utc then tally
      else accumulateHours segStart segEnd seg.2.occupied tally)

structure HourCell where
  hour : ℕ
  probability : Option ℚ
  samples : ℕ
  trusted : Bool
  deriving DecidableEq

structure Baseline where
  room : String
  weeks : ℚ
  hours : List HourCell
  deriving DecidableEq

def clampWeeks (weeks : ℚ) : ℚ := max (1 / 168) (min weeks 104)

/-- Where the window that ends `now` starts. -/
def windowStart (weeks : ℚ) (now : Moment) : Moment :=
  now.plus (- micros (clampWeeks weeks * 604800))

/-- The row before the window, and those of the window that `timeline` gives. -/
def segments (room : String) (weeks : ℚ) (now : Moment) (table : List (String × Row R)) :
    List (String × Row R) :=
  let start := cal.isoformat (windowStart weeks now)
  (prior room start table).toList ++ timeline (some room) (some start) (some (cal.isoformat now)) 5000 table

def emptyCell (h : ℕ) : HourCell := ⟨h, none, 0, false⟩

def cell (minSamples : ℤ) (tally : Tally) (h : ℕ) : HourCell :=
  let samples := (tally.dayHoursSeen h).card
  let tot := tally.totalSeconds h
  let prob := if 0 < tot then some (tally.occSeconds h / tot) else none
  ⟨h, prob.map ratArith.round3, samples, minSamples ≤ samples⟩

/-- `routine`; nothing where it raises. -/
def routine (room : String) (weeks : ℚ) (now : Moment) (minSamples : ℤ)
    (table : List (String × Row R)) : Option Baseline :=
  let segs := segments cal room weeks now table
  if segs.isEmpty then some ⟨room, clampWeeks weeks, (List.range 24).map emptyCell⟩
  else (accumulate cal (windowStart weeks now) now segs .empty).map fun tally =>
    ⟨room, clampWeeks weeks, (List.range 24).map (cell minSamples tally)⟩

/-! ## The duty cycle -/

/-- What the log has said of the room, and since when. -/
def history (room : String) (table : List (String × Row R)) : List (ℤ × Bool) :=
  (table.filter fun e => e.1 = room).filterMap fun e =>
    (parse cal e.2.ts).map fun m => (m.utc, e.2.occupied)

/-- The fraction of the time in clock hour `h` from `a` until `b`, as far as the history covers it,
during which its last row said occupied. -/
def dutyCycle (hist : List (ℤ × Bool)) (offset a b : ℤ) (h : ℕ) : Option ℚ :=
  let covered := span (fun t => hourAt offset t = h ∧ (valueAt hist t).isSome) a b
  let occupied := span (fun t => hourAt offset t = h ∧ valueAt hist t = some true) a b
  if covered = 0 then none else some (occupied / covered)

/-- Every hour of the routine has the duty cycle for its probability. -/
def IsDutyCycle (room : String) (weeks : ℚ) (now : Moment) (minSamples : ℤ)
    (table : List (String × Row R)) : Prop :=
  ∃ base, routine cal room weeks now minSamples table = some base ∧
    base.hours.map HourCell.probability = (List.range 24).map fun h =>
      (dutyCycle (history cal room table) now.offset (windowStart weeks now).utc now.utc h).map
        ratArith.round3

/-- The rows of the room from `start` until `end'`. -/
def inWindow (room start end' : String) (table : List (String × Row R)) : List (String × Row R) :=
  inOrder (fun e => e.2.ts) (table.filter fun e => e.1 = room ∧ start ≤ e.2.ts ∧ e.2.ts < end')

/-- Those of them that `timeline` leaves out. -/
def beyondLimit (room start end' : String) (table : List (String × Row R)) : List (String × Row R) :=
  let rows := inWindow room start end' table
  rows.take (rows.length - 5000)

/-- The stamps of the room stand as texts where they stand as moments: on the same side of each end of
the window, and in the window in the same order, with the window's offset. The last row before the
window by its stamp is the one that held when it opened. -/
structure Orderly (room : String) (start now : Moment) (table : List (String × Row R)) : Prop where
  sides : ∀ e ∈ table, e.1 = room → ∀ m, parse cal e.2.ts = some m →
    (e.2.ts < cal.isoformat start ↔ m.utc < start.utc) ∧ (e.2.ts < cal.isoformat now ↔ m.utc < now.utc)
  reads : ∀ e ∈ inWindow room (cal.isoformat start) (cal.isoformat now) table,
    ∃ m, parse cal e.2.ts = some m ∧ m.offset = now.offset
  ordered : ∀ e ∈ inWindow room (cal.isoformat start) (cal.isoformat now) table,
    ∀ e' ∈ inWindow room (cal.isoformat start) (cal.isoformat now) table, ∀ m m',
    parse cal e.2.ts = some m → parse cal e'.2.ts = some m' → (e.2.ts < e'.2.ts ↔ m.utc < m'.utc)
  seed : ∀ e ∈ prior room (cal.isoformat start) table, ∃ m, parse cal e.2.ts = some m
  seeded : (prior room (cal.isoformat start) table).map (fun e => e.2.occupied) =
    valueAt (history cal room table) (start.utc - 1)

/-- The stamps are in order, and a row beyond the read limit says what the row before the window says. -/
structure Readable (room : String) (weeks : ℚ) (now : Moment) (table : List (String × Row R)) :
    Prop where
  orderly : Orderly cal room (windowStart weeks now) now table
  limit : ∀ e ∈ beyondLimit room (cal.isoformat (windowStart weeks now)) (cal.isoformat now) table,
    (prior room (cal.isoformat (windowStart weeks now)) table).map (fun e => e.2.occupied) =
      some e.2.occupied

/-! ## Segments -/

section
variable {room : String} {W now : Moment} {segs table : List (String × Row R)}

/-- What a row says, and since when. -/
def said (e : String × Row R) : ℤ × Bool := (((parse cal e.2.ts).map Moment.utc).getD 0, e.2.occupied)

variable {cal}

theorem utc_latest (a b : Moment) : (Moment.latest a b).utc = max a.utc b.utc := by
  unfold Moment.latest
  split
  · exact (max_eq_right (le_of_lt ‹_›)).symm
  · exact (max_eq_left (not_lt.mp ‹_›)).symm

theorem utc_earliest (a b : Moment) : (Moment.earliest a b).utc = min a.utc b.utc := by
  unfold Moment.earliest
  split
  · exact (min_eq_right (le_of_lt ‹_›)).symm
  · exact (min_eq_left (not_lt.mp ‹_›)).symm

/-- A segment adds the time from its start until its end, if there is any. -/
theorem segment_spec (segStart segEnd : Moment) {offset : ℤ} (occupied : Bool) (tally : Tally)
    (hoff : segStart.utc < segEnd.utc → segStart.offset = offset) (h : ℕ) :
    let tally' := if segEnd.utc ≤ segStart.utc then tally
      else accumulateHours segStart segEnd occupied tally
    let spent := span (fun t => hourAt offset t = h) segStart.utc segEnd.utc
    tally'.totalSeconds h = tally.totalSeconds h + seconds spent ∧
      tally'.occSeconds h = tally.occSeconds h + seconds (if occupied then spent else 0 : ℕ) := by
  dsimp only
  split
  · rename_i hle
    rw [span_eq_zero hle]
    simp
  · rename_i hlt
    obtain ⟨htotal, hocc⟩ := accumulateHours_spec segStart segEnd occupied tally h
    rw [hoff (not_le.mp hlt)] at htotal hocc
    refine ⟨htotal, hocc.trans ?_⟩
    cases occupied with
    | false => simp
    | true => rfl

/-- The seconds for which the segments read so, in clock hour `h` of the window. -/
def heldSeconds (q : Bool → Bool) (W now : Moment) (steps : List (ℤ × Bool)) (h : ℕ) : ℚ :=
  seconds (span (fun t => hourAt W.offset t = h ∧ (held steps t).any q) W.utc now.utc)

theorem heldSeconds_cons {steps : List (ℤ × Bool)} {step : ℤ × Bool}
    (h : Sorted Prod.fst (step :: steps)) (q : Bool → Bool) (k : ℕ) :
    heldSeconds q W now (step :: steps) k =
      seconds (if q step.2 then
        span (fun t => hourAt W.offset t = k) (max step.1 W.utc) (endOf steps now.utc) else 0 : ℕ) +
      heldSeconds q W now steps k := by
  rw [heldSeconds, span_held_cons q h, Nat.cast_add, seconds_add]
  rfl

/-- A segment ends where the next one starts, or now. -/
theorem exists_nextStart (now : Moment) (hreads : ∀ e ∈ segs, ∃ m, parse cal e.2.ts = some m) :
    ∃ next, nextStart cal now segs = some next ∧
      endOf (segs.map (said cal)) now.utc = (Moment.earliest next now).utc := by
  cases segs with
  | nil => exact ⟨now, rfl, ((utc_earliest now now).trans (min_self _)).symm⟩
  | cons next segs =>
    obtain ⟨m, hm⟩ := hreads next List.mem_cons_self
    refine ⟨m, hm, ?_⟩
    rw [utc_earliest]
    simp [endOf, said, hm]

/-- A segment that has any time in the window starts with the window's offset. -/
theorem offset_latest {m : Moment} (hoffset : W.utc ≤ m.utc → m.utc < now.utc → m.offset = W.offset)
    {next : Moment} (hlt : (Moment.latest m W).utc < (Moment.earliest next now).utc) :
    (Moment.latest m W).offset = W.offset := by
  rw [utc_latest, utc_earliest] at hlt
  unfold Moment.latest
  split
  · rfl
  · rename_i hle
    exact hoffset (not_lt.mp hle) ((le_max_left _ _).trans_lt (hlt.trans_le (min_le_right _ _)))

/-- The loop adds up for how long the segments hold in the window, and for how long as occupied. -/
theorem accumulate_spec (hreads : ∀ e ∈ segs, ∃ m, parse cal e.2.ts = some m ∧
      (W.utc ≤ m.utc → m.utc < now.utc → m.offset = W.offset))
    (hsorted : Sorted Prod.fst (segs.map (said cal))) (tally : Tally) :
    ∃ tally', accumulate cal W now segs tally = some tally' ∧ ∀ h,
      tally'.totalSeconds h = tally.totalSeconds h +
        heldSeconds (fun _ => true) W now (segs.map (said cal)) h ∧
      tally'.occSeconds h = tally.occSeconds h + heldSeconds id W now (segs.map (said cal)) h := by
  induction segs generalizing tally with
  | nil =>
    refine ⟨tally, rfl, fun h => ?_⟩
    simp [heldSeconds, span_of_none]
  | cons seg rest ih =>
    obtain ⟨m, hm, hoffset⟩ := hreads seg List.mem_cons_self
    have hrest : ∀ e ∈ rest, ∃ m, parse cal e.2.ts = some m := fun e he =>
      (hreads e (List.mem_cons_of_mem _ he)).imp fun _ => And.left
    obtain ⟨next, hnext, hend⟩ := exists_nextStart now hrest
    have hstep := segment_spec (Moment.latest m W) (Moment.earliest next now) seg.2.occupied tally
      (offset_latest hoffset)
    obtain ⟨tally', htally', hspent⟩ := ih (fun e he => hreads e (List.mem_cons_of_mem _ he))
      (List.pairwise_cons.mp hsorted).2 _
    have hstart : max (said cal seg).1 W.utc = (Moment.latest m W).utc := by
      rw [utc_latest]
      simp [said, hm]
    refine ⟨tally', ?_, fun h => ?_⟩
    · rw [accumulate, hm, hnext]
      exact htally'
    · rw [List.map_cons, heldSeconds_cons hsorted, heldSeconds_cons hsorted, hstart, hend, (hspent h).1,
        (hspent h).2, (hstep h).1, (hstep h).2, add_assoc, add_assoc]
      exact ⟨rfl, rfl⟩

/-! ## What the segments leave out -/

theorem mem_inWindow {start end' : String} {e : String × Row R} :
    e ∈ inWindow room start end' table ↔ e ∈ table ∧ e.1 = room ∧ start ≤ e.2.ts ∧ e.2.ts < end' := by
  rw [inWindow, mem_inOrder, List.mem_filter, decide_eq_true_iff]

theorem timeline_eq (start end' : String) :
    timeline (some room) (some start) (some end') 5000 table =
      (inWindow room start end' table).drop ((inWindow room start end' table).length - 5000) := by
  have hfilter : (table.filter fun e => (some room).all (e.1 = ·) ∧ (some start).all (· ≤ e.2.ts) ∧
      (some end').all (e.2.ts < ·)) =
        table.filter fun e => e.1 = room ∧ start ≤ e.2.ts ∧ e.2.ts < end' :=
    List.filter_congr fun e _ => by simp
  unfold timeline
  rw [hfilter]
  rfl

theorem inWindow_eq (start end' : String) : inWindow room start end' table =
    beyondLimit room start end' table ++ timeline (some room) (some start) (some end') 5000 table := by
  rw [timeline_eq]
  exact (List.take_append_drop _ _).symm

theorem mem_prior {start : String} {e : String × Row R} (h : prior room start table = some e) :
    e ∈ table ∧ e.1 = room ∧ e.2.ts < start := by
  have hmem : e ∈ inOrder (fun e => e.2.ts) (table.filter fun e => e.1 = room ∧ e.2.ts < start) :=
    List.mem_of_getLast? h
  rw [mem_inOrder, List.mem_filter, decide_eq_true_iff] at hmem
  exact hmem

section
variable (h : Orderly cal room W now table)
include h

/-- The steps of the history in the window are the rows of the window. -/
theorem Orderly.filter_history :
    (history cal room table).filter (fun s => W.utc ≤ s.1 ∧ s.1 < now.utc) =
      (table.filter fun e => e.1 = room ∧ cal.isoformat W ≤ e.2.ts ∧ e.2.ts < cal.isoformat now).map
        (said cal) := by
  have hrows : (table.filter fun e => e.1 = room ∧ cal.isoformat W ≤ e.2.ts ∧
      e.2.ts < cal.isoformat now) =
        (table.filter fun e => e.1 = room).filter fun e =>
          cal.isoformat W ≤ e.2.ts ∧ e.2.ts < cal.isoformat now := by
    rw [List.filter_filter]
    refine List.filter_congr fun e _ => ?_
    rw [Bool.and_comm, Bool.decide_and]
  have hmap (l : List (String × Row R)) (p : String × Row R → Bool) :
      (l.filter p).map (said cal) = l.filterMap fun e => if p e then some (said cal e) else none := by
    rw [← List.filterMap_eq_map, List.filterMap_filter]
    rfl
  rw [hrows, hmap, history, List.filter_filterMap]
  refine List.filterMap_congr fun e he => ?_
  obtain ⟨hmem, hroom⟩ := List.mem_filter.mp he
  have hroom : e.1 = room := of_decide_eq_true hroom
  cases hm : parse cal e.2.ts with
  | none =>
    -- a stamp that is no moment does not stand in the window
    have hout : ¬ (cal.isoformat W ≤ e.2.ts ∧ e.2.ts < cal.isoformat now) := by
      intro hin
      obtain ⟨m, hm', -⟩ := h.reads e (mem_inWindow.mpr ⟨hmem, hroom, hin⟩)
      cases hm.symm.trans hm'
    rw [decide_eq_false hout]
    rfl
  | some m =>
    obtain ⟨hstart, hnow⟩ := h.sides e hmem hroom m hm
    have hin : (W.utc ≤ m.utc ∧ m.utc < now.utc) ↔
        (cal.isoformat W ≤ e.2.ts ∧ e.2.ts < cal.isoformat now) := by
      rw [← not_lt, ← hstart, not_lt, hnow]
    rw [Option.map_some, Option.filter_some, said, hm, decide_eq_decide.mpr hin]
    rfl

theorem Orderly.said_le_said {e e' : String × Row R}
    (he : e ∈ inWindow room (cal.isoformat W) (cal.isoformat now) table)
    (he' : e' ∈ inWindow room (cal.isoformat W) (cal.isoformat now) table) :
    e.2.ts ≤ e'.2.ts ↔ (said cal e).1 ≤ (said cal e').1 := by
  obtain ⟨m, hm, -⟩ := h.reads e he
  obtain ⟨m', hm', -⟩ := h.reads e' he'
  have hord := h.ordered e' he' e he m' m hm' hm
  simp only [said, hm, hm', Option.map_some, Option.getD_some]
  rw [← not_lt, hord, not_lt]

theorem Orderly.map_inWindow :
    (inWindow room (cal.isoformat W) (cal.isoformat now) table).map (said cal) =
      inOrder Prod.fst ((history cal room table).filter fun s => W.utc ≤ s.1 ∧ s.1 < now.utc) := by
  rw [h.filter_history, inWindow]
  refine map_inOrder _ fun e he e' he' => h.said_le_said ?_ ?_
  · exact mem_inOrder.mpr he
  · exact mem_inOrder.mpr he'

/-- A row of the window starts no sooner than the window. -/
theorem Orderly.le_said {e : String × Row R}
    (he : e ∈ inWindow room (cal.isoformat W) (cal.isoformat now) table) : W.utc ≤ (said cal e).1 := by
  obtain ⟨m, hm, -⟩ := h.reads e he
  obtain ⟨hmem, hroom, hstart, -⟩ := mem_inWindow.mp he
  have hle : W.utc ≤ m.utc := not_lt.mp fun hlt => not_lt.mpr hstart ((h.sides e hmem hroom m hm).1.mpr hlt)
  simpa [said, hm] using hle

/-- The row before the window starts before it. -/
theorem Orderly.prior_lt {e : String × Row R} (he : prior room (cal.isoformat W) table = some e) :
    ∃ m, parse cal e.2.ts = some m ∧ m.utc < W.utc := by
  obtain ⟨m, hm⟩ := h.seed e he
  obtain ⟨hmem, hroom, hts⟩ := mem_prior he
  exact ⟨m, hm, (h.sides e hmem hroom m hm).1.mp hts⟩

theorem Orderly.held_prior {t : ℤ} (ht : W.utc ≤ t) :
    held ((prior room (cal.isoformat W) table).toList.map (said cal)) t =
      (prior room (cal.isoformat W) table).map fun e => e.2.occupied := by
  cases hprior : prior room (cal.isoformat W) table with
  | none => rfl
  | some e =>
    obtain ⟨m, hm, hlt⟩ := h.prior_lt hprior
    have hle : (said cal e).1 ≤ t := by
      simpa [said, hm] using (hlt.trans_le ht).le
    show held [said cal e] t = some e.2.occupied
    rw [held_cons, held_nil, if_pos hle]
    rfl

end

/-! ## The routine is the duty cycle -/

section
variable {weeks : ℚ} (h : Readable cal room weeks now table)
include h

/-- A row beyond the limit says what the row before the window says. -/
theorem Readable.held_beyondLimit (t : ℤ) :
    (held ((beyondLimit room (cal.isoformat (windowStart weeks now)) (cal.isoformat now) table).map
      (said cal)) t).or
        ((prior room (cal.isoformat (windowStart weeks now)) table).map fun e => e.2.occupied) =
      (prior room (cal.isoformat (windowStart weeks now)) table).map fun e => e.2.occupied := by
  cases hbeyond : held ((beyondLimit room (cal.isoformat (windowStart weeks now)) (cal.isoformat now)
      table).map (said cal)) t with
  | none => rfl
  | some v =>
    obtain ⟨s, hs, -, rfl⟩ := exists_of_held hbeyond
    obtain ⟨e, he, rfl⟩ := List.mem_map.mp hs
    exact (h.limit e he).symm

/-- At every instant of the window the segments say what the log says. -/
theorem held_segments {t : ℤ} (ht : (windowStart weeks now).utc ≤ t) (ht' : t < now.utc) :
    held ((segments cal room weeks now table).map (said cal)) t = valueAt (history cal room table) t := by
  have hwindow : valueAt ((history cal room table).filter fun s =>
      (windowStart weeks now).utc ≤ s.1 ∧ s.1 < now.utc) t =
        held ((inWindow room (cal.isoformat (windowStart weeks now)) (cal.isoformat now) table).map
          (said cal)) t := by
    rw [h.orderly.map_inWindow]
    rfl
  rw [valueAt_window ht ht', hwindow, inWindow_eq, ← h.orderly.seeded, List.map_append, held_append,
    Option.or_assoc, h.held_beyondLimit, segments, List.map_append, held_append, h.orderly.held_prior ht]

theorem segments_read {e : String × Row R} (he : e ∈ segments cal room weeks now table) :
    ∃ m, parse cal e.2.ts = some m ∧ ((windowStart weeks now).utc ≤ m.utc → m.utc < now.utc →
      m.offset = (windowStart weeks now).offset) := by
  rcases List.mem_append.mp he with he | he
  · obtain ⟨m, hm, hlt⟩ := h.orderly.prior_lt (Option.mem_toList.mp he)
    exact ⟨m, hm, fun hle => absurd hle (not_le.mpr hlt)⟩
  · rw [timeline_eq] at he
    obtain ⟨m, hm, hoffset⟩ := h.orderly.reads e (List.mem_of_mem_drop he)
    exact ⟨m, hm, fun _ _ => hoffset⟩

theorem sorted_segments : Sorted Prod.fst ((segments cal room weeks now table).map (said cal)) := by
  have hwindow : Sorted Prod.fst ((inWindow room (cal.isoformat (windowStart weeks now))
      (cal.isoformat now) table).map (said cal)) := by
    rw [h.orderly.map_inWindow]
    exact sorted_inOrder _ _
  have hkept : Sorted Prod.fst ((timeline (some room) (some (cal.isoformat (windowStart weeks now)))
      (some (cal.isoformat now)) 5000 table).map (said cal)) := by
    rw [timeline_eq]
    exact hwindow.sublist ((List.drop_sublist _ _).map _)
  rw [segments, List.map_append]
  refine List.pairwise_append.mpr ⟨?_, hkept, ?_⟩
  · cases prior room (cal.isoformat (windowStart weeks now)) table with
    | none => exact List.Pairwise.nil
    | some e => exact List.pairwise_singleton _ _
  · intro s hs s' hs'
    obtain ⟨e, he, rfl⟩ := List.mem_map.mp hs
    obtain ⟨e', he', rfl⟩ := List.mem_map.mp hs'
    obtain ⟨m, hm, hlt⟩ := h.orderly.prior_lt (Option.mem_toList.mp he)
    rw [timeline_eq] at he'
    have hle := h.orderly.le_said (List.mem_of_mem_drop he')
    refine le_trans ?_ hle
    simpa [said, hm] using hlt.le

end

/-- The duty cycle in the seconds of segments that say the same as the history in the window. -/
theorem dutyCycle_eq {hist steps : List (ℤ × Bool)} (hsame : ∀ t, W.utc ≤ t → t < now.utc →
    held steps t = valueAt hist t) (h : ℕ) :
    dutyCycle hist W.offset W.utc now.utc h =
      if 0 < heldSeconds (fun _ => true) W now steps h then
        some (heldSeconds id W now steps h / heldSeconds (fun _ => true) W now steps h) else none := by
  have hcovered : span (fun t => hourAt W.offset t = h ∧ (valueAt hist t).isSome) W.utc now.utc =
      span (fun t => hourAt W.offset t = h ∧ (held steps t).any fun _ => true) W.utc now.utc := by
    refine span_congr fun t ht ht' => ?_
    rw [hsame t ht ht']
    cases valueAt hist t <;> simp
  have hoccupied : span (fun t => hourAt W.offset t = h ∧ valueAt hist t = some true) W.utc now.utc =
      span (fun t => hourAt W.offset t = h ∧ (held steps t).any id) W.utc now.utc := by
    refine span_congr fun t ht ht' => ?_
    rw [hsame t ht ht']
    cases valueAt hist t <;> simp
  unfold dutyCycle heldSeconds
  dsimp only
  rw [hcovered, hoccupied]
  generalize span (fun t => hourAt W.offset t = h ∧ (held steps t).any fun _ => true) W.utc now.utc = n
  generalize span (fun t => hourAt W.offset t = h ∧ (held steps t).any id) W.utc now.utc = k
  unfold Timebase.seconds
  rw [Int.cast_natCast, Int.cast_natCast, div_div_div_cancel_right₀ (by norm_num)]
  by_cases hn : n = 0
  · simp [hn]
  · have hpos : (0 : ℚ) < (n : ℚ) / 1000000 := div_pos (by positivity) (by norm_num)
    rw [if_neg hn, if_pos hpos]

@[simp] theorem heldSeconds_nil (q : Bool → Bool) (k : ℕ) : heldSeconds q W now [] k = 0 := by
  rw [heldSeconds, span_of_none fun t _ _ hany => by simp at hany]
  exact seconds_zero

/-- Where the stamps are in order and the read limit hides nothing, every hour of the routine is
the duty cycle of the room. -/
theorem isDutyCycle_of_readable (cal : Calendar) (room : String) (weeks : ℚ) (now : Moment)
    (minSamples : ℤ) (table : List (String × Row R)) (h : Readable cal room weeks now table) :
    IsDutyCycle cal room weeks now minSamples table := by
  have hsame : ∀ t, (windowStart weeks now).utc ≤ t → t < now.utc →
      held ((segments cal room weeks now table).map (said cal)) t =
        valueAt (history cal room table) t := fun t ht ht' => held_segments h ht ht'
  have hduty (k : ℕ) := dutyCycle_eq hsame k
  unfold IsDutyCycle routine
  dsimp only
  cases hempty : (segments cal room weeks now table).isEmpty with
  | true =>
    rw [List.isEmpty_iff.mp hempty] at hduty
    refine ⟨_, rfl, ?_⟩
    rw [List.map_map]
    refine List.map_congr_left fun k _ => ?_
    have hnone : dutyCycle (history cal room table) (windowStart weeks now).offset
        (windowStart weeks now).utc now.utc k = none := by
      simpa using hduty k
    exact (congrArg (Option.map ratArith.round3) hnone).symm
  | false =>
    obtain ⟨tally, htally, hspent⟩ := accumulate_spec (fun e he => segments_read h he)
      (sorted_segments h) Tally.empty
    refine ⟨_, by rw [if_neg (by simp), htally]; rfl, ?_⟩
    rw [List.map_map]
    refine List.map_congr_left fun k _ => ?_
    obtain ⟨htotal, hocc⟩ := hspent k
    have hcell : (cell minSamples tally k).probability =
        (dutyCycle (history cal room table) now.offset (windowStart weeks now).utc now.utc k).map
          ratArith.round3 := by
      rw [show now.offset = (windowStart weeks now).offset from rfl, hduty k, cell]
      dsimp only
      rw [htotal, hocc, Tally.empty, zero_add, zero_add]
    exact hcell

end

end

/-! ## An hour on the last day of the year and the first -/

/-- The stamps of the samples. -/
def sampleCalendar : Calendar where
  fromisoformat ts :=
    if ts = "2025-12-31T23:59:59+00:00" then some (1767225599000000, some 0)
    else if ts = "2026-01-01T00:00:00+00:00" then some (1767225600000000, some 0)
    else if ts = "2026-01-01T00:30:00+00:00" then some (1767227400000000, some 0)
    else if ts = "2026-01-01T01:00:00+00:00" then some (1767229200000000, some 0) else none
  isoformat m := if m.utc = 1767225600000000 then "2026-01-01T00:00:00+00:00"
    else "2026-01-01T01:00:00+00:00"

/-- One o'clock. -/
def sampleNow : Moment := ⟨1767229200000000, 0⟩

def sampleRow (occupied : Bool) (confidence : ℚ) (ts : String) : String × Row ℚ :=
  ("sala", ⟨occupied, none, confidence, ts⟩)

theorem windowStart_sample : windowStart (1 / 168) sampleNow = ⟨1767225600000000, 0⟩ := by decide +kernel

theorem parse_eve : parse sampleCalendar "2025-12-31T23:59:59+00:00" = some ⟨1767225599000000, 0⟩ := by
  decide

theorem parse_midnight :
    parse sampleCalendar "2026-01-01T00:00:00+00:00" = some ⟨1767225600000000, 0⟩ := by
  decide

theorem parse_halfPast :
    parse sampleCalendar "2026-01-01T00:30:00+00:00" = some ⟨1767227400000000, 0⟩ := by
  decide

/-- Taken at midnight, left at half past. -/
def quietLog : List (String × Row ℚ) :=
  [sampleRow true 1 "2026-01-01T00:00:00+00:00", sampleRow false 0 "2026-01-01T00:30:00+00:00"]

theorem inWindow_quietLog : inWindow "sala" "2026-01-01T00:00:00+00:00" "2026-01-01T01:00:00+00:00"
    quietLog = quietLog := by
  decide

theorem mem_quietLog {e : String × Row ℚ} {m : Moment} (he : e ∈ quietLog)
    (hm : parse sampleCalendar e.2.ts = some m) :
    (e.2.ts = "2026-01-01T00:00:00+00:00" ∧ m = ⟨1767225600000000, 0⟩) ∨
      (e.2.ts = "2026-01-01T00:30:00+00:00" ∧ m = ⟨1767227400000000, 0⟩) := by
  rcases List.mem_pair.mp he with rfl | rfl
  · exact .inl ⟨rfl, Option.some.inj (hm.symm.trans parse_midnight)⟩
  · exact .inr ⟨rfl, Option.some.inj (hm.symm.trans parse_halfPast)⟩

theorem quietLog_readable : Readable sampleCalendar "sala" (1 / 168) sampleNow quietLog := by
  have hstart : sampleCalendar.isoformat (windowStart (1 / 168) sampleNow) = "2026-01-01T00:00:00+00:00" := by
    rw [windowStart_sample]
    rfl
  have hnow : sampleCalendar.isoformat sampleNow = "2026-01-01T01:00:00+00:00" := rfl
  constructor
  · constructor
    · intro e he _ m hm
      rw [hstart, hnow, windowStart_sample]
      rcases mem_quietLog he hm with ⟨hts, rfl⟩ | ⟨hts, rfl⟩
      · rw [hts]
        decide
      · rw [hts]
        decide
    · intro e he
      rw [hstart, hnow, inWindow_quietLog] at he
      rcases List.mem_pair.mp he with rfl | rfl
      · exact ⟨_, parse_midnight, rfl⟩
      · exact ⟨_, parse_halfPast, rfl⟩
    · intro e he e' he' m m' hm hm'
      rw [hstart, hnow, inWindow_quietLog] at he he'
      rcases mem_quietLog he hm with ⟨hts, rfl⟩ | ⟨hts, rfl⟩ <;>
        rcases mem_quietLog he' hm' with ⟨hts', rfl⟩ | ⟨hts', rfl⟩ <;>
        · rw [hts, hts']
          decide
    · have hnone : prior "sala" "2026-01-01T00:00:00+00:00" quietLog = none := by decide
      rw [hstart, hnone]
      intro e he
      cases he
    · rw [hstart, windowStart_sample]
      decide
  · rw [hstart, hnow]
    decide

theorem quietLog_isDutyCycle : IsDutyCycle sampleCalendar "sala" (1 / 168) sampleNow 3 quietLog :=
  isDutyCycle_of_readable sampleCalendar "sala" (1 / 168) sampleNow 3 quietLog quietLog_readable

/-- Taken until midnight, left then. -/
def eve : String × Row ℚ := sampleRow true 1 "2025-12-31T23:59:59+00:00"

def leaving : String × Row ℚ := sampleRow false 0 "2026-01-01T00:00:00+00:00"

/-- A row that says again at half past that nobody is there, with another confidence. -/
def flap (i : ℕ) : String × Row ℚ :=
  sampleRow false (if i % 2 = 0 then 1 / 10 else 1 / 5) "2026-01-01T00:30:00+00:00"

/-- What `n` of these rows say. -/
def calm (n : ℕ) : List (ℤ × Bool) := List.replicate n (1767227400000000, false)

section
variable {flaps : List (String × Row ℚ)} (hflaps : ∀ e ∈ flaps, ∃ i, e = flap i)
include hflaps

theorem map_said_flaps : flaps.map (said sampleCalendar) = calm flaps.length := by
  rw [calm, ← List.map_const']
  refine List.map_congr_left fun e he => ?_
  obtain ⟨i, rfl⟩ := hflaps e he
  show (((parse sampleCalendar "2026-01-01T00:30:00+00:00").map Moment.utc).getD 0, false) = _
  rw [parse_halfPast]
  rfl

theorem history_flaps : history sampleCalendar "sala" (eve :: leaving :: flaps) =
    (1767225599000000, true) :: (1767225600000000, false) :: calm flaps.length := by
  have hroom : (eve :: leaving :: flaps).filter (fun e => e.1 = "sala") = eve :: leaving :: flaps := by
    refine List.filter_eq_self.mpr fun e he => ?_
    rcases List.mem_cons.mp he with rfl | he
    · rfl
    · rcases List.mem_cons.mp he with rfl | he
      · rfl
      · obtain ⟨i, rfl⟩ := hflaps e he
        rfl
  have heve : parse sampleCalendar eve.2.ts = some ⟨1767225599000000, 0⟩ := parse_eve
  have hleaving : parse sampleCalendar leaving.2.ts = some ⟨1767225600000000, 0⟩ := parse_midnight
  rw [history, hroom, List.filterMap_cons, List.filterMap_cons, heve, hleaving,
    ← map_said_flaps hflaps, ← List.filterMap_eq_map]
  refine congrArg _ (congrArg _ (List.filterMap_congr fun e he => ?_))
  obtain ⟨i, rfl⟩ := hflaps e he
  have hflap : parse sampleCalendar (flap i).2.ts = some ⟨1767227400000000, 0⟩ := parse_halfPast
  rw [hflap, Function.comp_apply, said, hflap]
  rfl

theorem segments_flaps (hlen : flaps.length = 5000) :
    segments sampleCalendar "sala" (1 / 168) sampleNow (eve :: leaving :: flaps) = eve :: flaps := by
  have hprior : (eve :: leaving :: flaps).filter
      (fun e => e.1 = "sala" ∧ e.2.ts < "2026-01-01T00:00:00+00:00") = [eve] := by
    rw [List.filter_cons_of_pos (by decide), List.filter_cons_of_neg (by decide +kernel),
      List.filter_eq_nil_iff.mpr]
    intro e he
    obtain ⟨i, rfl⟩ := hflaps e he
    have hlate : ¬ "2026-01-01T00:30:00+00:00" < "2026-01-01T00:00:00+00:00" := by decide
    simp [flap, sampleRow, hlate]
  have hwindow : (eve :: leaving :: flaps).filter (fun e => e.1 = "sala" ∧
      "2026-01-01T00:00:00+00:00" ≤ e.2.ts ∧ e.2.ts < "2026-01-01T01:00:00+00:00") = leaving :: flaps := by
    rw [List.filter_cons_of_neg (by decide), List.filter_cons_of_pos (by decide +kernel),
      List.filter_eq_self.mpr]
    intro e he
    obtain ⟨i, rfl⟩ := hflaps e he
    have hin : "2026-01-01T00:00:00+00:00" ≤ "2026-01-01T00:30:00+00:00" ∧
        "2026-01-01T00:30:00+00:00" < "2026-01-01T01:00:00+00:00" := by decide
    exact decide_eq_true ⟨rfl, hin⟩
  have hsorted : Sorted (fun e : String × Row ℚ => e.2.ts) (leaving :: flaps) := by
    have hle : "2026-01-01T00:00:00+00:00" ≤ "2026-01-01T00:30:00+00:00" := by decide
    refine List.pairwise_cons.mpr ⟨fun e he => ?_, List.pairwise_of_forall_mem_list fun e he e' he' => ?_⟩
    · obtain ⟨i, rfl⟩ := hflaps e he
      exact hle
    · obtain ⟨i, rfl⟩ := hflaps e he
      obtain ⟨j, rfl⟩ := hflaps e' he'
      exact le_rfl
  have hstart : sampleCalendar.isoformat (windowStart (1 / 168) sampleNow) = "2026-01-01T00:00:00+00:00" := by
    rw [windowStart_sample]
    rfl
  have hnow : sampleCalendar.isoformat sampleNow = "2026-01-01T01:00:00+00:00" := rfl
  have hdrop : (leaving :: flaps).length - 5000 = 1 := by rw [List.length_cons, hlen]
  rw [segments, hstart, hnow, prior, hprior, timeline_eq, inWindow, hwindow, inOrder_of_sorted hsorted,
    hdrop]
  rfl

end

/-! ### The hour -/

theorem hour_sample {t : ℤ} (ht : 1767225600000000 ≤ t) (ht' : t < 1767229200000000) :
    hourAt 0 t = 0 := by
  have hnext : (nextHour ⟨1767225600000000, 0⟩).utc = 1767229200000000 := by decide
  exact @hourAt_eq ⟨1767225600000000, 0⟩ t ht (ht'.trans_eq hnext.symm)

theorem held_calm {n : ℕ} (hn : 0 < n) (t : ℤ) :
    held (calm n) t = if 1767227400000000 ≤ t then some false else none := by
  have hmem : ((1767227400000000 : ℤ), false) ∈ calm n := List.mem_replicate.mpr ⟨hn.ne', rfl⟩
  cases hheld : held (calm n) t with
  | none =>
    rw [if_neg (not_le.mpr (held_eq_none_iff.mp hheld _ hmem))]
  | some v =>
    obtain ⟨s, hs, hle, rfl⟩ := exists_of_held hheld
    rw [List.eq_of_mem_replicate hs] at hle ⊢
    rw [if_pos hle]

theorem sorted_calm (n : ℕ) : Sorted Prod.fst (calm n) := by
  refine List.pairwise_of_forall_mem_list fun a ha b hb => ?_
  rw [List.eq_of_mem_replicate ha, List.eq_of_mem_replicate hb]

theorem sorted_cons_calm (n : ℕ) {t : ℤ} (v : Bool) (ht : t ≤ 1767227400000000) :
    Sorted Prod.fst ((t, v) :: calm n) := by
  refine List.pairwise_cons.mpr ⟨fun a ha => ?_, sorted_calm n⟩
  rw [List.eq_of_mem_replicate ha]
  exact ht

/-- The room was not occupied for one instant of the hour. -/
theorem dutyCycle_calm {n : ℕ} (hn : 0 < n) :
    dutyCycle ((1767225599000000, true) :: (1767225600000000, false) :: calm n) 0
      1767225600000000 1767229200000000 0 = some 0 := by
  have hsorted : Sorted Prod.fst ((1767225599000000, true) :: (1767225600000000, false) :: calm n) := by
    refine List.pairwise_cons.mpr ⟨fun a ha => ?_, sorted_cons_calm n false (by decide)⟩
    rcases List.mem_cons.mp ha with rfl | ha
    · show (1767225599000000 : ℤ) ≤ 1767225600000000
      decide
    · rw [List.eq_of_mem_replicate ha]
      show (1767225599000000 : ℤ) ≤ 1767227400000000
      decide
  have hvalue : ∀ t, 1767225600000000 ≤ t →
      valueAt ((1767225599000000, true) :: (1767225600000000, false) :: calm n) t = some false := by
    intro t ht
    rw [valueAt, inOrder_of_sorted hsorted, held_cons, held_cons, held_calm hn, if_pos ht]
    split <;> rfl
  have hcovered : 0 < span (fun t => hourAt 0 t = 0 ∧ (valueAt ((1767225599000000, true) ::
      (1767225600000000, false) :: calm n) t).isSome) 1767225600000000 1767229200000000 :=
    span_pos (c := 1767225600000000) le_rfl (by decide)
      ⟨hour_sample le_rfl (by decide), by rw [hvalue _ le_rfl]; rfl⟩
  have hoccupied : span (fun t => hourAt 0 t = 0 ∧ valueAt ((1767225599000000, true) ::
      (1767225600000000, false) :: calm n) t = some true) 1767225600000000 1767229200000000 = 0 := by
    refine span_of_none fun t ht _ hocc => ?_
    rw [hvalue t ht] at hocc
    exact absurd hocc.2 (by decide)
  unfold dutyCycle
  dsimp only
  rw [if_neg hcovered.ne', hoccupied, Nat.cast_zero, zero_div]

/-- What the loop makes of the segments that are left. -/
theorem heldSeconds_calm {n : ℕ} (hn : 0 < n) (q : Bool → Bool) :
    heldSeconds q ⟨1767225600000000, 0⟩ sampleNow ((1767225599000000, true) :: calm n) 0 =
      (if q true then 1800 else 0) + if q false then 1800 else 0 := by
  have hend : endOf (calm n) sampleNow.utc = 1767227400000000 := by
    obtain ⟨k, rfl⟩ := Nat.exists_eq_add_one_of_ne_zero hn.ne'
    show min (1767227400000000 : ℤ) 1767229200000000 = 1767227400000000
    decide
  have hfront : span (fun t => hourAt 0 t = 0) 1767225600000000 1767227400000000 = 1800000000 :=
    span_of_all fun t ht ht' => hour_sample ht (ht'.trans (by decide))
  have hrest : span (fun t => hourAt 0 t = 0 ∧ (held (calm n) t).any q) 1767225600000000
      1767229200000000 = if q false then 1800000000 else 0 := by
    rw [span_add (c := 1767227400000000) (by decide) (by decide), span_of_none, zero_add]
    · cases hq : q false with
      | false =>
        refine span_of_none fun t ht _ hany => ?_
        rw [held_calm hn, if_pos ht] at hany
        exact absurd (hq.symm.trans hany.2) (by decide)
      | true =>
        refine span_of_all fun t ht ht' => ⟨hour_sample (le_trans (by decide) ht) ht', ?_⟩
        rw [held_calm hn, if_pos ht]
        exact hq
    · intro t _ ht hany
      rw [held_calm hn, if_neg (not_le.mpr ht)] at hany
      exact absurd hany.2 Bool.false_ne_true
  have hmax : max (1767225599000000 : ℤ) 1767225600000000 = 1767225600000000 := by decide
  have hsum : heldSeconds q ⟨1767225600000000, 0⟩ sampleNow ((1767225599000000, true) :: calm n) 0 =
      seconds ((if q true then 1800000000 else 0 : ℕ) + (if q false then 1800000000 else 0 : ℕ) : ℕ) := by
    rw [heldSeconds, span_held_cons q (sorted_cons_calm n true (by decide)), hend]
    dsimp only [sampleNow]
    rw [hmax, hfront, hrest]
  rw [hsum, Nat.cast_add, seconds_add]
  have hhalf (b : Bool) : seconds ((if b then 1800000000 else 0 : ℕ) : ℤ) = if b then 1800 else 0 := by
    cases b with
    | false => exact seconds_zero
    | true => norm_num [Timebase.seconds]
  rw [hhalf, hhalf]

/-- The row at midnight is the one beyond the limit: until half past the room counts as taken. -/
theorem not_isDutyCycle_flaps {flaps : List (String × Row ℚ)} (hflaps : ∀ e ∈ flaps, ∃ i, e = flap i)
    (hlen : flaps.length = 5000) :
    ¬ IsDutyCycle sampleCalendar "sala" (1 / 168) sampleNow 3 (eve :: leaving :: flaps) := by
  have hpos : 0 < flaps.length := by omega
  have hsaid : (eve :: flaps).map (said sampleCalendar) =
      (1767225599000000, true) :: calm flaps.length := by
    rw [List.map_cons, map_said_flaps hflaps, said]
    have heve : parse sampleCalendar eve.2.ts = some ⟨1767225599000000, 0⟩ := parse_eve
    rw [heve]
    rfl
  have hreads : ∀ e ∈ eve :: flaps, ∃ m, parse sampleCalendar e.2.ts = some m ∧
      ((windowStart (1 / 168) sampleNow).utc ≤ m.utc → m.utc < sampleNow.utc →
        m.offset = (windowStart (1 / 168) sampleNow).offset) := by
    intro e he
    rcases List.mem_cons.mp he with rfl | he
    · exact ⟨_, parse_eve, fun _ _ => rfl⟩
    · obtain ⟨i, rfl⟩ := hflaps e he
      exact ⟨_, parse_halfPast, fun _ _ => rfl⟩
  obtain ⟨tally, htally, hspent⟩ := accumulate_spec hreads
    (by rw [hsaid]; exact sorted_cons_calm _ true (by decide)) Tally.empty
  obtain ⟨htotal, hocc⟩ := hspent 0
  rw [hsaid, windowStart_sample, heldSeconds_calm hpos] at htotal hocc
  rintro ⟨base, hbase, hprob⟩
  rw [routine, segments_flaps hflaps hlen, htally] at hbase
  cases hbase
  rw [List.map_map] at hprob
  -- the cell of midnight: half of it by the rows kept, nothing by the history
  have hmidnight := List.map_inj_left.mp hprob 0 (by decide)
  rw [history_flaps hflaps, windowStart_sample] at hmidnight
  have htruth := dutyCycle_calm hpos
  have hzero : Tally.empty.totalSeconds 0 = 0 ∧ Tally.empty.occSeconds 0 = 0 := ⟨rfl, rfl⟩
  rw [hzero.1] at htotal
  rw [hzero.2] at hocc
  have hcell : (cell 3 tally 0).probability = some (ratArith.round3 (1 / 2)) := by
    rw [cell]
    dsimp only
    rw [htotal, hocc]
    norm_num
  have hhalf : some (ratArith.round3 (1 / 2)) = some (ratArith.round3 0) :=
    hcell.symm.trans (hmidnight.trans (congrArg (Option.map ratArith.round3) htruth))
  exact absurd hhalf (by decide +kernel)

theorem crowded_hour_misread : ¬ IsDutyCycle sampleCalendar "sala" (1 / 168) sampleNow 3
    (eve :: leaving :: (List.range 5000).map flap) := by
  refine not_isDutyCycle_flaps ?_ (by rw [List.length_map, List.length_range])
  intro e he
  obtain ⟨i, -, rfl⟩ := List.mem_map.mp he
  exact ⟨i, rfl⟩

end Wavr.Occupancy
