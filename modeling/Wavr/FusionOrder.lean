import Mathlib.Algebra.Order.Archimedean.Basic
import Mathlib.Data.Finset.Dedup
import Mathlib.Data.Finset.Order
import Wavr.FusionConfidence
import Wavr.FusionDwell
import Wavr.FusionTargets

/-!
# The order of reports

The events of a room stand in the order in which their sensors first reported. Sums and maxima
do not see it; the number and the targets are those of the first among the heaviest sources.
-/

namespace Wavr.Fusion
open Run

variable {asUtc : String → Option ℤ}

/-! ## A vacant room answers from its events -/

section
variable {R : Type} {ar : Arith R} {asUtc : String → Option ℤ}

/-- Not occupied so far, and no headcount held. -/
structure Vacant (room : String) (s : Engine (R := R) asUtc) : Prop where
  unoccupied : s.occupiedState.get? room ≠ some true
  unlatched : s.countLatch.get? room = none

section
variable {room : String} {s : Engine (R := R) asUtc} (h : Vacant room s) (cfg : Config ar)
  (env : Env R) (ts : String)
include h

theorem Vacant.occupied : (fuse cfg env room ts s).1.occupied =
    rawOccupied cfg env room (reference asUtc env ts) (s.events room) :=
  dwell_unoccupied cfg room env _ h.unoccupied

/-- With nothing latched, the number is a live one, and the targets are those of this instant. -/
theorem Vacant.headcount (ref : ℤ) :
    (Fusion.headcount cfg env room ref s).1.personCount =
      (if (dwell cfg env room ref s).1.1 = true then (pickCount cfg ref (s.events room)).map Prod.fst
        else none) ∧
    (Fusion.headcount cfg env room ref s).1.targets = bestTargets cfg env room ref (s.events room) := by
  have hlatch : (dwell cfg env room ref s).2.countLatch.get? room = none := by
    rw [dwell, (debounceOccupancy_frame cfg room ref _ s).2]
    exact h.unlatched
  unfold Fusion.headcount latchCount
  rw [hlatch]
  cases (dwell cfg env room ref s).1.1 with
  | false => exact ⟨rfl, rfl⟩
  | true =>
    cases pickCount cfg ref (s.events room) with
    | some p => exact ⟨rfl, rfl⟩
    | none => cases countingLiveNegative cfg ref (s.events room) <;> exact ⟨rfl, rfl⟩

theorem Vacant.personCount : (fuse cfg env room ts s).1.personCount =
    if rawOccupied cfg env room (reference asUtc env ts) (s.events room) = true then
      (pickCount cfg (reference asUtc env ts) (s.events room)).map Prod.fst
    else none := by
  rw [← h.occupied cfg env ts]
  exact (h.headcount cfg env _).1

theorem Vacant.targets : (fuse cfg env room ts s).1.targets =
    bestTargets cfg env room (reference asUtc env ts) (s.events room) :=
  (h.headcount cfg env _).2

end

end

/-! ## What does not depend on the order -/

section
variable {R : Type} {ar : Arith R} {asUtc : String → Option ℤ} {cfg : Config ar} {ref : ℤ}
  {es es' : List (Stored (R := R) asUtc)}

end

section
variable {cfg : Config ratArith} {env : Env ℚ} {room : String} {ref : ℤ}
  {es es' : List (Stored (R := ℚ) asUtc)}

/-- Among the heaviest live sources that count. -/
def TopCounting (cfg : Config ratArith) (ref : ℤ) (es : List (Stored (R := ℚ) asUtc))
    (e : Stored (R := ℚ) asUtc) : Prop := Argmax.Heaviest (countable cfg ref) (weight cfg) (-1) es e

/-- Among the heaviest live sources that place somebody. -/
def TopPlacing (cfg : Config ratArith) (ref : ℤ) (es : List (Stored (R := ℚ) asUtc))
    (e : Stored (R := ℚ) asUtc) : Prop := Argmax.Heaviest (placeable cfg ref) (weight cfg) (-1) es e

/-- They agree on the number, and on the targets in the room's frame. -/
structure Agreed (cfg : Config ratArith) (env : Env ℚ) (room : String) (ref : ℤ)
    (es : List (Stored (R := ℚ) asUtc)) : Prop where
  counts : ∀ a b, TopCounting cfg ref es a → TopCounting cfg ref es b → a.event.count = b.event.count
  targets : ∀ a b, TopPlacing cfg ref es a → TopPlacing cfg ref es b →
    placed ratArith env room a = placed ratArith env room b

theorem pickCount_eq_heaviest (es : List (Stored (R := ℚ) asUtc)) : pickCount cfg ref es =
    (Argmax.heaviest (countable cfg ref) (weight cfg) vouched (-1) none es).2 := by
  rw [pickCount, pickStep_eq]
  rfl

theorem bestTargets_eq_heaviest (es : List (Stored (R := ℚ) asUtc)) :
    bestTargets cfg env room ref es =
      (Argmax.heaviest (placeable cfg ref) (weight cfg) (placed ratArith env room) (-1) [] es).2 :=
  rfl

/-- And the targets. -/
theorem bestTargets_orderless_iff : (∀ l l', l.Perm es → l'.Perm es →
      bestTargets cfg env room ref l = bestTargets cfg env room ref l') ↔
    ∀ a b, TopPlacing cfg ref es a → TopPlacing cfg ref es b →
      placed ratArith env room a = placed ratArith env room b := by
  simp only [bestTargets_eq_heaviest]
  exact Argmax.heaviest_orderless_iff id

end

/-! ## One answer -/

/-- The fields of a room state that decide what the room is taken for. -/
structure SameAnswer (rs rs' : RoomState ℚ) : Prop where
  confidence : rs.confidence = rs'.confidence
  occupied : rs.occupied = rs'.occupied
  personCount : rs.personCount = rs'.personCount
  precisionLevel : rs.precisionLevel = rs'.precisionLevel
  targets : rs.targets = rs'.targets

section
variable {cfg : Config ratArith} {env : Env ℚ} {room ts : String} {s s' : Engine (R := ℚ) asUtc}
  {es : List (Stored (R := ℚ) asUtc)}

end

/-! ## Histories -/

section
variable (cfg : Config ratArith)

/-- The engine a call of a run finds once it has stored its event: where it fuses. -/
def arrive (asUtc : String → Option ℤ) (calls : List (Call ℚ)) (call : Call ℚ) :
    Engine (R := ℚ) asUtc :=
  (begin call (finish (step cfg) (newEngine asUtc) calls)).2

def Reached (s : Engine (R := ℚ) asUtc) : Prop := ∃ calls call, s = arrive cfg asUtc calls call

/-- Every two histories that leave this set of events in the room, vacant so far, give the same
answer in one fuse. -/
def OrderFree (env : Env ℚ) (room ts : String) (es : List (Stored (R := ℚ) asUtc)) : Prop :=
  ∀ s s' : Engine (R := ℚ) asUtc, Reached cfg s → Reached cfg s' → Vacant room s → Vacant room s' →
    (s.events room).Perm es → (s'.events room).Perm es →
    SameAnswer (fuse cfg env room ts s).1 (fuse cfg env room ts s').1

variable {cfg} {env : Env ℚ} {room ts : String} {es : List (Stored (R := ℚ) asUtc)}

/-- Every order of the events can be met in a vacant room. -/
def AnyOrder (cfg : Config ratArith) (room : String) (es : List (Stored (R := ℚ) asUtc)) : Prop :=
  ∀ l, l.Perm es → ∃ s, Reached cfg s ∧ Vacant room s ∧ s.events room = l

theorem OrderFree.targets (h : OrderFree cfg env room ts es) (hany : AnyOrder cfg room es) :
    ∀ a b, TopPlacing cfg (reference asUtc env ts) es a →
      TopPlacing cfg (reference asUtc env ts) es b →
      placed ratArith env room a = placed ratArith env room b := by
  refine bestTargets_orderless_iff.mp fun l l' hl hl' => ?_
  obtain ⟨s, hreach, hs, rfl⟩ := hany l hl
  obtain ⟨s', hreach', hs', rfl⟩ := hany l' hl'
  rw [← hs.targets, ← hs'.targets]
  exact (h s s' hreach hreach' hs hs' hl hl').targets

/-- A positive count occupies the room, and shows. -/
theorem OrderFree.positive (h : OrderFree cfg env room ts es) (hany : AnyOrder cfg room es)
    {a b : Stored (R := ℚ) asUtc} (ha : TopCounting cfg (reference asUtc env ts) es a)
    (hb : TopCounting cfg (reference asUtc env ts) es b) {n m : ℕ}
    (hn : a.event.count = some n) (hm : b.event.count = some m) (hpos : 0 < n) : n = m := by
  obtain ⟨l, hl, hfirst⟩ := ha.exists_front vouched none
  obtain ⟨l', hl', hfirst'⟩ := hb.exists_front vouched none
  obtain ⟨s, hreach, hs, rfl⟩ := hany l hl
  obtain ⟨s', hreach', hs', rfl⟩ := hany l' hl'
  have hpick : pickCount cfg (reference asUtc env ts) (s.events room) = some (n, a.utc) := by
    rw [pickCount_eq_heaviest, hfirst, vouched, hn]
    rfl
  have hpick' : pickCount cfg (reference asUtc env ts) (s'.events room) = some (m, b.utc) := by
    rw [pickCount_eq_heaviest, hfirst', vouched, hm]
    rfl
  have hraw : rawOccupied cfg env room (reference asUtc env ts) (s.events room) = true := by
    simp [rawOccupied, hpick, hpos]
  have hsame := h s s' hreach hreach' hs hs' hl hl'
  have hraw' : rawOccupied cfg env room (reference asUtc env ts) (s'.events room) = true := by
    rw [← hs'.occupied, ← hsame.occupied, hs.occupied]
    exact hraw
  have hnumber := hsame.personCount
  rw [hs.personCount, hs'.personCount, if_pos hraw, if_pos hraw', hpick, hpick'] at hnumber
  exact Option.some.inj hnumber

theorem OrderFree.agreed (h : OrderFree cfg env room ts es) (hany : AnyOrder cfg room es) :
    Agreed cfg env room (reference asUtc env ts) es where
  targets := h.targets hany
  counts := by
    intro a b ha hb
    have hable : ∀ e, TopCounting cfg (reference asUtc env ts) es e → ∃ n, e.event.count = some n :=
      fun e he => Option.isSome_iff_exists.mp (Bool.and_eq_true _ _ ▸ he.able).2
    obtain ⟨n, hn⟩ := hable a ha
    obtain ⟨m, hm⟩ := hable b hb
    rw [hn, hm]
    rcases Nat.eq_zero_or_pos n with rfl | hpos
    · rcases Nat.eq_zero_or_pos m with rfl | hpos
      · rfl
      · rw [h.positive hany hb ha hm hn hpos]
    · rw [h.positive hany ha hb hn hm hpos]

/-! ## Every order can be met -/

/-- Under a threshold of nothing or less, a room with events is occupied from the first fuse on. -/
def Taken (s : Engine (R := ℚ) asUtc) : Prop :=
  ∀ room, s.events room ≠ [] → s.occupiedState.get? room = some true

theorem fuse_taken (hthreshold : cfg.threshold ≤ 0) (s : Engine (R := ℚ) asUtc) :
    (fuse cfg env room ts s).2.occupiedState.get? room = some true := by
  have hraw : rawOccupied cfg env room (reference asUtc env ts) (s.events room) = true := by
    rw [rawOccupied, Bool.or_eq_true, Bool.or_eq_true]
    exact .inl (.inl (decide_eq_true (hthreshold.trans confidence_unit.1)))
  rw [(fuse_dwell cfg room env ts s).1, dwell, debounceOccupancy_remembers,
    debounceOccupancy_occupied, hraw, Bool.true_or]

theorem Taken.step (hthreshold : cfg.threshold ≤ 0) {s : Engine (R := ℚ) asUtc} (h : Taken s)
    (call : Call ℚ) : Taken (step cfg s call) := by
  have hocc := (begin_frame call s).1
  have hother := @sensors_begin_other ℚ asUtc call s
  revert hocc hother
  unfold Fusion.step run
  rcases hbegin : begin call s with ⟨why | ⟨room, ts⟩, s₁⟩
  · intro _ _
    rwa [begin_error hbegin]
  · intro hocc hother room' hevents
    by_cases hroom : room' = room
    · rw [hroom]
      exact fuse_taken hthreshold s₁
    · have hkeep := debounceOccupancy_other cfg room (reference asUtc call.env ts)
        (rawOccupied cfg call.env room (reference asUtc call.env ts) (s₁.events room)) s₁ hroom
      rw [(fuse_dwell cfg room call.env ts s₁).1]
      refine hkeep.1.trans ?_
      rw [hocc]
      apply h room'
      rw [Engine.events, fuse_latest] at hevents
      rwa [events_eq_sensors, ← hother rfl hroom]

end

/-! ## Two cameras of one weight -/

/-- A camera in the room at a hundred seconds past midnight, sure of how many it sees. -/
def camera (sensorId : String) (count : ℕ) : Stored (R := ℚ) parse where
  event := { sighting "camera" sensorId true (9 / 10) (some count) with
    ts := "2026-01-01T00:01:40+00:00" }
  utc := 1767225700000000
  parsed := show parse "2026-01-01T00:01:40+00:00" = _ by decide

end Wavr.Fusion
