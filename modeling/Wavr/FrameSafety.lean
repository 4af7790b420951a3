import Wavr.ExactReal
import Wavr.Plane
import Wavr.SpatialFrames

/-!
# No coordinate without a frame

What `transform_target` leaves of a target, whatever mount it is handed.
-/

namespace Wavr.Fusion

/-- A mount as it may come: an attribute that is missing, or that is no number, is `none`. -/
structure LooseMount (R : Type) where
  posX : Option R
  posY : Option R
  yawDeg : Option R

def MountPose.loose {R : Type} (mount : MountPose R) : LooseMount R :=
  { posX := some mount.posX, posY := some mount.posY, yawDeg := some mount.yawDeg }

section
variable {R : Type} (ar : Arith R)

/-- `none` is the AttributeError or the TypeError as well. -/
def LooseMount.sensorToRoom (mount : LooseMount R) (x y : R) (roomMin : R × R) : Option (R × R) := do
  let posX ← mount.posX
  let posY ← mount.posY
  let yawDeg ← mount.yawDeg
  Fusion.sensorToRoom ar x y { posX, posY, yawDeg } roomMin

/-- `transform_target`, which catches all of these. -/
def transformLoose (mount : Option (LooseMount R)) (roomMin : R × R) (t : Target R) : Target R × Bool :=
  if t.frame = FRAME_ROOM then (t, false)
  else if ¬ FRAMES.any (· = t.frame) then (withoutPosition t, false)
  else
    match mount, t.x, t.y with
    | some mount, some x, some y =>
      match mount.sensorToRoom ar x y roomMin with
      | some (rx, ry) => ({ t with x := some rx, y := some ry, frame := FRAME_ROOM }, true)
      | none => (withoutPosition t, false)
    | _, _, _ => (withoutPosition t, false)

/-- In the room's frame, or nowhere. -/
def Target.Framed (t : Target R) : Prop := t.frame = FRAME_ROOM ∨ t.x = none ∧ t.y = none ∧ t.z = none

def Target.position (t : Target R) : Option (R × R) :=
  match t.x, t.y with
  | some x, some y => some (x, y)
  | _, _ => none

/-- All but the coordinates and their frame. -/
structure SameObservation (t u : Target R) : Prop where
  id : u.id = t.id
  posture : u.posture = t.posture
  velocity : u.velocity = t.velocity
  confidence : u.confidence = t.confidence

structure FrameSafe (mount : Option (LooseMount R)) (roomMin : R × R) (t : Target R) : Prop where
  framed : (transformLoose ar mount roomMin t).1.Framed
  again : (transformLoose ar mount roomMin (transformLoose ar mount roomMin t).1).1 =
    (transformLoose ar mount roomMin t).1
  observed : SameObservation t (transformLoose ar mount roomMin t).1

end

/-- Two targets that are both converted are as far apart as they were. -/
def DistanceKept (mount : Option (LooseMount ℝ)) (roomMin : ℝ × ℝ) : Prop :=
  ∀ t u : Target ℝ, (transformLoose realArith mount roomMin t).2 = true →
    (transformLoose realArith mount roomMin u).2 = true →
    ∃ p q p' q', t.position = some p ∧ u.position = some q ∧
      (transformLoose realArith mount roomMin t).1.position = some p' ∧
      (transformLoose realArith mount roomMin u).1.position = some q' ∧
      Plane.dist p' q' = Plane.dist p q

section
variable {R : Type} {ar : Arith R} {mount : Option (LooseMount R)} {roomMin : R × R} {t : Target R}

theorem transformLoose_loose (mount : Option (MountPose R)) :
    transformLoose ar (mount.map MountPose.loose) roomMin t = transformTarget ar mount roomMin t := by
  unfold transformLoose transformTarget
  split_ifs
  · rfl
  · cases mount <;> cases t.x <;> cases t.y <;> rfl
  · rfl

/-! ## The exits -/

/-- Nowhere but for a height, in a frame that is not the room's. -/
def Target.OnlyHeight (t : Target R) : Prop := t.frame ≠ FRAME_ROOM ∧ t.x = none ∧ t.y = none ∧ t.z ≠ none

theorem withoutPosition_of_absent (hx : t.x = none) (hy : t.y = none) : withoutPosition t = t := by
  have h : t.x.isNone ∧ t.y.isNone := ⟨Option.isNone_iff_eq_none.mpr hx, Option.isNone_iff_eq_none.mpr hy⟩
  exact if_pos h

theorem withoutPosition_of_present (h : ¬ (t.x = none ∧ t.y = none)) :
    withoutPosition t = { t with x := none, y := none, frame := FRAME_ROOM } := by
  have hp : ¬ (t.x.isNone ∧ t.y.isNone) := by rwa [Option.isNone_iff_eq_none, Option.isNone_iff_eq_none]
  exact if_neg hp

/-- A target is returned as it is, or converted, or without its position. -/
theorem transformLoose_cases (ar : Arith R) (mount : Option (LooseMount R)) (roomMin : R × R) (t : Target R) :
    t.frame = FRAME_ROOM ∧ transformLoose ar mount roomMin t = (t, false) ∨
    t.frame ≠ FRAME_ROOM ∧ transformLoose ar mount roomMin t = (withoutPosition t, false) ∨
    t.frame ≠ FRAME_ROOM ∧ ∃ m x y p, mount = some m ∧ t.x = some x ∧ t.y = some y ∧
      m.sensorToRoom ar x y roomMin = some p ∧
      transformLoose ar mount roomMin t =
        ({ t with x := some p.1, y := some p.2, frame := FRAME_ROOM }, true) := by
  unfold transformLoose
  split_ifs with hroom hframe
  · exact .inl ⟨hroom, rfl⟩
  · split
    · rename_i m x y hx hy
      split
      · rename_i hp
        exact .inr (.inr ⟨hroom, m, x, y, _, rfl, hx, hy, hp, rfl⟩)
      · exact .inr (.inl ⟨hroom, rfl⟩)
    · exact .inr (.inl ⟨hroom, rfl⟩)
  · exact .inr (.inl ⟨hroom, rfl⟩)

/-- What is in the room's frame already stays. -/
theorem transformLoose_room (h : t.frame = FRAME_ROOM) : transformLoose ar mount roomMin t = (t, false) := if_pos h

theorem transformLoose_absent (hx : t.x = none) (hy : t.y = none) :
    transformLoose ar mount roomMin t = (t, false) := by
  rcases transformLoose_cases ar mount roomMin t with h | h | h
  · exact h.2
  · rw [h.2, withoutPosition_of_absent hx hy]
  · obtain ⟨-, m, x, y, p, -, hsome, -⟩ := h
    rw [hx] at hsome
    cases hsome

theorem transformLoose_framed_iff : (transformLoose ar mount roomMin t).1.Framed ↔ ¬ t.OnlyHeight := by
  by_cases hnone : t.x = none ∧ t.y = none
  · rw [transformLoose_absent hnone.1 hnone.2]
    constructor
    · rintro (hroom | hz) ho
      · exact ho.1 hroom
      · exact ho.2.2.2 hz.2.2
    · intro ho
      by_cases hroom : t.frame = FRAME_ROOM
      · exact .inl hroom
      · exact .inr ⟨hnone.1, hnone.2, not_not.mp fun hz => ho ⟨hroom, hnone.1, hnone.2, hz⟩⟩
  · refine iff_of_true (.inl ?_) fun ho => hnone ⟨ho.2.1, ho.2.2.1⟩
    rcases transformLoose_cases ar mount roomMin t with h | h | h
    · rw [h.2]
      exact h.1
    · rw [h.2, withoutPosition_of_present hnone]
    · obtain ⟨-, m, x, y, p, -, -, -, -, h⟩ := h
      rw [h]

theorem transformLoose_again :
    (transformLoose ar mount roomMin (transformLoose ar mount roomMin t).1).1 =
      (transformLoose ar mount roomMin t).1 := by
  by_cases hnone : t.x = none ∧ t.y = none
  · rw [transformLoose_absent hnone.1 hnone.2, transformLoose_absent hnone.1 hnone.2]
  · have hframed : (transformLoose ar mount roomMin t).1.Framed :=
      transformLoose_framed_iff.mpr fun ho => hnone ⟨ho.2.1, ho.2.2.1⟩
    rcases hframed with hroom | habsent
    · rw [transformLoose_room hroom]
    · rw [transformLoose_absent habsent.1 habsent.2.1]

theorem withoutPosition_observed : SameObservation t (withoutPosition t) := by
  by_cases hnone : t.x = none ∧ t.y = none
  · rw [withoutPosition_of_absent hnone.1 hnone.2]
    exact ⟨rfl, rfl, rfl, rfl⟩
  · rw [withoutPosition_of_present hnone]
    exact ⟨rfl, rfl, rfl, rfl⟩

theorem transformLoose_observed : SameObservation t (transformLoose ar mount roomMin t).1 := by
  rcases transformLoose_cases ar mount roomMin t with h | h | h
  · rw [h.2]
    exact ⟨rfl, rfl, rfl, rfl⟩
  · rw [h.2]
    exact withoutPosition_observed
  · obtain ⟨-, m, x, y, p, -, -, -, -, h⟩ := h
    rw [h]
    exact ⟨rfl, rfl, rfl, rfl⟩

/-- Only a target that is converted is marked so. -/
theorem transformLoose_converted (h : (transformLoose ar mount roomMin t).2 = true) :
    ∃ m x y p, mount = some m ∧ t.x = some x ∧ t.y = some y ∧ m.sensorToRoom ar x y roomMin = some p ∧
      transformLoose ar mount roomMin t =
        ({ t with x := some p.1, y := some p.2, frame := FRAME_ROOM }, true) := by
  rcases transformLoose_cases ar mount roomMin t with h' | h' | h'
  · rw [h'.2] at h
    cases h
  · rw [h'.2] at h
    cases h
  · exact h'.2

end

/-! ## Over the reals -/

section
variable {mount : Option (LooseMount ℝ)} {roomMin : ℝ × ℝ}

/-- The heading of a mount, as a cosine and a sine. -/
noncomputable def MountPose.heading (mount : MountPose ℝ) : ℝ × ℝ :=
  (Real.cos (Maths.real.radians mount.yawDeg), Real.sin (Maths.real.radians mount.yawDeg))

theorem heading_unit (mount : MountPose ℝ) : mount.heading.1 ^ 2 + mount.heading.2 ^ 2 = 1 :=
  Real.cos_sq_add_sin_sq _

/-- A turn by the heading and a shift. -/
theorem sensorToRoom_real (mount : MountPose ℝ) (x y : ℝ) :
    sensorToRoom realArith x y mount roomMin =
      some (Plane.turn mount.heading.1 mount.heading.2 (x, y) + ((mount.posX, mount.posY) - roomMin)) := by
  have hfinite : [x, y, mount.posX, mount.posY, mount.yawDeg].all realArith.isfinite = true := rfl
  unfold sensorToRoom
  rw [if_pos hfinite]
  refine congrArg some (Prod.ext ?_ ?_)
  · change mount.posX + (x * mount.heading.1 - y * mount.heading.2) - roomMin.1
      = mount.heading.1 * x - mount.heading.2 * y + (mount.posX - roomMin.1)
    ring
  · change mount.posY + (x * mount.heading.2 + y * mount.heading.1) - roomMin.2
      = mount.heading.2 * x + mount.heading.1 * y + (mount.posY - roomMin.2)
    ring

theorem LooseMount.whole {mount : LooseMount ℝ} {x y : ℝ} {p : ℝ × ℝ}
    (h : mount.sensorToRoom realArith x y roomMin = some p) : ∃ pose : MountPose ℝ, mount = pose.loose := by
  obtain ⟨posX, posY, yawDeg⟩ := mount
  cases posX with
  | none => cases h
  | some posX =>
    cases posY with
    | none => cases h
    | some posY =>
      cases yawDeg with
      | none => cases h
      | some yawDeg => exact ⟨⟨posX, posY, yawDeg⟩, rfl⟩

theorem distanceKept : DistanceKept mount roomMin := by
  intro t u ht hu
  obtain ⟨m, x, y, p, hm, hx, hy, hp, hteq⟩ := transformLoose_converted ht
  obtain ⟨m', x', y', p', hm', hx', hy', hp', hueq⟩ := transformLoose_converted hu
  obtain rfl : m' = m := Option.some.inj (hm'.symm.trans hm)
  obtain ⟨pose, rfl⟩ := LooseMount.whole hp
  have hpEq := Option.some.inj (hp.symm.trans (sensorToRoom_real pose x y))
  have hpEq' := Option.some.inj (hp'.symm.trans (sensorToRoom_real pose x' y'))
  refine ⟨(x, y), (x', y'), p, p', ?_, ?_, ?_, ?_, ?_⟩
  · unfold Target.position
    rw [hx, hy]
  · unfold Target.position
    rw [hx', hy']
  · rw [hteq]
    rfl
  · rw [hueq]
    rfl
  · rw [hpEq, hpEq']
    exact Plane.dist_turn_add (heading_unit pose) _ _ _

end

/-- A target is safe unless it comes with a height alone, in a frame that is not the room's. -/
theorem frame_safe_iff {R : Type} (ar : Arith R) (mount : Option (LooseMount R)) (roomMin : R × R) (t : Target R) :
    (FrameSafe ar mount roomMin t ↔ ¬ t.OnlyHeight) ∧ ∀ mount corner, DistanceKept mount corner := by
  refine ⟨⟨fun h => transformLoose_framed_iff.mp h.framed, fun h => ?_⟩, fun _ _ => distanceKept⟩
  exact ⟨transformLoose_framed_iff.mpr h, transformLoose_again, transformLoose_observed⟩

/-- One metre up, in the sensor's frame. -/
def heightOnly : Target ℚ :=
  { id := 1, x := none, y := none, z := some 1, posture := none, velocity := none, confidence := 0
    frame := "sensor" }

theorem height_keeps_frame : ¬ FrameSafe ratArith none (0, 0) heightOnly := by
  intro h
  rcases h.framed with hroom | habsent
  · exact absurd hroom (by decide)
  · exact absurd habsent.2.2 (by decide)

end Wavr.Fusion
