import Wavr.Events

/-!
# Frames

A coordinate is in the room's frame, or is moved there, or is dropped.
-/

namespace Wavr.Fusion

def FRAME_ROOM : String := "room"

def FRAMES : List String := ["room", "sensor"]

/-- Where a sensor sits on the floor plan and which way it faces. -/
structure MountPose (R : Type) where
  posX : R
  posY : R
  yawDeg : R

variable {R : Type} (ar : Arith R)

/-- `none` is the FrameError. -/
def sensorToRoom (x y : R) (mount : MountPose R) (roomMin : R × R) : Option (R × R) :=
  if [x, y, mount.posX, mount.posY, mount.yawDeg].all ar.isfinite then
    let rad := ar.radians mount.yawDeg
    let cosA := ar.cos rad
    let sinA := ar.sin rad
    let floorX := ar.add mount.posX (ar.sub (ar.mul x cosA) (ar.mul y sinA))
    let floorY := ar.add mount.posY (ar.add (ar.mul x sinA) (ar.mul y cosA))
    some (ar.sub floorX roomMin.1, ar.sub floorY roomMin.2)
  else none

/-- `_without_position`. -/
def withoutPosition (t : Target R) : Target R :=
  if t.x.isNone ∧ t.y.isNone then t else { t with x := none, y := none, frame := FRAME_ROOM }

def transformTarget (mount : Option (MountPose R)) (roomMin : R × R) (t : Target R) :
    Target R × Bool :=
  if t.frame = FRAME_ROOM then (t, false)
  else if ¬ FRAMES.any (· = t.frame) then (withoutPosition t, false)
  else
    match mount, t.x, t.y with
    | some mount, some x, some y =>
      match sensorToRoom ar x y mount roomMin with
      | some (rx, ry) => ({ t with x := some rx, y := some ry, frame := FRAME_ROOM }, true)
      | none => (withoutPosition t, false)
    | _, _, _ => (withoutPosition t, false)

theorem withoutPosition_x (t : Target R) : (withoutPosition t).x = none := by
  unfold withoutPosition
  split
  · rename_i h
    exact Option.isNone_iff_eq_none.mp h.1
  · rfl

/-- A coordinate that comes out is in the room's frame. -/
theorem transformTarget_frame (mount : Option (MountPose R)) (roomMin : R × R) (t : Target R)
    (hx : (transformTarget ar mount roomMin t).1.x ≠ none) :
    (transformTarget ar mount roomMin t).1.frame = FRAME_ROOM := by
  revert hx
  unfold transformTarget
  split_ifs with hroom hframe
  · exact fun _ => hroom
  · split
    · split
      · exact fun _ => rfl
      · exact fun hx => absurd (withoutPosition_x t) hx
    · exact fun hx => absurd (withoutPosition_x t) hx
  · exact fun hx => absurd (withoutPosition_x t) hx

end Wavr.Fusion
