import Wavr.CalibStore
import Wavr.Maths
import Wavr.Pinhole

/-!
# The floor point of a pixel

`monocular_floor_point`, beside the pinhole camera that the mount describes.
-/

namespace Wavr.Localize
open CalibStore (MountPose)
open Pinhole
open Maths (half)

section
variable {K : Type} [Field K] [LinearOrder K] (math : Maths K)

/-- `_norm`. -/
def norm (a : Vec K) : K := math.sqrt (a.x * a.x + a.y * a.y + a.z * a.z)

/-- The optical axis, and what the code takes for the right and for the downward direction of the image. -/
def axes (tilt yaw : K) : Vec K × Vec K × Vec K :=
  let fwd : Vec K := ⟨math.cos tilt * math.cos yaw, math.cos tilt * math.sin yaw, -math.sin tilt⟩
  let right := fwd.cross ⟨0, 0, 1⟩
  let n := norm math right
  let right : Vec K :=
    if n < 1e-9 then ⟨-math.sin yaw, math.cos yaw, 0⟩ else ⟨right.x / n, right.y / n, right.z / n⟩
  (fwd, right, fwd.cross right)

/-- The focal length across the image, in pixels. -/
def focalX (imgW : K) (mount : MountPose K) : K := half imgW / math.tan (half (math.radians mount.hfovDeg))

/-- The focal length down the image; `Except.error` is the ZeroDivisionError. -/
def focalY (imgW imgH : K) (mount : MountPose K) : Except String K :=
  match mount.vfovDeg with
  | some vfovDeg =>
    let t := math.tan (half (math.radians vfovDeg))
    if t = 0 then .error "float division by zero" else .ok (half imgH / t)
  | none => .ok (focalX math imgW mount)

/-- Where a ray from the camera meets the floor. -/
def floorHit (mount : MountPose K) (ray : Vec K) : Option (K × K) :=
  let rn := norm math ray
  if rn < 1e-9 then none
  else
    let ray : Vec K := ⟨ray.x / rn, ray.y / rn, ray.z / rn⟩
    if -1e-9 ≤ ray.z then none
    else
      let t := mount.height / -ray.z
      let fxM := mount.posX + t * ray.x
      let fyM := mount.posY + t * ray.y
      if ! (math.isfinite fxM && math.isfinite fyM) then none else some (fxM, fyM)

def monocularFloorPoint (u v imgW imgH : K) (mount : MountPose K) : Except String (Option (K × K)) :=
  if imgW ≤ 0 ∨ imgH ≤ 0 then .ok none
  else
    let hfov := math.radians mount.hfovDeg
    if ¬ (0 < hfov ∧ hfov < math.pi) then .ok none
    else do
      let fx := focalX math imgW mount
      let fy ← focalY math imgW imgH mount
      let cx := half imgW
      let cy := half imgH
      let (fwd, right, camDown) := axes math (math.radians mount.tiltDeg) (math.radians mount.yawDeg)
      let a := (u - cx) / fx
      let b := (v - cy) / fy
      return floorHit math mount (fwd.combine a right b camDown)

end

/-! ## The camera of a mount -/

noncomputable def tilt (m : MountPose ℝ) : ℝ := Maths.real.radians m.tiltDeg

noncomputable def yaw (m : MountPose ℝ) : ℝ := Maths.real.radians m.yawDeg

/-- A mount above the floor, tilted down, whose fields of view are such. -/
structure Mounted (m : MountPose ℝ) : Prop where
  height : 0 < m.height
  hfov : 0 < m.hfovDeg ∧ m.hfovDeg < 180
  tilt : 0 < m.tiltDeg ∧ m.tiltDeg ≤ 90
  vfov : ∀ w, m.vfovDeg = some w → 0 < w ∧ w < 180

/-- To the right is clockwise from the heading on the floor plan, whose second axis points down. -/
noncomputable def camera (m : MountPose ℝ) (imgW imgH : ℝ) : Camera ℝ where
  position := ⟨m.posX, m.posY, m.height⟩
  axis := ⟨Real.cos (tilt m) * Real.cos (yaw m), Real.cos (tilt m) * Real.sin (yaw m), -Real.sin (tilt m)⟩
  right := ⟨-Real.sin (yaw m), Real.cos (yaw m), 0⟩
  down := ⟨-Real.sin (tilt m) * Real.cos (yaw m), -Real.sin (tilt m) * Real.sin (yaw m), -Real.cos (tilt m)⟩
  fx := focalX Maths.real imgW m
  fy := match m.vfovDeg with
    | some w => half imgH / Real.tan (half (Maths.real.radians w))
    | none => focalX Maths.real imgW m
  cx := half imgW
  cy := half imgH

/-- How far a pixel is to the right of the centre, in focal lengths. -/
noncomputable def across (m : MountPose ℝ) (imgW imgH u : ℝ) : ℝ := (u - half imgW) / (camera m imgW imgH).fx

noncomputable def below (m : MountPose ℝ) (imgW imgH v : ℝ) : ℝ := (v - half imgH) / (camera m imgW imgH).fy

/-- A floor point is seen at the pixel, and there is none just where the pixel does not look down. -/
def PinholeEstimate (m : MountPose ℝ) (imgW imgH u v : ℝ) : Prop :=
  ∃ r, monocularFloorPoint Maths.real u v imgW imgH m = .ok r ∧
    (∀ p, r = some p → (camera m imgW imgH).project ⟨p.1, p.2, 0⟩ = some (u, v)) ∧
    (r = none ↔ ¬ ((camera m imgW imgH).ray (across m imgW imgH u) (below m imgW imgH v)).z < 0)

/-- All but straight down. -/
def Steep (m : MountPose ℝ) : Prop := Real.cos (tilt m) < 1e-9

/-- How much below the horizon a ray has to point to be followed. -/
noncomputable def margin (a b : ℝ) : ℝ := 1e-9 * √(1 + a ^ 2 + b ^ 2)

/-- The rise of the ray of a pixel, and of the one turned upside down. -/
noncomputable def rise (m : MountPose ℝ) (b : ℝ) : ℝ := -Real.sin (tilt m) - b * Real.cos (tilt m)

/-- The pixels that a tilted camera gets right: above the horizon, or clearly below it in the middle column. -/
def TiltedRight (m : MountPose ℝ) (imgW imgH u v : ℝ) : Prop :=
  0 ≤ rise m (below m imgW imgH v) ∨
    rise m (below m imgW imgH v) < -margin (across m imgW imgH u) (below m imgW imgH v) ∧ u = half imgW

/-- The pixels that a steep camera gets right: they do not look down either way up, or they do in the middle row. -/
def SteepRight (m : MountPose ℝ) (imgW imgH u v : ℝ) : Prop :=
  0 ≤ rise m (below m imgW imgH v) ∧
      -margin (across m imgW imgH u) (below m imgW imgH v) ≤ rise m (-below m imgW imgH v) ∨
    rise m (below m imgW imgH v) < 0 ∧
      rise m (-below m imgW imgH v) < -margin (across m imgW imgH u) (below m imgW imgH v) ∧ v = half imgH

variable {m : MountPose ℝ} {imgW imgH u v : ℝ}

theorem camera_orthonormal : (camera m imgW imgH).Orthonormal := by
  have htilt := Real.sin_sq_add_cos_sq (tilt m)
  have hyaw := Real.sin_sq_add_cos_sq (yaw m)
  constructor <;> unfold Vec.dot camera
  · linear_combination Real.cos (tilt m) ^ 2 * hyaw + htilt
  · linear_combination hyaw
  · linear_combination Real.sin (tilt m) ^ 2 * hyaw + htilt
  · ring
  · linear_combination (-Real.cos (tilt m) * Real.sin (tilt m)) * hyaw
  · ring

theorem camera_ray_z (a b : ℝ) :
    ((camera m imgW imgH).ray a b).z = rise m b := by
  change -Real.sin (tilt m) + a * 0 + b * -Real.cos (tilt m) = -Real.sin (tilt m) - b * Real.cos (tilt m)
  ring

theorem norm_ray (a b : ℝ) : norm Maths.real ((camera m imgW imgH).ray a b) = √(1 + a ^ 2 + b ^ 2) :=
  congrArg Real.sqrt (camera_orthonormal.dot_ray a b)

theorem margin_neg_left (a b : ℝ) : margin (-a) b = margin a b := by
  unfold margin
  rw [neg_sq]

theorem margin_neg_right (a b : ℝ) : margin a (-b) = margin a b := by
  unfold margin
  rw [neg_sq]

section
variable (h : Mounted m)
include h

theorem Mounted.tilt_mem : 0 < Localize.tilt m ∧ Localize.tilt m ≤ Real.pi / 2 := by
  have hpi := Real.pi_pos
  change 0 < m.tiltDeg * Real.pi / 180 ∧ m.tiltDeg * Real.pi / 180 ≤ Real.pi / 2
  refine ⟨by have := mul_pos h.tilt.1 hpi; linarith, ?_⟩
  have hle := mul_le_mul_of_nonneg_right h.tilt.2 hpi.le
  linarith

theorem Mounted.cos_nonneg : 0 ≤ Real.cos (Localize.tilt m) :=
  Real.cos_nonneg_of_neg_pi_div_two_le_of_le (by linarith [h.tilt_mem.1, Real.pi_pos]) h.tilt_mem.2

end

/-- Half of a field of view has a positive tangent. -/
theorem tan_half_pos {w : ℝ} (hw : 0 < w ∧ w < 180) : 0 < Real.tan (half (Maths.real.radians w)) := by
  have hpi := Real.pi_pos
  have hlow := mul_pos hw.1 hpi
  have hhigh := mul_lt_mul_of_pos_right hw.2 hpi
  change 0 < Real.tan (w * Real.pi / 180 / 2)
  exact Real.tan_pos_of_pos_of_lt_pi_div_two (by linarith) (by linarith)

section
variable (h : Mounted m)
include h

theorem Mounted.fx_pos (hW : 0 < imgW) : 0 < (camera m imgW imgH).fx := div_pos (half_pos hW) (tan_half_pos h.hfov)

theorem Mounted.fy_pos (hW : 0 < imgW) (hH : 0 < imgH) : 0 < (camera m imgW imgH).fy := by
  unfold camera
  cases hv : m.vfovDeg with
  | none => exact div_pos (half_pos hW) (tan_half_pos h.hfov)
  | some w => exact div_pos (half_pos hH) (tan_half_pos (h.vfov w hv))

theorem Mounted.focalY : focalY Maths.real imgW imgH m = .ok (camera m imgW imgH).fy := by
  unfold Localize.focalY camera
  cases hv : m.vfovDeg with
  | none => rfl
  | some w => exact if_neg (tan_half_pos (h.vfov w hv)).ne'

/-! ## The ray that is followed -/

/-- The length of the axis' shadow on the floor. -/
theorem Mounted.norm_cross_up (imgW imgH : ℝ) :
    norm Maths.real ((camera m imgW imgH).axis.cross ⟨0, 0, 1⟩) = Real.cos (Localize.tilt m) := by
  refine (congrArg Real.sqrt ?_).trans (Real.sqrt_sq h.cos_nonneg)
  unfold Vec.cross camera
  linear_combination Real.cos (Localize.tilt m) ^ 2 * Real.sin_sq_add_cos_sq (yaw m)

/-- The ray of a pixel as the code assembles it. -/
noncomputable def codeRay (m : MountPose ℝ) (a b : ℝ) : Vec ℝ :=
  let (fwd, right, camDown) := axes Maths.real (Localize.tilt m) (yaw m)
  fwd.combine a right b camDown

/-- Straight down the image is upside down. -/
theorem Mounted.codeRay_steep (hs : Steep m) (a b : ℝ) : codeRay m a b = (camera m imgW imgH).ray a (-b) := by
  have hyaw := Real.sin_sq_add_cos_sq (yaw m)
  have hright : (axes Maths.real (Localize.tilt m) (yaw m)).2.1 = (camera m imgW imgH).right :=
    if_pos (h.norm_cross_up imgW imgH ▸ hs :
      norm Maths.real ((camera m imgW imgH).axis.cross ⟨0, 0, 1⟩) < 1e-9)
  change (camera m imgW imgH).axis.combine a (axes Maths.real (Localize.tilt m) (yaw m)).2.1 b
    ((camera m imgW imgH).axis.cross (axes Maths.real (Localize.tilt m) (yaw m)).2.1) = _
  rw [hright]
  unfold Camera.ray Vec.combine Vec.cross camera
  ext
  · ring
  · ring
  · linear_combination b * Real.cos (Localize.tilt m) * hyaw

/-- Tilted, the image is mirrored. -/
theorem Mounted.codeRay_tilted (hs : ¬ Steep m) (a b : ℝ) : codeRay m a b = (camera m imgW imgH).ray (-a) b := by
  have hyaw := Real.sin_sq_add_cos_sq (yaw m)
  have hcos : Real.cos (Localize.tilt m) ≠ 0 :=
    (lt_of_lt_of_le (by norm_num) (not_lt.mp hs)).ne'
  have hright : (axes Maths.real (Localize.tilt m) (yaw m)).2.1 = ⟨Real.sin (yaw m), -Real.cos (yaw m), 0⟩ := by
    have hnorm := h.norm_cross_up imgW imgH
    refine (if_neg (hnorm ▸ hs :
      ¬ norm Maths.real ((camera m imgW imgH).axis.cross ⟨0, 0, 1⟩) < 1e-9)).trans ?_
    change Vec.mk (_ / norm Maths.real ((camera m imgW imgH).axis.cross ⟨0, 0, 1⟩))
      (_ / norm Maths.real ((camera m imgW imgH).axis.cross ⟨0, 0, 1⟩))
      (_ / norm Maths.real ((camera m imgW imgH).axis.cross ⟨0, 0, 1⟩)) = _
    rw [hnorm]
    let ct := Real.cos (Localize.tilt m)
    let st := Real.sin (Localize.tilt m)
    refine Vec.ext ((div_eq_iff hcos).mpr ?_) ((div_eq_iff hcos).mpr ?_) ((div_eq_iff hcos).mpr ?_)
    · change ct * Real.sin (yaw m) * 1 - -st * 0 = Real.sin (yaw m) * ct
      ring
    · change -st * 0 - ct * Real.cos (yaw m) * 1 = -Real.cos (yaw m) * ct
      ring
    · change ct * Real.cos (yaw m) * 0 - ct * Real.sin (yaw m) * 0 = 0 * ct
      ring
  change (camera m imgW imgH).axis.combine a (axes Maths.real (Localize.tilt m) (yaw m)).2.1 b
    ((camera m imgW imgH).axis.cross (axes Maths.real (Localize.tilt m) (yaw m)).2.1) = _
  rw [hright]
  unfold Camera.ray Vec.combine Vec.cross camera
  ext
  · ring
  · ring
  · linear_combination -b * Real.cos (Localize.tilt m) * hyaw

/-! ## The floor point -/

omit h in
/-- A ray is followed if it points down by more than the margin. -/
theorem floorHit_ray (a b : ℝ) : floorHit Maths.real m ((camera m imgW imgH).ray a b) =
    if -margin a b ≤ ((camera m imgW imgH).ray a b).z then none
    else
      let k := m.height / -((camera m imgW imgH).ray a b).z
      some (m.posX + k * ((camera m imgW imgH).ray a b).x, m.posY + k * ((camera m imgW imgH).ray a b).y) := by
  let ray := (camera m imgW imgH).ray a b
  let n := √(1 + a ^ 2 + b ^ 2)
  have hn : norm Maths.real ray = n := norm_ray a b
  have hone : 1 ≤ n := Real.one_le_sqrt.mpr (by linarith [sq_nonneg a, sq_nonneg b])
  have hpos : 0 < n := zero_lt_one.trans_le hone
  have hlong : ¬ n < 1e-9 := not_lt.mpr (le_trans (by norm_num) hone)
  have hdown : -1e-9 ≤ ray.z / n ↔ -margin a b ≤ ray.z := by
    rw [le_div_iff₀ hpos, neg_mul]
    rfl
  change (if norm Maths.real ray < 1e-9 then none
    else if -1e-9 ≤ ray.z / norm Maths.real ray then none
    else some (m.posX + m.height / -(ray.z / norm Maths.real ray) * (ray.x / norm Maths.real ray),
      m.posY + m.height / -(ray.z / norm Maths.real ray) * (ray.y / norm Maths.real ray))) =
    if -margin a b ≤ ray.z then none
    else some (m.posX + m.height / -ray.z * ray.x, m.posY + m.height / -ray.z * ray.y)
  rw [hn, if_neg hlong]
  by_cases hz : -margin a b ≤ ray.z
  · rw [if_pos (hdown.mpr hz), if_pos hz]
  · have hmargin : 0 ≤ margin a b := mul_nonneg (by norm_num) (Real.sqrt_nonneg _)
    have hzero : ray.z ≠ 0 := by linarith [not_le.mp hz]
    have hscale (x : ℝ) : m.height / -(ray.z / n) * (x / n) = m.height / -ray.z * x := by field_simp
    rw [if_neg (hdown.not.mpr hz), if_neg hz, hscale, hscale]

/-- What comes out of the function is what its ray meets. -/
theorem Mounted.monocularFloorPoint (hW : 0 < imgW) (hH : 0 < imgH) :
    monocularFloorPoint Maths.real u v imgW imgH m =
      .ok (floorHit Maths.real m (codeRay m (across m imgW imgH u) (below m imgW imgH v))) := by
  have hsize : ¬ (imgW ≤ 0 ∨ imgH ≤ 0) := not_or.mpr ⟨not_le.mpr hW, not_le.mpr hH⟩
  have hpi := Real.pi_pos
  have hfov : 0 < Maths.real.radians m.hfovDeg ∧ Maths.real.radians m.hfovDeg < Maths.real.pi := by
    have hlow := mul_pos h.hfov.1 hpi
    have hhigh := mul_lt_mul_of_pos_right h.hfov.2 hpi
    change 0 < m.hfovDeg * Real.pi / 180 ∧ m.hfovDeg * Real.pi / 180 < Real.pi
    exact ⟨by linarith, by linarith⟩
  unfold Localize.monocularFloorPoint
  rw [if_neg hsize]
  refine (if_neg (not_not.mpr hfov)).trans ?_
  rw [h.focalY]
  rfl

/-- The point on the floor along a ray that points down is seen where the ray goes. -/
theorem Mounted.project_hit (imgW imgH : ℝ) {a b : ℝ} (hz : rise m b < 0) :
    (camera m imgW imgH).project
        ⟨m.posX + m.height / -rise m b * ((camera m imgW imgH).ray a b).x,
          m.posY + m.height / -rise m b * ((camera m imgW imgH).ray a b).y, 0⟩ =
      some ((camera m imgW imgH).cx + (camera m imgW imgH).fx * a,
        (camera m imgW imgH).cy + (camera m imgW imgH).fy * b) := by
  have hk : 0 < m.height / -rise m b := div_pos h.height (neg_pos.mpr hz)
  have hfloor : m.height + m.height / -rise m b * ((camera m imgW imgH).ray a b).z = 0 := by
    have hcancel : m.height / -rise m b * -rise m b = m.height := div_mul_cancel₀ _ (neg_pos.mpr hz).ne'
    rw [camera_ray_z]
    linarith
  rw [← camera_orthonormal.project_along hk a b]
  exact congrArg (camera m imgW imgH).project (Vec.ext rfl rfl hfloor.symm)

/-- A ray in place of the pixel's is right where it is the same and looks down clearly, or where neither
looks down. -/
theorem Mounted.estimate_iff (hW : 0 < imgW) (hH : 0 < imgH) {a b : ℝ}
    (hray : codeRay m (across m imgW imgH u) (below m imgW imgH v) = (camera m imgW imgH).ray a b) :
    PinholeEstimate m imgW imgH u v ↔
      (rise m b < -margin a b → a = across m imgW imgH u ∧ b = below m imgW imgH v) ∧
      (-margin a b ≤ rise m b ↔ 0 ≤ rise m (below m imgW imgH v)) := by
  let c := camera m imgW imgH
  have hpixel : some (c.cx + c.fx * a, c.cy + c.fy * b) = some (u, v) ↔
      a = across m imgW imgH u ∧ b = below m imgW imgH v := by
    have hx : c.cx + c.fx * a = u ↔ a = across m imgW imgH u := by
      rw [across, eq_div_iff (h.fx_pos hW).ne', mul_comm a, eq_sub_iff_add_eq']
      rfl
    have hy : c.cy + c.fy * b = v ↔ b = below m imgW imgH v := by
      rw [below, eq_div_iff (h.fy_pos hW hH).ne', mul_comm b, eq_sub_iff_add_eq']
      rfl
    rw [Option.some_inj, Prod.mk.injEq, hx, hy]
  unfold PinholeEstimate
  rw [h.monocularFloorPoint hW hH, hray, floorHit_ray, camera_ray_z, camera_ray_z, not_lt]
  -- a ray that does not fall below the horizon by the margin has no floor point
  by_cases hz : -margin a b ≤ rise m b
  · rw [if_pos hz]
    constructor
    · rintro ⟨r, hr, -, hnone⟩
      obtain rfl := Except.ok.inj hr
      exact ⟨fun hlt => absurd hlt hz.not_gt, fun _ => hnone.mp rfl, fun _ => hz⟩
    · rintro ⟨-, hlevel⟩
      exact ⟨none, rfl, fun p hp => (by cases hp), fun _ => hlevel.mp hz, fun _ => rfl⟩
  · have hdown : rise m b < -margin a b := not_le.mp hz
    have hmargin : 0 ≤ margin a b := mul_nonneg (by norm_num) (Real.sqrt_nonneg _)
    have hproject := h.project_hit imgW imgH (a := a) (lt_of_lt_of_le hdown (neg_nonpos.mpr hmargin))
    rw [if_neg hz]
    constructor
    · rintro ⟨r, hr, hseen, hnone⟩
      obtain rfl := Except.ok.inj hr
      refine ⟨fun _ => hpixel.mp (hproject.symm.trans (hseen _ rfl)), fun hle => absurd hle hz, fun hle => ?_⟩
      cases hnone.mpr hle
    · rintro ⟨hagree, hlevel⟩
      refine ⟨_, rfl, fun p hp => ?_, fun hnone => (by cases hnone), fun hle => absurd (hlevel.mpr hle) hz⟩
      obtain rfl := Option.some.inj hp
      exact hproject.trans (hpixel.mpr (hagree hdown))

theorem Mounted.across_eq_zero (hW : 0 < imgW) : across m imgW imgH u = 0 ↔ u = half imgW := by
  rw [across, div_eq_zero_iff, or_iff_left (h.fx_pos hW).ne', sub_eq_zero]

theorem Mounted.below_eq_zero (hW : 0 < imgW) (hH : 0 < imgH) : below m imgW imgH v = 0 ↔ v = half imgH := by
  rw [below, div_eq_zero_iff, or_iff_left (h.fy_pos hW hH).ne', sub_eq_zero]

/-- The estimate is the pinhole camera's for these pixels and no others. -/
theorem pinhole_estimate_iff (hW : 0 < imgW) (hH : 0 < imgH) : PinholeEstimate m imgW imgH u v ↔
    (Steep m → SteepRight m imgW imgH u v) ∧ (¬ Steep m → TiltedRight m imgW imgH u v) := by
  have hmargin : -margin (across m imgW imgH u) (below m imgW imgH v) ≤ 0 :=
    neg_nonpos.mpr (mul_nonneg (by norm_num) (Real.sqrt_nonneg _))
  by_cases hs : Steep m
  · have hmiddle : -below m imgW imgH v = below m imgW imgH v ↔ v = half imgH :=
      neg_eq_self.trans (h.below_eq_zero hW hH)
    rw [h.estimate_iff hW hH (h.codeRay_steep hs _ _), margin_neg_right, hmiddle]
    unfold SteepRight
    rw [← not_le, ← not_le]
    tauto
  · have hmiddle : -across m imgW imgH u = across m imgW imgH u ↔ u = half imgW :=
      neg_eq_self.trans (h.across_eq_zero hW)
    have hlevel : 0 ≤ rise m (below m imgW imgH v) →
      -margin (across m imgW imgH u) (below m imgW imgH v) ≤ rise m (below m imgW imgH v) := hmargin.trans
    rw [h.estimate_iff hW hH (h.codeRay_tilted hs _ _), margin_neg_left, hmiddle]
    unfold TiltedRight
    rw [← not_le]
    tauto

end

/-- A mount as `MountPose` has it by default, at the corner of the plan. -/
noncomputable def defaultMount : MountPose ℝ :=
  { posX := 0, posY := 0, height := 12 / 5, tiltDeg := 30, yawDeg := 0, hfovDeg := 90, vfovDeg := none }

theorem defaultMount_mounted : Mounted defaultMount where
  height := by norm_num [defaultMount]
  hfov := by norm_num [defaultMount]
  tilt := by norm_num [defaultMount]
  vfov w h := by cases h

theorem defaultMount_tilt : tilt defaultMount = Real.pi / 6 := by
  change 30 * Real.pi / 180 = Real.pi / 6
  ring

theorem defaultMount_not_steep : ¬ Steep defaultMount := by
  have hroot : 1 ≤ √(3 : ℝ) := Real.one_le_sqrt.mpr (by norm_num)
  rw [Steep, defaultMount_tilt, Real.cos_pi_div_six, not_lt]
  linarith

theorem defaultMount_rise (b : ℝ) (hb : b = 0) : rise defaultMount b = -(1 / 2) := by
  rw [rise, hb, zero_mul, sub_zero, defaultMount_tilt, Real.sin_pi_div_six]

theorem defaultMount_below : below defaultMount 640 480 240 = 0 :=
  (defaultMount_mounted.below_eq_zero (by norm_num) (by norm_num)).mpr (by norm_num [half])

/-- The middle of the image. -/
theorem middle_pixel : PinholeEstimate defaultMount 640 480 320 240 := by
  refine (pinhole_estimate_iff defaultMount_mounted (by norm_num) (by norm_num)).mpr
    ⟨fun hs => absurd hs defaultMount_not_steep, fun _ => .inr ⟨?_, by norm_num [half]⟩⟩
  have hacross : across defaultMount 640 480 320 = 0 :=
    (defaultMount_mounted.across_eq_zero (by norm_num)).mpr (by norm_num [half])
  rw [defaultMount_rise _ defaultMount_below, hacross, defaultMount_below, margin]
  norm_num

/-- The right edge of the image, on the level of its middle. -/
theorem right_edge_mirrored : ¬ PinholeEstimate defaultMount 640 480 640 240 := by
  intro h
  have hrise := defaultMount_rise _ defaultMount_below
  obtain ⟨hagree, hlevel⟩ := (defaultMount_mounted.estimate_iff (by norm_num) (by norm_num)
    (defaultMount_mounted.codeRay_tilted defaultMount_not_steep _ _)).mp h
  have hdown : rise defaultMount (below defaultMount 640 480 240) <
      -margin (-across defaultMount 640 480 640) (below defaultMount 640 480 240) := by
    by_contra hle
    have hup := hlevel.mp (not_lt.mp hle)
    rw [hrise] at hup
    norm_num at hup
  have hzero := (defaultMount_mounted.across_eq_zero (by norm_num)).mp (neg_eq_self.mp (hagree hdown).1)
  norm_num [half] at hzero

end Wavr.Localize
