import Mathlib.Algebra.BigOperators.Group.List.Basic
import Mathlib.Algebra.BigOperators.Ring.List
import Mathlib.Algebra.Order.BigOperators.Group.List
import Mathlib.Tactic.FieldSimp
import Mathlib.Tactic.Linarith
import Wavr.Plane

/-!
# The best turn and shift

Of two families of points of the plane: which turn and shift brings the one nearest to the other, by
the sum of the squared errors.
-/

namespace Wavr.RigidFit
open Plane

variable {ι K : Type*} [Field K]

def center (a : ι → K × K) (ps : List ι) : K × K :=
  ((ps.map fun i => (a i).1).sum / ps.length, (ps.map fun i => (a i).2).sum / ps.length)

def offset (a : ι → K × K) (ps : List ι) (i : ι) : K × K := a i - center a ps

def spread (a : ι → K × K) (ps : List ι) : K := (ps.map fun i => normSq (offset a ps i)).sum

def along (a b : ι → K × K) (ps : List ι) : K := (ps.map fun i => dot (offset a ps i) (offset b ps i)).sum

def across (a b : ι → K × K) (ps : List ι) : K := (ps.map fun i => cross (offset a ps i) (offset b ps i)).sum

def squaredError (c s : K) (v : K × K) (a b : ι → K × K) (ps : List ι) : K :=
  (ps.map fun i => normSq (turn c s (a i) + v - b i)).sum

variable {a b : ι → K × K} {ps : List ι} {c s : K} {v : K × K}

section
variable [CharZero K]

theorem sum_offset (f : ι → K) (hps : ps ≠ []) :
    (ps.map fun i => f i - (ps.map f).sum / ps.length).sum = 0 := by
  have hlength : (ps.length : K) ≠ 0 := Nat.cast_ne_zero.mpr (List.length_pos_iff.mpr hps).ne'
  have hsplit (i : ι) : f i - (ps.map f).sum / ps.length =
    f i + -((ps.map f).sum / ps.length) := sub_eq_add_neg _ _
  simp only [hsplit, List.sum_map_add, List.map_const', List.sum_replicate, nsmul_eq_mul]
  field_simp
  ring

/-- A linear form of the offsets sums to nothing. -/
theorem sum_form_offset (hps : ps ≠ []) (u : K × K) :
    (ps.map fun i => u.1 * (offset a ps i).1 + u.2 * (offset a ps i).2).sum = 0 := by
  have hfst : (ps.map fun i => (offset a ps i).1).sum = 0 := sum_offset (fun i => (a i).1) hps
  have hsnd : (ps.map fun i => (offset a ps i).2).sum = 0 := sum_offset (fun i => (a i).2) hps
  rw [List.sum_map_add, List.sum_map_mul_left, List.sum_map_mul_left, hfst, hsnd, mul_zero, mul_zero, add_zero]

/-- The error of a turn and shift, by the offsets from the centers. -/
theorem squaredError_eq (hps : ps ≠ []) (h : c ^ 2 + s ^ 2 = 1) :
    squaredError c s v a b ps = spread a ps + spread b ps - 2 * (c * along a b ps + s * across a b ps)
      + ps.length * normSq (turn c s (center a ps) + v - center b ps) := by
  let w := turn c s (center a ps) + v - center b ps
  have hpoint (i : ι) : normSq (turn c s (a i) + v - b i) =
      normSq (offset a ps i) + (normSq (offset b ps i) + ((-2 * c) * dot (offset a ps i) (offset b ps i)
        + ((-2 * s) * cross (offset a ps i) (offset b ps i)
        + (((2 * (c * w.1 + s * w.2)) * (offset a ps i).1 + (2 * (c * w.2 - s * w.1)) * (offset a ps i).2)
        + (((-2 * w.1) * (offset b ps i).1 + (-2 * w.2) * (offset b ps i).2) + normSq w))))) := by
    have ha : a i = offset a ps i + center a ps := (sub_add_cancel _ _).symm
    have hb : b i = offset b ps i + center b ps := (sub_add_cancel _ _).symm
    have hmoved : turn c s (a i) + v - b i = turn c s (offset a ps i) - offset b ps i + w := by
      rw [offset, turn_sub, offset]
      change _ = _ + (turn c s (center a ps) + v - center b ps)
      abel
    rw [hmoved]
    change (c * (offset a ps i).1 - s * (offset a ps i).2 - (offset b ps i).1 + w.1)
        * (c * (offset a ps i).1 - s * (offset a ps i).2 - (offset b ps i).1 + w.1)
      + (s * (offset a ps i).1 + c * (offset a ps i).2 - (offset b ps i).2 + w.2)
        * (s * (offset a ps i).1 + c * (offset a ps i).2 - (offset b ps i).2 + w.2) = _
    unfold normSq dot cross
    linear_combination ((offset a ps i).1 ^ 2 + (offset a ps i).2 ^ 2) * h
  have hleft := sum_form_offset (a := a) hps (2 * (c * w.1 + s * w.2), 2 * (c * w.2 - s * w.1))
  have hright := sum_form_offset (a := b) hps (-2 * w.1, -2 * w.2)
  unfold squaredError
  simp only [hpoint, List.sum_map_add, List.sum_map_mul_left, List.map_const', List.sum_replicate, nsmul_eq_mul]
    at hleft hright ⊢
  unfold spread along across
  linear_combination hleft + hright

theorem center_moved (hps : ps ≠ []) (h : ∀ i ∈ ps, b i = turn c s (a i) + v) :
    center b ps = turn c s (center a ps) + v := by
  have hlength : (ps.length : K) ≠ 0 := Nat.cast_ne_zero.mpr (List.length_pos_iff.mpr hps).ne'
  have hfst : (ps.map fun i => (b i).1).sum = c * (ps.map fun i => (a i).1).sum + (-s) * (ps.map fun i => (a i).2).sum
      + ps.length * v.1 := by
    rw [List.map_congr_left fun i hi => show (b i).1 = c * (a i).1 + (-s) * (a i).2 + v.1 by
      rw [h i hi]
      change c * (a i).1 - s * (a i).2 + v.1 = _
      ring]
    simp only [List.sum_map_add, List.sum_map_mul_left, List.map_const', List.sum_replicate, nsmul_eq_mul]
  have hsnd : (ps.map fun i => (b i).2).sum = s * (ps.map fun i => (a i).1).sum + c * (ps.map fun i => (a i).2).sum
      + ps.length * v.2 := by
    rw [List.map_congr_left fun i hi => show (b i).2 = s * (a i).1 + c * (a i).2 + v.2 by
      rw [h i hi]
      rfl]
    simp only [List.sum_map_add, List.sum_map_mul_left, List.map_const', List.sum_replicate, nsmul_eq_mul]
  ext
  · change (ps.map fun i => (b i).1).sum / ps.length = c * ((ps.map fun i => (a i).1).sum / ps.length)
      - s * ((ps.map fun i => (a i).2).sum / ps.length) + v.1
    rw [hfst]
    field_simp
    ring
  · change (ps.map fun i => (b i).2).sum / ps.length = s * ((ps.map fun i => (a i).1).sum / ps.length)
      + c * ((ps.map fun i => (a i).2).sum / ps.length) + v.2
    rw [hsnd]
    field_simp

theorem offset_moved (hps : ps ≠ []) (h : ∀ i ∈ ps, b i = turn c s (a i) + v) {i : ι} (hi : i ∈ ps) :
    offset b ps i = turn c s (offset a ps i) := by
  rw [offset, h i hi, center_moved hps h, add_sub_add_right_eq_sub, ← turn_sub]
  rfl

/-- The products of the offsets of a family and of its image. -/
theorem along_moved (hps : ps ≠ []) (h : ∀ i ∈ ps, b i = turn c s (a i) + v) : along a b ps = c * spread a ps := by
  unfold along spread
  rw [← List.sum_map_mul_left]
  refine congrArg List.sum (List.map_congr_left fun i hi => ?_)
  rw [offset_moved hps h hi]
  unfold normSq dot turn
  ring

theorem across_moved (hps : ps ≠ []) (h : ∀ i ∈ ps, b i = turn c s (a i) + v) :
    across a b ps = s * spread a ps := by
  unfold across spread
  rw [← List.sum_map_mul_left]
  refine congrArg List.sum (List.map_congr_left fun i hi => ?_)
  rw [offset_moved hps h hi]
  unfold normSq dot cross turn
  ring

end

/-! ## The least error -/

variable [LinearOrder K] [IsStrictOrderedRing K]

/-- No turn and shift does better than the one along the products that brings center on center. -/
theorem squaredError_le {r : K} (hps : ps ≠ []) (h : c ^ 2 + s ^ 2 = 1) (hr : 0 ≤ r)
    (halong : along a b ps = r * c)
    (hacross : across a b ps = r * s) (hcenter : turn c s (center a ps) + v = center b ps)
    {c' s' : K} (h' : c' ^ 2 + s' ^ 2 = 1) (v' : K × K) :
    squaredError c s v a b ps ≤ squaredError c' s' v' a b ps := by
  have hzero : normSq (turn c s (center a ps) + v - center b ps) = 0 := by
    rw [hcenter, sub_self]
    unfold normSq dot
    exact (congrArg₂ (· + ·) (mul_zero _) (mul_zero _)).trans (add_zero 0)
  have hnonneg : 0 ≤ (ps.length : K) * normSq (turn c' s' (center a ps) + v' - center b ps) :=
    mul_nonneg (Nat.cast_nonneg _) (add_nonneg (mul_self_nonneg _) (mul_self_nonneg _))
  have hcosine : c' * c + s' * s ≤ 1 := by
    have hsquares := add_nonneg (sq_nonneg (c - c')) (sq_nonneg (s - s'))
    linarith
  have hproduct : r * (c' * c + s' * s) ≤ r := mul_le_of_le_one_right hr hcosine
  have hown : r * (c * c + s * s) = r := by linear_combination r * h
  rw [squaredError_eq hps h, squaredError_eq hps h', hzero, halong, hacross]
  linarith

end Wavr.RigidFit
