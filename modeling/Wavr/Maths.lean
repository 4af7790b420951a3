import Mathlib.Analysis.SpecialFunctions.Complex.Arg
import Wavr.Plane

/-!
# The math module

What Python's `math` computes on a number type, and the same without rounding.
-/

namespace Wavr

structure Maths (K : Type) where
  pi : K
  isfinite : K → Bool
  sqrt : K → K
  cos : K → K
  sin : K → K
  tan : K → K
  atan2 : K → K → K
  radians : K → K
  degrees : K → K
  hypot : K → K → K
  dist : K × K → K × K → K

namespace Maths

/-- `x / 2.0`. -/
def half {K : Type} [DivisionRing K] (x : K) : K := x / 2

/-- On the real numbers. -/
noncomputable def real : Maths ℝ where
  pi := Real.pi
  isfinite _ := true
  sqrt := Real.sqrt
  cos := Real.cos
  sin := Real.sin
  tan := Real.tan
  atan2 y x := Complex.arg ⟨x, y⟩
  radians x := x * Real.pi / 180
  degrees x := x * 180 / Real.pi
  hypot x y := √(x ^ 2 + y ^ 2)
  dist := Plane.dist

theorem radians_degrees (x : ℝ) : real.radians (real.degrees x) = x := by
  change x * 180 / Real.pi * Real.pi / 180 = x
  field_simp

/-- `atan2` is the direction of the vector it is given. -/
theorem cos_atan2 {x y : ℝ} (h : x ≠ 0 ∨ y ≠ 0) : real.cos (real.atan2 y x) = x / √(x ^ 2 + y ^ 2) := by
  have hne : (⟨x, y⟩ : ℂ) ≠ 0 := by
    intro hzero
    rcases h with h | h
    · exact h (congrArg Complex.re hzero)
    · exact h (congrArg Complex.im hzero)
  have hnorm : ‖(⟨x, y⟩ : ℂ)‖ = √(x ^ 2 + y ^ 2) := by
    rw [Complex.norm_def, Complex.normSq_mk, ← sq, ← sq]
  exact (Complex.cos_arg hne).trans (congrArg (x / ·) hnorm)

theorem sin_atan2 (x y : ℝ) : real.sin (real.atan2 y x) = y / √(x ^ 2 + y ^ 2) := by
  have hnorm : ‖(⟨x, y⟩ : ℂ)‖ = √(x ^ 2 + y ^ 2) := by
    rw [Complex.norm_def, Complex.normSq_mk, ← sq, ← sq]
  exact (Complex.sin_arg _).trans (congrArg (y / ·) hnorm)

end Maths

end Wavr
