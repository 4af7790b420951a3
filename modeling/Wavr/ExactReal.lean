import Wavr.Events
import Wavr.Maths

/-!
# Exact real arithmetic

The operations of the code as they would be without rounding.
-/

namespace Wavr.Fusion

/-- To the nearest integer, a half to the even one. -/
noncomputable def roundReal (x : ℝ) : ℤ :=
  let r := x - ⌊x⌋
  if r < Maths.half 1 ∨ (r = Maths.half 1 ∧ ⌊x⌋ % 2 = 0) then ⌊x⌋ else ⌊x⌋ + 1

noncomputable def realArith : Arith ℝ where
  lit := fun q => q
  add := (· + ·)
  sub := (· - ·)
  mul := (· * ·)
  div := (· / ·)
  neg := fun a => -a
  lt := fun a b => decide (a < b)
  le := fun a b => decide (a ≤ b)
  round3 := fun x => roundReal (x * 1000) / 1000
  roundInt := roundReal
  trunc := fun x => if 0 ≤ x then ⌊x⌋ else ⌈x⌉
  ceil := fun x => ⌈x⌉
  isfinite := fun _ => true
  radians := Maths.real.radians
  cos := Real.cos
  sin := Real.sin
  seconds := fun t => t / 1000000
  seconds_mono := by
    intro a b x hab h
    have hcast : (a : ℝ) ≤ b := Int.cast_le.mpr hab
    have hle : (a : ℝ) / 1000000 ≤ (b : ℝ) / 1000000 := div_le_div_of_nonneg_right hcast (by norm_num)
    exact decide_eq_true (hle.trans (of_decide_eq_true h))

end Wavr.Fusion
