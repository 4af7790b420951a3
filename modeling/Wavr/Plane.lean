import Mathlib.Analysis.Real.Sqrt
import Mathlib.Tactic.LinearCombination
import Mathlib.Tactic.Ring

/-!
# Vectors of the plane

Products, turns and distances of pairs of numbers.
-/

namespace Wavr.Plane

section
variable {K : Type*} [CommRing K]

def dot (a b : K × K) : K := a.1 * b.1 + a.2 * b.2

def cross (a b : K × K) : K := a.1 * b.2 - a.2 * b.1

def normSq (a : K × K) : K := dot a a

/-- The turn by the angle with this cosine and this sine. -/
def turn (c s : K) (a : K × K) : K × K := (c * a.1 - s * a.2, s * a.1 + c * a.2)

variable {c s : K} (a b : K × K)

theorem turn_sub : turn c s (a - b) = turn c s a - turn c s b := by
  ext
  · change c * (a.1 - b.1) - s * (a.2 - b.2) = (c * a.1 - s * a.2) - (c * b.1 - s * b.2)
    ring
  · change s * (a.1 - b.1) + c * (a.2 - b.2) = (s * a.1 + c * a.2) - (s * b.1 + c * b.2)
    ring

theorem dot_turn (h : c ^ 2 + s ^ 2 = 1) : dot (turn c s a) (turn c s b) = dot a b := by
  unfold dot turn
  linear_combination (a.1 * b.1 + a.2 * b.2) * h

theorem normSq_turn (h : c ^ 2 + s ^ 2 = 1) : normSq (turn c s a) = normSq a := dot_turn a a h

/-- Cramer's rule: a vector by two others. -/
theorem cross_smul (w : K × K) : cross a b • w = cross w b • a - cross w a • b := by
  ext
  · change (a.1 * b.2 - a.2 * b.1) * w.1 = (w.1 * b.2 - w.2 * b.1) * a.1 - (w.1 * a.2 - w.2 * a.1) * b.1
    ring
  · change (a.1 * b.2 - a.2 * b.1) * w.2 = (w.1 * b.2 - w.2 * b.1) * a.2 - (w.1 * a.2 - w.2 * a.1) * b.2
    ring

end

noncomputable def dist (a b : ℝ × ℝ) : ℝ := √(normSq (a - b))

/-- A turn and a shift move no two points apart. -/
theorem dist_turn_add {c s : ℝ} (h : c ^ 2 + s ^ 2 = 1) (a b v : ℝ × ℝ) :
    dist (turn c s a + v) (turn c s b + v) = dist a b := by
  unfold dist
  rw [add_sub_add_right_eq_sub, ← turn_sub, normSq_turn _ h]

end Wavr.Plane
