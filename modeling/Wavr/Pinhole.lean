import Mathlib.Algebra.Order.Field.Basic
import Mathlib.Tactic.LinearCombination
import Mathlib.Tactic.Ring

/-!
# Pinhole cameras

Vectors of space, and the picture that a camera with orthonormal axes has of them.
-/

namespace Wavr.Pinhole

@[ext]
structure Vec (K : Type*) where
  x : K
  y : K
  z : K

namespace Vec
variable {K : Type*} [Ring K]

def dot (a b : Vec K) : K := a.x * b.x + a.y * b.y + a.z * b.z

def cross (a b : Vec K) : Vec K := ⟨a.y * b.z - a.z * b.y, a.z * b.x - a.x * b.z, a.x * b.y - a.y * b.x⟩

/-- `a + s * b + t * c`. -/
def combine (a : Vec K) (s : K) (b : Vec K) (t : K) (c : Vec K) : Vec K :=
  ⟨a.x + s * b.x + t * c.x, a.y + s * b.y + t * c.y, a.z + s * b.z + t * c.z⟩

/-- The point reached from `a` along `b`. -/
def along (a : Vec K) (k : K) (b : Vec K) : Vec K := ⟨a.x + k * b.x, a.y + k * b.y, a.z + k * b.z⟩

def sub (a b : Vec K) : Vec K := ⟨a.x - b.x, a.y - b.y, a.z - b.z⟩

end Vec

/-- Where a camera is, its axes, and its focal lengths and centre in pixels. -/
structure Camera (K : Type*) where
  position : Vec K
  axis : Vec K
  right : Vec K
  down : Vec K
  fx : K
  fy : K
  cx : K
  cy : K

namespace Camera

section
variable {K : Type*} [CommRing K]

structure Orthonormal (c : Camera K) : Prop where
  axis : c.axis.dot c.axis = 1
  right : c.right.dot c.right = 1
  down : c.down.dot c.down = 1
  axis_right : c.axis.dot c.right = 0
  axis_down : c.axis.dot c.down = 0
  right_down : c.right.dot c.down = 0

/-- The ray so many focal lengths to the right of the axis and below it. -/
def ray (c : Camera K) (a b : K) : Vec K := c.axis.combine a c.right b c.down

variable {c : Camera K} (h : c.Orthonormal) (a b : K)
include h

theorem Orthonormal.dot_axis : (c.ray a b).dot c.axis = 1 := by
  have h1 := h.axis
  have h2 := h.axis_right
  have h3 := h.axis_down
  unfold Vec.dot at *
  unfold ray Vec.combine
  linear_combination h1 + a * h2 + b * h3

theorem Orthonormal.dot_right : (c.ray a b).dot c.right = a := by
  have h1 := h.right
  have h2 := h.axis_right
  have h3 := h.right_down
  unfold Vec.dot at *
  unfold ray Vec.combine
  linear_combination a * h1 + h2 + b * h3

theorem Orthonormal.dot_down : (c.ray a b).dot c.down = b := by
  have h1 := h.down
  have h2 := h.axis_down
  have h3 := h.right_down
  unfold Vec.dot at *
  unfold ray Vec.combine
  linear_combination b * h1 + h2 + a * h3

theorem Orthonormal.dot_ray : (c.ray a b).dot (c.ray a b) = 1 + a ^ 2 + b ^ 2 := by
  have h1 := h.dot_axis a b
  have h2 := h.dot_right a b
  have h3 := h.dot_down a b
  unfold Vec.dot at *
  change (c.ray a b).x * (c.axis.x + a * c.right.x + b * c.down.x)
    + (c.ray a b).y * (c.axis.y + a * c.right.y + b * c.down.y)
    + (c.ray a b).z * (c.axis.z + a * c.right.z + b * c.down.z) = 1 + a ^ 2 + b ^ 2
  linear_combination h1 + a * h2 + b * h3

end

section
variable {K : Type*} [Field K] [LinearOrder K]

/-- The pixel of a point in front of the camera. -/
def project (c : Camera K) (p : Vec K) : Option (K × K) :=
  let w := p.sub c.position
  let depth := w.dot c.axis
  if 0 < depth then some (c.cx + c.fx * (w.dot c.right / depth), c.cy + c.fy * (w.dot c.down / depth)) else none

/-- Every point along a ray is seen where the ray goes. -/
theorem Orthonormal.project_along {c : Camera K} (h : c.Orthonormal) {k : K} (hk : 0 < k) (a b : K) :
    c.project (c.position.along k (c.ray a b)) = some (c.cx + c.fx * a, c.cy + c.fy * b) := by
  have hdot (v : Vec K) : ((c.position.along k (c.ray a b)).sub c.position).dot v = k * (c.ray a b).dot v := by
    unfold Vec.along Vec.sub Vec.dot
    ring
  have hdepth : ((c.position.along k (c.ray a b)).sub c.position).dot c.axis = k := by
    rw [hdot, h.dot_axis, mul_one]
  unfold project
  simp only [hdepth, hdot, h.dot_right, h.dot_down, if_pos hk, mul_div_cancel_left₀ _ hk.ne']

end

end Camera

end Wavr.Pinhole
