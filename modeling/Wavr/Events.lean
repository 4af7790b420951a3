import Mathlib.Algebra.Order.Field.Rat
import Mathlib.Algebra.Order.Ring.Cast

/-!
# Sensing events, targets and room states

Numbers are doubles in the sources. Here they are values of a type with the operations the
code performs and nothing else: no rounding, order or algebra law is assumed of them, so that
whatever is proved holds of doubles, NaN included. Instants are whole microseconds, which is
what a `datetime` resolves.
-/

namespace Wavr.Fusion

/-- The arithmetic of a number type, and what the standard library computes on it. -/
structure Arith (R : Type) where
  /-- A literal. -/
  lit : ℚ → R
  add : R → R → R
  sub : R → R → R
  mul : R → R → R
  div : R → R → R
  neg : R → R
  lt : R → R → Bool
  le : R → R → Bool
  /-- `round(x, 3)`. -/
  round3 : R → R
  /-- `round(x)`. -/
  roundInt : R → ℤ
  /-- `int(x)`. -/
  trunc : R → ℤ
  ceil : R → ℤ
  isfinite : R → Bool
  radians : R → R
  cos : R → R
  sin : R → R
  /-- `total_seconds()` of a difference of instants. -/
  seconds : ℤ → R
  /-- A shorter difference is not more seconds. -/
  seconds_mono : ∀ {a b : ℤ} {x : R}, a ≤ b → le (seconds b) x = true → le (seconds a) x = true

namespace Arith
variable {R : Type} (ar : Arith R)

/-- Python's `max(a, b)` and `min(a, b)` keep the first argument unless the second beats it. -/
def max (a b : R) : R := if ar.lt a b then b else a

def min (a b : R) : R := if ar.lt b a then b else a

/-- `a == b`. -/
def eq (a b : R) : Bool := ar.le a b && ar.le b a

end Arith

/-- One tracked person. -/
structure Target (R : Type) where
  id : ℤ
  x : Option R
  y : Option R
  z : Option R
  posture : Option String
  velocity : Option R
  confidence : R
  frame : String
  deriving DecidableEq

/-- A device-to-person association. -/
structure Identity where
  person : String
  source : String
  rssi : Option ℤ
  deriving DecidableEq

/-- What one sensor says about one room. -/
structure SensingEvent (R : Type) where
  room : String
  modality : String
  presence : Bool
  breathingBpm : Option R
  heartBpm : Option R
  confidence : R
  /-- ISO-8601, as it came. -/
  ts : String
  targets : List (Target R)
  identities : List Identity
  count : Option ℕ
  sensorId : String
  deriving DecidableEq

/-- One row of `sources`. -/
structure Source (R : Type) where
  modality : String
  sensorId : String
  presence : Bool
  confidence : R
  ageS : ℤ
  health : String
  count : Option ℕ
  share : R
  /-- Present only where the factor is not 1. -/
  reliability : Option (R × String)
  deriving DecidableEq

/-- The rungs of the precision ladder. -/
inductive Level
  | none
  | house
  | room
  | count
  | position
  deriving DecidableEq, Repr

structure RoomState (R : Type) where
  room : String
  occupied : Bool
  confidence : R
  vitals : Option (R × Option R)
  sources : List (Source R)
  targets : List (Target R)
  identities : List Identity
  personCount : Option ℕ
  explanation : String
  ts : String
  precisionLevel : Level
  precisionPct : ℕ
  precisionNext : Option String
  deriving DecidableEq

/-- To the nearest integer, a half to the even one. -/
def roundHalfEven (q : ℚ) : ℤ :=
  let r := q - q.floor
  if r < 1 / 2 ∨ (r = 1 / 2 ∧ q.floor % 2 = 0) then q.floor else q.floor + 1

/-- Exact arithmetic, for sensors that are not turned. -/
def ratArith : Arith ℚ where
  lit := id
  add := (· + ·)
  sub := (· - ·)
  mul := (· * ·)
  div := (· / ·)
  neg := fun a => -a
  lt := fun a b => decide (a < b)
  le := fun a b => decide (a ≤ b)
  round3 := fun q => roundHalfEven (q * 1000) / 1000
  roundInt := roundHalfEven
  trunc := fun q => if 0 ≤ q then q.floor else q.ceil
  ceil := Rat.ceil
  isfinite := fun _ => true
  radians := id
  cos := fun _ => 1
  sin := fun _ => 0
  seconds := fun t => t / 1000000
  seconds_mono := by
    intro a b x hab h
    have hle : (a : ℚ) / 1000000 ≤ (b : ℚ) / 1000000 := by
      have hcast : (a : ℚ) ≤ b := Int.cast_le.mpr hab
      exact div_le_div_of_nonneg_right hcast (by decide)
    exact decide_eq_true (hle.trans (of_decide_eq_true h))

end Wavr.Fusion
