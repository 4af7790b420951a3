import Wavr.EvenOdd
import Wavr.HouseMap

/-!
# Rooms that tile

`_point_in_polygon` without rounding, and that the parts of a polygon share its points out.
-/

namespace Wavr.HouseMap
open EvenOdd

variable {K : Type} [Field K] [LinearOrder K]

/-- Doubles that do not round. -/
def exactIn (K : Type) [Field K] [LinearOrder K] (size : ℕ) : Python K where
  isfinite _ := true
  isZero x := decide (x = 0)
  eqInt x n := decide (x = n)
  ofInt n := n
  add x y := x + y
  sub x y := x - y
  mul x y := x * y
  div x y := x / y
  lt
    | .int m, .int n => decide (m < n)
    | .int m, .float y => decide ((m : K) < y)
    | .float x, .int n => decide (x < n)
    | .float x, .float y => decide (x < y)
  dumpsLength _ := size
  tooManyDigits := "Exceeds the limit (4300 digits) for integer string conversion"
  strList names := "[" ++ ", ".intercalate (names.map fun s => "'" ++ s ++ "'") ++ "]"

def vertex (p : K × K) : Json K := .arr [.float p.1, .float p.2]

/-- `_point_in_polygon` of a list of vertices. -/
def insideExact (size : ℕ) (p : K × K) (poly : List (K × K)) : Except Fault Bool :=
  pointInPolygon (exactIn K size) p.1 p.2 (poly.map vertex)

/-! ## The loop -/

variable {size : ℕ} {p : K × K}

/-- An edge is divided by its height only where the height is not zero. -/
theorem crosses_exact (a b : K × K) :
    crosses (exactIn K size) p.1 p.2 (vertex a) (vertex b) = .ok (meets p a b) := by
  by_cases h : decide (p.2 < a.2) = decide (p.2 < b.2)
  · rw [meets_of_level h]
    exact if_pos h
  · have hzero : ¬ decide (b.2 - a.2 = 0) = true := fun hz => height_ne_zero h (of_decide_eq_true hz)
    rw [meets_of_ne h]
    refine (if_neg h).trans ?_
    exact if_neg hzero

theorem foldlM_crosses (es : List ((K × K) × (K × K))) (inside : Bool) :
    (es.map (Prod.map vertex vertex)).foldlM (fun inside e => do
        let hit ← crosses (exactIn K size) p.1 p.2 e.1 e.2
        return if hit then ! inside else inside) inside =
      .ok (es.foldl (fun inside e => inside ^^ meets p e.1 e.2) inside) := by
  induction es generalizing inside with
  | nil => rfl
  | cons e es ih =>
    rw [List.map_cons, List.foldlM_cons, Prod.map_fst, Prod.map_snd, crosses_exact]
    have hflip : (if meets p e.1 e.2 then ! inside else inside) = (inside ^^ meets p e.1 e.2) := by
      cases meets p e.1 e.2 <;> cases inside <;> rfl
    change List.foldlM _ (if meets p e.1 e.2 then ! inside else inside) _ = _
    rw [hflip, ih, List.foldl_cons]

/-- The vertices with the ones before them, from the last one on. -/
theorem foldl_meets (last : K × K) (poly : List (K × K)) (inside : Bool) :
    (poly.zip (last :: poly)).foldl (fun inside e => inside ^^ meets p e.1 e.2) inside =
      (inside ^^ along (meets p) (last :: poly)) := by
  induction poly generalizing last inside with
  | nil => exact (Bool.xor_false _).symm
  | cons a poly ih =>
    rw [List.zip_cons_cons, List.foldl_cons, ih, along_cons_cons, meets_comm, Bool.xor_assoc]

/-- The loop finds whether the ray meets an odd number of the edges. -/
theorem insideExact_eq (poly : List (K × K)) : insideExact size p poly = .ok (around (meets p) poly) := by
  rcases List.eq_nil_or_concat' poly with rfl | ⟨front, last, rfl⟩
  · rfl
  · have hedges : edges ((front ++ [last]).map vertex) =
        ((front ++ [last]).zip (last :: (front ++ [last]))).map (Prod.map vertex vertex) := by
      unfold edges
      rw [← List.zip_map, List.getLast?_map, List.getLast?_concat]
      rfl
    unfold insideExact pointInPolygon
    rw [hedges, foldlM_crosses, foldl_meets, Bool.false_xor, around_rotate_one]
    rfl

variable [IsStrictOrderedRing K]

/-- The answer is there, depends on the outline alone, and is shared out by a chord. -/
theorem point_in_polygon_tiles (size : ℕ) (p : K × K) :
    (∀ poly, ∃ inside, insideExact size p poly = .ok inside) ∧
    (∀ poly k, insideExact size p (poly.rotate k) = insideExact size p poly) ∧
    (∀ poly, insideExact size p poly.reverse = insideExact size p poly) ∧
    (∀ front a m b back, OnEdge a b m →
      insideExact size p (front ++ a :: m :: b :: back) = insideExact size p (front ++ a :: b :: back)) ∧
    (∀ poly a m b, poly.getLast? = some a → poly.head? = some b → OnEdge a b m →
      insideExact size p (poly ++ [m]) = insideExact size p poly) ∧
    ∀ front a mid b back, ∃ whole part other,
      insideExact size p (front ++ a :: mid ++ b :: back) = .ok whole ∧
      insideExact size p (a :: mid ++ [b]) = .ok part ∧ insideExact size p (front ++ a :: b :: back) = .ok other ∧
      (whole = true ↔ part ≠ other) := by
  have hcomm : ∀ a b : K × K, meets p a b = meets p b a := fun _ _ => meets_comm
  refine ⟨fun poly => ⟨_, insideExact_eq poly⟩, fun poly k => ?_, fun poly => ?_, fun front a m b back hm => ?_,
    fun poly a m b hlast hhead hm => ?_, fun front a mid b back => ?_⟩
  · rw [insideExact_eq, insideExact_eq, around_rotate]
  · rw [insideExact_eq, insideExact_eq, around_reverse hcomm]
  · rw [insideExact_eq, insideExact_eq, around_insert (meets_split hm)]
  · rw [insideExact_eq, insideExact_eq, around_insert_last (meets_split hm) hlast hhead]
  · refine ⟨_, _, _, insideExact_eq _, insideExact_eq _, insideExact_eq _, ?_⟩
    rw [around_chord hcomm]
    exact Bool.xor_iff_ne

/-- A square with a vertex more on its lower edge. -/
theorem square_with_midpoint : insideExact (K := ℚ) 0 (1 / 4, 1 / 2) [(0, 0), (1 / 2, 0), (1, 0), (1, 1), (0, 1)] =
    insideExact (K := ℚ) 0 (1 / 4, 1 / 2) [(0, 0), (1, 0), (1, 1), (0, 1)] :=
  (point_in_polygon_tiles (K := ℚ) 0 _).2.2.2.1 [] (0, 0) (1 / 2, 0) (1, 0) [(1, 1), (0, 1)]
    ⟨1 / 2, by norm_num, by norm_num, by norm_num, by norm_num⟩

end Wavr.HouseMap
