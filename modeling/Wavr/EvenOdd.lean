import Mathlib.Algebra.Order.Field.Basic
import Mathlib.Data.List.Rotate
import Mathlib.Tactic.FieldSimp
import Mathlib.Tactic.Linarith
import Mathlib.Tactic.Ring

/-!
# Even and odd

How often a ray meets the edges around a list of points, up to a multiple of two.
-/

namespace Wavr.EvenOdd

/-! ## Parities along a path -/

section
variable {α : Type*} (c : α → α → Bool)

/-- The parity of the steps of a path that count. -/
def along : List α → Bool
  | a :: b :: path => c a b ^^ along (b :: path)
  | _ => false

/-- The same of a list closed by its first point. -/
def around (poly : List α) : Bool := along c (poly ++ poly.head?.toList)

variable {c}

theorem along_append (front : List α) (a : α) (back : List α) :
    along c (front ++ a :: back) = (along c (front ++ [a]) ^^ along c (a :: back)) := by
  induction front with
  | nil => exact (Bool.false_xor _).symm
  | cons b front ih =>
    cases front with
    | nil => exact congrArg (· ^^ along c (a :: back)) (Bool.xor_false _).symm
    | cons d front =>
      change (c b d ^^ along c (d :: front ++ a :: back)) =
        (c b d ^^ along c (d :: front ++ [a]) ^^ along c (a :: back))
      rw [ih, Bool.xor_assoc]

theorem along_pair (a b : α) : along c [a, b] = c a b := Bool.xor_false _

theorem along_cons_cons (a b : α) (path : List α) : along c (a :: b :: path) =
    (c a b ^^ along c (b :: path)) := rfl

variable (hc : ∀ a b, c a b = c b a)
include hc

theorem along_reverse (path : List α) : along c path.reverse = along c path := by
  induction path with
  | nil => rfl
  | cons a path ih =>
    cases path with
    | nil => rfl
    | cons b path =>
      rw [List.reverse_cons, List.reverse_cons, List.append_assoc]
      change along c (path.reverse ++ b :: [a]) = _
      rw [along_append, ← List.reverse_cons, ih, along_pair, hc b a, along_cons_cons, Bool.xor_comm]

theorem around_reverse (poly : List α) : around c poly.reverse = around c poly := by
  cases poly with
  | nil => rfl
  | cons a path =>
    -- the closed path around the reversed list starts at the last point
    cases hlast : path.reverse with
    | nil =>
      obtain rfl : path = [] := List.reverse_eq_nil_iff.mp hlast
      rfl
    | cons z front =>
      have hpath : path = front.reverse ++ [z] := by rw [← List.reverse_reverse path, hlast, List.reverse_cons]
      have hleft : around c (a :: path).reverse = (along c (z :: front ++ [a]) ^^ c a z) := by
        unfold around
        rw [List.reverse_cons, hlast]
        change along c (z :: front ++ [a] ++ [z]) = _
        rw [List.append_assoc]
        exact (along_append (z :: front) a [z]).trans (congrArg _ (along_pair a z))
      have hright : around c (a :: path) = (along c (a :: path) ^^ c z a) := by
        unfold around
        rw [hpath]
        change along c (a :: (front.reverse ++ [z]) ++ [a]) = _
        rw [← List.cons_append, List.append_assoc]
        exact (along_append (a :: front.reverse) z [a]).trans (congrArg _ (along_pair z a))
      have hturned : along c (z :: front ++ [a]) = along c (a :: path) := by
        rw [← along_reverse hc (a :: path), List.reverse_cons, hlast]
      rw [hleft, hright, hturned, hc a z]

omit hc in
theorem around_rotate_one (a : α) (path : List α) : around c (path ++ [a]) = around c (a :: path) := by
  cases path with
  | nil => rfl
  | cons b path =>
    change along c (b :: path ++ [a] ++ [b]) = along c (a :: b :: path ++ [a])
    rw [List.append_assoc]
    refine (along_append (b :: path) a [b]).trans ?_
    change (along c (b :: path ++ [a]) ^^ along c [a, b]) = (c a b ^^ along c (b :: path ++ [a]))
    rw [along_pair, Bool.xor_comm]

omit hc in
theorem around_rotate (poly : List α) (k : ℕ) : around c (poly.rotate k) = around c poly := by
  induction k with
  | zero => rw [List.rotate_zero]
  | succ k ih =>
    rw [← List.rotate_rotate, ← ih]
    cases poly.rotate k with
    | nil => rfl
    | cons a path =>
      rw [List.rotate_cons_succ, List.rotate_zero]
      exact around_rotate_one a path

/-- The parts on the two sides of a chord. -/
theorem around_chord (front mid back : List α) (a b : α) :
    around c (front ++ a :: mid ++ b :: back) =
      (around c (a :: mid ++ [b]) ^^ around c (front ++ a :: b :: back)) := by
  let h := (front ++ [a]).head?.toList
  have hwhole : around c (front ++ a :: mid ++ b :: back) =
      (along c (front ++ [a]) ^^ along c (a :: mid ++ [b]) ^^ along c (b :: back ++ h)) := by
    have hclosed : front ++ a :: mid ++ b :: back ++ (front ++ a :: mid ++ b :: back).head?.toList
        = front ++ a :: (mid ++ b :: (back ++ h)) := by
      cases front <;> simp [h]
    rw [around, hclosed, along_append, Bool.xor_assoc]
    exact congrArg (along c (front ++ [a]) ^^ ·) (along_append (a :: mid) b (back ++ h))
  have hpart : around c (a :: mid ++ [b]) = (along c (a :: mid ++ [b]) ^^ c b a) := by
    change along c (a :: mid ++ [b] ++ [a]) = _
    rw [List.append_assoc]
    exact (along_append (a :: mid) b [a]).trans (congrArg _ (along_pair b a))
  have hother : around c (front ++ a :: b :: back) =
      (along c (front ++ [a]) ^^ c a b ^^ along c (b :: back ++ h)) := by
    have hclosed : front ++ a :: b :: back ++ (front ++ a :: b :: back).head?.toList
        = front ++ a :: b :: (back ++ h) := by
      cases front <;> simp [h]
    rw [around, hclosed, along_append, along_cons_cons, Bool.xor_assoc]
    rfl
  rw [hwhole, hpart, hother, hc b a]
  cases along c (front ++ [a]) <;> cases along c (a :: mid ++ [b]) <;> cases c a b <;>
    cases along c (b :: back ++ h) <;> rfl

omit hc in
/-- A point that splits a step splits it anywhere. -/
theorem along_insert {a m b : α} (h : c a b = (c a m ^^ c m b)) (front back : List α) :
    along c (front ++ a :: m :: b :: back) = along c (front ++ a :: b :: back) := by
  rw [along_append, along_append front a (b :: back), along_cons_cons, along_cons_cons, along_cons_cons, h,
    Bool.xor_assoc]

omit hc in
theorem around_insert {a m b : α} (h : c a b = (c a m ^^ c m b)) (front back : List α) :
    around c (front ++ a :: m :: b :: back) = around c (front ++ a :: b :: back) := by
  have hhead : (front ++ a :: m :: b :: back).head? = (front ++ a :: b :: back).head? := by cases front <;> rfl
  unfold around
  rw [hhead, List.append_assoc, List.append_assoc]
  exact along_insert h front _

omit hc in
/-- Between the last point and the first. -/
theorem around_insert_last {a m b : α} (h : c a b = (c a m ^^ c m b)) {poly : List α}
    (hlast : poly.getLast? = some a) (hhead : poly.head? = some b) : around c (poly ++ [m]) = around c poly := by
  obtain ⟨front, rfl⟩ := List.getLast?_eq_some_iff.mp hlast
  have hhead' : (front ++ [a] ++ [m]).head? = some b := by
    rw [List.head?_append, hhead]
    rfl
  unfold around
  rw [hhead', hhead, List.append_assoc, List.append_assoc, List.append_assoc]
  exact along_insert h front []

end

/-! ## Edges that a ray meets -/

section
variable {K : Type*} [Field K] [LinearOrder K]

/-- Whether the edge passes to the right of the point. -/
def meets (p a b : K × K) : Bool :=
  decide (p.2 < a.2) != decide (p.2 < b.2) && decide (p.1 < (b.1 - a.1) * (p.2 - a.2) / (b.2 - a.2) + a.1)

/-- On the segment between two points, the ends included. -/
def OnEdge (a b m : K × K) : Prop := ∃ t, 0 ≤ t ∧ t ≤ 1 ∧ m.1 = a.1 + t * (b.1 - a.1) ∧ m.2 = a.2 + t * (b.2 - a.2)

variable {p a b m : K × K}

theorem meets_of_level (h : decide (p.2 < a.2) = decide (p.2 < b.2)) : meets p a b = false := by
  unfold meets
  rw [h, bne_self_eq_false, Bool.false_and]

theorem height_ne_zero (h : decide (p.2 < a.2) ≠ decide (p.2 < b.2)) : b.2 - a.2 ≠ 0 :=
  fun hzero => h (by rw [sub_eq_zero.mp hzero])

theorem meets_of_ne (h : decide (p.2 < a.2) ≠ decide (p.2 < b.2)) :
    meets p a b = decide (p.1 < (b.1 - a.1) * (p.2 - a.2) / (b.2 - a.2) + a.1) := by
  unfold meets
  rw [bne_iff_ne.mpr h, Bool.true_and]

theorem meets_comm : meets p a b = meets p b a := by
  by_cases h : decide (p.2 < a.2) = decide (p.2 < b.2)
  · rw [meets_of_level h, meets_of_level h.symm]
  · have hab := height_ne_zero h
    have hba := height_ne_zero (Ne.symm h)
    have hpoint : (b.1 - a.1) * (p.2 - a.2) / (b.2 - a.2) + a.1 =
      (a.1 - b.1) * (p.2 - b.2) / (a.2 - b.2) + b.1 := by
      field_simp
      ring
    rw [meets_of_ne h, meets_of_ne (Ne.symm h), hpoint]

variable [IsStrictOrderedRing K]

/-- A point of an edge is on one side of a level where both ends are. -/
theorem level_of_onEdge (hm : OnEdge a b m) (h : decide (p.2 < a.2) = decide (p.2 < b.2)) :
    decide (p.2 < a.2) = decide (p.2 < m.2) := by
  obtain ⟨t, ht0, ht1, -, hm2⟩ := hm
  have hconvex : m.2 = (1 - t) * a.2 + t * b.2 := hm2.trans (by ring)
  by_cases ha : p.2 < a.2
  · have hb : p.2 < b.2 := of_decide_eq_true (h ▸ decide_eq_true ha)
    have hlow : p.2 < m.2 := by
      rw [hconvex]
      rcases ht0.eq_or_lt with rfl | hpos
      · linarith
      · have hleft := mul_le_mul_of_nonneg_left ha.le (sub_nonneg.mpr ht1)
        have hright := mul_lt_mul_of_pos_left hb hpos
        linarith
    rw [decide_eq_true ha, decide_eq_true hlow]
  · have hb : ¬ p.2 < b.2 := of_decide_eq_false (h ▸ decide_eq_false ha)
    have hhigh : ¬ p.2 < m.2 := by
      rw [hconvex, not_lt]
      have hleft := mul_le_mul_of_nonneg_left (not_lt.mp ha) (sub_nonneg.mpr ht1)
      have hright := mul_le_mul_of_nonneg_left (not_lt.mp hb) ht0
      linarith
    rw [decide_eq_false ha, decide_eq_false hhigh]

/-- A point of an edge splits it, whichever end the ray is level with. -/
theorem meets_split (hm : OnEdge a b m) : meets p a b = (meets p a m ^^ meets p m b) := by
  by_cases h : decide (p.2 < a.2) = decide (p.2 < b.2)
  · have ham := level_of_onEdge hm h
    rw [meets_of_level h, meets_of_level ham, meets_of_level (ham.symm.trans h)]
    rfl
  · have hab := height_ne_zero h
    obtain ⟨t, -, -, hm1, hm2⟩ := hm
    by_cases ham : decide (p.2 < a.2) = decide (p.2 < m.2)
    · have hmb : decide (p.2 < m.2) ≠ decide (p.2 < b.2) := fun hmb => h (ham.trans hmb)
      have hheight : b.2 - m.2 = (1 - t) * (b.2 - a.2) := by
        rw [hm2]
        ring
      have ht : 1 - t ≠ 0 := fun ht => height_ne_zero hmb (by rw [hheight, ht, zero_mul])
      have hpoint : (b.1 - m.1) * (p.2 - m.2) / (b.2 - m.2) + m.1 =
          (b.1 - a.1) * (p.2 - a.2) / (b.2 - a.2) + a.1 := by
        rw [hheight, hm1, hm2]
        field_simp
        ring
      rw [meets_of_ne h, meets_of_level ham, meets_of_ne hmb, hpoint, Bool.false_xor]
    · have hmb : decide (p.2 < m.2) = decide (p.2 < b.2) :=
        Bool.not_inj ((Bool.eq_not_of_ne ham).symm.trans (Bool.eq_not_of_ne h))
      have hheight : m.2 - a.2 = t * (b.2 - a.2) := by
        rw [hm2]
        ring
      have ht : t ≠ 0 := fun ht => height_ne_zero ham (by rw [hheight, ht, zero_mul])
      have hpoint : (m.1 - a.1) * (p.2 - a.2) / (m.2 - a.2) + a.1 =
          (b.1 - a.1) * (p.2 - a.2) / (b.2 - a.2) + a.1 := by
        rw [hheight, hm1]
        field_simp
        ring
      rw [meets_of_ne h, meets_of_ne ham, meets_of_level hmb, hpoint, Bool.xor_false]

end

end Wavr.EvenOdd
