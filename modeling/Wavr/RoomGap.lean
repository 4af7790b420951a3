import Mathlib.Data.List.ProdSigma
import Wavr.Maths
import Wavr.Segments
import Wavr.Topology

/-!
# How near two rooms are

`_seg_distance` and `_polygon_gap`, and that they are least distances.
-/

namespace Wavr.Topology

section
variable {K : Type} [Field K] [LinearOrder K] (math : Maths K)

def pointSeg (p a b : K × K) : K :=
  let ab := b - a
  let denom := Plane.dot ab ab
  if denom = 0 then math.dist p a
  else
    let t := max 0 (min 1 (Plane.dot (p - a) ab / denom))
    math.dist p (a.1 + t * ab.1, a.2 + t * ab.2)

def ends (p1 p2 q1 q2 : K × K) : K :=
  min (min (min (pointSeg math p1 q1 q2) (pointSeg math p2 q1 q2)) (pointSeg math q1 p1 p2)) (pointSeg math q2 p1 p2)

/-- `_seg_distance`. -/
def segDistance (p1 p2 q1 q2 : K × K) : K :=
  let d1 := p2 - p1
  let d2 := q2 - q1
  let denom := d1.1 * d2.2 - d1.2 * d2.1
  if denom ≠ 0 then
    let s := ((q1.1 - p1.1) * d2.2 - (q1.2 - p1.2) * d2.1) / denom
    let t := ((q1.1 - p1.1) * d1.2 - (q1.2 - p1.2) * d1.1) / denom
    if 0 ≤ s ∧ s ≤ 1 ∧ 0 ≤ t ∧ t ≤ 1 then 0 else ends math p1 p2 q1 q2
  else ends math p1 p2 q1 q2

abbrev Side (K : Type) := (K × K) × (K × K)

/-- `(a[i], a[(i + 1) % len(a)])` for every `i`. -/
def sides (poly : Outline K) : List (Side K) := poly.zip (poly.tail ++ poly.head?.toList)

def sideDistance (x : Side K × Side K) : K := segDistance math x.1.1 x.1.2 x.2.1 x.2.2

/-- The two loops; `⊤` is `math.inf`. -/
def gapLoop (best : WithTop K) : List (Side K × Side K) → WithTop K
  | [] => best
  | x :: rest =>
    if min best ↑(sideDistance math x) = 0 then 0 else gapLoop (min best ↑(sideDistance math x)) rest

/-- `_polygon_gap`. -/
def polygonGap (a b : Outline K) : WithTop K := gapLoop math ⊤ (sides a ×ˢ sides b)

/-- `_polygon_gap(a, b) <= touch_m`. -/
def touchesWithin (touchM : K) (a b : Outline K) : Bool := decide (polygonGap math a b ≤ touchM)

end

/-! ## Segments -/

/-- The distances between points of two sets. -/
def distances (A B : Set (ℝ × ℝ)) : Set ℝ := {d | ∃ p ∈ A, ∃ q ∈ B, d = Plane.dist p q}

variable {p1 p2 q1 q2 : ℝ × ℝ}

theorem pointSeg_eq (p a b : ℝ × ℝ) : pointSeg Maths.real p a b =
    Plane.dist p (a + Plane.foot p a b • (b - a)) := by
  by_cases hzero : Plane.dot (b - a) (b - a) = 0
  · have hba : b - a = 0 := Plane.normSq_eq_zero.mp hzero
    rw [hba, smul_zero, add_zero]
    exact if_pos hzero
  · exact if_neg hzero

/-- A point and a segment, by the foot of the point. -/
theorem pointSeg_isLeast (p a b : ℝ × ℝ) : IsLeast (distances {p} (segment ℝ a b))
    (pointSeg Maths.real p a b) := by
  rw [pointSeg_eq]
  constructor
  · exact ⟨p, rfl, _, Plane.mem_segment_iff.mpr ⟨_, Plane.foot_mem p a b, rfl⟩, rfl⟩
  · rintro d ⟨p', rfl, q, hq, rfl⟩
    exact Plane.dist_foot_le p' hq

theorem distances_comm (A B : Set (ℝ × ℝ)) : distances A B = distances B A := by
  have hsub : ∀ A B, distances A B ⊆ distances B A := by
    rintro A B d ⟨p, hp, q, hq, rfl⟩
    exact ⟨q, hq, p, hp, Plane.dist_comm p q⟩
  exact (hsub A B).antisymm (hsub B A)

theorem distances_mono {A A' B B' : Set (ℝ × ℝ)} (hA : A ⊆ A') (hB : B ⊆ B') :
    distances A B ⊆ distances A' B' := by
  rintro d ⟨p, hp, q, hq, rfl⟩
  exact ⟨p, hA hp, q, hB hq, rfl⟩

/-- The ends give a distance, and no end has a lesser one. -/
theorem ends_mem : ends Maths.real p1 p2 q1 q2 ∈ distances (segment ℝ p1 p2) (segment ℝ q1 q2) := by
  have hp1 := (pointSeg_isLeast p1 q1 q2).1
  have hp2 := (pointSeg_isLeast p2 q1 q2).1
  have hq1 := (pointSeg_isLeast q1 p1 p2).1
  have hq2 := (pointSeg_isLeast q2 p1 p2).1
  rw [distances_comm] at hq1 hq2
  have hleft := Set.singleton_subset_iff.mpr (left_mem_segment ℝ p1 p2)
  have hright := Set.singleton_subset_iff.mpr (right_mem_segment ℝ p1 p2)
  have hleft' := Set.singleton_subset_iff.mpr (left_mem_segment ℝ q1 q2)
  have hright' := Set.singleton_subset_iff.mpr (right_mem_segment ℝ q1 q2)
  unfold ends
  refine min_rec' (· ∈ distances _ _) (min_rec' (· ∈ distances _ _) (min_rec' (· ∈ distances _ _) ?_ ?_) ?_) ?_
  · exact distances_mono hleft subset_rfl hp1
  · exact distances_mono hright subset_rfl hp2
  · exact distances_mono subset_rfl hleft' hq1
  · exact distances_mono subset_rfl hright' hq2

theorem ends_le {p q : ℝ × ℝ} (hp : p ∈ segment ℝ p1 p2) (hq : q ∈ segment ℝ q1 q2)
    (hend : p = p1 ∨ p = p2 ∨ q = q1 ∨ q = q2) : ends Maths.real p1 p2 q1 q2 ≤ Plane.dist p q := by
  unfold ends
  rcases hend with rfl | rfl | rfl | rfl
  · exact ((min_le_left _ _).trans ((min_le_left _ _).trans (min_le_left _ _))).trans
      ((pointSeg_isLeast _ _ _).2 ⟨_, rfl, q, hq, rfl⟩)
  · exact ((min_le_left _ _).trans ((min_le_left _ _).trans (min_le_right _ _))).trans
      ((pointSeg_isLeast _ _ _).2 ⟨_, rfl, q, hq, rfl⟩)
  · rw [Plane.dist_comm]
    exact ((min_le_left _ _).trans (min_le_right _ _)).trans ((pointSeg_isLeast _ _ _).2 ⟨_, rfl, p, hp, rfl⟩)
  · rw [Plane.dist_comm]
    exact (min_le_right _ _).trans ((pointSeg_isLeast _ _ _).2 ⟨_, rfl, p, hp, rfl⟩)

theorem ends_isLeast (hout : Plane.cross (p2 - p1) (q2 - q1) = 0 ∨
      ∃ w ∉ Plane.square, p1 + w.1 • (p2 - p1) = q1 + w.2 • (q2 - q1)) :
    IsLeast (distances (segment ℝ p1 p2) (segment ℝ q1 q2)) (ends Maths.real p1 p2 q1 q2) := by
  refine ⟨ends_mem, ?_⟩
  rintro d ⟨p, hp, q, hq, rfl⟩
  obtain ⟨p', hp', q', hq', hend, hle⟩ := Plane.exists_end_le hp hq hout
  exact (ends_le hp' hq' hend).trans hle

/-- Where the lines through two segments meet, by Cramer's rule. -/
theorem lines_meet (hdenom : Plane.cross (p2 - p1) (q2 - q1) ≠ 0) :
    p1 + (Plane.cross (q1 - p1) (q2 - q1) / Plane.cross (p2 - p1) (q2 - q1)) • (p2 - p1) =
      q1 + (Plane.cross (q1 - p1) (p2 - p1) / Plane.cross (p2 - p1) (q2 - q1)) • (q2 - q1) := by
  have hcramer := Plane.cross_smul (p2 - p1) (q2 - q1) (q1 - p1)
  refine sub_eq_zero.mp ?_
  rw [add_sub_add_comm, ← neg_sub q1 p1, neg_add_eq_zero]
  rw [div_eq_inv_mul, mul_smul, div_eq_inv_mul, mul_smul, ← smul_sub, ← hcramer, inv_smul_smul₀ hdenom]

theorem segDistance_isLeast (p1 p2 q1 q2 : ℝ × ℝ) :
    IsLeast (distances (segment ℝ p1 p2) (segment ℝ q1 q2)) (segDistance Maths.real p1 p2 q1 q2) := by
  let denom := Plane.cross (p2 - p1) (q2 - q1)
  by_cases hdenom : denom = 0
  · have hends : segDistance Maths.real p1 p2 q1 q2 = ends Maths.real p1 p2 q1 q2 := if_neg (not_not.mpr hdenom)
    rw [hends]
    exact ends_isLeast (.inl hdenom)
  · let s := Plane.cross (q1 - p1) (q2 - q1) / denom
    let t := Plane.cross (q1 - p1) (p2 - p1) / denom
    have hmeet : p1 + s • (p2 - p1) = q1 + t • (q2 - q1) := lines_meet hdenom
    have heq : segDistance Maths.real p1 p2 q1 q2 =
        if 0 ≤ s ∧ s ≤ 1 ∧ 0 ≤ t ∧ t ≤ 1 then 0 else ends Maths.real p1 p2 q1 q2 := if_pos hdenom
    rw [heq]
    split_ifs with hin
    · constructor
      · refine ⟨_, Plane.mem_segment_iff.mpr ⟨s, ⟨hin.1, hin.2.1⟩, rfl⟩, _,
          Plane.mem_segment_iff.mpr ⟨t, hin.2.2, rfl⟩, ?_⟩
        rw [hmeet, Plane.dist_self]
      · rintro d ⟨p, -, q, -, rfl⟩
        exact Plane.dist_nonneg p q
    · refine ends_isLeast (.inr ⟨(s, t), fun hsquare => hin ?_, hmeet⟩)
      exact ⟨hsquare.1.1, hsquare.1.2, hsquare.2⟩

/-! ## Outlines -/

/-- All points of the sides. -/
def outline (poly : Outline ℝ) : Set (ℝ × ℝ) := {p | ∃ e ∈ sides poly, p ∈ segment ℝ e.1 e.2}

/-- The least distance, or `⊤` where there is none. -/
def IsGap (A B : Set (ℝ × ℝ)) (gap : WithTop ℝ) : Prop :=
  (∃ d : ℝ, gap = d ∧ IsLeast (distances A B) d) ∨ gap = ⊤ ∧ distances A B = ∅

theorem segDistance_nonneg (p1 p2 q1 q2 : ℝ × ℝ) : 0 ≤ segDistance Maths.real p1 p2 q1 q2 := by
  obtain ⟨p, -, q, -, h⟩ := (segDistance_isLeast p1 p2 q1 q2).1
  exact h ▸ Plane.dist_nonneg p q

/-- Stopping at nothing is no matter: no distance is less. -/
theorem gapLoop_le {best : WithTop ℝ} (pairs : List (Side ℝ × Side ℝ)) (h : 0 ≤ best) :
    gapLoop Maths.real best pairs ≤ best ∧
    ∀ x ∈ pairs, gapLoop Maths.real best pairs ≤ sideDistance Maths.real x := by
  induction pairs generalizing best with
  | nil => exact ⟨le_refl _, fun x hx => (by cases hx)⟩
  | cons x pairs ih =>
    have hnonneg (x : Side ℝ × Side ℝ) : (0 : WithTop ℝ) ≤ sideDistance Maths.real x :=
      WithTop.coe_nonneg.mpr (segDistance_nonneg _ _ _ _)
    unfold gapLoop
    split_ifs with hzero
    · exact ⟨h, fun y _ => hnonneg y⟩
    · obtain ⟨hbest, hrest⟩ := ih (le_min h (hnonneg x))
      refine ⟨hbest.trans (min_le_left _ _), fun y hy => ?_⟩
      rcases List.mem_cons.mp hy with rfl | hy
      · exact hbest.trans (min_le_right _ _)
      · exact hrest y hy

theorem gapLoop_mem (best : WithTop ℝ) (pairs : List (Side ℝ × Side ℝ)) : gapLoop Maths.real best pairs = best ∨
    ∃ x ∈ pairs, gapLoop Maths.real best pairs = sideDistance Maths.real x := by
  induction pairs generalizing best with
  | nil => exact .inl rfl
  | cons x pairs ih =>
    let d : ℝ := sideDistance Maths.real x
    have hmin : min best (d : WithTop ℝ) = best ∨ min best (d : WithTop ℝ) = d := min_choice _ _
    change (if min best (d : WithTop ℝ) = 0 then 0 else gapLoop Maths.real (min best d) pairs) = best ∨
      ∃ y ∈ x :: pairs, (if min best (d : WithTop ℝ) = 0 then 0 else gapLoop Maths.real (min best d) pairs) =
        sideDistance Maths.real y
    split_ifs with hzero
    · rw [← hzero]
      exact hmin.imp_right fun h => ⟨x, List.mem_cons_self, h⟩
    · rcases ih (min best d) with h | ⟨y, hy, h⟩
      · rw [h]
        exact hmin.imp_right fun h => ⟨x, List.mem_cons_self, h⟩
      · exact .inr ⟨y, List.mem_cons_of_mem _ hy, h⟩

theorem polygonGap_isGap (a b : Outline ℝ) : IsGap (outline a) (outline b) (polygonGap Maths.real a b) := by
  have hle := (gapLoop_le (sides a ×ˢ sides b) (le_top : (0 : WithTop ℝ) ≤ ⊤)).2
  rcases gapLoop_mem ⊤ (sides a ×ˢ sides b) with htop | ⟨⟨e, f⟩, hef, heq⟩
  · refine .inr ⟨htop, Set.eq_empty_of_forall_notMem ?_⟩
    rintro d ⟨p, ⟨e, he, -⟩, q, ⟨f, hf, -⟩, -⟩
    have hbelow := hle (e, f) (List.mem_product.mpr ⟨he, hf⟩)
    rw [htop] at hbelow
    exact WithTop.coe_ne_top (top_le_iff.mp hbelow)
  · obtain ⟨he, hf⟩ := List.mem_product.mp hef
    have hsub : segment ℝ e.1 e.2 ⊆ outline a := fun p hp => ⟨e, he, hp⟩
    have hsub' : segment ℝ f.1 f.2 ⊆ outline b := fun q hq => ⟨f, hf, hq⟩
    refine .inl ⟨_, heq, distances_mono hsub hsub' (segDistance_isLeast e.1 e.2 f.1 f.2).1, ?_⟩
    rintro d ⟨p, ⟨e', he', hp⟩, q, ⟨f', hf', hq⟩, rfl⟩
    have hbelow := hle (e', f') (List.mem_product.mpr ⟨he', hf'⟩)
    rw [heq, WithTop.coe_le_coe] at hbelow
    exact hbelow.trans ((segDistance_isLeast e'.1 e'.2 f'.1 f'.2).2 ⟨p, hp, q, hq, rfl⟩)

theorem touchesWithin_iff {touchM : ℝ} {a b : Outline ℝ} : touchesWithin Maths.real touchM a b = true ↔
    ∃ p ∈ outline a, ∃ q ∈ outline b, Plane.dist p q ≤ touchM := by
  unfold touchesWithin
  rw [decide_eq_true_iff]
  rcases polygonGap_isGap a b with ⟨d, hgap, ⟨p, hp, q, hq, rfl⟩, hleast⟩ | ⟨hgap, hempty⟩
  · rw [hgap, WithTop.coe_le_coe]
    constructor
    · exact fun h => ⟨p, hp, q, hq, h⟩
    · rintro ⟨p', hp', q', hq', h⟩
      exact (hleast ⟨p', hp', q', hq', rfl⟩).trans h
  · rw [hgap]
    constructor
    · exact fun h => absurd (top_le_iff.mp h) WithTop.coe_ne_top
    · rintro ⟨p, hp, q, hq, -⟩
      exact absurd (hempty ▸ ⟨p, hp, q, hq, rfl⟩ : Plane.dist p q ∈ (∅ : Set ℝ)) (Set.notMem_empty _)

/-- Both are least distances, and outlines touch where they come within the bound. -/
theorem gaps_least :
    (∀ p1 p2 q1 q2 : ℝ × ℝ,
      IsLeast (distances (segment ℝ p1 p2) (segment ℝ q1 q2)) (segDistance Maths.real p1 p2 q1 q2)) ∧
    (∀ a b : Outline ℝ, IsGap (outline a) (outline b) (polygonGap Maths.real a b)) ∧
    ∀ (touchM : ℝ) (a b : Outline ℝ), touchesWithin Maths.real touchM a b = true ↔
      ∃ p ∈ outline a, ∃ q ∈ outline b, Plane.dist p q ≤ touchM :=
  ⟨segDistance_isLeast, polygonGap_isGap, fun _ _ _ => touchesWithin_iff⟩

end Wavr.Topology
