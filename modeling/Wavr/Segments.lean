import Mathlib.Analysis.Convex.Segment
import Mathlib.Analysis.Convex.Basic
import Mathlib.Tactic.FieldSimp
import Mathlib.Tactic.Linarith
import Wavr.Plane

/-!
# How near two segments come

The point of a segment nearest to a point, and that of two segments that do not cross an end is
among the nearest points.
-/

namespace Wavr.Plane

/-! ## Squares of lengths -/

theorem normSq_nonneg (a : ℝ × ℝ) : 0 ≤ normSq a := add_nonneg (mul_self_nonneg _) (mul_self_nonneg _)

theorem normSq_eq_zero {a : ℝ × ℝ} : normSq a = 0 ↔ a = 0 := by
  constructor
  · intro h
    have hsum := (add_eq_zero_iff_of_nonneg (mul_self_nonneg a.1) (mul_self_nonneg a.2)).mp h
    exact Prod.ext (mul_self_eq_zero.mp hsum.1) (mul_self_eq_zero.mp hsum.2)
  · rintro rfl
    exact (congrArg₂ (· + ·) (mul_zero _) (mul_zero _)).trans (add_zero 0)

theorem normSq_combine_le {a b : ℝ × ℝ} {r s t : ℝ} (ha : normSq a ≤ r) (hb : normSq b ≤ r) (hs : 0 ≤ s)
    (ht : 0 ≤ t)
    (hst : s + t = 1) : normSq (s • a + t • b) ≤ r := by
  have hexpand : normSq (s • a + t • b) = s * normSq a + t * normSq b - s * t * normSq (a - b) := by
    obtain rfl : s = 1 - t := eq_sub_of_add_eq hst
    change ((1 - t) * a.1 + t * b.1) * ((1 - t) * a.1 + t * b.1)
        + ((1 - t) * a.2 + t * b.2) * ((1 - t) * a.2 + t * b.2)
      = (1 - t) * (a.1 * a.1 + a.2 * a.2) + t * (b.1 * b.1 + b.2 * b.2)
        - (1 - t) * t * ((a.1 - b.1) * (a.1 - b.1) + (a.2 - b.2) * (a.2 - b.2))
    ring
  have hcross : 0 ≤ s * t * normSq (a - b) := mul_nonneg (mul_nonneg hs ht) (normSq_nonneg _)
  have hleft : s * normSq a ≤ s * r := mul_le_mul_of_nonneg_left ha hs
  have hright : t * normSq b ≤ t * r := mul_le_mul_of_nonneg_left hb ht
  have hsum : s * r + t * r = r := by rw [← add_mul, hst, one_mul]
  linarith

theorem dist_le_dist {a b c d : ℝ × ℝ} (h : normSq (a - b) ≤ normSq (c - d)) : dist a b ≤ dist c d :=
  Real.sqrt_le_sqrt h

theorem dist_nonneg (a b : ℝ × ℝ) : 0 ≤ dist a b := Real.sqrt_nonneg _

theorem dist_self (a : ℝ × ℝ) : dist a a = 0 := by
  rw [dist, sub_self, normSq_eq_zero.mpr rfl, Real.sqrt_zero]

theorem dist_comm (a b : ℝ × ℝ) : dist a b = dist b a := by
  have h : normSq (a - b) = normSq (b - a) := by
    change (a.1 - b.1) * (a.1 - b.1) + (a.2 - b.2) * (a.2 - b.2)
      = (b.1 - a.1) * (b.1 - a.1) + (b.2 - a.2) * (b.2 - a.2)
    ring
  rw [dist, dist, h]

/-! ## The nearest point of a segment -/

/-- How far along the segment from `a` to `b` the point nearest to `p` is. -/
noncomputable def foot (p a b : ℝ × ℝ) : ℝ := max 0 (min 1 (dot (p - a) (b - a) / dot (b - a) (b - a)))

theorem mem_segment_iff {a b x : ℝ × ℝ} : x ∈ segment ℝ a b ↔ ∃ t ∈ Set.Icc (0 : ℝ) 1, a + t • (b - a) = x := by
  rw [segment_eq_image']
  rfl

theorem foot_mem (p a b : ℝ × ℝ) : foot p a b ∈ Set.Icc (0 : ℝ) 1 :=
  ⟨le_max_left _ _, max_le zero_le_one (min_le_left _ _)⟩

/-- What the foot leaves over points to the end that it stands at. -/
theorem foot_mul_nonneg (p a b : ℝ × ℝ) {t : ℝ} (ht : t ∈ Set.Icc (0 : ℝ) 1) :
    0 ≤ (t - foot p a b) * (foot p a b * dot (b - a) (b - a) - dot (p - a) (b - a)) := by
  let n := dot (p - a) (b - a)
  let d := dot (b - a) (b - a)
  change 0 ≤ (t - max 0 (min 1 (n / d))) * (max 0 (min 1 (n / d)) * d - n)
  rcases (normSq_nonneg (b - a)).eq_or_lt with hzero | hpos
  · have hba : b - a = 0 := normSq_eq_zero.mp hzero.symm
    have hn : n = 0 := by
      change dot (p - a) (b - a) = 0
      rw [hba]
      exact (congrArg₂ (· + ·) (mul_zero _) (mul_zero _)).trans (add_zero 0)
    have hd : d = 0 := hzero.symm
    rw [hn, hd, mul_zero, sub_zero, mul_zero]
  · have hd : 0 < d := hpos
    have hquotient : n / d * d = n := div_mul_cancel₀ _ hd.ne'
    rcases le_total (n / d) 0 with hlow | hlow
    · have hn : n ≤ 0 := by
        rw [← hquotient]
        exact mul_nonpos_of_nonpos_of_nonneg hlow hd.le
      rw [max_eq_left ((min_le_right _ _).trans hlow), zero_mul, zero_sub, sub_zero]
      exact mul_nonneg ht.1 (neg_nonneg.mpr hn)
    · rcases le_total 1 (n / d) with hhigh | hhigh
      · have hn : d ≤ n := by
          rw [← hquotient]
          exact le_mul_of_one_le_left hd.le hhigh
        rw [min_eq_left hhigh, max_eq_right zero_le_one, one_mul]
        exact mul_nonneg_of_nonpos_of_nonpos (sub_nonpos.mpr ht.2) (sub_nonpos.mpr hn)
      · rw [min_eq_right hhigh, max_eq_right hlow, hquotient, sub_self, mul_zero]

/-- No point of the segment is nearer than the foot. -/
theorem dist_foot_le (p : ℝ × ℝ) {a b x : ℝ × ℝ} (hx : x ∈ segment ℝ a b) :
    dist p (a + foot p a b • (b - a)) ≤ dist p x := by
  obtain ⟨t, ht, rfl⟩ := mem_segment_iff.mp hx
  have hfoot := foot_mul_nonneg p a b ht
  have hsquare : 0 ≤ (t - foot p a b) ^ 2 * dot (b - a) (b - a) := mul_nonneg (sq_nonneg _) (normSq_nonneg _)
  refine dist_le_dist ?_
  let u := foot p a b
  have hexpand (r : ℝ) : normSq (p - (a + r • (b - a))) =
      normSq (p - a) - 2 * r * dot (p - a) (b - a) + r ^ 2 * dot (b - a) (b - a) := by
    change (p.1 - (a.1 + r * (b.1 - a.1))) * (p.1 - (a.1 + r * (b.1 - a.1)))
        + (p.2 - (a.2 + r * (b.2 - a.2))) * (p.2 - (a.2 + r * (b.2 - a.2)))
      = ((p.1 - a.1) * (p.1 - a.1) + (p.2 - a.2) * (p.2 - a.2))
        - 2 * r * ((p.1 - a.1) * (b.1 - a.1) + (p.2 - a.2) * (b.2 - a.2))
        + r ^ 2 * ((b.1 - a.1) * (b.1 - a.1) + (b.2 - a.2) * (b.2 - a.2))
    ring
  rw [hexpand, hexpand]
  linarith

/-! ## Two segments -/

/-- The parameters of the points of two segments. -/
def square : Set (ℝ × ℝ) := Set.Icc 0 1 ×ˢ Set.Icc 0 1

theorem exists_hit {x y : ℝ} (hx : x ∈ Set.Icc (0 : ℝ) 1) (hy : y ∉ Set.Icc (0 : ℝ) 1) :
    ∃ t ∈ Set.Icc (0 : ℝ) 1, (1 - t) * x + t * y = 0 ∨ (1 - t) * x + t * y = 1 := by
  by_cases hlow : y < 0
  · have hpos : 0 < x - y := by linarith [hx.1]
    refine ⟨x / (x - y), ⟨div_nonneg hx.1 hpos.le, (div_le_one hpos).mpr (by linarith)⟩, .inl ?_⟩
    field_simp
    ring
  · have hhigh : 1 < y := by
      by_contra hle
      exact hy ⟨not_lt.mp hlow, not_lt.mp hle⟩
    have hpos : 0 < y - x := by linarith [hx.2]
    refine ⟨(1 - x) / (y - x), ⟨div_nonneg (by linarith [hx.2]) hpos.le, (div_le_one hpos).mpr (by linarith)⟩,
      .inr ?_⟩
    field_simp
    ring

/-- A convex set that reaches out of the square meets its border. -/
theorem exists_border {S : Set (ℝ × ℝ)} (hS : Convex ℝ S) {z w : ℝ × ℝ} (hz : z ∈ S) (hw : w ∈ S)
    (hin : z ∈ square)
    (hout : w ∉ square) : ∃ v ∈ S, v ∈ square ∧ (v.1 = 0 ∨ v.1 = 1 ∨ v.2 = 0 ∨ v.2 = 1) := by
  have hmix {x y : ℝ × ℝ} (hx : x ∈ S) (hy : y ∈ S) {t : ℝ} (ht : t ∈ Set.Icc (0 : ℝ) 1) :
      (1 - t) • x + t • y ∈ S := hS hx hy (sub_nonneg.mpr ht.2) ht.1 (sub_add_cancel _ _)
  have hinside {x y t : ℝ} (hx : x ∈ Set.Icc (0 : ℝ) 1) (hy : y ∈ Set.Icc (0 : ℝ) 1) (ht : t ∈ Set.Icc (0 : ℝ) 1) :
      (1 - t) * x + t * y ∈ Set.Icc (0 : ℝ) 1 :=
    convex_Icc (0 : ℝ) 1 hx hy (sub_nonneg.mpr ht.2) ht.1 (sub_add_cancel _ _)
  have hends {x : ℝ} (hx : x = 0 ∨ x = 1) : x ∈ Set.Icc (0 : ℝ) 1 := by
    rcases hx with rfl | rfl
    · exact Set.left_mem_Icc.mpr zero_le_one
    · exact Set.right_mem_Icc.mpr zero_le_one
  -- towards a point level with the square the other coordinate is the one that leaves it
  have hlevel {y : ℝ × ℝ} (hy : y ∈ S) (hy1 : y.1 ∈ Set.Icc (0 : ℝ) 1) (hy2 : y.2 ∉ Set.Icc (0 : ℝ) 1) :
      ∃ v ∈ S, v ∈ square ∧ (v.1 = 0 ∨ v.1 = 1 ∨ v.2 = 0 ∨ v.2 = 1) := by
    obtain ⟨t, ht, hhit⟩ := exists_hit hin.2 hy2
    exact ⟨_, hmix hz hy ht, ⟨hinside hin.1 hy1 ht, hends hhit⟩, .inr (.inr hhit)⟩
  by_cases hw1 : w.1 ∈ Set.Icc (0 : ℝ) 1
  · exact hlevel hw hw1 fun hw2 => hout ⟨hw1, hw2⟩
  · obtain ⟨t, ht, hhit⟩ := exists_hit hin.1 hw1
    by_cases h2 : (1 - t) * z.2 + t * w.2 ∈ Set.Icc (0 : ℝ) 1
    · exact ⟨_, hmix hz hw ht, ⟨hends hhit, h2⟩, hhit.elim .inl fun h => .inr (.inl h)⟩
    · exact hlevel (hmix hz hw ht) (hends hhit) h2

theorem apart_combine (p1 d1 q1 d2 z w : ℝ × ℝ) {s t : ℝ} (hst : s + t = 1) :
    p1 + (s • z + t • w).1 • d1 - (q1 + (s • z + t • w).2 • d2) =
      s • (p1 + z.1 • d1 - (q1 + z.2 • d2)) + t • (p1 + w.1 • d1 - (q1 + w.2 • d2)) := by
  obtain rfl : s = 1 - t := eq_sub_of_add_eq hst
  ext
  · change p1.1 + ((1 - t) * z.1 + t * w.1) * d1.1 - (q1.1 + ((1 - t) * z.2 + t * w.2) * d2.1)
      = (1 - t) * (p1.1 + z.1 * d1.1 - (q1.1 + z.2 * d2.1)) + t * (p1.1 + w.1 * d1.1 - (q1.1 + w.2 * d2.1))
    ring
  · change p1.2 + ((1 - t) * z.1 + t * w.1) * d1.2 - (q1.2 + ((1 - t) * z.2 + t * w.2) * d2.2)
      = (1 - t) * (p1.2 + z.1 * d1.2 - (q1.2 + z.2 * d2.2)) + t * (p1.2 + w.1 * d1.2 - (q1.2 + w.2 * d2.2))
    ring

/-- Along parallel segments there is a way out of the square that changes no distance. -/
theorem exists_parallel {d1 d2 : ℝ × ℝ} (h : cross d1 d2 = 0) {z : ℝ × ℝ} (hz : z ∈ square) :
    ∃ w ∉ square, w.1 • d1 - w.2 • d2 = z.1 • d1 - z.2 • d2 := by
  by_cases hd : d1 = 0
  · refine ⟨(2, z.2), fun hw => absurd hw.1.2 (by norm_num), ?_⟩
    rw [hd, smul_zero, smul_zero]
  · have hne : normSq d1 ≠ 0 := fun hzero => hd (normSq_eq_zero.mp hzero)
    have hscale : 2 / normSq d1 * (d1.1 * d1.1 + d1.2 * d1.2) = 2 := div_mul_cancel₀ 2 hne
    have hcross : d1.1 * d2.2 - d1.2 * d2.1 = 0 := h
    let k := 2 / normSq d1
    refine ⟨(z.1 + k * dot d1 d2, z.2 + 2), fun hw => absurd hw.2.2 (not_le.mpr ?_), ?_⟩
    · change 1 < z.2 + 2
      linarith [hz.2.1]
    · ext
      · change (z.1 + k * (d1.1 * d2.1 + d1.2 * d2.2)) * d1.1 - (z.2 + 2) * d2.1 = z.1 * d1.1 - z.2 * d2.1
        linear_combination k * d1.2 * hcross + d2.1 * hscale
      · change (z.1 + k * (d1.1 * d2.1 + d1.2 * d2.2)) * d1.2 - (z.2 + 2) * d2.2 = z.1 * d1.2 - z.2 * d2.2
        linear_combination -k * d1.1 * hcross + d2.2 * hscale

/-- Unless the lines cross within both segments, an end comes as near as any two points do. -/
theorem exists_end_le {p1 p2 q1 q2 p q : ℝ × ℝ} (hp : p ∈ segment ℝ p1 p2) (hq : q ∈ segment ℝ q1 q2)
    (hout : cross (p2 - p1) (q2 - q1) = 0 ∨ ∃ w ∉ square, p1 + w.1 • (p2 - p1) = q1 + w.2 • (q2 - q1)) :
    ∃ p' ∈ segment ℝ p1 p2, ∃ q' ∈ segment ℝ q1 q2,
      (p' = p1 ∨ p' = p2 ∨ q' = q1 ∨ q' = q2) ∧ dist p' q' ≤ dist p q := by
  obtain ⟨u, hu, rfl⟩ := mem_segment_iff.mp hp
  obtain ⟨v, hv, rfl⟩ := mem_segment_iff.mp hq
  -- the parameters that are as near as `(u, v)` are convex and leave the square, so they meet its border
  let apart (z : ℝ × ℝ) : ℝ × ℝ := p1 + z.1 • (p2 - p1) - (q1 + z.2 • (q2 - q1))
  let near : Set (ℝ × ℝ) := {z | normSq (apart z) ≤ normSq (apart (u, v))}
  have hconvex : Convex ℝ near := by
    intro z hz w hw s t hs ht hst
    change normSq (apart (s • z + t • w)) ≤ normSq (apart (u, v))
    rw [show apart (s • z + t • w) = s • apart z + t • apart w from apart_combine _ _ _ _ _ _ hst]
    exact normSq_combine_le hz hw hs ht hst
  have hreach : ∃ w ∈ near, w ∉ square := by
    rcases hout with hparallel | ⟨w, hw, hmeet⟩
    · obtain ⟨w, hw, hsame⟩ := exists_parallel hparallel (z := (u, v)) ⟨hu, hv⟩
      have happart : apart w = apart (u, v) := by
        change p1 + w.1 • (p2 - p1) - (q1 + w.2 • (q2 - q1)) = p1 + u • (p2 - p1) - (q1 + v • (q2 - q1))
        rw [add_sub_add_comm, hsame, add_sub_add_comm]
      exact ⟨w, (congrArg normSq happart).le, hw⟩
    · have happart : apart w = 0 := sub_eq_zero.mpr hmeet
      refine ⟨w, ?_, hw⟩
      change normSq (apart w) ≤ normSq (apart (u, v))
      rw [happart, normSq_eq_zero.mpr rfl]
      exact normSq_nonneg _
  obtain ⟨w, hw, hout⟩ := hreach
  have hself : (u, v) ∈ near := le_refl (normSq (apart (u, v)))
  obtain ⟨z, hz, hsquare, hborder⟩ := exists_border hconvex hself hw ⟨hu, hv⟩ hout
  refine ⟨_, mem_segment_iff.mpr ⟨z.1, hsquare.1, rfl⟩, _, mem_segment_iff.mpr ⟨z.2, hsquare.2, rfl⟩, ?_,
    dist_le_dist hz⟩
  rcases hborder with h | h | h | h
  · refine .inl ?_
    rw [h, zero_smul, add_zero]
  · refine .inr (.inl ?_)
    rw [h, one_smul, add_sub_cancel]
  · refine .inr (.inr (.inl ?_))
    rw [h, zero_smul, add_zero]
  · refine .inr (.inr (.inr ?_))
    rw [h, one_smul, add_sub_cancel]

end Wavr.Plane
