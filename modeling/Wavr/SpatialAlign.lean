import Wavr.Maths
import Wavr.RigidFit

/-!
# Fitting a frame onto a room

`solve` and `apply`, and that the fit is the best turn and shift.
-/

namespace Wavr.SpatialAlign

section
variable {K : Type} [Field K] [LinearOrder K] (math : Maths K)

def MAX_RESIDUAL_M : K := 1

def MIN_CORRESPONDENCES : ℕ := 2

structure Alignment (K : Type) where
  room : String
  frame : String
  yawDeg : K
  dx : K
  dy : K
  residualM : K
  samples : ℕ

def Alignment.trustworthy (a : Alignment K) : Bool :=
  decide (MIN_CORRESPONDENCES ≤ a.samples) && decide (a.residualM ≤ MAX_RESIDUAL_M)

/-- A correspondence as `float` reads it, or anything it cannot read, as `repr` shows it. -/
inductive Item (K : Type) where
  | pair (ext roomPt : K × K)
  | malformed (repr : String)

abbrev Pair (K : Type) := (K × K) × (K × K)

/-- `Except.error` is the AlignmentError. -/
def readPairs : List (Item K) → Except String (List (Pair K))
  | [] => .ok []
  | .malformed repr :: _ => .error ("malformed correspondence: " ++ repr)
  | .pair ext roomPt :: items => do
    let pairs ← readPairs items
    return (ext, roomPt) :: pairs

/-- One turn of the loop over the centered pairs. -/
def accumulate (mx my rx ry : K) (acc : K × K) (p : Pair K) : K × K :=
  let ax := p.1.1 - mx
  let ay := p.1.2 - my
  let bx := p.2.1 - rx
  let bY := p.2.2 - ry
  (acc.1 + (ax * bY - ay * bx), acc.2 + (ax * bx + ay * bY))

/-- One turn of the loop over the errors. -/
def worst (cosT sinT dx dy : K) (residual : K) (p : Pair K) : K :=
  let px := cosT * p.1.1 - sinT * p.1.2 + dx
  let py := sinT * p.1.1 + cosT * p.1.2 + dy
  max residual (math.hypot (px - p.2.1) (py - p.2.2))

def solve (room : String) (correspondences : Option (List (Item K))) (frame : String) :
    Except String (Alignment K) := do
  let pairs ← readPairs (correspondences.getD [])
  if pairs.length < MIN_CORRESPONDENCES then
    throw (s!"need at least {MIN_CORRESPONDENCES} corresponded places to solve " ++
      s!"yaw; got {pairs.length}. With one, the rotation is unknown and the " ++
      "room would be rendered at an arbitrary angle.")
  let n : K := pairs.length
  let mx := (pairs.map fun p => p.1.1).sum / n
  let my := (pairs.map fun p => p.1.2).sum / n
  let rx := (pairs.map fun p => p.2.1).sum / n
  let ry := (pairs.map fun p => p.2.2).sum / n
  let (num, den) := pairs.foldl (accumulate mx my rx ry) (0, 0)
  if |num| < 1e-12 ∧ |den| < 1e-12 then
    throw ("the corresponded places are all in the same spot — they give no " ++
      "baseline, so yaw cannot be solved")
  let theta := math.atan2 num den
  let cosT := math.cos theta
  let sinT := math.sin theta
  let dx := rx - (cosT * mx - sinT * my)
  let dy := ry - (sinT * mx + cosT * my)
  let residual := pairs.foldl (worst math cosT sinT dx dy) 0
  return { room, frame, yawDeg := math.degrees theta, dx, dy, residualM := residual, samples := pairs.length }

def apply (alignment : Alignment K) (x y : K) : Option (K × K) :=
  if ¬ alignment.trustworthy then none
  else
    let cosT := math.cos (math.radians alignment.yawDeg)
    let sinT := math.sin (math.radians alignment.yawDeg)
    some (cosT * x - sinT * y + alignment.dx, sinT * x + cosT * y + alignment.dy)

end

/-! ## What is read, and what is fitted -/

def Item.ofPair {K : Type} (p : Pair K) : Item K := .pair p.1 p.2

section
variable {K : Type}

theorem readPairs_ofPair (ps : List (Pair K)) : readPairs (ps.map Item.ofPair) = .ok ps := by
  induction ps with
  | nil => rfl
  | cons p ps ih =>
    change (readPairs (ps.map Item.ofPair) >>= fun pairs => Except.ok (p :: pairs)) = _
    rw [ih]
    rfl

theorem readPairs_ok {items : List (Item K)} {ps : List (Pair K)} (h : readPairs items = .ok ps) :
    items = ps.map Item.ofPair := by
  induction items generalizing ps with
  | nil =>
    cases h
    rfl
  | cons item items ih =>
    cases item with
    | malformed repr => cases h
    | pair ext roomPt =>
      rw [readPairs] at h
      cases hrest : readPairs items with
      | error e =>
        rw [hrest] at h
        cases h
      | ok rest =>
        rw [hrest] at h
        cases h
        rw [ih hrest]
        rfl

variable [Field K]

theorem foldl_accumulate (mx my rx ry : K) (ps : List (Pair K)) (acc : K × K) :
    ps.foldl (accumulate mx my rx ry) acc =
      (acc.1 + (ps.map fun p => Plane.cross (p.1 - (mx, my)) (p.2 - (rx, ry))).sum,
        acc.2 + (ps.map fun p => Plane.dot (p.1 - (mx, my)) (p.2 - (rx, ry))).sum) := by
  induction ps generalizing acc with
  | nil => exact (Prod.ext (add_zero _) (add_zero _)).symm
  | cons p ps ih =>
    rw [List.foldl_cons, ih, List.map_cons, List.sum_cons, List.map_cons, List.sum_cons, ← add_assoc, ← add_assoc]
    rfl

/-- The loop sums the products of the offsets. -/
theorem accumulated (ps : List (Pair K)) :
    ps.foldl (accumulate ((ps.map fun p => p.1.1).sum / ps.length) ((ps.map fun p => p.1.2).sum / ps.length)
      ((ps.map fun p => p.2.1).sum / ps.length) ((ps.map fun p => p.2.2).sum / ps.length)) (0, 0) =
      (RigidFit.across Prod.fst Prod.snd ps, RigidFit.along Prod.fst Prod.snd ps) := by
  rw [foldl_accumulate]
  exact Prod.ext (zero_add _) (zero_add _)

variable [LinearOrder K] {math : Maths K}

/-- The products of the offsets are not both all but nothing. -/
def Baseline (ps : List (Pair K)) : Prop :=
  ¬ (|RigidFit.across Prod.fst Prod.snd ps| < 1e-12 ∧ |RigidFit.along Prod.fst Prod.snd ps| < 1e-12)

def fit (math : Maths K) (room frame : String) (ps : List (Pair K)) : Alignment K :=
  let theta := math.atan2 (RigidFit.across Prod.fst Prod.snd ps) (RigidFit.along Prod.fst Prod.snd ps)
  let shift :=
    RigidFit.center Prod.snd ps - Plane.turn (math.cos theta) (math.sin theta) (RigidFit.center Prod.fst ps)
  { room, frame, yawDeg := math.degrees theta, dx := shift.1, dy := shift.2
    residualM := ps.foldl (worst math (math.cos theta) (math.sin theta) shift.1 shift.2) 0
    samples := ps.length }

theorem solve_pairs {room frame : String} {correspondences : Option (List (Item K))} {ps : List (Pair K)}
    (h : readPairs (correspondences.getD []) = .ok ps) (hlength : MIN_CORRESPONDENCES ≤ ps.length)
    (hbase : Baseline ps) : solve math room correspondences frame = .ok (fit math room frame ps) := by
  unfold solve
  rw [h]
  change (if ps.length < MIN_CORRESPONDENCES then _ else _) = _
  rw [if_neg hlength.not_gt, accumulated]
  exact if_neg hbase

theorem solve_ok {room frame : String} {correspondences : Option (List (Item K))} {a : Alignment K}
    (h : solve math room correspondences frame = .ok a) : ∃ ps, correspondences.getD [] = ps.map Item.ofPair ∧
      MIN_CORRESPONDENCES ≤ ps.length ∧ Baseline ps ∧ a = fit math room frame ps := by
  cases hread : readPairs (correspondences.getD []) with
  | error e =>
    unfold solve at h
    rw [hread] at h
    cases h
  | ok ps =>
    have hlength : MIN_CORRESPONDENCES ≤ ps.length := by
      by_contra hshort
      unfold solve at h
      rw [hread] at h
      change (if ps.length < MIN_CORRESPONDENCES then _ else _) = _ at h
      rw [if_pos (not_le.mp hshort)] at h
      cases h
    have hbase : Baseline ps := by
      by_contra hspot
      unfold solve at h
      rw [hread] at h
      change (if ps.length < MIN_CORRESPONDENCES then _ else _) = _ at h
      rw [if_neg hlength.not_gt, accumulated] at h
      have hthrow := if_pos (not_not.mp hspot) |>.symm.trans h
      cases hthrow
    exact ⟨ps, readPairs_ok hread, hlength, hbase, Except.ok.inj (h.symm.trans (solve_pairs hread hlength hbase))⟩

end

/-! ## Over the reals -/

/-- The point moved by a turn and a shift. -/
noncomputable def move (angle : ℝ) (shift p : ℝ × ℝ) : ℝ × ℝ :=
  Plane.turn (Real.cos angle) (Real.sin angle) p + shift

noncomputable def Alignment.angle (a : Alignment ℝ) : ℝ := Maths.real.radians a.yawDeg

/-- The sum of the squared errors of a motion. -/
noncomputable def motionError (angle : ℝ) (shift : ℝ × ℝ) (ps : List (Pair ℝ)) : ℝ :=
  (ps.map fun p => Plane.dist (move angle shift p.1) p.2 ^ 2).sum

variable (room frame : String) {ps : List (Pair ℝ)} {angle : ℝ} {shift : ℝ × ℝ}

theorem motionError_eq : motionError angle shift ps =
    RigidFit.squaredError (Real.cos angle) (Real.sin angle) shift Prod.fst Prod.snd ps := by
  refine congrArg List.sum (List.map_congr_left fun p _ => ?_)
  exact Real.sq_sqrt (add_nonneg (mul_self_nonneg _) (mul_self_nonneg _))

theorem fit_angle : (fit Maths.real room frame ps).angle =
    Maths.real.atan2 (RigidFit.across Prod.fst Prod.snd ps) (RigidFit.along Prod.fst Prod.snd ps) :=
  Maths.radians_degrees _

theorem Baseline.ne_zero (h : Baseline ps) :
    RigidFit.along Prod.fst Prod.snd ps ≠ 0 ∨ RigidFit.across Prod.fst Prod.snd ps ≠ 0 := by
  by_contra! hzero
  refine h ?_
  rw [hzero.1, hzero.2, abs_zero]
  norm_num

theorem ne_nil_of_length (h : MIN_CORRESPONDENCES ≤ ps.length) : ps ≠ [] :=
  List.length_pos_iff.mp (lt_of_lt_of_le (by decide) h)

/-- The center goes to the center. -/
theorem fit_center : move (fit Maths.real room frame ps).angle
      ((fit Maths.real room frame ps).dx, (fit Maths.real room frame ps).dy) (RigidFit.center Prod.fst ps) =
    RigidFit.center Prod.snd ps := by
  rw [fit_angle]
  exact add_sub_cancel _ _

/-- The fit errs least of all motions. -/
theorem fit_best (hlength : MIN_CORRESPONDENCES ≤ ps.length) (hbase : Baseline ps) (angle : ℝ) (shift : ℝ × ℝ) :
    motionError (fit Maths.real room frame ps).angle
      ((fit Maths.real room frame ps).dx, (fit Maths.real room frame ps).dy) ps ≤ motionError angle shift ps := by
  let along := RigidFit.along Prod.fst Prod.snd ps
  let across := RigidFit.across Prod.fst Prod.snd ps
  have hpos : 0 < along ^ 2 + across ^ 2 := by
    rcases hbase.ne_zero with h | h
    · exact add_pos_of_pos_of_nonneg (sq_pos_of_ne_zero h) (sq_nonneg _)
    · exact add_pos_of_nonneg_of_pos (sq_nonneg _) (sq_pos_of_ne_zero h)
  have hroot : √(along ^ 2 + across ^ 2) ≠ 0 := (Real.sqrt_pos.mpr hpos).ne'
  have hcos : Real.cos (fit Maths.real room frame ps).angle = along / √(along ^ 2 + across ^ 2) := by
    rw [fit_angle]
    exact Maths.cos_atan2 hbase.ne_zero
  have hsin : Real.sin (fit Maths.real room frame ps).angle = across / √(along ^ 2 + across ^ 2) := by
    rw [fit_angle]
    exact Maths.sin_atan2 _ _
  rw [motionError_eq, motionError_eq]
  refine RigidFit.squaredError_le (ne_nil_of_length hlength) (Real.cos_sq_add_sin_sq _)
    (Real.sqrt_nonneg (along ^ 2 + across ^ 2)) ?_ ?_ (fit_center room frame) (Real.cos_sq_add_sin_sq _) shift
  · rw [hcos]
    exact (mul_div_cancel₀ _ hroot).symm
  · rw [hsin]
    exact (mul_div_cancel₀ _ hroot).symm

/-! ## An exact image -/

/-- Points that spread, and their images, leave a baseline. -/
theorem baseline_of_moved (hps : ps ≠ []) (hspread : 1e-11 ≤ RigidFit.spread Prod.fst ps)
    (hmoved : ∀ p ∈ ps, p.2 = move angle shift p.1) : Baseline ps := by
  rintro ⟨hacross, halong⟩
  rw [RigidFit.across_moved hps hmoved, abs_lt] at hacross
  rw [RigidFit.along_moved hps hmoved, abs_lt] at halong
  let spread := RigidFit.spread Prod.fst ps
  have hpos : 0 < spread := lt_of_lt_of_le (by norm_num) hspread
  have hsin : (Real.sin angle * spread) ^ 2 ≤ 1e-12 ^ 2 := sq_le_sq' hacross.1.le hacross.2.le
  have hcos : (Real.cos angle * spread) ^ 2 ≤ 1e-12 ^ 2 := sq_le_sq' halong.1.le halong.2.le
  have hsum : (Real.cos angle * spread) ^ 2 + (Real.sin angle * spread) ^ 2 = spread ^ 2 := by
    linear_combination spread ^ 2 * Real.cos_sq_add_sin_sq angle
  have hsquare : 1e-11 ^ 2 ≤ spread ^ 2 := pow_le_pow_left₀ (by norm_num) hspread 2
  norm_num at hsin hcos hsquare
  linarith

theorem fit_cos_sin (hps : ps ≠ []) (hspread : 1e-11 ≤ RigidFit.spread Prod.fst ps)
    (hmoved : ∀ p ∈ ps, p.2 = move angle shift p.1) :
    Real.cos (fit Maths.real room frame ps).angle = Real.cos angle ∧
      Real.sin (fit Maths.real room frame ps).angle = Real.sin angle := by
  let spread := RigidFit.spread Prod.fst ps
  have hpos : 0 < spread := lt_of_lt_of_le (by norm_num) hspread
  have hroot : √((Real.cos angle * spread) ^ 2 + (Real.sin angle * spread) ^ 2) = spread := by
    rw [show (Real.cos angle * spread) ^ 2 + (Real.sin angle * spread) ^ 2 = spread ^ 2 by
      linear_combination spread ^ 2 * Real.cos_sq_add_sin_sq angle]
    exact Real.sqrt_sq hpos.le
  have halong := RigidFit.along_moved hps hmoved
  have hacross := RigidFit.across_moved hps hmoved
  have hne := (baseline_of_moved hps hspread hmoved).ne_zero
  rw [halong, hacross] at hne
  rw [fit_angle, halong, hacross]
  constructor
  · refine (Maths.cos_atan2 hne).trans ?_
    rw [hroot]
    exact mul_div_cancel_right₀ _ hpos.ne'
  · refine (Maths.sin_atan2 _ _).trans ?_
    rw [hroot]
    exact mul_div_cancel_right₀ _ hpos.ne'

theorem foldl_worst {cosT sinT dx dy : ℝ} (h : ∀ p ∈ ps, p.2 = Plane.turn cosT sinT p.1 + (dx, dy)) :
    ps.foldl (worst Maths.real cosT sinT dx dy) 0 = 0 := by
  induction ps with
  | nil => rfl
  | cons p ps ih =>
    have hzero : worst Maths.real cosT sinT dx dy 0 p = 0 := by
      unfold worst
      rw [h p List.mem_cons_self]
      change max 0 √((cosT * p.1.1 - sinT * p.1.2 + dx - (cosT * p.1.1 - sinT * p.1.2 + dx)) ^ 2
        + (sinT * p.1.1 + cosT * p.1.2 + dy - (sinT * p.1.1 + cosT * p.1.2 + dy)) ^ 2) = 0
      rw [sub_self, sub_self]
      norm_num
    rw [List.foldl_cons, hzero]
    exact ih fun p' hp' => h p' (List.mem_cons_of_mem _ hp')

/-- What the fit of an exact image is: the motion itself, without a residual. -/
structure Recovered (a : Alignment ℝ) (angle : ℝ) (shift : ℝ × ℝ) : Prop where
  cos : Real.cos a.angle = Real.cos angle
  sin : Real.sin a.angle = Real.sin angle
  offset : (a.dx, a.dy) = shift
  residual : a.residualM = 0
  applied : ∀ x y, apply Maths.real a x y = some (move angle shift (x, y))

theorem fit_recovered (hlength : MIN_CORRESPONDENCES ≤ ps.length)
    (hspread : 1e-11 ≤ RigidFit.spread Prod.fst ps) (hmoved : ∀ p ∈ ps, p.2 = move angle shift p.1) :
    Recovered (fit Maths.real room frame ps) angle shift := by
  have hps := ne_nil_of_length hlength
  obtain ⟨hcos, hsin⟩ := fit_cos_sin room frame hps hspread hmoved
  have hoffset : ((fit Maths.real room frame ps).dx, (fit Maths.real room frame ps).dy) = shift := by
    have hcenter : move _ _ (RigidFit.center Prod.fst ps) = RigidFit.center Prod.snd ps := fit_center room frame
    rw [RigidFit.center_moved hps hmoved, move, hcos, hsin] at hcenter
    exact add_left_cancel hcenter
  have hresidual : (fit Maths.real room frame ps).residualM = 0 := by
    refine foldl_worst fun p hp => (hmoved p hp).trans ?_
    change _ = Plane.turn (Maths.real.cos _) (Maths.real.sin _) p.1
      + ((fit Maths.real room frame ps).dx, (fit Maths.real room frame ps).dy)
    rw [← fit_angle room frame, hoffset, move]
    exact congrArg₂ (Plane.turn · · p.1 + shift) hcos.symm hsin.symm
  refine ⟨hcos, hsin, hoffset, hresidual, fun x y => ?_⟩
  have htrust : (fit Maths.real room frame ps).trustworthy = true := by
    unfold Alignment.trustworthy
    rw [hresidual, Bool.and_eq_true]
    exact ⟨decide_eq_true hlength, decide_eq_true zero_le_one⟩
  unfold apply
  rw [if_neg (not_not.mpr htrust)]
  refine congrArg some ?_
  rw [← hoffset, move, ← hcos, ← hsin]
  rfl

/-- An exact image gives the motion back, and any other fit errs least of all motions. -/
theorem solve_best_fit (room frame : String) :
    (∀ (ps : List (Pair ℝ)) (angle : ℝ) (shift : ℝ × ℝ), 2 ≤ ps.length → 1e-11 ≤ RigidFit.spread Prod.fst ps →
      (∀ p ∈ ps, p.2 = move angle shift p.1) →
      ∃ a, solve Maths.real room (some (ps.map Item.ofPair)) frame = .ok a ∧ Recovered a angle shift) ∧
    ∀ (correspondences : Option (List (Item ℝ))) (a : Alignment ℝ),
      solve Maths.real room correspondences frame = .ok a →
      ∃ ps, correspondences.getD [] = ps.map Item.ofPair ∧
        ∀ angle shift, motionError a.angle (a.dx, a.dy) ps ≤ motionError angle shift ps := by
  constructor
  · intro ps angle shift hlength hspread hmoved
    have hbase := baseline_of_moved (ne_nil_of_length hlength) hspread hmoved
    exact ⟨_, solve_pairs (readPairs_ofPair ps) hlength hbase, fit_recovered room frame hlength hspread hmoved⟩
  · intro correspondences a h
    obtain ⟨ps, hps, hlength, hbase, rfl⟩ := solve_ok h
    exact ⟨ps, hps, fit_best room frame hlength hbase⟩

/-- Two places of a room that is turned by a quarter and shifted. -/
def quarterTurn : List (Pair ℝ) := [((0, 0), (1, 0)), ((1, 0), (1, 1))]

theorem quarterTurn_recovered : ∃ a, solve Maths.real "hall" (some (quarterTurn.map Item.ofPair)) "arkit" = .ok a ∧
    Recovered a (Real.pi / 2) (1, 0) := by
  refine (solve_best_fit "hall" "arkit").1 quarterTurn (Real.pi / 2) (1, 0) (le_refl 2) ?_ ?_
  · norm_num [RigidFit.spread, RigidFit.offset, RigidFit.center, quarterTurn, Plane.normSq, Plane.dot]
  · intro p hp
    rw [move, Real.cos_pi_div_two, Real.sin_pi_div_two]
    rcases List.mem_pair.mp hp with rfl | rfl
    · norm_num [Plane.turn]
    · norm_num [Plane.turn]

end Wavr.SpatialAlign
