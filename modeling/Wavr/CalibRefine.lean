import Wavr.CalibStore
import Wavr.Run

/-!
# Progressive calibration

`solve_progressive` merges the stored correspondences of a camera with those of a new walk,
solves for the homography of the union and writes the homography and the points, one after the
other.
-/

namespace Wavr.CalibRefine
open CalibStore Run

variable {F α β : Type} (nm : Numerics F)

def DEDUP_EPS_M : ℚ := 5 / 100

/-- One new floor point against the existing ones: `float()` is only reached where an existing
point is not replaced yet. -/
def replaceNear (n : Json F × Json F) : List (F × F) → List Bool → Except Raised (List Bool)
  | e :: es, r :: rs => do
    let hit ← if r then .ok true
      else do
        let (x, y) ← floats nm n.1 n.2
        .ok (nm.ar.le (nm.hypot (nm.ar.sub x e.1) (nm.ar.sub y e.2)) (nm.ar.lit DEDUP_EPS_M))
    return hit :: (← replaceNear n es rs)
  | _, _ => .ok []

def markReplaced (existing : List (F × F)) (newFloor : List (Json F)) : Except Raised (List Bool) :=
  newFloor.foldlM (fun replaced p => do replaceNear nm (← unpack p) existing replaced)
    (existing.map fun _ => false)

/-- What is not replaced. -/
def kept (ps : List α) (replaced : List Bool) : List α :=
  ((ps.zip replaced).filter fun p => ! p.2).map Prod.fst

/-- The newest of a list that is too long. -/
def newest (maxPoints : ℕ) (l : List α) (length : ℕ) : List α := l.drop (length - maxPoints)

/-- The image points are carried along and never looked at. -/
def mergePoints (existing : Option (List α × List (F × F))) (existingSize : Option (ℤ × ℤ))
    (newImage : List α) (newFloor : List (Json F)) (newSize : ℤ × ℤ) : Except Raised (List α × List (Json F)) :=
  match existing, existingSize with
  | some (image, floor), some size =>
    if size.1 ≠ newSize.1 ∨ size.2 ≠ newSize.2 then .ok (newImage, newFloor)
    else do
      let replaced ← markReplaced nm floor newFloor
      let outImage := kept image replaced ++ newImage
      let outFloor := (kept floor replaced).map pairJson ++ newFloor
      .ok (newest MAX_POINTS outImage outImage.length, newest MAX_POINTS outFloor outImage.length)
  | _, _ => .ok (newImage, newFloor)

structure Walk (F : Type) where
  imagePts : List (Json F)
  floorPts : List (Json F)
  imgW : ℤ
  imgH : ℤ

def Walk.size (w : Walk F) : ℤ × ℤ := (w.imgW, w.imgH)

/-- The stored correspondences, as `get` hands them out. -/
def existingPoints (row : Option (Row F)) : Option (List (Json F) × List (F × F)) :=
  (row.bind Row.points).map fun p => (p.imagePts.map pairJson, p.floorPts)

/-- The union that goes to the solver. -/
def union (row : Option (Row F)) (w : Walk F) : Except Raised (List (Json F) × List (Json F)) :=
  mergePoints nm (existingPoints row) (row.bind Row.size) w.imagePts w.floorPts w.size

structure Solution (F : Type) where
  homography : List F
  quality : F
  residualM : Option F
  imagePts : List (Json F)
  floorPts : List (Json F)

/-- Everything in front of the first write. -/
def solve (row : Option (Row F)) (w : Walk F) : Except Error (Solution F) := do
  let (imagePts, floorPts) ← passing (union nm row w)
  let h ← homographyFromPoints nm imagePts floorPts
  let pairs ← passing ((imagePts.zip floorPts).mapM (correspondence nm))
  let residualM ← passing (homographyReprojectionError nm h pairs)
  .ok ⟨h, homographyQuality nm residualM, residualM, imagePts, floorPts⟩

structure Result (F : Type) where
  homography : List F
  quality : F
  residualM : Option F
  nPoints : ℕ
  nNew : ℕ

/-- The first of the two writes. -/
def writeHomography (s : Solution F) (w : Walk F) (row : Option (Row F)) : Except Error (Row F) :=
  setHomography nm (.arr (s.homography.map .float)) w.imgW w.imgH (some (.float s.quality)) row

def solveProgressive (w : Walk F) (row : Option (Row F)) : Except Error (Result F) × Option (Row F) :=
  match solve nm row w with
  | .error e => (.error e, row)
  | .ok s =>
    match writeHomography nm s w row with
    | .error e => (.error e, row)
    | .ok row =>
      match setPoints nm s.imagePts s.floorPts w.imgW w.imgH (some row) with
      | .error e => (.error e, some row)
      | .ok row => (.ok ⟨s.homography, s.quality, s.residualM, s.imagePts.length, w.imagePts.length⟩, some row)

/-! ## One solve -/

/-- A solve raises and leaves the row as it was, or returns and leaves the homography and the
points of one union in it. -/
def Atomic (w : Walk F) (row : Option (Row F)) : Prop :=
  match solveProgressive nm w row with
  | (.error _, row') => row' = row
  | (.ok _, row') => ∃ s r points, solve nm row w = .ok s ∧ row' = some r ∧
      r.homography = some s.homography ∧ r.quality = some s.quality ∧ r.size = some w.size ∧
      r.points = some points ∧ s.imagePts.mapM (indexed nm) = .ok points.imagePts ∧
      s.floorPts.mapM (indexed nm) = .ok points.floorPts

/-- The row carries this homography already. -/
def AlreadyStored (s : Solution F) (w : Walk F) (row : Option (Row F)) : Prop :=
  ∃ r, row = some r ∧ r.homography = some s.homography ∧ r.size = some w.size ∧ r.quality = some s.quality

section
variable {nm} {w : Walk F} {row : Option (Row F)} {s : Solution F} {r : Row F}

/-- What the first write leaves. -/
theorem writeHomography_ok (h : writeHomography nm s w row = .ok r) :
    sizeInRange w.imgW w.imgH ∧
      r = { row.getD .empty with
        homography := some s.homography, size := some w.size, quality := some s.quality } := by
  obtain ⟨clean, q, hclean, hsize, hq, hr⟩ := exists_of_setHomography h
  rw [validateHomography_floats hclean, validateQuality_float hq] at hr
  exact ⟨hsize, hr⟩

theorem same_iff_alreadyStored (h : writeHomography nm s w row = .ok r) :
    some r = row ↔ AlreadyStored s w row := by
  obtain ⟨-, rfl⟩ := writeHomography_ok h
  constructor
  · intro hsame
    exact ⟨_, hsame.symm, rfl, rfl, rfl⟩
  · rintro ⟨r, rfl, hh, hs, hq⟩
    cases r
    simp only at hh hs hq
    simp [hh, hs, hq]

theorem solve_ok (h : solve nm row w = .ok s) :
    union nm row w = .ok (s.imagePts, s.floorPts) ∧ s.imagePts.length = s.floorPts.length ∧
      4 ≤ s.imagePts.length ∧ (s.imagePts.all (finitePoint nm) && s.floorPts.all (finitePoint nm)) = true := by
  unfold solve at h
  obtain ⟨⟨imagePts, floorPts⟩, hunion, h⟩ := exists_of_bind_ok h
  obtain ⟨matrix, hmatrix, h⟩ := exists_of_bind_ok h
  obtain ⟨pairs, -, h⟩ := exists_of_bind_ok h
  obtain ⟨residualM, -, h⟩ := exists_of_bind_ok h
  cases h
  refine ⟨?_, homographyFromPoints_ok hmatrix⟩
  cases hu : union nm row w with
  | error e => simp [hu, passing, Except.mapError] at hunion
  | ok out =>
    simp only [hu, passing, Except.mapError, Except.ok.injEq] at hunion
    rw [hunion]

/-- The second write, behind a first one that came through. -/
theorem setPoints_iff_withinLimits (hs : solve nm row w = .ok s) (hr : writeHomography nm s w row = .ok r) :
    (∃ r', setPoints nm s.imagePts s.floorPts w.imgW w.imgH (some r) = .ok r') ↔
      WithinLimits nm s.imagePts s.floorPts := by
  obtain ⟨-, hlen, -, hfinite⟩ := solve_ok hs
  exact setPoints_iff hlen hfinite (writeHomography_ok hr).1

variable (nm) in
/-- Everything that `solve_progressive` can do: it fails in front of its first write, between
the two, or not at all. -/
theorem solveProgressive_cases (w : Walk F) (row : Option (Row F)) :
    ((∃ e, solveProgressive nm w row = (.error e, row)) ∧
      ∀ s r, solve nm row w = .ok s → writeHomography nm s w row ≠ .ok r) ∨
    (∃ e s r, solve nm row w = .ok s ∧ writeHomography nm s w row = .ok r ∧
      ¬ WithinLimits nm s.imagePts s.floorPts ∧ solveProgressive nm w row = (.error e, some r)) ∨
    ∃ out s r points, solve nm row w = .ok s ∧ writeHomography nm s w row = .ok r ∧
      WithinLimits nm s.imagePts s.floorPts ∧ validatePoints nm s.imagePts s.floorPts = .ok points ∧
      solveProgressive nm w row = (.ok out, some { r with points := some points, size := some w.size }) := by
  unfold solveProgressive
  cases hs : solve nm row w with
  | error e => exact .inl ⟨⟨e, rfl⟩, fun s r h => by cases h⟩
  | ok s =>
    cases hr : writeHomography nm s w row with
    | error e =>
      refine .inl ⟨⟨e, by simp [hr]⟩, fun s' r hs' hr' => ?_⟩
      cases hs'
      cases hr.symm.trans hr'
    | ok r =>
      have hiff := setPoints_iff_withinLimits hs hr
      cases hp : setPoints nm s.imagePts s.floorPts w.imgW w.imgH (some r) with
      | error e =>
        refine .inr (.inl ⟨e, s, r, rfl, hr, fun hin => ?_, by simp [hr, hp]⟩)
        obtain ⟨r', hr'⟩ := hiff.mpr hin
        cases hp.symm.trans hr'
      | ok r' =>
        obtain ⟨points, hpoints, -, hr'⟩ := exists_of_setPoints hp
        refine .inr (.inr ⟨⟨s.homography, s.quality, s.residualM, s.imagePts.length, w.imagePts.length⟩,
          s, r, points, rfl, hr, hiff.mp ⟨r', hp⟩, hpoints, ?_⟩)
        simp only [hr, hp, hr']
        rfl

/-- A solve is atomic unless it fails between its two writes: the union passes the solver and the
checks in front of the homography, is over a limit of the points column, and brings a homography
that is not stored yet. -/
theorem atomic_iff (nm : Numerics F) (w : Walk F) (row : Option (Row F)) :
    Atomic nm w row ↔ ∀ s r, solve nm row w = .ok s → writeHomography nm s w row = .ok r →
      WithinLimits nm s.imagePts s.floorPts ∨ AlreadyStored s w row := by
  unfold Atomic
  rcases solveProgressive_cases nm w row with
    ⟨⟨e, hout⟩, hnone⟩ | ⟨e, s, r, hs, hr, hover, hout⟩ | ⟨out, s, r, points, hs, hr, hin, hpoints, hout⟩
  · rw [hout]
    exact iff_of_true rfl fun s r hs hr => absurd hr (hnone s r hs)
  · rw [hout]
    refine (same_iff_alreadyStored hr).trans ⟨fun h s' r' hs' _ => ?_, fun h => ?_⟩
    · cases hs.symm.trans hs'
      exact .inr h
    · rcases h s r hs hr with hin | hsame
      · exact absurd hin hover
      · exact hsame
  · rw [hout]
    have hleft : ∀ s' r', solve nm row w = .ok s' → writeHomography nm s' w row = .ok r' →
        WithinLimits nm s'.imagePts s'.floorPts ∨ AlreadyStored s' w row := by
      intro s' r' hs' _
      cases hs.symm.trans hs'
      exact .inl hin
    refine iff_of_true ?_ hleft
    obtain ⟨himage, hfloor⟩ := validatePoints_ok hpoints
    obtain ⟨-, rfl⟩ := writeHomography_ok hr
    exact ⟨s, _, points, hs, rfl, rfl, rfl, rfl, rfl, himage, hfloor⟩

end

/-! ## The sizes the points were marked at -/

/-- The row of one camera, and the size of the image that each stored image point was marked on.
Nothing in the code sees the marks. -/
structure System (F : Type) where
  row : Option (Row F)
  marks : List (ℤ × ℤ)

/-- The union that goes to the solver, each image point with its mark. -/
def handed (s : System F) (w : Walk F) : Except Raised (List (Json F × (ℤ × ℤ)) × List (Json F)) :=
  mergePoints nm ((existingPoints s.row).map fun p => (p.1.zip s.marks, p.2)) (s.row.bind Row.size)
    (w.imagePts.map fun p => (p, w.size)) w.floorPts w.size

inductive Op (F : Type)
  | homography (h : Json F) (imgW imgH : ℤ) (quality : Option (Json F))
  | mount (mount : MountPose F)
  | walk (w : Walk F)
  | delete

def written (s : System F) (out : Except Error (Row F)) : System F :=
  match out with
  | .error _ => s
  | .ok row => { s with row := some row }

def step (s : System F) : Op F → System F
  | .homography h imgW imgH quality => written s (setHomography nm h imgW imgH quality s.row)
  | .mount mount => written s (setMount nm mount s.row)
  | .walk w =>
    match solveProgressive nm w s.row with
    | (.error _, row) => { s with row := row }
    | (.ok _, row) =>
      match handed nm s w with
      | .error _ => { s with row := row }
      | .ok out => ⟨row, out.1.map Prod.snd⟩
  | .delete => ⟨none, []⟩

def init : System F := ⟨none, []⟩

/-- Whatever walk comes next, every correspondence of its union was marked at its own size. -/
def Unmixed (s : System F) : Prop :=
  ∀ w out, handed nm s w = .ok out → ∀ p ∈ out.1, p.2 = w.size

/-- The solve stops between its two writes. -/
def Splits (w : Walk F) (row : Option (Row F)) : Prop :=
  ∃ s r, solve nm row w = .ok s ∧ writeHomography nm s w row = .ok r ∧ ¬ WithinLimits nm s.imagePts s.floorPts

/-- Nothing but a full set of points changes the size of a row that has points. -/
def Tidy (s : System F) : Op F → Prop
  | .homography h imgW imgH quality => s.marks = [] ∨ s.row.bind Row.size = some (imgW, imgH) ∨
      ∀ r, setHomography nm h imgW imgH quality s.row ≠ .ok r
  | .walk w => s.marks = [] ∨ s.row.bind Row.size = some w.size ∨ ¬ Splits nm w s.row
  | _ => True

/-- A mark for each stored point, and points only under a size. -/
structure Shape (s : System F) : Prop where
  marked : s.marks.length = ((existingPoints s.row).map fun p => p.1.length).getD 0
  sized : (existingPoints s.row).isSome → (s.row.bind Row.size).isSome

/-- All stored points were marked at the stored size. -/
def OneSize (s : System F) : Prop := ∀ m ∈ s.marks, s.row.bind Row.size = some m

section
variable {nm} {s : System F} {w : Walk F}

theorem kept_map {f : α → β} (ps : List α) (replaced : List Bool) :
    kept (ps.map f) replaced = (kept ps replaced).map f := by
  induction ps generalizing replaced with
  | nil => rfl
  | cons p ps ih =>
    cases replaced with
    | nil => rfl
    | cons r rs =>
      have hrest := ih rs
      cases r
      · simpa [kept] using hrest
      · simpa [kept] using hrest

/-- The merge does the same to the image points whatever they are. -/
theorem mergePoints_map (f : α → β) (existing : Option (List α × List (F × F))) (size : Option (ℤ × ℤ))
    (newImage : List α) (newFloor : List (Json F)) (newSize : ℤ × ℤ) :
    mergePoints nm (existing.map fun p => (p.1.map f, p.2)) size (newImage.map f) newFloor newSize =
      (mergePoints nm existing size newImage newFloor newSize).map fun out => (out.1.map f, out.2) := by
  unfold mergePoints
  cases existing with
  | none => rfl
  | some p =>
    cases size with
    | none => rfl
    | some size =>
      simp only [Option.map_some]
      split
      · rfl
      · cases markReplaced nm p.2 newFloor with
        | error e => rfl
        | ok replaced =>
          simp only [bind, Except.bind, Except.map, newest, kept_map, ← List.map_append, List.length_map,
            List.map_drop]

variable (nm) in
/-- Without the marks, what is handed over is the union of the code. -/
theorem union_eq_handed (h : Shape s) (w : Walk F) :
    union nm s.row w = (handed nm s w).map fun out => (out.1.map Prod.fst, out.2) := by
  have hzip : existingPoints s.row =
      ((existingPoints s.row).map fun p => (p.1.zip s.marks, p.2)).map fun p => (p.1.map Prod.fst, p.2) := by
    have hlen := h.marked
    cases hp : existingPoints s.row with
    | none => rfl
    | some p =>
      simp only [hp, Option.map_some, Option.getD_some] at hlen ⊢
      rw [List.map_fst_zip hlen.ge]
  have hnew : w.imagePts = (w.imagePts.map fun p => (p, w.size)).map Prod.fst := by simp [Function.comp_def]
  unfold union handed
  conv_lhs => rw [hzip, hnew]
  exact mergePoints_map Prod.fst _ _ _ _ _

/-! ### What a union is made of -/

theorem mem_of_mem_kept {p : α} {ps : List α} {replaced : List Bool} (h : p ∈ kept ps replaced) : p ∈ ps := by
  obtain ⟨q, hq, rfl⟩ := List.mem_map.mp h
  exact (List.of_mem_zip (List.mem_filter.mp hq).1).1

theorem mem_of_mem_newest {p : α} {ps : List α} {maxPoints length : ℕ} (h : p ∈ newest maxPoints ps length) :
    p ∈ ps := List.mem_of_mem_drop h

theorem mem_mergePoints {existing : Option (List α × List (F × F))} {size : Option (ℤ × ℤ)} {newImage : List α}
    {newFloor : List (Json F)} {newSize : ℤ × ℤ} {out : List α × List (Json F)} {p : α}
    (h : mergePoints nm existing size newImage newFloor newSize = .ok out) (hp : p ∈ out.1) :
    p ∈ newImage ∨ ∃ image floor, existing = some (image, floor) ∧ size = some newSize ∧ p ∈ image := by
  unfold mergePoints at h
  split at h
  · rename_i image floor size
    split at h
    · cases h
      exact .inl hp
    · rename_i hsize
      obtain ⟨replaced, -, h⟩ := exists_of_bind_ok h
      rw [← Except.ok.inj h] at hp
      have hall : p ∈ kept image replaced ++ newImage := by
        simp only at hp
        exact mem_of_mem_newest hp
      rcases List.mem_append.mp hall with hp | hp
      · refine .inr ⟨image, floor, rfl, ?_, mem_of_mem_kept hp⟩
        simp only [not_or, not_not] at hsize
        rw [Prod.ext hsize.1 hsize.2]
      · exact .inl hp
  · cases h
    exact .inl hp

theorem kept_all {ps : List α} {es : List β} (h : ps.length ≤ es.length) :
    kept ps (es.map fun _ => false) = ps := by
  induction ps generalizing es with
  | nil => rfl
  | cons p ps ih =>
    cases es with
    | nil => cases h
    | cons e es =>
      have hrest : kept ps (es.map fun _ => false) = ps := ih (Nat.le_of_succ_le_succ h)
      simpa [kept] using hrest

variable (nm) in
/-- A walk without points hands over what is stored. -/
theorem mergePoints_empty {image : List α} {floor : List (F × F)} (size : ℤ × ℤ)
    (hlen : image.length ≤ floor.length) (hmax : image.length ≤ MAX_POINTS) :
    ∃ out, mergePoints nm (some (image, floor)) (some size) [] [] size = .ok out ∧ out.1 = image := by
  have hnone : markReplaced nm floor [] = .ok (floor.map fun _ => false) := rfl
  have hover : image.length - MAX_POINTS = 0 := Nat.sub_eq_zero_of_le hmax
  unfold mergePoints
  simp only [ne_eq, not_true_eq_false, or_self, if_false, hnone, bind, Except.bind]
  refine ⟨_, rfl, ?_⟩
  simp only [newest, kept_all hlen, List.append_nil, hover, List.drop_zero]

variable (nm) in
/-- A walk without points, at the stored size, hands over every stored point under its mark. -/
theorem handed_empty (h : Shape s) {points : Points F} (hp : s.row.bind Row.points = some points) :
    ∃ size out, s.row.bind Row.size = some size ∧ handed nm s ⟨[], [], size.1, size.2⟩ = .ok out ∧
      out.1.map Prod.snd = s.marks := by
  have hexisting : existingPoints s.row = some (points.imagePts.map pairJson, points.floorPts) := by
    simp [existingPoints, hp]
  have hlen := h.marked
  simp only [hexisting, Option.map_some, Option.getD_some, List.length_map] at hlen
  obtain ⟨size, hsize⟩ := Option.isSome_iff_exists.mp (h.sized (by simp [hexisting]))
  have hzip : ((points.imagePts.map pairJson).zip s.marks).length = points.imagePts.length := by
    simp [hlen]
  obtain ⟨out, hout, hfst⟩ := mergePoints_empty nm size
    (hzip.trans points.sameLength).le (hzip.le.trans points.bounded)
  refine ⟨size, out, hsize, ?_, ?_⟩
  · unfold handed
    rw [hexisting, hsize]
    exact hout
  · rw [hfst, List.map_snd_zip (by simp [hlen])]

theorem oneSize_of_unmixed (h : Shape s) (hun : Unmixed nm s) : OneSize s := by
  intro m hm
  cases hp : s.row.bind Row.points with
  | none =>
    have hlen := h.marked
    simp only [existingPoints, hp, Option.map_none, Option.getD_none, List.length_eq_zero_iff] at hlen
    rw [hlen] at hm
    cases hm
  | some points =>
    obtain ⟨size, out, hsize, hout, hmarks⟩ := handed_empty nm h hp
    rw [← hmarks] at hm
    obtain ⟨p, hpmem, rfl⟩ := List.mem_map.mp hm
    rw [hsize, hun _ out hout p hpmem]
    rfl

theorem unmixed_of_oneSize (hone : OneSize s) : Unmixed nm s := by
  intro w out hout p hp
  rcases mem_mergePoints hout hp with hnew | ⟨image, floor, he, hsize, hold⟩
  · obtain ⟨q, -, rfl⟩ := List.mem_map.mp hnew
    rfl
  · -- stored points join a union only where the row's size is the walk's
    obtain ⟨old, -, hq⟩ := Option.map_eq_some_iff.mp he
    have hmark : p.2 ∈ s.marks := by
      have himage : old.1.zip s.marks = image := congrArg Prod.fst hq
      rw [← himage] at hold
      exact (List.of_mem_zip hold).2
    have hstored := hone p.2 hmark
    rw [hsize] at hstored
    exact (Option.some.inj hstored).symm

/-! ### One step -/

theorem existingPoints_of_points {r : Row F} {row : Option (Row F)} (h : r.points = row.bind Row.points) :
    existingPoints (some r) = existingPoints row := by
  simp [existingPoints, h]

theorem points_getD_empty (row : Option (Row F)) : (row.getD .empty).points = row.bind Row.points := by
  cases row <;> rfl

theorem size_getD_empty (row : Option (Row F)) : (row.getD .empty).size = row.bind Row.size := by
  cases row <;> rfl

/-- A row with the same points, under some size. -/
theorem Shape.of_points {r : Row F} (h : Shape s) (hp : r.points = s.row.bind Row.points)
    (hsize : r.size.isSome) : Shape { s with row := some r } where
  marked := by
    show s.marks.length = _
    rw [existingPoints_of_points hp]
    exact h.marked
  sized := fun _ => hsize

/-- What a walk that comes through leaves. -/
theorem step_walk_ok {out : Result F} {row : Option (Row F)} (h : Shape s)
    (hout : solveProgressive nm w s.row = (.ok out, row)) :
    ∃ union points r, handed nm s w = .ok union ∧ row = some r ∧ r.points = some points ∧ r.size = some w.size ∧
      union.1.length = points.imagePts.length ∧ step nm s (.walk w) = ⟨row, union.1.map Prod.snd⟩ := by
  rcases solveProgressive_cases nm w s.row with
    ⟨⟨e, he⟩, -⟩ | ⟨e, sol, r, -, -, -, he⟩ | ⟨out', sol, r, points, hs, hr, -, hpoints, hok⟩
  · cases he.symm.trans hout
  · cases he.symm.trans hout
  · cases hok.symm.trans hout
    have hunion := union_eq_handed nm h w
    rw [(solve_ok hs).1] at hunion
    cases hh : handed nm s w with
    | error e => simp [hh, Except.map] at hunion
    | ok marked =>
      simp only [hh, Except.map, Except.ok.injEq] at hunion
      have hlen : marked.1.length = points.imagePts.length := by
        have hfst : sol.imagePts = marked.1.map Prod.fst := congrArg Prod.fst hunion
        rw [length_of_mapM (validatePoints_ok hpoints).1, hfst, List.length_map]
      exact ⟨marked, points, _, rfl, rfl, rfl, rfl, hlen, by simp [step, hout, hh]⟩

theorem Shape.step (h : Shape s) (op : Op F) : Shape (step nm s op) := by
  cases op with
  | homography matrix imgW imgH quality =>
    show Shape (written s _)
    cases hr : setHomography nm matrix imgW imgH quality s.row with
    | error e => exact h
    | ok r =>
      obtain ⟨clean, q, -, -, -, rfl⟩ := exists_of_setHomography hr
      exact h.of_points (points_getD_empty s.row) rfl
  | mount mount =>
    show Shape (written s _)
    unfold setMount
    split
    · exact h
    · have hp : existingPoints (some { s.row.getD .empty with mount := some mount }) = existingPoints s.row :=
        existingPoints_of_points (points_getD_empty s.row)
      refine ⟨h.marked.trans (by simp only [written, hp]), fun hsome => ?_⟩
      simp only [written, hp] at hsome
      show (s.row.getD .empty).size.isSome
      rw [size_getD_empty]
      exact h.sized hsome
  | delete => exact ⟨rfl, fun hsome => by cases hsome⟩
  | walk w =>
    rcases solveProgressive_cases nm w s.row with
      ⟨⟨e, he⟩, -⟩ | ⟨e, sol, r, -, hr, -, he⟩ | ⟨out, sol, r, points, -, -, -, -, hok⟩
    · show Shape (CalibRefine.step nm s (.walk w))
      simp only [CalibRefine.step, he]
      exact h
    · simp only [CalibRefine.step, he]
      obtain ⟨-, rfl⟩ := writeHomography_ok hr
      exact h.of_points (points_getD_empty s.row) rfl
    · obtain ⟨union, points, r, -, hrow, hpoints, hsize, hlen, hstep⟩ := step_walk_ok h hok
      rw [hstep, hrow]
      refine ⟨?_, fun _ => by simp [hsize]⟩
      simp [existingPoints, hpoints, hlen]

theorem oneSize_of_marks {s' : System F} (hone : OneSize s) (hmarks : s'.marks = s.marks)
    (h : s.marks = [] ∨ s'.row.bind Row.size = s.row.bind Row.size) : OneSize s' := by
  intro m hm
  rw [hmarks] at hm
  rcases h with hnone | hsame
  · rw [hnone] at hm
    cases hm
  · rw [hsame]
    exact hone m hm

/-- What a step does to marks and size: it keeps the size of a row that has points, or it stores
a union. -/
theorem oneSize_step (h : Shape s) (hone : OneSize s) (op : Op F) (hok : Tidy nm s op) :
    OneSize (step nm s op) := by
  cases op with
  | homography matrix imgW imgH quality =>
    show OneSize (written s _)
    cases hr : setHomography nm matrix imgW imgH quality s.row with
    | error e => exact hone
    | ok r =>
      obtain ⟨clean, q, -, -, -, rfl⟩ := exists_of_setHomography hr
      refine oneSize_of_marks hone rfl ?_
      -- a tidy write has no points to leave behind, or writes their size, or fails
      rcases hok with hnone | hsize | hnever
      · exact .inl hnone
      · exact .inr hsize.symm
      · exact absurd hr (hnever _)
  | mount mount =>
    show OneSize (written s _)
    unfold setMount
    split
    · exact hone
    · exact oneSize_of_marks hone rfl (.inr (size_getD_empty s.row))
  | delete => exact fun m hm => by cases hm
  | walk w =>
    rcases solveProgressive_cases nm w s.row with
      ⟨⟨e, he⟩, -⟩ | ⟨e, sol, r, hsol, hr, hover, he⟩ | ⟨out, sol, r, points, -, -, -, -, hok'⟩
    · simp only [step, he]
      exact hone
    · -- the homography is in the row, and the old points with it
      simp only [step, he]
      have hw := (writeHomography_ok hr).2
      refine oneSize_of_marks hone rfl ?_
      rcases hok with hnone | hsize | hnever
      · exact .inl hnone
      · rw [hsize, hw]
        exact .inr rfl
      · exact absurd ⟨sol, r, hsol, hr, hover⟩ hnever
    · obtain ⟨union, points, r, hunion, hrow, -, hsize, -, hstep⟩ := step_walk_ok h hok'
      -- the union is stored under the size of the walk, which all its points have
      rw [hstep, hrow]
      intro m hm
      obtain ⟨p, hp, rfl⟩ := List.mem_map.mp hm
      rw [unmixed_of_oneSize hone w union hunion p hp]
      exact hsize

/-- A step that is not tidy leaves points under a size they were not marked at. -/
theorem not_oneSize_of_not_tidy (hone : OneSize s) (op : Op F) (hbad : ¬ Tidy nm s op) :
    ¬ OneSize (step nm s op) := by
  have hmoved : ∀ {s' : System F} {size : ℤ × ℤ}, s'.marks = s.marks → s.marks ≠ [] →
      s'.row.bind Row.size = some size → s.row.bind Row.size ≠ some size → ¬ OneSize s' := by
    intro s' size hmarks hne hnew hold hone'
    obtain ⟨m, hm⟩ := List.exists_mem_of_ne_nil _ hne
    have hm' := hone' m (hmarks ▸ hm)
    rw [hnew] at hm'
    exact hold ((hone m hm).trans hm'.symm)
  cases op with
  | homography matrix imgW imgH quality =>
    simp only [Tidy, not_or, not_forall, not_not] at hbad
    obtain ⟨hne, hold, r, hr⟩ := hbad
    obtain ⟨clean, q, -, -, -, rfl⟩ := exists_of_setHomography hr
    simp only [step, hr, written]
    exact hmoved rfl hne rfl hold
  | mount mount => exact absurd trivial hbad
  | delete => exact absurd trivial hbad
  | walk w =>
    simp only [Tidy, not_or, not_not] at hbad
    obtain ⟨hne, hold, sol, r, hs, hr, hover⟩ := hbad
    rcases solveProgressive_cases nm w s.row with
      ⟨-, hnever⟩ | ⟨e, sol', r', hs', hr', -, he⟩ | ⟨out, sol', r', points, hs', hr', hin, -, -⟩
    · exact absurd hr (hnever sol r hs)
    · simp only [step, he]
      obtain ⟨-, rfl⟩ := writeHomography_ok hr'
      exact hmoved rfl hne rfl hold
    · cases hs.symm.trans hs'
      exact absurd hin hover

/-- Every walk hands the solver correspondences of its own size in every state of the runs in
which no homography of another size is written over stored points. -/
theorem unmixed_iff_tidy (nm : Numerics F) (ops : List (Op F)) :
    AllStates (step nm) (Unmixed nm) init ops ↔ AllSteps (step nm) (Tidy nm) init ops := by
  refine allStates_iff_allSteps (I := fun s => Shape s ∧ OneSize s)
    (fun s op hi hok => ⟨hi.1.step op, oneSize_step hi.1 hi.2 op hok⟩)
    (fun s hi => unmixed_of_oneSize hi.2) (fun s op hi hbad hun => ?_) ?_
  · exact not_oneSize_of_not_tidy hi.2 op hbad (oneSize_of_unmixed (hi.1.step op) hun)
  · exact ⟨⟨rfl, fun hsome => by cases hsome⟩, fun m hm => by cases hm⟩

end

/-! ## A walk that is too long, and a one-shot homography between two walks -/

/-- The length of a decimal with one digit behind the point, as `json.dumps` writes it. -/
def decimalLength (q : ℚ) : ℕ := (Nat.toDigits 10 q.floor.natAbs).length + 2

def joinedLength (lengths : List ℕ) : ℕ := 2 + lengths.sum + 2 * (lengths.length - 1)

def leafLength : Json ℚ → ℕ
  | .float x => decimalLength x
  | _ => 4

def rowLength : Json ℚ → ℕ
  | .arr items => joinedLength (items.map leafLength)
  | v => leafLength v

def arrayLength : Json ℚ → ℕ
  | .arr items => joinedLength (items.map rowLength)
  | v => rowLength v

def documentLength : Json ℚ → ℕ
  | .obj fields => joinedLength (fields.map fun e => e.1.length + 4 + arrayLength e.2)
  | v => arrayLength v

/-- A root to six digits. -/
def root (q : ℚ) : ℚ := Nat.sqrt (q * 1000000000000).floor.natAbs / 1000000

/-- Numbers for correspondences that ten pixels to the metre fit exactly, which is the matrix
their equations determine. -/
def tenPixels : Numerics ℚ where
  ar := Fusion.ratArith
  nb := ⟨fun q => q = 0, fun q => .ok q.floor, fun n => some n, fun _ => none, fun _ => none⟩
  hypot a b := root (a * a + b * b)
  sqrt := root
  sum := List.sum
  square q := some (q * q)
  exp2 q := 2 ^ q.floor
  svd rows := some (if rows.length ≤ 8 then List.replicate 8 1 else List.replicate 8 1 ++ [0],
    [1, 0, 0, 0, 1, 0, 0, 0, 10])
  dumpsLength := documentLength

def exactWalk (pixels : List (ℚ × ℚ)) (imgW imgH : ℤ) : Walk ℚ :=
  ⟨pixels.map pairJson, pixels.map fun p => pairJson (p.1 / 10, p.2 / 10), imgW, imgH⟩

def longWalk : Walk ℚ := exactWalk ((List.range 201).map fun i : ℕ => ((i : ℚ), ((i * i % 900 : ℕ) : ℚ))) 1280 960

/-- The solve raises with a row behind it. -/
def stranded : Except Error (Result F) × Option (Row F) → Bool
  | (.error _, some _) => true
  | _ => false

theorem not_atomic_of_stranded {nm : Numerics F} {w : Walk F} (h : stranded (solveProgressive nm w none) = true) :
    ¬ Atomic nm w none := by
  unfold Atomic
  revert h
  rcases solveProgressive nm w none with ⟨e | out, _ | r⟩ <;> intro h
  · cases h
  · exact Option.some_ne_none r
  · cases h
  · cases h

/-- 201 correspondences: the solve raises and leaves its homography behind. -/
theorem longWalk_not_atomic : ¬ Atomic tenPixels longWalk none :=
  not_atomic_of_stranded (by decide +kernel)

/-- A walk, and a homography put in at half the resolution. -/
def resized : List (Op ℚ) :=
  [.walk (exactWalk [(0, 0), (1200, 0), (1200, 900), (0, 900)] 1280 960),
   .homography (.arr ([1 / 5, 0, 0, 0, 1 / 5, 0, 0, 0, 1].map .float)) 640 480 none]

def secondWalk : Walk ℚ := exactWalk [(100, 100), (500, 100), (500, 400), (100, 400)] 640 480

/-- The next walk at that resolution gets the four points of the first one into its union. -/
theorem resized_not_unmixed : ¬ Unmixed tenPixels (Run.finish (step tenPixels) init resized) := by
  intro h
  have hmarks : ((handed tenPixels (Run.finish (step tenPixels) init resized) secondWalk).toOption.map
      fun out => out.1.map Prod.snd) = some (List.replicate 4 (1280, 960) ++ List.replicate 4 (640, 480)) := by
    decide +kernel
  cases hout : handed tenPixels (Run.finish (step tenPixels) init resized) secondWalk with
  | error e =>
    rw [hout] at hmarks
    cases hmarks
  | ok out =>
    rw [hout] at hmarks
    have hall : out.1.map Prod.snd = _ := Option.some.inj hmarks
    have hmem : ((1280, 960) : ℤ × ℤ) ∈ out.1.map Prod.snd := by
      rw [hall]
      decide
    obtain ⟨p, hp, hmark⟩ := List.mem_map.mp hmem
    have hsize := (h secondWalk out hout p hp).symm.trans hmark
    revert hsize
    decide

end Wavr.CalibRefine
