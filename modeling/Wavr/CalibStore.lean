import Wavr.Events
import Wavr.Json

/-!
# Stored camera calibrations

The row of one camera in `CalibrationStore`, the checks in front of each write, and the solver of
`localize` as far as calibration uses it. Numbers are doubles of a type with the operations the
code performs; points come in as decoded JSON.
-/

namespace Wavr.CalibStore
open Fusion (Arith)

def MAX_JSON_BYTES : ℕ := 4096
def MAX_DIM : ℤ := 100000
def MAX_POINTS : ℕ := 200
def MAX_POINTS_JSON_BYTES : ℕ := 16384

/-- What the interpreter and its libraries compute. -/
structure Numerics (F : Type) where
  ar : Arith F
  nb : Numbers F
  hypot : F → F → F
  sqrt : F → F
  sum : List F → F
  /-- `x ** 2`; none is the OverflowError. -/
  square : F → Option F
  /-- `2.0 ** x`. -/
  exp2 : F → F
  /-- `numpy.linalg.svd`: the singular values, largest first, and the last right-singular vector.
  None where it raises or is not installed. -/
  svd : List (List F) → Option (List F × List F)
  /-- `len(json.dumps(v))`. -/
  dumpsLength : Json F → ℕ

inductive Error
  | value (message : String)
  | calibration (message : String)
  | builtin (e : Raised)
  deriving DecidableEq

variable {F : Type}

/-- Two floats as they stand in a decoded document. -/
def pairJson (p : F × F) : Json F := .arr [.float p.1, .float p.2]

/-- Whether the checks count this value as an array of two: `p[0]` on an object raises. -/
def isObject : Json F → Bool
  | .obj _ => true
  | _ => false

/-- What iterating a value gives. -/
def iterate : Json F → Except Raised (List (Json F))
  | .arr items => .ok items
  | .str s => .ok (s.toList.map fun c => .str (String.singleton c))
  | .obj fields => .ok (fields.map fun e => .str e.1)
  | _ => .error .typeError

/-- `a, b = p`. -/
def unpack (p : Json F) : Except Raised (Json F × Json F) := do
  match ← iterate p with
  | [a, b] => .ok (a, b)
  | _ => .error .valueError

/-- A marked pose of a camera. -/
structure MountPose (F : Type) where
  posX : F
  posY : F
  height : F
  tiltDeg : F
  yawDeg : F
  hfovDeg : F
  vfovDeg : Option F

def MountPose.toDict (m : MountPose F) : Json F :=
  .obj [("pos_x", .float m.posX), ("pos_y", .float m.posY), ("height", .float m.height),
    ("tilt_deg", .float m.tiltDeg), ("yaw_deg", .float m.yawDeg), ("hfov_deg", .float m.hfovDeg),
    ("vfov_deg", (m.vfovDeg.map .float).getD .null)]

/-- Stored correspondences: as many floor points as image points, and not too many. -/
structure Points (F : Type) where
  imagePts : List (F × F)
  floorPts : List (F × F)
  sameLength : imagePts.length = floorPts.length
  bounded : imagePts.length ≤ MAX_POINTS

/-- A row of `camera_calib`, with the columns as `get` reads them. -/
structure Row (F : Type) where
  mount : Option (MountPose F)
  homography : Option (List F)
  size : Option (ℤ × ℤ)
  quality : Option F
  points : Option (Points F)

def Row.empty : Row F := ⟨none, none, none, none, none⟩

variable (nm : Numerics F)

/-- `float(a), float(b)`. -/
def floats (a b : Json F) : Except Raised (F × F) := do
  let x ← a.toFloat nm.nb
  let y ← b.toFloat nm.nb
  .ok (x, y)

/-- Two numbers with finite doubles; what raises is not finite. -/
def finitePoint (p : Json F) : Bool :=
  match unpack p with
  | .error _ => false
  | .ok (a, b) =>
    match floats nm a b with
    | .error _ => false
    | .ok (x, y) => nm.ar.isfinite x && nm.ar.isfinite y

/-- `float(p[0]), float(p[1])`. -/
def indexed (p : Json F) : Except Raised (F × F) := do
  if isObject p then .error .keyError
  else
    let (a, b) ← unpack p
    floats nm a b

/-! ## The solver -/

def DEGENERATE_SVAL_RATIO : ℚ := 1 / 100000000

/-- The two equations of a correspondence. -/
def dltRows (p : (F × F) × (F × F)) : List (List F) :=
  let ((u, v), (x, y)) := p
  let ar := nm.ar
  let zero := ar.lit 0
  let one := ar.lit (-1)
  [[ar.neg u, ar.neg v, one, zero, zero, zero, ar.mul u x, ar.mul v x, x],
   [zero, zero, zero, ar.neg u, ar.neg v, one, ar.mul u y, ar.mul v y, y]]

/-- The floats of a correspondence. -/
def correspondence (p : Json F × Json F) : Except Raised ((F × F) × (F × F)) := do
  let (u, v) ← unpack p.1
  let (x, y) ← unpack p.2
  let image ← floats nm u v
  let floor ← floats nm x y
  .ok (image, floor)

def normalise (s h : List F) : Except Error (List F) :=
  let ar := nm.ar
  match s.head?, (if 9 ≤ s.length then s[s.length - 2]? else s.getLast?), h with
  | some s0, some deg, [_, _, _, _, _, _, _, _, h33] =>
    if ar.eq s0 (ar.lit 0) || ar.lt (ar.div deg s0) (ar.lit DEGENERATE_SVAL_RATIO) then
      .error (.value "degenerate correspondences (collinear/coincident)")
    else if ar.eq h33 (ar.lit 0) || ! ar.isfinite h33 then
      .error (.value "degenerate homography (h33 == 0)")
    else .ok (h.map fun x => ar.div x h33)
  | _, _, _ => .error (.builtin .valueError)

/-- An exception that passes through. -/
def passing {α : Type} (x : Except Raised α) : Except Error α := x.mapError .builtin

def homographyFromPoints (imagePts floorPts : List (Json F)) : Except Error (List F) := do
  if imagePts.length ≠ floorPts.length then
    .error (.value "image_pts and floor_pts must be the same length")
  else if imagePts.length < 4 then .error (.value "need >= 4 point correspondences for a homography")
  else if ! (imagePts.all (finitePoint nm) && floorPts.all (finitePoint nm)) then
    .error (.value "all correspondence coords must be finite")
  else
    let pairs ← passing ((imagePts.zip floorPts).mapM (correspondence nm))
    match nm.svd (pairs.flatMap (dltRows nm)) with
    | none => .error (.builtin .valueError)
    | some (s, h) => normalise nm s h

/-- `abs(x)`. -/
def abs (x : F) : F := if nm.ar.lt x (nm.ar.lit 0) then nm.ar.neg x else x

def applyH (h : List F) (u v : F) : Option (F × F) :=
  let ar := nm.ar
  match h with
  | [a, b, c, d, e, f, g, k, m] =>
    let w := ar.add (ar.add (ar.mul g u) (ar.mul k v)) m
    if ar.lt (abs nm w) (ar.lit (1 / 1000000000000)) || ! ar.isfinite w then none
    else
      let x := ar.div (ar.add (ar.add (ar.mul a u) (ar.mul b v)) c) w
      let y := ar.div (ar.add (ar.add (ar.mul d u) (ar.mul e v)) f) w
      if ar.isfinite x && ar.isfinite y then some (x, y) else none
  | _ => none

/-- The squared distance of a projected point; none where it projects to infinity. -/
def squaredError (h : List F) (p : (F × F) × (F × F)) : Except Raised (Option F) :=
  match applyH nm h p.1.1 p.1.2 with
  | none => .ok none
  | some q =>
    match nm.square (nm.ar.sub q.1 p.2.1), nm.square (nm.ar.sub q.2 p.2.2) with
    | some dx, some dy => .ok (some (nm.ar.add dx dy))
    | _, _ => .error .overflowError

/-- The squared errors up to a point that projects to infinity. -/
def squaredErrors (h : List F) : List ((F × F) × (F × F)) → Except Raised (Option (List F))
  | [] => .ok (some [])
  | p :: ps => do
    match ← squaredError nm h p with
    | none => .ok none
    | some e => return (← squaredErrors h ps).map (e :: ·)

/-- None is `math.inf`. -/
def homographyReprojectionError (h : List F) (pairs : List ((F × F) × (F × F))) : Except Raised (Option F) := do
  match ← squaredErrors nm h pairs with
  | none => .ok none
  | some [] => .ok none
  | some es => .ok (some (nm.sqrt (nm.ar.div (nm.sum es) (nm.ar.lit es.length))))

def QUALITY_HALF_LIFE_M : ℚ := 1 / 10

def homographyQuality (residualM : Option F) : F :=
  let ar := nm.ar
  match residualM with
  | none => ar.lit 0
  | some r =>
    if ! ar.isfinite r || ar.lt r (ar.lit 0) then ar.lit 0
    else nm.exp2 (ar.div (ar.neg r) (ar.lit QUALITY_HALF_LIFE_M))

/-! ## The writes -/

def homographyEntry (v : Json F) : Except Error F :=
  match v.toFloat nm.nb with
  | .error _ => .error (.calibration "homography entries must be numbers")
  | .ok f => if nm.ar.isfinite f then .ok f else .error (.calibration "homography entries must be finite")

def validateHomography (h : Json F) : Except Error (List F) := do
  match h with
  | .arr items =>
    if items.length ≠ 9 then
      .error (.calibration "homography must be a list of 9 numbers (row-major 3x3)")
    else
      let out ← items.mapM (homographyEntry nm)
      if out[8]?.any fun x => nm.ar.eq x (nm.ar.lit 0) then
        .error (.calibration "homography h33 must be non-zero")
      else .ok out
  | _ => .error (.calibration "homography must be a list of 9 numbers (row-major 3x3)")

def sizeInRange (w h : ℤ) : Prop := (0 < w ∧ w ≤ MAX_DIM) ∧ 0 < h ∧ h ≤ MAX_DIM

instance (w h : ℤ) : Decidable (sizeInRange w h) := inferInstanceAs (Decidable (_ ∧ _))

def validateQuality (quality : Option (Json F)) : Except Error (Option F) :=
  match quality with
  | none => .ok none
  | some q =>
    match q.toFloat nm.nb with
    | .error _ => .error (.calibration "quality must be a number")
    | .ok x =>
      if ! nm.ar.isfinite x || ! (nm.ar.le (nm.ar.lit 0) x && nm.ar.le x (nm.ar.lit 1)) then
        .error (.calibration "quality must be a finite number in [0, 1]")
      else .ok (some x)

def setMount (mount : MountPose F) (row : Option (Row F)) : Except Error (Row F) :=
  if MAX_JSON_BYTES < nm.dumpsLength mount.toDict then .error (.calibration "mount blob too large")
  else .ok { row.getD .empty with mount := some mount }

def setHomography (h : Json F) (w ht : ℤ) (quality : Option (Json F)) (row : Option (Row F)) :
    Except Error (Row F) := do
  let clean ← validateHomography nm h
  if ¬ sizeInRange w ht then .error (.calibration "image size out of range")
  else
    let quality ← validateQuality nm quality
    if MAX_JSON_BYTES < nm.dumpsLength (.arr (clean.map .float)) then
      .error (.calibration "homography blob too large")
    else .ok { row.getD .empty with homography := some clean, size := some (w, ht), quality := quality }

/-- What is stored of a set of points: the arrays as floats. -/
def pointsBlob (imagePts floorPts : List (F × F)) : Json F :=
  .obj [("image_pts", .arr (imagePts.map pairJson)), ("floor_pts", .arr (floorPts.map pairJson))]

def validatePoints (imagePts floorPts : List (Json F)) : Except Error (Points F) :=
  if hlen : imagePts.length ≠ floorPts.length then
    .error (.calibration "image_pts and floor_pts must be the same length")
  else if hmax : MAX_POINTS < imagePts.length then .error (.calibration "too many points (max 200)")
  else if ! (imagePts.all (finitePoint nm) && floorPts.all (finitePoint nm)) then
    .error (.calibration "all point coordinates must be finite [x, y] pairs")
  else match himage : imagePts.mapM (indexed nm), hfloor : floorPts.mapM (indexed nm) with
    | .error e, _ => .error (.builtin e)
    | .ok _, .error e => .error (.builtin e)
    | .ok image, .ok floor => .ok
      { imagePts := image
        floorPts := floor
        sameLength := by
          rw [length_of_mapM himage, length_of_mapM hfloor]
          exact not_not.mp hlen
        bounded := by
          rw [length_of_mapM himage]
          exact not_lt.mp hmax }

def setPoints (imagePts floorPts : List (Json F)) (w ht : ℤ) (row : Option (Row F)) : Except Error (Row F) := do
  let points ← validatePoints nm imagePts floorPts
  if ¬ sizeInRange w ht then .error (.calibration "image size out of range")
  else if MAX_POINTS_JSON_BYTES < nm.dumpsLength (pointsBlob points.imagePts points.floorPts) then
    .error (.calibration "points blob too large")
  else .ok { row.getD .empty with points := some points, size := some (w, ht) }

/-! ## When a write comes through -/

section
variable {nm} {p : Json F} {imagePts floorPts : List (Json F)} {w ht : ℤ} {row : Option (Row F)} {r : Row F}

theorem exists_indexed (h : finitePoint nm p = true) : (∃ q, indexed nm p = .ok q) ↔ ¬ isObject p := by
  unfold finitePoint at h
  unfold indexed
  by_cases hp : isObject p
  · simp [hp]
  · cases hu : unpack p with
    | error e => simp [hu] at h
    | ok ab =>
      cases hf : floats nm ab.1 ab.2 with
      | error e => simp [hu, hf] at h
      | ok xy => simp [hp, hf, bind, Except.bind]

theorem validatePoints_ok {points : Points F} (h : validatePoints nm imagePts floorPts = .ok points) :
    imagePts.mapM (indexed nm) = .ok points.imagePts ∧ floorPts.mapM (indexed nm) = .ok points.floorPts := by
  unfold validatePoints at h
  split at h
  · cases h
  · split at h
    · cases h
    · split at h
      · cases h
      · split at h
        · cases h
        · cases h
        · rename_i himage hfloor
          cases h
          exact ⟨himage, hfloor⟩

theorem validatePoints_of {image floor : List (F × F)} (hlen : imagePts.length = floorPts.length)
    (hmax : imagePts.length ≤ MAX_POINTS)
    (hfinite : (imagePts.all (finitePoint nm) && floorPts.all (finitePoint nm)) = true)
    (himage : imagePts.mapM (indexed nm) = .ok image) (hfloor : floorPts.mapM (indexed nm) = .ok floor) :
    ∃ points, validatePoints nm imagePts floorPts = .ok points ∧ points.imagePts = image ∧
      points.floorPts = floor := by
  unfold validatePoints
  rw [dif_neg (not_not.mpr hlen), dif_neg (not_lt.mpr hmax), if_neg (by simpa using hfinite)]
  split
  · rename_i he
    cases he.symm.trans himage
  · rename_i he
    cases he.symm.trans hfloor
  · rename_i hi hf
    cases hi.symm.trans himage
    cases hf.symm.trans hfloor
    exact ⟨_, rfl, rfl, rfl⟩

theorem length_le_of_validatePoints {points : Points F} (h : validatePoints nm imagePts floorPts = .ok points) :
    imagePts.length ≤ MAX_POINTS := by
  rw [← length_of_mapM (validatePoints_ok h).1]
  exact points.bounded

/-- The limits of the points column, for points that the solver has accepted. -/
structure WithinLimits (nm : Numerics F) (imagePts floorPts : List (Json F)) : Prop where
  count : imagePts.length ≤ MAX_POINTS
  arrays : ∀ p ∈ imagePts ++ floorPts, ¬ isObject p
  bytes : ∀ image floor, imagePts.mapM (indexed nm) = .ok image → floorPts.mapM (indexed nm) = .ok floor →
    nm.dumpsLength (pointsBlob image floor) ≤ MAX_POINTS_JSON_BYTES

theorem setPoints_ok {points : Points F} (h : validatePoints nm imagePts floorPts = .ok points)
    (hsize : sizeInRange w ht)
    (hblob : nm.dumpsLength (pointsBlob points.imagePts points.floorPts) ≤ MAX_POINTS_JSON_BYTES) :
    setPoints nm imagePts floorPts w ht row =
      .ok { row.getD .empty with points := some points, size := some (w, ht) } := by
  unfold setPoints
  rw [h]
  simp only [bind, Except.bind]
  rw [if_neg (not_not.mpr hsize), if_neg (not_lt.mpr hblob)]

theorem exists_of_setPoints (h : setPoints nm imagePts floorPts w ht row = .ok r) :
    ∃ points, validatePoints nm imagePts floorPts = .ok points ∧
      nm.dumpsLength (pointsBlob points.imagePts points.floorPts) ≤ MAX_POINTS_JSON_BYTES ∧
      r = { row.getD .empty with points := some points, size := some (w, ht) } := by
  obtain ⟨points, hpoints, hrest⟩ := exists_of_bind_ok h
  split at hrest
  · cases hrest
  · split at hrest
    · cases hrest
    · rename_i hblob
      cases hrest
      exact ⟨points, hpoints, not_lt.mp hblob, rfl⟩

/-- The points column takes exactly the sets within its limits. -/
theorem setPoints_iff (hlen : imagePts.length = floorPts.length)
    (hfinite : (imagePts.all (finitePoint nm) && floorPts.all (finitePoint nm)) = true)
    (hsize : sizeInRange w ht) :
    (∃ r, setPoints nm imagePts floorPts w ht row = .ok r) ↔ WithinLimits nm imagePts floorPts := by
  have hall : ∀ p ∈ imagePts ++ floorPts, finitePoint nm p = true := by
    intro p hp
    rw [Bool.and_eq_true, List.all_eq_true, List.all_eq_true] at hfinite
    rcases List.mem_append.mp hp with hp | hp
    · exact hfinite.1 p hp
    · exact hfinite.2 p hp
  constructor
  · rintro ⟨r, h⟩
    obtain ⟨points, hpoints, hblob, -⟩ := exists_of_setPoints h
    obtain ⟨himage, hfloor⟩ := validatePoints_ok hpoints
    refine ⟨length_le_of_validatePoints hpoints, fun p hp => ?_, fun image floor hi hf => ?_⟩
    · refine (exists_indexed (hall p hp)).mp ?_
      rcases List.mem_append.mp hp with hp | hp
      · exact returns_mapM.mp ⟨_, himage⟩ p hp
      · exact returns_mapM.mp ⟨_, hfloor⟩ p hp
    · cases hi.symm.trans himage
      cases hf.symm.trans hfloor
      exact hblob
  · rintro ⟨hmax, harrays, hbytes⟩
    -- a finite point that is not an object is one that can be indexed
    have hindexed : ∀ p ∈ imagePts ++ floorPts, ∃ q, indexed nm p = .ok q := fun p hp =>
      (exists_indexed (hall p hp)).mpr (harrays p hp)
    obtain ⟨image, himage⟩ := returns_mapM.mpr fun p hp => hindexed p (List.mem_append_left _ hp)
    obtain ⟨floor, hfloor⟩ := returns_mapM.mpr fun p hp => hindexed p (List.mem_append_right _ hp)
    obtain ⟨points, hpoints, rfl, rfl⟩ := validatePoints_of hlen hmax hfinite himage hfloor
    exact ⟨_, setPoints_ok hpoints hsize (hbytes _ _ himage hfloor)⟩

theorem exists_of_setHomography {h : Json F} {quality : Option (Json F)}
    (hr : setHomography nm h w ht quality row = .ok r) :
    ∃ clean q, validateHomography nm h = .ok clean ∧ sizeInRange w ht ∧ validateQuality nm quality = .ok q ∧
      r = { row.getD .empty with homography := some clean, size := some (w, ht), quality := q } := by
  obtain ⟨clean, hclean, hrest⟩ := exists_of_bind_ok hr
  by_cases hsize : sizeInRange w ht
  · rw [if_neg (not_not.mpr hsize)] at hrest
    obtain ⟨q, hq, hrest⟩ := exists_of_bind_ok hrest
    split at hrest
    · cases hrest
    · cases hrest
      exact ⟨clean, q, hclean, hsize, hq, rfl⟩
  · rw [if_pos hsize] at hrest
    cases hrest

theorem homographyEntry_float {x y : F} (h : homographyEntry nm (.float x) = .ok y) : y = x := by
  unfold homographyEntry at h
  simp only [Json.toFloat] at h
  split at h
  · cases h
    rfl
  · cases h

theorem entries_of_floats {h out : List F} (hout : (h.map Json.float).mapM (homographyEntry nm) = .ok out) :
    out = h := by
  induction h generalizing out with
  | nil =>
    cases hout
    rfl
  | cons x h ih =>
    rw [List.map_cons, List.mapM_cons] at hout
    obtain ⟨y, hy, hout⟩ := exists_of_bind_ok hout
    obtain ⟨ys, hys, hout⟩ := exists_of_bind_ok hout
    cases hout
    rw [homographyEntry_float hy, ih hys]

/-- A matrix of floats is stored as it is. -/
theorem validateHomography_floats {h clean : List F}
    (hc : validateHomography nm (.arr (h.map .float)) = .ok clean) : clean = h := by
  unfold validateHomography at hc
  simp only at hc
  split at hc
  · cases hc
  · obtain ⟨out, hout, hc⟩ := exists_of_bind_ok hc
    split at hc
    · cases hc
    · cases hc
      exact entries_of_floats hout

theorem validateQuality_float {x : F} {q : Option F} (h : validateQuality nm (some (.float x)) = .ok q) :
    q = some x := by
  unfold validateQuality at h
  simp only [Json.toFloat] at h
  split at h
  · cases h
  · cases h
    rfl

theorem homographyFromPoints_ok {h : List F} (hh : homographyFromPoints nm imagePts floorPts = .ok h) :
    imagePts.length = floorPts.length ∧ 4 ≤ imagePts.length ∧
      (imagePts.all (finitePoint nm) && floorPts.all (finitePoint nm)) = true := by
  unfold homographyFromPoints at hh
  split at hh
  · cases hh
  · rename_i hlen
    split at hh
    · cases hh
    · rename_i hfour
      split at hh
      · cases hh
      · rename_i hfinite
        exact ⟨not_not.mp hlen, not_lt.mp hfour, by simpa using hfinite⟩

end

end Wavr.CalibStore
