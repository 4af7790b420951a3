import Wavr.Anchors
import Wavr.Checks
import Wavr.FusionConfidence
import Wavr.Run

/-!
# Anchors claim no geometry that they do not have

What is stored of every anchor over the runs of the store, and which bad coordinates are refused as
they should be.
-/

namespace Wavr.Anchors

open Checks
open Decimal (decimal)
open Fusion (roundHalfEven roundHalfEven_mono)
open HouseMap (Number floatOf fits)

section
variable {F : Type} (py : Interpreter F)

/-! ## Statements -/

/-- The greatest finite double. -/
@[irreducible] def maxDouble : ℤ := 2 ^ 1024 - 2 ^ 971

/-- What is documented of doubles: none is greater, and `float` of a plain decimal that is not greater is one. -/
structure Documented : Prop where
  value_le : ∀ x, py.isfinite x = true → |py.value x| ≤ maxDouble
  float_of_decimal : ∀ s q, decimal s.toList = some q → |q| ≤ maxDouble →
    ∃ x, py.floatOfStr s = some x ∧ py.isfinite x = true

/-- The geometry that each kind of anchor has. -/
def ShapeOk (kind : Kind) (x y z : Option F) (polygon : Polygon F) : Prop :=
  match kind with
  | .logical => x = none ∧ y = none ∧ z = none ∧ polygon = []
  | .point => (∃ v, x = some v ∧ py.isfinite v = true) ∧ (∃ v, y = some v ∧ py.isfinite v = true) ∧
      (∀ v, z = some v → py.isfinite v = true) ∧ polygon = []
  | .area => x = none ∧ y = none ∧ z = none ∧ 3 ≤ polygon.length ∧
      ∀ p ∈ polygon, py.isfinite p.1 = true ∧ py.isfinite p.2 = true

/-- Of every anchor, as it is read back. -/
def Honest (s : Store F) : Prop :=
  ∀ anchorId a, get py s anchorId = some a → ShapeOk py a.kind a.x a.y a.z a.polygon

/-- A number with a finite double. -/
def Fine (v : Json F) : Prop := ∃ x, floatOf py.toPython py.floatOfStr v = .ok x ∧ py.isfinite x = true

/-- An integer without a double. -/
def Huge (v : Json F) : Prop := ∃ n, v = .int n ∧ fits n = false

def FinePoint (p : Json F) : Prop := ∃ a b, p = .arr [a, b] ∧ Fine py a ∧ Fine py b

def BadPoint (x y z : Json F) : Prop := ¬ Fine py x ∨ ¬ Fine py y ∨ z ≠ .null ∧ ¬ Fine py z

def BadPolygon (polygon : Json F) : Prop := ∀ ps, polygon = .arr ps → ∃ p ∈ ps, ¬ FinePoint py p

/-- The coordinates that the anchor would have are no coordinates. -/
def BadCoordinates : Call F → Prop
  | .create _ _ args => args.kind = "point" ∧ BadPoint py args.x args.y args.z ∨
      args.kind = "area" ∧ BadPolygon py args.polygon
  | .place _ _ x y z _ => BadPoint py x y z
  | _ => False

def IsAnchorError (e : Fault) : Prop := ∃ text, e = .anchorError text

/-- What a call promises, beside the anchors behind it. -/
structure CallLaw (s : Store F) (c : Call F) : Prop where
  moved : ∀ ts anchorId room level, c = .move ts anchorId room level → (call py s c).1 = .ok () →
    ∃ a, get py (step py s c) anchorId = some a ∧ ShapeOk py .logical a.x a.y a.z a.polygon
  refused : BadCoordinates py c → (∃ e, (call py s c).1 = .error e ∧ IsAnchorError e) ∧ step py s c = s

/-- As far as they are looked at, the coordinates are not huge. -/
def PointClear (x y z : Json F) : Prop :=
  ¬ Huge x ∧ (Fine py x → ¬ Huge y) ∧ (Fine py x → Fine py y → ¬ Huge z)

/-- A number or `True`, which is no list of points. -/
def Uniterable : Json F → Prop
  | .bool b => b = true
  | .int n => n ≠ 0
  | .float x => py.isZero x = false
  | _ => False

/-- As far as they are looked at, the coordinates of the polygon are not huge. -/
def PointsClear (ps : List (Json F)) : Prop :=
  3 ≤ ps.length → ps.length ≤ MAX_POLYGON → ∀ pre a b post, ps = pre ++ .arr [a, b] :: post →
    (∀ p ∈ pre, FinePoint py p) → ¬ Huge a ∧ (Fine py a → ¬ Huge b)

def PolygonClear (polygon : Json F) : Prop :=
  ¬ Uniterable py polygon ∧ ∀ ps, polygon = .arr ps → PointsClear py ps

/-- The name and the room are texts that the store takes. -/
def NamesPass (args : Args F) : Prop :=
  (∃ name, clean args.name "anchor name" MAX_NAME = .ok name) ∧ ∃ room, clean args.room "room" MAX_NAME = .ok room

/-- No huge integer, and no number for a polygon, is come to. -/
def Clear (s : Store F) : Call F → Prop
  | .create _ _ args => NamesPass args → (args.kind = "point" → PointClear py args.x args.y args.z) ∧
      (args.kind = "area" → PolygonClear py args.polygon)
  | .place _ anchorId x y z _ => (s.anchors.get? anchorId).isSome → PointClear py x y z
  | _ => True

end

/-! ## The text of a polygon -/

section
variable {F : Type} {py : Interpreter F}

theorem roundHalfEven_intCast (n : ℤ) : roundHalfEven n = n := by
  have hfloor : (n : ℚ).floor = n := Rat.floor_intCast n
  unfold roundHalfEven
  dsimp only
  rw [hfloor, sub_self, if_pos (.inl (by norm_num))]

theorem fixed4_denotes (h : Documented py) {x : F} (hx : py.isfinite x = true) :
    ∃ y, py.floatOfStr (String.ofList (fixed4 py x)) = some y ∧ py.isfinite y = true := by
  let n := (roundHalfEven (|py.value x| * 10 ^ 4)).toNat
  have hscaled : |py.value x| * 10 ^ 4 ≤ ((maxDouble * 10 ^ 4 : ℤ) : ℚ) := by
    rw [Int.cast_mul]
    exact mul_le_mul_of_nonneg_right (h.value_le x hx) (by norm_num)
  have hround : roundHalfEven (|py.value x| * 10 ^ 4) ≤ maxDouble * 10 ^ 4 :=
    (roundHalfEven_mono hscaled).trans_eq (roundHalfEven_intCast _)
  have hpos : (0 : ℤ) ≤ maxDouble := by
    exact_mod_cast (abs_nonneg (py.value x)).trans (h.value_le x hx)
  have hn : (n : ℤ) ≤ maxDouble * 10 ^ 4 := by
    have htoNat : (n : ℤ) = max (roundHalfEven (|py.value x| * 10 ^ 4)) 0 := Int.toNat_eq_max _
    rw [htoNat]
    exact max_le hround (mul_nonneg hpos (by norm_num))
  have hq : (n / 10 ^ 4 : ℚ) ≤ maxDouble := by
    rw [div_le_iff₀ (by norm_num)]
    exact_mod_cast hn
  have hnonneg : (0 : ℚ) ≤ n / 10 ^ 4 := by positivity
  have hdecimal : decimal (String.ofList (fixed4 py x)).toList =
      some (if py.negative x then -(n / 10 ^ 4 : ℚ) else n / 10 ^ 4) := by
    rw [String.toList_ofList]
    exact Decimal.decimal_fixed (by decide) (py.negative x) n
  refine h.float_of_decimal _ _ hdecimal ?_
  split_ifs
  · rwa [abs_neg, abs_of_nonneg hnonneg]
  · rwa [abs_of_nonneg hnonneg]

theorem notMem_fixed4 {c : Char} (hdigit : c.isDigit = false) (hpoint : c ≠ '.') (hminus : c ≠ '-') (x : F) :
    c ∉ fixed4 py x := Decimal.notMem_fixed hdigit hpoint hminus 4 _ _

theorem loadPoint_dumpPoint (h : Documented py) {p : F × F} (hx : py.isfinite p.1 = true)
    (hy : py.isfinite p.2 = true) :
    ∃ q, loadPoint py (dumpPoint py p) = some q ∧ py.isfinite q.1 = true ∧ py.isfinite q.2 = true := by
  obtain ⟨a, ha, hafin⟩ := fixed4_denotes h hx
  obtain ⟨b, hb, hbfin⟩ := fixed4_denotes h hy
  have hparts : (dumpPoint py p).splitOn ',' = [fixed4 py p.1, fixed4 py p.2] := by
    have hjoin : dumpPoint py p = [','].intercalate [fixed4 py p.1, fixed4 py p.2] := by
      rw [List.intercalate_cons_cons, List.intercalate_singleton, List.append_assoc]
      rfl
    rw [hjoin]
    refine List.splitOn_intercalate ',' (fun l hl => ?_) (List.cons_ne_nil _ _)
    rcases List.mem_cons.mp hl with rfl | hl
    · exact notMem_fixed4 rfl (by decide) (by decide) p.1
    · exact List.mem_singleton.mp hl ▸ notMem_fixed4 rfl (by decide) (by decide) p.2
  refine ⟨(a, b), ?_, hafin, hbfin⟩
  rw [loadPoint, hparts]
  simp only [ha, hb]
  rfl

/-- As many points come back as were stored. -/
theorem loadPolygon_dumpPolygon (h : Documented py) {poly : Polygon F}
    (hpoly : ∀ p ∈ poly, py.isfinite p.1 = true ∧ py.isfinite p.2 = true) (hne : poly ≠ []) :
    (loadPolygon py (dumpPolygon py poly)).length = poly.length ∧
      ∀ p ∈ loadPolygon py (dumpPolygon py poly), py.isfinite p.1 = true ∧ py.isfinite p.2 = true := by
  have hparts : (dumpPolygon py poly).toList.splitOn ';' = poly.map (dumpPoint py) := by
    rw [dumpPolygon, String.toList_ofList]
    refine List.splitOn_intercalate ';' (fun l hl => ?_) (List.map_eq_nil_iff.not.mpr hne)
    obtain ⟨p, -, rfl⟩ := List.mem_map.mp hl
    intro hmem
    rcases List.mem_append.mp hmem with hmem | hmem
    · exact notMem_fixed4 rfl (by decide) (by decide) p.1 hmem
    · rcases List.mem_cons.mp hmem with hcomma | hmem
      · cases hcomma
      · exact notMem_fixed4 rfl (by decide) (by decide) p.2 hmem
  have hfilter : (poly.map (dumpPoint py)).filter (· ≠ []) = poly.map (dumpPoint py) := by
    refine List.filter_eq_self.mpr fun l hl => ?_
    obtain ⟨p, -, rfl⟩ := List.mem_map.mp hl
    simp [dumpPoint]
  rw [loadPolygon, hparts, hfilter]
  clear hparts hfilter hne
  induction poly with
  | nil => exact ⟨rfl, fun _ hp => (by cases hp)⟩
  | cons p poly ih =>
    obtain ⟨hp, hpoly⟩ := List.forall_mem_cons.mp hpoly
    obtain ⟨q, hq, hqfin⟩ := loadPoint_dumpPoint h hp.1 hp.2
    obtain ⟨hlen, hall⟩ := ih hpoly
    rw [List.map_cons, List.filterMap_cons_some hq]
    exact ⟨congrArg (· + 1) hlen, List.forall_mem_cons.mpr ⟨hqfin, hall⟩⟩

/-! ## Numbers -/

variable {v : Json F}

theorem finite_of_fine (h : Fine py v) : finite py v = .ok true := by
  obtain ⟨x, hx, hfin⟩ := h
  rw [finite, hx]
  exact congrArg Except.ok hfin

theorem floatOf_of_huge (h : Huge v) :
    floatOf py.toPython py.floatOfStr v = .error (.raised .overflowError) := by
  obtain ⟨n, rfl, hn⟩ := h
  rw [floatOf, HouseMap.widen, if_neg (Bool.eq_false_iff.mp hn)]

theorem finite_of_huge (h : Huge v) : finite py v = .error (.python (.raised .overflowError)) := by
  rw [finite, floatOf_of_huge h]

theorem not_huge_of_fine (h : Fine py v) : ¬ Huge v := by
  intro hhuge
  obtain ⟨x, hx, -⟩ := h
  cases (floatOf_of_huge hhuge).symm.trans hx

theorem not_huge_null : ¬ Huge (.null : Json F) := fun ⟨_, h, _⟩ => (by cases h)

/-- What has no finite double and is not huge is no number for the store. -/
theorem finite_of_bad (h : ¬ Fine py v) (hhuge : ¬ Huge v) : finite py v = .ok false := by
  have hvalue : ∀ x, floatOf py.toPython py.floatOfStr v = .ok x → py.isfinite x = false := fun x hx =>
    Bool.eq_false_iff.mpr fun hfin => h ⟨x, hx, hfin⟩
  have hfloat : ∀ x, floatOf py.toPython py.floatOfStr v = .ok x → finite py v = .ok false := fun x hx => by
    rw [finite, hx]
    exact congrArg Except.ok (hvalue x hx)
  cases v with
  | null => rfl
  | bool b =>
    have hfits : fits (if b then 1 else 0) = true := by cases b <;> decide +kernel
    have hbool : floatOf py.toPython py.floatOfStr (.bool b) = .ok (py.ofInt (if b then 1 else 0)) := by
      rw [floatOf, HouseMap.widen, if_pos hfits]
    exact hfloat _ hbool
  | int n =>
    have hfits : fits n = true := by
      by_contra hn
      exact hhuge ⟨n, rfl, Bool.eq_false_iff.mpr hn⟩
    have hint : floatOf py.toPython py.floatOfStr (.int n) = .ok (py.ofInt n) := by
      rw [floatOf, HouseMap.widen, if_pos hfits]
    exact hfloat _ hint
  | float x => exact hfloat x rfl
  | str s =>
    cases hparse : py.floatOfStr s with
    | none => simp only [finite, floatOf, hparse]
    | some x =>
      have hstr : floatOf py.toPython py.floatOfStr (.str s) = .ok x := by simp only [floatOf, hparse]
      exact hfloat x hstr
  | arr items => rfl
  | obj fields => rfl

theorem finite_eq_true : finite py v = .ok true ↔ Fine py v := by
  refine ⟨fun h => ?_, finite_of_fine⟩
  by_contra hbad
  by_cases hhuge : Huge v
  · cases (finite_of_huge hhuge).symm.trans h
  · cases (finite_of_bad hbad hhuge).symm.trans h

theorem toFloat_of_fine (h : Fine py v) : ∃ x, toFloat py v = .ok x ∧ py.isfinite x = true := by
  obtain ⟨x, hx, hfin⟩ := h
  refine ⟨x, ?_, hfin⟩
  rw [toFloat, hx]
  rfl

theorem allFinite_pair (a b : Json F) : allFinite py [a, b] =
    finite py a >>= fun fa => if fa then finite py b >>= fun fb => .ok fb else .ok false := by
  simp only [allFinite]
  congr 1
  funext fa
  cases fa with
  | false => rfl
  | true =>
    simp only [if_true]
    congr 1
    funext fb
    cases fb <;> rfl

theorem require_eq_ok {c : Bool} {text : String} : require c text = .ok () ↔ c = true := by
  cases c with
  | true => exact iff_of_true rfl rfl
  | false => exact iff_of_false (fun h => (by cases h)) Bool.false_ne_true

/-! ## A point -/

theorem require_false (text : String) : require false text = .error (.anchorError text) := rfl

theorem require_true (text : String) : require true text = .ok () := rfl

theorem optionalZ_of_ne_null {z : Json F} (hz : z ≠ .null) : optionalZ py z = finite py z >>= fun fine =>
    require fine "z must be a finite number of metres" >>= fun _ => toFloat py z >>= fun z => .ok (some z) := by
  cases z with
  | null => exact absurd rfl hz
  | _ => rfl

theorem optionalZ_eq_ok {z : Json F} {o : Option F} (h : optionalZ py z = .ok o) :
    (z = .null ∨ Fine py z) ∧ ∀ v, o = some v → py.isfinite v = true := by
  by_cases hz : z = .null
  · subst hz
    cases h
    exact ⟨.inl rfl, fun _ hv => (by cases hv)⟩
  · rw [optionalZ_of_ne_null hz, bind_eq_ok] at h
    obtain ⟨fine, hfine, h⟩ := h
    rw [unit_bind_eq_ok, require_eq_ok] at h
    obtain ⟨rfl, h⟩ := h
    have hz' := finite_eq_true.mp hfine
    obtain ⟨x, hx, hfin⟩ := toFloat_of_fine hz'
    rw [hx] at h
    cases h
    refine ⟨.inr hz', ?_⟩
    rintro v ⟨⟩
    exact hfin

theorem optionalZ_of_bad {z : Json F} (hnull : z ≠ .null) (hz : ¬ Fine py z) :
    ∃ e, optionalZ py z = .error e ∧ (IsAnchorError e ↔ ¬ Huge z) := by
  rw [optionalZ_of_ne_null hnull]
  by_cases hhuge : Huge z
  · refine ⟨_, by rw [finite_of_huge hhuge, error_bind], ?_⟩
    exact iff_of_false (fun ⟨_, h⟩ => (by cases h)) (not_not.mpr hhuge)
  · refine ⟨_, by rw [finite_of_bad hz hhuge, ok_bind, require_false, error_bind], ?_⟩
    exact iff_of_true ⟨_, rfl⟩ hhuge

theorem allFinite_eq_true {a b : Json F} : allFinite py [a, b] = .ok true ↔ Fine py a ∧ Fine py b := by
  rw [allFinite_pair, bind_eq_ok, ← finite_eq_true, ← finite_eq_true]
  constructor
  · rintro ⟨fa, ha, h⟩
    cases fa with
    | false => cases h
    | true =>
      rw [if_pos rfl, bind_eq_ok] at h
      obtain ⟨fb, hb, h⟩ := h
      cases h
      exact ⟨ha, hb⟩
  · rintro ⟨ha, hb⟩
    refine ⟨true, ha, ?_⟩
    rw [if_pos rfl, hb]
    rfl

/-- Two coordinates that are not both fine are found out, unless a huge one is come to. -/
theorem allFinite_of_bad {a b : Json F} (h : ¬ (Fine py a ∧ Fine py b)) :
    (¬ Huge a ∧ (Fine py a → ¬ Huge b)) ∧ allFinite py [a, b] = .ok false ∨
      ¬ (¬ Huge a ∧ (Fine py a → ¬ Huge b)) ∧
        allFinite py [a, b] = .error (.python (.raised .overflowError)) := by
  rw [allFinite_pair]
  by_cases ha : Fine py a
  · have hb : ¬ Fine py b := fun hb => h ⟨ha, hb⟩
    rw [finite_of_fine ha, ok_bind, if_pos rfl]
    by_cases hhuge : Huge b
    · refine .inr ⟨fun hclear => hclear.2 ha hhuge, ?_⟩
      rw [finite_of_huge hhuge, error_bind]
    · refine .inl ⟨⟨not_huge_of_fine ha, fun _ => hhuge⟩, ?_⟩
      rw [finite_of_bad hb hhuge, ok_bind]
  · by_cases hhuge : Huge a
    · refine .inr ⟨fun hclear => hclear.1 hhuge, ?_⟩
      rw [finite_of_huge hhuge, error_bind]
    · refine .inl ⟨⟨hhuge, fun hfine => absurd hfine ha⟩, ?_⟩
      rw [finite_of_bad ha hhuge, ok_bind, if_neg Bool.false_ne_true]

theorem pointGeometry_eq_ok {x y z : Json F} {room : Option (List (Number F × Number F))} {text : String}
    {g : Geometry F} (h : pointGeometry py x y z room text = .ok g) :
    (Fine py x ∧ Fine py y) ∧ (z = .null ∨ Fine py z) ∧ ShapeOk py .point g.x g.y g.z g.polygon := by
  rw [pointGeometry, bind_eq_ok] at h
  obtain ⟨fine, hfine, h⟩ := h
  rw [unit_bind_eq_ok, require_eq_ok] at h
  obtain ⟨rfl, h⟩ := h
  obtain ⟨hx, hy⟩ := allFinite_eq_true.mp hfine
  obtain ⟨x', hx', hxfin⟩ := toFloat_of_fine hx
  obtain ⟨y', hy', hyfin⟩ := toFloat_of_fine hy
  rw [hx', ok_bind, hy', ok_bind, bind_eq_ok] at h
  obtain ⟨z', hz, h⟩ := h
  obtain ⟨hz, hzfin⟩ := optionalZ_eq_ok hz
  rw [unit_bind_eq_ok] at h
  obtain ⟨-, ⟨⟩⟩ := h
  exact ⟨⟨hx, hy⟩, hz, ⟨x', rfl, hxfin⟩, ⟨y', rfl, hyfin⟩, hzfin, rfl⟩

/-- Bad coordinates are refused, and with the store's own error where they are not huge. -/
theorem pointGeometry_of_bad {x y z : Json F} (h : BadPoint py x y z)
    (room : Option (List (Number F × Number F))) (text : String) :
    ∃ e, pointGeometry py x y z room text = .error e ∧ (IsAnchorError e ↔ PointClear py x y z) := by
  by_cases hxy : Fine py x ∧ Fine py y
  · obtain ⟨hx, hy⟩ := hxy
    obtain ⟨hnull, hz⟩ := (h.resolve_left (not_not.mpr hx)).resolve_left (not_not.mpr hy)
    obtain ⟨x', hx', -⟩ := toFloat_of_fine hx
    obtain ⟨y', hy', -⟩ := toFloat_of_fine hy
    obtain ⟨e, he, hanchor⟩ := optionalZ_of_bad hnull hz
    refine ⟨e, ?_, hanchor.trans ⟨fun hhuge => ⟨not_huge_of_fine hx, fun _ => not_huge_of_fine hy,
      fun _ _ => hhuge⟩,
      fun hclear => hclear.2.2 hx hy⟩⟩
    rw [pointGeometry, allFinite_eq_true.mpr ⟨hx, hy⟩, ok_bind, require_true, ok_bind, hx', ok_bind, hy',
      ok_bind, he,
      error_bind]
  · rcases allFinite_of_bad hxy with ⟨⟨hx, hy⟩, hall⟩ | ⟨hhuge, hall⟩
    · refine ⟨_, by rw [pointGeometry, hall, ok_bind, require_false, error_bind], ?_⟩
      exact iff_of_true ⟨text, rfl⟩ ⟨hx, hy, fun hfx hfy => absurd ⟨hfx, hfy⟩ hxy⟩
    · refine ⟨_, by rw [pointGeometry, hall, error_bind], ?_⟩
      exact iff_of_false (fun ⟨_, h⟩ => (by cases h)) fun hclear => hhuge ⟨hclear.1, hclear.2.1⟩

theorem pointClear_of_good {x y z : Json F} (h : ¬ BadPoint py x y z) : PointClear py x y z := by
  simp only [BadPoint, not_or, not_not, not_and_or] at h
  obtain ⟨hx, hy, hz⟩ := h
  refine ⟨not_huge_of_fine hx, fun _ => not_huge_of_fine hy, fun _ _ => ?_⟩
  rcases hz with rfl | hz
  · exact not_huge_null
  · exact not_huge_of_fine hz

/-! ## A polygon -/

theorem checkPoint_eq_ok {p : Json F} : checkPoint py p = .ok () ↔ FinePoint py p := by
  unfold checkPoint
  split
  · rename_i a b
    rw [bind_eq_ok]
    constructor
    · rintro ⟨fine, hfine, h⟩
      rw [require_eq_ok.mp h, allFinite_eq_true] at hfine
      exact ⟨a, b, rfl, hfine⟩
    · rintro ⟨a', b', heq, hfine⟩
      obtain ⟨rfl, htail⟩ := List.cons_eq_cons.mp (Json.arr.inj heq)
      obtain ⟨rfl, -⟩ := List.cons_eq_cons.mp htail
      exact ⟨true, allFinite_eq_true.mpr hfine, rfl⟩
  · rename_i hother
    refine iff_of_false (fun h => (by cases h)) ?_
    rintro ⟨a, b, rfl, -⟩
    exact hother a b rfl

theorem clean_checkPoint {p : Json F} : Clean IsAnchorError (checkPoint py p) ↔
    ∀ a b, p = .arr [a, b] → ¬ Huge a ∧ (Fine py a → ¬ Huge b) := by
  unfold checkPoint
  split
  · rename_i a b
    have hpair : (∀ a' b', Json.arr [a, b] = .arr [a', b'] → ¬ Huge a' ∧ (Fine py a' → ¬ Huge b')) ↔
        ¬ Huge a ∧ (Fine py a → ¬ Huge b) := by
      refine ⟨fun h => h a b rfl, fun h a' b' heq => ?_⟩
      obtain ⟨rfl, htail⟩ := List.cons_eq_cons.mp (Json.arr.inj heq)
      obtain ⟨rfl, -⟩ := List.cons_eq_cons.mp htail
      exact h
    rw [hpair]
    by_cases hfine : Fine py a ∧ Fine py b
    · rw [allFinite_eq_true.mpr hfine, ok_bind, require_true]
      exact iff_of_true (clean_ok ()) ⟨not_huge_of_fine hfine.1, fun _ => not_huge_of_fine hfine.2⟩
    · rcases allFinite_of_bad hfine with ⟨hclear, hall⟩ | ⟨hhuge, hall⟩
      · rw [hall, ok_bind, require_false]
        exact iff_of_true (clean_error.mpr ⟨_, rfl⟩) hclear
      · rw [hall, error_bind, clean_error]
        exact iff_of_false (fun ⟨_, h⟩ => (by cases h)) hhuge
  · rename_i hother
    exact iff_of_true (clean_error.mpr ⟨_, rfl⟩) fun a b heq => absurd heq (hother a b)

/-- The checks on the points, in front of whatever follows. -/
theorem checkPoints_of_bad {pts : List (Json F)} (h : pts.length < 3 ∨ ∃ p ∈ pts, ¬ FinePoint py p)
    {few many : String} {k : Unit → Except Fault (Geometry F)} :
    ∃ e, (require (3 ≤ pts.length) few >>= fun _ => require (pts.length ≤ MAX_POLYGON) many >>= fun _ =>
      pts.forM (checkPoint py) >>= k) = .error e ∧ (IsAnchorError e ↔ PointsClear py pts) := by
  by_cases hmin : 3 ≤ pts.length
  · rw [decide_eq_true hmin, require_true, ok_bind]
    by_cases hmax : pts.length ≤ MAX_POLYGON
    · rw [decide_eq_true hmax, require_true, ok_bind]
      obtain ⟨p, hp, hbad⟩ := h.resolve_left (Nat.not_lt.mpr hmin)
      have hclean : Clean IsAnchorError (pts.forM (checkPoint py)) ↔ PointsClear py pts := by
        simp only [clean_forM, clean_checkPoint, checkPoint_eq_ok, PointsClear, hmin, hmax, true_imp_iff]
        constructor
        · exact fun h pre a b post heq hpre => h pre _ post heq hpre a b rfl
        · rintro h pre _ post heq hpre a b rfl
          exact h pre a b post heq hpre
      cases hforM : pts.forM (checkPoint py) with
      | ok u => exact absurd (checkPoint_eq_ok.mp (forM_eq_ok.mp hforM p hp)) hbad
      | error e =>
        rw [hforM, clean_error] at hclean
        exact ⟨e, rfl, hclean⟩
    · rw [decide_eq_false hmax, require_false, error_bind]
      exact ⟨_, rfl, iff_of_true ⟨_, rfl⟩ fun _ hle => absurd hle hmax⟩
  · rw [decide_eq_false hmin, require_false, error_bind]
    exact ⟨_, rfl, iff_of_true ⟨_, rfl⟩ fun hle => absurd hle hmin⟩

/-- What comes out of `list(polygon or ())`. -/
theorem pointsOf_cases (polygon : Json F) :
    Uniterable py polygon ∧ pointsOf py polygon = .error (.python (.raised .typeError)) ∨
      ¬ Uniterable py polygon ∧ ∃ pts, pointsOf py polygon = .ok pts ∧
        (polygon = .arr pts ∨ (∀ ps, polygon ≠ .arr ps) ∧ ∀ p ∈ pts, ∀ items, p ≠ .arr items) := by
  unfold pointsOf
  -- what is falsy turns into `()`, text and objects iterate over strings, numbers and `True` raise
  cases polygon with
  | null => exact .inr ⟨id, [], rfl, .inr ⟨fun _ h => (by cases h), fun _ hp => (by cases hp)⟩⟩
  | bool b =>
    cases b with
    | true => exact .inl ⟨rfl, rfl⟩
    | false =>
      exact .inr ⟨Bool.false_ne_true, [], rfl, .inr ⟨fun _ h => (by cases h), fun _ hp => (by cases hp)⟩⟩
  | int n =>
    by_cases hn : n = 0
    · subst hn
      exact .inr ⟨fun h => h rfl, [], rfl, .inr ⟨fun _ h => (by cases h), fun _ hp => (by cases hp)⟩⟩
    · refine .inl ⟨hn, ?_⟩
      rw [HouseMap.truthy, if_pos (by simpa using hn)]
      rfl
  | float x =>
    cases hx : py.isZero x with
    | false =>
      refine .inl ⟨hx, ?_⟩
      rw [HouseMap.truthy, if_pos (by simpa using hx)]
      rfl
    | true =>
      refine .inr ⟨?_, [], ?_, .inr ⟨fun _ h => (by cases h), fun _ hp => (by cases hp)⟩⟩
      · rw [Uniterable, hx]
        exact Bool.noConfusion
      · rw [HouseMap.truthy, if_neg (by simpa using hx)]
  | str s =>
    refine .inr ⟨id, ?_⟩
    by_cases hs : s = ""
    · exact ⟨[], by rw [HouseMap.truthy, if_neg (by simpa using hs)],
        .inr ⟨fun _ h => (by cases h), fun _ hp => (by cases hp)⟩⟩
    · refine ⟨s.toList.map fun c => .str (String.singleton c), ?_,
        .inr ⟨fun _ h => (by cases h), fun p hp items => ?_⟩⟩
      · rw [HouseMap.truthy, if_pos (by simpa using hs)]
        rfl
      · obtain ⟨c, -, rfl⟩ := List.mem_map.mp hp
        exact fun h => (by cases h)
  | arr items =>
    refine .inr ⟨id, items, ?_, .inl rfl⟩
    cases items <;> rfl
  | obj fields =>
    refine .inr ⟨id, ?_⟩
    cases fields with
    | nil => exact ⟨[], rfl, .inr ⟨fun _ h => (by cases h), fun _ hp => (by cases hp)⟩⟩
    | cons e fields =>
      refine ⟨(e :: fields).map fun e => .str e.1, rfl, .inr ⟨fun _ h => (by cases h), fun p hp items => ?_⟩⟩
      obtain ⟨e, -, rfl⟩ := List.mem_map.mp hp
      exact fun h => (by cases h)

theorem areaGeometry_of_bad {polygon : Json F} (h : BadPolygon py polygon)
    (room : Option (List (Number F × Number F))) :
    ∃ e, areaGeometry py polygon room = .error e ∧ (IsAnchorError e ↔ PolygonClear py polygon) := by
  unfold areaGeometry
  rcases @pointsOf_cases F py polygon with ⟨hun, hpts⟩ | ⟨hun, pts, hpts, hshape⟩
  · rw [hpts, error_bind]
    exact ⟨_, rfl, iff_of_false (fun ⟨_, h⟩ => (by cases h)) fun hclear => hclear.1 hun⟩
  · rw [hpts, ok_bind]
    rcases hshape with rfl | ⟨hnot, hitems⟩
    · obtain ⟨p, hp, hbad⟩ := h pts rfl
      obtain ⟨e, he, hanchor⟩ := checkPoints_of_bad (.inr ⟨p, hp, hbad⟩)
      refine ⟨e, he, hanchor.trans ⟨fun hclear => ⟨hun, fun ps heq => Json.arr.inj heq ▸ hclear⟩,
        fun hclear => hclear.2 pts rfl⟩⟩
    · have hbad : pts.length < 3 ∨ ∃ p ∈ pts, ¬ FinePoint py p := by
        cases pts with
        | nil => exact .inl (Nat.zero_lt_succ 2)
        | cons p pts =>
          refine .inr ⟨p, List.mem_cons_self, ?_⟩
          rintro ⟨a, b, heq, -⟩
          exact hitems p List.mem_cons_self _ heq
      obtain ⟨e, he, hanchor⟩ := checkPoints_of_bad hbad
      refine ⟨e, he, hanchor.trans (iff_of_true ?_ ⟨hun, fun ps heq => absurd heq (hnot ps)⟩)⟩
      intro _ _ pre a b post heq
      exact absurd rfl (hitems (.arr [a, b]) (heq ▸ List.mem_append_right pre List.mem_cons_self) _)

theorem polygonClear_of_good {polygon : Json F} (h : ¬ BadPolygon py polygon) : PolygonClear py polygon := by
  simp only [BadPolygon, not_forall, not_exists, not_and, not_not] at h
  obtain ⟨ps, rfl, hfine⟩ := h
  refine ⟨id, fun ps' heq _ _ pre a b post hsplit _ => ?_⟩
  obtain rfl := Json.arr.inj heq
  obtain ⟨a', b', hab, ha, hb⟩ := hfine (.arr [a, b]) (hsplit ▸ List.mem_append_right pre List.mem_cons_self)
  obtain ⟨rfl, htail⟩ := List.cons_eq_cons.mp (Json.arr.inj hab)
  obtain ⟨rfl, -⟩ := List.cons_eq_cons.mp htail
  exact ⟨not_huge_of_fine ha, fun _ => not_huge_of_fine hb⟩

theorem mapM_toPair {pts : List (Json F)} (h : ∀ p ∈ pts, FinePoint py p) :
    ∃ poly, pts.mapM (toPair py) = .ok poly ∧
    poly.length = pts.length ∧ ∀ p ∈ poly, py.isfinite p.1 = true ∧ py.isfinite p.2 = true := by
  induction pts with
  | nil => exact ⟨[], rfl, rfl, fun _ hp => (by cases hp)⟩
  | cons p pts ih =>
    obtain ⟨⟨a, b, rfl, ha, hb⟩, hpts⟩ := List.forall_mem_cons.mp h
    obtain ⟨a', ha', hafin⟩ := toFloat_of_fine ha
    obtain ⟨b', hb', hbfin⟩ := toFloat_of_fine hb
    obtain ⟨poly, hpoly, hlen, hall⟩ := ih hpts
    have hpair : toPair py (.arr [a, b]) = .ok (a', b') := by
      rw [toPair, ha', ok_bind, hb']
      rfl
    refine ⟨(a', b') :: poly, ?_, congrArg (· + 1) hlen, List.forall_mem_cons.mpr ⟨⟨hafin, hbfin⟩, hall⟩⟩
    rw [List.mapM_cons, hpair, ok_bind, hpoly]
    rfl

theorem areaGeometry_eq_ok {polygon : Json F} {room : Option (List (Number F × Number F))} {g : Geometry F}
    (h : areaGeometry py polygon room = .ok g) : ShapeOk py .area g.x g.y g.z g.polygon := by
  rw [areaGeometry, bind_eq_ok] at h
  obtain ⟨pts, -, h⟩ := h
  rw [unit_bind_eq_ok, unit_bind_eq_ok, unit_bind_eq_ok, require_eq_ok, decide_eq_true_iff, forM_eq_ok] at h
  obtain ⟨hmin, -, hfine, h⟩ := h
  obtain ⟨poly, hpoly, hlen, hall⟩ := mapM_toPair fun p hp => checkPoint_eq_ok.mp (hfine p hp)
  rw [hpoly, ok_bind, unit_bind_eq_ok] at h
  obtain ⟨-, ⟨⟩⟩ := h
  exact ⟨rfl, rfl, rfl, hlen ▸ hmin, hall⟩


/-! ## One call -/

theorem clean_cases (text what : String) (limit : ℕ) :
    (∃ s, clean text what limit = .ok s) ∨ ∃ t, clean text what limit = .error (.anchorError t) := by
  unfold clean
  dsimp only
  cases decide (Text.collapse text ≠ "") with
  | false => exact .inr ⟨_, rfl⟩
  | true =>
    cases decide ((Text.collapse text).length ≤ limit) with
    | false => exact .inr ⟨_, rfl⟩
    | true => exact .inl ⟨_, rfl⟩

theorem check_of_bad {args : Args F} (h : args.kind = "point" ∧ BadPoint py args.x args.y args.z ∨
    args.kind = "area" ∧ BadPolygon py args.polygon) :
    ∃ e, check py args = .error e ∧ (IsAnchorError e ↔ (NamesPass args →
      (args.kind = "point" → PointClear py args.x args.y args.z) ∧
        (args.kind = "area" → PolygonClear py args.polygon))) := by
  rcases clean_cases args.name "anchor name" MAX_NAME with ⟨name, hname⟩ | ⟨t, hname⟩
  · rcases clean_cases args.room "room" MAX_NAME with ⟨room, hroom⟩ | ⟨t, hroom⟩
    · have hpass : NamesPass args := ⟨⟨name, hname⟩, room, hroom⟩
      rw [check, hname, ok_bind, hroom, ok_bind]
      rcases h with ⟨hkind, hbad⟩ | ⟨hkind, hbad⟩
      · obtain ⟨e, he, hanchor⟩ := pointGeometry_of_bad hbad args.roomPolygon
          "a point anchor needs finite x and y in metres"
        have hk : kindOf args.kind = .ok .point := hkind ▸ rfl
        refine ⟨e, ?_, hanchor.trans ⟨fun hclear _ => ⟨fun _ => hclear, fun harea => ?_⟩,
          fun hclear => (hclear hpass).1 hkind⟩⟩
        · rw [hk, ok_bind, geometry, he, error_bind]
        · exact absurd (hkind.symm.trans harea) (by decide)
      · obtain ⟨e, he, hanchor⟩ := areaGeometry_of_bad hbad args.roomPolygon
        have hk : kindOf args.kind = .ok .area := hkind ▸ rfl
        refine ⟨e, ?_, hanchor.trans ⟨fun hclear _ => ⟨fun hpoint => ?_, fun _ => hclear⟩,
          fun hclear => (hclear hpass).2 hkind⟩⟩
        · rw [hk, ok_bind, geometry, he, error_bind]
        · exact absurd (hkind.symm.trans hpoint) (by decide)
    · refine ⟨_, by rw [check, hname, ok_bind, hroom, error_bind], iff_of_true ⟨t, rfl⟩ fun hpass => ?_⟩
      obtain ⟨-, room, hok⟩ := hpass
      cases hroom.symm.trans hok
  · refine ⟨_, by rw [check, hname, error_bind], iff_of_true ⟨t, rfl⟩ fun hpass => ?_⟩
    obtain ⟨⟨name, hok⟩, -⟩ := hpass
    cases hname.symm.trans hok

theorem check_eq_ok {args : Args F} {c : Checked F} (h : check py args = .ok c) :
    ShapeOk py c.kind c.geometry.x c.geometry.y c.geometry.z c.geometry.polygon := by
  rw [check, bind_eq_ok] at h
  obtain ⟨name, -, h⟩ := h
  rw [bind_eq_ok] at h
  obtain ⟨room, -, h⟩ := h
  rw [bind_eq_ok] at h
  obtain ⟨kind, -, h⟩ := h
  rw [bind_eq_ok] at h
  obtain ⟨g, hg, ⟨⟩⟩ := h
  cases kind with
  | logical =>
    cases hg
    exact ⟨rfl, rfl, rfl, rfl⟩
  | point => exact (pointGeometry_eq_ok hg).2.2
  | area => exact areaGeometry_eq_ok hg

theorem refused_iff_clear {s : Store F} {c : Call F} (h : BadCoordinates py c) :
    ((∃ e, (call py s c).1 = .error e ∧ IsAnchorError e) ∧ step py s c = s) ↔ Clear py s c := by
  cases c with
  | create hex ts args =>
    obtain ⟨e, he, hanchor⟩ := check_of_bad h
    have hcreate : create py s hex ts args = (.error e, s) := by rw [create, he]
    simp only [call, step, hcreate, Clear]
    rw [← hanchor]
    constructor
    · rintro ⟨⟨_, ⟨⟩, he'⟩, -⟩
      exact he'
    · exact fun he' => ⟨⟨e, rfl, he'⟩, trivial⟩
  | place ts anchorId x y z room =>
    obtain ⟨e, he, hanchor⟩ := pointGeometry_of_bad h room "x and y must be finite metres"
    cases hrow : s.anchors.get? anchorId with
    | none =>
      have hplace : place py s ts anchorId x y z room = (.error (.anchorError "no such anchor"), s) := by
        rw [place, get, hrow]
        rfl
      simp only [call, step, hplace, Clear, hrow]
      exact iff_of_true ⟨⟨_, rfl, _, rfl⟩, trivial⟩ fun hsome => absurd hsome Bool.false_ne_true
    | some row =>
      have hplace : place py s ts anchorId x y z room = (.error e, s) := by
        rw [place, get, hrow, he]
        rfl
      simp only [call, step, hplace, Clear, hrow]
      rw [← hanchor]
      constructor
      · rintro ⟨⟨_, ⟨⟩, he'⟩, -⟩
        exact fun _ => he'
      · exact fun he' => ⟨⟨e, rfl, he' rfl⟩, trivial⟩
  | _ => exact h.elim

theorem clear_of_good {s : Store F} {c : Call F} (h : ¬ BadCoordinates py c) : Clear py s c := by
  cases c with
  | create hex ts args =>
    intro _
    refine ⟨fun hkind => pointClear_of_good fun hbad => h (.inl ⟨hkind, hbad⟩), fun hkind => ?_⟩
    exact polygonClear_of_good fun hbad => h (.inr ⟨hkind, hbad⟩)
  | place ts anchorId x y z room => exact fun _ => pointClear_of_good h
  | _ => trivial

/-! ## What is stored -/

theorem loadPolygon_dumpPolygon_nil : loadPolygon py (dumpPolygon py []) = [] := rfl

theorem shapeOk_stored (h : Documented py) {kind : Kind} {x y z : Option F} {poly : Polygon F}
    (hshape : ShapeOk py kind x y z poly) : ShapeOk py kind x y z (loadPolygon py (dumpPolygon py poly)) := by
  cases kind with
  | logical =>
    obtain ⟨hx, hy, hz, rfl⟩ := hshape
    exact ⟨hx, hy, hz, loadPolygon_dumpPolygon_nil⟩
  | point =>
    obtain ⟨hx, hy, hz, rfl⟩ := hshape
    exact ⟨hx, hy, hz, loadPolygon_dumpPolygon_nil⟩
  | area =>
    obtain ⟨hx, hy, hz, hlen, hall⟩ := hshape
    have hne : poly ≠ [] := List.ne_nil_of_length_pos (Nat.lt_of_lt_of_le (Nat.zero_lt_succ 2) hlen)
    obtain ⟨hlen', hall'⟩ := loadPolygon_dumpPolygon h hall hne
    exact ⟨hx, hy, hz, hlen'.symm ▸ hlen, hall'⟩

/-- What `P` says, of every row. -/
def Rows (P : Row F → Prop) (s : Store F) : Prop := ∀ anchorId row, s.anchors.get? anchorId = some row → P row

/-- What is asked of `P`: it holds of a new row, and the calls that write a row keep it. -/
structure Kept (py : Interpreter F) (P : Row F → Prop) : Prop where
  created : ∀ args c ts, check py args = .ok c → isInt64 args.level = true →
    P ⟨c.name, c.room, args.level, c.kind, c.geometry.x, c.geometry.y, c.geometry.z,
      dumpPolygon py c.geometry.polygon,
      c.note, ts, ts⟩
  renamed : ∀ row text name ts, clean text "anchor name" MAX_NAME = .ok name → P row →
    P { row with name, updatedTs := ts }
  moved : ∀ row text room level ts, clean text "room" MAX_NAME = .ok room → isInt64 level = true → P row →
    P { row with room, level, kind := .logical, x := none, y := none, z := none, polygon := "", updatedTs := ts }
  placed : ∀ row x y z room g ts, pointGeometry py x y z room "x and y must be finite metres" = .ok g → P row →
    P { row with kind := .point, x := g.x, y := g.y, z := g.z, polygon := "", updatedTs := ts }

section
variable {P : Row F → Prop}

theorem get?_update (s : Store F) (anchorId : String) (f : Row F → Row F) (k : String) :
    (update s anchorId f).anchors.get? k = (s.anchors.get? k).map fun row => if k = anchorId then f row else row :=
  Dict.get?_map _ _ k

theorem rows_update {s : Store F} (h : Rows P s) (anchorId : String) {f : Row F → Row F}
    (hf : ∀ row, P row → P (f row)) : Rows P (update s anchorId f) := by
  intro k row hrow
  rw [get?_update, Option.map_eq_some_iff] at hrow
  obtain ⟨old, hold, rfl⟩ := hrow
  split_ifs
  · exact hf old (h k old hold)
  · exact h k old hold

theorem rows_create (hP : Kept py P) {s : Store F} (h : Rows P s) (hex ts : String) (args : Args F) :
    Rows P (create py s hex ts args).2 := by
  unfold create
  cases hcheck : check py args with
  | error e => exact h
  | ok c =>
    dsimp only
    split_ifs with hlevel
    · exact h
    · exact h
    · intro k row hrow
      rw [Dict.get?_set] at hrow
      split_ifs at hrow
      · cases hrow
        exact hP.created args c ts hcheck (by simpa using hlevel)
      · exact h k row hrow

theorem rows_rename (hP : Kept py P) {s : Store F} (h : Rows P s) (ts anchorId text : String) :
    Rows P (rename py s ts anchorId text).2 := by
  unfold rename
  cases hclean : clean text "anchor name" MAX_NAME with
  | error e => exact h
  | ok name =>
    have hrow : ∀ row, P row → P { row with name, updatedTs := ts } := fun row =>
      hP.renamed row text name ts hclean
    dsimp only
    split_ifs
    · exact rows_update h anchorId hrow
    · exact rows_update h anchorId hrow

theorem rows_move (hP : Kept py P) {s : Store F} (h : Rows P s) (ts anchorId text : String) (level : Option ℤ) :
    Rows P (move py s ts anchorId text level).2 := by
  unfold move
  cases hclean : clean text "room" MAX_NAME with
  | error e => exact h
  | ok room =>
    cases get py s anchorId with
    | none => exact h
    | some existing =>
      dsimp only
      split_ifs with hlevel
      · exact h
      · exact rows_update h anchorId fun row => hP.moved row text room _ ts hclean (by simpa using hlevel)

theorem rows_place (hP : Kept py P) {s : Store F} (h : Rows P s) (ts anchorId : String) (x y z : Json F)
    (room : Option (List (Number F × Number F))) : Rows P (place py s ts anchorId x y z room).2 := by
  unfold place
  cases get py s anchorId with
  | none => exact h
  | some existing =>
    cases hg : pointGeometry py x y z room "x and y must be finite metres" with
    | error e => exact h
    | ok g => exact rows_update h anchorId fun row => hP.placed row x y z room g ts hg

theorem rows_delete {s : Store F} (h : Rows P s) (anchorId : String) : Rows P (delete s anchorId).2 := by
  intro k row hrow
  rw [delete, Dict.get?_erase] at hrow
  split_ifs at hrow
  exact h k row hrow

theorem rows_bind {s : Store F} (h : Rows P s) (ts anchorId providerId externalId origin : String) :
    Rows P (bind py s ts anchorId providerId externalId origin).2 := by
  unfold bind
  split_ifs
  · exact h
  · dsimp only
    split
    · exact h
    · exact h

theorem rows_step (hP : Kept py P) {s : Store F} (h : Rows P s) (c : Call F) : Rows P (step py s c) := by
  cases c with
  | create hex ts args =>
    rw [step, call]
    exact rows_create hP h hex ts args
  | rename ts anchorId name =>
    rw [step, call]
    exact rows_rename hP h ts anchorId name
  | move ts anchorId room level =>
    rw [step, call]
    exact rows_move hP h ts anchorId room level
  | place ts anchorId x y z room =>
    rw [step, call]
    exact rows_place hP h ts anchorId x y z room
  | delete anchorId =>
    rw [step, call]
    exact rows_delete h anchorId
  | bind ts anchorId providerId externalId origin =>
    rw [step, call]
    exact rows_bind h ts anchorId providerId externalId origin
  | unbind anchorId providerId externalId => exact h

theorem rows_empty : Rows P empty := fun _ _ h => (by cases h)

end

/-- A row has the geometry of its kind, as it is read back. -/
def RowOk (py : Interpreter F) (row : Row F) : Prop := ShapeOk py row.kind row.x row.y row.z (loadPolygon py row.polygon)

theorem kept_rowOk (h : Documented py) : Kept py (RowOk py) where
  created _ _ _ hcheck _ := shapeOk_stored h (check_eq_ok hcheck)
  renamed _ _ _ _ _ hrow := hrow
  moved _ _ _ _ _ _ _ _ := ⟨rfl, rfl, rfl, rfl⟩
  placed _ _ _ _ _ _ _ hg _ := by
    obtain ⟨hx, hy, hz, -⟩ := (pointGeometry_eq_ok hg).2.2
    exact ⟨hx, hy, hz, rfl⟩

theorem honest_iff {s : Store F} : Honest py s ↔ Rows (RowOk py) s := by
  constructor
  · intro h anchorId row hrow
    exact h anchorId (hydrate py s anchorId row) (by rw [get, hrow]; rfl)
  · intro h anchorId a ha
    rw [get, Option.map_eq_some_iff] at ha
    obtain ⟨row, hrow, rfl⟩ := ha
    exact h anchorId row hrow

/-- A move that returns has cleared the geometry. -/
theorem moved_logical (s : Store F) (ts anchorId room : String) (level : Option ℤ)
    (h : (call py s (.move ts anchorId room level)).1 = .ok ()) :
    ∃ a, get py (step py s (.move ts anchorId room level)) anchorId = some a ∧
      ShapeOk py .logical a.x a.y a.z a.polygon := by
  simp only [call, step] at h ⊢
  unfold move at h ⊢
  rcases clean_cases room "room" MAX_NAME with ⟨room', hroom⟩ | ⟨t, hroom⟩
  · rw [hroom] at h ⊢
    dsimp only at h ⊢
    cases hget : get py s anchorId with
    | none =>
      rw [hget] at h
      cases h
    | some existing =>
      rw [hget] at h
      dsimp only at h ⊢
      split_ifs at h ⊢
      · cases h
      · rw [get, Option.map_eq_some_iff] at hget
        obtain ⟨row, hrow, -⟩ := hget
        rw [get, get?_update, hrow, Option.map_some, if_pos rfl]
        exact ⟨_, rfl, rfl, rfl, rfl, rfl⟩
  · rw [hroom] at h
    cases h

theorem callLaw_iff_clear (s : Store F) (c : Call F) : CallLaw py s c ↔ Clear py s c := by
  constructor
  · intro h
    by_cases hbad : BadCoordinates py c
    · exact (refused_iff_clear hbad).mp (h.refused hbad)
    · exact clear_of_good hbad
  · intro hclear
    refine ⟨?_, fun hbad => (refused_iff_clear hbad).mpr hclear⟩
    rintro ts anchorId room level rfl hok
    exact moved_logical s ts anchorId room level hok


/-- What is stored never claims geometry it does not have, and bad coordinates are refused as they should be exactly
where the store comes to no huge integer, nor to a number for a polygon. -/
theorem anchors_honest_iff (h : Documented py) (calls : List (Call F)) :
    Run.AllStates (step py) (Honest py) empty calls ∧ Run.AllSteps (step py) (CallLaw py) empty calls ↔
      Run.AllSteps (step py) (Clear py) empty calls := by
  have hstep : ∀ s c, Rows (RowOk py) s → True → Rows (RowOk py) (step py s c) := fun s c hs _ =>
    rows_step (kept_rowOk h) hs c
  have hstates : Run.AllStates (step py) (Honest py) empty calls :=
    Run.allStates_of_invariant hstep (fun _ => honest_iff.mpr) rows_empty
      (Run.allSteps_of_forall fun _ _ _ => trivial)
  rw [and_iff_right hstates]
  constructor
  · exact Run.allSteps_mono fun s c hlaw => (callLaw_iff_clear s c).mp hlaw
  · exact Run.allSteps_mono fun s c hclear => (callLaw_iff_clear s c).mpr hclear

end

/-! ## A corner that is too far out -/

/-- Doubles that do not round, as far as there are any, and that are written plainly. -/
def plain : Interpreter ℚ where
  toPython := { HouseMap.exact 0 with isfinite := fun x => |x| ≤ maxDouble }
  le x y := x ≤ y
  half := 1 / 2
  minusHalf := -1 / 2
  floatOfStr s := decimal s.toList
  value x := x
  negative x := x < 0
  outside x y w h := s!"({x}, {y}) is outside a {w}x{h}m room."

theorem documented_plain : Documented plain where
  value_le _ h := of_decide_eq_true h
  float_of_decimal _ q h hle := ⟨q, h, decide_eq_true hle⟩

/-- A counter with a corner at this `x`. -/
def counter (x : ℤ) : Call ℚ :=
  .create "0" "2026-01-01T00:00:00+00:00" ⟨"Kitchen counter", "kitchen", 0, "area", .null, .null, .null,
    .arr [.arr [.int x, .int 0], .arr [.int 2, .int 0], .arr [.int 2, .int 1]], "", none⟩

theorem anchors_honest_counter :
    Run.AllStates (step plain) (Honest plain) empty [counter 1, .move "2026-01-02T00:00:00+00:00" "anc_0" "hall" none] ∧
      Run.AllSteps (step plain) (CallLaw plain) empty
        [counter 1, .move "2026-01-02T00:00:00+00:00" "anc_0" "hall" none] ↔
    Run.AllSteps (step plain) (Clear plain) empty
      [counter 1, .move "2026-01-02T00:00:00+00:00" "anc_0" "hall" none] :=
  anchors_honest_iff documented_plain _

theorem farCorner_not_refused :
    (call plain empty (counter (10 ^ 400))).1 = .error (.python (.raised .overflowError)) ∧
      ¬ (Run.AllStates (step plain) (Honest plain) empty [counter (10 ^ 400)] ∧
        Run.AllSteps (step plain) (CallLaw plain) empty [counter (10 ^ 400)]) := by
  have hraised : (call plain empty (counter (10 ^ 400))).1 = .error (.python (.raised .overflowError)) := by
    decide +kernel
  have hcorner : ¬ FinePoint plain (.arr [.int (10 ^ 400), .int 0]) := by
    rintro ⟨a, b, heq, ha, -⟩
    obtain ⟨rfl, -⟩ := List.cons_eq_cons.mp (Json.arr.inj heq)
    exact not_huge_of_fine ha ⟨10 ^ 400, rfl, by decide +kernel⟩
  have hbad : BadCoordinates plain (counter (10 ^ 400)) := by
    refine .inr ⟨rfl, fun ps heq => ⟨_, ?_, hcorner⟩⟩
    rw [← Json.arr.inj heq]
    exact List.mem_cons_self
  refine ⟨hraised, fun ⟨_, hlaw, _⟩ => ?_⟩
  obtain ⟨⟨e, he, text, rfl⟩, -⟩ := hlaw.refused hbad
  cases hraised.symm.trans he

end Wavr.Anchors
