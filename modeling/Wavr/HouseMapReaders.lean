import Wavr.HouseMapGate

/-!
# Reading an accepted house map

`room_names` and `room_polygon` return on every document that the gate accepts. `room_at` and
`in_rest_zone` do where the arithmetic on the edges they come to stays in range.
-/

namespace Wavr.HouseMap

open Checks
open Json (get)

section
variable {F : Type} (py : Python F)

/-! ## Statements -/

/-- A coordinate of an accepted point. -/
def coordinate : Json F → Number F
  | .int n => .int n
  | .float x => .float x
  | _ => .int 0

def corner : Json F → Number F × Number F
  | .arr [x, y] => (coordinate x, coordinate y)
  | _ => (.int 0, .int 0)

/-- `float(v)`, of what has a double. -/
def double : Number F → F
  | .int n => py.ofInt n
  | .float x => x

/-- `float(a - b)`. -/
def difference : Number F → Number F → F
  | .int m, .int n => py.ofInt (m - n)
  | a, b => py.sub (double py a) (double py b)

/-- Whether the difference has a double. -/
def differenceFits : Number F → Number F → Bool
  | .int m, .int n => fits (m - n)
  | _, _ => true

/-- An edge that the ray from the height `y` crosses is not too long for a double, and as a double its height is
not zero. -/
def EdgeSafe (y : F) (e : Json F × Json F) : Prop :=
  py.lt (.float y) (corner e.1).2 ≠ py.lt (.float y) (corner e.2).2 →
    differenceFits (corner e.2).1 (corner e.1).1 = true ∧ differenceFits (corner e.2).2 (corner e.1).2 = true ∧
      py.isZero (difference py (corner e.2).2 (corner e.1).2) = false

def PolygonSafe (y : F) (r : List (String × Json F)) : Prop :=
  ∀ ps, get r "polygon" = .arr ps → ∀ e ∈ edges ps, EdgeSafe py y e

/-- The polygons that are looked at: behind the first that covers the point none is. -/
def SafeUntilHit (x y : F) (ds : List (List (String × Json F))) : Prop :=
  ∀ pre d post, ds = pre ++ d :: post → (∀ c ∈ pre, covers py x y c = .ok false) → PolygonSafe py y d

/-- `min(p[i] for p in poly) + x`. -/
def leastPlus (ns : List (Number F)) (x : F) : F :=
  match ns with
  | [] => x
  | n :: ns => py.add (double py (ns.foldl (fun least n => if py.lt n least then n else least) n)) x

/-- The first room with the name. -/
def firstNamed (room : String) (f : List (String × Json F)) : Option (List (String × Json F)) :=
  (roomList f).find? (named room)

def hasRoom (room : String) (f : List (String × Json F)) : Bool := (firstNamed room f).isSome

/-- The corners of a polygon. -/
def cornersOf (r : List (String × Json F)) : List (Number F × Number F) :=
  match get r "polygon" with
  | .arr ps => ps.map corner
  | _ => []

/-- The zones of the floor, seen from the top left of the room. -/
def RestSafe (room : String) (x y : F) (f : List (String × Json F)) : Prop :=
  ∀ r, firstNamed room f = some r →
    SafeUntilHit py (leastPlus py ((cornersOf r).map Prod.fst) x) (leastPlus py ((cornersOf r).map Prod.snd) y)
      (zoneList f)

end

/-! ## The arithmetic on one edge -/

section
variable {F : Type} {py : Python F}

/-- A number that has a double. -/
def Number.Fits : Number F → Prop
  | .int n => fits n = true
  | .float _ => True

theorem widen_of_fits {n : Number F} (h : n.Fits) : widen py n = .ok (double py n) := by
  cases n with
  | int n =>
    have hfits : fits n = true := h
    rw [widen, if_pos hfits]
    rfl
  | float x => rfl

/-- A difference, made a double. -/
theorem minus_widen {α : Type} {a b : Number F} (ha : a.Fits) (hb : b.Fits) (k : F → Except Fault α) :
    (do let d ← minus py a b
        let d ← widen py d
        k d) = if differenceFits a b then k (difference py a b) else .error (.raised .overflowError) := by
  cases a with
  | int m =>
    cases b with
    | int n => cases hfits : fits (m - n) <;>
        simp [minus, widen, differenceFits, difference, hfits, ok_bind, error_bind]
    | float y =>
      show (widen py (.int m) >>= fun a => widen py (.float y) >>= fun b =>
        .ok (.float (py.sub a b))) >>= (fun d => widen py d >>= k) = _
      rw [widen_of_fits ha]
      rfl
  | float x =>
    cases b with
    | int n =>
      show (widen py (.float x) >>= fun a => widen py (.int n) >>= fun b =>
        .ok (.float (py.sub a b))) >>= (fun d => widen py d >>= k) = _
      rw [widen_of_fits hb]
      rfl
    | float y => rfl

theorem exists_of_point {p : Json F} (h : point py p = true) :
    ∃ a b, p = .arr [a, b] ∧ number a = .ok (coordinate a) ∧ number b = .ok (coordinate b) ∧
      (coordinate a).Fits ∧ (coordinate b).Fits := by
  have hnumber : ∀ v : Json F, finite py v = true → number v = .ok (coordinate v) ∧ (coordinate v).Fits := by
    intro v hv
    cases v with
    | int n => exact ⟨rfl, hv⟩
    | float x => exact ⟨rfl, trivial⟩
    | _ => cases hv
  unfold point at h
  split at h
  · rename_i a b
    obtain ⟨ha, hb⟩ := Bool.and_eq_true_iff.mp h
    exact ⟨a, b, rfl, (hnumber a ha).1, (hnumber b hb).1, (hnumber a ha).2, (hnumber b hb).2⟩
  · cases h

theorem crosses_returns_iff {x y : F} {e : Json F × Json F} (hp : point py e.1 = true) (hq : point py e.2 = true) :
    (∃ hit, crosses py x y e.1 e.2 = .ok hit) ↔ EdgeSafe py y e := by
  obtain ⟨p, q⟩ := e
  obtain ⟨a, b, rfl, ha, hb, hafits, hbfits⟩ := exists_of_point hp
  obtain ⟨c, d, rfl, hc, hd, hcfits, hdfits⟩ := exists_of_point hq
  have hfloat : (Number.float y).Fits := trivial
  have hdy : ∀ v, differenceFits (Number.float y) v = true := fun v => rfl
  unfold EdgeSafe
  simp only [crosses, index, List.getElem?_cons_zero, List.getElem?_cons_succ, ok_bind, ha, hb, hc, hd,
    minus_widen hcfits hafits, minus_widen hfloat hbfits, minus_widen hdfits hbfits, widen_of_fits hafits, hdy,
    if_true, corner]
  split_ifs with hlevel hdx hheight hzero
  · exact iff_of_true ⟨false, rfl⟩ fun hne => absurd hlevel hne
  · refine iff_of_false (fun ⟨_, h⟩ => (by cases h)) fun h => ?_
    rw [hzero] at h
    cases (h hlevel).2.2
  · exact iff_of_true ⟨_, rfl⟩ fun _ => ⟨hdx, hheight, Bool.eq_false_iff.mpr hzero⟩
  · exact iff_of_false (fun ⟨_, h⟩ => (by cases h)) fun h => hheight (h hlevel).2.1
  · exact iff_of_false (fun ⟨_, h⟩ => (by cases h)) fun h => hdx (h hlevel).1

/-! ## Polygons -/

theorem mem_edges {poly : List (Json F)} {e : Json F × Json F} (he : e ∈ edges poly) :
    e.1 ∈ poly ∧ e.2 ∈ poly := by
  obtain ⟨h₁, h₂⟩ := List.of_mem_zip he
  refine ⟨h₁, ?_⟩
  rcases List.mem_append.mp h₂ with hlast | hin
  · exact List.mem_of_getLast? (Option.mem_toList.mp hlast)
  · exact hin

theorem pointInPolygon_returns_iff {x y : F} {poly : List (Json F)} (h : ∀ p ∈ poly, point py p = true) :
    (∃ inside, pointInPolygon py x y poly = .ok inside) ↔ ∀ e ∈ edges poly, EdgeSafe py y e := by
  have hedges : ∀ e ∈ edges poly, point py e.1 = true ∧ point py e.2 = true := fun e he =>
    ⟨h _ (mem_edges he).1, h _ (mem_edges he).2⟩
  have hloop : ∀ (es : List (Json F × Json F)) (inside : Bool),
      (∀ e ∈ es, point py e.1 = true ∧ point py e.2 = true) →
      ((∃ inside', (es.foldlM (fun inside e => do
        let hit ← crosses py x y e.1 e.2
        return if hit then ! inside else inside) inside : Except Fault Bool) = .ok inside') ↔
          ∀ e ∈ es, EdgeSafe py y e) := by
    intro es
    induction es with
    | nil => exact fun inside _ => iff_of_true ⟨inside, rfl⟩ fun _ he => (by cases he)
    | cons e es ih =>
      intro inside hes
      obtain ⟨he, hes⟩ := List.forall_mem_cons.mp hes
      rw [List.foldlM_cons, List.forall_mem_cons, ← crosses_returns_iff (x := x) he.1 he.2]
      cases hcross : crosses py x y e.1 e.2 with
      | error err => exact iff_of_false (fun ⟨_, h⟩ => (by cases h)) fun h => (by cases h.1.choose_spec)
      | ok hit => exact (ih _ hes).trans (and_iff_right ⟨hit, rfl⟩).symm
  exact hloop (edges poly) false hedges

theorem polygonOf_of_polygonOk {r : List (String × Json F)} {ps : List (Json F)}
    (h : PolygonOk py (get r "polygon") ps) : polygonOf py r = .arr ps := by
  have hne : ps ≠ [] := by
    rintro rfl
    exact Nat.not_succ_le_zero 2 h.2.1
  rw [polygonOf, h.1, truthy]
  cases ps with
  | nil => exact absurd rfl hne
  | cons p ps => rfl

theorem covers_returns_iff {x y : F} {r : List (String × Json F)}
    (h : ∃ ps, PolygonOk py (get r "polygon") ps) : (∃ hit, covers py x y r = .ok hit) ↔ PolygonSafe py y r := by
  obtain ⟨ps, hps⟩ := h
  have hcovers : covers py x y r = pointInPolygon py x y ps := by
    rw [covers, polygonOf_of_polygonOk hps]
    simp only [len, vertices, iter, ok_bind, if_pos hps.2.1]
  have hsafe : PolygonSafe py y r ↔ ∀ e ∈ edges ps, EdgeSafe py y e := by
    unfold PolygonSafe
    rw [hps.1]
    exact ⟨fun h => h ps rfl, fun h _ heq => Json.arr.inj heq ▸ h⟩
  rw [hcovers, hsafe]
  exact pointInPolygon_returns_iff fun p hp => List.all_eq_true.mp hps.2.2.2 p hp

theorem safeUntilHit_cons {x y : F} {d : List (String × Json F)} {ds : List (List (String × Json F))} :
    SafeUntilHit py x y (d :: ds) ↔ PolygonSafe py y d ∧
      (covers py x y d = .ok false → SafeUntilHit py x y ds) := by
  constructor
  · refine fun h => ⟨h [] d ds rfl fun _ hc => (by cases hc), fun hd pre d' post heq hpre => ?_⟩
    exact h (d :: pre) d' post (congrArg (d :: ·) heq) (List.forall_mem_cons.mpr ⟨hd, hpre⟩)
  · rintro ⟨hd, hds⟩ pre d' post heq hpre
    cases pre with
    | nil =>
      rw [List.nil_append, List.cons_eq_cons] at heq
      exact heq.1 ▸ hd
    | cons c pre =>
      rw [List.cons_append, List.cons_eq_cons] at heq
      obtain ⟨rfl, heq⟩ := heq
      obtain ⟨hc, hpre⟩ := List.forall_mem_cons.mp hpre
      exact hds hc pre d' post heq hpre

/-- A walk to the first polygon that covers the point. -/
theorem firstCovering_returns_iff {α : Type} {x y : F} {f : Json F → Except Fault (Option α)}
    {g : List (String × Json F) → α} {ds : List (List (String × Json F))}
    (h : ∀ d ∈ ds, ∃ ps, PolygonOk py (get d "polygon") ps)
    (hf : ∀ d ∈ ds, f (.obj d) = covers py x y d >>= fun hit => .ok (if hit then some (g d) else none)) :
    (∃ o, firstSome f (ds.map .obj) = .ok o) ↔ SafeUntilHit py x y ds := by
  induction ds with
  | nil => exact iff_of_true ⟨none, rfl⟩ fun pre d post heq => absurd heq (by simp)
  | cons d ds ih =>
    obtain ⟨hd, hds⟩ := List.forall_mem_cons.mp h
    obtain ⟨hfd, hfds⟩ := List.forall_mem_cons.mp hf
    rw [safeUntilHit_cons, ← covers_returns_iff (x := x) hd, ← ih hds hfds, List.map_cons, firstSome, hfd]
    cases covers py x y d with
    | error e =>
      refine iff_of_false ?_ ?_
      · rintro ⟨o, ho⟩
        cases ho
      · rintro ⟨⟨hit, hok⟩, -⟩
        cases hok
    | ok hit =>
      cases hit with
      | true => exact iff_of_true ⟨_, rfl⟩ ⟨⟨true, rfl⟩, fun h => (by cases h)⟩
      | false => exact ⟨fun h => ⟨⟨false, rfl⟩, fun _ => h⟩, fun h => h.2 rfl⟩

/-! ## The readers -/

variable {d : List (String × Json F)}

/-- A map as the gate lets it through. -/
structure Accepted (py : Python F) (d : List (String × Json F)) : Prop where
  floors : get d "floors" = .arr ((floorList d).map .obj)
  ok : ∀ f ∈ floorList d, FloorOk py f

theorem Accepted.getD_floors (h : Accepted py d) : getD d "floors" (.arr []) = .arr ((floorList d).map .obj) := by
  have hfloors := h.floors
  unfold Json.get at hfloors
  unfold getD
  cases hget : d.lookup "floors" with
  | none =>
    rw [hget] at hfloors
    cases hfloors
  | some v =>
    rw [hget] at hfloors
    exact hfloors

theorem exists_floors_of_accepted {doc : Json F} (h : validateHouseMap py doc = .ok ()) :
    ∃ d, doc = .obj d ∧ Accepted py d := by
  obtain ⟨d, hdoc, hfloors, hok, -⟩ := exists_of_accepted h
  exact ⟨d, hdoc, hfloors, hok⟩

theorem nameIn_obj (r : List (String × Json F)) : nameIn (.obj r) = .ok (r.lookup "name") := rfl

theorem namesOf_returns (rs : List (List (String × Json F))) :
    ∃ names, namesOf (.arr (rs.map .obj)) = .ok names := by
  have hnames : ∃ names, (rs.map Json.obj).mapM nameIn = .ok names :=
    returns_iff.mpr (clean_mapM fun v hv => by
      obtain ⟨r, -, rfl⟩ := List.mem_map.mp hv
      exact clean_ok _)
  obtain ⟨names, hnames⟩ := hnames
  refine ⟨names.reduceOption, ?_⟩
  rw [namesOf, iter, ok_bind, hnames]
  rfl

theorem Accepted.roomNames_returns (h : Accepted py d) : ∃ names, roomNames (.obj d) = .ok names := by
  have hfloors : ∃ names, ((floorList d).map Json.obj).mapM (fun f => do
      let f ← fieldsOf f
      namesOf (getD f "rooms" (.arr []))) = .ok names := by
    refine returns_iff.mpr (clean_mapM fun v hv => ?_)
    obtain ⟨f, hf, rfl⟩ := List.mem_map.mp hv
    rw [← returns_iff, fieldsOf, ok_bind, (h.ok f hf).rooms]
    exact namesOf_returns _
  obtain ⟨names, hnames⟩ := hfloors
  have hfields : fieldsOf (.obj d) = .ok d := rfl
  refine ⟨names.flatten, ?_⟩
  simp only [roomNames, hfields, ok_bind, h.floors, hnames]
  rfl

theorem roomAtFloor_obj {f : List (String × Json F)} (h : FloorOk py f) (level : ℤ) (x y : F) :
    roomAtFloor py level x y (.obj f) = if atLevel py level f then
      firstSome (fun v => do
        let r ← fieldsOf v
        let hit ← covers py x y r
        return if hit then some (get r "name") else none) ((roomList f).map .obj) >>= fun found =>
          .ok (some (found.getD .null))
    else .ok none := by
  have hfields : fieldsOf (.obj f) = .ok f := rfl
  simp only [roomAtFloor, hfields, ok_bind, h.rooms, iter, atLevel]
  rfl

theorem Accepted.roomAt_returns_iff (h : Accepted py d) {level : ℤ} {x y : F} :
    (∃ room, roomAt py (.obj d) level x y = .ok room) ↔
      ∀ f, (floorList d).find? (atLevel py level) = some f → SafeUntilHit py x y (roomList f) := by
  have hroomAt : roomAt py (.obj d) level x y =
      firstSome (fun f => roomAtFloor py level x y (.obj f)) (floorList d) >>= fun found =>
        .ok (found.getD .null) := by
    rw [← firstSome_map, roomAt, fieldsOf, ok_bind, h.getD_floors, iter, ok_bind]
    rfl
  rw [hroomAt, bind_returns_iff, firstSome_returns_iff]
  · refine forall_congr' fun f => forall_congr' fun hf => ?_
    have hok := h.ok f (List.mem_of_find?_eq_some hf)
    rw [roomAtFloor_obj hok, if_pos (List.find?_some hf), bind_returns_iff]
    exact firstCovering_returns_iff (fun r hr => (hok.rooms_ok r hr).polygon) fun r _ => rfl
  · intro f hf hlevel
    rw [roomAtFloor_obj (h.ok f hf), hlevel]
    rfl
  · intro f hf hlevel hnone
    rw [roomAtFloor_obj (h.ok f hf), if_pos hlevel] at hnone
    obtain ⟨_, -, hsome⟩ := bind_eq_ok.mp hnone
    cases hsome

theorem firstSome_whereNamed (name : String) (rs : List (List (String × Json F))) :
    firstSome (whereNamed name) (rs.map Json.obj) = .ok (rs.find? (named name)) := by
  rw [firstSome_map]
  exact firstSome_eq_find? fun r _ => rfl

theorem Accepted.roomPolygon_returns (h : Accepted py d) (name : String) (level : Option ℤ) :
    ∃ polygon, roomPolygon py (.obj d) name level = .ok polygon := by
  have hfloors : ∃ found, firstSome (roomPolygonFloor py name level) ((floorList d).map .obj) = .ok found := by
    refine returns_iff.mpr (clean_firstSome.mpr fun pre v post heq _ => ?_)
    have hv : v ∈ (floorList d).map Json.obj := heq ▸ List.mem_append_right pre List.mem_cons_self
    obtain ⟨f, hf, rfl⟩ := List.mem_map.mp hv
    have hfields : fieldsOf (.obj f) = .ok f := rfl
    simp only [roomPolygonFloor, hfields, ok_bind, (h.ok f hf).rooms, iter, firstSome_whereNamed]
    split_ifs
    · cases hfind : (roomList f).find? (named name) with
      | none => exact clean_ok _
      | some r =>
        obtain ⟨ps, hps⟩ := ((h.ok f hf).rooms_ok r (List.mem_of_find?_eq_some hfind)).polygon
        simp only [polygonOf_of_polygonOk hps, len, ok_bind]
        exact clean_ok _
    · exact clean_ok _
  obtain ⟨found, hfound⟩ := hfloors
  refine ⟨found.getD .null, ?_⟩
  rw [roomPolygon, fieldsOf, ok_bind, h.getD_floors, iter, ok_bind, hfound]
  rfl

/-! ## The corner of a room -/

theorem minPlus_eq {c : Json F → Number F} {i : ℕ} {ps : List (Json F)} (hne : ps ≠ [])
    (h : ∀ p ∈ ps, ∃ v, index p i = .ok v ∧ number v = .ok (c p) ∧ (c p).Fits) (x : F) :
    ∃ xs, ps.mapM (index · i) = .ok xs ∧ minPlus py xs x = .ok (leastPlus py (ps.map c) x) := by
  have hnumbers : ∀ ps : List (Json F), (∀ p ∈ ps, ∃ v, index p i = .ok v ∧ number v = .ok (c p) ∧ (c p).Fits) →
      ∃ xs, ps.mapM (index · i) = .ok xs ∧ xs.mapM number = .ok (ps.map c) := by
    intro ps
    induction ps with
    | nil => exact fun _ => ⟨[], rfl, rfl⟩
    | cons p ps ih =>
      intro hps
      obtain ⟨⟨v, hv, hnumber, -⟩, hps⟩ := List.forall_mem_cons.mp hps
      obtain ⟨xs, hxs, hns⟩ := ih hps
      refine ⟨v :: xs, ?_, ?_⟩
      · rw [List.mapM_cons, hv, ok_bind, hxs]
        rfl
      · rw [List.mapM_cons, hnumber, ok_bind, hns]
        rfl
  -- the least of the coordinates is one of them, so it fits and widens to a float
  have hleast : ∀ (ns : List (Number F)) (least : Number F), least.Fits → (∀ n ∈ ns, n.Fits) →
      (ns.foldl (fun least n => if py.lt n least then n else least) least).Fits := by
    intro ns
    induction ns with
    | nil => exact fun _ hl _ => hl
    | cons n ns ih =>
      intro least hl hns
      obtain ⟨hn, hns⟩ := List.forall_mem_cons.mp hns
      refine ih _ ?_ hns
      dsimp only
      split_ifs
      · exact hn
      · exact hl
  obtain ⟨xs, hxs, hns⟩ := hnumbers ps h
  refine ⟨xs, hxs, ?_⟩
  obtain ⟨p, ps, rfl⟩ := List.exists_cons_of_ne_nil hne
  obtain ⟨⟨_, -, -, hp⟩, hps⟩ := List.forall_mem_cons.mp h
  have hfits := hleast (ps.map c) (c p) hp fun n hn => by
    obtain ⟨q, hq, rfl⟩ := List.mem_map.mp hn
    exact (hps q hq).choose_spec.2.2
  rw [minPlus, hns, ok_bind, List.map_cons, leastPlus]
  dsimp only
  rw [widen_of_fits hfits]
  rfl

theorem restIn_eq {f r : List (String × Json F)} (hf : FloorOk py f) {ps : List (Json F)}
    (hps : PolygonOk py (get r "polygon") ps) (x y : F) : restIn py f r x y =
      firstSome (restHit py (leastPlus py ((cornersOf r).map Prod.fst) x)
        (leastPlus py ((cornersOf r).map Prod.snd) y)) ((zoneList f).map .obj) >>= fun found => .ok found.isSome := by
  have hpoints : ∀ p ∈ ps, point py p = true := List.all_eq_true.mp hps.2.2.2
  have hne : ps ≠ [] := by
    rintro rfl
    exact Nat.not_succ_le_zero 2 hps.2.1
  have hfirst : ∀ p ∈ ps, ∃ v, index p 0 = .ok v ∧ number v = .ok (corner p).1 ∧ (corner p).1.Fits := by
    intro p hp
    obtain ⟨a, b, rfl, ha, -, hfits, -⟩ := exists_of_point (hpoints p hp)
    exact ⟨a, rfl, ha, hfits⟩
  have hsecond : ∀ p ∈ ps, ∃ v, index p 1 = .ok v ∧ number v = .ok (corner p).2 ∧ (corner p).2.Fits := by
    intro p hp
    obtain ⟨a, b, rfl, -, hb, -, hfits⟩ := exists_of_point (hpoints p hp)
    exact ⟨b, rfl, hb, hfits⟩
  obtain ⟨xs, hxs, hx⟩ := @minPlus_eq _ py _ _ _ hne hfirst x
  obtain ⟨ys, hys, hy⟩ := @minPlus_eq _ py _ _ _ hne hsecond y
  have hcorners : cornersOf r = ps.map corner := by
    rw [cornersOf, hps.1]
  have hlong : ¬ ps.length < 3 := Nat.not_lt.mpr hps.2.1
  simp only [restIn, polygonOf_of_polygonOk hps, len, iter, ok_bind, hlong, if_false, hxs, hys, hx, hy, hf.zones,
    hcorners, List.map_map]
  rfl

theorem inRestZoneFloor_obj {f : List (String × Json F)} (hf : FloorOk py f) (room : String) (x y : F) :
    inRestZoneFloor py room x y (.obj f) = match firstNamed room f with
      | some r => restIn py f r x y >>= fun rest => .ok (some rest)
      | none => .ok none := by
  have hfields : fieldsOf (.obj f) = .ok f := rfl
  simp only [inRestZoneFloor, hfields, ok_bind, hf.rooms, iter, firstSome_whereNamed]
  rfl

theorem inRestZoneFloor_returns_iff {f : List (String × Json F)} (hf : FloorOk py f) {room : String} {x y : F}
    (hroom : hasRoom room f = true) :
    (∃ rest, inRestZoneFloor py room x y (.obj f) = .ok rest) ↔ RestSafe py room x y f := by
  obtain ⟨r, hr⟩ := Option.isSome_iff_exists.mp hroom
  obtain ⟨ps, hps⟩ := (hf.rooms_ok r (List.mem_of_find?_eq_some hr)).polygon
  have hsafe : RestSafe py room x y f ↔ SafeUntilHit py (leastPlus py ((cornersOf r).map Prod.fst) x)
      (leastPlus py ((cornersOf r).map Prod.snd) y) (zoneList f) := by
    unfold RestSafe
    rw [hr]
    exact ⟨fun h => h r rfl, fun h _ heq => Option.some.inj heq ▸ h⟩
  rw [inRestZoneFloor_obj hf, hr, hsafe]
  dsimp only
  rw [bind_returns_iff, restIn_eq hf hps, bind_returns_iff]
  refine firstCovering_returns_iff (g := fun _ => true) (fun z hz => (hf.zones_ok z hz).polygon) fun z hz => ?_
  have hfields : fieldsOf (.obj z) = .ok z := rfl
  simp only [restHit, hfields, ok_bind, (hf.zones_ok z hz).kind, Bool.not_true, if_false, Bool.false_eq_true]
  rfl

theorem Accepted.inRestZone_returns_iff (h : Accepted py d) {room : String} {x y : F} :
    (∃ rest, inRestZone py (.obj d) room x y = .ok rest) ↔
      ∀ f, (floorList d).find? (hasRoom room) = some f → RestSafe py room x y f := by
  have hzone : inRestZone py (.obj d) room x y =
      firstSome (fun f => inRestZoneFloor py room x y (.obj f)) (floorList d) >>= fun found =>
        .ok (found.getD false) := by
    rw [← firstSome_map, inRestZone, fieldsOf, ok_bind, h.getD_floors, iter, ok_bind]
    rfl
  rw [hzone, bind_returns_iff, firstSome_returns_iff]
  · exact forall_congr' fun f => forall_congr' fun hf =>
      inRestZoneFloor_returns_iff (h.ok f (List.mem_of_find?_eq_some hf)) (List.find?_some hf)
  · intro f hf hroom
    rw [inRestZoneFloor_obj (h.ok f hf), Option.not_isSome_iff_eq_none.mp (Bool.eq_false_iff.mp hroom)]
  · intro f hf hroom hnone
    obtain ⟨r, hr⟩ := Option.isSome_iff_exists.mp hroom
    rw [inRestZoneFloor_obj (h.ok f hf), hr] at hnone
    obtain ⟨_, -, hsome⟩ := bind_eq_ok.mp hnone
    cases hsome

end

end Wavr.HouseMap
