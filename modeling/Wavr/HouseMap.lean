import Mathlib.Data.Rat.Defs
import Wavr.Checks
import Wavr.Dict
import Wavr.Json
import Wavr.Text

/-!
# The house map

`validate_house_map`, the readers of a house map and `upsert_room` of `housemap.py`, over decoded
documents. Polygons keep their integers and doubles apart, since the arithmetic on them raises
differently.
-/

namespace Wavr.HouseMap

open Checks (firstSome)
open Json (get)

/-- `HouseMapError` with its text, or anything else. -/
inductive Fault
  | houseMapError (text : String)
  | attributeError
  | indexError
  | zeroDivisionError
  | raised (e : Raised)
  deriving DecidableEq

/-- A coordinate. -/
inductive Number (F : Type)
  | int (n : ℤ)
  | float (x : F)

/-- What the interpreter computes. -/
structure Python (F : Type) where
  isfinite : F → Bool
  isZero : F → Bool
  /-- `x == n`. -/
  eqInt : F → ℤ → Bool
  /-- `float(n)` in the range of a double. -/
  ofInt : ℤ → F
  add : F → F → F
  sub : F → F → F
  mul : F → F → F
  div : F → F → F
  /-- `a < b`. -/
  lt : Number F → Number F → Bool
  /-- `len(json.dumps(v))`. -/
  dumpsLength : Json F → ℕ
  /-- The text of the ValueError for an integer with too many digits. -/
  tooManyDigits : String
  /-- `str` of a list of texts. -/
  strList : List String → String

/-- Doubles that do not round, and a document of `size` characters. -/
def exact (size : ℕ) : Python ℚ where
  isfinite _ := true
  isZero x := x = 0
  eqInt x n := x = n
  ofInt n := n
  add x y := x + y
  sub x y := x - y
  mul x y := x * y
  div x y := x / y
  lt
    | .int m, .int n => m < n
    | .int m, .float y => (m : ℚ) < y
    | .float x, .int n => x < n
    | .float x, .float y => x < y
  dumpsLength _ := size
  tooManyDigits := "Exceeds the limit (4300 digits) for integer string conversion"
  strList names := "[" ++ ", ".intercalate (names.map fun s => "'" ++ s ++ "'") ++ "]"

section
variable {F : Type}

def MAX_FLOORS : ℕ := 64

def MAX_ROOMS_PER_FLOOR : ℕ := 512

def MAX_WALLS_PER_FLOOR : ℕ := 4096

def MAX_VERTICES : ℕ := 512

def MAX_ZONES_PER_FLOOR : ℕ := 512

def FEATURE_TYPES : List String := ["stairs", "door", "window"]

def ZONE_KINDS : List String := ["rest"]

def MAX_STR_LEN : ℕ := 200

def MAX_BACKDROP_KEYS : ℕ := 32

def MAX_BACKDROP_BYTES : ℕ := 8192

def MAX_DOC_BYTES : ℕ := 5 * 1024 * 1024

def TOP_KEYS : List String := ["version", "units", "floors"]

def FLOOR_KEYS : List String := ["id", "name", "level", "rooms", "walls", "features", "zones", "backdrop"]

def ROOM_KEYS : List String := ["id", "name", "polygon"]

def WALL_KEYS : List String := ["id", "a", "b"]

def FEATURE_KEYS : List String := ["id", "type", "at", "to_level"]

def ZONE_KEYS : List String := ["id", "name", "kind", "polygon"]

/-! ## The interpreter -/

/-- Whether an integer has a double at all: `float(n)` rounds, and overflows from there on. -/
def fits (n : ℤ) : Bool := n.natAbs < 2 ^ 1024 - 2 ^ 970

/-- Whether `str(n)` stays within the limit of digits. -/
def hasText (n : ℤ) : Bool := n.natAbs < 10 ^ 4300

mutual

/-- Whether `json.dumps` takes the value, where it takes the doubles that meet `p`. -/
def dumpable (p : F → Bool) : Json F → Bool
  | .int n => hasText n
  | .float x => p x
  | .arr items => dumpableItems p items
  | .obj fields => dumpableFields p fields
  | _ => true

def dumpableItems (p : F → Bool) : List (Json F) → Bool
  | [] => true
  | v :: vs => dumpable p v && dumpableItems p vs

def dumpableFields (p : F → Bool) : List (String × Json F) → Bool
  | [] => true
  | (_, v) :: fields => dumpable p v && dumpableFields p fields

end

/-- `d.get(k, default)`. -/
def getD (fields : List (String × Json F)) (k : String) (default : Json F) : Json F :=
  (fields.lookup k).getD default

/-- What `v.get` is called on. -/
def fieldsOf : Json F → Except Fault (List (String × Json F))
  | .obj fields => .ok fields
  | _ => .error .attributeError

/-- `iter(v)`. -/
def iter : Json F → Except Fault (List (Json F))
  | .arr items => .ok items
  | .str s => .ok (s.toList.map fun c => .str (String.singleton c))
  | .obj fields => .ok (fields.map fun e => .str e.1)
  | _ => .error (.raised .typeError)

def len : Json F → Except Fault ℕ
  | .arr items => .ok items.length
  | .str s => .ok s.length
  | .obj fields => .ok fields.length
  | _ => .error (.raised .typeError)

/-- `v[i]`. -/
def index (v : Json F) (i : ℕ) : Except Fault (Json F) :=
  match v with
  | .arr items => match items[i]? with
    | some v => .ok v
    | none => .error .indexError
  | .str s => match s.toList[i]? with
    | some c => .ok (.str (String.singleton c))
    | none => .error .indexError
  | .obj _ => .error (.raised .keyError)
  | _ => .error (.raised .typeError)

/-- A value in arithmetic. -/
def number : Json F → Except Fault (Number F)
  | .int n => .ok (.int n)
  | .float x => .ok (.float x)
  | .bool b => .ok (.int (if b then 1 else 0))
  | _ => .error (.raised .typeError)

variable (py : Python F)

/-- `v == n`. -/
def eqInt (v : Json F) (n : ℤ) : Bool :=
  match v with
  | .int m => m = n
  | .float x => py.eqInt x n
  | .bool b => (if b then 1 else 0) = n
  | _ => false

/-- `v == s`. -/
def eqStr (v : Json F) (s : String) : Bool :=
  match v with
  | .str t => t = s
  | _ => false

def truthy : Json F → Bool
  | .null => false
  | .bool b => b
  | .int n => n ≠ 0
  | .float x => ! py.isZero x
  | .str s => s ≠ ""
  | .arr items => ! items.isEmpty
  | .obj fields => ! fields.isEmpty

def widen : Number F → Except Fault F
  | .int n => if fits n then .ok (py.ofInt n) else .error (.raised .overflowError)
  | .float x => .ok x

/-- `float(v)`, with `float(s)` for a text. -/
def floatOf (floatOfStr : String → Option F) : Json F → Except Fault F
  | .int n => widen py (.int n)
  | .bool b => widen py (.int (if b then 1 else 0))
  | .float x => .ok x
  | .str s => match floatOfStr s with
    | some x => .ok x
    | none => .error (.raised .valueError)
  | _ => .error (.raised .typeError)

/-- `a - b`, exact between integers. -/
def minus : Number F → Number F → Except Fault (Number F)
  | .int m, .int n => .ok (.int (m - n))
  | a, b => do
    let a ← widen py a
    let b ← widen py b
    return .float (py.sub a b)

/-- `str(n)`. -/
def str (n : ℤ) : Except Fault String := if hasText n then .ok (toString n) else .error (.raised .valueError)

/-! ## `validate_house_map` -/

def refuse {α : Type} (text : String) : Except Fault α := .error (.houseMapError text)

def require (c : Bool) (text : String) : Except Fault Unit := if c then .ok () else refuse text

def finite : Json F → Bool
  | .int n => fits n
  | .float x => py.isfinite x
  | _ => false

def point : Json F → Bool
  | .arr [x, y] => finite py x && finite py y
  | _ => false

def boundedStr : Json F → Bool
  | .str s => s.length ≤ MAX_STR_LEN
  | _ => false

/-- `"k" not in d or _bounded_str(d.get("k"))`. -/
def absentOrBounded (d : List (String × Json F)) (k : String) : Bool := (d.lookup k).all boundedStr

def unknown (d : List (String × Json F)) (allowed : List String) : List String :=
  (d.map Prod.fst).filter (· ∉ allowed)

def noUnknownKeys (d : List (String × Json F)) (allowed : List String) (what : String) : Except Fault Unit :=
  require (unknown d allowed = [])
    s!"unknown {what} key(s): {py.strList (Text.sortedSet (unknown d allowed).toFinset)}"

def validBackdrop : Json F → Bool
  | .null => true
  | .obj b => b.length ≤ MAX_BACKDROP_KEYS && dumpable py.isfinite (.obj b) &&
      py.dumpsLength (.obj b) ≤ MAX_BACKDROP_BYTES
  | _ => false

/-- `v in allowed`, where `allowed` is a set of texts: a list or a dictionary has no hash. -/
def memberOf (v : Json F) (allowed : List String) : Except Fault Bool :=
  match v with
  | .arr _ => .error (.raised .typeError)
  | .obj _ => .error (.raised .typeError)
  | .str s => .ok (s ∈ allowed)
  | _ => .ok false

def listOf (v : Json F) (text : String) : Except Fault (List (Json F)) :=
  match v with
  | .arr items => .ok items
  | _ => refuse text

/-- A list of at most `max` items. -/
def shortListOf (v : Json F) (max : ℕ) (text : String) : Except Fault (List (Json F)) := do
  let items ← listOf v text
  require (items.length ≤ max) text
  return items

def objectOf (v : Json F) (text : String) : Except Fault (List (String × Json F)) :=
  match v with
  | .obj fields => .ok fields
  | _ => refuse text

def checkPolygon (v : Json F) (few many bad : String) : Except Fault Unit := do
  let poly ← listOf v few
  require (3 ≤ poly.length) few
  require (poly.length ≤ MAX_VERTICES) many
  require (poly.all (point py)) bad

def checkRoom (v : Json F) : Except Fault Unit := do
  let r ← objectOf v "each room must be an object"
  noUnknownKeys py r ROOM_KEYS "room"
  require (boundedStr (get r "id")) "room id must be a string (<= 200 chars)"
  require (boundedStr (get r "name")) "room name must be a string (<= 200 chars)"
  checkPolygon py (get r "polygon") "room polygon must have >= 3 vertices" "polygon too large (> 512 vertices)"
    "polygon vertices must be finite [x, y] pairs"

def checkWall (v : Json F) : Except Fault Unit := do
  let w ← objectOf v "each wall must be an object"
  noUnknownKeys py w WALL_KEYS "wall"
  require (absentOrBounded w "id") "wall id must be a string (<= 200 chars)"
  require (point py (get w "a") && point py (get w "b")) "wall a/b must be finite points"

/-- `isinstance(v, int) and not isinstance(v, bool)`. -/
def isInt : Json F → Bool
  | .int _ => true
  | _ => false

def isNull : Json F → Bool
  | .null => true
  | _ => false

def checkFeature (v : Json F) : Except Fault Unit := do
  let feat ← objectOf v "feature type must be one of ['door', 'stairs', 'window']"
  let known ← memberOf (get feat "type") FEATURE_TYPES
  require known "feature type must be one of ['door', 'stairs', 'window']"
  noUnknownKeys py feat FEATURE_KEYS "feature"
  require (absentOrBounded feat "id") "feature id must be a string (<= 200 chars)"
  require (isNull (get feat "at") || point py (get feat "at")) "feature 'at' must be a finite point"
  require ((feat.lookup "to_level").all isInt) "feature to_level must be an integer"

/-- What is checked of a zone before its kind. -/
def checkZoneHead (z : List (String × Json F)) : Except Fault Unit := do
  noUnknownKeys py z ZONE_KEYS "zone"
  require (absentOrBounded z "id") "zone id must be a string (<= 200 chars)"
  require (absentOrBounded z "name") "zone name must be a string (<= 200 chars)"

def checkZone (v : Json F) : Except Fault Unit := do
  let z ← objectOf v "each zone must be an object"
  checkZoneHead py z
  let known ← memberOf (get z "kind") ZONE_KINDS
  require known "zone kind must be one of ['rest']"
  checkPolygon py (get z "polygon") "zone polygon must have >= 3 vertices"
    "zone polygon too large (> 512 vertices)" "zone polygon vertices must be finite [x, y] pairs"

/-- The levels and the ids of the floors so far. -/
structure Seen where
  levels : List ℤ
  ids : List String

def levelOf (f : List (String × Json F)) : Except Fault ℤ :=
  match get f "level" with
  | .int level => .ok level
  | _ => refuse "floor level must be an integer"

def uniqueIdOf (f : List (String × Json F)) (ids : List String) : Except Fault String :=
  match get f "id" with
  | .str fid =>
    if fid.length ≤ MAX_STR_LEN ∧ fid ∉ ids then .ok fid
    else refuse "floor id must be a unique string (<= 200 chars)"
  | _ => refuse "floor id must be a unique string (<= 200 chars)"

/-- The floor itself, without its parts. -/
def checkFloorHead (seen : Seen) (f : List (String × Json F)) : Except Fault Seen := do
  noUnknownKeys py f FLOOR_KEYS "floor"
  let level ← levelOf f
  require (level ∉ seen.levels) s!"duplicate floor level {level}"
  let fid ← uniqueIdOf f seen.ids
  require (boundedStr (get f "name")) "floor name must be a string (<= 200 chars)"
  require (validBackdrop py (get f "backdrop"))
    "floor backdrop must be null or a small object (<= 32 keys, <= 8192 bytes serialized)"
  return ⟨level :: seen.levels, fid :: seen.ids⟩

def checkRooms (f : List (String × Json F)) : Except Fault Unit := do
  let rooms ← shortListOf (getD f "rooms" (.arr [])) MAX_ROOMS_PER_FLOOR "rooms must be a list (<= 512)"
  rooms.forM (checkRoom py)

def checkWalls (f : List (String × Json F)) : Except Fault Unit := do
  let walls ← shortListOf (getD f "walls" (.arr [])) MAX_WALLS_PER_FLOOR "walls must be a list (<= 4096)"
  walls.forM (checkWall py)

def checkFeatures (f : List (String × Json F)) : Except Fault Unit := do
  let feats ← listOf (getD f "features" (.arr [])) "features must be a list"
  feats.forM (checkFeature py)

def checkZones (f : List (String × Json F)) : Except Fault Unit := do
  let zones ← shortListOf (getD f "zones" (.arr [])) MAX_ZONES_PER_FLOOR "zones must be a list (<= 512)"
  zones.forM (checkZone py)

def checkFloor (seen : Seen) (v : Json F) : Except Fault Seen := do
  let f ← objectOf v "each floor must be an object"
  let seen ← checkFloorHead py seen f
  checkRooms py f
  checkWalls py f
  checkFeatures py f
  checkZones py f
  return seen

/-- What is checked before the floors are walked. -/
def checkTop (doc : Json F) : Except Fault (List (Json F)) := do
  let d ← objectOf doc "house map must be an object"
  require (dumpable (fun _ => true) doc) s!"house map is not JSON-serializable: {py.tooManyDigits}"
  require (py.dumpsLength doc ≤ MAX_DOC_BYTES) s!"house map too large (> {MAX_DOC_BYTES} bytes serialized)"
  noUnknownKeys py d TOP_KEYS "top-level"
  require (eqInt py (get d "version") 2) "version must be 2"
  require (eqStr (get d "units") "m") "units must be 'm'"
  let floors ← listOf (get d "floors") "floors must be a non-empty list"
  require (floors ≠ []) "floors must be a non-empty list"
  require (floors.length ≤ MAX_FLOORS) s!"too many floors (> {MAX_FLOORS})"
  return floors

def validateHouseMap (doc : Json F) : Except Fault Unit := do
  let floors ← checkTop py doc
  let _ ← floors.foldlM (checkFloor py) ⟨[], []⟩
  return ()

/-! ## The readers -/

/-- `r["name"]` if `"name" in r`. -/
def nameIn : Json F → Except Fault (Option (Json F))
  | .obj r => .ok (r.lookup "name")
  | .str s => if "name".toList <:+: s.toList then .error (.raised .typeError) else .ok none
  | .arr items => if items.any (eqStr · "name") then .error (.raised .typeError) else .ok none
  | _ => .error (.raised .typeError)

def namesOf (rooms : Json F) : Except Fault (List (Json F)) := do
  let rooms ← iter rooms
  let names ← rooms.mapM nameIn
  return names.reduceOption

def roomNames (house : Json F) : Except Fault (List (Json F)) := do
  let h ← fieldsOf house
  match get h "floors" with
  | .arr floors => do
    let names ← floors.mapM fun f => do
      let f ← fieldsOf f
      namesOf (getD f "rooms" (.arr []))
    return names.flatten
  | _ => namesOf (getD h "rooms" (.arr []))

/-- One edge of `_point_in_polygon`: whether the ray from the point crosses it. -/
def crosses (x y : F) (p q : Json F) : Except Fault Bool := do
  let xi ← index p 0
  let yi ← index p 1
  let xj ← index q 0
  let yj ← index q 1
  let yi ← number yi
  let yj ← number yj
  if py.lt (.float y) yi = py.lt (.float y) yj then return false
  let xi ← number xi
  let xj ← number xj
  let dx ← minus py xj xi
  let dx ← widen py dx
  let dy ← minus py (.float y) yi
  let dy ← widen py dy
  let height ← minus py yj yi
  let height ← widen py height
  if py.isZero height then .error .zeroDivisionError
  else do
    let xi ← widen py xi
    return py.lt (.float x) (.float (py.add (py.div (py.mul dx dy) height) xi))

/-- Each vertex with the one before it. -/
def edges (poly : List (Json F)) : List (Json F × Json F) := poly.zip (poly.getLast?.toList ++ poly)

def pointInPolygon (x y : F) (poly : List (Json F)) : Except Fault Bool :=
  (edges poly).foldlM (fun inside e => do
    let hit ← crosses py x y e.1 e.2
    return if hit then ! inside else inside) false

/-- `poly[i]` for every `i` of a polygon. -/
def vertices : Json F → Except Fault (List (Json F))
  | .obj _ => .error (.raised .keyError)
  | v => iter v

/-- `r.get("polygon") or []`. -/
def polygonOf (r : List (String × Json F)) : Json F :=
  if truthy py (get r "polygon") then get r "polygon" else .arr []

/-- `len(poly) >= 3 and _point_in_polygon(x, y, poly)`. -/
def covers (x y : F) (r : List (String × Json F)) : Except Fault Bool := do
  let n ← len (polygonOf py r)
  if 3 ≤ n then do
    let poly ← vertices (polygonOf py r)
    pointInPolygon py x y poly
  else return false

/-- The rooms of a floor at the level are looked through once, and then it returns. -/
def roomAtFloor (level : ℤ) (x y : F) (v : Json F) : Except Fault (Option (Json F)) := do
  let f ← fieldsOf v
  if eqInt py (get f "level") level then do
    let rooms ← iter (getD f "rooms" (.arr []))
    let found ← firstSome (fun v => do
      let r ← fieldsOf v
      let hit ← covers py x y r
      return if hit then some (get r "name") else none) rooms
    return some (found.getD .null)
  else return none

/-- None is null. -/
def roomAt (house : Json F) (level : ℤ) (x y : F) : Except Fault (Json F) := do
  let h ← fieldsOf house
  let floors ← iter (getD h "floors" (.arr []))
  let found ← firstSome (roomAtFloor py level x y) floors
  return found.getD .null

/-- A room, where it has the name. -/
def whereNamed (name : String) (v : Json F) : Except Fault (Option (List (String × Json F))) := do
  let r ← fieldsOf v
  return if eqStr (get r "name") name then some r else none

def roomPolygonFloor (name : String) (level : Option ℤ) (v : Json F) : Except Fault (Option (Json F)) := do
  let f ← fieldsOf v
  if level.all fun level => eqInt py (get f "level") level then do
    let rooms ← iter (getD f "rooms" (.arr []))
    match ← firstSome (whereNamed name) rooms with
    | some r => do
      let n ← len (polygonOf py r)
      return some (if 3 ≤ n then polygonOf py r else .null)
    | none => return none
  else return none

def roomPolygon (house : Json F) (name : String) (level : Option ℤ) : Except Fault (Json F) := do
  let h ← fieldsOf house
  let floors ← iter (getD h "floors" (.arr []))
  let found ← firstSome (roomPolygonFloor py name level) floors
  return found.getD .null

/-- `min(vs) + x`. -/
def minPlus (vs : List (Json F)) (x : F) : Except Fault F := do
  match ← vs.mapM number with
  | [] => .error (.raised .valueError)
  | n :: ns => do
    let least ← widen py (ns.foldl (fun least n => if py.lt n least then n else least) n)
    return py.add least x

/-- Whether a zone is one to rest in, and covers the point. -/
def restHit (x y : F) (v : Json F) : Except Fault (Option Bool) := do
  let z ← fieldsOf v
  if ! eqStr (get z "kind") "rest" then return none
  else do
    let hit ← covers py x y z
    return if hit then some true else none

/-- The rest zones of the floor `f`, seen from the top left of its room `r`. -/
def restIn (f r : List (String × Json F)) (x y : F) : Except Fault Bool := do
  let n ← len (polygonOf py r)
  if n < 3 then return false
  else do
    let poly ← iter (polygonOf py r)
    let xs ← poly.mapM (index · 0)
    let ys ← poly.mapM (index · 1)
    let absX ← minPlus py xs x
    let absY ← minPlus py ys y
    let zones ← iter (getD f "zones" (.arr []))
    let found ← firstSome (restHit py absX absY) zones
    return found.isSome

def inRestZoneFloor (room : String) (x y : F) (v : Json F) : Except Fault (Option Bool) := do
  let f ← fieldsOf v
  let rooms ← iter (getD f "rooms" (.arr []))
  match ← firstSome (whereNamed room) rooms with
  | some r => do
    let rest ← restIn py f r x y
    return some rest
  | none => return none

def inRestZone (house : Json F) (room : String) (x y : F) : Except Fault Bool := do
  let h ← fieldsOf house
  let floors ← iter (getD h "floors" (.arr []))
  let found ← firstSome (inRestZoneFloor py room x y) floors
  return found.getD false

/-! ## `upsert_room` -/

/-- `d[k] = v`. -/
def setField (k : String) (v : Json F) (fields : List (String × Json F)) : List (String × Json F) :=
  Dict.setEntry k v fields

def asDict : Json F → Option (List (String × Json F))
  | .obj fields => some fields
  | _ => none

/-- Rewrite the first dictionary that meets `p`. -/
def updateFirst (p : List (String × Json F) → Bool) (g : List (String × Json F) → List (String × Json F)) :
    List (Json F) → List (Json F)
  | [] => []
  | .obj d :: vs => if p d then .obj (g d) :: vs else .obj d :: updateFirst p g vs
  | v :: vs => v :: updateFirst p g vs

/-- The ids in a set, as far as they are texts. -/
def idsOf (ds : List (List (String × Json F))) : Except Fault (List String) := do
  let ids ← ds.mapM fun d => match get d "id" with
    | .str s => .ok (some s)
    | .arr _ => .error (.raised .typeError)
    | .obj _ => .error (.raised .typeError)
    | _ => .ok none
  return ids.reduceOption

theorem toString_injective : Function.Injective (toString : ℕ → String) := by
  intro m n h
  have hm := Nat.ofDigitChars_ten_toDigits (n := m)
  have hdigits : Nat.toDigits 10 m = Nat.toDigits 10 n := by
    rw [← Nat.toList_repr, ← Nat.toList_repr]
    exact congrArg String.toList h
  rw [hdigits, Nat.ofDigitChars_ten_toDigits] at hm
  exact hm.symm

theorem exists_free_le (stem : String) (taken : List String) :
    ∃ n ≤ taken.length + 1, 1 ≤ n ∧ stem ++ toString n ∉ taken := by
  by_contra hall
  push Not at hall
  let candidates := (List.range (taken.length + 1)).map fun i => stem ++ toString (i + 1)
  have hinj : Function.Injective fun i : ℕ => stem ++ toString (i + 1) := fun i j h =>
    Nat.succ_injective (toString_injective (String.append_right_inj stem |>.mp h))
  have hsub : candidates ⊆ taken := by
    intro s hs
    obtain ⟨i, hi, rfl⟩ := List.mem_map.mp hs
    exact hall (i + 1) (List.mem_range.mp hi) (Nat.le_add_left 1 i)
  have hle := (List.subperm_of_subset (List.nodup_range.map hinj) hsub).length_le
  simp at hle

theorem exists_free (stem : String) (taken : List String) : ∃ n, 1 ≤ n ∧ stem ++ toString n ∉ taken := by
  obtain ⟨n, -, hn⟩ := exists_free_le stem taken
  exact ⟨n, hn⟩

/-- The smallest free `<stem><n>`. -/
def uniqueId (stem : String) (taken : List String) : String := stem ++ toString (Nat.find (exists_free stem taken))

def atLevel (level : ℤ) (f : List (String × Json F)) : Bool := eqInt py (get f "level") level

def named (name : String) (r : List (String × Json F)) : Bool := eqStr (get r "name") name

/-- The list of rooms of a floor, where it has one. -/
def roomsOf (f : List (String × Json F)) : List (Json F) :=
  match getD f "rooms" (.arr []) with
  | .arr rooms => rooms
  | _ => []

def newFloor (level : ℤ) (text : String) (taken : List String) : List (String × Json F) :=
  [("id", .str (uniqueId ("f" ++ text) taken)), ("name", .str ("Nível " ++ text)), ("level", .int level),
    ("rooms", .arr []), ("walls", .arr []), ("features", .arr []), ("zones", .arr []), ("backdrop", .null)]

/-- The floors with one at that level. -/
def floorsWith (floors : List (Json F)) (level : ℤ) : Except Fault (List (Json F)) :=
  if (floors.filterMap asDict).any (atLevel py level) then .ok floors
  else do
    let taken ← idsOf (floors.filterMap asDict)
    let text ← str level
    return floors ++ [.obj (newFloor level text taken)]

/-- The ids of the rooms of all floors. -/
def roomIds (floors : List (Json F)) : Except Fault (List String) := do
  let ids ← (floors.filterMap asDict).mapM fun f => do
    let rooms ← iter (getD f "rooms" (.arr []))
    idsOf (rooms.filterMap asDict)
  return ids.flatten

/-- The rooms of the floor with that one. -/
def roomsWith (floors rooms : List (Json F)) (name : String) (polygon : Json F) : Except Fault (List (Json F)) :=
  if (rooms.filterMap asDict).any (named name) then
    .ok (updateFirst (named name) (setField "polygon" polygon) rooms)
  else do
    let taken ← roomIds floors
    return rooms ++ [Json.obj [("id", .str (uniqueId "r_" taken)), ("name", .str name), ("polygon", polygon)]]

def floorsOf (h : List (String × Json F)) : List (Json F) :=
  match get h "floors" with
  | .arr floors => floors
  | _ => []

/-- The caller has checked that the name is a text. -/
def upsertRoom (house : Json F) (level : ℤ) (name : String) (polygon : Json F) : Except Fault (Json F) := do
  let h ← fieldsOf house
  let floors ← floorsWith py (floorsOf h) level
  let floors := updateFirst (atLevel py level) (fun f => setField "rooms" (.arr (roomsOf f)) f) floors
  let rooms := (((floors.filterMap asDict).find? (atLevel py level)).map roomsOf).getD []
  let rooms ← roomsWith floors rooms name polygon
  return Json.obj (setField "floors"
    (.arr (updateFirst (atLevel py level) (setField "rooms" (.arr rooms)) floors)) h)

end

end Wavr.HouseMap
