import Wavr.NativeJson

/-!
# The client view

`client_view.py` with the `exit_code` of `status.py`, and what `client_view.cpp` and
`semantics.cpp` compute in their place.
-/

namespace Wavr.ClientView

open NativeJson
open Json (get)

section
variable {F : Type}

def isStr : Json F → Bool
  | .str _ => true
  | _ => false

/-- An integer that is not a bool. -/
def isInt : Json F → Bool
  | .int _ => true
  | _ => false

def isNum (isfinite : F → Bool) : Json F → Bool
  | .int _ => true
  | .float x => isfinite x
  | _ => false

def isBool : Json F → Bool
  | .bool _ => true
  | _ => false

/-- The value when it has the right type, otherwise None. -/
def keep (p : Json F → Bool) (v : Json F) : Json F := if p v then v else .null

def str (v : Json F) : Json F := keep isStr v

def num (isfinite : F → Bool) (v : Json F) : Json F := keep (isNum isfinite) v

def int (v : Json F) : Json F := keep isInt v

def bool (v : Json F) : Json F := keep isBool v

def asDict : Json F → Option (List (String × Json F))
  | .obj d => some d
  | _ => none

def dicts : Json F → List (List (String × Json F))
  | .arr items => items.filterMap asDict
  | _ => []

/-- `v is True`. -/
def isTrue : Json F → Bool
  | .bool b => b
  | _ => false

variable (nb : Numbers F) (isfinite : F → Bool)

def source (s : List (String × Json F)) : List (String × Json F) :=
  [("modality", str (get s "modality")),
    ("sensor_id", str (get s "sensor_id")),
    ("presence", bool (get s "presence")),
    ("confidence", num isfinite (get s "confidence")),
    ("age_s", num isfinite (get s "age_s")),
    ("health", str (get s "health")),
    ("count", int (get s "count"))]

def roomView (name : String) (room : List (String × Json F)) : List (String × Json F) :=
  [("room", .str name),
    ("occupied", bool (get room "occupied")),
    ("confidence", num isfinite (get room "confidence")),
    ("person_count", int (get room "person_count")),
    ("precision_level", str (get room "precision_level")),
    ("explanation", str (get room "explanation")),
    ("ts", str (get room "ts")),
    ("watch", .bool (isTrue (get room "watch"))),
    ("unrecognized", .bool (isTrue (get room "unrecognized"))),
    ("sources", .arr ((dicts (get room "sources")).map fun s => .obj (source isfinite s)))]

def roomOf (e : String × Json F) : Option (List (String × Json F)) :=
  (asDict e.2).map (roomView isfinite e.1)

end

/-! ## The native projection -/

namespace Native
variable {F : Type}

/-- The value under the key when it has the right type, otherwise null. -/
def valueOrNull (p : Value F → Bool) (o : Value F) (k : String) : Value F :=
  match o.find k with
  | some v => if p v then v else .null
  | none => .null

def strOrNull (o : Value F) (k : String) : Value F := valueOrNull Value.isString o k

/-- A number that is not a NaN or an infinity. -/
def isShown (isfinite : F → Bool) : Value F → Bool
  | .float x => isfinite x
  | v => v.isNumber

def numOrNull (isfinite : F → Bool) (o : Value F) (k : String) : Value F := valueOrNull (isShown isfinite) o k

def intOrNull (o : Value F) (k : String) : Value F := valueOrNull Value.isNumberInteger o k

def boolOrNull (o : Value F) (k : String) : Value F := valueOrNull Value.isBoolean o k

def isTrue (o : Value F) (k : String) : Bool :=
  match o.find k with
  | some v => v.isBoolean && v.getBool
  | none => false

/-- The elements of `o[k]` of a kind, when it is a list. -/
def elements (p : Value F → Bool) (o : Value F) (k : String) : List (Value F) :=
  match o.find k with
  | some (.array items) => items.filter p
  | _ => []

def objects (o : Value F) (k : String) : List (Value F) := elements Value.isObject o k

def strings (o : Value F) (k : String) : List (Value F) := elements Value.isString o k

variable (nb : Numbers F) (isfinite : F → Bool)

def source (s : Value F) : Value F :=
  .ofFields [("modality", strOrNull s "modality"),
    ("sensor_id", strOrNull s "sensor_id"),
    ("presence", boolOrNull s "presence"),
    ("confidence", numOrNull isfinite s "confidence"),
    ("age_s", numOrNull isfinite s "age_s"),
    ("health", strOrNull s "health"),
    ("count", intOrNull s "count")]

def roomView (name : String) (r : Value F) : Value F :=
  .ofFields [("room", .string name),
    ("occupied", boolOrNull r "occupied"),
    ("confidence", numOrNull isfinite r "confidence"),
    ("person_count", intOrNull r "person_count"),
    ("precision_level", strOrNull r "precision_level"),
    ("explanation", strOrNull r "explanation"),
    ("ts", strOrNull r "ts"),
    ("watch", .boolean (isTrue r "watch")),
    ("unrecognized", .boolean (isTrue r "unrecognized")),
    ("sources", .array ((objects r "sources").map (source isfinite)))]

/-- An unsigned integer is an integer, so it is read as a signed one. -/
def truthy : Value F → Bool
  | .null => false
  | .boolean b => b
  | .integer n => n ≠ 0
  | .unsigned n => n.toInt64 ≠ 0
  | .float x => ! nb.isZero x
  | .string s => s ≠ ""
  | .array items => ! items.isEmpty
  | .object m => ! m.isEmpty

/-- The text, or `std::string()`. -/
def textOf : Value F → String
  | .string s => s
  | _ => ""

def items : Value F → List (String × Value F)
  | .object m => m
  | _ => []

end Native

/-! ## One field of both -/

section
variable {F : Type} {nb : Numbers F} {isfinite : F → Bool} {v o : Value F} {j : Json F}
  {fields : List (String × Json F)}

theorem isString_eq (h : Denotes v j) : v.isString = isStr j := by cases h <;> rfl

theorem isNumberInteger_eq (h : Denotes v j) : v.isNumberInteger = isInt j := by cases h <;> rfl

theorem isBoolean_eq (h : Denotes v j) : v.isBoolean = isBool j := by cases h <;> rfl

/-- What the native loop has gathered, beside the rooms that Python lists. -/
def Gathered (acc : List (Value F) × Bool) (rooms : List (List (String × Json F))) (nb : Numbers F) : Prop :=
  List.Forall₂ (fun v d => Denotes v (.obj d)) acc.1 rooms ∧
    acc.2 = rooms.any fun r => Json.truthy nb (get r "watch")

end

def healthy : Json ℚ := .obj [("state", .str "healthy"), ("uptime_s", .int 90)]

def twoRooms : Json ℚ := .obj [("hall", .obj [("watch", .bool true)]), ("attic", .obj []), ("cellar", .null)]

end Wavr.ClientView
