import Wavr.Decimal
import Wavr.Events
import Wavr.HouseMap
import Wavr.SpatialFrames

/-!
# Anchors

`AnchorStore` of `anchors.py`: named places, with the geometry they may have, and the ids that other
systems know them by. A polygon is stored as text, rounded to four places.
-/

namespace Wavr.Anchors

open Fusion (roundHalfEven FRAME_ROOM)
open HouseMap (Number widen minus floatOf)

/-- `AnchorError` with its text, the error of a primary key, or what the interpreter raises. -/
inductive Fault
  | anchorError (text : String)
  | integrityError
  | python (e : HouseMap.Fault)
  deriving DecidableEq

inductive Kind
  | logical
  | point
  | area
  deriving DecidableEq

section
variable {F : Type}

/-- What the interpreter computes, beyond what a house map needs. -/
structure Interpreter (F : Type) extends HouseMap.Python F where
  /-- `a <= b`. -/
  le : F → F → Bool
  /-- `0.5` and `-0.5`. -/
  half : F
  minusHalf : F
  floatOfStr : String → Option F
  /-- What a finite double stands for, and its sign bit. -/
  value : F → ℚ
  negative : F → Bool
  /-- The text for a point outside a room of this width and height. -/
  outside : F → F → F → F → String

def MAX_NAME : ℕ := 80

def MAX_NOTE : ℕ := 400

def MAX_POLYGON : ℕ := 64

def KINDS : List (String × Kind) := [("logical", .logical), ("point", .point), ("area", .area)]

abbrev Polygon (F : Type) := List (F × F)

/-- A row of `anchors`, under its `anchor_id`. -/
structure Row (F : Type) where
  name : String
  room : String
  level : ℤ
  kind : Kind
  x : Option F
  y : Option F
  z : Option F
  polygon : String
  note : String
  createdTs : String
  updatedTs : String

structure Store (F : Type) where
  anchors : Dict String (Row F)
  /-- By anchor, provider and external id: the origin and the time. -/
  mappings : Dict (String × String × String) (String × String)

def empty : Store F := ⟨Dict.empty, Dict.empty⟩

structure Anchor (F : Type) where
  anchorId : String
  name : String
  room : String
  level : ℤ
  kind : Kind
  x : Option F
  y : Option F
  z : Option F
  polygon : Polygon F
  note : String
  createdTs : String
  updatedTs : String
  /-- Provider, external id and origin. -/
  mappings : List (String × String × String)

/-- What `create` is called with. -/
structure Args (F : Type) where
  name : String
  room : String
  level : ℤ
  kind : String
  x : Json F
  y : Json F
  z : Json F
  polygon : Json F
  note : String
  roomPolygon : Option (List (Number F × Number F))

/-- What is checked of a new anchor. -/
structure Geometry (F : Type) where
  x : Option F
  y : Option F
  z : Option F
  polygon : Polygon F

variable (py : Interpreter F)

/-! ## Checks -/

def lift {α : Type} (x : Except HouseMap.Fault α) : Except Fault α := x.mapError .python

def require (c : Bool) (text : String) : Except Fault Unit := if c then .ok () else .error (.anchorError text)

/-- `_clean`. -/
def clean (text what : String) (limit : ℕ) : Except Fault String := do
  let s := Text.collapse text
  require (s ≠ "") s!"{what} is required"
  require (s.length ≤ limit) s!"{what} must be {limit} characters or fewer"
  return s

/-- `_finite`. -/
def finite (v : Json F) : Except Fault Bool :=
  match floatOf py.toPython py.floatOfStr v with
  | .ok x => .ok (py.isfinite x)
  | .error (.raised .typeError) => .ok false
  | .error (.raised .valueError) => .ok false
  | .error e => .error (.python e)

/-- One after the other, as far as they are finite. -/
def allFinite : List (Json F) → Except Fault Bool
  | [] => return true
  | v :: vs => do
    if ← finite py v then allFinite vs else return false

def toFloat (v : Json F) : Except Fault F := lift (floatOf py.toPython py.floatOfStr v)

def greatest (n : Number F) (ns : List (Number F)) : Number F :=
  ns.foldl (fun best n => if py.lt best n then n else best) n

def least (n : Number F) (ns : List (Number F)) : Number F :=
  ns.foldl (fun best n => if py.lt n best then n else best) n

/-- `max(ns) - min(ns)`. -/
def extent : List (Number F) → Except Fault (Number F)
  | [] => .error (.python (.raised .valueError))
  | n :: ns => lift (minus py.toPython (greatest py n ns) (least py n ns))

/-- `-ROOM_SLACK_M <= x <= w + ROOM_SLACK_M`. -/
def within (x : F) (w : Number F) : Except Fault Bool :=
  if py.le py.minusHalf x then do
    let w ← lift (widen py.toPython w)
    return py.le x (py.add w py.half)
  else return false

def validateInRoom (roomPolygon : Option (List (Number F × Number F))) (points : Polygon F) : Except Fault Unit :=
  match roomPolygon with
  | none => .ok ()
  | some corners =>
    if corners.length < 3 then .ok ()
    else do
      let w ← extent py (corners.map Prod.fst)
      let h ← extent py (corners.map Prod.snd)
      points.forM fun p => do
        let across ← within py p.1 w
        let inside ← if across then within py p.2 h else .ok false
        if inside then .ok ()
        else do
          let w ← lift (widen py.toPython w)
          let h ← lift (widen py.toPython h)
          .error (.anchorError (py.outside p.1 p.2 w h))

/-- `z`, unless it is None. -/
def optionalZ (z : Json F) : Except Fault (Option F) :=
  match z with
  | .null => .ok none
  | z => do
    let fine ← finite py z
    require fine "z must be a finite number of metres"
    let z ← toFloat py z
    return some z

def pointGeometry (x y z : Json F) (roomPolygon : Option (List (Number F × Number F))) (text : String) :
    Except Fault (Geometry F) := do
  let fine ← allFinite py [x, y]
  require fine text
  let x ← toFloat py x
  let y ← toFloat py y
  let z ← optionalZ py z
  validateInRoom py roomPolygon [(x, y)]
  return ⟨some x, some y, z, []⟩

def checkPoint (p : Json F) : Except Fault Unit :=
  match p with
  | .arr [a, b] => do
    let fine ← allFinite py [a, b]
    require fine "each area point must be [x, y] in metres"
  | _ => .error (.anchorError "each area point must be [x, y] in metres")

def toPair (p : Json F) : Except Fault (F × F) :=
  match p with
  | .arr [a, b] => do
    let a ← toFloat py a
    let b ← toFloat py b
    return (a, b)
  | _ => .error (.python (.raised .valueError))

/-- `list(polygon or ())`. -/
def pointsOf (polygon : Json F) : Except Fault (List (Json F)) :=
  if HouseMap.truthy py.toPython polygon then lift (HouseMap.iter polygon) else .ok []

def areaGeometry (polygon : Json F) (roomPolygon : Option (List (Number F × Number F))) :
    Except Fault (Geometry F) := do
  let pts ← pointsOf py polygon
  require (3 ≤ pts.length) "an area anchor needs at least 3 points"
  require (pts.length ≤ MAX_POLYGON) s!"an area may have at most {MAX_POLYGON} points"
  pts.forM (checkPoint py)
  let poly ← pts.mapM (toPair py)
  validateInRoom py roomPolygon poly
  return ⟨none, none, none, poly⟩

/-- A logical anchor has no geometry, whatever it is called with. -/
def geometry (kind : Kind) (args : Args F) : Except Fault (Geometry F) :=
  match kind with
  | .point => pointGeometry py args.x args.y args.z args.roomPolygon "a point anchor needs finite x and y in metres"
  | .area => areaGeometry py args.polygon args.roomPolygon
  | .logical => .ok ⟨none, none, none, []⟩

def kindOf (kind : String) : Except Fault Kind :=
  match KINDS.lookup kind with
  | some kind => .ok kind
  | none => .error (.anchorError "kind must be one of ['area', 'logical', 'point']")

/-! ## The text of a polygon -/

/-- `f"{x:.4f}"` of a finite double. -/
def fixed4 (x : F) : List Char :=
  Decimal.fixed 4 (py.negative x) (roundHalfEven (|py.value x| * 10 ^ 4)).toNat

def dumpPoint (p : F × F) : List Char := fixed4 py p.1 ++ ',' :: fixed4 py p.2

def dumpPolygon (poly : Polygon F) : String := String.ofList ([';'].intercalate (poly.map (dumpPoint py)))

/-- A stored point, unless it is malformed. -/
def loadPoint (part : List Char) : Option (F × F) :=
  match part.splitOn ',' with
  | [a, b] => do
    let a ← py.floatOfStr (String.ofList a)
    let b ← py.floatOfStr (String.ofList b)
    return (a, b)
  | _ => none

def loadPolygon (text : String) : Polygon F :=
  ((text.toList.splitOn ';').filter (· ≠ [])).filterMap (loadPoint py)

/-! ## Reading -/

/-- The mappings of an anchor, by provider and external id. -/
def mappingsOf (s : Store F) (anchorId : String) : List (String × String × String) :=
  ((s.mappings.entries.filter fun e => e.1.1 = anchorId).map fun e => (e.1.2.1, e.1.2.2, e.2.1)).insertionSort
    fun m m' => m.1 < m'.1 ∨ m.1 = m'.1 ∧ m.2.1 ≤ m'.2.1

def hydrate (s : Store F) (anchorId : String) (row : Row F) : Anchor F where
  anchorId := anchorId
  name := row.name
  room := row.room
  level := row.level
  kind := row.kind
  x := row.x
  y := row.y
  z := row.z
  polygon := loadPolygon py row.polygon
  note := row.note
  createdTs := row.createdTs
  updatedTs := row.updatedTs
  mappings := mappingsOf s anchorId

def get (s : Store F) (anchorId : String) : Option (Anchor F) :=
  (s.anchors.get? anchorId).map (hydrate py s anchorId)

/-- `ORDER BY room, name`. -/
def list (s : Store F) : List (Anchor F) :=
  (s.anchors.entries.insertionSort fun e e' =>
    e.2.room < e'.2.room ∨ e.2.room = e'.2.room ∧ e.2.name ≤ e'.2.name).map
    fun e => hydrate py s e.1 e.2

/-! ## Publishing -/

/-- The value of `kind`. -/
def Kind.value : Kind → String
  | .logical => "logical"
  | .point => "point"
  | .area => "area"

def Anchor.positioned (a : Anchor F) : Bool := a.kind = .point ∨ a.kind = .area

/-- The value of a REAL column, or None. -/
def ofColumn : Option F → Json F
  | some x => .float x
  | none => .null

def ofMapping (m : String × String × String) : Json F :=
  .obj [("provider_id", .str m.1), ("external_id", .str m.2.1), ("origin", .str m.2.2)]

/-- What the kind says of the geometry. -/
def shapeFields (a : Anchor F) : List (String × Json F) :=
  match a.kind with
  | .point =>
    [("x", ofColumn a.x), ("y", ofColumn a.y), ("frame", .str FRAME_ROOM)] ++
      match a.z with
      | some z => [("z", .float z)]
      | none => []
  | .area =>
    [("polygon", .arr (a.polygon.map fun p => .arr [.float p.1, .float p.2])), ("frame", .str FRAME_ROOM)]
  | .logical => []

def toDict (knownRooms : Option (List String)) (a : Anchor F) : List (String × Json F) :=
  [("anchor_id", .str a.anchorId), ("name", .str a.name), ("room", .str a.room), ("level", .int a.level),
    ("kind", .str a.kind.value), ("positioned", .bool a.positioned)] ++
  shapeFields a ++
  (if a.note = "" then [] else [("note", .str a.note)]) ++
  (if a.mappings = [] then [] else [("mappings", .arr (a.mappings.map ofMapping))]) ++
  (match knownRooms with
    | some rooms => [("orphaned", .bool (! rooms.contains a.room))]
    | none => []) ++
  [("created_ts", .str a.createdTs), ("updated_ts", .str a.updatedTs)]

/-! ## Writing -/

/-- Whether a number goes into an INTEGER column. -/
def isInt64 (n : ℤ) : Bool := -2 ^ 63 ≤ n ∧ n < 2 ^ 63

/-- A new anchor, checked. -/
structure Checked (F : Type) where
  name : String
  room : String
  kind : Kind
  note : String
  geometry : Geometry F

def check (args : Args F) : Except Fault (Checked F) := do
  let name ← clean args.name "anchor name" MAX_NAME
  let room ← clean args.room "room" MAX_NAME
  let kind ← kindOf args.kind
  let geometry ← geometry py kind args
  return ⟨name, room, kind, Text.truncate MAX_NOTE (Text.collapse args.note), geometry⟩

/-- `hex` is drawn at random. -/
def create (s : Store F) (hex ts : String) (args : Args F) : Except Fault (Anchor F) × Store F :=
  match check py args with
  | .error e => (.error e, s)
  | .ok c =>
    let anchorId := "anc_" ++ hex
    let g := c.geometry
    if ! isInt64 args.level then (.error (.python (.raised .overflowError)), s)
    else if (s.anchors.get? anchorId).isSome then (.error .integrityError, s)
    else
      let row := ⟨c.name, c.room, args.level, c.kind, g.x, g.y, g.z, dumpPolygon py g.polygon, c.note, ts, ts⟩
      (.ok ⟨anchorId, c.name, c.room, args.level, c.kind, g.x, g.y, g.z, g.polygon, c.note, ts, ts, []⟩,
        { s with anchors := s.anchors.set anchorId row })

/-- `UPDATE anchors SET … WHERE anchor_id = ?`. -/
def update (s : Store F) (anchorId : String) (f : Row F → Row F) : Store F :=
  { s with anchors := s.anchors.map fun k row => if k = anchorId then f row else row }

def rename (s : Store F) (ts anchorId name : String) : Except Fault (Option (Anchor F)) × Store F :=
  match clean name "anchor name" MAX_NAME with
  | .error e => (.error e, s)
  | .ok name =>
    let s' := update s anchorId fun row => { row with name, updatedTs := ts }
    if (s.anchors.get? anchorId).isNone then (.error (.anchorError "no such anchor"), s')
    else (.ok (get py s' anchorId), s')

def move (s : Store F) (ts anchorId room : String) (level : Option ℤ) :
    Except Fault (Option (Anchor F)) × Store F :=
  match clean room "room" MAX_NAME with
  | .error e => (.error e, s)
  | .ok room => match get py s anchorId with
    | none => (.error (.anchorError "no such anchor"), s)
    | some existing =>
      let level := level.getD existing.level
      if ! isInt64 level then (.error (.python (.raised .overflowError)), s)
      else
        let s' := update s anchorId fun row =>
          { row with room, level, kind := .logical, x := none, y := none, z := none, polygon := "", updatedTs := ts }
        (.ok (get py s' anchorId), s')

def place (s : Store F) (ts anchorId : String) (x y z : Json F)
    (roomPolygon : Option (List (Number F × Number F))) :
    Except Fault (Option (Anchor F)) × Store F :=
  match get py s anchorId with
  | none => (.error (.anchorError "no such anchor"), s)
  | some _ => match pointGeometry py x y z roomPolygon "x and y must be finite metres" with
    | .error e => (.error e, s)
    | .ok g =>
      let s' := update s anchorId fun row =>
        { row with kind := .point, x := g.x, y := g.y, z := g.z, polygon := "", updatedTs := ts }
      (.ok (get py s' anchorId), s')

/-- Whether a row went. -/
def delete (s : Store F) (anchorId : String) : Bool × Store F :=
  ((s.anchors.get? anchorId).isSome,
    ⟨s.anchors.erase anchorId, s.mappings.filter fun k _ => k.1 ≠ anchorId⟩)

def bind (s : Store F) (ts anchorId providerId externalId origin : String) :
    Except Fault (String × String × String × String) × Store F :=
  if (get py s anchorId).isNone then (.error (.anchorError "no such anchor"), s)
  else
    let checked : Except Fault (String × String) := do
      let providerId ← clean providerId "provider_id" MAX_NAME
      let externalId ← clean externalId "external_id" 200
      require (origin = "declared" ∨ origin = "imported") "origin must be 'declared' or 'imported'"
      return (providerId, externalId)
    match checked with
    | .error e => (.error e, s)
    | .ok (providerId, externalId) =>
      (.ok (anchorId, providerId, externalId, origin),
        { s with mappings := s.mappings.setDefault (anchorId, providerId, externalId) (origin, ts) })

def unbind (s : Store F) (anchorId providerId externalId : String) : Bool × Store F :=
  ((s.mappings.get? (anchorId, providerId, externalId)).isSome,
    { s with mappings := s.mappings.erase (anchorId, providerId, externalId) })

/-- A call of the store, with the clock and the draw of a new id. -/
inductive Call (F : Type)
  | create (hex ts : String) (args : Args F)
  | rename (ts anchorId name : String)
  | move (ts anchorId room : String) (level : Option ℤ)
  | place (ts anchorId : String) (x y z : Json F) (roomPolygon : Option (List (Number F × Number F)))
  | delete (anchorId : String)
  | bind (ts anchorId providerId externalId origin : String)
  | unbind (anchorId providerId externalId : String)

/-- Whether the call returns, and the tables behind it. -/
def call (s : Store F) : Call F → Except Fault Unit × Store F
  | .create hex ts args => ((create py s hex ts args).1.map fun _ => (), (create py s hex ts args).2)
  | .rename ts anchorId name => ((rename py s ts anchorId name).1.map fun _ => (),
        (rename py s ts anchorId name).2)
  | .move ts anchorId room level =>
    ((move py s ts anchorId room level).1.map fun _ => (), (move py s ts anchorId room level).2)
  | .place ts anchorId x y z roomPolygon =>
    ((place py s ts anchorId x y z roomPolygon).1.map fun _ => (), (place py s ts anchorId x y z roomPolygon).2)
  | .delete anchorId => (.ok (), (delete s anchorId).2)
  | .bind ts anchorId providerId externalId origin =>
    ((bind py s ts anchorId providerId externalId origin).1.map fun _ => (),
      (bind py s ts anchorId providerId externalId origin).2)
  | .unbind anchorId providerId externalId => (.ok (), (unbind s anchorId providerId externalId).2)

def step (s : Store F) (c : Call F) : Store F := (call py s c).2

end

end Wavr.Anchors
