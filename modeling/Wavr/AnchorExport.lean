import Wavr.AnchorsHonest
import Wavr.ConfigExport

/-!
# The file that is exported

What `config_export.py` writes for another machine, and which anchors can be made again from it.
-/

namespace Wavr.AnchorExport

open Anchors Checks
open ConfigExport (CONFIG_VERSION)
open HouseMap (truthy)

section
variable {F : Type}

/-! ## The file -/

def CAMERA_FIELDS : List String := ["name", "room", "level", "confidence"]

def NODE_FIELDS : List String := ["node_id", "label", "room", "sensor_type", "modality", "state", "transport"]

def ANCHOR_FIELDS : List String := ["name", "room", "level", "kind", "x", "y", "z", "note"]

def HA_MAPPING_FIELDS : List String := ["entity_id", "room", "modality", "enabled", "label", "areas"]

def PROVIDER_FIELDS : List String :=
  ["provider_id", "label", "kind", "reach", "modality", "ceiling", "confidence", "enabled", "notes"]

def SECRET_SETTINGS : List String := ["ha_token", "mqtt_password", "diag_endpoint", "local_token"]

def NOTE : String := "No password, token or camera URL is in this file, and no " ++
  "person is either. It describes a building. Re-enter the " ++
  "camera URLs and any tokens after importing."

/-- What the file is gathered from. A setting has a key and a value. -/
structure Gathered (F : Type) where
  space : List (String × Json F)
  house : List (String × Json F)
  cameras : List (Json F)
  nodes : List (Json F)
  anchors : List (Json F)
  haMappings : List (Json F)
  providers : List (Json F)
  settings : List (String × Json F)
  topology : List (String × Json F)

/-- `_pick`. -/
def pick (row : Json F) (fields : List String) : List (String × Json F) :=
  match row with
  | .obj d => fields.filterMap fun k =>
    match d.lookup k with
    | some .null => none
    | some v => some (k, v)
    | none => none
  | _ => []

def pickAll (rows : List (Json F)) (fields : List String) : Json F :=
  .arr (rows.map fun row => .obj (pick row fields))

/-- `d.get(k, "")`. -/
def getText (d : List (String × Json F)) (k : String) : Json F := (d.lookup k).getD (.str "")

variable (py : Interpreter F)

/-- The keys of the secrets that have a value, in order. -/
def secretsNeeded (settings : List (String × Json F)) : List String :=
  ((settings.filter fun e => SECRET_SETTINGS.contains e.1 && truthy py.toPython e.2).map Prod.fst).insertionSort
    (· ≤ ·)

def settingsOf (settings : List (String × Json F)) : List (String × Json F) :=
  (settings.filter fun e => e.1 ≠ "" ∧ ! SECRET_SETTINGS.contains e.1).foldl
    (fun d e => Dict.setEntry e.1 e.2 d) []

def exportConfig (stamp : String) (g : Gathered F) : List (String × Json F) :=
  [("wavr_config_version", .int CONFIG_VERSION),
    ("exported_at", .str stamp),
    ("space", .obj [("name", getText g.space "name"), ("kind", getText g.space "kind")]),
    ("house", .obj g.house),
    ("cameras", pickAll g.cameras CAMERA_FIELDS),
    ("nodes", pickAll g.nodes NODE_FIELDS),
    ("anchors", pickAll g.anchors ANCHOR_FIELDS),
    ("ha_mappings", pickAll g.haMappings HA_MAPPING_FIELDS),
    ("external_providers", pickAll g.providers PROVIDER_FIELDS),
    ("topology", .obj g.topology),
    ("settings", .obj (settingsOf g.settings)),
    ("secrets_you_must_supply_again", .arr ((secretsNeeded py g.settings).map .str)),
    ("note", .str NOTE)]

/-- The file of a Space with these anchors. -/
def fileOf (stamp : String) (g : Gathered F) (s : Store F) : List (String × Json F) :=
  exportConfig py stamp { g with anchors := (list py s).map fun a => .obj (toDict none a) }

/-! ## Making an anchor again -/

/-- A field of the row, or the default where the row does not have it. -/
def textField (row : List (String × Json F)) (k default : String) : Option String :=
  match row.lookup k with
  | some (.str s) => some s
  | some _ => none
  | none => some default

/-- `create(**row)`, for a row with a name, a room and fields of the declared types. -/
def argsOf (row : List (String × Json F)) : Option (Args F) := do
  let .str name ← row.lookup "name" | none
  let .str room ← row.lookup "room" | none
  let level ← match row.lookup "level" with
    | some (.int n) => some n
    | some _ => none
    | none => some 0
  let kind ← textField row "kind" "logical"
  let note ← textField row "note" ""
  return ⟨name, room, level, kind, Json.get row "x", Json.get row "y", Json.get row "z", Json.get row "polygon", note,
    none⟩

/-- The same place, under whatever id. -/
structure SamePlace (a b : Anchor F) : Prop where
  name : b.name = a.name
  room : b.room = a.room
  level : b.level = a.level
  kind : b.kind = a.kind
  note : b.note = a.note
  x : b.x = a.x
  y : b.y = a.y
  z : b.z = a.z
  polygon : b.polygon = a.polygon

/-- Whatever the store, if the new id is free, `create` takes the row and returns the anchor, and it reads back. -/
def MakesAgain (row : Json F) (a : Anchor F) : Prop :=
  ∃ fields args, row = .obj fields ∧ argsOf fields = some args ∧
    ∀ (s : Store F) (hex ts : String), s.anchors.get? ("anc_" ++ hex) = none →
      ∃ b c, (create py s hex ts args).1 = .ok b ∧ get py (create py s hex ts args).2 ("anc_" ++ hex) = some c ∧
        SamePlace a b ∧ SamePlace a c

/-- The rows of the file make all anchors again. -/
def Rebuilds (stamp : String) (g : Gathered F) (s : Store F) : Prop :=
  ∃ rows, Json.get (fileOf py stamp g s) "anchors" = .arr rows ∧ List.Forall₂ (MakesAgain py) rows (list py s)

/-- No anchor is an area, and no note was cut behind a blank. -/
def Portable (s : Store F) : Prop :=
  ∀ anchorId row, s.anchors.get? anchorId = some row → row.kind ≠ .area ∧ row.note.toList.getLast? ≠ some ' '


end

section
variable {F : Type} {py : Interpreter F}

/-! ## A row of the file -/

/-- What the file keeps of a field. -/
def kept (o : Option (Json F)) : Option (Json F) :=
  match o with
  | some .null => none
  | o => o

theorem lookup_pick (d : List (String × Json F)) (fields : List String) (k : String) :
    (pick (.obj d) fields).lookup k = if k ∈ fields then kept (d.lookup k) else none := by
  rw [pick]
  induction fields with
  | nil => rfl
  | cons k' fields ih =>
    have hfield : (match d.lookup k' with
        | some .null => none
        | some v => some (k', v)
        | none => none) = (kept (d.lookup k')).map fun v => (k', v) := by
      cases d.lookup k' with
      | none => rfl
      | some v => cases v <;> rfl
    rw [List.filterMap_cons, hfield]
    by_cases hk : k = k'
    · subst hk
      rw [if_pos List.mem_cons_self]
      cases hv : kept (d.lookup k) with
      | none =>
        rw [Option.map_none]
        dsimp only
        rw [ih, hv, ite_self]
      | some v => exact List.lookup_cons_self
    · have hmem : k ∈ k' :: fields ↔ k ∈ fields := List.mem_cons.trans (or_iff_right hk)
      rw [if_congr hmem rfl rfl, ← ih]
      cases kept (d.lookup k') with
      | none => rfl
      | some v =>
        rw [Option.map_some]
        dsimp only
        rw [Dict.lookup_cons, if_neg hk]

/-- A key that only the geometry has. -/
theorem lookup_toDict (a : Anchor F) {k : String} (hk : k ∈ ["x", "y", "z"]) :
    (toDict none a).lookup k = (shapeFields a).lookup k := by
  simp only [List.mem_cons, List.not_mem_nil, or_false] at hk
  unfold toDict
  by_cases hnote : a.note = "" <;> by_cases hmappings : a.mappings = [] <;> rcases hk with rfl | rfl | rfl <;>
    simp [hnote, hmappings, List.lookup_append, Dict.lookup_cons]

theorem lookup_note (a : Anchor F) :
    (toDict none a).lookup "note" = if a.note = "" then none else some (.str a.note) := by
  have hshape : (shapeFields a).lookup "note" = none := by
    unfold shapeFields
    cases a.kind with
    | logical => rfl
    | area => rfl
    | point => cases a.z <;> rfl
  unfold toDict
  by_cases hnote : a.note = "" <;> by_cases hmappings : a.mappings = [] <;>
    simp [hnote, hmappings, hshape, List.lookup_append, Dict.lookup_cons]

/-- A coordinate, of a point only. -/
def coordinate (a : Anchor F) (c : Option F) : Json F := if a.kind = .point then ofColumn c else .null

/-- The anchor's row. -/
def rowOf (a : Anchor F) : List (String × Json F) := pick (.obj (toDict none a)) ANCHOR_FIELDS

theorem getD_kept (o : Option (Json F)) : (kept o).getD .null = o.getD .null := by
  cases o with
  | none => rfl
  | some v => cases v <;> rfl

theorem get_rowOf (a : Anchor F) {k : String} (hk : k ∈ ["x", "y", "z"]) :
    Json.get (rowOf a) k = ((shapeFields a).lookup k).getD .null := by
  have hfield : k ∈ ANCHOR_FIELDS := by
    simp only [List.mem_cons, List.not_mem_nil, or_false] at hk
    rcases hk with rfl | rfl | rfl <;> decide
  rw [Json.get, rowOf, lookup_pick, if_pos hfield, lookup_toDict a hk, getD_kept]

theorem get_x (a : Anchor F) : Json.get (rowOf a) "x" = coordinate a a.x := by
  rw [get_rowOf a (by decide), shapeFields, coordinate]
  cases a.kind <;> rfl

theorem get_y (a : Anchor F) : Json.get (rowOf a) "y" = coordinate a a.y := by
  rw [get_rowOf a (by decide), shapeFields, coordinate]
  cases a.kind <;> rfl

theorem get_z (a : Anchor F) : Json.get (rowOf a) "z" = coordinate a a.z := by
  rw [get_rowOf a (by decide), shapeFields, coordinate]
  cases a.kind with
  | point => cases a.z <;> rfl
  | _ => rfl

theorem get_polygon (a : Anchor F) : Json.get (rowOf a) "polygon" = .null := by
  rw [Json.get, rowOf, lookup_pick, if_neg (by decide)]
  rfl

theorem textField_note (a : Anchor F) : textField (rowOf a) "note" "" = some a.note := by
  rw [textField, rowOf, lookup_pick, if_pos (by decide), lookup_note]
  by_cases hnote : a.note = ""
  · rw [if_pos hnote, hnote]
    rfl
  · rw [if_neg hnote]
    rfl

/-- What `create` is called with for an anchor of the file: a polygon is not part of it. -/
theorem argsOf_rowOf (a : Anchor F) : argsOf (rowOf a) = some ⟨a.name, a.room, a.level, a.kind.value,
    coordinate a a.x, coordinate a a.y, coordinate a a.z, .null, a.note, none⟩ := by
  have hname : (rowOf a).lookup "name" = some (.str a.name) := by
    rw [rowOf, lookup_pick, if_pos (by decide)]
    rfl
  have hroom : (rowOf a).lookup "room" = some (.str a.room) := by
    rw [rowOf, lookup_pick, if_pos (by decide)]
    rfl
  have hlevel : (rowOf a).lookup "level" = some (.int a.level) := by
    rw [rowOf, lookup_pick, if_pos (by decide)]
    rfl
  have hkind : textField (rowOf a) "kind" "logical" = some a.kind.value := by
    rw [textField, rowOf, lookup_pick, if_pos (by decide)]
    rfl
  simp only [argsOf, hname, hroom, hlevel, hkind, textField_note, get_x, get_y, get_z, get_polygon]
  rfl

/-! ## What is stored of an anchor -/

/-- What the store keeps of a row, whatever is called. -/
structure Sound (py : Interpreter F) (row : Row F) : Prop where
  name : ∃ text, clean text "anchor name" MAX_NAME = .ok row.name
  room : ∃ text, clean text "room" MAX_NAME = .ok row.room
  level : isInt64 row.level = true
  note : ∃ text, row.note = Text.truncate MAX_NOTE (Text.collapse text)
  shape : row.kind ≠ .area → RowOk py row

theorem check_texts {args : Args F} {c : Checked F} (h : check py args = .ok c) :
    clean args.name "anchor name" MAX_NAME = .ok c.name ∧ clean args.room "room" MAX_NAME = .ok c.room ∧
      c.note = Text.truncate MAX_NOTE (Text.collapse args.note) := by
  rw [check, bind_eq_ok] at h
  obtain ⟨name, hname, h⟩ := h
  rw [bind_eq_ok] at h
  obtain ⟨room, hroom, h⟩ := h
  rw [bind_eq_ok] at h
  obtain ⟨kind, -, h⟩ := h
  rw [bind_eq_ok] at h
  obtain ⟨g, -, ⟨⟩⟩ := h
  exact ⟨hname, hroom, rfl⟩

theorem kept_sound : Kept py (Sound py) where
  created args c ts hcheck hlevel := by
    obtain ⟨hname, hroom, hnote⟩ := check_texts hcheck
    refine ⟨⟨_, hname⟩, ⟨_, hroom⟩, hlevel, ⟨_, hnote⟩, fun hkind => ?_⟩
    have hshape := check_eq_ok hcheck
    have hpolygon : c.geometry.polygon = [] := by
      cases hk : c.kind with
      | area => exact absurd hk hkind
      | logical =>
        rw [hk] at hshape
        exact hshape.2.2.2
      | point =>
        rw [hk] at hshape
        exact hshape.2.2.2
    rw [hpolygon] at hshape
    rw [RowOk, hpolygon, loadPolygon_dumpPolygon_nil]
    exact hshape
  renamed row text name ts hname hrow := ⟨⟨_, hname⟩, hrow.room, hrow.level, hrow.note, hrow.shape⟩
  moved row text room level ts hroom hlevel hrow :=
    ⟨hrow.name, ⟨_, hroom⟩, hlevel, hrow.note, fun _ => ⟨rfl, rfl, rfl, rfl⟩⟩
  placed row x y z room g ts hg hrow := by
    obtain ⟨hx, hy, hz, -⟩ := (pointGeometry_eq_ok hg).2.2
    exact ⟨hrow.name, hrow.room, hrow.level, hrow.note, fun _ => ⟨hx, hy, hz, rfl⟩⟩

theorem rows_sound (calls : List (Call F)) : Rows (Sound py) (Run.finish (step py) empty calls) :=
  have hstep : ∀ s c, Rows (Sound py) s → True → Rows (Sound py) (step py s c) := fun _ c hs _ =>
    rows_step kept_sound hs c
  Run.finish_of_invariant hstep rows_empty (Run.allSteps_of_forall fun _ _ _ => trivial)

/-! ## Creating it again -/

theorem clean_eq_ok {text what s : String} {limit : ℕ} :
    clean text what limit = .ok s ↔ s = Text.collapse text ∧ s ≠ "" ∧ s.length ≤ limit := by
  unfold clean
  dsimp only
  rw [unit_bind_eq_ok, unit_bind_eq_ok, require_eq_ok, require_eq_ok, decide_eq_true_iff, decide_eq_true_iff]
  constructor
  · rintro ⟨hne, hlen, ⟨⟩⟩
    exact ⟨rfl, hne, hlen⟩
  · rintro ⟨rfl, hne, hlen⟩
    exact ⟨hne, hlen, rfl⟩

/-- A text that has been cleaned is clean. -/
theorem clean_cleaned {text what s : String} {limit : ℕ} (h : clean text what limit = .ok s) :
    clean s what limit = .ok s := by
  obtain ⟨rfl, hne, hlen⟩ := clean_eq_ok.mp h
  exact clean_eq_ok.mpr ⟨(Text.collapse_collapse text).symm, hne, hlen⟩

theorem kindOf_value (kind : Kind) : kindOf kind.value = .ok kind := by
  cases kind <;> rfl

theorem finite_float {x : F} (hx : py.isfinite x = true) : Fine py (.float x) := ⟨x, rfl, hx⟩

theorem toFloat_float (x : F) : toFloat py (.float x) = .ok x := rfl

theorem optionalZ_ofColumn {z : Option F} (hz : ∀ v, z = some v → py.isfinite v = true) :
    optionalZ py (ofColumn z) = .ok z := by
  cases z with
  | none => rfl
  | some v =>
    rw [ofColumn, optionalZ_of_ne_null (fun h => (by cases h)), finite_of_fine (finite_float (hz v rfl)), ok_bind,
      require_true, ok_bind, toFloat_float, ok_bind]

theorem pointGeometry_stored {x y : F} {z : Option F} (hx : py.isfinite x = true) (hy : py.isfinite y = true)
    (hz : ∀ v, z = some v → py.isfinite v = true) (text : String) :
    pointGeometry py (.float x) (.float y) (ofColumn z) none text = .ok ⟨some x, some y, z, []⟩ := by
  rw [pointGeometry, allFinite_eq_true.mpr ⟨finite_float hx, finite_float hy⟩, ok_bind, require_true, ok_bind,
    toFloat_float, ok_bind, toFloat_float, ok_bind, optionalZ_ofColumn hz, ok_bind]
  rfl


/-- What `create` is called with for this anchor. -/
def argsFor (a : Anchor F) : Args F :=
  ⟨a.name, a.room, a.level, a.kind.value, coordinate a a.x, coordinate a a.y, coordinate a a.z, .null,
    a.note, none⟩

theorem geometry_argsFor {a : Anchor F} (h : ShapeOk py a.kind a.x a.y a.z a.polygon) (hkind : a.kind ≠ .area) :
    geometry py a.kind (argsFor a) = .ok ⟨a.x, a.y, a.z, []⟩ ∧ a.polygon = [] := by
  cases hk : a.kind with
  | area => exact absurd hk hkind
  | logical =>
    rw [hk] at h
    obtain ⟨hx, hy, hz, hpolygon⟩ := h
    exact ⟨by rw [geometry, hx, hy, hz], hpolygon⟩
  | point =>
    rw [hk] at h
    obtain ⟨⟨x, hx, hxfin⟩, ⟨y, hy, hyfin⟩, hz, hpolygon⟩ := h
    refine ⟨?_, hpolygon⟩
    rw [geometry, argsFor]
    simp only [coordinate, hk, if_true, hx, hy]
    exact pointGeometry_stored hxfin hyfin hz _

/-- An area comes without its points, and is refused. -/
theorem check_area {a : Anchor F} (hname : clean a.name "anchor name" MAX_NAME = .ok a.name)
    (hroom : clean a.room "room" MAX_NAME = .ok a.room) (hkind : a.kind = .area) :
    check py (argsFor a) = .error (.anchorError "an area anchor needs at least 3 points") := by
  have hname' : clean (argsFor a).name "anchor name" MAX_NAME = .ok a.name := hname
  have hroom' : clean (argsFor a).room "room" MAX_NAME = .ok a.room := hroom
  have hk : kindOf (argsFor a).kind = .ok .area := by rw [argsFor, hkind, kindOf_value]
  rw [check, hname', ok_bind, hroom', ok_bind, hk]
  rfl

theorem check_argsFor {a : Anchor F} (hname : clean a.name "anchor name" MAX_NAME = .ok a.name)
    (hroom : clean a.room "room" MAX_NAME = .ok a.room) (h : ShapeOk py a.kind a.x a.y a.z a.polygon)
    (hkind : a.kind ≠ .area) : check py (argsFor a) =
      .ok ⟨a.name, a.room, a.kind, Text.truncate MAX_NOTE (Text.collapse a.note), ⟨a.x, a.y, a.z, []⟩⟩ := by
  have hk : kindOf (argsFor a).kind = .ok a.kind := kindOf_value a.kind
  have hname' : clean (argsFor a).name "anchor name" MAX_NAME = .ok a.name := hname
  have hroom' : clean (argsFor a).room "room" MAX_NAME = .ok a.room := hroom
  rw [check, hname', ok_bind, hroom', ok_bind, hk, ok_bind, (geometry_argsFor h hkind).1]
  rfl

theorem create_of_check {s : Store F} {args : Args F} {c : Checked F} {hex : String} (ts : String)
    (hcheck : check py args = .ok c) (hlevel : isInt64 args.level = true)
    (hfree : s.anchors.get? ("anc_" ++ hex) = none) :
    create py s hex ts args =
      (.ok ⟨"anc_" ++ hex, c.name, c.room, args.level, c.kind, c.geometry.x, c.geometry.y, c.geometry.z,
          c.geometry.polygon, c.note, ts, ts, []⟩,
        { s with anchors := s.anchors.set ("anc_" ++ hex) ⟨c.name, c.room, args.level, c.kind, c.geometry.x,
          c.geometry.y, c.geometry.z, dumpPolygon py c.geometry.polygon, c.note, ts, ts⟩ }) := by
  have htaken : (s.anchors.get? ("anc_" ++ hex)).isSome = false := by rw [hfree]; rfl
  rw [create, hcheck]
  simp only [hlevel, htaken, Bool.not_true, Bool.false_eq_true, if_false]

theorem free_empty (anchorId : String) : (empty : Store F).anchors.get? anchorId = none := Dict.get?_empty anchorId

/-- The row makes the anchor again exactly where that is no area, and its note was not cut behind a blank. -/
theorem makesAgain_iff {a : Anchor F} (hname : clean a.name "anchor name" MAX_NAME = .ok a.name)
    (hroom : clean a.room "room" MAX_NAME = .ok a.room) (hlevel : isInt64 a.level = true) {text : String}
    (hnote : a.note = Text.truncate MAX_NOTE (Text.collapse text))
    (hshape : a.kind ≠ .area → ShapeOk py a.kind a.x a.y a.z a.polygon) :
    MakesAgain py (.obj (rowOf a)) a ↔ a.kind ≠ .area ∧ a.note.toList.getLast? ≠ some ' ' := by
  have hcut : Text.truncate MAX_NOTE (Text.collapse a.note) = a.note ↔ a.note.toList.getLast? ≠ some ' ' := by
    rw [hnote]
    exact Text.truncate_collapse_truncate MAX_NOTE text
  have hargs : argsOf (rowOf a) = some (argsFor a) := argsOf_rowOf a
  rw [← hcut]
  by_cases hkind : a.kind = .area
  · refine iff_of_false ?_ fun h => h.1 hkind
    rintro ⟨fields, args, ⟨⟩, hargs', hall⟩
    obtain rfl := Option.some.inj (hargs.symm.trans hargs')
    obtain ⟨b, c, hb, -⟩ := hall empty "" "" (free_empty _)
    rw [create, check_area hname hroom hkind] at hb
    cases hb
  · have hcheck := check_argsFor hname hroom (hshape hkind) hkind
    have hpolygon : a.polygon = [] := (geometry_argsFor (hshape hkind) hkind).2
    constructor
    · rintro ⟨fields, args, ⟨⟩, hargs', hall⟩
      obtain rfl := Option.some.inj (hargs.symm.trans hargs')
      obtain ⟨b, c, hb, -, hsame, -⟩ := hall empty "" "" (free_empty _)
      rw [create_of_check "" hcheck hlevel (free_empty _)] at hb
      cases hb
      exact ⟨hkind, hsame.note⟩
    · rintro ⟨-, hsame⟩
      refine ⟨_, _, rfl, hargs, fun s' hex ts hfree => ?_⟩
      rw [create_of_check ts hcheck hlevel hfree, Anchors.get, Dict.get?_set_self]
      refine ⟨_, _, rfl, rfl, ⟨rfl, rfl, rfl, rfl, hsame, rfl, rfl, rfl, hpolygon.symm⟩,
        ⟨rfl, rfl, rfl, rfl, hsame, rfl, rfl, rfl, ?_⟩⟩
      exact (@loadPolygon_dumpPolygon_nil F py).trans hpolygon.symm

theorem makesAgain_hydrate {s : Store F} {anchorId : String} {row : Row F} (hrow : Sound py row) :
    MakesAgain py (.obj (rowOf (hydrate py s anchorId row))) (hydrate py s anchorId row) ↔
      row.kind ≠ .area ∧ row.note.toList.getLast? ≠ some ' ' := by
  obtain ⟨name, hname⟩ := hrow.name
  obtain ⟨room, hroom⟩ := hrow.room
  obtain ⟨text, hnote⟩ := hrow.note
  exact @makesAgain_iff F py (hydrate py s anchorId row) (clean_cleaned hname) (clean_cleaned hroom) hrow.level text
    hnote hrow.shape

theorem mem_list {s : Store F} {a : Anchor F} :
    a ∈ list py s ↔ ∃ anchorId row, s.anchors.get? anchorId = some row ∧ hydrate py s anchorId row = a := by
  rw [list, List.mem_map]
  constructor
  · rintro ⟨⟨anchorId, row⟩, hmem, rfl⟩
    exact ⟨anchorId, row, Dict.mem_entries.mp ((List.mem_insertionSort _).mp hmem), rfl⟩
  · rintro ⟨anchorId, row, hrow, rfl⟩
    exact ⟨(anchorId, row), (List.mem_insertionSort _).mpr (Dict.mem_entries.mpr hrow), rfl⟩

theorem rebuilds_iff_portable (stamp : String) (g : Gathered F) {s : Store F} (hsound : Rows (Sound py) s) :
    Rebuilds py stamp g s ↔ Portable s := by
  have hrows : Json.get (fileOf py stamp g s) "anchors" = .arr ((list py s).map fun a => .obj (rowOf a)) := by
    have hpicked : Json.get (fileOf py stamp g s) "anchors" =
        pickAll ((list py s).map fun a => .obj (toDict none a)) ANCHOR_FIELDS := rfl
    rw [hpicked, pickAll, List.map_map]
    rfl
  have hall : Rebuilds py stamp g s ↔ ∀ a ∈ list py s, MakesAgain py (.obj (rowOf a)) a := by
    rw [Rebuilds, hrows]
    constructor
    · rintro ⟨rows, ⟨⟩, h⟩
      exact List.forall₂_same.mp (List.forall₂_map_left_iff.mp h)
    · exact fun h => ⟨_, rfl, List.forall₂_map_left_iff.mpr (List.forall₂_same.mpr h)⟩
  rw [hall]
  constructor
  · intro h anchorId row hrow
    exact (makesAgain_hydrate (hsound anchorId row hrow)).mp (h _ (mem_list.mpr ⟨anchorId, row, hrow, rfl⟩))
  · intro h a ha
    obtain ⟨anchorId, row, hrow, rfl⟩ := mem_list.mp ha
    exact (makesAgain_hydrate (hsound anchorId row hrow)).mpr (h anchorId row hrow)

/-- Behind every run of the store, the file makes all anchors again exactly where none is an area and no note was cut
behind a blank. -/
theorem rebuilds_iff (stamp : String) (g : Gathered F) (calls : List (Call F)) :
    Rebuilds py stamp g (Run.finish (step py) empty calls) ↔ Portable (Run.finish (step py) empty calls) :=
  rebuilds_iff_portable stamp g (rows_sound calls)

end

/-! ## An area -/

theorem area_not_rebuilt :
    ((Run.finish (step plain) empty [counter 1]).anchors.get? "anc_0").map Row.kind = some .area ∧
      ¬ Rebuilds plain "2026-01-01T00:00:00+00:00" ⟨[], [], [], [], [], [], [], [], []⟩
        (Run.finish (step plain) empty [counter 1]) := by
  have hkind : ((Run.finish (step plain) empty [counter 1]).anchors.get? "anc_0").map Row.kind = some .area := by
    decide +kernel
  refine ⟨hkind, fun h => ?_⟩
  obtain ⟨row, hrow, harea⟩ := Option.map_eq_some_iff.mp hkind
  exact ((rebuilds_iff_portable _ _ (rows_sound [counter 1])).mp h "anc_0" row hrow).1 harea

end Wavr.AnchorExport
