import Wavr.Json
import Wavr.Text

/-!
# Importing a configuration

`check_import`, `preview_import` and `plan_import` read a document that may have picked up anything
on its way. What is not a configuration is refused with a `TransferError`.
-/

namespace Wavr.ConfigExport
open Json (get)
open Text (sortedSet)

def CONFIG_VERSION : ℤ := 1

def MAX_BUNDLE_ROWS : ℕ := 500

/-- The lists that are checked for shape. -/
def LIST_KEYS : List String := ["cameras", "nodes", "anchors", "ha_mappings", "external_providers"]

abbrev Value := Json Double

/-- The members of an object, each key once. -/
abbrev Fields := List (String × Value)

/-- What reading a value of the wrong type raises. -/
inductive Crash
  | attributeError
  | raised (e : Raised)
  deriving DecidableEq

/-- `TransferError` with its text, or anything else. -/
inductive Error
  | transfer (text : String)
  | crash (c : Crash)
  deriving DecidableEq

/-- What the interpreter brings: `json.loads` (none is the ValueError), `str` of what is no text,
the sorted and compact `json.dumps`, and the hex digest. -/
structure Interpreter where
  conversions : Conversions
  loads : String → Option Value
  str : Value → String
  dumps : Value → String
  sha256 : String → String

structure Preview where
  digest : String
  space : Value
  roomsIncoming : List Value
  roomsReplaced : List String
  roomsLost : List String
  anchorsIncoming : ℕ
  anchorsExisting : ℕ
  camerasIncoming : ℕ
  secretsNeeded : Value

structure Plan where
  digest : String
  space : Value
  house : Fields
  roomsIncoming : List Value
  roomsReplaced : List String
  roomsLost : List String
  anchorsWrite : List (Value × String)
  anchorsSkipped : List (Value × String)
  cameras : List (Value × Value)
  nodes : List Value
  haMappings : List Value
  externalProviders : List Value
  /-- The pairs that `dict` is made of, in their order. -/
  settings : List (Value × Value)
  secretsNeeded : Value

section
variable {α : Type} (py : Interpreter)

def lift (x : Except Crash α) : Except Error α := x.mapError .crash

def truthy (v : Value) : Bool := v.truthy py.conversions.numbers

def orElse (a b : Value) : Value := a.orElse py.conversions.numbers b

/-- `d.get(k, default)`. -/
def getDefault (fields : Fields) (k : String) (default : Value) : Value := (fields.lookup k).getD default

/-- What `v.get` asks for its members. -/
def fieldsOf : Value → Except Crash Fields
  | .obj fields => .ok fields
  | _ => .error .attributeError

/-- `iter(v)`. -/
def iter : Value → Except Crash (List Value)
  | .arr items => .ok items
  | .str s => .ok (s.toList.map fun c => .str (String.singleton c))
  | .obj fields => .ok (fields.map fun e => .str e.1)
  | _ => .error (.raised .typeError)

def hashable : Value → Bool
  | .arr _ | .obj _ => false
  | _ => true

/-- The loop over the lists that are checked for shape. -/
def checkLists (config : Fields) : List String → Except Error Unit
  | [] => .ok ()
  | key :: keys =>
    match get config key with
    | .null => checkLists config keys
    | .arr rows =>
      if MAX_BUNDLE_ROWS < rows.length then
        .error (.transfer (key ++ " has more than " ++ toString MAX_BUNDLE_ROWS ++ " entries"))
      else checkLists config keys
    | _ => .error (.transfer (key ++ " must be a list"))

/-- `check_import` on an object. -/
def checkConfig (config : Fields) : Except Error Fields :=
  match get config "wavr_config_version" with
  | .null => .error (.transfer
      ("this file does not say which Wavr version wrote it, so Wavr cannot know how to read it"))
  | found =>
    match found.toInt py.conversions.numbers with
    | .error .typeError | .error .valueError => .error (.transfer "the version must be a number")
    | .error e => .error (.crash (.raised e))
    | .ok found =>
      if CONFIG_VERSION < found then
        .error (.transfer ("this file was written by a newer Wavr (format " ++ toString found ++
          "; this Core reads " ++ toString CONFIG_VERSION ++
          "). Update this Core rather than importing part of it."))
      else do
        checkLists config LIST_KEYS
        return config

/-- What a document is once a text is decoded. -/
def decoded (payload : Value) : Option Value :=
  match payload with
  | .str text => py.loads text
  | v => some v

def checkImport (payload : Value) : Except Error Fields :=
  match decoded py payload with
  | none => .error (.transfer "that is not a Wavr configuration file")
  | some (.obj config) => checkConfig py config
  | some _ => .error (.transfer "a configuration must be an object")

def configDigest (payload : Value) : Except Error String := do
  let config ← checkImport py payload
  return Text.truncate 32 (py.sha256 (py.dumps (.obj config)))

/-- `validate_house` is given or not, and refuses with a text. -/
def checkHouse (validateHouse : Option (Fields → Option String)) (house : Value) : Except Error Unit :=
  match validateHouse with
  | none => .ok ()
  | some validate => do
    let house ← lift (fieldsOf house)
    if truthy py (get house "floors") then
      match validate house with
      | some text => .error (.transfer ("the floor plan in this file cannot be read: " ++ text))
      | none => .ok ()
    else .ok ()

/-- A loop over rows of which each is asked for its members. -/
def walk (row : Fields → Except Crash (List α)) (rows : Value) : Except Crash (List α) := do
  let items ← iter rows
  let out ← items.mapM fun item => fieldsOf item >>= row
  return out.flatten

def nameOf (room : Fields) : Except Crash (List Value) :=
  .ok (if truthy py (get room "name") then [get room "name"] else [])

/-- The rooms as `preview_import` collects them. -/
def previewRooms (house : Fields) : Except Crash (List Value) :=
  walk (fun floor => walk (nameOf py) (getDefault floor "rooms" (.arr []))) (getDefault house "floors" (.arr []))

/-- The rooms as `plan_import` collects them. -/
def planRooms (house : Fields) : Except Crash (List Value) :=
  walk (fun floor => walk (nameOf py) (orElse py (get floor "rooms") (.arr [])))
    (orElse py (get house "floors") (.arr []))

/-- `set(names)`. -/
def hashAll (names : List Value) : Except Crash Unit :=
  if names.all hashable then .ok () else .error (.raised .typeError)

/-- The texts of a set of names. -/
def texts (names : List Value) : Finset String :=
  (names.filterMap fun
    | .str s => some s
    | _ => none).toFinset

/-- `config.get(key) or []`, where the key is one of those that are checked for shape. -/
def rowsOf (config : Fields) (key : String) : List Value :=
  match get config key with
  | .arr rows => rows
  | _ => []

def previewImport (payload : Value) (existingRooms : List String) (existingAnchors : ℕ)
    (validateHouse : Option (Fields → Option String)) : Except Error Preview := do
  let config ← checkImport py payload
  let house := orElse py (get config "house") (.obj [])
  checkHouse py validateHouse house
  let house ← lift (fieldsOf house)
  let incoming ← lift (previewRooms py house)
  let digest ← configDigest py (.obj config)
  lift (hashAll incoming)
  return {
    digest := digest
    space := getDefault config "space" (.obj [])
    roomsIncoming := incoming
    roomsReplaced := sortedSet (existingRooms.toFinset ∩ texts incoming)
    roomsLost := sortedSet (existingRooms.toFinset \ texts incoming)
    anchorsIncoming := (rowsOf config "anchors").length
    anchorsExisting := existingAnchors
    camerasIncoming := (rowsOf config "cameras").length
    secretsNeeded := getDefault config "secrets_you_must_supply_again" (.arr []) }

/-- `str(v or "")`. -/
def textOf (v : Value) : String :=
  match orElse py v (.str "") with
  | .str s => s
  | v => py.str v

def anchorOf (anchor : Value) : Except Crash (Value × String) := do
  let fields ← fieldsOf anchor
  return (getDefault fields "name" (.str ""), textOf py (get fields "room"))

def cameraOf (camera : Value) : Except Crash (Value × Value) := do
  let fields ← fieldsOf camera
  return (getDefault fields "name" (.str ""), getDefault fields "room" (.str ""))

/-- One element of what `dict` is called with. -/
def pairOf : Value → Except Crash (Value × Value)
  | .arr [k, v] => if hashable k then .ok (k, v) else .error (.raised .typeError)
  | .arr _ => .error (.raised .valueError)
  | .str s =>
    match s.toList with
    | [k, v] => .ok (.str (String.singleton k), .str (String.singleton v))
    | _ => .error (.raised .valueError)
  | .obj [k, v] => .ok (.str k.1, .str v.1)
  | .obj _ => .error (.raised .valueError)
  | _ => .error (.raised .typeError)

/-- `dict(v)`. -/
def dictOf : Value → Except Crash (List (Value × Value))
  | .obj fields => .ok (fields.map fun e => (.str e.1, e.2))
  | v => do
    let items ← iter v
    items.mapM pairOf

def planImport (payload : Value) (existingRooms : List String)
    (validateHouse : Option (Fields → Option String)) : Except Error Plan := do
  let config ← checkImport py payload
  let house := orElse py (get config "house") (.obj [])
  checkHouse py validateHouse house
  let house ← lift (fieldsOf house)
  let incoming ← lift (planRooms py house)
  lift (hashAll incoming)
  let anchors ← lift ((rowsOf config "anchors").mapM (anchorOf py))
  let digest ← configDigest py (.obj config)
  let cameras ← lift ((rowsOf config "cameras").mapM cameraOf)
  let settings ← lift (dictOf (orElse py (get config "settings") (.obj [])))
  return {
    digest := digest
    space := getDefault config "space" (.obj [])
    house := house
    roomsIncoming := incoming
    roomsReplaced := sortedSet (existingRooms.toFinset ∩ texts incoming)
    roomsLost := sortedSet (existingRooms.toFinset \ texts incoming)
    anchorsWrite := anchors.filter fun a => a.2 ∈ texts incoming
    anchorsSkipped := anchors.filter fun a => a.2 ∉ texts incoming
    cameras := cameras
    nodes := rowsOf config "nodes"
    haMappings := rowsOf config "ha_mappings"
    externalProviders := rowsOf config "external_providers"
    settings := settings
    secretsNeeded := getDefault config "secrets_you_must_supply_again" (.arr []) }

/-- What is raised, if anything, is a `TransferError`. -/
def Clean : Except Error α → Prop
  | .error (.crash _) => False
  | _ => True

/-! ## The shape of a document -/

/-- A loop over the rows meets objects with `P` only, or nothing at all. -/
def Rows (P : Fields → Prop) : Value → Prop
  | .arr items => ∀ item ∈ items, ∃ fields, item = .obj fields ∧ P fields
  | .str s => s = ""
  | .obj fields => fields = []
  | _ => False

/-- The room has no name, or one that is no list and no object. -/
def Named (room : Fields) : Prop :=
  truthy py (get room "name") = true → hashable (get room "name") = true

def FloorsShaped (house : Fields) : Prop :=
  Rows (fun floor => Rows (Named py) (getDefault floor "rooms" (.arr []))) (getDefault house "floors" (.arr []))

def Objects (rows : List Value) : Prop := ∀ row ∈ rows, ∃ fields, row = .obj fields

def PairShaped : Value → Prop
  | .arr [k, _] => hashable k = true
  | .str s => s.toList.length = 2
  | .obj fields => fields.length = 2
  | _ => False

def SettingsShaped : Value → Prop
  | .obj _ => True
  | .arr items => ∀ item ∈ items, PairShaped item
  | .str s => s = ""
  | _ => False

/-- The version is a number, and one that this Core reads. -/
def Current (config : Fields) : Prop :=
  ∃ n, (get config "wavr_config_version").toInt py.conversions.numbers = .ok n ∧ n ≤ CONFIG_VERSION

def ListedAt (config : Fields) (key : String) : Prop :=
  get config key = .null ∨ ∃ rows, get config key = .arr rows ∧ rows.length ≤ MAX_BUNDLE_ROWS

def Listed (config : Fields) : Prop := ∀ key ∈ LIST_KEYS, ListedAt config key

/-- The floor plan is one that `validate_house` refuses. -/
def Refused (validateHouse : Option (Fields → Option String)) (house : Fields) : Prop :=
  truthy py (get house "floors") = true ∧ ∃ validate text, validateHouse = some validate ∧
    validate house = some text

def Versioned (config : Fields) : Prop :=
  ∀ negative, get config "wavr_config_version" ≠ .float (.inf negative)

/-- The version is not infinite, and what a configuration of this version is asked for is there. -/
def WellShaped (validateHouse : Option (Fields → Option String)) (payload : Value) : Prop :=
  ∀ config, decoded py payload = some (.obj config) → Versioned config ∧
    (Current py config → Listed config → ∃ house, orElse py (get config "house") (.obj []) = .obj house ∧
      (Refused py validateHouse house ∨ FloorsShaped py house ∧ Objects (rowsOf config "anchors") ∧
        Objects (rowsOf config "cameras") ∧ SettingsShaped (orElse py (get config "settings") (.obj []))))

/-! ## Reading rows -/

section
variable {α β : Type} {py : Interpreter} {config house : Fields} {payload v : Value} {rooms : List Value}

theorem clean_bind {x : Except Error α} {f : α → Except Error β} :
    Clean (x >>= f) ↔ Clean x ∧ ∀ a, x = .ok a → Clean (f a) := by
  cases x with
  | error e => cases e <;> simp [Clean, bind, Except.bind]
  | ok a => simp [Clean, bind, Except.bind]

theorem clean_lift_bind {x : Except Crash α} {f : α → Except Error β} :
    Clean (lift x >>= f) ↔ ∃ a, x = .ok a ∧ Clean (f a) := by
  cases x <;> simp [Clean, lift, Except.mapError, bind, Except.bind]

theorem clean_pure (a : α) : Clean (pure a : Except Error α) := trivial

/-- What comes out meets `P`. -/
def Yields (P : α → Prop) (x : Except Crash (List α)) : Prop := ∃ out, x = .ok out ∧ ∀ a ∈ out, P a

theorem yields_bind_fieldsOf {P : α → Prop} {row : Fields → Except Crash (List α)} {item : Value} :
    (∃ out, (fieldsOf item >>= row) = .ok out ∧ ∀ a ∈ out, P a) ↔
      ∃ fields, item = .obj fields ∧ Yields P (row fields) := by
  cases item <;> simp [fieldsOf, bind, Except.bind, Yields]

theorem yields_walk {P : α → Prop} {row : Fields → Except Crash (List α)} {rows : Value} :
    Yields P (walk row rows) ↔ Rows (fun fields => Yields P (row fields)) rows := by
  have hloop : ∀ items : List Value,
      Yields P ((items.mapM fun item => fieldsOf item >>= row) >>= fun out => pure out.flatten) ↔
        ∀ item ∈ items, ∃ fields, item = .obj fields ∧ Yields P (row fields) := by
    intro items
    have hitems := exists_mapM (f := fun item => fieldsOf item >>= row) (l := items)
      (Q := fun out => ∀ a ∈ out, P a)
    simp only [yields_bind_fieldsOf] at hitems
    rw [← hitems]
    cases items.mapM fun item => fieldsOf item >>= row with
    | error e => simp [Yields, bind, Except.bind]
    | ok out =>
      simp only [Yields, bind, Except.bind, pure, Except.pure, Except.ok.injEq, exists_eq_left',
        List.mem_flatten]
      exact ⟨fun h xs hxs a ha => h a ⟨xs, hxs, ha⟩, fun h a ⟨xs, hxs, ha⟩ => h xs hxs a ha⟩
  unfold walk
  cases rows with
  | arr items => exact hloop items
  | str s =>
    refine (hloop _).trans ?_
    have hnever : (∀ item ∈ s.toList.map fun c => Json.str (F := Double) (String.singleton c),
        ∃ fields, item = .obj fields ∧ Yields P (row fields)) ↔ s.toList = [] := by
      cases s.toList <;> simp
    rw [hnever, String.toList_eq_nil_iff]
    rfl
  | obj fields =>
    refine (hloop _).trans ?_
    cases fields <;> simp [Rows]
  | _ => simp [iter, Yields, Rows, bind, Except.bind]

theorem yields_nameOf (room : Fields) : Yields (hashable · = true) (nameOf py room) ↔ Named py room := by
  unfold nameOf Named Yields
  by_cases h : truthy py (get room "name") = true <;> simp [h]

theorem yields_previewRooms : Yields (hashable · = true) (previewRooms py house) ↔ FloorsShaped py house := by
  unfold previewRooms FloorsShaped
  simp only [yields_walk, yields_nameOf]

theorem hashAll_eq_ok : hashAll rooms = .ok () ↔ ∀ room ∈ rooms, hashable room = true := by
  unfold hashAll
  by_cases h : rooms.all hashable = true
  · rw [if_pos h]
    exact iff_of_true rfl (List.all_eq_true.mp h)
  · rw [if_neg h]
    exact iff_of_false (fun hc => by cases hc) fun hall => h (List.all_eq_true.mpr hall)

/-! ## `check_import` -/

theorem clean_checkLists (config : Fields) (keys : List String) : Clean (checkLists config keys) := by
  induction keys with
  | nil => trivial
  | cons key keys ih =>
    unfold checkLists
    split
    · exact ih
    · split
      · trivial
      · exact ih
    · trivial

theorem checkLists_eq_ok {keys : List String} :
    checkLists config keys = .ok () ↔ ∀ key ∈ keys, ListedAt config key := by
  induction keys with
  | nil => simp [checkLists]
  | cons key keys ih =>
    rw [List.forall_mem_cons, ← ih, checkLists]
    unfold ListedAt
    cases hkey : get config key with
    | null => simp
    | arr rows =>
      by_cases hlong : MAX_BUNDLE_ROWS < rows.length
      · simp [hlong]
      · simp [hlong, Nat.le_of_not_lt hlong]
    | _ => simp

theorem checkConfig_eq_ok {config' : Fields} :
    checkConfig py config = .ok config' ↔ config = config' ∧ Current py config ∧ Listed config := by
  have hlists : (checkLists config LIST_KEYS >>= fun _ => pure config) = Except.ok config' ↔
      config = config' ∧ Listed config := by
    unfold Listed
    rw [← checkLists_eq_ok]
    cases checkLists config LIST_KEYS <;> simp [bind, Except.bind, pure, Except.pure]
  unfold checkConfig Current
  split
  · rename_i hnull
    simp [hnull, Json.toInt]
  · split
    · rename_i hint
      simp [hint]
    · rename_i hint
      simp [hint]
    · rename_i e _ _ hint
      simp [hint]
    · rename_i found hint
      split
      · rename_i hnew
        have hnot : ¬ found ≤ CONFIG_VERSION := not_le.mpr hnew
        simp [hint, hnot]
      · rename_i hold
        rw [hlists, hint]
        simp [not_lt.mp hold]

theorem toInt_eq_error {e : Raised} (h : v.toInt py.conversions.numbers = .error e) :
    e = .typeError ∨ e = .valueError ∨ ∃ negative, v = .float (.inf negative) := by
  cases v with
  | float x =>
    cases x with
    | nan => exact .inr (.inl (Except.error.inj h).symm)
    | inf negative => exact .inr (.inr ⟨negative, rfl⟩)
    | finite q => cases h
  | str s =>
    unfold Json.toInt at h
    dsimp only at h
    split at h
    · cases h
    · exact .inr (.inl (Except.error.inj h).symm)
  | bool | int => cases h
  | null | arr | obj => exact .inl (Except.error.inj h).symm

theorem clean_checkConfig : Clean (checkConfig py config) ↔ Versioned config := by
  have hinf : ∀ negative, (Json.float (.inf negative)).toInt py.conversions.numbers =
      .error .overflowError := fun _ => rfl
  unfold checkConfig Versioned
  split
  · rename_i hnull
    simp [hnull, Clean]
  · split
    · rename_i hint
      refine iff_of_true trivial fun negative hversion => ?_
      rw [hversion, hinf] at hint
      cases hint
    · rename_i hint
      refine iff_of_true trivial fun negative hversion => ?_
      rw [hversion, hinf] at hint
      cases hint
    · rename_i e htype hvalue hint
      refine iff_of_false not_false fun hversion => ?_
      rcases toInt_eq_error hint with rfl | rfl | ⟨negative, hfloat⟩
      · exact htype rfl
      · exact hvalue rfl
      · exact hversion negative hfloat
    · rename_i found hint
      have hversion : ∀ negative, get config "wavr_config_version" ≠ .float (.inf negative) :=
        fun negative hversion => by
          rw [hversion, hinf] at hint
          cases hint
      refine iff_of_true ?_ hversion
      split
      · trivial
      · exact clean_bind.mpr ⟨clean_checkLists _ _, fun _ _ => clean_pure _⟩

theorem checkImport_eq_ok : checkImport py payload = .ok config ↔
    decoded py payload = some (.obj config) ∧ Current py config ∧ Listed config := by
  unfold checkImport
  split
  · rename_i hnone
    simp [hnone]
  · rename_i config' hobj
    rw [checkConfig_eq_ok, hobj]
    constructor
    · rintro ⟨rfl, h⟩
      exact ⟨rfl, h⟩
    · rintro ⟨heq, h⟩
      obtain rfl : config' = config := Json.obj.inj (Option.some.inj heq)
      exact ⟨rfl, h⟩
  · rename_i v hother hsome
    refine iff_of_false (fun h => by cases h) fun h => ?_
    exact hother config (Option.some.inj (hsome.symm.trans h.1))

theorem clean_checkImport : Clean (checkImport py payload) ↔
    ∀ config, decoded py payload = some (.obj config) → Versioned config := by
  unfold checkImport
  split
  · rename_i hnone
    simp [hnone, Clean]
  · rename_i config hobj
    rw [clean_checkConfig, hobj]
    constructor
    · intro h config' heq
      obtain rfl : config = config' := Json.obj.inj (Option.some.inj heq)
      exact h
    · exact fun h => h config rfl
  · rename_i v hother hsome
    refine iff_of_true trivial fun config h => ?_
    exact absurd (Option.some.inj (hsome.symm.trans h)) (hother config)

theorem exists_configDigest (hcurrent : Current py config) (hlisted : Listed config) :
    ∃ digest, configDigest py (.obj config) = .ok digest := by
  have hread : checkImport py (.obj config) = .ok config := checkImport_eq_ok.mpr ⟨rfl, hcurrent, hlisted⟩
  unfold configDigest
  rw [hread]
  exact ⟨_, rfl⟩

/-! ## The two readers -/

/-- What is read of the house starts with its members, and not where its floor plan is refused. -/
theorem clean_checkHouse_bind {validateHouse : Option (Fields → Option String)}
    {f : Fields → Except Error β} :
    Clean (checkHouse py validateHouse v >>= fun _ => lift (fieldsOf v) >>= f) ↔
      ∃ house, v = .obj house ∧ (Refused py validateHouse house ∨ Clean (f house)) := by
  cases v with
  | obj house =>
    have hread : ∀ g : Fields → Except Error β, (lift (fieldsOf (.obj house)) >>= g) = g house := fun _ => rfl
    simp only [hread, Json.obj.injEq, exists_eq_left']
    unfold checkHouse Refused
    cases validateHouse with
    | none => simp [bind, Except.bind]
    | some validate =>
      by_cases hfloors : truthy py (get house "floors") = true
      · cases htext : validate house <;>
          simp [lift, fieldsOf, Except.mapError, bind, Except.bind, hfloors, htext, Clean]
      · simp [lift, fieldsOf, Except.mapError, bind, Except.bind, hfloors]
  | _ =>
    cases validateHouse <;> simp [checkHouse, lift, fieldsOf, Except.mapError, bind, Except.bind, Clean]

/-- Behind `check_import`, a reader goes on with a configuration that passed. -/
theorem clean_checkImport_bind {f : Fields → Except Error β} {R : Fields → Prop}
    (hf : ∀ config, Current py config → Listed config → (Clean (f config) ↔ R config)) :
    Clean (checkImport py payload >>= f) ↔ ∀ config, decoded py payload = some (.obj config) →
      Versioned config ∧ (Current py config → Listed config → R config) := by
  rw [clean_bind, clean_checkImport]
  constructor
  · rintro ⟨hversion, hrest⟩ config hobj
    refine ⟨hversion config hobj, fun hcurrent hlisted => ?_⟩
    exact (hf config hcurrent hlisted).mp (hrest config (checkImport_eq_ok.mpr ⟨hobj, hcurrent, hlisted⟩))
  · intro h
    refine ⟨fun config hobj => (h config hobj).1, fun config hread => ?_⟩
    obtain ⟨hobj, hcurrent, hlisted⟩ := checkImport_eq_ok.mp hread
    exact (hf config hcurrent hlisted).mpr ((h config hobj).2 hcurrent hlisted)

theorem clean_previewImport {existingRooms : List String} {existingAnchors : ℕ}
    {validateHouse : Option (Fields → Option String)} :
    Clean (previewImport py payload existingRooms existingAnchors validateHouse) ↔
      ∀ config, decoded py payload = some (.obj config) → Versioned config ∧
        (Current py config → Listed config → ∃ house, orElse py (get config "house") (.obj []) = .obj house ∧
          (Refused py validateHouse house ∨ Yields (hashable · = true) (previewRooms py house))) := by
  unfold previewImport
  refine clean_checkImport_bind fun config hcurrent hlisted => ?_
  obtain ⟨digest, hdigest⟩ := exists_configDigest hcurrent hlisted
  rw [clean_checkHouse_bind]
  refine exists_congr fun house => and_congr_right fun _ => or_congr_right ?_
  rw [clean_lift_bind]
  refine exists_congr fun incoming => and_congr_right fun _ => ?_
  rw [hdigest, ← hashAll_eq_ok]
  show Clean (lift (hashAll incoming) >>= _) ↔ _
  rw [clean_lift_bind]
  exact ⟨fun ⟨_, h, _⟩ => h, fun h => ⟨(), h, clean_pure _⟩⟩

theorem returns_pairOf (item : Value) : (∃ pair, pairOf item = .ok pair) ↔ PairShaped item := by
  unfold pairOf PairShaped
  cases item with
  | arr items =>
    match items with
    | [] | [_] | _ :: _ :: _ :: _ => simp
    | [k, v] => cases hk : hashable k <;> simp [hk]
  | str s =>
    dsimp only
    match s.toList with
    | [] | [_] | [_, _] | _ :: _ :: _ :: _ => simp
  | obj fields =>
    match fields with
    | [] | [_] | [_, _] | _ :: _ :: _ :: _ => simp
  | _ => simp

theorem returns_dictOf (v : Value) : (∃ pairs, dictOf v = .ok pairs) ↔ SettingsShaped v := by
  cases v with
  | obj fields => simp [dictOf, SettingsShaped]
  | arr items =>
    have hloop : dictOf (.arr items) = items.mapM pairOf := rfl
    rw [hloop, returns_mapM]
    simp only [returns_pairOf]
    rfl
  | str s =>
    have hloop : dictOf (.str s) = (s.toList.map fun c => Json.str (String.singleton c)).mapM pairOf := rfl
    rw [hloop, returns_mapM]
    simp only [returns_pairOf]
    have hnever : (∀ item ∈ s.toList.map fun c => Json.str (F := Double) (String.singleton c),
        PairShaped item) ↔ s.toList = [] := by
      cases s.toList <;> simp [PairShaped]
    rw [hnever, String.toList_eq_nil_iff]
    rfl
  | _ => simp [dictOf, iter, SettingsShaped, bind, Except.bind]

theorem returns_objects {f : Fields → β} {rows : List Value} :
    (∃ out, (rows.mapM fun row => do return f (← fieldsOf row)) = Except.ok out) ↔ Objects rows := by
  rw [returns_mapM]
  refine forall₂_congr fun row _ => ?_
  cases row <;> simp [fieldsOf, bind, Except.bind, pure, Except.pure]

theorem clean_planImport {existingRooms : List String} {validateHouse : Option (Fields → Option String)} :
    Clean (planImport py payload existingRooms validateHouse) ↔
      ∀ config, decoded py payload = some (.obj config) → Versioned config ∧
        (Current py config → Listed config → ∃ house, orElse py (get config "house") (.obj []) = .obj house ∧
          (Refused py validateHouse house ∨ Yields (hashable · = true) (planRooms py house) ∧
            Objects (rowsOf config "anchors") ∧ Objects (rowsOf config "cameras") ∧
            SettingsShaped (orElse py (get config "settings") (.obj [])))) := by
  unfold planImport
  refine clean_checkImport_bind fun config hcurrent hlisted => ?_
  obtain ⟨digest, hdigest⟩ := exists_configDigest hcurrent hlisted
  rw [clean_checkHouse_bind]
  refine exists_congr fun house => and_congr_right fun _ => or_congr_right ?_
  have hanchors : (∃ out, (rowsOf config "anchors").mapM (anchorOf py) = .ok out) ↔
      Objects (rowsOf config "anchors") :=
    returns_objects (f := fun fields =>
      (getDefault fields "name" (.str ""), textOf py (get fields "room")))
  have hcameras : (∃ out, (rowsOf config "cameras").mapM cameraOf = .ok out) ↔
      Objects (rowsOf config "cameras") :=
    returns_objects (f := fun fields =>
      (getDefault fields "name" (.str ""), getDefault fields "room" (.str "")))
  rw [clean_lift_bind, ← hanchors, ← hcameras, ← returns_dictOf]
  constructor
  · rintro ⟨incoming, hrooms, hrest⟩
    obtain ⟨_, hhash, hrest⟩ := clean_lift_bind.mp hrest
    obtain ⟨anchors, hread, hrest⟩ := clean_lift_bind.mp hrest
    rw [hdigest] at hrest
    obtain ⟨cameras, hread', hrest⟩ := clean_lift_bind.mp hrest
    obtain ⟨settings, hread'', -⟩ := clean_lift_bind.mp hrest
    exact ⟨⟨incoming, hrooms, hashAll_eq_ok.mp hhash⟩, ⟨anchors, hread⟩, ⟨cameras, hread'⟩, settings, hread''⟩
  · rintro ⟨⟨incoming, hrooms, hhash⟩, ⟨anchors, hread⟩, ⟨cameras, hread'⟩, settings, hread''⟩
    refine ⟨incoming, hrooms, clean_lift_bind.mpr ⟨(), hashAll_eq_ok.mpr hhash,
      clean_lift_bind.mpr ⟨anchors, hread, ?_⟩⟩⟩
    rw [hdigest]
    exact clean_lift_bind.mpr ⟨cameras, hread', clean_lift_bind.mpr ⟨settings, hread'', clean_pure _⟩⟩

/-! ## What the two agree on -/

theorem mapM_mono {f g : α → Except Crash β} {l : List α} {out : List β}
    (hfg : ∀ a b, f a = .ok b → g a = .ok b) (h : l.mapM f = .ok out) : l.mapM g = .ok out := by
  induction l generalizing out with
  | nil => exact h
  | cons a l ih =>
    rw [List.mapM_cons] at h ⊢
    cases ha : f a with
    | error e =>
      rw [ha] at h
      cases h
    | ok b =>
      cases hl : l.mapM f with
      | error e =>
        rw [ha, hl] at h
        cases h
      | ok bs =>
        rw [ha, hl] at h
        rw [hfg a b ha, ih hl]
        exact h

theorem walk_mono {row row' : Fields → Except Crash (List α)} {rows : Value} {out : List α}
    (hrow : ∀ fields xs, row fields = .ok xs → row' fields = .ok xs) (h : walk row rows = .ok out) :
    walk row' rows = .ok out := by
  have hitem : ∀ item xs, (fieldsOf item >>= row) = .ok xs → (fieldsOf item >>= row') = .ok xs := by
    intro item xs h
    cases item with
    | obj fields => exact hrow fields xs h
    | _ => cases h
  unfold walk at h ⊢
  cases hitems : iter rows with
  | error e =>
    rw [hitems] at h
    cases h
  | ok items =>
    rw [hitems] at h
    change (items.mapM (fun item => fieldsOf item >>= row) >>= fun out => pure out.flatten) = .ok out at h
    change (items.mapM (fun item => fieldsOf item >>= row') >>= fun out => pure out.flatten) = .ok out
    cases hloop : items.mapM fun item => fieldsOf item >>= row with
    | error e =>
      rw [hloop] at h
      cases h
    | ok xss =>
      rw [hloop] at h
      rw [mapM_mono hitem hloop]
      exact h

/-- What is false and can be walked over has no rows. -/
theorem walk_of_not_truthy {row : Fields → Except Crash (List α)} {out : List α}
    (hv : ¬ truthy py v = true) (h : walk row v = .ok out) : out = [] := by
  cases v with
  | arr items =>
    have hnil : items = [] := by simpa [truthy, Json.truthy] using hv
    subst hnil
    exact (Except.ok.inj h).symm
  | str s =>
    have hnil : s = "" := by simpa [truthy, Json.truthy] using hv
    subst hnil
    exact (Except.ok.inj h).symm
  | obj fields =>
    have hnil : fields = [] := by simpa [truthy, Json.truthy] using hv
    subst hnil
    exact (Except.ok.inj h).symm
  | _ => cases h

/-- A missing key, as `d.get(k, [])` and as `d.get(k) or []`. -/
theorem walk_orElse {row row' : Fields → Except Crash (List α)} {fields : Fields} {k : String}
    {out : List α} (hrow : ∀ fields xs, row fields = .ok xs → row' fields = .ok xs)
    (h : walk row (getDefault fields k (.arr [])) = .ok out) :
    walk row' (orElse py (get fields k) (.arr [])) = .ok out := by
  unfold getDefault at h
  cases hk : fields.lookup k with
  | none =>
    have hget : get fields k = .null := by rw [Json.get, hk, Option.getD_none]
    rw [hk] at h
    rw [hget]
    exact walk_mono hrow h
  | some v =>
    have hget : get fields k = v := by rw [Json.get, hk, Option.getD_some]
    rw [hk, Option.getD_some] at h
    rw [hget]
    unfold orElse Json.orElse
    split
    · exact walk_mono hrow h
    · rename_i hfalse
      have hnone : ¬ truthy py v = true := hfalse
      rw [walk_of_not_truthy hnone h]
      rfl

theorem planRooms_of_previewRooms (h : previewRooms py house = .ok rooms) : planRooms py house = .ok rooms :=
  walk_orElse (fun _ _ hfloor => walk_orElse (fun _ _ hroom => hroom) hfloor) h

theorem bind_eq_ok {x : Except Error α} {f : α → Except Error β} {b : β} :
    (x >>= f) = .ok b ↔ ∃ a, x = .ok a ∧ f a = .ok b := by
  cases x <;> simp [bind, Except.bind]

theorem lift_eq_ok {x : Except Crash α} {a : α} : lift x = .ok a ↔ x = .ok a := by
  cases x <;> simp [lift, Except.mapError]

/-- What the digest and the rooms of a report come from. -/
theorem previewImport_eq_ok {existingRooms : List String} {existingAnchors : ℕ}
    {validateHouse : Option (Fields → Option String)} {preview : Preview}
    (h : previewImport py payload existingRooms existingAnchors validateHouse = .ok preview) :
    ∃ config house, checkImport py payload = .ok config ∧
      lift (fieldsOf (orElse py (get config "house") (.obj []))) = .ok house ∧
      previewRooms py house = .ok preview.roomsIncoming ∧ configDigest py (.obj config) = .ok preview.digest ∧
      preview.roomsReplaced = sortedSet (existingRooms.toFinset ∩ texts preview.roomsIncoming) ∧
      preview.roomsLost = sortedSet (existingRooms.toFinset \ texts preview.roomsIncoming) := by
  unfold previewImport at h
  obtain ⟨config, hconfig, h⟩ := bind_eq_ok.mp h
  obtain ⟨_, -, h⟩ := bind_eq_ok.mp h
  obtain ⟨house, hhouse, h⟩ := bind_eq_ok.mp h
  obtain ⟨incoming, hrooms, h⟩ := bind_eq_ok.mp h
  obtain ⟨digest, hdigest, h⟩ := bind_eq_ok.mp h
  obtain ⟨_, -, h⟩ := bind_eq_ok.mp h
  cases h
  exact ⟨config, house, hconfig, hhouse, lift_eq_ok.mp hrooms, hdigest, rfl, rfl⟩

theorem planImport_eq_ok {existingRooms : List String} {validateHouse : Option (Fields → Option String)}
    {plan : Plan} (h : planImport py payload existingRooms validateHouse = .ok plan) :
    ∃ config house, checkImport py payload = .ok config ∧
      lift (fieldsOf (orElse py (get config "house") (.obj []))) = .ok house ∧
      planRooms py house = .ok plan.roomsIncoming ∧ configDigest py (.obj config) = .ok plan.digest ∧
      plan.roomsReplaced = sortedSet (existingRooms.toFinset ∩ texts plan.roomsIncoming) ∧
      plan.roomsLost = sortedSet (existingRooms.toFinset \ texts plan.roomsIncoming) := by
  unfold planImport at h
  obtain ⟨config, hconfig, h⟩ := bind_eq_ok.mp h
  obtain ⟨_, -, h⟩ := bind_eq_ok.mp h
  obtain ⟨house, hhouse, h⟩ := bind_eq_ok.mp h
  obtain ⟨incoming, hrooms, h⟩ := bind_eq_ok.mp h
  obtain ⟨_, -, h⟩ := bind_eq_ok.mp h
  obtain ⟨anchors, -, h⟩ := bind_eq_ok.mp h
  obtain ⟨digest, hdigest, h⟩ := bind_eq_ok.mp h
  obtain ⟨cameras, -, h⟩ := bind_eq_ok.mp h
  obtain ⟨settings, -, h⟩ := bind_eq_ok.mp h
  cases h
  exact ⟨config, house, hconfig, hhouse, lift_eq_ok.mp hrooms, hdigest, rfl, rfl⟩

end

/-- Where both return, they report the same digest and the same rooms. -/
def Agree (payload : Value) (existingRooms : List String) (existingAnchors : ℕ)
    (validateHouse : Option (Fields → Option String)) : Prop :=
  ∀ preview plan, previewImport py payload existingRooms existingAnchors validateHouse = .ok preview →
    planImport py payload existingRooms validateHouse = .ok plan →
    preview.digest = plan.digest ∧ preview.roomsIncoming = plan.roomsIncoming ∧
      preview.roomsReplaced = plan.roomsReplaced ∧ preview.roomsLost = plan.roomsLost

variable {py}

theorem agree (payload : Value) (existingRooms : List String) (existingAnchors : ℕ)
    (validateHouse : Option (Fields → Option String)) :
    Agree py payload existingRooms existingAnchors validateHouse := by
  intro preview plan hpreview hplan
  obtain ⟨config, house, hconfig, hhouse, hrooms, hdigest, hreplaced, hlost⟩ := previewImport_eq_ok hpreview
  obtain ⟨config', house', hconfig', hhouse', hrooms', hdigest', hreplaced', hlost'⟩ :=
    planImport_eq_ok hplan
  obtain rfl : config = config' := Except.ok.inj (hconfig.symm.trans hconfig')
  obtain rfl : house = house' := Except.ok.inj (hhouse.symm.trans hhouse')
  have hsame : preview.roomsIncoming = plan.roomsIncoming :=
    Except.ok.inj ((planRooms_of_previewRooms hrooms).symm.trans hrooms')
  refine ⟨Except.ok.inj (hdigest.symm.trans hdigest'), hsame, ?_, ?_⟩
  · rw [hreplaced, hreplaced', hsame]
  · rw [hlost, hlost', hsame]

/-- The three readers return or refuse, and the two reports agree, exactly on the documents whose
version is not infinite and in which what they walk over has the shape they expect. -/
theorem import_clean_iff (payload : Value) (existingRooms : List String) (existingAnchors : ℕ)
    (validateHouse : Option (Fields → Option String)) :
    (Clean (checkImport py payload) ∧
      Clean (previewImport py payload existingRooms existingAnchors validateHouse) ∧
      Clean (planImport py payload existingRooms validateHouse) ∧
      Agree py payload existingRooms existingAnchors validateHouse) ↔
    WellShaped py validateHouse payload := by
  rw [clean_checkImport, clean_previewImport, clean_planImport]
  constructor
  · rintro ⟨hversion, hpreview, hplan, -⟩ config hobj
    refine ⟨hversion config hobj, fun hcurrent hlisted => ?_⟩
    obtain ⟨house, hhouse, hfloors⟩ := (hpreview config hobj).2 hcurrent hlisted
    obtain ⟨house', hhouse', hrest⟩ := (hplan config hobj).2 hcurrent hlisted
    obtain rfl : house = house' := Json.obj.inj (hhouse.symm.trans hhouse')
    refine ⟨house, hhouse, ?_⟩
    rcases hfloors with hrefused | hfloors
    · exact .inl hrefused
    · exact hrest.imp id fun h => ⟨yields_previewRooms.mp hfloors, h.2⟩
  · intro h
    refine ⟨fun config hobj => (h config hobj).1, fun config hobj => ?_, fun config hobj => ?_,
      agree payload existingRooms existingAnchors validateHouse⟩
    · refine ⟨(h config hobj).1, fun hcurrent hlisted => ?_⟩
      obtain ⟨house, hhouse, hshape⟩ := (h config hobj).2 hcurrent hlisted
      exact ⟨house, hhouse, hshape.imp id fun h => yields_previewRooms.mpr h.1⟩
    · refine ⟨(h config hobj).1, fun hcurrent hlisted => ?_⟩
      obtain ⟨house, hhouse, hshape⟩ := (h config hobj).2 hcurrent hlisted
      refine ⟨house, hhouse, hshape.imp id fun h => ⟨?_, h.2⟩⟩
      obtain ⟨rooms, hrooms, hhash⟩ := yields_previewRooms.mpr h.1
      exact ⟨rooms, planRooms_of_previewRooms hrooms, hhash⟩

/-- An interpreter of which the run below uses nothing but `json.dumps` and the digest. -/
def plain : Interpreter where
  conversions := ⟨fun n => some n, fun _ => none, fun _ => none⟩
  loads _ := none
  str _ := ""
  dumps _ := "document"
  sha256 s := s

/-- A row that is a text passes the check and the preview, and fails the import with an AttributeError. -/
theorem textRow_crashes :
    let payload : Value := .obj [("wavr_config_version", .int 1), ("anchors", .arr [.str "sofa"])]
    (∃ preview, previewImport plain payload [] 0 none = .ok preview) ∧
      planImport plain payload [] none = .error (.crash .attributeError) := by
  exact ⟨⟨_, rfl⟩, rfl⟩

end

end Wavr.ConfigExport
