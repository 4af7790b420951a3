import Mathlib.Tactic.NormNum
import Wavr.HouseMap

/-!
# What the gate of the house map lets through

When `validate_house_map` raises something else than its own error, and what the documents that it
accepts are like.
-/

namespace Wavr.HouseMap

open Checks
open Json (get)

section
variable {F : Type} (py : Python F)

/-! ## Statements -/

/-- The error of the module itself. -/
def Refused (e : Fault) : Prop := ∃ text, e = .houseMapError text

def hashable : Json F → Bool
  | .arr _ => false
  | .obj _ => false
  | _ => true

/-- Behind features that pass, the type of a feature has a hash. -/
def FeaturesHashable (f : List (String × Json F)) : Prop :=
  ∀ feats, getD f "features" (.arr []) = .arr feats → ∀ pre feat post, feats = pre ++ .obj feat :: post →
    (∀ g ∈ pre, checkFeature py g = .ok ()) → hashable (get feat "type") = true

/-- Behind zones that pass, the kind of a zone whose other fields pass has a hash. -/
def ZonesHashable (f : List (String × Json F)) : Prop :=
  ∀ zones, getD f "zones" (.arr []) = .arr zones → zones.length ≤ MAX_ZONES_PER_FLOOR →
    ∀ pre z post, zones = pre ++ .obj z :: post → (∀ y ∈ pre, checkZone py y = .ok ()) →
      checkZoneHead py z = .ok () → hashable (get z "kind") = true

/-- Wherever the walk over the document comes, with every earlier check passed. -/
def WalkHashable (doc : Json F) : Prop :=
  ∀ floors, checkTop py doc = .ok floors → ∀ pre f post, floors = pre ++ .obj f :: post →
    ∀ seen seen', pre.foldlM (checkFloor py) ⟨[], []⟩ = .ok seen → checkFloorHead py seen f = .ok seen' →
      checkRooms py f = .ok () → checkWalls py f = .ok () →
      FeaturesHashable py f ∧ (checkFeatures py f = .ok () → ZonesHashable py f)

/-- A polygon as the checks want it. -/
def PolygonOk (v : Json F) (ps : List (Json F)) : Prop :=
  v = .arr ps ∧ 3 ≤ ps.length ∧ ps.length ≤ MAX_VERTICES ∧ ps.all (point py) = true

structure RoomOk (r : List (String × Json F)) : Prop where
  keys : unknown r ROOM_KEYS = []
  id : boundedStr (get r "id") = true
  name : boundedStr (get r "name") = true
  polygon : ∃ ps, PolygonOk py (get r "polygon") ps

structure ZoneOk (z : List (String × Json F)) : Prop where
  kind : eqStr (get z "kind") "rest" = true
  polygon : ∃ ps, PolygonOk py (get z "polygon") ps

/-! ## The checks one by one -/

section
variable {py}

theorem require_eq_ok {c : Bool} {text : String} : require c text = .ok () ↔ c = true := by
  cases c with
  | true => exact iff_of_true rfl rfl
  | false => exact iff_of_false (fun h => (by cases h)) Bool.false_ne_true

theorem objectOf_eq_ok {v : Json F} {text : String} {d : List (String × Json F)} :
    objectOf v text = .ok d ↔ v = .obj d := by
  cases v with
  | obj fields => exact ⟨fun h => congrArg Json.obj (Except.ok.inj h),
      fun h => congrArg Except.ok (Json.obj.inj h)⟩
  | _ => exact iff_of_false (fun h => (by cases h)) (fun h => (by cases h))

theorem listOf_eq_ok {v : Json F} {text : String} {items : List (Json F)} :
    listOf v text = .ok items ↔ v = .arr items := by
  cases v with
  | arr items => exact ⟨fun h => congrArg Json.arr (Except.ok.inj h), fun h => congrArg Except.ok (Json.arr.inj h)⟩
  | _ => exact iff_of_false (fun h => (by cases h)) (fun h => (by cases h))

theorem shortListOf_eq_ok {v : Json F} {max : ℕ} {text : String} {items : List (Json F)} :
    shortListOf v max text = .ok items ↔ v = .arr items ∧ items.length ≤ max := by
  unfold shortListOf
  rw [bind_eq_ok]
  constructor
  · rintro ⟨items', hlist, h⟩
    rw [unit_bind_eq_ok, require_eq_ok, decide_eq_true_iff] at h
    obtain ⟨hlen, ⟨⟩⟩ := h
    exact ⟨listOf_eq_ok.mp hlist, hlen⟩
  · rintro ⟨rfl, hlen⟩
    exact ⟨items, rfl, unit_bind_eq_ok.mpr ⟨require_eq_ok.mpr (decide_eq_true hlen), rfl⟩⟩

theorem memberOf_eq_true {v : Json F} {allowed : List String} :
    memberOf v allowed = .ok true ↔ ∃ s, v = .str s ∧ s ∈ allowed := by
  cases v with
  | str s => simp [memberOf]
  | _ => exact iff_of_false (fun h => (by cases h)) (fun ⟨_, h, _⟩ => (by cases h))

variable {α : Type}

theorem require_bind_eq_ok {c : Bool} {text : String} {k : Unit → Except Fault α} {a : α} :
    require c text >>= k = .ok a ↔ c = true ∧ k () = .ok a := by
  rw [unit_bind_eq_ok, require_eq_ok]

theorem objectOf_bind_eq_ok {v : Json F} {text : String} {k : List (String × Json F) → Except Fault α} {a : α} :
    objectOf v text >>= k = .ok a ↔ ∃ d, v = .obj d ∧ k d = .ok a := by
  simp only [bind_eq_ok, objectOf_eq_ok]

theorem listOf_bind_eq_ok {v : Json F} {text : String} {k : List (Json F) → Except Fault α} {a : α} :
    listOf v text >>= k = .ok a ↔ ∃ items, v = .arr items ∧ k items = .ok a := by
  simp only [bind_eq_ok, listOf_eq_ok]

theorem checkPolygon_eq_ok {v : Json F} {few many bad : String} :
    checkPolygon py v few many bad = .ok () ↔ ∃ ps, PolygonOk py v ps := by
  unfold checkPolygon PolygonOk
  simp only [listOf_bind_eq_ok, require_bind_eq_ok, require_eq_ok, decide_eq_true_iff]

theorem noUnknownKeys_bind_eq_ok {d : List (String × Json F)} {allowed : List String} {what : String}
    {k : Unit → Except Fault α} {a : α} :
    noUnknownKeys py d allowed what >>= k = .ok a ↔ unknown d allowed = [] ∧ k () = .ok a := by
  unfold noUnknownKeys
  rw [require_bind_eq_ok, decide_eq_true_iff]

theorem checkRoom_eq_ok {v : Json F} : checkRoom py v = .ok () ↔ ∃ r, v = .obj r ∧ RoomOk py r := by
  unfold checkRoom
  simp only [objectOf_bind_eq_ok, noUnknownKeys_bind_eq_ok, require_bind_eq_ok, checkPolygon_eq_ok]
  exact exists_congr fun r => and_congr_right fun _ =>
    ⟨fun ⟨hkeys, hid, hname, hpoly⟩ => ⟨hkeys, hid, hname, hpoly⟩, fun h => ⟨h.keys, h.id, h.name, h.polygon⟩⟩

theorem zoneOk_of_checkZone {v : Json F} (h : checkZone py v = .ok ()) : ∃ z, v = .obj z ∧ ZoneOk py z := by
  unfold checkZone at h
  rw [objectOf_bind_eq_ok] at h
  obtain ⟨z, rfl, h⟩ := h
  rw [unit_bind_eq_ok, bind_eq_ok] at h
  obtain ⟨-, known, hknown, h⟩ := h
  rw [require_bind_eq_ok, checkPolygon_eq_ok] at h
  obtain ⟨rfl, hpoly⟩ := h
  obtain ⟨s, hs, hmem⟩ := memberOf_eq_true.mp hknown
  refine ⟨z, rfl, ?_, hpoly⟩
  rw [hs, List.mem_singleton.mp hmem]
  rfl

theorem checkRooms_eq_ok {f : List (String × Json F)} : checkRooms py f = .ok () ↔
    ∃ rooms, getD f "rooms" (.arr []) = .arr rooms ∧ rooms.length ≤ MAX_ROOMS_PER_FLOOR ∧
      ∀ v ∈ rooms, checkRoom py v = .ok () := by
  unfold checkRooms
  simp only [bind_eq_ok, shortListOf_eq_ok, forM_eq_ok, and_assoc]

theorem checkZones_eq_ok {f : List (String × Json F)} : checkZones py f = .ok () ↔
    ∃ zones, getD f "zones" (.arr []) = .arr zones ∧ zones.length ≤ MAX_ZONES_PER_FLOOR ∧
      ∀ v ∈ zones, checkZone py v = .ok () := by
  unfold checkZones
  simp only [bind_eq_ok, shortListOf_eq_ok, forM_eq_ok, and_assoc]

/-- What a floor must have itself. -/
theorem checkFloorHead_eq_ok {seen seen' : Seen} {f : List (String × Json F)} :
    checkFloorHead py seen f = .ok seen' ↔ unknown f FLOOR_KEYS = [] ∧
      ∃ level fid, get f "level" = .int level ∧ level ∉ seen.levels ∧ get f "id" = .str fid ∧
        fid.length ≤ MAX_STR_LEN ∧ fid ∉ seen.ids ∧ boundedStr (get f "name") = true ∧
        validBackdrop py (get f "backdrop") = true ∧ seen' = ⟨level :: seen.levels, fid :: seen.ids⟩ := by
  have hlevel : ∀ level, levelOf f = .ok level ↔ get f "level" = .int level := by
    intro level
    unfold levelOf
    cases get f "level" with
    | int n => exact ⟨fun h => congrArg Json.int (Except.ok.inj h), fun h => congrArg Except.ok (Json.int.inj h)⟩
    | _ => exact iff_of_false (fun h => (by cases h)) (fun h => (by cases h))
  have hid : ∀ fid, uniqueIdOf f seen.ids = .ok fid ↔
      get f "id" = .str fid ∧ fid.length ≤ MAX_STR_LEN ∧ fid ∉ seen.ids := by
    intro fid
    unfold uniqueIdOf
    cases get f "id" with
    | str s =>
      dsimp only
      split_ifs with h
      · constructor
        · rintro ⟨⟩
          exact ⟨rfl, h⟩
        · rintro ⟨⟨⟩, -⟩
          rfl
      · refine iff_of_false (fun h => (by cases h)) ?_
        rintro ⟨⟨⟩, hs⟩
        exact h hs
    | _ => exact iff_of_false (fun h => (by cases h)) (fun h => (by cases h.1))
  -- the checks in the order of the source; the level and the id are the ones that are recorded
  unfold checkFloorHead
  rw [noUnknownKeys_bind_eq_ok]
  refine and_congr_right fun _ => ?_
  rw [bind_eq_ok]
  simp only [hlevel, require_bind_eq_ok, decide_eq_true_iff]
  refine exists_congr fun level => ?_
  constructor
  · rintro ⟨hl, hnew, h⟩
    obtain ⟨fid, hfid, h⟩ := bind_eq_ok.mp h
    obtain ⟨hf, hlen, hfree⟩ := (hid fid).mp hfid
    rw [require_bind_eq_ok, require_bind_eq_ok] at h
    obtain ⟨hname, hbackdrop, ⟨⟩⟩ := h
    exact ⟨fid, hl, hnew, hf, hlen, hfree, hname, hbackdrop, rfl⟩
  · rintro ⟨fid, hl, hnew, hf, hlen, hfree, hname, hbackdrop, rfl⟩
    refine ⟨hl, hnew, bind_eq_ok.mpr ⟨fid, (hid fid).mpr ⟨hf, hlen, hfree⟩, ?_⟩⟩
    rw [require_bind_eq_ok, require_bind_eq_ok]
    exact ⟨hname, hbackdrop, rfl⟩

theorem checkFloor_eq_ok {seen seen' : Seen} {v : Json F} : checkFloor py seen v = .ok seen' ↔
    ∃ f, v = .obj f ∧ checkFloorHead py seen f = .ok seen' ∧ checkRooms py f = .ok () ∧
      checkWalls py f = .ok () ∧ checkFeatures py f = .ok () ∧ checkZones py f = .ok () := by
  unfold checkFloor
  rw [objectOf_bind_eq_ok]
  refine exists_congr fun f => and_congr_right fun _ => ?_
  rw [bind_eq_ok]
  simp only [unit_bind_eq_ok]
  constructor
  · rintro ⟨seen, hhead, hrooms, hwalls, hfeatures, hzones, ⟨⟩⟩
    exact ⟨hhead, hrooms, hwalls, hfeatures, hzones⟩
  · rintro ⟨hhead, hrooms, hwalls, hfeatures, hzones⟩
    exact ⟨seen', hhead, hrooms, hwalls, hfeatures, hzones, rfl⟩

theorem checkTop_eq_ok {doc : Json F} {floors : List (Json F)} : checkTop py doc = .ok floors ↔
    ∃ d, doc = .obj d ∧ dumpable (fun _ => true) doc = true ∧ py.dumpsLength doc ≤ MAX_DOC_BYTES ∧
      unknown d TOP_KEYS = [] ∧ eqInt py (get d "version") 2 = true ∧ eqStr (get d "units") "m" = true ∧
      get d "floors" = .arr floors ∧ floors ≠ [] ∧ floors.length ≤ MAX_FLOORS := by
  unfold checkTop
  simp only [objectOf_bind_eq_ok, noUnknownKeys_bind_eq_ok, require_bind_eq_ok, listOf_bind_eq_ok,
    decide_eq_true_iff]
  refine exists_congr fun d => ?_
  constructor
  · rintro ⟨hdoc, hdump, hsize, hkeys, hversion, hunits, floors', hfloors, hne, hlen, ⟨⟩⟩
    exact ⟨hdoc, hdump, hsize, hkeys, hversion, hunits, hfloors, hne, hlen⟩
  · rintro ⟨hdoc, hdump, hsize, hkeys, hversion, hunits, hfloors, hne, hlen⟩
    exact ⟨hdoc, hdump, hsize, hkeys, hversion, hunits, floors, hfloors, hne, hlen, rfl⟩

theorem validateHouseMap_eq_ok {doc : Json F} : validateHouseMap py doc = .ok () ↔
    ∃ floors seen, checkTop py doc = .ok floors ∧ floors.foldlM (checkFloor py) ⟨[], []⟩ = .ok seen := by
  unfold validateHouseMap
  rw [bind_eq_ok]
  refine exists_congr fun floors => ?_
  rw [bind_eq_ok]
  exact ⟨fun ⟨htop, seen, hfold, _⟩ => ⟨seen, htop, hfold⟩, fun ⟨seen, htop, hfold⟩ => ⟨htop, seen, hfold, rfl⟩⟩

/-! ## What is raised -/

theorem clean_require (c : Bool) (text : String) : Clean Refused (require c text) := by
  cases c with
  | true => exact clean_ok ()
  | false => exact clean_error.mpr ⟨text, rfl⟩

theorem clean_noUnknownKeys (d : List (String × Json F)) (allowed : List String) (what : String) :
    Clean Refused (noUnknownKeys py d allowed what) := clean_require _ _

theorem clean_objectOf (v : Json F) (text : String) : Clean Refused (objectOf v text) := by
  cases v with
  | obj fields => exact clean_ok fields
  | _ => exact clean_error.mpr ⟨text, rfl⟩

theorem clean_listOf (v : Json F) (text : String) : Clean Refused (listOf v text) := by
  cases v with
  | arr items => exact clean_ok items
  | _ => exact clean_error.mpr ⟨text, rfl⟩

theorem clean_shortListOf (v : Json F) (max : ℕ) (text : String) : Clean Refused (shortListOf v max text) :=
  clean_bind.mpr ⟨clean_listOf v text, fun _ _ =>
    clean_bind.mpr ⟨clean_require _ _, fun _ _ => clean_ok _⟩⟩

theorem clean_checkPolygon (v : Json F) (few many bad : String) :
    Clean Refused (checkPolygon py v few many bad) :=
  clean_bind.mpr ⟨clean_listOf v few, fun _ _ => clean_bind.mpr ⟨clean_require _ _, fun _ _ =>
    clean_bind.mpr ⟨clean_require _ _, fun _ _ => clean_require _ _⟩⟩⟩

theorem clean_checkRoom (v : Json F) : Clean Refused (checkRoom py v) :=
  clean_bind.mpr ⟨clean_objectOf v _, fun _ _ => clean_bind.mpr ⟨clean_noUnknownKeys _ _ _, fun _ _ =>
    clean_bind.mpr ⟨clean_require _ _, fun _ _ => clean_bind.mpr ⟨clean_require _ _, fun _ _ =>
      clean_checkPolygon _ _ _ _⟩⟩⟩⟩

theorem clean_checkWall (v : Json F) : Clean Refused (checkWall py v) :=
  clean_bind.mpr ⟨clean_objectOf v _, fun _ _ => clean_bind.mpr ⟨clean_noUnknownKeys _ _ _, fun _ _ =>
    clean_bind.mpr ⟨clean_require _ _, fun _ _ => clean_require _ _⟩⟩⟩

theorem clean_checkRooms (f : List (String × Json F)) : Clean Refused (checkRooms py f) :=
  clean_bind.mpr ⟨clean_shortListOf _ _ _, fun _ _ => clean_forM.mpr fun _ v _ _ _ => clean_checkRoom v⟩

theorem clean_checkWalls (f : List (String × Json F)) : Clean Refused (checkWalls py f) :=
  clean_bind.mpr ⟨clean_shortListOf _ _ _, fun _ _ => clean_forM.mpr fun _ v _ _ _ => clean_checkWall v⟩

theorem clean_checkZoneHead (z : List (String × Json F)) : Clean Refused (checkZoneHead py z) :=
  clean_bind.mpr ⟨clean_noUnknownKeys _ _ _, fun _ _ =>
    clean_bind.mpr ⟨clean_require _ _, fun _ _ => clean_require _ _⟩⟩

theorem clean_checkFloorHead (seen : Seen) (f : List (String × Json F)) :
    Clean Refused (checkFloorHead py seen f) := by
  have hlevel : Clean Refused (levelOf f) := by
    unfold levelOf
    split
    · exact clean_ok _
    · exact clean_error.mpr ⟨_, rfl⟩
  have hid : Clean Refused (uniqueIdOf f seen.ids) := by
    unfold uniqueIdOf
    split
    · split_ifs
      · exact clean_ok _
      · exact clean_error.mpr ⟨_, rfl⟩
    · exact clean_error.mpr ⟨_, rfl⟩
  exact clean_bind.mpr ⟨clean_noUnknownKeys _ _ _, fun _ _ => clean_bind.mpr ⟨hlevel, fun _ _ =>
    clean_bind.mpr ⟨clean_require _ _, fun _ _ => clean_bind.mpr ⟨hid, fun _ _ =>
      clean_bind.mpr ⟨clean_require _ _, fun _ _ => clean_bind.mpr ⟨clean_require _ _, fun _ _ => clean_ok _⟩⟩⟩⟩⟩⟩

theorem clean_checkTop (doc : Json F) : Clean Refused (checkTop py doc) :=
  clean_bind.mpr ⟨clean_objectOf doc _, fun _ _ => clean_bind.mpr ⟨clean_require _ _, fun _ _ =>
    clean_bind.mpr ⟨clean_require _ _, fun _ _ => clean_bind.mpr ⟨clean_noUnknownKeys _ _ _, fun _ _ =>
      clean_bind.mpr ⟨clean_require _ _, fun _ _ => clean_bind.mpr ⟨clean_require _ _, fun _ _ =>
        clean_bind.mpr ⟨clean_listOf _ _, fun _ _ => clean_bind.mpr ⟨clean_require _ _, fun _ _ =>
          clean_bind.mpr ⟨clean_require _ _, fun _ _ => clean_ok _⟩⟩⟩⟩⟩⟩⟩⟩⟩

theorem clean_memberOf {v : Json F} {allowed : List String} :
    Clean Refused (memberOf v allowed) ↔ hashable v = true := by
  cases v with
  | arr _ => exact iff_of_false (fun h => by obtain ⟨_, ⟨⟩⟩ := h _ rfl) (by simp [hashable])
  | obj _ => exact iff_of_false (fun h => by obtain ⟨_, ⟨⟩⟩ := h _ rfl) (by simp [hashable])
  | _ => exact iff_of_true (clean_ok _) rfl

theorem clean_checkFeature {v : Json F} :
    Clean Refused (checkFeature py v) ↔ ∀ feat, v = .obj feat → hashable (get feat "type") = true := by
  unfold checkFeature
  rw [clean_bind_of_clean (clean_objectOf v _)]
  simp only [objectOf_eq_ok]
  refine forall_congr' fun feat => imp_congr_right fun _ => ?_
  rw [clean_bind, clean_memberOf]
  refine and_iff_left fun _ _ => ?_
  exact clean_bind.mpr ⟨clean_require _ _, fun _ _ => clean_bind.mpr ⟨clean_noUnknownKeys _ _ _, fun _ _ =>
    clean_bind.mpr ⟨clean_require _ _, fun _ _ => clean_bind.mpr ⟨clean_require _ _, fun _ _ =>
      clean_require _ _⟩⟩⟩⟩

theorem clean_checkZone {v : Json F} : Clean Refused (checkZone py v) ↔
    ∀ z, v = .obj z → checkZoneHead py z = .ok () → hashable (get z "kind") = true := by
  unfold checkZone
  rw [clean_bind_of_clean (clean_objectOf v _)]
  simp only [objectOf_eq_ok]
  refine forall_congr' fun z => imp_congr_right fun _ => ?_
  rw [clean_bind_of_clean (clean_checkZoneHead z)]
  refine ⟨fun h hz => ?_, fun h u hu => ?_⟩
  · have hkind := h () hz
    rw [clean_bind, clean_memberOf] at hkind
    exact hkind.1
  · rw [clean_bind, clean_memberOf]
    exact ⟨h hu, fun _ _ => clean_bind.mpr ⟨clean_require _ _, fun _ _ => clean_checkPolygon _ _ _ _⟩⟩

theorem clean_checkFeatures {f : List (String × Json F)} :
    Clean Refused (checkFeatures py f) ↔ FeaturesHashable py f := by
  unfold checkFeatures FeaturesHashable
  rw [clean_bind_of_clean (clean_listOf _ _)]
  simp only [listOf_eq_ok, clean_forM, clean_checkFeature]
  refine forall_congr' fun feats => imp_congr_right fun _ => ?_
  constructor
  · exact fun h pre feat post heq hpre => h pre (.obj feat) post heq hpre feat rfl
  · rintro h pre v post heq hpre feat rfl
    exact h pre feat post heq hpre

theorem clean_checkZones {f : List (String × Json F)} :
    Clean Refused (checkZones py f) ↔ ZonesHashable py f := by
  unfold checkZones ZonesHashable
  rw [clean_bind_of_clean (clean_shortListOf _ _ _)]
  simp only [shortListOf_eq_ok, clean_forM, clean_checkZone, and_imp]
  refine forall_congr' fun zones => imp_congr_right fun _ => imp_congr_right fun _ => ?_
  constructor
  · exact fun h pre z post heq hpre => h pre (.obj z) post heq hpre z rfl
  · rintro h pre v post heq hpre z rfl
    exact h pre z post heq hpre

theorem clean_checkFloor {seen : Seen} {v : Json F} : Clean Refused (checkFloor py seen v) ↔
    ∀ f, v = .obj f → ∀ seen', checkFloorHead py seen f = .ok seen' → checkRooms py f = .ok () →
      checkWalls py f = .ok () → FeaturesHashable py f ∧ (checkFeatures py f = .ok () → ZonesHashable py f) := by
  unfold checkFloor
  rw [clean_bind_of_clean (clean_objectOf v _)]
  simp only [objectOf_eq_ok]
  refine forall_congr' fun f => imp_congr_right fun _ => ?_
  rw [clean_bind_of_clean (clean_checkFloorHead seen f)]
  refine forall_congr' fun seen' => imp_congr_right fun _ => ?_
  rw [clean_bind_of_clean (clean_checkRooms f)]
  refine ⟨fun h hrooms hwalls => ?_, fun h u hu => ?_⟩
  · have hrest := h () hrooms
    rw [clean_bind_of_clean (clean_checkWalls f)] at hrest
    replace hrest := hrest () hwalls
    rw [clean_bind, clean_checkFeatures] at hrest
    refine ⟨hrest.1, fun hfeatures => ?_⟩
    have hzones := hrest.2 () hfeatures
    rw [clean_bind, clean_checkZones] at hzones
    exact hzones.1
  · rw [clean_bind_of_clean (clean_checkWalls f)]
    intro w hw
    obtain ⟨hfeatures, hzones⟩ := h hu hw
    rw [clean_bind, clean_checkFeatures]
    refine ⟨hfeatures, fun x hx => ?_⟩
    rw [clean_bind, clean_checkZones]
    exact ⟨hzones hx, fun _ _ => clean_ok _⟩

/-- The gate raises its own error alone exactly where the walk finds hashes. -/
theorem clean_validateHouseMap {doc : Json F} :
    Clean Refused (validateHouseMap py doc) ↔ WalkHashable py doc := by
  unfold validateHouseMap WalkHashable
  rw [clean_bind_of_clean (clean_checkTop doc)]
  refine forall_congr' fun floors => imp_congr_right fun _ => ?_
  rw [clean_bind]
  refine (and_iff_left fun _ _ => clean_ok ()).trans ?_
  rw [clean_foldlM]
  simp only [clean_checkFloor]
  constructor
  · exact fun h pre f post heq seen seen' hfold => h pre (.obj f) post heq seen hfold f rfl seen'
  · rintro h pre v post heq seen hfold f rfl seen'
    exact h pre f post heq seen seen' hfold

/-! ## What is accepted -/

end

def floorList (d : List (String × Json F)) : List (List (String × Json F)) := (floorsOf d).filterMap asDict

def roomList (f : List (String × Json F)) : List (List (String × Json F)) := (roomsOf f).filterMap asDict

/-- The zones of a floor, where it has a list of them. -/
def zoneList (f : List (String × Json F)) : List (List (String × Json F)) :=
  match getD f "zones" (.arr []) with
  | .arr zones => zones.filterMap asDict
  | _ => []

structure FloorOk (f : List (String × Json F)) : Prop where
  level : ∃ level, get f "level" = .int level
  id : ∃ fid, get f "id" = .str fid
  rooms : getD f "rooms" (.arr []) = .arr ((roomList f).map .obj)
  zones : getD f "zones" (.arr []) = .arr ((zoneList f).map .obj)
  few_rooms : (roomList f).length ≤ MAX_ROOMS_PER_FLOOR
  rooms_ok : ∀ r ∈ roomList f, RoomOk py r
  zones_ok : ∀ z ∈ zoneList f, ZoneOk py z

/-- A walk over floors that pass, from what was seen before to what is seen behind it. -/
structure Walked (seen : Seen) (fs : List (List (String × Json F))) (seen' : Seen) : Prop where
  floors : ∀ f ∈ fs, FloorOk py f
  levels : ∀ level, level ∈ seen'.levels ↔ level ∈ seen.levels ∨ ∃ f ∈ fs, get f "level" = .int level
  ids : ∀ fid, fid ∈ seen'.ids ↔ fid ∈ seen.ids ∨ ∃ f ∈ fs, get f "id" = .str fid
  fresh : ∀ f ∈ fs, ∀ level ∈ seen.levels, get f "level" ≠ .int level
  distinct : fs.Pairwise fun f g => get f "level" ≠ get g "level"

section
variable {py}

theorem filterMap_asDict (ds : List (List (String × Json F))) : (ds.map Json.obj).filterMap asDict = ds := by
  rw [List.filterMap_map]
  exact List.filterMap_some

/-- A list of dictionaries, each of which meets `P`. -/
theorem map_filterMap_asDict {vs : List (Json F)} {P : List (String × Json F) → Prop}
    (h : ∀ v ∈ vs, ∃ d, v = .obj d ∧ P d) :
    vs = (vs.filterMap asDict).map .obj ∧ ∀ d ∈ vs.filterMap asDict, P d := by
  induction vs with
  | nil => exact ⟨rfl, fun _ h => (by cases h)⟩
  | cons v vs ih =>
    obtain ⟨⟨d, rfl, hd⟩, hvs⟩ := List.forall_mem_cons.mp h
    obtain ⟨heq, hall⟩ := ih hvs
    refine ⟨congrArg (Json.obj d :: ·) heq, ?_⟩
    exact List.forall_mem_cons.mpr ⟨hd, hall⟩

theorem floorOk_of_checkFloor {seen seen' : Seen} {f : List (String × Json F)}
    (hhead : checkFloorHead py seen f = .ok seen') (hrooms : checkRooms py f = .ok ())
    (hzones : checkZones py f = .ok ()) : FloorOk py f := by
  obtain ⟨-, level, fid, hlevel, -, hid, -⟩ := checkFloorHead_eq_ok.mp hhead
  obtain ⟨rooms, hr, hfew, hrall⟩ := checkRooms_eq_ok.mp hrooms
  obtain ⟨zones, hz, -, hzall⟩ := checkZones_eq_ok.mp hzones
  obtain ⟨hreq, hrok⟩ := map_filterMap_asDict fun v hv => checkRoom_eq_ok.mp (hrall v hv)
  obtain ⟨hzeq, hzok⟩ := map_filterMap_asDict fun v hv => zoneOk_of_checkZone (hzall v hv)
  have hrlist : roomList f = rooms.filterMap asDict := by simp only [roomList, roomsOf, hr]
  have hzlist : zoneList f = zones.filterMap asDict := by simp only [zoneList, hz]
  refine ⟨⟨level, hlevel⟩, ⟨fid, hid⟩, ?_, ?_, ?_, ?_, ?_⟩
  · rw [hrlist, ← hreq, hr]
  · rw [hzlist, ← hzeq, hz]
  · rw [hrlist]
    exact (List.length_filterMap_le asDict rooms).trans hfew
  · rwa [hrlist]
  · rwa [hzlist]

theorem walked_of_foldlM {seen seen' : Seen} {floors : List (Json F)}
    (h : floors.foldlM (checkFloor py) seen = .ok seen') :
    floors = (floors.filterMap asDict).map .obj ∧ Walked py seen (floors.filterMap asDict) seen' := by
  induction floors generalizing seen with
  | nil =>
    cases h
    exact ⟨rfl, fun _ h => (by cases h), fun _ => by simp, fun _ => by simp, fun _ h => (by cases h), .nil⟩
  | cons v floors ih =>
    rw [List.foldlM_cons, bind_eq_ok] at h
    obtain ⟨next, hv, h⟩ := h
    obtain ⟨f, rfl, hhead, hrooms, -, -, hzones⟩ := checkFloor_eq_ok.mp hv
    obtain ⟨heq, hwalked⟩ := ih h
    obtain ⟨-, level, fid, hlevel, hnew, hid, -, -, -, -, rfl⟩ := checkFloorHead_eq_ok.mp hhead
    refine ⟨congrArg (Json.obj f :: ·) heq, ?_⟩
    show Walked py seen (f :: floors.filterMap asDict) seen'
    constructor
    · exact List.forall_mem_cons.mpr ⟨floorOk_of_checkFloor hhead hrooms hzones, hwalked.floors⟩
    · intro l
      rw [hwalked.levels, List.mem_cons, List.exists_mem_cons_iff, hlevel, Json.int.injEq, eq_comm (a := l)]
      tauto
    · intro s
      rw [hwalked.ids, List.mem_cons, List.exists_mem_cons_iff, hid, Json.str.injEq, eq_comm (a := s)]
      tauto
    · refine List.forall_mem_cons.mpr ⟨fun l hl heq => ?_, fun g hg l hl =>
        hwalked.fresh g hg l (List.mem_cons_of_mem level hl)⟩
      rw [hlevel] at heq
      exact hnew (Json.int.inj heq ▸ hl)
    · refine List.pairwise_cons.mpr ⟨fun g hg heq => ?_, hwalked.distinct⟩
      exact hwalked.fresh g hg level List.mem_cons_self (heq ▸ hlevel)

/-- An accepted document: its floors are there, in order, and on levels of their own. -/
theorem exists_of_accepted {doc : Json F} (h : validateHouseMap py doc = .ok ()) :
    ∃ d, doc = .obj d ∧ get d "floors" = .arr ((floorList d).map .obj) ∧ (∀ f ∈ floorList d, FloorOk py f) ∧
      (floorList d).Pairwise fun f g => get f "level" ≠ get g "level" := by
  obtain ⟨floors, seen, htop, hfold⟩ := validateHouseMap_eq_ok.mp h
  obtain ⟨d, rfl, -, -, -, -, -, hfloors, -⟩ := checkTop_eq_ok.mp htop
  obtain ⟨heq, hwalked⟩ := walked_of_foldlM hfold
  have hlist : floorList d = floors.filterMap asDict := by simp only [floorList, floorsOf, hfloors]
  refine ⟨d, rfl, ?_, ?_, ?_⟩
  · rw [hlist, ← heq, hfloors]
  · rw [hlist]
    exact hwalked.floors
  · rw [hlist]
    exact hwalked.distinct

end

end

end Wavr.HouseMap
