import Wavr.HouseMapReaders

/-!
# Upserting a room

`upsert_room` on an accepted document: what it changes, that the gate takes the result again, and
that a second upsert changes nothing. With the readers this is the law of the gate.
-/

namespace Wavr.HouseMap

open Checks
open Dict (setEntry)
open Json (get)

section
variable {F : Type} (py : Python F)

/-! ## Statements -/

/-- The rooms of the floor before and behind: the first with the name has another polygon, or there is a new one
at the end. -/
inductive RoomsUpserted (name : String) (polygon : Json F) (rooms : List (Json F)) : List (Json F) → Prop
  | redrawn (pre post : List (List (String × Json F))) (r : List (String × Json F))
      (hrooms : rooms = (pre ++ r :: post).map .obj) (hpre : ∀ q ∈ pre, named name q = false)
      (hr : named name r = true) :
      RoomsUpserted name polygon rooms ((pre ++ setField "polygon" polygon r :: post).map .obj)
  | added (rs : List (List (String × Json F))) (id : String) (hrooms : rooms = rs.map .obj)
      (hnone : ∀ q ∈ rs, named name q = false) (hid : id.length ≤ MAX_STR_LEN) :
      RoomsUpserted name polygon rooms
        ((rs ++ [[("id", .str id), ("name", .str name), ("polygon", polygon)]]).map .obj)

/-- The document differs in that room only, or in a floor that holds it alone. -/
inductive OnlyThat (level : ℤ) (name : String) (polygon : Json F) (d : List (String × Json F)) :
    List (String × Json F) → Prop
  | room (pre post : List (List (String × Json F))) (f : List (String × Json F)) (rooms : List (Json F))
      (hfloors : floorList d = pre ++ f :: post) (hlevel : get f "level" = .int level)
      (hrooms : RoomsUpserted name polygon (roomsOf f) rooms) :
      OnlyThat level name polygon d
        (setField "floors" (.arr ((pre ++ setField "rooms" (.arr rooms) f :: post).map .obj)) d)
  | floor (f : List (String × Json F)) (id : String) (hnone : ∀ g ∈ floorList d, get g "level" ≠ .int level)
      (hlevel : get f "level" = .int level)
      (hrooms : get f "rooms" = .arr [.obj [("id", .str id), ("name", .str name), ("polygon", polygon)]]) :
      OnlyThat level name polygon d (setField "floors" (.arr ((floorList d ++ [f]).map .obj)) d)

/-- One of the caps: on the counts, on the size of the document or on the texts of a floor. -/
def CapExceeded (d : List (String × Json F)) : Prop :=
  MAX_FLOORS < (floorList d).length ∨ MAX_DOC_BYTES < py.dumpsLength (.obj d) ∨
    ∃ f ∈ floorList d, MAX_ROOMS_PER_FLOOR < (roomList f).length ∨ boundedStr (get f "id") = false ∨
      boundedStr (get f "name") = false

/-- A use of the document. -/
inductive Call (F : Type)
  | roomNames
  | roomAt (level : ℤ) (x y : F)
  | roomPolygon (name : String) (level : Option ℤ)
  | inRestZone (room : String) (x y : F)
  | upsertRoom (level : ℤ) (name : String) (polygon : Json F)

/-- What a use of an accepted document promises. -/
def CallLaw (d : List (String × Json F)) : Call F → Prop
  | .roomNames => ∃ names, roomNames (.obj d) = .ok names
  | .roomAt level x y => ∃ room, roomAt py (.obj d) level x y = .ok room
  | .roomPolygon name level => ∃ polygon, roomPolygon py (.obj d) name level = .ok polygon
  | .inRestZone room x y => ∃ rest, inRestZone py (.obj d) room x y = .ok rest
  | .upsertRoom level name polygon => ∃ d', upsertRoom py (.obj d) level name polygon = .ok (.obj d') ∧
      OnlyThat level name polygon d d' ∧ upsertRoom py (.obj d') level name polygon = .ok (.obj d') ∧
      (boundedStr (F := F) (.str name) = true → (∃ ps, PolygonOk py polygon ps) →
        validateHouseMap py (.obj d') = .ok () ∨ CapExceeded py d')

/-- The gate returns or raises its own error, and behind it the use is safe. -/
def GateLaw (doc : Json F) (call : Call F) : Prop :=
  Clean Refused (validateHouseMap py doc) ∧
    ∀ d, doc = .obj d → validateHouseMap py doc = .ok () → CallLaw py d call

/-- Where a use stays in range. -/
def CallSafe (d : List (String × Json F)) : Call F → Prop
  | .roomNames => True
  | .roomAt level x y => ∀ f, (floorList d).find? (atLevel py level) = some f → SafeUntilHit py x y (roomList f)
  | .roomPolygon _ _ => True
  | .inRestZone room x y => ∀ f, (floorList d).find? (hasRoom room) = some f → RestSafe py room x y f
  | .upsertRoom level _ _ => (floorList d).find? (atLevel py level) = none → hasText level = true

end

/-! ## Fields and floors -/

section
variable {F : Type} {py : Python F}

theorem get_setField (k k' : String) (v : Json F) (fields : List (String × Json F)) :
    get (setField k v fields) k' = if k' = k then v else get fields k' := by
  rw [Json.get, setField, Dict.lookup_setEntry]
  split_ifs <;> rfl

theorem getD_setField (k k' : String) (v default : Json F) (fields : List (String × Json F)) :
    getD (setField k v fields) k' default = if k' = k then v else getD fields k' default := by
  rw [getD, setField, Dict.lookup_setEntry]
  split_ifs <;> rfl

theorem setField_setField (k : String) (v w : Json F) (fields : List (String × Json F)) :
    setField k v (setField k w fields) = setField k v fields := Dict.setEntry_setEntry k v w fields

/-- The first dictionary that meets `p`, where it stands. -/
theorem updateFirst_eq {p : List (String × Json F) → Bool} {g : List (String × Json F) → List (String × Json F)}
    {pre post : List (List (String × Json F))} {d : List (String × Json F)} (hpre : ∀ c ∈ pre, p c = false)
    (hd : p d = true) :
    updateFirst p g ((pre ++ d :: post).map .obj) = (pre ++ g d :: post).map .obj := by
  induction pre with
  | nil =>
    rw [List.nil_append, List.map_cons, updateFirst, if_pos hd]
    rfl
  | cons c pre ih =>
    obtain ⟨hc, hpre⟩ := List.forall_mem_cons.mp hpre
    rw [List.cons_append, List.map_cons, updateFirst, hc, if_neg Bool.false_ne_true, ih hpre]
    rfl

theorem find?_append_cons {p : List (String × Json F) → Bool} {pre post : List (List (String × Json F))}
    {d : List (String × Json F)} (hpre : ∀ c ∈ pre, p c = false) (hd : p d = true) :
    (pre ++ d :: post).find? p = some d := by
  rw [List.find?_append, List.find?_eq_none.mpr fun c hc => by simp [hpre c hc], Option.none_or,
    List.find?_cons_of_pos hd]

theorem atLevel_iff {f : List (String × Json F)} (h : FloorOk py f) {level : ℤ} :
    atLevel py level f = true ↔ get f "level" = .int level := by
  obtain ⟨l, hl⟩ := h.level
  rw [atLevel, hl, eqInt, decide_eq_true_iff, Json.int.injEq]

theorem atLevel_setField {k : String} (hk : k ≠ "level") (v : Json F) (level : ℤ) (f : List (String × Json F)) :
    atLevel py level (setField k v f) = atLevel py level f := by
  rw [atLevel, atLevel, get_setField, if_neg hk.symm]

theorem roomsOf_setField (rooms : List (Json F)) (f : List (String × Json F)) :
    roomsOf (setField "rooms" (.arr rooms) f) = rooms := by
  rw [roomsOf, getD_setField, if_pos rfl]

/-- One upsert, from the floor on which it goes. -/
theorem upsertRoom_eq {d f : List (String × Json F)} {pre post : List (List (String × Json F))} {level : ℤ}
    {name : String} {polygon : Json F} {rooms : List (Json F)}
    (hfloors : floorsWith py (floorsOf d) level = .ok ((pre ++ f :: post).map .obj))
    (hpre : ∀ g ∈ pre, atLevel py level g = false) (hf : atLevel py level f = true)
    (hrooms : roomsWith ((pre ++ setField "rooms" (.arr (roomsOf f)) f :: post).map .obj) (roomsOf f) name polygon =
      .ok rooms) :
    upsertRoom py (.obj d) level name polygon =
      .ok (.obj (setField "floors" (.arr ((pre ++ setField "rooms" (.arr rooms) f :: post).map .obj)) d)) := by
  have hnamed : "rooms" ≠ "level" := by decide
  have hf' : atLevel py level (setField "rooms" (.arr (roomsOf f)) f) = true := by rwa [atLevel_setField hnamed]
  have hfind : (pre ++ setField "rooms" (.arr (roomsOf f)) f :: post).find? (atLevel py level) =
      some (setField "rooms" (.arr (roomsOf f)) f) := find?_append_cons hpre hf'
  simp only [upsertRoom, fieldsOf, ok_bind, hfloors, updateFirst_eq hpre hf, filterMap_asDict, hfind,
    Option.map_some,
    Option.getD_some, roomsOf_setField, hrooms, updateFirst_eq hpre hf', setField_setField]
  rfl

/-! ## Fresh ids -/

theorem length_uniqueId {stem : String} {taken : List String} {k : ℕ} (hk : 0 < k)
    (h : taken.length + 1 < 10 ^ k) : (uniqueId stem taken).length ≤ stem.length + k := by
  obtain ⟨n, hn, hfree⟩ := exists_free_le stem taken
  have hle : Nat.find (exists_free stem taken) ≤ n := Nat.find_min' _ hfree
  have hdigits : (toString (Nat.find (exists_free stem taken))).length ≤ k :=
    (Nat.length_repr_le_iff hk).mpr (by omega)
  rw [uniqueId, String.length_append]
  omega

theorem uniqueId_notMem (stem : String) (taken : List String) : uniqueId stem taken ∉ taken :=
  (Nat.find_spec (exists_free stem taken)).2

theorem idsOf_cons {d : List (String × Json F)} {s : String} (h : get d "id" = .str s)
    (ds : List (List (String × Json F))) : idsOf (d :: ds) = idsOf ds >>= fun ids => .ok (s :: ids) := by
  unfold idsOf
  rw [List.mapM_cons, h, ok_bind]
  generalize (List.mapM _ ds : Except Fault (List (Option String))) = ids
  cases ids <;> rfl

theorem exists_idsOf {ds : List (List (String × Json F))} (h : ∀ d ∈ ds, ∃ s, get d "id" = .str s) :
    ∃ ids, idsOf ds = .ok ids ∧ ids.length = ds.length ∧ ∀ d ∈ ds, ∀ s, get d "id" = .str s → s ∈ ids := by
  induction ds with
  | nil => exact ⟨[], rfl, rfl, fun _ hd => (by cases hd)⟩
  | cons d ds ih =>
    obtain ⟨⟨s, hs⟩, hds⟩ := List.forall_mem_cons.mp h
    obtain ⟨ids, hids, hlen, hmem⟩ := ih hds
    refine ⟨s :: ids, ?_, congrArg (· + 1) hlen, List.forall_mem_cons.mpr ⟨fun t ht => ?_, fun c hc t ht => ?_⟩⟩
    · rw [idsOf_cons hs, hids, ok_bind]
    · exact Json.str.inj (hs.symm.trans ht) ▸ List.mem_cons_self
    · exact List.mem_cons_of_mem s (hmem c hc t ht)

/-- A floor whose rooms have texts for ids. -/
structure Listed (f : List (String × Json F)) : Prop where
  rooms : getD f "rooms" (.arr []) = .arr ((roomList f).map .obj)
  few : (roomList f).length ≤ MAX_ROOMS_PER_FLOOR
  ids : ∀ r ∈ roomList f, ∃ s, get r "id" = .str s

theorem exists_roomIds {fs : List (List (String × Json F))} (h : ∀ f ∈ fs, Listed f) :
    ∃ ids, roomIds (fs.map .obj) = .ok ids ∧ ids.length ≤ MAX_ROOMS_PER_FLOOR * fs.length := by
  have hloop : ∃ ids : List (List String), fs.mapM (fun f => do
      let rooms ← iter (getD f "rooms" (.arr []))
      idsOf (rooms.filterMap asDict)) = .ok ids ∧ ids.flatten.length ≤ MAX_ROOMS_PER_FLOOR * fs.length := by
    induction fs with
    | nil => exact ⟨[], rfl, Nat.le_refl _⟩
    | cons f fs ih =>
      obtain ⟨hf, hfs⟩ := List.forall_mem_cons.mp h
      obtain ⟨ids, hids, hlen, -⟩ := exists_idsOf hf.ids
      obtain ⟨rest, hrest, hrestLen⟩ := ih hfs
      have hfew := hf.few
      refine ⟨ids :: rest, ?_, ?_⟩
      · rw [List.mapM_cons, hf.rooms, iter, ok_bind, filterMap_asDict, hids, ok_bind, hrest]
        rfl
      · rw [List.flatten_cons, List.length_append, List.length_cons, Nat.mul_succ]
        omega
  obtain ⟨ids, hids, hlen⟩ := hloop
  refine ⟨ids.flatten, ?_, hlen⟩
  rw [roomIds, filterMap_asDict, hids]
  rfl

/-- The list, up to the first that meets `p`. -/
theorem exists_first_or {p : List (String × Json F) → Bool} (ds : List (List (String × Json F))) :
    (∀ d ∈ ds, p d = false) ∨ ∃ pre d post, ds = pre ++ d :: post ∧ (∀ c ∈ pre, p c = false) ∧ p d = true := by
  cases hfind : ds.find? p with
  | none => exact .inl fun d hd => Bool.eq_false_iff.mpr (List.find?_eq_none.mp hfind d hd)
  | some d =>
    obtain ⟨hd, pre, post, heq, hpre⟩ := List.find?_eq_some_iff_append.mp hfind
    exact .inr ⟨pre, d, post, heq, fun c hc => by simpa using hpre c hc, hd⟩

/-- The rooms are there, with the one among them. -/
theorem exists_roomsWith {fs : List (List (String × Json F))} (hfs : ∀ f ∈ fs, Listed f)
    (hfew : fs.length ≤ MAX_FLOORS + 1) (rs : List (List (String × Json F))) (name : String) (polygon : Json F) :
    ∃ rooms, roomsWith (fs.map .obj) (rs.map .obj) name polygon = .ok rooms ∧
      RoomsUpserted name polygon (rs.map .obj) rooms := by
  unfold roomsWith
  rw [filterMap_asDict]
  rcases exists_first_or (p := named name) rs with hnone | ⟨pre, r, post, rfl, hpre, hr⟩
  · obtain ⟨ids, hids, hlen⟩ := exists_roomIds hfs
    have hshort : (uniqueId "r_" ids).length ≤ 2 + 5 := by
      have hcap : MAX_ROOMS_PER_FLOOR * fs.length ≤ 512 * 65 := Nat.mul_le_mul_left 512 hfew
      exact length_uniqueId (by decide) (by omega)
    have hany : ¬ rs.any (named name) = true := by simpa using hnone
    rw [if_neg hany, hids]
    refine ⟨_, rfl, ?_⟩
    rw [← List.map_singleton, ← List.map_append]
    exact .added rs (uniqueId "r_" ids) rfl hnone (hshort.trans (by decide))
  · have hany : (pre ++ r :: post).any (named name) = true :=
      List.any_eq_true.mpr ⟨r, List.mem_append_right pre List.mem_cons_self, hr⟩
    rw [if_pos hany, updateFirst_eq hpre hr]
    exact ⟨_, rfl, .redrawn pre post r rfl hpre hr⟩

theorem named_setField_polygon (name : String) (v : Json F) (r : List (String × Json F)) :
    named name (setField "polygon" v r) = named name r := by
  rw [named, named, get_setField, if_neg (by decide)]

/-- A second time nothing is left to do. -/
theorem RoomsUpserted.again {name : String} {polygon : Json F} {rooms rooms' : List (Json F)}
    (h : RoomsUpserted name polygon rooms rooms') (floors : List (Json F)) :
    roomsWith floors rooms' name polygon = .ok rooms' := by
  cases h with
  | redrawn pre post r _ hpre hr =>
    have hr' : named name (setField "polygon" polygon r) = true := (named_setField_polygon name polygon r).trans hr
    have hany : (pre ++ setField "polygon" polygon r :: post).any (named name) = true :=
      List.any_eq_true.mpr ⟨_, List.mem_append_right pre List.mem_cons_self, hr'⟩
    rw [roomsWith, filterMap_asDict, if_pos hany, updateFirst_eq hpre hr', setField_setField]
  | added rs id _ hnone _ =>
    have hnew : named name [("id", .str id), ("name", .str name), ("polygon", polygon)] = true :=
      decide_eq_true rfl
    have hany : (rs ++ [[("id", .str id), ("name", .str name), ("polygon", polygon)]]).any (named name) = true :=
      List.any_eq_true.mpr ⟨_, List.mem_append_right rs List.mem_cons_self, hnew⟩
    rw [roomsWith, filterMap_asDict, if_pos hany, updateFirst_eq hnone hnew]
    rfl

/-! ## What can be written -/

section
variable {p : F → Bool}

theorem dumpableItems_iff {vs : List (Json F)} : dumpableItems p vs = true ↔ ∀ v ∈ vs, dumpable p v = true := by
  induction vs with
  | nil => exact iff_of_true rfl fun _ h => (by cases h)
  | cons v vs ih => rw [dumpableItems, Bool.and_eq_true_iff, ih, List.forall_mem_cons]

theorem dumpableFields_iff {fields : List (String × Json F)} :
    dumpableFields p fields = true ↔ ∀ e ∈ fields, dumpable p e.2 = true := by
  induction fields with
  | nil => exact iff_of_true rfl fun _ h => (by cases h)
  | cons e fields ih => rw [dumpableFields, Bool.and_eq_true_iff, ih, List.forall_mem_cons]

theorem dumpable_arr {vs : List (Json F)} : dumpable p (.arr vs) = true ↔ ∀ v ∈ vs, dumpable p v = true := by
  rw [dumpable, dumpableItems_iff]

theorem dumpable_obj {fields : List (String × Json F)} :
    dumpable p (.obj fields) = true ↔ ∀ e ∈ fields, dumpable p e.2 = true := by
  rw [dumpable, dumpableFields_iff]

theorem dumpable_setField {fields : List (String × Json F)} {k : String} {v : Json F}
    (h : dumpable p (.obj fields) = true) (hv : dumpable p v = true) :
    dumpable p (.obj (setField k v fields)) = true := by
  refine dumpable_obj.mpr fun e he => ?_
  rcases Dict.mem_setEntry he with rfl | hold
  · exact hv
  · exact dumpable_obj.mp h e hold

theorem dumpable_getD {fields : List (String × Json F)} (h : dumpable p (.obj fields) = true) (k : String)
    {v : Json F} (hv : dumpable p v = true) : dumpable p (getD fields k v) = true :=
  Dict.getD_lookup (P := fun v => dumpable p v = true) hv (dumpable_obj.mp h) k

end

theorem hasText_of_fits {n : ℤ} (h : fits n = true) : hasText n = true := by
  have hle : ∀ k m : ℕ, 2 ^ k - m ≤ 10 ^ k := fun k m => (Nat.sub_le _ m).trans (Nat.pow_le_pow_left (by decide) k)
  have hten : ∀ k m : ℕ, k ≤ m → 10 ^ k ≤ 10 ^ m := fun _ _ hkm => Nat.pow_le_pow_right (by decide) hkm
  exact decide_eq_true ((of_decide_eq_true h).trans_le ((hle 1024 _).trans (hten 1024 4300 (by decide))))

theorem dumpable_of_polygonOk {v : Json F} {ps : List (Json F)} (h : PolygonOk py v ps) :
    dumpable (fun _ => true) v = true := by
  have hfinite : ∀ v : Json F, finite py v = true → dumpable (fun _ => true) v = true := by
    intro v hv
    cases v with
    | int n => exact hasText_of_fits hv
    | float x => rfl
    | _ => cases hv
  rw [h.1]
  refine dumpable_arr.mpr fun p hp => ?_
  have hpoint := List.all_eq_true.mp h.2.2.2 p hp
  unfold point at hpoint
  split at hpoint
  · rename_i x y
    obtain ⟨hx, hy⟩ := Bool.and_eq_true_iff.mp hpoint
    exact dumpable_arr.mpr (List.forall_mem_cons.mpr ⟨hfinite x hx, List.forall_mem_singleton.mpr (hfinite y hy)⟩)
  · cases hpoint

/-! ## What the gate takes again -/

theorem unknown_setField {f : List (String × Json F)} {allowed : List String} {k : String} (hk : k ∈ allowed)
    (h : unknown f allowed = []) (v : Json F) : unknown (setField k v f) allowed = [] := by
  unfold unknown at h ⊢
  rw [List.filter_eq_nil_iff] at h ⊢
  intro k' hk'
  rcases (Dict.mem_keys_setEntry k v f k').mp hk' with rfl | hold
  · simpa using hk
  · exact h k' hold

/-- The checks of a floor, with other rooms on it. -/
theorem checkFloor_setRooms {seen seen' : Seen} {f : List (String × Json F)}
    (h : checkFloor py seen (.obj f) = .ok seen') {rs : List (List (String × Json F))}
    (hrs : ∀ r ∈ rs, RoomOk py r) (hlen : rs.length ≤ MAX_ROOMS_PER_FLOOR) :
    checkFloor py seen (.obj (setField "rooms" (.arr (rs.map .obj)) f)) = .ok seen' := by
  obtain ⟨f', hf, hhead, -, hwalls, hfeatures, hzones⟩ := checkFloor_eq_ok.mp h
  obtain rfl := Json.obj.inj hf
  obtain ⟨hkeys, hrest⟩ := checkFloorHead_eq_ok.mp hhead
  have hget : ∀ k, k ≠ "rooms" → get (setField "rooms" (.arr (rs.map .obj)) f) k = get f k := fun k hk => by
    rw [get_setField, if_neg hk]
  have hgetD : ∀ k default, k ≠ "rooms" →
      getD (setField "rooms" (.arr (rs.map .obj)) f) k default = getD f k default := fun k default hk => by
    rw [getD_setField, if_neg hk]
  refine checkFloor_eq_ok.mpr ⟨_, rfl, ?_, ?_, ?_, ?_, ?_⟩
  · rw [checkFloorHead_eq_ok, hget "level" (by decide), hget "id" (by decide), hget "name" (by decide),
      hget "backdrop" (by decide)]
    exact ⟨unknown_setField (by decide) hkeys _, hrest⟩
  · refine checkRooms_eq_ok.mpr ⟨rs.map .obj, ?_, (List.length_map _).trans_le hlen, fun v hv => ?_⟩
    · rw [getD_setField, if_pos rfl]
    · obtain ⟨r, hr, rfl⟩ := List.mem_map.mp hv
      exact checkRoom_eq_ok.mpr ⟨r, rfl, hrs r hr⟩
  · rw [checkWalls, hgetD "walls" _ (by decide)]
    exact hwalls
  · rw [checkFeatures, hgetD "features" _ (by decide)]
    exact hfeatures
  · rw [checkZones, hgetD "zones" _ (by decide)]
    exact hzones

theorem RoomsUpserted.roomOk {name : String} {polygon : Json F} {rooms rooms' : List (Json F)}
    {rs : List (List (String × Json F))} (h : RoomsUpserted name polygon rooms rooms')
    (hrooms : rooms = rs.map .obj)
    (hrs : ∀ r ∈ rs, RoomOk py r) (hname : boundedStr (F := F) (.str name) = true)
    (hpolygon : ∃ ps, PolygonOk py polygon ps) :
    ∃ rs' : List (List (String × Json F)), rooms' = rs'.map .obj ∧ ∀ r ∈ rs', RoomOk py r := by
  have hinj : ∀ {as bs : List (List (String × Json F))}, as.map Json.obj = bs.map Json.obj → as = bs := by
    intro as bs heq
    rw [← filterMap_asDict as, heq, filterMap_asDict]
  cases h with
  | redrawn pre post r heq _ _ =>
    obtain rfl := hinj (heq.symm.trans hrooms)
    refine ⟨_, rfl, fun q hq => ?_⟩
    rcases List.mem_append.mp hq with hq | hq
    · exact hrs q (List.mem_append_left _ hq)
    · rcases List.mem_cons.mp hq with rfl | hq
      · have hr := hrs r (List.mem_append_right pre List.mem_cons_self)
        constructor
        · exact unknown_setField (by decide) hr.keys polygon
        · rw [get_setField, if_neg (by decide)]
          exact hr.id
        · rw [get_setField, if_neg (by decide)]
          exact hr.name
        · rw [get_setField, if_pos rfl]
          exact hpolygon
      · exact hrs q (List.mem_append_right pre (List.mem_cons_of_mem r hq))
  | added rs' id heq _ hid =>
    obtain rfl := hinj (heq.symm.trans hrooms)
    refine ⟨_, rfl, fun q hq => ?_⟩
    rcases List.mem_append.mp hq with hq | hq
    · exact hrs q hq
    · rw [List.mem_singleton.mp hq]
      exact ⟨rfl, decide_eq_true hid, hname, hpolygon⟩

theorem floorsOf_setField (floors : List (Json F)) (d : List (String × Json F)) :
    floorsOf (setField "floors" (.arr floors) d) = floors := by
  rw [floorsOf, get_setField, if_pos rfl]

/-- Another list of floors that the walk passes, within the caps. -/
theorem accepted_setField {d : List (String × Json F)} {floors : List (Json F)}
    (htop : checkTop py (.obj d) = .ok floors) {fs : List (List (String × Json F))} (hne : fs ≠ [])
    (hdump : ∀ f ∈ fs, dumpable (fun _ => true) (.obj f) = true) {seen : Seen}
    (hwalk : (fs.map .obj).foldlM (checkFloor py) ⟨[], []⟩ = .ok seen)
    (hcap : ¬ CapExceeded py (setField "floors" (.arr (fs.map .obj)) d)) :
    validateHouseMap py (.obj (setField "floors" (.arr (fs.map .obj)) d)) = .ok () := by
  obtain ⟨d', hd, hdumpd, -, hkeys, hversion, hunits, -, -, -⟩ := checkTop_eq_ok.mp htop
  obtain rfl := Json.obj.inj hd
  have hlist : floorList (setField "floors" (.arr (fs.map .obj)) d) = fs := by
    rw [floorList, floorsOf_setField, filterMap_asDict]
  simp only [CapExceeded, not_or, Nat.not_lt, hlist] at hcap
  have hall : dumpable (fun _ => true) (.arr (fs.map Json.obj)) = true := by
    refine dumpable_arr.mpr fun v hv => ?_
    obtain ⟨f, hf, rfl⟩ := List.mem_map.mp hv
    exact hdump f hf
  refine validateHouseMap_eq_ok.mpr ⟨fs.map .obj, seen, checkTop_eq_ok.mpr ⟨_, rfl, ?_, hcap.2.1, ?_, ?_,
    ?_, ?_, ?_, ?_⟩,
    hwalk⟩
  · exact dumpable_setField hdumpd hall
  · exact unknown_setField (by decide) hkeys _
  · rwa [get_setField, if_neg (by decide)]
  · rwa [get_setField, if_neg (by decide)]
  · rw [get_setField, if_pos rfl]
  · simpa using hne
  · rw [List.length_map]
    exact hcap.1

/-- The walk, with other rooms on one floor. -/
theorem walk_setRooms {pre post : List (List (String × Json F))} {f : List (String × Json F)} {seen seen' : Seen}
    (h : ((pre ++ f :: post).map Json.obj).foldlM (checkFloor py) seen = .ok seen')
    {rs : List (List (String × Json F))} (hrs : ∀ r ∈ rs, RoomOk py r) (hlen : rs.length ≤ MAX_ROOMS_PER_FLOOR) :
    ((pre ++ setField "rooms" (.arr (rs.map .obj)) f :: post).map Json.obj).foldlM (checkFloor py) seen =
      .ok seen' := by
  rw [List.map_append, List.foldlM_append, bind_eq_ok] at h ⊢
  obtain ⟨before, hbefore, h⟩ := h
  refine ⟨before, hbefore, ?_⟩
  rw [List.map_cons, List.foldlM_cons, bind_eq_ok] at h ⊢
  obtain ⟨after, hafter, h⟩ := h
  exact ⟨after, checkFloor_setRooms hafter hrs hlen, h⟩

/-- A new floor on a level of its own. -/
theorem checkFloor_newFloor {seen : Seen} {level : ℤ} {text : String} {taken : List String}
    (hlevel : level ∉ seen.levels) (hids : ∀ fid ∈ seen.ids, fid ∈ taken)
    (hid : (uniqueId ("f" ++ text) taken).length ≤ MAX_STR_LEN)
    (hname : boundedStr (F := F) (.str ("Nível " ++ text)) = true) :
    checkFloor py seen (.obj (newFloor level text taken)) =
      .ok ⟨level :: seen.levels, uniqueId ("f" ++ text) taken :: seen.ids⟩ := by
  refine checkFloor_eq_ok.mpr ⟨_, rfl, ?_, rfl, rfl, rfl, rfl⟩
  exact checkFloorHead_eq_ok.mpr ⟨rfl, level, _, rfl, hlevel, rfl, hid,
    fun hin => uniqueId_notMem _ _ (hids _ hin), hname, rfl, rfl⟩

theorem dumpable_newFloor {level : ℤ} (h : hasText level = true) (text : String) (taken : List String) :
    dumpable (fun _ => true) (.obj (newFloor (F := F) level text taken)) = true := by
  simp only [newFloor, dumpable, dumpableFields, dumpableItems, h, Bool.and_true]

theorem RoomsUpserted.dumpable {name : String} {polygon : Json F} {rooms rooms' : List (Json F)}
    (h : RoomsUpserted name polygon rooms rooms') (hrooms : ∀ v ∈ rooms, dumpable (fun _ => true) v = true)
    (hpolygon : HouseMap.dumpable (fun _ => true) polygon = true) :
    ∀ v ∈ rooms', HouseMap.dumpable (fun _ => true) v = true := by
  intro v hv
  cases h with
  | redrawn pre post r heq _ _ =>
    obtain ⟨q, hq, rfl⟩ := List.mem_map.mp hv
    have hold : ∀ q ∈ pre ++ r :: post, HouseMap.dumpable (fun _ => true) (.obj q) = true := fun q hq =>
      hrooms _ (heq ▸ List.mem_map_of_mem hq)
    rcases List.mem_append.mp hq with hq | hq
    · exact hold q (List.mem_append_left _ hq)
    · rcases List.mem_cons.mp hq with rfl | hq
      · exact dumpable_setField (hold r (List.mem_append_right pre List.mem_cons_self)) hpolygon
      · exact hold q (List.mem_append_right pre (List.mem_cons_of_mem r hq))
  | added rs id heq _ _ =>
    obtain ⟨q, hq, rfl⟩ := List.mem_map.mp hv
    rcases List.mem_append.mp hq with hq | hq
    · exact hrooms _ (heq ▸ List.mem_map_of_mem hq)
    · rw [List.mem_singleton.mp hq]
      simp only [HouseMap.dumpable, dumpableFields, hpolygon, Bool.and_true]

/-! ## The upsert -/

theorem listed_of_floorOk {f : List (String × Json F)} (h : FloorOk py f) : Listed f := by
  refine ⟨h.rooms, h.few_rooms, fun r hr => ?_⟩
  have hid := (h.rooms_ok r hr).id
  cases hget : get r "id" with
  | str s => exact ⟨s, rfl⟩
  | _ =>
    rw [hget] at hid
    cases hid

theorem roomsOf_of_floorOk {f : List (String × Json F)} (h : FloorOk py f) :
    roomsOf f = (roomList f).map .obj := by
  rw [roomsOf, h.rooms]

/-- The floor that is written first, with the list of its own rooms. -/
theorem Listed.setRooms {f : List (String × Json F)} (h : Listed f) :
    Listed (setField "rooms" (.arr (roomsOf f)) f) := by
  have hlist : roomList (setField "rooms" (.arr (roomsOf f)) f) = roomList f := by
    rw [roomList, roomsOf_setField, roomList]
  have hrooms : roomsOf f = (roomList f).map .obj := by
    rw [roomsOf, h.rooms]
  refine ⟨?_, hlist ▸ h.few, hlist ▸ h.ids⟩
  rw [hlist, getD_setField, if_pos rfl, hrooms]

/-- Once the room is there, the upsert changes nothing. -/
theorem upsertRoom_again {d f : List (String × Json F)} {pre post : List (List (String × Json F))} {level : ℤ}
    {name : String} {polygon : Json F} {rooms rooms' : List (Json F)}
    (hpre : ∀ g ∈ pre, atLevel py level g = false)
    (hf : atLevel py level f = true) (hrooms : RoomsUpserted name polygon rooms rooms') :
    let d' := setField "floors" (.arr ((pre ++ setField "rooms" (.arr rooms') f :: post).map .obj)) d
    upsertRoom py (.obj d') level name polygon = .ok (.obj d') := by
  intro d'
  have hf' : atLevel py level (setField "rooms" (.arr rooms') f) = true := by rwa [atLevel_setField (by decide)]
  have hany : (pre ++ setField "rooms" (.arr rooms') f :: post).any (atLevel py level) = true :=
    List.any_eq_true.mpr ⟨_, List.mem_append_right pre List.mem_cons_self, hf'⟩
  have hfloors : floorsWith py (floorsOf d') level =
      .ok ((pre ++ setField "rooms" (.arr rooms') f :: post).map .obj) := by
    rw [floorsOf_setField, floorsWith, filterMap_asDict, if_pos hany]
  have hsame : roomsOf (setField "rooms" (.arr rooms') f) = rooms' := roomsOf_setField rooms' f
  have hrooms' : roomsWith ((pre ++ setField "rooms" (.arr (roomsOf (setField "rooms" (.arr rooms') f)))
      (setField "rooms" (.arr rooms') f) :: post).map .obj) (roomsOf (setField "rooms" (.arr rooms') f)) name polygon =
        .ok rooms' := by
    rw [hsame]
    exact hrooms.again _
  rw [upsertRoom_eq hfloors hpre hf' hrooms', setField_setField, setField_setField]

variable {d : List (String × Json F)} {seen : Seen}

/-- What the gate has seen of a document. -/
structure Gated (py : Python F) (d : List (String × Json F)) (seen : Seen) : Prop where
  top : checkTop py (.obj d) = .ok ((floorList d).map .obj)
  walk : ((floorList d).map Json.obj).foldlM (checkFloor py) ⟨[], []⟩ = .ok seen
  walked : Walked py ⟨[], []⟩ (floorList d) seen

theorem exists_gated (h : validateHouseMap py (.obj d) = .ok ()) : ∃ seen, Gated py d seen := by
  obtain ⟨floors, seen, htop, hfold⟩ := validateHouseMap_eq_ok.mp h
  obtain ⟨d', hd, -, -, -, -, -, hfloors, -⟩ := checkTop_eq_ok.mp htop
  obtain rfl := Json.obj.inj hd
  obtain ⟨heq, hwalked⟩ := walked_of_foldlM hfold
  have hlist : floorList d = floors.filterMap asDict := by simp only [floorList, floorsOf, hfloors]
  rw [← hlist] at heq hwalked
  rw [heq] at htop hfold
  exact ⟨seen, htop, hfold, hwalked⟩

theorem Gated.accepted (h : Gated py d seen) : Accepted py d := by
  obtain ⟨d', hd, -, -, -, -, -, hfloors, -⟩ := checkTop_eq_ok.mp h.top
  obtain rfl := Json.obj.inj hd
  exact ⟨hfloors, h.walked.floors⟩

theorem Gated.floorsOf (h : Gated py d seen) : floorsOf d = (floorList d).map .obj := by
  rw [HouseMap.floorsOf, h.accepted.floors]

theorem Gated.few (h : Gated py d seen) : (floorList d).length ≤ MAX_FLOORS := by
  obtain ⟨d', -, -, -, -, -, -, -, -, hlen⟩ := checkTop_eq_ok.mp h.top
  rwa [List.length_map] at hlen

theorem Gated.dumpable (h : Gated py d seen) {f : List (String × Json F)} (hf : f ∈ floorList d) :
    dumpable (fun _ => true) (.obj f) = true := by
  obtain ⟨d', hd, hdump, -, -, -, -, hfloors, -⟩ := checkTop_eq_ok.mp h.top
  obtain rfl := Json.obj.inj hd
  have hall : HouseMap.dumpable (fun _ => true) (get d "floors") = true := dumpable_getD hdump "floors" rfl
  rw [hfloors] at hall
  exact dumpable_arr.mp hall _ (List.mem_map_of_mem hf)

/-- The rooms of a floor that can be written can be written. -/
theorem dumpable_roomsOf {f : List (String × Json F)} (h : dumpable (fun _ => true) (.obj f) = true)
    (hf : FloorOk py f) : ∀ v ∈ roomsOf f, dumpable (fun _ => true) v = true := by
  have hall := dumpable_getD h "rooms" (v := .arr []) rfl
  rw [hf.rooms, ← roomsOf_of_floorOk hf] at hall
  exact dumpable_arr.mp hall

/-- On a level that is there. -/
theorem Gated.upsert_floor (h : Gated py d seen) {pre post : List (List (String × Json F))}
    {f : List (String × Json F)} (hfloors : floorList d = pre ++ f :: post) {level : ℤ}
    (hpre : ∀ g ∈ pre, atLevel py level g = false) (hf : atLevel py level f = true) (name : String)
    (polygon : Json F) : CallLaw py d (.upsertRoom level name polygon) := by
  have hmem : ∀ g ∈ pre ++ f :: post, FloorOk py g := hfloors ▸ h.walked.floors
  have hfok := hmem f (List.mem_append_right pre List.mem_cons_self)
  have hany : (pre ++ f :: post).any (atLevel py level) = true :=
    List.any_eq_true.mpr ⟨f, List.mem_append_right pre List.mem_cons_self, hf⟩
  have hwith : floorsWith py (HouseMap.floorsOf d) level = .ok ((pre ++ f :: post).map .obj) := by
    rw [h.floorsOf, hfloors, floorsWith, filterMap_asDict, if_pos hany]
  have hlisted : ∀ g ∈ pre ++ setField "rooms" (.arr (roomsOf f)) f :: post, Listed g := by
    intro g hg
    rcases List.mem_append.mp hg with hg | hg
    · exact listed_of_floorOk (hmem g (List.mem_append_left _ hg))
    · rcases List.mem_cons.mp hg with rfl | hg
      · exact (listed_of_floorOk hfok).setRooms
      · exact listed_of_floorOk (hmem g (List.mem_append_right pre (List.mem_cons_of_mem f hg)))
  have hfew : (pre ++ setField "rooms" (.arr (roomsOf f)) f :: post).length ≤ MAX_FLOORS + 1 := by
    have hlen := h.few
    simp only [hfloors, List.length_append, List.length_cons] at hlen ⊢
    omega
  obtain ⟨rooms, hrooms, hups⟩ := exists_roomsWith hlisted hfew (roomList f) name polygon
  rw [← roomsOf_of_floorOk hfok] at hrooms hups
  refine ⟨_, upsertRoom_eq hwith hpre hf hrooms, .room pre post f rooms hfloors ((atLevel_iff hfok).mp hf) hups,
    upsertRoom_again hpre hf hups, fun hname hpolygon => ?_⟩
  -- too many rooms is a cap as well; all else the floor has from before
  by_cases hcap : CapExceeded py
      (setField "floors" (.arr ((pre ++ setField "rooms" (.arr rooms) f :: post).map .obj)) d)
  · exact .inr hcap
  · obtain ⟨rs, rfl, hrs⟩ := hups.roomOk (roomsOf_of_floorOk hfok) hfok.rooms_ok hname hpolygon
    have hlen : rs.length ≤ MAX_ROOMS_PER_FLOOR := by
      by_contra hlong
      refine hcap (.inr (.inr ⟨setField "rooms" (.arr (rs.map .obj)) f, ?_, .inl ?_⟩))
      · rw [floorList, floorsOf_setField, filterMap_asDict]
        exact List.mem_append_right pre List.mem_cons_self
      · rw [roomList, roomsOf_setField, filterMap_asDict]
        omega
    obtain ⟨ps, hps⟩ := hpolygon
    have hdump : ∀ g ∈ pre ++ setField "rooms" (.arr (rs.map .obj)) f :: post,
        HouseMap.dumpable (fun _ => true) (.obj g) = true := by
      have hold : ∀ g ∈ pre ++ f :: post, HouseMap.dumpable (fun _ => true) (.obj g) = true :=
        fun g hg => h.dumpable (hfloors ▸ hg)
      intro g hg
      rcases List.mem_append.mp hg with hg | hg
      · exact hold g (List.mem_append_left _ hg)
      · rcases List.mem_cons.mp hg with rfl | hg
        · have hfd := hold f (List.mem_append_right pre List.mem_cons_self)
          exact dumpable_setField hfd (dumpable_arr.mpr
            (hups.dumpable (dumpable_roomsOf hfd hfok) (dumpable_of_polygonOk hps)))
        · exact hold g (List.mem_append_right pre (List.mem_cons_of_mem f hg))
    have hne : pre ++ setField "rooms" (.arr (rs.map .obj)) f :: post ≠ [] := by simp
    exact .inl (accepted_setField h.top hne hdump (walk_setRooms (hfloors ▸ h.walk) hrs hlen) hcap)

/-- On a level that is new. -/
theorem Gated.upsert_level (h : Gated py d seen) {level : ℤ}
    (hnone : ∀ g ∈ floorList d, atLevel py level g = false)
    (htext : hasText level = true) (name : String) (polygon : Json F) :
    CallLaw py d (.upsertRoom level name polygon) := by
  obtain ⟨taken, htaken, -, hmem⟩ := exists_idsOf fun g hg => (h.walked.floors g hg).id
  let new : List (String × Json F) := newFloor level (toString level) taken
  have hnew : atLevel py level new = true := decide_eq_true rfl
  have hany : ¬ (floorList d).any (atLevel py level) = true := by simpa using hnone
  have hwith : floorsWith py (HouseMap.floorsOf d) level = .ok ((floorList d ++ [new]).map .obj) := by
    rw [h.floorsOf, floorsWith, filterMap_asDict, if_neg hany, htaken, ok_bind, str, if_pos htext, ok_bind,
      List.map_append]
    rfl
  have hlisted : ∀ g ∈ floorList d ++ [setField "rooms" (.arr (roomsOf new)) new], Listed g := by
    intro g hg
    rcases List.mem_append.mp hg with hg | hg
    · exact listed_of_floorOk (h.walked.floors g hg)
    · have hempty : Listed new := ⟨rfl, Nat.zero_le _, fun _ hr => (by cases hr)⟩
      exact List.mem_singleton.mp hg ▸ hempty.setRooms
  have hfew : (floorList d ++ [setField "rooms" (.arr (roomsOf new)) new]).length ≤ MAX_FLOORS + 1 := by
    rw [List.length_append]
    exact Nat.succ_le_succ h.few
  obtain ⟨rooms, hrooms, hups⟩ := exists_roomsWith hlisted hfew [] name polygon
  have honly : ∃ id, rooms = [.obj [("id", .str id), ("name", .str name), ("polygon", polygon)]] := by
    cases hups with
    | redrawn pre post r heq _ _ => simp at heq
    | added rs id heq _ _ =>
      obtain rfl := List.map_eq_nil_iff.mp heq.symm
      exact ⟨id, rfl⟩
  obtain ⟨id, hid⟩ := honly
  have hnot : ∀ g ∈ floorList d, get g "level" ≠ .int level := fun g hg heq => by
    cases (hnone g hg).symm.trans ((atLevel_iff (h.walked.floors g hg)).mpr heq)
  refine ⟨_, upsertRoom_eq hwith hnone hnew hrooms, .floor (setField "rooms" (.arr rooms) new) id hnot rfl ?_,
    upsertRoom_again hnone hnew hups, fun hname hpolygon => ?_⟩
  · rw [get_setField, if_pos rfl, hid]
  -- the caps are the only checks an upsert can run into: the rest of the gate is passed again
  by_cases hcap : CapExceeded py
      (setField "floors" (.arr ((floorList d ++ [setField "rooms" (.arr rooms) new]).map .obj)) d)
  · exact .inr hcap
  · obtain ⟨rs, rfl, hrs⟩ := hups.roomOk List.map_nil.symm (fun _ hr => (by cases hr)) hname hpolygon
    have hlen : rs.length ≤ MAX_ROOMS_PER_FLOOR := by
      have hone := congrArg List.length hid
      rw [List.length_map] at hone
      exact hone.trans_le (show 1 ≤ MAX_ROOMS_PER_FLOOR by decide)
    -- a level with many digits makes an id too long, and that is one of the caps
    have hbounded : boundedStr (get new "id") = true ∧ boundedStr (get new "name") = true := by
      by_contra hlong
      refine hcap (.inr (.inr ⟨setField "rooms" (.arr (rs.map .obj)) new, ?_, .inr ?_⟩))
      · rw [floorList, floorsOf_setField, filterMap_asDict]
        exact List.mem_append_right _ List.mem_cons_self
      · rw [get_setField, get_setField, if_neg (by decide), if_neg (by decide)]
        rw [← Bool.not_eq_true, ← Bool.not_eq_true]
        exact not_and_or.mp hlong
    have hfresh : level ∉ seen.levels := by
      rw [h.walked.levels]
      rintro (hin | ⟨g, hg, heq⟩)
      · cases hin
      · exact hnot g hg heq
    have hids : ∀ fid ∈ seen.ids, fid ∈ taken := by
      intro fid hin
      rcases (h.walked.ids fid).mp hin with hin | ⟨g, hg, heq⟩
      · cases hin
      · exact hmem g hg fid heq
    have hwalk : ((floorList d ++ [new]).map Json.obj).foldlM (checkFloor py) ⟨[], []⟩ =
        .ok ⟨level :: seen.levels, uniqueId ("f" ++ toString level) taken :: seen.ids⟩ := by
      rw [List.map_append, List.foldlM_append, h.walk, ok_bind, List.map_singleton, List.foldlM_cons,
        checkFloor_newFloor hfresh hids (of_decide_eq_true hbounded.1) hbounded.2]
      rfl
    obtain ⟨ps, hps⟩ := hpolygon
    have hdump : ∀ g ∈ floorList d ++ [setField "rooms" (.arr (rs.map .obj)) new],
        HouseMap.dumpable (fun _ => true) (.obj g) = true := by
      intro g hg
      rcases List.mem_append.mp hg with hg | hg
      · exact h.dumpable hg
      · rw [List.mem_singleton.mp hg]
        exact dumpable_setField (dumpable_newFloor htext _ taken) (dumpable_arr.mpr
          (hups.dumpable (fun _ hv => (by cases hv)) (dumpable_of_polygonOk hps)))
    have hne : floorList d ++ [setField "rooms" (.arr (rs.map .obj)) new] ≠ [] := by simp
    exact .inl (accepted_setField h.top hne hdump (walk_setRooms hwalk hrs hlen) hcap)

theorem Gated.upsert_iff (h : Gated py d seen) (level : ℤ) (name : String) (polygon : Json F) :
    CallLaw py d (.upsertRoom level name polygon) ↔ CallSafe py d (.upsertRoom level name polygon) := by
  rcases exists_first_or (p := atLevel py level) (floorList d) with hnone | ⟨pre, f, post, heq, hpre, hf⟩
  · have hfind : (floorList d).find? (atLevel py level) = none :=
      List.find?_eq_none.mpr fun g hg => by simp [hnone g hg]
    refine ⟨fun ⟨d', hups, _⟩ _ => ?_, fun hsafe => h.upsert_level hnone (hsafe hfind) name polygon⟩
    by_contra htext
    obtain ⟨taken, htaken, -⟩ := exists_idsOf fun g hg => (h.walked.floors g hg).id
    have hany : ¬ (floorList d).any (atLevel py level) = true := by simpa using hnone
    rw [upsertRoom, fieldsOf, ok_bind, h.floorsOf, floorsWith, filterMap_asDict, if_neg hany, htaken, ok_bind, str,
      if_neg htext] at hups
    cases hups
  · have hfind : (floorList d).find? (atLevel py level) = some f := by
      rw [heq]
      exact find?_append_cons hpre hf
    refine iff_of_true (h.upsert_floor heq hpre hf name polygon) fun hnone => ?_
    cases hfind.symm.trans hnone

/-- The gate keeps its word exactly where the walk finds hashes and the use stays in range. -/
theorem gate_lawful_iff (py : Python F) (doc : Json F) (call : Call F) : GateLaw py doc call ↔
    WalkHashable py doc ∧ ∀ d, doc = .obj d → validateHouseMap py doc = .ok () → CallSafe py d call := by
  unfold GateLaw
  rw [clean_validateHouseMap]
  refine and_congr_right fun _ => forall_congr' fun d => forall_congr' fun hdoc => forall_congr' fun h => ?_
  subst hdoc
  obtain ⟨seen, hgated⟩ := exists_gated h
  have haccepted := hgated.accepted
  cases call with
  | roomNames => exact iff_of_true haccepted.roomNames_returns trivial
  | roomAt level x y => exact haccepted.roomAt_returns_iff
  | roomPolygon name level => exact iff_of_true (haccepted.roomPolygon_returns name level) trivial
  | inRestZone room x y => exact haccepted.inRestZone_returns_iff
  | upsertRoom level name polygon => exact hgated.upsert_iff level name polygon

end

/-! ## A feature of no type -/

/-- A feature whose type is a list. -/
def listedType : Json ℚ :=
  .obj [("version", .int 2), ("units", .str "m"), ("floors", .arr [.obj [("id", .str "f0"),
    ("name", .str "Ground floor"), ("level", .int 0), ("features", .arr [.obj [("type", .arr [])]])]])]

theorem listedType_not_lawful :
    validateHouseMap (exact 118) listedType = .error (.raised .typeError) ∧
      ¬ GateLaw (exact 118) listedType .roomNames := by
  have hraised : validateHouseMap (exact 118) listedType = .error (.raised .typeError) := by decide +kernel
  refine ⟨hraised, fun h => ?_⟩
  obtain ⟨text, ⟨⟩⟩ := h.1 _ hraised

end Wavr.HouseMap
