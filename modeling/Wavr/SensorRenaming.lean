import Wavr.SpatialEvents

/-!
# What the names of sensors leave in the events

Sensors are renamed throughout a run, their order and their provenance kept: the events stay what
they were, text for text.
-/

namespace Wavr.SpatialEvents
open Text Fusion
open Experience (sensorSource)

variable {R : Type}

/-- A renaming of the sensors in `S`. -/
structure Renaming (S : Set String) where
  rename : String → String
  mono : ∀ a ∈ S, ∀ b ∈ S, a < b → rename a < rename b
  truthy : ∀ a, Text.truthy (rename a) = Text.truthy a
  source : ∀ a ∈ S, sensorSource (rename a) = sensorSource a

variable {S : Set String} (ρ : Renaming S)

def renameSource (source : Source R) : Source R := { source with sensorId := ρ.rename source.sensorId }

def renameState (state : RoomState R) : RoomState R :=
  { state with sources := state.sources.map (renameSource ρ) }

def renameInput : Input R → Input R
  | .observe wallIso state => .observe wallIso (renameState ρ state)
  | .forget room => .forget room

/-- All sensors of a state are among those that are renamed. -/
def Within (S : Set String) (state : RoomState R) : Prop := ∀ s ∈ state.sources, s.sensorId ∈ S

def InputWithin (S : Set String) : Input R → Prop
  | .observe _ state => Within S state
  | .forget _ => True

theorem Renaming.inj {a b : String} (ha : a ∈ S) (hb : b ∈ S) (h : ρ.rename a = ρ.rename b) : a = b := by
  rcases lt_trichotomy a b with hlt | heq | hlt
  · exact absurd h (ρ.mono a ha b hb hlt).ne
  · exact heq
  · exact absurd h.symm (ρ.mono b hb a ha hlt).ne

/-! ## The sensors of a state -/

section
variable {ρ} {state : RoomState R}

/-- A table of sensors and the same table with the names renamed. -/
structure RenamedTable (ρ : Renaming S) (d d' : Dict String (Source R)) : Prop where
  within : ∀ sid ∈ d.keys, sid ∈ S
  entries : d'.entries = d.entries.map fun e => (ρ.rename e.1, renameSource ρ e.2)

theorem setEntry_rename {sid : String} (hsid : sid ∈ S) (source : Source R) {es : List (String × Source R)}
    (hes : ∀ e ∈ es, e.1 ∈ S) :
    Dict.setEntry (ρ.rename sid) (renameSource ρ source) (es.map fun e => (ρ.rename e.1, renameSource ρ e.2)) =
      (Dict.setEntry sid source es).map fun e => (ρ.rename e.1, renameSource ρ e.2) := by
  induction es with
  | nil => rfl
  | cons e es ih =>
    have hiff : ρ.rename e.1 = ρ.rename sid ↔ e.1 = sid :=
      ⟨ρ.inj (hes e List.mem_cons_self) hsid, congrArg ρ.rename⟩
    simp only [List.map_cons, Dict.setEntry, hiff]
    split
    · rfl
    · rw [ih fun e' he' => hes e' (List.mem_cons_of_mem e he'), List.map_cons]

theorem RenamedTable.set {d d' : Dict String (Source R)} (h : RenamedTable ρ d d') {sid : String} (hsid : sid ∈ S)
    (source : Source R) : RenamedTable ρ (d.set sid source) (d'.set (ρ.rename sid) (renameSource ρ source)) where
  within k hk := by
    rcases (Dict.mem_keys_setEntry sid source d.entries k).mp hk with rfl | hk
    · exact hsid
    · exact h.within k hk
  entries := by
    show Dict.setEntry _ _ d'.entries = (Dict.setEntry sid source d.entries).map _
    rw [h.entries]
    exact setEntry_rename hsid source fun e he => h.within e.1 (List.mem_map_of_mem he)

theorem renamedTable_fresh (h : Within S state) :
    RenamedTable ρ (freshSensors state) (freshSensors (renameState ρ state)) := by
  have hfold (sources : List (Source R)) (hs : ∀ s ∈ sources, s.sensorId ∈ S) (d d' : Dict String (Source R))
      (hd : RenamedTable ρ d d') : RenamedTable ρ
      (sources.foldl (fun out s => if truthy s.sensorId ∧ s.health = "fresh" then out.set s.sensorId s else out) d)
      ((sources.map (renameSource ρ)).foldl
        (fun out s => if truthy s.sensorId ∧ s.health = "fresh" then out.set s.sensorId s else out) d') := by
    induction sources generalizing d d' with
    | nil => exact hd
    | cons s sources ih =>
      refine ih (fun s' hs' => hs s' (List.mem_cons_of_mem s hs')) _ _ ?_
      have hcond : (truthy (renameSource ρ s).sensorId ∧ (renameSource ρ s).health = "fresh") ↔
          (truthy s.sensorId ∧ s.health = "fresh") := by rw [renameSource, ρ.truthy]
      simp only [hcond]
      split
      · exact hd.set (hs s List.mem_cons_self) s
      · exact hd
  exact hfold state.sources h _ _ ⟨fun _ hk => (by cases hk), rfl⟩

theorem RenamedTable.get? {d d' : Dict String (Source R)} (h : RenamedTable ρ d d') {sid : String} (hsid : sid ∈ S) :
    d'.get? (ρ.rename sid) = (d.get? sid).map (renameSource ρ) := by
  unfold Dict.get?
  rw [h.entries]
  have hwithin : ∀ e ∈ d.entries, e.1 ∈ S := fun e he => h.within e.1 (List.mem_map_of_mem he)
  generalize d.entries = es at hwithin
  induction es with
  | nil => rfl
  | cons e es ih =>
    have hiff : ρ.rename e.1 = ρ.rename sid ↔ e.1 = sid :=
      ⟨ρ.inj (hwithin e List.mem_cons_self) hsid, congrArg ρ.rename⟩
    by_cases he : e.1 = sid
    · simp [he]
    · simp only [List.map_cons, List.find?_cons, hiff, he, decide_false]
      exact ih fun e' he' => hwithin e' (List.mem_cons_of_mem e he')

theorem ids_rename (h : Within S state) : ids (renameState ρ state) = (ids state).image ρ.rename := by
  unfold ids Dict.keys
  rw [(renamedTable_fresh h).entries]
  ext k
  simp

theorem disagreeing_rename (h : Within S state) : disagreeing (renameState ρ state) = disagreeing state := by
  unfold disagreeing Dict.values
  rw [(renamedTable_fresh h).entries]
  simp only [List.map_map, List.any_map]
  rfl

/-- The names keep their order. -/
theorem sortedSet_image {sids : Finset String} (h : ∀ sid ∈ sids, sid ∈ S) :
    sortedSet (sids.image ρ.rename) = (sortedSet sids).map ρ.rename := by
  have hinj : Set.InjOn ρ.rename sids := fun a ha b hb heq => ρ.inj (h a ha) (h b hb) heq
  have hsort : (sids.image ρ.rename) = ((sortedSet sids).map ρ.rename).toFinset := (toFinset_told sids).symm
  rw [hsort]
  refine (List.toFinset_sort (· ≤ ·) (nodup_told hinj)).mpr (List.pairwise_map.mpr ?_)
  refine (Finset.sortedLT_sort sids).pairwise.imp_of_mem fun ha hb hlt => ?_
  exact (ρ.mono _ (h _ (mem_sortedSet.mp ha)) _ (h _ (mem_sortedSet.mp hb)) hlt).le

theorem ids_within (ρ : Renaming S) (h : Within S state) {sid : String} (hsid : sid ∈ ids state) : sid ∈ S :=
  have hfresh : RenamedTable ρ _ _ := renamedTable_fresh h
  hfresh.within sid (List.mem_toFinset.mp hsid)

theorem image_sdiff {f : String → String} {A B : Finset String} (hf : Set.InjOn f (A ∪ B : Finset String)) :
    A.image f \ B.image f = (A \ B).image f := by
  ext k
  simp only [Finset.mem_sdiff, Finset.mem_image, not_exists, not_and]
  constructor
  · rintro ⟨⟨a, ha, rfl⟩, hb⟩
    exact ⟨a, ⟨ha, fun hmem => hb a hmem rfl⟩, rfl⟩
  · rintro ⟨a, ⟨ha, hb⟩, rfl⟩
    exact ⟨⟨a, ha, rfl⟩, fun b hb' heq => hb (hf (by simp [hb']) (by simp [ha]) heq ▸ hb')⟩

/-- A listing of sensors, renamed. -/
theorem items_rename (h : Within S state) {sids : Finset String} (hs : ∀ sid ∈ sids, sid ∈ S) :
    items (freshSensors (renameState ρ state)) (sids.image ρ.rename) =
      (items (freshSensors state) sids).map fun e => (ρ.rename e.1, renameSource ρ e.2) := by
  unfold items
  rw [sortedSet_image hs, List.filterMap_map, List.map_filterMap]
  refine List.filterMap_congr fun sid hsid => ?_
  rw [Function.comp_apply, (renamedTable_fresh h).get? (hs sid (mem_sortedSet.mp hsid))]
  cases (freshSensors state).get? sid <;> rfl

end

/-! ## Two streams -/

section
variable {ρ} {names names' : SensorNames}

/-- The same names for the renamed sensors. -/
structure RenamedNames (ρ : Renaming S) (names names' : SensorNames) : Prop where
  labels : ∀ room, ∀ sid ∈ S, labelOf names' room (ρ.rename sid) = labelOf names room sid
  counts : countOf names' = countOf names

theorem describe_rename (room : String) (h : RenamedNames ρ names names') {sid : String} (hsid : sid ∈ S) (source : Source R) :
    (describe room (ρ.rename sid) (renameSource ρ source) names').1 = (describe room sid source names).1 ∧
      RenamedNames ρ (describe room sid source names).2
        (describe room (ρ.rename sid) (renameSource ρ source) names').2 := by
  have hmodality : modalityOf (renameSource ρ source) = modalityOf source := rfl
  have hdescribed (label : String) : described label (ρ.rename sid) (renameSource ρ source) =
      described label sid source := by
    rw [described, described, hmodality, ρ.source sid hsid]
  cases hl : labelOf names room sid with
  | some label =>
    have hl' : labelOf names' room (ρ.rename sid) = some label := (h.labels room sid hsid).trans hl
    rw [describe_of_named hl, describe_of_named hl']
    refine ⟨hdescribed label, fun room' sid' hsid' => ?_, ?_⟩
    · rw [labelOf_setDefault, labelOf_setDefault]
      exact h.labels room' sid' hsid'
    · exact h.counts
  | none =>
    have hl' : labelOf names' room (ρ.rename sid) = none := (h.labels room sid hsid).trans hl
    obtain ⟨after, hafter, hlabels, hcounts⟩ := describe_of_unnamed hl source
    obtain ⟨after', hafter', hlabels', hcounts'⟩ := describe_of_unnamed hl' (renameSource ρ source)
    rw [hafter, hafter', hmodality, h.counts, hdescribed]
    refine ⟨rfl, fun room' sid' hsid' => ?_, ?_⟩
    · have hiff : ρ.rename sid' = ρ.rename sid ↔ sid' = sid := ⟨ρ.inj hsid' hsid, congrArg ρ.rename⟩
      rw [hlabels, hlabels', hmodality, h.counts, h.labels room' sid' hsid']
      simp only [hiff]
    · funext room' m
      rw [hcounts, hcounts', hmodality, h.counts]

theorem describeAll_rename (room : String) (h : RenamedNames ρ names names') {l : List (String × Source R)}
    (hl : ∀ e ∈ l, e.1 ∈ S) :
    (describeAll room (l.map fun e => (ρ.rename e.1, renameSource ρ e.2)) names').1 =
        (describeAll room l names).1 ∧
      RenamedNames ρ (describeAll room l names).2
        (describeAll room (l.map fun e => (ρ.rename e.1, renameSource ρ e.2)) names').2 := by
  induction l generalizing names names' with
  | nil => exact ⟨rfl, h⟩
  | cons e l ih =>
    obtain ⟨hfirst, hnames⟩ := describe_rename room h (hl e List.mem_cons_self) e.2
    obtain ⟨hothers, hrest⟩ := ih hnames fun e' he' => hl e' (List.mem_cons_of_mem e he')
    refine ⟨?_, hrest⟩
    rw [List.map_cons, describeAll, describeAll]
    dsimp only
    rw [hfirst, hothers]

theorem told_rename (room : String) (h : RenamedNames ρ names names') {state : RoomState R} (hw : Within S state)
    (sids : Finset String) (hs : sids ⊆ ids state) :
    let l := items (freshSensors state) sids
    let l' := items (freshSensors (renameState ρ state)) (sids.image ρ.rename)
    (describeAll room l' names').1 = (describeAll room l names).1 ∧
      RenamedNames ρ (describeAll room l names).2 (describeAll room l' names').2 := by
  have hwithin : ∀ sid ∈ sids, sid ∈ S := fun sid hsid => ids_within ρ hw (hs hsid)
  dsimp only
  rw [items_rename hw hwithin]
  exact describeAll_rename room h fun e he => hwithin e.1 (mem_ids_of_mem_items hs he)

theorem changes_rename (h : RenamedNames ρ names names') {prev state : RoomState R} (hp : Within S prev)
    (hs : Within S state) :
    (changes (renameState ρ prev) (renameState ρ state) names').1 = (changes prev state names).1 ∧
      RenamedNames ρ (changes prev state names).2
        (changes (renameState ρ prev) (renameState ρ state) names').2 := by
  have hinj : Set.InjOn ρ.rename (ids prev ∪ ids state : Finset String) := fun a ha b hb heq =>
    ρ.inj ((Finset.mem_union.mp ha).elim (ids_within ρ hp) (ids_within ρ hs))
      ((Finset.mem_union.mp hb).elim (ids_within ρ hp) (ids_within ρ hs)) heq
  have hgone : ids (renameState ρ prev) \ ids (renameState ρ state) = (ids prev \ ids state).image ρ.rename := by
    rw [ids_rename hp, ids_rename hs, image_sdiff hinj]
  have hcame : ids (renameState ρ state) \ ids (renameState ρ prev) = (ids state \ ids prev).image ρ.rename := by
    rw [ids_rename hp, ids_rename hs, image_sdiff (by rwa [Finset.union_comm])]
  have hroom : (renameState ρ state).room = state.room := rfl
  have hspoken : (items (freshSensors (renameState ρ state)) ((ids state).image ρ.rename)).map
      (fun e => spoken e.2) = (items (freshSensors state) (ids state)).map fun e => spoken e.2 := by
    rw [items_rename hs fun sid => ids_within ρ hs, List.map_map]
    rfl
  unfold changes
  dsimp only
  rw [hgone, hcame, hroom, ids_rename hs, hspoken, disagreeing_rename hp, disagreeing_rename hs]
  obtain ⟨hoff, hoffNames⟩ := told_rename state.room h hp (ids prev \ ids state) Finset.sdiff_subset
  obtain ⟨hon, honNames⟩ := told_rename state.room hoffNames hs (ids state \ ids prev) Finset.sdiff_subset
  obtain ⟨hsaid, hsaidNames⟩ := told_rename state.room honNames hs (ids state) subset_rfl
  refine ⟨?_, ?_⟩
  · rw [hoff, hon, hsaid]
    rfl
  · split
    · exact honNames
    · exact hsaidNames

variable {s s' : Stream R}

structure RenamedStream (ρ : Renaming S) (s s' : Stream R) : Prop where
  names : RenamedNames ρ s.sensors s'.sensors
  prev : ∀ room, s'.prev.get? room = (s.prev.get? room).map (renameState ρ)
  within : ∀ room state, s.prev.get? room = some state → Within S state

theorem RenamedStream.put (h : RenamedStream ρ s s') {state : RoomState R} (hw : Within S state)
    (hnames : RenamedNames ρ names names') :
    RenamedStream ρ ⟨s.prev.set state.room state, names⟩ ⟨s'.prev.set state.room (renameState ρ state), names'⟩ where
  names := hnames
  prev room := by
    by_cases hr : room = state.room
    · subst hr
      simp
    · simp only [Dict.get?_set_ne _ hr, h.prev]
  within room state' hstate := by
    by_cases hr : room = state.room
    · subst hr
      obtain rfl : state = state' := by simpa using hstate
      exact hw
    · rw [Dict.get?_set_ne _ hr] at hstate
      exact h.within room state' hstate

theorem step_rename (h : RenamedStream ρ s s') {i : Input R} (hi : InputWithin S i) :
    out s' (renameInput ρ i) = out s i ∧ RenamedStream ρ (step s i) (step s' (renameInput ρ i)) := by
  cases i with
  | forget room =>
    refine ⟨rfl, ⟨fun room' sid hsid => ?_, ?_⟩, fun room' => ?_, fun room' state hstate => ?_⟩
    · have hlabel := h.names.labels room' sid hsid
      by_cases hr : room' = room
      · simp [labelOf, step, renameInput, forget, SensorNames.forget, hr]
      · simpa [labelOf, step, renameInput, forget, SensorNames.forget, Dict.get?_erase, hr] using hlabel
    · funext room' m
      have hcount := congrFun (congrFun h.names.counts room') m
      by_cases hr : room' = room
      · simp [countOf, step, renameInput, forget, SensorNames.forget, hr]
      · simpa [countOf, step, renameInput, forget, SensorNames.forget, Dict.get?_erase, hr] using hcount
    · by_cases hr : room' = room
      · simp [step, renameInput, forget, Dict.get?_erase, hr]
      · simpa [step, renameInput, forget, Dict.get?_erase, hr] using h.prev room'
    · by_cases hr : room' = room
      · simp [step, forget, Dict.get?_erase, hr] at hstate
      · exact h.within room' state (by simpa [step, forget, Dict.get?_erase, hr] using hstate)
  | observe wallIso state =>
    have hroom : (renameState ρ state).room = state.room := rfl
    obtain ⟨-, hnamed⟩ := told_rename state.room h.names hi (ids state) subset_rfl
    show (observe wallIso (renameState ρ state) s').1 = (observe wallIso state s).1 ∧
      RenamedStream ρ (observe wallIso state s).2 (observe wallIso (renameState ρ state) s').2
    unfold observe
    dsimp only
    rw [hroom, ids_rename hi, h.prev]
    by_cases ht : truthy state.room = true
    · rw [if_neg (not_not.mpr ht), if_neg (not_not.mpr ht)]
      cases hprev : s.prev.get? state.room with
      | none => exact ⟨rfl, h.put hi hnamed⟩
      | some prev =>
        obtain ⟨hsame, hchanged⟩ := changes_rename hnamed (h.within state.room prev hprev) hi
        dsimp only [Option.map_some]
        rw [hsame]
        exact ⟨rfl, h.put hi hchanged⟩
    · rw [if_pos ht, if_pos ht]
      exact ⟨rfl, h⟩

theorem emissions_renamed (h : RenamedStream ρ s s') {is : List (Input R)} (hi : ∀ i ∈ is, InputWithin S i) :
    Run.emissions step out s' (is.map (renameInput ρ)) = Run.emissions step out s is := by
  induction is generalizing s s' with
  | nil => rfl
  | cons i is ih =>
    obtain ⟨hout, hstep⟩ := step_rename h (hi i List.mem_cons_self)
    rw [List.map_cons, Run.emissions, Run.emissions, hout, ih hstep fun j hj => hi j (List.mem_cons_of_mem i hj)]

/-- What an operator calls a sensor is nowhere in the events: under any renaming that keeps the order
of the ids, whether they are empty and their provenance, every run gives the same events. -/
theorem emissions_rename (ρ : Renaming S) {is : List (Input R)} (hi : ∀ i ∈ is, InputWithin S i) :
    Run.emissions step out newStream (is.map (renameInput ρ)) = Run.emissions step out newStream is :=
  emissions_renamed ⟨⟨fun _ _ _ => rfl, rfl⟩, fun _ => rfl, fun _ _ h => by cases h⟩ hi

/-- The camera of the kitchen under another name. -/
def anonymous : Renaming {"cam-ana"} where
  rename a := if a = "cam-ana" then "cam-1" else a
  mono a ha b hb hlt := by
    rw [Set.mem_singleton_iff] at ha hb
    exact absurd hlt (by rw [ha, hb]; exact lt_irrefl _)
  truthy a := by
    split
    · rename_i h
      rw [h]
      decide
    · rfl
  source a ha := by
    rw [Set.mem_singleton_iff.mp ha]
    decide

theorem emissions_rename_kitchen :
    Run.emissions step out newStream ([.observe "" (kitchen true "fresh"), .observe "" (kitchen true "dead")].map
      (renameInput anonymous)) =
    Run.emissions step out newStream [.observe "" (kitchen true "fresh"), .observe "" (kitchen true "dead")] :=
  emissions_rename anonymous fun i hi => by
    rcases List.mem_pair.mp hi with rfl | rfl <;>
      exact fun s hs => by rw [List.mem_singleton.mp hs]; rfl

end

end Wavr.SpatialEvents
