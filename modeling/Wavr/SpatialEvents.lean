import Wavr.Experience
import Wavr.HouseMap
import Wavr.Run

/-!
# Changes of a room as events

The difference of two room states in a row, told once. Sensors go by derived names, which stay
while the room is not forgotten.
-/

namespace Wavr.SpatialEvents
open Text Fusion
open Experience (sensorSource)

variable {R : Type}

/-- A sensor as an application may hear of it. -/
structure Described where
  label : String
  modality : String
  source : String
  simulated : Bool
  deriving DecidableEq

inductive Change (R : Type)
  | occupancyChanged (occupied : Bool) (confidence : R) (precision : Level)
  | countChanged (count previous : Option ℕ) (countKnown : Bool)
  | precisionChanged (precision previous : Level) (howToImprove : Option String)
  | sensorOffline (sensor : Described)
  | sensorOnline (sensor : Described)
  | sensorsDisagree (sensors : List (Described × String))
  | sensorsAgree (sensors : List (Described × String))

structure Event (R : Type) where
  room : String
  «at» : String
  change : Change R

/-! ## Sensors -/

/-- Sensors that contribute, by id. -/
def freshSensors (state : RoomState R) : Dict String (Source R) :=
  state.sources.foldl (fun out s => if truthy s.sensorId ∧ s.health = "fresh" then out.set s.sensorId s else out)
    .empty

def disagreeing (state : RoomState R) : Bool :=
  (freshSensors state).values.any (·.presence) && (freshSensors state).values.any fun s => ! s.presence

/-- `_SensorNames`, both tables by room. -/
structure SensorNames where
  names : Dict String (Dict String String)
  counts : Dict String (Dict String ℕ)

def modalityOf (source : Source R) : String := if truthy source.modality then source.modality else "sensor"

def described (label sensorId : String) (source : Source R) : Described :=
  ⟨label, modalityOf source, sensorSource sensorId, sensorSource sensorId = "simulated"⟩

/-- The name a sensor has by now. -/
def labelOf (s : SensorNames) (room sensorId : String) : Option String :=
  ((s.names.get? room).getD .empty).get? sensorId

def countOf (s : SensorNames) (room modality : String) : ℕ :=
  (((s.counts.get? room).getD .empty).get? modality).getD 0

def describe (room sensorId : String) (source : Source R) (s : SensorNames) : Described × SensorNames :=
  match labelOf s room sensorId with
  | some label => (described label sensorId source, { s with names := s.names.setDefault room .empty })
  | none =>
    let n := countOf s room (modalityOf source) + 1
    let label := modalityOf source ++ " " ++ toString n
    (described label sensorId source,
      ⟨s.names.set room (((s.names.get? room).getD .empty).set sensorId label),
        s.counts.set room (((s.counts.get? room).getD .empty).set (modalityOf source) n)⟩)

def SensorNames.forget (room : String) (s : SensorNames) : SensorNames :=
  ⟨s.names.erase room, s.counts.erase room⟩

/-- `[(sid, d[sid]) for sid in sorted(ids)]`. -/
def items (d : Dict String (Source R)) (ids : Finset String) : List (String × Source R) :=
  (sortedSet ids).filterMap fun sid => (d.get? sid).map (sid, ·)

def describeAll (room : String) : List (String × Source R) → SensorNames → List Described × SensorNames
  | [], s => ([], s)
  | (sid, source) :: rest, s =>
    let first := describe room sid source s
    let others := describeAll room rest first.2
    (first.1 :: others.1, others.2)

/-! ## The stream -/

/-- One state back for each room. -/
structure Stream (R : Type) where
  prev : Dict String (RoomState R)
  sensors : SensorNames

def newStream : Stream R := ⟨.empty, ⟨.empty, .empty⟩⟩

def ids (state : RoomState R) : Finset String := (freshSensors state).keys.toFinset

/-- The field `says`. -/
def spoken (source : Source R) : String := if source.presence then "occupied" else "empty"

/-- What changed from one state to the next, and the names as they are then. -/
def changes (prev state : RoomState R) (s : SensorNames) : List (Change R) × SensorNames :=
  let before := freshSensors prev
  let now := freshSensors state
  let offline := describeAll state.room (items before (ids prev \ ids state)) s
  let online := describeAll state.room (items now (ids state \ ids prev)) offline.2
  let sensors := describeAll state.room (items now (ids state)) online.2
  let said := sensors.1.zip ((items now (ids state)).map fun e => spoken e.2)
  ((if prev.occupied = state.occupied then []
      else [.occupancyChanged state.occupied state.confidence state.precisionLevel]) ++
    (if prev.personCount = state.personCount then []
      else [.countChanged state.personCount prev.personCount state.personCount.isSome]) ++
    (if prev.precisionLevel = state.precisionLevel then []
      else [.precisionChanged state.precisionLevel prev.precisionLevel state.precisionNext]) ++
    offline.1.map .sensorOffline ++ online.1.map .sensorOnline ++
    (if disagreeing prev = disagreeing state then []
      else [if disagreeing state then .sensorsDisagree said else .sensorsAgree said]),
    if disagreeing prev = disagreeing state then online.2 else sensors.2)

/-- `wallIso` is the machine's clock as text. -/
def observe (wallIso : String) (state : RoomState R) (s : Stream R) : List (Event R) × Stream R :=
  if ¬ truthy state.room then ([], s)
  else
    let kept := s.prev.set state.room state
    -- named as they appear, before anything is told of them
    let named := (describeAll state.room (items (freshSensors state) (ids state)) s.sensors).2
    match s.prev.get? state.room with
    | none => ([], ⟨kept, named⟩)
    | some prev =>
      let changed := changes prev state named
      (changed.1.map (⟨state.room, if truthy state.ts then state.ts else wallIso, ·⟩), ⟨kept, changed.2⟩)

def forget (room : String) (s : Stream R) : Stream R := ⟨s.prev.erase room, s.sensors.forget room⟩

inductive Input (R : Type)
  | observe (wallIso : String) (state : RoomState R)
  | forget (room : String)

def step (s : Stream R) : Input R → Stream R
  | .observe wallIso state => (observe wallIso state s).2
  | .forget room => forget room s

def out (s : Stream R) : Input R → List (Event R)
  | .observe wallIso state => (observe wallIso state s).1
  | .forget _ => []

/-! ## Names -/

/-- Names are numbered by modality, and no two sensors of a room share one. -/
structure Named (s : SensorNames) : Prop where
  numbered : ∀ room sid label, labelOf s room sid = some label →
    ∃ modality n, label = modality ++ " " ++ toString n ∧ n ≤ countOf s room modality
  distinct : ∀ room sid sid' label, labelOf s room sid = some label → labelOf s room sid' = some label → sid = sid'

section
variable {s : SensorNames} {room sid label : String} {source : Source R}

theorem numbering_injective {m m' : String} {n n' : ℕ}
    (h : m ++ " " ++ toString n = m' ++ " " ++ toString n') : m = m' ∧ n = n' := by
  have hdigits (k : ℕ) : ' ' ∉ (toString k).toList := by
    intro hmem
    have hdigit := Nat.isDigit_of_mem_toDigits (by decide) (by decide) (Nat.toList_repr ▸ hmem)
    exact absurd hdigit (by decide)
  have hlist : m.toList ++ ' ' :: (toString n).toList = m'.toList ++ ' ' :: (toString n').toList := by
    simpa using congrArg String.toList h
  constructor
  · have hbefore := congrArg (beforeLast ' ') hlist
    rw [beforeLast_append_cons (hdigits n), beforeLast_append_cons (hdigits n')] at hbefore
    exact String.toList_inj.mp hbefore
  · have hafter := congrArg (afterLast ' ') hlist
    rw [afterLast_append_cons (hdigits n), afterLast_append_cons (hdigits n')] at hafter
    exact HouseMap.toString_injective (String.toList_inj.mp hafter)

theorem labelOf_setDefault (room' : String) :
    labelOf { s with names := s.names.setDefault room .empty } room' sid = labelOf s room' sid := by
  unfold labelOf Dict.setDefault
  dsimp only
  split
  · rfl
  · rename_i hnone
    by_cases h : room' = room
    · subst h
      rw [Dict.get?_set_self, Option.not_isSome_iff_eq_none.mp hnone]
      rfl
    · rw [Dict.get?_set_ne _ h]

/-- A sensor that has a name keeps it. -/
theorem describe_of_named (h : labelOf s room sid = some label) :
    describe room sid source s =
      (described label sid source, { s with names := s.names.setDefault room .empty }) := by
  unfold describe
  rw [h]

/-- A sensor without a name gets the next number of its modality. -/
theorem describe_of_unnamed (h : labelOf s room sid = none) (source : Source R) : ∃ s',
    describe room sid source s =
      (described (modalityOf source ++ " " ++ toString (countOf s room (modalityOf source) + 1)) sid source, s') ∧
    (∀ room' sid', labelOf s' room' sid' = if room' = room ∧ sid' = sid then
      some (modalityOf source ++ " " ++ toString (countOf s room (modalityOf source) + 1))
      else labelOf s room' sid') ∧
    ∀ room' m, countOf s' room' m = if room' = room ∧ m = modalityOf source then
      countOf s room (modalityOf source) + 1 else countOf s room' m := by
  unfold describe
  rw [h]
  refine ⟨_, rfl, fun room' sid' => ?_, fun room' m => ?_⟩
  · by_cases hroom : room' = room
    · subst hroom
      by_cases hsid : sid' = sid
      · simp [labelOf, hsid, countOf]
      · simp [labelOf, hsid, Dict.get?_set_ne _ hsid]
    · simp [labelOf, hroom, Dict.get?_set_ne _ hroom]
  · by_cases hroom : room' = room
    · subst hroom
      by_cases hm : m = modalityOf source
      · simp [countOf, hm]
      · simp [countOf, hm, Dict.get?_set_ne _ hm]
    · simp [countOf, hroom, Dict.get?_set_ne _ hroom]

theorem describe_keeps {room' sid' : String} (h : labelOf s room' sid' = some label) :
    labelOf (describe room sid source s).2 room' sid' = some label := by
  cases hsid : labelOf s room sid with
  | some old => rw [describe_of_named hsid, labelOf_setDefault, h]
  | none =>
    obtain ⟨s', hs', hlabel, -⟩ := describe_of_unnamed hsid source
    rw [hs', hlabel, if_neg, h]
    rintro ⟨rfl, rfl⟩
    rw [h] at hsid
    cases hsid

theorem describe_label : labelOf (describe room sid source s).2 room sid =
    some (describe room sid source s).1.label := by
  cases hsid : labelOf s room sid with
  | some old => rw [describe_of_named hsid, labelOf_setDefault, hsid, described]
  | none =>
    obtain ⟨s', hs', hlabel, -⟩ := describe_of_unnamed hsid source
    rw [hs', hlabel, if_pos ⟨rfl, rfl⟩, described]

theorem describe_frame {room' : String} (h : room' ≠ room) (sid' : String) :
    labelOf (describe room sid source s).2 room' sid' = labelOf s room' sid' := by
  cases hsid : labelOf s room sid with
  | some old => rw [describe_of_named hsid, labelOf_setDefault]
  | none =>
    obtain ⟨s', hs', hlabel, -⟩ := describe_of_unnamed hsid source
    rw [hs', hlabel, if_neg fun hr => h hr.1]

theorem Named.describe (h : Named s) : Named (describe room sid source s).2 := by
  cases hsid : labelOf s room sid with
  | some old =>
    rw [describe_of_named hsid]
    refine ⟨fun room' sid' label' hlabel => ?_, fun room' sid' sid'' label' hlabel hlabel' => ?_⟩
    · rw [labelOf_setDefault] at hlabel
      exact h.numbered room' sid' label' hlabel
    · rw [labelOf_setDefault] at hlabel hlabel'
      exact h.distinct room' sid' sid'' label' hlabel hlabel'
  | none =>
    obtain ⟨s', hs', hlabel, hcount⟩ := describe_of_unnamed hsid source
    rw [hs']
    -- the new number is above all that are given out
    have hfresh (sid' : String) : labelOf s room sid' ≠
        some (modalityOf source ++ " " ++ toString (countOf s room (modalityOf source) + 1)) := by
      intro hold
      obtain ⟨m, n, heq, hn⟩ := h.numbered room sid' _ hold
      obtain ⟨rfl, rfl⟩ := numbering_injective heq
      omega
    refine ⟨fun room' sid' label' hl => ?_, fun room' sid' sid'' label' hl hl' => ?_⟩
    · rw [hlabel] at hl
      by_cases hnew : room' = room ∧ sid' = sid
      · obtain ⟨rfl, rfl⟩ := hnew
        rw [if_pos ⟨rfl, rfl⟩] at hl
        exact ⟨_, _, (Option.some.inj hl).symm, by rw [hcount, if_pos ⟨rfl, rfl⟩]⟩
      · rw [if_neg hnew] at hl
        obtain ⟨m, n, heq, hn⟩ := h.numbered room' sid' label' hl
        refine ⟨m, n, heq, ?_⟩
        rw [hcount]
        split
        · rename_i hm
          rw [hm.1, hm.2] at hn
          omega
        · exact hn
    · rw [hlabel] at hl hl'
      by_cases hnew : room' = room ∧ sid' = sid
      · obtain ⟨rfl, rfl⟩ := hnew
        rw [if_pos ⟨rfl, rfl⟩] at hl
        by_contra hne
        rw [if_neg fun hr => hne hr.2.symm, ← hl] at hl'
        exact hfresh sid'' hl'
      · rw [if_neg hnew] at hl
        by_cases hnew' : room' = room ∧ sid'' = sid
        · obtain ⟨rfl, rfl⟩ := hnew'
          rw [if_pos ⟨rfl, rfl⟩] at hl'
          exact absurd (hl.trans hl'.symm) (hfresh sid')
        · rw [if_neg hnew'] at hl'
          exact h.distinct room' sid' sid'' label' hl hl'

variable {l : List (String × Source R)}

theorem describeAll_keeps {room' sid' : String} (h : labelOf s room' sid' = some label) :
    labelOf (describeAll room l s).2 room' sid' = some label := by
  induction l generalizing s with
  | nil => exact h
  | cons e l ih => exact ih (describe_keeps h)

theorem describeAll_frame {room' : String} (h : room' ≠ room) (sid' : String) :
    labelOf (describeAll room l s).2 room' sid' = labelOf s room' sid' := by
  induction l generalizing s with
  | nil => rfl
  | cons e l ih => exact ih.trans (describe_frame h sid')

theorem Named.describeAll (h : Named s) : Named (describeAll room l s).2 := by
  induction l generalizing s with
  | nil => exact h
  | cons e l ih => exact ih h.describe

theorem describeAll_named (h : sid ∈ l.map Prod.fst) : (labelOf (describeAll room l s).2 room sid).isSome := by
  induction l generalizing s with
  | nil => cases h
  | cons e l ih =>
    rcases List.mem_cons.mp h with rfl | h
    · rw [SpatialEvents.describeAll, describeAll_keeps describe_label]
      rfl
    · exact ih h

/-- The name on an event, of a sensor that has one. -/
def nameOf (s : SensorNames) (room sensorId : String) : String := (labelOf s room sensorId).getD ""

/-- Sensors that have names are called by them, and nothing changes. -/
theorem describeAll_of_named (room : String) (l : List (String × Source R)) (h : ∀ e ∈ l, (labelOf s room e.1).isSome) :
    (SpatialEvents.describeAll room l s).1 = l.map (fun e => described (nameOf s room e.1) e.1 e.2) ∧
      labelOf (SpatialEvents.describeAll room l s).2 = labelOf s := by
  induction l generalizing s with
  | nil => exact ⟨rfl, rfl⟩
  | cons e l ih =>
    obtain ⟨label, hlabel⟩ := Option.isSome_iff_exists.mp (h e List.mem_cons_self)
    have hsame : labelOf (SpatialEvents.describe room e.1 e.2 s).2 = labelOf s := by
      funext room' sid'
      rw [describe_of_named hlabel, labelOf_setDefault]
    obtain ⟨hnames, hrest⟩ := ih fun e' he' => by
      rw [hsame]
      exact h e' (List.mem_cons_of_mem e he')
    have hname (room' sid' : String) : nameOf (SpatialEvents.describe room e.1 e.2 s).2 room' sid' =
        nameOf s room' sid' := by rw [nameOf, hsame, nameOf]
    refine ⟨?_, hrest.trans hsame⟩
    rw [SpatialEvents.describeAll, List.map_cons]
    dsimp only
    rw [hnames]
    simp only [hname]
    rw [describe_of_named hlabel, nameOf, hlabel, Option.getD_some]

theorem Named.forget (h : Named s) (room : String) : Named (s.forget room) := by
  have hlabel (room' sid' : String) : labelOf (s.forget room) room' sid' =
      if room' = room then none else labelOf s room' sid' := by
    by_cases hr : room' = room
    · simp [labelOf, SensorNames.forget, Dict.get?_erase, hr]
    · simp [labelOf, SensorNames.forget, Dict.get?_erase, hr]
  have hcount {room' : String} (hr : room' ≠ room) (m : String) :
      countOf (s.forget room) room' m = countOf s room' m := by
    simp [countOf, SensorNames.forget, Dict.get?_erase, hr]
  refine ⟨fun room' sid' label' hl => ?_, fun room' sid' sid'' label' hl hl' => ?_⟩
  · rw [hlabel] at hl
    split at hl
    · cases hl
    · rename_i hr
      obtain ⟨m, n, heq, hn⟩ := h.numbered room' sid' label' hl
      exact ⟨m, n, heq, (hcount hr m).symm ▸ hn⟩
  · rw [hlabel] at hl hl'
    split at hl
    · cases hl
    · rename_i hr
      rw [if_neg hr] at hl'
      exact h.distinct room' sid' sid'' label' hl hl'

end

/-! ## What an application knows -/

/-- A room as one that listens knows it. -/
structure View where
  occupied : Bool
  count : Option ℕ
  precision : Level
  /-- The names of the sensors that contribute. -/
  online : Finset String
  disagree : Bool
  deriving DecidableEq

def View.apply (v : View) : Change R → View
  | .occupancyChanged occupied _ _ => { v with occupied }
  | .countChanged count _ _ => { v with count }
  | .precisionChanged precision _ _ => { v with precision }
  | .sensorOffline sensor => { v with online := v.online.erase sensor.label }
  | .sensorOnline sensor => { v with online := insert sensor.label v.online }
  | .sensorsDisagree _ => { v with disagree := true }
  | .sensorsAgree _ => { v with disagree := false }

/-- The event is news to one who knows `v`, and what it says of before is what `v` says. -/
def View.News (v : View) : Change R → Prop
  | .occupancyChanged occupied _ _ => occupied ≠ v.occupied
  | .countChanged count previous known => previous = v.count ∧ count ≠ v.count ∧ known = count.isSome
  | .precisionChanged precision previous _ => previous = v.precision ∧ precision ≠ v.precision
  | .sensorOffline sensor => sensor.label ∈ v.online
  | .sensorOnline sensor => sensor.label ∉ v.online
  | .sensorsDisagree _ => v.disagree = false
  | .sensorsAgree _ => v.disagree = true

/-- From `v` to `v'` by news alone. -/
def Replays : View → List (Change R) → View → Prop
  | v, [], v' => v = v'
  | v, e :: es, v' => v.News e ∧ Replays (v.apply e) es v'

section
variable {v v' v'' : View} {es es' : List (Change R)}

theorem Replays.append (h : Replays v es v') (h' : Replays v' es' v'') : Replays v (es ++ es') v'' := by
  induction es generalizing v with
  | nil => exact (show v = v' from h) ▸ h'
  | cons e es ih => exact ⟨h.1, ih h.2⟩

theorem Replays.foldl (h : Replays v es v') : es.foldl View.apply v = v' := by
  induction es generalizing v with
  | nil => exact h
  | cons e es ih => exact ih h.2

theorem replays_one (v' : View) {p : Prop} [Decidable p] {e : Change R} (hnews : ¬ p → v.News e)
    (hsame : p → v = v') (happly : ¬ p → v.apply e = v') : Replays v (if p then [] else [e]) v' := by
  by_cases h : p
  · rw [if_pos h]
    exact hsame h
  · rw [if_neg h]
    exact ⟨hnews h, happly h⟩

variable {sensors : List Described}

theorem replays_offline (hn : (sensors.map (·.label)).Nodup) (hmem : ∀ d ∈ sensors, d.label ∈ v.online) :
    Replays v (sensors.map (Change.sensorOffline (R := R)))
      { v with online := v.online \ (sensors.map (·.label)).toFinset } := by
  induction sensors generalizing v with
  | nil => simp [Replays]
  | cons d sensors ih =>
    obtain ⟨hnew, hn⟩ := List.nodup_cons.mp hn
    refine ⟨hmem d List.mem_cons_self, ?_⟩
    have hrest := ih (v := v.apply (.sensorOffline d : Change R)) hn fun d' hd' =>
      Finset.mem_erase.mpr ⟨fun heq => hnew (List.mem_map.mpr ⟨d', hd', heq⟩), hmem d' (List.mem_cons_of_mem d hd')⟩
    have hset : v.online \ ((d :: sensors).map (·.label)).toFinset =
        v.online.erase d.label \ (sensors.map (·.label)).toFinset := by
      ext label
      simp only [List.map_cons, List.toFinset_cons, Finset.mem_sdiff, Finset.mem_insert, Finset.mem_erase]
      tauto
    rw [hset]
    exact hrest

theorem replays_online (hn : (sensors.map (·.label)).Nodup) (hmem : ∀ d ∈ sensors, d.label ∉ v.online) :
    Replays v (sensors.map (Change.sensorOnline (R := R)))
      { v with online := v.online ∪ (sensors.map (·.label)).toFinset } := by
  induction sensors generalizing v with
  | nil => simp [Replays]
  | cons d sensors ih =>
    obtain ⟨hnew, hn⟩ := List.nodup_cons.mp hn
    refine ⟨hmem d List.mem_cons_self, ?_⟩
    have hrest := ih (v := v.apply (.sensorOnline d : Change R)) hn fun d' hd' => by
      simp only [View.apply, Finset.mem_insert, not_or]
      exact ⟨fun heq => hnew (List.mem_map.mpr ⟨d', hd', heq⟩), hmem d' (List.mem_cons_of_mem d hd')⟩
    have hset : v.online ∪ ((d :: sensors).map (·.label)).toFinset =
        insert d.label v.online ∪ (sensors.map (·.label)).toFinset := by
      ext label
      simp only [List.map_cons, List.toFinset_cons, Finset.mem_union, Finset.mem_insert]
      tauto
    rw [hset]
    exact hrest

end

/-! ## A frame -/

section
variable {s : SensorNames} {room : String} {prev state : RoomState R}

/-- The view of a state, with the names as they are. -/
def viewOf (s : SensorNames) (room : String) (state : RoomState R) : View where
  occupied := state.occupied
  count := state.personCount
  precision := state.precisionLevel
  online := (ids state).image (nameOf s room)
  disagree := disagreeing state

/-- All sensors that contribute to a state have names. -/
def AllNamed (s : SensorNames) (room : String) (state : RoomState R) : Prop :=
  ∀ sid ∈ ids state, (labelOf s room sid).isSome

theorem items_map_fst (state : RoomState R) {sids : Finset String} (h : sids ⊆ ids state) :
    (items (freshSensors state) sids).map Prod.fst = sortedSet sids := by
  have hall (sid : String) (hsid : sid ∈ sortedSet sids) : ∃ source, (freshSensors state).get? sid = some source := by
    have hmem := h ((Finset.mem_sort _).mp hsid)
    exact Option.isSome_iff_exists.mp (Dict.mem_keys.mp (List.mem_toFinset.mp hmem))
  unfold items
  generalize sortedSet sids = l at hall
  induction l with
  | nil => rfl
  | cons sid l ih =>
    obtain ⟨source, hsource⟩ := hall sid List.mem_cons_self
    rw [List.filterMap_cons, hsource]
    simp only [Option.map_some, List.map_cons]
    rw [ih fun sid' hsid' => hall sid' (List.mem_cons_of_mem sid hsid')]

theorem mem_ids_of_mem_items {sids : Finset String} (h : sids ⊆ ids state) {e : String × Source R}
    (he : e ∈ items (freshSensors state) sids) : e.1 ∈ sids := by
  have hmem : e.1 ∈ (items (freshSensors state) sids).map Prod.fst := List.mem_map_of_mem he
  rw [items_map_fst state h] at hmem
  exact (Finset.mem_sort _).mp hmem

/-- The sensors of a list, as they are told. -/
theorem told_of_named (sids : Finset String) (hs : sids ⊆ ids state) (h : AllNamed s room state) :
    let told := describeAll room (items (freshSensors state) sids) s
    told.1.map (·.label) = (sortedSet sids).map (nameOf s room) ∧ labelOf told.2 = labelOf s := by
  obtain ⟨htold, hsame⟩ := describeAll_of_named room (items (freshSensors state) sids)
    fun e he => h e.1 (hs (mem_ids_of_mem_items hs he))
  refine ⟨?_, hsame⟩
  rw [htold, List.map_map, ← items_map_fst state hs, List.map_map]
  rfl

theorem nameOf_injOn (h : Named s) {sids : Finset String} (hnamed : ∀ sid ∈ sids, (labelOf s room sid).isSome) :
    Set.InjOn (nameOf s room) sids := by
  intro sid hsid sid' hsid' heq
  obtain ⟨label, hlabel⟩ := Option.isSome_iff_exists.mp (hnamed sid hsid)
  obtain ⟨label', hlabel'⟩ := Option.isSome_iff_exists.mp (hnamed sid' hsid')
  rw [nameOf, nameOf, hlabel, hlabel', Option.getD_some, Option.getD_some] at heq
  exact h.distinct room sid sid' label hlabel (heq ▸ hlabel')

theorem mem_sortedSet {sids : Finset String} {sid : String} : sid ∈ sortedSet sids ↔ sid ∈ sids := Finset.mem_sort _

theorem toFinset_told {f : String → String} (sids : Finset String) :
    ((sortedSet sids).map f).toFinset = sids.image f := by
  ext label
  simp [mem_sortedSet]

theorem nodup_told {f : String → String} {sids : Finset String} (hf : Set.InjOn f sids) :
    ((sortedSet sids).map f).Nodup :=
  (Finset.sort_nodup sids _).map_on fun _ ha _ hb heq => hf (mem_sortedSet.mp ha) (mem_sortedSet.mp hb) heq

/-- Less what went, with what came: under an injective naming, that is what is there now. -/
theorem image_update {f : String → String} {A B : Finset String} (hf : Set.InjOn f (A ∪ B : Finset String)) :
    (A.image f \ (A \ B).image f) ∪ (B \ A).image f = B.image f := by
  ext label
  simp only [Finset.mem_union, Finset.mem_sdiff, Finset.mem_image, not_exists, not_and]
  constructor
  · rintro (⟨⟨a, ha, rfl⟩, hkept⟩ | ⟨b, ⟨hb, -⟩, rfl⟩)
    · exact ⟨a, not_not.mp fun hb => hkept a ⟨ha, hb⟩ rfl, rfl⟩
    · exact ⟨b, hb, rfl⟩
  · rintro ⟨b, hb, rfl⟩
    by_cases ha : b ∈ A
    · refine .inl ⟨⟨b, ha, rfl⟩, fun a hgone heq => hgone.2 ?_⟩
      have hsame : a = b := hf (by simp [hgone.1]) (by simp [hb]) heq
      exact hsame ▸ hb
    · exact .inr ⟨b, ⟨hb, ha⟩, rfl⟩

theorem replays_measures {v : View} (ho : v.occupied = prev.occupied) (hc : v.count = prev.personCount)
    (hp : v.precision = prev.precisionLevel) :
    Replays v ((if prev.occupied = state.occupied then []
        else [.occupancyChanged state.occupied state.confidence state.precisionLevel]) ++
      (if prev.personCount = state.personCount then []
        else [.countChanged state.personCount prev.personCount state.personCount.isSome]) ++
      (if prev.precisionLevel = state.precisionLevel then []
        else [.precisionChanged state.precisionLevel prev.precisionLevel state.precisionNext]))
      { v with occupied := state.occupied, count := state.personCount, precision := state.precisionLevel } := by
  obtain ⟨occupied, count, precision, online, disagree⟩ := v
  dsimp only at ho hc hp
  subst ho hc hp
  refine ((replays_one ⟨state.occupied, prev.personCount, prev.precisionLevel, online, disagree⟩
    ?_ ?_ fun _ => rfl).append (replays_one ⟨state.occupied, state.personCount, prev.precisionLevel, online,
    disagree⟩ ?_ ?_ fun _ => rfl)).append (replays_one _ ?_ ?_ fun _ => rfl)
  · exact fun h h' => h h'.symm
  · exact fun h => by rw [h]
  · exact fun h => ⟨rfl, fun h' => h h'.symm, rfl⟩
  · exact fun h => by rw [h]
  · exact fun h => ⟨rfl, fun h' => h h'.symm⟩
  · exact fun h => by rw [h]

theorem replays_disagreement {v : View} (hv : v.disagree = disagreeing prev) (said : List (Described × String)) :
    Replays v (if disagreeing prev = disagreeing state then []
        else [(if disagreeing state then .sensorsDisagree said else .sensorsAgree said : Change R)])
      { v with disagree := disagreeing state } := by
  refine replays_one _ (fun h => ?_) (fun h => by rw [← h, ← hv]) fun _ => ?_
  · cases hs : disagreeing state with
    | true => exact hv.trans (by simpa [hs] using h)
    | false => exact hv.trans (by simpa [hs] using h)
  · cases disagreeing state <;> rfl

/-- One frame is told exactly: from what was known, by news alone, to what is. -/
theorem replays_changes (hn : Named s) (hp : AllNamed s state.room prev) (hs : AllNamed s state.room state) :
    Replays (viewOf s state.room prev) (changes prev state s).1 (viewOf s state.room state) ∧
      labelOf (changes prev state s).2 = labelOf s := by
  have hinj : Set.InjOn (nameOf s state.room) (ids prev ∪ ids state : Finset String) :=
    nameOf_injOn hn fun sid hsid => (Finset.mem_union.mp hsid).elim (hp sid) (hs sid)
  obtain ⟨hoff, hoffNames⟩ := told_of_named (ids prev \ ids state) Finset.sdiff_subset hp
  unfold changes
  dsimp only
  generalize describeAll state.room (items (freshSensors prev) (ids prev \ ids state)) s = offline at *
  have hs' : AllNamed offline.2 state.room state := fun sid hsid => hoffNames ▸ hs sid hsid
  obtain ⟨hon, honNames⟩ := told_of_named (ids state \ ids prev) Finset.sdiff_subset hs'
  generalize describeAll state.room (items (freshSensors state) (ids state \ ids prev)) offline.2 = online at *
  have hs'' : AllNamed online.2 state.room state := fun sid hsid => honNames ▸ hs' sid hsid
  obtain ⟨-, hsaidNames⟩ := told_of_named (ids state) subset_rfl hs''
  have hname : nameOf offline.2 state.room = nameOf s state.room := by
    funext sid
    rw [nameOf, hoffNames, nameOf]
  rw [hname] at hon
  have hsub : (ids prev \ ids state : Finset String) ⊆ ids prev ∪ ids state :=
    Finset.sdiff_subset.trans Finset.subset_union_left
  have hsub' : (ids state \ ids prev : Finset String) ⊆ ids prev ∪ ids state :=
    Finset.sdiff_subset.trans Finset.subset_union_right
  have hview : viewOf s state.room state = ⟨state.occupied, state.personCount, state.precisionLevel,
      (ids prev).image (nameOf s state.room) \ (offline.1.map (·.label)).toFinset ∪
        (online.1.map (·.label)).toFinset, disagreeing state⟩ := by
    rw [hoff, hon, toFinset_told, toFinset_told, image_update hinj]
    rfl
  constructor
  · rw [hview]
    refine (((replays_measures (v := viewOf s state.room prev) rfl rfl rfl).append
      (replays_offline ?_ ?_)).append (replays_online ?_ ?_)).append (replays_disagreement rfl _)
    · exact hoff ▸ nodup_told (hinj.mono (Finset.coe_subset.mpr hsub))
    · intro d hd
      have hmem : d.label ∈ offline.1.map (·.label) := List.mem_map_of_mem hd
      rw [hoff] at hmem
      obtain ⟨sid, hsid, heq⟩ := List.mem_map.mp hmem
      exact heq ▸ Finset.mem_image_of_mem _ (Finset.sdiff_subset (mem_sortedSet.mp hsid))
    · exact hon ▸ nodup_told (hinj.mono (Finset.coe_subset.mpr hsub'))
    · intro d hd hknown
      have hmem : d.label ∈ online.1.map (·.label) := List.mem_map_of_mem hd
      rw [hon] at hmem
      obtain ⟨sid, hsid, heq⟩ := List.mem_map.mp hmem
      obtain ⟨hnow, hbefore⟩ := Finset.mem_sdiff.mp (mem_sortedSet.mp hsid)
      obtain ⟨sid', hsid', heq'⟩ := Finset.mem_image.mp (Finset.mem_sdiff.mp hknown).1
      have hsame : sid' = sid := hinj (by simp [hsid']) (by simp [hnow]) (heq'.trans heq.symm)
      exact hbefore (hsame ▸ hsid')
  · split
    · rw [honNames, hoffNames]
    · rw [hsaidNames, honNames, hoffNames]

end

/-! ## Runs -/

section
variable {s : Stream R} {room : String}

/-- Names are in order, every state is kept under its room, and its sensors have names. -/
structure Kept (s : Stream R) : Prop where
  named : Named s.sensors
  rooms : ∀ room state, s.prev.get? room = some state → state.room = room ∧ AllNamed s.sensors room state

/-- What there is to know of a room that has been seen. -/
def view (s : Stream R) (room : String) : Option View := (s.prev.get? room).map (viewOf s.sensors room)

/-- The events of one room. -/
def changesOf (room : String) (events : List (Event R)) : List (Change R) :=
  (events.filter fun e => e.room = room).map (·.change)

theorem viewOf_congr {names names' : SensorNames} {state : RoomState R}
    (h : ∀ sid ∈ ids state, labelOf names' room sid = labelOf names room sid) :
    viewOf names' room state = viewOf names room state := by
  have hname (sid : String) (hsid : sid ∈ ids state) : nameOf names' room sid = nameOf names room sid := by
    rw [nameOf, h sid hsid, nameOf]
  simp only [viewOf, Finset.image_congr hname]

theorem view_congr {s s' : Stream R} (hprev : s'.prev.get? room = s.prev.get? room)
    (hnames : ∀ sid, (∃ state, s.prev.get? room = some state ∧ sid ∈ ids state) →
      labelOf s'.sensors room sid = labelOf s.sensors room sid) : view s' room = view s room := by
  unfold view
  rw [hprev]
  cases hstate : s.prev.get? room with
  | none => rfl
  | some state => exact congrArg some (viewOf_congr fun sid hsid => hnames sid ⟨state, hstate, hsid⟩)

theorem AllNamed.congr {names names' : SensorNames} {state : RoomState R} (h : AllNamed names room state)
    (hkeep : ∀ sid label, labelOf names room sid = some label → labelOf names' room sid = some label) :
    AllNamed names' room state := by
  intro sid hsid
  obtain ⟨label, hlabel⟩ := Option.isSome_iff_exists.mp (h sid hsid)
  exact Option.isSome_iff_exists.mpr ⟨label, hkeep sid label hlabel⟩

theorem allNamed_describeAll (names : SensorNames) (state : RoomState R) :
    AllNamed (describeAll state.room (items (freshSensors state) (ids state)) names).2 state.room state := by
  intro sid hsid
  refine describeAll_named ?_
  rw [items_map_fst state subset_rfl]
  exact mem_sortedSet.mpr hsid

/-- The names once the sensors of a state have been named. -/
def namedBy (s : Stream R) (state : RoomState R) : SensorNames :=
  (describeAll state.room (items (freshSensors state) (ids state)) s.sensors).2

theorem Kept.allNamed_prev (h : Kept s) {prev state : RoomState R} (hprev : s.prev.get? state.room = some prev) :
    AllNamed (namedBy s state) state.room prev :=
  (h.rooms state.room prev hprev).2.congr fun _ _ hl => describeAll_keeps hl

theorem Named.changes {names : SensorNames} {prev state : RoomState R} (h : Named names) :
    Named (changes prev state names).2 := by
  unfold SpatialEvents.changes
  dsimp only
  split
  · exact h.describeAll.describeAll
  · exact h.describeAll.describeAll.describeAll

/-- What an observation does to the stream. -/
theorem observe_spec (h : Kept s) {state : RoomState R} (ht : truthy state.room = true) (wallIso : String) :
    ∃ names, (observe wallIso state s).2 = ⟨s.prev.set state.room state, names⟩ ∧
      labelOf names = labelOf (namedBy s state) ∧ Named names ∧
      (observe wallIso state s).1.map (·.change) = match s.prev.get? state.room with
        | none => []
        | some prev => (changes prev state (namedBy s state)).1 := by
  have hnamed : Named (namedBy s state) := h.named.describeAll
  unfold observe
  rw [if_neg (not_not.mpr ht)]
  dsimp only
  cases hprev : s.prev.get? state.room with
  | none => exact ⟨_, rfl, rfl, hnamed, rfl⟩
  | some prev =>
    obtain ⟨-, hlabels⟩ := replays_changes hnamed (h.allNamed_prev hprev) (allNamed_describeAll s.sensors state)
    refine ⟨_, rfl, hlabels, ?_, ?_⟩
    · exact hnamed.changes
    · simp [namedBy, Function.comp_def]

theorem step_kept (h : Kept s) (i : Input R) : Kept (step s i) := by
  cases i with
  | forget room =>
    refine ⟨h.named.forget room, fun room' state hstate => ?_⟩
    have hne : room' ≠ room := by
      rintro rfl
      simp [step, forget, Dict.get?_erase] at hstate
    have hstate' : s.prev.get? room' = some state := by
      simpa [step, forget, Dict.get?_erase, hne] using hstate
    obtain ⟨hroom, hall⟩ := h.rooms room' state hstate'
    refine ⟨hroom, hall.congr fun sid label hl => ?_⟩
    show labelOf (s.sensors.forget room) room' sid = some label
    simpa [labelOf, SensorNames.forget, Dict.get?_erase, hne] using hl
  | observe wallIso state =>
    by_cases ht : truthy state.room = true
    · obtain ⟨names, hs, hlabels, hnamed, -⟩ := observe_spec h ht wallIso
      show Kept (observe wallIso state s).2
      rw [hs]
      refine ⟨hnamed, fun room' state' hstate => ?_⟩
      by_cases hroom : room' = state.room
      · subst hroom
        obtain rfl : state = state' := by simpa using hstate
        exact ⟨rfl, (allNamed_describeAll s.sensors state).congr fun sid label hl => by rw [hlabels]; exact hl⟩
      · rw [Dict.get?_set_ne _ hroom] at hstate
        obtain ⟨heq, hall⟩ := h.rooms room' state' hstate
        exact ⟨heq, hall.congr fun sid label hl => by rw [hlabels]; exact describeAll_keeps hl⟩
    · have hsame : step s (.observe wallIso state) = s := by simp [step, observe, ht]
      rw [hsame]
      exact h

/-- One input, to one who knows a room that is not forgotten by it. -/
theorem step_replays (h : Kept s) {v : View} (hv : view s room = some v) {i : Input R} (hi : i ≠ .forget room) :
    ∃ v', view (step s i) room = some v' ∧ Replays v (changesOf room (out s i)) v' := by
  cases i with
  | forget room' =>
    have hne : room ≠ room' := fun heq => hi (heq ▸ rfl)
    refine ⟨v, ?_, rfl⟩
    rw [← hv]
    refine view_congr (by simp [step, forget, Dict.get?_erase, hne]) fun sid _ => ?_
    simp [labelOf, step, forget, SensorNames.forget, Dict.get?_erase, hne]
  | observe wallIso state =>
    by_cases ht : truthy state.room = true
    · obtain ⟨names, hs, hlabels, -, hout⟩ := observe_spec h ht wallIso
      have hstep : step s (.observe wallIso state) = ⟨s.prev.set state.room state, names⟩ := hs
      have hrooms : ∀ e ∈ (observe wallIso state s).1, e.room = state.room := by
        intro e he
        unfold observe at he
        rw [if_neg (not_not.mpr ht)] at he
        dsimp only at he
        split at he
        · cases he
        · obtain ⟨c, -, rfl⟩ := List.mem_map.mp he
          rfl
      by_cases hroom : room = state.room
      · subst hroom
        obtain ⟨prev, hprev, rfl⟩ := Option.map_eq_some_iff.mp hv
        obtain ⟨hreplays, -⟩ := replays_changes (h.named.describeAll) (h.allNamed_prev hprev)
          (allNamed_describeAll s.sensors state)
        have hbefore : viewOf (namedBy s state) state.room prev = viewOf s.sensors state.room prev :=
          viewOf_congr fun sid hsid => by
            obtain ⟨label, hlabel⟩ := Option.isSome_iff_exists.mp ((h.rooms state.room prev hprev).2 sid hsid)
            rw [hlabel]
            exact describeAll_keeps hlabel
        have hafter : viewOf names state.room state = viewOf (namedBy s state) state.room state :=
          viewOf_congr fun sid _ => by rw [hlabels]
        refine ⟨viewOf names state.room state, ?_, ?_⟩
        · rw [hstep, view, Dict.get?_set_self, Option.map_some]
        · have hall : (observe wallIso state s).1.filter (fun e => e.room = state.room) = (observe wallIso state s).1 :=
            List.filter_eq_self.mpr fun e he => by simp [hrooms e he]
          show Replays _ (((observe wallIso state s).1.filter fun e => e.room = state.room).map (·.change)) _
          rw [hall, hout, hprev, hafter, ← hbefore]
          exact hreplays
      · refine ⟨v, ?_, ?_⟩
        · rw [← hv, hstep]
          refine view_congr (Dict.get?_set_ne _ hroom _) fun sid _ => ?_
          show labelOf names room sid = _
          rw [hlabels]
          exact describeAll_frame hroom sid
        · have hnone : (observe wallIso state s).1.filter (fun e => e.room = room) = [] :=
            List.filter_eq_nil_iff.mpr fun e he => by simpa [hrooms e he] using Ne.symm hroom
          show Replays v (((observe wallIso state s).1.filter fun e => e.room = room).map (·.change)) v
          rw [hnone]
          rfl
    · have hsame : observe wallIso state s = ([], s) := by simp [observe, ht]
      refine ⟨v, ?_, ?_⟩
      · show view (observe wallIso state s).2 room = some v
        rw [hsame, hv]
      · show Replays v (changesOf room (observe wallIso state s).1) v
        rw [hsame]
        rfl

theorem kept_newStream : Kept (newStream : Stream R) where
  named := ⟨fun _ _ _ h => (by cases h), fun _ _ _ _ h => (by cases h)⟩
  rooms _ _ h := by cases h

theorem kept_finish (is : List (Input R)) {s : Stream R} (h : Kept s) : Kept (Run.finish step s is) := by
  induction is generalizing s with
  | nil => exact h
  | cons i is ih => exact ih (step_kept h i)

/-- The stream of a room is an exact account of it: from any moment when the room has been seen, the
events that follow, applied in order to what was known then, give what is known at the end, and each
tells something new. -/
theorem replays_run (past is : List (Input R)) {room : String} {v : View}
    (hv : view (Run.finish step (newStream : Stream R) past) room = some v) (hi : ∀ i ∈ is, i ≠ .forget room) :
    ∃ v', view (Run.finish step newStream (past ++ is)) room = some v' ∧
      Replays v (changesOf room (Run.emissions step out (Run.finish step newStream past) is)) v' := by
  rw [Run.finish_append]
  have hkept : Kept (Run.finish step (newStream : Stream R) past) := kept_finish past kept_newStream
  generalize Run.finish step (newStream : Stream R) past = s at hv hkept
  induction is generalizing s v with
  | nil => exact ⟨v, hv, rfl⟩
  | cons i is ih =>
    obtain ⟨v₁, hv₁, hfirst⟩ := step_replays hkept hv (hi i List.mem_cons_self)
    obtain ⟨v', hv', hrest⟩ := ih (fun j hj => hi j (List.mem_cons_of_mem i hj)) _ hv₁ (step_kept hkept i)
    refine ⟨v', hv', ?_⟩
    rw [Run.emissions, changesOf, List.filter_append, List.map_append]
    exact hfirst.append hrest

/-- One camera in a kitchen. -/
def kitchen (occupied : Bool) (health : String) : RoomState ℚ :=
  ⟨"kitchen", occupied, 1, none, [⟨"camera", "cam-ana", occupied, 1, 0, health, none, 1, none⟩], [], [], none, "", "",
    .room, 50, none⟩

theorem replays_run_kitchen : ∃ v', view (Run.finish step newStream ([.observe "" (kitchen true "fresh")] ++
      [.observe "" (kitchen false "dead")])) "kitchen" = some v' ∧
    Replays ⟨true, none, .room, {"camera 1"}, false⟩ (changesOf "kitchen" (Run.emissions step out
      (Run.finish step newStream [.observe "" (kitchen true "fresh")]) [.observe "" (kitchen false "dead")])) v' :=
  replays_run [.observe "" (kitchen true "fresh")] [.observe "" (kitchen false "dead")] (by decide +kernel)
    fun i hi => by
      obtain rfl := List.mem_singleton.mp hi
      exact fun h => by cases h

end

end Wavr.SpatialEvents
