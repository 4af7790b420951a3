import Mathlib.Data.Finset.Insert
import Mathlib.Data.List.Sort
import Wavr.HouseMapGate
import Wavr.PathSearch

/-!
# Which rooms touch which

`derive_adjacency`, `TopologyStore`, `build_graph` and `shortest_path` of `topology.py`. Rooms are
adjacent where their outlines nearly touch on one level, or where the operator said so.
-/

namespace Wavr.Topology

open HouseMap (Python fieldsOf getD iter truthy)
open Json (get)

/-- A link of the graph, or what the operator said of one. -/
inductive Link
  | inferred
  | declared
  | cut
  deriving DecidableEq

section
variable {F : Type}

abbrev Outline (F : Type) := List (F × F)

/-- What is not written out here. -/
structure Geometry (F : Type) where
  /-- `_polygon_gap(a, b) <= touch_m`. -/
  touches : Outline F → Outline F → Bool
  /-- `int(x)`, `int(s)` and `float(s)`; `none` is the ValueError. -/
  intOfFloat : F → Except Raised ℤ
  intOfStr : String → Option ℤ
  floatOfStr : String → Option F

variable (py : Python F) (geo : Geometry F)

/-! ## From the house map -/

/-- What `except (TypeError, ValueError)` catches. -/
def caught (e : HouseMap.Fault) : Bool := e = .raised .typeError ∨ e = .raised .valueError

/-- `int(v)`. -/
def toInt : Json F → Except HouseMap.Fault ℤ
  | .int n => .ok n
  | .bool b => .ok (if b then 1 else 0)
  | .float x => match geo.intOfFloat x with
    | .ok n => .ok n
    | .error e => .error (.raised e)
  | .str s => match geo.intOfStr s with
    | some n => .ok n
    | none => .error (.raised .valueError)
  | _ => .error (.raised .typeError)

/-- `float(v)`. -/
def toFloat (v : Json F) : Except HouseMap.Fault F := HouseMap.floatOf py geo.floatOfStr v

/-- `x, y = p`, as doubles. -/
def toPoint (p : Json F) : Except HouseMap.Fault (F × F) := do
  match ← iter p with
  | [x, y] => do
    let x ← toFloat py geo x
    let y ← toFloat py geo y
    return (x, y)
  | _ => .error (.raised .valueError)

/-- A room with a name and an outline; anything else is passed over. -/
def roomEntry (v : Json F) : Except HouseMap.Fault (Option (String × Outline F)) := do
  let r ← fieldsOf v
  match get r "name", get r "polygon" with
  | .str name, .arr poly =>
    if name ≠ "" ∧ 3 ≤ poly.length then
      match poly.mapM (toPoint py geo) with
      | .ok outline => .ok (some (name, outline))
      | .error e => if caught e then .ok none else .error e
    else .ok none
  | _, _ => .ok none

def addFloor (out : Dict ℤ (List (String × Outline F))) (v : Json F) :
    Except HouseMap.Fault (Dict ℤ (List (String × Outline F))) := do
  let f ← fieldsOf v
  match toInt geo (getD f "level" (.int 0)) with
  | .error e => if caught e then .ok out else .error e
  | .ok level => do
    let rooms ← iter (if truthy py (get f "rooms") then get f "rooms" else .arr [])
    let entries ← rooms.mapM (roomEntry py geo)
    return out.set level ((out.get? level).getD [] ++ entries.reduceOption)

/-- `_rooms_by_level`. -/
def roomsByLevel (house : List (String × Json F)) : Except HouseMap.Fault (Dict ℤ (List (String × Outline F))) :=
  match get house "floors" with
  | .arr floors => floors.foldlM (addFloor py geo) Dict.empty
  | _ => .ok Dict.empty

abbrev Adjacency := Dict String (Finset String)

/-- `adj[a].add(b)`. -/
def addNeighbour (adj : Adjacency) (a b : String) : Adjacency :=
  adj.set a (insert b ((adj.get? a).getD ∅))

/-- One room `a`, against one behind it. -/
def linkPair (a : String × Outline F) (adj : Adjacency) (b : String × Outline F) : Adjacency :=
  let adj := adj.setDefault b.1 ∅
  if geo.touches a.2 b.2 then addNeighbour (addNeighbour adj a.1 b.1) b.1 a.1 else adj

/-- The rooms of one level. -/
def linkRooms (adj : Adjacency) : List (String × Outline F) → Adjacency
  | [] => adj
  | a :: rest => linkRooms (rest.foldl (linkPair geo a) (adj.setDefault a.1 ∅)) rest

def deriveAdjacency (house : List (String × Json F)) : Except HouseMap.Fault Adjacency := do
  let levels ← roomsByLevel py geo house
  return levels.values.foldl (linkRooms geo) Dict.empty

/-! ## What the operator said -/

structure Override where
  roomA : String
  roomB : String
  kind : Link
  note : String

/-- The table, by its primary key. -/
abbrev Store := Dict (String × String) (Link × String)

/-- `_pair`. -/
def pair (a b : String) : String × String := if a ≤ b then (a, b) else (b, a)

inductive Call
  | declare (a b : String) (connected : Bool) (note : String)
  | clear (a b : String)

def declare (s : Store) (a b : String) (connected : Bool) (note : String) : Except Raised (Override × Store) :=
  if a = "" ∨ b = "" ∨ a = b then .error .valueError
  else
    let kind := if connected then Link.declared else .cut
    let note := Text.truncate 200 note
    .ok (⟨(pair a b).1, (pair a b).2, kind, note⟩, s.set (pair a b) (kind, note))

/-- Whether a row was dropped, and the table without it. -/
def clear (s : Store) (a b : String) : Bool × Store := ((s.get? (pair a b)).isSome, s.erase (pair a b))

def step (s : Store) : Call → Store
  | .declare a b connected note => match declare s a b connected note with
    | .ok (_, s') => s'
    | .error _ => s
  | .clear a b => (clear s a b).2

/-- `ORDER BY room_a, room_b`. -/
def overrides (s : Store) : List Override :=
  (s.entries.insertionSort fun e e' => e.1.1 < e'.1.1 ∨ e.1.1 = e'.1.1 ∧ e.1.2 ≤ e'.1.2).map fun e =>
    ⟨e.1.1, e.1.2, e.2.1, e.2.2⟩

/-! ## The graph -/

abbrev Links := Dict String (Dict String Link)

/-- `graph[a][b] = kind`, or `graph[a].pop(b, None)`. -/
def setLink (graph : Links) (a b : String) (kind : Option Link) : Links :=
  let links := (graph.get? a).getD Dict.empty
  graph.set a (match kind with
    | some kind => links.set b kind
    | none => links.erase b)

def applyOverride (graph : Links) (row : Override) : Links :=
  if row.roomA = "" ∨ row.roomB = "" then graph
  else
    let graph := (graph.setDefault row.roomA Dict.empty).setDefault row.roomB Dict.empty
    match row.kind with
    | .cut => setLink (setLink graph row.roomA row.roomB none) row.roomB row.roomA none
    | .declared => setLink (setLink graph row.roomA row.roomB (some .declared)) row.roomB row.roomA (some .declared)
    | .inferred => graph

/-- `{n: LINK_INFERRED for n in neighbours}`. -/
def inferred (neighbours : Finset String) : Dict String Link :=
  (Text.sortedSet neighbours).foldl (fun d n => d.set n .inferred) Dict.empty

def buildGraph (house : List (String × Json F)) (rows : List Override) : Except HouseMap.Fault Links := do
  let adj ← deriveAdjacency py geo house
  return rows.foldl applyOverride (adj.mapValues inferred)

/-- The neighbours of a room as the search walks them. -/
def neighbours (graph : Links) (room : String) : List String :=
  ((graph.get? room).getD Dict.empty).keys.insertionSort (· ≤ ·)

theorem mem_neighbours {graph : Links} {a b : String} :
    b ∈ neighbours graph a ↔ ∃ links, graph.get? a = some links ∧ b ∈ links.keys := by
  rw [neighbours, List.mem_insertionSort]
  cases graph.get? a with
  | none => simp [Dict.empty, Dict.keys]
  | some links => simp

def rooms (graph : Links) : PathSearch.Graph String where
  nodes := graph.values.flatMap Dict.keys
  next := neighbours graph
  closed a b h := by
    obtain ⟨links, hlinks, hb⟩ := mem_neighbours.mp h
    exact List.mem_flatMap.mpr ⟨links, Dict.mem_values.mpr ⟨a, hlinks⟩, hb⟩

def shortestPath (graph : Links) (start goal : String) : Option (List String) :=
  if start = goal then some [start]
  else if (graph.get? start).isNone ∨ (graph.get? goal).isNone then none
  else PathSearch.shortestPath (rooms graph) start goal

/-! ## Statements -/

/-- The kind of a link, where there is one. -/
def kind (graph : Links) (a b : String) : Option Link := (graph.get? a).bind (·.get? b)

/-- Whether a call says something of the two rooms. -/
def concerns (a b : String) : Call → Bool
  | .declare x y _ _ => x ≠ "" ∧ y ≠ "" ∧ x ≠ y ∧ pair x y = pair a b
  | .clear x y => pair x y = pair a b

/-- What the operator last said of two rooms, and has not taken back. -/
def said (calls : List Call) (a b : String) : Option Link :=
  match calls.reverse.find? (concerns a b) with
  | some (.declare _ _ connected _) => some (if connected then .declared else .cut)
  | _ => none

/-- A coordinate of an accepted polygon. -/
def coordinate : Json F → F
  | .int n => py.ofInt n
  | .float x => x
  | _ => py.ofInt 0

def toPair : Json F → F × F
  | .arr [x, y] => (coordinate py x, coordinate py y)
  | _ => (py.ofInt 0, py.ofInt 0)

/-- A room of an accepted floor, unless it has no name. -/
def entryOf (r : List (String × Json F)) : Option (String × Outline F) :=
  match get r "name", get r "polygon" with
  | .str name, .arr poly => if name ≠ "" then some (name, poly.map (toPair py)) else none
  | _, _ => none

def drawn (f : List (String × Json F)) : List (String × Outline F) := (HouseMap.roomList f).filterMap (entryOf py)

def DrawnOn (house : List (String × Json F)) (level : ℤ) (name : String) : Prop :=
  ∃ f ∈ HouseMap.floorList house, get f "level" = .int level ∧ ∃ outline, (name, outline) ∈ drawn py f

/-- Two of the rooms, the one before the other, have these names, and their outlines nearly touch. -/
def Touching (rooms : List (String × Outline F)) (a b : String) : Prop :=
  ∃ r r', [r, r'].Sublist rooms ∧ geo.touches r.2 r'.2 = true ∧ (r.1 = a ∧ r'.1 = b ∨ r.1 = b ∧ r'.1 = a)

/-- Rooms of these names touch on one floor. -/
def Touch (house : List (String × Json F)) (a b : String) : Prop :=
  ∃ f ∈ HouseMap.floorList house, Touching geo (drawn py f) a b

def UsesDeclared (graph : Links) (path : List String) : Prop :=
  ∃ pre a b post, path = pre ++ a :: b :: post ∧ kind graph a b = some .declared

/-- What the graph promises. Two rooms on different levels are any two that are drawn, or, `apart`,
two that have different names. -/
structure Lawful (apart : Bool) (house : List (String × Json F)) (calls : List Call) (graph : Links) : Prop where
  symm : ∀ a b, kind graph a b = kind graph b a
  no_self : ∀ a, kind graph a a = none
  declared : ∀ a b, kind graph a b = some .declared ↔ said calls a b = some .declared
  cut : ∀ a b, said calls a b = some .cut → kind graph a b = none
  floors : ∀ l l' n n' path, DrawnOn py house l n → DrawnOn py house l' n' → l ≠ l' → (apart = true → n ≠ n') →
    shortestPath graph n n' = some path → UsesDeclared graph path

/-- No two rooms of one name touch on one floor, and no name is drawn on two levels, unless rooms
are `apart` and the operator has said something of all that touches the name. -/
def Tidy (apart : Bool) (house : List (String × Json F)) (calls : List Call) : Prop :=
  (∀ a, ¬ Touch py geo house a a) ∧
    ∀ n l l', DrawnOn py house l n → DrawnOn py house l' n → l ≠ l' →
      apart = true ∧ ∀ m, m ≠ n → Touch py geo house n m → (said calls n m).isSome

/-! ## The links of the map -/

section
variable {geo}

theorem Touching.symm {rooms : List (String × Outline F)} {a b : String} (h : Touching geo rooms a b) :
    Touching geo rooms b a := by
  obtain ⟨r, r', hsub, htouch, hnames⟩ := h
  exact ⟨r, r', hsub, htouch, hnames.symm⟩

def Linked (adj : Adjacency) (x y : String) : Prop := y ∈ (adj.get? x).getD ∅

theorem linked_setDefault {adj : Adjacency} {a x y : String} :
    Linked (adj.setDefault a ∅) x y ↔ Linked adj x y := by
  unfold Linked Dict.setDefault
  split_ifs with h
  · rfl
  · rw [Dict.get?_set]
    split_ifs with hx
    · rw [hx, Option.not_isSome_iff_eq_none.mp h]
      rfl
    · rfl

theorem linked_addNeighbour {adj : Adjacency} {a b x y : String} :
    Linked (addNeighbour adj a b) x y ↔ x = a ∧ y = b ∨ Linked adj x y := by
  unfold Linked addNeighbour
  rw [Dict.get?_set]
  split_ifs with hx
  · rw [Option.getD_some, Finset.mem_insert, hx]
    simp
  · simp [hx]

theorem linked_linkPair {adj : Adjacency} {a b : String × Outline F} {x y : String} :
    Linked (linkPair geo a adj b) x y ↔
      Linked adj x y ∨ geo.touches a.2 b.2 = true ∧ (a.1 = x ∧ b.1 = y ∨ a.1 = y ∧ b.1 = x) := by
  unfold linkPair
  dsimp only
  split_ifs with htouch
  · rw [linked_addNeighbour, linked_addNeighbour, linked_setDefault]
    constructor
    · rintro (⟨rfl, rfl⟩ | ⟨rfl, rfl⟩ | hold)
      · exact .inr ⟨htouch, .inr ⟨rfl, rfl⟩⟩
      · exact .inr ⟨htouch, .inl ⟨rfl, rfl⟩⟩
      · exact .inl hold
    · rintro (hold | ⟨-, ⟨rfl, rfl⟩ | ⟨rfl, rfl⟩⟩)
      · exact .inr (.inr hold)
      · exact .inr (.inl ⟨rfl, rfl⟩)
      · exact .inl ⟨rfl, rfl⟩
  · rw [linked_setDefault]
    exact (or_iff_left fun h => htouch h.1).symm

theorem linked_foldl_linkPair {a : String × Outline F} {rest : List (String × Outline F)} {adj : Adjacency}
    {x y : String} : Linked (rest.foldl (linkPair geo a) adj) x y ↔
      Linked adj x y ∨ ∃ b ∈ rest, geo.touches a.2 b.2 = true ∧ (a.1 = x ∧ b.1 = y ∨ a.1 = y ∧ b.1 = x) := by
  induction rest generalizing adj with
  | nil => simp
  | cons b rest ih => rw [List.foldl_cons, ih, linked_linkPair, List.exists_mem_cons_iff, or_assoc]

theorem linked_linkRooms {rooms : List (String × Outline F)} {adj : Adjacency} {x y : String} :
    Linked (linkRooms geo adj rooms) x y ↔ Linked adj x y ∨ Touching geo rooms x y := by
  induction rooms generalizing adj with
  | nil =>
    refine (or_iff_left ?_).symm
    rintro ⟨r, r', hsub, -⟩
    exact absurd hsub (by simp)
  | cons a rest ih =>
    rw [linkRooms, ih, linked_foldl_linkPair, linked_setDefault, or_assoc]
    refine or_congr_right ?_
    constructor
    · rintro (⟨b, hb, htouch, hnames⟩ | ⟨r, r', hsub, htouch, hnames⟩)
      · exact ⟨a, b, (List.singleton_sublist.mpr hb).cons_cons a, htouch, hnames⟩
      · exact ⟨r, r', hsub.cons a, htouch, hnames⟩
    · rintro ⟨r, r', hsub, htouch, hnames⟩
      cases hsub with
      | cons _ hsub => exact .inr ⟨r, r', hsub, htouch, hnames⟩
      | cons_cons _ hsub => exact .inl ⟨r', List.singleton_sublist.mp hsub, htouch, hnames⟩

theorem linked_foldl_linkRooms {levels : List (List (String × Outline F))} {adj : Adjacency} {x y : String} :
    Linked (levels.foldl (linkRooms geo) adj) x y ↔
      Linked adj x y ∨ ∃ rooms ∈ levels, Touching geo rooms x y := by
  induction levels generalizing adj with
  | nil => simp
  | cons rooms levels ih => rw [List.foldl_cons, ih, linked_linkRooms, List.exists_mem_cons_iff, or_assoc]

end

end

/-! ## The operator's word on top -/

theorem get?_inferred {s : Finset String} {n : String} :
    (inferred s).get? n = if n ∈ s then some .inferred else none := by
  have hloop : ∀ (l : List String) (d : Dict String Link),
      (l.foldl (fun d n => d.set n .inferred) d).get? n = if n ∈ l then some .inferred else d.get? n := by
    intro l
    induction l with
    | nil => simp
    | cons m l ih =>
      intro d
      rw [List.foldl_cons, ih, Dict.get?_set]
      by_cases hn : n = m <;> simp [hn]
  rw [inferred, hloop]
  simp only [Text.sortedSet, Finset.mem_sort]
  rfl

theorem kind_setDefault {graph : Links} {r a b : String} :
    kind (graph.setDefault r Dict.empty) a b = kind graph a b := by
  unfold kind
  rw [Dict.get?_setDefault]
  split_ifs with ha
  · rw [ha]
    cases graph.get? r <;> rfl
  · rfl

theorem kind_setLink {graph : Links} {x y a b : String} {k : Option Link} :
    kind (setLink graph x y k) a b = if a = x ∧ b = y then k else kind graph a b := by
  unfold kind setLink
  rw [Dict.get?_set]
  by_cases ha : a = x
  · rw [if_pos ha, ha, Option.bind_some]
    cases k with
    | some k =>
      rw [Dict.get?_set]
      cases graph.get? x <;> simp
    | none =>
      rw [Dict.get?_erase]
      cases graph.get? x <;> simp
  · rw [if_neg ha, if_neg fun h => ha h.1]

/-- A link, once a row says `k` of it. -/
def overridden (k : Option Link) (old : Option Link) : Option Link :=
  match k with
  | some .declared => some .declared
  | some .cut => none
  | _ => old

/-- A row as the table keeps it. -/
def Kept (ab : String × String) : Prop := ab.1 ≠ "" ∧ ab.2 ≠ "" ∧ ab.1 ≠ ab.2 ∧ pair ab.1 ab.2 = ab

theorem pair_comm (a b : String) : pair a b = pair b a := by
  unfold pair
  rcases lt_trichotomy a b with h | rfl | h
  · rw [if_pos h.le, if_neg h.not_ge]
  · rfl
  · rw [if_neg h.not_ge, if_pos h.le]

theorem pair_eq_or (a b : String) : pair a b = (a, b) ∨ pair a b = (b, a) := by
  unfold pair
  split_ifs
  · exact .inl rfl
  · exact .inr rfl

theorem pair_eq_iff {a b : String} {ab : String × String} (h : Kept ab) :
    pair a b = ab ↔ a = ab.1 ∧ b = ab.2 ∨ a = ab.2 ∧ b = ab.1 := by
  obtain ⟨x, y⟩ := ab
  constructor
  · intro hpair
    rcases pair_eq_or a b with h' | h'
    · exact .inl (Prod.mk.inj (h'.symm.trans hpair))
    · obtain ⟨hb, ha⟩ := Prod.mk.inj (h'.symm.trans hpair)
      exact .inr ⟨ha, hb⟩
  · rintro (⟨rfl, rfl⟩ | ⟨rfl, rfl⟩)
    · exact h.2.2.2
    · exact (pair_comm _ _).trans h.2.2.2

def rowOf (e : (String × String) × (Link × String)) : Override := ⟨e.1.1, e.1.2, e.2.1, e.2.2⟩

theorem kind_applyOverride {graph : Links} {e : (String × String) × (Link × String)} (h : Kept e.1)
    {a b : String} : kind (applyOverride graph (rowOf e)) a b =
      if pair a b = e.1 then overridden (some e.2.1) (kind graph a b) else kind graph a b := by
  obtain ⟨⟨x, y⟩, k, note⟩ := e
  have hnames : ¬ (x = "" ∨ y = "") := fun hempty => hempty.elim h.1 h.2.1
  rw [applyOverride, rowOf, if_neg hnames]
  simp only [pair_eq_iff h]
  cases k with
  | inferred => simp only [kind_setDefault, overridden, ite_self]
  | declared =>
    simp only [kind_setLink, kind_setDefault, overridden]
    split_ifs <;> tauto
  | cut =>
    simp only [kind_setLink, kind_setDefault, overridden]
    split_ifs <;> tauto

/-- Rows about other rooms change nothing. -/
theorem kind_foldl_applyOverride_of_notMem {rows : List ((String × String) × (Link × String))}
    (hkept : ∀ e ∈ rows, Kept e.1) {a b : String} (h : pair a b ∉ rows.map Prod.fst) {graph : Links} :
    kind ((rows.map rowOf).foldl applyOverride graph) a b = kind graph a b := by
  induction rows generalizing graph with
  | nil => rfl
  | cons e rows ih =>
    obtain ⟨he, hkept⟩ := List.forall_mem_cons.mp hkept
    obtain ⟨hfirst, hrows⟩ := not_or.mp fun hor => h (List.mem_cons.mpr hor)
    rw [List.map_cons, List.foldl_cons, ih hkept hrows, kind_applyOverride he, if_neg hfirst]

/-- The one row about the two rooms decides. -/
theorem kind_foldl_applyOverride_of_mem {rows : List ((String × String) × (Link × String))}
    (hkept : ∀ e ∈ rows, Kept e.1) (hn : (rows.map Prod.fst).Nodup) {a b : String} {v : Link × String}
    (h : (pair a b, v) ∈ rows) {graph : Links} :
    kind ((rows.map rowOf).foldl applyOverride graph) a b = overridden (some v.1) (kind graph a b) := by
  induction rows generalizing graph with
  | nil => cases h
  | cons e rows ih =>
    obtain ⟨he, hothers⟩ := List.forall_mem_cons.mp hkept
    obtain ⟨hfirst, hdistinct⟩ := List.nodup_cons.mp hn
    rw [List.map_cons, List.foldl_cons]
    rcases List.mem_cons.mp h with rfl | hrest
    · rw [kind_foldl_applyOverride_of_notMem hothers hfirst, kind_applyOverride he, if_pos rfl]
    · have hne : pair a b ≠ e.1 := fun heq => hfirst (List.mem_map.mpr ⟨_, hrest, heq⟩)
      rw [ih hothers hdistinct hrest, kind_applyOverride he, if_neg hne]

/-! ## The table over a run -/

def KeptAll (s : Store) : Prop := ∀ ab v, s.get? ab = some v → Kept ab

theorem kept_pair {a b : String} (ha : a ≠ "") (hb : b ≠ "") (hab : a ≠ b) : Kept (pair a b) := by
  rcases pair_eq_or a b with h | h
  · exact h ▸ ⟨ha, hb, hab, h⟩
  · exact h ▸ ⟨hb, ha, hab.symm, (pair_comm b a).trans h⟩

theorem KeptAll.step {s : Store} (h : KeptAll s) (c : Call) : KeptAll (step s c) := by
  intro ab v hv
  cases c with
  | declare a b connected note =>
    by_cases hbad : a = "" ∨ b = "" ∨ a = b
    · rw [Topology.step, declare, if_pos hbad] at hv
      exact h ab v hv
    · rw [Topology.step, declare, if_neg hbad] at hv
      dsimp only at hv
      simp only [not_or] at hbad
      by_cases hab : ab = pair a b
      · exact hab ▸ kept_pair hbad.1 hbad.2.1 hbad.2.2
      · rw [Dict.get?_set, if_neg hab] at hv
        exact h ab v hv
  | clear a b =>
    rw [Topology.step, clear, Dict.get?_erase] at hv
    split_ifs at hv with hab
    exact h ab v hv

theorem keptAll_foldl (calls : List Call) {s : Store} (h : KeptAll s) : KeptAll (calls.foldl step s) := by
  induction calls generalizing s with
  | nil => exact h
  | cons c calls ih => exact ih (h.step c)

theorem said_append (calls : List Call) (c : Call) (a b : String) : said (calls ++ [c]) a b =
    if concerns a b c then (match c with
      | .declare _ _ connected _ => some (if connected then .declared else .cut)
      | .clear _ _ => none) else said calls a b := by
  unfold said
  rw [List.reverse_append, List.reverse_singleton, List.singleton_append, List.find?_cons]
  cases hc : concerns a b c with
  | true => cases c <;> rfl
  | false => rfl

theorem get?_step {s : Store} {c : Call} {a b : String} : ((step s c).get? (pair a b)).map Prod.fst =
    if concerns a b c then (match c with
      | .declare _ _ connected _ => some (if connected then .declared else .cut)
      | .clear _ _ => none) else (s.get? (pair a b)).map Prod.fst := by
  cases c with
  | declare x y connected note =>
    rw [step, declare, concerns]
    by_cases hbad : x = "" ∨ y = "" ∨ x = y
    · rw [if_pos hbad, if_neg]
      simp only [decide_eq_true_iff]
      tauto
    · rw [if_neg hbad]
      dsimp only
      rw [Dict.get?_set]
      simp only [not_or] at hbad
      by_cases hpair : pair a b = pair x y
      · rw [if_pos hpair, if_pos (decide_eq_true ⟨hbad.1, hbad.2.1, hbad.2.2, hpair.symm⟩)]
        rfl
      · rw [if_neg hpair, if_neg]
        simp only [decide_eq_true_iff]
        exact fun h => hpair h.2.2.2.symm
  | clear x y =>
    rw [step, clear, concerns, Dict.get?_erase]
    by_cases hpair : pair a b = pair x y
    · rw [if_pos hpair, if_pos (decide_eq_true hpair.symm)]
      rfl
    · rw [if_neg hpair, if_neg (by simpa using fun h : pair x y = pair a b => hpair h.symm)]

/-- What the table keeps of two rooms is what was last said. -/
theorem get?_foldl_step (calls : List Call) (a b : String) :
    ((calls.foldl step Dict.empty).get? (pair a b)).map Prod.fst = said calls a b := by
  induction calls using List.reverseRecOn with
  | nil => rfl
  | append_singleton calls c ih =>
    rw [List.foldl_append, List.foldl_cons, List.foldl_nil, get?_step, said_append, ih]

theorem kind_overrides (calls : List Call) (graph : Links) (a b : String) :
    kind ((overrides (calls.foldl step Dict.empty)).foldl applyOverride graph) a b =
      overridden (said calls a b) (kind graph a b) := by
  let s := calls.foldl step Dict.empty
  let sorted := s.entries.insertionSort fun e e' => e.1.1 < e'.1.1 ∨ e.1.1 = e'.1.1 ∧ e.1.2 ≤ e'.1.2
  have hperm : sorted.Perm s.entries := List.perm_insertionSort _ _
  have hnodup : (sorted.map Prod.fst).Nodup := (hperm.map Prod.fst).nodup_iff.mpr s.nodup
  have hkept : ∀ e ∈ sorted, Kept e.1 := fun e he =>
    keptAll_foldl calls (fun _ _ h => (by cases h)) e.1 e.2 (Dict.mem_entries.mp (hperm.mem_iff.mp he))
  have hmem : ∀ v, (pair a b, v) ∈ sorted ↔ s.get? (pair a b) = some v := fun v =>
    hperm.mem_iff.trans Dict.mem_entries
  show kind ((sorted.map rowOf).foldl applyOverride graph) a b = _
  rw [← get?_foldl_step calls a b]
  cases hrow : s.get? (pair a b) with
  | some v => exact kind_foldl_applyOverride_of_mem hkept hnodup ((hmem v).mpr hrow)
  | none =>
    refine kind_foldl_applyOverride_of_notMem hkept fun hin => ?_
    obtain ⟨⟨ab, v⟩, hin, rfl⟩ := List.mem_map.mp hin
    cases hrow.symm.trans ((hmem v).mp hin)

/-! ## The map behind the gate -/

section
variable {F : Type} {py : Python F} {geo : Geometry F}

theorem toFloat_of_finite {v : Json F} (h : HouseMap.finite py v = true) :
    toFloat py geo v = .ok (coordinate py v) := by
  cases v with
  | int n =>
    have hfits : HouseMap.fits n = true := h
    simp only [toFloat, HouseMap.floatOf, HouseMap.widen, hfits, coordinate, if_pos]
  | float x => rfl
  | _ => cases h

theorem toPoint_of_point {p : Json F} (h : HouseMap.point py p = true) :
    toPoint py geo p = .ok (toPair py p) := by
  unfold HouseMap.point at h
  split at h
  · rename_i x y
    obtain ⟨hx, hy⟩ := Bool.and_eq_true_iff.mp h
    simp only [toPoint, HouseMap.iter, bind, Except.bind, toFloat_of_finite hx, toFloat_of_finite hy, toPair]
    rfl
  · cases h

theorem mapM_toPoint {ps : List (Json F)} (h : ps.all (HouseMap.point py) = true) :
    ps.mapM (toPoint py geo) = .ok (ps.map (toPair py)) := by
  induction ps with
  | nil => rfl
  | cons p ps ih =>
    rw [List.all_cons, Bool.and_eq_true_iff] at h
    rw [List.mapM_cons, toPoint_of_point h.1, ih h.2]
    rfl

theorem roomEntry_of_roomOk {r : List (String × Json F)} (h : HouseMap.RoomOk py r) :
    roomEntry py geo (.obj r) = .ok (entryOf py r) := by
  obtain ⟨ps, hpoly, hmin, -, hpoints⟩ := h.polygon
  have hname := h.name
  simp only [roomEntry, HouseMap.fieldsOf, bind, Except.bind, entryOf, hpoly]
  cases hget : get r "name" with
  | str name =>
    by_cases hempty : name = ""
    · simp [hempty]
    · simp only [mapM_toPoint hpoints, ne_eq, hempty, not_false_eq_true, hmin, and_self, if_true]
  | _ => rfl

theorem mapM_roomEntry {rs : List (List (String × Json F))} (h : ∀ r ∈ rs, HouseMap.RoomOk py r) :
    (rs.map Json.obj).mapM (roomEntry py geo) = .ok (rs.map (entryOf py)) := by
  induction rs with
  | nil => rfl
  | cons r rs ih =>
    obtain ⟨hr, hrs⟩ := List.forall_mem_cons.mp h
    rw [List.map_cons, List.mapM_cons, roomEntry_of_roomOk hr, ih hrs]
    rfl

/-- `floor.get("rooms") or []` is the list of rooms either way. -/
theorem iter_rooms {f : List (String × Json F)} (h : HouseMap.FloorOk py f) :
    iter (if truthy py (get f "rooms") then get f "rooms" else .arr []) =
      .ok ((HouseMap.roomList f).map Json.obj) := by
  have hrooms := h.rooms
  unfold getD at hrooms
  unfold Json.get
  cases hget : f.lookup "rooms" with
  | none =>
    rw [hget] at hrooms
    rw [← Json.arr.inj hrooms]
    rfl
  | some v =>
    rw [hget] at hrooms
    have hv : v = .arr ((HouseMap.roomList f).map Json.obj) := hrooms
    rw [hv]
    cases hlist : (HouseMap.roomList f).map Json.obj with
    | nil => rfl
    | cons r rs => rfl

theorem addFloor_of_floorOk {f : List (String × Json F)} (h : HouseMap.FloorOk py f) {level : ℤ}
    (hlevel : get f "level" = .int level) {out : Dict ℤ (List (String × Outline F))}
    (hnew : out.get? level = none) :
    addFloor py geo out (.obj f) = .ok (out.set level (drawn py f)) := by
  have hint : getD f "level" (.int 0) = .int level := by
    unfold Json.get at hlevel
    unfold getD
    cases hget : f.lookup "level" with
    | none =>
      rw [hget] at hlevel
      cases hlevel
    | some v =>
      rw [hget] at hlevel
      exact hlevel
  have hdrawn : ((HouseMap.roomList f).map (entryOf py)).reduceOption = drawn py f := List.filterMap_map
  simp only [addFloor, HouseMap.fieldsOf, bind, Except.bind, hint, toInt, iter_rooms h,
    mapM_roomEntry h.rooms_ok, hnew, hdrawn]
  rfl

theorem foldlM_addFloor {fs : List (List (String × Json F))} (hok : ∀ f ∈ fs, HouseMap.FloorOk py f)
    (hdistinct : fs.Pairwise fun f g => get f "level" ≠ get g "level")
    {out : Dict ℤ (List (String × Outline F))}
    (hnew : ∀ f ∈ fs, ∀ level, get f "level" = .int level → out.get? level = none) :
    ∃ out', (fs.map Json.obj).foldlM (addFloor py geo) out = .ok out' ∧
      out'.values = out.values ++ fs.map (drawn py) := by
  induction fs generalizing out with
  | nil => exact ⟨out, rfl, (List.append_nil _).symm⟩
  | cons f fs ih =>
    obtain ⟨hf, hfs⟩ := List.forall_mem_cons.mp hok
    obtain ⟨hother, hrest⟩ := List.pairwise_cons.mp hdistinct
    obtain ⟨hnewf, hnewfs⟩ := List.forall_mem_cons.mp hnew
    obtain ⟨level, hlevel⟩ := hf.level
    have hfresh := hnewf level hlevel
    have hstill : ∀ g ∈ fs, ∀ l, get g "level" = .int l → (out.set level (drawn py f)).get? l = none := by
      intro g hg l hl
      have hne : l ≠ level := by
        rintro rfl
        exact hother g hg (hlevel.trans hl.symm)
      rw [Dict.get?_set, if_neg hne]
      exact hnewfs g hg l hl
    obtain ⟨out', hfold, hvalues⟩ := ih hfs hrest hstill
    refine ⟨out', ?_, ?_⟩
    · rw [List.map_cons, List.foldlM_cons, addFloor_of_floorOk hf hlevel hfresh]
      exact hfold
    · rw [hvalues, Dict.values_set_of_get?_eq_none hfresh, List.append_assoc]
      rfl

/-- A graph of the map: what touches on a floor, and on top of it what the operator said. -/
structure Effective (py : Python F) (geo : Geometry F) (house : List (String × Json F)) (calls : List Call)
    (graph : Links) : Prop where
  touching : ∀ {a b}, said calls a b = none → Touch py geo house a b → kind graph a b = some .inferred
  untouched : ∀ {a b}, said calls a b = none → ¬ Touch py geo house a b → kind graph a b = none
  declared : ∀ {a b}, said calls a b = some .declared → kind graph a b = some .declared
  cut : ∀ {a b}, said calls a b = some .cut → kind graph a b = none

theorem kind_mapValues_inferred {adj : Adjacency} {a b : String} :
    kind (adj.mapValues inferred) a b = if b ∈ (adj.get? a).getD ∅ then some .inferred else none := by
  rw [kind, Dict.get?_mapValues]
  cases adj.get? a with
  | none => rfl
  | some s => exact get?_inferred

/-- The gate lets a map through: the graph is built. -/
theorem exists_effective {doc : Json F} (h : HouseMap.validateHouseMap py doc = .ok ()) (calls : List Call) :
    ∃ house graph, doc = .obj house ∧
      buildGraph py geo house (overrides (calls.foldl step Dict.empty)) = .ok graph ∧
      (∀ f ∈ HouseMap.floorList house, ∃ level, get f "level" = .int level) ∧
      Effective py geo house calls graph := by
  obtain ⟨house, rfl, hfloors, hok, hdistinct⟩ := HouseMap.exists_of_accepted h
  have hempty : ∀ f ∈ HouseMap.floorList house, ∀ level, get f "level" = .int level →
      (Dict.empty : Dict ℤ (List (String × Outline F))).get? level = none := fun _ _ _ _ => rfl
  obtain ⟨levels, hfold, hvalues⟩ := @foldlM_addFloor _ _ geo _ hok hdistinct _ hempty
  let adj := levels.values.foldl (linkRooms geo) Dict.empty
  have hadj : deriveAdjacency py geo house = .ok adj := by
    simp only [deriveAdjacency, roomsByLevel, hfloors, hfold, bind, Except.bind]
    rfl
  have htouch : ∀ a b, b ∈ (adj.get? a).getD ∅ ↔ Touch py geo house a b := by
    intro a b
    refine linked_foldl_linkRooms.trans ?_
    rw [hvalues]
    simp [Linked, Touch, Dict.empty, Dict.values, Dict.get?]
  refine ⟨house, _, rfl, by rw [buildGraph, hadj]; rfl, fun f hf => (hok f hf).level, ?_⟩
  constructor
  · intro a b hsaid hab
    rw [kind_overrides, hsaid, kind_mapValues_inferred, if_pos ((htouch a b).mpr hab)]
    rfl
  · intro a b hsaid hab
    rw [kind_overrides, hsaid, kind_mapValues_inferred, if_neg fun hin => hab ((htouch a b).mp hin)]
    rfl
  · intro a b hsaid
    rw [kind_overrides, hsaid]
    rfl
  · intro a b hsaid
    rw [kind_overrides, hsaid]
    rfl

/-! ## The law -/

theorem said_comm (calls : List Call) (a b : String) : said calls a b = said calls b a := by
  rw [← get?_foldl_step, ← get?_foldl_step, pair_comm]

/-- No row says anything of a room and itself. -/
theorem said_self (calls : List Call) (a : String) : said calls a a = none := by
  rw [← get?_foldl_step, Option.map_eq_none_iff]
  by_contra hrow
  obtain ⟨v, hv⟩ := Option.ne_none_iff_exists'.mp hrow
  have hkept := keptAll_foldl calls (fun _ _ h => (by cases h)) _ v hv
  have hself : pair a a = (a, a) := if_pos le_rfl
  rw [hself] at hkept
  exact hkept.2.2.1 rfl

theorem said_ne_inferred (calls : List Call) (a b : String) : said calls a b ≠ some .inferred := by
  unfold said
  split
  · split_ifs <;> exact fun h => (by cases h)
  · exact fun h => (by cases h)

variable {house : List (String × Json F)} {calls : List Call} {graph : Links} {apart : Bool}

theorem Touch.symm {a b : String} (h : Touch py geo house a b) : Touch py geo house b a := by
  obtain ⟨f, hf, htouch⟩ := h
  exact ⟨f, hf, htouch.symm⟩

/-- What touches stands on one level, both of it. -/
theorem Touch.exists_level (hlevels : ∀ f ∈ HouseMap.floorList house, ∃ level, get f "level" = .int level)
    {a b : String} (h : Touch py geo house a b) : ∃ l, DrawnOn py house l a ∧ DrawnOn py house l b := by
  obtain ⟨f, hf, r, r', hsub, -, hnames⟩ := h
  obtain ⟨level, hlevel⟩ := hlevels f hf
  have hr : DrawnOn py house level r.1 :=
    ⟨f, hf, hlevel, r.2, hsub.subset List.mem_cons_self⟩
  have hr' : DrawnOn py house level r'.1 :=
    ⟨f, hf, hlevel, r'.2, hsub.subset (List.mem_cons_of_mem r List.mem_cons_self)⟩
  rcases hnames with ⟨rfl, rfl⟩ | ⟨rfl, rfl⟩
  · exact ⟨level, hr, hr'⟩
  · exact ⟨level, hr', hr⟩

namespace Effective

variable (hgraph : Effective py geo house calls graph)

include hgraph

theorem kind_comm (a b : String) : kind graph a b = kind graph b a := by
  cases hsaid : said calls a b with
  | none =>
    have hsaid' := (said_comm calls b a).trans hsaid
    by_cases htouch : Touch py geo house a b
    · rw [hgraph.touching hsaid htouch, hgraph.touching hsaid' htouch.symm]
    · rw [hgraph.untouched hsaid htouch, hgraph.untouched hsaid' fun h => htouch h.symm]
  | some k =>
    have hsaid' := (said_comm calls b a).trans hsaid
    cases k with
    | inferred => exact absurd hsaid (said_ne_inferred calls a b)
    | declared => rw [hgraph.declared hsaid, hgraph.declared hsaid']
    | cut => rw [hgraph.cut hsaid, hgraph.cut hsaid']

/-- A link that is not declared comes from the drawing. -/
theorem touch_of_kind {a b : String} {k : Link} (h : kind graph a b = some k) (hk : k ≠ .declared) :
    Touch py geo house a b ∧ said calls a b = none := by
  cases hsaid : said calls a b with
  | none =>
    refine ⟨?_, rfl⟩
    by_contra htouch
    cases h.symm.trans (hgraph.untouched hsaid htouch)
  | some k' =>
    cases k' with
    | inferred => exact absurd hsaid (said_ne_inferred calls a b)
    | declared => exact absurd (Option.some.inj (h.symm.trans (hgraph.declared hsaid))) hk
    | cut => cases h.symm.trans (hgraph.cut hsaid)

theorem declared_iff (a b : String) : kind graph a b = some .declared ↔ said calls a b = some .declared := by
  refine ⟨fun h => ?_, fun h => hgraph.declared h⟩
  cases hsaid : said calls a b with
  | none =>
    by_cases htouch : Touch py geo house a b
    · cases h.symm.trans (hgraph.touching hsaid htouch)
    · cases h.symm.trans (hgraph.untouched hsaid htouch)
  | some k =>
    cases k with
    | inferred => exact absurd hsaid (said_ne_inferred calls a b)
    | declared => rfl
    | cut => cases h.symm.trans (hgraph.cut hsaid)

end Effective

theorem mem_next {a b : String} : b ∈ (rooms graph).next a ↔ ∃ k, kind graph a b = some k := by
  refine mem_neighbours.trans ?_
  unfold kind
  cases graph.get? a with
  | none => simp
  | some links => simp [Dict.mem_keys, Option.isSome_iff_exists]

/-- One step over a link that is not declared. -/
def Undeclared (py : Python F) (geo : Geometry F) (house : List (String × Json F)) (calls : List Call)
    (a b : String) : Prop := Touch py geo house a b ∧ said calls a b = none

/-- Along links that are not declared a tidy map leaves no level. -/
theorem Tidy.drawnOn (h : Tidy py geo apart house calls)
    (hlevels : ∀ f ∈ HouseMap.floorList house, ∃ level, get f "level" = .int level) {l : ℤ} {a b : String}
    (hway : Relation.ReflTransGen (Undeclared py geo house calls) a b) (ha : DrawnOn py house l a) :
    DrawnOn py house l b := by
  induction hway with
  | refl => exact ha
  | @tail b c _ hstep ih =>
    obtain ⟨htouch, hsaid⟩ := hstep
    obtain ⟨l', hb, hc⟩ := htouch.exists_level hlevels
    by_cases hl : l = l'
    · exact hl ▸ hc
    · have hne : c ≠ b := by
        rintro rfl
        exact h.1 c htouch
      have hspoken := (h.2 b l l' ih hb hl).2 c hne htouch
      rw [hsaid] at hspoken
      cases hspoken

/-- Nor does it come to a room that is also drawn on another. -/
theorem Tidy.not_drawnOn (h : Tidy py geo apart house calls)
    (hlevels : ∀ f ∈ HouseMap.floorList house, ∃ level, get f "level" = .int level) {l l' : ℤ} {a b : String}
    (hway : Relation.ReflTransGen (Undeclared py geo house calls) a b) (hne : a ≠ b)
    (ha : DrawnOn py house l a) (hb : DrawnOn py house l' b) : l = l' := by
  by_contra hl
  have hbl := h.drawnOn hlevels hway ha
  rcases Relation.ReflTransGen.cases_tail hway with heq | ⟨c, -, htouch, hsaid⟩
  · exact hne heq.symm
  · have hc : c ≠ b := by
      rintro rfl
      exact h.1 c htouch
    have hspoken := (h.2 b l l' hbl hb hl).2 c hc htouch.symm
    rw [said_comm, hsaid] at hspoken
    cases hspoken

/-- A path without a declared link steps over undeclared ones only. -/
theorem Effective.undeclared (hgraph : Effective py geo house calls graph) {a b : String} {path : List String}
    (hway : PathSearch.Way (rooms graph) a b path) (h : ¬ UsesDeclared graph path) :
    Relation.ReflTransGen (Undeclared py geo house calls) a b := by
  have hchain : path.IsChain (Undeclared py geo house calls) := by
    rw [List.isChain_iff_forall_rel_of_append_cons_cons]
    intro x y pre post heq
    have hnext := List.isChain_iff_forall_rel_of_append_cons_cons.mp hway.steps heq
    obtain ⟨k, hk⟩ := mem_next.mp hnext
    refine hgraph.touch_of_kind hk fun hdeclared => h ⟨pre, x, y, post, heq, ?_⟩
    rw [hk, hdeclared]
  have hne : path ≠ [] := by
    rintro rfl
    cases hway.head
  have hfirst : path.head hne = a := by
    rw [List.head_eq_iff_head?_eq_some, hway.head]
  have hlast : path.getLast hne = b := by
    rw [List.getLast_eq_iff_getLast?_eq_some, hway.last]
  rw [← hfirst, ← hlast]
  exact List.relationReflTransGen_of_exists_isChain path hchain hne

theorem Effective.lawful (hgraph : Effective py geo house calls graph)
    (hlevels : ∀ f ∈ HouseMap.floorList house, ∃ level, get f "level" = .int level)
    (h : Tidy py geo apart house calls) : Lawful py apart house calls graph := by
  refine ⟨hgraph.kind_comm, fun a => hgraph.untouched (said_self calls a) (h.1 a), hgraph.declared_iff,
    fun a b => hgraph.cut, fun l l' n n' path hn hn' hl happart hpath => ?_⟩
  have hne : n ≠ n' := by
    rintro rfl
    exact happart (h.2 n l l' hn hn' hl).1 rfl
  rw [shortestPath, if_neg hne] at hpath
  split_ifs at hpath
  by_contra hdeclared
  have hway := PathSearch.way_of_shortestPath hpath
  exact hl (h.not_drawnOn hlevels (hgraph.undeclared hway hdeclared) hne hn hn')

/-- To a room it is linked with, a path of one step. -/
theorem shortestPath_of_kind {a b : String} {k k' : Link} (h : kind graph a b = some k)
    (h' : kind graph b a = some k') (hne : a ≠ b) : shortestPath graph a b = some [a, b] := by
  have hin : ∀ {x y : String} {k : Link}, kind graph x y = some k → (graph.get? x).isNone = false := by
    intro x y k hk
    cases hget : graph.get? x with
    | none =>
      rw [kind, hget] at hk
      cases hk
    | some links => rfl
  rw [shortestPath, if_neg hne, hin h, hin h', if_neg (by simp)]
  exact PathSearch.shortestPath_of_next (mem_next.mpr ⟨k, h⟩) hne.symm

theorem usesDeclared_pair {a b : String} (h : UsesDeclared graph [a, b]) : kind graph a b = some .declared := by
  obtain ⟨pre, x, y, post, heq, hkind⟩ := h
  rcases pre with _ | ⟨p, _ | ⟨q, pre⟩⟩
  · cases heq
    exact hkind
  · simp at heq
  · simp at heq

theorem Effective.tidy (hgraph : Effective py geo house calls graph)
    (hlevels : ∀ f ∈ HouseMap.floorList house, ∃ level, get f "level" = .int level)
    (h : Lawful py apart house calls graph) : Tidy py geo apart house calls := by
  refine ⟨fun a htouch => ?_, fun n l l' hn hn' hl => ⟨?_, fun m hm htouch => ?_⟩⟩
  · cases (h.no_self a).symm.trans (hgraph.touching (said_self calls a) htouch)
  · by_contra happart
    have hpath : shortestPath graph n n = some [n] := if_pos rfl
    obtain ⟨pre, a, b, post, heq, -⟩ := h.floors l l' n n [n] hn hn' hl (fun hap => absurd hap happart) hpath
    have hlen := congrArg List.length heq
    simp only [List.length_append, List.length_cons, List.length_nil] at hlen
    omega
  · by_contra hspoken
    have hsaid : said calls n m = none := Option.not_isSome_iff_eq_none.mp hspoken
    have hkind := hgraph.touching hsaid htouch
    have hpath := shortestPath_of_kind hkind ((hgraph.kind_comm m n).trans hkind) hm.symm
    obtain ⟨k, -, hmk⟩ := htouch.exists_level hlevels
    -- One of the two levels is not the one the rooms touch on.
    have huses : UsesDeclared graph [n, m] := by
      by_cases hlk : l = k
      · exact h.floors l' k n m _ hn' hmk (fun heq => hl (hlk.trans heq.symm)) (fun _ => hm.symm) hpath
      · exact h.floors l k n m _ hn hmk hlk (fun _ => hm.symm) hpath
    cases hkind.symm.trans (usesDeclared_pair huses)

/-- The graph keeps its promises exactly on tidy maps. -/
theorem graph_lawful_iff (py : Python F) (geo : Geometry F) {doc : Json F}
    (h : HouseMap.validateHouseMap py doc = .ok ()) (apart : Bool) (calls : List Call) :
    ∃ house graph, doc = .obj house ∧
      buildGraph py geo house (overrides (calls.foldl step Dict.empty)) = .ok graph ∧
      (Lawful py apart house calls graph ↔ Tidy py geo apart house calls) := by
  obtain ⟨house, graph, hdoc, hbuild, hlevels, hgraph⟩ := @exists_effective _ py geo _ h calls
  exact ⟨house, graph, hdoc, hbuild, hgraph.tidy hlevels, hgraph.lawful hlevels⟩

end

/-! ## A hall on two floors -/

/-- Every two outlines touch. -/
def allTouching : Geometry ℚ where
  touches _ _ := true
  intOfFloat x := .ok x.floor
  intOfStr _ := none
  floatOfStr _ := none

def oblong (x : ℤ) : Json ℚ :=
  .arr [.arr [.int x, .int 0], .arr [.int (x + 4), .int 0], .arr [.int (x + 4), .int 3], .arr [.int x, .int 3]]

def twoRooms (level : ℤ) (left right : String) : Json ℚ :=
  .obj [("id", .str (toString level)), ("name", .str (toString level)), ("level", .int level),
    ("rooms", .arr [.obj [("id", .str left), ("name", .str left), ("polygon", oblong 0)],
      .obj [("id", .str right), ("name", .str right), ("polygon", oblong 4)]])]

def twoHalls : List (String × Json ℚ) :=
  [("version", .int 2), ("units", .str "m"),
    ("floors", .arr [twoRooms 0 "kitchen" "hall", twoRooms 1 "hall" "bath"])]

theorem accepted_twoHalls : HouseMap.validateHouseMap (HouseMap.exact 452) (.obj twoHalls) = .ok () := by
  decide +kernel

theorem graph_lawful_twoHalls : ∃ house graph, Json.obj twoHalls = .obj house ∧
    buildGraph (HouseMap.exact 452) allTouching house
      (overrides ([.declare "hall" "bath" true "stairs"].foldl step Dict.empty)) = .ok graph ∧
    (Lawful (HouseMap.exact 452) true house [.declare "hall" "bath" true "stairs"] graph ↔
      Tidy (HouseMap.exact 452) allTouching true house [.declare "hall" "bath" true "stairs"]) :=
  graph_lawful_iff (HouseMap.exact 452) allTouching accepted_twoHalls true _

/-- The graph of `twoHalls`. -/
def throughTheHall : Links :=
  ⟨[("kitchen", ⟨[("hall", .inferred)], by decide⟩),
    ("hall", ⟨[("bath", .inferred), ("kitchen", .inferred)], by decide⟩),
    ("bath", ⟨[("hall", .inferred)], by decide⟩)], by decide⟩

theorem buildGraph_twoHalls :
    buildGraph (HouseMap.exact 452) allTouching twoHalls (overrides Dict.empty) = .ok throughTheHall := by
  let adj : Adjacency := ⟨[("kitchen", {"hall"}), ("hall", {"bath", "kitchen"}), ("bath", {"hall"})], by decide⟩
  have hadj : deriveAdjacency (HouseMap.exact 452) allTouching twoHalls = .ok adj := by decide +kernel
  have hsort : ({"bath", "kitchen"} : Finset String).sort = ["bath", "kitchen"] := by
    refine (List.toFinset_sort (· ≤ ·) (l := ["bath", "kitchen"]) (by decide)).mpr ?_
    decide +kernel
  have hgraph : adj.mapValues inferred = throughTheHall := by
    simp only [adj, Dict.mapValues, inferred, Text.sortedSet, List.map_cons, List.map_nil, hsort,
      Finset.sort_singleton]
    rfl
  rw [buildGraph, hadj, ← hgraph]
  rfl

theorem sharedHall_not_lawful :
    HouseMap.validateHouseMap (HouseMap.exact 452) (.obj twoHalls) = .ok () ∧
      buildGraph (HouseMap.exact 452) allTouching twoHalls (overrides Dict.empty) = .ok throughTheHall ∧
      shortestPath throughTheHall "kitchen" "bath" = some ["kitchen", "hall", "bath"] ∧
      ¬ Lawful (HouseMap.exact 452) true twoHalls [] throughTheHall := by
  have hpath : shortestPath throughTheHall "kitchen" "bath" = some ["kitchen", "hall", "bath"] := by
    decide +kernel
  refine ⟨accepted_twoHalls, buildGraph_twoHalls, hpath, fun h => ?_⟩
  have hkitchen : DrawnOn (HouseMap.exact 452) twoHalls 0 "kitchen" :=
    ⟨_, List.mem_cons_self, rfl, _, List.mem_cons_self⟩
  have hbath : DrawnOn (HouseMap.exact 452) twoHalls 1 "bath" :=
    ⟨_, List.mem_cons_of_mem _ List.mem_cons_self, rfl, _, List.mem_cons_of_mem _ List.mem_cons_self⟩
  obtain ⟨pre, a, b, post, heq, hkind⟩ :=
    h.floors 0 1 "kitchen" "bath" _ hkitchen hbath (by decide) (fun _ => by decide) hpath
  rcases pre with _ | ⟨p, _ | ⟨q, pre⟩⟩
  · cases heq
    revert hkind
    decide
  · cases heq
    revert hkind
    decide
  · have hlen := congrArg List.length heq
    simp only [List.length_append, List.length_cons, List.length_nil] at hlen
    omega

end Wavr.Topology
