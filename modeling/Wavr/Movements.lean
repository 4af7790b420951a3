import Wavr.Topology

/-!
# How plausible a movement is

`transition`, and that the paths it goes by are the shortest ones.
-/

namespace Wavr.Topology

def MAX_PLAUSIBLE_HOPS : ℕ := 3

inductive Verdict where
  | sameRoom
  | unknownRoom
  | unreachable
  | adjacent
  | reachable
  | distant
  deriving DecidableEq

structure Transition where
  verdict : Verdict
  hops : Option ℕ
  path : Option (List String)
  isPlausible : Bool
  link : Option Link := none
  reason : String

/-- A movement along the path that was found. -/
def alongPath (graph : Links) (fromRoom toRoom : String) (path : List String) : Transition :=
  let hops := path.length - 1
  if hops = 1 then
    let link := (kind graph fromRoom toRoom).getD .inferred
    let how := if link = .declared then "they are marked as connected" else "their outlines touch on the floor plan"
    { verdict := .adjacent, hops := some 1, path := some path, isPlausible := true, link := some link
      reason := fromRoom ++ " and " ++ toRoom ++ " are adjacent — " ++ how ++ "." }
  else if hops ≤ MAX_PLAUSIBLE_HOPS then
    { verdict := .reachable, hops := some hops, path := some path, isPlausible := true
      reason := "Reachable via " ++ " → ".intercalate path.tail.dropLast ++ "." }
  else
    { verdict := .distant, hops := some hops, path := some path, isPlausible := false
      reason := toRoom ++ " is " ++ toString hops ++ " rooms from " ++ fromRoom ++
        ". A single person is unlikely to have crossed that between two readings — " ++
        "this may be two people, or a sensor seeing through a wall." }

def transition (graph : Links) (fromRoom toRoom : String) : Transition :=
  if fromRoom = toRoom then
    { verdict := .sameRoom, hops := some 0, path := some [fromRoom], isPlausible := true
      reason := "Same room — no movement to explain." }
  else if (graph.get? fromRoom).isNone ∨ (graph.get? toRoom).isNone then
    let unknown := if (graph.get? fromRoom).isNone then fromRoom else toRoom
    { verdict := .unknownRoom, hops := none, path := none, isPlausible := true
      reason := unknown ++ " is not on the floor plan, so Wavr cannot say whether this movement makes sense." }
  else
    match shortestPath graph fromRoom toRoom with
    | none =>
      { verdict := .unreachable, hops := none, path := none, isPlausible := false
        reason := "No drawn route connects " ++ fromRoom ++ " to " ++ toRoom ++
          ". Either a connection is missing from the floor plan, or one of these readings is not what it seems." }
    | some path => alongPath graph fromRoom toRoom path

/-! ## Routes -/

/-- From room to room along the links. -/
structure Route (graph : Links) (a b : String) (path : List String) : Prop where
  links : path.IsChain fun x y => kind graph x y ≠ none
  head : path.head? = some a
  last : path.getLast? = some b

/-- The fewest links on a route between two rooms, none where there is no route. -/
def Hops (graph : Links) (a b : String) : Option ℕ → Prop
  | none => ∀ path, ¬ Route graph a b path
  | some n => (∃ path, Route graph a b path ∧ path.length = n + 1) ∧
      ∀ path, Route graph a b path → n + 1 ≤ path.length

def verdictOf : Option ℕ → Verdict
  | none => .unreachable
  | some 0 => .sameRoom
  | some 1 => .adjacent
  | some n => if n ≤ MAX_PLAUSIBLE_HOPS then .reachable else .distant

section
variable {graph : Links} {a b : String} {path : List String}

theorem route_iff : Route graph a b path ↔ PathSearch.Route (rooms graph) a b path := by
  have hlinks : (path.IsChain fun x y => kind graph x y ≠ none) ↔
      path.IsChain fun x y => y ∈ (rooms graph).next x := by
    simp only [mem_next, Option.ne_none_iff_exists']
  exact ⟨fun h => ⟨hlinks.mp h.links, h.head, h.last⟩, fun h => ⟨hlinks.mpr h.steps, h.head, h.last⟩⟩

theorem Route.ne_nil (h : Route graph a b path) : path ≠ [] := by
  rintro rfl
  cases h.head

/-- One room is all of the way only from a room to itself. -/
theorem Route.two_le (h : Route graph a b path) (hne : a ≠ b) : 2 ≤ path.length := by
  match path, h with
  | [], h => cases h.head
  | [x], h =>
    obtain rfl : x = a := Option.some.inj h.head
    exact absurd (Option.some.inj h.last) hne
  | _ :: _ :: _, _ => simp

theorem route_self (graph : Links) (a : String) : Route graph a a [a] := ⟨List.isChain_singleton a, rfl, rfl⟩

theorem known (ha : a ∈ graph.keys) (hb : b ∈ graph.keys) : ¬ ((graph.get? a).isNone ∨ (graph.get? b).isNone) := by
  rw [Dict.mem_keys] at ha hb
  simp only [Option.isSome_iff_ne_none] at ha hb
  simp [ha, hb]

theorem shortestPath_eq (ha : a ∈ graph.keys) (hb : b ∈ graph.keys) (hne : a ≠ b) :
    shortestPath graph a b = PathSearch.shortestPath (rooms graph) a b := by
  rw [shortestPath, if_neg hne, if_neg (known ha hb)]

theorem transition_eq (ha : a ∈ graph.keys) (hb : b ∈ graph.keys) (hne : a ≠ b) {found : List String}
    (h : shortestPath graph a b = some found) : transition graph a b = alongPath graph a b found := by
  rw [transition, if_neg hne, if_neg (known ha hb), h]

/-- What is said of a movement along a path of at least one link. -/
theorem alongPath_spec (h : 2 ≤ path.length) :
    (alongPath graph a b path).hops = some (path.length - 1) ∧ (alongPath graph a b path).path = some path ∧
      (alongPath graph a b path).verdict = verdictOf (some (path.length - 1)) := by
  obtain ⟨n, hn⟩ : ∃ n, path.length - 1 = n + 1 := ⟨path.length - 2, by omega⟩
  rw [alongPath, hn]
  cases n with
  | zero => exact ⟨rfl, rfl, rfl⟩
  | succ n =>
    simp only [verdictOf]
    rw [if_neg (by omega)]
    split <;> exact ⟨rfl, rfl, rfl⟩

/-- The path found is a shortest route, none is found exactly where there is none, and a movement is judged by the
number of its links. -/
theorem movement_by_shortest_route (graph : Links) {a b : String} (ha : a ∈ graph.keys) (hb : b ∈ graph.keys) :
    (∀ path, shortestPath graph a b = some path →
      Route graph a b path ∧ ∀ other, Route graph a b other → path.length ≤ other.length) ∧
    (shortestPath graph a b = none ↔ ∀ path, ¬ Route graph a b path) ∧
    (transition graph a b).path = shortestPath graph a b ∧
    Hops graph a b (transition graph a b).hops ∧
    (transition graph a b).verdict = verdictOf (transition graph a b).hops := by
  by_cases hne : a = b
  · subst hne
    have hself : shortestPath graph a a = some [a] := if_pos rfl
    have hmove : transition graph a a = ⟨.sameRoom, some 0, some [a], true, none, _⟩ := if_pos rfl
    have hleast : ∀ other, Route graph a a other → 1 ≤ other.length := fun other h =>
      List.length_pos_iff.mpr h.ne_nil
    rw [hself, hmove]
    refine ⟨?_, ?_, rfl, ⟨⟨[a], route_self graph a, rfl⟩, hleast⟩, rfl⟩
    · rintro path ⟨⟩
      exact ⟨route_self graph a, hleast⟩
    · exact ⟨fun h => (by cases h), fun h => absurd (route_self graph a) (h [a])⟩
  · have heq := shortestPath_eq ha hb hne
    -- between two rooms the search is the one over any graph, with its routes read as paths
    have hfewest : ∀ path, shortestPath graph a b = some path →
        Route graph a b path ∧ ∀ other, Route graph a b other → path.length ≤ other.length := by
      intro path hpath
      obtain ⟨hway, hleast⟩ := PathSearch.shortestPath_fewest (Ne.symm hne) (heq ▸ hpath)
      exact ⟨route_iff.mpr hway.route, fun other hother => hleast other (route_iff.mp hother)⟩
    have hnone : shortestPath graph a b = none ↔ ∀ path, ¬ Route graph a b path := by
      rw [heq, PathSearch.shortestPath_eq_none_iff (Ne.symm hne)]
      exact forall_congr' fun path => not_congr route_iff.symm
    refine ⟨hfewest, hnone, ?_⟩
    cases hfound : shortestPath graph a b with
    | none =>
      rw [transition, if_neg hne, if_neg (known ha hb), hfound]
      exact ⟨rfl, hnone.mp hfound, rfl⟩
    | some found =>
      obtain ⟨hroute, hleast⟩ := hfewest found hfound
      have htwo := hroute.two_le hne
      obtain ⟨hhops, hpath, hverdict⟩ : (alongPath graph a b found).hops = _ ∧ _ ∧ _ := alongPath_spec htwo
      have hlen : found.length - 1 + 1 = found.length := by omega
      rw [transition_eq ha hb hne hfound, hhops, hpath, hverdict]
      exact ⟨rfl, ⟨⟨found, hroute, hlen.symm⟩, fun other hother => hlen.le.trans (hleast other hother)⟩, rfl⟩

theorem movement_through_the_hall :
    (∀ path, shortestPath throughTheHall "kitchen" "bath" = some path → Route throughTheHall "kitchen" "bath" path ∧
      ∀ other, Route throughTheHall "kitchen" "bath" other → path.length ≤ other.length) ∧
    (shortestPath throughTheHall "kitchen" "bath" = none ↔ ∀ path, ¬ Route throughTheHall "kitchen" "bath" path) ∧
    (transition throughTheHall "kitchen" "bath").path = shortestPath throughTheHall "kitchen" "bath" ∧
    Hops throughTheHall "kitchen" "bath" (transition throughTheHall "kitchen" "bath").hops ∧
    (transition throughTheHall "kitchen" "bath").verdict =
      verdictOf (transition throughTheHall "kitchen" "bath").hops :=
  movement_by_shortest_route throughTheHall (by decide) (by decide)

end

end Wavr.Topology
