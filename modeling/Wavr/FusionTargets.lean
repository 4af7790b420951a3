import Wavr.Argmax
import Wavr.FusionCoherence

/-!
# Targets and the room that carries them

The targets pass has its own gates. It runs before the count latch and asks nothing of the
occupancy decision, so a vacant room can carry coordinates.
-/

namespace Wavr.Fusion
open Run Text

variable {R : Type} {ar : Arith R} {asUtc : String → Option ℤ}

/-! ## The pass -/

section
variable (cfg : Config ar) (env : Env R) (room : String) (ref : ℤ)

/-- The event is a candidate for the targets. -/
def placeable (e : Stored (R := R) asUtc) : Bool :=
  isLocatable e.event.modality && live cfg ref e && decide (e.event.targets ≠ [])

/-- Its targets, in the room's frame. -/
def placed (ar : Arith R) (env : Env R) (room : String) (e : Stored (R := R) asUtc) :
    List (Target R) :=
  let mount := if truthy e.event.sensorId then env.mount e.event.sensorId room else none
  e.event.targets.map fun t => (transformTarget ar mount (ar.lit 0, ar.lit 0) t).1

theorem bestTargets_eq (es : List (Stored (R := R) asUtc)) : bestTargets cfg env room ref es =
    (es.foldl (Argmax.pick (placeable cfg ref) ar.lt (weight cfg) (placed ar env room))
      (ar.lit (-1), [])).2 := rfl

/-- A live source that places somebody, and weighs more than the search starts from. -/
def places (e : Stored (R := R) asUtc) : Bool :=
  placeable cfg ref e && ar.lt (ar.lit (-1)) (weight cfg e)

variable {cfg env room ref}

theorem placed_ne_nil {e : Stored (R := R) asUtc} (h : placeable cfg ref e = true) :
    placed ar env room e ≠ [] := by
  rw [placeable, Bool.and_eq_true, decide_eq_true_eq] at h
  exact fun hnil => h.2 (List.map_eq_nil_iff.mp hnil)

/-- The pass comes up empty exactly where no live source places anybody. -/
theorem bestTargets_eq_nil_iff {es : List (Stored (R := R) asUtc)} :
    bestTargets cfg env room ref es = [] ↔ ∀ e ∈ es, places cfg ref e = false := by
  rw [bestTargets_eq]
  constructor
  · intro hnil e he
    by_contra hplaces
    rw [Bool.not_eq_false, places, Bool.and_eq_true] at hplaces
    obtain ⟨e', -, hable, hfold⟩ : ∃ e' ∈ es, placeable cfg ref e' = true ∧
        es.foldl (Argmax.pick (placeable cfg ref) ar.lt (weight cfg) (placed ar env room))
          (ar.lit (-1), []) = (weight cfg e', placed ar env room e') :=
      Argmax.foldl_pick_of_heavier ⟨e, he, hplaces⟩
    rw [hfold] at hnil
    exact placed_ne_nil hable hnil
  · intro h
    rw [Argmax.foldl_pick_of_not]
    intro e he hable
    have hp := h e he
    rwa [places, hable, Bool.true_and] at hp

end

/-! ## What a room state owes its reader -/

/-- No coordinate without an occupied room, and none from the latch where a camera sees nobody. -/
structure Grounded (cfg : Config ar) (env : Env R) (ref : ℤ) (es : List (Stored (R := R) asUtc))
    (rs : RoomState R) : Prop where
  vacant : rs.occupied = false → rs.targets = []
  /-- What the sources of this instant place, and nothing older. -/
  negative : countingLiveNegative cfg ref es = true → pickCount cfg ref es = none →
    rs.targets = bestTargets cfg env rs.room ref es

section
variable (cfg : Config ar) (env : Env R) (room : String) (ref : ℤ) (s : Engine (R := R) asUtc)

variable (ts : String)

end

/-! ## Runs -/

section
variable (cfg : Config ar)

end

/-! ## A camera that is not sure -/

/-- It places somebody, at an eighth, and does not count. -/
def unsure : Call ℚ :=
  ⟨.update { sighting "camera" "door" true (1 / 8) none with
      targets := [⟨1, some 2, some 3, none, none, none, 9 / 10, "room"⟩] },
    clockAt 1767225600000000⟩

end Wavr.Fusion
