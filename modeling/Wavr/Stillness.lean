import Wavr.FallDetect

/-!
# Stillness

`StillnessDetector`: for how long a room has been watched without a movement. A frame that cannot
be dated ends the episode of its room.
-/

namespace Wavr.Stillness
open Episode Run
open FallDetect (stampOr)
open Timebase (seconds)

def STILL_MOVE_GRACE_S : ℚ := 20
def STILL_MAX_FRAME_GAP_S : ℚ := 120

structure StillnessDetector where
  since : Dict String ℤ
  lastStill : Dict String ℤ
  deriving DecidableEq

def newDetector : StillnessDetector := ⟨.empty, .empty⟩

/-- A call of `update`, with the reading of the clock that it may take. The room is moving where
`still` is false, and where it is none nobody can tell. -/
structure Frame where
  room : String
  still : Option Bool
  ts : Option String
  now : String
  deriving DecidableEq

def Frame.stamp (f : Frame) : String := stampOr f.ts f.now

variable (asUtc : String → Option ℤ)

def update (f : Frame) (s : StillnessDetector) : ℚ × StillnessDetector :=
  let ended := ⟨s.since.erase f.room, s.lastStill.erase f.room⟩
  match asUtc f.stamp with
  | none => (0, ended)
  | some now =>
    let last := s.lastStill.get? f.room
    if f.still = some true then
      if last.any fun last => STILL_MAX_FRAME_GAP_S < seconds (now - last) then
        (0, ⟨s.since.set f.room now, s.lastStill.set f.room now⟩)
      else
        match s.since.get? f.room with
        | none => (0, ⟨s.since.set f.room now, s.lastStill.set f.room now⟩)
        | some since => (seconds (now - since), { s with lastStill := s.lastStill.set f.room now })
    else if last.any fun last => STILL_MOVE_GRACE_S < seconds (now - last) then (0, ended)
    else
      match s.since.get? f.room, last with
      | some since, some last => (seconds (last - since), s)
      | _, _ => (0, s)

def reset (_ : StillnessDetector) : StillnessDetector := ⟨.empty, .empty⟩

inductive Op
  | update (f : Frame)
  | reset
  deriving DecidableEq

def apply (s : StillnessDetector) : Op → StillnessDetector
  | .update f => (update asUtc f s).2
  | .reset => reset s

/-! ## The episode of a room -/

/-- An unobserved gap begins the episode anew, and so does a movement that lasts. -/
def watchPolicy : Policy where
  restart gap := STILL_MAX_FRAME_GAP_S < seconds gap
  drop gap := STILL_MOVE_GRACE_S < seconds gap

def Frame.input (f : Frame) : Input :=
  match asUtc f.stamp with
  | none => .reset
  | some now => .sample ⟨f.still = some true, now⟩

/-- What a call says of the room. -/
def input (room : String) : Op → Option Input
  | .update f => if f.room = room then some (f.input asUtc) else none
  | .reset => some .reset

def inputs (room : String) (ops : List Op) : List Input := ops.filterMap (input asUtc room)

/-- When a frame is dated. -/
def instant : Op → Option ℤ
  | .update f => asUtc f.stamp
  | .reset => none

/-- The dates never go back. -/
def Chronological (ops : List Op) : Prop := (ops.filterMap (instant asUtc)).Pairwise (· ≤ ·)

def timer (room : String) (s : StillnessDetector) : Option Timer := held s.since s.lastStill room

/-- The room was watched, and still, for `elapsed` seconds up to its last still frame: its history
ends in frames of which no two consecutive still ones are further apart than the allowed gap, and
no other is later than the grace after the last still one. The frames before these are not later
than their first. -/
def Watched (elapsed : ℚ) (history : List Input) : Prop :=
  ∃ older since window, history = older ++ .sample ⟨true, since⟩ :: window.map .sample ∧
    (∀ x, .sample x ∈ older → x.at' ≤ since) ∧ Unbroken watchPolicy since window ∧
    elapsed = seconds (lastPositive since window - since)

section
variable {asUtc} {s : StillnessDetector} {f : Frame} {op : Op} {room : String}

/-- What is reported of an episode. -/
def reading : Option Timer → ℚ
  | none => 0
  | some e => seconds (e.last - e.since)

theorem reading_begin (t : ℤ) : reading (some ⟨t, t⟩) = 0 := by
  simp [reading, seconds]

theorem paired_apply (h : Paired s.since s.lastStill) (op : Op) :
    Paired (apply asUtc s op).since (apply asUtc s op).lastStill := by
  cases op with
  | reset => exact fun k => Iff.rfl
  | update f =>
    unfold apply update
    dsimp only
    split
    · exact h.erase f.room
    · split
      · split
        · exact h.begin f.room _
        · split
          · exact h.begin f.room _
          · rename_i hsince
            exact h.extend hsince _
      · split
        · exact h.erase f.room
        · split <;> exact h

theorem timer_apply_other (f : Frame) (h : room ≠ f.room) :
    timer room (apply asUtc s (.update f)) = timer room s := by
  unfold apply update timer
  dsimp only
  split
  · rw [held_erase, if_neg h]
  · split
    · split
      · rw [held_begin, if_neg h]
      · split
        · rw [held_begin, if_neg h]
        · rename_i hsince
          rw [held_extend hsince, if_neg h]
    · split
      · rw [held_erase, if_neg h]
      · split <;> rfl

theorem timer_apply_own (h : Paired s.since s.lastStill) (f : Frame) :
    timer f.room (apply asUtc s (.update f)) =
        Episode.step watchPolicy (timer f.room s) (f.input asUtc) ∧
      (update asUtc f s).1 = reading (timer f.room (apply asUtc s (.update f))) := by
  unfold apply update timer Frame.input
  dsimp only
  cases hat : asUtc f.stamp with
  | none => simp [held_erase, Episode.step, reading]
  | some now =>
    dsimp only
    rcases h.cases f.room with ⟨hsince, hlast, hheld⟩ | ⟨e, hsince, hlast, hheld⟩
    · by_cases hstill : f.still = some true
      · simp [hsince, hlast, hheld, hstill, held_begin, Episode.step, reading_begin]
      · simp [hsince, hlast, hheld, hstill, Episode.step, reading]
    · by_cases hstill : f.still = some true
      · by_cases hgap : STILL_MAX_FRAME_GAP_S < seconds (now - e.last)
        · simp [hlast, hheld, hstill, hgap, held_begin, Episode.step, watchPolicy, reading_begin]
        · simp [hsince, hlast, hheld, hstill, hgap, held_extend hsince, Episode.step, watchPolicy, reading]
      · by_cases hgap : STILL_MOVE_GRACE_S < seconds (now - e.last)
        · simp [hlast, hheld, hstill, hgap, held_erase, Episode.step, watchPolicy, reading]
        · simp [hsince, hlast, hheld, hstill, hgap, Episode.step, watchPolicy, reading]

theorem timer_apply (h : Paired s.since s.lastStill) (op : Op) :
    timer room (apply asUtc s op) =
      finish (Episode.step watchPolicy) (timer room s) (input asUtc room op).toList := by
  cases op with
  | reset => rfl
  | update f =>
    by_cases hroom : room = f.room
    · subst hroom
      rw [(timer_apply_own h f).1, input, if_pos rfl]
      rfl
    · rw [timer_apply_other f hroom, input, if_neg (Ne.symm hroom)]
      rfl

/-- The episode of a room is the one of its own frames. -/
theorem timer_run (asUtc : String → Option ℤ) (room : String) (ops : List Op) :
    Paired (finish (apply asUtc) newDetector ops).since (finish (apply asUtc) newDetector ops).lastStill ∧
      timer room (finish (apply asUtc) newDetector ops) =
        finish (Episode.step watchPolicy) none (inputs asUtc room ops) := by
  refine history_induction (R := fun ops s => Paired s.since s.lastStill ∧
    timer room s = finish (Episode.step watchPolicy) none (inputs asUtc room ops)) ?_ ?_ ops
  · exact ⟨fun k => Iff.rfl, rfl⟩
  · intro ops op ⟨hpaired, htimer⟩
    refine ⟨paired_apply hpaired op, ?_⟩
    rw [timer_apply hpaired, htimer, inputs, inputs, filterMap_append_singleton, finish_append]

/-- The frames of a room are dated in the order of the calls. -/
theorem ordered_inputs {ops : List Op} (h : Chronological asUtc ops) (room : String) :
    Ordered (inputs asUtc room ops) := by
  have hdates : (inputs asUtc room ops).filterMap Input.date =
      (ops.filter fun op => (input asUtc room op).isSome).filterMap (instant asUtc) := by
    rw [inputs, List.filterMap_filterMap, List.filterMap_filter]
    refine List.filterMap_congr fun op _ => ?_
    cases op with
    | reset => rfl
    | update f =>
      by_cases hroom : f.room = room
      · cases hat : asUtc f.stamp <;> simp [input, hroom, Frame.input, instant, hat, Input.date]
      · simp [input, hroom]
  unfold Ordered
  rw [hdates]
  exact List.Pairwise.sublist (List.filter_sublist.filterMap (instant asUtc)) h

/-- What a frame is answered is the age of the episode it leaves. -/
theorem update_eq_reading (ops : List Op) (f : Frame) :
    (update asUtc f (finish (apply asUtc) newDetector ops)).1 =
      reading (finish (Episode.step watchPolicy) none (inputs asUtc f.room (ops ++ [.update f]))) := by
  obtain ⟨hpaired, -⟩ := timer_run asUtc f.room ops
  rw [(timer_apply_own hpaired f).2, ← (timer_run asUtc f.room (ops ++ [Op.update f])).2, finish_append]
  rfl

/-- However the frames come, what is reported of a room is not negative, and where it is positive
the room was watched, and still, for that long. -/
theorem stillness_not_overstated (asUtc : String → Option ℤ) (ops : List Op) (f : Frame)
    (hchron : Chronological asUtc (ops ++ [.update f])) :
    0 ≤ (update asUtc f (finish (apply asUtc) newDetector ops)).1 ∧
      (0 < (update asUtc f (finish (apply asUtc) newDetector ops)).1 →
        Watched (update asUtc f (finish (apply asUtc) newDetector ops)).1
          (inputs asUtc f.room (ops ++ [.update f]))) := by
  rw [update_eq_reading]
  have hordered := ordered_inputs hchron f.room
  cases hend : finish (Episode.step watchPolicy) none (inputs asUtc f.room (ops ++ [.update f])) with
  | none => exact ⟨le_refl 0, fun hpos => absurd hpos (lt_irrefl 0)⟩
  | some e =>
    obtain ⟨older, window, hhistory, hunbroken, hlast⟩ := holds_of_finish watchPolicy _ e hend
    rw [hhistory] at hordered ⊢
    obtain ⟨holder, hwindow⟩ := hordered.split
    have hle : e.since ≤ e.last := hlast ▸ le_lastPositive (le_refl e.since) hwindow
    refine ⟨?_, fun _ => ⟨older, e.since, window, rfl, holder, hunbroken, ?_⟩⟩
    · exact div_nonneg (Int.cast_nonneg (sub_nonneg.mpr hle)) (by decide)
    · rw [hlast]
      rfl

def seated (ts : String) : Frame := ⟨"sala", some true, some ts, "2026-01-01T00:00:00+00:00"⟩

/-- Two still frames, five seconds apart. -/
theorem seated_not_overstated :
    0 ≤ (update FallDetect.parse (seated "2026-01-01T00:00:05+00:00")
        (finish (apply FallDetect.parse) newDetector [.update (seated "2026-01-01T00:00:00+00:00")])).1 ∧
      (0 < (update FallDetect.parse (seated "2026-01-01T00:00:05+00:00")
          (finish (apply FallDetect.parse) newDetector [.update (seated "2026-01-01T00:00:00+00:00")])).1 →
        Watched (update FallDetect.parse (seated "2026-01-01T00:00:05+00:00")
            (finish (apply FallDetect.parse) newDetector
              [.update (seated "2026-01-01T00:00:00+00:00")])).1
          (inputs FallDetect.parse "sala" ([.update (seated "2026-01-01T00:00:00+00:00")] ++
            [.update (seated "2026-01-01T00:00:05+00:00")]))) :=
  stillness_not_overstated FallDetect.parse [.update (seated "2026-01-01T00:00:00+00:00")]
    (seated "2026-01-01T00:00:05+00:00") (by unfold Chronological; decide +kernel)

end

end Wavr.Stillness
