import Mathlib.Data.Nat.Bitwise
import Wavr.FrameSafety
import Wavr.Mmwave

/-!
# Where a radar's target is placed

A report, parsed and moved into the room, beside where the radar saw the target.
-/

namespace Wavr.Mmwave
open Fusion

/-- The number a word stands for, the top bit up for a positive one. -/
def Encodes (n : ℤ) (word : ℕ) : Prop :=
  word < 2 ^ 15 ∧ n = -(word : ℤ) ∨ 2 ^ 15 ≤ word ∧ word < 2 ^ 16 ∧ n = (word : ℤ) - 2 ^ 15

def slotAt (frame : List UInt8) (i : ℕ) : List UInt8 := (frame.drop (4 + i * 8)).take 8

def wordAt (slot : List UInt8) (k : ℕ) : ℕ := (slot.getD k 0).toNat + 256 * (slot.getD (k + 1) 0).toNat

/-- A whole report with a target in slot `i`, so many millimetres beside the boresight and along it. -/
structure Reports (frame : List UInt8) (i : ℕ) (lateral range : ℤ) : Prop where
  length : frame.length = 30
  header : HEADER <+: frame
  tail : TAIL <:+ frame
  slot : i < 3
  occupied : slotAt frame i ≠ List.replicate 8 0
  lateral : Encodes lateral (wordAt (slotAt frame i) 0)
  range : Encodes range (wordAt (slotAt frame i) 2)

/-- Where the target of slot `i` comes to stand in the room. -/
noncomputable def placed (frame : List UInt8) (i : ℕ) (mount : MountPose ℝ) (corner : ℝ × ℝ) : Option (ℝ × ℝ) :=
  ((parseLd2450Frame realArith.lit frame).find? (·.id = (i + 1 : ℤ))).bind fun t =>
    (transformTarget realArith (some mount) corner t).1.position

/-- What is straight ahead is placed straight ahead, and the range is kept along the heading. -/
structure PlacedAhead (frame : List UInt8) (i : ℕ) (lateral range : ℤ) (mount : MountPose ℝ) (corner : ℝ × ℝ) :
    Prop where
  straight : lateral = 0 → 0 < range → placed frame i mount corner =
    some ((mount.posX, mount.posY)
      + ((range : ℝ) / 1000 * mount.heading.1, (range : ℝ) / 1000 * mount.heading.2) - corner)
  along : ∃ p, placed frame i mount corner = some p ∧
    Plane.dot (p + corner - (mount.posX, mount.posY)) mount.heading = (range : ℝ) / 1000

/-! ## The parser -/

theorem signmag_of_encodes {n : ℤ} {word : ℕ} (h : Encodes n word) : signmag word = n := by
  have hlow : word &&& 0x7FFF = word % 2 ^ 15 := Nat.and_two_pow_sub_one_eq_mod word 15
  have htop : word &&& 0x8000 = (word.testBit 15).toNat * 2 ^ 15 := Nat.and_two_pow word 15
  unfold signmag
  rcases h with ⟨hlt, rfl⟩ | ⟨hge, hlt, rfl⟩
  · have hbit : word.testBit 15 = false := Nat.testBit_lt_two_pow hlt
    rw [htop, hbit]
    rfl
  · have hbit : word.testBit 15 = true := by
      rw [Nat.testBit_eq_decide_div_mod_eq, decide_eq_true_iff]
      omega
    rw [htop, hbit, if_pos (by decide), hlow]
    omega

theorem unpack_slot {slot : List UInt8} (h : slot.length = 8) :
    unpack slot = [wordAt slot 0, wordAt slot 2, wordAt slot 4, wordAt slot 6] := by
  match slot, h with
  | [a, b, c, d, e, f, g, k], _ => rfl

variable {frame : List UInt8} {i : ℕ} {lateral range : ℤ}

theorem Reports.slot_length (h : Reports frame i lateral range) : (slotAt frame i).length = 8 := by
  have hlength := h.length
  have hslot := h.slot
  rw [slotAt, List.length_take, List.length_drop]
  omega

section
variable {R : Type} (lit : ℚ → R)

/-- A target of a slot carries its number. -/
theorem slotTarget_id {slot : List UInt8} {t : Target R} (h : slotTarget lit i slot = some t) : t.id = i + 1 := by
  unfold slotTarget at h
  split_ifs at h
  split at h
  · rw [← Option.some.inj h]
  · cases h

theorem Reports.slotTarget (h : Reports frame i lateral range) : ∃ t, slotTarget lit i (slotAt frame i) = some t ∧
    t.x = some (lit (lateral / 1000)) ∧ t.y = some (lit (range / 1000)) ∧ t.frame = "sensor" := by
  unfold Mmwave.slotTarget
  rw [if_neg h.occupied, unpack_slot h.slot_length]
  refine ⟨_, rfl, ?_, ?_, rfl⟩
  · rw [signmag_of_encodes h.lateral]
  · rw [signmag_of_encodes h.range]

theorem Reports.parsed (h : Reports frame i lateral range) :
    ∃ t, (parseLd2450Frame lit frame).find? (·.id = (i + 1 : ℤ)) = some t ∧
      t.x = some (lit (lateral / 1000)) ∧ t.y = some (lit (range / 1000)) ∧ t.frame = "sensor" := by
  obtain ⟨t, ht, hread⟩ := h.slotTarget lit
  refine ⟨t, ?_, hread⟩
  have hwhole : ¬ (frame.length ≠ 30 ∨ ¬ HEADER.isPrefixOf frame ∨ ¬ TAIL.isSuffixOf frame) := by
    rw [List.isPrefixOf_iff_prefix, List.isSuffixOf_iff_suffix]
    simp only [h.length, h.header, h.tail, ne_eq, not_true_eq_false, or_self, not_false_eq_true]
  unfold parseLd2450Frame
  rw [if_neg hwhole, List.find?_filterMap]
  have hfind : (List.range 3).find? (fun j =>
      (Mmwave.slotTarget lit j (slotAt frame j)).any (·.id = (i + 1 : ℤ))) = some i := by
    rw [List.find?_range_eq_some]
    refine ⟨?_, List.mem_range.mpr h.slot, fun j hj => ?_⟩
    · rw [ht, Option.any_some, slotTarget_id lit ht]
      exact decide_eq_true rfl
    · cases hj' : Mmwave.slotTarget lit j (slotAt frame j) with
      | none => rfl
      | some u =>
        have hid := slotTarget_id lit hj'
        rw [Option.any_some, hid]
        have hne : (j : ℤ) + 1 ≠ i + 1 := by omega
        rw [decide_eq_false hne]
        rfl
  exact (congrArg (fun j => j.bind fun j => Mmwave.slotTarget lit j (slotAt frame j)) hfind).trans ht

end

/-! ## The placement -/

/-- The boresight is taken for the second axis of the sensor, and the heading for the first. -/
theorem Reports.placed (h : Reports frame i lateral range) (mount : MountPose ℝ) (corner : ℝ × ℝ) :
    placed frame i mount corner =
      some (Plane.turn mount.heading.1 mount.heading.2 ((lateral : ℝ) / 1000, (range : ℝ) / 1000)
        + ((mount.posX, mount.posY) - corner)) := by
  obtain ⟨t, ht, hx, hy, hframe⟩ := h.parsed realArith.lit
  have hlit : ∀ n : ℤ, realArith.lit ((n : ℚ) / 1000) = (n : ℝ) / 1000 := by
    intro n
    change (((n : ℚ) / 1000 : ℚ) : ℝ) = (n : ℝ) / 1000
    push_cast
    rfl
  rw [hlit] at hx hy
  have hroom : ¬ t.frame = FRAME_ROOM := by
    rw [hframe]
    decide
  have hknown : ¬ ¬ (FRAMES.any (· = t.frame) = true) := by
    rw [hframe]
    decide
  unfold Mmwave.placed
  rw [ht, Option.bind_some]
  unfold transformTarget
  rw [if_neg hroom, if_neg hknown, hx, hy]
  simp only [sensorToRoom_real]
  rfl

theorem dot_turn_heading (mount : MountPose ℝ) (x y : ℝ) :
    Plane.dot (Plane.turn mount.heading.1 mount.heading.2 (x, y)) mount.heading = x := by
  unfold Plane.dot Plane.turn
  linear_combination x * heading_unit mount

/-- A target is placed by its range only where it is as far beside the boresight as along it. -/
theorem placed_ahead_iff (h : Reports frame i lateral range) (mount : MountPose ℝ) (corner : ℝ × ℝ) :
    PlacedAhead frame i lateral range mount corner ↔ lateral = range := by
  have hplaced := h.placed mount corner
  have hcancel : Plane.turn mount.heading.1 mount.heading.2 ((lateral : ℝ) / 1000, (range : ℝ) / 1000)
      + ((mount.posX, mount.posY) - corner) + corner - (mount.posX, mount.posY)
      = Plane.turn mount.heading.1 mount.heading.2 ((lateral : ℝ) / 1000, (range : ℝ) / 1000) := by abel
  constructor
  · intro hahead
    obtain ⟨p, hp, hdot⟩ := hahead.along
    rw [← Option.some.inj (hplaced.symm.trans hp), hcancel, dot_turn_heading] at hdot
    have heq : (lateral : ℝ) = range := by linarith
    exact Int.cast_injective heq
  · rintro rfl
    refine ⟨fun hzero hpos => absurd hpos (by omega), _, hplaced, ?_⟩
    rw [hcancel, dot_turn_heading]

/-- One target two metres straight ahead. -/
def twoMetresAhead : List UInt8 :=
  HEADER ++ [0, 0, 0xd0, 0x87, 0, 0, 0, 0] ++ List.replicate 16 0 ++ TAIL

theorem twoMetresAhead_reports : Reports twoMetresAhead 0 0 2000 where
  length := by decide
  header := by decide
  tail := by decide
  slot := by decide
  occupied := by decide
  lateral := .inl (by decide)
  range := .inr (by decide)

/-- A metre beside the boresight and a metre along it. -/
def oneMetreAside : List UInt8 :=
  HEADER ++ [0xe8, 0x83, 0xe8, 0x83, 0, 0, 0, 0] ++ List.replicate 16 0 ++ TAIL

theorem aside_placed_ahead : PlacedAhead oneMetreAside 0 1000 1000 ⟨3, 2, 90⟩ (0, 0) :=
  (placed_ahead_iff
    { length := by decide, header := by decide, tail := by decide, slot := by decide, occupied := by decide
      lateral := .inr (by decide), range := .inr (by decide) } _ _).mpr rfl

theorem ahead_placed_beside : ¬ PlacedAhead twoMetresAhead 0 0 2000 ⟨3, 2, 90⟩ (0, 0) := by
  intro h
  obtain ⟨p, hp, hdot⟩ := h.along
  rw [← Option.some.inj ((twoMetresAhead_reports.placed _ _).symm.trans hp)] at hdot
  have hcancel (a b c : ℝ × ℝ) : a + (b - c) + c - b = a := by abel
  rw [hcancel, dot_turn_heading] at hdot
  norm_num at hdot

end Wavr.Mmwave
