import Wavr.Fusion
import Wavr.Run

/-!
# Coherence of a room state

What the fields of a `RoomState` say about each other, and when a live positive count shows.
-/

namespace Wavr.Fusion
open Run

variable {R : Type} {ar : Arith R} {asUtc : String → Option ℤ}

/-! ## Dwell -/

section
variable (cfg : Config ar) (room : String) (ref : ℤ) (raw : Bool) (s : Engine (R := R) asUtc)

/-- A pending vacate whose grace has not run out, or one that would begin now. -/
def dwells : Bool :=
  let elapsed := ar.max (ar.lit 0) (ar.seconds (ref - (s.vacateSince.get? room).getD ref))
  s.occupiedState.get? room = some true ∧ ar.le cfg.vacateS (ar.lit 0) = false ∧
    ar.le cfg.vacateS elapsed = false

theorem debounceOccupancy_occupied :
    (debounceOccupancy cfg room ref raw s).1.1 = (raw || dwells cfg room ref s) := by
  unfold debounceOccupancy dwells
  by_cases hraw : raw = true
  · simp [hraw]
  · by_cases hocc : s.occupiedState.get? room = some true
    · cases ar.le cfg.vacateS (ar.lit 0) <;>
        cases h₂ : ar.le cfg.vacateS (ar.max (ar.lit 0)
          (ar.seconds (ref - (s.vacateSince.get? room).getD ref))) <;>
        simp [hraw, hocc, h₂]
    · simp [hraw, hocc]

theorem debounceOccupancy_frame : (debounceOccupancy cfg room ref raw s).2.latest = s.latest ∧
    (debounceOccupancy cfg room ref raw s).2.countLatch = s.countLatch := by
  unfold debounceOccupancy
  dsimp only
  split_ifs <;> exact ⟨rfl, rfl⟩

end

/-! ## Latch -/

section
variable (cfg : Config ar) (room : String) (ref : ℤ) (es : List (Stored (R := R) asUtc))
  (best : List (Target R)) (s : Engine (R := R) asUtc)

/-- The latch still speaks for the room. -/
def latchVouches : Bool :=
  ! countingLiveNegative cfg ref es &&
    (s.countLatch.get? room).any fun l => ar.le (ar.seconds (ref - l.ts)) cfg.staleS

theorem latchCount_frame (occupied : Bool) :
    (latchCount cfg room ref es occupied best s).2.latest = s.latest ∧
    (latchCount cfg room ref es occupied best s).2.occupiedState = s.occupiedState ∧
    (latchCount cfg room ref es occupied best s).2.vacateSince = s.vacateSince := by
  unfold latchCount
  split
  · exact ⟨rfl, rfl, rfl⟩
  · split
    · exact ⟨rfl, rfl, rfl⟩
    · split
      · exact ⟨rfl, rfl, rfl⟩
      · split
        · split <;> exact ⟨rfl, rfl, rfl⟩
        · exact ⟨rfl, rfl, rfl⟩

theorem latchCount_counts :
    (latchCount cfg room ref es true best s).1.personCount.isSome =
      ((pickCount cfg ref es).isSome || latchVouches cfg room ref es s) := by
  unfold latchCount latchVouches
  cases hp : pickCount cfg ref es with
  | some p => simp
  | none =>
    cases hn : countingLiveNegative cfg ref es with
    | true => simp
    | false =>
      cases hl : s.countLatch.get? room with
      | none => simp
      | some l => cases hs : ar.le (ar.seconds (ref - l.ts)) cfg.staleS <;> simp [hs]

end

/-! ## The rungs -/

section
variable (cfg : Config ar) (ref : ℤ) (es : List (Stored (R := R) asUtc)) (occupied : Bool)
  {head : Headcount R}

theorem precision_uncounted (h : head.personCount = none) :
    (precision cfg ref es occupied head).rank < Level.count.rank := by
  unfold precision
  split
  · decide
  · rw [h]
    dsimp only
    split
    · decide
    · rename_i hlt
      exact Nat.not_le.mp hlt

theorem scopeOf_rank_le (m : String) : (scopeOf m).rank ≤ Level.count.rank := by
  have hhouse : Level.house.rank ≤ Level.count.rank := by decide
  have hall : ∀ e ∈ RESOLUTION_SCOPE, e.2.rank ≤ Level.count.rank := by decide
  exact Dict.getD_lookup (P := fun l : Level => l.rank ≤ Level.count.rank) hhouse hall m

/-- Presence earns no more than the rung of a count. -/
theorem seen_rank_le : (seen cfg ref es).rank ≤ Level.count.rank := by
  have key : ∀ b : Level, b.rank ≤ Level.count.rank → (es.foldl (fun best e =>
      if live cfg ref e then best.max (scopeOf e.event.modality) else best) b).rank ≤
        Level.count.rank := by
    intro b hb
    induction es generalizing b with
    | nil => exact hb
    | cons e es ih =>
      apply ih
      show (if live cfg ref e then b.max (scopeOf e.event.modality) else b).rank ≤ _
      split
      · exact Level.rank_max_le hb (scopeOf_rank_le _)
      · exact hb
  exact key .none (by decide)

theorem precision_position (h : precision cfg ref es occupied head = .position) :
    ∃ t ∈ head.targets, isPositioned ar t = true := by
  cases hc : head.personCount with
  | none =>
    have hlt := precision_uncounted cfg ref es occupied hc
    rw [h] at hlt
    exact absurd hlt (by decide)
  | some n =>
    unfold precision at h
    rw [hc] at h
    split at h
    · cases h
    · dsimp only at h
      split at h
      · rename_i hany
        exact List.any_eq_true.mp hany
      -- without a placed target presence tops out at the rung of a count
      · have hle := Level.rank_max_le (seen_rank_le cfg ref es) (le_refl Level.count.rank)
        rw [h] at hle
        exact absurd hle (by decide)

end

/-! ## Coherence -/

/-- A live source that counts somebody. -/
def positive (cfg : Config ar) (ref : ℤ) (e : Stored (R := R) asUtc) : Bool :=
  isCounting e.event.modality && live cfg ref e && e.event.count.any (0 < ·)

/-- What the fields of a room state say about each other. -/
structure Consistent (ar : Arith R) (rs : RoomState R) : Prop where
  counted : rs.personCount ≠ none → rs.occupied = true
  vacant : rs.occupied = false → rs.personCount = none ∧ rs.precisionLevel = .none
  rung : rs.precisionLevel = .count ∨ rs.precisionLevel = .position → rs.personCount ≠ none
  placed : rs.precisionLevel = .position → ∃ t ∈ rs.targets, t.x ≠ none ∧ t.y ≠ none ∧
    ar.le (ar.lit POSITION_QUALITY_MIN) t.confidence = true

/-- What a room state fused at `ref` from the events `es` owes its reader. -/
structure Coherent (cfg : Config ar) (ref : ℤ) (es : List (Stored (R := R) asUtc))
    (rs : RoomState R) : Prop extends Consistent ar rs where
  heard : (∃ e ∈ es, positive cfg ref e = true) →
    rs.occupied = true ∧ ∃ n, rs.personCount = some n

/-- The room is kept occupied whatever the counts: the weighted evidence reaches the threshold,
a live source that cannot count detects somebody, or the dwell holds. -/
def kept (cfg : Config ar) (env : Env R) (room : String) (ref : ℤ) (s : Engine (R := R) asUtc) :
    Bool :=
  ar.le cfg.threshold (confidence cfg env room ref (s.events room)) ||
    housePresent cfg ref (s.events room) || dwells cfg room ref s

/-- Where a live source counts somebody, so does the one that vouches for the number, or the
room is kept anyway. Where none vouches (no counting source weighs more than -1), the room has
to be kept and the latch to speak. -/
def Heeded (cfg : Config ar) (env : Env R) (room : String) (ref : ℤ) (s : Engine (R := R) asUtc) :
    Prop :=
  ∀ e ∈ s.events room, positive cfg ref e = true →
    match pickCount cfg ref (s.events room) with
    | some (n, _) => 0 < n ∨ kept cfg env room ref s = true
    | none => kept cfg env room ref s = true ∧ latchVouches cfg room ref (s.events room) s = true

/-- Where a live source counts somebody, the heaviest live counting source does. -/
def HeaviestCounts (cfg : Config ar) (ref : ℤ) (es : List (Stored (R := R) asUtc)) : Prop :=
  (∃ e ∈ es, positive cfg ref e = true) → ∃ p, Heaviest cfg ref es p ∧ positive cfg ref p = true

theorem HeaviestCounts.heeded {cfg : Config ar} {env : Env R} {room : String} {ref : ℤ}
    {s : Engine (R := R) asUtc} (h : HeaviestCounts cfg ref (s.events room)) :
    Heeded cfg env room ref s := by
  intro e he hpos
  obtain ⟨p, hp, hcounts⟩ := h ⟨e, he, hpos⟩
  rw [positive, Bool.and_eq_true, Option.any_eq_true] at hcounts
  obtain ⟨-, n, hn, hlt⟩ := hcounts
  rw [hp.pickCount_eq, hn]
  exact .inl (of_decide_eq_true hlt)

section
variable (cfg : Config ar) (env : Env R) (room : String) (ref : ℤ) (s : Engine (R := R) asUtc)

theorem dwell_occupied : (dwell cfg env room ref s).1.1 =
    ((pickCount cfg ref (s.events room)).any (0 < ·.1) || kept cfg env room ref s) := by
  rw [dwell, debounceOccupancy_occupied, rawOccupied, kept]
  cases ar.le cfg.threshold (confidence cfg env room ref (s.events room)) <;>
    cases (pickCount cfg ref (s.events room)).any (0 < ·.1) <;> simp

theorem headcount_vacant (h : (dwell cfg env room ref s).1.1 = false) :
    (headcount cfg env room ref s).1.personCount = none := by
  rw [headcount, h]
  rfl

theorem headcount_occupied (h : (dwell cfg env room ref s).1.1 = true) :
    (headcount cfg env room ref s).1.personCount.isSome =
      ((pickCount cfg ref (s.events room)).isSome ||
        latchVouches cfg room ref (s.events room) s) := by
  -- the dwell runs first, and leaves the latch alone
  have hlatch : (dwell cfg env room ref s).2.countLatch = s.countLatch :=
    (debounceOccupancy_frame cfg room ref _ s).2
  rw [headcount, h, latchCount_counts, latchVouches, latchVouches, hlatch]

/-- Where a source vouches for a number, a number shows in every occupied room. -/
theorem answered_of_pick {p : ℕ × ℤ} (hp : pickCount cfg ref (s.events room) = some p) :
    ((dwell cfg env room ref s).1.1 = true ∧
      (headcount cfg env room ref s).1.personCount.isSome = true) ↔
      (0 < p.1 ∨ kept cfg env room ref s = true) := by
  have hocc : (dwell cfg env room ref s).1.1 = true ↔ (0 < p.1 ∨ kept cfg env room ref s = true) := by
    rw [dwell_occupied, hp, Bool.or_eq_true]
    simp
  rw [← hocc]
  refine and_iff_left_of_imp fun ho => ?_
  rw [headcount_occupied cfg env room ref s ho, hp]
  rfl

/-- Where none does, only the latch can give one. -/
theorem answered_of_none (hp : pickCount cfg ref (s.events room) = none) :
    ((dwell cfg env room ref s).1.1 = true ∧
      (headcount cfg env room ref s).1.personCount.isSome = true) ↔
      (kept cfg env room ref s = true ∧ latchVouches cfg room ref (s.events room) s = true) := by
  have hocc : (dwell cfg env room ref s).1.1 = kept cfg env room ref s := by
    rw [dwell_occupied, hp]
    rfl
  rw [← hocc]
  refine and_congr_right fun ho => ?_
  rw [headcount_occupied cfg env room ref s ho, hp]
  rfl

theorem headcount_counted (h : (headcount cfg env room ref s).1.personCount ≠ none) :
    (dwell cfg env room ref s).1.1 = true := by
  by_contra hn
  exact h (headcount_vacant cfg env room ref s (Bool.eq_false_of_not_eq_true hn))

theorem precision_counted {es : List (Stored (R := R) asUtc)} {occupied : Bool} {head : Headcount R}
    (h : Level.count.rank ≤ (precision cfg ref es occupied head).rank) : head.personCount ≠ none := by
  intro hc
  exact absurd (precision_uncounted cfg ref es occupied hc) (Nat.not_lt.mpr h)

end

section
variable (cfg : Config ar) (env : Env R) (room ts : String) (s : Engine (R := R) asUtc)

/-- A live positive count is answered exactly where it is heeded. -/
theorem heard_iff :
    ((∃ e ∈ s.events room, positive cfg (reference asUtc env ts) e = true) →
      (fuse cfg env room ts s).1.occupied = true ∧
        ∃ n, (fuse cfg env room ts s).1.personCount = some n) ↔
      Heeded cfg env room (reference asUtc env ts) s := by
  change (_ → (dwell cfg env room (reference asUtc env ts) s).1.1 = true ∧
    ∃ n, (headcount cfg env room (reference asUtc env ts) s).1.personCount = some n) ↔ _
  rw [← Option.isSome_iff_exists]
  unfold Heeded
  cases hp : pickCount cfg (reference asUtc env ts) (s.events room) with
  | some p =>
    rw [answered_of_pick cfg env room _ s hp]
    exact ⟨fun h e he hpos => h ⟨e, he, hpos⟩, fun h ⟨e, he, hpos⟩ => h e he hpos⟩
  | none =>
    rw [answered_of_none cfg env room _ s hp]
    exact ⟨fun h e he hpos => h ⟨e, he, hpos⟩, fun h ⟨e, he, hpos⟩ => h e he hpos⟩

theorem fuse_consistent : Consistent ar (fuse cfg env room ts s).1 where
  counted := headcount_counted cfg env room _ s
  vacant := by
    intro hv
    refine ⟨headcount_vacant cfg env room _ s hv, ?_⟩
    show precision cfg _ _ (dwell cfg env room _ s).1.1 _ = .none
    rw [show (dwell cfg env room _ s).1.1 = false from hv]
    rfl
  rung := by
    intro hl
    apply precision_counted cfg
    rcases hl with hl | hl
    · exact le_of_eq (congrArg Level.rank hl).symm
    · exact le_of_le_of_eq (by decide) (congrArg Level.rank hl).symm
  placed := by
    intro hp
    obtain ⟨t, ht, hpos⟩ := precision_position cfg _ _ _ hp
    rw [isPositioned, Bool.and_eq_true, Bool.and_eq_true] at hpos
    obtain ⟨⟨hx, hy⟩, hc⟩ := hpos
    exact ⟨t, ht, Option.isSome_iff_ne_none.mp hx, Option.isSome_iff_ne_none.mp hy, hc⟩

theorem fuse_coherent_iff :
    Coherent cfg (reference asUtc env ts) (s.events room) (fuse cfg env room ts s).1 ↔
      Heeded cfg env room (reference asUtc env ts) s := by
  rw [← heard_iff]
  exact ⟨fun h => h.heard, fun h => ⟨fuse_consistent cfg env room ts s, h⟩⟩

end

/-! ## Runs -/

section
variable (cfg : Config ar)

/-- What a fuse does not touch. -/
theorem fuse_latest (env : Env R) (room ts : String) (s : Engine (R := R) asUtc) :
    (fuse cfg env room ts s).2.latest = s.latest := by
  show (headcount cfg env room _ s).2.latest = s.latest
  rw [headcount, (latchCount_frame cfg room _ _ _ _ _).1, dwell,
    (debounceOccupancy_frame cfg room _ _ s).1]

/-- The room state a call returns, if any, is coherent. -/
def CoherentCall (s : Engine (R := R) asUtc) (call : Call R) : Prop :=
  ∀ rs, (run cfg call s).1 = .fused rs →
    Coherent cfg (reference asUtc call.env rs.ts) ((step cfg s call).events rs.room) rs

/-- The room a call fuses, if any, heeds its live positive counts. -/
def HeededCall (s : Engine (R := R) asUtc) (call : Call R) : Prop :=
  ∀ room ts, (begin call s).1 = .ok (room, ts) →
    Heeded cfg call.env room (reference asUtc call.env ts) (begin call s).2

/-- What a fuse owes its reader exactly where it meets a condition, a call owes its reader
exactly where the fuse it makes, if any, meets the condition. -/
theorem owed_iff_of {P : Env R → ℤ → List (Stored (R := R) asUtc) → RoomState R → Prop}
    {Q : Env R → String → ℤ → Engine (R := R) asUtc → Prop} {s : Engine (R := R) asUtc} {call : Call R}
    (key : ∀ room ts, P call.env (reference asUtc call.env ts) ((begin call s).2.events room)
        (fuse cfg call.env room ts (begin call s).2).1 ↔
      Q call.env room (reference asUtc call.env ts) (begin call s).2) :
    (∀ rs, (run cfg call s).1 = .fused rs →
      P call.env (reference asUtc call.env rs.ts) ((step cfg s call).events rs.room) rs) ↔
    ∀ room ts, (begin call s).1 = .ok (room, ts) →
      Q call.env room (reference asUtc call.env ts) (begin call s).2 := by
  revert key
  unfold step run
  rcases begin call s with ⟨_ | ⟨room, ts⟩, s₁⟩
  · simp
  · intro key
    have hevents : (fuse cfg call.env room ts s₁).2.events room = s₁.events room := by
      rw [Engine.events, fuse_latest, Engine.events]
    have hfuse := key room ts
    rw [← hevents] at hfuse
    constructor
    · intro h room' ts' he
      cases he
      exact hfuse.mp (h _ rfl)
    · intro h rs he
      cases he
      exact hfuse.mpr (h room ts rfl)

theorem owed_iff {P : Env R → ℤ → List (Stored (R := R) asUtc) → RoomState R → Prop}
    {Q : Env R → String → ℤ → Engine (R := R) asUtc → Prop}
    (key : ∀ env room ts s, P env (reference asUtc env ts) (s.events room) (fuse cfg env room ts s).1 ↔
      Q env room (reference asUtc env ts) s) (s : Engine (R := R) asUtc) (call : Call R) :
    (∀ rs, (run cfg call s).1 = .fused rs →
      P call.env (reference asUtc call.env rs.ts) ((step cfg s call).events rs.room) rs) ↔
    ∀ room ts, (begin call s).1 = .ok (room, ts) →
      Q call.env room (reference asUtc call.env ts) (begin call s).2 :=
  owed_iff_of cfg fun room ts => key call.env room ts (begin call s).2

theorem coherentCall_iff (s : Engine (R := R) asUtc) (call : Call R) :
    CoherentCall cfg s call ↔ HeededCall cfg s call :=
  owed_iff cfg (P := fun _ => Coherent cfg) (Q := Heeded cfg)
    (fun env room ts s => fuse_coherent_iff cfg env room ts s) s call

/-- In the room a call fuses, if any, the heaviest live counting source counts somebody where
any does. -/
def HeaviestCountsCall (s : Engine (R := R) asUtc) (call : Call R) : Prop :=
  ∀ room ts, (begin call s).1 = .ok (room, ts) →
    HeaviestCounts cfg (reference asUtc call.env ts) ((begin call s).2.events room)

/-- In a run where no zero outweighs a live positive count, every room state is coherent. -/
theorem coherent_of_heaviest (calls : List (Call R))
    (h : AllSteps (step cfg) (HeaviestCountsCall cfg) (newEngine (R := R) asUtc) calls) :
    AllSteps (step cfg) (CoherentCall cfg) (newEngine asUtc) calls := by
  refine allSteps_mono (fun s call hcall => (coherentCall_iff cfg s call).mpr ?_) h
  intro room ts hb
  exact (hcall room ts hb).heeded

/-- Every room state of a run is coherent exactly when every fuse of the run heeds the live
positive counts. -/
theorem coherent_iff (calls : List (Call R)) :
    AllSteps (step cfg) (CoherentCall cfg) (newEngine (R := R) asUtc) calls ↔
      AllSteps (step cfg) (HeededCall cfg) (newEngine asUtc) calls :=
  ⟨allSteps_mono fun s call => (coherentCall_iff cfg s call).mp,
    allSteps_mono fun s call => (coherentCall_iff cfg s call).mpr⟩

end

/-! ## Two cameras that disagree -/

/-- The constructor's defaults. -/
def defaultConfig : Config ratArith where
  weights := DEFAULT_WEIGHTS ratArith
  threshold := 1 / 2
  freshnessS := 30
  staleS := 90
  vacateS := 45
  window := by decide

/-- Midnight, a minute past, and a hundred seconds past, as texts and in microseconds. -/
def parse (ts : String) : Option ℤ :=
  [("2026-01-01T00:00:00+00:00", 1767225600000000), ("2026-01-01T00:01:00+00:00", 1767225660000000),
    ("2026-01-01T00:01:40+00:00", 1767225700000000)].lookup ts

/-- An injected clock at `t`, and nothing else wired. -/
def clockAt (t : ℤ) : Env ℚ :=
  ⟨.at t, t, "2026-01-01T00:00:00+00:00", fun _ _ => none, fun _ _ => none⟩

/-- One sensor of one room, at midnight. -/
def sighting (modality sensorId : String) (presence : Bool) (confidence : ℚ) (count : Option ℕ) :
    SensingEvent ℚ :=
  ⟨"sala", modality, presence, none, none, confidence, "2026-01-01T00:00:00+00:00", [], [], count,
    sensorId⟩

def emptyView : Call ℚ :=
  ⟨.update (sighting "camera" "door" true (1 / 8) (some 0)), clockAt 1767225600000000⟩

def pairView : Call ℚ :=
  ⟨.update (sighting "camera" "window" true (1 / 8) (some 2)), clockAt 1767225600000000⟩

/-- On its own, the camera that counts two is heeded, however unsure it is. -/
theorem one_camera_coherent :
    AllSteps (step defaultConfig) (CoherentCall defaultConfig) (newEngine (R := ℚ) parse) [pairView] := by
  apply coherent_of_heaviest
  refine ⟨fun room ts hb _ => ?_, trivial⟩
  cases hb
  exact ⟨_, ⟨[], [], rfl, by decide +kernel, by decide +kernel, by simp, by simp⟩, by decide +kernel⟩

/-- The first camera counts nobody and vouches for the number; the second counts two, and the
room is reported vacant. -/
theorem two_cameras_incoherent :
    ¬ AllSteps (step defaultConfig) (CoherentCall defaultConfig) (newEngine (R := ℚ) parse)
      [emptyView, pairView] := by
  rintro ⟨-, hcoherent, -⟩
  have hvacant : ((run defaultConfig pairView (step defaultConfig (newEngine parse) emptyView)).1.state?.map
      fun rs => (rs.room, rs.occupied)) = some ("sala", false) := by decide +kernel
  have hlive : ((step defaultConfig (step defaultConfig (newEngine parse) emptyView) pairView).events
      "sala").any (positive defaultConfig 1767225600000000) = true := by decide +kernel
  obtain ⟨rs, hrs, hview⟩ := Option.map_eq_some_iff.mp hvacant
  obtain ⟨hroom, hocc⟩ := Prod.mk.inj hview
  obtain ⟨e, he, hpos⟩ := List.any_eq_true.mp hlive
  have hheard := (hcoherent rs (Reply.eq_fused hrs)).heard ⟨e, by rwa [hroom], hpos⟩
  rw [hocc] at hheard
  exact Bool.false_ne_true hheard.1

end Wavr.Fusion
