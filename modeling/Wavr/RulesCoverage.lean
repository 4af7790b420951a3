import Wavr.Rules

/-!
# Coverage and the latest summary

Which row decides whether a room is available, beside the summaries that were applied.
-/

namespace Wavr.Rules
open Run Text

variable (cfg : Config)

/-- The summary that a call applies. -/
def applied (e : RulesEngine) : Op → Option Summary
  | .handle rs now pull =>
    if due cfg now { e with lastSeenOccupied := e.lastSeenOccupied.set rs.room rs.occupied } then pull
    else none
  | .handleCoverage summary => some summary

/-- An engine and the summaries it has applied, the latest first. -/
structure Watched where
  engine : RulesEngine
  summaries : List Summary

def Watched.start : Watched := ⟨newEngine, []⟩

def watch (w : Watched) (op : Op) : Watched where
  engine := step cfg w.engine op
  summaries := (applied cfg w.engine op).toList ++ w.summaries

/-- The row that a summary has for a room; of several the last. -/
def rowIn (s : Summary) (room : String) : Option Row :=
  ((rows s).filter fun r => r.1 = room).getLast?.map Prod.snd

def latestRow (w : Watched) (room : String) : Option Row := w.summaries.head?.bind fun s => rowIn s room

/-- A summary names a room among the covered or the uncovered ones. -/
def Names (s : Summary) (room : String) : Prop :=
  truthy room ∧ ((∃ entry ∈ s.rooms, entry.room = some room) ∨ room ∈ s.uncovered)

/-- The state that a reading publishes. -/
def stateTold (out : List Output) : Option Body :=
  out.findSome? fun
    | .publish (.state _ body) => some body
    | _ => none

/-- Every reading is told as the latest summary has its room. -/
def Follows (w : Watched) : Prop :=
  ∀ rs now, stateTold (handle cfg rs now none w.engine).1 =
    some (stateBody (latestRow w rs.room) (availableOf (latestRow w rs.room) (some rs.occupied)) rs)

/-- A room that a summary has named, the latest one names. -/
def Keeps (w : Watched) : Prop :=
  ∀ room, (∃ s ∈ w.summaries, Names s room) → ∃ s, w.summaries.head? = some s ∧ Names s room

section
variable {cfg} {e : RulesEngine} {room : String} {row : Row} {s : Summary} {w : Watched} {op : Op}

/-! ## Rows -/

theorem names_iff : Names s room ↔ room ∈ (rows s).map Prod.fst := by
  have hcovered : room ∈ (covered s).map Prod.fst ↔
      truthy room ∧ ∃ entry ∈ s.rooms, entry.room = some room := by
    simp only [covered, List.mem_map, List.mem_filterMap, Option.map_eq_some_iff,
      Option.filter_eq_some_iff]
    constructor
    · rintro ⟨_, ⟨entry, hentry, room', ⟨hroom, htruthy⟩, rfl⟩, rfl⟩
      exact ⟨htruthy, entry, hentry, hroom⟩
    · rintro ⟨htruthy, entry, hentry, hroom⟩
      exact ⟨_, ⟨entry, hentry, room, ⟨hroom, htruthy⟩, rfl⟩, rfl⟩
  have huncovered : room ∈ s.uncovered.filter (truthy ·) ↔ truthy room ∧ room ∈ s.uncovered := by
    rw [List.mem_filter, and_comm]
  unfold rows Names
  rw [List.map_append, List.mem_append, List.map_map, List.map_map]
  change _ ↔ room ∈ (covered s).map Prod.fst ∨ room ∈ (s.uncovered.filter (truthy ·)).map id
  rw [List.map_id, hcovered, huncovered]
  exact and_or_left

theorem rowIn_isSome : (rowIn s room).isSome ↔ Names s room := by
  rw [names_iff, rowIn, Option.isSome_map, List.getLast?_isSome, ne_eq, List.filter_eq_nil_iff,
    List.mem_map]
  simp

theorem roomCoverage_publishAvailability (room : String) (available : Bool) (e : RulesEngine) :
    (publishAvailability room available e).2.roomCoverage = e.roomCoverage := by
  unfold publishAvailability
  split <;> rfl

theorem roomCoverage_recordRoomCoverage :
    (recordRoomCoverage room row e).2.roomCoverage = e.roomCoverage.set room row := by
  unfold recordRoomCoverage
  dsimp only
  split <;> exact roomCoverage_publishAvailability _ _ _

/-- The last row for a room stays. -/
theorem get?_recordAll (l : List (String × Row)) (e : RulesEngine) (room : String) :
    (recordAll l e).2.roomCoverage.get? room =
      ((l.filter fun r => r.1 = room).getLast?.map Prod.snd).or (e.roomCoverage.get? room) := by
  induction l generalizing e with
  | nil => rfl
  | cons r rest ih =>
    have hrest := ih (recordRoomCoverage r.1 r.2 e).2
    rw [roomCoverage_recordRoomCoverage, Dict.get?_set] at hrest
    refine hrest.trans ?_
    by_cases hr : r.1 = room
    · rw [List.filter_cons_of_pos (by simpa using hr), List.getLast?_cons, if_pos hr.symm]
      cases (rest.filter fun r => r.1 = room).getLast? <;> rfl
    · rw [List.filter_cons_of_neg (by simpa using hr), if_neg (Ne.symm hr)]

theorem get?_applyCoverage : (applyCoverage s e).2.roomCoverage.get? room =
    (rowIn s room).or (e.roomCoverage.get? room) := by
  have hrows := get?_recordAll (rows s) e room
  unfold applyCoverage
  dsimp only
  split
  · exact hrows
  · exact hrows

/-! ## The row that decides -/

theorem get?_noticed {rs : RoomState} {now : ℚ} {pull : Option Summary} :
    (noticed cfg rs now pull e).2.roomCoverage.get? room =
      ((applied cfg e (.handle rs now pull)).bind fun s => rowIn s room).or
        (e.roomCoverage.get? room) := by
  unfold noticed refreshCoverage applied
  dsimp only
  by_cases hdue : due cfg now { e with lastSeenOccupied := e.lastSeenOccupied.set rs.room rs.occupied } = true
  · rw [if_pos hdue, if_pos hdue]
    cases pull with
    | none => rfl
    | some s => exact get?_applyCoverage
  · rw [if_neg hdue, if_neg hdue]
    rfl

theorem roomCoverage_tell (row : Option Row) (available : Bool) (rs : RoomState) (e : RulesEngine) :
    (tell row available rs e).2.roomCoverage = e.roomCoverage := by
  unfold tell
  dsimp only
  split
  · exact roomCoverage_publishAvailability _ _ _
  · rfl

theorem roomCoverage_handle (rs : RoomState) (now : ℚ) (pull : Option Summary) :
    (handle cfg rs now pull e).2.roomCoverage = (noticed cfg rs now pull e).2.roomCoverage := by
  rw [handle_eq]
  dsimp only
  split
  · exact roomCoverage_tell _ _ _ _
  · exact roomCoverage_tell _ _ _ _

theorem get?_step : (step cfg e op).roomCoverage.get? room =
    ((applied cfg e op).bind fun s => rowIn s room).or (e.roomCoverage.get? room) := by
  cases op with
  | handle rs now pull =>
    rw [step, call, roomCoverage_handle]
    exact get?_noticed
  | handleCoverage s => exact get?_applyCoverage

/-- A reading that pulls nothing is told by the row its room has. -/
theorem stateTold_handle (rs : RoomState) (now : ℚ) :
    stateTold (handle cfg rs now none e).1 =
      some (stateBody (e.roomCoverage.get? rs.room)
        (availableOf (e.roomCoverage.get? rs.room) (some rs.occupied)) rs) := by
  have hout : (noticed cfg rs now none e).1 = [] := by
    unfold noticed refreshCoverage
    split <;> rfl
  have hav : available rs.room (noticed cfg rs now none e).2 =
      availableOf (e.roomCoverage.get? rs.room) (some rs.occupied) := by
    unfold available noticed refreshCoverage
    split <;> simp
  have hrow : (noticed cfg rs now none e).2.roomCoverage.get? rs.room = e.roomCoverage.get? rs.room := by
    rw [get?_noticed]
    unfold applied
    dsimp only
    split <;> rfl
  rw [handle_eq]
  dsimp only
  rw [hout, hav, hrow]
  split <;> rfl

/-- The rows of a room are those of the latest summary that names it. -/
def Recorded (w : Watched) : Prop :=
  ∀ room, w.engine.roomCoverage.get? room = w.summaries.findSome? fun s => rowIn s room

theorem Recorded.watch (h : Recorded w) (op : Op) : Recorded (watch cfg w op) := by
  intro room
  change (step cfg w.engine op).roomCoverage.get? room = _
  rw [get?_step, h room]
  unfold Rules.watch
  cases applied cfg w.engine op with
  | none => rfl
  | some s =>
    rw [Option.toList_some, List.singleton_append, List.findSome?_cons, Option.bind_some]
    cases rowIn s room <;> rfl

theorem Recorded.isSome_iff (h : Recorded w) :
    (w.engine.roomCoverage.get? room).isSome ↔ ∃ s ∈ w.summaries, Names s room := by
  rw [h room, List.findSome?_isSome_iff]
  simp only [rowIn_isSome]

theorem latestRow_isSome :
    (latestRow w room).isSome ↔ ∃ s, w.summaries.head? = some s ∧ Names s room := by
  unfold latestRow
  cases w.summaries.head? with
  | none => simp
  | some s => simp [rowIn_isSome]

/-- Where the latest summary names all that was named, its row is the one that is held. -/
theorem Recorded.get?_eq_latestRow (h : Recorded w) (hkeeps : Keeps w) (room : String) :
    w.engine.roomCoverage.get? room = latestRow w room := by
  by_cases hroom : ∃ s ∈ w.summaries, Names s room
  · obtain ⟨s, hs, hnames⟩ := hkeeps room hroom
    obtain ⟨rest, hrest⟩ := List.head?_eq_some_iff.mp hs
    obtain ⟨row, hrow⟩ := Option.isSome_iff_exists.mp (rowIn_isSome.mpr hnames)
    rw [h room, latestRow, hrest, List.findSome?_cons, hrow]
    exact hrow.symm
  · have hold : w.engine.roomCoverage.get? room = none :=
      Option.not_isSome_iff_eq_none.mp fun hsome => hroom (h.isSome_iff.mp hsome)
    have hnone : latestRow w room = none := by
      refine Option.not_isSome_iff_eq_none.mp fun hsome => hroom ?_
      obtain ⟨s, hs, hnames⟩ := latestRow_isSome.mp hsome
      exact ⟨s, List.mem_of_head? hs, hnames⟩
    rw [hold, hnone]

theorem Recorded.follows_iff (h : Recorded w) : Follows cfg w ↔ Keeps w := by
  constructor
  · intro hfollows room hroom
    have hseen := hfollows ⟨room, false, 0, 0, none, none⟩ 0
    rw [stateTold_handle] at hseen
    have hsome := congrArg (fun b => b.map fun b => b.seen.isSome) hseen
    simp only [stateBody, Option.map_some, Option.isSome_map, Option.some.injEq] at hsome
    rw [← latestRow_isSome, ← hsome]
    exact h.isSome_iff.mpr hroom
  · intro hkeeps rs now
    rw [stateTold_handle, h.get?_eq_latestRow hkeeps]

end

/-- The rows follow the latest summary as long as no room drops out of it. -/
theorem coverage_follows_latest (ops : List Op) :
    AllStates (watch cfg) (Follows cfg) .start ops ↔ AllStates (watch cfg) Keeps .start ops := by
  have hstart : Recorded .start := fun _ => rfl
  exact allStates_congr_of_invariant (I := Recorded) (fun _ op h => h.watch op) (fun _ h => h.follows_iff)
    hstart

/-- The kitchen was uncovered, and is not in the latest summary: a reading of it is still told as that of
an unavailable room. -/
theorem dropped_room_stays_blind :
    ¬ AllStates (watch ⟨false, 10, false⟩) (Follows ⟨false, 10, false⟩) .start
      [.handleCoverage ⟨[], ["kitchen"]⟩, .handleCoverage ⟨[], ["pantry"]⟩] := by
  intro h
  have hkitchen := h.2.2 ⟨"kitchen", false, 0, 0, none, none⟩ 0
  revert hkitchen
  decide +kernel

end Wavr.Rules
