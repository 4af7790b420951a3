import Wavr.Debounce
import Wavr.Watch

/-!
# When intrusion alerts are raised

Each room of the log is a debounced edge of its own, whatever is recorded of other rooms.
-/

namespace Wavr.Watch
open Run

/-- The log behind a verdict. -/
def recorded (s : IntrusionAlertLog) (v : Verdict) : IntrusionAlertLog := (record v s).2

/-- A verdict that returns an alert. -/
def Raises (s : IntrusionAlertLog) (v : Verdict) : Prop := (record v s).1 ≠ none

instance (s : IntrusionAlertLog) (v : Verdict) : Decidable (Raises s v) :=
  inferInstanceAs (Decidable (_ ≠ _))

/-- What was observed of the room. -/
def observed (room : Room) (vs : List Verdict) : List Bool :=
  (vs.filter fun v => v.room = room).map Verdict.unrecognized

/-- What was observed of the room while it was not confirmed. -/
def unconfirmed (room : Room) (s : IntrusionAlertLog) (vs : List Verdict) : List Bool :=
  outputs recorded (fun s v => if v.room = room ∧ room ∉ s.active then some v.unrecognized else none) s vs

/-- The room as a debounced edge. -/
def gate (room : Room) (s : IntrusionAlertLog) : Debounce.Gate :=
  if room ∈ s.active then .confirmed ((s.clearStreak.get? room).getD 0)
  else .rising ((s.windows.get? room).getD [])

/-- Only confirmed rooms have a streak, and the bounds are those of the constructor. -/
structure Orderly (n m : ℕ) (s : IntrusionAlertLog) : Prop where
  streak : ∀ room ∉ s.active, s.clearStreak.get? room = none
  debounce : s.debounce = n
  windowSize : s.windowSize = m

section
variable {n m : ℕ} {s : IntrusionAlertLog} {v : Verdict} {vs : List Verdict} {room : Room}

@[simp] theorem isRising_gate : (gate room s).isRising = true ↔ room ∉ s.active := by
  unfold gate
  split
  · rename_i h
    simp [Debounce.Gate.isRising, h]
  · rename_i h
    simp [Debounce.Gate.isRising, h]

theorem orderly_newLog (maxAlerts debounce : ℤ) :
    Orderly (newLog maxAlerts debounce).debounce (newLog maxAlerts debounce).windowSize
      (newLog maxAlerts debounce) :=
  ⟨fun _ _ => rfl, rfl, rfl⟩

/-- A verdict is about its own room only. -/
theorem recorded_frame (v : Verdict) (h : room ≠ v.room) :
    (room ∈ (recorded s v).active ↔ room ∈ s.active) ∧
      (recorded s v).clearStreak.get? room = s.clearStreak.get? room ∧
      (recorded s v).windows.get? room = s.windows.get? room := by
  unfold recorded record
  split
  · split
    · simp [h]
    · dsimp only
      split
      · simp [h]
      · simp [h]
  · dsimp only
    split
    · simp [h]
    · split
      · simp [h]
      · simp [h]

/-- A verdict moves the edge of its room, and leaves no streak behind where that rises. -/
theorem recorded_own (v : Verdict) (hstreak : v.room ∉ s.active → s.clearStreak.get? v.room = none) :
    gate v.room (recorded s v) =
        Debounce.step s.debounce s.windowSize (gate v.room s) v.unrecognized ∧
      (v.room ∉ (recorded s v).active → (recorded s v).clearStreak.get? v.room = none) := by
  by_cases hactive : v.room ∈ s.active
  · cases hseen : v.unrecognized with
    | true => simp [gate, recorded, record, hactive, hseen, Debounce.step]
    | false =>
      by_cases hlong : (s.clearStreak.get? v.room).getD 0 + 1 < s.debounce
      · simp [gate, recorded, record, hactive, hseen, Debounce.step, hlong]
      · simp [gate, recorded, record, hactive, hseen, Debounce.step, hlong]
  · have hnone := hstreak hactive
    have hgate : gate v.room s = .rising ((s.windows.get? v.room).getD []) := if_neg hactive
    rw [hgate, Debounce.step_rising]
    unfold recorded record
    rw [if_neg hactive]
    unfold push
    unfold List.rtake
    dsimp only
    split
    · simp [gate, hactive, hnone]
    · split
      · simp [gate, hactive, hnone]
      · simp [gate, hnone]

theorem Orderly.recorded (h : Orderly n m s) (v : Verdict) : Orderly n m (recorded s v) := by
  have hbounds : (Watch.recorded s v).debounce = s.debounce ∧
      (Watch.recorded s v).windowSize = s.windowSize := by
    unfold Watch.recorded record
    split
    · split
      · exact ⟨rfl, rfl⟩
      · dsimp only
        split <;> exact ⟨rfl, rfl⟩
    · dsimp only
      split
      · exact ⟨rfl, rfl⟩
      · split <;> exact ⟨rfl, rfl⟩
  refine ⟨fun room hroom => ?_, hbounds.1.trans h.debounce, hbounds.2.trans h.windowSize⟩
  by_cases hown : room = v.room
  · subst hown
    exact (recorded_own v (h.streak v.room)).2 hroom
  · obtain ⟨hactive, hstreak, -⟩ := recorded_frame (s := s) v hown
    rw [hstreak]
    exact h.streak room (hactive.not.mp hroom)

/-- A verdict moves the edge of its own room, and no other. -/
theorem gate_recorded (h : Orderly n m s) (v : Verdict) :
    gate room (recorded s v) =
      if v.room = room then Debounce.step n m (gate room s) v.unrecognized else gate room s := by
  by_cases hown : v.room = room
  · subst hown
    rw [if_pos rfl, (recorded_own v (h.streak v.room)).1, h.debounce, h.windowSize]
  · obtain ⟨hactive, hstreak, hwindow⟩ := recorded_frame (s := s) v (Ne.symm hown)
    rw [if_neg hown, gate, gate, hstreak, hwindow]
    simp only [hactive]

theorem raises_iff (h : Orderly n m s) :
    Raises s v ↔ Debounce.fires n m (gate v.room s) v.unrecognized = true := by
  have hgate := (recorded_own v (h.streak v.room)).1
  rw [h.debounce, h.windowSize] at hgate
  rw [Debounce.fires, ← hgate, Bool.and_eq_true, Bool.not_eq_true', ← Bool.not_eq_true,
    isRising_gate, isRising_gate, not_not]
  by_cases hv : Confirms v s
  · rw [Raises, recorded, record_confirms hv]
    simp [hv.1]
  · obtain ⟨hnone, -, -, hsub⟩ := record_quiet hv
    rw [Raises, hnone]
    exact ⟨fun h => absurd rfl h, fun h => absurd (hsub h.2) h.1⟩

theorem orderly_finish (h : Orderly n m s) (vs : List Verdict) : Orderly n m (finish recorded s vs) := by
  induction vs generalizing s with
  | nil => exact h
  | cons v vs ih => exact ih (h.recorded v)

/-- The edge of a room after a run is the one that ran over what was observed of it. -/
theorem gate_finish (h : Orderly n m s) (vs : List Verdict) :
    gate room (finish recorded s vs) =
      finish (Debounce.step n m) (gate room s) (observed room vs) := by
  induction vs generalizing s with
  | nil => rfl
  | cons v vs ih =>
    rw [finish_cons, ih (h.recorded v), gate_recorded h]
    by_cases hroom : v.room = room
    · simp [observed, hroom]
    · simp [observed, hroom]

theorem unconfirmed_eq (h : Orderly n m s) (vs : List Verdict) :
    unconfirmed room s vs = Debounce.unconfirmed n m (gate room s) (observed room vs) := by
  induction vs generalizing s with
  | nil => rfl
  | cons v vs ih =>
    have hrest : unconfirmed room s (v :: vs) =
        (if v.room = room ∧ room ∉ s.active then some v.unrecognized else none).toList ++
          unconfirmed room (recorded s v) vs := rfl
    rw [hrest, ih (h.recorded v), gate_recorded h]
    by_cases hroom : v.room = room
    · have hobserved : observed room (v :: vs) = v.unrecognized :: observed room vs := by
        simp [observed, hroom]
      rw [hobserved, if_pos hroom, Debounce.unconfirmed, outputs]
      simp only [hroom, true_and, isRising_gate]
    · simp [observed, hroom]

/-! ## Alerts of one room -/

/-- Between two alerts of a room, `n` clear observations of it stand in a row. -/
theorem clear_between (h : Orderly n m s) {v v' : Verdict} {mid : List Verdict} (hroom : v.room = room)
    (hroom' : v'.room = room) (hraises : Raises s v)
    (hraises' : Raises (finish recorded (recorded s v) mid) v') :
    List.replicate n false <:+: observed room mid := by
  subst hroom
  obtain ⟨-, -, -, hconfirmed⟩ := Debounce.fires_eq_true ((raises_iff h).mp hraises)
  obtain ⟨w, hrising, -, -⟩ :=
    Debounce.fires_eq_true ((raises_iff (orderly_finish (h.recorded v) mid)).mp hraises')
  rw [hroom', gate_finish (h.recorded v), gate_recorded h, if_pos rfl, hconfirmed] at hrising
  apply Debounce.released (m := m)
  rw [hrising]
  rfl

theorem allStates_gate (h : Orderly n m s) {mid : List Verdict}
    (hquiet : AllStates recorded (fun s => room ∉ s.active) s mid) :
    AllStates (Debounce.step n m) (fun g => g.isRising = true) (gate room s) (observed room mid) := by
  induction mid generalizing s with
  | nil => exact isRising_gate.mpr hquiet
  | cons v mid ih =>
    have hrest := ih (h.recorded v) hquiet.2
    rw [gate_recorded h] at hrest
    by_cases hroom : v.room = room
    · rw [if_pos hroom] at hrest
      have hobserved : observed room (v :: mid) = v.unrecognized :: observed room mid := by
        simp [observed, hroom]
      rw [hobserved]
      exact ⟨isRising_gate.mpr hquiet.1, hrest⟩
    · rw [if_neg hroom] at hrest
      have hobserved : observed room (v :: mid) = observed room mid := by simp [observed, hroom]
      rw [hobserved]
      exact hrest

end

theorem windowSize_newLog (maxAlerts debounce : ℤ) :
    0 < (newLog maxAlerts debounce).debounce ∧
      (newLog maxAlerts debounce).windowSize = 2 * (newLog maxAlerts debounce).debounce := by
  unfold newLog
  dsimp only
  omega

/-- Whatever is recorded of other rooms: between two alerts of a room `debounce` clear observations of
it stand in a row; an alert comes with an observation where `debounce` of the last `2 * debounce`
unconfirmed ones are true; and `2 * debounce` observations in a row never hold that many while the
room stays unconfirmed. -/
theorem intrusion_debounced (maxAlerts debounce : ℤ) (room : Room) (vs : List Verdict) :
    let log := newLog maxAlerts debounce
    let n := log.debounce
    (∀ pre v mid v' post, vs = pre ++ v :: (mid ++ v' :: post) → v.room = room → v'.room = room →
        Raises (finish recorded log pre) v → Raises (finish recorded log (pre ++ v :: mid)) v' →
        List.replicate n false <:+: observed room mid) ∧
      (∀ pre v post, vs = pre ++ v :: post → v.room = room → Raises (finish recorded log pre) v →
        n ≤ ((unconfirmed room log (pre ++ [v])).rtake (2 * n)).count true) ∧
      ∀ pre mid post, vs = pre ++ (mid ++ post) → (observed room mid).length ≤ 2 * n →
        AllStates recorded (fun s => room ∉ s.active) (finish recorded log pre) mid →
        (observed room mid).count true < n := by
  intro log n
  have h : Orderly n (2 * n) log := by
    have horderly := orderly_newLog maxAlerts debounce
    rw [(windowSize_newLog maxAlerts debounce).2] at horderly
    exact horderly
  have hstart : gate room log = .rising [] := rfl
  refine ⟨?_, ?_, ?_⟩
  · intro pre v mid v' post _ hroom hroom' hraises hraises'
    rw [finish_append, finish_cons] at hraises'
    exact clear_between (orderly_finish h pre) hroom hroom' hraises hraises'
  · rintro pre v post - rfl hraises
    have hfires := (raises_iff (orderly_finish h pre)).mp hraises
    rw [gate_finish h, hstart] at hfires
    have hactive : v.room ∉ (finish recorded log pre).active := by
      obtain ⟨w, hrising, -, -⟩ := Debounce.fires_eq_true ((raises_iff (orderly_finish h pre)).mp hraises)
      rw [← isRising_gate, hrising]
      rfl
    -- the raise itself is the last of the observations since the room was clear
    have hlast : unconfirmed v.room log (pre ++ [v]) =
        Debounce.unconfirmed n (2 * n) (.rising []) (observed v.room pre) ++ [v.unrecognized] := by
      rw [← hstart, ← unconfirmed_eq h]
      unfold unconfirmed
      rw [outputs_append]
      simp [outputs, hactive]
    rw [hlast]
    exact Debounce.fires_sound hfires
  · intro pre mid post _ hlen hquiet
    exact Debounce.count_lt_of_rising (windowSize_newLog maxAlerts debounce).1 hlen
      (allStates_gate (orderly_finish h pre) hquiet)

end Wavr.Watch
