import Mathlib.Data.Finset.Card
import Mathlib.Data.Int.Order.Basic
import Wavr.Dict
import Wavr.Run

/-!
# Intrusion alerts

`IntrusionAlertLog`: a leaky window for each room that is not confirmed, a streak of clear
verdicts for each that is, and one ring of alerts for all rooms together.
-/

namespace Wavr.Watch
open Run

def SEVERITY_ALERT : String := "alert"

/-- A room's name, or none for the house as a whole. -/
abbrev Room := Option String

structure IntrusionAlert where
  room : Room
  personCount : ℤ
  knownPresent : ℤ
  severity : String
  ts : String
  deriving DecidableEq

structure IntrusionAlertLog where
  alerts : List IntrusionAlert
  /-- The rooms that are confirmed: their edge has fired and they are not de-armed yet. -/
  active : Finset Room
  debounce : ℕ
  windowSize : ℕ
  windows : Dict Room (List Bool)
  clearStreak : Dict Room ℕ
  max : ℤ
  deriving DecidableEq

def newLog (maxAlerts debounce : ℤ) : IntrusionAlertLog :=
  let debounce := (Max.max 1 debounce).toNat
  ⟨[], ∅, debounce, Max.max (2 * debounce) 2, .empty, .empty, maxAlerts⟩

/-- `deque(maxlen = size)`: what is appended to a full one pushes the oldest out. -/
def push (size : ℕ) (window : List Bool) (b : Bool) : List Bool :=
  (window ++ [b]).drop ((window ++ [b]).length - size)

/-- `alerts[-n:]`. -/
def lastOf {α : Type*} (n : ℤ) (l : List α) : List α :=
  if 0 < n then l.drop (l.length - n.toNat) else l.drop (-n).toNat

def trim {α : Type*} (max : ℤ) (l : List α) : List α := if max < l.length then lastOf max l else l

/-- A call of `record`, with the reading of the clock that it may take. -/
structure Verdict where
  room : Room
  unrecognized : Bool
  personCount : Option ℤ
  knownPresent : ℤ
  ts : Option String
  now : String
  deriving DecidableEq

def Verdict.alert (v : Verdict) : IntrusionAlert where
  room := v.room
  personCount := v.personCount.getD 0
  knownPresent := Max.max 0 v.knownPresent
  severity := SEVERITY_ALERT
  ts := match v.ts with
    | some ts => if ts = "" then v.now else ts
    | none => v.now

def record (v : Verdict) (s : IntrusionAlertLog) : Option IntrusionAlert × IntrusionAlertLog :=
  if v.room ∈ s.active then
    if v.unrecognized then (none, { s with clearStreak := s.clearStreak.erase v.room })
    else
      let streak := (s.clearStreak.get? v.room).getD 0 + 1
      if streak < s.debounce then (none, { s with clearStreak := s.clearStreak.set v.room streak })
      else
        (none, { s with
          clearStreak := s.clearStreak.erase v.room
          active := s.active.erase v.room
          windows := s.windows.erase v.room })
  else
    let window := push s.windowSize ((s.windows.get? v.room).getD []) v.unrecognized
    if v.unrecognized = false ∧ window.count true = 0 then
      (none, { s with windows := s.windows.erase v.room })
    else if window.count true < s.debounce then
      (none, { s with windows := s.windows.set v.room window })
    else
      (some v.alert, { s with
        windows := s.windows.erase v.room
        active := insert v.room s.active
        alerts := trim s.max (s.alerts ++ [v.alert]) })

def reset (s : IntrusionAlertLog) : IntrusionAlertLog :=
  { s with active := ∅, windows := .empty, clearStreak := .empty }

/-- The walk of `active_alerts`, which ends when every active room is found. -/
def collect (active : Finset Room) :
    List IntrusionAlert → Dict Room IntrusionAlert → Dict Room IntrusionAlert
  | [], found => found
  | alert :: alerts, found =>
    if alert.room ∈ active ∧ found.get? alert.room = none then
      let found := found.set alert.room alert
      if found.entries.length = active.card then found else collect active alerts found
    else collect active alerts found

def activeAlerts (s : IntrusionAlertLog) : List IntrusionAlert :=
  if s.active = ∅ then [] else (collect s.active s.alerts.reverse .empty).values

/-- The log, and every alert it ever raised. -/
structure System where
  log : IntrusionAlertLog
  history : List IntrusionAlert
  deriving DecidableEq

def init (maxAlerts debounce : ℤ) : System := ⟨newLog maxAlerts debounce, []⟩

inductive Op
  | record (v : Verdict)
  | reset

def step (s : System) : Op → System
  | .record v => ⟨(record v s.log).2, s.history ++ (record v s.log).1.toList⟩
  | .reset => { s with log := reset s.log }

/-- The alert that was recorded last for the room. -/
def latest (room : Room) (history : List IntrusionAlert) : Option IntrusionAlert :=
  (history.filter fun alert => alert.room = room).getLast?

/-- `active_alerts` has the latest alert of every active room, once, and no other alert. -/
def Complete (s : System) : Prop :=
  (∀ room ∈ s.log.active, ∃ alert, latest room s.history = some alert ∧
    (activeAlerts s.log).filter (fun alert => alert.room = room) = [alert]) ∧
  ∀ alert ∈ activeAlerts s.log, alert.room ∈ s.log.active

/-- The verdict is the one that confirms its room. -/
def Confirms (v : Verdict) (s : IntrusionAlertLog) : Prop :=
  let count := (push s.windowSize ((s.windows.get? v.room).getD []) v.unrecognized).count true
  v.room ∉ s.active ∧ ¬ (v.unrecognized = false ∧ count = 0) ∧ s.debounce ≤ count

/-- The ring is full, and its oldest alert is the only one in it of an active room. -/
def LastOfItsRoom (s : IntrusionAlertLog) : Prop :=
  s.max ≤ s.alerts.length ∧
    ∃ oldest ∈ s.alerts.head?, oldest.room ∈ s.active ∧
      ∀ alert ∈ s.alerts.tail, alert.room ≠ oldest.room

/-- No room is confirmed at the cost of the only alert of another. -/
def Keeps (s : System) : Op → Prop
  | .record v => ¬ (Confirms v s.log ∧ LastOfItsRoom s.log)
  | .reset => True

section
variable {s : IntrusionAlertLog} {v : Verdict}

instance (v : Verdict) (s : IntrusionAlertLog) : Decidable (Confirms v s) :=
  inferInstanceAs (Decidable (_ ∧ _))

instance (s : IntrusionAlertLog) : Decidable (LastOfItsRoom s) :=
  inferInstanceAs (Decidable (s.max ≤ s.alerts.length ∧
    ∃ oldest ∈ s.alerts.head?, oldest.room ∈ s.active ∧
      ∀ alert ∈ s.alerts.tail, alert.room ≠ oldest.room))

instance (s : System) : DecidablePred (Keeps s)
  | .record v => inferInstanceAs (Decidable (¬ (Confirms v s.log ∧ LastOfItsRoom s.log)))
  | .reset => .isTrue trivial

/-! ## What a verdict does -/

/-- A confirming verdict arms its room and puts its alert in the ring. -/
theorem record_confirms (h : Confirms v s) :
    record v s = (some v.alert, { s with
      windows := s.windows.erase v.room
      active := insert v.room s.active
      alerts := trim s.max (s.alerts ++ [v.alert]) }) := by
  obtain ⟨hroom, hprogress, henough⟩ := h
  unfold record
  rw [if_neg hroom]
  dsimp only
  rw [if_neg hprogress, if_neg (Nat.not_lt.mpr henough)]

/-- Any other verdict leaves the ring alone and confirms no room. -/
theorem record_quiet (h : ¬ Confirms v s) :
    (record v s).1 = none ∧ (record v s).2.alerts = s.alerts ∧ (record v s).2.max = s.max ∧
      (record v s).2.active ⊆ s.active := by
  unfold record
  split
  · split
    · exact ⟨rfl, rfl, rfl, Finset.Subset.refl _⟩
    · dsimp only
      split
      · exact ⟨rfl, rfl, rfl, Finset.Subset.refl _⟩
      · exact ⟨rfl, rfl, rfl, Finset.erase_subset _ _⟩
  · rename_i hroom
    dsimp only
    split
    · exact ⟨rfl, rfl, rfl, Finset.Subset.refl _⟩
    · rename_i hprogress
      split
      · exact ⟨rfl, rfl, rfl, Finset.Subset.refl _⟩
      · rename_i henough
        exact absurd ⟨hroom, hprogress, Nat.not_lt.mp henough⟩ h

/-! ## The walk -/

/-- Rooms found as many as are active: all of them are found. -/
theorem found_of_card {active : Finset Room} {found : Dict Room IntrusionAlert}
    (hfound : ∀ room, found.get? room ≠ none → room ∈ active)
    (hcard : found.entries.length = active.card) {room : Room} (hroom : room ∈ active) :
    found.get? room ≠ none := by
  have hsub : found.keys.toFinset ⊆ active := by
    intro r hr
    exact hfound r (Option.isSome_iff_ne_none.mp (Dict.mem_keys.mp (List.mem_toFinset.mp hr)))
  have hlen : found.keys.toFinset.card = active.card := by
    refine (List.toFinset_card_of_nodup found.nodup).trans ?_
    rw [List.length_map, hcard]
  rw [← Finset.eq_of_subset_of_card_le hsub hlen.ge] at hroom
  exact Option.isSome_iff_ne_none.mp (Dict.mem_keys.mp (List.mem_toFinset.mp hroom))

theorem collect_get? (active : Finset Room) (alerts : List IntrusionAlert)
    {found : Dict Room IntrusionAlert} (hfound : ∀ room, found.get? room ≠ none → room ∈ active)
    {room : Room} (hroom : room ∈ active) :
    (collect active alerts found).get? room =
      (found.get? room).or (alerts.find? fun alert => alert.room = room) := by
  induction alerts generalizing found with
  | nil => simp [collect]
  | cons alert alerts ih =>
    rw [collect]
    split
    · rename_i hnew
      have hfound' : ∀ r, (found.set alert.room alert).get? r ≠ none → r ∈ active := by
        intro r hr
        rw [Dict.get?_set] at hr
        split at hr
        · rename_i h
          rw [h]
          exact hnew.1
        · exact hfound r hr
      have hstep : ((found.set alert.room alert).get? room).or
          (alerts.find? fun alert => alert.room = room) =
            (found.get? room).or ((alert :: alerts).find? fun alert => alert.room = room) := by
        rw [Dict.get?_set]
        by_cases h : room = alert.room
        · subst h
          simp [hnew.2]
        · have h' : ¬ alert.room = room := fun he => h he.symm
          simp [h, h']
      dsimp only
      split
      · rename_i hcard
        -- the walk stops here, with every active room found
        rw [← hstep, Option.or_of_isSome
          (Option.isSome_iff_ne_none.mpr (found_of_card hfound' hcard hroom))]
      · rw [ih hfound', hstep]
    · rename_i hold
      rw [ih hfound]
      by_cases h : alert.room = room
      · have hsome : found.get? room ≠ none := by
          rw [← h]
          rw [← h] at hroom
          exact fun hn => hold ⟨hroom, hn⟩
        rw [Option.or_of_isSome (Option.isSome_iff_ne_none.mpr hsome),
          Option.or_of_isSome (Option.isSome_iff_ne_none.mpr hsome)]
      · simp [h]

/-- The walk finds alerts of active rooms, each under its room. -/
theorem collect_entries (active : Finset Room) (alerts : List IntrusionAlert)
    {found : Dict Room IntrusionAlert}
    (hfound : ∀ room alert, found.get? room = some alert → room ∈ active ∧ alert.room = room)
    {room : Room} {alert : IntrusionAlert}
    (h : (collect active alerts found).get? room = some alert) :
    room ∈ active ∧ alert.room = room := by
  induction alerts generalizing found with
  | nil => exact hfound room alert h
  | cons a alerts ih =>
    rw [collect] at h
    split at h
    · rename_i hnew
      have hfound' : ∀ r b, (found.set a.room a).get? r = some b → r ∈ active ∧ b.room = r := by
        intro r b hb
        rw [Dict.get?_set] at hb
        split at hb
        · rename_i hr
          cases hb
          exact ⟨hr ▸ hnew.1, hr.symm⟩
        · exact hfound r b hb
      dsimp only at h
      split at h
      · exact hfound' room alert h
      · exact ih hfound' h
    · exact ih hfound h

theorem activeAlerts_filter (s : IntrusionAlertLog) {room : Room} (hroom : room ∈ s.active) :
    (activeAlerts s).filter (fun alert => alert.room = room) =
      (s.alerts.reverse.find? fun alert => alert.room = room).toList := by
  have hne : ¬ s.active = ∅ := fun h => by simp [h] at hroom
  rw [activeAlerts, if_neg hne, Dict.values_filter_of_key, collect_get? _ _ (by simp) hroom]
  · simp
  · exact fun room alert h => (collect_entries _ _ (by simp) h).2

theorem mem_activeAlerts {s : IntrusionAlertLog} {alert : IntrusionAlert}
    (h : alert ∈ activeAlerts s) : alert.room ∈ s.active := by
  unfold activeAlerts at h
  split at h
  · cases h
  · obtain ⟨room, hroom⟩ := Dict.mem_values.mp h
    obtain ⟨hactive, hkey⟩ := collect_entries _ _ (by simp) hroom
    rw [hkey]
    exact hactive

/-! ## The ring -/

/-- The ring is the end of the history. -/
def Tail (max : ℤ) (s : System) : Prop :=
  s.log.max = max ∧ s.log.alerts = s.history.drop (s.history.length - max.toNat)

/-- Each active room has an alert in the ring. -/
def Covered (s : IntrusionAlertLog) : Prop :=
  ∀ room ∈ s.active, ∃ alert ∈ s.alerts, alert.room = room

theorem trim_append {α : Type*} {max : ℤ} (hmax : 1 ≤ max) (l : List α) (x : α) :
    trim max (l.drop (l.length - max.toNat) ++ [x]) =
      (l ++ [x]).drop ((l ++ [x]).length - max.toNat) := by
  obtain ⟨m, rfl⟩ := Int.eq_ofNat_of_zero_le (by omega : 0 ≤ max)
  have hm : 1 ≤ m := by omega
  have hlen : (l.drop (l.length - m) ++ [x]).length = min l.length m + 1 := by
    simp only [List.length_append, List.length_drop, List.length_singleton]
    omega
  have hx : (l ++ [x]).length = l.length + 1 := by simp
  unfold trim lastOf
  rw [Int.toNat_natCast, hlen, hx]
  rcases Nat.lt_or_ge l.length m with hlt | hge
  · have h0 : l.length - m = 0 := by omega
    have h1 : l.length + 1 - m = 0 := by omega
    rw [if_neg (by push_cast; omega), h0, h1]
    rfl
  · have h1 : min l.length m + 1 - m = 1 := by omega
    have h2 : l.length + 1 - m = l.length - m + 1 := by omega
    rw [if_pos (by push_cast; omega), if_pos (by omega), h1, h2,
      List.drop_append_of_le_length (by simp; omega), List.drop_drop,
      List.drop_append_of_le_length (by omega)]

theorem Complete.of_covered {max : ℤ} {s : System} (ht : Tail max s) (hc : Covered s.log) :
    Complete s := by
  refine ⟨fun room hroom => ?_, fun alert h => mem_activeAlerts h⟩
  obtain ⟨alert, hmem, halert⟩ := hc room hroom
  have hsome : (s.log.alerts.reverse.find? fun alert => decide (alert.room = room)).isSome := by
    rw [List.find?_isSome]
    exact ⟨alert, List.mem_reverse.mpr hmem, decide_eq_true halert⟩
  obtain ⟨last, hlast⟩ := Option.isSome_iff_exists.mp hsome
  refine ⟨last, ?_, ?_⟩
  · -- the end of the history already holds an alert of the room
    rw [latest, List.getLast?_filter, ← List.take_append_drop (s.history.length - max.toNat) s.history,
      List.reverse_append, List.find?_append, ← ht.2, hlast, Option.some_or]
  · rw [activeAlerts_filter s.log hroom, hlast, Option.toList_some]

theorem Complete.covered {s : System} (h : Complete s) : Covered s.log := by
  intro room hroom
  obtain ⟨alert, -, hfilter⟩ := h.1 room hroom
  rw [activeAlerts_filter s.log hroom] at hfilter
  have hfind : (s.log.alerts.reverse.find? fun alert => decide (alert.room = room)) = some alert := by
    rw [Option.toList_eq_singleton_iff] at hfilter
    exact hfilter
  have hmem := List.mem_of_find?_eq_some hfind
  have hroom := List.find?_some hfind
  exact ⟨alert, List.mem_reverse.mp hmem, of_decide_eq_true hroom⟩

theorem trim_of_lt {α : Type*} {max : ℤ} {l : List α} (h : l.length < max) (x : α) :
    trim max (l ++ [x]) = l ++ [x] := by
  unfold trim
  rw [if_neg (by simp; omega)]

/-- A full ring loses its oldest alert. -/
theorem trim_of_full {α : Type*} {max : ℤ} {l : List α} (hmax : 1 ≤ max) (h : max = l.length)
    (x : α) : trim max (l ++ [x]) = l.tail ++ [x] := by
  cases l with
  | nil => simp at h; omega
  | cons y l =>
    unfold trim lastOf
    rw [if_pos (by simp at h ⊢; omega), if_pos (by omega)]
    have hdrop : (y :: l ++ [x]).length - max.toNat = 1 := by
      simp at h ⊢
      omega
    rw [hdrop]
    rfl

theorem Tail.length_le {max : ℤ} {s : System} (ht : Tail max s) (hmax : 1 ≤ max) :
    s.log.alerts.length ≤ max := by
  rw [ht.2, List.length_drop]
  omega

theorem Tail.step {max : ℤ} {s : System} (ht : Tail max s) (hmax : 1 ≤ max) (op : Op) :
    Tail max (step s op) := by
  cases op with
  | reset => exact ht
  | record v =>
    by_cases hv : Confirms v s.log
    · show Tail max ⟨(record v s.log).2, s.history ++ (record v s.log).1.toList⟩
      rw [record_confirms hv]
      refine ⟨ht.1, ?_⟩
      dsimp only
      rw [ht.1, ht.2, Option.toList_some, trim_append hmax]
    · obtain ⟨hnone, halerts, hmax', -⟩ := record_quiet hv
      refine ⟨hmax'.trans ht.1, halerts.trans ?_⟩
      show s.log.alerts = (s.history ++ (record v s.log).1.toList).drop
        ((s.history ++ (record v s.log).1.toList).length - max.toNat)
      rw [hnone, Option.toList_none, List.append_nil]
      exact ht.2

/-- A ring with a free place takes the new alert and drops nothing. -/
theorem covered_confirms_free {max : ℤ} (hm : s.max = max) (hlt : s.alerts.length < max)
    (hc : Covered s) (hv : Confirms v s) : Covered (record v s).2 := by
  rw [record_confirms hv]
  intro room hroom
  dsimp only at hroom ⊢
  rw [hm, trim_of_lt hlt]
  rcases Finset.mem_insert.mp hroom with rfl | hroom
  · exact ⟨v.alert, by simp, rfl⟩
  · obtain ⟨alert, hmem, halert⟩ := hc room hroom
    exact ⟨alert, List.mem_append_left _ hmem, halert⟩

/-- A room whose alert is pushed out has another one, unless that was the last of its room. -/
theorem exists_alert_tail {max : ℤ} (hm : s.max = max) (hfull : max ≤ s.alerts.length)
    (hc : Covered s) (hlast : ¬ LastOfItsRoom s) {room : Room} (hroom : room ∈ s.active) :
    ∃ alert ∈ s.alerts.tail, alert.room = room := by
  obtain ⟨alert, hmem, halert⟩ := hc room hroom
  cases hring : s.alerts with
  | nil => simp [hring] at hmem
  | cons oldest rest =>
    rw [hring] at hmem
    rcases List.mem_cons.mp hmem with rfl | hrest
    · by_contra hno
      refine hlast ⟨by omega, alert, by simp [hring], halert ▸ hroom, ?_⟩
      intro other hother he
      rw [hring] at hother
      exact hno ⟨other, hother, he.trans halert⟩
    · exact ⟨alert, hrest, halert⟩

/-- A confirming verdict leaves every active room an alert exactly when it does not push out
the only one of a room. -/
theorem covered_confirms {max : ℤ} (hmax : 1 ≤ max) (hm : s.max = max)
    (hlen : s.alerts.length ≤ max) (hc : Covered s) (hv : Confirms v s) :
    Covered (record v s).2 ↔ ¬ LastOfItsRoom s := by
  rcases lt_or_eq_of_le hlen with hlt | heq
  · exact iff_of_true (covered_confirms_free hm hlt hc hv) fun h => absurd h.1 (by omega)
  · have htrim : trim s.max (s.alerts ++ [v.alert]) = s.alerts.tail ++ [v.alert] := by
      rw [hm, trim_of_full hmax heq.symm]
    rw [record_confirms hv]
    constructor
    · rintro hafter ⟨-, oldest, -, hactive, honly⟩
      obtain ⟨alert, hmem, halert⟩ := hafter oldest.room (Finset.mem_insert_of_mem hactive)
      dsimp only at hmem
      rw [htrim] at hmem
      rcases List.mem_append.mp hmem with htail | hnew
      · exact honly alert htail halert
      · rw [List.mem_singleton.mp hnew] at halert
        refine hv.1 ?_
        rw [show v.room = oldest.room from halert]
        exact hactive
    · intro hlast room hroom
      dsimp only at hroom ⊢
      rw [htrim]
      rcases Finset.mem_insert.mp hroom with rfl | hroom
      · exact ⟨v.alert, by simp, rfl⟩
      · obtain ⟨alert, hmem, halert⟩ := exists_alert_tail hm heq.ge hc hlast hroom
        exact ⟨alert, List.mem_append_left _ hmem, halert⟩

theorem covered_step {max : ℤ} (hmax : 1 ≤ max) {s : System} (ht : Tail max s)
    (hc : Covered s.log) (op : Op) : Covered (step s op).log ↔ Keeps s op := by
  cases op with
  | reset => exact iff_of_true (fun room hroom => by simp [step, reset] at hroom) trivial
  | record v =>
    by_cases hv : Confirms v s.log
    · refine (covered_confirms hmax ht.1 (ht.length_le hmax) hc hv).trans ?_
      exact (and_iff_right hv).not.symm
    · refine iff_of_true (fun room hroom => ?_) fun h => hv h.1
      obtain ⟨-, halerts, -, hsub⟩ := record_quiet hv
      obtain ⟨alert, hmem, halert⟩ := hc room (hsub hroom)
      exact ⟨alert, halerts.symm ▸ hmem, halert⟩

end

/-! ## Runs -/

/-- The runs in which `active_alerts` is complete throughout are those in which no room is
confirmed at the cost of the only alert of another. -/
theorem complete_iff {maxAlerts : ℤ} (hmax : 1 ≤ maxAlerts) (debounce : ℤ) (ops : List Op) :
    AllStates step Complete (init maxAlerts debounce) ops ↔
      AllSteps step Keeps (init maxAlerts debounce) ops := by
  refine allStates_iff_allSteps (I := fun s => Tail maxAlerts s ∧ Covered s.log) ?_ ?_ ?_ ?_
  · intro s op h hkeeps
    exact ⟨h.1.step hmax op, (covered_step hmax h.1 h.2 op).mpr hkeeps⟩
  · intro s h
    exact Complete.of_covered h.1 h.2
  · intro s op h hbad hcomplete
    exact hbad ((covered_step hmax h.1 h.2 op).mp hcomplete.covered)
  · exact ⟨⟨rfl, List.drop_nil.symm⟩, fun room hroom => by cases hroom⟩

/-- A verdict with `unrecognized` for the room. -/
def seen (room : String) : Op := .record ⟨some room, true, some 1, 0, none, ""⟩

def clear (room : String) : Op := .record ⟨some room, false, none, 0, none, ""⟩

/-- One room goes and comes back in a ring of one alert. -/
theorem complete_one_room :
    AllStates step Complete (init 1 1) [seen "sala", clear "sala", seen "sala"] :=
  (complete_iff (by decide) 1 _).mpr (by decide +kernel)

/-- A ring of one alert, two rooms: the first is still active when the second is confirmed, and
has no alert left. -/
theorem complete_two_rooms : ¬ AllStates step Complete (init 1 1) [seen "sala", seen "quarto"] := by
  intro h
  obtain ⟨alert, -, hfilter⟩ := h.last.1 (some "sala") (by decide +kernel)
  have hnil : ((activeAlerts (finish step (init 1 1) [seen "sala", seen "quarto"]).log).filter
      fun alert => alert.room = some "sala") = [] := by decide +kernel
  rw [hnil] at hfilter
  cases hfilter

end Wavr.Watch
