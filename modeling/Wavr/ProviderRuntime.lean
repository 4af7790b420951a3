import Mathlib.Algebra.Order.Ring.Rat
import Mathlib.Tactic.Linarith
import Wavr.Dict
import Wavr.Run

/-!
# Restarts of a source

`SourceSupervisor`: the health of every source, and how long to wait before one that ended is
started again.
-/

namespace Wavr.ProviderRuntime
open Run

/-- What the supervisor writes; `silent` is a matter of reading. -/
inductive State
  | stopped
  | running
  | retrying
  | failed
  | completed
  deriving DecidableEq, Repr

def BASE_BACKOFF_S : ℚ := 1
def FAST_BACKOFF_CAP_S : ℚ := 30
def FAST_ATTEMPTS : ℕ := 5
def COLD_PROBE_S : ℚ := 300
def JITTER : ℚ := 1 / 4
def HEALTHY_RUN_S : ℚ := 60

/-- What `random()` may return. -/
abbrev Draw := { r : ℚ // 0 ≤ r ∧ r < 1 }

def nominal (attempt : ℕ) : ℚ :=
  if FAST_ATTEMPTS ≤ attempt then COLD_PROBE_S
  else min (BASE_BACKOFF_S * 2 ^ (attempt - 1)) FAST_BACKOFF_CAP_S

def backoffFor (attempt : ℕ) (rand : Draw) : ℚ :=
  max (1 / 10) (nominal attempt * (1 + JITTER * (2 * rand - 1)))

/-- One source, with the times of a monotonic clock. -/
structure SourceHealth where
  name : String
  state : State
  failures : ℕ
  totalFailures : ℕ
  startedTs : ℚ
  lastEventTs : ℚ
  events : ℕ
  nextAttemptTs : ℚ
  deriving DecidableEq

def newHealth (name : String) : SourceHealth := ⟨name, .stopped, 0, 0, 0, 0, 0, 0⟩

abbrev SourceSupervisor := Dict String SourceHealth

/-- `_ensure`. -/
def ensure (name : String) (s : SourceSupervisor) : SourceHealth := (s.get? name).getD (newHealth name)

def SourceHealth.start (now : ℚ) (h : SourceHealth) : SourceHealth :=
  { h with state := .running, startedTs := now, lastEventTs := 0 }

def SourceHealth.event (now : ℚ) (h : SourceHealth) : SourceHealth :=
  { h with
    lastEventTs := now
    events := h.events + 1
    failures := if h.startedTs ≠ 0 ∧ HEALTHY_RUN_S ≤ now - h.startedTs then 0 else h.failures }

/-- `_schedule`, at `now`. -/
def SourceHealth.schedule (countFailure : Bool) (now : ℚ) (rand : Draw) (h : SourceHealth) :
    ℚ × SourceHealth :=
  let failures := h.failures + 1
  let delay := backoffFor failures rand
  (delay, { h with
    failures
    totalFailures := if countFailure then h.totalFailures + 1 else h.totalFailures
    state := if FAST_ATTEMPTS ≤ failures then .failed else .retrying
    nextAttemptTs := now + delay })

def onStart (name : String) (now : ℚ) (s : SourceSupervisor) : SourceSupervisor :=
  s.set name ((ensure name s).start now)

def onEvent (name : String) (now : ℚ) (s : SourceSupervisor) : SourceSupervisor :=
  match s.get? name with
  | none => s
  | some h => s.set name (h.event now)

def onCompleted (name : String) (now : ℚ) (rand : Draw) (s : SourceSupervisor) :
    Option ℚ × SourceSupervisor :=
  match s.get? name with
  | none => (none, s)
  | some h =>
    let scheduled := h.schedule false now rand
    (some scheduled.1, s.set name { scheduled.2 with state := .completed })

/-- The clock is read at `now`, and again at `later` for the next attempt. -/
def onFailure (name : String) (now later : ℚ) (rand : Draw) (s : SourceSupervisor) :
    Option ℚ × SourceSupervisor :=
  match s.get? name with
  | none => (none, s)
  | some h =>
    let ranFor := if h.startedTs ≠ 0 then now - h.startedTs else 0
    let h := if HEALTHY_RUN_S ≤ ranFor then { h with failures := 0 } else h
    let scheduled := h.schedule true later rand
    (some scheduled.1, s.set name scheduled.2)

/-- The row of the source, created where there is none; what it declares is kept beside it. -/
def register (name : String) (s : SourceSupervisor) : SourceSupervisor := s.set name (ensure name s)

def forget (name : String) (s : SourceSupervisor) : SourceSupervisor := s.erase name

def SourceHealth.stop (h : SourceHealth) : SourceHealth :=
  { h with state := .stopped, failures := 0, nextAttemptTs := 0 }

def onStop (name : String) (s : SourceSupervisor) : SourceSupervisor :=
  match s.get? name with
  | none => s
  | some h => s.set name h.stop

/-- What is read of a source. -/
inductive Reported
  | observed (state : State)
  | silent
  deriving DecidableEq

/-- The heartbeat is the one that the source declared, zero or none if it did not. -/
def SourceHealth.observeSilence (heartbeatS : Option ℚ) (now : ℚ) (h : SourceHealth) : Reported :=
  let heartbeat := heartbeatS.getD 0
  if h.state ≠ .running ∨ heartbeat = 0 then .observed h.state
  else
    let since := now - if h.lastEventTs ≠ 0 then h.lastEventTs else if h.startedTs ≠ 0 then h.startedTs else now
    if heartbeat < since then .silent else .observed .running

def stateOf (name : String) (heartbeatS : Option ℚ) (now : ℚ) (s : SourceSupervisor) : Reported :=
  match s.get? name with
  | none => .observed .stopped
  | some h => h.observeSilence heartbeatS now

/-! ## Attempts -/

/-- How a run ends, with the readings of the clock. -/
inductive Ending
  | completed (now : ℚ)
  | failure (now later : ℚ)
  deriving DecidableEq

def Ending.ts : Ending → ℚ
  | .completed now => now
  | .failure now _ => now

def Ending.raised : Ending → Bool
  | .completed _ => false
  | .failure _ _ => true

/-- One run of a source; no event is behind its end. -/
structure Attempt where
  started : ℚ
  events : List ℚ
  ending : Ending
  rand : Draw
  inside : ∀ t ∈ events, t ≤ ending.ts

/-- A run that counts as a recovery. -/
def Attempt.Long (a : Attempt) : Prop := HEALTHY_RUN_S ≤ a.ending.ts - a.started

instance (a : Attempt) : Decidable a.Long := inferInstanceAs (Decidable (_ ≤ _))

def conclude (name : String) (rand : Draw) (s : SourceSupervisor) : Ending → Option ℚ × SourceSupervisor
  | .completed now => onCompleted name now rand s
  | .failure now later => onFailure name now later rand s

/-- The source runs once; returned is how long to wait before the next time. -/
def attempt (name : String) (s : SourceSupervisor) (a : Attempt) : Option ℚ × SourceSupervisor :=
  conclude name a.rand (a.events.foldl (fun s t => onEvent name t s) (onStart name a.started s)) a.ending

def after (name : String) (s : SourceSupervisor) (a : Attempt) : SourceSupervisor := (attempt name s a).2

/-- The failures that are counted of a source. -/
def failures (name : String) (s : SourceSupervisor) : ℕ := (ensure name s).failures

/-- Up to jitter, the delay is the nominal one of this attempt. -/
def Waits (n : ℕ) (delay : ℚ) : Prop :=
  (1 - JITTER) * nominal n ≤ delay ∧ delay ≤ (1 + JITTER) * nominal n

instance (n : ℕ) (delay : ℚ) : Decidable (Waits n delay) := inferInstanceAs (Decidable (_ ∧ _))

/-- A long run is forgiven what was before it. -/
def Forgives (name : String) (s : SourceSupervisor) (a : Attempt) : Prop :=
  a.Long → ∃ delay ∈ (attempt name s a).1, Waits 1 delay

/-- A long run starts with nothing to forgive, or it is seen to be long: it raises, or has an event
late enough. A start at zero is read as none. -/
def Seen (name : String) (s : SourceSupervisor) (a : Attempt) : Prop :=
  a.Long → failures name s = 0 ∨
    (a.started ≠ 0 ∧ (a.ending.raised = true ∨ ∃ t ∈ a.events, HEALTHY_RUN_S ≤ t - a.started))

/-- Whether the counter goes back to zero before the end of the run is counted. -/
def Attempt.Resets (a : Attempt) : Prop :=
  a.started ≠ 0 ∧ ((∃ t ∈ a.events, HEALTHY_RUN_S ≤ t - a.started) ∨
    (a.ending.raised = true ∧ a.Long))

instance (a : Attempt) : Decidable a.Resets := inferInstanceAs (Decidable (_ ∧ _))

/-! ## The delays -/

theorem nominal_pos (n : ℕ) : 1 ≤ nominal n := by
  unfold nominal
  split
  · decide
  · refine le_min ?_ (by decide)
    rw [BASE_BACKOFF_S, one_mul]
    exact one_le_pow₀ (by decide)

theorem nominal_le (n : ℕ) : nominal n ≤ COLD_PROBE_S := by
  unfold nominal
  split
  · exact le_refl _
  · exact (min_le_right _ _).trans (by decide)

theorem nominal_succ (n : ℕ) : nominal n ≤ nominal (n + 1) := by
  by_cases hn : FAST_ATTEMPTS ≤ n + 1
  · rw [nominal.eq_def (n + 1), if_pos hn]
    exact nominal_le n
  · have hn' : ¬ FAST_ATTEMPTS ≤ n := fun h => hn (h.trans (Nat.le_succ n))
    rw [nominal, nominal, if_neg hn, if_neg hn']
    refine min_le_min_right _ ?_
    rw [BASE_BACKOFF_S, one_mul, one_mul]
    exact pow_le_pow_right₀ (by decide) (by omega)

theorem two_le_nominal {n : ℕ} (h : 2 ≤ n) : 2 ≤ nominal n := by
  induction n, h using Nat.le_induction with
  | base => decide +kernel
  | succ n _ ih => exact ih.trans (nominal_succ n)

/-- A delay is within the jitter of its nominal one. -/
theorem waits_backoffFor (n : ℕ) (rand : Draw) : Waits n (backoffFor n rand) := by
  obtain ⟨r, hr0, hr1⟩ := rand
  have hpos := nominal_pos n
  have hlow : (1 - JITTER) * nominal n ≤ nominal n * (1 + JITTER * (2 * r - 1)) := by
    unfold JITTER
    nlinarith
  have hhigh : nominal n * (1 + JITTER * (2 * r - 1)) ≤ (1 + JITTER) * nominal n := by
    unfold JITTER
    nlinarith
  unfold Waits backoffFor
  refine ⟨hlow.trans (le_max_right _ _), max_le ?_ hhigh⟩
  unfold JITTER
  linarith

/-- The first step is told from every other by the delay. -/
theorem waits_one_iff {n : ℕ} (hn : 1 ≤ n) (rand : Draw) : Waits 1 (backoffFor n rand) ↔ n = 1 := by
  constructor
  · rintro ⟨-, hle⟩
    by_contra hne
    have htwo := two_le_nominal (n := n) (by omega)
    have hlow := (waits_backoffFor n rand).1
    have hone : nominal 1 = 1 := by decide +kernel
    rw [hone] at hle
    unfold JITTER at hle hlow
    linarith
  · rintro rfl
    exact waits_backoffFor 1 rand

/-! ## The rows -/

section
variable {name other : String} {s : SourceSupervisor}

theorem get?_onStart_ne (h : other ≠ name) (now : ℚ) (s : SourceSupervisor) :
    (onStart name now s).get? other = s.get? other :=
  Dict.get?_set_ne s h _

theorem get?_onStop_ne (h : other ≠ name) (s : SourceSupervisor) :
    (onStop name s).get? other = s.get? other := by
  unfold onStop
  cases s.get? name with
  | none => rfl
  | some row => exact Dict.get?_set_ne s h _

/-- The row of the source stands, and says that it is running. -/
def Running (name : String) (s : SourceSupervisor) : Prop := ∃ h, s.get? name = some h ∧ h.state = .running

theorem Running.of_get?_eq {s' : SourceSupervisor} (h : Running name s) (hsame : s'.get? name = s.get? name) :
    Running name s' := by
  obtain ⟨row, hrow, hstate⟩ := h
  exact ⟨row, hsame.trans hrow, hstate⟩

theorem running_onStart (name : String) (now : ℚ) (s : SourceSupervisor) : Running name (onStart name now s) :=
  ⟨_, Dict.get?_set_self s name _, rfl⟩

theorem Running.register (h : Running other s) (name : String) : Running other (register name s) := by
  obtain ⟨row, hrow, hstate⟩ := h
  refine ⟨row, ?_, hstate⟩
  unfold ProviderRuntime.register
  by_cases hname : other = name
  · subst hname
    rw [Dict.get?_set_self, ensure, hrow, Option.getD_some]
  · rw [Dict.get?_set_ne s hname, hrow]

theorem Running.onEvent (h : Running other s) (name : String) (now : ℚ) :
    Running other (onEvent name now s) := by
  obtain ⟨row, hrow, hstate⟩ := h
  unfold ProviderRuntime.onEvent
  by_cases hname : other = name
  · subst hname
    rw [hrow]
    exact ⟨row.event now, Dict.get?_set_self s other _, hstate⟩
  · cases s.get? name with
    | none => exact ⟨row, hrow, hstate⟩
    | some h => exact ⟨row, (Dict.get?_set_ne s hname _).trans hrow, hstate⟩

/-- A running source may be silent, but is not reported as stopped. -/
theorem Running.stateOf_ne (h : Running name s) (heartbeatS : Option ℚ) (now : ℚ) :
    stateOf name heartbeatS now s ≠ .observed .stopped := by
  obtain ⟨row, hrow, hstate⟩ := h
  unfold stateOf SourceHealth.observeSilence
  rw [hrow]
  dsimp only
  rw [hstate]
  split_ifs <;> simp

end

/-! ## One run -/

section
variable {name : String} {s : SourceSupervisor} {h : SourceHealth} {a : Attempt}

theorem ensure_set (name : String) (h : SourceHealth) (s : SourceSupervisor) :
    ensure name (s.set name h) = h := by
  simp [ensure]

theorem get?_of_started (name : String) (now : ℚ) (s : SourceSupervisor) :
    (onStart name now s).get? name = some ((ensure name s).start now) :=
  Dict.get?_set_self s name _

/-- The events of a run clear the counter at the first one that is late enough. -/
theorem get?_of_events (hs : s.get? name = some h) (ts : List ℚ) :
    ∃ h', (ts.foldl (fun s t => onEvent name t s) s).get? name = some h' ∧
      h'.startedTs = h.startedTs ∧
      h'.failures = if h.startedTs ≠ 0 ∧ ∃ t ∈ ts, HEALTHY_RUN_S ≤ t - h.startedTs then 0
        else h.failures := by
  induction ts generalizing s h with
  | nil => exact ⟨h, hs, rfl, by simp⟩
  | cons t ts ih =>
    have hone : (onEvent name t s).get? name = some (h.event t) := by
      rw [onEvent, hs]
      exact Dict.get?_set_self s name _
    obtain ⟨h', hget, hstarted, hfailures⟩ := ih hone
    refine ⟨h', hget, hstarted, ?_⟩
    rw [hfailures]
    simp only [SourceHealth.event, List.exists_mem_cons_iff]
    by_cases hzero : h.startedTs = 0
    · simp [hzero]
    · by_cases hlate : HEALTHY_RUN_S ≤ t - h.startedTs
      · simp [hzero, hlate]
      · simp [hzero, hlate]

/-- An end is one more failure, of a new outage where it raises behind a long run. -/
theorem conclude_spec (hs : s.get? name = some h) (rand : Draw) (e : Ending) :
    (conclude name rand s e).1 = some (backoffFor (failures name (conclude name rand s e).2) rand) ∧
      failures name (conclude name rand s e).2 =
        (if h.startedTs ≠ 0 ∧ e.raised = true ∧ HEALTHY_RUN_S ≤ e.ts - h.startedTs then 0
          else h.failures) + 1 := by
  cases e with
  | completed now =>
    unfold conclude onCompleted failures
    rw [hs]
    dsimp only
    rw [ensure_set]
    exact ⟨rfl, by simp [SourceHealth.schedule, Ending.raised]⟩
  | failure now later =>
    unfold conclude onFailure failures
    rw [hs]
    dsimp only
    rw [ensure_set]
    refine ⟨rfl, ?_⟩
    by_cases hzero : h.startedTs = 0
    · have hnone : ¬ HEALTHY_RUN_S ≤ 0 := by decide
      simp [SourceHealth.schedule, hzero, hnone]
    · by_cases hlong : HEALTHY_RUN_S ≤ now - h.startedTs
      · simp [SourceHealth.schedule, hzero, hlong, Ending.raised, Ending.ts]
      · simp [SourceHealth.schedule, hzero, hlong, Ending.ts]

/-- A run is counted as one more failure, of an outage that began with it or before. -/
theorem attempt_spec (name : String) (s : SourceSupervisor) (a : Attempt) :
    (attempt name s a).1 = some (backoffFor (failures name (after name s a)) a.rand) ∧
      failures name (after name s a) = (if a.Resets then 0 else failures name s) + 1 := by
  obtain ⟨h, hget, hstarted, hfailures⟩ := get?_of_events (get?_of_started name a.started s) a.events
  have hstarted : h.startedTs = a.started := hstarted
  have hfailures : h.failures = if a.started ≠ 0 ∧ ∃ t ∈ a.events, HEALTHY_RUN_S ≤ t - a.started then 0
      else failures name s := hfailures
  obtain ⟨hdelay, hcount⟩ := conclude_spec hget a.rand a.ending
  refine ⟨hdelay, hcount.trans (congrArg (· + 1) ?_)⟩
  rw [hstarted]
  by_cases hresets : a.Resets
  · rw [if_pos hresets]
    obtain ⟨hzero, hevent | hraised⟩ := hresets
    · have hcleared : h.failures = 0 := hfailures.trans (if_pos ⟨hzero, hevent⟩)
      rw [hcleared, ite_self]
    · exact if_pos ⟨hzero, hraised⟩
  · have hkept : h.failures = failures name s :=
      hfailures.trans (if_neg fun hevent => hresets ⟨hevent.1, .inl hevent.2⟩)
    rw [if_neg hresets, if_neg fun hraised => hresets ⟨hraised.1, .inr hraised.2⟩, hkept]

theorem forgives_iff (name : String) (s : SourceSupervisor) (a : Attempt) :
    Forgives name s a ↔ Seen name s a := by
  obtain ⟨hdelay, hcount⟩ := attempt_spec name s a
  unfold Forgives Seen
  refine imp_congr_right fun hlong => ?_
  rw [hdelay]
  simp only [Option.mem_def, Option.some.injEq, exists_eq_left']
  rw [waits_one_iff (by omega), hcount]
  by_cases hresets : a.Resets
  · rw [if_pos hresets]
    refine iff_of_true rfl (.inr ⟨hresets.1, ?_⟩)
    exact hresets.2.elim .inr fun hraised => .inl hraised.1
  · rw [if_neg hresets, Nat.add_eq_right]
    refine (or_iff_left fun hseen => hresets ⟨hseen.1, ?_⟩).symm
    exact hseen.2.elim (fun hraised => .inr ⟨hraised, hlong⟩) .inl

/-- A short run is counted on top of what was before it. -/
theorem failures_of_short (hshort : ¬ a.Long) : failures name (after name s a) = failures name s + 1 := by
  rw [(attempt_spec name s a).2, if_neg]
  rintro ⟨-, ⟨t, ht, hlate⟩ | hraised⟩
  · exact hshort (hlate.trans (sub_le_sub_right (a.inside t ht) a.started))
  · exact hshort hraised.2

/-- The delay is the nominal one of the failures that are counted by then, up to jitter. -/
theorem waits_after (name : String) (s : SourceSupervisor) (a : Attempt) :
    ∃ delay ∈ (attempt name s a).1, Waits (failures name (after name s a)) delay := by
  rw [(attempt_spec name s a).1]
  exact ⟨_, rfl, waits_backoffFor _ _⟩

end

/-! ## Sequences of runs -/

/-- Two runs, one after the other, are followed by delays of which the second is nominally not the
shorter, and both are bounded. -/
def Steady (name : String) (s : SourceSupervisor) (a b : Attempt) : Prop :=
  ∃ m n, m ≤ n ∧ nominal m ≤ nominal n ∧ nominal n ≤ COLD_PROBE_S ∧
    (∃ delay ∈ (attempt name s a).1, Waits m delay) ∧
    ∃ delay ∈ (attempt name (after name s a) b).1, Waits n delay

/-- In any sequence of runs of a source, every long one is followed by the first step exactly where
each of them is seen to be long or has nothing to forgive; and a short one is followed by a delay
that is not nominally below the one before it, within the bound. -/
theorem backoff_forgives (name : String) (s : SourceSupervisor) (as : List Attempt) :
    (AllSteps (after name) (Forgives name) s as ↔ AllSteps (after name) (Seen name) s as) ∧
      ∀ before a b rest, as = before ++ a :: b :: rest → ¬ b.Long →
        Steady name (finish (after name) s before) a b := by
  refine ⟨⟨?_, ?_⟩, ?_⟩
  · exact allSteps_mono fun s a => (forgives_iff name s a).mp
  · exact allSteps_mono fun s a => (forgives_iff name s a).mpr
  · intro before a b rest _ hshort
    refine ⟨_, _, ?_, ?_, nominal_le _, waits_after name _ a, waits_after name _ b⟩
    · rw [failures_of_short hshort]
      exact Nat.le_succ _
    · rw [failures_of_short hshort]
      exact nominal_succ _

/-- A run of a second that raises, and then a quiet one of an hour that ends by itself. -/
def quietHour : List Attempt :=
  [⟨100, [], .failure 101 101, ⟨1 / 2, by decide +kernel⟩, by simp⟩,
    ⟨200, [], .completed 3800, ⟨1 / 2, by decide +kernel⟩, by simp⟩]

theorem quietHour_not_forgiven :
    ¬ AllSteps (after "radar") (Forgives "radar") .empty quietHour := by
  rintro ⟨-, hforgives, -⟩
  rcases (forgives_iff _ _ _).mp hforgives (by decide +kernel) with hnone | ⟨-, hraised | hevent⟩
  · exact absurd hnone (by decide +kernel)
  · cases hraised
  · obtain ⟨t, ht, -⟩ := hevent
    cases ht

end Wavr.ProviderRuntime
