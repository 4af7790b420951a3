import Mathlib.Data.List.Sort
import Mathlib.Data.Prod.Lex
import Wavr.Text
import Wavr.Watch

/-!
# Rogue DHCP servers

`RogueDhcpMonitor`: the servers of a baseline are known, every other one fills a leaky window of
its own, and the number of windows is capped. Sets that are only sorted are lists without
repetition here, and the order in which the windows were opened is nowhere looked at.
-/

namespace Wavr.DhcpMonitor
open Run Text
open Watch (SEVERITY_ALERT push trim)

structure DhcpRogueAlert where
  ts : String
  extraServer : String
  knownServers : List String
  observedServers : List String
  severity : String
  deriving DecidableEq

structure RogueDhcpMonitor where
  known : Option (Finset String)
  alertThreshold : ℕ
  maxAlerts : ℤ
  maxTracked : ℕ
  windowSize : ℕ
  windows : Dict String (List Bool)
  alerted : Finset String
  alerts : List DhcpRogueAlert
  lastObserved : Finset String
  available : Option Bool
  unavailableReason : Option String
  deriving DecidableEq

/-- `known` is none where the constructor is given no servers, not even the empty set. -/
def newMonitor (known : Option (Finset String)) (alertThreshold maxAlerts maxTrackedExtras : ℤ) :
    RogueDhcpMonitor :=
  let threshold := (max 1 alertThreshold).toNat
  ⟨known, threshold, maxAlerts, (max 1 maxTrackedExtras).toNat, max (2 * threshold) 2, .empty, ∅, [],
    ∅, none, none⟩

/-- `sorted`. -/
def sorted (ids : List String) : List String := ids.insertionSort (· ≤ ·)

/-! ## One cycle -/

section
variable (extras : List String) (s : RogueDhcpMonitor)

/-- `brand_new`. -/
def newcomers : List String := sorted (extras.filter fun id => id ∉ s.windows.keys)

def room : ℕ := s.maxTracked - s.windows.entries.length

/-- What is alerted goes first, then what has been seen least, then by id. -/
def evictionKey (id : String) : Bool ×ₗ ℕ ×ₗ String :=
  toLex (decide (id ∉ s.alerted), toLex (((s.windows.get? id).getD []).count true, id))

def evictable : List String :=
  s.windows.keys.insertionSort fun a b => evictionKey s a ≤ evictionKey s b

/-- The victims with the newcomers that take their places. -/
def swaps : List (String × String) := if room s = 0 then (evictable s).zip (newcomers extras s) else []

def admitted : List String := (newcomers extras s).take (room s) ++ (swaps extras s).map Prod.snd

def evicted : List String := (swaps extras s).map Prod.fst

/-- The monitor without the victims. -/
def makeRoom : RogueDhcpMonitor :=
  { s with
    windows := s.windows.filter fun id _ => id ∉ evicted extras s
    alerted := s.alerted.filter fun id => id ∉ evicted extras s }

/-- `tracked_this_cycle`. -/
def tracked : List String :=
  extras.filter (fun id => id ∈ (makeRoom extras s).windows.keys) ++ admitted extras s

/-- The windows, each with this cycle in it. -/
def pushed : Dict String (List Bool) :=
  ((admitted extras s).foldl (fun d id => d.setDefault id []) (makeRoom extras s).windows).map
    fun id window => push s.windowSize window (id ∈ tracked extras s)

/-- The loop over the windows but for what fires. An absent id is forgotten where it is alerted, or
has left its window. -/
def slid : RogueDhcpMonitor :=
  { makeRoom extras s with
    windows := (pushed extras s).filter fun id window =>
      id ∈ tracked extras s ∨ (id ∉ (makeRoom extras s).alerted ∧ window.count true ≠ 0)
    alerted := (makeRoom extras s).alerted.filter fun id =>
      id ∈ tracked extras s ∨ id ∉ (pushed extras s).keys }

/-- `newly_fired`, sorted. -/
def newlyFired : List String :=
  sorted ((slid extras s).windows.filter fun id window =>
    id ∉ (slid extras s).alerted ∧ s.alertThreshold ≤ window.count true).keys

end

/-- `_fire`: a row for each id in the log, and one call of `on_rogue` for all of them. -/
def fire (ids observed : List String) (ts : String) (s : RogueDhcpMonitor) :
    (List DhcpRogueAlert × DhcpRogueAlert) × RogueDhcpMonitor :=
  let alert id : DhcpRogueAlert :=
    ⟨ts, id, sortedSet (s.known.getD ∅), sorted observed, SEVERITY_ALERT⟩
  ((ids.map alert, alert (", ".intercalate ids)),
    { s with
      alerted := s.alerted ∪ ids.toFinset
      alerts := trim s.maxAlerts (s.alerts ++ ids.map alert) })

/-- `_record`, with the rows that it logs and what `on_rogue` is called with. -/
def record (observed : List String) (ts : String) (s : RogueDhcpMonitor) :
    (List DhcpRogueAlert × Option DhcpRogueAlert) × RogueDhcpMonitor :=
  match s.known with
  | none => (([], none), { s with known := some observed.toFinset })
  | some known =>
    let extras := observed.filter fun id => id ∉ known
    let ids := newlyFired extras s
    if ids = [] then (([], none), slid extras s)
    else
      let fired := fire ids observed ts (slid extras s)
      ((fired.1.1, some fired.1.2), fired.2)

/-- What comes of `collect()`. -/
inductive Collected
  | servers (ids : List String)
  | unavailable (reason : String)
  | failed
  deriving DecidableEq

structure Cycle where
  collected : Collected
  ts : String
  deriving DecidableEq

/-- Without repetition. -/
def Cycle.observed (c : Cycle) : List String :=
  match c.collected with
  | .servers ids => ids.dedup
  | .unavailable _ | .failed => []

def checkOnce (c : Cycle) (s : RogueDhcpMonitor) :
    (List DhcpRogueAlert × Option DhcpRogueAlert) × RogueDhcpMonitor :=
  let s := match c.collected with
    | .servers _ => { s with available := some true, unavailableReason := none }
    | .unavailable reason => { s with available := some false, unavailableReason := some reason }
    | .failed => s
  record c.observed c.ts { s with lastObserved := c.observed.toFinset }

def step (s : RogueDhcpMonitor) (c : Cycle) : RogueDhcpMonitor := (checkOnce c s).2

/-- The rows that a run logs. -/
def logged : RogueDhcpMonitor → List Cycle → List DhcpRogueAlert :=
  emissions step fun s c => (checkOnce c s).1.1

/-! ## The baseline -/

/-- What the first cycle observed that observed any server at all. -/
def firstObservation (cycles : List Cycle) : Option (List String) :=
  (cycles.map Cycle.observed).find? (· ≠ [])

/-- The baseline is what was first observed, and where there is only one server no row is about it. -/
def BaselineReal (s : RogueDhcpMonitor) (cycles : List Cycle) : Prop :=
  (∀ ids, firstObservation cycles = some ids →
    (finish step s cycles).known = some ids.toFinset) ∧
  ∀ server, (∀ c ∈ cycles, ∀ id ∈ c.observed, id = server) →
    ∀ alert ∈ logged s cycles, alert.extraServer ≠ server

section
variable {s : RogueDhcpMonitor} {known : Finset String} {c : Cycle} {cycles : List Cycle}

/-- The monitor that `record` is called on. -/
def noted (c : Cycle) (s : RogueDhcpMonitor) : RogueDhcpMonitor :=
  { s with
    available := match c.collected with
      | .servers _ => some true
      | .unavailable _ => some false
      | .failed => s.available
    unavailableReason := match c.collected with
      | .servers _ => none
      | .unavailable reason => some reason
      | .failed => s.unavailableReason
    lastObserved := c.observed.toFinset }

theorem checkOnce_eq (c : Cycle) (s : RogueDhcpMonitor) :
    checkOnce c s = record c.observed c.ts (noted c s) := by
  unfold checkOnce noted
  cases c.collected <;> rfl

/-- The unknown servers of a cycle. -/
def extrasOf (known : Finset String) (c : Cycle) : List String :=
  c.observed.filter fun id => id ∉ known

theorem checkOnce_unsettled (h : s.known = none) (c : Cycle) :
    checkOnce c s = (([], none), { noted c s with known := some c.observed.toFinset }) := by
  have hknown : (noted c s).known = none := h
  rw [checkOnce_eq, record, hknown]

theorem checkOnce_settled (h : s.known = some known) (c : Cycle) :
    checkOnce c s =
      if newlyFired (extrasOf known c) (noted c s) = [] then
        (([], none), slid (extrasOf known c) (noted c s))
      else
        let fired := fire (newlyFired (extrasOf known c) (noted c s)) c.observed c.ts
          (slid (extrasOf known c) (noted c s))
        ((fired.1.1, some fired.1.2), fired.2) := by
  have hknown : (noted c s).known = some known := h
  rw [checkOnce_eq, record, hknown]
  rfl

/-- A baseline is never learned again. -/
theorem known_step (h : s.known = some known) (c : Cycle) : (step s c).known = some known := by
  rw [step, checkOnce_settled h]
  split <;> exact h

theorem known_run (h : s.known = some known) (cycles : List Cycle) :
    (finish step s cycles).known = some known := by
  induction cycles generalizing s with
  | nil => exact h
  | cons c cycles ih => exact ih (known_step h c)

/-- Known servers open no window and raise nothing. -/
theorem checkOnce_known (h : s.known = some known) (hwindows : s.windows = .empty)
    (hc : ∀ id ∈ c.observed, id ∈ known) :
    (checkOnce c s).1.1 = [] ∧ (step s c).windows = .empty := by
  have hextras : extrasOf known c = [] := by simpa [extrasOf] using hc
  have hpushed : pushed [] (noted c s) = .empty := by
    have hnone : admitted [] (noted c s) = [] := by simp [admitted, swaps, newcomers, sorted]
    have hroom : (makeRoom [] (noted c s)).windows = .empty := by
      simp [makeRoom, noted, hwindows, Dict.filter, Dict.empty]
    rw [pushed, hnone, hroom]
    rfl
  have hslid : (slid [] (noted c s)).windows = .empty := by
    simp [slid, hpushed, Dict.filter, Dict.empty]
  have hfired : newlyFired [] (noted c s) = [] := by
    rw [newlyFired, hslid]
    rfl
  rw [step, checkOnce_settled h, hextras, if_pos hfired]
  exact ⟨rfl, hslid⟩

theorem logged_known (h : s.known = some known) (hwindows : s.windows = .empty)
    (hcycles : ∀ c ∈ cycles, ∀ id ∈ c.observed, id ∈ known) : logged s cycles = [] := by
  induction cycles generalizing s with
  | nil => rfl
  | cons c cycles ih =>
    obtain ⟨hnone, hempty⟩ := checkOnce_known h hwindows (hcycles c List.mem_cons_self)
    have hrest := ih (known_step h c) hempty fun c' hc' => hcycles c' (List.mem_cons_of_mem c hc')
    unfold logged at hrest ⊢
    rw [emissions, hnone, hrest]
    rfl

/-- The first cycle sets the baseline, whatever it observed, and opens no window. -/
theorem step_unsettled (h : s.known = none) (hwindows : s.windows = .empty) (c : Cycle) :
    (step s c).known = some c.observed.toFinset ∧ (step s c).windows = .empty := by
  rw [step, checkOnce_unsettled h]
  exact ⟨rfl, hwindows⟩

/-- Where later cycles observe only what the first one did, nothing is raised. -/
theorem logged_unsettled (h : s.known = none) (hwindows : s.windows = .empty)
    (hcycles : ∀ c' ∈ cycles, ∀ id ∈ c'.observed, id ∈ c.observed.toFinset) :
    logged s (c :: cycles) = [] := by
  obtain ⟨hsettled, hempty⟩ := step_unsettled h hwindows c
  have hrest := logged_known hsettled hempty hcycles
  unfold logged at hrest ⊢
  rw [emissions, checkOnce_unsettled h, hrest]
  rfl

theorem firstObservation_eq_none_iff : firstObservation cycles = none ↔ ∀ c ∈ cycles, c.observed = [] := by
  rw [firstObservation, List.find?_eq_none]
  simp

theorem ne_nil_of_firstObservation {ids : List String} (h : firstObservation cycles = some ids) :
    ids ≠ [] := by
  simpa using List.find?_some h

/-- The baseline is real exactly where the first cycle observes a server, or none ever does. -/
theorem baseline_real_iff (alertThreshold maxAlerts maxTrackedExtras : ℤ) (cycles : List Cycle) :
    BaselineReal (newMonitor none alertThreshold maxAlerts maxTrackedExtras) cycles ↔
      (∀ c ∈ cycles.head?, c.observed ≠ []) ∨ ∀ c ∈ cycles, c.observed = [] := by
  -- the first cycle becomes the baseline whatever it heard
  cases cycles with
  | nil => simp [BaselineReal, firstObservation, logged, emissions]
  | cons c cycles =>
    obtain ⟨hsettled, -⟩ := step_unsettled (s := newMonitor none alertThreshold maxAlerts
      maxTrackedExtras) rfl rfl c
    constructor
    · rintro ⟨hbase, -⟩
      by_contra hn
      obtain ⟨hhead, hlater⟩ := not_or.mp hn
      have hquiet : c.observed = [] := by simpa using hhead
      obtain ⟨ids, hids⟩ := Option.ne_none_iff_exists'.mp (mt firstObservation_eq_none_iff.mp hlater)
      have hknown := (known_run hsettled cycles).symm.trans (hbase ids hids)
      rw [hquiet] at hknown
      have hempty : ids = [] := List.toFinset_eq_empty_iff ids |>.mp (Option.some.inj hknown).symm
      exact ne_nil_of_firstObservation hids hempty
    · intro hreal
      refine ⟨fun ids hids => ?_, fun server hserver => ?_⟩
      · rcases hreal with hhead | hnone
        · have hne : c.observed ≠ [] := hhead c rfl
          have hfound : firstObservation (c :: cycles) = some c.observed := by
            simp [firstObservation, hne]
          rw [Option.some.inj (hids.symm.trans hfound)]
          exact known_run hsettled cycles
        · cases hids.symm.trans (firstObservation_eq_none_iff.mpr hnone)
      · -- every server that is observed is in the baseline
        have hknown : ∀ c' ∈ cycles, ∀ id ∈ c'.observed, id ∈ c.observed.toFinset := by
          intro c' hc' id hid
          have hmem : c' ∈ c :: cycles := List.mem_cons_of_mem c hc'
          rcases hreal with hhead | hnone
          · obtain ⟨x, hx⟩ := List.exists_mem_of_ne_nil _ (hhead c rfl)
            rw [hserver c' hmem id hid, ← hserver c List.mem_cons_self x hx]
            exact List.mem_toFinset.mpr hx
          · rw [hnone c' hmem] at hid
            cases hid
        intro alert halert
        rw [logged_unsettled rfl rfl hknown] at halert
        cases halert

/-- A cycle that cannot listen, and then the router of the house, twice. -/
def lateRouter : List Cycle :=
  [⟨.failed, "2026-01-01T00:00:00+00:00"⟩, ⟨.servers ["192.168.1.1"], "2026-01-01T00:00:30+00:00"⟩,
    ⟨.servers ["192.168.1.1"], "2026-01-01T00:01:00+00:00"⟩]

/-- The only server of the house is rogue. -/
theorem lateRouter_alerts : ¬ BaselineReal (newMonitor none 2 50 50) lateRouter ∧
    (logged (newMonitor none 2 50 50) lateRouter).map DhcpRogueAlert.extraServer = ["192.168.1.1"] := by
  refine ⟨?_, by decide +kernel⟩
  rintro ⟨hbase, -⟩
  have hknown := hbase ["192.168.1.1"] (by decide +kernel)
  exact absurd hknown (by decide +kernel)

end

end Wavr.DhcpMonitor
