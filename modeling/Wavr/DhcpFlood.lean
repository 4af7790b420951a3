import Wavr.Debounce
import Wavr.DhcpMonitor
import Wavr.Eviction

/-!
# A rogue server in a flood

Which of the servers that a cycle observes have a window after it, and what that means for one
that is observed in every cycle.
-/

namespace Wavr.DhcpMonitor
open Run
open Watch (push)

/-- How many newcomers of a cycle are admitted at most. -/
def places (s : RogueDhcpMonitor) : ℕ := if room s = 0 then s.windows.entries.length else room s

/-- The id is among the extras of the cycle, not alerted, and left without a window: as a newcomer
there are others before it for every place, or its own place is the newcomers'. -/
def CrowdedOut (extras : List String) (s : RogueDhcpMonitor) (id : String) : Prop :=
  id ∈ extras ∧ id ∉ s.alerted ∧
    if id ∈ s.windows.keys then room s = 0 ∧ (evictable s).idxOf id < (newcomers extras s).length
    else places s ≤ (newcomers extras s).idxOf id

instance (extras : List String) (s : RogueDhcpMonitor) (id : String) :
    Decidable (CrowdedOut extras s id) := inferInstanceAs (Decidable (_ ∧ _ ∧ _))

/-- The number of windows is within the cap, and what is alerted has one. -/
structure Bounded (s : RogueDhcpMonitor) : Prop where
  length_le : s.windows.entries.length ≤ s.maxTracked
  alerted : ∀ id ∈ s.alerted, id ∈ s.windows.keys

section
variable {extras : List String} {s : RogueDhcpMonitor} {id : String}

/-! ## Who has a window -/

theorem mem_newcomers : id ∈ newcomers extras s ↔ id ∈ extras ∧ id ∉ s.windows.keys := by
  simp [newcomers, sorted]

theorem mem_evictable : id ∈ evictable s ↔ id ∈ s.windows.keys := by
  simp [evictable]

theorem nodup_evictable (s : RogueDhcpMonitor) : (evictable s).Nodup :=
  (List.perm_insertionSort _ s.windows.keys).nodup_iff.mpr s.windows.nodup

theorem admitted_eq (extras : List String) (s : RogueDhcpMonitor) :
    admitted extras s = (newcomers extras s).take (places s) := by
  unfold admitted swaps places
  by_cases h : room s = 0
  · have hlen : (evictable s).length = s.windows.entries.length := by
      simp [evictable, Dict.keys]
    rw [if_pos h, if_pos h, h, Eviction.map_snd_zip_eq_take, hlen]
    rfl
  · rw [if_neg h, if_neg h]
    exact List.append_nil _

theorem evicted_eq (extras : List String) (s : RogueDhcpMonitor) : evicted extras s =
    if room s = 0 then (evictable s).take (newcomers extras s).length else [] := by
  unfold evicted swaps
  split
  · exact Eviction.map_fst_zip_eq_take _ _
  · rfl

theorem evicted_sublist (extras : List String) (s : RogueDhcpMonitor) :
    (evicted extras s).Sublist (evictable s) := by
  rw [evicted_eq]
  split
  · exact List.take_sublist _ _
  · exact List.nil_sublist _

theorem mem_admitted : id ∈ admitted extras s ↔
    id ∈ extras ∧ id ∉ s.windows.keys ∧ (newcomers extras s).idxOf id < places s := by
  rw [admitted_eq]
  by_cases h : id ∈ newcomers extras s
  · rw [List.mem_take_iff_idxOf_lt h, ← and_assoc, and_iff_right (mem_newcomers.mp h)]
  · refine iff_of_false (fun hmem => h (List.mem_of_mem_take hmem)) fun hmem => h ?_
    exact mem_newcomers.mpr ⟨hmem.1, hmem.2.1⟩

theorem mem_evicted : id ∈ evicted extras s ↔ id ∈ s.windows.keys ∧ room s = 0 ∧
    (evictable s).idxOf id < (newcomers extras s).length := by
  rw [evicted_eq]
  split
  · rename_i hroom
    by_cases h : id ∈ evictable s
    · rw [List.mem_take_iff_idxOf_lt h]
      simp [mem_evictable.mp h, hroom]
    · refine iff_of_false (fun hmem => h (List.mem_of_mem_take hmem)) fun hmem => h ?_
      exact mem_evictable.mpr hmem.1
  · rename_i hroom
    simp [hroom]

/-- What is left of the windows before the cycle is pushed. -/
theorem get?_makeRoom (extras : List String) (s : RogueDhcpMonitor) (id : String) :
    (makeRoom extras s).windows.get? id = if id ∈ evicted extras s then none else s.windows.get? id := by
  unfold makeRoom
  rw [Dict.get?_filter]
  by_cases h : id ∈ evicted extras s
  · cases s.windows.get? id <;> simp [h, Option.filter]
  · cases s.windows.get? id <;> simp [h, Option.filter]

theorem get?_pushed (extras : List String) (s : RogueDhcpMonitor) (id : String) :
    (pushed extras s).get? id =
      (if id ∈ admitted extras s then some (((makeRoom extras s).windows.get? id).getD [])
        else (makeRoom extras s).windows.get? id).map
          fun window => push s.windowSize window (id ∈ tracked extras s) := by
  unfold pushed
  rw [Dict.get?_map, Dict.get?_foldl_setDefault]

theorem get?_eq_none_of_notMem_keys {windows : Dict String (List Bool)} (h : id ∉ windows.keys) :
    windows.get? id = none := by
  rwa [Dict.mem_keys, Option.not_isSome_iff_eq_none] at h

/-- An extra that is not crowded out has its cycle pushed. -/
theorem get?_slid_of_not_crowdedOut (hid : id ∈ extras) (halerted : id ∉ s.alerted)
    (hin : ¬ CrowdedOut extras s id) : (slid extras s).windows.get? id =
      some (push s.windowSize ((s.windows.get? id).getD []) true) := by
  have hpushed : (pushed extras s).get? id =
        some (push s.windowSize ((s.windows.get? id).getD []) (id ∈ tracked extras s)) ∧
      id ∈ tracked extras s := by
    rw [get?_pushed, get?_makeRoom]
    unfold tracked
    by_cases hkeys : id ∈ s.windows.keys
    · -- it has a window, and is not among the victims
      have hkept : id ∉ evicted extras s := fun hevicted =>
        hin ⟨hid, halerted, by rw [if_pos hkeys]; exact (mem_evicted.mp hevicted).2⟩
      have hold : id ∉ admitted extras s := fun hmem => (mem_admitted.mp hmem).2.1 hkeys
      obtain ⟨window, hwindow⟩ := Option.isSome_iff_exists.mp (Dict.mem_keys.mp hkeys)
      have hmem : id ∈ (makeRoom extras s).windows.keys := by
        rw [Dict.mem_keys, get?_makeRoom, if_neg hkept, hwindow]
        rfl
      rw [if_neg hold, if_neg hkept, hwindow]
      exact ⟨rfl, List.mem_append_left _ (List.mem_filter.mpr ⟨hid, decide_eq_true hmem⟩)⟩
    · -- it is a newcomer, and there is a place for it
      have hnew : id ∈ admitted extras s := by
        refine mem_admitted.mpr ⟨hid, hkeys, Nat.lt_of_not_le fun hle => hin ⟨hid, halerted, ?_⟩⟩
        rwa [if_neg hkeys]
      rw [if_pos hnew, get?_eq_none_of_notMem_keys hkeys, ite_self]
      exact ⟨rfl, List.mem_append_right _ hnew⟩
  unfold slid
  rw [Dict.get?_filter, hpushed.1]
  simp [Option.filter, hpushed.2]

/-- One that is crowded out has none. -/
theorem get?_slid_of_crowdedOut (h : CrowdedOut extras s id) : (slid extras s).windows.get? id = none := by
  obtain ⟨hid, halerted, hout⟩ := h
  have hpushed : (pushed extras s).get? id = none := by
    rw [get?_pushed, get?_makeRoom]
    by_cases hkeys : id ∈ s.windows.keys
    · rw [if_pos hkeys] at hout
      have hold : id ∉ admitted extras s := fun hmem => (mem_admitted.mp hmem).2.1 hkeys
      rw [if_neg hold, if_pos (mem_evicted.mpr ⟨hkeys, hout⟩)]
      rfl
    · rw [if_neg hkeys] at hout
      have hnone : id ∉ admitted extras s := fun hmem =>
        absurd (mem_admitted.mp hmem).2.2 (Nat.not_lt.mpr hout)
      rw [if_neg hnone, get?_eq_none_of_notMem_keys hkeys, ite_self]
      rfl
  unfold slid
  rw [Dict.get?_filter, hpushed]
  rfl

/-- The loop confirms nothing. -/
theorem slid_alerted_subset (extras : List String) (s : RogueDhcpMonitor) :
    (slid extras s).alerted ⊆ s.alerted :=
  (Finset.filter_subset _ _).trans (Finset.filter_subset _ _)

theorem mem_newlyFired : id ∈ newlyFired extras s ↔ ∃ window,
    (slid extras s).windows.get? id = some window ∧ id ∉ (slid extras s).alerted ∧
      s.alertThreshold ≤ window.count true := by
  simp [newlyFired, sorted, Dict.mem_keys, Dict.get?_filter, Option.any_eq_true]

/-! ## The bounds -/

theorem nodup_evicted (extras : List String) (s : RogueDhcpMonitor) : (evicted extras s).Nodup :=
  (nodup_evictable s).sublist (evicted_sublist extras s)

/-- The newcomers have the free places, or the victims'. -/
theorem length_admitted_le (h : s.windows.entries.length ≤ s.maxTracked) :
    s.windows.entries.length + (admitted extras s).length ≤
      s.maxTracked + (evicted extras s).length := by
  have hlen : (evictable s).length = s.windows.entries.length := by
    simp [evictable, Dict.keys]
  rw [admitted_eq, evicted_eq, List.length_take]
  unfold places room
  split
  · rw [List.length_take, hlen]
    omega
  · rw [List.length_nil]
    omega

theorem length_slid_le (h : s.windows.entries.length ≤ s.maxTracked) :
    (slid extras s).windows.entries.length ≤ s.maxTracked := by
  have hroom := s.windows.length_filter_notMem (nodup_evicted extras s)
    fun id hid => mem_evictable.mp ((evicted_sublist extras s).subset hid)
  have hmade : (makeRoom extras s).windows.entries.length + (evicted extras s).length =
      s.windows.entries.length := hroom
  have hadded := Dict.length_foldl_setDefault_le (admitted extras s) (makeRoom extras s).windows []
  have hpushed : (pushed extras s).entries.length =
      ((admitted extras s).foldl (fun d id => d.setDefault id []) (makeRoom extras s).windows).entries.length :=
    List.length_map _
  have hslid : (slid extras s).windows.entries.length ≤ (pushed extras s).entries.length :=
    List.length_filter_le _ _
  have hadmitted : s.windows.entries.length + (admitted extras s).length ≤
      s.maxTracked + (evicted extras s).length := length_admitted_le h
  omega

theorem Bounded.slid (h : Bounded s) (extras : List String) : Bounded (DhcpMonitor.slid extras s) := by
  refine ⟨length_slid_le h.length_le, fun id hid => ?_⟩
  obtain ⟨hmade, htracked⟩ := Finset.mem_filter.mp hid
  obtain ⟨halerted, hkept⟩ := Finset.mem_filter.mp hmade
  obtain ⟨window, hwindow⟩ := Option.isSome_iff_exists.mp (Dict.mem_keys.mp (h.alerted id halerted))
  have hold : id ∉ admitted extras s := fun hmem =>
    (mem_admitted.mp hmem).2.1 (h.alerted id halerted)
  have hpushed : (pushed extras s).get? id =
      some (push s.windowSize window (id ∈ tracked extras s)) := by
    rw [get?_pushed, get?_makeRoom, if_neg hold, if_neg hkept, hwindow]
    rfl
  have htracked : id ∈ tracked extras s := htracked.resolve_right fun hgone => by
    rw [Dict.mem_keys, hpushed] at hgone
    exact hgone rfl
  rw [Dict.mem_keys]
  unfold DhcpMonitor.slid
  rw [Dict.get?_filter, hpushed]
  simp [Option.filter, htracked]

/-! ## Steps -/

variable {known : Finset String} {c : Cycle} {cycles : List Cycle}

/-- The settled monitor's windows are those that slid, and alerted is also what fires. -/
theorem step_settled (h : s.known = some known) (c : Cycle) :
    (step s c).windows = (slid (extrasOf known c) s).windows ∧
      (step s c).alerted =
        (slid (extrasOf known c) s).alerted ∪ (newlyFired (extrasOf known c) s).toFinset ∧
      (checkOnce c s).1.1.map DhcpRogueAlert.extraServer = newlyFired (extrasOf known c) s := by
  have hnoted : slid (extrasOf known c) (noted c s) =
      { slid (extrasOf known c) s with
        available := (noted c s).available
        unavailableReason := (noted c s).unavailableReason
        lastObserved := (noted c s).lastObserved } := rfl
  have hfired : newlyFired (extrasOf known c) (noted c s) = newlyFired (extrasOf known c) s := rfl
  rw [step, checkOnce_settled h, hfired, hnoted]
  split
  · rename_i hnone
    rw [hnone]
    exact ⟨rfl, (Finset.union_empty _).symm, rfl⟩
  · refine ⟨rfl, rfl, ?_⟩
    simp [fire, Function.comp_def]

theorem config_step (s : RogueDhcpMonitor) (c : Cycle) :
    (step s c).alertThreshold = s.alertThreshold ∧ (step s c).windowSize = s.windowSize ∧
      (step s c).maxTracked = s.maxTracked := by
  cases h : s.known with
  | none =>
    rw [step, checkOnce_unsettled h]
    exact ⟨rfl, rfl, rfl⟩
  | some known =>
    rw [step, checkOnce_settled h]
    split <;> exact ⟨rfl, rfl, rfl⟩

theorem Bounded.step (h : Bounded s) (c : Cycle) : Bounded (step s c) := by
  have hmax := (config_step s c).2.2
  cases hknown : s.known with
  | none =>
    rw [DhcpMonitor.step, checkOnce_unsettled hknown]
    exact ⟨h.length_le, h.alerted⟩
  | some known =>
    obtain ⟨hwindows, halerted, -⟩ := step_settled hknown c
    have hslid := h.slid (extrasOf known c)
    refine ⟨?_, fun id hid => ?_⟩
    · rw [hwindows, hmax]
      exact hslid.length_le
    · rw [hwindows]
      rw [halerted, Finset.mem_union, List.mem_toFinset, mem_newlyFired] at hid
      rcases hid with hid | ⟨window, hwindow, -⟩
      · exact hslid.alerted id hid
      · rw [Dict.mem_keys, hwindow]
        rfl

theorem bounded_newMonitor (known : Option (Finset String)) (alertThreshold maxAlerts maxTracked : ℤ) :
    Bounded (newMonitor known alertThreshold maxAlerts maxTracked) :=
  ⟨Nat.zero_le _, fun id hid => by cases hid⟩

/-- What is alerted has a row in the log. -/
theorem logged_of_alerted (hid : id ∈ (finish step s cycles).alerted) :
    id ∈ s.alerted ∨ ∃ alert ∈ logged s cycles, alert.extraServer = id := by
  induction cycles generalizing s with
  | nil => exact .inl hid
  | cons c cycles ih =>
    have hlogged : logged s (c :: cycles) = (checkOnce c s).1.1 ++ logged (step s c) cycles := rfl
    rw [hlogged]
    rcases ih hid with hstep | ⟨alert, halert, he⟩
    · cases hknown : s.known with
      | none =>
        rw [step, checkOnce_unsettled hknown] at hstep
        exact .inl hstep
      | some known =>
        obtain ⟨-, halerted, hrows⟩ := step_settled hknown c
        rw [halerted, Finset.mem_union, List.mem_toFinset, ← hrows, List.mem_map] at hstep
        rcases hstep with hstep | ⟨alert, halert, he⟩
        · exact .inl (slid_alerted_subset _ _ hstep)
        · exact .inr ⟨alert, List.mem_append_left _ halert, he⟩
    · exact .inr ⟨alert, List.mem_append_right _ halert, he⟩

/-- What a cycle does that observes an unknown id. -/
theorem step_observed (h : s.known = some known) (hid : id ∈ extrasOf known c) (halerted : id ∉ s.alerted) :
    (step s c).windows.get? id = (if CrowdedOut (extrasOf known c) s id then none
      else some (push s.windowSize ((s.windows.get? id).getD []) true)) ∧
    (id ∈ (step s c).alerted ↔ ¬ CrowdedOut (extrasOf known c) s id ∧
      s.alertThreshold ≤ (push s.windowSize ((s.windows.get? id).getD []) true).count true) := by
  obtain ⟨hwindows, hafter, -⟩ := step_settled h c
  have hold : id ∉ (slid (extrasOf known c) s).alerted := fun hmem =>
    halerted (slid_alerted_subset _ _ hmem)
  rw [hwindows, hafter, Finset.mem_union, or_iff_right hold, List.mem_toFinset, mem_newlyFired]
  by_cases hcrowd : CrowdedOut (extrasOf known c) s id
  · rw [get?_slid_of_crowdedOut hcrowd]
    simp [hcrowd]
  · rw [get?_slid_of_not_crowdedOut hid halerted hcrowd]
    simp [hcrowd, hold]

/-! ## Runs -/

/-- No cycle of the run crowds the id out. -/
def Attentive (known : Finset String) (id : String) : RogueDhcpMonitor → List Cycle → Prop :=
  AllSteps step fun s c => ¬ CrowdedOut (extrasOf known c) s id

/-- At some point of the run the id is alerted. -/
def AlertedWithin (s : RogueDhcpMonitor) (cycles : List Cycle) (id : String) : Prop :=
  ∃ before rest, cycles = before ++ rest ∧ id ∈ (finish step s before).alerted

theorem alertedWithin_iff : AlertedWithin s cycles id ↔
    ¬ AllStates step (fun s => id ∉ s.alerted) s cycles := by
  rw [allStates_iff_split]
  simp only [AlertedWithin, not_forall, not_not, exists_prop]

theorem mem_extrasOf (hknown : id ∉ known) (hid : id ∈ c.observed) : id ∈ extrasOf known c :=
  List.mem_filter.mpr ⟨hid, decide_eq_true hknown⟩

/-- Until it is alerted, an id has been observed less often in a row than the threshold. -/
theorem length_lt_of_attentive (h : s.known = some known) (hknown : id ∉ known)
    (hsize : s.alertThreshold ≤ s.windowSize) (hobserved : ∀ c ∈ cycles, id ∈ c.observed)
    (hin : Attentive known id s cycles) (hquiet : AllStates step (fun s => id ∉ s.alerted) s cycles)
    {k : ℕ} (hk : k < s.alertThreshold)
    (htrail : List.replicate k true <:+ (s.windows.get? id).getD []) :
    k + cycles.length < s.alertThreshold := by
  induction cycles generalizing s k with
  | nil => exact hk
  | cons c cycles ih =>
    obtain ⟨hin, hins⟩ := hin
    obtain ⟨hnow, hrest⟩ := hquiet
    have hnext : id ∉ (step s c).alerted := hrest.first
    obtain ⟨hwindow, hfires⟩ :=
      step_observed h (mem_extrasOf hknown (hobserved c List.mem_cons_self)) hnow
    rw [if_neg hin] at hwindow
    have htrail' : List.replicate (k + 1) true <:+
        push s.windowSize ((s.windows.get? id).getD []) true := by
      rw [List.replicate_succ']
      exact Debounce.suffix_rtake (List.suffix_append_self_iff.mpr htrail) (by simp; omega)
    have hcount := htrail'.sublist.count_le true
    rw [List.count_replicate_self] at hcount
    have hfew : ¬ s.alertThreshold ≤ (push s.windowSize ((s.windows.get? id).getD []) true).count true :=
      fun hmany => hnext (hfires.mpr ⟨hin, hmany⟩)
    obtain ⟨hthreshold, hsizes, -⟩ := config_step s c
    have hih := ih (known_step h c) (by omega) (fun c' hc' => hobserved c' (List.mem_cons_of_mem c hc'))
      hins hrest (k := k + 1) (by omega) (by rwa [hwindow])
    rw [List.length_cons]
    omega

/-- An id that is not crowded out for as many cycles as the threshold is alerted. -/
theorem alertedWithin_of_attentive (h : s.known = some known) (hknown : id ∉ known)
    (hsize : s.alertThreshold ≤ s.windowSize) (hpos : 0 < s.alertThreshold)
    (hobserved : ∀ c ∈ cycles, id ∈ c.observed) (hlength : s.alertThreshold ≤ cycles.length)
    (hin : Attentive known id s cycles) : AlertedWithin s cycles id := by
  refine alertedWithin_iff.mpr fun hquiet => ?_
  have hlt := length_lt_of_attentive h hknown hsize hobserved hin hquiet (k := 0) hpos List.nil_suffix
  omega

/-- Some of the cycles, as many in a row as the threshold, do not crowd the id out. -/
def Stretch (known : Finset String) (id : String) (s : RogueDhcpMonitor) (cycles : List Cycle) : Prop :=
  ∃ before stretch rest, cycles = before ++ stretch ++ rest ∧ s.alertThreshold ≤ stretch.length ∧
    Attentive known id (finish step s before) stretch

theorem config_run (s : RogueDhcpMonitor) (cycles : List Cycle) :
    (finish step s cycles).alertThreshold = s.alertThreshold ∧
      (finish step s cycles).windowSize = s.windowSize := by
  induction cycles generalizing s with
  | nil => exact ⟨rfl, rfl⟩
  | cons c cycles ih =>
    obtain ⟨hthreshold, hsize, -⟩ := config_step s c
    obtain ⟨hthresholds, hsizes⟩ := ih (step s c)
    exact ⟨hthresholds.trans hthreshold, hsizes.trans hsize⟩

theorem alertedWithin_of_stretch (h : s.known = some known) (hknown : id ∉ known)
    (hsize : s.alertThreshold ≤ s.windowSize) (hpos : 0 < s.alertThreshold)
    (hobserved : ∀ c ∈ cycles, id ∈ c.observed) (hstretch : Stretch known id s cycles) :
    AlertedWithin s cycles id := by
  obtain ⟨before, stretch, rest, rfl, hlength, hin⟩ := hstretch
  obtain ⟨hthreshold, hsizes⟩ := config_run s before
  obtain ⟨b₁, b₂, he, halerted⟩ := alertedWithin_of_attentive (known_run h before) hknown
    (by omega) (by omega) (fun c hc => hobserved c (by simp [hc])) (by omega) hin
  exact ⟨before ++ b₁, b₂ ++ rest, by simp [he], by rwa [finish_append]⟩

/-- What the cycles since the last one that crowded it out have left of an id. -/
structure Fresh (known : Finset String) (id : String) (s : RogueDhcpMonitor) (cycles : List Cycle) :
    Prop where
  quiet : id ∉ (finish step s cycles).alerted
  window : ∃ before stretch, cycles = before ++ stretch ∧
    Attentive known id (finish step s before) stretch ∧ stretch.length < s.alertThreshold ∧
    ((finish step s cycles).windows.get? id).getD [] = List.replicate stretch.length true

theorem push_replicate {n k : ℕ} (h : k < n) :
    push n (List.replicate k true) true = List.replicate (k + 1) true := by
  unfold push
  rw [← List.replicate_succ', List.length_replicate, Nat.sub_eq_zero_of_le h, List.drop_zero]

theorem Fresh.step (h : s.known = some known) (hknown : id ∉ known)
    (hsize : s.alertThreshold ≤ s.windowSize) (hfresh : Fresh known id s cycles)
    (hc : id ∈ c.observed) : Stretch known id s (cycles ++ [c]) ∨ Fresh known id s (cycles ++ [c]) := by
  obtain ⟨hquiet, before, stretch, he, hin, hlength, hwindow⟩ := hfresh
  obtain ⟨hthreshold, hsizes⟩ := config_run s cycles
  obtain ⟨hafter, hfires⟩ := step_observed (known_run h cycles) (mem_extrasOf hknown hc) hquiet
  rw [hwindow, push_replicate (by omega)] at hafter hfires
  rw [List.count_replicate_self, hthreshold] at hfires
  have hfinish : finish DhcpMonitor.step s (cycles ++ [c]) =
      DhcpMonitor.step (finish DhcpMonitor.step s cycles) c := by rw [finish_append]; rfl
  by_cases hcrowd : CrowdedOut (extrasOf known c) (finish DhcpMonitor.step s cycles) id
  · refine .inr ⟨?_, cycles ++ [c], [], by simp, trivial, by simp; omega, ?_⟩
    · rw [hfinish, hfires]
      exact fun hmem => hmem.1 hcrowd
    · rw [hfinish, hafter, if_pos hcrowd]
      rfl
  · have hlonger : Attentive known id (finish DhcpMonitor.step s before) (stretch ++ [c]) := by
      refine allSteps_append.mpr ⟨hin, ?_, trivial⟩
      rwa [← finish_append, ← he]
    by_cases hmany : s.alertThreshold ≤ stretch.length + 1
    · exact .inl ⟨before, stretch ++ [c], [], by simp [he], by simpa using hmany, hlonger⟩
    · refine .inr ⟨?_, before, stretch ++ [c], by simp [he], hlonger, by simp; omega, ?_⟩
      · rw [hfinish, hfires]
        exact fun hmem => hmany hmem.2
      · rw [hfinish, hafter, if_neg hcrowd, List.length_append]
        rfl

/-- An id that has no window yet is alerted exactly where there is such a stretch. -/
theorem alertedWithin_iff_stretch (h : s.known = some known) (hknown : id ∉ known)
    (hsize : s.alertThreshold ≤ s.windowSize) (hpos : 0 < s.alertThreshold)
    (hnew : s.windows.get? id = none) (hquiet : id ∉ s.alerted)
    (hobserved : ∀ c ∈ cycles, id ∈ c.observed) :
    AlertedWithin s cycles id ↔ Stretch known id s cycles := by
  refine ⟨?_, alertedWithin_of_stretch h hknown hsize hpos hobserved⟩
  rintro ⟨before, rest, rfl, halerted⟩
  have hbefore : Stretch known id s before ∨ Fresh known id s before := by
    have hobs : ∀ c ∈ before, id ∈ c.observed := fun c hc => hobserved c (List.mem_append_left rest hc)
    clear halerted hobserved
    induction before using List.reverseRecOn with
    | nil => exact .inr ⟨hquiet, [], [], rfl, trivial, hpos, by simp [hnew]⟩
    | append_singleton before c ih =>
      have hc : id ∈ c.observed := hobs c (by simp)
      rcases ih fun c' hc' => hobs c' (List.mem_append_left _ hc') with hstretch | hfresh
      · obtain ⟨b₁, b₂, b₃, rfl, hlength, hin⟩ := hstretch
        exact .inl ⟨b₁, b₂, b₃ ++ [c], by simp, hlength, hin⟩
      · exact hfresh.step h hknown hsize hc
  rcases hbefore with hstretch | hfresh
  · obtain ⟨b₁, b₂, b₃, rfl, hlength, hin⟩ := hstretch
    exact ⟨b₁, b₂, b₃ ++ rest, by simp, hlength, hin⟩
  · exact absurd halerted hfresh.quiet

end

/-- In every run the windows keep to the cap, and what is alerted has one. An unknown server that
every cycle of a block observes is alerted by the end of it, with a row in the log, where some
cycles of the block in a row, as many as the threshold, do not crowd it out; and only there, if it
had no window before. -/
theorem rogue_not_hidden (known : Option (Finset String)) (alertThreshold maxAlerts maxTracked : ℤ)
    (before block : List Cycle) (servers : Finset String) (id : String)
    (hsettled : (finish step (newMonitor known alertThreshold maxAlerts maxTracked) before).known =
      some servers)
    (hunknown : id ∉ servers) (hobserved : ∀ c ∈ block, id ∈ c.observed) :
    let m := newMonitor known alertThreshold maxAlerts maxTracked
    let s := finish step m before
    AllStates step Bounded m (before ++ block) ∧
      (Stretch servers id s block → AlertedWithin s block id ∧
        ∃ alert ∈ logged m (before ++ block), alert.extraServer = id) ∧
      (s.windows.get? id = none → AlertedWithin s block id → Stretch servers id s block) := by
  intro m s
  have hbounded : ∀ cycles, AllStates step Bounded m cycles := fun cycles =>
    have hok : AllSteps step (fun _ _ => True) m cycles := allSteps_of_forall fun _ _ _ => trivial
    allStates_of_invariant (fun _ c h _ => h.step c) (fun _ h => h)
      (bounded_newMonitor known alertThreshold maxAlerts maxTracked) hok
  obtain ⟨hthreshold, hsizes⟩ := config_run m before
  have hpos : 0 < s.alertThreshold := by
    rw [hthreshold]
    show 0 < (max 1 alertThreshold).toNat
    omega
  have hsize : s.alertThreshold ≤ s.windowSize := by
    rw [hthreshold, hsizes]
    show _ ≤ max (2 * m.alertThreshold) 2
    omega
  refine ⟨hbounded _, fun hstretch => ?_, fun hnone halerted => ?_⟩
  · have hwithin := alertedWithin_of_stretch hsettled hunknown hsize hpos hobserved hstretch
    refine ⟨hwithin, ?_⟩
    obtain ⟨b₁, b₂, rfl, halerted⟩ := hwithin
    rw [← finish_append] at halerted
    -- whoever is alerted was logged, and the first monitor has alerted nobody
    rcases logged_of_alerted halerted with hempty | ⟨alert, halert, he⟩
    · cases hempty
    · refine ⟨alert, ?_, he⟩
      unfold logged at halert ⊢
      rw [← List.append_assoc, emissions_append]
      exact List.mem_append_left _ halert
  · -- an alerted server has a window, and this one had none
    have hquiet : id ∉ s.alerted := fun hmem => by
      have hkeys := (hbounded before).last.alerted id hmem
      rw [Dict.mem_keys, hnone] at hkeys
      cases hkeys
    exact (alertedWithin_iff_stretch hsettled hunknown hsize hpos hnone hquiet hobserved).mp halerted

def sees (ids : List String) : Cycle := ⟨.servers ("192.168.1.1" :: ids), "2026-01-01T00:00:00+00:00"⟩

/-- A rogue server that is alone, in four cycles. -/
theorem lone_rogue_not_hidden :
    let m := newMonitor none 2 50 50
    let s := finish step m [sees []]
    let block := List.replicate 4 (sees ["10.9.9.9"])
    AllStates step Bounded m ([sees []] ++ block) ∧
      (Stretch {"192.168.1.1"} "10.9.9.9" s block → AlertedWithin s block "10.9.9.9" ∧
        ∃ alert ∈ logged m ([sees []] ++ block), alert.extraServer = "10.9.9.9") ∧
      (s.windows.get? "10.9.9.9" = none → AlertedWithin s block "10.9.9.9" →
        Stretch {"192.168.1.1"} "10.9.9.9" s block) :=
  rogue_not_hidden none 2 50 50 [sees []] (List.replicate 4 (sees ["10.9.9.9"])) {"192.168.1.1"}
    "10.9.9.9" (by decide +kernel) (by decide) (by decide +kernel)

/-- With one place, and in every cycle a new server before it. -/
theorem flood_hides_rogue :
    let m := newMonitor none 2 50 1
    let flood := ["10.0.0.1", "10.0.0.2", "10.0.0.3", "10.0.0.4"].map fun id => sees [id, "10.9.9.9"]
    (step m (sees [])).known = some {"192.168.1.1"} ∧ (∀ c ∈ flood, "10.9.9.9" ∈ c.observed) ∧
      flood.length = 2 * m.alertThreshold ∧ ¬ AlertedWithin (step m (sees [])) flood "10.9.9.9" := by
  refine ⟨by decide +kernel, by decide +kernel, by decide, ?_⟩
  rw [alertedWithin_iff, not_not]
  decide +kernel

end Wavr.DhcpMonitor
