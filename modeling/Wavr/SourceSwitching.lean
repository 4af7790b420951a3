import Wavr.SourceManager

/-!
# What switching the sources keeps

A call cuts the invariant of the manager open and closes it again before it waits: what it still has
to do for which source is said by two lists of names, and a waiting call holds them in its place.
-/

namespace Wavr.SourceManager
open Run ProviderRuntime

variable {Factory : Type*}

namespace Manager

def pending (m : Manager Factory) : List String := m.calls.values.flatMap Kill.pending

/-- In the midst of a call, which has the sources of `due` to visit yet, and has those of `pend` to
bring back or to let go. -/
structure Inv (due pend : List String) (m : Manager Factory) : Prop where
  registered : ∀ name, (m.enabled.get? name).isSome = (m.factories.get? name).isSome
  current : ∀ name t, m.tasks.get? name = some t → ∃ k, m.Live t k ∧ k.name = name ∧ k.cancelled = false
  held : ∀ t k, m.Live t k → k.cancelled = false → m.tasks.get? k.name = some t
  awaited : ∀ t k, m.Live t k → k.cancelled = true → ∃ c w, m.calls.get? c = some w ∧ w.task = t
  single : ∀ t t' k k', m.Live t k → m.Live t' k' → k.name = k'.name → t = t'
  wanted : ∀ name, (m.tasks.get? name).isSome →
    m.shouldRun name = true ∨ name ∈ due ∨ name ∈ m.due
  missing : ∀ name, m.shouldRun name = true →
    (m.tasks.get? name).isSome ∨ name ∈ pend ∨ name ∈ m.pending
  seen : ∀ t k, m.Live t k → k.phase = .sensing → k.cancelled = false →
    Running k.name m.supervisor ∨ k.name ∈ due ∨ k.name ∈ m.due

theorem inv_init (supervisor : SourceSupervisor) : Inv [] [] (init supervisor : Manager Factory) where
  registered _ := rfl
  current _ _ h := by cases h
  held _ _ h := by cases h.1
  awaited _ _ h := by cases h.1
  single _ _ _ _ h := by cases h.1
  wanted _ h := by cases h
  missing _ h := by cases h
  seen _ _ h := by cases h.1

section
variable {m : Manager Factory} {due pend : List String} {name : String} {t : ℕ} {k : Task}

theorem shouldRun_iff : m.shouldRun name = true ↔ m.running = true ∧ m.enabled.get? name = some true := by
  simp [shouldRun, Option.getD_eq_iff]

/-- The invariant of a quiet manager is what was to be kept. -/
theorem Inv.raceFree (hi : Inv [] [] m) : RaceFree m := by
  have hnone : m.calls = .empty → ∀ f : Kill → List String, m.calls.values.flatMap f = [] := by
    intro hcalls f
    rw [hcalls]
    rfl
  have hlisted : m.calls = .empty → ∀ name, (m.tasks.get? name).isSome ↔ m.Wanted name := by
    intro hcalls name
    constructor
    · intro htask
      rcases hi.wanted name htask with hrun | hdue | hdue
      · obtain ⟨hrunning, henabled⟩ := shouldRun_iff.mp hrun
        exact ⟨by rw [← hi.registered, henabled]; rfl, henabled, hrunning⟩
      · cases hdue
      · rw [Manager.due, hnone hcalls] at hdue
        cases hdue
    · rintro ⟨-, henabled, hrunning⟩
      rcases hi.missing name (shouldRun_iff.mpr ⟨hrunning, henabled⟩) with htask | hpend | hpend
      · exact htask
      · cases hpend
      · rw [Manager.pending, hnone hcalls] at hpend
        cases hpend
  -- without a call to wait for it, no task is on its way out
  have hkept : m.calls = .empty → ∀ t k, m.Live t k → k.cancelled = false := by
    intro hcalls t k hk
    by_contra hcancelled
    obtain ⟨c, w, hw, -⟩ := hi.awaited t k hk (by simpa using hcancelled)
    rw [hcalls] at hw
    cases hw
  refine ⟨hi.single, fun hcalls name => ?_, hlisted, fun hcalls t k hk hphase now => ?_⟩
  · rw [← hlisted hcalls name]
    constructor
    · rintro ⟨t, k, hk, rfl⟩
      rw [hi.held t k hk (hkept hcalls t k hk)]
      rfl
    · intro htask
      obtain ⟨t, ht⟩ := Option.isSome_iff_exists.mp htask
      obtain ⟨k, hk, hname, -⟩ := hi.current name t ht
      exact ⟨t, k, hk, hname⟩
  · rcases hi.seen t k hk hphase (hkept hcalls t k hk) with hrow | hdue | hdue
    · exact hrow.stateOf_ne _ now
    · cases hdue
    · rw [Manager.due, hnone hcalls] at hdue
      cases hdue

/-! ## What a call does before and behind its await -/

theorem Inv.mono {due' pend' : List String} (hi : Inv due pend m) (hdue : due ⊆ due') (hpend : pend ⊆ pend') :
    Inv due' pend' m :=
  { hi with
    wanted := fun name h => (hi.wanted name h).imp_right (Or.imp_left (hdue ·))
    missing := fun name h => (hi.missing name h).imp_right (Or.imp_left (hpend ·))
    seen := fun t k hk hphase hc => (hi.seen t k hk hphase hc).imp_right (Or.imp_left (hdue ·)) }

/-- Nothing is left to do for a source without a task. -/
theorem Inv.visited (hi : Inv (name :: due) pend m) (h : m.tasks.get? name = none) : Inv due pend m where
  __ := hi
  wanted other hother := by
    refine (hi.wanted other hother).imp_right (Or.imp_left fun hmem => ?_)
    refine (List.mem_cons.mp hmem).resolve_left ?_
    rintro rfl
    rw [h] at hother
    cases hother
  seen t k hk hphase hc := by
    refine (hi.seen t k hk hphase hc).imp_right (Or.imp_left fun hmem => ?_)
    refine (List.mem_cons.mp hmem).resolve_left fun hname => ?_
    have hheld := hi.held t k hk hc
    rw [hname, h] at hheld
    cases hheld

/-- ... nor for one that has its task, or is to have none. -/
theorem Inv.settled (hi : Inv due (name :: pend) m)
    (h : m.shouldRun name = true → (m.tasks.get? name).isSome) : Inv due pend m where
  __ := hi
  missing other hother := by
    rcases hi.missing other hother with htask | hpend | hpend
    · exact .inl htask
    · rcases List.mem_cons.mp hpend with rfl | hpend
      · exact .inl (h hother)
      · exact .inr (.inl hpend)
    · exact .inr (.inr hpend)

/-- `on_stop` does no harm to a source whose task has not begun, or will be killed. -/
theorem Inv.onStop (hi : Inv due pend m)
    (h : ∀ t k, m.tasks.get? name = some t → m.Live t k → k.phase = .sensing → name ∈ due ∨ name ∈ m.due) :
    Inv due pend (m.onStop name) where
  __ := hi
  seen t k hk hphase hc := by
    by_cases hname : k.name = name
    · subst hname
      exact .inr (h t k (hi.held t k hk hc) hk hphase)
    · exact (hi.seen t k hk hphase hc).imp_left fun hrow => hrow.of_get?_eq (get?_onStop_ne hname _)

theorem MaySpawn.name_ne (hmay : m.MaySpawn name) (hnone : m.tasks.get? name = none) (hk : m.Live t k) :
    k.name ≠ name := by
  intro hname
  rcases hmay with htask | hdone
  · rw [hnone] at htask
    cases htask
  · exact hk.2 (hdone k (List.mem_of_getElem? hk.1) hname)

theorem live_create : (m.create name).Live t k ↔
    m.Live t k ∨ (t = m.created.length ∧ k = ⟨name, .created, false⟩) := by
  unfold Live create
  rcases lt_trichotomy t m.created.length with hlt | rfl | hlt
  · simp [List.getElem?_append_left hlt, hlt.ne]
  · simp only [List.getElem?_concat_length, Option.some.injEq, List.getElem?_length]
    constructor
    · rintro ⟨rfl, -⟩
      exact .inr ⟨trivial, rfl⟩
    · rintro (h | ⟨-, rfl⟩)
      · cases h.1
      · exact ⟨rfl, by simp⟩
  · rw [List.getElem?_eq_none (by simp; omega), List.getElem?_eq_none hlt.le]
    simp [hlt.ne']

theorem Inv.create (hi : Inv due (name :: pend) m) (hrun : m.shouldRun name = true)
    (hnone : m.tasks.get? name = none) (hmay : m.MaySpawn name) : Inv due pend (m.create name) where
  registered := hi.registered
  current other t ht := by
    rw [Manager.create, Dict.get?_set] at ht
    split_ifs at ht with hother
    · cases ht
      exact ⟨_, live_create.mpr (.inr ⟨rfl, rfl⟩), hother.symm, rfl⟩
    · obtain ⟨k, hk, hkname, hc⟩ := hi.current other t ht
      exact ⟨k, live_create.mpr (.inl hk), hkname, hc⟩
  held t k hk hc := by
    rw [Manager.create, Dict.get?_set]
    rcases live_create.mp hk with hk | ⟨rfl, rfl⟩
    · rw [if_neg (hmay.name_ne hnone hk)]
      exact hi.held t k hk hc
    · exact if_pos rfl
  awaited t k hk hc := by
    rcases live_create.mp hk with hk | ⟨rfl, rfl⟩
    · exact hi.awaited t k hk hc
    · cases hc
  -- no task of this source is live, which is what `MaySpawn` says where none is current
  single t t' k k' hk hk' hname := by
    rcases live_create.mp hk with hk | ⟨rfl, rfl⟩ <;> rcases live_create.mp hk' with hk' | ⟨rfl, rfl⟩
    · exact hi.single t t' k k' hk hk' hname
    · exact absurd hname (hmay.name_ne hnone hk)
    · exact absurd hname.symm (hmay.name_ne hnone hk')
    · rfl
  wanted other hother := by
    by_cases hname : other = name
    · subst hname
      exact .inl hrun
    · rw [Manager.create, Dict.get?_set_ne _ hname] at hother
      exact hi.wanted other hother
  missing other hother := by
    by_cases hname : other = name
    · rw [Manager.create, hname, Dict.get?_set_self]
      exact .inl rfl
    · rw [Manager.create, Dict.get?_set_ne _ hname]
      refine (hi.missing other hother).imp_right (Or.imp_left fun hmem => ?_)
      exact (List.mem_cons.mp hmem).resolve_left hname
  seen t k hk hphase hc := by
    rcases live_create.mp hk with hk | ⟨rfl, rfl⟩
    · exact hi.seen t k hk hphase hc
    · cases hphase

theorem Inv.spawn (hi : Inv due (name :: pend) m) (hrun : m.shouldRun name = true) (hmay : m.MaySpawn name) :
    Inv due pend (m.spawn name) := by
  unfold Manager.spawn
  split_ifs with htask
  · exact hi.settled fun _ => htask
  · exact hi.create hrun (by simpa using htask) hmay

section
variable {c : ℕ} {rest : Rest} {t' : ℕ} {k' : Task}

theorem Inv.name_ne (hi : Inv due pend m) (hk : m.Live t k) (hk' : m.Live t' k') (h : t ≠ t') :
    k'.name ≠ k.name :=
  fun hname => h (hi.single t t' k k' hk hk' hname.symm)

/-- When the task in hand is popped, the other sources keep theirs. -/
theorem Inv.current_erase {other : String} (hi : Inv due pend m) (hk : m.Live t k)
    (h : (m.tasks.erase k.name).get? other = some t') :
    other ≠ k.name ∧ t ≠ t' ∧ ∃ k', m.Live t' k' ∧ k'.name = other ∧ k'.cancelled = false := by
  rw [Dict.get?_erase] at h
  split_ifs at h with hname
  obtain ⟨k', hk', hname', hc'⟩ := hi.current other t' h
  refine ⟨hname, ?_, k', hk', hname', hc'⟩
  rintro rfl
  cases hk.1.symm.trans hk'.1
  exact hname hname'.symm

theorem Inv.held_erase (hi : Inv due pend m) (hk : m.Live t k) (hk' : m.Live t' k') (h : t ≠ t')
    (hc : k'.cancelled = false) : (m.tasks.erase k.name).get? k'.name = some t' := by
  rw [Dict.get?_erase, if_neg (hi.name_ne hk hk' h)]
  exact hi.held t' k' hk' hc

theorem Inv.wanted_erase {other : String} (hi : Inv due pend m)
    (h : ((m.tasks.erase name).get? other).isSome) :
    other ≠ name ∧ (m.shouldRun other = true ∨ other ∈ due ∨ other ∈ m.due) := by
  rw [Dict.get?_erase] at h
  split_ifs at h with hname
  · cases h
  · exact ⟨hname, hi.wanted other h⟩

theorem live_cancel : (m.cancel c name t rest).Live t' k' ↔
    ∃ k, m.Live t' k ∧ k' = if t = t' then k.cancel else k := by
  unfold Live cancel
  rw [List.getElem?_modify]
  constructor
  · rintro ⟨hget, hphase⟩
    obtain ⟨k, hk, rfl⟩ := Option.map_eq_some_iff.mp hget
    refine ⟨k, ⟨hk, fun hdone => hphase ?_⟩, rfl⟩
    split_ifs
    · exact hdone
    · exact hdone
  · rintro ⟨k, ⟨hk, hphase⟩, rfl⟩
    rw [hk]
    refine ⟨rfl, ?_⟩
    split_ifs
    · exact hphase
    · exact hphase

/-- The tasks that were not asked to end are the others. -/
theorem live_of_cancel (h : (m.cancel c name t rest).Live t' k') (hc : k'.cancelled = false) :
    m.Live t' k' ∧ t ≠ t' := by
  obtain ⟨k, hk, hk'⟩ := live_cancel.mp h
  by_cases ht : t = t'
  · rw [if_pos ht] at hk'
    rw [hk'] at hc
    cases hc
  · rw [if_neg ht] at hk'
    rw [hk']
    exact ⟨hk, ht⟩

theorem name_ite_cancel (p : Prop) [Decidable p] (k : Task) : (if p then k.cancel else k).name = k.name := by
  split_ifs
  · rfl
  · rfl

/-- From the pop of a task on, the call that waits for it answers for its source. -/
theorem Inv.cancel (hi : Inv (name :: Kill.due ⟨name, t, rest⟩) [] m) (ht : m.tasks.get? name = some t)
    (hc : m.calls.get? c = none) (hrun : m.shouldRun name = true → name ∈ Kill.pending ⟨name, t, rest⟩) :
    Inv [] [] (m.cancel c name t rest) := by
  obtain ⟨k, hk, rfl, -⟩ := hi.current name t ht
  have hcalls {f : Kill → List String} {other : String} :=
    Dict.mem_flatMap_values_set (f := f) (b := other) hc ⟨k.name, t, rest⟩
  -- the new call takes over the debt of the caller for every other source
  have hdue : ∀ other, other ≠ k.name → other ∈ k.name :: Kill.due ⟨k.name, t, rest⟩ ∨ other ∈ m.due →
      other ∈ (m.cancel c k.name t rest).due := fun other hne hmem =>
    hcalls.mpr (hmem.imp_left fun hmem => (List.mem_cons.mp hmem).resolve_left hne)
  constructor
  · exact hi.registered
  · intro other t' ht'
    obtain ⟨-, hne, k', hk', hname', hc'⟩ := hi.current_erase hk ht'
    exact ⟨k', live_cancel.mpr ⟨k', hk', (if_neg hne).symm⟩, hname', hc'⟩
  · intro t' k' hk' hc'
    obtain ⟨hk', hne⟩ := live_of_cancel hk' hc'
    exact hi.held_erase hk hk' hne hc'
  · intro t' k' h' hc'
    obtain ⟨k', hk', rfl⟩ := live_cancel.mp h'
    by_cases hne : t = t'
    · exact ⟨c, _, Dict.get?_set_self m.calls c _, hne⟩
    · rw [if_neg hne] at hc'
      obtain ⟨c', w, hw, hwt⟩ := hi.awaited t' k' hk' hc'
      have hother : c' ≠ c := by
        rintro rfl
        rw [hc] at hw
        cases hw
      exact ⟨c', w, (Dict.get?_set_ne m.calls hother _).trans hw, hwt⟩
  · intro t₁ t₂ k₁ k₂ h₁ h₂ hname
    obtain ⟨k₁, hk₁, rfl⟩ := live_cancel.mp h₁
    obtain ⟨k₂, hk₂, rfl⟩ := live_cancel.mp h₂
    rw [name_ite_cancel, name_ite_cancel] at hname
    exact hi.single t₁ t₂ k₁ k₂ hk₁ hk₂ hname
  · intro other hother
    obtain ⟨hne, hwanted⟩ := hi.wanted_erase hother
    exact hwanted.imp_right fun hmem => .inr (hdue other hne hmem)
  · intro other hother
    by_cases hne : other = k.name
    · subst hne
      exact .inr (.inr (hcalls.mpr (.inl (hrun hother))))
    · rw [Manager.cancel, Dict.get?_erase, if_neg hne]
      refine (hi.missing other hother).imp_right fun hmem => .inr ?_
      exact hcalls.mpr (.inr (hmem.resolve_left List.not_mem_nil))
  · intro t' k' hk' hphase hc'
    obtain ⟨hk', hne⟩ := live_of_cancel hk' hc'
    exact (hi.seen t' k' hk' hphase hc').imp_right fun hmem => .inr (hdue _ (hi.name_ne hk hk' hne) hmem)

/-- A walk goes on to the first source that has a task. -/
theorem Inv.walk {names : List String} (hi : Inv names [] m) (hc : m.calls.get? c = none)
    (hwalk : m.MayWalk names) : Inv [] [] (m.walk c names) := by
  induction names generalizing m with
  | nil => exact hi
  | cons name names ih =>
    unfold Manager.walk
    unfold MayWalk at hwalk
    cases htask : m.tasks.get? name with
    | some t =>
      rw [List.find?_cons_of_pos (by rw [htask]; rfl)] at hwalk
      refine hi.cancel htask hc fun hrun => ?_
      rw [hwalk name rfl] at hrun
      cases hrun
    | none =>
      rw [List.find?_cons_of_neg (by rw [htask]; simp)] at hwalk
      have hstop : Inv (name :: names) [] (m.onStop name) := hi.onStop fun t _ ht => by
        rw [htask] at ht
        cases ht
      exact ih (hstop.visited htask) hc hwalk

theorem shouldRun_drop (name other : String) (m : Manager Factory) :
    (m.drop name).shouldRun other = if other = name then false else m.shouldRun other := by
  unfold shouldRun drop
  rw [Dict.get?_erase]
  split_ifs
  · exact Bool.and_false _
  · rfl

/-- A source may leave the roster without a task, or with one that a `stop` will kill. -/
theorem Inv.drop (hi : Inv [] [name] m) (hdrop : m.MayDrop name) : Inv [] [] (m.drop name) where
  __ := hi
  registered other := by
    rw [Manager.drop, Dict.get?_erase, Dict.get?_erase]
    split_ifs
    · rfl
    · exact hi.registered other
  wanted other hother := by
    rw [shouldRun_drop]
    split_ifs with hname
    · subst hname
      refine .inr (.inr (hdrop.resolve_left fun hnone => ?_))
      have hother : (m.tasks.get? other).isSome := hother
      rw [hnone] at hother
      cases hother
    · exact hi.wanted other hother
  missing other hother := by
    rw [shouldRun_drop] at hother
    split_ifs at hother with hname
    refine (hi.missing other hother).imp_right (Or.imp_left fun hmem => ?_)
    exact absurd (List.mem_singleton.mp hmem) hname
  seen t k hk hphase hc := by
    by_cases hname : k.name = name
    · subst hname
      refine .inr (.inr (hdrop.resolve_left fun hnone => ?_))
      cases hnone.symm.trans (hi.held t k hk hc)
    · refine (hi.seen t k hk hphase hc).imp_left fun hrow => hrow.of_get?_eq ?_
      rw [Manager.drop, forget, Dict.get?_erase, if_neg hname]

/-- What is behind `_kill` ends the call, or makes it wait again. -/
theorem Inv.proceed (hi : Inv (Kill.due ⟨name, t, rest⟩) (Kill.pending ⟨name, t, rest⟩) m)
    (hc : m.calls.get? c = none)
    (hsense : ∀ t' k', m.tasks.get? name = some t' → m.Live t' k' → k'.phase = .sensing →
      name ∈ Kill.due ⟨name, t, rest⟩ ∨ name ∈ m.due)
    (hrest : m.CarefulRest name rest) : Inv [] [] (m.proceed c name rest) := by
  have hstop := hi.onStop hsense
  cases rest with
  | setEnabled => exact hstop
  | unregister => exact hstop.drop hrest
  | restart =>
    unfold Manager.proceed
    dsimp only
    split_ifs with hrun
    · exact hstop.spawn hrun (hrest hrun)
    · exact hstop.settled fun h => absurd h hrun
  | stop names => exact hstop.walk hc hrest

/-- `_kill` in a call that has not waited yet. -/
theorem Inv.kill (hi : Inv (name :: Kill.due ⟨name, t, rest⟩) [] m) (hc : m.calls.get? c = none)
    (hrun : m.shouldRun name = true → name ∈ Kill.pending ⟨name, t, rest⟩)
    (hrest : m.tasks.get? name = none → m.CarefulRest name rest) : Inv [] [] (m.kill c name rest) := by
  unfold Manager.kill
  cases htask : m.tasks.get? name with
  | some t' => exact Inv.cancel (t := t') hi htask hc hrun
  | none =>
    refine ((hi.visited htask).mono (fun _ => id) (List.nil_subset _)).proceed hc ?_ (hrest htask)
    intro t' _ ht'
    rw [htask] at ht'
    cases ht'

/-- When its task has ended, a call takes back what it answered for. -/
theorem Inv.returned {w : Kill} (hi : Inv [] [] m) (hw : m.calls.get? c = some w)
    (hended : m.ended w.task = true) : Inv w.due w.pending { m with calls := m.calls.erase c } where
  __ := hi
  awaited t k hk hkc := by
    obtain ⟨c', w', hw', rfl⟩ := hi.awaited t k hk hkc
    refine ⟨c', w', ?_, rfl⟩
    rw [Dict.get?_erase, if_neg, hw']
    rintro rfl
    cases hw.symm.trans hw'
    rw [ended, hk.1] at hended
    exact hk.2 (by simpa using hended)
  wanted other hother := by
    refine (hi.wanted other hother).imp_right fun hmem => ?_
    exact Dict.mem_flatMap_values_of_erase hw (hmem.resolve_left List.not_mem_nil)
  missing other hother := by
    refine (hi.missing other hother).imp_right fun hmem => ?_
    exact Dict.mem_flatMap_values_of_erase hw (hmem.resolve_left List.not_mem_nil)
  seen t k hk hphase hkc := by
    refine (hi.seen t k hk hphase hkc).imp_right fun hmem => ?_
    exact Dict.mem_flatMap_values_of_erase hw (hmem.resolve_left List.not_mem_nil)

theorem Inv.resume (hi : Inv [] [] m) (hcareful : m.Careful (.resume c)) : Inv [] [] (m.resume c) := by
  unfold Manager.resume
  cases hw : m.calls.get? c with
  | none => exact hi
  | some w =>
    dsimp only
    split_ifs with hended
    · obtain ⟨hsense, hrest⟩ := hcareful w hw hended
      refine (hi.returned hw hended).proceed (t := w.task) ?_ ?_ ?_
      · rw [Dict.get?_erase, if_pos rfl]
      · intro t k ht hk hphase
        refine Dict.mem_flatMap_values_of_erase hw (hsense ?_)
        have ht : m.tasks.get? w.name = some t := ht
        have hk : m.created[t]? = some k := hk.1
        simp [senses, ht, hk, hphase]
      · cases hwrest : w.rest with
        | setEnabled => trivial
        | unregister =>
          rw [hwrest] at hrest
          refine hrest.imp_right fun hmem => (Dict.mem_flatMap_values_of_erase hw hmem).resolve_left ?_
          simp [Kill.due, hwrest]
        | restart =>
          rw [hwrest] at hrest
          exact hrest
        | stop names =>
          rw [hwrest] at hrest
          exact hrest
    · exact hi

/-! ## Calls -/

/-- A source is switched, and its row may be written. One that goes off with a task in hand is due. -/
theorem Inv.switch {enabled : Bool} {factories : Dict String Factory} {supervisor : SourceSupervisor}
    {heartbeats : Dict String (Option ℚ)} (hi : Inv [] [] m)
    (hfactories : ∀ other, (factories.get? other).isSome =
      if other = name then true else (m.factories.get? other).isSome)
    (hrows : ∀ other, Running other m.supervisor → Running other supervisor)
    (hoff : enabled = false → (m.tasks.get? name).isSome → name ∈ due ∨ name ∈ m.due) :
    Inv due [name] { m with enabled := m.enabled.set name enabled, factories, supervisor, heartbeats } where
  __ := hi
  registered other := by
    rw [Dict.get?_set, hfactories]
    split_ifs
    · rfl
    · exact hi.registered other
  wanted other hother := by
    have hold := hi.wanted other hother
    unfold shouldRun at hold ⊢
    rw [Dict.get?_set]
    split_ifs with hname
    · subst hname
      cases enabled with
      | false => exact .inr (hoff rfl hother)
      | true =>
        refine hold.imp (fun hrun => ?_) fun hmem => .inr (hmem.resolve_left List.not_mem_nil)
        rw [(Bool.and_eq_true_iff.mp hrun).1]
        rfl
    · exact hold.imp_right fun hmem => .inr (hmem.resolve_left List.not_mem_nil)
  missing other hother := by
    by_cases hname : other = name
    · exact .inr (.inl (List.mem_singleton.mpr hname))
    · unfold shouldRun at hother
      rw [Dict.get?_set_ne _ hname] at hother
      exact (hi.missing other hother).imp_right fun hmem => .inr (hmem.resolve_left List.not_mem_nil)
  seen t k hk hphase hc := by
    refine (hi.seen t k hk hphase hc).imp (hrows k.name) fun hmem => ?_
    exact .inr (hmem.resolve_left List.not_mem_nil)

theorem shouldRun_spawn (name other : String) (m : Manager Factory) :
    (m.spawn name).shouldRun other = m.shouldRun other := by
  unfold spawn
  split_ifs
  · rfl
  · rfl

theorem MaySpawn.spawn {other : String} (h : m.MaySpawn other) (name : String) :
    (m.spawn name).MaySpawn other := by
  unfold Manager.spawn
  split_ifs with htask
  · exact h
  · unfold MaySpawn create
    by_cases hname : other = name
    · rw [hname, Dict.get?_set_self]
      exact .inl rfl
    · rw [Dict.get?_set_ne _ hname]
      refine h.imp_right fun hdone k hk hkname => ?_
      rcases List.mem_append.mp hk with hk | hk
      · exact hdone k hk hkname
      · rw [List.mem_singleton.mp hk] at hkname
        exact absurd hkname.symm hname

/-- The loop of `start`. -/
theorem Inv.spawnAll {es : List (String × Bool)} (hi : Inv [] ((es.filter Prod.snd).map Prod.fst) m)
    (hrun : ∀ e ∈ es, e.2 = true → m.shouldRun e.1 = true)
    (hmay : ∀ e ∈ es, e.2 = true → m.MaySpawn e.1) :
    Inv [] [] (es.foldl (fun m e => if e.2 then m.spawn e.1 else m) m) := by
  induction es generalizing m with
  | nil => exact hi
  | cons e es ih =>
    rw [List.foldl_cons]
    split_ifs with he
    · rw [List.filter_cons_of_pos he, List.map_cons] at hi
      refine ih (hi.spawn (hrun e List.mem_cons_self he) (hmay e List.mem_cons_self he)) ?_ ?_
      · intro e' he' hon
        rw [shouldRun_spawn]
        exact hrun e' (List.mem_cons_of_mem e he') hon
      · intro e' he' hon
        exact (hmay e' (List.mem_cons_of_mem e he') hon).spawn e.1
    · rw [List.filter_cons_of_neg he] at hi
      exact ih hi (fun e' he' => hrun e' (List.mem_cons_of_mem e he'))
        fun e' he' => hmay e' (List.mem_cons_of_mem e he')

theorem Inv.started (hi : Inv [] [] m) :
    Inv [] ((m.enabled.entries.filter Prod.snd).map Prod.fst) { m with running := true } where
  __ := hi
  wanted other hother := by
    refine (hi.wanted other hother).imp_left fun hrun => ?_
    exact shouldRun_iff.mpr ⟨rfl, (shouldRun_iff.mp hrun).2⟩
  missing other hother := by
    refine .inr (.inl (List.mem_map.mpr ⟨(other, true), List.mem_filter.mpr ⟨?_, rfl⟩, rfl⟩))
    exact Dict.mem_entries.mpr (shouldRun_iff.mp hother).2

theorem Inv.halted (hi : Inv [] [] m) : Inv m.tasks.keys [] { m with running := false } where
  __ := hi
  wanted other hother := .inr (.inl (Dict.mem_keys.mpr hother))
  missing other hother := by cases hother
  seen t k hk hphase hc := by
    refine .inr (.inl (Dict.mem_keys.mpr ?_))
    rw [hi.held t k hk hc]
    rfl

/-- The names that are registered stay so. -/
theorem isSome_of_registered {factories : Dict String Factory} (h : (factories.get? name).isSome = true)
    (other : String) : (factories.get? other).isSome =
      if other = name then true else (factories.get? other).isSome := by
  split_ifs with hname
  · rw [hname, h]
  · rfl

theorem Inv.register (hi : Inv [] [] m) (factory : Factory) (enabled : Bool) (heartbeatS : Option ℚ)
    (hcareful : m.CarefulCall (.register name factory enabled heartbeatS)) :
    Inv [] [] (m.call c (.register name factory enabled heartbeatS)) := by
  have hdeclared : Inv [] [name] (m.declare name factory enabled heartbeatS) := by
    refine hi.switch (fun other => ?_) (fun other hrow => hrow.register name) ?_
    · rw [Dict.get?_set]
      split_ifs
      · rfl
      · rfl
    · rintro rfl htask
      have hdrop : m.MayDrop name := hcareful
      refine .inr (hdrop.resolve_left fun hnone => ?_)
      rw [hnone] at htask
      cases htask
  have hset : (m.declare name factory enabled heartbeatS).enabled.get? name = some enabled :=
    Dict.get?_set_self m.enabled name enabled
  simp only [Manager.call]
  split_ifs with hrun
  · obtain ⟨rfl, hrunning⟩ := Bool.and_eq_true_iff.mp hrun
    exact hdeclared.spawn (shouldRun_iff.mpr ⟨hrunning, hset⟩) (hcareful hrunning)
  · refine hdeclared.settled fun hshould => absurd ?_ hrun
    obtain ⟨hrunning, henabled⟩ := shouldRun_iff.mp hshould
    rw [hset] at henabled
    rw [Option.some.inj henabled]
    exact hrunning

theorem Inv.setEnabled (hi : Inv [] [] m) (hc : m.calls.get? c = none) (enabled : Bool)
    (hcareful : m.CarefulCall (.setEnabled name enabled)) :
    Inv [] [] (m.call c (.setEnabled name enabled)) := by
  simp only [Manager.call]
  split_ifs with hregistered hrun hoff
  · exact hi
  · obtain ⟨rfl, hrunning⟩ := Bool.and_eq_true_iff.mp hrun
    have hsome : (m.factories.get? name).isSome = true := by simpa [Option.isSome_iff_ne_none] using hregistered
    have hon : Inv [] [name] { m with enabled := m.enabled.set name true } :=
      hi.switch (isSome_of_registered hsome) (fun _ => id) fun h => by cases h
    exact hon.spawn (shouldRun_iff.mpr ⟨hrunning, Dict.get?_set_self _ _ _⟩) (hcareful hsome hrunning)
  all_goals
    have hsome : (m.factories.get? name).isSome = true := by simpa [Option.isSome_iff_ne_none] using hregistered
    have hnot : ¬ { m with enabled := m.enabled.set name enabled }.shouldRun name = true := by
      intro hshould
      obtain ⟨hrunning, henabled⟩ := shouldRun_iff.mp hshould
      rw [Dict.get?_set_self] at henabled
      rw [Option.some.inj henabled] at hrun
      exact hrun hrunning
  · have hkilled : Inv [name] [name] { m with enabled := m.enabled.set name enabled } :=
      hi.switch (isSome_of_registered hsome) (fun _ => id) fun _ _ => .inl List.mem_cons_self
    exact Inv.kill (t := 0) (hkilled.settled fun h => absurd h hnot) hc (fun h => absurd h hnot) fun _ => trivial
  · have hon : Inv [] [name] { m with enabled := m.enabled.set name enabled } :=
      hi.switch (isSome_of_registered hsome) (fun _ => id) fun h => absurd (by rw [h]; rfl) hoff
    exact hon.settled fun h => absurd h hnot

theorem Inv.call (hi : Inv [] [] m) (hc : m.calls.get? c = none) {request : Request Factory}
    (hcareful : m.CarefulCall request) : Inv [] [] (m.call c request) := by
  cases request with
  | register name factory enabled heartbeatS => exact hi.register factory enabled heartbeatS hcareful
  | start =>
    refine hi.started.spawnAll (fun e he hon => shouldRun_iff.mpr ⟨rfl, ?_⟩) hcareful
    rw [← hon]
    exact Dict.mem_entries.mp he
  | stop => exact hi.halted.walk hc fun name _ => rfl
  | setEnabled name enabled => exact hi.setEnabled hc enabled hcareful
  | unregister name =>
    simp only [Manager.call]
    split_ifs
    · exact hi
    · refine Inv.kill (t := 0) (hi.mono (List.nil_subset _) fun _ => id) hc (fun _ => ?_) fun hnone => .inl hnone
      exact List.mem_cons_self
  | restart name =>
    simp only [Manager.call]
    split_ifs
    · exact hi
    · refine Inv.kill (t := 0) (hi.mono (List.nil_subset _) fun _ => id) hc (fun _ => ?_) fun _ => hcareful
      exact List.mem_cons_self

end

/-! ## Steps of the tasks -/

section
variable {t' : ℕ} {k' : Task} {phase : Phase}

theorem live_setPhase : (m.setPhase t phase).Live t' k' ↔
    (t = t' ∧ phase ≠ .done ∧ ∃ k, m.created[t]? = some k ∧ k' = { k with phase }) ∨
      (t ≠ t' ∧ m.Live t' k') := by
  unfold Live setPhase
  rw [List.getElem?_modify]
  by_cases ht : t = t'
  · subst ht
    simp only [if_true, ne_eq, not_true, false_and, or_false, true_and, Option.map_eq_map,
      Option.map_eq_some_iff]
    constructor
    · rintro ⟨⟨k, hk, rfl⟩, hphase⟩
      exact ⟨hphase, k, hk, rfl⟩
    · rintro ⟨hphase, k, hk, rfl⟩
      exact ⟨⟨k, hk, rfl⟩, hphase⟩
  · simp [ht]

/-- A task goes on, or one that has been cancelled ends. -/
theorem Inv.setPhase (hi : Inv due pend m) (hk : m.Live t k) (hdone : phase = .done → k.cancelled = true)
    (hsense : phase = .sensing → k.cancelled = false → Running k.name m.supervisor) :
    Inv due pend (m.setPhase t phase) := by
  -- what lives on is as it was but for its phase
  have hold : ∀ t' k', (m.setPhase t phase).Live t' k' → ∃ k₀, m.Live t' k₀ ∧ k'.name = k₀.name ∧
      k'.cancelled = k₀.cancelled := by
    intro t' k' hk'
    rcases live_setPhase.mp hk' with ⟨rfl, -, k₀, hk₀, rfl⟩ | ⟨-, hk'⟩
    · cases hk.1.symm.trans hk₀
      exact ⟨k, hk, rfl, rfl⟩
    · exact ⟨k', hk', rfl, rfl⟩
  constructor
  · exact hi.registered
  · intro other t' ht'
    obtain ⟨k', hk', hname, hc⟩ := hi.current other t' ht'
    by_cases ht : t = t'
    · subst ht
      cases hk.1.symm.trans hk'.1
      refine ⟨{ k with phase }, live_setPhase.mpr (.inl ⟨rfl, ?_, k, hk.1, rfl⟩), hname, hc⟩
      intro hphase
      rw [hdone hphase] at hc
      cases hc
    · exact ⟨k', live_setPhase.mpr (.inr ⟨ht, hk'⟩), hname, hc⟩
  · intro t' k' hk' hc
    obtain ⟨k₀, hk₀, hname, hcancelled⟩ := hold t' k' hk'
    rw [hname]
    exact hi.held t' k₀ hk₀ (hcancelled.symm.trans hc)
  · intro t' k' hk' hc
    obtain ⟨k₀, hk₀, -, hcancelled⟩ := hold t' k' hk'
    exact hi.awaited t' k₀ hk₀ (hcancelled.symm.trans hc)
  · intro t₁ t₂ k₁ k₂ h₁ h₂ hname
    obtain ⟨k₃, hk₃, hname₃, -⟩ := hold t₁ k₁ h₁
    obtain ⟨k₄, hk₄, hname₄, -⟩ := hold t₂ k₂ h₂
    exact hi.single t₁ t₂ k₃ k₄ hk₃ hk₄ (hname₃.symm.trans (hname.trans hname₄))
  · exact hi.wanted
  · exact hi.missing
  · intro t' k' hk' hphase hc
    rcases live_setPhase.mp hk' with ⟨rfl, -, k₀, hk₀, rfl⟩ | ⟨-, hk'⟩
    · cases hk.1.symm.trans hk₀
      exact .inl (hsense hphase hc)
    · exact hi.seen t' k' hk' hphase hc

/-- A task that ends by itself was not to run. -/
theorem Inv.leave (hi : Inv due pend m) (hk : m.Live t k)
    (hrun : k.cancelled = false → m.shouldRun k.name = false) : Inv due pend (m.leave t k.name) := by
  cases hc : k.cancelled with
  | true =>
    -- the source has another task in hand by now, or none
    have hother : m.tasks.get? k.name ≠ some t := by
      intro ht
      obtain ⟨k₀, hk₀, -, hc₀⟩ := hi.current k.name t ht
      cases hk.1.symm.trans hk₀.1
      rw [hc] at hc₀
      cases hc₀
    unfold Manager.leave
    rw [if_neg hother]
    have hdone : Inv due pend (m.setPhase t .done) := hi.setPhase hk (fun _ => hc) fun h => by cases h
    exact hdone
  | false =>
    have htasks : (m.leave t k.name).tasks = m.tasks.erase k.name := if_pos (hi.held t k hk hc)
    have hold : ∀ t' k', (m.leave t k.name).Live t' k' → m.Live t' k' ∧ t ≠ t' := by
      intro t' k' hk'
      rcases live_setPhase.mp hk' with ⟨-, hdone, -⟩ | ⟨ht, hk'⟩
      · exact absurd rfl hdone
      · exact ⟨hk', ht⟩
    constructor
    · exact hi.registered
    · intro other t' ht'
      rw [htasks] at ht'
      obtain ⟨-, hne, k', hk', hname', hc'⟩ := hi.current_erase hk ht'
      exact ⟨k', live_setPhase.mpr (.inr ⟨hne, hk'⟩), hname', hc'⟩
    · intro t' k' hk' hc'
      obtain ⟨hk', hne⟩ := hold t' k' hk'
      rw [htasks]
      exact hi.held_erase hk hk' hne hc'
    · exact fun t' k' hk' hc' => hi.awaited t' k' (hold t' k' hk').1 hc'
    · exact fun t₁ t₂ k₁ k₂ h₁ h₂ => hi.single t₁ t₂ k₁ k₂ (hold t₁ k₁ h₁).1 (hold t₂ k₂ h₂).1
    · intro other hother
      rw [htasks] at hother
      exact (hi.wanted_erase hother).2
    · intro other hother
      have hother : m.shouldRun other = true := hother
      rw [htasks, Dict.get?_erase]
      split_ifs with hname
      · rw [hname, hrun hc] at hother
        cases hother
      · exact hi.missing other hother
    · exact fun t' k' hk' hphase hc' => hi.seen t' k' (hold t' k' hk').1 hphase hc'

theorem Inv.enter (hi : Inv due pend m) (hk : m.Live t k) (hphase : k.phase = .created) (now : ℚ) :
    Inv due pend (m.enter t now k) := by
  unfold Manager.enter
  split_ifs with hc hregistered hrun
  · exact hi.setPhase hk (fun _ => hc) fun h => by cases h
  · refine hi.leave hk fun _ => ?_
    by_contra hshould
    have henabled := hi.registered k.name
    rw [(shouldRun_iff.mp (by simpa using hshould)).2, Option.isNone_iff_eq_none.mp hregistered] at henabled
    cases henabled
  · have hstarted : Inv due pend { m with supervisor := onStart k.name now m.supervisor } :=
      { hi with
        seen := fun t' k' hk' hphase hc' => by
          refine (hi.seen t' k' hk' hphase hc').imp_left fun hrow => ?_
          by_cases hname : k'.name = k.name
          · rw [hname]
            exact running_onStart k.name now m.supervisor
          · exact hrow.of_get?_eq (get?_onStart_ne hname now _) }
    exact hstarted.setPhase hk (fun h => by cases h) fun _ _ => running_onStart k.name now m.supervisor
  · have hheld := hi.held t k hk (by simpa using hc)
    have hstop : Inv due pend (m.onStop k.name) := hi.onStop fun t' k' ht' hk' hsensing => by
      cases hheld.symm.trans ht'
      cases hk.1.symm.trans hk'.1
      rw [hphase] at hsensing
      cases hsensing
    have hnot : m.shouldRun k.name = false := by simpa using hrun
    exact hstop.leave hk fun _ => hnot

/-- The cancellation reaches a source that senses; nobody else is on its row. -/
theorem Inv.interrupt (hi : Inv due pend m) (hk : m.Live t k) (hc : k.cancelled = true) :
    Inv due pend ((m.onStop k.name).setPhase t .closing) := by
  have hstop : Inv due pend (m.onStop k.name) := hi.onStop fun t' k' ht' hk' _ => by
    obtain ⟨k₀, hk₀, hname, hc₀⟩ := hi.current k.name t' ht'
    obtain rfl := hi.single t t' k k₀ hk hk₀ hname.symm
    cases hk.1.symm.trans hk₀.1
    rw [hc] at hc₀
    cases hc₀
  exact hstop.setPhase hk (fun h => by cases h) fun h => by cases h

theorem Inv.event (hi : Inv due pend m) (name : String) (now : ℚ) :
    Inv due pend { m with supervisor := onEvent name now m.supervisor } :=
  { hi with
    seen := fun t k hk hphase hc => (hi.seen t k hk hphase hc).imp_left fun hrow => hrow.onEvent name now }

theorem step_inv (m : Manager Factory) (e : Step Factory) (hi : Inv [] [] m) (h : m.Careful e) :
    Inv [] [] (m.step e) := by
  cases e with
  | call c request =>
    simp only [step]
    split_ifs with hc
    · exact hi
    · have hnone : m.calls.get? c = none := by simpa using hc
      exact hi.call hnone (h hnone)
  | resume c => exact hi.resume h
  | begin t now =>
    simp only [step]
    split
    · rename_i name cancelled hk
      exact hi.enter ⟨hk, fun h => by cases h⟩ rfl now
    · exact hi
  | event t now =>
    simp only [step]
    split
    · exact hi.event _ now
    · exact hi
  | interrupt t =>
    simp only [step]
    split
    · rename_i name hk
      exact hi.interrupt ⟨hk, fun h => by cases h⟩ rfl
    · exact hi
  | finish t =>
    simp only [step]
    split
    · rename_i name hk
      exact hi.leave ⟨hk, fun h => by cases h⟩ fun h => by cases h
    · exact hi

end

end

/-- In a run where no step spoils another's switching, every state is free of races: no source has
two tasks, and whenever all calls have returned exactly those sources have one that are registered
and enabled in a running manager, and none of those that sense is reported as stopped. -/
theorem switching_raceFree (supervisor : SourceSupervisor) (steps : List (Step Factory))
    (h : AllSteps step Careful (init supervisor) steps) :
    AllStates step RaceFree (init supervisor) steps :=
  allStates_of_invariant step_inv (fun _ hi => hi.raceFree) (inv_init supervisor) h

/-- A camera is switched off while it restarts, and then everything is stopped. -/
def offInRestart : List (Step Unit) :=
  [.call 0 (.register "camera" () true none), .call 0 (.register "radar" () true none), .call 0 .start,
    .begin 0 1, .begin 1 1, .call 0 (.restart "camera"), .interrupt 0, .call 1 (.setEnabled "camera" false),
    .call 1 .stop, .finish 0, .interrupt 1, .resume 0, .finish 1, .resume 1]

theorem offInRestart_raceFree :
    (finish step (init .empty) offInRestart).calls = .empty ∧
      AllStates step RaceFree (init .empty) offInRestart :=
  ⟨by decide, switching_raceFree .empty offInRestart (by decide)⟩

end Manager

/-- A camera is switched off, and on again while its task is still ending. -/
def offAndOn : List (Step Unit) :=
  [.call 0 (.register "camera" () true none), .call 0 .start, .begin 0 1,
    .call 0 (.setEnabled "camera" false), .call 1 (.setEnabled "camera" true),
    .interrupt 0, .finish 0, .begin 1 2, .resume 0]

/-- It senses, and is reported as stopped. -/
theorem offAndOn_races : ¬ AllStates Manager.step Manager.RaceFree (init .empty) offAndOn := by
  intro h
  exact h.last.reported (by decide) 1 ⟨"camera", .sensing, false⟩ ⟨by decide, by decide⟩ rfl 3 (by decide)

end Wavr.SourceManager
