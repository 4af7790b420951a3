import Mathlib
import Wavr.Espresense

/-!
# Runs of the ESPresense tracker

What the tracker holds is what was published, up to what is too old; what its events show is what
it holds. Both are kept by the reconciliation of one device, by a pass over all of them and by
every message, and the laws of a run follow from them.
-/

namespace Wavr.Espresense

open Fusion (SensingEvent)
open Mqtt (DISCONNECTED)

/-! ## One device reconciled -/

section
variable {pf : Platform} {cfg : Config} {t : Tracker} {h : Heard} {s : Shown} {now : ℤ}

/-- A board's reading in the tracker's table. -/
def Tracker.reading (t : Tracker) (d b : String) : Option (ℚ × ℤ) := (t.readings.get? d).bind (·.get? b)

/-- The tables hold what was read, but for what is too old at `now`; a board that is offline may
still have readings there, which do not count. -/
structure Sound (pf : Platform) (cfg : Config) (t : Tracker) (h : Heard) (now : ℤ) : Prop where
  held : ∀ d b e, t.reading d b = some e → t.hears b = true → h.reading d b = some e
  gone : ∀ d b x at_, h.reading d b = some (x, at_) →
    t.reading d b = some (x, at_) ∨ cfg.timeoutS < pf.seconds (now - at_)
  online : ∀ b, t.hears b = ! h.offline b
  silent : ∀ d b, h.offline b = true → h.reading d b = none

theorem named_of_room {b : String} : named (cfg.rooms.get? b) = cfg.rooms.get? b := by
  cases hb : cfg.rooms.get? b with
  | none => rfl
  | some r => simp [named, Option.filter, cfg.rooms_ne b r hb]

theorem get?_kept (d b : String) (x : ℚ) (at_ : ℤ) : (kept pf cfg t d now).get? b = some (x, at_) ↔
    t.reading d b = some (x, at_) ∧ pf.seconds (now - at_) ≤ cfg.timeoutS ∧ t.hears b = true := by
  have hread : ((t.readings.get? d).getD .empty).get? b = t.reading d b := by
    unfold Tracker.reading
    cases t.readings.get? d <;> rfl
  simp only [kept, Dict.get?_filter, hread, Option.filter_eq_some_iff]
  simp

/-- The readings that are kept and in range are those that vouch. -/
theorem vouches_iff (hs : Sound pf cfg t h now) (d b : String) (x : ℚ) : Vouches pf cfg h now d b x ↔
    ∃ at_, (kept pf cfg t d now).get? b = some (x, at_) ∧ x ≤ cfg.maxDistanceM := by
  constructor
  · rintro ⟨at_, hr, hfresh, hrange, hoff⟩
    have hhears : t.hears b = true := by rw [hs.online, hoff]; rfl
    rcases hs.gone d b x at_ hr with ht | hold
    · exact ⟨at_, (get?_kept d b x at_).mpr ⟨ht, hfresh, hhears⟩, hrange⟩
    · exact absurd hfresh (not_le.mpr hold)
  · rintro ⟨at_, hk, hrange⟩
    obtain ⟨ht, hfresh, hhears⟩ := (get?_kept d b x at_).mp hk
    have hoff : h.offline b = false := by simpa [hs.online] using hhears
    exact ⟨at_, hs.held d b _ ht hhears, hfresh, hrange, hoff⟩

theorem nearest_some (hs : Sound pf cfg t h now) {d b : String}
    (hb : nearest cfg (kept pf cfg t d now) = some b) : Nearest pf cfg h now d b := by
  obtain ⟨e, he, rfl⟩ := Option.map_eq_some_iff.mp hb
  have hmem := List.argmin_mem he
  obtain ⟨hentry, hrange⟩ := List.mem_filter.mp hmem
  have hget : (kept pf cfg t d now).get? e.1 = some (e.2.1, e.2.2) := Dict.mem_entries.mp hentry
  refine ⟨e.2.1, (vouches_iff hs d e.1 e.2.1).mpr ⟨e.2.2, hget, of_decide_eq_true hrange⟩, ?_⟩
  intro b' x' hv
  obtain ⟨at_, hk, hx'⟩ := (vouches_iff hs d b' x').mp hv
  have hmem' : (b', x', at_) ∈ (kept pf cfg t d now).entries.filter fun e => e.2.1 ≤ cfg.maxDistanceM :=
    List.mem_filter.mpr ⟨Dict.mem_entries.mpr hk, decide_eq_true hx'⟩
  exact List.le_of_mem_argmin hmem' he

theorem nearest_none (hs : Sound pf cfg t h now) {d : String}
    (hb : nearest cfg (kept pf cfg t d now) = none) (b : String) (x : ℚ) : ¬ Vouches pf cfg h now d b x := by
  intro hv
  obtain ⟨at_, hk, hx⟩ := (vouches_iff hs d b x).mp hv
  have hmem : (b, x, at_) ∈ (kept pf cfg t d now).entries.filter fun e => e.2.1 ≤ cfg.maxDistanceM :=
    List.mem_filter.mpr ⟨Dict.mem_entries.mpr hk, decide_eq_true hx⟩
  have hnil := List.argmin_eq_none.mp (Option.map_eq_none_iff.mp hb)
  rw [hnil] at hmem
  cases hmem

/-- The room a device is taken to be in is that of a nearest board; without one it is in none. -/
theorem roomOf_kept (hs : Sound pf cfg t h now) (d : String) :
    (∃ b, Nearest pf cfg h now d b ∧ roomOf cfg (kept pf cfg t d now) = cfg.rooms.get? b) ∨
      ((∀ b x, ¬ Vouches pf cfg h now d b x) ∧ roomOf cfg (kept pf cfg t d now) = none) := by
  unfold roomOf
  cases hb : nearest cfg (kept pf cfg t d now) with
  | none => exact .inr ⟨nearest_none hs hb, rfl⟩
  | some b => exact .inl ⟨b, nearest_some hs hb, rfl⟩

theorem named_roomOf (rs : Dict String (ℚ × ℤ)) : named (roomOf cfg rs) = roomOf cfg rs := by
  unfold roomOf
  cases nearest cfg rs with
  | none => rfl
  | some b => exact named_of_room

@[simp] theorem reconcile_online (d : String) : (reconcile pf cfg t d now).1.online = t.online := by
  unfold reconcile
  dsimp only
  split <;> rfl

@[simp] theorem reconcile_motion (d : String) : (reconcile pf cfg t d now).1.motion = t.motion := by
  unfold reconcile
  dsimp only
  split <;> rfl

@[simp] theorem reconcile_hears (d b : String) : (reconcile pf cfg t d now).1.hears b = t.hears b := by
  simp [Tracker.hears]

theorem reconcile_current (d d' : String) : (reconcile pf cfg t d now).1.current.get? d' =
    if d' = d then roomOf cfg (kept pf cfg t d now) else t.current.get? d' := by
  unfold reconcile
  simp only [named_roomOf]
  cases roomOf cfg (kept pf cfg t d now) with
  | none => exact Dict.get?_erase ..
  | some r => exact Dict.get?_set ..

theorem reconcile_readings (d d' : String) : (reconcile pf cfg t d now).1.readings.get? d' =
    if d' = d then (if (kept pf cfg t d now).entries = [] then none else some (kept pf cfg t d now))
    else t.readings.get? d' := by
  have hr : (reconcile pf cfg t d now).1.readings =
      if (kept pf cfg t d now).entries = [] then t.readings.erase d
      else t.readings.set d (kept pf cfg t d now) := by
    unfold reconcile
    dsimp only
    split <;> rfl
  rw [hr]
  by_cases hnil : (kept pf cfg t d now).entries = []
  · simp only [if_pos hnil, Dict.get?_erase]
  · simp only [if_neg hnil, Dict.get?_set]

theorem reconcile_reading (d d' b : String) : (reconcile pf cfg t d now).1.reading d' b =
    if d' = d then (kept pf cfg t d now).get? b else t.reading d' b := by
  unfold Tracker.reading
  rw [reconcile_readings]
  by_cases hd : d' = d
  · rw [if_pos hd, if_pos hd]
    by_cases hnil : (kept pf cfg t d now).entries = []
    · rw [if_pos hnil, Option.bind_none]
      simp [Dict.get?, hnil]
    · rw [if_neg hnil, Option.bind_some]
  · rw [if_neg hd, if_neg hd]

end

/-! ## What the events show -/

section
variable {pf : Platform} {cfg : Config} {t : Tracker} {h : Heard} {s : Shown} {now : ℤ}

theorem showAll_append (es es' : List (SensingEvent ℚ)) :
    s.showAll (es ++ es') = (s.showAll es).showAll es' := List.foldl_append

theorem showAll_of_ne {k : String} {es : List (SensingEvent ℚ)} (h : ∀ e ∈ es, e.sensorId ≠ k) (r : String) :
    s.showAll es (k, r) = s (k, r) := by
  induction es generalizing s with
  | nil => rfl
  | cons e es ih =>
    have hne : (k, r) ≠ (e.sensorId, e.room) := fun he =>
      h e List.mem_cons_self (Prod.mk.inj he).1.symm
    have hshow := ih (s := s.show e) fun e' he' => h e' (List.mem_cons_of_mem e he')
    rw [Shown.showAll, List.foldl_cons]
    exact hshow.trans (Function.update_of_ne hne _ _)

/-- A device leaves the room it was in, unless it stays there, and enters the one it is in now. -/
theorem reconcile_events (d : String) : (reconcile pf cfg t d now).2 =
    ((named (t.current.get? d)).filter fun p => some p ≠ roomOf cfg (kept pf cfg t d now)).toList.map
        (fun p => event pf p d false now) ++
      (roomOf cfg (kept pf cfg t d now)).toList.map fun r => event pf r d true now := by
  unfold reconcile
  simp only [named_roomOf]
  cases hprev : named (t.current.get? d) with
  | none => cases roomOf cfg (kept pf cfg t d now) <;> rfl
  | some p =>
    by_cases heq : some p = roomOf cfg (kept pf cfg t d now)
    · rw [← heq]
      simp
    · cases hroom : roomOf cfg (kept pf cfg t d now) with
      | none => simp [Option.filter_some]
      | some r =>
        have hne : p ≠ r := fun he => heq (by rw [hroom, he])
        simp [Option.filter_some, hne]

theorem sensorId_of_mem_reconcile {d : String} {e : SensingEvent ℚ}
    (he : e ∈ (reconcile pf cfg t d now).2) : e.sensorId = sensorIdFor pf d := by
  rw [reconcile_events, List.mem_append, List.mem_map, List.mem_map] at he
  rcases he with ⟨_, _, rfl⟩ | ⟨_, _, rfl⟩ <;> rfl

theorem show_event (room d : String) (present : Bool) (r : String) :
    s.show (event pf room d present now) (sensorIdFor pf d, r) =
      if r = room then present else s (sensorIdFor pf d, r) := by
  simp [Shown.show, Function.update_apply, event]

theorem shown_reconcile {d : String} (hcur : ∀ r, s (sensorIdFor pf d, r) = true ↔ t.current.get? d = some r)
    (hne : ∀ r, t.current.get? d = some r → r ≠ "") (r : String) :
    s.showAll (reconcile pf cfg t d now).2 (sensorIdFor pf d, r) = true ↔
      roomOf cfg (kept pf cfg t d now) = some r := by
  have hnamed : named (t.current.get? d) = t.current.get? d := by
    cases hc : t.current.get? d with
    | none => rfl
    | some p => simp [named, Option.filter_some, hne p hc]
  rw [reconcile_events, showAll_append, hnamed]
  generalize roomOf cfg (kept pf cfg t d now) = room
  -- what is left once the room that is left has been released
  have hleft : ∀ r, s.showAll (((t.current.get? d).filter fun p => some p ≠ room).toList.map
      fun p => event pf p d false now) (sensorIdFor pf d, r) = true → room = some r := by
    intro r hr
    cases hc : t.current.get? d with
    | none =>
      rw [hc] at hr
      have := (hcur r).mp hr
      rw [hc] at this
      cases this
    | some p =>
      by_cases hp : some p = room
      · rw [hc, Option.filter_some, if_neg (by simp [hp])] at hr
        rw [← hp, ← hc]
        exact (hcur r).mp hr
      · rw [hc, Option.filter_some, if_pos (by simp [hp])] at hr
        simp only [Option.toList_some, List.map_cons, List.map_nil, Shown.showAll, List.foldl_cons,
          List.foldl_nil, show_event] at hr
        split_ifs at hr with hrp
        have hpr := (hcur r).mp hr
        rw [hc] at hpr
        exact absurd (Option.some.inj hpr).symm hrp
  cases room with
  | none => exact ⟨hleft r, nofun⟩
  | some q =>
    simp only [Option.toList_some, List.map_cons, List.map_nil]
    rw [Shown.showAll, List.foldl_cons, List.foldl_nil, show_event]
    by_cases hq : r = q
    · rw [if_pos hq, hq]
      exact ⟨fun _ => rfl, fun _ => rfl⟩
    · rw [if_neg hq]
      exact ⟨hleft r, fun he => absurd (Option.some.inj he).symm hq⟩

/-! ## The invariant of a run -/

/-- The sensors show what the tracker holds. -/
structure Displayed (pf : Platform) (cfg : Config) (t : Tracker) (h : Heard) (s : Shown) : Prop where
  current : ∀ d ∈ cfg.devices, ∀ r, s (sensorIdFor pf d, r) = true ↔ t.current.get? d = some r
  named : ∀ d r, t.current.get? d = some r → r ≠ ""
  read : ∀ d r, t.current.get? d = some r → (t.readings.get? d).isSome
  enrolled : ∀ d, (t.readings.get? d).isSome → d ∈ cfg.devices
  motion : ∀ b on, t.motion.get? b = some on → h.motion b = some on ∧ (cfg.rooms.get? b).isSome
  moved : ∀ b r, s (motionSensor b, r) = true ↔ h.motion b = some true ∧ cfg.rooms.get? b = some r

/-- A device that is where it belongs, with no reading left of a board that is offline. -/
structure Done (pf : Platform) (cfg : Config) (t : Tracker) (h : Heard) (now : ℤ) (d : String) : Prop where
  clean : ∀ b e, t.reading d b = some e → t.hears b = true
  placed : (∃ b, Nearest pf cfg h now d b ∧ t.current.get? d = cfg.rooms.get? b) ∨
    ((∀ b x, ¬ Vouches pf cfg h now d b x) ∧ t.current.get? d = none)

theorem sensorIdFor_ne_motionSensor (d b : String) : sensorIdFor pf d ≠ motionSensor b := by
  intro he
  have hlist : (pf.digest d).toList = b.toList ++ ":motion".toList := by
    have := congrArg String.toList he
    simpa [sensorIdFor, motionSensor] using this
  exact pf.digest_hex d (by rw [hlist]; simp)

theorem motionSensor_inj {b b' : String} : motionSensor b = motionSensor b' ↔ b = b' := by
  rw [motionSensor, motionSensor, String.append_left_inj, String.append_right_inj]

theorem sensorIdFor_inj (hid : Set.InjOn pf.digest {d | d ∈ cfg.devices}) {d d' : String} (hd : d ∈ cfg.devices)
    (hd' : d' ∈ cfg.devices) : sensorIdFor pf d = sensorIdFor pf d' ↔ d = d' := by
  constructor
  · intro he
    exact hid hd hd' ((String.append_right_inj _).mp he)
  · exact congrArg _

theorem sound_reconcile (hs : Sound pf cfg t h now) (d : String) :
    Sound pf cfg (reconcile pf cfg t d now).1 h now where
  held d' b e hr hb := by
    rw [reconcile_hears] at hb
    rw [reconcile_reading] at hr
    split_ifs at hr with hd
    · subst hd
      exact hs.held _ b e ((get?_kept _ b e.1 e.2).mp hr).1 hb
    · exact hs.held d' b e hr hb
  gone d' b x at_ hr := by
    rw [reconcile_reading]
    rcases hs.gone d' b x at_ hr with ht | hold
    · split_ifs with hd
      · subst hd
        by_cases hfresh : pf.seconds (now - at_) ≤ cfg.timeoutS
        · refine .inl ((get?_kept d' b x at_).mpr ⟨ht, hfresh, ?_⟩)
          rw [hs.online]
          cases hoff : h.offline b with
          | false => rfl
          | true => simp [hs.silent d' b hoff] at hr
        · exact .inr (not_le.mp hfresh)
      · exact .inl ht
    · exact .inr hold
  online b := by rw [reconcile_hears, hs.online]
  silent := hs.silent

theorem displayed_reconcile (hid : Set.InjOn pf.digest {d | d ∈ cfg.devices}) (hs : Displayed pf cfg t h s)
    {d : String} (hd : d ∈ cfg.devices) :
    Displayed pf cfg (reconcile pf cfg t d now).1 h (s.showAll (reconcile pf cfg t d now).2) where
  current d' hd' r := by
    rw [reconcile_current]
    by_cases he : d' = d
    · subst he
      rw [if_pos rfl]
      exact shown_reconcile (hs.current d' hd) (hs.named d') r
    · -- another device has another sensor id, as the digest tells them apart
      rw [if_neg he, showAll_of_ne fun e hmem => ?_]
      · exact hs.current d' hd' r
      · rw [sensorId_of_mem_reconcile hmem]
        exact fun heq => he ((sensorIdFor_inj hid hd hd').mp heq).symm
  named d' r hr := by
    rw [reconcile_current] at hr
    split_ifs at hr with he
    · rw [← named_roomOf] at hr
      exact of_decide_eq_true (Option.filter_eq_some_iff.mp hr).2
    · exact hs.named d' r hr
  read d' r hr := by
    rw [reconcile_current] at hr
    rw [reconcile_readings]
    split_ifs at hr ⊢ with he hnil
    · simp [roomOf, nearest, hnil] at hr
    · rfl
    · exact hs.read d' r hr
  enrolled d' hr := by
    rw [reconcile_readings] at hr
    by_cases he : d' = d
    · exact he ▸ hd
    · rw [if_neg he] at hr
      exact hs.enrolled d' hr
  motion b on hb := hs.motion b on (by rwa [reconcile_motion] at hb)
  moved b r := by
    rw [showAll_of_ne fun e hmem => ?_]
    · exact hs.moved b r
    · rw [sensorId_of_mem_reconcile hmem]
      exact sensorIdFor_ne_motionSensor d b

theorem done_reconcile (hs : Sound pf cfg t h now) (d : String) :
    Done pf cfg (reconcile pf cfg t d now).1 h now d where
  clean b e hr := by
    rw [reconcile_reading, if_pos rfl] at hr
    rw [reconcile_hears]
    exact ((get?_kept d b e.1 e.2).mp hr).2.2
  placed := by
    rw [reconcile_current, if_pos rfl]
    exact roomOf_kept hs d

theorem Done.reconcile {d d' : String} (hs : Sound pf cfg t h now) (hd : Done pf cfg t h now d') :
    Done pf cfg (reconcile pf cfg t d now).1 h now d' := by
  by_cases he : d' = d
  · subst he
    exact done_reconcile hs d'
  · refine ⟨fun b e hr => ?_, ?_⟩
    · rw [reconcile_reading, if_neg he] at hr
      rw [reconcile_hears]
      exact hd.clean b e hr
    · rw [reconcile_current, if_neg he]
      exact hd.placed

end

/-! ## A run of reconciliations -/

section
variable {pf : Platform} {cfg : Config} {t : Tracker} {h : Heard} {s : Shown} {now : ℤ}

/-- What every pass over the devices keeps. -/
structure Kept (pf : Platform) (cfg : Config) (h : Heard) (now : ℤ) (t : Tracker) (s : Shown) : Prop where
  sound : Sound pf cfg t h now
  displayed : Displayed pf cfg t h s

/-- A device no reading is held of is in no room, and rightly so. -/
theorem done_of_absent (hk : Kept pf cfg h now t s) {d : String} (hd : t.readings.get? d = none) :
    Done pf cfg t h now d := by
  have hread : ∀ b, t.reading d b = none := fun b => by simp [Tracker.reading, hd]
  refine ⟨fun b e hr => ?_, .inr ⟨?_, ?_⟩⟩
  · rw [hread] at hr
    cases hr
  · rintro b x ⟨at_, hr, hfresh, -, -⟩
    rcases hk.sound.gone d b x at_ hr with ht | hold
    · rw [hread] at ht
      cases ht
    · exact absurd hfresh (not_le.mpr hold)
  · cases hc : t.current.get? d with
    | none => rfl
    | some r =>
      have := hk.displayed.read d r hc
      simp [hd] at this

/-- A pass in which each step keeps the invariant, and settles its device, settles them all. -/
theorem kept_foldl {f : Tracker → String → Tracker × List (SensingEvent ℚ)}
    (hstep : ∀ t s d, d ∈ cfg.devices → Kept pf cfg h now t s →
      Kept pf cfg h now (f t d).1 (s.showAll (f t d).2) ∧ Done pf cfg (f t d).1 h now d ∧
        ∀ d', Done pf cfg t h now d' → Done pf cfg (f t d).1 h now d')
    (ds : List String) (hds : ∀ d ∈ ds, d ∈ cfg.devices) (evs : List (SensingEvent ℚ))
    (hk : Kept pf cfg h now t (s.showAll evs)) :
    let out := ds.foldl (fun acc d => ((f acc.1 d).1, acc.2 ++ (f acc.1 d).2)) (t, evs)
    Kept pf cfg h now out.1 (s.showAll out.2) ∧
      ∀ d, d ∈ ds ∨ Done pf cfg t h now d → Done pf cfg out.1 h now d := by
  induction ds generalizing t evs with
  | nil => exact ⟨hk, fun d hd => hd.resolve_left List.not_mem_nil⟩
  | cons d ds ih =>
    obtain ⟨hk', hdone, hkeep⟩ := hstep t (s.showAll evs) d (hds d List.mem_cons_self) hk
    rw [← showAll_append] at hk'
    obtain ⟨hend, hall⟩ := ih (fun d' hd' => hds d' (List.mem_cons_of_mem d hd')) _ hk'
    refine ⟨hend, fun d' hd' => hall d' ?_⟩
    rcases hd' with hmem | hold
    · rcases List.mem_cons.mp hmem with rfl | hmem
      · exact .inr hdone
      · exact .inl hmem
    · exact .inr (hkeep d' hold)

theorem kept_reconcileAll (hid : Set.InjOn pf.digest {d | d ∈ cfg.devices}) (hk : Kept pf cfg h now t s) :
    let out := reconcileAll pf cfg t.readings.keys t now
    Kept pf cfg h now out.1 (s.showAll out.2) ∧ ∀ d, Done pf cfg out.1 h now d := by
  have hkeys : ∀ d ∈ t.readings.keys, d ∈ cfg.devices := fun d hd =>
    hk.displayed.enrolled d (Dict.mem_keys.mp hd)
  obtain ⟨hend, hall⟩ := kept_foldl (f := fun t d => reconcile pf cfg t d now)
    (fun t s d hd hk => ⟨⟨sound_reconcile hk.sound d, displayed_reconcile hid hk.displayed hd⟩,
      done_reconcile hk.sound d, fun d' => Done.reconcile hk.sound⟩) t.readings.keys hkeys [] hk
  refine ⟨hend, fun d => hall d ?_⟩
  cases hd : t.readings.get? d with
  | none => exact .inr (done_of_absent hk hd)
  | some rs => exact .inl (Dict.mem_keys.mpr (by rw [hd]; rfl))

/-- `self._readings[device_id].pop(slug, None)`. -/
def popped (t : Tracker) (slug d : String) : Tracker :=
  { t with readings := t.readings.set d (((t.readings.get? d).getD .empty).erase slug) }

theorem popped_reading (slug d d' b : String) : (popped t slug d).reading d' b =
    if d' = d ∧ b = slug then none else t.reading d' b := by
  unfold popped Tracker.reading
  rw [Dict.get?_set]
  by_cases hd : d' = d
  · subst hd
    rw [if_pos rfl, Option.bind_some, Dict.get?_erase]
    cases t.readings.get? d' <;> simp [true_and]
  · rw [if_neg hd, if_neg fun h => hd h.1]

theorem kept_popped (hk : Kept pf cfg h now t s) {slug d : String} (hd : d ∈ cfg.devices)
    (hoff : h.offline slug = true) : Kept pf cfg h now (popped t slug d) s where
  sound :=
    { held := fun d' b e hr hb => by
        rw [popped_reading] at hr
        split_ifs at hr
        exact hk.sound.held d' b e hr hb
      gone := fun d' b x at_ hr => by
        rw [popped_reading]
        split_ifs with he
        · simp [he.2, hk.sound.silent d' slug hoff] at hr
        · exact hk.sound.gone d' b x at_ hr
      online := hk.sound.online
      silent := hk.sound.silent }
  displayed :=
    { hk.displayed with
      read := fun d' r hr => by
        rw [popped, Dict.get?_set]
        split_ifs
        · rfl
        · exact hk.displayed.read d' r hr
      enrolled := fun d' hr => by
        by_cases he : d' = d
        · exact he ▸ hd
        · rw [popped, Dict.get?_set, if_neg he] at hr
          exact hk.displayed.enrolled d' hr }

theorem kept_releaseBoard (hid : Set.InjOn pf.digest {d | d ∈ cfg.devices}) {slug : String}
    (hoff : h.offline slug = true) (hk : Kept pf cfg h now t s) :
    let out := releaseBoard pf cfg slug t now
    Kept pf cfg h now out.1 (s.showAll out.2) ∧ ∀ d, Done pf cfg out.1 h now d := by
  have hkeys : ∀ d ∈ t.readings.keys, d ∈ cfg.devices := fun d hd =>
    hk.displayed.enrolled d (Dict.mem_keys.mp hd)
  obtain ⟨hend, hall⟩ := kept_foldl (f := fun t d => reconcile pf cfg (popped t slug d) d now)
    (fun t s d hd hk => by
      have hpop := kept_popped hk hd hoff
      refine ⟨⟨sound_reconcile hpop.sound d, displayed_reconcile hid hpop.displayed hd⟩,
        done_reconcile hpop.sound d, fun d' hdone => Done.reconcile hpop.sound ?_⟩
      refine ⟨fun b e hr => ?_, hdone.placed⟩
      rw [popped_reading] at hr
      split_ifs at hr
      exact hdone.clean b e hr) t.readings.keys hkeys [] hk
  refine ⟨hend, fun d => hall d ?_⟩
  cases hd : t.readings.get? d with
  | none => exact .inr (done_of_absent hk hd)
  | some rs => exact .inl (Dict.mem_keys.mpr (by rw [hd]; rfl))

/-! ## One input -/

/-- What holds between two inputs, the earlier of them at `last`. -/
structure Inv (pf : Platform) (cfg : Config) (w : World) (last : ℤ) : Prop where
  kept : Kept pf cfg w.heard last w.tracker w.shown
  clean : ∀ d b e, w.tracker.reading d b = some e → w.tracker.hears b = true

theorem Sound.mono {last : ℤ} (hs : Sound pf cfg t h last) (hle : last ≤ now) : Sound pf cfg t h now :=
  { hs with
    gone := fun d b x at_ hr => (hs.gone d b x at_ hr).imp_right fun hold =>
      hold.trans_le (pf.seconds_mono (Int.sub_le_sub_right hle at_)) }

theorem Inv.mono {w : World} {last : ℤ} (hw : Inv pf cfg w last) (hle : last ≤ now) : Inv pf cfg w now :=
  ⟨⟨hw.kept.sound.mono hle, hw.kept.displayed⟩, hw.clean⟩

theorem Inv.same {t' : Tracker} (hw : Inv pf cfg ⟨t, h, s⟩ now) (hsame : Same t t') :
    Inv pf cfg ⟨t', h, s⟩ now := by
  obtain ⟨hr, hc, hm, ho⟩ := hsame
  have hread : t'.reading = t.reading := by
    funext d b
    simp [Tracker.reading, hr]
  have hhears : t'.hears = t.hears := by
    funext b
    simp [Tracker.hears, ho]
  obtain ⟨⟨⟨h1, h2, h3, h4⟩, ⟨h6, h7, h8, h9, h10, h11⟩⟩, h12⟩ := hw
  exact ⟨⟨⟨by rwa [hread, hhears], by rwa [hread], by rwa [hhears], h4⟩,
    ⟨by rwa [hc], by rwa [hc], by rwa [hc, hr], by rwa [hr], by rwa [hm], h11⟩⟩, by rwa [hread, hhears]⟩

theorem hears_set (b b' : String) (on : Bool) :
    Tracker.hears { t with online := t.online.set b on } b' = if b' = b then on else t.hears b' := by
  unfold Tracker.hears
  rw [Dict.get?_set]
  split_ifs <;> rfl

theorem inv_online (hw : Inv pf cfg ⟨t, h, s⟩ now) (b : String) :
    Inv pf cfg ⟨{ t with online := t.online.set b true }, h.hear now (.online b), s⟩ now where
  kept :=
    { sound :=
        { held := fun d b' e hr _ => hw.kept.sound.held d b' e hr (hw.clean d b' e hr)
          gone := hw.kept.sound.gone
          online := fun b' => by
            rw [hears_set, hw.kept.sound.online]
            by_cases he : b' = b <;> simp [Heard.hear, he]
          silent := fun d b' hoff => hw.kept.sound.silent d b' (by
            simp only [Heard.hear, Function.update_apply] at hoff
            split_ifs at hoff
            exact hoff) }
      displayed := ⟨hw.kept.displayed.current, hw.kept.displayed.named, hw.kept.displayed.read,
        hw.kept.displayed.enrolled, hw.kept.displayed.motion, hw.kept.displayed.moved⟩ }
  clean d b' e hr := by
    rw [hears_set]
    split_ifs
    · rfl
    · exact hw.clean d b' e hr

theorem show_motionEvent (b : String) (on : Bool) (b' r : String) :
    s.show (motionEvent pf cfg b on now) (motionSensor b', r) =
      if b' = b ∧ r = (cfg.rooms.get? b).getD "" then on else s (motionSensor b', r) := by
  simp [Shown.show, Function.update_apply, motionEvent, motionSensor_inj]

theorem show_motionEvent_device (b : String) (on : Bool) (d r : String) :
    s.show (motionEvent pf cfg b on now) (sensorIdFor pf d, r) = s (sensorIdFor pf d, r) := by
  refine Function.update_of_ne (fun he => ?_) _ _
  exact sensorIdFor_ne_motionSensor d b (Prod.mk.inj he).1

theorem displayed_motion (hs : Displayed pf cfg t h s) {b : String} (hb : (cfg.rooms.get? b).isSome) (on : Bool) :
    Displayed pf cfg { t with motion := t.motion.set b on } (h.hear now (.motion b on))
      (s.show (motionEvent pf cfg b on now)) where
  current d hd r := by
    rw [show_motionEvent_device]
    exact hs.current d hd r
  named := hs.named
  read := hs.read
  enrolled := hs.enrolled
  motion b' on' hon := by
    rw [Dict.get?_set] at hon
    simp only [Heard.hear, Function.update_apply]
    split_ifs at hon ⊢ with he
    · exact ⟨hon, he ▸ hb⟩
    · exact hs.motion b' on' hon
  moved b' r := by
    obtain ⟨room, hroom⟩ := Option.isSome_iff_exists.mp hb
    rw [show_motionEvent, hroom, Option.getD_some]
    simp only [Heard.hear, Function.update_apply]
    by_cases he : b' = b
    · subst he
      by_cases hr : r = room
      · simp [hr, hroom]
      · have hold := hs.moved b' r
        rw [if_neg fun h => hr h.2]
        simpa [hroom, Ne.symm hr] using hold
    · simpa [he] using hs.moved b' r

/-- A reading that comes in, before its device is reconciled. -/
def withReading (t : Tracker) (d b : String) (x : ℚ) (now : ℤ) : Tracker :=
  { t with online := t.online.set b true,
           readings := t.readings.set d (((t.readings.get? d).getD .empty).set b (x, now)) }

theorem withReading_reading (d b : String) (x : ℚ) (d' b' : String) : (withReading t d b x now).reading d' b' =
    if d' = d ∧ b' = b then some (x, now) else t.reading d' b' := by
  unfold withReading Tracker.reading
  rw [Dict.get?_set]
  by_cases hd : d' = d
  · subst hd
    rw [if_pos rfl, Option.bind_some, Dict.get?_set]
    cases t.readings.get? d' <;> simp [true_and]
  · rw [if_neg hd, if_neg fun h => hd h.1]

theorem hear_reading (d b : String) (x : ℚ) (d' b' : String) : (h.hear now (.reading d b x)).reading d' b' =
    if d' = d ∧ b' = b then some (x, now) else h.reading d' b' := by
  simp only [Heard.hear, Function.update_apply]
  by_cases hd : d' = d
  · simp [hd, Function.update_apply]
  · simp [hd]

theorem inv_withReading (hw : Inv pf cfg ⟨t, h, s⟩ now) {d b : String} (hd : d ∈ cfg.devices) (x : ℚ) :
    Inv pf cfg ⟨withReading t d b x now, h.hear now (.reading d b x), s⟩ now where
  kept :=
    { sound :=
        { held := fun d' b' e hr _ => by
            rw [withReading_reading] at hr
            rw [hear_reading]
            split_ifs at hr ⊢
            · exact hr
            · exact hw.kept.sound.held d' b' e hr (hw.clean d' b' e hr)
          gone := fun d' b' x' at_ hr => by
            rw [hear_reading] at hr
            rw [withReading_reading]
            split_ifs at hr ⊢
            · exact .inl hr
            · exact hw.kept.sound.gone d' b' x' at_ hr
          online := fun b' => by
            have hset : (withReading t d b x now).hears b' = if b' = b then true else t.hears b' :=
              hears_set b b' true
            rw [hset, hw.kept.sound.online]
            by_cases he : b' = b <;> simp [Heard.hear, he]
          silent := fun d' b' hoff => by
            simp only [Heard.hear, Function.update_apply] at hoff
            split_ifs at hoff with he
            rw [hear_reading, if_neg fun h => he h.2]
            exact hw.kept.sound.silent d' b' hoff }
      displayed :=
        { hw.kept.displayed with
          read := fun d' r hr => by
            rw [withReading, Dict.get?_set]
            split_ifs
            · rfl
            · exact hw.kept.displayed.read d' r hr
          enrolled := fun d' hr => by
            by_cases he : d' = d
            · exact he ▸ hd
            · rw [withReading, Dict.get?_set, if_neg he] at hr
              exact hw.kept.displayed.enrolled d' hr } }
  -- the board that reports is online from now on, so its reading is not stale
  clean d' b' e hr := by
    have hset : (withReading t d b x now).hears b' = if b' = b then true else t.hears b' := hears_set b b' true
    rw [hset]
    by_cases hb' : b' = b
    · rw [if_pos hb']
    · rw [withReading_reading, if_neg fun h => hb' h.2] at hr
      rw [if_neg hb']
      exact hw.clean d' b' e hr

theorem clean_reconcile (hclean : ∀ d b e, t.reading d b = some e → t.hears b = true) (d d' b : String)
    (e : ℚ × ℤ) (hr : (reconcile pf cfg t d now).1.reading d' b = some e) :
    (reconcile pf cfg t d now).1.hears b = true := by
  rw [reconcile_reading] at hr
  rw [reconcile_hears]
  split_ifs at hr
  · exact ((get?_kept d b e.1 e.2).mp hr).2.2
  · exact hclean d' b e hr

theorem kept_offline (hw : Inv pf cfg ⟨t, h, s⟩ now) (b : String) :
    Kept pf cfg (h.hear now (.offline b)) now
      { t with online := t.online.set b false, motion := t.motion.erase b } s where
  sound :=
    { held := fun d b' e hr hears => by
        have hset : b' ≠ b ∧ t.hears b' = true := by
          have hif : (if b' = b then false else t.hears b') = true := (hears_set b b' false).symm.trans hears
          split_ifs at hif with he
          exact ⟨he, hif⟩
        simpa [Heard.hear, hset.1] using hw.kept.sound.held d b' e hr hset.2
      gone := fun d b' x at_ hr => by
        simp only [Heard.hear, Function.update_apply] at hr
        split_ifs at hr
        exact hw.kept.sound.gone d b' x at_ hr
      online := fun b' => by
        refine (hears_set b b' false).trans ?_
        rw [hw.kept.sound.online]
        by_cases he : b' = b <;> simp [Heard.hear, he]
      silent := fun d b' hoff => by
        simp only [Heard.hear, Function.update_apply] at hoff ⊢
        split_ifs at hoff ⊢ with he
        · rfl
        · exact hw.kept.sound.silent d b' hoff }
  displayed :=
    { hw.kept.displayed with
      motion := fun b' on hon => by
        rw [Dict.get?_erase] at hon
        split_ifs at hon
        exact hw.kept.displayed.motion b' on hon }

/-- Repeating what the motion sensors said last changes nothing that is shown of the devices. -/
theorem displayed_motionEvents (hs : Displayed pf cfg t h s) {es : List (SensingEvent ℚ)}
    (hes : ∀ e ∈ es, ∃ b on, h.motion b = some on ∧ (cfg.rooms.get? b).isSome ∧ e = motionEvent pf cfg b on now) :
    Displayed pf cfg t h (s.showAll es) := by
  induction es generalizing s with
  | nil => exact hs
  | cons e es ih =>
    obtain ⟨b, on, hon, hb, rfl⟩ := hes e List.mem_cons_self
    refine ih ?_ fun e' he' => hes e' (List.mem_cons_of_mem _ he')
    refine { hs with current := fun d hd r => ?_, moved := fun b' r => ?_ }
    · rw [show_motionEvent_device]
      exact hs.current d hd r
    · obtain ⟨room, hroom⟩ := Option.isSome_iff_exists.mp hb
      rw [show_motionEvent, hroom, Option.getD_some]
      by_cases he : b' = b ∧ r = room
      · rw [if_pos he, he.1, he.2, hon, hroom]
        simp
      · rw [if_neg he]
        exact hs.moved b' r

theorem kept_tick (hid : Set.InjOn pf.digest {d | d ∈ cfg.devices}) (hk : Kept pf cfg h now t s) :
    let out := tick pf cfg t now
    Kept pf cfg h now out.1 (s.showAll out.2) ∧ ∀ d, Done pf cfg out.1 h now d := by
  obtain ⟨hend, hall⟩ := kept_reconcileAll hid hk
  refine ⟨⟨hend.sound, ?_⟩, hall⟩
  have hrepeated : ∀ e ∈ (reconcileAll pf cfg t.readings.keys t now).1.motion.entries.filterMap (fun e =>
      if (reconcileAll pf cfg t.readings.keys t now).1.hears e.1 then some (motionEvent pf cfg e.1 e.2 now)
      else none), ∃ b on, h.motion b = some on ∧ (cfg.rooms.get? b).isSome ∧ e = motionEvent pf cfg b on now := by
    intro e he
    obtain ⟨⟨b, on⟩, hmem, hev⟩ := List.mem_filterMap.mp he
    split_ifs at hev
    obtain ⟨hon, hb⟩ := hend.displayed.motion b on (Dict.mem_entries.mp hmem)
    exact ⟨b, on, hon, hb, (Option.some.inj hev).symm⟩
  have hall' := displayed_motionEvents hend.displayed hrepeated
  rw [← showAll_append] at hall'
  exact hall'

/-- What a report is about is enrolled and mapped. -/
def Report.Known (cfg : Config) : Report → Prop
  | .reading d b _ => d ∈ cfg.devices ∧ (cfg.rooms.get? b).isSome
  | .offline b => (cfg.rooms.get? b).isSome
  | .online b => (cfg.rooms.get? b).isSome
  | .motion b _ => (cfg.rooms.get? b).isSome

theorem known_of_roomReport {slug kind text : String} {r : Report} (hslug : (cfg.rooms.get? slug).isSome)
    (hr : roomReport slug kind text = some r) : r.Known cfg := by
  unfold roomReport at hr
  split_ifs at hr <;> cases hr <;> exact hslug

theorem known_of_deviceReport {deviceId slug : String} {payload : ByteArray} {r : Report}
    (hslug : (cfg.rooms.get? slug).isSome) (hr : deviceReport pf cfg deviceId slug payload = some r) :
    r.Known cfg := by
  unfold deviceReport at hr
  split_ifs at hr with hdev
  split at hr
  · cases hr
    exact ⟨hdev.1, hslug⟩
  · cases hr

theorem known_of_report {topic : String} {payload : ByteArray} {r : Report}
    (hr : report pf cfg topic payload = some r) : r.Known cfg := by
  unfold report at hr
  split_ifs at hr
  split at hr
  · split_ifs at hr with _ hslug _ hslug
    · exact known_of_deviceReport hslug hr
    · obtain ⟨text, _, htext⟩ := Option.bind_eq_some_iff.mp hr
      exact known_of_roomReport hslug.1 htext
  · cases hr

/-- A step keeps the invariant; a tick settles every device, and so does an offline message. -/
theorem inv_step (hid : Set.InjOn pf.digest {d | d ∈ cfg.devices}) {w : World} {i : Input}
    (hw : Inv pf cfg w i.now) (hi : ∀ topic payload now, i = .message topic payload now → topic ≠ DISCONNECTED) :
    Inv pf cfg (step pf cfg w i) i.now ∧
      ((∃ now, i = .tick now) ∨ (∃ b, said pf cfg i = some (.offline b)) →
        ∀ d, Done pf cfg (step pf cfg w i).tracker (step pf cfg w i).heard i.now d) := by
  obtain ⟨t, h, s⟩ := w
  cases i with
  | tick now =>
    obtain ⟨hk, hall⟩ := kept_tick hid hw.kept
    exact ⟨⟨hk, fun d => (hall d).clean⟩, fun _ => hall⟩
  | message topic payload now =>
    -- a message does what its report says, or nothing; the cases are those of the report
    have hans : Answers pf cfg t now (report pf cfg topic payload) (respond pf cfg t (.message topic payload now)) :=
      answers_message (hi topic payload now rfl) payload now
    have hw' : Inv pf cfg ⟨t, h, s⟩ now := hw
    simp only [step, said, Input.now]
    cases hr : report pf cfg topic payload with
    | none =>
      rw [hr] at hans
      obtain ⟨hsame, hnil⟩ := hans
      rw [hnil]
      exact ⟨hw'.same hsame, fun hcase => by simp at hcase⟩
    | some r =>
      rw [hr] at hans
      have hknown := known_of_report hr
      have hout : respond pf cfg t (.message topic payload now) = take pf cfg t now r := hans
      rw [hout]
      cases r with
      | reading d b x =>
        have hin := inv_withReading (b := b) hw' hknown.1 x
        refine ⟨⟨⟨sound_reconcile hin.kept.sound d, displayed_reconcile hid hin.kept.displayed hknown.1⟩,
          clean_reconcile hin.clean d⟩, fun hcase => by simp at hcase⟩
      | offline b =>
        have hoff : (h.hear now (.offline b)).offline b = true := by simp [Heard.hear]
        obtain ⟨hk, hall⟩ := kept_releaseBoard hid hoff (kept_offline hw' b)
        exact ⟨⟨hk, fun d => (hall d).clean⟩, fun _ => hall⟩
      | online b => exact ⟨inv_online hw' b, fun hcase => by simp at hcase⟩
      | motion b on =>
        refine ⟨⟨⟨?_, displayed_motion hw'.kept.displayed hknown on⟩, hw'.clean⟩,
          fun hcase => by simp at hcase⟩
        have hs := hw'.kept.sound
        exact ⟨hs.held, hs.gone, hs.online, hs.silent⟩

/-! ## The law of every run -/

theorem onePlace_of_displayed (hs : Displayed pf cfg t h s) : OnePlace pf cfg s := by
  intro d hd r r' hr hr'
  have h1 := (hs.current d hd r).mp hr
  have h2 := (hs.current d hd r').mp hr'
  exact Option.some.inj (h1.symm.trans h2)

theorem placed_of_done (hs : Displayed pf cfg t h s) {d : String} (hd : d ∈ cfg.devices)
    (hdone : Done pf cfg t h now d) : Placed pf cfg h now s d := by
  rcases hdone.placed with ⟨b, hb, hc⟩ | ⟨hno, hc⟩
  · exact .inl ⟨b, hb, fun r => by rw [hs.current d hd, hc]⟩
  · refine .inr ⟨hno, fun r => ?_⟩
    have hcur := hs.current d hd r
    rw [hc] at hcur
    simpa using hcur

/-- Behind an offline message only the board's own motion sensor can still be shown. -/
theorem released_iff (hs : Displayed pf cfg t h s) (hdone : ∀ d, Done pf cfg t h now d) {b : String}
    (hb : (cfg.rooms.get? b).isSome) (hoff : h.offline b = true) :
    Released pf cfg h now s b ↔ h.motion b ≠ some true := by
  obtain ⟨room, hroom⟩ := Option.isSome_iff_exists.mp hb
  have hdevices : ∀ d ∈ cfg.devices, ∀ r, s (sensorIdFor pf d, r) = true →
      ∃ b' x, b' ≠ b ∧ Vouches pf cfg h now d b' x ∧ cfg.rooms.get? b' = some r := by
    intro d hd r hr
    have hc := (hs.current d hd r).mp hr
    rcases (hdone d).placed with ⟨b', ⟨x, hv, -⟩, hc'⟩ | ⟨-, hc'⟩
    · refine ⟨b', x, ?_, hv, hc'.symm.trans hc⟩
      rintro rfl
      obtain ⟨_, _, _, _, hon⟩ := hv
      rw [hoff] at hon
      cases hon
    · rw [hc'] at hc
      cases hc
  constructor
  · rintro ⟨-, hmotion⟩ hon
    have hshown := (hs.moved b room).mpr ⟨hon, hroom⟩
    rw [hmotion] at hshown
    cases hshown
  · intro hon
    refine ⟨hdevices, fun r => ?_⟩
    cases hsh : s (motionSensor b, r) with
    | false => rfl
    | true => exact absurd ((hs.moved b r).mp hsh).1 hon

theorem stepKept_iff (hid : Set.InjOn pf.digest {d | d ∈ cfg.devices}) {w : World} {i : Input}
    (hw : Inv pf cfg w i.now) (hi : ∀ topic payload now, i = .message topic payload now → topic ≠ DISCONNECTED) :
    StepKept pf cfg w i ↔ MotionOff pf cfg w i := by
  obtain ⟨hinv, hdone⟩ := inv_step hid hw hi
  have hone := onePlace_of_displayed hinv.kept.displayed
  have htick : ∀ now, i = .tick now → ∀ d ∈ cfg.devices,
      Placed pf cfg (step pf cfg w i).heard now (step pf cfg w i).shown d := by
    rintro now rfl d hd
    exact placed_of_done hinv.kept.displayed hd (hdone (.inl ⟨now, rfl⟩) d)
  have hoff : ∀ b, said pf cfg i = some (.offline b) →
      (Released pf cfg (step pf cfg w i).heard i.now (step pf cfg w i).shown b ↔
        w.heard.motion b ≠ some true) := by
    intro b hb
    have hheard : (step pf cfg w i).heard = w.heard.hear i.now (.offline b) := by simp [step, hb]
    have hmapped : (cfg.rooms.get? b).isSome := by
      cases i with
      | tick now => cases hb
      | message topic payload now => exact known_of_report hb
    have hiff := released_iff hinv.kept.displayed (hdone (.inr ⟨b, hb⟩)) hmapped (by simp [hheard, Heard.hear])
    rw [hiff, hheard]
    rfl
  unfold StepKept MotionOff
  constructor
  · rintro ⟨-, -, hrel⟩ b hb
    exact (hoff b hb).mp (hrel b hb)
  · exact fun hmotion => ⟨hone, htick, fun b hb => (hoff b hb).mpr (hmotion b hb)⟩

theorem inv_start (last : ℤ) : Inv pf cfg .start last where
  kept :=
    { sound := ⟨nofun, nofun, fun _ => rfl, fun _ _ _ => rfl⟩
      displayed := ⟨fun _ _ _ => by simp [World.start, Tracker.new], nofun, nofun, nofun, nofun,
        fun _ _ => by simp [World.start, Heard.nothing]⟩ }
  clean := nofun

theorem allSteps_iff (hid : Set.InjOn pf.digest {d | d ∈ cfg.devices}) {is : List Input} {w : World}
    (hw : ∀ i ∈ is, Inv pf cfg w i.now) (hsorted : (is.map Input.now).Pairwise (· ≤ ·))
    (hconn : ∀ topic payload now, Input.message topic payload now ∈ is → topic ≠ DISCONNECTED) :
    Run.AllSteps (step pf cfg) (StepKept pf cfg) w is ↔ Run.AllSteps (step pf cfg) (MotionOff pf cfg) w is := by
  induction is generalizing w with
  | nil => exact Iff.rfl
  | cons i is ih =>
    obtain ⟨hle, hrest⟩ := List.pairwise_cons.mp hsorted
    have hi : ∀ topic payload now, i = .message topic payload now → topic ≠ DISCONNECTED :=
      fun topic payload now he => hconn topic payload now (he ▸ List.mem_cons_self)
    have hnow := hw i List.mem_cons_self
    have hnext := (inv_step hid hnow hi).1
    refine and_congr (stepKept_iff hid hnow hi) (ih (fun j hj => ?_) hrest fun topic payload now hm =>
      hconn topic payload now (List.mem_cons_of_mem i hm))
    exact hnext.mono (hle j.now (List.mem_map_of_mem hj))

end

/-- In a run whose clock does not go back, every device is in one place, after each tick in the
right one, and a board that goes offline leaves nothing standing, exactly if no board goes offline
behind a motion message that says ON. -/
theorem devices_placed_iff (pf : Platform) (cfg : Config) (hid : Set.InjOn pf.digest {d | d ∈ cfg.devices})
    (is : List Input) (hsorted : (is.map Input.now).Pairwise (· ≤ ·))
    (hconn : ∀ topic payload now, Input.message topic payload now ∈ is → topic ≠ DISCONNECTED) :
    Run.AllSteps (step pf cfg) (StepKept pf cfg) .start is ↔
      Run.AllSteps (step pf cfg) (MotionOff pf cfg) .start is :=
  allSteps_iff hid (fun i _ => inv_start i.now) hsorted hconn

/-! ## An evening in the kitchen -/

/-- The library as it behaves here. -/
def platform : Platform where
  loads b := if b = "\x7b\"distance\": 1.5\x7d".toUTF8 then some (.obj [("distance", .float (.finite (3 / 2)))])
    else none
  ofInt n := some n
  seconds n := n / 10 ^ 6
  seconds_mono := fun a b h => by
    have hcast : (a : ℚ) ≤ b := Int.cast_le.mpr h
    exact div_le_div_of_nonneg_right hcast (by decide +kernel)
  isoformat _ := ""
  digest s := if s = "watch:darrell" then "e803f3c36fd4" else ""
  digest_hex := fun s => by
    by_cases hs : s = "watch:darrell"
    · rw [if_pos hs]
      decide
    · rw [if_neg hs]
      decide

def home : Config where
  devices := ["watch:darrell"]
  rooms := Dict.empty.set "kitchen" "Kitchen"
  maxDistanceM := 5
  timeoutS := 30
  rooms_ne := fun slug room h => by
    rw [Dict.get?_set] at h
    split_ifs at h
    · cases h
      decide
    · cases h

/-- A watch comes near, the timer fires, and the board goes offline. -/
def evening : List Input :=
  [.message "espresense/devices/watch:darrell/kitchen" "\x7b\"distance\": 1.5\x7d".toUTF8 0, .tick 1,
    .message "espresense/rooms/kitchen/status" "offline".toUTF8 2]

theorem devices_placed_evening :
    (Set.InjOn platform.digest {d | d ∈ home.devices} ∧ (evening.map Input.now).Pairwise (· ≤ ·)) ∧
      (Run.AllSteps (step platform home) (StepKept platform home) .start evening ↔
        Run.AllSteps (step platform home) (MotionOff platform home) .start evening) := by
  have hid : Set.InjOn platform.digest {d | d ∈ home.devices} := by
    intro d hd d' hd' _
    exact (List.mem_singleton.mp hd).trans (List.mem_singleton.mp hd').symm
  refine ⟨⟨hid, by decide⟩, devices_placed_iff platform home hid evening (by decide) ?_⟩
  intro topic payload now hmem
  simp only [evening, List.mem_cons, Input.message.injEq, List.not_mem_nil, or_false, reduceCtorEq,
    false_or] at hmem
  rcases hmem with ⟨rfl, -⟩ | ⟨rfl, -⟩ <;> decide

/-- Somebody moves, and the board goes offline: the motion stays. -/
def stillMoving : List Input :=
  [.message "espresense/rooms/kitchen/motion" "ON".toUTF8 0,
    .message "espresense/rooms/kitchen/status" "offline".toUTF8 1]

theorem stillMoving_not_kept : ¬ Run.AllSteps (step platform home) (StepKept platform home) .start stillMoving := by
  intro h
  have hrel := h.2.1.2.2 "kitchen" rfl
  exact absurd (hrel.2 "Kitchen") (by decide)

end Wavr.Espresense
