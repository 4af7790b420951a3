import Wavr.FusionHiding
import Wavr.TraceReplay

/-!
# Sanitised traces

`sanitize`: what it leaves of a trace tells nothing of identities and vital signs, nor of positions
where these are dropped, and replays to the same decisions.
-/

namespace Wavr.Trace
open Fusion Run
open Json (get)
open Dict (setEntry)

def SANITIZED_ALWAYS : List String := ["identities", "breathing_bpm", "heart_bpm"]

/-- Why a trace is not sanitised. -/
inductive Unsanitized
  /-- It is no object: the TraceError. -/
  | traceError
  /-- A row or a target is of another shape, which mostly raises: a list of pairs in the place of an
  event would still be made an object, and is not followed here. -/
  | misshapen
  deriving DecidableEq

section
variable {R : Type} (nb : Numbers R) (dropPositions : Bool)

/-- `{**t, "x": None, "y": None, "z": None}`. -/
def sanitizeTarget : Json R → Except Unsanitized (Json R)
  | .obj t => .ok (.obj (setEntry "z" .null (setEntry "y" .null (setEntry "x" .null t))))
  | _ => .error .misshapen

def sanitizeTargets (targets : Json R) : Except Unsanitized (List (Json R)) :=
  match Json.orElse nb targets (.arr []) with
  | .arr items => items.mapM sanitizeTarget
  | _ => .error .misshapen

def sanitizeEvent (raw : List (String × Json R)) : Except Unsanitized (List (String × Json R)) :=
  let ev := setEntry "heart_bpm" .null (setEntry "breathing_bpm" .null (setEntry "identities" (.arr []) raw))
  if dropPositions then do
    let targets ← sanitizeTargets nb (get ev "targets")
    return setEntry "targets" (.arr targets) ev
  else .ok ev

def sanitizeRow : Json R → Except Unsanitized (Json R)
  | .obj row =>
    match Json.orElse nb (get row "event") (.obj []) with
    | .obj raw => do
      let ev ← sanitizeEvent nb dropPositions raw
      return .obj (setEntry "event" (.obj ev) row)
    | _ => .error .misshapen
  | _ => .error .misshapen

/-- `sanitized_removed`. -/
def removed : List String := SANITIZED_ALWAYS ++ if dropPositions then ["target positions"] else []

def sanitize : Json R → Except Unsanitized (Json R)
  | .obj trace =>
    match Json.orElse nb (get trace "events") (.arr []) with
    | .arr rows => do
      let events ← rows.mapM (sanitizeRow nb dropPositions)
      return .obj (setEntry "sanitized_removed" (.arr ((removed dropPositions).map .str))
        (setEntry "sanitized" (.bool true) (setEntry "events" (.arr events) trace)))
    | _ => .error .misshapen
  | _ => .error .traceError

end

variable {R : Type} {ar : Arith R}

/-- A target without its coordinates. -/
def Target.unplaced (t : Target R) : Target R := { t with x := none, y := none, z := none }

/-- An event without identities and vital signs, and at will without the coordinates of its
targets. -/
def Observed.blank (dropPositions : Bool) (o : Observed R) : Observed R where
  event := { o.event with
    identities := []
    breathingBpm := none
    heartBpm := none
    targets := if dropPositions then o.event.targets.map Target.unplaced else o.event.targets }
  motion := o.motion

/-- What a room decides. -/
structure Decision (R : Type) where
  occupied : Bool
  confidence : R
  personCount : Option ℕ
  precisionLevel : Level
  sources : List (Source R)

def decision (rs : RoomState R) : Decision R :=
  ⟨rs.occupied, rs.confidence, rs.personCount, rs.precisionLevel, rs.sources⟩

/-! ## Keys set once and again -/

section
variable {fields : List (String × Json R)} {k k' : String} {v : Json R}

theorem get_cons (k k' : String) (v : Json R) (fields : List (String × Json R)) :
    get ((k, v) :: fields) k' = if k' = k then v else get fields k' := by
  rw [Json.get, Dict.lookup_cons]
  split <;> rfl

theorem get_setEntry : get (setEntry k v fields) k' = if k' = k then v else get fields k' := by
  induction fields with
  | nil => exact get_cons k k' v []
  | cons e fields ih =>
    obtain ⟨k₀, v₀⟩ := e
    by_cases he : k₀ = k
    · rw [setEntry, if_pos he, get_cons, get_cons, he]
      split <;> rfl
    · rw [setEntry, if_neg he, get_cons, ih, get_cons]
      by_cases h : k' = k₀
      · have hne : k' ≠ k := fun hk => he (h.symm.trans hk)
        simp [h, he]
      · simp [h]

theorem get_setEntry_self : get (setEntry k v fields) k = v := by rw [get_setEntry, if_pos rfl]

/-- A key that has the value already is not moved. -/
theorem setEntry_of_mem (h : k ∈ fields.map Prod.fst) (hv : get fields k = v) : setEntry k v fields = fields := by
  induction fields with
  | nil => cases h
  | cons e fields ih =>
    obtain ⟨k₀, v₀⟩ := e
    rw [get_cons] at hv
    by_cases he : k₀ = k
    · rw [if_pos he.symm] at hv
      rw [setEntry, if_pos he, hv, he]
    · rw [if_neg (Ne.symm he)] at hv
      have hin : k ∈ fields.map Prod.fst := by
        rw [List.map_cons] at h
        exact (List.mem_cons.mp h).resolve_left (Ne.symm he)
      rw [setEntry, if_neg he, ih hin hv]

theorem mem_setEntry : k' ∈ (setEntry k v fields).map Prod.fst ↔ k' = k ∨ k' ∈ fields.map Prod.fst :=
  Dict.mem_keys_setEntry k v fields k'

theorem setEntry_again (k : String) (v : Json R) (fields : List (String × Json R)) :
    setEntry k v (setEntry k v fields) = setEntry k v fields :=
  setEntry_of_mem (mem_setEntry.mpr (.inl rfl)) get_setEntry_self

end

/-! ## Sanitising twice -/

section
variable {nb : Numbers R} {drop : Bool}

theorem sanitizeTarget_again {t t' : Json R} (h : sanitizeTarget t = .ok t') : sanitizeTarget t' = .ok t' := by
  cases t with
  | obj t =>
    obtain rfl := Except.ok.inj h
    simp only [sanitizeTarget, Except.ok.injEq, Json.obj.injEq]
    rw [setEntry_of_mem (k := "x"), setEntry_of_mem (k := "y"), setEntry_of_mem (k := "z")]
    all_goals simp [mem_setEntry, get_setEntry]
  | _ => cases h

/-- What comes out of a loop that leaves its own results alone goes through it unchanged. -/
theorem mapM_again {f : Json R → Except Unsanitized (Json R)} (hf : ∀ a b, f a = .ok b → f b = .ok b)
    {l out : List (Json R)} (h : l.mapM f = .ok out) : out.mapM f = .ok out := by
  induction l generalizing out with
  | nil =>
    cases h
    rfl
  | cons a l ih =>
    rw [List.mapM_cons] at h
    obtain ⟨b, hb, h⟩ := exists_of_bind_ok h
    obtain ⟨bs, hbs, h⟩ := exists_of_bind_ok h
    obtain rfl := Except.ok.inj h
    rw [List.mapM_cons, hf a b hb, ih hbs]
    rfl

theorem sanitizeTargets_again {v : Json R} {targets : List (Json R)} (h : sanitizeTargets nb v = .ok targets) :
    sanitizeTargets nb (.arr targets) = .ok targets := by
  rw [sanitizeTargets, Json.orElse_arr]
  unfold sanitizeTargets at h
  split at h
  · exact mapM_again (fun _ _ => sanitizeTarget_again) h
  · cases h

/-- The members of an event that are always replaced. -/
structure Cleared (ev : List (String × Json R)) : Prop where
  identities : "identities" ∈ ev.map Prod.fst ∧ get ev "identities" = .arr []
  breathing : "breathing_bpm" ∈ ev.map Prod.fst ∧ get ev "breathing_bpm" = .null
  heart : "heart_bpm" ∈ ev.map Prod.fst ∧ get ev "heart_bpm" = .null

theorem Cleared.of_setEntry (raw : List (String × Json R)) :
    Cleared (setEntry "heart_bpm" .null (setEntry "breathing_bpm" .null (setEntry "identities" (.arr []) raw))) where
  identities := by simp [mem_setEntry, get_setEntry]
  breathing := by simp [mem_setEntry, get_setEntry]
  heart := by simp [mem_setEntry, get_setEntry]

theorem Cleared.targets {ev : List (String × Json R)} (h : Cleared ev) (v : Json R) :
    Cleared (setEntry "targets" v ev) where
  identities := by simpa [mem_setEntry, get_setEntry] using h.identities
  breathing := by simpa [mem_setEntry, get_setEntry] using h.breathing
  heart := by simpa [mem_setEntry, get_setEntry] using h.heart

theorem Cleared.setEntry_eq {ev : List (String × Json R)} (h : Cleared ev) :
    setEntry "heart_bpm" .null (setEntry "breathing_bpm" .null (setEntry "identities" (.arr []) ev)) = ev := by
  rw [setEntry_of_mem h.identities.1 h.identities.2, setEntry_of_mem h.breathing.1 h.breathing.2,
    setEntry_of_mem h.heart.1 h.heart.2]

theorem sanitizeEvent_again {raw ev : List (String × Json R)} (h : sanitizeEvent nb drop raw = .ok ev) :
    sanitizeEvent nb drop ev = .ok ev := by
  have hcleared := Cleared.of_setEntry raw
  unfold sanitizeEvent at h
  cases drop with
  | false =>
    obtain rfl := Except.ok.inj h
    unfold sanitizeEvent
    rw [hcleared.setEntry_eq]
    rfl
  | true =>
    obtain ⟨targets, htargets, h⟩ := exists_of_bind_ok h
    obtain rfl := Except.ok.inj h
    unfold sanitizeEvent
    rw [(hcleared.targets (.arr targets)).setEntry_eq]
    dsimp only
    rw [get_setEntry_self, sanitizeTargets_again htargets]
    exact congrArg Except.ok (setEntry_again "targets" _ _)

theorem sanitizeRow_again {row row' : Json R} (h : sanitizeRow nb drop row = .ok row') :
    sanitizeRow nb drop row' = .ok row' := by
  cases row with
  | obj row =>
    unfold sanitizeRow at h
    dsimp only at h
    split at h
    · obtain ⟨ev, hev, h⟩ := exists_of_bind_ok h
      obtain rfl := Except.ok.inj h
      unfold sanitizeRow
      dsimp only
      rw [get_setEntry_self, Json.orElse_obj]
      dsimp only
      rw [sanitizeEvent_again hev]
      exact congrArg (Except.ok ∘ Json.obj) (setEntry_again "event" _ _)
    · cases h
  | _ => cases h

/-- What is sanitised stays as it is. -/
theorem sanitize_again {trace trace' : Json R} (h : sanitize nb drop trace = .ok trace') :
    sanitize nb drop trace' = .ok trace' := by
  cases trace with
  | obj trace =>
    unfold sanitize at h
    dsimp only at h
    split at h
    · obtain ⟨events, hevents, h⟩ := exists_of_bind_ok h
      obtain rfl := Except.ok.inj h
      unfold sanitize
      dsimp only
      rw [show get _ "events" = Json.arr events by simp [get_setEntry], Json.orElse_arr]
      dsimp only
      -- each key that is set has its value, so none is set again or moved
      rw [mapM_again (fun _ _ => sanitizeRow_again) hevents]
      refine congrArg (Except.ok ∘ Json.obj) ?_
      rw [setEntry_of_mem (k := "events"), setEntry_of_mem (k := "sanitized"),
        setEntry_of_mem (k := "sanitized_removed")]
      all_goals simp [mem_setEntry, get_setEntry]
    · cases h
  | _ => cases h

/-! ## A recording sanitised -/

theorem sanitizeTarget_fields (t : Target R) :
    sanitizeTarget (.obj (Target.fields t)) = .ok (.obj (Target.fields (Target.unplaced t))) := rfl

theorem sanitizeEvent_fields (o : Observed R) : sanitizeEvent nb drop o.fields = .ok (o.blank drop).fields := by
  cases drop with
  | false => rfl
  | true =>
    have htargets : sanitizeTargets nb (.arr (o.event.targets.map fun t => .obj (Target.fields t))) =
        .ok (o.event.targets.map fun t => .obj (Target.fields (Target.unplaced t))) := by
      rw [sanitizeTargets, Json.orElse_arr]
      exact mapM_map_ok sanitizeTarget_fields o.event.targets
    unfold sanitizeEvent
    rw [if_pos rfl]
    show (sanitizeTargets nb (.arr (o.event.targets.map fun t => .obj (Target.fields t))) >>= _) = _
    rw [htargets]
    show _ = Except.ok (Observed.fields (Observed.blank true o))
    simp only [Observed.fields, Observed.blank, if_true, List.map_map, Function.comp_def]
    rfl

theorem sanitizeRow_eventToRow (o : Observed R) :
    sanitizeRow nb drop (eventToRow o) = .ok (eventToRow (o.blank drop)) := by
  unfold sanitizeRow eventToRow
  dsimp only
  rw [show get _ "event" = Json.obj o.fields from rfl, Json.orElse_obj]
  dsimp only
  rw [sanitizeEvent_fields]
  rfl

/-- What is left of a recording. -/
def sanitizedOf (drop : Bool) (label : String) (started : String) (maxEvents : ℤ) (observed : List (Observed R)) :
    List (String × Json R) :=
  [("version", .int TRACE_VERSION), ("label", .str label), ("started", .str started),
    ("events", .arr (((kept maxEvents observed).map (Observed.blank drop)).map eventToRow)),
    ("truncated", .bool (0 < observed.length - (max 1 maxEvents).toNat)),
    ("dropped", .int (observed.length - (max 1 maxEvents).toNat : ℕ)), ("sanitized", .bool true),
    ("sanitized_removed", .arr ((removed drop).map .str))]

theorem sanitize_recorded (label started : String) (maxEvents : ℤ) (observed : List (Observed R)) :
    sanitize nb drop (recorded label maxEvents started observed) =
      .ok (.obj (sanitizedOf drop label started maxEvents observed)) := by
  rw [recorded_eq]
  unfold sanitize TraceRecorder.toDict
  dsimp only
  rw [show get _ "events" = Json.arr ((kept maxEvents observed).map eventToRow) from rfl, Json.orElse_arr]
  dsimp only
  rw [mapM_map_ok sanitizeRow_eventToRow, sanitizedOf, List.map_map]
  rfl

/-! ## A sanitised recording replayed -/

theorem blank_event (o : Observed R) : (o.blank false).event = o.event.hide ⟨true, false⟩ := rfl

theorem driven_hide (f : Factory ar) (asUtc : String → Option ℤ) (h : Hiding) (walls : ℕ → Wall) (clock : Option ℤ)
    (es : List (SensingEvent R)) : driven f asUtc walls clock (es.map (SensingEvent.hide h)) =
      (driven f asUtc walls clock es).map (Call.hide h) := by
  induction es generalizing walls clock with
  | nil => rfl
  | cons e es ih =>
    rw [List.map_cons, driven, driven, List.map_cons, ih]
    rfl

theorem state?_hide (h : Hiding) (r : Reply R) : (r.hide h).state? = r.state?.map (RoomState.hide h) := by
  cases r <;> rfl

/-- Identities and vital signs decide nothing. -/
theorem feed_hide (f : Factory ar) (asUtc : String → Option ℤ) (walls : ℕ → Wall) (es : List (SensingEvent R)) :
    (feed f asUtc walls (es.map (SensingEvent.hide ⟨true, false⟩))).map decision =
      (feed f asUtc walls es).map decision := by
  have hout : ∀ (s : Engine (R := R) asUtc) call, ((run f.cfg (call.hide ⟨true, false⟩)
      (s.hide ⟨true, false⟩)).1.state?).map decision = ((run f.cfg call s).1.state?).map decision := by
    intro s call
    have hrun := congrArg Reply.state? (run_hide ⟨true, false⟩ s f.cfg call).1
    rw [state?_hide, state?_hide] at hrun
    have hdecided := congrArg (Option.map decision) hrun
    rw [Option.map_map, Option.map_map] at hdecided
    exact hdecided
  rw [feed, feedFrom, driven_hide, map_outputs, feed, feedFrom, map_outputs]
  exact outputs_erase (Engine.hide ⟨true, false⟩) (Call.hide ⟨true, false⟩)
    (fun s call => (run_hide ⟨true, false⟩ s f.cfg call).2) hout (newEngine asUtc) _

/-- Recordings that differ in nothing that is removed are sanitised to one trace. Sanitising again
changes nothing. A recording and what is sanitised of it replay to the same decisions, step by
step, whenever they are replayed. -/
theorem sanitize_sound (nb : Numbers R) (f : Factory ar) (asUtc : String → Option ℤ) (label started : String)
    (maxEvents : ℤ) (observed observed' : List (Observed R)) (drop : Bool) :
    (observed.map (Observed.blank drop) = observed'.map (Observed.blank drop) → ∃ clean,
      sanitize nb drop (recorded label maxEvents started observed) = .ok clean ∧
      sanitize nb drop (recorded label maxEvents started observed') = .ok clean) ∧
    (∀ trace clean, sanitize nb drop trace = .ok clean → sanitize nb drop clean = .ok clean) ∧
    ∀ walls walls', ∃ clean states states',
      sanitize nb false (recorded label maxEvents started observed) = .ok clean ∧
      replay nb f asUtc walls (recorded label maxEvents started observed) = .ok states ∧
      replay nb f asUtc walls' clean = .ok states' ∧ states'.map decision = states.map decision := by
  refine ⟨fun h => ?_, fun _ _ => sanitize_again, fun walls walls' => ?_⟩
  · refine ⟨_, sanitize_recorded label started maxEvents observed, ?_⟩
    have hlength : observed.length = observed'.length := by simpa using congrArg List.length h
    have hkept : (kept maxEvents observed).map (Observed.blank drop) =
        (kept maxEvents observed').map (Observed.blank drop) := by
      rw [kept, kept, List.map_take, List.map_take, h]
    rw [sanitize_recorded, sanitizedOf, sanitizedOf, hkept, hlength]
  · refine ⟨_, _, _, sanitize_recorded label started maxEvents observed,
      replay_recorded nb f asUtc walls label started maxEvents observed, replay_obj nb f asUtc walls' rfl, ?_⟩
    have hevents : ((kept maxEvents observed).map (Observed.blank false)).map (·.event) =
        ((kept maxEvents observed).map (·.event)).map (SensingEvent.hide ⟨true, false⟩) := by
      rw [List.map_map, List.map_map]
      exact List.map_congr_left fun o _ => blank_event o
    rw [hevents, feed_hide]
    -- the two replays read the machine's clock at different times
    have hundated := congrArg (List.map decision) (feedFrom_undated f walls' walls none (newEngine asUtc)
      ((kept maxEvents observed).map (·.event)) fun _ => fresh_newEngine f.cfg)
    rw [List.map_map, List.map_map] at hundated
    exact hundated

end

/-! ## One who is named -/

/-- The camera again, with a name and a breath. -/
def namedAt (ts : String) : Observed ℚ where
  event := { (observedAt ts).event with
    identities := [⟨"ana", "ble", some (-60)⟩]
    breathingBpm := some 14 }
  motion := 0

theorem named_unnamed : ∃ clean,
    sanitize ratNumbers false (recorded "kitchen" 20000 "2026-01-01T00:00:00+00:00"
      [observedAt "2026-01-01T00:00:00+00:00"]) = .ok clean ∧
    sanitize ratNumbers false (recorded "kitchen" 20000 "2026-01-01T00:00:00+00:00"
      [namedAt "2026-01-01T00:00:00+00:00"]) = .ok clean :=
  (sanitize_sound ratNumbers defaultFactory parse "kitchen" "2026-01-01T00:00:00+00:00" 20000
    [observedAt "2026-01-01T00:00:00+00:00"] [namedAt "2026-01-01T00:00:00+00:00"] false).1 rfl

end Wavr.Trace
