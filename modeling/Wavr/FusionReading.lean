import Mathlib.Data.String.Basic
import Wavr.FusionRooms

/-!
# Reading the rooms back

`rooms` and `state`: what a re-fuse finds in a room whose events came with any timestamps, and
the instant it ages them against when no clock is injected.
-/

namespace Wavr.Fusion
open Run

variable {R : Type} {ar : Arith R} {asUtc : String → Option ℤ}

/-- `rooms()`. -/
def Engine.rooms (s : Engine (R := R) asUtc) : List String := s.latest.keys

/-- The instant is that of the latest of the events. -/
def Latest (es : List (Stored (R := R) asUtc)) (t : ℤ) : Prop := (∃ e ∈ es, e.utc = t) ∧ ∀ e ∈ es, e.utc ≤ t

/-- Every room can be read, and without an injected clock its sources age against the latest of
its timestamps. -/
def Reads (cfg : Config ar) (s : Engine (R := R) asUtc) : Prop :=
  ∀ room ∈ s.rooms, ∀ env, ∃ rs, (run cfg ⟨.state room, env⟩ s).1 = .fused rs ∧
    (env.now = .unwired → Latest (s.events room) (reference asUtc env rs.ts))

/-- No event is later than the one whose timestamp is the greatest text. -/
def TextOrdered (es : List (Stored (R := R) asUtc)) : Prop :=
  ∀ e ∈ es, (∀ e' ∈ es, e'.event.ts ≤ e.event.ts) → ∀ e' ∈ es, e'.utc ≤ e.utc

/-- The events of the room that are not in the event's slot. -/
def Engine.others (s : Engine (R := R) asUtc) (e : Stored (R := R) asUtc) : List (Stored (R := R) asUtc) :=
  (s.events e.event.room).filter fun o => key o ≠ key e

/-- A rejected event finds its room known. With a stored one, the greatest text among the sensors
of the room belongs to the latest event. -/
def Dated (s : Engine (R := R) asUtc) (call : Call R) : Prop :=
  ∀ event, call.op = .update event → (asUtc event.ts = none → event.room ∈ s.rooms) ∧
    ∀ e : Stored (R := R) asUtc, e.event = event → TextOrdered (e :: s.others e)

/-! ## The greatest text -/

theorem le_foldl_later (ts : List String) (t : String) :
    t ≤ ts.foldl (fun a b => if a < b then b else a) t ∧
      (∀ x ∈ ts, x ≤ ts.foldl (fun a b => if a < b then b else a) t) ∧
      ts.foldl (fun a b => if a < b then b else a) t ∈ t :: ts := by
  induction ts generalizing t with
  | nil => simp
  | cons u ts ih =>
    obtain ⟨hseed, hall, hmem⟩ := ih (if t < u then u else t)
    rw [List.foldl_cons]
    by_cases h : t < u
    · rw [if_pos h] at hseed hall hmem ⊢
      refine ⟨h.le.trans hseed, ?_, List.mem_cons_of_mem _ hmem⟩
      rintro x hx
      rcases List.mem_cons.mp hx with rfl | hx
      · exact hseed
      · exact hall x hx
    · rw [if_neg h] at hseed hall hmem ⊢
      refine ⟨hseed, ?_, ?_⟩
      · rintro x hx
        rcases List.mem_cons.mp hx with rfl | hx
        · exact (not_lt.mp h).trans hseed
        · exact hall x hx
      · rcases List.mem_cons.mp hmem with heq | hin
        · exact List.mem_cons.mpr (.inl heq)
        · exact List.mem_cons_of_mem _ (List.mem_cons_of_mem _ hin)

theorem maxTs_greatest {ts : List String} {t : String} (h : maxTs ts = some t) : t ∈ ts ∧ ∀ x ∈ ts, x ≤ t := by
  cases ts with
  | nil => cases h
  | cons u ts =>
    obtain ⟨hseed, hall, hmem⟩ := le_foldl_later ts u
    obtain rfl := Option.some.inj h
    refine ⟨hmem, fun x hx => ?_⟩
    rcases List.mem_cons.mp hx with rfl | hx
    · exact hseed
    · exact hall x hx

theorem maxTs_eq_none {ts : List String} : maxTs ts = none ↔ ts = [] := by
  cases ts with
  | nil => simp [maxTs]
  | cons u ts => simp [maxTs]

theorem exists_greatest {es : List (Stored (R := R) asUtc)} (h : es ≠ []) :
    ∃ e ∈ es, (∀ e' ∈ es, e'.event.ts ≤ e.event.ts) ∧ maxTs (es.map (·.event.ts)) = some e.event.ts := by
  cases hmax : maxTs (es.map (·.event.ts)) with
  | none => exact absurd (List.map_eq_nil_iff.mp (maxTs_eq_none.mp hmax)) h
  | some t =>
    obtain ⟨hmem, hall⟩ := maxTs_greatest hmax
    obtain ⟨e, he, rfl⟩ := List.mem_map.mp hmem
    exact ⟨e, he, fun e' he' => hall _ (List.mem_map_of_mem he'), rfl⟩

theorem textOrdered_congr {es es' : List (Stored (R := R) asUtc)} (h : ∀ e, e ∈ es ↔ e ∈ es') :
    TextOrdered es ↔ TextOrdered es' := by
  unfold TextOrdered
  simp only [h]

section
variable (cfg : Config ar) {s : Engine (R := R) asUtc} {room : String} (env : Env R)

/-! ## Reading one room -/

theorem state_empty (h : s.events room = []) (rs : RoomState R) :
    (run cfg ⟨.state room, env⟩ s).1 ≠ .fused rs := by
  unfold run begin
  dsimp only
  cases hl : s.latest.get? room with
  | none => simp
  | some sensors =>
    have hnone : sensors.values = [] := by simpa [Engine.events, hl] using h
    simp [hnone, maxTs]

/-- The re-fuse of a room with events is dated by the greatest text. -/
theorem state_fused (h : s.events room ≠ []) : ∃ e ∈ s.events room,
    (∀ e' ∈ s.events room, e'.event.ts ≤ e.event.ts) ∧
      (run cfg ⟨.state room, env⟩ s).1 = .fused (fuse cfg env room e.event.ts s).1 := by
  cases hl : s.latest.get? room with
  | none =>
    refine absurd ?_ h
    simp [Engine.events, hl, Dict.values, Dict.empty]
  | some sensors =>
    have hes : s.events room = sensors.values := by simp [Engine.events, hl]
    rw [hes] at h ⊢
    obtain ⟨e, he, hgreatest, hmax⟩ := exists_greatest h
    exact ⟨e, he, hgreatest, by simp [run, begin, hl, hmax]⟩

theorem reference_unwired {env : Env R} (h : env.now = .unwired) (e : Stored (R := R) asUtc) :
    reference asUtc env e.event.ts = e.utc := by
  simp [reference, h, e.parsed]

/-- Rooms can be read where each has an event and none of its events is later than its greatest
text. -/
theorem reads_iff (env : Env R) :
    Reads cfg s ↔ ∀ room ∈ s.rooms, s.events room ≠ [] ∧ TextOrdered (s.events room) := by
  constructor
  · intro h room hroom
    have hne : s.events room ≠ [] := by
      intro hnil
      obtain ⟨rs, hrs, -⟩ := h room hroom env
      exact state_empty cfg env hnil rs hrs
    refine ⟨hne, fun e he hgreatest => ?_⟩
    -- several events can carry the greatest text: they are of one time
    let unwired : Env R := { env with now := .unwired }
    obtain ⟨rs, hrs, hlatest⟩ := h room hroom unwired
    obtain ⟨e₀, he₀, hgreatest₀, hfused⟩ := state_fused cfg unwired hne
    have hts : rs.ts = e₀.event.ts := by
      rw [hfused] at hrs
      rw [← Reply.fused.inj hrs]
      rfl
    have hsame : e₀.event.ts = e.event.ts := le_antisymm (hgreatest e₀ he₀) (hgreatest₀ e he)
    have hutc : e₀.utc = e.utc := Option.some.inj (e₀.parsed.symm.trans (hsame ▸ e.parsed))
    have hl := (hlatest rfl).2
    rw [hts, reference_unwired rfl, hutc] at hl
    exact hl
  · intro h room hroom env'
    obtain ⟨hne, hordered⟩ := h room hroom
    obtain ⟨e, he, hgreatest, hfused⟩ := state_fused cfg env' hne
    refine ⟨_, hfused, fun hclock => ?_⟩
    show Latest (s.events room) (reference asUtc env' e.event.ts)
    rw [reference_unwired hclock]
    exact ⟨⟨e, he, rfl⟩, hordered e he hgreatest⟩

end

/-! ## What a call does to the rooms -/

section
variable {cfg : Config ar} {s : Engine (R := R) asUtc} {call : Call R} {room : String}

theorem step_latest (cfg : Config ar) (s : Engine (R := R) asUtc) (call : Call R) :
    (step cfg s call).latest = (begin call s).2.latest := by
  unfold step run
  rcases begin call s with ⟨why | ⟨room, ts⟩, s₁⟩
  · rfl
  · exact fuse_latest cfg call.env room ts s₁

theorem events_step (cfg : Config ar) (s : Engine (R := R) asUtc) (call : Call R) (room : String) :
    (step cfg s call).events room = (begin call s).2.events room := by
  rw [Engine.events, Engine.events, step_latest]

theorem rooms_step (cfg : Config ar) (s : Engine (R := R) asUtc) (call : Call R) :
    (step cfg s call).rooms = (begin call s).2.rooms := congrArg Dict.keys (step_latest cfg s call)

theorem mem_rooms_setDefault (s : Engine (R := R) asUtc) (r room : String) :
    room ∈ (s.latest.setDefault r .empty).keys ↔ room = r ∨ room ∈ s.rooms := by
  rw [Dict.mem_keys, Dict.get?_setDefault, Engine.rooms, Dict.mem_keys]
  by_cases h : room = r <;> simp [h]

theorem mem_rooms_put (s : Engine (R := R) asUtc) (e : Stored (R := R) asUtc) (room : String) :
    room ∈ (s.put e).rooms ↔ room = e.event.room ∨ room ∈ s.rooms := by
  rw [← mem_rooms_setDefault, Engine.rooms, Engine.put, Dict.mem_keys, Dict.mem_keys, Dict.get?_set]
  by_cases h : room = e.event.room <;> simp [h]

/-- The room of a stored event holds it beside the events of the other sensors. -/
theorem mem_events_put (hkeyed : Keyed s) (e e' : Stored (R := R) asUtc) :
    e' ∈ (s.put e).events e.event.room ↔ e' ∈ e :: s.others e := by
  rw [events_eq_sensors, sensors_put, if_pos rfl, Dict.mem_values, List.mem_cons, Engine.others, List.mem_filter,
    events_eq_sensors, Dict.mem_values]
  constructor
  · rintro ⟨k, hk⟩
    rw [Dict.get?_set] at hk
    split at hk
    · exact .inl (Option.some.inj hk).symm
    · rename_i hne
      have hkey := (hkeyed _ k e' hk).1
      exact .inr ⟨⟨k, hk⟩, by simpa [hkey] using hne⟩
  · rintro (rfl | ⟨⟨k, hk⟩, hne⟩)
    · exact ⟨key e', Dict.get?_set_self _ _ _⟩
    · have hkey := (hkeyed _ k e' hk).1
      refine ⟨k, ?_⟩
      rw [Dict.get?_set, if_neg (by simpa [hkey] using hne)]
      exact hk

theorem events_put_ne (s : Engine (R := R) asUtc) {e : Stored (R := R) asUtc} (h : room ≠ e.event.room) :
    (s.put e).events room = s.events room := by
  rw [events_eq_sensors, sensors_put, if_neg h, events_eq_sensors]

/-! ## Runs -/

/-- What a run keeps. -/
def Readable (s : Engine (R := R) asUtc) : Prop :=
  Keyed s ∧ ∀ room ∈ s.rooms, s.events room ≠ [] ∧ TextOrdered (s.events room)

theorem Readable.step (h : Readable s) (hd : Dated s call) : Readable (step cfg s call) := by
  refine ⟨h.1.step cfg call, fun room hroom => ?_⟩
  rw [rooms_step] at hroom
  rw [events_step]
  obtain ⟨op, env⟩ := call
  cases op with
  | state r =>
    rw [begin_state] at hroom ⊢
    exact h.2 room hroom
  | update event =>
    obtain ⟨hknown, hordered⟩ := hd event rfl
    cases hutc : asUtc event.ts with
    | none =>
      rw [begin_rejected s event env hutc] at hroom ⊢
      -- a rejected event opens its room without storing anything in it
      have hold : room ∈ s.rooms := by
        rcases (mem_rooms_setDefault s event.room room).mp hroom with rfl | hold
        · exact hknown hutc
        · exact hold
      have hsame : Engine.events { s with latest := s.latest.setDefault event.room .empty } room = s.events room :=
        congrArg Dict.values (sensors_setDefault s event.room room)
      rw [hsame]
      exact h.2 room hold
    | some utc =>
      let e : Stored (R := R) asUtc := ⟨event, utc, hutc⟩
      rw [begin_update s e env] at hroom ⊢
      by_cases hr : room = e.event.room
      · rw [hr]
        have hin : e ∈ (s.put e).events e.event.room := (mem_events_put h.1 e e).mpr List.mem_cons_self
        exact ⟨List.ne_nil_of_mem hin, (textOrdered_congr (mem_events_put h.1 e)).mpr (hordered e rfl)⟩
      · rw [events_put_ne s hr]
        exact h.2 room (((mem_rooms_put s e room).mp hroom).resolve_left hr)

/-- An event that comes otherwise leaves a room that cannot be read, or is dated too early. -/
theorem Readable.dated (h : Readable s) (hreads : Reads cfg (Fusion.step cfg s call)) : Dated s call := by
  have hnext := (reads_iff cfg call.env).mp hreads
  simp only [rooms_step, events_step] at hnext
  obtain ⟨op, env⟩ := call
  intro event hop
  cases hop
  constructor
  · intro hutc
    rw [begin_rejected s event env hutc] at hnext
    obtain ⟨hne, -⟩ := hnext event.room ((mem_rooms_setDefault s event.room event.room).mpr (.inl rfl))
    by_contra hunknown
    refine hne ?_
    have hnone : s.latest.get? event.room = none := by
      rw [Engine.rooms, Dict.mem_keys] at hunknown
      simpa using hunknown
    simp [Engine.events, hnone, Dict.values, Dict.empty]
  · rintro e rfl
    rw [begin_update s e env] at hnext
    have hordered := (hnext e.event.room ((mem_rooms_put s e _).mpr (.inl rfl))).2
    exact (textOrdered_congr (mem_events_put h.1 e)).mp hordered

/-- In every state of a run each room can be read, and is aged against its latest event, exactly
when no event opens a room with a timestamp that does not parse and none leaves the greatest text
of a room to an event that is not its latest. -/
theorem reads_iff_dated (cfg : Config ar) (calls : List (Call R)) :
    AllStates (Fusion.step cfg) (Reads cfg) (newEngine (R := R) asUtc) calls ↔
      AllSteps (Fusion.step cfg) Dated (newEngine asUtc) calls := by
  have hstart : Readable (newEngine (R := R) asUtc) := by
    refine ⟨?_, ?_⟩
    · intro room k e he
      cases he
    · intro room hroom
      cases hroom
  refine allStates_iff_allSteps (I := Readable) (fun s call h hd => h.step hd) ?_ ?_ hstart
  · intro s h room hroom env
    exact (reads_iff cfg env).mpr h.2 room hroom env
  · intro s call h hn hreads
    exact hn (h.dated hreads)

end

/-! ## A room that cannot be read, and one that reads an hour behind -/

/-- A minute past midnight, and half a minute past on a clock an hour ahead. -/
def parseOffsets (ts : String) : Option ℤ :=
  [("2026-01-01T00:01:00+00:00", 1767225660000000), ("2026-01-01T01:00:30+01:00", 1767225630000000)].lookup ts

def sightingAt (sensorId ts : String) : Call ℚ :=
  ⟨.update { sighting "pir" sensorId true (9 / 10) none with ts }, clockAt 1767225600000000⟩

/-- The room's only event is rejected, and asking for the room raises. Of two sensors, the one an
hour ahead has the greater text, and the other's event is the latest. -/
theorem offsets_not_read :
    ¬ AllStates (step defaultConfig) (Reads defaultConfig) (newEngine (R := ℚ) parseOffsets)
      [sightingAt "door" "yesterday"] ∧
    ¬ AllStates (step defaultConfig) (Reads defaultConfig) (newEngine (R := ℚ) parseOffsets)
      [sightingAt "door" "2026-01-01T00:01:00+00:00", sightingAt "hall" "2026-01-01T01:00:30+01:00"] := by
  constructor
  · rintro ⟨-, hreads⟩
    have hrooms := (reads_iff defaultConfig (clockAt 0)).mp hreads "sala"
    have hin : "sala" ∈ (step defaultConfig (newEngine parseOffsets) (sightingAt "door" "yesterday")).rooms := by
      decide +kernel
    have hnone : ((step defaultConfig (newEngine parseOffsets) (sightingAt "door" "yesterday")).events
        "sala").length = 0 := by decide +kernel
    exact (hrooms hin).1 (List.eq_nil_of_length_eq_zero hnone)
  · rintro ⟨-, -, hreads⟩
    have hrooms := (reads_iff defaultConfig (clockAt 0)).mp hreads "sala"
    let s := step defaultConfig (step defaultConfig (newEngine (R := ℚ) parseOffsets)
      (sightingAt "door" "2026-01-01T00:01:00+00:00")) (sightingAt "hall" "2026-01-01T01:00:30+01:00")
    have hin : "sala" ∈ s.rooms := by decide +kernel
    have hrewound : (s.events "sala").any (fun e =>
        (s.events "sala").all (fun e' => e'.event.ts ≤ e.event.ts) &&
          (s.events "sala").any fun e' => e.utc < e'.utc) = true := by decide +kernel
    obtain ⟨e, he, hboth⟩ := List.any_eq_true.mp hrewound
    rw [Bool.and_eq_true, List.all_eq_true, List.any_eq_true] at hboth
    obtain ⟨hgreatest, e', he', hlater⟩ := hboth
    have hle := (hrooms hin).2 e he (fun o ho => of_decide_eq_true (hgreatest o ho)) e' he'
    exact absurd (of_decide_eq_true hlater) (not_lt.mpr hle)

end Wavr.Fusion
