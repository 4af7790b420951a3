import Wavr.FusionCoherence

/-!
# What a room stores

One event for each sensor, in the slot of its modality and its id. A new sensor goes to the end
of the room, a known one keeps its place.
-/

namespace Wavr.Fusion
open Run

variable {R : Type} {ar : Arith R} {asUtc : String → Option ℤ}

/-- The slot of an event. -/
def key (e : Stored (R := R) asUtc) : String × String := (e.event.modality, e.event.sensorId)

def Engine.sensors (s : Engine (R := R) asUtc) (room : String) :
    Dict (String × String) (Stored (R := R) asUtc) := (s.latest.get? room).getD .empty

/-- What `update` does to the store of a room with an event that it accepts. -/
def Engine.put (s : Engine (R := R) asUtc) (e : Stored (R := R) asUtc) : Engine (R := R) asUtc :=
  { s with
    latest := (s.latest.setDefault e.event.room .empty).set e.event.room
      ((s.sensors e.event.room).set (key e) e) }

/-- Every event is in its own slot, of its own room. -/
def Keyed (s : Engine (R := R) asUtc) : Prop :=
  ∀ room k e, (s.sensors room).get? k = some e → key e = k ∧ e.event.room = room

theorem sensors_setDefault (s : Engine (R := R) asUtc) (r room : String) :
    ((s.latest.setDefault r .empty).get? room).getD .empty = s.sensors room := by
  rw [Engine.sensors, Dict.get?_setDefault]
  split
  · rename_i h
    rw [h]
    rfl
  · rfl

theorem begin_update (s : Engine (R := R) asUtc) (e : Stored (R := R) asUtc) (env : Env R) :
    begin ⟨.update e.event, env⟩ s = (.ok (e.event.room, e.event.ts), s.put e) := by
  unfold begin
  dsimp only
  split
  · rename_i utc hutc
    have hu : utc = e.utc := Option.some.inj (hutc.symm.trans e.parsed)
    subst hu
    rw [sensors_setDefault]
    rfl
  · rename_i hnone
    rw [e.parsed] at hnone
    cases hnone

theorem begin_rejected (s : Engine (R := R) asUtc) (e : SensingEvent R) (env : Env R)
    (h : asUtc e.ts = none) :
    begin ⟨.update e, env⟩ s =
      (.ok (e.room, (maxTs ((s.events e.room).map (·.event.ts))).getD env.wallIso),
        { s with latest := s.latest.setDefault e.room .empty }) := by
  unfold begin
  dsimp only
  split
  · rename_i utc hsome
    rw [h] at hsome
    cases hsome
  · rw [sensors_setDefault]
    rfl

theorem begin_state (s : Engine (R := R) asUtc) (room : String) (env : Env R) :
    (begin ⟨.state room, env⟩ s).2 = s := by
  unfold begin
  dsimp only
  split
  · rfl
  · split <;> rfl

/-- Only a question about a room goes without a fuse, and it stores nothing. -/
theorem begin_error {call : Call R} {s s₁ : Engine (R := R) asUtc} {why : Unfused}
    (h : begin call s = (.error why, s₁)) : s₁ = s := by
  obtain ⟨op, env⟩ := call
  cases op with
  | update ev =>
    cases hutc : asUtc ev.ts with
    | some utc =>
      rw [begin_update s ⟨ev, utc, hutc⟩] at h
      cases h
    | none =>
      rw [begin_rejected s ev env hutc] at h
      cases h
  | state room => exact (congrArg Prod.snd h).symm.trans (begin_state s room env)

/-- Nothing but an event is stored before the fuse. -/
theorem begin_frame (call : Call R) (s : Engine (R := R) asUtc) :
    (begin call s).2.occupiedState = s.occupiedState ∧
    (begin call s).2.vacateSince = s.vacateSince ∧
    (begin call s).2.countLatch = s.countLatch := by
  obtain ⟨op, env⟩ := call
  cases op with
  | update ev =>
    cases hutc : asUtc ev.ts with
    | some utc =>
      rw [begin_update s ⟨ev, utc, hutc⟩]
      exact ⟨rfl, rfl, rfl⟩
    | none =>
      rw [begin_rejected s ev env hutc]
      exact ⟨rfl, rfl, rfl⟩
  | state room =>
    rw [begin_state]
    exact ⟨rfl, rfl, rfl⟩

section
variable {s : Engine (R := R) asUtc} {e : Stored (R := R) asUtc} {room : String} {call : Call R}

theorem sensors_put (s : Engine (R := R) asUtc) (e : Stored (R := R) asUtc) (room : String) :
    (s.put e).sensors room =
      if room = e.event.room then (s.sensors e.event.room).set (key e) e else s.sensors room := by
  unfold Engine.put
  rw [Engine.sensors, Dict.get?_set]
  split
  · rfl
  · exact sensors_setDefault s _ room

theorem events_eq_sensors (s : Engine (R := R) asUtc) (room : String) :
    s.events room = (s.sensors room).values := rfl

/-- A known sensor's event is replaced where it stands, a new one goes to the end. -/
theorem exists_events_put (s : Engine (R := R) asUtc) (e : Stored (R := R) asUtc) : ∃ pre post,
    (s.put e).events e.event.room = pre ++ e :: post ∧
      s.events e.event.room = pre ++ (((s.sensors e.event.room).get? (key e)).toList ++ post) := by
  rw [events_eq_sensors, events_eq_sensors, sensors_put, if_pos rfl]
  exact Dict.exists_values_set _ (key e) e

theorem Keyed.put (h : Keyed s) (e : Stored (R := R) asUtc) : Keyed (s.put e) := by
  intro room k e' he'
  rw [sensors_put] at he'
  split at he'
  · rename_i hroom
    rw [Dict.get?_set] at he'
    split at he'
    · rename_i hk
      cases he'
      exact ⟨hk.symm, hroom.symm⟩
    · rw [hroom]
      exact h _ k e' he'
  · exact h room k e' he'

/-- A call that stores nothing leaves the rooms as they are. -/
theorem sensors_begin (call : Call R) (s : Engine (R := R) asUtc) :
    (∃ e : Stored (R := R) asUtc, call.op = .update e.event ∧ (begin call s).2 = s.put e) ∨
      ∀ room, (begin call s).2.sensors room = s.sensors room := by
  obtain ⟨op, env⟩ := call
  cases op with
  | update ev =>
    cases hutc : asUtc ev.ts with
    | some utc => exact .inl ⟨⟨ev, utc, hutc⟩, rfl, by rw [begin_update s ⟨ev, utc, hutc⟩]⟩
    | none =>
      refine .inr fun room => ?_
      rw [begin_rejected s ev env hutc]
      exact sensors_setDefault s _ room
  | state room =>
    refine .inr fun room' => ?_
    rw [begin_state]

/-- A call changes no other room than the one it fuses. -/
theorem sensors_begin_other {call : Call R} {s s₁ : Engine (R := R) asUtc} {room room' ts : String}
    (h : begin call s = (.ok (room, ts), s₁)) (hne : room' ≠ room) :
    s₁.sensors room' = s.sensors room' := by
  obtain rfl : (begin call s).2 = s₁ := congrArg Prod.snd h
  rcases sensors_begin call s with ⟨e, hop, hput⟩ | hsame
  · obtain ⟨op, env⟩ := call
    cases hop
    rw [begin_update] at h
    cases h
    rw [hput, sensors_put, if_neg hne]
  · exact hsame room'

theorem sensors_fuse (cfg : Config ar) (env : Env R) (room ts room' : String)
    (s : Engine (R := R) asUtc) : (fuse cfg env room ts s).2.sensors room' = s.sensors room' := by
  rw [Engine.sensors, fuse_latest]
  rfl

theorem Keyed.begin (h : Keyed s) (call : Call R) : Keyed (begin call s).2 := by
  rcases sensors_begin call s with ⟨e, -, he⟩ | hsame
  · rw [he]
    exact h.put e
  · intro room k e he
    rw [hsame] at he
    exact h room k e he

theorem Keyed.step (h : Keyed s) (cfg : Config ar) (call : Call R) : Keyed (step cfg s call) := by
  have hbegin := h.begin call
  revert hbegin
  unfold Fusion.step run
  rcases Fusion.begin call s with ⟨why | ⟨room, ts⟩, s₁⟩
  · exact id
  · intro hbegin room' k e he
    dsimp only at he
    rw [sensors_fuse] at he
    exact hbegin room' k e he

theorem Keyed.slot (h : Keyed s) {e : Stored (R := R) asUtc} (he : e ∈ s.events room) :
    (s.sensors room).get? (key e) = some e := by
  obtain ⟨k, hk⟩ := Dict.mem_values.mp he
  rw [(h room k e hk).1]
  exact hk

/-- One event for each sensor. -/
theorem Keyed.nodup (h : Keyed s) (room : String) : ((s.events room).map key).Nodup := by
  have hkeys : (s.events room).map key = (s.sensors room).keys := by
    rw [events_eq_sensors, Dict.values, Dict.keys, List.map_map]
    refine List.map_congr_left fun x hx => ?_
    exact (h room x.1 x.2 (Dict.mem_entries.mp hx)).1
  rw [hkeys]
  exact (s.sensors room).nodup

theorem keyed_finish (cfg : Config ar) (calls : List (Call R)) :
    Keyed (finish (Fusion.step cfg) (newEngine (R := R) asUtc) calls) := by
  have hok : AllSteps (Fusion.step cfg) (fun _ _ => True) (newEngine (R := R) asUtc) calls :=
    allSteps_of_forall fun _ _ _ => trivial
  have hstart : Keyed (newEngine (R := R) asUtc) := by
    intro room k e he
    cases he
  exact finish_of_invariant (fun _ call h _ => h.step cfg call) hstart hok

end

end Wavr.Fusion
