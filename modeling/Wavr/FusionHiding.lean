import Wavr.FusionRooms
import Wavr.FusionTargets

/-!
# Hiding what is personal

The fuse of events without identities, and at will without vitals and without targets, is the fuse
of the events themselves, less what is read off what was hidden. Every step of the engine commutes
with the hiding.
-/

namespace Wavr.Fusion
open Run

variable {R : Type} {ar : Arith R} {asUtc : String → Option ℤ}

/-- What is hidden besides the identities. -/
structure Hiding where
  vitals : Bool
  targets : Bool

/-! ## Hiding -/

def Hiding.ofTargets (h : Hiding) (ts : List (Target R)) : List (Target R) := if h.targets then [] else ts

def SensingEvent.hide (h : Hiding) (e : SensingEvent R) : SensingEvent R :=
  { e with
    identities := []
    breathingBpm := if h.vitals then none else e.breathingBpm
    heartBpm := if h.vitals then none else e.heartBpm
    targets := h.ofTargets e.targets }

/-- Without targets the rung says nothing either: it reads them. -/
def RoomState.hide (h : Hiding) (rs : RoomState R) : RoomState R :=
  { rs with
    identities := []
    vitals := if h.vitals then none else rs.vitals
    targets := h.ofTargets rs.targets
    precisionLevel := if h.targets then .none else rs.precisionLevel
    precisionPct := if h.targets then 0 else rs.precisionPct
    precisionNext := if h.targets then none else rs.precisionNext }

def Reply.hide (h : Hiding) : Reply R → Reply R
  | .fused rs => .fused (rs.hide h)
  | .unfused why => .unfused why

def Call.hide (h : Hiding) (call : Call R) : Call R :=
  match call.op with
  | .update e => { call with op := .update (e.hide h) }
  | .state _ => call

def Stored.hide (h : Hiding) (e : Stored (R := R) asUtc) : Stored (R := R) asUtc :=
  ⟨e.event.hide h, e.utc, e.parsed⟩

def Latch.hide (h : Hiding) (l : Latch R) : Latch R := { l with targets := h.ofTargets l.targets }

def Engine.hide (h : Hiding) (s : Engine (R := R) asUtc) : Engine (R := R) asUtc where
  latest := s.latest.mapValues fun sensors => sensors.mapValues (Stored.hide h)
  occupiedState := s.occupiedState
  vacateSince := s.vacateSince
  countLatch := s.countLatch.mapValues (Latch.hide h)

/-! ## One source -/

section
variable (cfg : Config ar) (env : Env R) (room : String) (ref : ℤ) (h : Hiding)
  (e : Stored (R := R) asUtc) (es : List (Stored (R := R) asUtc))

@[simp] theorem key_hide : key (e.hide h) = key e := rfl

@[simp] theorem live_hide : live cfg ref (e.hide h) = live cfg ref e := rfl

@[simp] theorem presence_hide : (e.hide h).event.presence = e.event.presence := rfl

@[simp] theorem modality_hide : (e.hide h).event.modality = e.event.modality := rfl

@[simp] theorem ts_hide : (e.hide h).event.ts = e.event.ts := rfl

@[simp] theorem room_hide : (e.hide h).event.room = e.event.room := rfl

@[simp] theorem decay_hide : decay cfg ref (e.hide h) = decay cfg ref e := rfl

@[simp] theorem mass_hide : mass cfg env room ref (e.hide h) = mass cfg env room ref e := rfl

@[simp] theorem sourceRow_hide (den : R) :
    sourceRow cfg env room ref (e.hide h) den = sourceRow cfg env room ref e den := rfl

@[simp] theorem pickStep_hide (best : R × Option (ℕ × ℤ)) :
    pickStep cfg ref best (e.hide h) = pickStep cfg ref best e := rfl

/-! ## One room -/

@[simp] theorem tally_hide :
    tally cfg env room ref (es.map (Stored.hide h)) = tally cfg env room ref es := by
  rw [tally, List.foldl_map]
  rfl

@[simp] theorem confidence_hide :
    confidence cfg env room ref (es.map (Stored.hide h)) = confidence cfg env room ref es := by
  simp [confidence]

@[simp] theorem pickCount_hide :
    pickCount cfg ref (es.map (Stored.hide h)) = pickCount cfg ref es := by
  simp [pickCount, List.foldl_map]

@[simp] theorem housePresent_hide :
    housePresent cfg ref (es.map (Stored.hide h)) = housePresent cfg ref es := by
  simp [housePresent, List.any_map, Function.comp_def]

@[simp] theorem rawOccupied_hide :
    rawOccupied cfg env room ref (es.map (Stored.hide h)) = rawOccupied cfg env room ref es := by
  simp [rawOccupied]

@[simp] theorem countingLiveNegative_hide :
    countingLiveNegative cfg ref (es.map (Stored.hide h)) = countingLiveNegative cfg ref es := by
  simp [countingLiveNegative, List.any_map, Function.comp_def]

@[simp] theorem seen_hide : seen cfg ref (es.map (Stored.hide h)) = seen cfg ref es := by
  rw [seen, List.foldl_map]
  rfl

@[simp] theorem precision_hide (occupied : Bool) (head : Headcount R) :
    precision cfg ref (es.map (Stored.hide h)) occupied head = precision cfg ref es occupied head := by
  simp [precision]

theorem bestTargets_hide : bestTargets cfg env room ref (es.map (Stored.hide h)) =
    h.ofTargets (bestTargets cfg env room ref es) := by
  obtain ⟨vitals, targets⟩ := h
  cases targets with
  | false =>
    show bestTargets cfg env room ref (es.map (Stored.hide ⟨vitals, false⟩)) = bestTargets cfg env room ref es
    rw [bestTargets_eq, List.foldl_map]
    rfl
  | true =>
    refine bestTargets_eq_nil_iff.mpr fun e he => ?_
    obtain ⟨e', -, rfl⟩ := List.mem_map.mp he
    simp [places, placeable, Stored.hide, SensingEvent.hide, Hiding.ofTargets]

theorem vitals_hide : (if h.vitals then none else vitals (es.map (Stored.hide h))) =
    if h.vitals then none else vitals es := by
  obtain ⟨hidden, targets⟩ := h
  cases hidden with
  | true => rfl
  | false =>
    rw [vitals, List.foldl_map]
    rfl

end

section
variable (h : Hiding) (s : Engine (R := R) asUtc) (room : String)

@[simp] theorem events_hide : (s.hide h).events room = (s.events room).map (Stored.hide h) := by
  rw [Engine.events, Engine.hide, Dict.get?_mapValues]
  cases hl : s.latest.get? room with
  | none => simp [Engine.events, hl]; rfl
  | some sensors => simp [Engine.events, hl, Dict.values_mapValues]

variable (cfg : Config ar) (env : Env R) (ref : ℤ)

theorem debounceOccupancy_hide (raw : Bool) : debounceOccupancy cfg room ref raw (s.hide h) =
    ((debounceOccupancy cfg room ref raw s).1, (debounceOccupancy cfg room ref raw s).2.hide h) := by
  unfold debounceOccupancy
  dsimp only [Engine.hide]
  cases raw with
  | true => rfl
  | false =>
    by_cases hwas : s.occupiedState.get? room = some true
    · cases hover : ar.le cfg.vacateS (ar.lit 0) || ar.le cfg.vacateS (ar.max (ar.lit 0)
        (ar.seconds (ref - (s.vacateSince.get? room).getD ref))) <;> simp [hwas]
    · simp [hwas]

def Headcount.hide (h : Hiding) (head : Headcount R) : Headcount R :=
  { head with targets := h.ofTargets head.targets }

theorem ofTargets_held (best held : List (Target R)) :
    (if h.ofTargets best = [] then h.ofTargets held else h.ofTargets best) =
      h.ofTargets (if best = [] then held else best) := by
  obtain ⟨vitals, targets⟩ := h
  cases targets
  · rfl
  · exact if_pos rfl

theorem latchCount_hide (es : List (Stored (R := R) asUtc)) (occupied : Bool)
    (best : List (Target R)) :
    latchCount cfg room ref (es.map (Stored.hide h)) occupied (h.ofTargets best) (s.hide h) =
      ((latchCount cfg room ref es occupied best s).1.hide h,
        (latchCount cfg room ref es occupied best s).2.hide h) := by
  have hreleased : (s.countLatch.erase room).mapValues (Latch.hide h) =
      (s.countLatch.mapValues (Latch.hide h)).erase room := Dict.mapValues_erase _ _ room
  unfold latchCount
  rw [pickCount_hide, countingLiveNegative_hide]
  cases occupied with
  | false => simp [Engine.hide, Headcount.hide, hreleased]
  | true =>
    cases hp : pickCount cfg ref es with
    | some p => simp [Engine.hide, Headcount.hide, Dict.mapValues_set, Latch.hide]
    | none =>
      cases hneg : countingLiveNegative cfg ref es with
      | true => simp [Engine.hide, Headcount.hide, hreleased]
      | false =>
        cases hl : s.countLatch.get? room with
        | none => simp [Engine.hide, Headcount.hide, hreleased, hl]
        | some l =>
          cases hle : ar.le (ar.seconds (ref - l.ts)) cfg.staleS with
          | false => simp [Engine.hide, Headcount.hide, Latch.hide, hreleased, hl, hle]
          | true => simp [Engine.hide, Headcount.hide, Latch.hide, hl, hle, ofTargets_held]

theorem dwell_hide : dwell cfg env room ref (s.hide h) =
    ((dwell cfg env room ref s).1, (dwell cfg env room ref s).2.hide h) := by
  rw [dwell, events_hide, rawOccupied_hide, debounceOccupancy_hide]
  rfl

theorem headcount_hide : headcount cfg env room ref (s.hide h) =
    ((headcount cfg env room ref s).1.hide h, (headcount cfg env room ref s).2.hide h) := by
  rw [headcount, dwell_hide, events_hide, bestTargets_hide, latchCount_hide]
  rfl

/-! ## One call -/

/-- Where the targets are shown, the rung is what it was. -/
theorem precision_ofTargets {es : List (Stored (R := R) asUtc)} {occupied : Bool} {head : Headcount R}
    (hshown : h.targets = false) :
    precision cfg ref es occupied (head.hide h) = precision cfg ref es occupied head := by
  have hhead : head.hide h = head := by simp [Headcount.hide, Hiding.ofTargets, hshown]
  rw [hhead]

theorem fuse_hide (ts : String) :
    (fuse cfg env room ts (s.hide h)).1.hide h = (fuse cfg env room ts s).1.hide h ∧
      (fuse cfg env room ts (s.hide h)).2 = (fuse cfg env room ts s).2.hide h := by
  unfold fuse
  simp only [headcount_hide, dwell_hide, events_hide, confidence_hide, tally_hide,
    precision_hide, List.map_map, Function.comp_def, sourceRow_hide]
  refine ⟨?_, trivial⟩
  have hvitals := vitals_hide h (s.events room)
  cases ht : h.targets with
  | false =>
    simp only [RoomState.hide, precision_ofTargets h cfg _ ht, ht, hvitals]
    simp [Headcount.hide, Hiding.ofTargets, ht]
  | true =>
    simp only [RoomState.hide, hvitals]
    simp [Headcount.hide, Hiding.ofTargets, ht]

theorem sensors_hide : (s.hide h).sensors room = (s.sensors room).mapValues (Stored.hide h) := by
  rw [Engine.sensors, Engine.hide, Dict.get?_mapValues, Engine.sensors]
  cases s.latest.get? room <;> rfl

theorem values_hide (sensors : Dict (String × String) (Stored (R := R) asUtc)) :
    (sensors.mapValues (Stored.hide h)).values.map (·.event.ts) =
      sensors.values.map (·.event.ts) := by
  simp [Dict.values_mapValues, Function.comp_def]

theorem put_hide (e : Stored (R := R) asUtc) : (s.put e).hide h = (s.hide h).put (e.hide h) := by
  unfold Engine.put
  rw [sensors_hide, room_hide, key_hide, ← Dict.mapValues_set]
  simp only [Engine.hide, Dict.mapValues_set, Dict.mapValues_setDefault]
  rfl

theorem begin_hide (call : Call R) :
    begin (call.hide h) (s.hide h) = ((begin call s).1, (begin call s).2.hide h) := by
  obtain ⟨op, env⟩ := call
  cases op with
  | update ev =>
    show begin ⟨.update (ev.hide h), env⟩ (s.hide h) = _
    cases hutc : asUtc ev.ts with
    | some utc =>
      let e : Stored (R := R) asUtc := ⟨ev, utc, hutc⟩
      show begin ⟨.update (e.hide h).event, env⟩ (s.hide h) =
        ((begin ⟨.update e.event, env⟩ s).1, (begin ⟨.update e.event, env⟩ s).2.hide h)
      rw [begin_update, begin_update, put_hide, room_hide, ts_hide]
    | none =>
      have hroom : (ev.hide h).room = ev.room := rfl
      have hrejected : asUtc (ev.hide h).ts = none := hutc
      rw [begin_rejected s ev env hutc, begin_rejected (s.hide h) _ env hrejected, hroom, events_hide]
      simp only [List.map_map, Function.comp_def, ts_hide, Engine.hide, Dict.mapValues_setDefault]
      rfl
  | state room =>
    show begin ⟨.state room, env⟩ (s.hide h) = _
    unfold begin
    dsimp only
    rw [Engine.hide, Dict.get?_mapValues]
    cases s.latest.get? room with
    | none => rfl
    | some sensors =>
      dsimp only [Option.map_some]
      rw [values_hide]
      cases maxTs (sensors.values.map (·.event.ts)) <;> rfl

theorem run_hide (call : Call R) :
    (run cfg (call.hide h) (s.hide h)).1.hide h = (run cfg call s).1.hide h ∧
      (run cfg (call.hide h) (s.hide h)).2 = (run cfg call s).2.hide h := by
  have henv : (call.hide h).env = call.env := by
    unfold Call.hide
    split <;> rfl
  unfold run
  rw [begin_hide, henv]
  rcases begin call s with ⟨why | ⟨room, ts⟩, s₁⟩
  · exact ⟨rfl, rfl⟩
  · obtain ⟨hstate, hengine⟩ := fuse_hide h s₁ room cfg call.env ts
    exact ⟨congrArg Reply.fused hstate, hengine⟩

end

/-! ## A run -/

/-- What a run replies, in order. -/
def replies (cfg : Config ar) (asUtc : String → Option ℤ) (calls : List (Call R)) : List (Reply R) :=
  outputs (step cfg) (fun s call => some (run cfg call s).1) (newEngine (R := R) asUtc) calls

theorem replies_hide (cfg : Config ar) (h : Hiding) (calls : List (Call R)) :
    (replies cfg asUtc (calls.map (Call.hide h))).map (Reply.hide h) =
      (replies cfg asUtc calls).map (Reply.hide h) := by
  rw [replies, replies, map_outputs, map_outputs]
  refine outputs_erase (Engine.hide h) (Call.hide h) (fun s call => ?_) (fun s call => ?_)
    (newEngine asUtc) calls
  · exact (run_hide h s cfg call).2
  · exact congrArg some (run_hide h s cfg call).1

end Wavr.Fusion
