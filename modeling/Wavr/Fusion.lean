import Wavr.Argmax
import Wavr.Dict
import Wavr.SpatialFrames
import Wavr.Text

/-!
# The fusion engine

`FusionEngine`: the latest event of every sensor of every room, the occupancy dwell and the
count latch. A call comes with what the injected callables answer at that moment.
-/

namespace Wavr.Fusion
open Text

def COUNTING_MODALITIES : List String := ["camera", "mmwave"]

/-- How far ahead of the clock a timestamp may be at no cost, in seconds. -/
def SKEW_TOLERANCE_S : ℚ := 5

def TRUSTED_ABSENCE_MODALITIES : List String := ["camera"]

def RESOLUTION_SCOPE : List (String × Level) :=
  [("network", .house), ("sim", .house), ("ble", .room), ("wifi_csi", .room), ("pir", .room),
    ("node", .room), ("mmwave", .count), ("camera", .count)]

def LOCATABLE_MODALITIES : List String :=
  (RESOLUTION_SCOPE.filter fun e => e.2 = .count).map Prod.fst

def POSITION_QUALITY_MIN : ℚ := 6 / 10

def isCounting (modality : String) : Bool := COUNTING_MODALITIES.any (· = modality)

def isTrustedAbsence (modality : String) : Bool := TRUSTED_ABSENCE_MODALITIES.any (· = modality)

def isLocatable (modality : String) : Bool := LOCATABLE_MODALITIES.any (· = modality)

/-- `RESOLUTION_SCOPE.get(modality, "house")`. -/
def scopeOf (modality : String) : Level := (RESOLUTION_SCOPE.lookup modality).getD .house

/-- `_SCOPE_RANK`. -/
def Level.rank : Level → ℕ
  | .none => 0
  | .house => 1
  | .room => 2
  | .count => 3
  | .position => 4

/-- `_RANK_PCT`. -/
def Level.pct : Level → ℕ
  | .none => 0
  | .house => 25
  | .room => 50
  | .count => 75
  | .position => 100

/-- `_NEXT_BY_RANK`. -/
def Level.next : Level → Option String
  | .none => Option.none
  | .house => some "add_room_sensor"
  | .room => some "add_counting_sensor"
  | .count => some "calibrate_camera_position"
  | .position => Option.none

/-- The higher of two rungs. -/
def Level.max (a b : Level) : Level := if a.rank < b.rank then b else a

theorem Level.rank_max_le {a b : Level} {n : ℕ} (ha : a.rank ≤ n) (hb : b.rank ≤ n) :
    (a.max b).rank ≤ n := by
  unfold Level.max
  split
  · exact hb
  · exact ha

theorem trusted_subset_counting {m : String} (h : isTrustedAbsence m = true) : isCounting m = true := by
  have hm : "camera" = m := by simpa [isTrustedAbsence, TRUSTED_ABSENCE_MODALITIES] using h
  subst hm
  decide

theorem locatable_eq_counting (m : String) : isLocatable m = isCounting m := by
  have hl : LOCATABLE_MODALITIES = ["mmwave", "camera"] := by decide
  simp [isLocatable, isCounting, hl, COUNTING_MODALITIES, Bool.or_comm]

section
variable {R : Type} (ar : Arith R) (asUtc : String → Option ℤ)

/-- An event whose timestamp parses: the only kind that is stored. -/
structure Stored where
  event : SensingEvent R
  utc : ℤ
  parsed : asUtc event.ts = some utc

/-- What the constructor takes. It raises where `window` fails. -/
structure Config where
  weights : Dict String R
  threshold : R
  freshnessS : R
  staleS : R
  vacateS : R
  window : ar.le staleS freshnessS = false

/-- `DEFAULT_WEIGHTS`. -/
def DEFAULT_WEIGHTS : Dict String R where
  entries := [("camera", ar.lit 1), ("mmwave", ar.lit (9 / 10)), ("wifi_csi", ar.lit (85 / 100)),
    ("ble", ar.lit (7 / 10)), ("network", ar.lit (5 / 10)), ("sim", ar.lit (6 / 10)),
    ("pir", ar.lit (6 / 10)), ("node", ar.lit (5 / 10))]
  nodup := by simp

/-- What the injected clock answers. -/
inductive Reading
  /-- No clock is injected. -/
  | unwired
  | at (t : ℤ)
  /-- It raised, or what it returned is no instant. -/
  | unusable
  deriving DecidableEq

/-- What a call meets. -/
structure Env (R : Type) where
  now : Reading
  /-- The machine's own clock. -/
  wall : ℤ
  wallIso : String
  /-- `reliability_fn`; `none` where it is not wired or raises. -/
  reliability : String → String → Option (R × String)
  /-- `mount_fn`; `none` where it is not wired, knows no mount or raises. -/
  mount : String → String → Option (MountPose R)

structure Latch (R : Type) where
  count : ℕ
  targets : List (Target R)
  ts : ℤ

structure Engine where
  /-- Room to sensor to event. -/
  latest : Dict String (Dict (String × String) (Stored (R := R) asUtc))
  occupiedState : Dict String Bool
  vacateSince : Dict String ℤ
  countLatch : Dict String (Latch R)

def newEngine : Engine (R := R) asUtc := ⟨.empty, .empty, .empty, .empty⟩

end

variable {R : Type} {ar : Arith R} {asUtc : String → Option ℤ}

def Engine.events (s : Engine (R := R) asUtc) (room : String) : List (Stored (R := R) asUtc) :=
  ((s.latest.get? room).getD .empty).values

/-! ## One source -/

section
variable (cfg : Config ar) (env : Env R) (room : String) (ref : ℤ) (e : Stored (R := R) asUtc)

def weight : R := (cfg.weights.get? e.event.modality).getD (ar.lit (5 / 10))

/-- `_freshness`. -/
def freshness (ageS : R) : R × String :=
  if ar.le ageS cfg.freshnessS then (ar.lit 1, "fresh")
  else if ar.le cfg.staleS ageS || ar.le cfg.staleS cfg.freshnessS then (ar.lit 0, "dead")
  else (ar.div (ar.sub cfg.staleS ageS) (ar.sub cfg.staleS cfg.freshnessS), "stale")

/-- The distance from now: a timestamp ahead of the clock ages too, behind a tolerance. -/
def ageS (ar : Arith R) (ref : ℤ) (e : Stored (R := R) asUtc) : R :=
  let atraso := ar.seconds (ref - e.utc)
  if ar.lt atraso (ar.lit 0) then
    ar.max (ar.lit 0) (ar.sub (ar.neg atraso) (ar.lit SKEW_TOLERANCE_S))
  else atraso

def decay : R := (freshness cfg (ageS ar ref e)).1

/-- Present, and not decayed to nothing. -/
def live : Bool := e.event.presence && ar.lt (ar.lit 0) (decay cfg ref e)

def relFactor (ar : Arith R) (env : Env R) (room : String) (e : Stored (R := R) asUtc) : R × String :=
  if truthy e.event.sensorId then (env.reliability e.event.sensorId room).getD (ar.lit 1, "")
  else (ar.lit 1, "")

/-- A look at an empty room, by a source that can prove absence and is awake. -/
def dissents : Bool :=
  ! e.event.presence && ar.lt (ar.lit 0) (decay cfg ref e) && isTrustedAbsence e.event.modality

def mass : R :=
  let base := ar.mul (ar.mul (weight cfg e) (decay cfg ref e)) (relFactor ar env room e).1
  -- a dissent weighs in whole: its confidence is that of presence
  if dissents cfg ref e then base else ar.mul base e.event.confidence

def sourceRow (den : R) : Source R where
  modality := e.event.modality
  sensorId := e.event.sensorId
  presence := e.event.presence
  confidence := ar.round3 e.event.confidence
  ageS := ar.roundInt (ageS ar ref e)
  health := (freshness cfg (ageS ar ref e)).2
  count := if isCounting e.event.modality then e.event.count else none
  share := if ar.lt (ar.lit 0) den then ar.round3 (ar.div (mass cfg env room ref e) den) else ar.lit 0
  reliability :=
    let rel := relFactor ar env room e
    if ar.eq rel.1 (ar.lit 1) then none else some (ar.round3 rel.1, rel.2)

end

/-! ## One room -/

section
variable (cfg : Config ar) (env : Env R) (room : String) (ref : ℤ)
  (es : List (Stored (R := R) asUtc))

/-- Mass saying present, total mass, best present evidence. -/
structure Tally (R : Type) where
  num : R
  den : R
  strength : R

def tally : Tally R :=
  es.foldl (fun t e =>
    let m := mass cfg env room ref e
    if e.event.presence then ⟨ar.add t.num m, ar.add t.den m, ar.max t.strength m⟩
    else { t with den := ar.add t.den m }) ⟨ar.lit 0, ar.lit 0, ar.lit 0⟩

def confidence : R :=
  let t := tally cfg env room ref es
  let agreement := if ar.lt (ar.lit 0) t.den then ar.div t.num t.den else ar.lit 0
  ar.round3 (ar.min (ar.lit 1) (ar.max (ar.lit 0) (ar.mul agreement t.strength)))

def vitals : Option (R × Option R) :=
  es.foldl (fun v e => if e.event.presence then
    (e.event.breathingBpm.map fun b => (b, e.event.heartBpm)).or v else v) none

/-- One event in the search for the number: the best weight so far, with its count and the
timestamp of the count. -/
def pickStep (best : R × Option (ℕ × ℤ)) (e : Stored (R := R) asUtc) : R × Option (ℕ × ℤ) :=
  match e.event.count with
  | none => best
  | some n =>
    -- strictly heavier, so the first of equals stays
    if isCounting e.event.modality && live cfg ref e && ar.lt best.1 (weight cfg e) then
      (weight cfg e, some (n, e.utc))
    else best

/-- `live_count` and `live_count_ts`: the heaviest live counting source vouches for the number,
the first among equals. -/
def pickCount : Option (ℕ × ℤ) := (es.foldl (pickStep cfg ref) (ar.lit (-1), none)).2

/-- A live source that detects presence and cannot count. -/
def housePresent : Bool := es.any fun e => live cfg ref e && ! isCounting e.event.modality

def rawOccupied : Bool :=
  ar.le cfg.threshold (confidence cfg env room ref es) ||
    (pickCount cfg ref es).any (0 < ·.1) || housePresent cfg ref es

/-- The targets of the heaviest live source that may place one, in the room's frame. -/
def bestTargets : List (Target R) :=
  (es.foldl (fun best e =>
    if isLocatable e.event.modality && live cfg ref e && e.event.targets ≠ [] &&
      ar.lt best.1 (weight cfg e) then
      let mount := if truthy e.event.sensorId then env.mount e.event.sensorId room else none
      (weight cfg e, e.event.targets.map fun t =>
        (transformTarget ar mount (ar.lit 0, ar.lit 0) t).1)
    else best) (ar.lit (-1), [])).2

/-- A counting source that is awake, can prove absence, and says the room is empty. -/
def countingLiveNegative : Bool :=
  es.any fun e => ! e.event.presence && ar.lt (ar.lit 0) (decay cfg ref e) &&
    isCounting e.event.modality && isTrustedAbsence e.event.modality

/-- One identity of one source. -/
def mergeIdentity (merged : Dict String Identity) (i : Identity) : Dict String Identity :=
  if truthy i.person then
    match merged.get? i.person with
    | none => merged.set i.person i
    | some prev =>
      match i.rssi, prev.rssi with
      | some _, none => merged.set i.person i
      | some cr, some pr => if pr < cr then merged.set i.person i else merged
      | none, _ => merged
  else merged

def identities : List Identity :=
  (es.foldl (fun merged e => if live cfg ref e then e.event.identities.foldl mergeIdentity merged
    else merged) .empty).values

end

section
variable {cfg : Config ar} {ref : ℤ} {es : List (Stored (R := R) asUtc)} {n : ℕ} {ts : ℤ}

/-- The event vouches for this number of people at this instant. -/
def Vouches (cfg : Config ar) (ref : ℤ) (n : ℕ) (ts : ℤ) (e : Stored (R := R) asUtc) : Prop :=
  isCounting e.event.modality = true ∧ live cfg ref e = true ∧ e.event.count = some n ∧ e.utc = ts

/-- The event is a candidate for the number. -/
def countable (cfg : Config ar) (ref : ℤ) (e : Stored (R := R) asUtc) : Bool :=
  isCounting e.event.modality && live cfg ref e && e.event.count.isSome

/-- `p` is the heaviest candidate, the first among equals. -/
def Heaviest (cfg : Config ar) (ref : ℤ) (es : List (Stored (R := R) asUtc))
    (p : Stored (R := R) asUtc) : Prop :=
  ∃ pre post, es = pre ++ p :: post ∧ countable cfg ref p = true ∧
    ar.lt (ar.lit (-1)) (weight cfg p) = true ∧
    (∀ e ∈ pre, countable cfg ref e = true → ar.lt (weight cfg e) (weight cfg p) = true) ∧
    ∀ e ∈ post, countable cfg ref e = true → ar.lt (weight cfg p) (weight cfg e) = false

/-- The number an event gives, with its instant. -/
def vouched (e : Stored (R := R) asUtc) : Option (ℕ × ℤ) := e.event.count.map (·, e.utc)

theorem pickStep_eq : (pickStep cfg ref : _ → Stored (R := R) asUtc → _) =
    Argmax.pick (countable cfg ref) ar.lt (weight cfg) vouched := by
  funext best e
  unfold pickStep Argmax.pick countable vouched
  cases e.event.count <;> simp

/-- The number comes from a live counting source. -/
theorem pickCount_vouches (h : pickCount cfg ref es = some (n, ts)) :
    ∃ e ∈ es, Vouches cfg ref n ts e := by
  rw [pickCount, pickStep_eq] at h
  rcases Argmax.foldl_pick_mem es (ar.lit (-1), none) with hkeep | ⟨e, he, hable, hpick⟩
  · rw [hkeep] at h
    cases h
  · rw [hpick] at h
    obtain ⟨m, hm, hgives⟩ := Option.map_eq_some_iff.mp h
    cases hgives
    rw [countable, Bool.and_eq_true, Bool.and_eq_true] at hable
    exact ⟨e, he, hable.1.1, hable.1.2, hm, rfl⟩

theorem Heaviest.pickCount_eq {p : Stored (R := R) asUtc} (h : Heaviest cfg ref es p) :
    pickCount cfg ref es = p.event.count.map (·, p.utc) := by
  obtain ⟨pre, post, rfl, hp, hw, hpre, hpost⟩ := h
  rw [pickCount, pickStep_eq, Argmax.foldl_pick_first hp hw hpre hpost]
  rfl

end

/-! ## Dwell, latch and ladder -/

section
variable (cfg : Config ar) (room : String) (ref : ℤ)

/-- `_debounce_occupancy`: the debounced boolean, and what is left of a pending vacate. -/
def debounceOccupancy (raw : Bool) (s : Engine (R := R) asUtc) :
    (Bool × Option R) × Engine (R := R) asUtc :=
  let settle (occupied : Bool) : Engine (R := R) asUtc :=
    { s with
      vacateSince := s.vacateSince.erase room
      occupiedState := s.occupiedState.set room occupied }
  if raw then ((true, none), settle true)
  else if s.occupiedState.get? room ≠ some true then ((false, none), settle false)
  else
    let started := (s.vacateSince.get? room).getD ref
    let elapsed := ar.max (ar.lit 0) (ar.seconds (ref - started))
    if ar.le cfg.vacateS (ar.lit 0) || ar.le cfg.vacateS elapsed then ((false, none), settle false)
    else ((true, some (ar.sub cfg.vacateS elapsed)), { s with
      vacateSince := s.vacateSince.set room started
      occupiedState := s.occupiedState.set room true })

/-- What the room reports of a headcount. -/
structure Headcount (R : Type) where
  personCount : Option ℕ
  targets : List (Target R)
  held : Bool

/-- The count latch. -/
def latchCount (es : List (Stored (R := R) asUtc)) (occupied : Bool) (best : List (Target R))
    (s : Engine (R := R) asUtc) : Headcount R × Engine (R := R) asUtc :=
  let released : Engine (R := R) asUtc := { s with countLatch := s.countLatch.erase room }
  if ¬ occupied then (⟨none, best, false⟩, released)
  else
    match pickCount cfg ref es with
    | some (n, ts) =>
      -- stamped with the event's own timestamp, not with `ref`
      (⟨some n, best, false⟩, { s with countLatch := s.countLatch.set room ⟨n, best, ts⟩ })
    | none =>
      if countingLiveNegative cfg ref es then (⟨none, best, false⟩, released)
      else
        match s.countLatch.get? room with
        | some l =>
          -- a dropout, not a live negative: the number stands for `stale_s`
          if ar.le (ar.seconds (ref - l.ts)) cfg.staleS then
            (⟨some l.count, if best = [] then l.targets else best, true⟩, s)
          else (⟨none, best, false⟩, released)
        | none => (⟨none, best, false⟩, released)

/-- Coordinates good enough to draw. A Target always has a confidence. -/
def isPositioned (ar : Arith R) (t : Target R) : Bool :=
  t.x.isSome && t.y.isSome && ar.le (ar.lit POSITION_QUALITY_MIN) t.confidence

/-- The finest rung a live source delivers. -/
def seen (es : List (Stored (R := R) asUtc)) : Level :=
  es.foldl (fun best e => if live cfg ref e then best.max (scopeOf e.event.modality) else best)
    .none

/-- The precision ladder. -/
def precision (es : List (Stored (R := R) asUtc)) (occupied : Bool) (head : Headcount R) : Level :=
  if ¬ occupied then .none
  else
    match head.personCount with
    | some _ =>
      if head.targets.any (isPositioned ar) then .position else (seen cfg ref es).max .count
    | none =>
      -- a counting source that vouches for no number caps at the room
      if Level.count.rank ≤ (seen cfg ref es).rank then .room else seen cfg ref es

end

/-! ## The room as a whole -/

def pad2 (n : ℤ) : String := if n < 10 then "0" ++ toString n else toString n

def explanation (ar : Arith R) (sources : List (Source R)) (conf : R) (pending : Option R)
    (held : Bool) : String :=
  let parts := sources.map fun s => s.modality ++ ": " ++ if s.presence then "present" else "empty"
  let exit := match pending with
    | none => ""
    | some p => ", confirming exit " ++ toString (ar.ceil p / 60) ++ ":" ++ pad2 (ar.ceil p % 60)
  String.intercalate " · " parts ++ " → " ++ toString (ar.trunc (ar.mul conf (ar.lit 100))) ++
    "% occupied" ++ exit ++ if held then ", contagem mantida" else ""

/-- Now: the injected clock, else the given timestamp, else the machine's clock. -/
def reference (asUtc : String → Option ℤ) (env : Env R) (ts : String) : ℤ :=
  match env.now with
  | .at t => t
  | .unwired => (asUtc ts).getD env.wall
  | .unusable => env.wall

section
variable (cfg : Config ar) (env : Env R) (room : String) (ref : ℤ) (s : Engine (R := R) asUtc)

def dwell : (Bool × Option R) × Engine (R := R) asUtc :=
  debounceOccupancy cfg room ref (rawOccupied cfg env room ref (s.events room)) s

def headcount : Headcount R × Engine (R := R) asUtc :=
  latchCount cfg room ref (s.events room) (dwell cfg env room ref s).1.1
    (bestTargets cfg env room ref (s.events room)) (dwell cfg env room ref s).2

end

/-- `_fuse`. -/
def fuse (cfg : Config ar) (env : Env R) (room ts : String) (s : Engine (R := R) asUtc) :
    RoomState R × Engine (R := R) asUtc :=
  let es := s.events room
  let ref := reference asUtc env ts
  let conf := confidence cfg env room ref es
  let sources := es.map fun e => sourceRow cfg env room ref e (tally cfg env room ref es).den
  let occupied := (dwell cfg env room ref s).1.1
  let head := (headcount cfg env room ref s).1
  let level := precision cfg ref es occupied head
  ({ room, occupied
     confidence := conf
     vitals := vitals es
     sources
     targets := head.targets
     identities := identities cfg ref es
     personCount := head.personCount
     explanation := explanation ar sources conf (dwell cfg env room ref s).1.2 head.held
     ts
     precisionLevel := level
     precisionPct := level.pct
     precisionNext := level.next }, (headcount cfg env room ref s).2)

/-! ## Calls -/

/-- `max` of the timestamps as texts. -/
def maxTs : List String → Option String
  | [] => none
  | t :: ts => some (ts.foldl (fun a b => if a < b then b else a) t)

inductive Op (R : Type)
  | update (event : SensingEvent R)
  | state (room : String)

/-- A call, and what it meets. -/
structure Call (R : Type) where
  op : Op R
  env : Env R

/-- Why `state` has no room state to return. -/
inductive Unfused
  /-- The room never had an event. -/
  | unknown
  /-- All events of the room were rejected: the ValueError of `max` of nothing. -/
  | valueError
  deriving DecidableEq

inductive Reply (R : Type)
  | fused (state : RoomState R)
  | unfused (why : Unfused)

def Reply.state? : Reply R → Option (RoomState R)
  | .fused rs => some rs
  | .unfused _ => none

theorem Reply.eq_fused {r : Reply R} {rs : RoomState R} (h : r.state? = some rs) : r = .fused rs := by
  cases r with
  | fused rs' => exact congrArg Reply.fused (Option.some.inj h)
  | unfused _ => cases h

/-- What a call does before it fuses: the room and the timestamp to fuse it at, if it does. -/
def begin (call : Call R) (s : Engine (R := R) asUtc) :
    Except Unfused (String × String) × Engine (R := R) asUtc :=
  match call.op with
  | .update e =>
    let latest := s.latest.setDefault e.room .empty
    let sensors := (latest.get? e.room).getD .empty
    match h : asUtc e.ts with
    | some utc =>
      let stored : Stored (R := R) asUtc := ⟨e, utc, h⟩
      (.ok (e.room, e.ts),
        { s with latest := latest.set e.room (sensors.set (e.modality, e.sensorId) stored) })
    | none =>
      -- rejected: what is known of the room is fused
      (.ok (e.room, (maxTs (sensors.values.map (·.event.ts))).getD call.env.wallIso),
        { s with latest })
  | .state room =>
    match s.latest.get? room with
    | none => (.error .unknown, s)
    | some sensors =>
      match maxTs (sensors.values.map (·.event.ts)) with
      | none => (.error .valueError, s)
      | some ts => (.ok (room, ts), s)

/-- `update` and `state`. -/
def run (cfg : Config ar) (call : Call R) (s : Engine (R := R) asUtc) :
    Reply R × Engine (R := R) asUtc :=
  match begin call s with
  | (.error why, s) => (.unfused why, s)
  | (.ok (room, ts), s) =>
    let fused := fuse cfg call.env room ts s
    (.fused fused.1, fused.2)

def step (cfg : Config ar) (s : Engine (R := R) asUtc) (call : Call R) : Engine (R := R) asUtc :=
  (run cfg call s).2

/-- A returned room state is that of a fuse. -/
theorem run_fused {cfg : Config ar} {call : Call R} {s : Engine (R := R) asUtc} {rs : RoomState R}
    (h : (run cfg call s).1 = .fused rs) :
    ∃ room ts s₁, begin call s = (.ok (room, ts), s₁) ∧ rs = (fuse cfg call.env room ts s₁).1 ∧
      step cfg s call = (fuse cfg call.env room ts s₁).2 := by
  revert h
  unfold step run
  rcases begin call s with ⟨why | ⟨room, ts⟩, s₁⟩
  · intro h
    cases h
  · intro h
    exact ⟨room, ts, s₁, rfl, (Reply.fused.inj h).symm, rfl⟩

end Wavr.Fusion
