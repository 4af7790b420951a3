import Wavr.Json
import Wavr.Mmwave
import Wavr.NodeLifecycle

/-!
# Telemetry of nodes

`node_event`: what a node posts, made into an event of the row it is stored under.
-/

namespace Wavr.Nodes
open Fusion (SensingEvent Target)
open Json (CONVERSION_ERRORS)
open Run Text

def COUNTING_SENSORS : List String := ["ld2450", "mmwave"]

/-- Longer arrays are cut. -/
def MAX_ARRAY : ℕ := 64

/-- `_PyLong_DigitValue` below sixteen. -/
def hexDigit (c : Char) : Option ℕ :=
  if '0' ≤ c ∧ c ≤ '9' then some (c.toNat - 48)
  else if 'a' ≤ c ∧ c ≤ 'f' then some (c.toNat - 87)
  else if 'A' ≤ c ∧ c ≤ 'F' then some (c.toNat - 55)
  else none

def isAsciiSpace (c : Char) : Bool := c = ' ' ∨ ('\t' ≤ c ∧ c ≤ '\r')

/-- Pairs of hexadecimal digits, with blanks between the pairs. -/
def hexBytes : List Char → Option (List UInt8)
  | [] => some []
  | [c] => if isAsciiSpace c then some [] else none
  | c :: d :: cs =>
    if isAsciiSpace c then hexBytes (d :: cs)
    else
      match hexDigit c, hexDigit d with
      | some hi, some lo => (hexBytes cs).map (UInt8.ofNat (16 * hi + lo) :: ·)
      | _, _ => none

/-- An event, with the motion that fusion does not read. -/
structure Telemetry where
  event : SensingEvent Double
  motion : Double
  deriving DecidableEq

variable (cv : Conversions)

/-- `bytes.fromhex(v)`. -/
def fromhex : Json Double → Except Raised (List UInt8)
  | .str s => match hexBytes s.toList with
    | some raw => .ok raw
    | none => .error .valueError
  | _ => .error .typeError

/-- `_num`: a finite number, and no bool. -/
def num : Json Double → Except Raised Bool
  | .int n => Double.isfinite <$> cv.numbers.widen n
  | .float x => pure x.isfinite
  | _ => pure false

/-- `float(d[k]) if _num(d.get(k)) else None`. -/
def optionalFloat (fields : List (String × Json Double)) (k : String) : Except Raised (Option Double) := do
  if ← num cv (Json.get fields k) then
    return some (← Json.toFloat cv.numbers (← Json.item fields k))
  else return none

/-- `_num(a) and _num(b)`. -/
def bothNum (a b : Json Double) : Except Raised Bool := do if ← num cv a then num cv b else pure false

/-- `float(v) if b else None`. -/
def floatIf (b : Bool) (v : Json Double) : Except Raised (Option Double) :=
  if b then some <$> Json.toFloat cv.numbers v else pure none

/-- The posture, where it is a text. -/
def postureOf (t : List (String × Json Double)) : Option String :=
  match Json.get t "posture" with
  | .str s => some s
  | _ => none

/-- Item `i` of `targets`; `none` is the `continue`. -/
def rawTarget (i : ℕ) (t : List (String × Json Double)) : Except Raised (Option (Target Double)) := do
  let x := Json.get t "x"
  let y := Json.get t "y"
  let hasPos ← bothNum cv x y
  let posture := postureOf t
  if ¬ hasPos ∧ posture = none then return none
  else
    let id ← Json.toInt cv.numbers ((t.lookup "id").getD (.int (i + 1)))
    let x ← floatIf cv hasPos x
    let y ← floatIf cv hasPos y
    let velocity ← optionalFloat cv t "velocity"
    let confidence ← optionalFloat cv t "confidence"
    return some
      { id, x, y, z := none, posture, velocity
        confidence := confidence.getD (.finite (5 / 10)), frame := "room" }

def rawTargets : ℕ → List (Json Double) → Except Raised (List (Target Double))
  | _, [] => pure []
  | i, .obj t :: items => do
    let target ← rawTarget cv i t
    return target.toList ++ (← rawTargets (i + 1) items)
  | i, _ :: items => rawTargets (i + 1) items

/-- A frame that does not parse is dropped. -/
def frameTargets : List (Json Double) → Except Raised (List (Target Double))
  | [] => pure []
  | hexframe :: frames => do
    let targets ← catching [.valueError, .typeError]
      (Mmwave.parseLd2450Frame Double.finite <$> fromhex hexframe) (pure [])
    return targets ++ (← frameTargets frames)

def payloadTargets (sensorType : String) (payload : List (String × Json Double)) :
    Except Raised (List (Target Double)) :=
  let frames := Json.get payload "ld2450_frames"
  if sensorType ∈ ["ld2450", "mmwave"] ∧ Json.truthy cv.numbers frames then
    match frames with
    | .arr frames => frameTargets (frames.take MAX_ARRAY)
    | _ => .error .typeError
  else
    match Json.orElse cv.numbers (Json.get payload "targets") (.arr []) with
    | .arr targets => rawTargets cv 0 (targets.take MAX_ARRAY)
    | _ => .error .typeError

/-- `max((t.velocity or 0.0 for t in targets), default=0.0)`. -/
def fastest (targets : List (Target Double)) : Double :=
  match targets.map fun t => (t.velocity.filter fun v => ! v.isZero).getD (.finite 0) with
  | [] => .finite 0
  | v :: vs => vs.foldl Double.max v

/-- What the payload says: the targets, whether somebody is there, the motion and how sure it is. -/
structure Reading where
  targets : List (Target Double)
  presence : Bool
  motion : Double
  rawConf : Double

/-- How sure a payload without targets is. -/
def presenceConf (presence : Bool) (payload : List (String × Json Double)) : Except Raised Double :=
  if presence then (fun c => c.getD (.finite (7 / 10))) <$> optionalFloat cv payload "confidence"
  else pure (.finite 0)

def readPayload (sensorType : String) (payload : List (String × Json Double)) : Except Raised Reading := do
  let targets ← payloadTargets cv sensorType payload
  if targets ≠ [] then
    return { targets, presence := true, motion := fastest targets, rawConf := Double.finite (9 / 10) }
  else
    let presence := Json.truthy cv.numbers (Json.get payload "presence")
    let motion ← optionalFloat cv payload "motion"
    let rawConf ← presenceConf cv presence payload
    return { targets, presence, motion := motion.getD (.finite 0), rawConf }

/-- `_clamp01`. -/
def clamp01 (v : Double) : Double :=
  if v.lt (.finite 0) then .finite 0 else if (Double.finite 1).lt v then .finite 1 else v

/-- A target of a sensor that cannot place one. -/
def withoutCoordinates (t : Target Double) : Target Double :=
  { t with x := none, y := none, z := none, frame := "room" }

/-- The event of a reading, in the name of the row. -/
def readingEvent (nodeId : String) (node : Node) (ts : String) (r : Reading) : Telemetry where
  event :=
    { room := node.room
      modality := node.modality
      presence := r.presence
      breathingBpm := none
      heartBpm := none
      confidence := Double.min (clamp01 r.rawConf) (.finite node.confidenceCap)
      ts
      targets :=
        if node.sensorType ∉ COUNTING_SENSORS ∧ r.targets ≠ [] then r.targets.map withoutCoordinates
        else r.targets
      identities := []
      count := if node.sensorType ∈ COUNTING_SENSORS then some r.targets.length else none
      sensorId := nodeId }
  motion := r.motion

/-- `utcnow` is the stamp of the clock, for a caller that gives none. -/
def nodeEvent (nodeId : String) (node : Node) (payload : List (String × Json Double))
    (nowIso : Option String) (utcnow : String) : Except Raised (Option Telemetry) :=
  if node.state ≠ .active ∨ ¬ truthy node.modality then pure none
  else
    let ts := (nowIso.filter truthy).getD utcnow
    catching [.typeError, .valueError, .overflowError]
      ((fun r => some (readingEvent nodeId node ts r)) <$> readPayload cv node.sensorType payload)
      (pure none)

/-! ## What reading a payload raises -/

section
variable {cv}

/-- A number that passes is finite, also as a double. -/
theorem meets_num (v : Json Double) :
    Meets (· ∈ CONVERSION_ERRORS) (fun b => b = true → ∃ q, Json.toFloat cv.numbers v = .ok (.finite q))
      (num cv v) := by
  cases v with
  | int n =>
    cases hn : cv.ofInt n with
    | none =>
      have hwiden : cv.numbers.widen n = .error .overflowError := by
        simp [Numbers.widen, Conversions.numbers, hn]
      rw [num, hwiden]
      exact List.mem_cons_of_mem _ (List.mem_cons_of_mem _ List.mem_cons_self)
    | some q =>
      have hwiden : cv.numbers.widen n = .ok (.finite q) := by
        simp [Numbers.widen, Conversions.numbers, hn]
      rw [num, hwiden]
      exact fun _ => ⟨q, hwiden⟩
  | float x =>
    refine Meets.pure fun hx => ?_
    cases x with
    | finite q => exact ⟨q, rfl⟩
    | nan => cases hx
    | inf negative => cases hx
  | _ => exact Meets.pure fun h => absurd h Bool.false_ne_true

theorem meets_optionalFloat (fields : List (String × Json Double)) (k : String) :
    Meets (· ∈ CONVERSION_ERRORS) (fun v => ∀ x, v = some x → ∃ q, x = .finite q)
      (optionalFloat cv fields k) := by
  refine (meets_num (Json.get fields k)).bind fun b hb => ?_
  cases b with
  | false => exact Meets.pure nofun
  | true =>
    obtain ⟨q, hq⟩ := hb rfl
    have hitem : Json.item fields k = .ok (Json.get fields k) := by
      refine Json.item_eq fun hnull => ?_
      rw [hnull] at hq
      cases hq
    have hvalue : (Json.item fields k >>= Json.toFloat cv.numbers) = .ok (.finite q) := by
      rw [hitem]
      exact hq
    simp only [if_true, ← bind_assoc, hvalue]
    refine Meets.pure fun x hx => ⟨q, ?_⟩
    cases hx
    rfl

/-- A conversion of what passes as a number. -/
theorem meets_floatIf {b : Bool} {v : Json Double}
    (hb : b = true → ∃ q, Json.toFloat cv.numbers v = .ok (.finite q)) :
    Meets (· ∈ CONVERSION_ERRORS) (fun _ => True) (floatIf cv b v) := by
  unfold floatIf
  cases b with
  | false => exact Meets.pure trivial
  | true =>
    obtain ⟨q, hq⟩ := hb rfl
    rw [if_pos rfl, hq]
    trivial

theorem meets_rawTarget (i : ℕ) (t : List (String × Json Double)) :
    Meets (· ∈ CONVERSION_ERRORS) (fun _ => True) (rawTarget cv i t) := by
  have hpos : Meets (· ∈ CONVERSION_ERRORS)
      (fun b => b = true → (∃ q, Json.toFloat cv.numbers (Json.get t "x") = .ok (.finite q)) ∧
        ∃ q, Json.toFloat cv.numbers (Json.get t "y") = .ok (.finite q))
      (bothNum cv (Json.get t "x") (Json.get t "y")) := by
    refine (meets_num _).bind fun b hx => ?_
    cases b with
    | false => exact Meets.pure nofun
    | true => exact (meets_num _).mono fun _ hy h => ⟨hx rfl, hy h⟩
  unfold rawTarget
  refine hpos.bind fun b hb => ?_
  dsimp only
  split
  · exact Meets.pure trivial
  · refine (Json.meets_toInt cv _).bind fun id _ => ?_
    refine (meets_floatIf fun h => (hb h).1).bind fun x _ => ?_
    refine (meets_floatIf fun h => (hb h).2).bind fun y _ => ?_
    refine (meets_optionalFloat t "velocity").bind fun velocity _ => ?_
    exact (meets_optionalFloat t "confidence").bind fun confidence _ => Meets.pure trivial

theorem meets_rawTargets (i : ℕ) (items : List (Json Double)) :
    Meets (· ∈ CONVERSION_ERRORS) (fun _ => True) (rawTargets cv i items) := by
  induction items generalizing i with
  | nil => exact Meets.pure trivial
  | cons v items ih =>
    cases v with
    | obj t =>
      exact (meets_rawTarget i t).bind fun target _ => (ih (i + 1)).bind fun _ _ => Meets.pure trivial
    | _ => exact ih (i + 1)

theorem meets_frameTargets (frames : List (Json Double)) :
    Meets (· ∈ CONVERSION_ERRORS) (fun _ => True) (frameTargets frames) := by
  induction frames with
  | nil => exact Meets.pure trivial
  | cons v frames ih =>
    have hfromhex : Meets (· ∈ [Raised.valueError, .typeError]) (fun _ => True) (fromhex v) := by
      cases v with
      | str s =>
        unfold fromhex
        dsimp only
        split
        · trivial
        · exact List.mem_cons_self
      | _ => exact List.mem_cons_of_mem _ List.mem_cons_self
    have hframe := Meets.catching (E := (· ∈ CONVERSION_ERRORS))
      (hfromhex.map (f := Mmwave.parseLd2450Frame Double.finite) (Q := fun _ => True) fun _ _ => trivial)
      (Meets.pure (a := []) trivial)
    exact hframe.bind fun _ _ => ih.bind fun _ _ => Meets.pure trivial

theorem meets_payloadTargets (sensorType : String) (payload : List (String × Json Double)) :
    Meets (· ∈ CONVERSION_ERRORS) (fun _ => True) (payloadTargets cv sensorType payload) := by
  unfold payloadTargets
  dsimp only
  split
  · split
    · exact meets_frameTargets _
    · exact List.mem_cons_self
  · split
    · exact meets_rawTargets _ _
    · exact List.mem_cons_self

theorem meets_presenceConf (presence : Bool) (payload : List (String × Json Double)) :
    Meets (· ∈ CONVERSION_ERRORS) (fun c => ∃ q, c = .finite q) (presenceConf cv presence payload) := by
  unfold presenceConf
  split
  · refine (meets_optionalFloat payload "confidence").map fun c hc => ?_
    cases c with
    | none => exact ⟨_, rfl⟩
    | some x => exact hc x rfl
  · exact Meets.pure ⟨_, rfl⟩

/-- What is read has a finite confidence. -/
theorem meets_readPayload (cv : Conversions) (sensorType : String) (payload : List (String × Json Double)) :
    Meets (· ∈ CONVERSION_ERRORS) (fun r => ∃ q, r.rawConf = .finite q)
      (readPayload cv sensorType payload) := by
  unfold readPayload
  refine (meets_payloadTargets sensorType payload).bind fun targets _ => ?_
  split
  · exact Meets.pure ⟨_, rfl⟩
  · refine (meets_optionalFloat payload "motion").bind fun motion _ => ?_
    exact (meets_presenceConf _ payload).bind fun c hc => Meets.pure hc

theorem clamp01_finite (q : ℚ) : ∃ p, clamp01 (.finite q) = .finite p ∧ 0 ≤ p := by
  unfold clamp01
  split
  · exact ⟨0, rfl, le_rfl⟩
  · rename_i hneg
    split
    · exact ⟨1, rfl, zero_le_one⟩
    · exact ⟨q, rfl, by simpa [Double.lt] using hneg⟩

theorem min_finite {p cap : ℚ} (hp : 0 ≤ p) (hcap : 0 ≤ cap) :
    ∃ c, Double.min (.finite p) (.finite cap) = .finite c ∧ 0 ≤ c ∧ c ≤ cap := by
  unfold Double.min
  split
  · exact ⟨cap, rfl, hcap, le_rfl⟩
  · rename_i hle
    exact ⟨p, rfl, hp, by simpa [Double.lt] using hle⟩

end

/-! ## The cap of a row -/

section
variable {pf : Platform} {s : NodeStore} {n : String} {r : Node}

theorem cap_nonneg_lookup (transport : String) : 0 ≤ (TRANSPORT_CAP.lookup transport).getD (7 / 10) := by
  have hdefault : (0 : ℚ) ≤ 7 / 10 := by decide +kernel
  have hall : ∀ e ∈ TRANSPORT_CAP, 0 ≤ e.2 := by decide +kernel
  exact Dict.getD_lookup (P := fun cap => 0 ≤ cap) hdefault hall transport

/-- A row that a call inserts has a cap that is not negative. -/
theorem cap_of_new {op : Op} (hnone : s.nodes.get? n = none) (hr : (step pf s op).nodes.get? n = some r) :
    0 ≤ r.confidenceCap := by
  have hdraws : Draws op n := by
    by_contra hd
    rw [get?_step_none pf hnone hd] at hr
    cases hr
  rcases hdraws with ⟨token, ts, name, sensorType, room, transport, cert, rfl⟩ |
    ⟨now, rid, ts, nameHint, sensorHint, cert, rfl⟩
  · simp only [step, add] at hr
    split at hr
    · rw [hnone] at hr
      cases hr
    · rename_i nodes' hins
      rw [(get?_insertNode hins).2, if_pos rfl] at hr
      cases hr
      exact cap_nonneg_lookup transport
  · simp only [step, requestJoin] at hr
    split at hr
    · rw [get?_prunePendingLocked_none pf now hnone] at hr
      cases hr
    · rename_i nodes' hins
      rw [(get?_insertNode hins).2, if_pos rfl] at hr
      have hcap : r.confidenceCap = 1 := by rw [← Option.some.inj hr]
      rw [hcap]
      exact zero_le_one

theorem RowWrite.cap {op : Op} {r' : Node} (h : RowWrite s op n r r') (hcap : 0 ≤ r.confidenceCap) :
    0 ≤ r'.confidenceCap := by
  cases h with
  | redrawn hd hpend h => rw [h.cap]; exact zero_le_one
  | approved hash name sensorType room transport hpend h => subst h; exact cap_nonneg_lookup transport
  | kept h => subst h; exact hcap
  | seen ts h => subst h; exact hcap
  | counted seq hop hlt h => subst h; exact hcap
  | disabled hlive h => subst h; exact hcap
  | pressed now p hop hlt h hret => subst h; exact hcap
  | revoked h => subst h; exact hcap
  | collected h => subst h; exact hcap
  | requeued hq h => subst h; exact hcap

/-- Caps of stored rows are not negative. -/
theorem cap_nonneg {ops : List Op} (hr : (finish (step pf) emptyStore ops).nodes.get? n = some r) :
    0 ≤ r.confidenceCap := by
  revert r
  refine history_induction
    (R := fun _ (s : NodeStore) => ∀ {r}, s.nodes.get? n = some r → 0 ≤ r.confidenceCap) ?_ ?_ ops
  · intro r hr
    simp [emptyStore] at hr
  intro ops op ih r' hr'
  cases hold : (finish (step pf) emptyStore ops).nodes.get? n with
  | none => exact cap_of_new hold hr'
  | some row =>
    rcases rowWritten pf _ op hold with ⟨hnone, -⟩ | ⟨q, hq, hwrite⟩
    · rw [hnone] at hr'
      cases hr'
    · rw [hq] at hr'
      cases hr'
      exact hwrite.cap (ih hold)

end

/-! ## The event -/

theorem x_withoutCoordinates {sensorType : String} {targets : List (Target Double)} {t : Target Double}
    (hcount : sensorType ∉ COUNTING_SENSORS)
    (ht : t ∈ if sensorType ∉ COUNTING_SENSORS ∧ targets ≠ [] then targets.map withoutCoordinates
      else targets) : t.x = none ∧ t.y = none ∧ t.z = none := by
  split at ht
  · obtain ⟨t', -, rfl⟩ := List.mem_map.mp ht
    exact ⟨rfl, rfl, rfl⟩
  · rename_i hnil
    rw [not_and_not_right.mp hnil hcount] at ht
    cases ht

/-- Telemetry of a stored node raises nothing. Its event has the names of the row, a confidence up to
the cap of the row, and a coordinate or a count where the sensor of the row counts. -/
theorem node_event_bounded (pf : Platform) (cv : Conversions) (ops : List Op) (nodeId : String)
    (node : Node) (hstored : (finish (step pf) emptyStore ops).nodes.get? nodeId = some node)
    (payload : List (String × Json Double)) (nowIso : Option String) (utcnow : String) :
    ∃ out, nodeEvent cv nodeId node payload nowIso utcnow = .ok out ∧ ∀ e, out = some e →
      e.event.room = node.room ∧ e.event.modality = node.modality ∧ e.event.sensorId = nodeId ∧
      (∃ q, e.event.confidence = .finite q ∧ 0 ≤ q ∧ q ≤ node.confidenceCap) ∧
      (e.event.count ≠ none ∨ (∃ t ∈ e.event.targets, t.x ≠ none ∨ t.y ≠ none ∨ t.z ≠ none) →
        node.sensorType ∈ COUNTING_SENSORS) := by
  have hcap := cap_nonneg hstored
  apply Meets.exists_ok
  unfold nodeEvent
  split
  · exact Meets.pure fun e he => nomatch he
  · have hread := meets_readPayload cv node.sensorType payload
    refine Meets.catching (hread.map fun r hfinite => ?_) (Meets.pure fun e he => nomatch he)
    intro e he
    cases he
    refine ⟨rfl, rfl, rfl, ?_, fun hplaces => ?_⟩
    · obtain ⟨q, hq⟩ := hfinite
      obtain ⟨p, hp, hpos⟩ := clamp01_finite q
      have hmin := min_finite hpos hcap
      rw [← hp, ← hq] at hmin
      exact hmin
    · by_contra hcount
      rcases hplaces with h | ⟨t, ht, h⟩
      · exact h (if_neg hcount)
      · obtain ⟨hx, hy, hz⟩ := x_withoutCoordinates hcount ht
        rcases h with h | h | h
        · exact h hx
        · exact h hy
        · exact h hz

/-- Small integers are doubles. -/
def sampleConversions : Conversions where
  ofInt n := some n
  floatOfStr _ := none
  intOfStr _ := none

/-- A motion sensor is enrolled. -/
def samplePir : List Op :=
  [.add "n2" "token-2" "1970-01-01T00:00:00+00:00" "Door" "pir" "hall" "native" ""]

/-- It says where somebody is, and that they stand. -/
def samplePosture : List (String × Json Double) :=
  [("targets", .arr [.obj [("x", .int 5), ("y", .int 5), ("posture", .str "standing")]])]

def samplePirRow : Node where
  name := "Door"
  sensorType := "pir"
  modality := "pir"
  room := "hall"
  transport := "native"
  tokenHash := some "0f6bffa9661cb5dd2f3f7b2929f33061f58a7ba7fdd689530b1a306f8ed8f3ec"
  certFingerprint := ""
  confidenceCap := 1
  state := .active
  pressCount := 0
  lastSeq := 0
  lastSeenTs := none
  createdTs := "1970-01-01T00:00:00+00:00"
  nameHint := ""
  sensorHint := ""
  requestId := none

theorem node_event_bounded_sample :
    ∃ out, nodeEvent sampleConversions "n2" samplePirRow samplePosture none "1970-01-01T00:00:01+00:00" =
        .ok out ∧ ∀ e, out = some e →
      e.event.room = "hall" ∧ e.event.modality = "pir" ∧ e.event.sensorId = "n2" ∧
      (∃ q, e.event.confidence = .finite q ∧ 0 ≤ q ∧ q ≤ 1) ∧
      (e.event.count ≠ none ∨ (∃ t ∈ e.event.targets, t.x ≠ none ∨ t.y ≠ none ∨ t.z ≠ none) →
        "pir" ∈ COUNTING_SENSORS) :=
  node_event_bounded samplePlatform sampleConversions samplePir "n2" samplePirRow (by decide +kernel)
    samplePosture none "1970-01-01T00:00:01+00:00"

/-- The posture of a sensor that cannot place anybody stays, on a target without coordinates. -/
theorem posture_without_place :
    (finish (step samplePlatform) emptyStore samplePir).nodes.get? "n2" = some samplePirRow ∧
      samplePirRow.sensorType ∉ COUNTING_SENSORS ∧
      ((nodeEvent sampleConversions "n2" samplePirRow samplePosture none
        "1970-01-01T00:00:01+00:00").toOption.join.map fun e => e.event.targets) =
        some [⟨1, none, none, none, some "standing", none, .finite (5 / 10), "room"⟩] := by
  refine ⟨by decide +kernel, by decide, by decide +kernel⟩

end Wavr.Nodes
