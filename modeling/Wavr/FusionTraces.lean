import Wavr.FusionHiding

/-!
# Traces of a person move no presence

Two runs whose events differ in identities, vitals and targets decide presence alike: every step
commutes with the hiding of the traces, and no reply tells the difference.
-/

namespace Wavr.Fusion
open Run

variable {R : Type} {ar : Arith R} {asUtc : String → Option ℤ}

/-- What two runs may differ in. -/
inductive Traces
  | identities
  /-- Identities, vitals and targets. -/
  | all
  deriving DecidableEq

/-! ## Hiding -/

def SensingEvent.without (k : Traces) (e : SensingEvent R) : SensingEvent R :=
  match k with
  | .identities => { e with identities := [] }
  | .all => { e with identities := [], breathingBpm := none, heartBpm := none, targets := [] }

def Traces.targets (k : Traces) (ts : List (Target R)) : List (Target R) :=
  match k with
  | .identities => ts
  | .all => []

/-- Of a room state without targets, the rung says nothing either: it reads them. -/
def RoomState.without (k : Traces) (rs : RoomState R) : RoomState R :=
  match k with
  | .identities => { rs with identities := [] }
  | .all =>
    { rs with
      identities := [], vitals := none, targets := []
      precisionLevel := .none, precisionPct := 0, precisionNext := none }

def Reply.without (k : Traces) : Reply R → Reply R
  | .fused rs => .fused (rs.without k)
  | .unfused why => .unfused why

def Call.without (k : Traces) (call : Call R) : Call R :=
  match call.op with
  | .update e => { call with op := .update (e.without k) }
  | .state _ => call

theorem SensingEvent.without_ts (k : Traces) (e : SensingEvent R) : (e.without k).ts = e.ts := by
  cases k <;> rfl

def Stored.without (k : Traces) (e : Stored (R := R) asUtc) : Stored (R := R) asUtc :=
  ⟨e.event.without k, e.utc, by rw [SensingEvent.without_ts]; exact e.parsed⟩

def Latch.without (k : Traces) (l : Latch R) : Latch R := { l with targets := k.targets l.targets }

def Engine.without (k : Traces) (s : Engine (R := R) asUtc) : Engine (R := R) asUtc where
  latest := s.latest.mapValues fun sensors => sensors.mapValues (Stored.without k)
  occupiedState := s.occupiedState
  vacateSince := s.vacateSince
  countLatch := s.countLatch.mapValues (Latch.without k)

def Headcount.without (k : Traces) (h : Headcount R) : Headcount R :=
  { h with targets := k.targets h.targets }

/-! ## Traces as a hiding -/

def Traces.hiding : Traces → Hiding
  | .identities => ⟨false, false⟩
  | .all => ⟨true, true⟩

theorem SensingEvent.without_eq (k : Traces) (e : SensingEvent R) : e.without k = e.hide k.hiding := by
  cases k <;> rfl

theorem RoomState.without_eq (k : Traces) (rs : RoomState R) : rs.without k = rs.hide k.hiding := by
  cases k <;> rfl

theorem Reply.without_eq (k : Traces) : (Reply.without k : Reply R → Reply R) = Reply.hide k.hiding := by
  funext r
  cases r with
  | fused rs => exact congrArg Reply.fused (rs.without_eq k)
  | unfused why => rfl

theorem Call.without_eq (k : Traces) : (Call.without k : Call R → Call R) = Call.hide k.hiding := by
  funext call
  obtain ⟨op, env⟩ := call
  cases op with
  | update e => exact congrArg (fun e => Call.mk (.update e) env) (e.without_eq k)
  | state room => rfl

theorem Stored.without_eq (k : Traces) (e : Stored (R := R) asUtc) : e.without k = e.hide k.hiding := by
  cases k <;> rfl

theorem Latch.without_eq (k : Traces) (l : Latch R) : l.without k = l.hide k.hiding := by
  cases k <;> rfl

theorem Engine.without_eq (k : Traces) (s : Engine (R := R) asUtc) : s.without k = s.hide k.hiding := by
  cases k <;> rfl

theorem Headcount.without_eq (k : Traces) (head : Headcount R) : head.without k = head.hide k.hiding := by
  cases k <;> rfl

/-! ## A call, and two runs -/

section
variable (k : Traces) (s : Engine (R := R) asUtc) (cfg : Config ar)

theorem headcount_without (env : Env R) (room : String) (ref : ℤ) : headcount cfg env room ref (s.without k) =
    ((headcount cfg env room ref s).1.without k, (headcount cfg env room ref s).2.without k) := by
  rw [Engine.without_eq, headcount_hide, Headcount.without_eq, Engine.without_eq]

theorem run_without (call : Call R) :
    (run cfg (call.without k) (s.without k)).1.without k = (run cfg call s).1.without k ∧
      (run cfg (call.without k) (s.without k)).2 = (run cfg call s).2.without k := by
  rw [Call.without_eq, Reply.without_eq, Engine.without_eq, Engine.without_eq]
  exact run_hide k.hiding s cfg call

end

theorem replies_without (cfg : Config ar) (k : Traces) (calls : List (Call R)) :
    (replies cfg asUtc (calls.map (Call.without k))).map (Reply.without k) =
      (replies cfg asUtc calls).map (Reply.without k) := by
  rw [Call.without_eq, Reply.without_eq]
  exact replies_hide cfg k.hiding calls

/-- Runs whose calls differ in nothing but the traces reply alike but for the traces. -/
theorem replies_eq (cfg : Config ar) (k : Traces) {calls calls' : List (Call R)}
    (h : calls.map (Call.without k) = calls'.map (Call.without k)) :
    (replies cfg asUtc calls).map (Reply.without k) =
      (replies cfg asUtc calls').map (Reply.without k) := by
  rw [← replies_without, h, replies_without]

/-- The unsure camera again: it places nobody, and names somebody. -/
def named : Call ℚ :=
  ⟨.update { sighting "camera" "door" true (1 / 8) none with
      identities := [⟨"ana", "ble", some (-60)⟩] },
    clockAt 1767225600000000⟩

theorem unsure_named : (replies defaultConfig parse [unsure]).map (Reply.without .all) =
    (replies defaultConfig parse [named]).map (Reply.without .all) :=
  replies_eq defaultConfig .all rfl

end Wavr.Fusion
