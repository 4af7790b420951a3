import Wavr.Rules

/-!
# The occupied and vacant events of a room

The events of a room are the flips between its readings, those left out at which the room could not be
spoken of.
-/

namespace Wavr.Rules
open Flips Run

variable (cfg : Config) (room : String)

/-- A reading of a room that is available when it is read. -/
def reading (e : RulesEngine) : Op → Option (String × Bool)
  | .handle rs now pull =>
    if available rs.room (noticed cfg rs now pull e).2 then some (rs.room, rs.occupied) else none
  | .handleCoverage _ => none

def readings (e : RulesEngine) (ops : List Op) : List Bool :=
  outputsFor (step cfg) (reading cfg) room e ops

/-- The events that are published for the room. -/
def events (out : List Output) : List Bool :=
  (out.filterMap Output.event?).filterMap fun e => if e.1 = room then some e.2 else none

section
variable {cfg room} {e : RulesEngine} {op : Op}

theorem filterMap_eq_nil_of_silent {out : List Output} (h : ∀ o ∈ out, o.event? = none ∧ o.called? = none) :
    out.filterMap Output.event? = [] ∧ out.filterMap Output.called? = [] :=
  ⟨List.filterMap_eq_nil_iff.mpr fun o ho => (h o ho).1, List.filterMap_eq_nil_iff.mpr fun o ho => (h o ho).2⟩

/-- A call without a reading is quiet. -/
theorem quiet_call (h : reading cfg e op = none) : Quiet e (call cfg e op) := by
  cases op with
  | handle rs now pull =>
    cases hav : available rs.room (noticed cfg rs now pull e).2 with
    | false => exact quiet_handle hav
    | true => simp [reading, hav] at h
  | handleCoverage s => exact quiet_applyCoverage s e

/-- A reading moves the edge of its room. What it publishes of flips, it calls. -/
theorem call_of_reading {r : String} {b : Bool} (h : reading cfg e op = some (r, b)) :
    (step cfg e op).last = e.last.set r b ∧
      (call cfg e op).1.filterMap Output.event? =
        (if e.last.get? r = some (! b) then [(r, b)] else []) ∧
      (cfg.onEdge = true →
        (call cfg e op).1.filterMap Output.called? = (call cfg e op).1.filterMap Output.event?) := by
  cases op with
  | handleCoverage s => cases h
  | handle rs now pull =>
    cases hav : available rs.room (noticed cfg rs now pull e).2 with
    | false => simp [reading, hav] at h
    | true =>
      simp only [reading, hav, if_true, Option.some.injEq, Prod.mk.injEq] at h
      obtain ⟨rfl, rfl⟩ := h
      obtain ⟨hlast, out, hsilent, hout⟩ := handle_available hav
      obtain ⟨hevent, hcalled⟩ := filterMap_eq_nil_of_silent hsilent
      refine ⟨hlast, ?_, fun hwired => ?_⟩
      · rw [call, hout, List.filterMap_append, hevent, List.nil_append]
        unfold edge
        cases e.last.get? rs.room with
        | none => rfl
        | some prev => cases prev <;> cases rs.occupied <;> cases cfg.onEdge <;> rfl
      · rw [call, hout, List.filterMap_append, List.filterMap_append, hevent, hcalled]
        unfold edge
        rw [hwired]
        cases e.last.get? rs.room with
        | none => rfl
        | some prev => cases prev <;> cases rs.occupied <;> rfl

theorem events_append (out out' : List Output) :
    events room (out ++ out') = events room out ++ events room out' := by
  unfold events
  rw [List.filterMap_append, List.filterMap_append]

theorem differs_iff {last : Option Bool} {b : Bool} : (∃ a ∈ last, a ≠ b) ↔ last = some (! b) := by
  cases last with
  | none => simp
  | some a => cases a <;> cases b <;> simp

/-- Over a run the events are the flips of the readings. -/
theorem events_emitted (e : RulesEngine) (ops : List Op) :
    events room (emitted cfg e ops) = flipsFrom (e.last.get? room) (readings cfg room e ops) := by
  induction ops generalizing e with
  | nil => exact flipsFrom_nil.symm
  | cons op ops ih =>
    change events room ((call cfg e op).1 ++ emitted cfg (step cfg e op) ops) = _
    rw [events_append, ih]
    cases hread : reading cfg e op with
    | none =>
      have hquiet := quiet_call hread
      have hsame : (step cfg e op).last = e.last := hquiet.last
      have hcons : readings cfg room e (op :: ops) = readings cfg room (step cfg e op) ops :=
        outputsFor_cons_of_none (by simp [hread])
      rw [events, (filterMap_eq_nil_of_silent hquiet.silent).1, hsame, hcons]
      rfl
    | some rb =>
      obtain ⟨r, b⟩ := rb
      obtain ⟨hlast, hevent, -⟩ := call_of_reading hread
      rw [events, hevent, hlast]
      by_cases hr : r = room
      · subst hr
        have hcons : readings cfg r e (op :: ops) = b :: readings cfg r (step cfg e op) ops :=
          outputsFor_cons_of_some hread
        rw [Dict.get?_set_self, hcons, flipsFrom_cons]
        refine congrArg (· ++ _) ?_
        by_cases hflip : e.last.get? r = some (! b)
        · rw [if_pos hflip, if_pos (differs_iff.mpr hflip)]
          simp
        · rw [if_neg hflip, if_neg fun h => hflip (differs_iff.mp h)]
          rfl
      · have hcons : readings cfg room e (op :: ops) = readings cfg room (step cfg e op) ops :=
          outputsFor_cons_of_none (by simp [hread, hr])
        rw [Dict.get?_set_ne _ (Ne.symm hr), hcons]
        split <;> simp [hr]

theorem called_emitted (hwired : cfg.onEdge = true) (e : RulesEngine) (ops : List Op) :
    (emitted cfg e ops).filterMap Output.called? = (emitted cfg e ops).filterMap Output.event? := by
  induction ops generalizing e with
  | nil => rfl
  | cons op ops ih =>
    change ((call cfg e op).1 ++ emitted cfg (step cfg e op) ops).filterMap _ =
      ((call cfg e op).1 ++ emitted cfg (step cfg e op) ops).filterMap _
    rw [List.filterMap_append, List.filterMap_append, ih]
    cases hread : reading cfg e op with
    | none =>
      obtain ⟨hevent, hcalled⟩ := filterMap_eq_nil_of_silent (quiet_call hread).silent
      rw [hevent, hcalled]
    | some rb => rw [(call_of_reading hread).2.2 hwired]

end

/-- The events of a room are the flips between its consecutive available readings; so they alternate,
and there is none at a reading of a room that is not available. `on_edge` is called with the same. -/
theorem edges_honest (ops : List Op) :
    (events room (emitted cfg newEngine ops)).IsChain (· ≠ ·) ∧
    events room (emitted cfg newEngine ops) = flips (readings cfg room newEngine ops) ∧
    AllSteps (step cfg) (fun e op => ∀ rs now pull, op = .handle rs now pull →
      available rs.room (noticed cfg rs now pull e).2 = false →
      ∀ o ∈ (call cfg e op).1, o.event? = none) newEngine ops ∧
    (cfg.onEdge = true → (emitted cfg newEngine ops).filterMap Output.called? =
      (emitted cfg newEngine ops).filterMap Output.event?) := by
  have hflips : events room (emitted cfg newEngine ops) = flips (readings cfg room newEngine ops) :=
    events_emitted newEngine ops
  refine ⟨?_, hflips, ?_, fun hwired => called_emitted hwired newEngine ops⟩
  · rw [hflips]
    exact isChain_flips _
  · refine allSteps_of_forall fun op _ e rs now pull hop hblind o ho => ?_
    subst hop
    exact ((quiet_handle hblind).silent o ho).1

end Wavr.Rules
