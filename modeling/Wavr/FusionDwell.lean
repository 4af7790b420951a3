import Wavr.FusionRooms

/-!
# The occupancy dwell

The fuses of one room, in order: occupied at once, vacant only after the grace.
-/

namespace Wavr.Fusion
open Run

variable {R : Type} {ar : Arith R} {asUtc : String → Option ℤ}

/-! ## One fuse -/

section
variable (cfg : Config ar) (room : String) (ref : ℤ) (raw : Bool) (s : Engine (R := R) asUtc)

/-- When the pending vacate of the room began. -/
def started : ℤ := (s.vacateSince.get? room).getD ref

def elapsed (ar : Arith R) (room : String) (ref : ℤ) (s : Engine (R := R) asUtc) : R :=
  ar.max (ar.lit 0) (ar.seconds (ref - started room ref s))

/-- What a fuse does to the dwell of its room. -/
inductive Dwelt : (Bool × Option R) × Engine (R := R) asUtc → Prop
  | raised {s'} (hraw : raw = true) (hsince : s'.vacateSince.get? room = none) :
    Dwelt ((true, none), s')
  | vacant {s'} (hraw : raw = false) (hwas : s.occupiedState.get? room ≠ some true)
    (hsince : s'.vacateSince.get? room = none) : Dwelt ((false, none), s')
  | cleared {s'} (hraw : raw = false) (hwas : s.occupiedState.get? room = some true)
    (hover : ar.le cfg.vacateS (ar.lit 0) = true ∨
      ar.le cfg.vacateS (elapsed ar room ref s) = true)
    (hsince : s'.vacateSince.get? room = none) : Dwelt ((false, none), s')
  | held {s'} (hraw : raw = false) (hwas : s.occupiedState.get? room = some true)
    (hgrace : ar.le cfg.vacateS (ar.lit 0) = false)
    (hleft : ar.le cfg.vacateS (elapsed ar room ref s) = false)
    (hsince : s'.vacateSince.get? room = some (started room ref s)) :
    Dwelt ((true, some (ar.sub cfg.vacateS (elapsed ar room ref s))), s')

theorem debounceOccupancy_dwelt :
    Dwelt cfg room ref raw s (debounceOccupancy cfg room ref raw s) := by
  unfold debounceOccupancy
  dsimp only
  split
  · rename_i hraw
    exact .raised hraw (by simp)
  · rename_i hraw
    have hraw : raw = false := Bool.eq_false_of_not_eq_true hraw
    split
    · rename_i hwas
      exact .vacant hraw hwas (by simp)
    · rename_i hwas
      have hwas := not_not.mp hwas
      split
      · rename_i hover
        exact .cleared hraw hwas (Bool.or_eq_true _ _ ▸ hover) (by simp)
      · rename_i hover
        rw [Bool.not_eq_true, Bool.or_eq_false_iff] at hover
        exact .held hraw hwas hover.1 hover.2 (by simp [started])

theorem debounceOccupancy_remembers : (debounceOccupancy cfg room ref raw s).2.occupiedState.get? room =
    some (debounceOccupancy cfg room ref raw s).1.1 := by
  unfold debounceOccupancy
  dsimp only
  split_ifs <;> simp

/-- The other rooms keep their dwell. -/
theorem debounceOccupancy_other {room' : String} (h : room' ≠ room) :
    (debounceOccupancy cfg room ref raw s).2.occupiedState.get? room' = s.occupiedState.get? room' ∧
    (debounceOccupancy cfg room ref raw s).2.vacateSince.get? room' = s.vacateSince.get? room' := by
  unfold debounceOccupancy
  dsimp only
  split_ifs <;> simp [h]

end

/-! ## The fuses of a room -/

/-- One fuse of a room: its reference, its raw condition, what is left of a pending vacate, and
the room state it returns. -/
structure Fused (R : Type) where
  ref : ℤ
  raw : Bool
  pending : Option R
  state : RoomState R

section
variable (cfg : Config ar) (room : String)

def fusedAt (env : Env R) (ts : String) (s : Engine (R := R) asUtc) : Fused R where
  ref := reference asUtc env ts
  raw := rawOccupied cfg env room (reference asUtc env ts) (s.events room)
  pending := (dwell cfg env room (reference asUtc env ts) s).1.2
  state := (fuse cfg env room ts s).1

/-- The fuse of the room that a call makes, if it makes one. -/
def fused? (s : Engine (R := R) asUtc) (call : Call R) : Option (Fused R) :=
  match begin call s with
  | (.error _, _) => none
  | (.ok (room', ts), s) => if room' = room then some (fusedAt cfg room call.env ts s) else none

/-- The fuses of the room in a run, in order. -/
def fusesOf (asUtc : String → Option ℤ) (calls : List (Call R)) : List (Fused R) :=
  outputs (step cfg) (fused? cfg room) (newEngine (R := R) asUtc) calls

/-- Since the fuse at `t`, none has met the raw condition. -/
def UnmetSince (fuses : List (Fused R)) (t : ℤ) : Prop :=
  ∃ old h since, fuses = old ++ h :: since ∧ h.ref = t ∧ ∀ g ∈ h :: since, g.raw = false

/-- The room was occupied at the last fuse. -/
def wasOccupied (before : List (Fused R)) : Bool := before.getLast?.any (·.state.occupied)

/-- What a fuse owes to the fuses before it. -/
structure DwellRule (before : List (Fused R)) (f : Fused R) : Prop where
  /-- Where it was not occupied, it is exactly where the raw condition holds. -/
  raised : wasOccupied before = false → f.state.occupied = f.raw
  /-- It goes vacant only without a grace, or after one that no fuse broke. -/
  cleared : wasOccupied before = true → f.state.occupied = false →
    ar.le cfg.vacateS (ar.lit 0) = true ∨ ∃ t, UnmetSince (before ++ [f]) t ∧
      ar.le cfg.vacateS (ar.seconds (f.ref - t)) = true
  pending : ∀ p, f.pending = some p → ar.lt (ar.lit 0) p = true ∧ ar.le p cfg.vacateS = true

/-- Every fuse of the room in the run keeps the rule. -/
def KeepsDwell (asUtc : String → Option ℤ) (calls : List (Call R)) : Prop :=
  ∀ before f, before ++ [f] <+: fusesOf cfg room asUtc calls → DwellRule cfg before f

/-- The engine's dwell of the room, and the fuses it comes from. -/
structure DwellsBy (fuses : List (Fused R)) (s : Engine (R := R) asUtc) : Prop where
  last : s.occupiedState.get? room = fuses.getLast?.map (·.state.occupied)
  since : ∀ t, s.vacateSince.get? room = some t → UnmetSince fuses t

end

theorem UnmetSince.snoc {fuses : List (Fused R)} {t : ℤ} {f : Fused R} (h : UnmetSince fuses t)
    (hf : f.raw = false) : UnmetSince (fuses ++ [f]) t := by
  obtain ⟨old, g, since, rfl, ht, hall⟩ := h
  refine ⟨old, g, since ++ [f], by simp, ht, fun g' hg' => ?_⟩
  rcases List.mem_append.mp (List.cons_append ▸ hg') with hold | hnew
  · exact hall g' hold
  · rw [List.mem_singleton.mp hnew]
    exact hf

section
variable {cfg : Config ar} {room : String} {fuses : List (Fused R)} {s : Engine (R := R) asUtc}

theorem DwellsBy.wasOccupied_iff (h : DwellsBy room fuses s) :
    wasOccupied fuses = true ↔ s.occupiedState.get? room = some true := by
  rw [h.last, wasOccupied]
  cases fuses.getLast? <;> simp

/-- Only the dwell of the room itself matters. -/
theorem DwellsBy.congr (h : DwellsBy room fuses s) {s' : Engine (R := R) asUtc}
    (hocc : s'.occupiedState.get? room = s.occupiedState.get? room)
    (hsince : s'.vacateSince.get? room = s.vacateSince.get? room) : DwellsBy room fuses s' where
  last := hocc.trans h.last
  since t ht := h.since t (hsince.symm.trans ht)

/-- A pending vacate is as old as the first of the fuses it has lasted for. -/
theorem DwellsBy.started (h : DwellsBy room fuses s) {f : Fused R} (hf : f.raw = false) :
    UnmetSince (fuses ++ [f]) (started room f.ref s) := by
  unfold Fusion.started
  cases hs : s.vacateSince.get? room with
  | some t => exact (h.since t hs).snoc hf
  | none => exact ⟨fuses, f, [], rfl, rfl, by simpa using hf⟩

/-- The clamp at zero costs nothing: a grace of zero is over anyway. -/
theorem grace_over {ref : ℤ} (h : ar.le cfg.vacateS (elapsed ar room ref s) = true) :
    ar.le cfg.vacateS (ar.lit 0) = true ∨
      ar.le cfg.vacateS (ar.seconds (ref - started room ref s)) = true := by
  unfold elapsed Arith.max at h
  split at h
  · exact .inr h
  · exact .inl h

variable (cfg room) (env : Env R) (ts : String)

theorem fusedAt_dwelt (s : Engine (R := R) asUtc) :
    Dwelt cfg room (reference asUtc env ts) (fusedAt cfg room env ts s).raw s
      (dwell cfg env room (reference asUtc env ts) s) :=
  debounceOccupancy_dwelt cfg room _ _ s

/-- A room that was not occupied is taken at its word. -/
theorem dwell_unoccupied (ref : ℤ) (h : s.occupiedState.get? room ≠ some true) :
    (dwell cfg env room ref s).1.1 = rawOccupied cfg env room ref (s.events room) := by
  rw [dwell, debounceOccupancy_occupied, dwells, decide_eq_false fun hd => h hd.1, Bool.or_false]

theorem fusedAt_raised (h : DwellsBy room fuses s) (hwas : wasOccupied fuses = false) :
    (fusedAt cfg room env ts s).state.occupied = (fusedAt cfg room env ts s).raw := by
  apply dwell_unoccupied
  intro ho
  rw [h.wasOccupied_iff.mpr ho] at hwas
  cases hwas

theorem fusedAt_cleared (h : DwellsBy room fuses s) (hwas : wasOccupied fuses = true)
    (hclear : (fusedAt cfg room env ts s).state.occupied = false) :
    ar.le cfg.vacateS (ar.lit 0) = true ∨ ∃ t, UnmetSince (fuses ++ [fusedAt cfg room env ts s]) t ∧
      ar.le cfg.vacateS (ar.seconds ((fusedAt cfg room env ts s).ref - t)) = true := by
  have ho := h.wasOccupied_iff.mp hwas
  have hd := fusedAt_dwelt cfg room env ts s
  change (dwell cfg env room (reference asUtc env ts) s).1.1 = false at hclear
  generalize dwell cfg env room (reference asUtc env ts) s = out at hd hclear
  cases hd with
  | raised _ _ => cases hclear
  | vacant _ hnot _ => exact absurd ho hnot
  | cleared hraw _ hover _ =>
    rcases hover.elim .inl grace_over with hzero | hover
    · exact .inl hzero
    · exact .inr ⟨_, h.started hraw, hover⟩
  | held _ _ _ _ _ => cases hclear

/-- What is left of a grace that has not run out is some of the grace. -/
def LeavesSome (cfg : Config ar) : Prop :=
  ∀ x, ar.le cfg.vacateS (ar.max (ar.lit 0) x) = false →
    ar.lt (ar.lit 0) (ar.sub cfg.vacateS (ar.max (ar.lit 0) x)) = true ∧
      ar.le (ar.sub cfg.vacateS (ar.max (ar.lit 0) x)) cfg.vacateS = true

theorem fusedAt_pending (hleaves : LeavesSome cfg) {p : R}
    (hp : (fusedAt cfg room env ts s).pending = some p) :
    ar.lt (ar.lit 0) p = true ∧ ar.le p cfg.vacateS = true := by
  have hd := fusedAt_dwelt cfg room env ts s
  change (dwell cfg env room (reference asUtc env ts) s).1.2 = some p at hp
  generalize dwell cfg env room (reference asUtc env ts) s = out at hd hp
  cases hd with
  | raised _ _ => cases hp
  | vacant _ _ _ => cases hp
  | cleared _ _ _ _ => cases hp
  | held _ _ _ hleft _ =>
    cases hp
    exact hleaves _ hleft

theorem fusedAt_rule (hleaves : LeavesSome cfg) (h : DwellsBy room fuses s) :
    DwellRule cfg fuses (fusedAt cfg room env ts s) where
  raised := fusedAt_raised cfg room env ts h
  cleared := fusedAt_cleared cfg room env ts h
  pending _ := fusedAt_pending cfg room env ts hleaves

/-! ## Runs -/

theorem fuse_dwell (s : Engine (R := R) asUtc) :
    (fuse cfg env room ts s).2.occupiedState =
      (dwell cfg env room (reference asUtc env ts) s).2.occupiedState ∧
    (fuse cfg env room ts s).2.vacateSince =
      (dwell cfg env room (reference asUtc env ts) s).2.vacateSince :=
  (latchCount_frame cfg room _ _ _ _ _).2

theorem DwellsBy.fuse (h : DwellsBy room fuses s) :
    DwellsBy room (fuses ++ [fusedAt cfg room env ts s]) (fuse cfg env room ts s).2 where
  last := by
    rw [(fuse_dwell cfg room env ts s).1, List.getLast?_concat]
    exact debounceOccupancy_remembers cfg room _ _ s
  since := by
    intro t ht
    rw [(fuse_dwell cfg room env ts s).2] at ht
    have hd := fusedAt_dwelt cfg room env ts s
    generalize dwell cfg env room (reference asUtc env ts) s = out at hd ht
    cases hd with
    | raised _ hsince => cases hsince.symm.trans ht
    | vacant _ _ hsince => cases hsince.symm.trans ht
    | cleared _ _ _ hsince => cases hsince.symm.trans ht
    | held hraw _ _ _ hsince =>
      cases hsince.symm.trans ht
      exact h.started hraw

theorem DwellsBy.fuse_other (h : DwellsBy room fuses s) {room' : String} (hne : room ≠ room') :
    DwellsBy room fuses (Fusion.fuse cfg env room' ts s).2 := by
  obtain ⟨hocc, hsince⟩ := fuse_dwell cfg room' env ts s
  have hother := debounceOccupancy_other cfg room' (reference asUtc env ts)
    (rawOccupied cfg env room' (reference asUtc env ts) (s.events room')) s hne
  exact h.congr ((congrArg (·.get? room) hocc).trans hother.1)
    ((congrArg (·.get? room) hsince).trans hother.2)

/-- One call: the fuse of the room it makes, if any, keeps the rule and is remembered. -/
theorem DwellsBy.step (hleaves : LeavesSome cfg) (h : DwellsBy room fuses s) (call : Call R) :
    (∀ f ∈ fused? cfg room s call, DwellRule cfg fuses f) ∧
      DwellsBy room (fuses ++ (fused? cfg room s call).toList) (step cfg s call) := by
  have hb : DwellsBy room fuses (begin call s).2 := by
    obtain ⟨hocc, hsince, -⟩ := begin_frame call s
    exact h.congr (congrArg (·.get? room) hocc) (congrArg (·.get? room) hsince)
  revert hb
  unfold Fusion.step run fused?
  rcases begin call s with ⟨why | ⟨room', ts⟩, s₁⟩
  · intro hb
    exact ⟨by simp, by simpa using hb⟩
  · intro hb
    dsimp only
    split
    · rename_i hroom
      subst hroom
      refine ⟨fun f hf => ?_, hb.fuse cfg room' call.env ts⟩
      cases hf
      exact fusedAt_rule cfg room' call.env ts hleaves hb
    · rename_i hroom
      exact ⟨by simp, by simpa using hb.fuse_other cfg room call.env ts (Ne.symm hroom)⟩

end

/-- For exact numbers. -/
theorem leavesSome (cfg : Config ratArith) : LeavesSome cfg := by
  intro x hx
  have hlt : ratArith.max 0 x < cfg.vacateS := not_le.mp (of_decide_eq_false hx)
  have hnonneg : 0 ≤ ratArith.max 0 x := by
    unfold Arith.max
    split
    · rename_i h
      exact le_of_lt (of_decide_eq_true h)
    · exact le_refl 0
  exact ⟨decide_eq_true (sub_pos.mpr hlt), decide_eq_true (sub_le_self _ hnonneg)⟩

/-- In every run, and under any clock, every fuse of every room keeps the rule. -/
theorem keepsDwell (cfg : Config ratArith) (room : String) (calls : List (Call ℚ)) :
    KeepsDwell cfg room asUtc calls := by
  suffices h : KeepsDwell cfg room asUtc calls ∧ DwellsBy room (fusesOf cfg room asUtc calls)
      (finish (step cfg) (newEngine asUtc) calls) from h.1
  refine history_induction (R := fun calls s => KeepsDwell cfg room asUtc calls ∧
    DwellsBy room (fusesOf cfg room asUtc calls) s) ?_ ?_ calls
  · exact ⟨fun before f hf => absurd hf.length_le (by simp [fusesOf, outputs]),
      rfl, fun t ht => by cases ht⟩
  · rintro calls call ⟨hrule, hby⟩
    obtain ⟨hnew, hstep⟩ := hby.step cfg room (leavesSome cfg) call
    have hfuses : fusesOf cfg room asUtc (calls ++ [call]) = fusesOf cfg room asUtc calls ++
        (fused? cfg room (finish (step cfg) (newEngine asUtc) calls) call).toList := by
      simp [fusesOf, outputs_append, outputs]
    rw [KeepsDwell, hfuses]
    refine ⟨fun before f hf => ?_, hstep⟩
    cases hcall : fused? cfg room (finish (step cfg) (newEngine asUtc) calls) call with
    | none =>
      rw [hcall, Option.toList_none, List.append_nil] at hf
      exact hrule before f hf
    | some g =>
      rw [hcall, Option.toList_some, List.prefix_concat_iff] at hf
      rcases hf with hlast | hold
      · obtain ⟨rfl, hg⟩ := List.append_inj' hlast rfl
        cases hg
        exact hnew f hcall
      · exact hrule before f hold

/-- A motion sensor sees somebody at midnight; the room is looked at again after 100, 130 and
145 seconds. -/
example : (fusesOf defaultConfig "sala" parse
    (⟨.update (sighting "pir" "door" true 1 none), clockAt 1767225600000000⟩ ::
      [1767225700000000, 1767225730000000, 1767225745000000].map fun t =>
        ⟨.state "sala", clockAt t⟩)).map (fun f => (f.state.occupied, f.pending)) =
    [(true, none), (true, some 45), (true, some 15), (false, none)] := by decide +kernel

end Wavr.Fusion
