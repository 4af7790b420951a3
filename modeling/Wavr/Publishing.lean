import Wavr.Egress
import Wavr.OccupancyLog

/-!
# Publishing and the table of room states

`_publish` as a whole: what decides on a row, the row that a thread writes, and what comes behind it.
Between the three anything may happen, other publishes included. Numbers that are equal count as one.
-/

namespace Wavr.Publishing
open Fusion Run Egress

variable {R : Type}

structure StoredRow (R : Type) where
  room : String
  occupied : Bool
  confidence : R
  sources : List (Source R)
  explanation : String
  ts : String
  deriving DecidableEq

/-- `insert_state`. -/
def rowOf (rs : RoomState R) : StoredRow R :=
  ⟨rs.room, rs.occupied, rs.confidence, rs.sources, rs.explanation, rs.ts⟩

/-- What a state says of the room, without when it was looked at. -/
def undated (rs : RoomState R) : RoomState R :=
  { rs with ts := "", sources := rs.sources.map fun s => { s with ageS := 0 } }

/-- `_claim`. -/
def claim (d : Live R) : RoomState R × Disagreement := (undated d.state, d.disagreement)

/-- A call of `_publish` that has not come to `latest` yet. -/
structure Flight (R : Type) where
  rs : RoomState R
  persist : Bool
  stored : Bool
  deriving DecidableEq

structure Core (R : Type) where
  world : World R
  rows : List (StoredRow R)
  flights : Dict ℕ (Flight R)

def Core.init : Core R := ⟨.init, [], .empty⟩

section
variable [DecidableEq R] (ar : Arith R) (cfg : Config)

/-- What `_ingest` takes for a change. -/
def ingestChanged (prev : Option (Live R)) (rs : RoomState R) : Bool :=
  match prev with
  | none => true
  | some prev => claim (withDisagreement rs) ≠ claim prev

/-- ... and `_refuse_once`. -/
def tickChanged (prev : Option (Live R)) (rs : RoomState R) : Bool :=
  match prev with
  | none => true
  | some prev => prev.state.occupied ≠ rs.occupied ∨
      ar.le (ar.lit (1 / 100)) (Occupancy.abs ar (ar.sub prev.state.confidence rs.confidence)) = true

inductive Event (R : Type)
  /-- The `n`-th call of `_publish`, for a sensor's event or for the tick. -/
  | ingest (n : ℕ) (rs : RoomState R)
  | tick (n : ℕ) (rs : RoomState R)
  | store (n : ℕ)
  /-- The call raises; a row may be left in the transaction that is open. -/
  | fail (n : ℕ) (inserted : Bool)
  | finish (n : ℕ) (now : String)
  /-- Whatever else happens to what leaves. -/
  | aside (i : Input R)

def take (n : ℕ) (rs : RoomState R) (persist : Bool) (c : Core R) : Core R :=
  { c with flights := c.flights.setDefault n ⟨rs, persist, false⟩ }

def Flight.ready (f : Flight R) : Bool := ! f.persist || f.stored

def egressInput (c : Core R) : Event R → Option (Input R)
  | .finish n now =>
    match c.flights.get? n with
    | some f => if f.ready then some (.publish now f.rs) else none
    | none => none
  | .aside (.publish _ _) => none
  | .aside i => some i
  | _ => none

def step (c : Core R) : Event R → Core R
  | .ingest n rs => take n rs (ingestChanged (c.world.latest.get? rs.room) rs) c
  | .tick n rs => take n rs (tickChanged ar (c.world.latest.get? rs.room) rs) c
  | .store n =>
    match c.flights.get? n with
    | some f =>
      if f.ready then c
      else { c with rows := c.rows ++ [rowOf f.rs], flights := c.flights.set n { f with stored := true } }
    | none => c
  | .fail n inserted =>
    match c.flights.get? n with
    | some f =>
      { c with rows := c.rows ++ (if inserted && ! f.ready then [rowOf f.rs] else []), flights := c.flights.erase n }
    | none => c
  | .finish n now =>
    match c.flights.get? n with
    | some f =>
      if f.ready then
        { c with world := Egress.step cfg c.world (.publish now f.rs), flights := c.flights.erase n }
      else c
    | none => c
  | .aside (.publish _ _) => c
  | .aside i => { c with world := Egress.step cfg c.world i }

/-! ## What leaves -/

variable {ar cfg}

theorem world_step (c : Core R) (e : Event R) :
    (step ar cfg c e).world = finish (Egress.step cfg) c.world (egressInput c e).toList := by
  cases e with
  | ingest n rs => rfl
  | tick n rs => rfl
  | store n =>
    simp only [step, egressInput]
    split
    · split <;> rfl
    · rfl
  | fail n inserted =>
    simp only [step, egressInput]
    split <;> rfl
  | finish n now =>
    simp only [step, egressInput]
    cases c.flights.get? n with
    | none => rfl
    | some f =>
      dsimp only
      split <;> rfl
  | aside i => cases i <;> rfl

/-- In any order of things, what leaves is a run of what leaves. -/
theorem world_run (c : Core R) (es : List (Event R)) :
    (finish (step ar cfg) c es).world =
      finish (Egress.step cfg) c.world (outputs (step ar cfg) egressInput c es) :=
  finish_part world_step c es

/-! ## The last row of a room -/

omit [DecidableEq R] in
def lastRow (room : String) (rows : List (StoredRow R)) : Option (StoredRow R) :=
  (rows.filter fun row => row.room = room).getLast?

omit [DecidableEq R] in
@[simp] theorem lastRow_append_self (rows : List (StoredRow R)) (rs : RoomState R) :
    lastRow rs.room (rows ++ [rowOf rs]) = some (rowOf rs) := by
  unfold lastRow
  rw [List.filter_append, List.filter_cons_of_pos (by simp [rowOf]), List.filter_nil, List.getLast?_append]
  rfl

omit [DecidableEq R] in
theorem lastRow_append_ne {room : String} (rows : List (StoredRow R)) {rs : RoomState R} (h : rs.room ≠ room) :
    lastRow room (rows ++ [rowOf rs]) = lastRow room rows := by
  unfold lastRow
  rw [List.filter_append, List.filter_cons_of_neg (by simp [rowOf, h]), List.filter_nil, List.append_nil]

/-- The last row of the room is, as far as `Q` goes, what `latest` holds. -/
def Settled (Q : StoredRow R → RoomState R → Prop) (room : String) (c : Core R) : Prop :=
  ∀ d, c.world.latest.get? room = some d → ∃ row, lastRow room c.rows = some row ∧ Q row d.state

/-- A publish begins when there is no other of the same room under way, and one that raises leaves no row. -/
def Apart (c : Core R) : Event R → Prop
  | .ingest _ rs => ∀ f ∈ c.flights.values, f.rs.room ≠ rs.room
  | .tick _ rs => ∀ f ∈ c.flights.values, f.rs.room ≠ rs.room
  | .fail n inserted => inserted = false ∧ ∀ f ∈ c.flights.get? n, f.stored = false
  | _ => True

/-- Where no row is written for a new state, the last row goes for it too. -/
def Gated (ar : Arith R) (Q : StoredRow R → RoomState R → Prop) : Event R → Prop
  | .ingest _ rs => ∀ prev row, ingestChanged (some prev) rs = false → Q row prev.state → Q row rs
  | .tick _ rs => ∀ prev row, tickChanged ar (some prev) rs = false → Q row prev.state → Q row rs
  | _ => True

structure Current (Q : StoredRow R → RoomState R → Prop) (c : Core R) : Prop where
  rooms : ∀ n m f g, c.flights.get? n = some f → c.flights.get? m = some g → f.rs.room = g.rs.room → n = m
  persist : ∀ n f, c.flights.get? n = some f → f.stored = true → f.persist = true
  stored : ∀ n f, c.flights.get? n = some f → f.stored = true → lastRow f.rs.room c.rows = some (rowOf f.rs)
  /-- One that writes no row needs none. -/
  spare : ∀ n f, c.flights.get? n = some f → f.persist = false →
    ∃ row, lastRow f.rs.room c.rows = some row ∧ Q row f.rs
  rest : ∀ room, (∀ n f, c.flights.get? n = some f → f.rs.room = room → f.stored = false) → Settled Q room c

variable {Q : StoredRow R → RoomState R → Prop} {c : Core R}

omit [DecidableEq R] in
theorem current_init : Current Q (.init : Core R) :=
  ⟨fun _ _ _ _ h => (by cases h), fun _ _ h => (by cases h), fun _ _ h => (by cases h), fun _ _ h => (by cases h),
    fun _ _ _ h => (by cases h)⟩

omit [DecidableEq R] in
theorem Current.take (h : Current Q c) (n : ℕ) (rs : RoomState R) (persist : Bool)
    (hapart : ∀ f ∈ c.flights.values, f.rs.room ≠ rs.room)
    (hgate : persist = false → ∃ prev, c.world.latest.get? rs.room = some prev ∧ ∀ row, Q row prev.state → Q row rs) :
    Current Q (take n rs persist c) := by
  have hne : ∀ m f, c.flights.get? m = some f → f.rs.room ≠ rs.room :=
    fun m f hf => hapart f (Dict.mem_values.mpr ⟨m, hf⟩)
  have hsettled : Settled Q rs.room c := h.rest rs.room fun m f hf hroom => absurd hroom (hne m f hf)
  cases hn : c.flights.get? n with
  | some f =>
    have hsame : Publishing.take n rs persist c = c := by
      unfold Publishing.take Dict.setDefault
      rw [hn]
      rfl
    rw [hsame]
    exact h
  | none =>
    have hget : ∀ m f, (Publishing.take n rs persist c).flights.get? m = some f →
        m = n ∧ f = ⟨rs, persist, false⟩ ∨ m ≠ n ∧ c.flights.get? m = some f := by
      intro m f hf
      simp only [Publishing.take, Dict.get?_setDefault, hn] at hf
      split at hf
      · rename_i hm
        exact .inl ⟨hm, (Option.some.inj hf).symm⟩
      · rename_i hm
        exact .inr ⟨hm, hf⟩
    refine ⟨fun m k f g hf hg hroom => ?_, fun m f hf hstored => ?_, fun m f hf hstored => ?_, fun m f hf hp => ?_,
      fun room hroom => h.rest room fun m f hf hr => ?_⟩
    · rcases hget m f hf with ⟨rfl, rfl⟩ | ⟨-, hold⟩
      · rcases hget k g hg with ⟨rfl, -⟩ | ⟨-, hold'⟩
        · rfl
        · exact absurd hroom.symm (hne k g hold')
      · rcases hget k g hg with ⟨rfl, rfl⟩ | ⟨-, hold'⟩
        · exact absurd hroom (hne m f hold)
        · exact h.rooms m k f g hold hold' hroom
    · rcases hget m f hf with ⟨-, rfl⟩ | ⟨-, hf⟩
      · cases hstored
      · exact h.persist m f hf hstored
    · rcases hget m f hf with ⟨-, rfl⟩ | ⟨-, hf⟩
      · cases hstored
      · exact h.stored m f hf hstored
    · rcases hget m f hf with ⟨-, rfl⟩ | ⟨-, hf⟩
      · obtain ⟨prev, hprev, hQ⟩ := hgate hp
        obtain ⟨row, hrow, hq⟩ := hsettled prev hprev
        exact ⟨row, hrow, hQ row hq⟩
      · exact h.spare m f hf hp
    · have hm : m ≠ n := by
        rintro rfl
        rw [hn] at hf
        cases hf
      refine hroom m f ?_ hr
      simp only [Publishing.take, Dict.get?_setDefault, if_neg hm]
      exact hf

omit [DecidableEq R] in
theorem Settled.congr {c' : Core R} {room : String} (h : Settled Q room c)
    (hlatest : c'.world.latest.get? room = c.world.latest.get? room) (hrows : lastRow room c'.rows = lastRow room c.rows) :
    Settled Q room c' := by
  unfold Settled
  rw [hlatest, hrows]
  exact h

omit [DecidableEq R] in
theorem Current.store (h : Current Q c) {n : ℕ} {f : Flight R}
    (hf : c.flights.get? n = some f) (hready : f.ready = false) :
    Current Q { c with rows := c.rows ++ [rowOf f.rs], flights := c.flights.set n { f with stored := true } } := by
  have hpersist : f.persist = true := by
    by_contra hp
    rw [Bool.not_eq_true] at hp
    simp [Flight.ready, hp] at hready
  have hget : ∀ m g, (c.flights.set n { f with stored := true }).get? m = some g →
      m = n ∧ g = { f with stored := true } ∨ m ≠ n ∧ c.flights.get? m = some g := by
    intro m g hg
    rw [Dict.get?_set] at hg
    split at hg
    · rename_i hm
      exact .inl ⟨hm, (Option.some.inj hg).symm⟩
    · rename_i hm
      exact .inr ⟨hm, hg⟩
  have hne : ∀ m g, m ≠ n → c.flights.get? m = some g → f.rs.room ≠ g.rs.room :=
    fun m g hm hg hroom => hm (h.rooms n m f g hf hg hroom).symm
  refine ⟨fun m k g g' hg hg' hroom => ?_, fun m g hg hstored => ?_, fun m g hg hstored => ?_, fun m g hg hp => ?_,
    fun room hroom => ?_⟩
  · rcases hget m g hg with ⟨rfl, rfl⟩ | ⟨hm, hold⟩
    · rcases hget k g' hg' with ⟨rfl, -⟩ | ⟨hk, hold'⟩
      · rfl
      · exact absurd hroom (hne k g' hk hold')
    · rcases hget k g' hg' with ⟨rfl, rfl⟩ | ⟨-, hold'⟩
      · exact absurd hroom.symm (hne m g hm hold)
      · exact h.rooms m k g g' hold hold' hroom
  · rcases hget m g hg with ⟨-, rfl⟩ | ⟨-, hold⟩
    · exact hpersist
    · exact h.persist m g hold hstored
  · rcases hget m g hg with ⟨-, rfl⟩ | ⟨hm, hold⟩
    · exact lastRow_append_self c.rows f.rs
    · rw [lastRow_append_ne _ (hne m g hm hold)]
      exact h.stored m g hold hstored
  · rcases hget m g hg with ⟨-, rfl⟩ | ⟨hm, hold⟩
    · rw [hpersist] at hp
      cases hp
    · rw [lastRow_append_ne _ (hne m g hm hold)]
      exact h.spare m g hold hp
  · have hother : f.rs.room ≠ room := by
      intro heq
      have hstored := hroom n _ (Dict.get?_set_self _ _ _) heq
      cases hstored
    refine (h.rest room fun m g hg hr => ?_).congr rfl (lastRow_append_ne _ hother)
    have hm : m ≠ n := by
      rintro rfl
      rw [hf] at hg
      exact hother (Option.some.inj hg ▸ hr)
    exact hroom m g (by rw [Dict.get?_set_ne _ hm]; exact hg) hr

omit [DecidableEq R] in
/-- A publish that is over leaves the room settled, if its state is the one that `latest` has. -/
theorem Current.over (h : Current Q c) {n : ℕ} {f : Flight R} (hf : c.flights.get? n = some f) {world : World R}
    (hother : ∀ room, room ≠ f.rs.room → world.latest.get? room = c.world.latest.get? room)
    (hown : Settled Q f.rs.room { c with world := world }) :
    Current Q { c with world := world, flights := c.flights.erase n } := by
  have hget : ∀ m g, (c.flights.erase n).get? m = some g → m ≠ n ∧ c.flights.get? m = some g := by
    intro m g hg
    rw [Dict.get?_erase] at hg
    split at hg
    · cases hg
    · rename_i hm
      exact ⟨hm, hg⟩
  refine ⟨fun m k g g' hg hg' => h.rooms m k g g' (hget m g hg).2 (hget k g' hg').2,
    fun m g hg => h.persist m g (hget m g hg).2, fun m g hg => h.stored m g (hget m g hg).2,
    fun m g hg => h.spare m g (hget m g hg).2, fun room hroom => ?_⟩
  by_cases hr : room = f.rs.room
  · rw [hr]
    exact hown
  · refine (h.rest room fun m g hg hgr => ?_).congr (hother room hr) rfl
    have hm : m ≠ n := by
      rintro rfl
      rw [hf] at hg
      exact hr (by rw [← hgr, Option.some.inj hg])
    exact hroom m g (by rw [Dict.get?_erase, if_neg hm]; exact hg) hgr

theorem Current.step (hQ : ∀ rs, Q (rowOf rs) rs) (h : Current Q c) {e : Event R} (hapart : Apart c e)
    (hgate : Gated ar Q e) : Current Q (Publishing.step ar cfg c e) := by
  cases e with
  | ingest n rs =>
    refine h.take n rs _ hapart fun hp => ?_
    cases hprev : c.world.latest.get? rs.room with
    | none =>
      rw [hprev] at hp
      cases hp
    | some prev =>
      rw [hprev] at hp
      exact ⟨prev, rfl, fun row => hgate prev row hp⟩
  | tick n rs =>
    refine h.take n rs _ hapart fun hp => ?_
    cases hprev : c.world.latest.get? rs.room with
    | none =>
      rw [hprev] at hp
      cases hp
    | some prev =>
      rw [hprev] at hp
      exact ⟨prev, rfl, fun row => hgate prev row hp⟩
  | store n =>
    simp only [Publishing.step]
    split
    · rename_i f hf
      split
      · exact h
      · rename_i hready
        exact h.store hf (Bool.eq_false_iff.mpr hready)
    · exact h
  | fail n inserted =>
    obtain ⟨rfl, hstored⟩ := hapart
    simp only [Publishing.step, Bool.false_and, Bool.false_eq_true, if_false, List.append_nil]
    split
    · rename_i f hf
      refine h.over hf (fun _ _ => rfl) (h.rest _ fun m g hg hroom => ?_)
      have hm := h.rooms n m f g hf hg hroom.symm
      rw [← hm, hf] at hg
      rw [← Option.some.inj hg]
      exact hstored f hf
    · exact h
  | finish n now =>
    simp only [Publishing.step]
    split
    · rename_i f hf
      split
      · rename_i hready
        have hlatest : (Egress.step cfg c.world (.publish now f.rs)).latest =
            c.world.latest.set f.rs.room (withDisagreement f.rs) := (publish_frame now (withDisagreement f.rs) c.world).2.1
        refine h.over hf (fun room hroom => ?_) fun d hd => ?_
        · rw [hlatest, Dict.get?_set_ne _ hroom]
        · dsimp only at hd
          rw [hlatest, Dict.get?_set_self] at hd
          rw [← Option.some.inj hd]
          by_cases hstored : f.stored = true
          · exact ⟨rowOf f.rs, h.stored n f hf hstored, hQ f.rs⟩
          · -- where no row was written, the one that was there goes for the new state
            have hp : f.persist = false := by
              simpa [Flight.ready, hstored] using hready
            exact h.spare n f hf hp
      · exact h
    · exact h
  | aside i =>
    have hsame : ∀ i, sent cfg c.world i = none →
        Current Q { c with world := Egress.step cfg c.world i } := by
      intro i hi
      have hlatest := latest_of_sent_none hi
      exact ⟨h.rooms, h.persist, h.stored, h.spare, fun room hroom =>
        (h.rest room hroom).congr (congrArg (·.get? room) hlatest) rfl⟩
    cases i with
    | publish now rs => exact h
    | setWatch now on => exact hsame _ rfl
    | subscribe k => exact hsame _ rfl
    | unsubscribe k => exact hsame _ rfl
    | receive k => exact hsame _ rfl

/-! ## Runs -/

theorem current_run (hQ : ∀ rs, Q (rowOf rs) rs) (h : Current Q c) {es : List (Event R)}
    (hapart : AllSteps (Publishing.step ar cfg) Apart c es) (hgate : ∀ e ∈ es, Gated ar Q e) :
    Current Q (finish (Publishing.step ar cfg) c es) := by
  induction es generalizing c with
  | nil => exact h
  | cons e es ih =>
    exact ih (h.step hQ hapart.1 (hgate e List.mem_cons_self)) hapart.2 fun e' he' =>
      hgate e' (List.mem_cons_of_mem e he')

/-- The row says what the state says, but for when it was looked at. -/
def Tells (row : StoredRow R) (rs : RoomState R) : Prop := ∃ rs', row = rowOf rs' ∧ undated rs' = undated rs

theorem gated_tells {n : ℕ} {rs : RoomState R} : Gated ar Tells (.ingest n rs) := by
  rintro prev row hsame ⟨rs', rfl, hrs⟩
  have hclaim : claim (withDisagreement rs) = claim prev := by
    by_contra hne
    exact Bool.false_ne_true (hsame.symm.trans (decide_eq_true hne))
  exact ⟨rs', rfl, hrs.trans (congrArg Prod.fst hclaim).symm⟩

theorem gated_occupied (e : Event R) : Gated ar (fun row rs => row.occupied = rs.occupied) e := by
  cases e with
  | ingest n rs =>
    intro prev row hsame hrow
    have hclaim : claim (withDisagreement rs) = claim prev := by
      by_contra hne
      exact Bool.false_ne_true (hsame.symm.trans (decide_eq_true hne))
    have hocc := congrArg (fun x => x.1.occupied) hclaim
    exact hrow.trans hocc.symm
  | tick n rs =>
    intro prev row hsame hrow
    have hsame' := of_decide_eq_false hsame
    push Not at hsame'
    exact hrow.trans hsame'.1
  | store n => trivial
  | fail n inserted => trivial
  | finish n now => trivial
  | aside i => trivial

/-- Where the publishes of a room do not overlap and those that raise leave no row, the last row of a
room is, whatever else goes on, as occupied as the room is now; and where there was no tick, it says all
that the live state does, but for when it was looked at. -/
theorem stored_current (ar : Arith R) (cfg : Config) (es : List (Event R))
    (hapart : AllSteps (Publishing.step ar cfg) Apart .init es) :
    let c := finish (Publishing.step ar cfg) .init es
    ∀ room, (∀ f ∈ c.flights.values, f.rs.room = room → f.stored = false) →
      ∀ d, c.world.latest.get? room = some d → ∃ row, lastRow room c.rows = some row ∧
        row.occupied = d.state.occupied ∧ ((∀ n rs, Event.tick n rs ∉ es) → Tells row d.state) := by
  intro c room hquiet d hd
  have hfree : ∀ n f, c.flights.get? n = some f → f.rs.room = room → f.stored = false :=
    fun n f hf => hquiet f (Dict.mem_values.mpr ⟨n, hf⟩)
  have hocc : Current (fun row rs => row.occupied = rs.occupied) c :=
    current_run (fun _ => rfl) current_init hapart fun e _ => gated_occupied e
  obtain ⟨row, hrow, ho⟩ := hocc.rest room hfree d hd
  refine ⟨row, hrow, ho, fun hticks => ?_⟩
  have htells : Current Tells c := by
    refine current_run (fun rs => ⟨rs, rfl, rfl⟩) current_init hapart fun e he => ?_
    cases e with
    | ingest n rs => exact gated_tells
    | tick n rs => exact absurd he (hticks n rs)
    | store n => trivial
    | fail n inserted => trivial
    | finish n now => trivial
    | aside i => trivial
  obtain ⟨row', hrow', ht⟩ := htells.rest room hfree d hd
  rw [hrow] at hrow'
  rw [Option.some.inj hrow']
  exact ht

theorem stored_current_kitchen :
    let es := [Event.ingest 0 kitchen, .store 0, .finish 0 "", .tick 1 { kitchen with confidence := 799 / 1000 },
      .finish 1 "", .ingest 2 (casa "ana")]
    ∃ row, lastRow "kitchen" (finish (Publishing.step ratArith ⟨true, true, true⟩) .init es).rows = some row ∧
      row.occupied = true := by
  have hapart : AllSteps (Publishing.step ratArith ⟨true, true, true⟩) Apart .init
      [Event.ingest 0 kitchen, .store 0, .finish 0 "", .tick 1 { kitchen with confidence := 799 / 1000 },
        .finish 1 "", .ingest 2 (casa "ana")] :=
    ⟨fun _ hf => absurd hf List.not_mem_nil, trivial, trivial, fun _ hf => absurd hf List.not_mem_nil, trivial,
      (by unfold Apart; decide +kernel), trivial⟩
  obtain ⟨row, hrow, ho, -⟩ := stored_current ratArith ⟨true, true, true⟩ _ hapart "kitchen"
    (by decide +kernel)
    (withDisagreement { kitchen with confidence := 799 / 1000 }) (by decide +kernel)
  exact ⟨row, hrow, ho⟩

end

end Wavr.Publishing
