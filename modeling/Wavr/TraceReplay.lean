import Wavr.Trace

/-!
# Replays

What a replay takes from the machine's own clock: the timestamp of a room state without a single
event to date it, and nothing else.
-/

namespace Wavr.Trace
open Fusion Run

variable {R : Type} {ar : Arith R} {asUtc : String → Option ℤ}

/-- Every malformed event comes behind a well-formed one of its room. -/
def Anchored (asUtc : String → Option ℤ) (events : List (SensingEvent R)) : Prop :=
  ∀ pre e post, events = pre ++ e :: post → asUtc e.ts = none →
    ∃ e' ∈ pre, e'.room = e.room ∧ asUtc e'.ts ≠ none

/-- Written as JSON and read back, the trace replays to the room states that an engine returns for
the events themselves, whatever the machine's clock answers to the one and to the other, and to the
same room states again. -/
def Reproduces (nb : Numbers R) (f : Factory ar) (text : JsonText R) (asUtc : String → Option ℤ)
    (trace : Json R) (events : List (SensingEvent R)) : Prop :=
  ∀ walls walls' : ℕ → Wall, ∃ decoded states, text.loads (text.dumps trace) = some decoded ∧
    replay nb f asUtc walls decoded = .ok states ∧ states = feed f asUtc walls' events ∧
      replay nb f asUtc walls' decoded = .ok states

/-- A room state but for its timestamp. -/
def undated (rs : RoomState R) : RoomState R := { rs with ts := "" }

/-- What the dwell reads where there is no event. -/
def rawNone (cfg : Config ar) : Bool :=
  ar.le cfg.threshold (ar.round3 (ar.min (ar.lit 1) (ar.max (ar.lit 0)
    (ar.mul (if ar.lt (ar.lit 0) (ar.lit 0) then ar.div (ar.lit 0) (ar.lit 0) else ar.lit 0) (ar.lit 0)))))

/-- An engine that has accepted no event. -/
structure Fresh (cfg : Config ar) (s : Engine (R := R) asUtc) : Prop where
  events : ∀ room, s.events room = []
  latch : ∀ room, s.countLatch.get? room = none
  occupied : ∀ room, s.occupiedState.get? room = some true → rawNone cfg = true

/-! ## A room without events -/

section
variable {cfg : Config ar} {s : Engine (R := R) asUtc} (room : String) (env : Env R) (ref : ℤ)

theorem rawOccupied_nil : rawOccupied cfg env room ref ([] : List (Stored (R := R) asUtc)) = rawNone cfg := by
  show ((rawNone cfg || false) || false) = rawNone cfg
  rw [Bool.or_false, Bool.or_false]

/-- Where nothing is pending, the dwell does not look at the clock. -/
theorem debounceOccupancy_settled {raw : Bool} (h : s.occupiedState.get? room = some true → raw = true) :
    debounceOccupancy cfg room ref raw s = ((raw, none), { s with
      vacateSince := s.vacateSince.erase room
      occupiedState := s.occupiedState.set room raw }) := by
  cases raw with
  | true => rfl
  | false =>
    have hwas : s.occupiedState.get? room ≠ some true := fun hocc => Bool.false_ne_true (h hocc)
    simp [debounceOccupancy, hwas]

theorem latchCount_nil (occupied : Bool) (h : s.countLatch.get? room = none) :
    latchCount cfg room ref ([] : List (Stored (R := R) asUtc)) occupied [] s =
      (⟨none, [], false⟩, { s with countLatch := s.countLatch.erase room }) := by
  cases occupied <;> simp [latchCount, pickCount, countingLiveNegative, h]

theorem precision_nil (occupied : Bool) :
    precision cfg ref ([] : List (Stored (R := R) asUtc)) occupied ⟨none, [], false⟩ = .none := by
  cases occupied <;> rfl

/-- A room that settles without a count. -/
def settled (cfg : Config ar) (room : String) (s : Engine (R := R) asUtc) : Engine (R := R) asUtc :=
  { s with
    vacateSince := s.vacateSince.erase room
    occupiedState := s.occupiedState.set room (rawNone cfg)
    countLatch := s.countLatch.erase room }

theorem Fresh.dwell (h : Fresh cfg s) : dwell cfg env room ref s = ((rawNone cfg, none), { s with
    vacateSince := s.vacateSince.erase room
    occupiedState := s.occupiedState.set room (rawNone cfg) }) := by
  rw [Fusion.dwell, h.events, rawOccupied_nil]
  exact debounceOccupancy_settled room ref (h.occupied room)

theorem Fresh.headcount (h : Fresh cfg s) :
    headcount cfg env room ref s = (⟨none, [], false⟩, settled cfg room s) := by
  rw [Fusion.headcount, h.dwell, h.events]
  exact latchCount_nil room ref _ (h.latch room)

/-- The fuse of a fresh engine takes nothing from the clock. -/
theorem Fresh.fuse (h : Fresh cfg s) (env' : Env R) (ts ts' : String) : fuse cfg env room ts s =
    ({ (fuse cfg env' room ts' s).1 with ts }, (fuse cfg env' room ts' s).2) := by
  unfold Fusion.fuse
  simp only [h.dwell, h.headcount, h.events, precision_nil]
  rfl

theorem Fresh.settled (h : Fresh cfg s) : Fresh cfg (settled cfg room s) where
  events := h.events
  latch := by
    intro room'
    show (s.countLatch.erase room).get? room' = none
    rw [Dict.get?_erase, h.latch]
    exact ite_self none
  occupied := by
    intro room' hocc
    have hget : (s.occupiedState.set room (rawNone cfg)).get? room' = some true := hocc
    rw [Dict.get?_set] at hget
    split at hget
    · exact Option.some.inj hget
    · exact h.occupied room' hget

theorem Fresh.fuse_settles (h : Fresh cfg s) (ts : String) :
    (Fusion.fuse cfg env room ts s).2 = Trace.settled cfg room s :=
  congrArg Prod.snd (h.headcount room env (reference asUtc env ts))

theorem Fresh.setDefault (h : Fresh cfg s) : Fresh cfg { s with latest := s.latest.setDefault room .empty } where
  events := fun room' => (congrArg Dict.values (sensors_setDefault s room room')).trans (h.events room')
  latch := h.latch
  occupied := h.occupied

end

/-! ## One event, under two clocks of the machine -/

section
variable {f : Factory ar} {clock : Option ℤ} {s : Engine (R := R) asUtc} {e : SensingEvent R}

/-- What the engine does with an event. -/
def ingest (f : Factory ar) (clock : Option ℤ) (w : Wall) (e : SensingEvent R) (s : Engine (R := R) asUtc) :
    Reply R × Engine (R := R) asUtc := run f.cfg ⟨.update e, f.env (tick asUtc clock e) w⟩ s

/-- An accepted event is fused alike. -/
theorem ingest_accepted (w w' : Wall) (h : asUtc e.ts ≠ none) : ingest f clock w e s = ingest f clock w' e s := by
  obtain ⟨utc, hutc⟩ := Option.ne_none_iff_exists'.mp h
  have htick : tick asUtc clock e = some utc := by simp [tick, hutc]
  unfold ingest run
  rw [htick, begin_update s ⟨e, utc, hutc⟩, begin_update s ⟨e, utc, hutc⟩]
  rfl

/-- A rejected event fuses what is known of its room. -/
theorem ingest_rejected (w : Wall) (h : asUtc e.ts = none) : ingest f clock w e s =
    let fused := fuse f.cfg (f.env clock w) e.room ((maxTs ((s.events e.room).map (·.event.ts))).getD w.iso)
      { s with latest := s.latest.setDefault e.room .empty }
    (.fused fused.1, fused.2) := by
  have htick : tick asUtc clock e = clock := by simp [tick, h]
  unfold ingest run
  rw [htick, begin_rejected s e _ h]
  rfl

/-- Whatever the machine's clock says, the engine ends up the same, and the room state differs at
most in its timestamp. -/
theorem ingest_undated (hfresh : clock = none → Fresh f.cfg s) (w w' : Wall) :
    (ingest f clock w e s).2 = (ingest f clock w' e s).2 ∧
      (ingest f clock w e s).1.state?.map undated = (ingest f clock w' e s).1.state?.map undated := by
  by_cases hutc : asUtc e.ts = none
  · rw [ingest_rejected w hutc, ingest_rejected w' hutc]
    cases clock with
    | some t => exact ⟨rfl, rfl⟩
    | none =>
      have hstart := (hfresh rfl).setDefault e.room
      have hfuse := hstart.fuse e.room (f.env none w) (f.env none w')
        ((maxTs ((s.events e.room).map (·.event.ts))).getD w.iso)
        ((maxTs ((s.events e.room).map (·.event.ts))).getD w'.iso)
      dsimp only
      rw [hfuse]
      exact ⟨rfl, rfl⟩
  · rw [ingest_accepted w w' hutc]
    exact ⟨rfl, rfl⟩

/-- In a room with an event, the timestamp is that of an event too. -/
theorem ingest_known (hfresh : clock = none → Fresh f.cfg s) (hknown : s.events e.room ≠ []) (w w' : Wall) :
    ingest f clock w e s = ingest f clock w' e s := by
  by_cases hutc : asUtc e.ts = none
  · rw [ingest_rejected w hutc, ingest_rejected w' hutc]
    obtain ⟨newest, -, -, hmax⟩ := exists_greatest hknown
    rw [hmax]
    cases clock with
    | some t => rfl
    | none => exact absurd ((hfresh rfl).events e.room) hknown
  · exact ingest_accepted w w' hutc

/-- In a room without one it is the machine's. -/
theorem ingest_unknown (hutc : asUtc e.ts = none) (hunknown : s.events e.room = []) (w : Wall) :
    (ingest f clock w e s).1.state?.map (·.ts) = some w.iso := by
  rw [ingest_rejected w hutc, hunknown]
  rfl

theorem ingest_fused (w : Wall) : ∃ rs, (ingest f clock w e s).1 = .fused rs := by
  cases hutc : asUtc e.ts with
  | none => exact ⟨_, congrArg Prod.fst (ingest_rejected w hutc)⟩
  | some utc =>
    unfold ingest run
    rw [begin_update s ⟨e, utc, hutc⟩]
    exact ⟨_, rfl⟩

theorem Fresh.ingest (hfresh : clock = none → Fresh f.cfg s) (w : Wall) (h : tick asUtc clock e = none) :
    Fresh f.cfg (ingest f clock w e s).2 := by
  obtain ⟨hutc, hclock⟩ := Option.or_eq_none_iff.mp h
  have hstart := (hfresh hclock).setDefault e.room
  rw [ingest_rejected w hutc]
  dsimp only
  rw [hstart.fuse_settles]
  exact hstart.settled e.room

/-- A room has an event once one of its events was accepted. -/
theorem events_ingest (w : Wall) (room : String) : (ingest f clock w e s).2.events room ≠ [] ↔
    s.events room ≠ [] ∨ (e.room = room ∧ asUtc e.ts ≠ none) := by
  have hstep := events_step f.cfg s ⟨.update e, f.env (tick asUtc clock e) w⟩ room
  rw [show (ingest f clock w e s).2.events room = _ from hstep]
  cases hutc : asUtc e.ts with
  | none =>
    rw [begin_rejected s e _ hutc]
    have hsame : Engine.events { s with latest := s.latest.setDefault e.room .empty } room = s.events room :=
      congrArg Dict.values (sensors_setDefault s e.room room)
    rw [hsame]
    simp
  | some utc =>
    rw [begin_update s ⟨e, utc, hutc⟩]
    by_cases hroom : room = e.room
    · subst hroom
      obtain ⟨pre, post, hput, -⟩ := exists_events_put s ⟨e, utc, hutc⟩
      simp only [hput]
      simp
    · rw [events_put_ne s hroom]
      simp [Ne.symm hroom]

end

/-! ## A replay -/

/-- The readings of the machine's clock behind the first. -/
def later (walls : ℕ → Wall) (n : ℕ) : Wall := walls (n + 1)

/-- A first reading in front of others. -/
def begun (w : Wall) (walls : ℕ → Wall) : ℕ → Wall
  | 0 => w
  | n + 1 => walls n

def midnight : Wall := ⟨1767225600000000, "2026-01-01T00:00:00+00:00"⟩

def pastMidnight : Wall := ⟨1767225660000000, "2026-01-01T00:01:00+00:00"⟩

section
variable (f : Factory ar)

theorem feedFrom_cons (walls : ℕ → Wall) (clock : Option ℤ) (s : Engine (R := R) asUtc) (e : SensingEvent R)
    (es : List (SensingEvent R)) : feedFrom f asUtc walls clock s (e :: es) =
      (ingest f clock (walls 0) e s).1.state?.toList ++
        feedFrom f asUtc (later walls) (tick asUtc clock e) (ingest f clock (walls 0) e s).2 es := rfl

/-- Two replays are alike where they answer the first event alike and the rest alike. -/
theorem feedFrom_cons_eq_iff (walls walls' : ℕ → Wall) (clock : Option ℤ) (s : Engine (R := R) asUtc)
    (e : SensingEvent R) (es : List (SensingEvent R)) :
    feedFrom f asUtc walls clock s (e :: es) = feedFrom f asUtc walls' clock s (e :: es) ↔
      (ingest f clock (walls 0) e s).1 = (ingest f clock (walls' 0) e s).1 ∧
        feedFrom f asUtc (later walls) (tick asUtc clock e) (ingest f clock (walls 0) e s).2 es =
          feedFrom f asUtc (later walls') (tick asUtc clock e) (ingest f clock (walls' 0) e s).2 es := by
  obtain ⟨rs, hrs⟩ : ∃ rs, (ingest f clock (walls 0) e s).1 = .fused rs := ingest_fused _
  obtain ⟨rs', hrs'⟩ : ∃ rs, (ingest f clock (walls' 0) e s).1 = .fused rs := ingest_fused _
  rw [feedFrom_cons, feedFrom_cons, hrs, hrs', Reply.fused.injEq]
  exact List.cons_eq_cons

/-- A rejected event that is answered alike on either side of a minute finds its room known. -/
theorem known_of_same {clock : Option ℤ} {s : Engine (R := R) asUtc} {e : SensingEvent R}
    (hutc : asUtc e.ts = none)
    (h : (ingest f clock midnight e s).1 = (ingest f clock pastMidnight e s).1) : s.events e.room ≠ [] := by
  intro hunknown
  have hts : (ingest f clock midnight e s).1.state?.map (·.ts) = some midnight.iso :=
    ingest_unknown hutc hunknown midnight
  rw [h, ingest_unknown hutc hunknown] at hts
  exact absurd (Option.some.inj hts) (by decide)

/-- A replay takes nothing but timestamps from the machine's clock. -/
theorem feedFrom_undated (walls walls' : ℕ → Wall) (clock : Option ℤ) (s : Engine (R := R) asUtc)
    (es : List (SensingEvent R)) (hfresh : clock = none → Fresh f.cfg s) :
    (feedFrom f asUtc walls clock s es).map undated = (feedFrom f asUtc walls' clock s es).map undated := by
  induction es generalizing walls walls' clock s with
  | nil => rfl
  | cons e es ih =>
    obtain ⟨hengine, hstate⟩ := ingest_undated (e := e) hfresh (walls 0) (walls' 0)
    rw [feedFrom_cons, feedFrom_cons, List.map_append, List.map_append, ← Option.toList_map, ← Option.toList_map,
      hstate, hengine]
    rw [ih (later walls) (later walls') _ _ (Fresh.ingest hfresh (walls' 0))]

/-- Behind these events, every malformed event comes behind a well-formed one of its room. -/
def AnchoredBehind (asUtc : String → Option ℤ) (before events : List (SensingEvent R)) : Prop :=
  ∀ pre e post, events = pre ++ e :: post → asUtc e.ts = none →
    ∃ e' ∈ before ++ pre, e'.room = e.room ∧ asUtc e'.ts ≠ none

theorem anchoredBehind_cons {before es : List (SensingEvent R)} {e : SensingEvent R} :
    AnchoredBehind asUtc before (e :: es) ↔
      (asUtc e.ts = none → ∃ e' ∈ before, e'.room = e.room ∧ asUtc e'.ts ≠ none) ∧
        AnchoredBehind asUtc (before ++ [e]) es := by
  constructor
  · intro h
    refine ⟨fun hutc => ?_, fun pre e₁ post hes hutc => ?_⟩
    · simpa using h [] e es rfl hutc
    · have hin := h (e :: pre) e₁ post (by rw [hes, List.cons_append]) hutc
      simpa using hin
  · rintro ⟨hfirst, hrest⟩ pre e₁ post hes hutc
    cases pre with
    | nil =>
      cases hes
      simpa using hfirst hutc
    | cons e₀ pre =>
      cases hes
      simpa using hrest pre e₁ post rfl hutc

/-- The room states of two replays are equal, whatever the machine's clock, exactly when every
malformed event is anchored. -/
theorem feedFrom_eq_iff (clock : Option ℤ) (s : Engine (R := R) asUtc) (before es : List (SensingEvent R))
    (hfresh : clock = none → Fresh f.cfg s)
    (hseen : ∀ room, s.events room ≠ [] ↔ ∃ e ∈ before, e.room = room ∧ asUtc e.ts ≠ none) :
    (∀ walls walls', feedFrom f asUtc walls clock s es = feedFrom f asUtc walls' clock s es) ↔
      AnchoredBehind asUtc before es := by
  induction es generalizing clock s before with
  | nil => simp [feedFrom, driven, outputs, AnchoredBehind]
  | cons e es ih =>
    have hnext : ∀ w room, (ingest f clock w e s).2.events room ≠ [] ↔
        ∃ e' ∈ before ++ [e], e'.room = room ∧ asUtc e'.ts ≠ none := by
      intro w room
      rw [events_ingest, hseen]
      simp [or_and_right, exists_or]
    have htail := fun w => ih (tick asUtc clock e) (ingest f clock w e s).2 (before ++ [e])
      (Fresh.ingest hfresh w) (hnext w)
    rw [anchoredBehind_cons]
    -- the induction carries the engine and the events that it has seen
    constructor
    · intro h
      have hsplit := fun walls walls' => (feedFrom_cons_eq_iff f walls walls' clock s e es).mp (h walls walls')
      refine ⟨fun hutc => ?_, (htail midnight).mp fun walls walls' => ?_⟩
      · have hsame := (hsplit (fun _ => midnight) fun _ => pastMidnight).1
        exact (hseen e.room).mp (known_of_same f hutc hsame)
      · -- the engine behind the first event is the same whatever the clock says later
        exact (hsplit (begun midnight walls) (begun midnight walls')).2
    · rintro ⟨hfirst, hrest⟩ walls walls'
      have hingest : ingest f clock (walls 0) e s = ingest f clock (walls' 0) e s := by
        by_cases hutc : asUtc e.ts = none
        · exact ingest_known hfresh ((hseen e.room).mpr (hfirst hutc)) _ _
        · exact ingest_accepted _ _ hutc
      rw [feedFrom_cons, feedFrom_cons, hingest, (htail (walls' 0)).mpr hrest (later walls) (later walls')]

end

theorem fresh_newEngine (cfg : Config ar) : Fresh cfg (newEngine (R := R) asUtc) where
  events := fun _ => rfl
  latch := fun _ => rfl
  occupied := by
    intro room h
    cases h

/-- A recording with room for its events reproduces them exactly when every malformed event comes
behind a well-formed one of its room. -/
theorem reproduces_iff (nb : Numbers R) (f : Factory ar) (text : JsonText R) (asUtc : String → Option ℤ)
    (label started : String) (maxEvents : ℤ) (observed : List (Observed R))
    (hroom : (observed.length : ℤ) ≤ max 1 maxEvents) :
    Reproduces nb f text asUtc (recorded label maxEvents started observed) (observed.map (·.event)) ↔
      Anchored asUtc (observed.map (·.event)) := by
  have hloads := text.loads_dumps _ (distinct_recorded label started maxEvents observed)
  have hreplay : ∀ walls, replay nb f asUtc walls (recorded label maxEvents started observed) =
      .ok (feed f asUtc walls (observed.map (·.event))) := by
    intro walls
    rw [replay_recorded, kept_eq_self hroom]
  have hseen : ∀ room, (newEngine (R := R) asUtc).events room ≠ [] ↔
      ∃ e ∈ ([] : List (SensingEvent R)), e.room = room ∧ asUtc e.ts ≠ none := fun room => by simp [newEngine]; rfl
  refine Iff.trans ?_ (feedFrom_eq_iff f none (newEngine asUtc) [] _ (fun _ => fresh_newEngine f.cfg) hseen)
  constructor
  · intro h walls walls'
    obtain ⟨decoded, states, hdecoded, hstates, hfeed, -⟩ := h walls walls'
    obtain rfl := Option.some.inj (hloads.symm.trans hdecoded)
    exact (Except.ok.inj ((hreplay walls).symm.trans hstates)).trans hfeed
  · intro h walls walls'
    exact ⟨_, _, hloads, hreplay walls, h walls walls', (hreplay walls').trans (congrArg Except.ok (h walls' walls))⟩

/-! ## A trace that begins with a bad timestamp -/

def ratNumbers : Numbers ℚ where
  isZero q := q = 0
  trunc q := .ok (if 0 ≤ q then q.floor else q.ceil)
  ofInt n := some n
  floatOfStr _ := none
  intOfStr _ := none

/-- Documents kept as values. -/
def asValues : JsonText ℚ := ⟨Json ℚ, id, some, fun _ _ => rfl⟩

/-- The engine that the route builds. -/
def defaultFactory : Factory ratArith := ⟨defaultConfig, fun _ _ => none, fun _ _ => none⟩

/-- A camera in the room. -/
def observedAt (ts : String) : Observed ℚ :=
  ⟨{ sighting "camera" "door" true (9 / 10) (some 1) with ts }, 0⟩

def recordedAt (ts : String) : Json ℚ := recorded "kitchen" 20000 "2026-01-01T00:00:00+00:00" [observedAt ts]

theorem midnight_reproduces : Reproduces ratNumbers defaultFactory asValues parse
    (recordedAt "2026-01-01T00:00:00+00:00") [(observedAt "2026-01-01T00:00:00+00:00").event] := by
  refine (reproduces_iff ratNumbers defaultFactory asValues parse "kitchen" "2026-01-01T00:00:00+00:00" 20000
    [observedAt "2026-01-01T00:00:00+00:00"] (by decide)).mpr fun pre e post hsplit hutc => ?_
  have hin : e ∈ [(observedAt "2026-01-01T00:00:00+00:00").event] := by
    rw [List.map_singleton] at hsplit
    rw [hsplit]
    exact List.mem_append_right pre List.mem_cons_self
  rw [List.mem_singleton.mp hin] at hutc
  cases hutc

/-- The timestamps of the room states of a replay. -/
def stamps {R : Type} (states : Except Unread (List (RoomState R))) : Option (List String) :=
  (states.map fun states => states.map (·.ts)).toOption

/-- Replayed twice, the room state carries the time of either replay. -/
theorem yesterday_not_reproduced : ¬ Reproduces ratNumbers defaultFactory asValues parse
    (recordedAt "yesterday") [(observedAt "yesterday").event] := by
  intro h
  obtain ⟨decoded, states, hdecoded, hfirst, -, hsecond⟩ := h (fun _ => midnight) fun _ => pastMidnight
  obtain rfl := Option.some.inj hdecoded
  have hmidnight : stamps (replay ratNumbers defaultFactory parse (fun _ => midnight) (recordedAt "yesterday")) =
      some ["2026-01-01T00:00:00+00:00"] := by decide +kernel
  have hpast : stamps (replay ratNumbers defaultFactory parse (fun _ => pastMidnight) (recordedAt "yesterday")) =
      some ["2026-01-01T00:01:00+00:00"] := by decide +kernel
  rw [show replay _ _ _ _ (recordedAt "yesterday") = _ from hfirst] at hmidnight
  rw [show replay _ _ _ _ (recordedAt "yesterday") = _ from hsecond, hmidnight] at hpast
  exact absurd hpast (by decide)

end Wavr.Trace
