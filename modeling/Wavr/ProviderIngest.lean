import Wavr.FusionLatch
import Wavr.Json

/-!
# External providers

`provider_ingest`: what a provider declares, what is made of a batch it posts, and the rung that
fusion grants for it.
-/

namespace Wavr.ProviderIngest
open Fusion (Arith Call Config Engine Env Level SensingEvent Stored)
open Run Text

def ALLOWED_MODALITIES : List String := ["node", "pir", "ble", "wifi_csi"]

def KINDS : List String := ["sensor", "derived", "spatial", "network", "platform"]

def REACH_ORDER : List String := ["local", "lan", "internet", "cloud"]

def CONFIDENCE_SEMANTICS : List String := ["probability", "score", "quality", "none"]

def SENSOR_PREFIX : String := "ext:"

def MAX_BATCH : ℕ := 200

def MAX_ID : ℕ := 64

/-- The keys of `_SCOPE_RANK`. -/
def LEVELS : List (String × Level) :=
  [("none", .none), ("house", .house), ("room", .room), ("count", .count), ("position", .position)]

def levelName : Level → String
  | .none => "none"
  | .house => "house"
  | .room => "room"
  | .count => "count"
  | .position => "position"

structure ExternalProvider where
  providerId : String
  label : String
  kind : String
  reach : String
  modality : String
  ceiling : Level
  confidence : String
  enabled : Bool
  notes : String
  deviceId : String
  deriving DecidableEq

/-- The ceiling allows a count, and fusion heeds one of this modality. -/
def ExternalProvider.mayCount (p : ExternalProvider) : Bool :=
  Level.count.rank ≤ p.ceiling.rank && Fusion.isCounting p.modality

/-- The string methods that are not written out, and `str` of a value that is no text. -/
structure Platform (R : Type) where
  lower : String → String
  isalnum : Char → Bool
  repr : String → String
  str : Json R → String

/-! ## Registering -/

/-- What a caller declares. -/
structure Declaration where
  providerId : String
  label : String
  kind : String
  reach : String
  modality : String
  ceiling : String
  confidence : String
  notes : String
  deviceId : String

/-- The table, with the stamp of each row. -/
abbrev ExternalProviderStore := Dict String (ExternalProvider × String)

section
variable {R : Type} (pf : Platform R)

def badSlug (what : String) : String :=
  what ++ " must be 1-64 characters of letters, digits, '_', '-' or '.'"

/-- `_slug`. -/
def slug (value what : String) : Except String String :=
  let s := String.ofList ((pf.lower (collapse value)).toList.map fun c => if c = ' ' then '_' else c)
  if ¬ truthy s ∨ MAX_ID < s.length ∨
      ¬ s.toList.all (fun c => pf.isalnum c || c = '_' || c = '-' || c = '.') then .error (badSlug what)
  else .ok s

/-- A declaration lowers the ceiling of its modality and never raises it. -/
def capped (modality : String) (ceiling : Level) : Level :=
  if (Fusion.scopeOf modality).rank < ceiling.rank then Fusion.scopeOf modality else ceiling

/-- The provider a declaration stands for; `error` is the IngestError. -/
def declared (d : Declaration) : Except String ExternalProvider := do
  let providerId ← slug pf d.providerId "provider_id"
  let label := truncate 120 (collapse d.label)
  if d.kind ∉ KINDS then
    .error "kind must be one of ['derived', 'network', 'platform', 'sensor', 'spatial']"
  else if d.reach ∉ REACH_ORDER then
    .error ("reach must be one of ['local', 'lan', 'internet', 'cloud'] — a provider that does not " ++
      "say how far it reaches cannot be enabled safely")
  else if d.modality ∉ ALLOWED_MODALITIES then
    .error "modality must be one of ['ble', 'node', 'pir', 'wifi_csi']"
  else if d.confidence ∉ CONFIDENCE_SEMANTICS then .error "unknown confidence semantics"
  else
    match LEVELS.lookup d.ceiling with
    | none => .error ("unknown precision ceiling " ++ pf.repr d.ceiling)
    | some ceiling =>
      .ok
        { providerId
          label := if truthy label then label else providerId
          kind := d.kind
          reach := d.reach
          modality := d.modality
          ceiling := capped d.modality ceiling
          confidence := d.confidence
          enabled := true
          notes := d.notes
          deviceId := truncate MAX_ID d.deviceId }

/-- A provider that is there keeps its switch and its stamp. -/
def register (ts : String) (d : Declaration) (s : ExternalProviderStore) :
    Except String ExternalProvider × ExternalProviderStore :=
  match declared pf d with
  | .error why => (.error why, s)
  | .ok p =>
    let row := match s.get? p.providerId with
      | none => (p, ts)
      | some (old, ts) => ({ p with enabled := old.enabled }, ts)
    (.ok p, s.set p.providerId row)

def get (providerId : String) (s : ExternalProviderStore) : Option ExternalProvider :=
  (s.get? providerId).map Prod.fst

def setEnabled (providerId : String) (enabled : Bool) (s : ExternalProviderStore) :
    Bool × ExternalProviderStore :=
  ((s.get? providerId).isSome,
    s.map fun id row => if id = providerId then ({ row.1 with enabled }, row.2) else row)

def remove (providerId : String) (s : ExternalProviderStore) : Bool × ExternalProviderStore :=
  ((s.get? providerId).isSome, s.erase providerId)

inductive Op
  | register (ts : String) (d : Declaration)
  | setEnabled (providerId : String) (enabled : Bool)
  | remove (providerId : String)

def step (s : ExternalProviderStore) : Op → ExternalProviderStore
  | .register ts d => (register pf ts d s).2
  | .setEnabled providerId enabled => (setEnabled providerId enabled s).2
  | .remove providerId => (remove providerId s).2

end

/-! ## Translating a batch -/

/-- One entry of `problems`. -/
structure Problem where
  index : ℕ
  dropped : String
  why : String
  deriving DecidableEq

/-- Why `translate` returns nothing: an IngestError, or what else it raises. -/
inductive Failure
  | ingestError (text : String)
  | raised (e : Raised)
  deriving DecidableEq

section
variable {R : Type} (pf : Platform R) (nb : Numbers R) (ar : Arith R)

/-- `str(v)`. -/
def strOf : Json R → String
  | .str s => s
  | v => pf.str v

def unknownRoom (room : String) (known : Finset String) : String :=
  "no room named " ++ pf.repr room ++ " in this Space. Known rooms: [" ++
    ", ".intercalate ((sortedSet known).map pf.repr) ++ "]"

def cannotCount (p : ExternalProvider) : String :=
  p.providerId ++ " is declared at '" ++ levelName p.ceiling ++ "' precision and fuses as '" ++
    p.modality ++ "', so it cannot assert a headcount. The presence was kept."

def readCount (p : ExternalProvider) (i : ℕ) (v : Json R) : Except Raised (Option ℕ × List Problem) :=
  match v with
  | .null => pure (none, [])
  | v =>
    if ¬ p.mayCount then pure (none, [⟨i, "count", cannotCount p⟩])
    else
      catching [.typeError, .valueError] ((fun n => (some n.toNat, [])) <$> Json.toInt nb v)
        (pure (none, [⟨i, "count", "count was not a whole number"⟩]))

def readConfidence (i : ℕ) (v : Json R) : Except Raised (R × List Problem) :=
  match v with
  | .null => pure (ar.lit (7 / 10), [])
  | v =>
    catching [.typeError, .valueError] ((fun x => (x, [])) <$> Json.toFloat nb v)
      (pure (ar.lit (7 / 10), [⟨i, "confidence", "confidence was not a number; used 0.7"⟩]))

/-- Observation `i`: what is wrong with it, and its event. `atFn` is the clock that a stated time
goes through, at that observation. -/
def observation (p : ExternalProvider) (known : Finset String) (atFn : ℕ → Json R → Except Raised String)
    (i : ℕ) (obs : Json R) : Except Raised (List Problem × Option (SensingEvent R)) :=
  match obs with
  | .obj obs =>
    let room := strip (strOf pf (Json.orElse nb (Json.get obs "room") (.str "")))
    if room ∉ known then pure ([⟨i, "observation", unknownRoom pf room known⟩], none)
    else do
      let present := Json.truthy nb (Json.get obs "present")
      let (count, dropped) ← readCount nb p i (Json.get obs "count")
      let (confidence, unread) ← readConfidence nb ar i (Json.get obs "confidence")
      let confidence := ar.max (ar.lit 0) (ar.min (ar.lit 1) confidence)
      let sensor := truncate MAX_ID
        (strOf pf (Json.orElse nb (Json.get obs "sensor_id") (.str p.providerId)))
      let ts ← atFn i (Json.get obs "at")
      pure (dropped ++ unread, some
        { room
          modality := p.modality
          presence := present
          breathingBpm := none
          heartBpm := none
          confidence := if present then confidence else ar.lit 0
          ts
          targets := []
          identities := []
          count := if present then count else none
          sensorId := SENSOR_PREFIX ++ p.providerId ++ ":" ++ sensor })
  | _ => pure ([⟨i, "observation", "not an object"⟩], none)

def translateRows (p : ExternalProvider) (known : Finset String)
    (atFn : ℕ → Json R → Except Raised String) :
    ℕ → List (Json R) → Except Raised (List (SensingEvent R) × List Problem)
  | _, [] => pure ([], [])
  | i, obs :: rows => do
    let (here, event) ← observation pf nb ar p known atFn i obs
    let (events, problems) ← translateRows p known atFn (i + 1) rows
    pure (event.toList ++ events, here ++ problems)

def translate (p : ExternalProvider) (observations : List (Json R)) (rooms : List String)
    (atFn : ℕ → Json R → Except Raised String) :
    Except Failure (List (SensingEvent R) × List Problem) :=
  if MAX_BATCH < observations.length then
    .error (.ingestError ("at most 200 observations per request; got " ++ toString observations.length))
  else
    match translateRows pf nb ar p rooms.toFinset atFn 0 observations with
    | .error e => .error (.raised e)
    | .ok out => .ok out

end

/-! ## What is stored -/

/-- What registering promises of a provider. -/
structure Declared (p : ExternalProvider) : Prop where
  allowed : p.modality ∈ ALLOWED_MODALITIES
  capped : p.ceiling.rank ≤ (Fusion.scopeOf p.modality).rank

section
variable {R : Type} {pf : Platform R} {p : ExternalProvider}

theorem rank_capped (modality : String) (ceiling : Level) :
    (capped modality ceiling).rank ≤ (Fusion.scopeOf modality).rank := by
  unfold capped
  split
  · exact le_rfl
  · next h => exact Nat.not_lt.mp h

theorem declared_ok {d : Declaration} (h : declared pf d = .ok p) : Declared p := by
  unfold declared at h
  cases hslug : slug pf d.providerId "provider_id" with
  | error why =>
    rw [hslug] at h
    cases h
  | ok providerId =>
    rw [hslug] at h
    dsimp only [bind, Except.bind] at h
    generalize (if truthy (truncate 120 (collapse d.label)) then _ else _) = label at h
    split_ifs at h with hkind hreach hmodality hconfidence
    split at h
    · cases h
    · cases h
      exact ⟨hmodality, rank_capped _ _⟩

theorem declared_register {ts : String} {d : Declaration} {s : ExternalProviderStore}
    (hs : ∀ id row, s.get? id = some row → Declared row.1) {id : String}
    {row : ExternalProvider × String} (hrow : (register pf ts d s).2.get? id = some row) :
    Declared row.1 := by
  unfold register at hrow
  cases hp : declared pf d with
  | error why =>
    rw [hp] at hrow
    exact hs id row hrow
  | ok p =>
    have hd := declared_ok hp
    rw [hp] at hrow
    dsimp only at hrow
    rw [Dict.get?_set] at hrow
    split at hrow
    · cases hrow
      split
      · exact hd
      · exact ⟨hd.allowed, hd.capped⟩
    · exact hs id row hrow

theorem declared_setEnabled {providerId : String} {enabled : Bool} {s : ExternalProviderStore}
    (hs : ∀ id row, s.get? id = some row → Declared row.1) {id : String}
    {row : ExternalProvider × String} (hrow : (setEnabled providerId enabled s).2.get? id = some row) :
    Declared row.1 := by
  rw [setEnabled, Dict.get?_map] at hrow
  obtain ⟨old, hold, rfl⟩ := Option.map_eq_some_iff.mp hrow
  have hd := hs id old hold
  split
  · exact ⟨hd.allowed, hd.capped⟩
  · exact hd

theorem declared_remove {providerId : String} {s : ExternalProviderStore}
    (hs : ∀ id row, s.get? id = some row → Declared row.1) {id : String}
    {row : ExternalProvider × String} (hrow : (remove providerId s).2.get? id = some row) :
    Declared row.1 := by
  rw [remove, Dict.get?_erase] at hrow
  split at hrow
  · cases hrow
  · exact hs id row hrow

/-- Every stored provider keeps the promise. -/
theorem declared_run {ops : List Op} {id : String} (h : get id (finish (step pf) .empty ops) = some p) :
    Declared p := by
  have hrun : ∀ id row, (finish (step pf) .empty ops).get? id = some row → Declared row.1 := by
    refine history_induction
      (R := fun _ (s : ExternalProviderStore) => ∀ id row, s.get? id = some row → Declared row.1)
      ?_ ?_ ops
    · intro id row hrow
      simp at hrow
    · intro ops op ih id row hrow
      cases op with
      | register ts d => exact declared_register ih hrow
      | setEnabled providerId enabled => exact declared_setEnabled ih hrow
      | remove providerId => exact declared_remove ih hrow
  obtain ⟨row, hrow, rfl⟩ := Option.map_eq_some_iff.mp h
  exact hrun id row hrow

/-- Providers are worth a room, and count nobody. -/
theorem allowed_scope {m : String} (h : m ∈ ALLOWED_MODALITIES) :
    Fusion.scopeOf m = .room ∧ Fusion.isCounting m = false := by
  have hall : ∀ m ∈ ALLOWED_MODALITIES, Fusion.scopeOf m = .room ∧ Fusion.isCounting m = false := by
    decide
  exact hall m h

theorem Declared.mayCount (hp : Declared p) : p.mayCount = false := by
  rw [ExternalProvider.mayCount, (allowed_scope hp.allowed).2, Bool.and_false]

/-! ## What is translated -/

/-- An event in the name of the provider, without a count. -/
def Speaks (p : ExternalProvider) (e : SensingEvent R) : Prop := e.modality = p.modality ∧ e.count = none

variable {nb : Numbers R} {ar : Arith R} {known : Finset String}
  {atFn : ℕ → Json R → Except Raised String}

theorem meets_readCount (hp : p.mayCount = false) (i : ℕ) (v : Json R) :
    Meets (fun _ => True) (fun out => out.1 = none) (readCount nb p i v) := by
  cases v with
  | null => exact Meets.pure rfl
  | _ =>
    unfold readCount
    simp only [hp]
    exact Meets.pure rfl

theorem meets_observation (hp : p.mayCount = false) (i : ℕ) (obs : Json R) :
    Meets (fun _ => True) (fun out => ∀ e, out.2 = some e → Speaks p e)
      (observation pf nb ar p known atFn i obs) := by
  cases obs with
  | obj obs =>
    unfold observation
    dsimp only
    split
    · exact Meets.pure nofun
    · refine (meets_readCount hp i _).bind fun count hcount => ?_
      refine (Meets.trivial _).bind fun confidence _ => ?_
      refine (Meets.trivial _).bind fun ts _ => Meets.pure fun e he => ?_
      rw [← Option.some.inj he]
      exact ⟨rfl, by simp [hcount]⟩
  | _ => exact Meets.pure nofun

theorem meets_translateRows (hp : p.mayCount = false) (i : ℕ) (rows : List (Json R)) :
    Meets (fun _ => True) (fun out => ∀ e ∈ out.1, Speaks p e)
      (translateRows pf nb ar p known atFn i rows) := by
  induction rows generalizing i with
  | nil => exact Meets.pure nofun
  | cons obs rows ih =>
    refine (meets_observation hp i obs).bind fun here hhere => (ih (i + 1)).bind fun out hout => ?_
    refine Meets.pure fun e he => ?_
    rcases List.mem_append.mp he with hnew | hold
    · exact hhere e (Option.mem_toList.mp hnew)
    · exact hout e hold

theorem translate_speaks (hp : p.mayCount = false) {observations : List (Json R)} {rooms : List String}
    {events : List (SensingEvent R)} {problems : List Problem}
    (h : translate pf nb ar p observations rooms atFn = .ok (events, problems)) :
    ∀ e ∈ events, Speaks p e := by
  unfold translate at h
  split at h
  · cases h
  · have hrows : Meets _ _ (translateRows pf nb ar p rooms.toFinset atFn 0 observations) :=
      meets_translateRows hp 0 observations
    split at h
    · cases h
    · next hout =>
      cases h
      exact hrows.of_ok hout

end

/-! ## What fusion grants -/

section
variable {R : Type} {ar : Arith R} {asUtc : String → Option ℤ} {cfg : Config ar} {env : Env R}
  {room : String} {ref : ℤ} {es : List (Stored (R := R) asUtc)} {l : Level}

/-- The rung of sources that are all worth the same. -/
theorem seen_of_scope (hscope : ∀ e ∈ es, Fusion.scopeOf e.event.modality = l) :
    Fusion.seen cfg ref es = if es.any (Fusion.live cfg ref) then l else .none := by
  have hmax : ∀ b, b = .none ∨ b = l → Level.max b l = l := by
    rintro b (rfl | rfl)
    · cases l <;> rfl
    · cases b <;> rfl
  have key : ∀ b, b = .none ∨ b = l → es.foldl (fun best e =>
      if Fusion.live cfg ref e then best.max (Fusion.scopeOf e.event.modality) else best) b =
        if es.any (Fusion.live cfg ref) then l else b := by
    induction es with
    | nil => exact fun b _ => rfl
    | cons e es ih =>
      intro b hb
      have htail := ih fun e' he' => hscope e' (List.mem_cons_of_mem e he')
      rw [List.foldl_cons, List.any_cons, hscope e List.mem_cons_self]
      cases Fusion.live cfg ref e with
      | false => exact htail b hb
      | true =>
        rw [if_pos rfl, hmax b hb, htail l (.inr rfl)]
        simp
  exact key .none (.inl rfl)

variable {s : Engine (R := R) asUtc} {ts : String}

/-- Sources that count nobody leave a room without a latch uncounted. -/
theorem fuse_uncounted (hcount : ∀ e ∈ s.events room, Fusion.isCounting e.event.modality = false)
    (hlatch : s.countLatch.get? room = none) : (Fusion.fuse cfg env room ts s).1.personCount = none := by
  have hpick : Fusion.pickCount cfg (Fusion.reference asUtc env ts) (s.events room) = none := by
    cases hp : Fusion.pickCount cfg (Fusion.reference asUtc env ts) (s.events room) with
    | none => rfl
    | some p =>
      obtain ⟨e, he, hcounting, -⟩ := Fusion.pickCount_vouches hp
      rw [hcount e he] at hcounting
      cases hcounting
  cases hn : (Fusion.fuse cfg env room ts s).1.personCount with
  | none => rfl
  | some n =>
    obtain ⟨latch, hl, -⟩ := Fusion.fuse_held hpick hn
    rw [hlatch] at hl
    cases hl

/-- A live source that cannot count occupies its room. -/
theorem occupied_of_live {e : Stored (R := R) asUtc} (he : e ∈ s.events room)
    (hlive : Fusion.live cfg ref e = true) (hcount : Fusion.isCounting e.event.modality = false) :
    (Fusion.dwell cfg env room ref s).1.1 = true := by
  have hpresent : Fusion.housePresent cfg ref (s.events room) = true :=
    List.any_eq_true.mpr ⟨e, he, by rw [hlive, hcount]; rfl⟩
  rw [Fusion.dwell_occupied, Fusion.kept, hpresent, Bool.or_true, Bool.true_or, Bool.or_true]

/-- Sources worth a room earn it while one of them is live, and nothing otherwise. -/
theorem fuse_level (hscope : ∀ e ∈ s.events room,
      Fusion.scopeOf e.event.modality = .room ∧ Fusion.isCounting e.event.modality = false)
    (hlatch : s.countLatch.get? room = none) :
    (Fusion.fuse cfg env room ts s).1.precisionLevel =
      if (s.events room).any (Fusion.live cfg (Fusion.reference asUtc env ts)) then .room else .none := by
  have hseen : Fusion.seen cfg (Fusion.reference asUtc env ts) (s.events room) = _ :=
    seen_of_scope fun e he => (hscope e he).1
  have hnone : (Fusion.headcount cfg env room (Fusion.reference asUtc env ts) s).1.personCount = none :=
    fuse_uncounted (fun e he => (hscope e he).2) hlatch
  change Fusion.precision cfg (Fusion.reference asUtc env ts) (s.events room)
    (Fusion.dwell cfg env room (Fusion.reference asUtc env ts) s).1.1
    (Fusion.headcount cfg env room (Fusion.reference asUtc env ts) s).1 = _
  rw [Fusion.precision, hnone, hseen]
  by_cases hany : (s.events room).any (Fusion.live cfg (Fusion.reference asUtc env ts)) = true
  · obtain ⟨e, he, hlive⟩ := List.any_eq_true.mp hany
    rw [occupied_of_live he hlive (hscope e he).2, if_pos hany]
    rfl
  · rw [if_neg hany]
    split <;> rfl

variable (cfg)

/-- What the call returns stays within the ceiling. -/
def WithinCall (ceiling : Level) (s : Engine (R := R) asUtc) (call : Call R) : Prop :=
  ∀ rs, (Fusion.run cfg call s).1 = .fused rs → rs.precisionLevel.rank ≤ ceiling.rank

/-- In the room the call fuses, if any, no source is live. -/
def LifelessCall (s : Engine (R := R) asUtc) (call : Call R) : Prop :=
  ∀ room ts, (Fusion.begin call s).1 = .ok (room, ts) →
    ∀ e ∈ (Fusion.begin call s).2.events room,
      Fusion.live cfg (Fusion.reference asUtc call.env ts) e = false

/-- The call updates with one of the events, if it updates. -/
def Feeds (events : List (SensingEvent R)) (call : Call R) : Prop :=
  ∀ e, call.op = .update e → e ∈ events

variable {cfg} {p : ExternalProvider} {events : List (SensingEvent R)}

/-- What a fed engine holds is worth a room, counts nobody and is latched nowhere. -/
theorem fed_scope (hp : Declared p) (hevents : ∀ e ∈ events, Speaks p e) {calls : List (Call R)}
    (hfed : ∀ call ∈ calls, Feeds events call) (htraced : Fusion.Traced calls s) :
    (∀ room, ∀ e ∈ s.events room,
      Fusion.scopeOf e.event.modality = .room ∧ Fusion.isCounting e.event.modality = false) ∧
      ∀ room, s.countLatch.get? room = none := by
  have hspeaks : ∀ room (e : Stored (R := R) asUtc), Fusion.Handed calls room e → Speaks p e.event := by
    rintro room e ⟨call, hcall, hop, -⟩
    exact hevents e.event (hfed call hcall e.event hop)
  constructor
  · intro room e he
    rw [(hspeaks room e (htraced.events room e he)).1]
    exact allowed_scope hp.allowed
  · intro room
    cases hl : s.countLatch.get? room with
    | none => rfl
    | some latch =>
      obtain ⟨e, hhanded, -, -, hcount, -⟩ := htraced.latch room latch hl
      rw [(hspeaks room e hhanded).2] at hcount
      cases hcount

/-- A call that meets only room sources stays within a ceiling exactly where the ceiling reaches the
room, or no source of the fused room is live. -/
theorem withinCall_iff (ceiling : Level) {call : Call R}
    (hscope : ∀ room, ∀ e ∈ (Fusion.begin call s).2.events room,
      Fusion.scopeOf e.event.modality = .room ∧ Fusion.isCounting e.event.modality = false)
    (hlatch : ∀ room, (Fusion.begin call s).2.countLatch.get? room = none) :
    WithinCall cfg ceiling s call ↔ Level.room.rank ≤ ceiling.rank ∨ LifelessCall cfg s call := by
  unfold WithinCall LifelessCall Fusion.run
  rcases hb : Fusion.begin call s with ⟨why | ⟨room, ts⟩, s₁⟩
  · simp
  · rw [hb] at hscope hlatch
    have hlevel : (Fusion.fuse cfg call.env room ts s₁).1.precisionLevel = _ :=
      fuse_level (hscope room) (hlatch room)
    constructor
    · intro h
      have hle := h _ rfl
      rw [hlevel] at hle
      split at hle
      · exact .inl hle
      · next hany =>
        right
        intro room' ts' he e hmem
        cases he
        by_contra hlive
        exact hany (List.any_eq_true.mpr ⟨e, hmem, Bool.eq_true_of_not_eq_false hlive⟩)
    · intro h rs hrs
      cases hrs
      rw [hlevel]
      split
      · next hany =>
        rcases h with hroom | hdead
        · exact hroom
        · obtain ⟨e, he, hlive⟩ := List.any_eq_true.mp hany
          rw [hdead room ts rfl e he] at hlive
          cases hlive
      · exact Nat.zero_le _

end

/-- Whatever a stored provider posts, and however its events are fused and read, every rung stays
within its ceiling exactly where the ceiling is the room, or no source is live in a room that is
fused. -/
theorem ceiling_kept_iff {R : Type} (pf : Platform R) (nb : Numbers R) (ar : Arith R)
    (asUtc : String → Option ℤ) (cfg : Config ar) (ops : List Op) (providerId : String)
    (p : ExternalProvider) (hp : get providerId (finish (step pf) .empty ops) = some p)
    (observations : List (Json R)) (rooms : List String) (atFn : ℕ → Json R → Except Raised String)
    (events : List (SensingEvent R)) (problems : List Problem)
    (htranslate : translate pf nb ar p observations rooms atFn = .ok (events, problems))
    (calls : List (Call R)) (hfed : ∀ call ∈ calls, Feeds events call) :
    AllSteps (Fusion.step cfg) (WithinCall cfg p.ceiling) (Fusion.newEngine (R := R) asUtc) calls ↔
      AllSteps (Fusion.step cfg) (fun s call => p.ceiling = .room ∨ LifelessCall cfg s call)
        (Fusion.newEngine asUtc) calls := by
  have hdeclared := declared_run hp
  have hspeaks := translate_speaks hdeclared.mayCount htranslate
  have hroom : Level.room.rank ≤ p.ceiling.rank ↔ p.ceiling = .room := by
    have hle := hdeclared.capped
    rw [(allowed_scope hdeclared.allowed).1] at hle
    revert hle
    cases p.ceiling <;> decide
  have hsteps : AllSteps (Fusion.step cfg) (fun _ call => Feeds events call)
      (Fusion.newEngine (R := R) asUtc) calls := allSteps_of_forall fun call hcall _ => hfed call hcall
  refine allSteps_congr_of_invariant
    (I := fun s => ∃ calls, (∀ call ∈ calls, Feeds events call) ∧ Fusion.Traced calls s) ?_ ?_
    ⟨[], List.forall_mem_nil _, Fusion.traced_finish cfg []⟩ hsteps
  · rintro s call ⟨before, hbefore, htraced⟩ hcall
    exact ⟨before ++ [call], List.forall_mem_append.mpr ⟨hbefore, List.forall_mem_singleton.mpr hcall⟩,
      htraced.step cfg call⟩
  · rintro s call ⟨before, hbefore, htraced⟩ hcall
    have hfed := List.forall_mem_append.mpr ⟨hbefore, List.forall_mem_singleton.mpr hcall⟩
    obtain ⟨hscope, hlatch⟩ := fed_scope hdeclared hspeaks hfed (htraced.begin call)
    rw [withinCall_iff p.ceiling hscope hlatch, hroom]

/-- ASCII names, and rationals for doubles. -/
def samplePlatform : Platform ℚ where
  lower := Text.lower
  isalnum := Char.isAlphanum
  repr s := "'" ++ s ++ "'"
  str _ := ""

def sampleNumbers : Numbers ℚ where
  isZero q := q = 0
  trunc q := .ok (Fusion.ratArith.trunc q)
  ofInt n := some n
  floatOfStr _ := none
  intOfStr _ := none

/-- Beacons that are declared to know the house and no room. -/
def sampleOps : List Op :=
  [.register "2026-01-01T00:00:00+00:00"
    { providerId := "beacons", label := "", kind := "spatial", reach := "lan", modality := "ble"
      ceiling := "house", confidence := "none", notes := "", deviceId := "" }]

def sampleProvider : ExternalProvider where
  providerId := "beacons"
  label := "beacons"
  kind := "spatial"
  reach := "lan"
  modality := "ble"
  ceiling := .house
  confidence := "none"
  enabled := true
  notes := ""
  deviceId := ""

def samplePost : List (Json ℚ) := [.obj [("room", .str "sala"), ("present", .bool true)]]

def sampleClock (_ : ℕ) (_ : Json ℚ) : Except Raised String := .ok "2026-01-01T00:00:00+00:00"

def sampleEvent : SensingEvent ℚ :=
  ⟨"sala", "ble", true, none, none, 7 / 10, "2026-01-01T00:00:00+00:00", [], [], none,
    "ext:beacons:beacons"⟩

def sampleCall : Call ℚ := ⟨.update sampleEvent, Fusion.clockAt 1767225600000000⟩

theorem ceiling_kept_sample :
    AllSteps (Fusion.step Fusion.defaultConfig) (WithinCall Fusion.defaultConfig .house)
        (Fusion.newEngine (R := ℚ) Fusion.parse) [sampleCall] ↔
      AllSteps (Fusion.step Fusion.defaultConfig)
        (fun s call => Level.house = .room ∨ LifelessCall Fusion.defaultConfig s call)
        (Fusion.newEngine Fusion.parse) [sampleCall] := by
  refine ceiling_kept_iff samplePlatform sampleNumbers Fusion.ratArith Fusion.parse Fusion.defaultConfig
    sampleOps "beacons" sampleProvider (by decide +kernel) samplePost ["sala"] sampleClock [sampleEvent] []
    (by decide +kernel) [sampleCall] ?_
  rintro call hcall e he
  rw [List.mem_singleton.mp hcall] at he
  cases he
  exact List.mem_singleton_self _

/-- The ceiling is the house, and the room of the post is reported at the rung of a room. -/
theorem house_provider_reaches_room :
    get "beacons" (finish (step samplePlatform) .empty sampleOps) = some sampleProvider ∧
      translate samplePlatform sampleNumbers Fusion.ratArith sampleProvider samplePost ["sala"] sampleClock =
        .ok ([sampleEvent], []) ∧
      ¬ AllSteps (Fusion.step Fusion.defaultConfig) (WithinCall Fusion.defaultConfig sampleProvider.ceiling)
        (Fusion.newEngine (R := ℚ) Fusion.parse) [sampleCall] := by
  refine ⟨by decide +kernel, by decide +kernel, ?_⟩
  rintro ⟨hwithin, -⟩
  have hlevel : ((Fusion.run Fusion.defaultConfig sampleCall
      (Fusion.newEngine Fusion.parse)).1.state?.map fun rs => rs.precisionLevel) = some .room := by
    decide +kernel
  obtain ⟨rs, hrs, hroom⟩ := Option.map_eq_some_iff.mp hlevel
  have hle := hwithin rs (Fusion.Reply.eq_fused hrs)
  rw [hroom] at hle
  exact absurd hle (by decide)

end Wavr.ProviderIngest
