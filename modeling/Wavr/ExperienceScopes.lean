import Wavr.ExperienceSession

/-!
# What a scope lets through

A redacted context has what the scopes of its caller gate and no more, and without the scope for counting
nothing in it depends on a headcount.
-/

namespace Wavr.Experience
open Fusion (Arith ratArith)
open ExperienceSession (Target targetsIn)

variable {R A V : Type}

/-! ## Capabilities and fields -/

/-- The capabilities that a redaction takes away. Presence is for everyone. -/
def GATED : List String := [CAP_COUNT, CAP_POSITION, CAP_ANCHORS]

/-- A redacted context beside the one it was made of. -/
structure ScopeExact (allowed : Finset String) (body out : Body R A V) : Prop where
  /-- A gated capability stays just where its scope was granted. -/
  gated : ∀ c ∈ GATED, ∃ scope, CAPABILITY_SCOPE.lookup c = some scope ∧
    (c ∈ out.capabilities ↔ c ∈ body.capabilities ∧ scope ∈ allowed)
  presence : CAP_PRESENCE ∈ out.capabilities ↔ CAP_PRESENCE ∈ body.capabilities
  nothingAdded : out.capabilities.Sublist body.capabilities
  /-- A field that is not for everyone is there where its scope was granted, and empty elsewhere. -/
  count : if SCOPE_COUNT ∈ allowed then
      out.occupancy = body.occupancy ∧ out.occupancyKnown = body.occupancyKnown
    else out.occupancy = none ∧ out.occupancyKnown = false
  anchors : out.anchors = if SCOPE_ANCHORS ∈ allowed then body.anchors else []
  devices : if SCOPE_DEVICES ∈ allowed then out.devices = body.devices ∧ out.sensors = body.sensors
    else out.devices = [] ∧ out.sensors = []
  /-- The sentence that names the sensors goes with them. -/
  names : SCOPE_DEVICES ∉ allowed → ∀ line ∈ out.limitations, ¬ NAMES_SENSORS.toList.isPrefixOf line.toList
  /-- A key that is not known is dropped. -/
  others : out.others = .empty

theorem mem_removed {allowed : Finset String} {c : String} :
    c ∈ removed allowed ↔ c = CAP_COUNT ∧ SCOPE_COUNT ∉ allowed ∨ c = CAP_POSITION ∧ SCOPE_POSITION ∉ allowed ∨
      c = CAP_ANCHORS ∧ SCOPE_ANCHORS ∉ allowed ∨ c = "devices" ∧ SCOPE_DEVICES ∉ allowed := by
  have hif : ∀ (p : Prop) [Decidable p] (x : String), c ∈ (if p then [] else [x]) ↔ c = x ∧ ¬ p := by
    intro p _ x
    by_cases hp : p <;> simp [hp]
  simp only [removed, List.mem_append, hif, or_assoc]

theorem mem_capabilities_redact {allowed : Finset String} {body : Body R A V} {c : String} :
    c ∈ (redact body (some allowed)).capabilities ↔ c ∈ body.capabilities ∧ c ∉ removed allowed := by
  simp [redact]

theorem not_names_of_mem {body : Body R A V} {line : String} (h : line ∈ limitationsWithoutNames body) :
    ¬ NAMES_SENSORS.toList.isPrefixOf line.toList := by
  obtain ⟨line', -, rfl⟩ := List.mem_map.mp h
  dsimp only
  split
  · intro hnames
    -- the two sentences part before the end of the shorter
    rw [String.append_assoc, String.toList_append, List.isPrefixOf_iff_prefix] at hnames
    have hprefix := List.prefix_of_prefix_length_le hnames (List.prefix_append _ _) (by decide +kernel)
    revert hprefix
    decide +kernel
  · assumption

theorem redact_scopeExact (allowed : Finset String) (body : Body R A V) :
    ScopeExact allowed body (redact body (some allowed)) where
  gated := by
    intro c hc
    simp only [GATED, List.mem_cons, List.not_mem_nil, or_false] at hc
    rcases hc with rfl | rfl | rfl
    · refine ⟨SCOPE_COUNT, rfl, ?_⟩
      rw [mem_capabilities_redact, mem_removed]
      simp [CAP_COUNT, CAP_POSITION, CAP_ANCHORS]
    · refine ⟨SCOPE_POSITION, rfl, ?_⟩
      rw [mem_capabilities_redact, mem_removed]
      simp [CAP_COUNT, CAP_POSITION, CAP_ANCHORS]
    · refine ⟨SCOPE_ANCHORS, rfl, ?_⟩
      rw [mem_capabilities_redact, mem_removed]
      simp [CAP_COUNT, CAP_POSITION, CAP_ANCHORS]
  presence := by
    rw [mem_capabilities_redact, mem_removed]
    simp [CAP_PRESENCE, CAP_COUNT, CAP_POSITION, CAP_ANCHORS]
  nothingAdded := List.filter_sublist
  count := by by_cases h : SCOPE_COUNT ∈ allowed <;> simp [redact, h]
  anchors := rfl
  devices := by by_cases h : SCOPE_DEVICES ∈ allowed <;> simp [redact, h]
  names := by
    intro h line hline
    have hlimitations : (redact body (some allowed)).limitations = limitationsWithoutNames body := if_neg h
    exact not_names_of_mem (hlimitations ▸ hline)
  others := rfl

/-- A kitchen with one sensor, which tells whether somebody is there. -/
def kitchen : Pieces ℚ Empty where
  space := none
  coverageRows := [⟨"pir-1", "kitchen", "pir", some "ok", some "room"⟩]
  anchors := []
  devices := []
  profile := fun _ _ _ => none

/-- Who was granted nothing is still told that presence can be had. -/
theorem presence_kept : ¬ ∀ c ∈ (redact (buildContext ratArith kitchen none none "kitchen" none :
      Body ℚ Empty Empty) (some ∅)).capabilities,
    ∀ scope, CAPABILITY_SCOPE.lookup c = some scope → scope ∈ (∅ : Finset String) := by
  intro h
  have hpresence : CAP_PRESENCE ∈ (redact (buildContext ratArith kitchen none none "kitchen" none :
      Body ℚ Empty Empty) (some ∅)).capabilities := by decide +kernel
  exact absurd (h CAP_PRESENCE hpresence SCOPE_PRESENCE rfl) (Finset.notMem_empty _)

/-! ## The headcount -/

/-- A state with its headcount hidden, though not whether it has one. -/
def RoomState.uncounted (rs : RoomState R) : RoomState R :=
  { rs with personCount := rs.personCount.map fun _ => 0 }

/-- Two houses that differ in their headcounts at most. -/
def SameButCounts (states states' : String → Option (RoomState R)) : Prop :=
  ∀ room, (states room).map RoomState.uncounted = (states' room).map RoomState.uncounted

/-- What an experience is shown: the context of every room, that of the space, and the targets that a
session is told of. -/
structure View (R A V : Type) where
  contexts : String → Body R A V
  space : SpaceBody R A V
  targets : String → List Target

/-- The routes; a space has its rooms redacted one by one. -/
def view (ar : Arith R) (pieces : Pieces R A) (protocolVersion : Option ℤ) (rooms : List String)
    (scopes : Option (Finset String)) (states : String → Option (RoomState R)) : View R A V :=
  let space := buildSpaceContext ar pieces protocolVersion rooms states
  { contexts := fun room => redact (buildContext ar pieces none protocolVersion room (states room)) scopes
    space := { space with rooms := space.rooms.map fun body => redact body scopes }
    targets := fun room => targetsIn room pieces.devices }

section
variable {ar : Arith R} {pieces : Pieces R A} {residualM : Option R} {protocolVersion : Option ℤ}
  {room : String} {rs rs' : Option (RoomState R)} {allowed : Finset String}

theorem of_uncounted_eq (h : rs.map RoomState.uncounted = rs'.map RoomState.uncounted) :
    rs = none ∧ rs' = none ∨ ∃ (r : RoomState R) (n : Option ℤ), rs = some r ∧
      rs' = some { r with personCount := n } ∧ (n = none ↔ r.personCount = none) := by
  cases rs with
  | none => cases rs' with
    | none => exact .inl ⟨rfl, rfl⟩
    | some r' => cases h
  | some r => cases rs' with
    | none => cases h
    | some r' =>
      have hr : r.uncounted = r'.uncounted := Option.some.inj h
      simp only [RoomState.uncounted, RoomState.mk.injEq] at hr
      obtain ⟨hprecision, hconfidence, hoccupied, hcount, hsources⟩ := hr
      refine .inr ⟨r, r'.personCount, rfl, ?_, ?_⟩
      · rw [hprecision, hconfidence, hoccupied, hsources]
      · rw [← Option.map_eq_none_iff (f := fun _ => (0 : ℤ)), ← hcount, Option.map_eq_none_iff]

theorem limitations_personCount (r : RoomState R) {n : Option ℤ} (hn : n = none ↔ r.personCount = none)
    (rows : List CoverageRow) (capabilities : List String) :
    limitations room (some { r with personCount := n }) rows capabilities =
      limitations room (some r) rows capabilities := by
  have hcount : (∃ s ∈ some { r with personCount := n }, s.personCount = none) ↔
      ∃ s ∈ some r, s.personCount = none := by simpa using hn
  have hlive : liveSources (some { r with personCount := n }) = liveSources (some r) := rfl
  simp only [limitations, hcount, hlive]

/-- A context is built without the number of heads but for its occupancy. -/
theorem buildContext_of_uncounted_eq (h : rs.map RoomState.uncounted = rs'.map RoomState.uncounted) :
    (buildContext ar pieces residualM protocolVersion room rs' : Body R A V) =
      { buildContext ar pieces residualM protocolVersion room rs with
        occupancy := rs'.bind RoomState.personCount } := by
  rcases of_uncounted_eq h with ⟨rfl, rfl⟩ | ⟨r, n, rfl, rfl, hn⟩
  · rfl
  · have hknown : n.isSome = r.personCount.isSome := by
      rw [Bool.eq_iff_iff, ← not_iff_not, Option.not_isSome_iff_eq_none, Option.not_isSome_iff_eq_none, hn]
    have hcaps : ∀ rows anchors devices, roomCapabilities rows anchors devices (some { r with personCount := n }) =
        roomCapabilities (A := A) rows anchors devices (some r) := fun _ _ _ => rfl
    simp only [buildContext, limitations_personCount r hn, hcaps, Option.bind_some, hknown]

/-- Without the scope for counting the occupancy is left out. -/
theorem redact_occupancy (hcount : SCOPE_COUNT ∉ allowed) (body : Body R A V) (n : Option ℤ) :
    redact { body with occupancy := n } (some allowed) = redact body (some allowed) := by
  simp only [redact, if_neg hcount]
  rfl

theorem redact_buildContext_eq (h : rs.map RoomState.uncounted = rs'.map RoomState.uncounted)
    (hcount : SCOPE_COUNT ∉ allowed) :
    redact (buildContext ar pieces residualM protocolVersion room rs : Body R A V) (some allowed) =
      redact (buildContext ar pieces residualM protocolVersion room rs') (some allowed) := by
  rw [buildContext_of_uncounted_eq h]
  exact (redact_occupancy hcount _ _).symm

theorem roomsWithoutSensing_eq {rooms : List String} {states states' : String → Option (RoomState R)}
    (h : SameButCounts states states') :
    (buildSpaceContext ar pieces protocolVersion rooms states : SpaceBody R A V).roomsWithoutSensing =
      (buildSpaceContext ar pieces protocolVersion rooms states' : SpaceBody R A V).roomsWithoutSensing := by
  have hcaps : ∀ room, (buildContext ar pieces none protocolVersion room (states' room) : Body R A V).capabilities =
      (buildContext ar pieces none protocolVersion room (states room) : Body R A V).capabilities := by
    intro room
    rw [buildContext_of_uncounted_eq (h room)]
  simp only [buildSpaceContext, List.filter_map, Function.comp_def, hcaps, List.map_map]
  rfl

/-- No headcount without its scope: what an experience is shown is the same in the two houses. -/
theorem headcount_withheld (ar : Arith R) (pieces : Pieces R A) (protocolVersion : Option ℤ)
    (rooms : List String) (allowed : Finset String) (states states' : String → Option (RoomState R))
    (h : SameButCounts states states') (hcount : SCOPE_COUNT ∉ allowed) :
    (view ar pieces protocolVersion rooms (some allowed) states : View R A V) =
      view ar pieces protocolVersion rooms (some allowed) states' := by
  have hcontext : ∀ room, redact (buildContext ar pieces none protocolVersion room (states room) : Body R A V)
      (some allowed) = redact (buildContext ar pieces none protocolVersion room (states' room)) (some allowed) :=
    fun room => redact_buildContext_eq (h room) hcount
  have hrooms : (buildSpaceContext ar pieces protocolVersion rooms states : SpaceBody R A V).rooms.map
      (redact · (some allowed)) =
        (buildSpaceContext ar pieces protocolVersion rooms states' : SpaceBody R A V).rooms.map
          (redact · (some allowed)) := by
    simp only [buildSpaceContext, List.map_map, Function.comp_def, hcontext]
  simp only [view, hcontext, hrooms, roomsWithoutSensing_eq h]
  rfl

/-- Two heads or three, in a room whose sensor counts. -/
theorem headcount_withheld_kitchen :
    (view ratArith kitchen none ["kitchen"] (some {SCOPE_PRESENCE})
        fun _ => some ⟨some "count", some 1, some true, some 2, [⟨"mmwave", some "fresh", none⟩]⟩ :
      View ℚ Empty Empty) =
    view ratArith kitchen none ["kitchen"] (some {SCOPE_PRESENCE})
      fun _ => some ⟨some "count", some 1, some true, some 3, [⟨"mmwave", some "fresh", none⟩]⟩ :=
  headcount_withheld ratArith kitchen none ["kitchen"] {SCOPE_PRESENCE} _ _ (fun _ => rfl) (by decide)

end

end Wavr.Experience
