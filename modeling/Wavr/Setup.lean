import Wavr.CoreRegistry

/-!
# First run: `POST /api/setup/create-space`

The route sequences five writes in two stores behind two `try` blocks, of which only the
second undoes what is there. What the host scan reports, the draws, the clock readings and
the one storage error, if any, come with the call.
-/

namespace Wavr.Setup
open Text

inductive DeviceFunction
  | core
  | node
  | client
  deriving DecidableEq, Repr

def DeviceFunction.slug : DeviceFunction → String
  | .core => "core"
  | .node => "node"
  | .client => "client"

def DEVICE_FUNCTIONS : List String := ["core", "node", "client"]

def ROLE_CORE : String := "core"

/-- What `scan_host` reports, as far as the route reads it. The scan does not raise. -/
structure Manifest where
  platform : String
  functionsSupported : List DeviceFunction
  battery : Option Bool
  computeTier : String
  deriving DecidableEq

/-- The body. -/
structure Request where
  name : String
  kind : String
  ownerName : String
  functions : Option (List String)
  room : String
  deriving DecidableEq

/-- What the call meets. -/
structure Env where
  spaceId : Token
  personId : Token
  spaceTs : String
  personTs : String
  coreTs : String
  manifest : Manifest
  instanceName : String
  baseUrl : String
  certFingerprint : String
  /-- Whether the floor plan takes the room. -/
  seedRoom : String → Bool
  fault : Option Fault

/-- The database: the tables of both stores. -/
structure Disk where
  store : SpaceStore
  cores : CoreRegistry
  deriving DecidableEq

structure Response where
  space : Space
  owner : Person
  core : Core
  manifest : Manifest
  functions : List String
  roomSeeded : Bool

variable (pyRepr : String → String)

/-- `functions or manifest.functions_supported`. -/
def wanted (req : Request) (m : Manifest) : List String :=
  if req.functions.getD [] = [] then m.functionsSupported.map DeviceFunction.slug
  else req.functions.getD []

/-- `sorted` of a frozenset. -/
def sorted (fs : List String) : List String := fs.dedup.mergeSort fun a b => a ≤ b

def unknown (fs : List String) : List String := fs.filter fun f => ¬ DEVICE_FUNCTIONS.any (· = f)

def coreInfo (req : Request) (env : Env) : CoreInfo where
  name := env.instanceName
  baseUrl := env.baseUrl
  certFingerprint := env.certFingerprint
  platform := env.manifest.platform
  portable := env.manifest.battery.getD false
  room := req.room
  isSelf := true
  health := [("compute_tier", env.manifest.computeTier)]

/-- The body of the second `try`: from the scan to the promotion. -/
def enrol (req : Request) (env : Env) (space : Space) (d : Disk) : Except Exn Core × Disk :=
  let fs := wanted req env.manifest
  if unknown fs ≠ [] then
    (.error (.httpException 422 ("unknown device functions: [" ++
      String.intercalate ", " ((sorted (unknown fs)).map pyRepr) ++ "]")), d)
  else
    let coreId := coreIdOf space.spaceId
    match register coreId space.spaceId (coreInfo req env) env.coreTs env.fault d.cores with
    | (.error e, cores) => (.error e, { d with cores })
    | (.ok core, cores) =>
      if fs.any (· = ROLE_CORE) then
        match bumpEpoch env.fault d.store with
        | (.error e, store) => (.error e, ⟨store, cores⟩)
        | (.ok epoch, store) =>
          let res := promote coreId epoch env.fault cores
          (res.1, ⟨store, res.2⟩)
      else (.ok core, { d with cores })

/-- The `except` clauses of the second `try`. A refusal of `destroy_space` replaces the error
that led there. -/
def undo (e : Exn) (d : Disk) : Exn × Disk :=
  match destroySpace d.store with
  | (.error e', store) => (e', { d with store })
  | (.ok _, store) =>
    match e with
    | .httpException status detail => (.httpException status detail, { d with store })
    | e => (.httpException 500 e.detail, { d with store })

/-- The first `try` turns a SpaceError into a 400 and lets everything else pass. -/
def bad (e : Exn) : Exn :=
  match e with
  | .spaceError detail => .httpException 400 detail
  | e => e

def createSpaceRoute (req : Request) (env : Env) (d : Disk) : Except Exn Response × Disk :=
  match createSpace req.name req.kind env.spaceId env.spaceTs env.fault d.store with
  | (.error e, store) => (.error (bad e), { d with store })
  | (.ok space, store) =>
    match addPerson req.ownerName .owner env.personId env.personTs env.fault store with
    -- the Space row stays
    | (.error e, store) => (.error (bad e), { d with store })
    | (.ok owner, store) =>
      match enrol pyRepr req env space { d with store } with
      | (.error e, d) => (.error (undo e d).1, (undo e d).2)
      | (.ok core, d) =>
        (.ok ⟨space, owner, core, env.manifest, sorted (wanted req env.manifest),
          truthy req.room && env.seedRoom req.room⟩, d)

/-! ## All or nothing -/

/-- The call returned. -/
def Returns (res : Except Exn Response × Disk) : Prop := res.1.toOption.isSome

/-- Nothing in the tables carries an id that the call draws. -/
structure Fresh (env : Env) (d : Disk) : Prop where
  person : d.store.people.get? env.personId.text = none
  core : d.cores.get? (coreIdOf env.spaceId.text) = none
  space : coresOf env.spaceId.text d.cores = []

/-! ## Where a call breaks off -/

/-- The Space row is written. -/
def Opens (req : Request) (env : Env) (d : Disk) : Prop :=
  d.store.space = none ∧ blank req.name = false ∧ raisedAt .spaceWrite env.fault = none

/-- The Core row is written. -/
def Enrols (req : Request) (env : Env) : Prop :=
  unknown (wanted req env.manifest) = [] ∧ raisedAt .selfClear env.fault = none ∧
    raisedAt .coreWrite env.fault = none

/-- Nothing breaks off behind the Core row: the storage answers, and a Core that is to lead
finds no Core row from the epoch it would lead at, or a later one. -/
def Leads (req : Request) (env : Env) (d : Disk) : Prop :=
  raisedAt .coreRead env.fault = none ∧
    (ROLE_CORE ∈ wanted req env.manifest → raisedAt .epochWrite env.fault = none ∧
      raisedAt .promoteWrite env.fault = none ∧ raisedAt .promoteRead env.fault = none ∧
      highest d.cores ≤ 1)

@[simp] theorem undo_cores (e : Exn) (d : Disk) : (undo e d).2.cores = d.cores := by
  unfold undo
  split
  · rfl
  · split <;> rfl

section
variable {req : Request} {env : Env} {d : Disk} {space : Space}

/-- The Core rows once this machine has its own. -/
def enrolled (req : Request) (env : Env) (space : Space) (d : Disk) : CoreRegistry :=
  registered (coreIdOf space.spaceId) space.spaceId (coreInfo req env) env.coreTs d.cores

theorem enrol_unwritten (hid : space.spaceId = env.spaceId.text) (h : ¬ Enrols req env) :
    ∃ e cores, enrol pyRepr req env space d = (.error e, { d with cores }) ∧
      (cores = d.cores ∨ cores = cleared (coreIdOf space.spaceId) (coreInfo req env) d.cores) := by
  unfold enrol
  by_cases hu : unknown (wanted req env.manifest) = []
  · rw [if_neg (by simpa using hu), hid]
    have hw : ((coreInfo req env).isSelf = true ∧ raisedAt .selfClear env.fault ≠ none) ∨
        raisedAt .coreWrite env.fault ≠ none := by
      by_contra hn
      simp only [not_or, not_and_or, not_not] at hn
      exact h ⟨hu, hn.1.resolve_left (fun hs => hs rfl), hn.2⟩
    obtain ⟨e, cs, hr, hcs⟩ := register_unwritten env.spaceId env.spaceId.text env.coreTs d.cores hw
    simp only [hr]
    exact ⟨e, cs, rfl, hcs⟩
  · exact ⟨_, d.cores, if_pos hu, .inl rfl⟩

theorem register_written (hid : space.spaceId = env.spaceId.text) (h : Enrols req env)
    (h₃ : raisedAt .coreRead env.fault = none) :
    ∃ core, register (coreIdOf space.spaceId) space.spaceId (coreInfo req env) env.coreTs env.fault
      d.cores = (.ok core, enrolled req env space d) := by
  rw [enrolled, hid]
  exact register_ok _ _ _ _ _ h.2.1 h.2.2 h₃

/-- An enrolment that breaks off behind the Core row leaves it there. -/
theorem enrol_broken (hid : space.spaceId = env.spaceId.text) (hs : d.store.space = some space)
    (he : space.epoch = 1) (h : Enrols req env) (hl : ¬ Leads req env d) :
    ∃ e d', enrol pyRepr req env space d = (.error e, d') ∧
      (d'.cores.get? (coreIdOf space.spaceId)).isSome := by
  -- the Core row is written first, and no later step takes it back
  have hrow : ((enrolled req env space d).get? (coreIdOf space.spaceId)).isSome := get?_registered_self
  unfold enrol
  rw [if_neg (by simpa using h.1)]
  cases h₃ : raisedAt .coreRead env.fault with
  | some _ =>
    obtain ⟨e, hr⟩ := register_unread env.spaceId space.spaceId (coreInfo req env) env.coreTs
      d.cores h.2.1 h.2.2 (by simp [h₃])
    rw [← hid] at hr
    simp only [hr]
    exact ⟨e, _, rfl, hrow⟩
  | none =>
    obtain ⟨core, hr⟩ := register_written (d := d) hid h h₃
    have hcore : ROLE_CORE ∈ wanted req env.manifest := by
      by_contra hn
      exact hl ⟨h₃, fun hc => absurd hc hn⟩
    simp only [hr]
    rw [if_pos (by simpa using hcore)]
    cases h₄ : raisedAt .epochWrite env.fault with
    | some e =>
      simp only [bumpEpoch, h₄]
      exact ⟨e, _, rfl, hrow⟩
    | none =>
      have hp : ¬ (raisedAt .promoteWrite env.fault = none ∧ raisedAt .promoteRead env.fault = none ∧
          highest (enrolled req env space d) < space.epoch + 1) := by
        rintro ⟨h₅, h₆, hm⟩
        rw [he, Nat.lt_succ_iff, enrolled, highest_registered_le_iff] at hm
        exact hl ⟨h₃, fun _ => ⟨h₄, h₅, h₆, hm⟩⟩
      obtain ⟨e, cs, hpr, hcs⟩ := promote_error (coreIdOf space.spaceId) hp
      simp only [bumpEpoch_ok hs h₄, hpr]
      refine ⟨e, _, rfl, ?_⟩
      rcases hcs with rfl | rfl
      · exact hrow
      · show ((crown _ _ _).get? _).isSome = true
        rw [get?_crown_isSome]
        exact hrow

/-- What an enrolment that goes through leaves. -/
theorem enrol_ok (hid : space.spaceId = env.spaceId.text) (hs : d.store.space = some space)
    (he : space.epoch = 1) (h : Enrols req env) (hl : Leads req env d) :
    ∃ core d', enrol pyRepr req env space d = (.ok core, d') ∧
      (∃ space', d'.store.space = some space' ∧ space'.spaceId = space.spaceId) ∧
      d'.store.people = d.store.people ∧
      (coresOf space.spaceId d'.cores).length = (coresOf space.spaceId (enrolled req env space d)).length := by
  obtain ⟨h₃, hl⟩ := hl
  obtain ⟨core, hr⟩ := register_written (d := d) hid h h₃
  unfold enrol
  rw [if_neg (by simpa using h.1)]
  simp only [hr]
  by_cases hcore : ROLE_CORE ∈ wanted req env.manifest
  · obtain ⟨h₄, h₅, h₆, hm⟩ := hl hcore
    have hlt : highest (enrolled req env space d) < space.epoch + 1 := by
      rw [he, Nat.lt_succ_iff, enrolled, highest_registered_le_iff]
      exact hm
    have hrow : ((enrolled req env space d).get? (coreIdOf space.spaceId)).isSome :=
      get?_registered_self
    obtain ⟨c, hp⟩ := promote_ok hrow h₅ h₆ hlt
    rw [if_pos (by simpa using hcore)]
    simp only [bumpEpoch_ok hs h₄, hp]
    exact ⟨c, _, rfl, ⟨_, rfl, rfl⟩, rfl, coresOf_crown _⟩
  · rw [if_neg (by simpa using hcore)]
    exact ⟨core, _, rfl, ⟨space, hs, rfl⟩, rfl, rfl⟩

/-! ## What the call leaves -/

/-- The call gets past its first `try`. -/
def Owned (req : Request) (env : Env) (d : Disk) : Prop :=
  Opens req env d ∧ Admits req.ownerName .owner env.personId env.fault d.store

/-- The tables where the second `try` starts. -/
def halfway (env : Env) (space : Space) (person : Person) (d : Disk) : Disk :=
  { d with store := { d.store with
      space := some space
      people := d.store.people.set env.personId.text person } }

theorem createSpaceRoute_unopened (h : ¬ Opens req env d) :
    ∃ e, createSpaceRoute pyRepr req env d = (.error e, d) := by
  obtain ⟨e, hc⟩ := createSpace_error req.kind env.spaceId env.spaceTs h
  exact ⟨bad e, by simp only [createSpaceRoute, hc]⟩

/-- A refused Owner leaves the Space. -/
theorem createSpaceRoute_unowned (h : Opens req env d)
    (ha : ¬ Admits req.ownerName .owner env.personId env.fault d.store) :
    ∃ e d', createSpaceRoute pyRepr req env d = (.error e, d') ∧ d'.store.space ≠ none := by
  obtain ⟨hs, hn, hf⟩ := h
  obtain ⟨space, -, -, hc⟩ := createSpace_ok req.kind env.spaceId env.spaceTs hs hn hf
  obtain ⟨e, hp⟩ := addPerson_error env.personTs (s := { d.store with space := some space })
    (fun hn => ha hn)
  unfold createSpaceRoute
  simp only [hc, hp]
  exact ⟨_, _, rfl, Option.some_ne_none space⟩

/-- Where the second `try` starts. -/
theorem createSpaceRoute_owned (h : Owned req env d) :
    ∃ space person, space.spaceId = env.spaceId.text ∧ space.epoch = 1 ∧ person.role = .owner ∧
      person.removed = false ∧
      createSpaceRoute pyRepr req env d =
        match enrol pyRepr req env space (halfway env space person d) with
        | (.error e, d) => (.error (undo e d).1, (undo e d).2)
        | (.ok core, d) =>
          (.ok ⟨space, person, core, env.manifest, sorted (wanted req env.manifest),
            truthy req.room && env.seedRoom req.room⟩, d) := by
  obtain ⟨⟨hs, hn, hf⟩, ha⟩ := h
  obtain ⟨space, hid, he, hc⟩ := createSpace_ok req.kind env.spaceId env.spaceTs hs hn hf
  have ha' : Admits req.ownerName .owner env.personId env.fault { d.store with space := some space } := ha
  obtain ⟨person, hr, hrem, hp⟩ := addPerson_ok env.personTs ha'
  refine ⟨space, person, hid, he, hr, hrem, ?_⟩
  unfold createSpaceRoute
  simp only [hc, hp]
  rfl

/-- When the call returns. -/
theorem returns_iff :
    Returns (createSpaceRoute pyRepr req env d) ↔ Owned req env d ∧ Enrols req env ∧ Leads req env d := by
  by_cases hO : Opens req env d
  · by_cases hA : Admits req.ownerName .owner env.personId env.fault d.store
    · obtain ⟨space, person, hid, he, -, -, hroute⟩ := createSpaceRoute_owned pyRepr ⟨hO, hA⟩
      by_cases hE : Enrols req env
      · by_cases hL : Leads req env d
        · obtain ⟨core, d', hok, -⟩ := enrol_ok pyRepr
            (d := halfway env space person d) hid rfl he hE hL
          rw [hroute, hok]
          exact iff_of_true rfl ⟨⟨hO, hA⟩, hE, hL⟩
        · obtain ⟨e, d', hb, -⟩ := enrol_broken pyRepr
            (d := halfway env space person d) hid rfl he hE hL
          rw [hroute, hb]
          exact iff_of_false Bool.false_ne_true fun h => hL h.2.2
      · obtain ⟨e, cores, hu, -⟩ := enrol_unwritten pyRepr
          (d := halfway env space person d) hid hE
        rw [hroute, hu]
        exact iff_of_false Bool.false_ne_true fun h => hE h.2.1
    · obtain ⟨e, d', he, -⟩ := createSpaceRoute_unowned pyRepr hO hA
      rw [he]
      exact iff_of_false Bool.false_ne_true fun h => hA h.1.2
  · obtain ⟨e, he⟩ := createSpaceRoute_unopened pyRepr hO
    rw [he]
    exact iff_of_false Bool.false_ne_true fun h => hO h.1.1

/-- The call goes through; or it breaks off before the Space row, and nobody is there; or it
breaks off between the Owner and the Core row, and neither a device nor another person keeps
`destroy_space` from its work. In the last two, no Core row is from a later epoch. -/
def Clean (req : Request) (env : Env) (d : Disk) : Prop :=
  (Owned req env d ∧ Enrols req env ∧ Leads req env d) ∨
    (d.store.space = none ∧ ¬ Opens req env d ∧ d.store.people = .empty ∧ highest d.cores ≤ 1) ∨
    (Owned req env d ∧ ¬ Enrols req env ∧ d.store.attached = 0 ∧ d.store.live = [] ∧
      highest d.cores ≤ 1)

end

/-! ## One first run on an empty database -/

def zeros : Token := ⟨List.replicate 32 '0', rfl, rfl⟩

end Wavr.Setup
