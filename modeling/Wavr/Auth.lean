import Wavr.Devices
import Wavr.IpAddress

/-!
# Who may call

The network gates and the scopes they hand on. A store is whatever `verify` reads and writes:
a gate takes it as the function `verify` and its state.
-/

namespace Wavr.Auth
open Devices (Device DeviceStore samplePlatform)
open IpAddress Text

def LOOPBACK_HOSTS : List String := ["127.0.0.1", "::1", "testclient"]

def inSubnet (peerHost localIp : String) : Bool :=
  match ipAddress peerHost.toList, ipAddress localIp.toList with
  | some (.v4 peer), some (.v4 localAddr) => inNet peer (localAddr, 24)
  | _, _ => false

/-! ## Roles and scopes -/

def ROLE_RANK : List (String × ℕ) := [("guest", 1), ("user", 2), ("central", 3)]

def rank (role : Option String) : Option ℕ := ROLE_RANK.lookup (role.getD "")

def narrowerRole (issued personGrants : Option String) : Option String :=
  match rank issued, rank personGrants with
  | some a, some b => if a ≤ b then issued else personGrants
  | _, _ => issued

/-- The device's role under its person; `none` denies. -/
def applyPersonCap (device : Device) (personRoleFn : Option (String → Option String)) : Option String :=
  match personRoleFn with
  | none => some device.role
  | some personRoleFn =>
    if ¬ truthy (device.personId.getD "") then some device.role
    else if device.role = "agent" then some device.role
    else
      match personRoleFn (device.personId.getD "") with
      | none => none
      | some personRole => narrowerRole (some device.role) (some personRole)

/-- A set of scopes; that of the root contains every scope. -/
inductive ScopeSet
  | allScopes
  | of (scopes : Finset String)
  deriving DecidableEq

def ScopeSet.has (scope : String) : ScopeSet → Bool
  | .allScopes => true
  | .of scopes => scope ∈ scopes

def DEFAULT_SCOPES : List (String × ScopeSet) :=
  [("root", .allScopes),
    ("central", .of {"presence:read", "presence:write", "network:read", "camera:view", "control",
      "admin", "mcp"}),
    ("user", .of {"presence:read", "presence:write", "network:read", "camera:view"}),
    ("agent", .of {"mcp"}),
    ("guest", .of {"presence:write"})]

/-- The scopes that a role stands for. -/
def defaultScopes (role : String) : ScopeSet := (DEFAULT_SCOPES.lookup role).getD (.of ∅)

/-- An explicit grant wins outright. -/
def effectiveScopes (role : String) (explicit : Option (Finset String)) : ScopeSet :=
  match explicit with
  | some scopes => .of scopes
  | none => defaultScopes role

def hasScope (scopes : Option ScopeSet) (scope : String) : Bool := scopes.any fun s => s.has scope

def scopesForDevice (device : Device) (personRoleFn : Option (String → Option String)) :
    Option ScopeSet :=
  (applyPersonCap device personRoleFn).map fun role => effectiveScopes role device.scopes

def AGENT_DEFAULT_TOOL_SCOPE : Finset String :=
  {"list_rooms", "get_room_context", "get_house_status", "get_space_context",
    "explain_room_state", "get_sensor_coverage", "get_core_health"}

/-- `none` where the axis of tool names does not apply. -/
def effectiveToolScopes (role : String) (explicit : Option (Finset String)) : Option (Finset String) :=
  if role ≠ "agent" then none
  else
    match explicit with
    | some tools => some tools
    | none => some AGENT_DEFAULT_TOOL_SCOPE

/-! ## The gates -/

section
variable {σ : Type*} (verify : String → σ → Option Device × σ)
variable (peerHost hostSubnet : String) (bearerToken : Option String)

def authorize (store : σ) : Option String × σ :=
  if peerHost ∈ LOOPBACK_HOSTS then (some "root", store)
  else if ¬ truthy (bearerToken.getD "") then (none, store)
  else if ¬ inSubnet peerHost hostSubnet then (none, store)
  else
    match verify (bearerToken.getD "") store with
    | (none, store) => (none, store)
    | (some device, store) => (some device.role, store)

def accessFor (store : σ) : (Option String × Option ScopeSet) × σ :=
  if peerHost ∈ LOOPBACK_HOSTS then ((some "root", none), store)
  else if ¬ truthy (bearerToken.getD "") then ((none, none), store)
  else if ¬ inSubnet peerHost hostSubnet then ((none, none), store)
  else
    match verify (bearerToken.getD "") store with
    | (none, store) => ((none, none), store)
    | (some device, store) =>
      ((some device.role, some (effectiveScopes device.role device.scopes)), store)

def accessForScoped (personRoleFn : Option (String → Option String)) (store : σ) :
    (Option String × Option ScopeSet × Option (Finset String)) × σ :=
  if peerHost ∈ LOOPBACK_HOSTS then ((some "root", none, none), store)
  else if ¬ truthy (bearerToken.getD "") then ((none, none, none), store)
  else if ¬ inSubnet peerHost hostSubnet then ((none, none, none), store)
  else
    match verify (bearerToken.getD "") store with
    | (none, store) => ((none, none, none), store)
    | (some device, store) =>
      match applyPersonCap device personRoleFn with
      | none => ((none, none, none), store)
      | some role =>
        ((some role, some (effectiveScopes role device.scopes),
          effectiveToolScopes role device.toolScopes), store)

end

/-! ## What the gates share

Each gate sorts a request in the same way and answers from what it finds.
-/

/-- A request before any token is looked at. -/
inductive Admission
  | root
  | refused
  | presents (token : String)
  deriving DecidableEq

def admission (peerHost hostSubnet : String) (bearerToken : Option String) : Admission :=
  if peerHost ∈ LOOPBACK_HOSTS then .root
  else if truthy (bearerToken.getD "") ∧ inSubnet peerHost hostSubnet then
    .presents (bearerToken.getD "")
  else .refused

section
variable {σ α : Type*} (verify : String → σ → Option Device × σ)

/-- The answer to an admitted request: `root` for the loopback, `deny`, or what the device gets. -/
def Admission.answer (root deny : α) (grant : Device → α) (store : σ) : Admission → α × σ
  | .root => (root, store)
  | .refused => (deny, store)
  | .presents token =>
    (((verify token store).1.map grant).getD deny, (verify token store).2)

variable (peerHost hostSubnet : String) (bearerToken : Option String) (store : σ)

theorem answer_admission (root deny : α) (grant : Device → α) :
    (if peerHost ∈ LOOPBACK_HOSTS then (root, store)
      else if ¬ truthy (bearerToken.getD "") then (deny, store)
      else if ¬ inSubnet peerHost hostSubnet then (deny, store)
      else
        match verify (bearerToken.getD "") store with
        | (none, store) => (deny, store)
        | (some device, store) => (grant device, store)) =
      (admission peerHost hostSubnet bearerToken).answer verify root deny grant store := by
  unfold admission
  by_cases hloop : peerHost ∈ LOOPBACK_HOSTS
  · rw [if_pos hloop, if_pos hloop]
    rfl
  · rw [if_neg hloop, if_neg hloop]
    by_cases htok : truthy (bearerToken.getD "") = true
    · by_cases hnet : inSubnet peerHost hostSubnet = true
      · rw [if_neg (not_not_intro htok), if_neg (not_not_intro hnet), if_pos ⟨htok, hnet⟩]
        cases h : verify (bearerToken.getD "") store with
        | mk found store' => cases found <;> simp [Admission.answer, h]
      · rw [if_neg (not_not_intro htok), if_pos hnet, if_neg fun h => hnet h.2]
        rfl
    · rw [if_pos htok, if_neg fun h => htok h.1]
      rfl

theorem authorize_eq :
    authorize verify peerHost hostSubnet bearerToken store =
      (admission peerHost hostSubnet bearerToken).answer verify (some "root") none
        (fun d => some d.role) store :=
  answer_admission ..

theorem accessFor_eq :
    accessFor verify peerHost hostSubnet bearerToken store =
      (admission peerHost hostSubnet bearerToken).answer verify (some "root", none) (none, none)
        (fun d => (some d.role, some (effectiveScopes d.role d.scopes))) store :=
  answer_admission ..

/-- What a device gets under its person. -/
def capped (personRoleFn : Option (String → Option String)) (d : Device) :
    Option String × Option ScopeSet × Option (Finset String) :=
  match applyPersonCap d personRoleFn with
  | none => (none, none, none)
  | some role => (some role, some (effectiveScopes role d.scopes), effectiveToolScopes role d.toolScopes)

theorem capped_fst (personRoleFn : Option (String → Option String)) (d : Device) :
    (capped personRoleFn d).1 = applyPersonCap d personRoleFn := by
  unfold capped
  split
  · rename_i h
    exact h.symm
  · rename_i role h
    exact h.symm

theorem accessForScoped_eq (personRoleFn : Option (String → Option String)) :
    accessForScoped verify peerHost hostSubnet bearerToken personRoleFn store =
      (admission peerHost hostSubnet bearerToken).answer verify (some "root", none, none)
        (none, none, none) (capped personRoleFn) store := by
  rw [← answer_admission, accessForScoped]
  unfold capped
  congr! 6
  split <;> rfl

variable {verify peerHost hostSubnet bearerToken store}

theorem inSubnet_iff :
    inSubnet peerHost hostSubnet = true ↔
      ∃ peer core, ipAddress peerHost.toList = some (.v4 peer) ∧
        ipAddress hostSubnet.toList = some (.v4 core) ∧ peer >>> 8 = core >>> 8 := by
  unfold inSubnet
  constructor
  · intro h
    split at h
    · rename_i peer core hpeer hcore
      exact ⟨peer, core, hpeer, hcore, by simpa [inNet] using h⟩
    · cases h
  · rintro ⟨peer, core, hpeer, hcore, hnet⟩
    simp [hpeer, hcore, inNet, hnet]

theorem admission_eq_root :
    admission peerHost hostSubnet bearerToken = .root ↔ peerHost ∈ LOOPBACK_HOSTS := by
  unfold admission
  by_cases hloop : peerHost ∈ LOOPBACK_HOSTS
  · simp [hloop]
  · rw [if_neg hloop]
    split <;> simp [hloop]

/-- A token is looked at only for a peer of the Core's own network. -/
theorem admission_eq_presents {token : String} :
    admission peerHost hostSubnet bearerToken = .presents token ↔
      peerHost ∉ LOOPBACK_HOSTS ∧ inSubnet peerHost hostSubnet = true ∧ truthy token = true ∧
        bearerToken.getD "" = token := by
  unfold admission
  split
  · rename_i hloop
    simp [hloop]
  · rename_i hloop
    split
    · rename_i h
      constructor
      · intro he
        cases he
        exact ⟨hloop, h.2, h.1, rfl⟩
      · rintro ⟨-, -, -, rfl⟩
        rfl
    · rename_i h
      constructor
      · intro he
        cases he
      · rintro ⟨-, hnet, htok, rfl⟩
        exact absurd ⟨htok, hnet⟩ h

end

/-! ## The person cap -/

/-- No access, the role itself, or a lower rung of the ladder. -/
def Narrower (role issued : Option String) : Prop :=
  role = none ∨ role = issued ∨ ∃ a b, rank role = some a ∧ rank issued = some b ∧ a < b

theorem narrower_narrowerRole (issued personGrants : Option String) :
    Narrower (narrowerRole issued personGrants) issued := by
  unfold narrowerRole
  split
  · rename_i a b ha hb
    split
    · exact .inr (.inl rfl)
    · rename_i hlt
      exact .inr (.inr ⟨b, a, hb, ha, not_le.mp hlt⟩)
  · exact .inr (.inl rfl)

theorem narrower_applyPersonCap (d : Device) (personRoleFn : Option (String → Option String)) :
    Narrower (applyPersonCap d personRoleFn) (some d.role) := by
  unfold applyPersonCap
  split
  · exact .inr (.inl rfl)
  · split
    · exact .inr (.inl rfl)
    · split
      · exact .inr (.inl rfl)
      · split
        · exact .inl rfl
        · exact narrower_narrowerRole _ _

section
variable {σ : Type*} (verify : String → σ → Option Device × σ)

/-- The store with a record of the tokens it was asked about. -/
def recording (token : String) (s : σ × List String) : Option Device × σ × List String :=
  ((verify token s.1).1, (verify token s.1).2, s.2 ++ [token])

end

/-- The three gates give one role and leave one state behind. Outside the Core's /24 no token is
asked about, and a person only narrows a role or denies it. -/
theorem gates_agree (pf : Devices.Platform) (ts : String) (now : ℤ) (peerHost hostSubnet : String)
    (bearerToken : Option String) (personRoleFn : String → Option String) (store : DeviceStore)
    (asked : List String) :
    let ask := recording (Devices.verify pf ts now)
    let byRole := authorize ask peerHost hostSubnet bearerToken (store, asked)
    let byScope := accessFor ask peerHost hostSubnet bearerToken (store, asked)
    let byTool := accessForScoped ask peerHost hostSubnet bearerToken none (store, asked)
    let underPerson := accessForScoped ask peerHost hostSubnet bearerToken (some personRoleFn) (store, asked)
    (byScope.1.1 = byRole.1 ∧ byTool.1.1 = byRole.1 ∧ byTool.1.2.1 = byScope.1.2 ∧
        byScope.2 = byRole.2 ∧ byTool.2 = byRole.2 ∧ underPerson.2 = byRole.2) ∧
      (peerHost ∉ LOOPBACK_HOSTS →
        (¬ ∃ peer core, ipAddress peerHost.toList = some (.v4 peer) ∧
          ipAddress hostSubnet.toList = some (.v4 core) ∧ peer >>> 8 = core >>> 8) →
        byRole = (none, store, asked)) ∧
      Narrower underPerson.1.1 byRole.1 := by
  intro ask byRole byScope byTool underPerson
  simp only [byRole, byScope, byTool, underPerson, authorize_eq, accessFor_eq, accessForScoped_eq]
  cases hadm : admission peerHost hostSubnet bearerToken with
  | root =>
    refine ⟨⟨rfl, rfl, rfl, rfl, rfl, rfl⟩, fun hloop => ?_, .inr (.inl rfl)⟩
    exact absurd (admission_eq_root.mp hadm) hloop
  | refused => exact ⟨⟨rfl, rfl, rfl, rfl, rfl, rfl⟩, fun _ _ => rfl, .inr (.inl rfl)⟩
  | presents token =>
    obtain ⟨-, hnet, -⟩ := admission_eq_presents.mp hadm
    refine ⟨?_, fun _ hout => absurd (inSubnet_iff.mp hnet) hout, ?_⟩
    · cases h : (ask token (store, asked)).1 <;> simp [Admission.answer, h, capped, applyPersonCap]
    · cases h : (ask token (store, asked)).1 with
      | none => simp [Admission.answer, h, Narrower]
      | some d =>
        simpa [Admission.answer, h, capped_fst] using narrower_applyPersonCap d (some personRoleFn)

/-! ## The cap and an explicit grant -/

theorem rank_eq_some {role : String} {n : ℕ} :
    rank (some role) = some n ↔
      (role = "guest" ∧ n = 1) ∨ (role = "user" ∧ n = 2) ∨ (role = "central" ∧ n = 3) := by
  unfold rank ROLE_RANK
  simp only [Option.getD_some, List.lookup_cons, List.lookup_nil]
  grind

theorem has_user_of_guest {scope : String} (h : (defaultScopes "guest").has scope = true) :
    (defaultScopes "user").has scope = true := by
  have hguest : defaultScopes "guest" = .of {"presence:write"} := rfl
  have huser : defaultScopes "user" =
      .of {"presence:read", "presence:write", "network:read", "camera:view"} := rfl
  rw [hguest] at h
  rw [huser]
  simp only [ScopeSet.has, decide_eq_true_eq, Finset.mem_singleton] at h
  subst h
  decide

theorem has_central_of_user {scope : String} (h : (defaultScopes "user").has scope = true) :
    (defaultScopes "central").has scope = true := by
  have huser : defaultScopes "user" =
      .of {"presence:read", "presence:write", "network:read", "camera:view"} := rfl
  rw [huser] at h
  simp only [ScopeSet.has, decide_eq_true_eq, Finset.mem_insert, Finset.mem_singleton] at h
  rcases h with rfl | rfl | rfl | rfl <;> decide

/-- A higher rung stands for all the scopes of a lower one. -/
theorem defaultScopes_mono {a b : String} {m n : ℕ} (ha : rank (some a) = some m)
    (hb : rank (some b) = some n) (h : m ≤ n) {scope : String}
    (hs : (defaultScopes a).has scope = true) : (defaultScopes b).has scope = true := by
  rcases rank_eq_some.mp ha with ⟨rfl, rfl⟩ | ⟨rfl, rfl⟩ | ⟨rfl, rfl⟩
  · rcases rank_eq_some.mp hb with ⟨rfl, -⟩ | ⟨rfl, -⟩ | ⟨rfl, -⟩
    · exact hs
    · exact has_user_of_guest hs
    · exact has_central_of_user (has_user_of_guest hs)
  · rcases rank_eq_some.mp hb with ⟨-, rfl⟩ | ⟨rfl, -⟩ | ⟨rfl, -⟩
    · omega
    · exact hs
    · exact has_central_of_user hs
  · rcases rank_eq_some.mp hb with ⟨-, rfl⟩ | ⟨-, rfl⟩ | ⟨rfl, -⟩
    · omega
    · omega
    · exact hs

theorem Narrower.defaultScopes {role issued scope : String} (h : Narrower (some role) (some issued))
    (hs : (Auth.defaultScopes role).has scope = true) : (Auth.defaultScopes issued).has scope = true := by
  rcases h with h | h | ⟨a, b, ha, hb, hlt⟩
  · cases h
  · cases h
    exact hs
  · exact defaultScopes_mono ha hb hlt.le hs

theorem hasScope_scopesForDevice {d : Device} {personRoleFn : Option (String → Option String)}
    {scope : String} :
    hasScope (scopesForDevice d personRoleFn) scope = true ↔
      ∃ role, applyPersonCap d personRoleFn = some role ∧
        (effectiveScopes role d.scopes).has scope = true := by
  unfold hasScope scopesForDevice
  cases applyPersonCap d personRoleFn <;> simp

/-- The scopes that the cap leaves are among those without it, and among those of the capped role. -/
def CapBites (d : Device) (personRoleFn : String → Option String) : Prop :=
  ∀ scope, hasScope (scopesForDevice d (some personRoleFn)) scope = true →
    hasScope (scopesForDevice d none) scope = true ∧
      ∀ role, applyPersonCap d (some personRoleFn) = some role → (defaultScopes role).has scope = true

/-- An explicit grant stays within the role of the device and, where both are on the ladder, within
the role of its person. -/
def GrantWithin (d : Device) (personRoleFn : String → Option String) : Prop :=
  ∀ grant, d.scopes = some grant → ∀ scope ∈ grant,
    if truthy (d.personId.getD "") ∧ d.role ≠ "agent" then
      ∀ personRole, personRoleFn (d.personId.getD "") = some personRole →
        (defaultScopes d.role).has scope = true ∧
          ((rank (some d.role)).isSome → (rank (some personRole)).isSome →
            (defaultScopes personRole).has scope = true)
    else (defaultScopes d.role).has scope = true

theorem permitted_narrowerRole {issued granted scope : String} :
    (∀ role, narrowerRole (some issued) (some granted) = some role →
        (defaultScopes role).has scope = true) ↔
      (defaultScopes issued).has scope = true ∧
        ((rank (some issued)).isSome → (rank (some granted)).isSome →
          (defaultScopes granted).has scope = true) := by
  cases ha : rank (some issued) with
  | none => simp [narrowerRole, ha]
  | some a =>
    cases hb : rank (some granted) with
    | none => simp [narrowerRole, ha, hb]
    | some b =>
      rcases le_or_gt a b with hle | hlt
      · simpa [narrowerRole, ha, hb, hle] using defaultScopes_mono ha hb hle
      · simpa [narrowerRole, ha, hb, not_le.mpr hlt] using defaultScopes_mono hb ha hlt.le

theorem permitted_applyPersonCap {d : Device} {personRoleFn : String → Option String} {scope : String} :
    (∀ role, applyPersonCap d (some personRoleFn) = some role →
        (defaultScopes role).has scope = true) ↔
      if truthy (d.personId.getD "") ∧ d.role ≠ "agent" then
        ∀ personRole, personRoleFn (d.personId.getD "") = some personRole →
          (defaultScopes d.role).has scope = true ∧
            ((rank (some d.role)).isSome → (rank (some personRole)).isSome →
              (defaultScopes personRole).has scope = true)
      else (defaultScopes d.role).has scope = true := by
  unfold applyPersonCap
  by_cases hperson : truthy (d.personId.getD "") = true
  · by_cases hagent : d.role = "agent"
    · simp [hperson, hagent]
    · cases hrole : personRoleFn (d.personId.getD "") with
      | none => simp [hperson, hagent, hrole]
      | some personRole => simpa [hperson, hagent, hrole] using permitted_narrowerRole
  · simp [hperson]

/-- The cap only takes scopes away. -/
theorem hasScope_uncapped {d : Device} {personRoleFn : String → Option String} {scope : String}
    (h : hasScope (scopesForDevice d (some personRoleFn)) scope = true) :
    hasScope (scopesForDevice d none) scope = true := by
  obtain ⟨role, hrole, hscope⟩ := hasScope_scopesForDevice.mp h
  refine hasScope_scopesForDevice.mpr ⟨d.role, rfl, ?_⟩
  have hnarrow : Narrower (some role) (some d.role) :=
    hrole ▸ narrower_applyPersonCap d (some personRoleFn)
  cases hgrant : d.scopes with
  | none =>
    rw [hgrant] at hscope
    exact hnarrow.defaultScopes hscope
  | some grant =>
    rw [hgrant] at hscope
    exact hscope

theorem capBites_iff {d : Device} {personRoleFn : String → Option String} :
    CapBites d personRoleFn ↔ GrantWithin d personRoleFn := by
  unfold GrantWithin
  cases hgrant : d.scopes with
  | none =>
    refine iff_of_true (fun scope hscope => ⟨hasScope_uncapped hscope, fun role hrole => ?_⟩)
      fun grant h => nomatch h
    obtain ⟨role', hrole', hscope'⟩ := hasScope_scopesForDevice.mp hscope
    rw [hrole] at hrole'
    cases hrole'
    rw [hgrant] at hscope'
    exact hscope'
  | some grant =>
    simp only [Option.some.injEq, forall_eq', ← permitted_applyPersonCap]
    have hgranted : ∀ role scope, (effectiveScopes role d.scopes).has scope = true ↔ scope ∈ grant := by
      intro role scope
      rw [hgrant]
      exact decide_eq_true_iff
    constructor
    · intro h scope hscope role hrole
      refine (h scope ?_).2 role hrole
      exact hasScope_scopesForDevice.mpr ⟨role, hrole, (hgranted role scope).mpr hscope⟩
    · intro h scope hscope
      refine ⟨hasScope_uncapped hscope, h scope ?_⟩
      obtain ⟨role, -, hin⟩ := hasScope_scopesForDevice.mp hscope
      exact (hgranted role scope).mp hin

/-- A device's scopes at the gate are those of `scopes_for_device`. -/
theorem capped_scopes (personRoleFn : Option (String → Option String)) (d : Device) :
    (capped personRoleFn d).2.1 = scopesForDevice d personRoleFn := by
  unfold capped scopesForDevice
  cases applyPersonCap d personRoleFn <;> rfl

/-- The cap bites on a request exactly if the grant of the device that its token belongs to
stays within. -/
theorem cap_bites_iff {σ : Type*} (verify : String → σ → Option Device × σ)
    (peerHost hostSubnet : String) (bearerToken : Option String)
    (personRoleFn : String → Option String) (store : σ) :
    (∀ scope,
        let inForce := (accessForScoped verify peerHost hostSubnet bearerToken (some personRoleFn) store).1
        let uncapped := (accessForScoped verify peerHost hostSubnet bearerToken none store).1
        hasScope inForce.2.1 scope = true → hasScope uncapped.2.1 scope = true ∧
          ∀ role, inForce.1 = some role → (defaultScopes role).has scope = true) ↔
      ∀ token d, admission peerHost hostSubnet bearerToken = .presents token →
        (verify token store).1 = some d → GrantWithin d personRoleFn := by
  simp only [accessForScoped_eq]
  cases hadm : admission peerHost hostSubnet bearerToken with
  | root => exact iff_of_true (fun scope hscope => nomatch hscope) fun token d h => nomatch h
  | refused => exact iff_of_true (fun scope hscope => nomatch hscope) fun token d h => nomatch h
  | presents token =>
    cases hfound : (verify token store).1 with
    | none =>
      refine iff_of_true (fun scope hscope => ?_) fun token' d h hd => ?_
      · simp [Admission.answer, hfound, hasScope] at hscope
      · cases h
        rw [hfound] at hd
        cases hd
    | some d =>
      have hiff : CapBites d personRoleFn ↔ GrantWithin d personRoleFn := capBites_iff
      have hone : (∀ token' d', Admission.presents token = .presents token' →
          (verify token' store).1 = some d' → GrantWithin d' personRoleFn) ↔
            GrantWithin d personRoleFn := by
        refine ⟨fun h => h token d rfl hfound, fun h token' d' htok hd => ?_⟩
        cases htok
        rw [hfound] at hd
        cases hd
        exact h
      rw [hone, ← hiff]
      simp only [Admission.answer, hfound, Option.map_some, Option.getD_some, capped_scopes, capped_fst]
      rfl

/-- A central device with an explicit grant, and its person. -/
def sampleDevices : DeviceStore :=
  (Devices.setPerson "d1" (some "p1")
    (Devices.add samplePlatform ⟨"d1", "token-1", "1970-01-01T00:00:00+00:00"⟩ "phone" "central"
      { scopes := some {"control"} } .empty).2).2

/-- The person is a guest by now, and the phone still holds the control scope. -/
theorem grant_outlives_demotion :
    let inForce := (accessForScoped (Devices.verify samplePlatform "1970-01-01T00:00:00+00:00" 0)
      "192.168.1.5" "192.168.1.1" (some "token-1") (some fun _ => some "guest") sampleDevices).1
    inForce.1 = some "guest" ∧ hasScope inForce.2.1 "control" = true ∧
      (defaultScopes "guest").has "control" = false := by
  decide +kernel

end Wavr.Auth
