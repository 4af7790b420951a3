import Mathlib.Data.List.Dedup
import Wavr.Run
import Wavr.Setup

/-!
# The people of a Space

The table `people` with all its columns: who may do what, until when, and who owns the Space.
A person who is removed keeps the row.
-/

namespace Wavr.People
open Run Setup Text

/-! ## Capabilities -/

def CAP_SPACE_TRANSFER : String := "space:transfer"

def ADMIN_CAPS : List String :=
  ["space:configure", "people:manage", "device:manage", "node:manage", "core:manage",
    "sensor:configure", "diagnostics:view", "context:view", "control:use"]

def PERSON_CAPABILITIES : List String := CAP_SPACE_TRANSFER :: ADMIN_CAPS

def roleCapabilities : Role → List String
  | .owner => CAP_SPACE_TRANSFER :: ADMIN_CAPS
  | .admin => ADMIN_CAPS
  | .user => ["context:view", "control:use"]
  | .guest => []

/-- An explicit grant wins outright, even an empty one. -/
def capabilitiesFor (role : Role) (explicit : Option (List String)) : List String :=
  explicit.getD (roleCapabilities role)

/-- `_split`: no column derives from the role, an empty one is an explicit empty grant. -/
def split (blob : Option String) : Option (List String) :=
  blob.map fun blob => (words blob.toList).map String.ofList

/-- `_join`. -/
def join (items : Option (List String)) : Option String :=
  items.map fun items => String.ofList ([' '].intercalate ((sorted items).map String.toList))

/-! ## Rows -/

structure Person where
  displayName : String
  role : Role
  createdTs : String
  capabilities : Option String
  expiresAt : Option String
  /-- The JSON text of the profile. -/
  profile : String
  removed : Bool
  deriving DecidableEq

structure Association where
  personId : String
  createdTs : String
  deriving DecidableEq

structure Store where
  space : Option Space
  people : Dict String Person
  personDevices : Dict String Association
  /-- Row counts of the other tables that attach devices. -/
  deviceFunctions : ℕ
  deviceCapabilities : ℕ
  deriving DecidableEq

/-- The tables of a new database. -/
def fresh : Store := ⟨none, .empty, .empty, 0, 0⟩

/-- The columns that the first run writes. -/
def Person.view (p : Person) : Setup.Person := ⟨p.displayName, p.role, p.createdTs, p.removed⟩

def Store.view (s : Store) : SpaceStore :=
  ⟨s.space, s.people.mapValues Person.view, s.personDevices.entries.length, s.deviceFunctions,
    s.deviceCapabilities⟩

def createSpace (name kind : String) (sid : Token) (ts : String) (s : Store) :
    Except Exn Space × Store :=
  let (result, store) := Setup.createSpace name kind sid ts none s.view
  (result, { s with space := store.space })

/-! ## Operations -/

/-- A profile as it arrives: None, an object given by its JSON text, or anything else. -/
inductive Profile
  | none
  | object (blob : String)
  | other
  deriving DecidableEq

def MAX_PROFILE_BYTES : ℕ := 4096

def dumpJson (obj : Profile) (limit : ℕ) (what : String) : Except Exn String :=
  match obj with
  | .none => .ok "\x7b\x7d"
  | .other => .error (.spaceError (what ++ " must be an object"))
  | .object blob =>
    if limit < blob.utf8ByteSize then .error (.spaceError (what ++ " is too large")) else .ok blob

def roleOf (role : String) : Option Role :=
  if role = "owner" then some .owner
  else if role = "admin" then some .admin
  else if role = "user" then some .user
  else if role = "guest" then some .guest
  else none

def badRole : Exn := .spaceError "role must be one of ['admin', 'guest', 'owner', 'user']"

def unknownPerson : Exn := .spaceError "unknown person"

def Store.live (s : Store) : List Person := s.people.values.filter fun p => ¬ p.removed

def Store.ownerCount (s : Store) : ℕ := (s.live.filter fun p => p.role = .owner).length

-- `repr` of a text
variable (pyRepr : String → String)

def addPerson (displayName role : String) (expiresAt : Option String)
    (capabilities : Option (List String)) (profile : Profile) (pid : Token) (ts : String)
    (s : Store) : Except Exn Person × Store :=
  match roleOf role with
  | none => (.error badRole, s)
  | some role =>
    match cleanName displayName "display_name" with
    | .error e => (.error e, s)
    | .ok name =>
      let unknown := (capabilities.getD []).filter fun c => c ∉ PERSON_CAPABILITIES
      if unknown ≠ [] then
        (.error (.spaceError ("unknown capabilities: [" ++
          ", ".intercalate ((sorted unknown).map pyRepr) ++ "]")), s)
      else if role = .owner ∧ 0 < s.ownerCount then
        (.error (.spaceError "this Space already has an Owner — use transfer instead"), s)
      else
        match dumpJson profile MAX_PROFILE_BYTES "profile" with
        | .error e => (.error e, s)
        | .ok blob =>
          if MAX_PEOPLE ≤ s.live.length then
            (.error (.spaceError "this Space has reached its people limit"), s)
          else if (s.people.get? pid.text).isSome then
            (.error (.sqliteError "UNIQUE constraint failed: people.person_id"), s)
          else
            let person : Person := ⟨name, role, ts, join capabilities, expiresAt, blob, false⟩
            (.ok person, { s with people := s.people.set pid.text person })

/-- `UPDATE people ... WHERE person_id = ?`. -/
def update (personId : String) (f : Person → Person) (people : Dict String Person) :
    Dict String Person :=
  people.map fun k p => if k = personId then f p else p

def setPersonRole (personId role : String) (s : Store) : Except Exn Person × Store :=
  match roleOf role with
  | none => (.error badRole, s)
  | some role =>
    match s.people.get? personId with
    | none => (.error unknownPerson, s)
    | some person =>
      if person.role = .owner ∧ role ≠ .owner then
        (.error (.spaceError "the Owner cannot be demoted — transfer ownership first"), s)
      else if role = .owner then
        (.error (.spaceError "use transfer_ownership to make someone the Owner"), s)
      else
        (.ok { person with role },
          { s with people := update personId (fun p => { p with role }) s.people })

def setPersonProfile (personId : String) (profile : Profile) (s : Store) :
    Except Exn Person × Store :=
  match s.people.get? personId with
  | none => (.error unknownPerson, s)
  | some person =>
    match dumpJson profile MAX_PROFILE_BYTES "profile" with
    | .error e => (.error e, s)
    | .ok blob =>
      (.ok { person with profile := blob },
        { s with people := update personId (fun p => { p with profile := blob }) s.people })

/-- `devices_of`. -/
def devicesOf (personId : String) (s : Store) : List String :=
  ((s.personDevices.entries.filter fun e => e.2.personId = personId).mergeSort
    fun e e' => e.2.createdTs ≤ e'.2.createdTs).map Prod.fst

def removePerson (personId : String) (s : Store) : Except Exn (List String) × Store :=
  match s.people.get? personId with
  | none => (.error unknownPerson, s)
  | some person =>
    if person.role = .owner then
      (.error (.spaceError "the Owner cannot be removed — transfer ownership first"), s)
    else
      (.ok (devicesOf personId s), { s with
        people := update personId (fun p => { p with removed := true }) s.people
        personDevices := s.personDevices.filter fun _ a => a.personId ≠ personId })

/-- The first row whose person is the Owner and is not removed. -/
def currentOwner (s : Store) : Option (String × Person) :=
  s.people.entries.find? fun e => e.2.role = .owner ∧ ¬ e.2.removed

def transferOwnership (toPersonId : String) (s : Store) : Except Exn (Person × Person) × Store :=
  match s.people.get? toPersonId with
  | none => (.error unknownPerson, s)
  | some target =>
    if target.removed then (.error unknownPerson, s)
    else if target.role = .owner then
      (.error (.spaceError "that person is already the Owner"), s)
    else
      match currentOwner s with
      | none => (.error (.spaceError "this Space has no Owner to transfer from"), s)
      | some (prevId, prev) =>
        (.ok ({ target with role := .owner }, { prev with role := .admin }), { s with
          people := update toPersonId (fun p => { p with role := .owner })
            (update prevId (fun p => { p with role := .admin }) s.people) })

inductive Op
  | addPerson (displayName role : String) (expiresAt : Option String)
      (capabilities : Option (List String)) (profile : Profile) (pid : Token) (ts : String)
  | setPersonRole (personId role : String)
  | setPersonProfile (personId : String) (profile : Profile)
  | removePerson (personId : String)
  | transferOwnership (toPersonId : String)

def step (s : Store) : Op → Store
  | .addPerson displayName role expiresAt capabilities profile pid ts =>
    (addPerson pyRepr displayName role expiresAt capabilities profile pid ts s).2
  | .setPersonRole personId role => (setPersonRole personId role s).2
  | .setPersonProfile personId profile => (setPersonProfile personId profile s).2
  | .removePerson personId => (removePerson personId s).2
  | .transferOwnership toPersonId => (transferOwnership toPersonId s).2

/-! ## The one Owner -/

/-- This is a row of a live Owner. -/
def Owns (s : Store) (personId : String) (p : Person) : Prop :=
  s.people.get? personId = some p ∧ p.role = .owner ∧ p.removed = false

/-- Exactly one person owns the Space, may hand it on, and does not expire. -/
def Administrable (s : Store) : Prop :=
  ∃ personId p, Owns s personId p ∧ (∀ k q, Owns s k q → k = personId) ∧
    CAP_SPACE_TRANSFER ∈ capabilitiesFor p.role (split p.capabilities) ∧ p.expiresAt = none

/-- As an Owner this person could hand the Space on, and would not expire. -/
def Fit (p : Person) : Prop :=
  CAP_SPACE_TRANSFER ∈ capabilitiesFor .owner (split p.capabilities) ∧ p.expiresAt = none

/-- The person the Space is handed to is fit to own it, if the transfer is carried out. -/
def FitHeir (s : Store) : Op → Prop
  | .transferOwnership toPersonId =>
    ∀ p, s.people.get? toPersonId = some p → p.removed = false → p.role ≠ .owner → Fit p
  | _ => True

/-- What `add_person` must be given for the first Owner. -/
def FitFounder (expiresAt : Option String) (capabilities : Option (List String)) : Prop :=
  expiresAt = none ∧ ∀ caps, capabilities = some caps → CAP_SPACE_TRANSFER ∈ caps

/-! ## The capability column -/

theorem capability_word {c : String} (h : c ∈ PERSON_CAPABILITIES) :
    c.toList ≠ [] ∧ ∀ x ∈ c.toList, isSpace x = false := by
  have hall : (PERSON_CAPABILITIES.all fun c =>
      ! c.toList.isEmpty && c.toList.all fun x => ! isSpace x) = true := by decide +kernel
  have hc := List.all_eq_true.mp hall c h
  rw [Bool.and_eq_true, List.all_eq_true] at hc
  exact ⟨by simpa using hc.1, fun x hx => by simpa using hc.2 x hx⟩

/-- A grant of known capabilities is read back as it was written. -/
theorem mem_split_join {caps : List String} (h : ∀ c ∈ caps, c ∈ PERSON_CAPABILITIES) :
    ∃ read, split (join (some caps)) = some read ∧ ∀ c, c ∈ read ↔ c ∈ caps := by
  have hsorted : ∀ c, c ∈ sorted caps ↔ c ∈ caps := by
    intro c
    rw [sorted, List.mem_mergeSort, List.mem_dedup]
  have hwords : words ([' '].intercalate ((sorted caps).map String.toList)) =
      (sorted caps).map String.toList := by
    apply words_intercalate
    intro w hw
    obtain ⟨c, hc, rfl⟩ := List.mem_map.mp hw
    exact capability_word (h c ((hsorted c).mp hc))
  refine ⟨sorted caps, ?_, hsorted⟩
  rw [join, split, Option.map_some, Option.map_some, String.toList_ofList, hwords, List.map_map]
  congr 1
  exact (List.map_congr_left fun c _ => String.ofList_toList).trans (List.map_id _)

/-! ## What each operation does -/

section
variable {pyRepr} {s : Store} {k : String} {p : Person}

@[simp] theorem get?_update (personId : String) (f : Person → Person) (people : Dict String Person) :
    (update personId f people).get? k =
      (people.get? k).map fun p => if k = personId then f p else p :=
  Dict.get?_map ..

theorem ownerCount_pos (h : Owns s k p) : 0 < s.ownerCount := by
  obtain ⟨hget, hrole, hlive⟩ := h
  refine List.length_pos_of_mem (a := p) ?_
  simp only [Store.live, List.mem_filter, hrole, hlive, Dict.mem_values]
  exact ⟨⟨⟨k, hget⟩, by simp⟩, by simp⟩

/-- An update that makes no Owner and no Owner's row different keeps the Space administrable. -/
theorem Administrable.update (h : Administrable s) (personId : String) (f : Person → Person)
    {s' : Store} (hs : s'.people = update personId f s.people)
    (hf : ∀ p, s.people.get? personId = some p → (p.role = .owner → p.removed = false →
      (f p).role = p.role ∧ (f p).removed = p.removed ∧ (f p).capabilities = p.capabilities ∧
        (f p).expiresAt = p.expiresAt) ∧
      ((f p).role = .owner → (f p).removed = false → p.role = .owner ∧ p.removed = false)) :
    Administrable s' := by
  obtain ⟨id, p, ⟨hget, hrole, hlive⟩, honly, hcaps, hexp⟩ := h
  have hkept : ∀ k q', Owns s' k q' → k = id := by
    rintro k q' ⟨hq, hqrole, hqlive⟩
    rw [hs, get?_update, Option.map_eq_some_iff] at hq
    obtain ⟨q, hq, rfl⟩ := hq
    split at hqrole
    · rename_i hk
      rw [if_pos hk] at hqlive
      subst hk
      obtain ⟨h₁, h₂⟩ := (hf q hq).2 hqrole hqlive
      exact honly _ q ⟨hq, h₁, h₂⟩
    · rename_i hk
      rw [if_neg hk] at hqlive
      exact honly k q ⟨hq, hqrole, hqlive⟩
  by_cases hid : id = personId
  · subst hid
    obtain ⟨h₁, h₂, h₃, h₄⟩ := (hf p hget).1 hrole hlive
    refine ⟨id, f p, ⟨?_, h₁.trans hrole, h₂.trans hlive⟩, hkept, ?_, h₄.trans hexp⟩
    · rw [hs, get?_update, hget, Option.map_some, if_pos rfl]
    · rw [h₁, h₃]
      exact hcaps
  · refine ⟨id, p, ⟨?_, hrole, hlive⟩, hkept, hcaps, hexp⟩
    rw [hs, get?_update, hget, Option.map_some, if_neg hid]

variable (pyRepr) in
theorem addPerson_cases (displayName role : String) (expiresAt : Option String)
    (capabilities : Option (List String)) (profile : Profile) (pid : Token) (ts : String)
    (s : Store) :
    (∃ e, addPerson pyRepr displayName role expiresAt capabilities profile pid ts s = (.error e, s)) ∨
      ∃ person : Person, roleOf role = some person.role ∧ person.removed = false ∧
        person.capabilities = join capabilities ∧ person.expiresAt = expiresAt ∧
        (∀ c ∈ capabilities.getD [], c ∈ PERSON_CAPABILITIES) ∧
        (person.role = .owner → s.ownerCount = 0) ∧ s.people.get? pid.text = none ∧
        addPerson pyRepr displayName role expiresAt capabilities profile pid ts s =
          (.ok person, { s with people := s.people.set pid.text person }) := by
  unfold addPerson
  split
  · exact .inl ⟨_, rfl⟩
  · rename_i role' hrole
    split
    · exact .inl ⟨_, rfl⟩
    · rename_i name hname
      dsimp only
      split
      · exact .inl ⟨_, rfl⟩
      · rename_i hknown
        split
        · exact .inl ⟨_, rfl⟩
        · rename_i howner
          split
          · exact .inl ⟨_, rfl⟩
          · rename_i blob hblob
            split
            · exact .inl ⟨_, rfl⟩
            · split
              · exact .inl ⟨_, rfl⟩
              · rename_i hfree
                refine .inr ⟨_, hrole, rfl, rfl, rfl, fun c hc => ?_, fun ho => ?_, ?_, rfl⟩
                · rw [ne_eq, not_not, List.filter_eq_nil_iff] at hknown
                  simpa using hknown c hc
                · exact Nat.eq_zero_of_not_pos fun hpos => howner ⟨ho, hpos⟩
                · simpa using hfree

theorem administrable_addPerson (h : Administrable s) (displayName role : String)
    (expiresAt : Option String) (capabilities : Option (List String)) (profile : Profile)
    (pid : Token) (ts : String) :
    Administrable (addPerson pyRepr displayName role expiresAt capabilities profile pid ts s).2 := by
  rcases addPerson_cases pyRepr displayName role expiresAt capabilities profile pid ts s
    with ⟨e, he⟩ | ⟨person, -, -, -, -, -, howner, hfree, hadd⟩
  · rw [he]
    exact h
  · obtain ⟨id, p, howns, honly, hfit⟩ := h
    -- there is an Owner, so the new person is none
    have hnot : person.role ≠ .owner := fun hr => (ownerCount_pos howns).ne' (howner hr)
    have hne : id ≠ pid.text := by
      rintro rfl
      rw [howns.1] at hfree
      cases hfree
    rw [hadd]
    refine ⟨id, p, ⟨?_, howns.2⟩, fun k q hq => ?_, hfit⟩
    · dsimp only
      rw [Dict.get?_set, if_neg hne]
      exact howns.1
    · obtain ⟨hget, hrole, hlive⟩ := hq
      dsimp only at hget
      rw [Dict.get?_set] at hget
      split at hget
      · cases hget
        exact absurd hrole hnot
      · exact honly k q ⟨hget, hrole, hlive⟩

theorem administrable_setPersonRole (h : Administrable s) (personId role : String) :
    Administrable (setPersonRole personId role s).2 := by
  unfold setPersonRole
  split
  · exact h
  · rename_i role' hrole
    split
    · exact h
    · rename_i person hperson
      split
      · exact h
      · rename_i hdemote
        split
        · exact h
        · rename_i hpromote
          refine h.update personId (fun p => { p with role := role' }) rfl fun p hp => ?_
          rw [hperson] at hp
          cases hp
          exact ⟨fun ho => absurd ⟨ho, hpromote⟩ hdemote, fun ho => absurd ho hpromote⟩

theorem administrable_setPersonProfile (h : Administrable s) (personId : String)
    (profile : Profile) : Administrable (setPersonProfile personId profile s).2 := by
  unfold setPersonProfile
  split
  · exact h
  · split
    · exact h
    · rename_i blob _
      exact h.update personId (fun p => { p with profile := blob }) rfl fun p _ =>
        ⟨fun _ _ => ⟨rfl, rfl, rfl, rfl⟩, fun h₁ h₂ => ⟨h₁, h₂⟩⟩

theorem administrable_removePerson (h : Administrable s) (personId : String) :
    Administrable (removePerson personId s).2 := by
  unfold removePerson
  split
  · exact h
  · rename_i person hperson
    split
    · exact h
    · rename_i hrole
      refine h.update personId (fun p => { p with removed := true }) rfl fun p hp => ?_
      rw [hperson] at hp
      cases hp
      exact ⟨fun ho => absurd ho hrole, fun ho => absurd ho hrole⟩

theorem find?_currentOwner (h : Administrable s) :
    ∃ id p, currentOwner s = some (id, p) ∧ Owns s id p ∧ ∀ k q, Owns s k q → k = id := by
  obtain ⟨id, p, howns, honly, -⟩ := h
  refine ⟨id, p, ?_, howns, honly⟩
  have hsome : (currentOwner s).isSome := by
    rw [currentOwner, List.find?_isSome]
    exact ⟨(id, p), Dict.mem_entries.mpr howns.1, by simp [howns.2.1, howns.2.2]⟩
  obtain ⟨⟨k, q⟩, hkq⟩ := Option.isSome_iff_exists.mp hsome
  have hget : s.people.get? k = some q := Dict.mem_entries.mp (List.mem_of_find?_eq_some hkq)
  have hq := List.find?_some hkq
  simp only [decide_eq_true_eq, Bool.not_eq_true] at hq
  have hk : k = id := honly k q ⟨hget, hq.1, by simpa using hq.2⟩
  subst hk
  rw [howns.1] at hget
  cases hget
  exact hkq

/-- The table once the Space has gone from one person to another. -/
def handedOver (prevId toPersonId : String) (people : Dict String Person) : Dict String Person :=
  update toPersonId (fun p => { p with role := .owner })
    (update prevId (fun p => { p with role := .admin }) people)

section
variable {prevId toPersonId : String} {target : Person}

theorem get?_handedOver (hto : s.people.get? toPersonId = some target) (hne : toPersonId ≠ prevId) :
    (handedOver prevId toPersonId s.people).get? toPersonId = some { target with role := .owner } := by
  rw [handedOver, get?_update, get?_update, hto]
  simp [hne]

/-- After a handover the heir is the only live Owner. -/
theorem owner_handedOver (hto : s.people.get? toPersonId = some target) (hne : toPersonId ≠ prevId)
    (honly : ∀ k q, Owns s k q → k = prevId) {k : String} {q : Person}
    (hq : (handedOver prevId toPersonId s.people).get? k = some q) (hrole : q.role = .owner)
    (hlive : q.removed = false) : k = toPersonId ∧ q = { target with role := .owner } := by
  by_cases hk : k = toPersonId
  · subst hk
    rw [get?_handedOver hto hne] at hq
    cases hq
    exact ⟨rfl, rfl⟩
  · exfalso
    rw [handedOver, get?_update, get?_update, Option.map_map, Option.map_eq_some_iff] at hq
    obtain ⟨q₀, hq₀, rfl⟩ := hq
    simp only [Function.comp_apply, if_neg hk] at hrole hlive
    by_cases hki : k = prevId
    · rw [if_pos hki] at hrole
      cases hrole
    · rw [if_neg hki] at hrole hlive
      exact hki (honly k q₀ ⟨hq₀, hrole, hlive⟩)

end

/-- A transfer is refused to whoever is unknown, removed or the Owner. To anybody else it is
carried out. -/
theorem transferOwnership_cases (h : Administrable s) (toPersonId : String) :
    ((transferOwnership toPersonId s).2 = s ∧
      ∀ p, s.people.get? toPersonId = some p → p.removed = false → p.role = .owner) ∨
    ∃ target prevId, s.people.get? toPersonId = some target ∧ target.removed = false ∧
      target.role ≠ .owner ∧ toPersonId ≠ prevId ∧ (∀ k q, Owns s k q → k = prevId) ∧
      (transferOwnership toPersonId s).2 =
        { s with people := handedOver prevId toPersonId s.people } := by
  unfold transferOwnership
  cases hto : s.people.get? toPersonId with
  | none => exact .inl ⟨rfl, fun p hp => nomatch hp⟩
  | some target =>
    dsimp only
    split
    · rename_i hremoved
      refine .inl ⟨rfl, fun p hp hlive => ?_⟩
      cases hp
      rw [hremoved] at hlive
      cases hlive
    · rename_i hlive
      split
      · rename_i hrole
        refine .inl ⟨rfl, fun p hp _ => ?_⟩
        cases hp
        exact hrole
      · rename_i hrole
        obtain ⟨prevId, prev, hcur, ⟨hget, howner, -⟩, honly⟩ := find?_currentOwner h
        have hne : toPersonId ≠ prevId := by
          rintro rfl
          rw [hto] at hget
          cases hget
          exact hrole howner
        refine .inr ⟨target, prevId, rfl, by simpa using hlive, hrole, hne, honly, ?_⟩
        rw [hcur]
        rfl

/-- A transfer leaves the Space administrable exactly when the heir is fit to own it. -/
theorem administrable_transferOwnership (h : Administrable s) (toPersonId : String) :
    Administrable (transferOwnership toPersonId s).2 ↔ FitHeir s (.transferOwnership toPersonId) := by
  rcases transferOwnership_cases h toPersonId with
    ⟨hsame, howner⟩ | ⟨target, prevId, hto, hlive, hrole, hne, honly, hstep⟩
  · rw [hsame]
    exact iff_of_true h fun p hp hp' hne => absurd (howner p hp hp') hne
  · rw [hstep]
    constructor
    · rintro ⟨k, p, ⟨hp, hprole, hplive⟩, -, hcaps, hexp⟩ q hq _ _
      rw [hto] at hq
      cases hq
      obtain ⟨-, rfl⟩ := owner_handedOver hto hne honly hp hprole hplive
      exact ⟨hcaps, hexp⟩
    · intro hfit
      obtain ⟨hcaps, hexp⟩ := hfit target hto hlive hrole
      exact ⟨toPersonId, { target with role := .owner }, ⟨get?_handedOver hto hne, rfl, hlive⟩,
        fun k q hq => (owner_handedOver hto hne honly hq.1 hq.2.1 hq.2.2).1, hcaps, hexp⟩

theorem administrable_step (h : Administrable s) (op : Op) :
    Administrable (step pyRepr s op) ↔ FitHeir s op := by
  cases op with
  | addPerson displayName role expiresAt capabilities profile pid ts =>
    exact iff_of_true (administrable_addPerson h displayName role expiresAt capabilities profile pid ts)
      trivial
  | setPersonRole personId role => exact iff_of_true (administrable_setPersonRole h personId role) trivial
  | setPersonProfile personId profile =>
    exact iff_of_true (administrable_setPersonProfile h personId profile) trivial
  | removePerson personId => exact iff_of_true (administrable_removePerson h personId) trivial
  | transferOwnership toPersonId => exact administrable_transferOwnership h toPersonId

/-! ## From the first Owner on -/

/-- What makes the first Owner's row fit is what `add_person` was given. -/
theorem fitFounder_iff {expiresAt : Option String} {capabilities : Option (List String)}
    (hknown : ∀ c ∈ capabilities.getD [], c ∈ PERSON_CAPABILITIES) :
    (CAP_SPACE_TRANSFER ∈ capabilitiesFor .owner (split (join capabilities)) ∧ expiresAt = none) ↔
      FitFounder expiresAt capabilities := by
  rw [and_comm, FitFounder]
  refine and_congr_right fun _ => ?_
  cases capabilities with
  | none =>
    refine iff_of_true ?_ fun caps h => by cases h
    exact List.mem_cons_self
  | some caps =>
    obtain ⟨read, hread, hmem⟩ := mem_split_join (show ∀ c ∈ caps, c ∈ PERSON_CAPABILITIES from hknown)
    rw [hread]
    exact (hmem _).trans ⟨fun h caps' he => by cases he; exact h, fun h => h caps rfl⟩

/-- With no expiry, no grant and no profile, `add_person` writes the columns of the first run. -/
theorem addPerson_view (displayName : String) (role : Role) (pid : Token) (ts : String) (s : Store)
    {name : String} (hrole : roleOf name = some role) :
    (addPerson pyRepr displayName name none none .none pid ts s).2.view =
      (Setup.addPerson displayName role pid ts none s.view).2 := by
  have hlive : s.view.live = s.live.map Person.view := by
    unfold SpaceStore.live Store.live Store.view
    rw [Dict.values_mapValues, List.filter_map]
    rfl
  have hcount : s.view.ownerCount = s.ownerCount := by
    unfold SpaceStore.ownerCount Store.ownerCount
    rw [hlive, List.filter_map, List.length_map]
    rfl
  have hget : (s.view.people.get? pid.text).isSome = (s.people.get? pid.text).isSome := by
    unfold Store.view
    rw [Dict.get?_mapValues, Option.isSome_map]
  unfold addPerson Setup.addPerson
  rw [hrole, hlive, hcount, hget]
  dsimp only [raisedAt, Option.filter_none, Option.map_none, dumpJson, Option.getD_none,
    List.filter_nil]
  cases cleanName displayName "display_name" with
  | error e => rfl
  | ok clean =>
    dsimp only
    rw [if_neg (by simp), List.length_map]
    split
    · rfl
    · split
      · rfl
      · split
        · rfl
        · unfold Store.view
          dsimp only
          rw [Dict.mapValues_set]
          rfl

theorem people_createSpace (name kind : String) (sid : Token) (ts : String) (s : Store) :
    (createSpace name kind sid ts s).2.people = s.people := rfl

theorem administrable_founded {name kind ownerName : String} {sid pid : Token} {ts ts' : String}
    {expiresAt : Option String} {capabilities : Option (List String)} {profile : Profile}
    {owner : Person} {s₁ : Store}
    (h : addPerson pyRepr ownerName "owner" expiresAt capabilities profile pid ts'
      (createSpace name kind sid ts fresh).2 = (.ok owner, s₁)) :
    Administrable s₁ ↔ FitFounder expiresAt capabilities := by
  rcases addPerson_cases pyRepr ownerName "owner" expiresAt capabilities profile pid ts'
    (createSpace name kind sid ts fresh).2 with ⟨e, he⟩ | ⟨p, hrole, hlive, hcaps, hexp, hknown, -, -, hadd⟩
  · rw [he] at h
    cases h
  · rw [hadd] at h
    cases h
    have hp : owner.role = .owner := (Option.some.inj hrole).symm
    have hget : ∀ k q, ((createSpace name kind sid ts fresh).2.people.set pid.text owner).get? k = some q →
        k = pid.text ∧ q = owner := by
      intro k q hq
      rw [Dict.get?_set, people_createSpace] at hq
      split at hq
      · rename_i hk
        exact ⟨hk, (Option.some.inj hq).symm⟩
      · cases hq
    rw [← fitFounder_iff hknown]
    constructor
    · rintro ⟨k, q, ⟨hq, -, -⟩, -, hqcaps, hqexp⟩
      obtain ⟨-, rfl⟩ := hget k q hq
      rw [hp, hcaps] at hqcaps
      exact ⟨hqcaps, hexp.symm.trans hqexp⟩
    · rintro ⟨hfit, hnone⟩
      refine ⟨pid.text, owner, ⟨Dict.get?_set_self .., hp, hlive⟩, fun k q hq => (hget k q hq.1).1, ?_,
        hexp.trans hnone⟩
      rw [hp, hcaps]
      exact hfit

end

/-- From a new Space and its first Owner on, the runs in which the Space is administrable
throughout are those whose first Owner and whose heirs are fit to own it. -/
theorem administrable_iff {name kind ownerName : String} {sid pid : Token} {ts ts' : String}
    {expiresAt : Option String} {capabilities : Option (List String)} {profile : Profile}
    {space : Space} {owner : Person} {s₀ s₁ : Store}
    (hspace : createSpace name kind sid ts fresh = (.ok space, s₀))
    (howner : addPerson pyRepr ownerName "owner" expiresAt capabilities profile pid ts' s₀ =
      (.ok owner, s₁)) (ops : List Op) :
    AllStates (step pyRepr) Administrable s₁ ops ↔
      FitFounder expiresAt capabilities ∧ AllSteps (step pyRepr) FitHeir s₁ ops := by
  have hs₀ : s₀ = (createSpace name kind sid ts fresh).2 := by rw [hspace]
  rw [hs₀] at howner
  rw [← administrable_founded howner]
  have hstep : ∀ s op, Administrable s → FitHeir s op → Administrable (step pyRepr s op) :=
    fun s op hs hok => (administrable_step hs op).mpr hok
  have hbreak : ∀ s op, Administrable s → ¬ FitHeir s op → ¬ Administrable (step pyRepr s op) :=
    fun s op hs hbad hn => hbad ((administrable_step hs op).mp hn)
  constructor
  · intro h
    have hstart : Administrable s₁ := allStates_iff_split.mp h [] ops rfl
    exact ⟨hstart, (allStates_iff_allSteps hstep (fun _ hs => hs) hbreak hstart).mp h⟩
  · rintro ⟨hstart, h⟩
    exact allStates_of_invariant hstep (fun _ hs => hs) hstart h

def tokenA : Token := ⟨List.replicate 32 'a', by decide, by decide⟩

def tokenB : Token := ⟨List.replicate 32 'b', by decide, by decide⟩

def quote (text : String) : String := "'" ++ text ++ "'"

/-- A Space with its first Owner. -/
def founded : Store :=
  (addPerson quote "Ana" "owner" none none .none tokenA "1"
    (createSpace "Casa" "home" tokenA "0" fresh).2).2

/-- The Space is handed to an admin. -/
theorem administrable_admin :
    AllStates (step quote) Administrable founded
      [.addPerson "Bia" "admin" none none .none tokenB "2", .transferOwnership tokenB.text] := by
  have hspace : createSpace "Casa" "home" tokenA "0" fresh =
      (.ok ⟨tokenA.text, "Casa", "home", "0", 1⟩, (createSpace "Casa" "home" tokenA "0" fresh).2) := by
    decide +kernel
  have howner : addPerson quote "Ana" "owner" none none .none tokenA "1"
      (createSpace "Casa" "home" tokenA "0" fresh).2 =
      (.ok ⟨"Ana", .owner, "1", none, none, "{}", false⟩, founded) := by
    decide +kernel
  refine (administrable_iff quote hspace howner _).mpr
    ⟨⟨rfl, fun _ h => by cases h⟩, trivial, fun p hp _ _ => ?_, trivial⟩
  have hbia : (step quote founded (.addPerson "Bia" "admin" none none .none tokenB "2")).people.get?
      tokenB.text = some ⟨"Bia", .admin, "2", none, none, "{}", false⟩ := by
    decide +kernel
  rw [hbia] at hp
  cases hp
  exact ⟨by decide, rfl⟩

/-- The Space is handed to a guest, who then owns it until the visit is over. -/
theorem guest_inherits :
    ¬ AllStates (step quote) Administrable founded
      [.addPerson "Gil" "guest" (some "2026-02-01T00:00:00+00:00") none .none tokenB "2",
        .transferOwnership tokenB.text] := by
  intro h
  obtain ⟨k, p, ⟨hget, hrole, -⟩, -, -, hexp⟩ := h.last
  have hall : ∀ e ∈ (finish (step quote) founded
      [.addPerson "Gil" "guest" (some "2026-02-01T00:00:00+00:00") none .none tokenB "2",
        .transferOwnership tokenB.text]).people.entries,
      e.2.role = .owner → e.2.expiresAt ≠ none := by
    decide +kernel
  exact hall (k, p) (Dict.mem_entries.mpr hget) hrole hexp

end Wavr.People
