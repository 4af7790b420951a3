import Wavr.Dict
import Wavr.Text

/-!
# The Space store

The one Space a Core serves and the people in it: `create_space`, `add_person`,
`destroy_space` and `bump_epoch` of `SpaceStore`. A storage error strikes one named point of
the first run, if any, and a statement that fails writes nothing.
-/

namespace Wavr.Setup
open Text

/-- What the stores and the route raise. -/
inductive Exn
  | spaceError (detail : String)
  | coreRegistryError (detail : String)
  | httpException (status : ℕ) (detail : String)
  | sqliteError (detail : String)
  deriving DecidableEq, Repr

/-- `str(exc)`. -/
def Exn.detail : Exn → String
  | .spaceError d => d
  | .coreRegistryError d => d
  | .httpException _ d => d
  | .sqliteError d => d

/-- Where a storage error can strike. -/
inductive Point
  /-- In `create_space`, before its row is there. -/
  | spaceWrite
  /-- In `add_person`, before its row is there. -/
  | personWrite
  /-- In `register`, at the UPDATE of the other rows. -/
  | selfClear
  /-- In `register`, at the INSERT. -/
  | coreWrite
  /-- In `register`, when the committed row is read back. -/
  | coreRead
  /-- In `bump_epoch`. -/
  | epochWrite
  /-- In `promote`, before its transaction commits. -/
  | promoteWrite
  /-- In `promote`, when the committed row is read back. -/
  | promoteRead
  deriving DecidableEq, Repr

structure Fault where
  point : Point
  detail : String
  deriving DecidableEq

/-- The sqlite error raised at `p`, if the storage fails there. -/
def raisedAt (p : Point) (fault : Option Fault) : Option Exn :=
  (fault.filter fun f => f.point = p).map fun f => .sqliteError f.detail

def isHexDigit (c : Char) : Bool := ('0' ≤ c ∧ c ≤ '9') ∨ ('a' ≤ c ∧ c ≤ 'f')

/-- A draw of `secrets.token_hex(16)`. -/
structure Token where
  chars : List Char
  length_eq : chars.length = 32
  hex : chars.all isHexDigit = true
  deriving DecidableEq

def Token.text (t : Token) : String := String.ofList t.chars

def SPACE_KINDS : List String :=
  ["home", "apartment", "office", "shop", "restaurant", "school", "warehouse", "workshop",
    "hotel", "laboratory", "other"]

def DEFAULT_SPACE_KIND : String := "home"

def MAX_NAME : ℕ := 64
def MAX_PEOPLE : ℕ := 200

inductive Role
  | owner
  | admin
  | user
  | guest
  deriving DecidableEq, Repr

structure Space where
  spaceId : String
  name : String
  kind : String
  createdTs : String
  epoch : ℕ
  deriving DecidableEq

structure Person where
  displayName : String
  role : Role
  createdTs : String
  removed : Bool
  deriving DecidableEq

structure SpaceStore where
  /-- The table `space`, whose key is checked to be 1. -/
  space : Option Space
  people : Dict String Person
  /-- Row counts of the tables that attach devices. -/
  personDevices : ℕ
  deviceFunctions : ℕ
  deviceCapabilities : ℕ
  deriving DecidableEq

/-- `_clean_name`. -/
def cleanName (raw what : String) : Except Exn String :=
  let name := truncate MAX_NAME (collapse raw)
  if name = "" then .error (.spaceError (what ++ " must not be empty")) else .ok name

def spaceKind (kind : String) : String :=
  let kind := lower (strip (if truthy kind then kind else DEFAULT_SPACE_KIND))
  if SPACE_KINDS.any (· = kind) then kind else "other"

/-- The check on a Space id. The id is ASCII here, where `str.isalnum` is `Char.isAlphanum`. -/
def isSpaceId (sid : List Char) : Bool :=
  (8 ≤ sid.length ∧ sid.length ≤ 64) ∧ sid.filter (· ≠ '-') ≠ [] ∧
    (sid.filter (· ≠ '-')).all Char.isAlphanum

def createSpace (name kind : String) (sid : Token) (ts : String) (fault : Option Fault)
    (s : SpaceStore) : Except Exn Space × SpaceStore :=
  if s.space.isSome then (.error (.spaceError "this Core already belongs to a Space"), s)
  else
    match cleanName name "space name" with
    | .error e => (.error e, s)
    | .ok name =>
      if ¬ isSpaceId sid.chars then
        (.error (.spaceError "space_id must be 8-64 alphanumeric characters"), s)
      else
        match raisedAt .spaceWrite fault with
        | some e => (.error e, s)
        | none =>
          let space : Space := ⟨sid.text, name, spaceKind kind, ts, 1⟩
          (.ok space, { s with space := some space })

/-- Rows with `removed = 0`. -/
def SpaceStore.live (s : SpaceStore) : List Person := s.people.values.filter fun p => ¬ p.removed

/-- `_owner_count`. -/
def SpaceStore.ownerCount (s : SpaceStore) : ℕ := (s.live.filter fun p => p.role = .owner).length

/-- `add_person` without expiry, explicit capabilities or profile, as the first run calls it. -/
def addPerson (displayName : String) (role : Role) (pid : Token) (ts : String)
    (fault : Option Fault) (s : SpaceStore) : Except Exn Person × SpaceStore :=
  match cleanName displayName "display_name" with
  | .error e => (.error e, s)
  | .ok name =>
    if role = .owner ∧ 0 < s.ownerCount then
      (.error (.spaceError "this Space already has an Owner — use transfer instead"), s)
    else
      match raisedAt .personWrite fault with
      | some e => (.error e, s)
      | none =>
        if MAX_PEOPLE ≤ s.live.length then
          (.error (.spaceError "this Space has reached its people limit"), s)
        else if (s.people.get? pid.text).isSome then
          (.error (.sqliteError "UNIQUE constraint failed: people.person_id"), s)
        else
          let person : Person := ⟨name, role, ts, false⟩
          (.ok person, { s with people := s.people.set pid.text person })

/-- The rows `destroy_space` counts as attached. -/
def SpaceStore.attached (s : SpaceStore) : ℕ :=
  s.personDevices + s.deviceFunctions + s.deviceCapabilities

def destroySpace (s : SpaceStore) : Except Exn Bool × SpaceStore :=
  if s.space.isNone then (.ok false, s)
  -- a household by then, not a failed setup: one person is the Owner of the attempt
  else if 0 < s.attached ∨ 1 < s.live.length then
    (.error (.spaceError
      "this Space has devices or people attached — refusing to delete it"), s)
  else (.ok true, { s with space := none, people := .empty })

def bumpEpoch (fault : Option Fault) (s : SpaceStore) : Except Exn ℕ × SpaceStore :=
  match raisedAt .epochWrite fault with
  | some e => (.error e, s)
  | none =>
    match s.space with
    | none => (.error (.spaceError "no Space on this Core"), s)
    | some space =>
      (.ok (space.epoch + 1), { s with space := some { space with epoch := space.epoch + 1 } })

/-! ## What each operation does -/

theorem cleanName_of_blank {raw : String} (what : String) (h : blank raw = true) :
    ∃ e, cleanName raw what = .error e := by
  have hc : truncate MAX_NAME (collapse raw) = "" :=
    (truncate_eq_empty (by decide)).mpr (collapse_eq_empty.mpr h)
  exact ⟨_, by rw [cleanName, if_pos hc]⟩

theorem cleanName_of_not_blank {raw : String} (what : String) (h : blank raw = false) :
    ∃ name, cleanName raw what = .ok name := by
  have hc : truncate MAX_NAME (collapse raw) ≠ "" := by
    intro he
    have hb := collapse_eq_empty.mp ((truncate_eq_empty (by decide)).mp he)
    rw [h] at hb
    cases hb
  exact ⟨_, by rw [cleanName, if_neg hc]⟩

theorem isHexDigit_iff {c : Char} :
    isHexDigit c = true ↔ (48 ≤ c.toNat ∧ c.toNat ≤ 57) ∨ (97 ≤ c.toNat ∧ c.toNat ≤ 102) := by
  simp only [isHexDigit, Char.le_def, UInt32.le_iff_toNat_le, Bool.decide_or, Bool.or_eq_true,
    decide_eq_true_eq]
  exact Iff.rfl

theorem isHexDigit_alphanum {c : Char} (h : isHexDigit c = true) : c.isAlphanum = true := by
  rw [isHexDigit_iff] at h
  have hd : c.isDigit = true ↔ 48 ≤ c.toNat ∧ c.toNat ≤ 57 := by
    change (decide (48 ≤ c.val) && decide (c.val ≤ 57)) = true ↔ _
    rw [Bool.and_eq_true, decide_eq_true_eq, decide_eq_true_eq]
    exact Iff.rfl
  have hl : c.isLower = true ↔ 97 ≤ c.toNat ∧ c.toNat ≤ 122 := by
    change (decide (97 ≤ c.val) && decide (c.val ≤ 122)) = true ↔ _
    rw [Bool.and_eq_true, decide_eq_true_eq, decide_eq_true_eq]
    exact Iff.rfl
  change ((c.isUpper || c.isLower) || c.isDigit) = true
  rw [Bool.or_eq_true, Bool.or_eq_true, hd, hl]
  omega

theorem isHexDigit_not_space {c : Char} (h : isHexDigit c = true) : isSpace c = false := by
  rw [isHexDigit_iff] at h
  by_contra hs
  -- no hex digit lies in the gap that the spaces leave
  have hle : c.toNat ≤ 32 ∨ 133 ≤ c.toNat := by
    simp only [isSpace, Char.le_def, UInt32.le_iff_toNat_le, Bool.not_eq_false, decide_eq_true_eq] at hs
    change (9 ≤ c.toNat ∧ c.toNat ≤ 13) ∨ (28 ≤ c.toNat ∧ c.toNat ≤ 32) ∨ _ at hs
    rcases hs with hs | hs | rfl | rfl | rfl | hs | rfl | rfl | rfl | rfl | rfl
    · omega
    · omega
    · decide
    · decide
    · decide
    · have : 8192 ≤ c.toNat := hs.1
      omega
    all_goals decide
  omega

/-- Every draw passes the check on a Space id. -/
theorem Token.isSpaceId (t : Token) : isSpaceId t.chars = true := by
  have hhex : ∀ c ∈ t.chars, isHexDigit c = true := List.all_eq_true.mp t.hex
  have hdash : t.chars.filter (· ≠ '-') = t.chars := by
    apply List.filter_eq_self.mpr
    intro c hc
    have hne : c ≠ '-' := by
      rintro rfl
      exact absurd (hhex _ hc) (by decide)
    simpa using hne
  have hne : t.chars ≠ [] := by
    intro h
    have hlen := t.length_eq
    rw [h] at hlen
    cases hlen
  have hall : t.chars.all Char.isAlphanum = true :=
    List.all_eq_true.mpr fun c hc => isHexDigit_alphanum (hhex c hc)
  simp only [Setup.isSpaceId, hdash, t.length_eq, hall, decide_eq_true_eq]
  exact ⟨by decide, hne, trivial⟩

section
variable {name : String} {pid : Token} {role : Role} {fault : Option Fault}
  {s : SpaceStore}

theorem createSpace_ok (kind : String) (sid : Token) (ts : String) (hs : s.space = none) (hn : blank name = false)
    (hf : raisedAt .spaceWrite fault = none) :
    ∃ space : Space, space.spaceId = sid.text ∧ space.epoch = 1 ∧
      createSpace name kind sid ts fault s = (.ok space, { s with space := some space }) := by
  obtain ⟨clean, hc⟩ := cleanName_of_not_blank "space name" hn
  exact ⟨⟨sid.text, clean, spaceKind kind, ts, 1⟩, rfl, rfl,
    by simp [createSpace, hs, hc, sid.isSpaceId, hf]⟩

theorem createSpace_error (kind : String) (sid : Token) (ts : String)
    (h : ¬ (s.space = none ∧ blank name = false ∧ raisedAt .spaceWrite fault = none)) :
    ∃ e, createSpace name kind sid ts fault s = (.error e, s) := by
  unfold createSpace
  by_cases hs : s.space = none
  · rw [if_neg (by simp [hs])]
    cases hn : blank name with
    | true =>
      obtain ⟨e, he⟩ := cleanName_of_blank "space name" hn
      exact ⟨e, by rw [he]⟩
    | false =>
      obtain ⟨clean, hc⟩ := cleanName_of_not_blank "space name" hn
      cases hf : raisedAt .spaceWrite fault with
      | none => exact absurd ⟨hs, hn, hf⟩ h
      | some e => exact ⟨e, by simp [hc, sid.isSpaceId]⟩
  · rw [if_pos (Option.isSome_iff_ne_none.mpr hs)]
    exact ⟨_, rfl⟩

/-- When `add_person` writes its row. -/
def Admits (displayName : String) (role : Role) (pid : Token) (fault : Option Fault)
    (s : SpaceStore) : Prop :=
  blank displayName = false ∧ (role = .owner → s.ownerCount = 0) ∧
    raisedAt .personWrite fault = none ∧ s.live.length < MAX_PEOPLE ∧
    s.people.get? pid.text = none

theorem addPerson_ok (ts : String) (h : Admits name role pid fault s) :
    ∃ person : Person, person.role = role ∧ person.removed = false ∧
      addPerson name role pid ts fault s =
        (.ok person, { s with people := s.people.set pid.text person }) := by
  obtain ⟨hn, ho, hf, hl, hp⟩ := h
  obtain ⟨clean, hc⟩ := cleanName_of_not_blank "display_name" hn
  have howner : ¬ (role = .owner ∧ 0 < s.ownerCount) := fun hr => hr.2.ne' (ho hr.1)
  exact ⟨⟨clean, role, ts, false⟩, rfl, rfl,
    by simp [addPerson, hc, howner, hf, Nat.not_le.mpr hl, hp]⟩

theorem addPerson_error (ts : String) (h : ¬ Admits name role pid fault s) :
    ∃ e, addPerson name role pid ts fault s = (.error e, s) := by
  unfold addPerson
  cases hn : blank name with
  | true =>
    obtain ⟨e, he⟩ := cleanName_of_blank "display_name" hn
    exact ⟨e, by rw [he]⟩
  | false =>
    obtain ⟨clean, hc⟩ := cleanName_of_not_blank "display_name" hn
    rw [hc]
    by_cases ho : role = .owner ∧ 0 < s.ownerCount
    · exact ⟨_, if_pos ho⟩
    · simp only [if_neg ho]
      cases hf : raisedAt .personWrite fault with
      | some e => exact ⟨e, rfl⟩
      | none =>
        by_cases hl : MAX_PEOPLE ≤ s.live.length
        · exact ⟨_, if_pos hl⟩
        · simp only [if_neg hl]
          by_cases hp : (s.people.get? pid.text).isSome
          · exact ⟨_, if_pos hp⟩
          · refine absurd ⟨hn, fun hr => ?_, hf, Nat.not_le.mp hl, by simpa using hp⟩ h
            exact Nat.eq_zero_of_not_pos fun h0 => ho ⟨hr, h0⟩

theorem bumpEpoch_ok {space : Space} (hs : s.space = some space)
    (hf : raisedAt .epochWrite fault = none) :
    bumpEpoch fault s =
      (.ok (space.epoch + 1), { s with space := some { space with epoch := space.epoch + 1 } }) := by
  simp [bumpEpoch, hs, hf]

end

end Wavr.Setup
