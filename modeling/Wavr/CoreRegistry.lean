import Wavr.SpaceStore

/-!
# The Core registry

`register` and `promote` of `CoreRegistry`, over the table `cores` with its primary key.
-/

namespace Wavr.Setup
open Text

inductive Status
  | primary
  | standby
  | offline
  deriving DecidableEq, Repr

/-- What a registration refreshes. -/
structure CoreInfo where
  name : String
  baseUrl : String
  certFingerprint : String
  platform : String
  portable : Bool
  room : String
  isSelf : Bool
  /-- The health object, by key. -/
  health : List (String × String)
  deriving DecidableEq

structure Core where
  spaceId : String
  info : CoreInfo
  status : Status
  epoch : ℕ
  lastSeenTs : String
  createdTs : String
  deriving DecidableEq

abbrev CoreRegistry := Dict String Core

/-- `UPDATE cores SET is_self = 0 WHERE core_id != ?`. -/
def clearSelf (coreId : String) (cs : CoreRegistry) : CoreRegistry :=
  cs.map fun k c => if k = coreId then c else { c with info := { c.info with isSelf := false } }

/-- The upsert: a row that is there keeps its Space, its status, its epoch and its age. -/
def upsertCore (spaceId : String) (info : CoreInfo) (ts : String) : Option Core → Core
  | none => ⟨spaceId, info, .standby, 0, ts, ts⟩
  | some c => { c with info, lastSeenTs := ts }

@[simp] theorem upsertCore_epoch (spaceId : String) (info : CoreInfo) (ts : String)
    (old : Option Core) :
    (upsertCore spaceId info ts old).epoch = (old.map Core.epoch).getD 0 := by
  cases old <;> rfl

/-- The table before the upsert. -/
def cleared (coreId : String) (info : CoreInfo) (cs : CoreRegistry) : CoreRegistry :=
  if info.isSelf then clearSelf coreId cs else cs

def cleanCoreName (coreId name : String) : String :=
  let clean := truncate 64 (collapse name)
  if truthy clean then clean else truncate 12 coreId

/-- The row the upsert leaves. -/
def coreRow (coreId spaceId : String) (info : CoreInfo) (ts : String) (cs : CoreRegistry) : Core :=
  upsertCore spaceId { info with name := cleanCoreName coreId info.name } ts (cs.get? coreId)

/-- The table after the upsert. -/
def registered (coreId spaceId : String) (info : CoreInfo) (ts : String) (cs : CoreRegistry) :
    CoreRegistry :=
  (cleared coreId info cs).set coreId (coreRow coreId spaceId info ts (cleared coreId info cs))

def register (coreId spaceId : String) (info : CoreInfo) (ts : String) (fault : Option Fault)
    (cs : CoreRegistry) : Except Exn Core × CoreRegistry :=
  let coreId := strip coreId
  if ¬ (8 ≤ coreId.length ∧ coreId.length ≤ 64) then
    (.error (.coreRegistryError "core_id must be 8-64 characters"), cs)
  else
    match (if info.isSelf then raisedAt .selfClear fault else none) with
    | some e => (.error e, cs)
    | none =>
      match raisedAt .coreWrite fault with
      -- nothing rolls back: the UPDATE stays when the INSERT fails
      | some e => (.error e, cleared coreId info cs)
      | none =>
        match raisedAt .coreRead fault with
        | some e => (.error e, registered coreId spaceId info ts cs)
        | none => (.ok (coreRow coreId spaceId info ts (cleared coreId info cs)),
            registered coreId spaceId info ts cs)

/-- `SELECT MAX(epoch) FROM cores`, with 0 for no row. -/
def highest (cs : CoreRegistry) : ℕ := (cs.values.map Core.epoch).foldr max 0

/-- The two UPDATEs of a promotion: every primary stands down, then `coreId` leads. -/
def crown (coreId : String) (newEpoch : ℕ) (cs : CoreRegistry) : CoreRegistry :=
  cs.map fun k c =>
    if k = coreId then { c with status := .primary, epoch := newEpoch }
    else if c.status = .primary then { c with status := .standby } else c

def promote (coreId : String) (newEpoch : ℕ) (fault : Option Fault) (cs : CoreRegistry) :
    Except Exn Core × CoreRegistry :=
  match cs.get? coreId with
  | none => (.error (.coreRegistryError "unknown core"), cs)
  | some c =>
    match raisedAt .promoteWrite fault with
    | some e => (.error e, cs)
    | none =>
      -- over the rows of every Space, not only of this one
      if newEpoch ≤ highest cs then
        (.error (.coreRegistryError ("epoch " ++ toString newEpoch ++ " is not newer than " ++
          toString (highest cs) ++ " — refusing to replay a promotion")), cs)
      else
        match raisedAt .promoteRead fault with
        | some e => (.error e, crown coreId newEpoch cs)
        | none => (.ok { c with status := .primary, epoch := newEpoch }, crown coreId newEpoch cs)

/-- `core-` and the first half of the Space id. -/
def coreIdOf (spaceId : String) : String := "core-" ++ truncate 16 spaceId

/-! ## What each operation does -/

theorem coreIdOf_length (t : Token) : (coreIdOf t.text).length = 21 := by
  have : (coreIdOf t.text).length = 5 + (t.chars.take 16).length := by
    simp [coreIdOf, truncate, Token.text, String.length_append]
    rfl
  rw [this, List.length_take, t.length_eq]
  rfl

theorem strip_coreIdOf (t : Token) : strip (coreIdOf t.text) = coreIdOf t.text := by
  apply strip_of_no_space
  have hhex : ∀ c ∈ t.chars.take 16, isSpace c = false := fun c hc =>
    isHexDigit_not_space (List.all_eq_true.mp t.hex c (List.mem_of_mem_take hc))
  have hlist : (coreIdOf t.text).toList = "core-".toList ++ t.chars.take 16 := by
    simp [coreIdOf, truncate, Token.text]
  rw [hlist, List.all_append]
  have hcore : ("core-".toList.all fun c => ! isSpace c) = true := by decide
  rw [hcore]
  simpa using hhex

section
variable {cs : CoreRegistry} {coreId k : String} {c : Core} {n : ℕ}

theorem highest_le_iff : highest cs ≤ n ↔ ∀ k c, cs.get? k = some c → c.epoch ≤ n := by
  have key : ∀ es : List ℕ, es.foldr max 0 ≤ n ↔ ∀ e ∈ es, e ≤ n := by
    intro es
    induction es with
    | nil => simp
    | cons e es ih => rw [List.foldr_cons, Nat.max_le, ih, List.forall_mem_cons]
  rw [highest, key]
  constructor
  · intro h k c hc
    exact h _ (List.mem_map.mpr ⟨c, Dict.mem_values.mpr ⟨k, hc⟩, rfl⟩)
  · intro h e he
    obtain ⟨c, hc, rfl⟩ := List.mem_map.mp he
    obtain ⟨k, hk⟩ := Dict.mem_values.mp hc
    exact h k c hk

/-- The rows of one Space. -/
def coresOf (spaceId : String) (cs : CoreRegistry) : List Core :=
  cs.values.filter fun c => c.spaceId = spaceId

theorem coresOf_map {f : String → Core → Core} (hf : ∀ k c, (f k c).spaceId = c.spaceId)
    (sid : String) : (coresOf sid (cs.map f)).length = (coresOf sid cs).length := by
  have : (cs.map f).values = cs.entries.map fun e => f e.1 e.2 := by
    simp [Dict.values, Dict.map, Function.comp_def]
  rw [coresOf, coresOf, this, Dict.values, List.filter_map, List.filter_map, List.length_map,
    List.length_map]
  congr 2
  funext e
  simp [hf]

theorem coresOf_crown (sid : String) :
    (coresOf sid (crown coreId n cs)).length = (coresOf sid cs).length :=
  coresOf_map (by intro k c; split_ifs <;> rfl) sid

end

/-! ## The Core of a new Space -/

section
variable {t : Token} {info : CoreInfo} {ts : String} {fault : Option Fault} {cs : CoreRegistry}
  {sid k : String} {n : ℕ}

theorem coreId_fits (t : Token) :
    8 ≤ (coreIdOf t.text).length ∧ (coreIdOf t.text).length ≤ 64 := by
  rw [coreIdOf_length]
  decide

theorem register_ok (t : Token) (sid : String) (info : CoreInfo) (ts : String) (cs : CoreRegistry)
    (h₁ : raisedAt .selfClear fault = none) (h₂ : raisedAt .coreWrite fault = none)
    (h₃ : raisedAt .coreRead fault = none) :
    ∃ core, register (coreIdOf t.text) sid info ts fault cs =
      (.ok core, registered (coreIdOf t.text) sid info ts cs) := by
  simp [register, strip_coreIdOf, coreId_fits, h₁, h₂, h₃]

/-- A registration that fails before its row is there adds no row. -/
theorem register_unwritten (t : Token) (sid ts : String) (cs : CoreRegistry)
    (h : (info.isSelf = true ∧ raisedAt .selfClear fault ≠ none) ∨ raisedAt .coreWrite fault ≠ none) :
    ∃ e cs', register (coreIdOf t.text) sid info ts fault cs = (.error e, cs') ∧
      (cs' = cs ∨ cs' = cleared (coreIdOf t.text) info cs) := by
  simp only [register, strip_coreIdOf, coreId_fits, and_self, not_true_eq_false, if_false]
  cases h₁ : (if info.isSelf then raisedAt .selfClear fault else none) with
  | some e => exact ⟨e, cs, rfl, .inl rfl⟩
  | none =>
    cases h₂ : raisedAt .coreWrite fault with
    | some e => exact ⟨e, _, rfl, .inr rfl⟩
    | none =>
      rcases h with ⟨hs, hc⟩ | hw
      · rw [if_pos hs] at h₁
        exact absurd h₁ hc
      · exact absurd h₂ hw

/-- A registration that fails when it reads its row back leaves the row. -/
theorem register_unread (t : Token) (sid : String) (info : CoreInfo) (ts : String)
    (cs : CoreRegistry) (h₁ : raisedAt .selfClear fault = none)
    (h₂ : raisedAt .coreWrite fault = none) (h₃ : raisedAt .coreRead fault ≠ none) :
    ∃ e, register (coreIdOf t.text) sid info ts fault cs =
      (.error e, registered (coreIdOf t.text) sid info ts cs) := by
  obtain ⟨e, he⟩ := Option.ne_none_iff_exists'.mp h₃
  exact ⟨e, by simp [register, strip_coreIdOf, coreId_fits, h₁, h₂, he]⟩

theorem get?_cleared_epoch {coreId : String} :
    ((cleared coreId info cs).get? k).map Core.epoch = (cs.get? k).map Core.epoch := by
  unfold cleared
  split
  · rw [clearSelf, Dict.get?_map, Option.map_map]
    congr 1
    funext c
    show Core.epoch (if k = coreId then c else _) = c.epoch
    split <;> rfl
  · rfl

theorem get?_registered {coreId : String} :
    (registered coreId sid info ts cs).get? k =
      if k = coreId then some (coreRow coreId sid info ts (cleared coreId info cs))
      else (cleared coreId info cs).get? k := by
  rw [registered, Dict.get?_set]

theorem get?_registered_self {coreId : String} :
    ((registered coreId sid info ts cs).get? coreId).isSome := by
  rw [get?_registered, if_pos rfl, Option.isSome_some]

theorem get?_registered_epoch {coreId : String} :
    ((registered coreId sid info ts cs).get? k).map Core.epoch =
      if k = coreId then some (((cs.get? k).map Core.epoch).getD 0)
      else (cs.get? k).map Core.epoch := by
  rw [get?_registered]
  by_cases hk : k = coreId
  · subst hk
    rw [if_pos rfl, if_pos rfl, Option.map_some, coreRow, upsertCore_epoch, get?_cleared_epoch]
  · rw [if_neg hk, if_neg hk, get?_cleared_epoch]

theorem highest_le_iff_epoch :
    highest cs ≤ n ↔ ∀ k e, (cs.get? k).map Core.epoch = some e → e ≤ n := by
  rw [highest_le_iff]
  constructor
  · intro h k e he
    obtain ⟨c, hc, rfl⟩ := Option.map_eq_some_iff.mp he
    exact h k c hc
  · intro h k c hc
    exact h k c.epoch (by rw [hc]; rfl)

/-- Registering adds no epoch above those there. -/
theorem highest_registered_le_iff {coreId : String} :
    highest (registered coreId sid info ts cs) ≤ n ↔ highest cs ≤ n := by
  rw [highest_le_iff_epoch, highest_le_iff_epoch]
  constructor
  · intro h k e he
    apply h k e
    rw [get?_registered_epoch, he]
    split <;> rfl
  · intro h k e he
    rw [get?_registered_epoch] at he
    split at he
    · cases hk : (cs.get? k).map Core.epoch with
      | none =>
        rw [hk] at he
        cases he
        exact Nat.zero_le n
      | some e' =>
        rw [hk] at he
        cases he
        exact h k e' hk
    · exact h k e he

/-- A promotion to an epoch that is not newer is refused, as is one the storage fails. -/
theorem promote_ok {coreId : String} (hc : (cs.get? coreId).isSome)
    (h₁ : raisedAt .promoteWrite fault = none) (h₂ : raisedAt .promoteRead fault = none)
    (hn : highest cs < n) : ∃ core, promote coreId n fault cs = (.ok core, crown coreId n cs) := by
  obtain ⟨c, hc⟩ := Option.isSome_iff_exists.mp hc
  exact ⟨{ c with status := .primary, epoch := n },
    by simp [promote, hc, h₁, h₂, Nat.not_le.mpr hn]⟩

theorem promote_error (coreId : String)
    (h : ¬ (raisedAt .promoteWrite fault = none ∧ raisedAt .promoteRead fault = none ∧
      highest cs < n)) :
    ∃ e cs', promote coreId n fault cs = (.error e, cs') ∧ (cs' = cs ∨ cs' = crown coreId n cs) := by
  unfold promote
  cases cs.get? coreId with
  | none => exact ⟨_, cs, rfl, .inl rfl⟩
  | some c =>
    cases h₁ : raisedAt .promoteWrite fault with
    | some e => exact ⟨e, cs, rfl, .inl rfl⟩
    | none =>
      by_cases hn : n ≤ highest cs
      · exact ⟨_, cs, if_pos hn, .inl rfl⟩
      · simp only [if_neg hn]
        cases h₂ : raisedAt .promoteRead fault with
        | some e => exact ⟨e, _, rfl, .inr rfl⟩
        | none => exact absurd ⟨h₁, h₂, Nat.not_le.mp hn⟩ h

theorem get?_crown_isSome {coreId : String} : ((crown coreId n cs).get? k).isSome = (cs.get? k).isSome := by
  simp [crown]

end

end Wavr.Setup
