import Wavr.Dict
import Wavr.IpAddress
import Wavr.Run
import Wavr.Text

/-!
# The consent registry

`IdentityStore`: registered devices, the live consent level of a row, and the maps that hand
out presence and names. The consent lookup belongs to the device store; here it is a function
from device ids to answers, read anew at every call.
-/

namespace Wavr.Identity
open Run Text

inductive Source
  | ble
  | network
  deriving DecidableEq, Repr

inductive Origin
  | bonded
  | manual
  | companion
  deriving DecidableEq, Repr

/-- `VALID_SOURCES`. -/
def Source.ofString (s : String) : Option Source :=
  if s = "ble" then some .ble else if s = "network" then some .network else none

/-- `VALID_ORIGINS`. -/
def Origin.ofString (s : String) : Option Origin :=
  if s = "bonded" then some .bonded else if s = "manual" then some .manual
  else if s = "companion" then some .companion else none

/-- The person of a row that is counted and never named. -/
def ANONYMOUS : String := ""

def MAX_NAME_LEN : ℕ := 64

/-- A row of `identity_devices`, without its address. -/
structure Row where
  person : String
  source : Source
  origin : Origin
  createdTs : String
  details : Bool
  deviceId : Option String
  deriving DecidableEq

structure IdentityStore where
  rows : Dict String Row
  deriving DecidableEq

variable (pyRepr : String → String)

/-- Two lower-case hex digits. -/
def isOctet (cs : List Char) : Bool :=
  cs.length = 2 ∧ cs.all fun c => IpAddress.isDecDigit c ∨ ('a' ≤ c ∧ c ≤ 'f')

/-- `_MAC_RE`. -/
def isMac (cs : List Char) : Bool := (cs.splitOn ':').length = 6 ∧ (cs.splitOn ':').all isOctet

@[irreducible] def normalizeMac (mac : String) : Except String String :=
  let norm := lower (String.ofList ((strip mac).toList.map fun c => if c = '-' then ':' else c))
  if isMac norm.toList then .ok norm else .error ("invalid MAC address: " ++ pyRepr mac)

/-- `_CONTROL_CHARS_RE`. -/
def isControl (c : Char) : Bool := c ≤ '\x1f' ∨ c = '\x7f'

@[irreducible] def sanitizeName (name : String) : Except String String :=
  let cleaned := strip (String.ofList (name.toList.filter fun c => ¬ isControl c))
  if cleaned = "" then .error "name must not be empty"
  else if MAX_NAME_LEN < cleaned.length then .error "name must be at most 64 characters"
  else .ok cleaned

/-- The upsert. The first `created_ts` stays, and so do the details and the device link where
the write brings none. -/
def upsert (who : String) (source : Source) (origin : Origin) (details : Option Bool)
    (deviceId : Option String) (ts : String) : Option Row → Row
  | none => ⟨who, source, origin, ts, details.getD false, deviceId⟩
  | some old => { old with
      person := who, source, origin, details := details.getD old.details,
      deviceId := deviceId.or old.deviceId }

/-- `_write`; `error` is the ValueError. -/
def write (address who source origin : String) (details : Option Bool) (deviceId : Option String)
    (ts : String) (s : IdentityStore) : Except String (String × Row) × IdentityStore :=
  match normalizeMac pyRepr address with
  | .error e => (.error e, s)
  | .ok addr =>
    match Source.ofString source with
    | none =>
      (.error ("invalid source: " ++ pyRepr source ++ " (expected one of ['ble', 'network'])"), s)
    | some source =>
      match Origin.ofString origin with
      | none =>
        (.error ("invalid origin: " ++ pyRepr origin ++
          " (expected one of ['bonded', 'companion', 'manual'])"), s)
      | some origin =>
        let row := upsert who source origin details deviceId ts (s.rows.get? addr)
        (.ok (addr, row), { s with rows := s.rows.set addr row })

def add (address person source origin : String) (details : Option Bool)
    (deviceId : Option String) (ts : String) (s : IdentityStore) :
    Except String (String × Row) × IdentityStore :=
  match sanitizeName person with
  | .error e => (.error e, s)
  | .ok who => write pyRepr address who source origin details deviceId ts s

def addAnonymous (address source origin : String) (deviceId : Option String) (ts : String)
    (s : IdentityStore) : Except String (String × Row) × IdentityStore :=
  write pyRepr address ANONYMOUS source origin none deviceId ts s

def setDetails (address : String) (on : Bool) (s : IdentityStore) :
    Except String Bool × IdentityStore :=
  match normalizeMac pyRepr address with
  | .error e => (.error e, s)
  | .ok addr =>
    (.ok (s.rows.get? addr).isSome,
      { s with rows := s.rows.map fun a r => if a = addr then { r with details := on } else r })

def delete (address : String) (s : IdentityStore) : Except String Bool × IdentityStore :=
  match normalizeMac pyRepr address with
  | .error e => (.error e, s)
  | .ok addr => (.ok (s.rows.get? addr).isSome, { s with rows := s.rows.erase addr })

/-! ## Reading under consent -/

inductive Level
  | green
  | yellow
  | red
  deriving DecidableEq, Repr

/-- What the consent lookup answers for a device. -/
inductive Answer
  | level (l : Level)
  /-- A falsy answer: never set. -/
  | unset
  | raised
  deriving DecidableEq

/-- The live consent lookup, once it is wired. -/
abbrev ConsentOf := Option (String → Answer)

/-- `_level`: the live consent level of a row. -/
def level (consentOf : ConsentOf) (deviceId : Option String) (origin : Origin) : Level :=
  if origin ≠ .companion then .green
  else
    match deviceId.filter (· ≠ ""), consentOf with
    | some id, some f =>
      match f id with
      | .level l => l
      | .unset => .green
      | .raised => .red
    | _, _ => .red

/-- `_rows`: address, person and live level of the rows of one source. -/
def rowsOf (consentOf : ConsentOf) (source : Source) (s : IdentityStore) :
    List (String × String × Level) :=
  (s.rows.entries.filter fun e => e.2.source = source).map fun e =>
    (e.1, e.2.person, level consentOf e.2.deviceId e.2.origin)

/-- `_as_map`: the named map of one source, `as_ble_map` and `as_net_map`. -/
def asMap (consentOf : ConsentOf) (source : Source) (s : IdentityStore) : List (String × String) :=
  (rowsOf consentOf source s).filterMap fun r =>
    if r.2.2 = .green ∧ truthy r.2.1 then some (r.1, r.2.1) else none

/-- The presence map: `none` is counted without a name. -/
def asNetKnown (consentOf : ConsentOf) (s : IdentityStore) : List (String × Option String) :=
  (rowsOf consentOf .network s).filterMap fun r =>
    if r.2.2 = .red then none
    else some (r.1, if r.2.2 = .green ∧ truthy r.2.1 then some r.2.1 else none)

def detailedNetAddresses (consentOf : ConsentOf) (s : IdentityStore) : List String :=
  (s.rows.entries.filter fun e => e.2.source = .network ∧ e.2.details ∧
    level consentOf e.2.deviceId e.2.origin = .green).map Prod.fst

section
variable {consentOf : ConsentOf} {s : IdentityStore} {addr : String}

theorem mem_rowsOf {source : Source} {person : String} {l : Level} :
    (addr, person, l) ∈ rowsOf consentOf source s ↔ ∃ row, s.rows.get? addr = some row ∧
      row.source = source ∧ row.person = person ∧ level consentOf row.deviceId row.origin = l := by
  simp only [rowsOf, List.mem_map, List.mem_filter, decide_eq_true_eq]
  constructor
  · rintro ⟨⟨a, row⟩, ⟨hmem, hsrc⟩, he⟩
    cases he
    exact ⟨row, Dict.mem_entries.mp hmem, hsrc, rfl, rfl⟩
  · rintro ⟨row, hget, hsrc, rfl, rfl⟩
    exact ⟨(addr, row), ⟨Dict.mem_entries.mpr hget, hsrc⟩, rfl⟩

theorem mem_asMap {source : Source} {who : String} :
    (addr, who) ∈ asMap consentOf source s ↔ ∃ row, s.rows.get? addr = some row ∧
      row.source = source ∧ row.person = who ∧ who ≠ "" ∧
      level consentOf row.deviceId row.origin = .green := by
  simp only [asMap, List.mem_filterMap]
  constructor
  · rintro ⟨⟨a, p, l⟩, hmem, hif⟩
    split at hif
    · rename_i hc
      cases hif
      obtain ⟨row, hget, hsrc, hp, hl⟩ := mem_rowsOf.mp hmem
      exact ⟨row, hget, hsrc, hp, by simpa [truthy] using hc.2, hl.trans hc.1⟩
    · cases hif
  · rintro ⟨row, hget, hsrc, hp, hne, hl⟩
    exact ⟨(addr, who, .green), mem_rowsOf.mpr ⟨row, hget, hsrc, hp, hl⟩, by simp [truthy, hne]⟩

theorem mem_asNetKnown {v : Option String} :
    (addr, v) ∈ asNetKnown consentOf s ↔ ∃ row, s.rows.get? addr = some row ∧
      row.source = .network ∧ level consentOf row.deviceId row.origin ≠ .red ∧
      v = if level consentOf row.deviceId row.origin = .green ∧ row.person ≠ "" then
        some row.person else none := by
  simp only [asNetKnown, List.mem_filterMap]
  constructor
  · rintro ⟨⟨a, p, l⟩, hmem, hif⟩
    split at hif
    · cases hif
    · rename_i hred
      obtain ⟨rfl, rfl⟩ := Prod.mk.inj (Option.some.inj hif)
      obtain ⟨row, hget, hsrc, rfl, rfl⟩ := mem_rowsOf.mp hmem
      exact ⟨row, hget, hsrc, hred, by simp [truthy]⟩
  · rintro ⟨row, hget, hsrc, hred, rfl⟩
    exact ⟨(addr, row.person, level consentOf row.deviceId row.origin),
      mem_rowsOf.mpr ⟨row, hget, hsrc, rfl, rfl⟩, by simp [hred, truthy]⟩

theorem mem_detailedNetAddresses :
    addr ∈ detailedNetAddresses consentOf s ↔ ∃ row, s.rows.get? addr = some row ∧
      row.source = .network ∧ row.details = true ∧
      level consentOf row.deviceId row.origin = .green := by
  simp only [detailedNetAddresses, List.mem_map, List.mem_filter, decide_eq_true_eq]
  constructor
  · rintro ⟨⟨a, row⟩, ⟨hmem, h⟩, rfl⟩
    exact ⟨row, Dict.mem_entries.mp hmem, h⟩
  · rintro ⟨row, hget, h⟩
    exact ⟨(addr, row), ⟨Dict.mem_entries.mpr hget, h⟩, rfl⟩

end

/-! ## Runs -/

inductive Op
  | add (address person source origin : String) (details : Option Bool)
      (deviceId : Option String) (ts : String)
  | addAnonymous (address source origin : String) (deviceId : Option String) (ts : String)
  | setDetails (address : String) (on : Bool)
  | delete (address : String)
  deriving DecidableEq

/-- The store, and which device linked which of its rows by a companion registration. -/
structure Registry where
  store : IdentityStore
  linked : Dict String String
  deriving DecidableEq

/-- A companion registration links the row to its device; any other write that brings a
device id of its own unlinks it. -/
def noteWrite (addr : String) (origin : Origin) (deviceId : Option String)
    (linked : Dict String String) : Dict String String :=
  match deviceId with
  | none => linked
  | some d => if origin = .companion ∧ d ≠ "" then linked.set addr d else linked.erase addr

def afterWrite (deviceId : Option String) (linked : Dict String String)
    (res : Except String (String × Row) × IdentityStore) : Registry :=
  match res.1 with
  | .ok (addr, row) => ⟨res.2, noteWrite addr row.origin deviceId linked⟩
  | .error _ => ⟨res.2, linked⟩

def step (reg : Registry) : Op → Registry
  | .add address person source origin details deviceId ts =>
    afterWrite deviceId reg.linked
      (add pyRepr address person source origin details deviceId ts reg.store)
  | .addAnonymous address source origin deviceId ts =>
    afterWrite deviceId reg.linked (addAnonymous pyRepr address source origin deviceId ts reg.store)
  | .setDetails address on => ⟨(setDetails pyRepr address on reg.store).2, reg.linked⟩
  | .delete address =>
    match normalizeMac pyRepr address with
    | .error _ => ⟨(delete pyRepr address reg.store).2, reg.linked⟩
    | .ok addr => ⟨(delete pyRepr address reg.store).2, reg.linked.erase addr⟩

/-- A write that passed its checks. -/
structure Write where
  addr : String
  who : String
  source : Source
  origin : Origin
  details : Option Bool
  deviceId : Option String
  ts : String

def acceptedWrite (address : String) (who : Except String String) (source origin : String)
    (details : Option Bool) (deviceId : Option String) (ts : String) : Option Write :=
  match who, normalizeMac pyRepr address, Source.ofString source, Origin.ofString origin with
  | .ok who, .ok addr, some source, some origin =>
    some ⟨addr, who, source, origin, details, deviceId, ts⟩
  | _, _, _, _ => none

/-- The write that a call makes, if it makes one. -/
def accepted : Op → Option Write
  | .add address person source origin details deviceId ts =>
    acceptedWrite pyRepr address (sanitizeName person) source origin details deviceId ts
  | .addAnonymous address source origin deviceId ts =>
    acceptedWrite pyRepr address (.ok ANONYMOUS) source origin none deviceId ts
  | _ => none

/-! ## Who governs a linked row -/

def Named (f : String → Answer) (addr : String) (s : IdentityStore) : Prop :=
  ∃ who, (addr, who) ∈ asMap (some f) .ble s ∨ (addr, who) ∈ asMap (some f) .network s ∨
    (addr, some who) ∈ asNetKnown (some f) s

/-- The address of a linked row shows nowhere while the live consent of the linked device is
red, and shows without a name while it is yellow. -/
def Governed (reg : Registry) : Prop :=
  ∀ addr d, reg.linked.get? addr = some d → ∀ f : String → Answer,
    (f d = .level .red → ¬ Named f addr reg.store ∧
      (∀ v, (addr, v) ∉ asNetKnown (some f) reg.store) ∧
      addr ∉ detailedNetAddresses (some f) reg.store) ∧
    (f d = .level .yellow → ¬ Named f addr reg.store)

/-- No write of another origin that brings no device id hits a linked row, except that of an
anonymous Bluetooth row. -/
def Harmless (reg : Registry) (op : Op) : Prop :=
  ∀ w, accepted pyRepr op = some w → w.origin ≠ .companion → w.deviceId = none →
    (reg.linked.get? w.addr).isSome → w.who = ANONYMOUS ∧ w.source = .ble

/-- A linked row asks its device, or has nothing to show. -/
structure Answers (d : String) (row : Row) : Prop where
  link : row.deviceId = some d
  id : d ≠ ""
  origin : row.origin = .companion ∨ (row.person = ANONYMOUS ∧ row.source = .ble)

def Inv (reg : Registry) : Prop :=
  ∀ addr d, reg.linked.get? addr = some d → ∃ row, reg.store.rows.get? addr = some row ∧ Answers d row

theorem Answers.level {d : String} {row : Row} (h : Answers d row) (hc : row.origin = .companion)
    (f : String → Answer) {l : Level} (hf : f d = .level l) :
    level (some f) row.deviceId row.origin = l := by
  have hfilter : (some d).filter (fun x => decide (x ≠ "")) = some d := by simp [Option.filter, h.id]
  unfold Identity.level
  rw [if_neg (by simp [hc]), h.link, hfilter]
  simp only [hf]

theorem Inv.governed {reg : Registry} (hi : Inv reg) : Governed reg := by
  intro addr d hlink f
  obtain ⟨row, hget, ha⟩ := hi addr d hlink
  -- every read path looks at the one row under the address
  have hrow : ∀ row', reg.store.rows.get? addr = some row' → row' = row := by
    intro row' h
    rw [hget] at h
    exact (Option.some.inj h).symm
  have hnamed : Named f addr reg.store → Identity.level (some f) row.deviceId row.origin = .green ∧
      row.person ≠ ANONYMOUS := by
    rintro ⟨who, h | h | h⟩
    · obtain ⟨row', hg, -, rfl, hne, hl⟩ := mem_asMap.mp h
      rw [hrow row' hg] at hne hl
      exact ⟨hl, hne⟩
    · obtain ⟨row', hg, -, rfl, hne, hl⟩ := mem_asMap.mp h
      rw [hrow row' hg] at hne hl
      exact ⟨hl, hne⟩
    · obtain ⟨row', hg, -, -, hv⟩ := mem_asNetKnown.mp h
      rw [hrow row' hg] at hv
      split at hv
      · rename_i hc
        exact hc
      · cases hv
  have hunnamed : ∀ l, f d = .level l → l ≠ .green → ¬ Named f addr reg.store := by
    intro l hf hl hn
    obtain ⟨hgreen, hperson⟩ := hnamed hn
    rcases ha.origin with hc | ⟨hp, -⟩
    · exact hl ((ha.level hc f hf).symm.trans hgreen)
    · exact hperson hp
  refine ⟨fun hred => ⟨hunnamed _ hred (by decide), fun v h => ?_, fun h => ?_⟩,
    fun hyellow => hunnamed _ hyellow (by decide)⟩
  · obtain ⟨row', hg, hsrc, hl, -⟩ := mem_asNetKnown.mp h
    rw [hrow row' hg] at hsrc hl
    rcases ha.origin with hc | ⟨-, hble⟩
    · exact hl (ha.level hc f hred)
    · rw [hble] at hsrc
      cases hsrc
  · obtain ⟨row', hg, hsrc, -, hl⟩ := mem_detailedNetAddresses.mp h
    rw [hrow row' hg] at hsrc hl
    rcases ha.origin with hc | ⟨-, hble⟩
    · rw [ha.level hc f hred] at hl
      cases hl
    · rw [hble] at hsrc
      cases hsrc

/-! ## What a call does to the linked rows -/

def Write.upsert (w : Write) (old : Option Row) : Row :=
  Identity.upsert w.who w.source w.origin w.details w.deviceId w.ts old

/-- The registry after an accepted write. -/
def Registry.put (reg : Registry) (w : Write) : Registry :=
  ⟨⟨reg.store.rows.set w.addr (w.upsert (reg.store.rows.get? w.addr))⟩,
    noteWrite w.addr w.origin w.deviceId reg.linked⟩

theorem afterWrite_accepted {reg : Registry} {address who source origin : String}
    {details : Option Bool} {deviceId : Option String} {ts : String} {w : Write}
    (h : acceptedWrite pyRepr address (.ok who) source origin details deviceId ts = some w) :
    afterWrite deviceId reg.linked
      (write pyRepr address who source origin details deviceId ts reg.store) = reg.put w := by
  unfold acceptedWrite at h
  split at h
  · rename_i addr src org hwho haddr hsrc horg
    cases hwho
    cases h
    unfold write
    simp only [haddr, hsrc, horg, afterWrite, Registry.put, Write.upsert]
    cases reg.store.rows.get? addr <;> rfl
  · cases h

theorem afterWrite_rejected {reg : Registry} {address who source origin : String}
    {details : Option Bool} {deviceId : Option String} {ts : String}
    (h : acceptedWrite pyRepr address (.ok who) source origin details deviceId ts = none) :
    afterWrite deviceId reg.linked
      (write pyRepr address who source origin details deviceId ts reg.store) = reg := by
  unfold acceptedWrite at h
  unfold write
  cases haddr : normalizeMac pyRepr address with
  | error e => rfl
  | ok addr =>
    cases hsrc : Source.ofString source with
    | none => rfl
    | some src =>
      cases horg : Origin.ofString origin with
      | none => rfl
      | some org => simp [haddr, hsrc, horg] at h

theorem step_accepted {reg : Registry} {op : Op} {w : Write} (h : accepted pyRepr op = some w) :
    step pyRepr reg op = reg.put w := by
  cases op with
  | add address person source origin details deviceId ts =>
    simp only [accepted] at h
    cases hp : sanitizeName person with
    | error e =>
      rw [hp] at h
      simp [acceptedWrite] at h
    | ok who =>
      rw [hp] at h
      rw [step, add, hp]
      exact afterWrite_accepted pyRepr h
  | addAnonymous address source origin deviceId ts => exact afterWrite_accepted pyRepr h
  | setDetails address on => cases h
  | delete address => cases h

theorem step_add_rejected {reg : Registry} {address person source origin : String}
    {details : Option Bool} {deviceId : Option String} {ts : String}
    (h : accepted pyRepr (.add address person source origin details deviceId ts) = none) :
    step pyRepr reg (.add address person source origin details deviceId ts) = reg := by
  simp only [accepted] at h
  simp only [step, add]
  cases hp : sanitizeName person with
  | error e => simp only [afterWrite]
  | ok who =>
    rw [hp] at h
    exact afterWrite_rejected pyRepr h

theorem step_addAnonymous_rejected {reg : Registry} {address source origin : String}
    {deviceId : Option String} {ts : String}
    (h : accepted pyRepr (.addAnonymous address source origin deviceId ts) = none) :
    step pyRepr reg (.addAnonymous address source origin deviceId ts) = reg := by
  simp only [accepted] at h
  simp only [step, addAnonymous]
  exact afterWrite_rejected pyRepr h

theorem Inv.put {reg : Registry} (hi : Inv reg) {w : Write}
    (hok : w.origin ≠ .companion → w.deviceId = none → (reg.linked.get? w.addr).isSome →
      w.who = ANONYMOUS ∧ w.source = .ble) : Inv (reg.put w) := by
  intro addr d hlink
  simp only [Registry.put, noteWrite] at hlink ⊢
  by_cases ha : addr = w.addr
  · subst ha
    refine ⟨_, Dict.get?_set_self _ _ _, ?_⟩
    cases hd : w.deviceId with
    | none =>
      rw [hd] at hlink
      -- COALESCE: the link of the old row survives
      obtain ⟨row, hget, hrow⟩ := hi w.addr d hlink
      refine ⟨?_, hrow.id, ?_⟩
      · rw [hget, Write.upsert, Identity.upsert, hd, Option.none_or, hrow.link]
      · by_cases hc : w.origin = .companion
        · left
          rw [hget]
          exact hc
        · right
          rw [hget]
          exact hok hc hd (by rw [hlink]; rfl)
    | some d' =>
      rw [hd] at hlink
      dsimp only at hlink
      split at hlink
      · rename_i hc
        -- the write brings a link of its own
        rw [Dict.get?_set_self] at hlink
        cases hlink
        refine ⟨?_, hc.2, .inl ?_⟩
        · cases reg.store.rows.get? w.addr <;> simp [Write.upsert, Identity.upsert, hd]
        · cases reg.store.rows.get? w.addr <;> simp [Write.upsert, Identity.upsert, hc.1]
      · simp at hlink
  · have hlink' : reg.linked.get? addr = some d := by
      cases hd : w.deviceId with
      | none => rwa [hd] at hlink
      | some d' =>
        rw [hd] at hlink
        dsimp only at hlink
        split at hlink <;> simpa [ha] using hlink
    rw [Dict.get?_set_ne _ ha]
    exact hi addr d hlink'

theorem Inv.step {reg : Registry} (hi : Inv reg) {op : Op} (hok : Harmless pyRepr reg op) :
    Inv (step pyRepr reg op) := by
  cases hacc : accepted pyRepr op with
  | some w =>
    rw [step_accepted pyRepr hacc]
    exact hi.put (hok w hacc)
  | none =>
    cases op with
    | add address person source origin details deviceId ts =>
      rwa [step_add_rejected pyRepr hacc]
    | addAnonymous address source origin deviceId ts =>
      rwa [step_addAnonymous_rejected pyRepr hacc]
    | setDetails address on =>
      rw [Identity.step, setDetails]
      cases normalizeMac pyRepr address with
      | error e => exact hi
      | ok a =>
        intro addr d hlink
        obtain ⟨row, hget, hrow⟩ := hi addr d hlink
        refine ⟨if addr = a then { row with details := on } else row, by simp [hget], ?_⟩
        split
        · exact ⟨hrow.link, hrow.id, hrow.origin⟩
        · exact hrow
    | delete address =>
      rw [Identity.step, delete]
      cases normalizeMac pyRepr address with
      | error e => exact hi
      | ok a =>
        intro addr d hlink
        simp only [Dict.get?_erase] at hlink ⊢
        split at hlink
        · cases hlink
        · rename_i ha
          rw [if_neg ha]
          exact hi addr d hlink

/-- An admin write over a linked row makes it show, whatever its device says. -/
theorem not_governed_put {reg : Registry} {w : Write} (hc : w.origin ≠ .companion)
    (hd : w.deviceId = none) (hlinked : (reg.linked.get? w.addr).isSome)
    (hshow : ¬ (w.who = ANONYMOUS ∧ w.source = .ble)) : ¬ Governed (reg.put w) := by
  obtain ⟨d, hlink⟩ := Option.isSome_iff_exists.mp hlinked
  intro hg
  have hlink' : (reg.put w).linked.get? w.addr = some d := by
    simpa [Registry.put, noteWrite, hd] using hlink
  -- the device that linked the row withdraws, and the row does not ask it
  obtain ⟨hnamed, hknown, -⟩ := (hg w.addr d hlink' fun _ => .level .red).1 rfl
  obtain ⟨row, hget, hperson, hsource, horigin⟩ : ∃ row,
      (reg.put w).store.rows.get? w.addr = some row ∧ row.person = w.who ∧
        row.source = w.source ∧ row.origin = w.origin := by
    refine ⟨w.upsert (reg.store.rows.get? w.addr), Dict.get?_set_self _ _ _, ?_⟩
    cases reg.store.rows.get? w.addr <;> exact ⟨rfl, rfl, rfl⟩
  have hlevel : ∀ f, Identity.level f row.deviceId row.origin = .green := by
    intro f
    unfold Identity.level
    exact if_pos (by rwa [horigin])
  cases hsrc : w.source with
  | network =>
    exact hknown _ (mem_asNetKnown.mpr ⟨row, hget, hsource.trans hsrc, by simp [hlevel], rfl⟩)
  | ble =>
    refine hnamed ⟨w.who, .inl (mem_asMap.mpr ⟨row, hget, hsource.trans hsrc, hperson, ?_, hlevel _⟩)⟩
    exact fun hwho => hshow ⟨hwho, hsrc⟩

/-- In every state of a run from any store, the rows that companions linked in it follow the
live consent of their devices, exactly when no admin write hits a linked row (an anonymous
Bluetooth row apart, which never shows). -/
theorem governed_iff (store : IdentityStore) (ops : List Op) :
    AllStates (step pyRepr) Governed ⟨store, .empty⟩ ops ↔
      AllSteps (step pyRepr) (Harmless pyRepr) ⟨store, .empty⟩ ops := by
  refine allStates_iff_allSteps (I := Inv) (fun _ _ hi hok => hi.step pyRepr hok)
    (fun _ hi => hi.governed) (fun reg op _ hbad => ?_) (fun _ _ h => by cases h)
  simp only [Harmless, not_forall] at hbad
  obtain ⟨w, hacc, hc, hd, hlinked, hshow⟩ := hbad
  rw [step_accepted pyRepr hacc]
  exact not_governed_put hc hd hlinked hshow

/-- A phone registers itself, and an admin adds its address by hand. -/
def sampleRun : List Op :=
  [.add "aa:bb:cc:dd:ee:01" "Alex" "network" "companion" none (some "d1") "2026-07-16T10:00:00",
    .add "AA-BB-CC-DD-EE-01" "Alex" "network" "manual" none none "2026-07-17T10:00:00"]

/-- The phone's consent is red, and it is counted and named. -/
theorem withdrawn_device_named :
    (finish (step id) ⟨⟨.empty⟩, .empty⟩ sampleRun).linked.get? "aa:bb:cc:dd:ee:01" = some "d1" ∧
      asNetKnown (some fun _ => .level .red) (finish (step id) ⟨⟨.empty⟩, .empty⟩ sampleRun).store =
        [("aa:bb:cc:dd:ee:01", some "Alex")] ∧
      ¬ AllStates (step id) Governed ⟨⟨.empty⟩, .empty⟩ sampleRun := by
  have hlink : (finish (step id) ⟨⟨.empty⟩, .empty⟩ sampleRun).linked.get? "aa:bb:cc:dd:ee:01" =
      some "d1" := by decide +kernel
  have hknown : asNetKnown (some fun _ => .level .red)
      (finish (step id) ⟨⟨.empty⟩, .empty⟩ sampleRun).store = [("aa:bb:cc:dd:ee:01", some "Alex")] := by
    decide +kernel
  refine ⟨hlink, hknown, fun h => ?_⟩
  refine ((h.last _ _ hlink fun _ => .level .red).1 rfl).2.1 (some "Alex") ?_
  rw [hknown]
  exact List.mem_singleton_self _

end Wavr.Identity
