import Wavr.Dict
import Wavr.Text

/-!
# Paired devices

`DeviceStore`: the table of devices with the hashes of their tokens. Instants are whole
microseconds.
-/

namespace Wavr.Devices
open Text

def VALID_ROLES : List String := ["central", "user", "agent", "guest"]

def VALID_CONSENT : List String := ["green", "yellow", "red"]

/-- What the interpreter supplies: sha256 of a token, `repr` of a string, `isoformat` of a
moment in UTC, and `fromisoformat`, where a value without an offset counts as UTC. -/
structure Platform where
  hashToken : String → String
  repr : String → String
  isoformat : ℤ → String
  isoformat_truthy : ∀ t, truthy (isoformat t) = true
  fromIsoformat : String → Option ℤ

/-- As far as the samples of this development need it. -/
def samplePlatform : Platform where
  hashToken t :=
    if t = "token-1" then "3f08aace122ee2368432c1ca23a049bc640bafbf00fdf33a52429f38ba12dbf9"
    else if t = "token-2" then "0f6bffa9661cb5dd2f3f7b2929f33061f58a7ba7fdd689530b1a306f8ed8f3ec"
    else ""
  repr s := "'" ++ s ++ "'"
  isoformat _ := "1970-01-01T00:00:00+00:00"
  isoformat_truthy _ := by decide
  fromIsoformat s := if s = "1970-01-01T00:00:00+00:00" then some 0 else none

/-- A device, minus its token. -/
structure Device where
  deviceId : String
  name : String
  role : String
  createdTs : String
  lastSeenTs : Option String
  revoked : Bool
  /-- The explicit grant, `none` where the scopes derive from the role. -/
  scopes : Option (Finset String)
  toolScopes : Option (Finset String)
  consent : Option String
  expiresAt : Option String
  personId : Option String
  deriving DecidableEq

/-- A row of the table, by its device id. -/
structure DeviceRow where
  name : String
  role : String
  tokenHash : String
  createdTs : String
  lastSeenTs : Option String
  revoked : Bool
  scopes : Option String
  toolScopes : Option String
  consent : Option String
  expiresAt : Option String
  personId : Option String
  deviceKey : Option String
  deriving DecidableEq

/-- The table, in rowid order. -/
abbrev DeviceStore := Dict String DeviceRow

variable (pf : Platform)

/-- `(s or "").strip() or None`. -/
def stripped (s : Option String) : Option String :=
  let s := strip (s.getD "")
  if truthy s then some s else none

def isExpired (expiresAt : Option String) (now : ℤ) : Bool :=
  match expiresAt with
  | none => false
  | some expiresAt =>
    match pf.fromIsoformat expiresAt with
    | none => true
    | some deadline => deadline ≤ now

def parseScopes (raw : Option String) : Option (Finset String) :=
  raw.map fun raw => ((words raw.toList).map String.ofList).toFinset

def serializeScopes (scopes : Option (Finset String)) : Option String :=
  scopes.map fun scopes => " ".intercalate (sortedSet scopes)

def toDevice (deviceId : String) (r : DeviceRow) : Device :=
  { deviceId, name := r.name, role := r.role, createdTs := r.createdTs, lastSeenTs := r.lastSeenTs
    revoked := r.revoked, scopes := parseScopes r.scopes, toolScopes := parseScopes r.toolScopes
    consent := r.consent, expiresAt := r.expiresAt, personId := r.personId }

inductive StoreError
  | valueError (text : String)
  | integrityError
  deriving DecidableEq

def invalidRole (role : String) : StoreError :=
  .valueError ("invalid role: " ++ pf.repr role ++
    " (expected one of ['agent', 'central', 'guest', 'user'])")

def invalidConsent (consent : String) : StoreError :=
  .valueError ("invalid consent: " ++ pf.repr consent ++
    " (expected one of ['green', 'red', 'yellow'])")

/-- `INSERT INTO devices`: the primary key and the token's hash are unique. -/
def insertDevice (deviceId : String) (row : DeviceRow) (s : DeviceStore) : Except StoreError DeviceStore :=
  if (s.get? deviceId).isSome ∨ s.values.any (fun r => r.tokenHash = row.tokenHash) then
    .error .integrityError
  else .ok (s.set deviceId row)

/-- What `add` draws: the id, the token and the stamp of the row. -/
structure Draw where
  deviceId : String
  token : String
  ts : String

/-- Optional columns of a new row. -/
structure AddOptions where
  scopes : Option (Finset String) := none
  toolScopes : Option (Finset String) := none
  consent : Option String := none
  expiresAt : Option String := none
  deviceKey : Option String := none

def newRow (draw : Draw) (name role : String) (o : AddOptions) : DeviceRow :=
  { name, role, tokenHash := pf.hashToken draw.token, createdTs := draw.ts, lastSeenTs := none
    revoked := false, scopes := serializeScopes o.scopes, toolScopes := serializeScopes o.toolScopes
    consent := o.consent, expiresAt := o.expiresAt, personId := none
    deviceKey := stripped o.deviceKey }

def add (draw : Draw) (name role : String) (o : AddOptions) (s : DeviceStore) :
    Except StoreError (String × String) × DeviceStore :=
  if role ∉ VALID_ROLES then (.error (invalidRole pf role), s)
  else if o.consent.any (fun c => c ∉ VALID_CONSENT) then
    (.error (invalidConsent pf (o.consent.getD "")), s)
  else
    match insertDevice draw.deviceId (newRow pf draw name role o) s with
    | .error e => (.error e, s)
    | .ok s => (.ok (draw.deviceId, draw.token), s)

/-- Live rows of the key, of the kind that expires or of the kind that does not, but for the one
to keep. -/
def sameDevice (chave keepDeviceId : String) (temporario : Bool) (s : DeviceStore) : List String :=
  (s.entries.filter fun e => e.2.deviceKey = some chave ∧ e.1 ≠ keepDeviceId ∧ e.2.revoked = false ∧
    e.2.expiresAt.isSome = temporario).map Prod.fst

/-- `UPDATE devices SET revoked = 1` of each of the rows. -/
def revokeAll (ids : List String) (s : DeviceStore) : DeviceStore :=
  s.map fun id r => if id ∈ ids then { r with revoked := true } else r

def supersedeSameDevice (deviceKey keepDeviceId : String) (s : DeviceStore) :
    List String × DeviceStore :=
  let chave := strip deviceKey
  if ¬ truthy chave then ([], s)
  else
    let temporario := (s.get? keepDeviceId).any fun r => r.expiresAt.any truthy
    let ids := sameDevice chave keepDeviceId temporario s
    (ids, revokeAll ids s)

/-- `UPDATE devices SET ... WHERE device_id = ?`, with the row count as a truth value. -/
def updateDevice (deviceId : String) (f : DeviceRow → DeviceRow) (s : DeviceStore) : Bool × DeviceStore :=
  ((s.get? deviceId).isSome, s.map fun id r => if id = deviceId then f r else r)

/-- `ts` is the stamp for the row and `now` the clock that deadlines are compared with. -/
def verify (ts : String) (now : ℤ) (token : String) (s : DeviceStore) : Option Device × DeviceStore :=
  if ¬ truthy token then (none, s)
  else
    match s.entries.find? fun e => e.2.tokenHash = pf.hashToken token with
    | none => (none, s)
    | some (deviceId, row) =>
      if row.revoked ∨ isExpired pf row.expiresAt now then (none, s)
      else
        -- NULL and the empty string both read as green
        let consent := row.consent.getD ""
        let observable : Bool := (if truthy consent then consent else "green") = "green"
        let row := if observable then { row with lastSeenTs := some ts } else row
        (some { toDevice deviceId row with revoked := false },
          if observable then s.set deviceId row else s)

def get (deviceId : String) (s : DeviceStore) : Option Device := (s.get? deviceId).map (toDevice deviceId)

def revoke (deviceId : String) (s : DeviceStore) : Bool × DeviceStore :=
  updateDevice deviceId (fun r => { r with revoked := true }) s

def setPerson (deviceId : String) (personId : Option String) (s : DeviceStore) : Bool × DeviceStore :=
  updateDevice deviceId (fun r => { r with personId }) s

def setRole (deviceId role : String) (s : DeviceStore) : Except StoreError Bool × DeviceStore :=
  if role ∉ VALID_ROLES then (.error (invalidRole pf role), s)
  else if role = "guest" then
    (.error (.valueError "guests are created via /api/guest/invite, not by role change"), s)
  else
    let (changed, s) := updateDevice deviceId (fun r => { r with role }) s
    (.ok changed, s)

def setConsent (deviceId level : String) (s : DeviceStore) : Except StoreError Bool × DeviceStore :=
  if level ∉ VALID_CONSENT then (.error (invalidConsent pf level), s)
  else
    let (changed, s) := updateDevice deviceId (fun r => { r with consent := some level }) s
    (.ok changed, s)

section
variable {pf} {draw : Draw} {name role : String} {o : AddOptions} {s : DeviceStore}

/-- A refused device leaves the table as it is; a new one has a new id. -/
theorem add_cases (pf : Platform) (draw : Draw) (name role : String) (o : AddOptions) (s : DeviceStore) :
    (∃ e, add pf draw name role o s = (.error e, s)) ∨
      s.get? draw.deviceId = none ∧
        add pf draw name role o s =
          (.ok (draw.deviceId, draw.token), s.set draw.deviceId (newRow pf draw name role o)) := by
  unfold add
  split
  · exact .inl ⟨_, rfl⟩
  · split
    · exact .inl ⟨_, rfl⟩
    · unfold insertDevice
      by_cases h : (s.get? draw.deviceId).isSome ∨
          s.values.any fun r => r.tokenHash = (newRow pf draw name role o).tokenHash
      · rw [if_pos h]
        exact .inl ⟨_, rfl⟩
      · rw [if_neg h]
        exact .inr ⟨by simpa using (not_or.mp h).1, rfl⟩

theorem add_ok {device : String × String} (h : (add pf draw name role o s).1 = .ok device) :
    device = (draw.deviceId, draw.token) := by
  rcases add_cases pf draw name role o s with ⟨e, he⟩ | ⟨-, hadd⟩
  · rw [he] at h
    cases h
  · rw [hadd] at h
    cases h
    rfl

theorem setRole_snd (pf : Platform) (deviceId role : String) (s : DeviceStore) :
    (setRole pf deviceId role s).2 = s ∨
      (setRole pf deviceId role s).2 = (updateDevice deviceId (fun r => { r with role }) s).2 := by
  unfold setRole
  split
  · exact .inl rfl
  · split
    · exact .inl rfl
    · exact .inr rfl

theorem setConsent_snd (pf : Platform) (deviceId level : String) (s : DeviceStore) :
    (setConsent pf deviceId level s).2 = s ∨ (setConsent pf deviceId level s).2 =
      (updateDevice deviceId (fun r => { r with consent := some level }) s).2 := by
  unfold setConsent
  split
  · exact .inl rfl
  · exact .inr rfl

end

end Wavr.Devices
