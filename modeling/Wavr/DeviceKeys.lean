import Wavr.PairRequests
import Wavr.Pairing

/-!
# One phone, one live key

The device store with the two ways into it: pairing codes and approvals on the Core.
-/

namespace Wavr.DeviceKeys
open Devices (DeviceRow DeviceStore Draw StoreError)
open Run Text

structure Core where
  devices : DeviceStore
  pairing : Pairing.PairingManager
  approvals : PairRequests.PairApprovalManager

def fresh : Core := ⟨.empty, Pairing.fresh, .empty⟩

structure Config where
  pairing : Pairing.Config
  approvals : PairRequests.Config

/-- Calls, one at a time. A redeem and an approval work on the store of the Core, whatever store they
name. -/
inductive Op
  | pairing (op : Pairing.Op)
  | approvals (op : PairRequests.Op)
  | revoke (deviceId : String)
  | setPerson (deviceId : String) (personId : Option String)
  | setRole (deviceId role : String)
  | setConsent (deviceId level : String)

variable (pf : Devices.Platform) (cfg : Config)

def step (c : Core) : Op → Core
  | .pairing (.redeem now draw code name sourceIp deviceKey _) =>
    let (_, pairing, devices) :=
      Pairing.redeem pf cfg.pairing now draw code name sourceIp deviceKey c.devices c.pairing
    { c with pairing, devices }
  | .pairing op => { c with pairing := Pairing.step pf cfg.pairing c.pairing op }
  | .approvals (.approve now draw requestId role confirmCode _) =>
    let (_, approvals, devices) :=
      PairRequests.approve pf cfg.approvals now draw requestId role confirmCode c.devices c.approvals
    { c with approvals, devices }
  | .approvals op => { c with approvals := PairRequests.step pf cfg.approvals c.approvals op }
  | .revoke deviceId => { c with devices := (Devices.revoke deviceId c.devices).2 }
  | .setPerson deviceId personId => { c with devices := (Devices.setPerson deviceId personId c.devices).2 }
  | .setRole deviceId role => { c with devices := (Devices.setRole pf deviceId role c.devices).2 }
  | .setConsent deviceId level => { c with devices := (Devices.setConsent pf deviceId level c.devices).2 }

/-- The device that a call mints. -/
def mintedId (c : Core) : Op → Option String
  | .pairing (.redeem now draw code name sourceIp deviceKey _) =>
    match (Pairing.redeem pf cfg.pairing now draw code name sourceIp deviceKey c.devices c.pairing).1 with
    | .ok (some (deviceId, _)) => some deviceId
    | _ => none
  | .approvals (.approve now draw requestId role confirmCode _) =>
    match (PairRequests.approve pf cfg.approvals now draw requestId role confirmCode c.devices
      c.approvals).1 with
    | .ok (some deviceId) => some deviceId
    | _ => none
  | _ => none

/-- The key of a device and whether it expires: its kind. -/
def kindOf (r : DeviceRow) : Option String × Bool := (r.deviceKey, r.expiresAt.isSome)

/-- The device that a call mints, with the key and the kind it is stored with. -/
def minted (c : Core) (op : Op) : Option (String × Option String × Bool) :=
  (mintedId pf cfg c op).bind fun deviceId =>
    ((step pf cfg c op).devices.get? deviceId).map fun r => (deviceId, kindOf r)

/-! ## Minting a device -/

/-- What both ways do with the store: add, and then retire what the phone held. -/
def mint (draw : Draw) (name role : String) (expiresAt deviceKey : Option String) (s : DeviceStore) :
    Except StoreError (String × String) × DeviceStore :=
  match Devices.add pf draw name role { expiresAt, deviceKey } s with
  | (.error e, s) => (.error e, s)
  | (.ok device, s) =>
    match deviceKey with
    | none => (.ok device, s)
    | some key => (.ok device, (Devices.supersedeSameDevice key device.1 s).2)

section
variable {pf cfg} {draw : Draw} {name role : String} {expiresAt deviceKey : Option String} {s : DeviceStore}

/-- Retires the live rows of a kind. -/
def retire (kind : Option String × Bool) (r : DeviceRow) : DeviceRow :=
  if r.deviceKey ≠ none ∧ kindOf r = kind then { r with revoked := true } else r

theorem retire_none (b : Bool) (r : DeviceRow) : retire (none, b) r = r := by
  unfold retire kindOf
  rw [if_neg]
  rintro ⟨hkey, hkind⟩
  exact hkey (congrArg Prod.fst hkind)

theorem mem_sameDevice {chave keepDeviceId deviceId : String} {temporario : Bool} :
    deviceId ∈ Devices.sameDevice chave keepDeviceId temporario s ↔
      ∃ r, s.get? deviceId = some r ∧ r.deviceKey = some chave ∧ deviceId ≠ keepDeviceId ∧
        r.revoked = false ∧ r.expiresAt.isSome = temporario := by
  unfold Devices.sameDevice
  rw [List.mem_map]
  constructor
  · rintro ⟨⟨id, r⟩, he, rfl⟩
    obtain ⟨hin, hr⟩ := List.mem_filter.mp he
    exact ⟨r, Dict.mem_entries.mp hin, of_decide_eq_true hr⟩
  · rintro ⟨r, hget, hr⟩
    exact ⟨(deviceId, r), List.mem_filter.mpr ⟨Dict.mem_entries.mpr hget, decide_eq_true hr⟩, rfl⟩

/-- Of the rows that were there before, those of the key and kind of the new one are retired. -/
theorem entries_supersede {deviceId key : String} {r : DeviceRow} (hid : s.get? deviceId = none)
    (hkey : r.deviceKey = Devices.stripped (some key))
    (hexp : ∀ e, r.expiresAt = some e → truthy e = true) :
    (Devices.supersedeSameDevice key deviceId (s.set deviceId r)).2.entries =
      (s.entries.map fun e => (e.1, retire (kindOf r) e.2)) ++ [(deviceId, r)] := by
  have hset : (s.set deviceId r).entries = s.entries ++ [(deviceId, r)] :=
    Dict.entries_set_of_get?_eq_none hid r
  unfold Devices.supersedeSameDevice
  -- a blank key supersedes nothing, and a row without a key retires nothing
  by_cases hblank : truthy (strip key) = true
  · have hchave : r.deviceKey = some (strip key) := by simp [hkey, Devices.stripped, hblank]
    have hkind : ((s.set deviceId r).get? deviceId).any (fun r => r.expiresAt.any truthy) =
        r.expiresAt.isSome := by
      rw [Dict.get?_set_self]
      cases he : r.expiresAt with
      | none => simp [he]
      | some e => simp [he, hexp e he]
    have hfresh : ∀ e ∈ s.entries, e.1 ≠ deviceId := by
      rintro e he rfl
      rw [Dict.mem_entries.mp he] at hid
      cases hid
    rw [if_neg (not_not_intro hblank), hkind]
    change (s.set deviceId r).entries.map _ = _
    rw [hset, List.map_append]
    -- the new row is excepted by its id, and no older row has that id
    refine congrArg₂ (· ++ ·) ?_ ?_
    · refine List.map_congr_left fun e he => ?_
      have hget : (s.set deviceId r).get? e.1 = some e.2 := by
        rw [Dict.get?_set_ne _ (hfresh e he)]
        exact Dict.mem_entries.mp he
      have hmem : e.1 ∈ Devices.sameDevice (strip key) deviceId r.expiresAt.isSome (s.set deviceId r) ↔
          e.2.revoked = false ∧ e.2.deviceKey ≠ none ∧ kindOf e.2 = kindOf r := by
        rw [mem_sameDevice, kindOf, kindOf, hchave, Prod.mk.injEq]
        constructor
        · rintro ⟨r', hr', hk, -, hlive, hkind'⟩
          rw [hget] at hr'
          cases hr'
          exact ⟨hlive, by rw [hk]; exact nofun, hk, hkind'⟩
        · rintro ⟨hlive, -, hk, hkind'⟩
          exact ⟨e.2, hget, hk, hfresh e he, hlive, hkind'⟩
      refine congrArg (Prod.mk e.1) ?_
      dsimp only
      unfold retire
      by_cases hsame : e.2.deviceKey ≠ none ∧ kindOf e.2 = kindOf r
      · rw [if_pos hsame]
        cases hlive : e.2.revoked with
        | false => rw [if_pos (hmem.mpr ⟨hlive, hsame⟩)]
        | true =>
          have hleft := mt hmem.mp fun h => by simp [hlive] at h
          rw [if_neg hleft, ← hlive]
      · rw [if_neg hsame, if_neg fun h => hsame (hmem.mp h).2]
    · have hkeep : deviceId ∉
          Devices.sameDevice (strip key) deviceId r.expiresAt.isSome (s.set deviceId r) := by
        rw [mem_sameDevice]
        rintro ⟨r', -, -, hne, -⟩
        exact hne rfl
      simp [hkeep]
  · have hnone : r.deviceKey = none := by simp [hkey, Devices.stripped, hblank]
    have hsame : ∀ e : String × DeviceRow, (e.1, retire (kindOf r) e.2) = e := by
      intro e
      rw [kindOf, hnone, retire_none]
    simp only [hblank, hsame]
    simpa using hset

/-- A refused device leaves the table; a new one goes behind the others, the last live one of its kind. -/
theorem mint_cases (pf : Devices.Platform) (draw : Draw) (name role : String) (deviceKey : Option String)
    (s : DeviceStore) (hexp : ∀ e, expiresAt = some e → truthy e = true) :
    (∃ e, mint pf draw name role expiresAt deviceKey s = (.error e, s)) ∨
    ∃ r, s.get? draw.deviceId = none ∧ r.revoked = false ∧ r.expiresAt = expiresAt ∧
      (mint pf draw name role expiresAt deviceKey s).1 = .ok (draw.deviceId, draw.token) ∧
      (mint pf draw name role expiresAt deviceKey s).2.entries =
        (s.entries.map fun e => (e.1, retire (kindOf r) e.2)) ++ [(draw.deviceId, r)] := by
  unfold mint
  rcases Devices.add_cases pf draw name role { expiresAt, deviceKey } s with ⟨e, he⟩ | ⟨hid, hadd⟩
  · rw [he]
    exact .inl ⟨e, rfl⟩
  · have hexpires : (Devices.newRow pf draw name role { expiresAt, deviceKey }).expiresAt = expiresAt := rfl
    have hkey : (Devices.newRow pf draw name role { expiresAt, deviceKey }).deviceKey =
        Devices.stripped deviceKey := by simp only [Devices.newRow]
    have hlive : (Devices.newRow pf draw name role { expiresAt, deviceKey }).revoked = false := rfl
    rw [hadd]
    generalize Devices.newRow pf draw name role { expiresAt, deviceKey } = r at hexpires hkey hlive
    refine .inr ⟨r, hid, hlive, hexpires, ?_⟩
    cases deviceKey with
    | none =>
      have hkind : kindOf r = (none, r.expiresAt.isSome) := by rw [kindOf, hkey]; rfl
      dsimp only
      rw [Dict.entries_set_of_get?_eq_none hid]
      simp only [hkind, retire_none, List.map_id', and_self]
    | some key =>
      dsimp only
      rw [entries_supersede hid hkey fun e he => hexp e (hexpires ▸ he)]
      exact ⟨rfl, rfl⟩

theorem redeem_mint (pf : Devices.Platform) (cfg : Config) (now : ℤ) (draw : Draw) (code name : String)
    (sourceIp deviceKey : Option String) (s : DeviceStore) (m : Pairing.PairingManager) :
    ((∀ device, (Pairing.redeem pf cfg.pairing now draw code name sourceIp deviceKey s m).1 ≠
          .ok (some device)) ∧
        (Pairing.redeem pf cfg.pairing now draw code name sourceIp deviceKey s m).2.2 = s) ∨
      ∃ role expiresAt key, (∀ e, expiresAt = some e → truthy e = true) ∧
        (Pairing.redeem pf cfg.pairing now draw code name sourceIp deviceKey s m).1 =
          (mint pf draw name role expiresAt key s).1.map some ∧
        (Pairing.redeem pf cfg.pairing now draw code name sourceIp deviceKey s m).2.2 =
          (mint pf draw name role expiresAt key s).2 := by
  cases hthr : Pairing.throttled cfg.pairing now (sourceIp.getD "") m with
  | true =>
    rw [Pairing.redeem_throttled hthr]
    exact .inl ⟨nofun, rfl⟩
  | false =>
    cases hcode : (m.codes.get? code).filter fun p => now < p.expiresAt with
    | none =>
      rw [Pairing.redeem_failed hthr hcode]
      exact .inl ⟨nofun, rfl⟩
    | some pending =>
      refine .inr ⟨pending.role, pending.sessionExpiresAt.map pf.isoformat, Devices.stripped deviceKey,
        fun e he => ?_, ?_⟩
      · obtain ⟨t, -, rfl⟩ := Option.map_eq_some_iff.mp he
        exact pf.isoformat_truthy t
      · have hover : Pairing.overCap cfg.pairing (sourceIp.getD "") (Pairing.purgeFailed cfg.pairing now m) =
            false := hthr
        have hpending : ((Pairing.purgeFailed cfg.pairing now m).codes.get? code).filter
            (fun p => now < p.expiresAt) = some pending := hcode
        simp only [Pairing.redeem, hover, hpending, mint]
        rcases Devices.add pf draw name pending.role
            { expiresAt := pending.sessionExpiresAt.map pf.isoformat
              deviceKey := Devices.stripped deviceKey } s with ⟨e | device, s'⟩
        · exact ⟨rfl, rfl⟩
        · cases Devices.stripped deviceKey with
          | none => exact ⟨rfl, rfl⟩
          | some key => exact ⟨rfl, rfl⟩

theorem approve_mint (pf : Devices.Platform) (cfg : Config) (now : ℤ) (draw : Draw)
    (requestId role : String) (confirmCode : Option String) (s : DeviceStore)
    (m : PairRequests.PairApprovalManager) :
    ((∀ device, (PairRequests.approve pf cfg.approvals now draw requestId role confirmCode s m).1 ≠
          .ok (some device)) ∧
        (PairRequests.approve pf cfg.approvals now draw requestId role confirmCode s m).2.2 = s) ∨
      ∃ name key,
        (PairRequests.approve pf cfg.approvals now draw requestId role confirmCode s m).1 =
          (mint pf draw name role none key s).1.map (fun device => some device.1) ∧
        (PairRequests.approve pf cfg.approvals now draw requestId role confirmCode s m).2.2 =
          (mint pf draw name role none key s).2 := by
  unfold PairRequests.approve
  dsimp only
  split
  · exact .inl ⟨nofun, rfl⟩
  · rename_i r _
    split
    · exact .inl ⟨nofun, rfl⟩
    · split
      · exact .inl ⟨nofun, rfl⟩
      · refine .inr ⟨r.requesterName, r.deviceKey, ?_⟩
        unfold mint
        rcases Devices.add pf draw r.requesterName role { deviceKey := r.deviceKey } s with ⟨e | device, s'⟩
        · exact ⟨rfl, rfl⟩
        · cases r.deviceKey with
          | none => exact ⟨rfl, rfl⟩
          | some key => exact ⟨rfl, rfl⟩

/-! ## What a call does to the table -/

/-- A call rewrites rows in place and revives none, or it mints a device behind the others. -/
inductive TableStep (pf : Devices.Platform) (cfg : Config) (c : Core) (op : Op) : Prop
  | rewrites (f : String → DeviceRow → DeviceRow) (hnone : minted pf cfg c op = none)
      (hdevices : (step pf cfg c op).devices = c.devices.map f)
      (hkind : ∀ id r, kindOf (f id r) = kindOf r)
      (hrevoked : ∀ id r, (f id r).revoked = r.revoked ∨ op = .revoke id ∧ (f id r).revoked = true)
  | appends (id : String) (r : DeviceRow) (hfresh : c.devices.get? id = none) (hlive : r.revoked = false)
      (hmint : minted pf cfg c op = some (id, kindOf r))
      (hentries : (step pf cfg c op).devices.entries =
        (c.devices.entries.map fun e => (e.1, retire (kindOf r) e.2)) ++ [(id, r)])

theorem TableStep.same {c : Core} {op : Op} (hnone : minted pf cfg c op = none)
    (hdevices : (step pf cfg c op).devices = c.devices) : TableStep pf cfg c op := by
  refine .rewrites (fun _ r => r) hnone (hdevices.trans ?_) (fun _ _ => rfl) fun _ _ => .inl rfl
  exact (Dict.map_eq_self fun _ _ _ => rfl).symm

theorem TableStep.updateDevice {c : Core} {op : Op} (deviceId : String) (f : DeviceRow → DeviceRow)
    (hnone : minted pf cfg c op = none)
    (hdevices : (step pf cfg c op).devices = (Devices.updateDevice deviceId f c.devices).2)
    (hkind : ∀ r, kindOf (f r) = kindOf r)
    (hrevoked : ∀ r, (f r).revoked = r.revoked ∨ op = .revoke deviceId ∧ (f r).revoked = true) :
    TableStep pf cfg c op := by
  refine .rewrites (fun id r => if id = deviceId then f r else r) hnone hdevices ?_ ?_
  · intro id r
    split
    · exact hkind r
    · rfl
  · intro id r
    split
    · next h => exact h ▸ hrevoked r
    · exact .inl rfl

theorem TableStep.of_mint {c : Core} {op : Op} {draw : Draw} {name role : String}
    {expiresAt deviceKey : Option String} (hexp : ∀ e, expiresAt = some e → truthy e = true)
    (hdevices : (step pf cfg c op).devices = (mint pf draw name role expiresAt deviceKey c.devices).2)
    (hid : mintedId pf cfg c op =
      (mint pf draw name role expiresAt deviceKey c.devices).1.toOption.map Prod.fst) :
    TableStep pf cfg c op := by
  rcases mint_cases pf draw name role deviceKey c.devices hexp with
    ⟨e, he⟩ | ⟨r, hfresh, hlive, -, hok, hentries⟩
  · rw [he] at hdevices hid
    refine .same ?_ hdevices
    rw [minted, hid]
    rfl
  · rw [hok] at hid
    rw [← hdevices] at hentries
    refine .appends draw.deviceId r hfresh hlive ?_ hentries
    have hget : (step pf cfg c op).devices.get? draw.deviceId = some r := by
      rw [← Dict.mem_entries, hentries]
      simp
    rw [minted, hid]
    simp [Except.toOption, hget]

theorem tableStep (pf : Devices.Platform) (cfg : Config) (c : Core) (op : Op) : TableStep pf cfg c op := by
  -- `redeem` and `approve` are the only calls that mint a device
  cases op with
  | pairing op =>
    cases op with
    | redeem now draw code name sourceIp deviceKey store =>
      rcases redeem_mint pf cfg now draw code name sourceIp deviceKey c.devices c.pairing with
        ⟨hnone, hsame⟩ | ⟨role, expiresAt, key, hexp, hresult, hdevices⟩
      · refine .same ?_ hsame
        have hid : mintedId pf cfg c (.pairing (.redeem now draw code name sourceIp deviceKey store)) =
            none := by
          simp only [mintedId]
          split
          · rename_i device token hdevice
            exact absurd hdevice (hnone (device, token))
          · rfl
        simp only [minted, hid, Option.bind_none]
      · refine .of_mint hexp hdevices ?_
        simp only [mintedId, hresult]
        cases (mint pf draw name role expiresAt key c.devices).1 <;> rfl
    | _ => exact .same (by simp only [minted, mintedId, Option.bind_none]) (by simp only [step])
  | approvals op =>
    cases op with
    | approve now draw requestId role confirmCode store =>
      rcases approve_mint pf cfg now draw requestId role confirmCode c.devices c.approvals
        with ⟨hnone, hsame⟩ | ⟨name, key, hresult, hdevices⟩
      · refine .same ?_ hsame
        have hid : mintedId pf cfg c (.approvals (.approve now draw requestId role confirmCode store)) =
            none := by
          simp only [mintedId]
        simp only [minted, hid, Option.bind_none]
      · have hexp : ∀ e, none = some e → truthy e = true := by simp
        refine .of_mint hexp hdevices ?_
        simp only [mintedId, hresult]
        cases (mint pf draw name role none key c.devices).1 <;> rfl
    | _ => exact .same (by simp only [minted, mintedId, Option.bind_none]) (by simp only [step])
  | revoke deviceId =>
    refine .updateDevice deviceId (fun r => { r with revoked := true }) ?_ ?_ (fun _ => rfl)
      fun _ => .inr ⟨rfl, rfl⟩
    · simp only [minted, mintedId, Option.bind_none]
    · simp only [step, Devices.revoke]
  | setPerson deviceId personId =>
    refine .updateDevice deviceId (fun r => { r with personId }) ?_ ?_ (fun _ => rfl) fun _ => .inl rfl
    · simp only [minted, mintedId, Option.bind_none]
    · simp only [step, Devices.setPerson]
  | setRole deviceId role =>
    have hnone : minted pf cfg c (.setRole deviceId role) = none := by
      simp only [minted, mintedId, Option.bind_none]
    rcases Devices.setRole_snd pf deviceId role c.devices with hsame | hset
    · exact .same hnone (by simp only [step, hsame])
    · refine .updateDevice deviceId (fun r => { r with role }) hnone ?_ (fun _ => rfl) fun _ => .inl rfl
      simp only [step, hset]
  | setConsent deviceId level =>
    have hnone : minted pf cfg c (.setConsent deviceId level) = none := by
      simp only [minted, mintedId, Option.bind_none]
    rcases Devices.setConsent_snd pf deviceId level c.devices with hsame | hset
    · exact .same hnone (by simp only [step, hsame])
    · refine .updateDevice deviceId (fun r => { r with consent := some level }) hnone ?_ (fun _ => rfl)
        fun _ => .inl rfl
      simp only [step, hset]

/-! ## Runs -/

/-- The rows are the minted devices in order, and of one key and kind only the last can be live. -/
structure Orderly (minted : List (String × Option String × Bool)) (s : DeviceStore) : Prop where
  rows : s.entries.map (fun e => (e.1, kindOf e.2)) = minted
  superseded : s.entries.Pairwise fun e e' =>
    e.2.deviceKey ≠ none → kindOf e.2 = kindOf e'.2 → e.2.revoked = true

theorem kindOf_retire (kind : Option String × Bool) (r : DeviceRow) :
    kindOf (retire kind r) = kindOf r := by
  unfold retire
  split <;> rfl

theorem revoked_retire (kind : Option String × Bool) {r : DeviceRow} (h : r.revoked = true) :
    (retire kind r).revoked = true := by
  unfold retire
  split
  · rfl
  · exact h

theorem deviceKey_eq {r r' : DeviceRow} (h : kindOf r = kindOf r') : r.deviceKey = r'.deviceKey :=
  congrArg Prod.fst h

namespace Orderly

variable {devices : List (String × Option String × Bool)}

theorem rewrites {f : String → DeviceRow → DeviceRow} (ho : Orderly devices s)
    (hkind : ∀ id r, kindOf (f id r) = kindOf r)
    (hrevoked : ∀ id r, r.revoked = true → (f id r).revoked = true) : Orderly devices (s.map f) := by
  constructor
  · simp only [Dict.map, List.map_map, Function.comp_def, hkind]
    exact ho.rows
  · refine List.pairwise_map.mpr (ho.superseded.imp ?_)
    intro e e' h hkey hsame
    rw [hkind, hkind] at hsame
    rw [deviceKey_eq (hkind e.1 e.2)] at hkey
    exact hrevoked e.1 e.2 (h hkey hsame)

theorem appends {s' : DeviceStore} {id : String} {r : DeviceRow} (ho : Orderly devices s)
    (hentries : s'.entries = (s.entries.map fun e => (e.1, retire (kindOf r) e.2)) ++ [(id, r)]) :
    Orderly (devices ++ [(id, kindOf r)]) s' := by
  constructor
  · rw [hentries, ← ho.rows]
    simp only [List.map_append, List.map_map, Function.comp_def, kindOf_retire, List.map_cons, List.map_nil]
  · rw [hentries, List.pairwise_append]
    refine ⟨List.pairwise_map.mpr (ho.superseded.imp ?_), List.pairwise_singleton _ _, ?_⟩
    · intro e e' h hkey hsame
      rw [kindOf_retire, kindOf_retire] at hsame
      rw [deviceKey_eq (kindOf_retire _ _)] at hkey
      exact revoked_retire _ (h hkey hsame)
    · intro e he e' he' hkey hsame
      obtain ⟨old, -, rfl⟩ := List.mem_map.mp he
      rw [List.mem_singleton.mp he', kindOf_retire] at hsame
      rw [deviceKey_eq (kindOf_retire _ _)] at hkey
      have hretire : retire (kindOf r) old.2 = { old.2 with revoked := true } := if_pos ⟨hkey, hsame⟩
      exact congrArg DeviceRow.revoked hretire

/-- A live device with a key is the last one of its key and kind. -/
theorem live_is_last {id : String} {r : DeviceRow} (ho : Orderly devices s) (hget : s.get? id = some r)
    (hlive : r.revoked = false) (hkey : r.deviceKey ≠ none) :
    (devices.filter fun d => d.2 = kindOf r).getLast? = some (id, kindOf r) := by
  obtain ⟨pre, post, hsplit⟩ := List.append_of_mem (Dict.mem_entries.mpr hget)
  have hpost : (post.map fun e => (e.1, kindOf e.2)).filter (fun d => d.2 = kindOf r) = [] := by
    rw [List.filter_eq_nil_iff]
    intro d hd hsame
    obtain ⟨e, he, rfl⟩ := List.mem_map.mp hd
    have hpair := ho.superseded
    rw [hsplit, List.pairwise_append] at hpair
    have hrevoked := (List.pairwise_cons.mp hpair.2.1).1 e he hkey (of_decide_eq_true hsame).symm
    rw [hlive] at hrevoked
    cases hrevoked
  rw [← ho.rows, hsplit, List.map_append, List.map_cons, List.filter_append, List.filter_cons, hpost]
  simp

end Orderly

theorem orderly_run (pf : Devices.Platform) (cfg : Config) (ops : List Op) :
    Orderly (outputs (step pf cfg) (minted pf cfg) fresh ops) (finish (step pf cfg) fresh ops).devices := by
  refine history_induction
    (R := fun ops (c : Core) => Orderly (outputs (step pf cfg) (minted pf cfg) fresh ops) c.devices)
    ?_ ?_ ops
  · exact ⟨rfl, List.Pairwise.nil⟩
  · intro ops op ih
    rw [outputs_append]
    cases tableStep pf cfg (finish (step pf cfg) fresh ops) op with
    | rewrites f hnone hdevices hkind hrevoked =>
      simp only [outputs, hnone, hdevices, Option.toList_none, List.append_nil]
      refine ih.rewrites hkind fun id r h => ?_
      rcases hrevoked id r with hsame | ⟨-, hrevoke⟩
      · rw [hsame, h]
      · exact hrevoke
    | appends id r hfresh hlive hmint hentries =>
      simp only [outputs, hmint, Option.toList_some, List.append_nil]
      exact ih.appends hentries

/-- Other than by revoking it, a device is revoked where one of its key and kind is minted. -/
theorem keeps_or_supersedes {c : Core} {op : Op} {id : String} {r : DeviceRow}
    (hop : op ≠ .revoke id) (hget : c.devices.get? id = some r) (hlive : r.revoked = false) :
    ∃ r', (step pf cfg c op).devices.get? id = some r' ∧ kindOf r' = kindOf r ∧
      (r'.revoked = true → r.deviceKey ≠ none ∧
        ∃ newId, newId ≠ id ∧ minted pf cfg c op = some (newId, kindOf r)) := by
  cases tableStep pf cfg c op with
  | rewrites f hnone hdevices hkind hrevoked =>
    refine ⟨f id r, by rw [hdevices, Dict.get?_map, hget]; rfl, hkind id r, fun h => ?_⟩
    rcases hrevoked id r with hsame | ⟨hrevoke, -⟩
    · rw [hsame, hlive] at h
      cases h
    · exact absurd hrevoke hop
  | appends newId new hfresh _ hmint hentries =>
    have hmem : (id, retire (kindOf new) r) ∈ (step pf cfg c op).devices.entries := by
      rw [hentries]
      exact List.mem_append_left _ (List.mem_map.mpr ⟨(id, r), Dict.mem_entries.mpr hget, rfl⟩)
    refine ⟨retire (kindOf new) r, Dict.mem_entries.mp hmem, kindOf_retire _ _, fun h => ?_⟩
    have hne : newId ≠ id := by
      rintro rfl
      rw [hfresh] at hget
      cases hget
    unfold retire at h
    split at h
    · next hsame => exact ⟨hsame.1, newId, hne, hsame.2 ▸ hmint⟩
    · rw [hlive] at h
      cases h

end

/-- A live device with a key is the last one minted with its key and kind, so there is one at most;
and no call but its own revocation revokes a device, other than one that mints its successor. -/
theorem one_live_key (ops : List Op) :
    let c := finish (step pf cfg) fresh ops
    (∀ id r, c.devices.get? id = some r → r.revoked = false → r.deviceKey ≠ none →
      ((outputs (step pf cfg) (minted pf cfg) fresh ops).filter fun d => d.2 = kindOf r).getLast? =
        some (id, kindOf r)) ∧
    (∀ id r id' r', c.devices.get? id = some r → c.devices.get? id' = some r' →
      r.revoked = false → r'.revoked = false → r.deviceKey ≠ none → kindOf r = kindOf r' → id = id') ∧
    ∀ op id r, op ≠ .revoke id → c.devices.get? id = some r → r.revoked = false →
      ∃ r', (step pf cfg c op).devices.get? id = some r' ∧ kindOf r' = kindOf r ∧
        (r'.revoked = true → r.deviceKey ≠ none ∧
          ∃ newId, newId ≠ id ∧ minted pf cfg c op = some (newId, kindOf r)) := by
  intro c
  have ho := orderly_run pf cfg ops
  refine ⟨fun id r => ho.live_is_last, ?_, fun op id r => keeps_or_supersedes⟩
  intro id r id' r' hget hget' hlive hlive' hkey hsame
  have hlast := ho.live_is_last hget hlive hkey
  rw [hsame, ho.live_is_last hget' hlive' (deviceKey_eq hsame ▸ hkey)] at hlast
  exact (congrArg Prod.fst (Option.some.inj hlast)).symm

end Wavr.DeviceKeys
