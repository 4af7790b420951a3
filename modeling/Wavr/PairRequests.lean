import Wavr.Devices
import Wavr.Run
import Wavr.Timebase

/-!
# Approve on the Core

`PairApprovalManager`: a companion asks, the operator compares a number and approves, the companion
polls for its token.
-/

namespace Wavr.PairRequests
open Devices (DeviceStore StoreError supersedeSameDevice)
open Run Text Timebase

/-- The parameters of the constructor; the times are in seconds. -/
structure Config where
  requestTtl : ℚ
  approvalTtl : ℚ
  maxPending : ℤ
  maxPendingPerIp : ℤ

def defaults : Config := ⟨180, 120, 20, 3⟩

inductive Status
  | pending
  | approved
  | denied
  deriving DecidableEq, Repr

structure PairRequest where
  requesterName : String
  platform : Option String
  sourceIp : Option String
  reportedFp : Option String
  createdAt : ℤ
  expiresAt : ℤ
  status : Status
  deviceId : Option String
  token : Option String
  deviceKey : Option String
  compareCode : String
  deriving DecidableEq

/-- The requests by id, in the order they were made. -/
abbrev PairApprovalManager := Dict String PairRequest

/-- `f"{secrets.randbelow(10 ** 6):06d}"`. -/
def compareText (draw : Fin 1000000) : String :=
  let digits := Nat.toDigits 10 draw.val
  String.ofList (List.replicate (6 - digits.length) '0' ++ digits)

/-- `(s or "").strip()[:n] or None`. -/
def clipped (n : ℕ) (s : Option String) : Option String :=
  let s := truncate n (strip (s.getD ""))
  if truthy s then some s else none

def purgeExpired (now : ℤ) (m : PairApprovalManager) : PairApprovalManager :=
  m.filter fun _ v => now < v.expiresAt

/-- `self._requests[k].created_at`. -/
def createdAt (m : PairApprovalManager) (id : String) : ℤ := ((m.get? id).map PairRequest.createdAt).getD 0

/-- `min(ids, key=created_at)`, the first of equals. -/
def oldest (m : PairApprovalManager) : List String → Option String
  | [] => none
  | id :: ids => some (ids.foldl (fun best id => if createdAt m id < createdAt m best then id else best) id)

/-- `min()` of nothing, which a limit of zero leads to. -/
def emptyMin : String := "min() iterable argument is empty"

/-- `while len(mine) >= limit`: the oldest goes. The first argument is the length of `mine`. -/
def evictOldest (limit : ℤ) : ℕ → List String → PairApprovalManager →
    Except String Unit × PairApprovalManager
  | 0, mine, m => if limit ≤ mine.length then (.error emptyMin, m) else (.ok (), m)
  | n + 1, mine, m =>
    if limit ≤ mine.length then
      match oldest m mine with
      | none => (.error emptyMin, m)
      | some id => evictOldest limit n (mine.erase id) (m.erase id)
    else (.ok (), m)

variable (pf : Devices.Platform) (cfg : Config)

/-- Pending requests of one host. -/
def pendingOf (key : String) (m : PairApprovalManager) : List String :=
  (m.entries.filter fun e => e.2.sourceIp.getD "" = key ∧ e.2.status = .pending).map Prod.fst

def evictOldestForIp (key : String) (m : PairApprovalManager) :
    Except String Unit × PairApprovalManager :=
  evictOldest cfg.maxPendingPerIp (pendingOf key m).length (pendingOf key m) m

def evictOldestGlobal (m : PairApprovalManager) : Except String Unit × PairApprovalManager :=
  evictOldest cfg.maxPending m.keys.length m.keys m

/-- Up to twenty more draws for a number that no pending request shows. -/
def freshCompare (draw : ℕ → Fin 1000000) (m : PairApprovalManager) : String :=
  let inUse := (m.values.filter fun r => r.status = .pending).map PairRequest.compareCode
  (((List.range 20).map fun i => compareText (draw i)).find? fun code => code ∉ inUse).getD
    (compareText (draw 20))

/-- The id and the number to compare; `error` is the text of the ValueError. -/
def create (now : ℤ) (requestId : String) (draw : ℕ → Fin 1000000) (requesterName : String)
    (sourceIp platform reportedFp deviceKey : Option String) (m : PairApprovalManager) :
    Except String (String × String) × PairApprovalManager :=
  let name := truncate 64 (strip requesterName)
  if ¬ truthy name then (.error "requester_name is required", m)
  else
    let m := purgeExpired now m
    match evictOldestForIp cfg (sourceIp.getD "") m with
    | (.error e, m) => (.error e, m)
    | (.ok _, m) =>
      match evictOldestGlobal cfg m with
      | (.error e, m) => (.error e, m)
      | (.ok _, m) =>
        let compareCode := freshCompare draw m
        (.ok (requestId, compareCode), m.set requestId
          { requesterName := name, platform := clipped 32 platform, sourceIp
            reportedFp := clipped 128 reportedFp, createdAt := now
            expiresAt := now + micros cfg.requestTtl, status := .pending, deviceId := none
            token := none, deviceKey := clipped 200 deviceKey, compareCode })

inductive PollAnswer
  | pending
  | approved (deviceId token : Option String)
  | denied
  | expired
  deriving DecidableEq

def poll (now : ℤ) (requestId : String) (m : PairApprovalManager) : PollAnswer × PairApprovalManager :=
  let m := purgeExpired now m
  match m.get? requestId with
  | none => (.expired, m)
  | some r =>
    match r.status with
    | .approved => (.approved r.deviceId r.token, m)
    | .denied => (.denied, m)
    | .pending => (.pending, m)

/-- What the operator sees of each pending request: its id, its name and the number. -/
def listPending (now : ℤ) (m : PairApprovalManager) : List (String × String × String) × PairApprovalManager :=
  let m := purgeExpired now m
  ((m.entries.filter fun e => e.2.status = .pending).map fun e =>
    (e.1, e.2.requesterName, e.2.compareCode), m)

/-- The one place that mints. The result is the id of the new device. -/
def approve (now : ℤ) (draw : Devices.Draw) (requestId role : String) (confirmCode : Option String)
    (store : DeviceStore) (m : PairApprovalManager) :
    Except StoreError (Option String) × PairApprovalManager × DeviceStore :=
  let m := purgeExpired now m
  match m.get? requestId with
  | none => (.ok none, m, store)
  | some r =>
    if r.status ≠ .pending then (.ok none, m, store)
    else if ¬ truthy (confirmCode.getD "") ∨ confirmCode.getD "" ≠ r.compareCode then (.ok none, m, store)
    else
      match Devices.add pf draw r.requesterName role { deviceKey := r.deviceKey } store with
      | (.error e, store) => (.error e, m, store)
      | (.ok (deviceId, token), store) =>
        let store := match r.deviceKey with
          | some key => (supersedeSameDevice key deviceId store).2
          | none => store
        (.ok (some deviceId), m.set requestId
          { r with
            status := .approved, deviceId := some deviceId, token := some token
            expiresAt := max r.expiresAt (now + micros cfg.approvalTtl) }, store)

def deny (requestId : String) (m : PairApprovalManager) : Bool × PairApprovalManager :=
  match m.get? requestId with
  | none => (false, m)
  | some r =>
    if r.status ≠ .pending then (false, m)
    else (true, m.set requestId { r with status := .denied })

/-- The calls of a manager, with the readings of the clock, the draws and the store as it is found. -/
inductive Op
  | create (now : ℤ) (requestId : String) (draw : ℕ → Fin 1000000) (requesterName : String)
      (sourceIp platform reportedFp deviceKey : Option String)
  | poll (now : ℤ) (requestId : String)
  | listPending (now : ℤ)
  | approve (now : ℤ) (draw : Devices.Draw) (requestId role : String) (confirmCode : Option String)
      (store : DeviceStore)
  | deny (requestId : String)

def step (m : PairApprovalManager) : Op → PairApprovalManager
  | .create now requestId draw requesterName sourceIp platform reportedFp deviceKey =>
    (create cfg now requestId draw requesterName sourceIp platform reportedFp deviceKey m).2
  | .poll now requestId => (poll now requestId m).2
  | .listPending now => (listPending now m).2
  | .approve now draw requestId role confirmCode store =>
    (approve pf cfg now draw requestId role confirmCode store m).2.1
  | .deny requestId => (deny requestId m).2

/-- The number that a call shows for the request it opens. -/
def shown (m : PairApprovalManager) : Op → Option (String × String)
  | .create now requestId draw requesterName sourceIp platform reportedFp deviceKey =>
    (create cfg now requestId draw requesterName sourceIp platform reportedFp deviceKey m).1.toOption
  | _ => none

/-- The request that a call mints for, with the device and its token. -/
def minted (m : PairApprovalManager) : Op → Option (String × String × String)
  | .approve now draw requestId role confirmCode store =>
    match (approve pf cfg now draw requestId role confirmCode store m).1 with
    | .ok (some deviceId) => some (requestId, deviceId, draw.token)
    | _ => none
  | _ => none

/-- The request whose credential a call hands out, with the device and its token. -/
def handedOut (m : PairApprovalManager) : Op → Option (String × Option String × Option String)
  | .poll now requestId =>
    match (poll now requestId m).1 with
    | .approved deviceId token => some (requestId, deviceId, token)
    | _ => none
  | _ => none

/-- The reading of the clock that a call purges with; a request without a name is refused before. -/
def Op.reading : Op → Option ℤ
  | .create now _ _ requesterName .. =>
    if truthy (truncate 64 (strip requesterName)) then some now else none
  | .poll now _ => some now
  | .listPending now => some now
  | .approve now .. => some now
  | .deny _ => none

/-- The numbers shown for the id, call by call. -/
def shownFor (id : String) (m : PairApprovalManager) (ops : List Op) : List String :=
  outputsFor (step pf cfg) (shown cfg) id m ops

/-- The credentials minted for the id. -/
def mintedFor (id : String) (m : PairApprovalManager) (ops : List Op) : List (String × String) :=
  outputsFor (step pf cfg) (minted pf cfg) id m ops

/-- The credentials handed out for the id. -/
def handedFor (id : String) (m : PairApprovalManager) (ops : List Op) :
    List (Option String × Option String) :=
  outputsFor (step pf cfg) handedOut id m ops

/-! ## What a call does to a request -/

section
variable {pf cfg} {m m' m'' : PairApprovalManager} {op : Op} {id : String} {now : ℤ}

/-- Requests have only gone. -/
def Fewer (m m' : PairApprovalManager) : Prop := ∀ id, m'.get? id = m.get? id ∨ m'.get? id = none

theorem Fewer.refl (m : PairApprovalManager) : Fewer m m := fun _ => .inl rfl

theorem Fewer.trans (h : Fewer m m') (h' : Fewer m' m'') : Fewer m m'' := Dict.Fewer.trans h h'

theorem fewer_erase (id : String) : Fewer m (m.erase id) := m.fewer_erase id

theorem get?_purgeExpired :
    (purgeExpired now m).get? id = (m.get? id).filter fun r => now < r.expiresAt := by
  simp [purgeExpired]

theorem fewer_purgeExpired (now : ℤ) (m : PairApprovalManager) : Fewer m (purgeExpired now m) :=
  m.fewer_filter _

theorem fewer_evictOldest (limit : ℤ) (n : ℕ) (mine : List String) (m : PairApprovalManager) :
    Fewer m (evictOldest limit n mine m).2 := by
  induction n generalizing mine m with
  | zero =>
    unfold evictOldest
    split <;> exact Fewer.refl m
  | succ n ih =>
    unfold evictOldest
    split
    · split
      · exact Fewer.refl m
      · rename_i id _
        exact (fewer_erase id).trans (ih _ _)
    · exact Fewer.refl m

theorem mem_of_oldest {mine : List String} (h : oldest m mine = some id) : id ∈ mine := by
  cases mine with
  | nil => cases h
  | cons first mine =>
    cases h
    suffices hfold : ∀ (ids : List String) (best : String), ids.foldl (fun best id =>
        if createdAt m id < createdAt m best then id else best) best ∈ best :: ids from hfold mine first
    intro ids
    induction ids with
    | nil => exact fun best => List.mem_singleton.mpr rfl
    | cons id ids ih =>
      intro best
      rw [List.foldl_cons]
      split
      · exact List.mem_cons_of_mem best (ih id)
      · rcases List.mem_cons.mp (ih best) with hbest | hrest
        · rw [hbest]
          exact List.mem_cons_self
        · exact List.mem_cons_of_mem best (List.mem_cons_of_mem id hrest)

/-- Only those among which the oldest is sought can go. -/
theorem get?_evictOldest (limit : ℤ) (n : ℕ) {mine : List String} (hid : id ∉ mine)
    (m : PairApprovalManager) : (evictOldest limit n mine m).2.get? id = m.get? id := by
  induction n generalizing mine m with
  | zero =>
    unfold evictOldest
    split <;> rfl
  | succ n ih =>
    unfold evictOldest
    split
    · split
      · rfl
      · rename_i old hold
        have hne : id ≠ old := fun he => hid (he ▸ mem_of_oldest hold)
        rw [ih (fun hmem => hid (List.mem_of_mem_erase hmem)), Dict.get?_erase, if_neg hne]
    · rfl

/-- A loop that ends has a limit that is not zero. -/
theorem pos_of_evictOldest {limit : ℤ} {n : ℕ} {mine : List String}
    (h : (evictOldest limit n mine m).1 = .ok ()) : 0 < limit := by
  induction n generalizing mine m with
  | zero =>
    unfold evictOldest at h
    split at h
    · cases h
    · omega
  | succ n ih =>
    unfold evictOldest at h
    split at h
    · split at h
      · cases h
      · exact ih h
    · omega

/-- The request once it is approved. -/
def approvedRequest (cfg : Config) (now : ℤ) (draw : Devices.Draw) (r : PairRequest) : PairRequest :=
  { r with
    status := .approved, deviceId := some draw.deviceId, token := some draw.token
    expiresAt := max r.expiresAt (now + micros cfg.approvalTtl) }

/-- What one call does to the request of an id. -/
inductive RequestStep (pf : Devices.Platform) (cfg : Config) (m : PairApprovalManager) (op : Op)
    (id : String) : Option PairRequest → Option PairRequest → Prop
  | kept (r : Option PairRequest) : RequestStep pf cfg m op id r r
  | gone (r : Option PairRequest) : RequestStep pf cfg m op id r none
  | opened (r : Option PairRequest) (r' : PairRequest) (hshown : shown cfg m op = some (id, r'.compareCode))
      (hpend : r'.status = .pending) : RequestStep pf cfg m op id r (some r')
  | approved (r : PairRequest) (now : ℤ) (draw : Devices.Draw) (role : String) (store : DeviceStore)
      (hop : op = .approve now draw id role (some r.compareCode) store) (hpend : r.status = .pending)
      (hlive : now < r.expiresAt) (hmint : minted pf cfg m op = some (id, draw.deviceId, draw.token)) :
      RequestStep pf cfg m op id (some r) (some (approvedRequest cfg now draw r))
  | denied (r : PairRequest) (hop : op = .deny id) (hpend : r.status = .pending) :
      RequestStep pf cfg m op id (some r) (some { r with status := .denied })

theorem RequestStep.of_fewer (h : Fewer m m') :
    RequestStep pf cfg m op id (m.get? id) (m'.get? id) := by
  rcases h id with hsame | hgone
  · rw [hsame]
    exact .kept _
  · rw [hgone]
    exact .gone _

/-- The requests that a create leaves for the new one to join. -/
def roomFor (cfg : Config) (now : ℤ) (sourceIp : Option String) (m : PairApprovalManager) :
    PairApprovalManager :=
  (evictOldestGlobal cfg (evictOldestForIp cfg (sourceIp.getD "") (purgeExpired now m)).2).2

theorem fewer_evictOldestForIp (sourceIp : Option String) :
    Fewer m (evictOldestForIp cfg (sourceIp.getD "") (purgeExpired now m)).2 :=
  (fewer_purgeExpired now m).trans (fewer_evictOldest _ _ _ _)

theorem fewer_roomFor (sourceIp : Option String) : Fewer m (roomFor cfg now sourceIp m) :=
  ((fewer_purgeExpired now m).trans (fewer_evictOldest _ _ _ _)).trans (fewer_evictOldest _ _ _ _)

/-- A create without a name changes nothing. Another one purges and makes room, and opens its request
unless the room runs out. -/
theorem create_cases (now : ℤ) (requestId : String) (draw : ℕ → Fin 1000000) (requesterName : String)
    (sourceIp platform reportedFp deviceKey : Option String) (m : PairApprovalManager) :
    (truthy (truncate 64 (strip requesterName)) = false ∧
      create cfg now requestId draw requesterName sourceIp platform reportedFp deviceKey m =
        (.error "requester_name is required", m)) ∨
    truthy (truncate 64 (strip requesterName)) = true ∧
      ((∃ e, create cfg now requestId draw requesterName sourceIp platform reportedFp deviceKey m =
          (.error e, (evictOldestForIp cfg (sourceIp.getD "") (purgeExpired now m)).2)) ∨
        0 < cfg.maxPendingPerIp ∧
          ((∃ e, create cfg now requestId draw requesterName sourceIp platform reportedFp deviceKey m =
            (.error e, roomFor cfg now sourceIp m)) ∨
          ∃ r : PairRequest, r.status = .pending ∧
            create cfg now requestId draw requesterName sourceIp platform reportedFp deviceKey m =
              (.ok (requestId, r.compareCode), (roomFor cfg now sourceIp m).set requestId r))) := by
  unfold create roomFor
  by_cases hname : truthy (truncate 64 (strip requesterName)) = true
  · rw [if_neg (not_not_intro hname)]
    refine .inr ⟨hname, ?_⟩
    dsimp only
    rcases hip : evictOldestForIp cfg (sourceIp.getD "") (purgeExpired now m) with ⟨e | ⟨⟩, m₁⟩
    · exact .inl ⟨e, rfl⟩
    · refine .inr ⟨pos_of_evictOldest (congrArg Prod.fst hip), ?_⟩
      dsimp only
      rcases evictOldestGlobal cfg m₁ with ⟨e | ⟨⟩, m₂⟩
      · exact .inl ⟨e, rfl⟩
      · exact .inr ⟨{ requesterName := truncate 64 (strip requesterName), platform := clipped 32 platform,
                      sourceIp, reportedFp := clipped 128 reportedFp, createdAt := now,
                      expiresAt := now + micros cfg.requestTtl, status := .pending, deviceId := none,
                      token := none, deviceKey := clipped 200 deviceKey,
                      compareCode := freshCompare draw m₂ }, rfl, rfl⟩
  · rw [if_pos hname]
    exact .inl ⟨Bool.eq_false_of_not_eq_true hname, rfl⟩

theorem requestStep_create (now : ℤ) (requestId : String) (draw : ℕ → Fin 1000000)
    (requesterName : String) (sourceIp platform reportedFp deviceKey : Option String) :
    RequestStep pf cfg m (.create now requestId draw requesterName sourceIp platform reportedFp deviceKey)
      id (m.get? id)
      ((create cfg now requestId draw requesterName sourceIp platform reportedFp deviceKey m).2.get? id) := by
  rcases create_cases now requestId draw requesterName sourceIp platform reportedFp deviceKey m with
    ⟨-, hcreate⟩ | ⟨-, ⟨e, hcreate⟩ | ⟨-, ⟨e, hcreate⟩ | ⟨r, hpend, hcreate⟩⟩⟩
  · rw [hcreate]
    exact .kept _
  · rw [hcreate]
    exact .of_fewer (fewer_evictOldestForIp sourceIp)
  · rw [hcreate]
    exact .of_fewer (fewer_roomFor sourceIp)
  · rw [hcreate]
    by_cases hid : id = requestId
    · subst hid
      rw [Dict.get?_set_self]
      refine .opened _ r ?_ hpend
      rw [shown, hcreate]
      rfl
    · rw [Dict.get?_set_ne _ hid]
      exact .of_fewer (fewer_roomFor sourceIp)

/-- An approval mints for a pending request whose number is confirmed, or it mints nothing. -/
theorem approve_cases (now : ℤ) (draw : Devices.Draw) (requestId role : String)
    (confirmCode : Option String) (store : DeviceStore) (m : PairApprovalManager) :
    ((∀ device, (approve pf cfg now draw requestId role confirmCode store m).1 ≠ .ok (some device)) ∧
      (approve pf cfg now draw requestId role confirmCode store m).2.1 = purgeExpired now m) ∨
    ∃ r, m.get? requestId = some r ∧ r.status = .pending ∧ now < r.expiresAt ∧
      confirmCode = some r.compareCode ∧
      (approve pf cfg now draw requestId role confirmCode store m).1 = .ok (some draw.deviceId) ∧
      (approve pf cfg now draw requestId role confirmCode store m).2.1 =
        (purgeExpired now m).set requestId (approvedRequest cfg now draw r) := by
  cases hr : (purgeExpired now m).get? requestId with
  | none => exact .inl (by simp [approve, hr])
  | some r =>
    by_cases hpend : r.status = .pending
    · by_cases hcode : ¬ truthy (confirmCode.getD "") ∨ confirmCode.getD "" ≠ r.compareCode
      · have happrove : approve pf cfg now draw requestId role confirmCode store m =
            (.ok none, purgeExpired now m, store) := by
          simp only [approve, hr, if_neg (not_not_intro hpend), if_pos hcode]
        rw [happrove]
        exact .inl ⟨by simp, rfl⟩
      · obtain ⟨hget, hlive⟩ := Option.filter_eq_some_iff.mp (get?_purgeExpired.symm.trans hr)
        have hconfirm : confirmCode = some r.compareCode := by
          obtain ⟨htruthy, heq⟩ := not_or.mp hcode
          cases confirmCode with
          | none => simp [truthy] at htruthy
          | some code => exact congrArg some (not_not.mp heq)
        rcases hadd : Devices.add pf draw r.requesterName role { deviceKey := r.deviceKey } store with
          ⟨e | device, store'⟩
        · have happrove : approve pf cfg now draw requestId role confirmCode store m =
              (.error e, purgeExpired now m, store') := by
            simp only [approve, hr, if_neg (not_not_intro hpend), if_neg hcode, hadd]
          rw [happrove]
          exact .inl ⟨by simp, rfl⟩
        · have hdevice : device = (draw.deviceId, draw.token) := Devices.add_ok (congrArg Prod.fst hadd)
          subst hdevice
          refine .inr ⟨r, hget, hpend, by simpa using hlive, hconfirm, ?_, ?_⟩ <;>
            simp only [approve, hr, if_neg (not_not_intro hpend), if_neg hcode, hadd, approvedRequest]
    · exact .inl (by simp [approve, hr, hpend])

theorem minted_eq_some {device token : String} (h : minted pf cfg m op = some (id, device, token)) :
    ∃ r now draw role store, op = .approve now draw id role (some r.compareCode) store ∧
      m.get? id = some r ∧ r.status = .pending ∧ now < r.expiresAt ∧ device = draw.deviceId ∧
      token = draw.token ∧ (step pf cfg m op).get? id = some (approvedRequest cfg now draw r) := by
  cases op with
  | approve now draw requestId role confirmCode store =>
    unfold minted at h
    dsimp only at h
    rcases approve_cases now draw requestId role confirmCode store m with
      ⟨hnone, -⟩ | ⟨r, hget, hpend, hlive, hconfirm, hok, hnext⟩
    · split at h
      · rename_i device' hdevice
        exact absurd hdevice (hnone device')
      · cases h
    · rw [hok] at h
      cases h
      refine ⟨r, now, draw, role, store, by rw [hconfirm], hget, hpend, hlive, rfl, rfl, ?_⟩
      rw [step, hnext, Dict.get?_set_self]
  | _ => cases h

theorem requestStep_approve (now : ℤ) (draw : Devices.Draw) (requestId role : String)
    (confirmCode : Option String) (store : DeviceStore) :
    RequestStep pf cfg m (.approve now draw requestId role confirmCode store) id (m.get? id)
      ((approve pf cfg now draw requestId role confirmCode store m).2.1.get? id) := by
  rcases approve_cases now draw requestId role confirmCode store m with
    ⟨-, hnext⟩ | ⟨r, hget, hpend, hlive, hconfirm, hok, hnext⟩
  · rw [hnext]
    exact .of_fewer (fewer_purgeExpired now m)
  · rw [hnext]
    by_cases hid : id = requestId
    · subst hid
      rw [Dict.get?_set_self, hget]
      refine .approved r now draw role store (by rw [hconfirm]) hpend hlive ?_
      rw [minted, hok]
    · rw [Dict.get?_set_ne _ hid]
      exact .of_fewer (fewer_purgeExpired now m)

theorem requestStep_deny (requestId : String) :
    RequestStep pf cfg m (.deny requestId) id (m.get? id) ((deny requestId m).2.get? id) := by
  unfold deny
  split
  · exact .kept _
  · rename_i r hr
    split
    · exact .kept _
    · rename_i hpend
      by_cases hid : id = requestId
      · subst hid
        rw [Dict.get?_set_self, hr]
        exact .denied r rfl (not_not.mp hpend)
      · rw [Dict.get?_set_ne _ hid]
        exact .kept _

theorem get?_deny {requestId : String} (h : (deny requestId m).1 = true) :
    ∃ r, (deny requestId m).2.get? requestId = some r ∧ r.status = .denied := by
  unfold deny at h ⊢
  split
  · rename_i hr
    rw [hr] at h
    cases h
  · rename_i r hr
    rw [hr] at h
    dsimp only at h
    split
    · rename_i hpend
      rw [if_pos hpend] at h
      cases h
    · exact ⟨_, Dict.get?_set_self _ _ _, rfl⟩

theorem poll_snd (now : ℤ) (requestId : String) (m : PairApprovalManager) :
    (poll now requestId m).2 = purgeExpired now m := by
  unfold poll
  dsimp only
  split
  · rfl
  · split <;> rfl

theorem requestStep (pf : Devices.Platform) (cfg : Config) (m : PairApprovalManager) (op : Op) (id : String) :
    RequestStep pf cfg m op id (m.get? id) ((step pf cfg m op).get? id) := by
  cases op with
  | create now requestId draw requesterName sourceIp platform reportedFp deviceKey =>
    exact requestStep_create ..
  | poll now requestId =>
    rw [step, poll_snd]
    exact .of_fewer (fewer_purgeExpired now m)
  | listPending now => exact .of_fewer (fewer_purgeExpired now m)
  | approve now draw requestId role confirmCode store => exact requestStep_approve ..
  | deny requestId => exact requestStep_deny requestId

theorem handedOut_eq_some {device token : Option String}
    (h : handedOut m op = some (id, device, token)) :
    ∃ r now, op = .poll now id ∧ m.get? id = some r ∧ r.status = .approved ∧ now < r.expiresAt ∧
      device = r.deviceId ∧ token = r.token := by
  cases op with
  | poll now requestId =>
    simp only [handedOut, poll] at h
    cases hr : (purgeExpired now m).get? requestId with
    | none =>
      rw [hr] at h
      cases h
    | some r =>
      obtain ⟨hget, hlive⟩ := Option.filter_eq_some_iff.mp (get?_purgeExpired.symm.trans hr)
      rw [hr] at h
      cases hstatus : r.status with
      | approved =>
        simp only [hstatus] at h
        cases h
        exact ⟨r, now, rfl, hget, hstatus, by simpa using hlive, rfl, rfl⟩
      | denied =>
        simp only [hstatus] at h
        cases h
      | pending =>
        simp only [hstatus] at h
        cases h
  | _ => cases h

theorem shown_eq_some (pf : Devices.Platform) {code : String} (h : shown cfg m op = some (id, code)) :
    ∃ r, (step pf cfg m op).get? id = some r ∧ r.status = .pending ∧ r.compareCode = code := by
  cases op with
  | create now requestId draw requesterName sourceIp platform reportedFp deviceKey =>
    simp only [shown] at h
    rcases create_cases now requestId draw requesterName sourceIp platform reportedFp deviceKey m with
      ⟨-, hcreate⟩ | ⟨-, ⟨e, hcreate⟩ | ⟨-, ⟨e, hcreate⟩ | ⟨r, hpend, hcreate⟩⟩⟩
    · rw [hcreate] at h
      cases h
    · rw [hcreate] at h
      cases h
    · rw [hcreate] at h
      cases h
    · rw [hcreate] at h
      cases h
      refine ⟨r, ?_, hpend, rfl⟩
      rw [step, hcreate, Dict.get?_set_self]
  | _ => cases h

/-- A reading behind the expiry takes the request away. -/
theorem get?_step_of_expired {r : PairRequest} (hreading : op.reading = some now)
    (hget : m.get? id = some r) (hexp : r.expiresAt ≤ now) (hshown : ∀ code, shown cfg m op ≠ some (id, code)) :
    (step pf cfg m op).get? id = none := by
  have hpurge : (purgeExpired now m).get? id = none := by
    rw [get?_purgeExpired, hget]
    simpa [Option.filter] using hexp
  -- after its purge a create only drops requests, but for the one it opens
  have hgone : ∀ {m'}, Fewer (purgeExpired now m) m' → m'.get? id = none := by
    intro m' hfewer
    rcases hfewer id with hsame | hnone
    · rw [hsame, hpurge]
    · exact hnone
  cases op with
  | create now' requestId draw requesterName sourceIp platform reportedFp deviceKey =>
    rw [Op.reading, Option.ite_none_right_eq_some] at hreading
    obtain ⟨hname, hnow⟩ := hreading
    cases hnow
    rw [step]
    rcases create_cases now requestId draw requesterName sourceIp platform reportedFp deviceKey m with
      ⟨hblank, -⟩ | ⟨-, ⟨e, hcreate⟩ | ⟨-, ⟨e, hcreate⟩ | ⟨r', -, hcreate⟩⟩⟩
    · rw [hblank] at hname
      cases hname
    · rw [hcreate]
      exact hgone (fewer_evictOldest _ _ _ _)
    · rw [hcreate]
      exact hgone ((fewer_evictOldest _ _ _ _).trans (fewer_evictOldest _ _ _ _))
    · have hne : id ≠ requestId := by
        rintro rfl
        apply hshown r'.compareCode
        rw [shown, hcreate]
        rfl
      rw [hcreate, Dict.get?_set_ne _ hne]
      exact hgone ((fewer_evictOldest _ _ _ _).trans (fewer_evictOldest _ _ _ _))
  | poll now' requestId =>
    cases hreading
    rw [step, poll_snd]
    exact hpurge
  | listPending now' =>
    cases hreading
    exact hpurge
  | approve now' draw requestId role confirmCode store =>
    cases hreading
    rw [step]
    rcases approve_cases now draw requestId role confirmCode store m with
      ⟨-, hnext⟩ | ⟨r', hget', -, hlive, -, -, hnext⟩
    · rw [hnext]
      exact hpurge
    · have hne : id ≠ requestId := Dict.ne_of_get? hget hget' fun h => absurd hlive (not_lt.mpr (h ▸ hexp))
      rw [hnext, Dict.get?_set_ne _ hne]
      exact hpurge
  | deny requestId => cases hreading

/-! ## One request over a run -/

variable {ops : List Op}

/-- A request that is not pending is never minted for. -/
theorem mintedFor_eq_nil (hsettled : ∀ r, m.get? id = some r → r.status ≠ .pending)
    (h : shownFor pf cfg id m ops = []) : mintedFor pf cfg id m ops = [] := by
  induction ops generalizing m with
  | nil => rfl
  | cons op ops ih =>
    obtain ⟨hshown, hrest⟩ := outputsFor_cons_eq_nil h
    have hnone : ∀ credential, minted pf cfg m op ≠ some (id, credential) := by
      rintro ⟨device, token⟩ hmint
      obtain ⟨r, -, -, -, -, -, hget, hpend, -⟩ := minted_eq_some hmint
      exact hsettled r hget hpend
    rw [mintedFor, outputsFor_cons_of_none hnone]
    refine ih (fun r hr => ?_) hrest
    have hstep := requestStep pf cfg m op id
    rw [hr] at hstep
    cases hm : m.get? id with
    | none =>
      rw [hm] at hstep
      cases hstep with
      | opened _ _ hshown' _ => exact absurd hshown' (hshown _)
    | some r₀ =>
      rw [hm] at hstep
      cases hstep with
      | kept => exact hsettled r hm
      | opened _ _ hshown' _ => exact absurd hshown' (hshown _)
      | approved _ _ _ _ _ _ hpend => exact absurd hpend (hsettled r₀ hm)
      | denied _ _ hpend => exact absurd hpend (hsettled r₀ hm)

/-- A request that is denied or gone hands nothing out any more. -/
theorem handedFor_eq_nil (hdead : ∀ r, m.get? id = some r → r.status = .denied)
    (h : shownFor pf cfg id m ops = []) : handedFor pf cfg id m ops = [] := by
  induction ops generalizing m with
  | nil => rfl
  | cons op ops ih =>
    obtain ⟨hshown, hrest⟩ := outputsFor_cons_eq_nil h
    have hnone : ∀ credential, handedOut m op ≠ some (id, credential) := by
      rintro ⟨device, token⟩ hhand
      obtain ⟨r, -, -, hget, happroved, -⟩ := handedOut_eq_some hhand
      rw [hdead r hget] at happroved
      cases happroved
    rw [handedFor, outputsFor_cons_of_none hnone]
    refine ih (fun r hr => ?_) hrest
    have hstep := requestStep pf cfg m op id
    rw [hr] at hstep
    cases hm : m.get? id with
    | none =>
      rw [hm] at hstep
      cases hstep with
      | opened _ _ hshown' _ => exact absurd hshown' (hshown _)
    | some r₀ =>
      have hr₀ := hdead r₀ hm
      rw [hm] at hstep
      cases hstep with
      | kept => exact hr₀
      | opened _ _ hshown' _ => exact absurd hshown' (hshown _)
      | approved _ _ _ _ _ _ hpend => simp [hr₀] at hpend
      | denied => rfl

/-- A request mints at most once until its id is drawn again. -/
theorem mintedFor_le_one (h : shownFor pf cfg id m ops = []) :
    (mintedFor pf cfg id m ops).length ≤ 1 := by
  induction ops generalizing m with
  | nil => exact Nat.zero_le _
  | cons op ops ih =>
    obtain ⟨hshown, hrest⟩ := outputsFor_cons_eq_nil h
    by_cases hmint : ∃ credential, minted pf cfg m op = some (id, credential)
    · obtain ⟨⟨device, token⟩, hmint⟩ := hmint
      obtain ⟨r, now, draw, -, -, -, -, -, -, -, -, hnext⟩ := minted_eq_some hmint
      have hafter : mintedFor pf cfg id (step pf cfg m op) ops = [] := by
        refine mintedFor_eq_nil (fun r' hr' => ?_) hrest
        rw [hnext] at hr'
        cases hr'
        exact nofun
      rw [mintedFor] at hafter ⊢
      rw [outputsFor_cons_of_some hmint, hafter]
      exact le_rfl
    · rw [mintedFor, outputsFor_cons_of_none fun credential hc => hmint ⟨credential, hc⟩]
      exact ih hrest

/-- A request that is denied hands out and mints nothing, unless its id is drawn again. -/
theorem nothing_after_deny (hdeny : (deny id m).1 = true)
    (hquiet : shownFor pf cfg id (step pf cfg m (.deny id)) ops = []) :
    handedFor pf cfg id (step pf cfg m (.deny id)) ops = [] ∧
      mintedFor pf cfg id (step pf cfg m (.deny id)) ops = [] := by
  obtain ⟨r, hget, hdenied⟩ := get?_deny hdeny
  have hall : ∀ r', (step pf cfg m (.deny id)).get? id = some r' → r'.status = .denied := by
    intro r' hr'
    rw [step, hget] at hr'
    cases hr'
    exact hdenied
  refine ⟨handedFor_eq_nil hall hquiet, mintedFor_eq_nil (fun r' hr' => ?_) hquiet⟩
  rw [hall r' hr']
  exact nofun

/-- From the first call that reads the clock behind its deadline, a request hands out and mints nothing,
unless its id is drawn again. -/
theorem nothing_after_expiry {r : PairRequest} (hreading : op.reading = some now) (hget : m.get? id = some r)
    (hexp : r.expiresAt ≤ now) (hquiet : shownFor pf cfg id m (op :: ops) = []) :
    handedFor pf cfg id m (op :: ops) = [] ∧ mintedFor pf cfg id m (op :: ops) = [] := by
  obtain ⟨hshown, hrest⟩ := outputsFor_cons_eq_nil hquiet
  have hlive : ∀ r', m.get? id = some r' → ¬ now < r'.expiresAt := by
    intro r' hr'
    rw [hget] at hr'
    cases hr'
    exact not_lt.mpr hexp
  have hgone : (step pf cfg m op).get? id = none := get?_step_of_expired hreading hget hexp hshown
  constructor
  · have hnone : ∀ credential, handedOut m op ≠ some (id, credential) := by
      rintro ⟨device, token⟩ hhand
      obtain ⟨r', now', rfl, hget', -, hlt, -⟩ := handedOut_eq_some hhand
      cases hreading
      exact hlive r' hget' hlt
    rw [handedFor, outputsFor_cons_of_none hnone]
    refine handedFor_eq_nil (fun r' hr' => ?_) hrest
    cases hgone.symm.trans hr'
  · have hnone : ∀ credential, minted pf cfg m op ≠ some (id, credential) := by
      rintro ⟨device, token⟩ hmint
      obtain ⟨r', now', draw, role, store, rfl, hget', -, hlt, -⟩ := minted_eq_some hmint
      cases hreading
      exact hlive r' hget' hlt
    rw [mintedFor, outputsFor_cons_of_none hnone]
    refine mintedFor_eq_nil (fun r' hr' => ?_) hrest
    cases hgone.symm.trans hr'

end

/-- Where a request comes from: the call that showed its number, and, once it is approved, the
approval that was given that number while it was pending and unexpired. -/
def Lineage (id : String) (is : List Op) (r : PairRequest) : Prop :=
  ∃ p₁ ask p₂, is = p₁ ++ ask :: p₂ ∧
    shown cfg (finish (step pf cfg) Dict.empty p₁) ask = some (id, r.compareCode) ∧
    shownFor pf cfg id (finish (step pf cfg) Dict.empty (p₁ ++ [ask])) p₂ = [] ∧
    (r.status = .approved → ∃ q₁ now draw role store q₂ r₀,
      p₂ = q₁ ++ .approve now draw id role (some r.compareCode) store :: q₂ ∧
      (finish (step pf cfg) Dict.empty (p₁ ++ ask :: q₁)).get? id = some r₀ ∧
      r₀.status = .pending ∧ now < r₀.expiresAt ∧
      minted pf cfg (finish (step pf cfg) Dict.empty (p₁ ++ ask :: q₁))
        (.approve now draw id role (some r.compareCode) store) = some (id, draw.deviceId, draw.token) ∧
      r.deviceId = some draw.deviceId ∧ r.token = some draw.token)

section
variable {pf cfg} {id : String} {is : List Op} {r r' : PairRequest} {op : Op}

/-- A call that shows no number for the id lengthens the history of its request. -/
theorem Lineage.append (h : Lineage pf cfg id is r)
    (hshown : ∀ code, shown cfg (finish (step pf cfg) Dict.empty is) op ≠ some (id, code))
    (hcode : r'.compareCode = r.compareCode)
    (hsame : r'.status = .approved → r.status = .approved ∧ r'.deviceId = r.deviceId ∧ r'.token = r.token) :
    Lineage pf cfg id (is ++ [op]) r' := by
  obtain ⟨p₁, ask, p₂, rfl, hask, hquiet, happroved⟩ := h
  refine ⟨p₁, ask, p₂ ++ [op], by simp, by rw [hcode]; exact hask, ?_, fun hr' => ?_⟩
  · rw [shownFor, outputsFor_append, ← shownFor, hquiet, List.nil_append,
      outputsFor_cons_of_none]
    · rfl
    · rw [← finish_append, List.append_assoc, List.singleton_append]
      exact hshown
  · obtain ⟨hr, hdevice, htoken⟩ := hsame hr'
    obtain ⟨q₁, now, draw, role, store, q₂, r₀, rfl, hrest⟩ := happroved hr
    refine ⟨q₁, now, draw, role, store, q₂ ++ [op], r₀, by simp [hcode], ?_⟩
    rw [hcode, hdevice, htoken]
    exact hrest

theorem lineage (id : String) (is : List Op) :
    ∀ r, (finish (step pf cfg) Dict.empty is).get? id = some r → Lineage pf cfg id is r := by
  refine history_induction
    (R := fun is (m : PairApprovalManager) => ∀ r, m.get? id = some r → Lineage pf cfg id is r)
    (fun r hr => ?_) (fun is op ih r' hr' => ?_) is
  · cases hr
  set m := finish (step pf cfg) Dict.empty is with hm
  -- the number is shown by this step, or the request has its lineage from before
  by_cases hshown : ∃ code, shown cfg m op = some (id, code)
  · obtain ⟨code, hcode⟩ := hshown
    obtain ⟨r, hget, hpend, heq⟩ := shown_eq_some pf hcode
    rw [hr'] at hget
    cases hget
    refine ⟨is, op, [], rfl, by rw [heq]; exact hcode, rfl, fun happroved => ?_⟩
    rw [hpend] at happroved
    cases happroved
  · have hquiet : ∀ code, shown cfg m op ≠ some (id, code) := fun code hc => hshown ⟨code, hc⟩
    have hstep := requestStep pf cfg m op id
    rw [hr'] at hstep
    cases hget : m.get? id with
    | none =>
      rw [hget] at hstep
      cases hstep with
      | opened _ _ hshown' _ => exact absurd hshown' (hquiet _)
    | some r =>
      rw [hget] at hstep
      have hline := ih r hget
      cases hstep with
      | kept => exact hline.append hquiet rfl fun h => ⟨h, rfl, rfl⟩
      | opened _ _ hshown' _ => exact absurd hshown' (hquiet _)
      | denied => exact hline.append hquiet rfl fun h => nomatch h
      | approved _ now draw role store hop hpend hlive hmint =>
        subst hop
        obtain ⟨p₁, ask, p₂, rfl, hask, hquiet', -⟩ := hline
        refine ⟨p₁, ask, p₂ ++ [.approve now draw id role (some r.compareCode) store], by simp, hask, ?_,
          fun _ => ?_⟩
        · rw [shownFor, outputsFor_append, ← shownFor, hquiet', List.nil_append,
            outputsFor_cons_of_none]
          · rfl
          · exact nofun
        · exact ⟨p₂, now, draw, role, store, [], r, rfl, hget, hpend, hlive, hmint, rfl, rfl⟩

end

/-- A poll hands out a credential only for a request that was approved with the number shown for it,
while it was pending and unexpired, and it is the credential minted then. A request mints at most
once; a denied one and one whose expiry the clock has passed hand nothing out. -/
theorem credential_needs_approval (ops : List Op) :
    (∀ pre op post id device token, ops = pre ++ op :: post →
        handedOut (finish (step pf cfg) Dict.empty pre) op = some (id, device, token) →
        ∃ p₁ ask p₂ now draw role code store p₃ r,
          pre = p₁ ++ ask :: (p₂ ++ .approve now draw id role (some code) store :: p₃) ∧
          shown cfg (finish (step pf cfg) Dict.empty p₁) ask = some (id, code) ∧
          shownFor pf cfg id (finish (step pf cfg) Dict.empty (p₁ ++ [ask]))
            (p₂ ++ .approve now draw id role (some code) store :: p₃) = [] ∧
          (finish (step pf cfg) Dict.empty (p₁ ++ ask :: p₂)).get? id = some r ∧
          r.status = .pending ∧ now < r.expiresAt ∧
          minted pf cfg (finish (step pf cfg) Dict.empty (p₁ ++ ask :: p₂))
            (.approve now draw id role (some code) store) = some (id, draw.deviceId, draw.token) ∧
          device = some draw.deviceId ∧ token = some draw.token) ∧
      (∀ pre ask post id code, ops = pre ++ ask :: post →
        shown cfg (finish (step pf cfg) Dict.empty pre) ask = some (id, code) →
        shownFor pf cfg id (finish (step pf cfg) Dict.empty (pre ++ [ask])) post = [] →
        (mintedFor pf cfg id (finish (step pf cfg) Dict.empty (pre ++ [ask])) post).length ≤ 1) ∧
      (∀ pre post id, ops = pre ++ .deny id :: post →
        (deny id (finish (step pf cfg) Dict.empty pre)).1 = true →
        shownFor pf cfg id (finish (step pf cfg) Dict.empty (pre ++ [.deny id])) post = [] →
        handedFor pf cfg id (finish (step pf cfg) Dict.empty (pre ++ [.deny id])) post = [] ∧
          mintedFor pf cfg id (finish (step pf cfg) Dict.empty (pre ++ [.deny id])) post = []) ∧
      (∀ pre op post id r now, ops = pre ++ op :: post → op.reading = some now →
        (finish (step pf cfg) Dict.empty pre).get? id = some r → r.expiresAt ≤ now →
        shownFor pf cfg id (finish (step pf cfg) Dict.empty pre) (op :: post) = [] →
        handedFor pf cfg id (finish (step pf cfg) Dict.empty pre) (op :: post) = [] ∧
          mintedFor pf cfg id (finish (step pf cfg) Dict.empty pre) (op :: post) = []) := by
  refine ⟨?_, fun pre ask post id code _ _ hquiet => mintedFor_le_one hquiet, ?_, ?_⟩
  · -- what is handed out is in an approved request, and its lineage has the approval
    rintro pre op post id device token rfl hhand
    obtain ⟨r, now, rfl, hget, happroved, -, hdevice, htoken⟩ := handedOut_eq_some hhand
    obtain ⟨p₁, ask, p₂, rfl, hask, hquiet, horigin⟩ := lineage id pre r hget
    obtain ⟨q₁, t, draw, role, store, q₂, r₀, rfl, hfound, hpend, hlive, hmint, hd, ht⟩ := horigin happroved
    exact ⟨p₁, ask, q₁, t, draw, role, r.compareCode, store, q₂, r₀, rfl, hask, hquiet, hfound, hpend,
      hlive, hmint, hdevice.trans hd, htoken.trans ht⟩
  · rintro pre post id rfl hdeny hquiet
    rw [finish_append, finish_cons, finish_nil] at hquiet ⊢
    exact nothing_after_deny hdeny hquiet
  · rintro pre op post id r now rfl hreading hget hexp hquiet
    exact nothing_after_expiry hreading hget hexp hquiet

end Wavr.PairRequests
