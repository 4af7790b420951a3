import Wavr.Devices
import Wavr.SlidingWindow
import Wavr.Timebase

/-!
# Pairing codes

`PairingManager`: one-time pairing codes, WebSocket tickets and the brake on failed attempts. The
device store is another component's: a redeem takes it as it finds it.
-/

namespace Wavr.Pairing
open Devices (DeviceStore StoreError invalidRole stripped supersedeSameDevice)
open Run SlidingWindow Text Timebase

/-- The parameters of the constructor, in seconds. -/
structure Config where
  codeTtl : ℚ
  ticketTtl : ℚ
  maxFailed : ℤ
  attemptWindow : ℚ

def defaults : Config := ⟨120, 30, 10, 60⟩

structure PendingCode where
  role : String
  expiresAt : ℤ
  sessionExpiresAt : Option ℤ
  deriving DecidableEq

structure PendingTicket where
  deviceId : String
  expiresAt : ℤ
  deriving DecidableEq

structure PairingManager where
  codes : Dict String PendingCode
  tickets : Dict String PendingTicket
  failed : Dict String (List ℤ)
  deriving DecidableEq

def fresh : PairingManager := ⟨.empty, .empty, .empty⟩

/-- `f"{secrets.randbelow(100_000_000):08d}"`. -/
def codeText (draw : Fin 100000000) : String :=
  let digits := Nat.toDigits 10 draw.val
  String.ofList (List.replicate (8 - digits.length) '0' ++ digits)

/-- Ten draws to find a code that is not live, and one that is taken as it comes. -/
def freshCode (draw : ℕ → Fin 100000000) (m : PairingManager) : String :=
  (((List.range 10).map fun i => codeText (draw i)).find? fun code => (m.codes.get? code).isNone).getD
    (codeText (draw 10))

def purgeExpired (now : ℤ) (m : PairingManager) : PairingManager :=
  { m with
    codes := m.codes.filter fun _ v => now < v.expiresAt
    tickets := m.tickets.filter fun _ v => now < v.expiresAt }

variable (pf : Devices.Platform) (cfg : Config)

def purgeFailed (now : ℤ) (m : PairingManager) : PairingManager :=
  { m with failed := purge (now - micros cfg.attemptWindow) m.failed }

/-- The clock is read once to purge and once for the new code. -/
def mintCode (purgeNow now : ℤ) (draw : ℕ → Fin 100000000) (role : String) (m : PairingManager) :
    Except StoreError String × PairingManager :=
  if role ∉ Devices.VALID_ROLES then (.error (invalidRole pf role), m)
  else
    let m := purgeExpired purgeNow m
    let code := freshCode draw m
    (.ok code, { m with codes := m.codes.set code ⟨role, now + micros cfg.codeTtl, none⟩ })

def mintGuestCode (purgeNow now : ℤ) (draw : ℕ → Fin 100000000) (hours : ℚ) (m : PairingManager) :
    Except StoreError String × PairingManager :=
  if hours ≤ 0 then (.error (.valueError "guest invite hours must be positive"), m)
  else
    let m := purgeExpired purgeNow m
    let code := freshCode draw m
    (.ok code, { m with
      codes := m.codes.set code ⟨"guest", now + micros cfg.codeTtl, some (now + micros (hours * 3600))⟩ })

/-- Over the cap of failed attempts, after a purge. -/
def overCap (key : String) (m : PairingManager) : Bool := cfg.maxFailed ≤ (stamps key m.failed).length

def isThrottled (now : ℤ) (sourceIp : Option String) (m : PairingManager) : Bool × PairingManager :=
  let m := purgeFailed cfg now m
  (overCap cfg (sourceIp.getD "") m, m)

/-- The id and token of the new device, `none` where the code is refused. -/
def redeem (now : ℤ) (draw : Devices.Draw) (code name : String) (sourceIp deviceKey : Option String)
    (store : DeviceStore) (m : PairingManager) :
    Except StoreError (Option (String × String)) × PairingManager × DeviceStore :=
  let m := purgeFailed cfg now m
  let key := sourceIp.getD ""
  if overCap cfg key m then (.ok none, m, store)
  else
    let pending := m.codes.get? code
    let m := { m with codes := m.codes.erase code }
    match pending.filter fun p => now < p.expiresAt with
    | none => (.ok none, { m with failed := record key now m.failed }, store)
    | some pending =>
      let chave := stripped deviceKey
      match Devices.add pf draw name pending.role
        { expiresAt := pending.sessionExpiresAt.map pf.isoformat, deviceKey := chave } store with
      | (.error e, store) => (.error e, m, store)
      | (.ok (deviceId, token), store) =>
        -- the older credentials go only when the new one is there
        match chave with
        | none => (.ok (some (deviceId, token)), m, store)
        | some chave => (.ok (some (deviceId, token)), m, (supersedeSameDevice chave deviceId store).2)

def mintTicket (purgeNow now : ℤ) (ticket deviceId : String) (m : PairingManager) :
    String × PairingManager :=
  let m := purgeExpired purgeNow m
  (ticket, { m with tickets := m.tickets.set ticket ⟨deviceId, now + micros cfg.ticketTtl⟩ })

def redeemTicket (now : ℤ) (ticket : String) (m : PairingManager) : Option String × PairingManager :=
  (((m.tickets.get? ticket).filter fun p => now < p.expiresAt).map PendingTicket.deviceId,
    { m with tickets := m.tickets.erase ticket })

/-- The calls of a manager, with the readings of the clock, the draws and the store as it is found. -/
inductive Op
  | mintCode (purgeNow now : ℤ) (draw : ℕ → Fin 100000000) (role : String)
  | mintGuestCode (purgeNow now : ℤ) (draw : ℕ → Fin 100000000) (hours : ℚ)
  | isThrottled (now : ℤ) (sourceIp : Option String)
  | redeem (now : ℤ) (draw : Devices.Draw) (code name : String) (sourceIp deviceKey : Option String)
      (store : DeviceStore)
  | mintTicket (purgeNow now : ℤ) (ticket deviceId : String)
  | redeemTicket (now : ℤ) (ticket : String)

def step (m : PairingManager) : Op → PairingManager
  | .mintCode purgeNow now draw role => (mintCode pf cfg purgeNow now draw role m).2
  | .mintGuestCode purgeNow now draw hours => (mintGuestCode cfg purgeNow now draw hours m).2
  | .isThrottled now sourceIp => (isThrottled cfg now sourceIp m).2
  | .redeem now draw code name sourceIp deviceKey store =>
    (redeem pf cfg now draw code name sourceIp deviceKey store m).2.1
  | .mintTicket purgeNow now ticket deviceId => (mintTicket cfg purgeNow now ticket deviceId m).2
  | .redeemTicket now ticket => (redeemTicket now ticket m).2

/-- The readings of the clock, in order. -/
def Op.readings : Op → List ℤ
  | .mintCode purgeNow now .. => [purgeNow, now]
  | .mintGuestCode purgeNow now .. => [purgeNow, now]
  | .isThrottled now _ => [now]
  | .redeem now .. => [now]
  | .mintTicket purgeNow now .. => [purgeNow, now]
  | .redeemTicket now _ => [now]

/-- The code that a call issues, with its expiry. -/
def issued (m : PairingManager) : Op → Option (String × ℤ)
  | .mintCode purgeNow now draw role =>
    (mintCode pf cfg purgeNow now draw role m).1.toOption.map fun code => (code, now + micros cfg.codeTtl)
  | .mintGuestCode purgeNow now draw hours =>
    (mintGuestCode cfg purgeNow now draw hours m).1.toOption.map fun code =>
      (code, now + micros cfg.codeTtl)
  | _ => none

/-- The code that a call redeems, with its clock. -/
def redeemed (m : PairingManager) : Op → Option (String × ℤ)
  | .redeem now draw code name sourceIp deviceKey store =>
    match (redeem pf cfg now draw code name sourceIp deviceKey store m).1 with
    | .ok (some _) => some (code, now)
    | _ => none
  | _ => none

/-- The host of the call is over the cap. -/
def throttled (now : ℤ) (key : String) (m : PairingManager) : Bool := overCap cfg key (purgeFailed cfg now m)

/-- The host whose check of a code fails, with the clock. -/
def failedCheck (m : PairingManager) : Op → Option (String × ℤ)
  | .redeem now draw code name sourceIp deviceKey store =>
    if throttled cfg now (sourceIp.getD "") m then none
    else
      match (redeem pf cfg now draw code name sourceIp deviceKey store m).1 with
      | .ok none => some (sourceIp.getD "", now)
      | _ => none
  | _ => none

/-- The expiries that the code is issued with. -/
def issuesOf (code : String) (m : PairingManager) (ops : List Op) : List ℤ :=
  outputsFor (step pf cfg) (issued pf cfg) code m ops

/-- When the code is redeemed. -/
def usesOf (code : String) (m : PairingManager) (ops : List Op) : List ℤ :=
  outputsFor (step pf cfg) (redeemed pf cfg) code m ops

/-- When the checks of the host fail. -/
def failuresOf (key : String) (m : PairingManager) (ops : List Op) : List ℤ :=
  outputsFor (step pf cfg) (failedCheck pf cfg) key m ops

/-! ## What a redeem does -/

section
variable {pf cfg} {m : PairingManager} {op : Op} {now : ℤ} {draw : Devices.Draw} {code name : String}
variable {sourceIp deviceKey : Option String} {store : DeviceStore}

theorem redeem_throttled (h : throttled cfg now (sourceIp.getD "") m = true) :
    redeem pf cfg now draw code name sourceIp deviceKey store m =
      (.ok none, purgeFailed cfg now m, store) := by
  unfold redeem
  exact if_pos h

theorem redeem_failed (h : throttled cfg now (sourceIp.getD "") m = false)
    (hcode : (m.codes.get? code).filter (fun p => now < p.expiresAt) = none) :
    redeem pf cfg now draw code name sourceIp deviceKey store m =
      (.ok none,
        { purgeFailed cfg now m with
          codes := m.codes.erase code
          failed := record (sourceIp.getD "") now (purgeFailed cfg now m).failed }, store) := by
  have hover : overCap cfg (sourceIp.getD "") (purgeFailed cfg now m) = false := h
  have hpending : ((purgeFailed cfg now m).codes.get? code).filter (fun p => now < p.expiresAt) = none := hcode
  simp only [redeem, hover, hpending]
  rfl

/-- A code that is found is consumed, also where the store refuses the device. -/
theorem redeem_hit (h : throttled cfg now (sourceIp.getD "") m = false) {pending : PendingCode}
    (hcode : (m.codes.get? code).filter (fun p => now < p.expiresAt) = some pending) :
    (redeem pf cfg now draw code name sourceIp deviceKey store m).1 ≠ .ok none ∧
      (redeem pf cfg now draw code name sourceIp deviceKey store m).2.1 =
        { purgeFailed cfg now m with codes := m.codes.erase code } := by
  have hover : overCap cfg (sourceIp.getD "") (purgeFailed cfg now m) = false := h
  have hpending : ((purgeFailed cfg now m).codes.get? code).filter (fun p => now < p.expiresAt) =
      some pending := hcode
  simp only [redeem, hover, hpending]
  cases hadd : Devices.add pf draw name pending.role
      { expiresAt := pending.sessionExpiresAt.map pf.isoformat, deviceKey := stripped deviceKey } store with
  | mk added store' =>
    cases added with
    | error e => exact ⟨by simp, rfl⟩
    | ok device =>
      cases stripped deviceKey with
      | none => exact ⟨by simp, rfl⟩
      | some chave => exact ⟨by simp, rfl⟩

theorem failedCheck_throttled (h : throttled cfg now (sourceIp.getD "") m = true) :
    failedCheck pf cfg m (.redeem now draw code name sourceIp deviceKey store) = none := by
  simp only [failedCheck, h, if_true]

theorem failedCheck_failed (h : throttled cfg now (sourceIp.getD "") m = false)
    (hcode : (m.codes.get? code).filter (fun p => now < p.expiresAt) = none) :
    failedCheck pf cfg m (.redeem now draw code name sourceIp deviceKey store) =
      some (sourceIp.getD "", now) := by
  simp only [failedCheck, h, redeem_failed h hcode]
  rfl

theorem failedCheck_hit (h : throttled cfg now (sourceIp.getD "") m = false) {pending : PendingCode}
    (hcode : (m.codes.get? code).filter (fun p => now < p.expiresAt) = some pending) :
    failedCheck pf cfg m (.redeem now draw code name sourceIp deviceKey store) = none := by
  simp only [failedCheck]
  rw [if_neg (by simp [h])]
  split
  · rename_i hnone
    exact absurd hnone (redeem_hit h hcode).1
  · rfl

theorem redeemed_eq_some {used : String} {t : ℤ} (h : redeemed pf cfg m op = some (used, t)) :
    (∃ pending, m.codes.get? used = some pending ∧ t < pending.expiresAt) ∧
      (step pf cfg m op).codes.get? used = none := by
  cases op with
  | redeem now draw code name sourceIp deviceKey store =>
    unfold redeemed at h
    dsimp only at h
    cases hthr : throttled cfg now (sourceIp.getD "") m with
    | true =>
      rw [redeem_throttled hthr] at h
      cases h
    | false =>
      cases hcode : (m.codes.get? code).filter fun p => now < p.expiresAt with
      | none =>
        rw [redeem_failed hthr hcode] at h
        cases h
      | some pending =>
        split at h
        · cases h
          obtain ⟨hget, hlt⟩ := Option.filter_eq_some_iff.mp hcode
          refine ⟨⟨pending, hget, by simpa using hlt⟩, ?_⟩
          rw [step, (redeem_hit hthr hcode).2]
          simp
        · cases h
  | _ => cases h

/-! ## Codes -/

theorem get?_purgeExpired (c : String) :
    (purgeExpired now m).codes.get? c = (m.codes.get? c).filter fun p => now < p.expiresAt := by
  simp [purgeExpired]

theorem issued_eq_some {expiry : ℤ} (h : issued pf cfg m op = some (code, expiry)) :
    ∃ pending, (step pf cfg m op).codes.get? code = some pending ∧ pending.expiresAt = expiry := by
  cases op with
  | mintCode purgeNow now draw role =>
    simp only [issued, step, mintCode] at h ⊢
    by_cases hrole : role ∈ Devices.VALID_ROLES
    · rw [if_neg (not_not_intro hrole)] at h ⊢
      cases h
      exact ⟨_, Dict.get?_set_self _ _ _, rfl⟩
    · rw [if_pos hrole] at h
      cases h
  | mintGuestCode purgeNow now draw hours =>
    simp only [issued, step, mintGuestCode] at h ⊢
    by_cases hhours : hours ≤ 0
    · rw [if_pos hhours] at h
      cases h
    · rw [if_neg hhours] at h ⊢
      cases h
      exact ⟨_, Dict.get?_set_self _ _ _, rfl⟩
  | _ => cases h

/-- A code stays as it is or goes, unless it is issued. -/
theorem get?_codes_step (c : String) (h : ∀ expiry, issued pf cfg m op ≠ some (c, expiry)) :
    (step pf cfg m op).codes.get? c = m.codes.get? c ∨ (step pf cfg m op).codes.get? c = none := by
  -- the mints purge before they draw, and a redeem takes out the code it was given
  have hpurge : ∀ now, (purgeExpired now m).codes.get? c = m.codes.get? c ∨
      (purgeExpired now m).codes.get? c = none := by
    intro now
    rw [get?_purgeExpired]
    cases m.codes.get? c with
    | none => exact .inl rfl
    | some p => by_cases hp : now < p.expiresAt <;> simp [Option.filter, hp]
  cases op with
  | mintCode purgeNow now draw role =>
    simp only [issued, step, mintCode] at h ⊢
    by_cases hrole : role ∈ Devices.VALID_ROLES
    · rw [if_neg (not_not_intro hrole)] at h ⊢
      have hne : c ≠ freshCode draw (purgeExpired purgeNow m) := by
        rintro rfl
        exact h _ rfl
      rw [Dict.get?_set_ne _ hne]
      exact hpurge purgeNow
    · rw [if_pos hrole]
      exact .inl rfl
  | mintGuestCode purgeNow now draw hours =>
    simp only [issued, step, mintGuestCode] at h ⊢
    by_cases hhours : hours ≤ 0
    · rw [if_pos hhours]
      exact .inl rfl
    · rw [if_neg hhours] at h ⊢
      have hne : c ≠ freshCode draw (purgeExpired purgeNow m) := by
        rintro rfl
        exact h _ rfl
      rw [Dict.get?_set_ne _ hne]
      exact hpurge purgeNow
  | isThrottled now sourceIp => exact .inl rfl
  | redeem now draw code name sourceIp deviceKey store =>
    have herase : (m.codes.erase code).get? c = m.codes.get? c ∨ (m.codes.erase code).get? c = none := by
      rw [Dict.get?_erase]
      split
      · exact .inr rfl
      · exact .inl rfl
    rw [step]
    cases hthr : throttled cfg now (sourceIp.getD "") m with
    | true =>
      rw [redeem_throttled hthr]
      exact .inl rfl
    | false =>
      cases hcode : (m.codes.get? code).filter fun p => now < p.expiresAt with
      | none =>
        rw [redeem_failed hthr hcode]
        exact herase
      | some pending =>
        rw [(redeem_hit hthr hcode).2]
        exact herase
  | mintTicket purgeNow now ticket deviceId => exact hpurge purgeNow
  | redeemTicket now ticket => exact .inl rfl

variable {ops : List Op}

/-- A code that is not there is not redeemed until it is issued. -/
theorem usesOf_eq_nil (hcode : m.codes.get? code = none) (h : issuesOf pf cfg code m ops = []) :
    usesOf pf cfg code m ops = [] := by
  induction ops generalizing m with
  | nil => rfl
  | cons op ops ih =>
    obtain ⟨hissue, hrest⟩ := outputsFor_cons_eq_nil h
    have hnone : ∀ t, redeemed pf cfg m op ≠ some (code, t) := by
      intro t huse
      obtain ⟨⟨pending, hget, -⟩, -⟩ := redeemed_eq_some huse
      rw [hcode] at hget
      cases hget
    rw [usesOf, outputsFor_cons_of_none hnone]
    refine ih ?_ hrest
    rcases get?_codes_step code hissue with hsame | hgone
    · rw [hsame, hcode]
    · exact hgone

/-- A code that is there is redeemed at most once, before it expires, until it is issued again. -/
theorem usesOf_le_one {pending : PendingCode} (hcode : m.codes.get? code = some pending)
    (h : issuesOf pf cfg code m ops = []) :
    (usesOf pf cfg code m ops).length ≤ 1 ∧ ∀ t ∈ usesOf pf cfg code m ops, t < pending.expiresAt := by
  induction ops generalizing m with
  | nil => exact ⟨Nat.zero_le _, fun t ht => nomatch ht⟩
  | cons op ops ih =>
    obtain ⟨hissue, hrest⟩ := outputsFor_cons_eq_nil h
    by_cases huse : ∃ t, redeemed pf cfg m op = some (code, t)
    · obtain ⟨t, ht⟩ := huse
      obtain ⟨⟨pending', hget, hlt⟩, hgone⟩ := redeemed_eq_some ht
      rw [hcode] at hget
      cases hget
      have hafter : usesOf pf cfg code (step pf cfg m op) ops = [] := usesOf_eq_nil hgone hrest
      rw [usesOf] at hafter ⊢
      rw [outputsFor_cons_of_some ht, hafter]
      simpa using hlt
    · have hnone : ∀ t, redeemed pf cfg m op ≠ some (code, t) := fun t ht => huse ⟨t, ht⟩
      rw [usesOf, outputsFor_cons_of_none hnone]
      rcases get?_codes_step code hissue with hsame | hgone
      · exact ih (hsame.trans hcode) hrest
      · have hafter : usesOf pf cfg code (step pf cfg m op) ops = [] := usesOf_eq_nil hgone hrest
        rw [usesOf] at hafter
        rw [hafter]
        exact ⟨Nat.zero_le _, fun t ht => nomatch ht⟩

/-! ## The brake -/

/-- What a call is to the brake. -/
def brakeCall (pf : Devices.Platform) (cfg : Config) (m : PairingManager) (op : Op) :
    Option (SlidingWindow.Call String ℤ) :=
  match op with
  | .isThrottled now _ => some ⟨now, none⟩
  | .redeem now .. => some ⟨now, (failedCheck pf cfg m op).map Prod.fst⟩
  | _ => none

theorem failed_step :
    (step pf cfg m op).failed =
      ((brakeCall pf cfg m op).map (SlidingWindow.step (micros cfg.attemptWindow) m.failed)).getD m.failed := by
  cases op with
  | mintCode purgeNow now draw role =>
    simp only [step, mintCode, brakeCall]
    split <;> rfl
  | mintGuestCode purgeNow now draw hours =>
    simp only [step, mintGuestCode, brakeCall]
    split <;> rfl
  | isThrottled now sourceIp => rfl
  | redeem now draw code name sourceIp deviceKey store =>
    rw [step, brakeCall]
    cases hthr : throttled cfg now (sourceIp.getD "") m with
    | true =>
      rw [redeem_throttled hthr, failedCheck_throttled hthr]
      rfl
    | false =>
      cases hcode : (m.codes.get? code).filter fun p => now < p.expiresAt with
      | none =>
        rw [redeem_failed hthr hcode, failedCheck_failed hthr hcode]
        rfl
      | some pending =>
        rw [(redeem_hit hthr hcode).2, failedCheck_hit hthr hcode]
        rfl
  | mintTicket purgeNow now ticket deviceId => rfl
  | redeemTicket now ticket => rfl

/-- A failed check is recorded only below the cap. -/
theorem stamps_lt_of_failedCheck {key : String} {t : ℤ}
    (h : failedCheck pf cfg m op = some (key, t)) :
    ((stamps key (purge (t - micros cfg.attemptWindow) m.failed)).length : ℤ) < cfg.maxFailed := by
  cases op with
  | redeem now draw code name sourceIp deviceKey store =>
    simp only [failedCheck] at h
    split at h
    · cases h
    · rename_i hthr
      split at h
      · cases h
        simpa [throttled, overCap, purgeFailed] using hthr
      · cases h
  | _ => cases h

theorem failed_finish (m : PairingManager) (ops : List Op) :
    (finish (step pf cfg) m ops).failed =
      finish (SlidingWindow.step (micros cfg.attemptWindow)) m.failed
        (outputs (step pf cfg) (brakeCall pf cfg) m ops) := by
  induction ops generalizing m with
  | nil => rfl
  | cons op ops ih =>
    rw [finish_cons, ih, failed_step, outputs, finish_append]
    cases brakeCall pf cfg m op <;> rfl

theorem marksOf_brakeCalls (key : String) (m : PairingManager) (ops : List Op) :
    marksOf key (outputs (step pf cfg) (brakeCall pf cfg) m ops) = failuresOf pf cfg key m ops := by
  induction ops generalizing m with
  | nil => rfl
  | cons op ops ih =>
    have hrest := ih (step pf cfg m op)
    unfold failuresOf outputsFor at hrest ⊢
    rw [outputs, outputs, marksOf_append, List.filterMap_append, hrest]
    congr 1
    cases op with
    | redeem now draw code name sourceIp deviceKey store =>
      rw [brakeCall]
      cases hthr : throttled cfg now (sourceIp.getD "") m with
      | true =>
        rw [failedCheck_throttled hthr]
        rfl
      | false =>
        cases hcode : (m.codes.get? code).filter fun p => now < p.expiresAt with
        | none =>
          rw [failedCheck_failed hthr hcode]
          by_cases hk : sourceIp.getD "" = key <;> simp [marksOf, hk]
        | some pending =>
          rw [failedCheck_hit hthr hcode]
          rfl
    | _ => rfl

/-- The brake reads the clock where the manager does. -/
theorem brakeCalls_sublist (m : PairingManager) (ops : List Op) :
    ((outputs (step pf cfg) (brakeCall pf cfg) m ops).map SlidingWindow.Call.now).Sublist
      (ops.flatMap Op.readings) := by
  induction ops generalizing m with
  | nil => exact List.Sublist.refl _
  | cons op ops ih =>
    rw [outputs, List.map_append, List.flatMap_cons]
    refine List.Sublist.append ?_ (ih _)
    cases op <;> simp [brakeCall, Op.readings]

/-- Below the cap whenever a check is recorded. -/
theorem allSteps_below (key : String) (m : PairingManager) (ops : List Op) :
    AllSteps (SlidingWindow.step (micros cfg.attemptWindow)) (fun d c => c.marks = some key →
        (stamps key (purge (c.now - micros cfg.attemptWindow) d)).length < cfg.maxFailed.toNat)
      m.failed (outputs (step pf cfg) (brakeCall pf cfg) m ops) := by
  induction ops generalizing m with
  | nil => trivial
  | cons op ops ih =>
    have hrest := ih (step pf cfg m op)
    rw [failed_step] at hrest
    rw [outputs]
    cases hcall : brakeCall pf cfg m op with
    | none =>
      rw [hcall] at hrest
      exact hrest
    | some c =>
      rw [hcall] at hrest
      refine ⟨fun hmark => ?_, hrest⟩
      have hfail : failedCheck pf cfg m op = some (key, c.now) := by
        cases op with
        | redeem now draw code name sourceIp deviceKey store =>
          cases hcall
          obtain ⟨e, he, hkey⟩ := Option.map_eq_some_iff.mp hmark
          have hnow : e.2 = now := by
            simp only [failedCheck] at he
            split at he
            · cases he
            · split at he
              · cases he
                rfl
              · cases he
          rw [he, ← hkey, ← hnow]
        | isThrottled now sourceIp =>
          cases hcall
          cases hmark
        | _ => cases hcall
      have hlt := stamps_lt_of_failedCheck hfail
      omega

theorem throttled_iff {key : String} {now : ℤ} (ops : List Op) :
    throttled cfg now key (finish (step pf cfg) fresh ops) = true ↔
      cfg.maxFailed ≤ ((stamps key (finish (SlidingWindow.step (micros cfg.attemptWindow)) Dict.empty
        (outputs (step pf cfg) (brakeCall pf cfg) fresh ops))).filter
          (now - micros cfg.attemptWindow ≤ ·)).length := by
  have hfailed : (finish (step pf cfg) fresh ops).failed =
      finish (SlidingWindow.step (micros cfg.attemptWindow)) Dict.empty
        (outputs (step pf cfg) (brakeCall pf cfg) fresh ops) := failed_finish fresh ops
  rw [throttled, overCap, purgeFailed, decide_eq_true_iff, stamps_purge, hfailed]

/-- Whatever the clock does, a host over the cap has failed that often itself. -/
theorem le_failures_of_throttled {key : String} {now : ℤ} (ops : List Op)
    (h : throttled cfg now key (finish (step pf cfg) fresh ops) = true) :
    cfg.maxFailed ≤
      ((failuresOf pf cfg key fresh ops).filter (now - micros cfg.attemptWindow ≤ ·)).length := by
  have hsub := stamps_sublist (w := micros cfg.attemptWindow) key
    (outputs (step pf cfg) (brakeCall pf cfg) fresh ops)
  rw [marksOf_brakeCalls] at hsub
  have hlen := (hsub.filter (now - micros cfg.attemptWindow ≤ ·)).length_le
  have hcap := (throttled_iff ops).mp h
  omega

/-- Where it never goes back, a host is over the cap exactly then. -/
theorem throttled_iff_failures {key : String} {now : ℤ} (ops : List Op)
    (hclock : (ops.flatMap Op.readings ++ [now]).Pairwise (· ≤ ·)) :
    throttled cfg now key (finish (step pf cfg) fresh ops) = true ↔
      cfg.maxFailed ≤
        ((failuresOf pf cfg key fresh ops).filter (now - micros cfg.attemptWindow ≤ ·)).length := by
  have hcalls : ((outputs (step pf cfg) (brakeCall pf cfg) fresh ops).map SlidingWindow.Call.now ++
      [now]).Pairwise (· ≤ ·) :=
    hclock.sublist ((brakeCalls_sublist fresh ops).append (List.Sublist.refl _))
  rw [throttled_iff, filter_stamps key hcalls, marksOf_brakeCalls]

end

/-- A code is redeemed at most once, before it expires, until it is issued again, and never unless
it was issued. Under a clock that does not go back a host fails at most `max_failed` checks in any
window, and is over the cap exactly when it has. A host over the cap is refused with its code not
looked at. The failures of other hosts have no part in a refusal, whatever the clock does. -/
theorem codes_once_and_hosts_apart (ops : List Op) :
    (∀ pre op post code expiry, ops = pre ++ op :: post →
        issued pf cfg (finish (step pf cfg) fresh pre) op = some (code, expiry) →
        issuesOf pf cfg code (finish (step pf cfg) fresh (pre ++ [op])) post = [] →
        (usesOf pf cfg code (finish (step pf cfg) fresh (pre ++ [op])) post).length ≤ 1 ∧
          ∀ t ∈ usesOf pf cfg code (finish (step pf cfg) fresh (pre ++ [op])) post, t < expiry) ∧
      (∀ code, issuesOf pf cfg code fresh ops = [] → usesOf pf cfg code fresh ops = []) ∧
      (∀ key now, (ops.flatMap Op.readings ++ [now]).Pairwise (· ≤ ·) →
        (∀ t, ((failuresOf pf cfg key fresh ops).filter fun u =>
          t - micros cfg.attemptWindow ≤ u ∧ u ≤ t).length ≤ cfg.maxFailed.toNat) ∧
        (throttled cfg now key (finish (step pf cfg) fresh ops) = true ↔ cfg.maxFailed ≤
          ((failuresOf pf cfg key fresh ops).filter (now - micros cfg.attemptWindow ≤ ·)).length)) ∧
      (∀ now sourceIp, throttled cfg now (sourceIp.getD "") (finish (step pf cfg) fresh ops) = true →
        (∀ draw code name deviceKey store,
          redeem pf cfg now draw code name sourceIp deviceKey store (finish (step pf cfg) fresh ops) =
            (.ok none, purgeFailed cfg now (finish (step pf cfg) fresh ops), store)) ∧
        cfg.maxFailed ≤ ((failuresOf pf cfg (sourceIp.getD "") fresh ops).filter
          (now - micros cfg.attemptWindow ≤ ·)).length) ∧
      ∀ key now, throttled cfg now key (finish (step pf cfg) fresh ops) =
        throttled cfg now key { finish (step pf cfg) fresh ops with
          failed := finish (SlidingWindow.step (micros cfg.attemptWindow)) Dict.empty
            ((outputs (step pf cfg) (brakeCall pf cfg) fresh ops).map (Call.only key)) } := by
  refine ⟨?_, fun code hnone => usesOf_eq_nil rfl hnone, fun key now hclock => ⟨fun t => ?_, ?_⟩,
    fun now sourceIp hthr => ⟨fun draw code name deviceKey store => redeem_throttled hthr, ?_⟩,
    fun key now => ?_⟩
  · rintro pre op post code expiry rfl hissue hlater
    obtain ⟨pending, hget, hexpiry⟩ := issued_eq_some hissue
    have hget' : (finish (step pf cfg) fresh (pre ++ [op])).codes.get? code = some pending := by
      rw [finish_append]
      exact hget
    rw [← hexpiry]
    exact usesOf_le_one hget' hlater
  · rw [← marksOf_brakeCalls]
    refine length_window_le key ?_ (allSteps_below key fresh ops) t
    exact (List.pairwise_append.mp hclock).1.sublist (brakeCalls_sublist fresh ops)
  · exact throttled_iff_failures ops hclock
  · exact le_failures_of_throttled ops hthr
  · -- the window of one key is the same without the calls of the others
    rw [Bool.eq_iff_iff, throttled_iff, ← stamps_only]
    simp [throttled, overCap, purgeFailed]

/-- A code is shown, redeemed and presented a second time. -/
def sampleRun : List Op :=
  let present (now : ℤ) : Op :=
    .redeem now ⟨"d1", "token-1", "1970-01-01T00:00:00+00:00"⟩ "00000007" "phone" (some "192.168.1.5")
      none .empty
  [.mintCode 0 0 (fun _ => 7) "user", present 1000000, present 2000000]

theorem codes_once_sample :
    (usesOf Devices.samplePlatform defaults "00000007"
        (finish (step Devices.samplePlatform defaults) fresh ([] ++ [sampleRun.head (by decide)]))
        sampleRun.tail).length ≤ 1 ∧
      ∀ t ∈ usesOf Devices.samplePlatform defaults "00000007"
        (finish (step Devices.samplePlatform defaults) fresh ([] ++ [sampleRun.head (by decide)]))
        sampleRun.tail, t < 120000000 :=
  (codes_once_and_hosts_apart Devices.samplePlatform defaults sampleRun).1 [] _ _ "00000007" 120000000
    rfl (by decide +kernel) (by decide +kernel)

example : usesOf Devices.samplePlatform defaults "00000007" fresh sampleRun = [1000000] := by
  decide +kernel

end Wavr.Pairing
