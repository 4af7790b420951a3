import Mathlib.Algebra.Order.Ring.Rat
import Wavr.Text
import Wavr.Watch

/-!
# The identity of the gateway

`GatewayIdentityMonitor` over a `GatewayBindingStore`: the MAC that is trusted for each gateway
address, and alerts for one that is not. A restart loses everything but the store.
-/

namespace Wavr.GatewayMonitor
open Run Text
open Watch (SEVERITY_ALERT trim)

def SEVERITY_CRITICAL : String := "critical"

/-- `_norm_mac`. -/
def normMac (mac : String) : String := macForm mac

structure GatewayAlert where
  ts : String
  gatewayIp : String
  trustedMac : String
  observedMac : String
  severity : String
  deriving DecidableEq

/-- The parameters of the constructor. -/
structure Config where
  knownMacs : List String
  debounceCycles : ℤ
  throttleS : ℚ
  maxAlerts : ℤ
  deriving DecidableEq

structure GatewayIdentityMonitor where
  knownMacs : Finset String
  debounceCycles : ℕ
  throttleS : ℚ
  maxAlerts : ℤ
  trusted : Dict String String
  pending : Dict String ℕ
  pendingMac : Dict String String
  lastAlert : Dict (String × String) ℚ
  alerts : List GatewayAlert
  deriving DecidableEq

/-- The MAC of each address in the table. -/
abbrev GatewayBindingStore := Dict String String

def newMonitor (cfg : Config) (store : GatewayBindingStore) : GatewayIdentityMonitor where
  knownMacs := ((cfg.knownMacs.map normMac).filter fun mac => truthy mac).toFinset
  debounceCycles := (max 1 cfg.debounceCycles).toNat
  throttleS := max 0 cfg.throttleS
  maxAlerts := cfg.maxAlerts
  trusted := store
  pending := .empty
  pendingMac := .empty
  lastAlert := .empty
  alerts := []

def clearPending (ip : String) (m : GatewayIdentityMonitor) : GatewayIdentityMonitor :=
  { m with
    pending := m.pending.erase ip
    pendingMac := m.pendingMac.erase ip
    lastAlert := m.lastAlert.filter fun key _ => key.1 ≠ ip }

def settle (ip mac : String) (m : GatewayIdentityMonitor) (store : GatewayBindingStore) :
    GatewayIdentityMonitor × GatewayBindingStore :=
  if m.trusted.get? ip ≠ some mac then
    (clearPending ip { m with trusted := m.trusted.set ip mac }, store.set ip mac)
  else (clearPending ip m, store)

/-- One more cycle of the MAC, and the first where it was another. -/
def accumulate (ip mac : String) (m : GatewayIdentityMonitor) : GatewayIdentityMonitor :=
  let m := if m.pendingMac.get? ip ≠ some mac then
      { m with pendingMac := m.pendingMac.set ip mac, pending := m.pending.set ip 0 }
    else m
  { m with pending := m.pending.set ip ((m.pending.get? ip).getD 0 + 1) }

/-- The clocks are read at `now`, and as the text `ts`. -/
def maybeFire (ip trusted observed : String) (now : ℚ) (ts : String) (m : GatewayIdentityMonitor) :
    Option GatewayAlert × GatewayIdentityMonitor :=
  let last := m.lastAlert.get? (ip, observed)
  if last.any fun last => now - last < m.throttleS then (none, m)
  else
    let severity := if last.isSome then SEVERITY_CRITICAL else SEVERITY_ALERT
    let alert : GatewayAlert := ⟨ts, ip, trusted, observed, severity⟩
    (some alert, { m with
      lastAlert := m.lastAlert.set (ip, observed) now
      alerts := trim m.maxAlerts (m.alerts ++ [alert]) })

/-- The binding that a scan found, as it is compared; none where it found no gateway. -/
def binding (gatewayIp gatewayMac : Option String) : Option (String × String) :=
  match gatewayIp, gatewayMac with
  | some ip, some mac =>
    if truthy (strip ip) && truthy (normMac mac) then some (strip ip, normMac mac) else none
  | _, _ => none

/-- `observe`, with the alert that it raises. -/
def observe (gatewayIp gatewayMac : Option String) (now : ℚ) (ts : String)
    (m : GatewayIdentityMonitor) (store : GatewayBindingStore) :
    Option GatewayAlert × GatewayIdentityMonitor × GatewayBindingStore :=
  match binding gatewayIp gatewayMac with
  | none => (none, m, store)
  | some (ip, mac) =>
    if mac ∈ m.knownMacs then (none, settle ip mac m store)
    else
      match m.trusted.get? ip with
      | none => (none, settle ip mac m store)
      | some baseline =>
        if mac = baseline then (none, clearPending ip m, store)
        else
          let m := accumulate ip mac m
          if (m.pending.get? ip).getD 0 < m.debounceCycles then (none, m, store)
          else
            let fired := maybeFire ip baseline mac now ts m
            (fired.1, fired.2, store)

structure System where
  monitor : GatewayIdentityMonitor
  store : GatewayBindingStore
  deriving DecidableEq

def start (cfg : Config) (store : GatewayBindingStore) : System := ⟨newMonitor cfg store, store⟩

inductive Op
  | observe (gatewayIp gatewayMac : Option String) (now : ℚ) (ts : String)
  | restart (cfg : Config)
  deriving DecidableEq

def step (s : System) : Op → System
  | .observe ip mac now ts =>
    let observed := observe ip mac now ts s.monitor s.store
    ⟨observed.2.1, observed.2.2⟩
  | .restart cfg => start cfg s.store

/-- The alert that an op raises. -/
def raised (s : System) : Op → Option GatewayAlert
  | .observe ip mac now ts => (observe ip mac now ts s.monitor s.store).1
  | .restart _ => none

/-! ## What an alert rests on -/

/-- The MAC is neither on the allowlist nor the baseline of the address, which has one. -/
def Untrusted (s : System) (ip mac : String) : Prop :=
  mac ∉ s.monitor.knownMacs ∧ ∃ baseline, s.monitor.trusted.get? ip = some baseline ∧ baseline ≠ mac

/-- Not a restart, and an observation of the address only if it is of an untrusted MAC that meets
`p`. -/
def Continues (ip : String) (p : String → Prop) (s : System) : Op → Prop
  | .observe gatewayIp gatewayMac _ _ =>
    ∀ mac, binding gatewayIp gatewayMac = some (ip, mac) → Untrusted s ip mac ∧ p mac
  | .restart _ => False

/-- The observations of the address. -/
def observations (ip : String) (ops : List Op) : List String :=
  ops.filterMap fun
    | .observe gatewayIp gatewayMac _ _ =>
      (binding gatewayIp gatewayMac).bind fun b => if b.1 = ip then some b.2 else none
    | .restart _ => none

/-- The run ends in `n` observations of the address that are all of this MAC, untrusted, with no
other observation of it and no restart between them. -/
def Persists (s : System) (ops : List Op) (ip mac : String) (n : ℕ) : Prop :=
  ∃ before after, ops = before ++ after ∧ AllSteps step (Continues ip (· = mac)) (finish step s before) after ∧
    observations ip after = List.replicate n mac

/-- In the run an alert for the MAC was raised at `last`, and the address was not seen to recover
since, nor the monitor restarted. -/
def Sustained (s : System) (ops : List Op) (ip mac : String) (last : ℚ) : Prop :=
  ∃ before gatewayIp gatewayMac ts after, ops = before ++ .observe gatewayIp gatewayMac last ts :: after ∧
    (∃ alert, raised (finish step s before) (.observe gatewayIp gatewayMac last ts) = some alert ∧
      alert.gatewayIp = ip ∧ alert.observedMac = mac) ∧
    AllSteps step (Continues ip fun _ => True)
      (finish step s (before ++ [.observe gatewayIp gatewayMac last ts])) after

section
variable {s : System} {m : GatewayIdentityMonitor} {store : GatewayBindingStore}
  {ip mac ip' mac' : String}

/-- How many of the last cycles were of the MAC. -/
def streak (m : GatewayIdentityMonitor) (ip mac : String) : ℕ :=
  if m.pendingMac.get? ip = some mac then (m.pending.get? ip).getD 0 else 0

theorem streak_accumulate (ip mac ip' mac' : String) (m : GatewayIdentityMonitor) :
    streak (accumulate ip mac m) ip' mac' =
      if ip' = ip then if mac' = mac then streak m ip mac + 1 else 0 else streak m ip' mac' := by
  unfold streak accumulate
  by_cases hmac : m.pendingMac.get? ip = some mac
  · by_cases hip : ip' = ip
    · subst hip
      by_cases heq : mac' = mac
      · simp [hmac, heq]
      · simp [hmac, heq, Ne.symm heq]
    · simp [hmac, hip]
  · by_cases hip : ip' = ip
    · subst hip
      by_cases heq : mac' = mac
      · simp [hmac, heq]
      · simp [hmac, heq, Ne.symm heq]
    · simp [hmac, hip]

theorem streak_clearPending (ip ip' mac' : String) (m : GatewayIdentityMonitor) :
    streak (clearPending ip m) ip' mac' = if ip' = ip then 0 else streak m ip' mac' := by
  unfold streak clearPending
  by_cases hip : ip' = ip
  · simp [hip]
  · simp [hip]

theorem lastAlert_clearPending (ip ip' mac' : String) (m : GatewayIdentityMonitor) :
    (clearPending ip m).lastAlert.get? (ip', mac') =
      if ip' = ip then none else m.lastAlert.get? (ip', mac') := by
  unfold clearPending
  rw [Dict.get?_filter]
  by_cases hip : ip' = ip
  · cases m.lastAlert.get? (ip', mac') <;> simp [hip, Option.filter]
  · cases m.lastAlert.get? (ip', mac') <;> simp [hip, Option.filter]

theorem pending_accumulate (ip mac : String) (m : GatewayIdentityMonitor) :
    ((accumulate ip mac m).pending.get? ip).getD 0 = streak m ip mac + 1 := by
  unfold streak accumulate
  by_cases hmac : m.pendingMac.get? ip = some mac
  · simp [hmac]
  · simp [hmac]

theorem accumulate_frame (ip mac : String) (m : GatewayIdentityMonitor) :
    (accumulate ip mac m).trusted = m.trusted ∧ (accumulate ip mac m).lastAlert = m.lastAlert ∧
      (accumulate ip mac m).debounceCycles = m.debounceCycles ∧
      (accumulate ip mac m).throttleS = m.throttleS := by
  unfold accumulate
  dsimp only
  split <;> exact ⟨rfl, rfl, rfl, rfl⟩

/-! ## One observation -/

/-- What the observation of a binding can do. -/
inductive Observed (ip mac : String) (now : ℚ) (ts : String) (m : GatewayIdentityMonitor)
    (store : GatewayBindingStore) :
    Option GatewayAlert × GatewayIdentityMonitor × GatewayBindingStore → Prop
  | settled (h : mac ∈ m.knownMacs ∨ m.trusted.get? ip = none) :
    Observed ip mac now ts m store (none, settle ip mac m store)
  | steady (hbaseline : m.trusted.get? ip = some mac) :
    Observed ip mac now ts m store (none, clearPending ip m, store)
  | counted (hmac : Untrusted ⟨m, store⟩ ip mac) :
    Observed ip mac now ts m store (none, accumulate ip mac m, store)
  | fired {baseline alerts} (hmac : Untrusted ⟨m, store⟩ ip mac)
    (hbaseline : m.trusted.get? ip = some baseline) (hlong : m.debounceCycles ≤ streak m ip mac + 1)
    (hlast : ∀ last, m.lastAlert.get? (ip, mac) = some last → m.throttleS ≤ now - last) :
    Observed ip mac now ts m store
      (some ⟨ts, ip, baseline, mac,
        if (m.lastAlert.get? (ip, mac)).isSome then SEVERITY_CRITICAL else SEVERITY_ALERT⟩,
        { accumulate ip mac m with
          lastAlert := m.lastAlert.set (ip, mac) now
          alerts := alerts }, store)

theorem observe_observed {gatewayIp gatewayMac : Option String}
    (h : binding gatewayIp gatewayMac = some (ip, mac)) (now : ℚ) (ts : String)
    (m : GatewayIdentityMonitor) (store : GatewayBindingStore) :
    Observed ip mac now ts m store (observe gatewayIp gatewayMac now ts m store) := by
  unfold observe
  rw [h]
  dsimp only
  split
  · rename_i hknown
    exact .settled (.inl hknown)
  · rename_i hknown
    split
    · rename_i hnone
      exact .settled (.inr hnone)
    · rename_i baseline hbaseline
      split
      · rename_i heq
        exact .steady (heq ▸ hbaseline)
      · rename_i hne
        have hmac : Untrusted ⟨m, store⟩ ip mac := ⟨hknown, baseline, hbaseline, Ne.symm hne⟩
        obtain ⟨-, hstamps, hcycles, hthrottle⟩ := accumulate_frame ip mac m
        split
        · exact .counted hmac
        · rename_i hlong
          rw [pending_accumulate, hcycles, not_lt] at hlong
          unfold maybeFire
          rw [hstamps]
          dsimp only
          split
          · exact .counted hmac
          · rename_i hthrottled
            refine .fired hmac hbaseline hlong fun last hlast => ?_
            rw [hlast, hthrottle] at hthrottled
            simpa using hthrottled

theorem observe_neutral {gatewayIp gatewayMac : Option String} (h : binding gatewayIp gatewayMac = none)
    (now : ℚ) (ts : String) (m : GatewayIdentityMonitor) (store : GatewayBindingStore) :
    observe gatewayIp gatewayMac now ts m store = (none, m, store) := by
  unfold observe
  rw [h]

theorem settle_pending (ip mac : String) (m : GatewayIdentityMonitor) (store : GatewayBindingStore) :
    (settle ip mac m store).1.pending = (clearPending ip m).pending ∧
      (settle ip mac m store).1.pendingMac = (clearPending ip m).pendingMac ∧
      (settle ip mac m store).1.lastAlert = (clearPending ip m).lastAlert := by
  unfold settle
  split <;> exact ⟨rfl, rfl, rfl⟩

theorem settle_trusted (ip mac : String) (m : GatewayIdentityMonitor) (store : GatewayBindingStore)
    (h : ∀ ip, m.trusted.get? ip = store.get? ip) (ip' : String) :
    (settle ip mac m store).1.trusted.get? ip' = (if ip' = ip then some mac else m.trusted.get? ip') ∧
      (settle ip mac m store).2.get? ip' = if ip' = ip then some mac else store.get? ip' := by
  unfold settle
  split
  · exact ⟨Dict.get?_set _ _ _ _, Dict.get?_set _ _ _ _⟩
  · rename_i hsame
    have hsame : m.trusted.get? ip = some mac := not_not.mp hsame
    by_cases hip : ip' = ip
    · subst hip
      rw [if_pos rfl, if_pos rfl, ← h ip']
      exact ⟨hsame, hsame⟩
    · rw [if_neg hip, if_neg hip]
      exact ⟨rfl, rfl⟩

/-- An observation leaves the other addresses alone. -/
theorem observe_other {gatewayIp gatewayMac : Option String} (m : GatewayIdentityMonitor)
    (store : GatewayBindingStore) (hb : binding gatewayIp gatewayMac = some (ip, mac))
    (now : ℚ) (ts : String) (h : ip' ≠ ip)
    (mac' : String) :
    streak (observe gatewayIp gatewayMac now ts m store).2.1 ip' mac' = streak m ip' mac' ∧
      (observe gatewayIp gatewayMac now ts m store).2.1.lastAlert.get? (ip', mac') =
        m.lastAlert.get? (ip', mac') := by
  have hobserved := observe_observed hb now ts m store
  generalize observe gatewayIp gatewayMac now ts m store = out at hobserved ⊢
  have hclear : streak (clearPending ip m) ip' mac' = streak m ip' mac' ∧
      (clearPending ip m).lastAlert.get? (ip', mac') = m.lastAlert.get? (ip', mac') := by
    rw [streak_clearPending, lastAlert_clearPending, if_neg h, if_neg h]
    exact ⟨rfl, rfl⟩
  have hcount : streak (accumulate ip mac m) ip' mac' = streak m ip' mac' := by
    rw [streak_accumulate, if_neg h]
  cases hobserved with
  | settled =>
    obtain ⟨hpending, hmac, hlast⟩ := settle_pending ip mac m store
    unfold streak at hclear ⊢
    rw [hpending, hmac, hlast]
    exact hclear
  | steady => exact hclear
  | counted => exact ⟨hcount, by rw [(accumulate_frame ip mac m).2.1]⟩
  | fired => exact ⟨hcount, Dict.get?_set_ne _ (fun he => h (congrArg Prod.fst he)) _⟩

/-- An observation of the address is a recovery, or counts as one more of an untrusted MAC. -/
theorem observe_own {gatewayIp gatewayMac : Option String}
    (hb : binding gatewayIp gatewayMac = some (ip, mac)) (now : ℚ) (ts : String)
    (m : GatewayIdentityMonitor) (store : GatewayBindingStore) :
    (∀ mac', streak (observe gatewayIp gatewayMac now ts m store).2.1 ip mac' = 0 ∧
      (observe gatewayIp gatewayMac now ts m store).2.1.lastAlert.get? (ip, mac') = none) ∨
    (Untrusted ⟨m, store⟩ ip mac ∧ ∀ mac',
      streak (observe gatewayIp gatewayMac now ts m store).2.1 ip mac' =
        (if mac' = mac then streak m ip mac + 1 else 0) ∧
      ((observe gatewayIp gatewayMac now ts m store).2.1.lastAlert.get? (ip, mac') =
          m.lastAlert.get? (ip, mac') ∨
        mac' = mac ∧
          (observe gatewayIp gatewayMac now ts m store).2.1.lastAlert.get? (ip, mac') = some now ∧
          ∃ alert, (observe gatewayIp gatewayMac now ts m store).1 = some alert ∧
            alert.gatewayIp = ip ∧ alert.observedMac = mac)) := by
  have hobserved := observe_observed hb now ts m store
  generalize observe gatewayIp gatewayMac now ts m store = out at hobserved ⊢
  have hclear : ∀ mac', streak (clearPending ip m) ip mac' = 0 ∧
      (clearPending ip m).lastAlert.get? (ip, mac') = none := fun mac' => by
    rw [streak_clearPending, lastAlert_clearPending, if_pos rfl, if_pos rfl]
    exact ⟨rfl, rfl⟩
  have hcount : ∀ mac', streak (accumulate ip mac m) ip mac' =
      if mac' = mac then streak m ip mac + 1 else 0 := fun mac' => by
    rw [streak_accumulate, if_pos rfl]
  -- a trusted MAC clears what is pending; another one counts its own streak and alerts at most itself
  cases hobserved with
  | settled =>
    obtain ⟨hpending, hmac, hlast⟩ := settle_pending ip mac m store
    left
    unfold streak at hclear ⊢
    rw [hpending, hmac, hlast]
    exact hclear
  | steady => exact .inl hclear
  | counted hmac =>
    exact .inr ⟨hmac, fun mac' => ⟨hcount mac', .inl (by rw [(accumulate_frame ip mac m).2.1])⟩⟩
  | fired hmac =>
    refine .inr ⟨hmac, fun mac' => ⟨hcount mac', ?_⟩⟩
    by_cases heq : mac' = mac
    · exact .inr ⟨heq, by rw [heq]; exact Dict.get?_set_self _ _ _, _, rfl, rfl, rfl⟩
    · exact .inl (Dict.get?_set_ne _ (fun he => heq (congrArg Prod.snd he)) _)

/-- The store holds the baselines, and one that is there gives way only to an allowlisted MAC. -/
theorem observe_trusted (gatewayIp gatewayMac : Option String) (now : ℚ) (ts : String)
    (h : ∀ ip, m.trusted.get? ip = store.get? ip) (ip : String) :
    (observe gatewayIp gatewayMac now ts m store).2.1.trusted.get? ip =
        (observe gatewayIp gatewayMac now ts m store).2.2.get? ip ∧
      ∀ baseline, store.get? ip = some baseline → ∃ mac,
        (observe gatewayIp gatewayMac now ts m store).2.2.get? ip = some mac ∧
          (mac = baseline ∨ mac ∈ m.knownMacs) := by
  cases hb : binding gatewayIp gatewayMac with
  | none =>
    rw [observe_neutral hb]
    exact ⟨h ip, fun baseline hbase => ⟨baseline, hbase, .inl rfl⟩⟩
  | some b =>
    obtain ⟨ip', mac⟩ := b
    have hobserved := observe_observed hb now ts m store
    generalize observe gatewayIp gatewayMac now ts m store = out at hobserved ⊢
    cases hobserved with
    | settled hcause =>
      obtain ⟨htrusted, hstore⟩ := settle_trusted ip' mac m store h ip
      rw [htrusted, hstore, h ip]
      refine ⟨rfl, fun baseline hbase => ?_⟩
      by_cases hip : ip = ip'
      · subst hip
        have hknown : mac ∈ m.knownMacs := hcause.resolve_right fun hnone => by
          rw [h ip, hbase] at hnone
          cases hnone
        exact ⟨mac, if_pos rfl, .inr hknown⟩
      · exact ⟨baseline, by rw [if_neg hip, hbase], .inl rfl⟩
    | steady => exact ⟨h ip, fun baseline hbase => ⟨baseline, hbase, .inl rfl⟩⟩
    | counted | fired =>
      refine ⟨?_, fun baseline hbase => ⟨baseline, hbase, .inl rfl⟩⟩
      exact (congrArg (·.get? ip) (accumulate_frame ip' mac m).1).trans (h ip)

/-- What is known of an alert from the state before it. -/
theorem raised_spec {gatewayIp gatewayMac : Option String} {now : ℚ} {ts : String} {alert : GatewayAlert}
    (h : (observe gatewayIp gatewayMac now ts m store).1 = some alert) :
    binding gatewayIp gatewayMac = some (alert.gatewayIp, alert.observedMac) ∧
      Untrusted ⟨m, store⟩ alert.gatewayIp alert.observedMac ∧
      m.trusted.get? alert.gatewayIp = some alert.trustedMac ∧
      m.debounceCycles ≤ streak m alert.gatewayIp alert.observedMac + 1 ∧
      (alert.severity = SEVERITY_CRITICAL → ∃ last,
        m.lastAlert.get? (alert.gatewayIp, alert.observedMac) = some last ∧ m.throttleS ≤ now - last) := by
  cases hb : binding gatewayIp gatewayMac with
  | none =>
    rw [observe_neutral hb] at h
    cases h
  | some b =>
    obtain ⟨ip, mac⟩ := b
    have hobserved := observe_observed hb now ts m store
    generalize observe gatewayIp gatewayMac now ts m store = out at hobserved h
    cases hobserved with
    | settled | steady | counted => cases h
    | fired hmac hbaseline hlong hlast =>
      cases h
      refine ⟨rfl, hmac, hbaseline, hlong, fun hcritical => ?_⟩
      cases hstamp : m.lastAlert.get? (ip, mac) with
      | some last => exact ⟨last, rfl, hlast last hstamp⟩
      | none =>
        dsimp only at hcritical
        rw [hstamp] at hcritical
        exact absurd hcritical (by decide)

/-! ## Runs -/

variable {ops : List Op} {op : Op} {n : ℕ} {last : ℚ}

theorem Persists.zero (s : System) (ops : List Op) (ip mac : String) : Persists s ops ip mac 0 :=
  ⟨ops, [], by simp, trivial, rfl⟩

theorem observations_append (ip : String) (ops ops' : List Op) :
    observations ip (ops ++ ops') = observations ip ops ++ observations ip ops' :=
  List.filterMap_append

theorem observations_singleton (ip : String) (gatewayIp gatewayMac : Option String) (now : ℚ)
    (ts : String) : observations ip [.observe gatewayIp gatewayMac now ts] =
      ((binding gatewayIp gatewayMac).bind fun b => if b.1 = ip then some b.2 else none).toList := by
  rw [observations, filterMap_cons_eq_append, List.filterMap_nil, List.append_nil]

theorem Persists.extend (h : Persists s ops ip mac n)
    (hop : Continues ip (· = mac) (finish step s ops) op) {k : ℕ}
    (hobs : observations ip [op] = List.replicate k mac) : Persists s (ops ++ [op]) ip mac (n + k) := by
  obtain ⟨before, after, he, hcontinues, hafter⟩ := h
  refine ⟨before, after ++ [op], by simp [he], allSteps_append.mpr ⟨hcontinues, ?_, trivial⟩, ?_⟩
  · rwa [← finish_append, ← he]
  · rw [observations_append, hafter, hobs, List.replicate_add]

theorem Sustained.extend (h : Sustained s ops ip mac last)
    (hop : Continues ip (fun _ => True) (finish step s ops) op) :
    Sustained s (ops ++ [op]) ip mac last := by
  obtain ⟨before, gatewayIp, gatewayMac, ts, after, he, hraised, hcontinues⟩ := h
  refine ⟨before, gatewayIp, gatewayMac, ts, after ++ [op], by simp [he], hraised,
    allSteps_append.mpr ⟨hcontinues, ?_, trivial⟩⟩
  rwa [← finish_append, List.append_assoc, List.singleton_append, ← he]

/-- What the monitor holds rests on what it observed. -/
structure Traced (s₀ : System) (ops : List Op) (s : System) : Prop where
  trusted : ∀ ip, s.monitor.trusted.get? ip = s.store.get? ip
  streaks : ∀ ip mac, Persists s₀ ops ip mac (streak s.monitor ip mac)
  stamps : ∀ ip mac last, s.monitor.lastAlert.get? (ip, mac) = some last → Sustained s₀ ops ip mac last

/-- What is held of one MAC at one address rests on what was observed. -/
def TracedAt (s₀ : System) (ops : List Op) (s : System) (ip mac : String) : Prop :=
  Persists s₀ ops ip mac (streak s.monitor ip mac) ∧
    ∀ last, s.monitor.lastAlert.get? (ip, mac) = some last → Sustained s₀ ops ip mac last

section
variable {s₀ : System} {gatewayIp gatewayMac : Option String} (h : Traced s₀ ops (finish step s₀ ops))
include h

/-- An op that says nothing of the address. -/
theorem Traced.other (hop : ∀ p, Continues ip p (finish step s₀ ops) op)
    (hobs : observations ip [op] = []) (mac : String) :
    TracedAt s₀ (ops ++ [op]) (finish step s₀ ops) ip mac :=
  ⟨(h.streaks ip mac).extend (hop _) (k := 0) hobs, fun last hlast =>
    (h.stamps ip mac last hlast).extend (hop _)⟩

/-- An observation of another address, or of none. -/
theorem Traced.elsewhere (hip : ∀ mac, binding gatewayIp gatewayMac ≠ some (ip, mac)) (now : ℚ)
    (ts mac : String) :
    TracedAt s₀ (ops ++ [.observe gatewayIp gatewayMac now ts]) (finish step s₀ ops) ip mac := by
  have hop : ∀ p, Continues ip p (finish step s₀ ops) (.observe gatewayIp gatewayMac now ts) :=
    fun p mac' hb => absurd hb (hip mac')
  refine h.other hop ?_ mac
  rw [observations_singleton]
  cases hb : binding gatewayIp gatewayMac with
  | none => rfl
  | some b =>
    have hne : b.1 ≠ ip := fun he => hip b.2 (by rw [hb, ← he])
    simp [hne]

/-- An observation of an untrusted MAC is one more of it, and no recovery. -/
theorem Traced.own (hb : binding gatewayIp gatewayMac = some (ip, mac)) (now : ℚ)
    (ts : String) (hmac : Untrusted (finish step s₀ ops) ip mac) :
    Persists s₀ (ops ++ [.observe gatewayIp gatewayMac now ts]) ip mac
        (streak (finish step s₀ ops).monitor ip mac + 1) ∧
      ∀ mac' last, (finish step s₀ ops).monitor.lastAlert.get? (ip, mac') = some last →
        Sustained s₀ (ops ++ [.observe gatewayIp gatewayMac now ts]) ip mac' last := by
  have hown : ∀ p : String → Prop, p mac →
      Continues ip p (finish step s₀ ops) (.observe gatewayIp gatewayMac now ts) := by
    intro p hp mac' hb'
    obtain rfl : mac = mac' := (Prod.mk.inj (Option.some.inj (hb.symm.trans hb'))).2
    exact ⟨hmac, hp⟩
  have hobs : observations ip [.observe gatewayIp gatewayMac now ts] = List.replicate 1 mac := by
    simp [observations_singleton, hb]
  exact ⟨(h.streaks ip mac).extend (hown _ rfl) hobs,
    fun mac' last hlast => (h.stamps ip mac' last hlast).extend (hown _ trivial)⟩

/-- After an observation of the address either nothing is held of it, or one more of the MAC seen. -/
theorem Traced.here (hb : binding gatewayIp gatewayMac = some (ip, mac)) (now : ℚ) (ts mac' : String) :
    TracedAt s₀ (ops ++ [.observe gatewayIp gatewayMac now ts])
      (step (finish step s₀ ops) (.observe gatewayIp gatewayMac now ts)) ip mac' := by
  rcases observe_own hb now ts (finish GatewayMonitor.step s₀ ops).monitor
    (finish GatewayMonitor.step s₀ ops).store with hrecovered | ⟨hmac, hcounted⟩
  · obtain ⟨hzero, hnone⟩ := hrecovered mac'
    refine ⟨hzero.symm ▸ Persists.zero _ _ _ _, fun last hlast => ?_⟩
    cases hnone.symm.trans hlast
  · obtain ⟨hstreak, hstamp⟩ := hcounted mac'
    obtain ⟨hlong, hkept⟩ := h.own hb now ts hmac
    refine ⟨hstreak.symm ▸ ?_, fun last hlast => ?_⟩
    · split
      · rename_i heq
        exact heq ▸ hlong
      · exact Persists.zero _ _ _ _
    · rcases hstamp with hold | ⟨heq, hnew, hraised⟩
      · exact hkept mac' last (hold.symm.trans hlast)
      · obtain rfl : now = last := Option.some.inj (hnew.symm.trans hlast)
        exact ⟨ops, gatewayIp, gatewayMac, ts, [], rfl, heq ▸ hraised, trivial⟩

theorem Traced.observed (gatewayIp gatewayMac : Option String) (now : ℚ) (ts ip mac : String) :
    TracedAt s₀ (ops ++ [.observe gatewayIp gatewayMac now ts])
      (step (finish step s₀ ops) (.observe gatewayIp gatewayMac now ts)) ip mac := by
  cases hb : binding gatewayIp gatewayMac with
  | none =>
    have hsame : GatewayMonitor.step (finish GatewayMonitor.step s₀ ops)
        (.observe gatewayIp gatewayMac now ts) = finish GatewayMonitor.step s₀ ops := by
      simp only [GatewayMonitor.step, observe_neutral hb]
    rw [hsame]
    exact h.elsewhere (fun mac' hb' => by cases hb.symm.trans hb') now ts mac
  | some b =>
    obtain ⟨ip', mac'⟩ := b
    by_cases hip : ip = ip'
    · subst hip
      exact h.here hb now ts mac
    · obtain ⟨hstreak, hlast⟩ := observe_other (finish GatewayMonitor.step s₀ ops).monitor
        (finish GatewayMonitor.step s₀ ops).store hb now ts hip mac
      have hne : ∀ mac, binding gatewayIp gatewayMac ≠ some (ip, mac) := fun mac hb' =>
        hip (Prod.mk.inj (Option.some.inj (hb.symm.trans hb'))).1.symm
      obtain ⟨hpersists, hsustained⟩ := h.elsewhere hne now ts mac
      exact ⟨hstreak.symm ▸ hpersists, fun last h' => hsustained last (hlast.symm.trans h')⟩

theorem Traced.step (op : Op) : Traced s₀ (ops ++ [op]) (step (finish step s₀ ops) op) := by
  cases op with
  | restart cfg =>
    refine ⟨fun ip => rfl, fun ip mac => Persists.zero _ _ _ _, fun ip mac last hlast => ?_⟩
    cases hlast
  | observe gatewayIp gatewayMac now ts =>
    exact ⟨fun ip => (observe_trusted gatewayIp gatewayMac now ts h.trusted ip).1,
      fun ip mac => (h.observed gatewayIp gatewayMac now ts ip mac).1,
      fun ip mac => (h.observed gatewayIp gatewayMac now ts ip mac).2⟩

end

theorem traced_run (cfg : Config) (store : GatewayBindingStore) (ops : List Op) :
    Traced (start cfg store) ops (finish step (start cfg store) ops) := by
  induction ops using List.reverseRecOn with
  | nil => exact ⟨fun ip => rfl, fun ip mac => Persists.zero _ _ _ _, fun ip mac last h => by cases h⟩
  | append_singleton ops op ih =>
    rw [finish_append]
    exact ih.step op

/-- In every run, a stored baseline gives way only to an allowlisted MAC, an alert is raised only
where the MAC persists over `debounceCycles` observations of the address, and a critical one only
where an alert for it was raised `throttleS` before, with no recovery since. -/
theorem gateway_not_relearned (cfg : Config) (store : GatewayBindingStore) (ops : List Op) (op : Op) :
    let s := finish step (start cfg store) ops
    (∀ ip baseline, s.store.get? ip = some baseline → ∃ mac,
      (step s op).store.get? ip = some mac ∧ (mac = baseline ∨ mac ∈ s.monitor.knownMacs)) ∧
    ∀ alert, raised s op = some alert →
      s.store.get? alert.gatewayIp = some alert.trustedMac ∧ alert.observedMac ≠ alert.trustedMac ∧
      alert.observedMac ∉ s.monitor.knownMacs ∧
      (∃ n, s.monitor.debounceCycles ≤ n ∧
        Persists (start cfg store) (ops ++ [op]) alert.gatewayIp alert.observedMac n) ∧
      (alert.severity = SEVERITY_CRITICAL → ∃ gatewayIp gatewayMac now ts last,
        op = .observe gatewayIp gatewayMac now ts ∧ s.monitor.throttleS ≤ now - last ∧
        Sustained (start cfg store) ops alert.gatewayIp alert.observedMac last) := by
  intro s
  have h : Traced (start cfg store) ops s := traced_run cfg store ops
  cases op with
  | restart cfg' =>
    exact ⟨fun ip baseline hbase => ⟨baseline, hbase, .inl rfl⟩, fun alert hraised => by cases hraised⟩
  | observe gatewayIp gatewayMac now ts =>
    refine ⟨fun ip => (observe_trusted gatewayIp gatewayMac now ts h.trusted ip).2,
      fun alert hraised => ?_⟩
    obtain ⟨hb, hmac, hbaseline, hlong, hcritical⟩ := raised_spec hraised
    refine ⟨(h.trusted _).symm.trans hbaseline, ?_, hmac.1, ⟨_, hlong, (h.own hb now ts hmac).1⟩,
      fun hsev => ?_⟩
    · obtain ⟨baseline, hbaseline', hne⟩ := hmac.2
      obtain rfl : alert.trustedMac = baseline := Option.some.inj (hbaseline.symm.trans hbaseline')
      exact hne.symm
    · obtain ⟨last, hlast, hthrottle⟩ := hcritical hsev
      exact ⟨gatewayIp, gatewayMac, now, ts, last, rfl, hthrottle, h.stamps _ _ _ hlast⟩

end

end Wavr.GatewayMonitor
