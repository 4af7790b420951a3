import Wavr.Run
import Wavr.Text
import Wavr.Watch

/-!
# Alerts for devices nobody knows

`NetworkInventoryService`: a scan reads the allowlist, probes the network for seconds and folds what
it found into the inventory and the alert log. Trust may change while it is under way, and more than
one scan may be.
-/

namespace Wavr.NetInventory
open Run Text
open Watch (trim)

def SEVERITY_INFO : String := "info"

def SEVERITY_NOTE : String := "note"

/-- `_norm_macs`. -/
def normMacs (macs : Finset String) : Finset String :=
  (macs.filter fun mac => truthy (strip mac)).image macForm

theorem normMacs_normMacs (macs : Finset String) : normMacs (normMacs macs) = normMacs macs := by
  ext mac
  simp only [normMacs, Finset.mem_image, Finset.mem_filter]
  constructor
  · rintro ⟨_, ⟨⟨mac', hmac', rfl⟩, -⟩, rfl⟩
    exact ⟨mac', hmac', (macForm_macForm mac').symm⟩
  · rintro ⟨mac', hmac', rfl⟩
    refine ⟨macForm mac', ⟨⟨mac', hmac', rfl⟩, ?_⟩, macForm_macForm mac'⟩
    have hne : strip mac' ≠ "" := by simpa [truthy] using hmac'.2
    simpa [truthy, strip_macForm, macForm_eq_empty] using hne

/-- A set of MACs in the form in which they are compared. -/
structure Allowlist where
  macs : Finset String
  normal : normMacs macs = macs
  deriving DecidableEq

namespace Allowlist

def ofMacs (macs : Finset String) : Allowlist := ⟨normMacs macs, normMacs_normMacs macs⟩

/-- `a | b`. -/
def union (a b : Allowlist) : Allowlist where
  macs := a.macs ∪ b.macs
  normal := by
    unfold normMacs
    rw [Finset.filter_union, Finset.image_union]
    exact congrArg₂ (· ∪ ·) a.normal b.normal

end Allowlist

/-- `known_provider`: none is wired, the call raises, or it returns a set. -/
inductive Provider
  | absent
  | failing
  | gives (macs : Finset String)
  deriving DecidableEq

/-- A host as a scan has found and probed it. -/
structure Found where
  mac : String
  ip : Option String
  vendor : String
  deviceType : String
  hostname : Option String
  typeConfidence : String
  deriving DecidableEq

structure Device where
  mac : String
  ip : Option String
  vendor : String
  deviceType : String
  known : Bool
  hostname : Option String
  typeConfidence : String
  deriving DecidableEq

structure RogueAlert where
  ts : String
  mac : String
  vendor : String
  ip : Option String
  deviceType : String
  hostname : Option String
  typeConfidence : String
  severity : String
  deriving DecidableEq

structure NetworkInventoryService where
  known : Allowlist
  knownProvider : Provider
  maxAlerts : ℤ
  inventory : List Device
  alerts : List RogueAlert
  /-- The MACs that were alerted already. -/
  alerted : Finset String
  /-- What the scans that are under way have read, `known_at_start`. -/
  scans : List Allowlist
  deriving DecidableEq

def newService (knownMacs : Finset String) (provider : Provider) (maxAlerts : ℤ) :
    NetworkInventoryService :=
  ⟨.ofMacs knownMacs, provider, maxAlerts, [], [], ∅, []⟩

/-- `_dynamic_known`. -/
def dynamicKnown (s : NetworkInventoryService) : Allowlist :=
  match s.knownProvider with
  | .absent | .failing => s.known
  | .gives macs => s.known.union (.ofMacs macs)

/-- `mac.replace("-", ":").lower()`. -/
def foundMac (mac : String) : String :=
  lower (String.ofList (mac.toList.map fun c => if c = '-' then ':' else c))

def buildInventory (found : List Found) (knownMacs : Finset String) : List Device :=
  found.map fun f => {
    mac := foundMac f.mac
    ip := f.ip
    vendor := f.vendor
    deviceType := f.deviceType
    known := foundMac f.mac ∈ normMacs knownMacs
    hostname := f.hostname
    typeConfidence := f.typeConfidence }

def hexDigit? (c : Char) : Option ℕ :=
  if '0' ≤ c ∧ c ≤ '9' then some (c.toNat - '0'.toNat)
  else if 'a' ≤ c ∧ c ≤ 'f' then some (c.toNat - 'a'.toNat + 10)
  else if 'A' ≤ c ∧ c ≤ 'F' then some (c.toNat - 'A'.toNat + 10)
  else none

/-- `is_locally_administered`, for a first octet that is hexadecimal digits or no number at all. -/
def isLocallyAdministered (mac : String) : Bool :=
  let first := before ':' (mac.toList.map fun c => if c = '-' then ':' else c)
  match first.mapM hexDigit? with
  | none | some [] => false
  | some digits => (digits.foldl (fun n digit => 16 * n + digit) 0).testBit 1

def rogueAlert (ts : String) (d : Device) : RogueAlert where
  ts := ts
  mac := d.mac
  vendor := d.vendor
  ip := d.ip
  deviceType := d.deviceType
  hostname := d.hostname
  typeConfidence := d.typeConfidence
  severity := if isLocallyAdministered d.mac then SEVERITY_INFO else SEVERITY_NOTE

/-- One device in the loop of `_record_rogues`, with the MACs that are alerted and the new alerts. -/
def recordRogue (ts : String) (acc : Finset String × List RogueAlert) (d : Device) :
    Finset String × List RogueAlert :=
  if d.known || d.mac ∈ acc.1 then acc else (insert d.mac acc.1, acc.2 ++ [rogueAlert ts d])

/-- `_record_rogues`, with the alerts that it publishes. -/
def recordRogues (devices : List Device) (ts : String) (s : NetworkInventoryService) :
    List RogueAlert × NetworkInventoryService :=
  let recorded := devices.foldl (recordRogue ts) (s.alerted, [])
  (recorded.2, { s with
    alerts := trim s.maxAlerts (s.alerts ++ recorded.2)
    alerted := if 4 * s.maxAlerts < recorded.1.card then
        recorded.1 ∩ (devices.map (·.mac)).toFinset
      else recorded.1 })

/-- `scan_once` up to its first await. -/
def startScan (s : NetworkInventoryService) : NetworkInventoryService :=
  { s with scans := s.scans ++ [dynamicKnown s] }

/-- The devices of a scan as they are published. -/
def freshDevices (found : List Found) (knownAtStart knownNow : Allowlist) : List Device :=
  let devices := buildInventory found knownAtStart.macs
  if knownNow ≠ knownAtStart then devices.map fun d => { d with known := d.mac ∈ knownNow.macs }
  else devices

/-- `scan_once` behind its last probe. -/
def finishScan (found : List Found) (ts : String) (knownAtStart : Allowlist)
    (s : NetworkInventoryService) : List RogueAlert × NetworkInventoryService :=
  let devices := freshDevices found knownAtStart (dynamicKnown s)
  recordRogues devices ts { s with inventory := devices }

def applyKnownChange (mac : String) (known : Bool) (s : NetworkInventoryService) :
    NetworkInventoryService :=
  let mac := macForm mac
  { s with
    alerted := s.alerted.erase mac
    alerts := if known then s.alerts.filter fun a => a.mac ≠ mac else s.alerts
    inventory := s.inventory.map fun d => if d.mac = mac then { d with known := known } else d }

def applyKnownChangeMany (macs : List String) (known : Bool) (s : NetworkInventoryService) :
    NetworkInventoryService :=
  let macset := (macs.map macForm).toFinset
  if macset = ∅ then s
  else
    { s with
      alerted := s.alerted \ macset
      alerts := if known then s.alerts.filter fun a => a.mac ∉ macset else s.alerts
      inventory := s.inventory.map fun d => if d.mac ∈ macset then { d with known := known } else d }

/-- What can happen between two awaits; `i` counts the scans that are under way. -/
inductive Op
  | providerChanges (provider : Provider)
  | startScan
  | failScan (i : ℕ)
  | finishScan (i : ℕ) (found : List Found) (ts : String)
  | applyKnownChange (mac : String) (known : Bool)
  | applyKnownChangeMany (macs : List String) (known : Bool)
  deriving DecidableEq

def step (s : NetworkInventoryService) : Op → NetworkInventoryService
  | .providerChanges provider => { s with knownProvider := provider }
  | .startScan => startScan s
  | .failScan i => { s with scans := s.scans.eraseIdx i }
  | .finishScan i found ts =>
    match s.scans[i]? with
    | none => s
    | some knownAtStart => (finishScan found ts knownAtStart { s with scans := s.scans.eraseIdx i }).2
  | .applyKnownChange mac known => applyKnownChange mac known s
  | .applyKnownChangeMany macs known => applyKnownChangeMany macs known s

/-- The alerts that an op publishes. -/
def published (s : NetworkInventoryService) : Op → List RogueAlert
  | .finishScan i found ts =>
    match s.scans[i]? with
    | none => []
    | some knownAtStart => (finishScan found ts knownAtStart { s with scans := s.scans.eraseIdx i }).1
  | _ => []

/-! ## Stays -/

/-- What the service trusts at the moment. -/
def Trusted (s : NetworkInventoryService) (mac : String) : Prop := mac ∈ (dynamicKnown s).macs

instance (s : NetworkInventoryService) (mac : String) : Decidable (Trusted s mac) :=
  inferInstanceAs (Decidable (mac ∈ _))

def Present (found : List Found) (mac : String) : Prop := ∃ f ∈ found, foundMac f.mac = mac

instance (found : List Found) (mac : String) : Decidable (Present found mac) :=
  inferInstanceAs (Decidable (∃ f ∈ found, foundMac f.mac = mac))

/-- The end of a scan. -/
def Scans (s : NetworkInventoryService) : Op → Prop
  | .finishScan i _ _ => i < s.scans.length
  | _ => False

instance (s : NetworkInventoryService) (op : Op) : Decidable (Scans s op) := by
  cases op <;> unfold Scans <;> infer_instance

/-- An operator's word on the MAC, which re-arms it. -/
def Rearms (mac : String) : Op → Prop
  | .applyKnownChange mac' _ => macForm mac' = mac
  | .applyKnownChangeMany macs _ => mac ∈ macs.map macForm
  | _ => False

instance (mac : String) (op : Op) : Decidable (Rearms mac op) := by
  cases op <;> unfold Rearms <;> infer_instance

/-- An operator's word that the MAC is known. -/
def Trusts (mac : String) : Op → Prop
  | .applyKnownChange mac' known => macForm mac' = mac ∧ known = true
  | .applyKnownChangeMany macs known => mac ∈ macs.map macForm ∧ known = true
  | _ => False

/-- The op does not re-arm the MAC, and if it ends a scan, that has found the MAC untrusted. -/
def Stays (mac : String) (s : NetworkInventoryService) : Op → Prop
  | .finishScan i found _ => i < s.scans.length → Present found mac ∧ ¬ Trusted s mac
  | op => ¬ Rearms mac op

instance (mac : String) (s : NetworkInventoryService) (op : Op) : Decidable (Stays mac s op) := by
  cases op <;> unfold Stays <;> infer_instance

def alertsFor (mac : String) (alerts : List RogueAlert) : ℕ := alerts.countP (·.mac = mac)

section
variable {s : NetworkInventoryService} {mac ts : String} {found : List Found} {i : ℕ}
  {op : Op} {ops stay : List Op}

/-! ## The end of a scan -/

theorem fold_recordRogue (mac ts : String) (devices : List Device) (acc : Finset String × List RogueAlert) :
    (mac ∈ (devices.foldl (recordRogue ts) acc).1 ↔
      mac ∈ acc.1 ∨ ∃ d ∈ devices, d.mac = mac ∧ d.known = false) ∧
    alertsFor mac (devices.foldl (recordRogue ts) acc).2 = alertsFor mac acc.2 +
      if mac ∉ acc.1 ∧ ∃ d ∈ devices, d.mac = mac ∧ d.known = false then 1 else 0 := by
  induction devices generalizing acc with
  | nil => simp
  | cons d devices ih =>
    obtain ⟨hmem, hcount⟩ := ih (recordRogue ts acc d)
    rw [List.foldl_cons, hmem, hcount]
    unfold recordRogue
    by_cases hskip : d.known = true ∨ d.mac ∈ acc.1
    · rw [if_pos (by simpa using hskip)]
      -- a skipped device adds nothing that was not there
      have hd : ∀ h : d.mac = mac ∧ d.known = false, mac ∈ acc.1 := by
        rintro ⟨rfl, hknown⟩
        exact hskip.resolve_left (by simp [hknown])
      simp only [List.mem_cons, exists_eq_or_imp]
      constructor
      · constructor
        · rintro (h | h)
          · exact .inl h
          · exact .inr (.inr h)
        · rintro (h | h | h)
          · exact .inl h
          · exact .inl (hd h)
          · exact .inr h
      · congr 1
        refine if_congr (and_congr_right fun hnew => ?_) rfl rfl
        exact ⟨.inr, fun h => h.resolve_left fun h => hnew (hd h)⟩
    · obtain ⟨hknown, hnew⟩ := not_or.mp hskip
      rw [if_neg (by simpa using hskip)]
      have hknown : d.known = false := by simpa using hknown
      simp only [List.mem_cons, exists_eq_or_imp, Finset.mem_insert, hknown, and_true]
      by_cases heq : d.mac = mac
      · subst heq
        simp [alertsFor, rogueAlert, hnew]
      · have hne : mac ≠ d.mac := Ne.symm heq
        simp [alertsFor, rogueAlert, heq, hne]

/-- What a scan publishes is what it had found if it had read the allowlist at its end. -/
theorem freshDevices_eq (found : List Found) (knownAtStart knownNow : Allowlist) :
    freshDevices found knownAtStart knownNow = buildInventory found knownNow.macs := by
  unfold freshDevices
  by_cases h : knownNow = knownAtStart
  · subst h
    exact if_neg (not_not.mpr rfl)
  · dsimp only
    rw [if_pos h]
    unfold buildInventory
    rw [List.map_map, knownNow.normal]
    rfl

theorem mem_buildInventory (found : List Found) (known : Allowlist) (mac : String) :
    (mac ∈ ((buildInventory found known.macs).map (·.mac)).toFinset ↔ Present found mac) ∧
    ((∃ d ∈ buildInventory found known.macs, d.mac = mac ∧ d.known = false) ↔
      Present found mac ∧ mac ∉ known.macs) := by
  unfold buildInventory Present
  rw [known.normal]
  constructor
  · simp
  · constructor
    · rintro ⟨d, hd, rfl, hknown⟩
      obtain ⟨f, hf, rfl⟩ := List.mem_map.mp hd
      exact ⟨⟨f, hf, rfl⟩, by simpa using hknown⟩
    · rintro ⟨⟨f, hf, rfl⟩, hknown⟩
      exact ⟨_, List.mem_map_of_mem hf, rfl, by simpa using hknown⟩

/-- The alerts of a MAC that the end of a scan publishes, and which MACs are alerted behind it. -/
theorem finishScan_spec (found : List Found) (ts : String) (knownAtStart : Allowlist)
    (s : NetworkInventoryService) (mac : String) :
    alertsFor mac (finishScan found ts knownAtStart s).1 =
      (if mac ∉ s.alerted ∧ Present found mac ∧ ¬ Trusted s mac then 1 else 0) ∧
    (Present found mac →
      (mac ∈ (finishScan found ts knownAtStart s).2.alerted ↔ mac ∈ s.alerted ∨ ¬ Trusted s mac)) ∧
    (mac ∈ (finishScan found ts knownAtStart s).2.alerted →
      mac ∈ s.alerted ∨ Present found mac ∧ ¬ Trusted s mac) := by
  unfold finishScan recordRogues
  dsimp only
  rw [freshDevices_eq]
  obtain ⟨hmem, hcount⟩ := fold_recordRogue mac ts (buildInventory found (dynamicKnown s).macs) (s.alerted, [])
  obtain ⟨hpresent, hrogue⟩ := mem_buildInventory found (dynamicKnown s) mac
  rw [hrogue] at hmem
  refine ⟨?_, fun h => ?_, fun h => ?_⟩
  · rw [hcount]
    exact (Nat.zero_add _).trans (if_congr (and_congr_right fun _ => hrogue) rfl rfl)
  · split
    · rw [Finset.mem_inter, hpresent, hmem]
      simp [h, Trusted]
    · rw [hmem]
      simp [h, Trusted]
  · refine hmem.mp ?_
    split at h
    · exact (Finset.mem_inter.mp h).1
    · exact h

/-! ## One op -/

theorem published_of_not_scans (h : ¬ Scans s op) : published s op = [] := by
  cases op with
  | finishScan i found ts =>
    have hnone : s.scans[i]? = none := List.getElem?_eq_none (Nat.le_of_not_lt h)
    simp only [published, hnone]
  | _ => rfl

/-- An op that stays ends a scan or leaves the memory of the MAC alone. -/
theorem alerted_of_not_scans (h : ¬ Scans s op) (hstay : ¬ Rearms mac op) :
    mac ∈ (step s op).alerted ↔ mac ∈ s.alerted := by
  cases op with
  | finishScan i found ts =>
    have hnone : s.scans[i]? = none := List.getElem?_eq_none (Nat.le_of_not_lt h)
    simp only [step, hnone]
  | applyKnownChange mac' known =>
    have hne : mac ≠ macForm mac' := fun he => hstay he.symm
    simp [step, applyKnownChange, hne]
  | applyKnownChangeMany macs known =>
    have hne : mac ∉ (macs.map macForm).toFinset := fun hm => hstay (List.mem_toFinset.mp hm)
    unfold step applyKnownChangeMany
    dsimp only
    split
    · exact Iff.rfl
    · rw [Finset.mem_sdiff]
      exact and_iff_left hne
  | providerChanges | startScan | failScan => exact Iff.rfl

theorem notMem_of_rearms (h : Rearms mac op) (s : NetworkInventoryService) :
    mac ∉ (step s op).alerted := by
  cases op with
  | applyKnownChange mac' known =>
    have heq : macForm mac' = mac := h
    simp [step, applyKnownChange, heq]
  | applyKnownChangeMany macs known =>
    have hmem : mac ∈ (macs.map macForm).toFinset := List.mem_toFinset.mpr h
    have hne : (macs.map macForm).toFinset ≠ ∅ := Finset.ne_empty_of_mem hmem
    unfold step applyKnownChangeMany
    dsimp only
    rw [if_neg hne, Finset.mem_sdiff]
    exact fun hn => hn.2 hmem
  | _ => exact h.elim

/-- Only an alert makes a MAC remembered. -/
theorem alerted_of_step (h : mac ∈ (step s op).alerted) :
    mac ∈ s.alerted ∨ alertsFor mac (published s op) = 1 := by
  by_cases hscans : Scans s op
  · cases op with
    | finishScan i found ts =>
      have hsome : s.scans[i]? = some s.scans[i] := List.getElem?_eq_getElem hscans
      simp only [step, published, hsome] at h ⊢
      obtain ⟨hcount, -, hmem⟩ :=
        finishScan_spec found ts s.scans[i] { s with scans := s.scans.eraseIdx i } mac
      by_cases hold : mac ∈ s.alerted
      · exact .inl hold
      · refine .inr ?_
        rw [hcount, if_pos ⟨hold, (hmem h).resolve_left hold⟩]
    | _ => exact hscans.elim
  · by_cases hrearms : Rearms mac op
    · exact absurd h (notMem_of_rearms hrearms s)
    · exact .inl ((alerted_of_not_scans hscans hrearms).mp h)

/-- The end of a scan that finds the MAC untrusted. -/
theorem scans_of_stays (hscans : Scans s op) (hstay : Stays mac s op) :
    alertsFor mac (published s op) = (if mac ∈ s.alerted then 0 else 1) ∧ mac ∈ (step s op).alerted := by
  cases op with
  | finishScan i found ts =>
    have hsome : s.scans[i]? = some s.scans[i] := List.getElem?_eq_getElem hscans
    obtain ⟨hpresent, hrogue⟩ := hstay hscans
    obtain ⟨hcount, hmem, -⟩ :=
      finishScan_spec found ts s.scans[i] { s with scans := s.scans.eraseIdx i } mac
    have hrogue' : ¬ Trusted { s with scans := s.scans.eraseIdx i } mac := hrogue
    simp only [step, published, hsome]
    refine ⟨?_, (hmem hpresent).mpr (.inr hrogue')⟩
    rw [hcount]
    by_cases hold : mac ∈ s.alerted
    · simp [hold]
    · simp [hold, hpresent, hrogue']
  | _ => exact hscans.elim

theorem not_rearms_of_stays (h : Stays mac s op) : ¬ Rearms mac op := by
  cases op with
  | finishScan => exact not_false
  | _ => exact h

/-- Only untrusted MACs are alerted. -/
theorem not_trusted_of_published {a : RogueAlert} (h : a ∈ published s op) : ¬ Trusted s a.mac := by
  have hscans : Scans s op := by
    by_contra hscans
    rw [published_of_not_scans hscans] at h
    cases h
  cases op with
  | finishScan i found ts =>
    have hsome : s.scans[i]? = some s.scans[i] := List.getElem?_eq_getElem hscans
    simp only [published, hsome] at h
    have hcount := (finishScan_spec found ts s.scans[i] { s with scans := s.scans.eraseIdx i } a.mac).1
    have hpos : 0 < alertsFor a.mac (finishScan found ts s.scans[i]
        { s with scans := s.scans.eraseIdx i }).1 := List.countP_pos_iff.mpr ⟨a, h, by simp⟩
    rw [hcount] at hpos
    by_contra htrusted
    have hfail : ¬ (a.mac ∉ s.alerted ∧ Present found a.mac ∧
        ¬ Trusted { s with scans := s.scans.eraseIdx i } a.mac) := fun hc => hc.2.2 htrusted
    rw [if_neg hfail] at hpos
    exact absurd hpos (Nat.lt_irrefl 0)
  | _ => exact hscans.elim

/-! ## Runs -/

theorem alertsFor_append (mac : String) (l l' : List RogueAlert) :
    alertsFor mac (l ++ l') = alertsFor mac l + alertsFor mac l' := List.countP_append

/-- Over a stay, the MAC is alerted where it is not remembered yet, once. -/
theorem alertsFor_stay (h : AllSteps step (Stays mac) s stay) :
    alertsFor mac (emissions step published s stay) =
      if mac ∈ s.alerted ∨ AllSteps step (fun s op => ¬ Scans s op) s stay then 0 else 1 := by
  induction stay generalizing s with
  | nil => simp [emissions, alertsFor, AllSteps]
  | cons op stay ih =>
    obtain ⟨hop, hrest⟩ := h
    rw [emissions, alertsFor_append, ih hrest]
    by_cases hscans : Scans s op
    · obtain ⟨hcount, hmem⟩ := scans_of_stays hscans hop
      rw [hcount]
      simp [AllSteps, hscans, hmem]
    · have hsame := alerted_of_not_scans hscans (not_rearms_of_stays hop)
      rw [published_of_not_scans hscans]
      simp [AllSteps, hscans, alertsFor, hsame]

/-- A MAC that is not remembered and not alerted is not remembered. -/
theorem notMem_of_quiet (h : mac ∉ s.alerted) (hquiet : alertsFor mac (emissions step published s ops) = 0) :
    mac ∉ (finish step s ops).alerted := by
  induction ops generalizing s with
  | nil => exact h
  | cons op ops ih =>
    rw [emissions, alertsFor_append, Nat.add_eq_zero_iff] at hquiet
    refine ih (fun hmem => ?_) hquiet.2
    rcases alerted_of_step hmem with hold | hone
    · exact h hold
    · rw [hquiet.1] at hone
      cases hone

/-! ## The log -/

theorem mem_of_mem_trim {α : Type*} {max : ℤ} {l : List α} {x : α} (h : x ∈ trim max l) : x ∈ l := by
  unfold trim Watch.lastOf at h
  split_ifs at h
  · exact List.mem_of_mem_drop h
  · exact List.mem_of_mem_drop h
  · exact h

/-- An alert of the log is new, or was there and its MAC was not trusted just now. -/
theorem mem_alerts_step {a : RogueAlert} (h : a ∈ (step s op).alerts) :
    a ∈ s.alerts ∧ ¬ Trusts a.mac op ∨ a ∈ published s op := by
  cases op with
  | finishScan i found ts =>
    simp only [step, published] at h ⊢
    split at h
    · exact .inl ⟨h, not_false⟩
    · exact (List.mem_append.mp (mem_of_mem_trim h)).imp (⟨·, not_false⟩) id
  | applyKnownChange mac known =>
    simp only [step, applyKnownChange] at h
    split at h
    · obtain ⟨hold, hne⟩ := List.mem_filter.mp h
      exact .inl ⟨hold, fun htrusts => of_decide_eq_true hne htrusts.1.symm⟩
    · rename_i hknown
      exact .inl ⟨h, fun htrusts => hknown htrusts.2⟩
  | applyKnownChangeMany macs known =>
    simp only [step, applyKnownChangeMany] at h
    split at h
    · rename_i hempty
      refine .inl ⟨h, fun htrusts => ?_⟩
      exact Finset.ne_empty_of_mem (List.mem_toFinset.mpr htrusts.1) hempty
    · dsimp only at h
      split at h
      · obtain ⟨hold, hne⟩ := List.mem_filter.mp h
        exact .inl ⟨hold, fun htrusts => of_decide_eq_true hne (List.mem_toFinset.mpr htrusts.1)⟩
      · rename_i hknown
        exact .inl ⟨h, fun htrusts => hknown htrusts.2⟩
  | providerChanges | startScan | failScan => exact .inl ⟨h, not_false⟩

/-- Each alert of the log was published in the run, and its MAC has not been trusted since. -/
def Logged (s₀ : NetworkInventoryService) (ops : List Op) (s : NetworkInventoryService) : Prop :=
  ∀ a ∈ s.alerts, ∃ before op after, ops = before ++ op :: after ∧
    a ∈ published (finish step s₀ before) op ∧ ∀ o ∈ after, ¬ Trusts a.mac o

theorem logged_run (s₀ : NetworkInventoryService) (hs : s₀.alerts = []) (ops : List Op) :
    Logged s₀ ops (finish step s₀ ops) := by
  refine history_induction (R := Logged s₀) (fun a ha => ?_) (fun ops op ih a ha => ?_) ops
  · rw [hs] at ha
    cases ha
  · rcases mem_alerts_step ha with ⟨hold, hop⟩ | hnew
    · obtain ⟨before, op', after, he, hpublished, hafter⟩ := ih a hold
      refine ⟨before, op', after ++ [op], by simp [he], hpublished, fun o ho => ?_⟩
      rcases List.mem_append.mp ho with ho | ho
      · exact hafter o ho
      · rw [List.mem_singleton.mp ho]
        exact hop
    · exact ⟨ops, op, [], rfl, hnew, fun o ho => by cases ho⟩

/-- In every run: an alert is published for a MAC that is not trusted at the moment; it stays in the
log until the MAC is trusted at the latest; a MAC that stays is alerted at most once, and once where
it was not alerted before since the start or since it was re-armed. -/
theorem trusted_never_alert (knownMacs : Finset String) (provider : Provider) (maxAlerts : ℤ)
    (ops : List Op) :
    let s₀ := newService knownMacs provider maxAlerts
    (∀ op, ∀ a ∈ published (finish step s₀ ops) op, ¬ Trusted (finish step s₀ ops) a.mac) ∧
    (∀ a ∈ (finish step s₀ ops).alerts, ∃ before op after, ops = before ++ op :: after ∧
      a ∈ published (finish step s₀ before) op ∧ ∀ o ∈ after, ¬ Trusts a.mac o) ∧
    ∀ mac stay, AllSteps step (Stays mac) (finish step s₀ ops) stay →
      alertsFor mac (emissions step published (finish step s₀ ops) stay) ≤ 1 ∧
      ∀ before recent, ops = before ++ recent →
        (before = [] ∨ ∃ before' op, before = before' ++ [op] ∧ Rearms mac op) →
        alertsFor mac (emissions step published (finish step s₀ before) recent) = 0 →
        ¬ AllSteps step (fun s op => ¬ Scans s op) (finish step s₀ ops) stay →
        alertsFor mac (emissions step published (finish step s₀ ops) stay) = 1 := by
  intro s₀
  refine ⟨fun op a ha => not_trusted_of_published ha, logged_run s₀ rfl ops,
    fun mac stay hstay => ?_⟩
  rw [alertsFor_stay hstay]
  refine ⟨by split <;> decide, fun before recent he hbefore hquiet hscans => ?_⟩
  have hfresh : mac ∉ (finish step s₀ before).alerted := by
    rcases hbefore with rfl | ⟨before', op, rfl, hrearms⟩
    · exact Finset.notMem_empty _
    · rw [finish_append]
      exact notMem_of_rearms hrearms _
  have hforgotten := notMem_of_quiet hfresh hquiet
  rw [← finish_append, ← he] at hforgotten
  exact if_neg (not_or.mpr ⟨hforgotten, hscans⟩)

/-- A host as the network shows it. -/
def visitor : Found := ⟨"02:00:00:00:00:01", some "192.168.0.9", "unknown", "unknown", none, "low"⟩

/-- A visitor is alerted, goes and comes back to stay, and is not alerted again. -/
theorem returned_not_alerted :
    let s := finish step (newService ∅ .absent 100) [.startScan, .finishScan 0 [visitor] "10:00",
      .startScan, .finishScan 0 [] "10:01"]
    let stay := [Op.startScan, .finishScan 0 [visitor] "10:02", .startScan, .finishScan 0 [visitor] "10:03"]
    AllSteps step (Stays visitor.mac) s stay ∧
      alertsFor visitor.mac (emissions step published s stay) = 0 := by
  decide +kernel

end

end Wavr.NetInventory
