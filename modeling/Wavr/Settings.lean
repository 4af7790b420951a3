import Mathlib.Algebra.Order.Field.Rat
import Mathlib.Data.Rat.Floor
import Wavr.Dict
import Wavr.Run
import Wavr.Text

/-!
# Operator settings

`SettingsStore`: the allow-list of settings, the check of a value, the stored table and its
export to the environment, and when a stored switch can be left without its prerequisite.
-/

namespace Wavr.Settings
open Run Text

def CONSENT_PHRASE : String := "i-understand"

inductive Kind
  | bool
  | int
  | float
  | str
  | choice
  deriving DecidableEq, Repr

/-- A bound of a numeric setting: its value as a float, and how it is printed. -/
structure Bound where
  value : ℚ
  text : String
  deriving DecidableEq

structure SettingSpec where
  key : String
  env : String
  kind : Kind
  default : String
  label : String
  sensitive : Bool := false
  requires : List String := []
  choices : List String := []
  minimum : Option Bound := none
  maximum : Option Bound := none
  deriving DecidableEq

def SETTING_SPECS : List SettingSpec :=
  [{ key := "instance_name", env := "WAVR_INSTANCE_NAME", kind := .str, default := "Wavr",
     label := "Core name" },
   { key := "lan_access", env := "WAVR_MULTIDEVICE", kind := .bool, default := "0",
     label := "Let other devices connect", sensitive := true },
   { key := "bind_host", env := "WAVR_BIND", kind := .choice, default := "127.0.0.1",
     label := "Listen on", choices := ["127.0.0.1", "0.0.0.0"], sensitive := true },
   { key := "port", env := "WAVR_PORT", kind := .int, default := "8000", label := "Port",
     minimum := some ⟨1024, "1024"⟩, maximum := some ⟨65535, "65535"⟩ },
   { key := "nodes_enabled", env := "WAVR_NODES_ENABLED", kind := .bool, default := "0",
     label := "Accept sensor nodes", sensitive := true, requires := ["lan_access"] },
   { key := "peers_enabled", env := "WAVR_PEERS_ENABLED", kind := .bool, default := "0",
     label := "Connect to other Cores", sensitive := true, requires := ["lan_access"] },
   { key := "developer_mode", env := "WAVR_DEVELOPER_MODE", kind := .bool, default := "0",
     label := "Developer mode" },
   { key := "net_inventory", env := "WAVR_NET_INVENTORY", kind := .bool, default := "0",
     label := "Look at what's on the network", sensitive := true },
   { key := "onvif_probe", env := "WAVR_ONVIF_PROBE", kind := .bool, default := "0",
     label := "Look for cameras", sensitive := true },
   { key := "identity_enabled", env := "WAVR_IDENTITY_ENABLED", kind := .bool, default := "0",
     label := "Recognise who is home", sensitive := true },
   { key := "fusion_threshold", env := "WAVR_FUSION_THRESHOLD", kind := .float, default := "0.5",
     label := "Presence sensitivity",
     minimum := some ⟨3602879701896397 / 72057594037927936, "0.05"⟩,
     maximum := some ⟨4278419646001971 / 4503599627370496, "0.95"⟩ },
   { key := "net_interval", env := "WAVR_NET_INTERVAL", kind := .float, default := "15.0",
     label := "Network check interval (seconds)",
     minimum := some ⟨5, "5.0"⟩, maximum := some ⟨600, "600.0"⟩ },
   { key := "occupancy_log", env := "WAVR_OCCUPANCY_LOG", kind := .bool, default := "1",
     label := "Remember room history" },
   { key := "occupancy_retention_days", env := "WAVR_OCCUPANCY_RETENTION_DAYS", kind := .float,
     default := "60", label := "Keep room history for (days)",
     minimum := some ⟨1, "1.0"⟩, maximum := some ⟨730, "730.0"⟩ }]

/-- `SPECS_BY_KEY.get`. -/
def specOf (key : String) : Option SettingSpec := SETTING_SPECS.find? fun s => s.key = key

def TRUE : List String := ["1", "true", "yes", "on"]
def FALSE : List String := ["0", "false", "no", "off", ""]

/-- The truth value that `config` and the prerequisite check read. -/
def isOn (value : String) : Bool := lower (strip value) ∈ TRUE

/-- What `float(raw)` gives. -/
inductive FloatReading
  | finite (q : ℚ)
  /-- NaN or an infinity. -/
  | notFinite
  /-- TypeError or ValueError. -/
  | refused
  /-- OverflowError, of an integer too large for a float. -/
  | overflow
  deriving DecidableEq

/-- A value as it arrives, given by the readings that `coerce` takes of it. -/
structure Raw where
  /-- The value itself, where it is a `bool`. -/
  bool : Option Bool
  str : String
  float : FloatReading
  deriving DecidableEq

/-- `repr` of a string and `str` of a float. -/
structure Platform where
  repr : String → String
  floatStr : ℚ → String

inductive SetError
  /-- SettingsError, with its text. -/
  | settings (text : String)
  | overflow
  deriving DecidableEq

variable (pf : Platform)

def truncInt (q : ℚ) : ℤ := if 0 ≤ q then ⌊q⌋ else ⌈q⌉

def coerceBool (spec : SettingSpec) (raw : Raw) : Except SetError String :=
  match raw.bool with
  | some b => .ok (if b then "1" else "0")
  | none =>
    let val := lower (strip raw.str)
    if val ∈ TRUE then .ok "1"
    else if val ∈ FALSE then .ok "0"
    else .error (.settings
      (spec.key ++ " must be true or false (got " ++ pf.repr (truncate 32 raw.str) ++ ")"))

def coerceChoice (spec : SettingSpec) (raw : Raw) : Except SetError String :=
  let val := strip raw.str
  if val ∈ spec.choices then .ok val
  else .error (.settings
    (spec.key ++ " must be one of [" ++ ", ".intercalate (spec.choices.map pf.repr) ++ "]"))

def coerceNumber (spec : SettingSpec) (raw : Raw) : Except SetError String :=
  match raw.float with
  | .overflow => .error .overflow
  | .refused => .error (.settings (spec.key ++ " must be a number"))
  | .notFinite => .error (.settings (spec.key ++ " must be a finite number"))
  | .finite num =>
    match spec.minimum.filter fun b => num < b.value, spec.maximum.filter fun b => b.value < num with
    | some b, _ => .error (.settings (spec.key ++ " must be at least " ++ b.text))
    | none, some b => .error (.settings (spec.key ++ " must be at most " ++ b.text))
    | none, none => .ok (if spec.kind = .int then toString (truncInt num) else pf.floatStr num)

def coerceStr (spec : SettingSpec) (raw : Raw) : Except SetError String :=
  let val := truncate 128 (collapse raw.str)
  if val = "" then .error (.settings (spec.key ++ " must not be empty"))
  else if val.toList.any fun c => c = '\r' ∨ c = '\n' ∨ c = '\x00' then
    .error (.settings (spec.key ++ " contains an illegal character"))
  else .ok val

/-- Check one value and normalise it to what `config` reads. -/
def coerce (spec : SettingSpec) (raw : Raw) : Except SetError String :=
  match spec.kind with
  | .bool => coerceBool pf spec raw
  | .choice => coerceChoice pf spec raw
  | .int => coerceNumber pf spec raw
  | .float => coerceNumber pf spec raw
  | .str => coerceStr spec raw

structure SettingsStore where
  /-- The table. -/
  settings : Dict String String
  /-- `_EXPORTED_BY_US`, of the process. -/
  exported : Dict String String
  deriving DecidableEq

/-- The environment of the process. -/
abbrev Env := Dict String String

/-- The variable is there and not empty. -/
def defines (env : Env) (name : String) : Option String := (env.get? name).filter (· ≠ "")

inductive Source
  | env
  | stored
  | default
  deriving DecidableEq, Repr

structure Effective where
  value : String
  source : Source
  locked : Bool
  deriving DecidableEq

def effectiveOf (env : Env) (spec : SettingSpec) (s : SettingsStore) : Effective :=
  -- a variable that still holds what this process exported is not the operator's
  match (defines env spec.env).filter fun v => s.exported.get? spec.env ≠ some v with
  | some v => ⟨v, .env, true⟩
  | none =>
    match s.settings.get? spec.key with
    | some v => ⟨v, .stored, false⟩
    | none => ⟨spec.default, .default, false⟩

/-- `none` is the SettingsError for an unknown key. -/
def effective (env : Env) (key : String) (s : SettingsStore) : Option Effective :=
  (specOf key).map fun spec => effectiveOf env spec s

/-- The setting resolves to an on-value. -/
def effectivelyOn (env : Env) (key : String) (s : SettingsStore) : Bool :=
  (effective env key s).any fun e => isOn e.value

def set (env : Env) (key : String) (value : Raw) (consent : Option String) (s : SettingsStore) :
    Except SetError String × SettingsStore :=
  match specOf key with
  | none => (.error (.settings ("unknown setting: " ++ key)), s)
  | some spec =>
    if spec.sensitive ∧ consent ≠ some CONSENT_PHRASE then
      (.error (.settings (key ++ " changes what Wavr is exposed to — it needs an explicit " ++
        "acknowledgement (consent='" ++ CONSENT_PHRASE ++ "')")), s)
    else
      match coerce pf spec value with
      | .error e => (.error e, s)
      | .ok val =>
        -- only turning on is checked; what depends on this key is not looked at
        match (if val = "1" then spec.requires else []).find? fun n => ¬ effectivelyOn env n s with
        | some needed =>
          (.error (.settings (pf.repr spec.label ++ " needs " ++
            pf.repr (((specOf needed).map SettingSpec.label).getD needed) ++
            " to be on first. Turn that on and save it, then come back to this one.")), s)
        | none => (.ok val, { s with settings := s.settings.set key val })

def unset (key : String) (s : SettingsStore) : Bool × SettingsStore :=
  let exported := match specOf key with
    | some spec => s.exported.erase spec.env
    | none => s.exported
  ((s.settings.get? key).isSome, { settings := s.settings.erase key, exported })

/-- One row's turn in the export: environment, claims, and the names set so far. -/
def exportRow (st : Env × Dict String String × List String) (row : String × String) :
    Env × Dict String String × List String :=
  match specOf row.1 with
  | none => st
  | some spec =>
    if (defines st.1 spec.env).isSome then st
    else (st.1.set spec.env row.2, st.2.1.set spec.env row.2, st.2.2 ++ [spec.env])

def exportToEnv (env : Env) (s : SettingsStore) : Env × SettingsStore × List String :=
  let (env, exported, applied) := s.settings.entries.foldl exportRow (env, s.exported, [])
  (env, { s with exported }, applied)

inductive Op
  | set (key : String) (value : Raw) (consent : Option String)
  | unset (key : String)
  deriving DecidableEq

def step (env : Env) (s : SettingsStore) : Op → SettingsStore
  | .set key value consent => (set pf env key value consent s).2
  | .unset key => (unset key s).2

/-! ## The allow-list -/

theorem specOf_eq_some {key : String} {spec : SettingSpec} :
    specOf key = some spec ↔ spec ∈ SETTING_SPECS ∧ spec.key = key := by
  have hnodup : (SETTING_SPECS.map SettingSpec.key).Nodup := by decide
  have hkeys : ∀ a ∈ SETTING_SPECS, ∀ b ∈ SETTING_SPECS, a.key = b.key → a = b := fun a ha b hb =>
    List.inj_on_of_nodup_map hnodup ha hb
  constructor
  · intro h
    exact ⟨List.mem_of_find?_eq_some h, by simpa using List.find?_some h⟩
  · rintro ⟨hmem, rfl⟩
    cases hf : specOf spec.key with
    | none => simpa using List.find?_eq_none.mp hf spec hmem
    | some other =>
      have hkey : other.key = spec.key := by simpa using List.find?_some hf
      rw [hkeys other (List.mem_of_find?_eq_some hf) spec hmem hkey]

/-- No two settings share a variable. -/
theorem env_injective : ∀ a ∈ SETTING_SPECS, ∀ b ∈ SETTING_SPECS, a.env = b.env → a = b := by
  have hnodup : (SETTING_SPECS.map SettingSpec.env).Nodup := by decide
  exact fun a ha b hb => List.inj_on_of_nodup_map hnodup ha hb

/-- Every prerequisite is a setting that is off by default, and never the setting itself. -/
theorem requires_facts : ∀ spec ∈ SETTING_SPECS, ∀ needed ∈ spec.requires, needed ≠ spec.key ∧
    ∃ other ∈ SETTING_SPECS, other.key = needed ∧ isOn other.default = false := by
  decide

/-! ## Prerequisites -/

/-- Every switch that is stored on has its prerequisites on. -/
def BootSafe (env : Env) (s : SettingsStore) : Prop :=
  ∀ spec ∈ SETTING_SPECS, s.settings.get? spec.key = some "1" →
    ∀ needed ∈ spec.requires, effectivelyOn env needed s = true

/-- The environment that the next start reads has no switch on without its prerequisites. -/
def ExportSafe (env : Env) (s : SettingsStore) : Prop :=
  ∀ spec ∈ SETTING_SPECS, (exportToEnv env s).1.get? spec.env = some "1" →
    ∀ needed ∈ spec.requires, ∃ other v, specOf needed = some other ∧
      (exportToEnv env s).1.get? other.env = some v ∧ isOn v = true

/-- The call stores an off-value under `key`, or takes its stored value away. -/
def SetsOff (key : String) (op : Op) : Prop :=
  op = .unset key ∨ ∃ value consent spec val, op = .set key value consent ∧
    specOf key = some spec ∧ (spec.sensitive = true → consent = some CONSENT_PHRASE) ∧
    coerce pf spec value = .ok val ∧ isOn val = false

/-- No prerequisite of a switch that is stored on is turned off. -/
def Harmless (s : SettingsStore) (op : Op) : Prop :=
  ∀ spec ∈ SETTING_SPECS, s.settings.get? spec.key = some "1" →
    ∀ needed ∈ spec.requires, ¬ SetsOff pf needed op

section
variable {env : Env} {s : SettingsStore}

/-- An environment that does not define the settings leaves the stored value or the default. -/
theorem effectivelyOn_eq (hfix : ∀ spec ∈ SETTING_SPECS, defines env spec.env = none)
    {key : String} {spec : SettingSpec} (h : specOf key = some spec) :
    effectivelyOn env key s = isOn ((s.settings.get? key).getD spec.default) := by
  obtain ⟨hmem, rfl⟩ := specOf_eq_some.mp h
  simp only [effectivelyOn, effective, h, Option.map_some, Option.any_some, effectiveOf, hfix spec hmem,
    Option.filter_none]
  cases s.settings.get? spec.key <;> rfl

theorem set_accepted {key : String} {value : Raw} {consent : Option String} {val : String}
    (h : (set pf env key value consent s).1 = .ok val) :
    ∃ spec, specOf key = some spec ∧ coerce pf spec value = .ok val ∧
      (spec.sensitive = true → consent = some CONSENT_PHRASE) ∧
      (val = "1" → ∀ n ∈ spec.requires, effectivelyOn env n s = true) ∧
      (set pf env key value consent s).2.settings = s.settings.set key val := by
  unfold set at h ⊢
  split at h
  · cases h
  · rename_i spec hspec
    split at h
    · cases h
    · rename_i hcons
      split at h
      · cases h
      · rename_i v hv
        split at h
        · cases h
        · rename_i hnone
          cases h
          rw [hspec, if_neg hcons]
          refine ⟨spec, rfl, hv, fun hs => ?_, fun hone n hn => ?_, rfl⟩
          · by_contra hc
            exact hcons ⟨hs, hc⟩
          · rw [if_pos hone] at hnone
            simpa using List.find?_eq_none.mp hnone n hn

theorem set_refused {key : String} {value : Raw} {consent : Option String} {e : SetError}
    (h : (set pf env key value consent s).1 = .error e) :
    (set pf env key value consent s).2 = s := by
  unfold set at h ⊢
  split at h
  · rfl
  · split at h
    · rename_i hcons
      simp only [if_pos hcons]
    · rename_i hcons
      simp only [if_neg hcons]
      split at h
      · rfl
      · split at h
        · rfl
        · cases h

/-- Nothing but a missing consent stands in the way of an off-value. -/
theorem set_off {key : String} {value : Raw} {consent : Option String} {spec : SettingSpec}
    {val : String} (hspec : specOf key = some spec)
    (hcons : spec.sensitive = true → consent = some CONSENT_PHRASE)
    (hval : coerce pf spec value = .ok val) (hoff : isOn val = false) :
    (set pf env key value consent s).1 = .ok val := by
  have hone : val ≠ "1" := by
    rintro rfl
    revert hoff
    decide
  unfold set
  simp only [hspec]
  rw [if_neg fun h => h.2 (hcons h.1)]
  simp only [hval, if_neg hone, List.find?_nil]

theorem bootSafe_step (hfix : ∀ spec ∈ SETTING_SPECS, defines env spec.env = none)
    (hs : BootSafe env s) {op : Op} (hok : Harmless pf s op) : BootSafe env (step pf env s op) := by
  intro spec hspec hone needed hneeded
  obtain ⟨hne, other, hother, rfl, -⟩ := requires_facts spec hspec needed hneeded
  have hso : specOf other.key = some other := specOf_eq_some.mpr ⟨hother, rfl⟩
  rw [effectivelyOn_eq hfix hso]
  cases op with
  | set key value consent =>
    rw [step] at hone ⊢
    cases hres : (set pf env key value consent s).1 with
    | error e =>
      rw [set_refused pf hres] at hone ⊢
      rw [← effectivelyOn_eq hfix hso]
      exact hs spec hspec hone _ hneeded
    | ok val =>
      obtain ⟨spec', hspec', hval, hcons, hreq, hset⟩ := set_accepted pf hres
      rw [hset, Dict.get?_set] at hone ⊢
      by_cases hk : spec.key = key
      · -- the switch itself was turned on: its prerequisites were checked
        subst hk
        rw [if_pos rfl] at hone
        cases hone
        have he : spec' = spec := Option.some.inj (hspec'.symm.trans (specOf_eq_some.mpr ⟨hspec, rfl⟩))
        subst he
        rw [if_neg hne, ← effectivelyOn_eq hfix hso]
        exact hreq rfl _ hneeded
      · rw [if_neg hk] at hone
        -- the switch was on before; the call may have written its prerequisite
        have hbefore := hs spec hspec hone _ hneeded
        rw [effectivelyOn_eq hfix hso] at hbefore
        split
        · rename_i hkey
          subst hkey
          by_contra hoff
          -- were the new value off, the call would have turned off a prerequisite
          refine hok spec hspec hone _ hneeded (.inr ⟨value, consent, spec', val, rfl, hspec', hcons, hval, ?_⟩)
          simpa using hoff
        · exact hbefore
  | unset key =>
    simp only [step, unset, Dict.get?_erase] at hone ⊢
    split at hone
    · cases hone
    · have hbefore := hs spec hspec hone _ hneeded
      rw [effectivelyOn_eq hfix hso] at hbefore
      split
      · rename_i hkey
        subst hkey
        exact absurd (.inl rfl) (hok spec hspec hone _ hneeded)
      · exact hbefore

theorem not_bootSafe_step (hfix : ∀ spec ∈ SETTING_SPECS, defines env spec.env = none) {op : Op}
    (hbad : ¬ Harmless pf s op) : ¬ BootSafe env (step pf env s op) := by
  simp only [Harmless, not_forall, not_not] at hbad
  obtain ⟨spec, hspec, hone, needed, hneeded, hoff⟩ := hbad
  obtain ⟨hne, other, hother, rfl, hdefault⟩ := requires_facts spec hspec needed hneeded
  have hso : specOf other.key = some other := specOf_eq_some.mpr ⟨hother, rfl⟩
  intro hsafe
  have hon : spec.key ≠ other.key := hne.symm
  rcases hoff with rfl | ⟨value, consent, spec', val, rfl, hspec', hcons, hval, hval'⟩
  · have h := hsafe spec hspec (by simpa [step, unset, hon] using hone) _ hneeded
    rw [effectivelyOn_eq hfix hso] at h
    simp [step, unset, hdefault] at h
  · have hres : (set pf env other.key value consent s).1 = .ok val :=
      set_off pf hspec' hcons hval hval'
    obtain ⟨-, -, -, -, -, hset⟩ := set_accepted pf hres
    have h := hsafe spec hspec (by rw [step, hset, Dict.get?_set_ne _ hon, hone]) _ hneeded
    rw [effectivelyOn_eq hfix hso, step, hset] at h
    simp [hval'] at h

/-- What the export publishes so far: rows still to come have left their variable alone, the
others have published their value. -/
def Published (env : Env) (s : SettingsStore) (es : List (String × String))
    (st : Env × Dict String String × List String) : Prop :=
  (∀ e ∈ es, s.settings.get? e.1 = some e.2) ∧
    ∀ spec ∈ SETTING_SPECS, st.1.get? spec.env =
      if spec.key ∈ es.map Prod.fst then env.get? spec.env
      else match s.settings.get? spec.key with
        | some v => some v
        | none => env.get? spec.env

theorem published_exportRow (hfix : ∀ spec ∈ SETTING_SPECS, defines env spec.env = none)
    {e : String × String} {es : List (String × String)}
    {st : Env × Dict String String × List String} (he : e.1 ∉ es.map Prod.fst)
    (h : Published env s (e :: es) st) : Published env s es (exportRow st e) := by
  refine ⟨fun e' he' => h.1 e' (List.mem_cons_of_mem e he'), fun spec hspec => ?_⟩
  have hst := h.2 spec hspec
  have hlater : spec.key ≠ e.1 → (spec.key ∈ (e :: es).map Prod.fst ↔ spec.key ∈ es.map Prod.fst) :=
    fun hne => by rw [List.map_cons, List.mem_cons, or_iff_right hne]
  unfold exportRow
  cases hs : specOf e.1 with
  | none =>
    have hne : spec.key ≠ e.1 := by
      intro hk
      rw [specOf_eq_some.mpr ⟨hspec, hk⟩] at hs
      cases hs
    simpa only [hlater hne] using hst
  | some spec₀ =>
    obtain ⟨hmem₀, hkey₀⟩ := specOf_eq_some.mp hs
    -- the row's own variable is still as it was, as no other setting has it
    have hopen : (defines st.1 spec₀.env).isSome = false := by
      have h₀ := h.2 spec₀ hmem₀
      rw [if_pos (by simp [hkey₀])] at h₀
      have hd := hfix spec₀ hmem₀
      unfold defines at hd ⊢
      rw [h₀, hd]
      rfl
    simp only [hopen, Bool.false_eq_true, if_false, Dict.get?_set]
    by_cases hk : spec.key = e.1
    · have : spec = spec₀ := Option.some.inj ((specOf_eq_some.mpr ⟨hspec, hk⟩).symm.trans hs)
      subst this
      rw [if_pos rfl, if_neg (by rwa [hk]), hk, h.1 e List.mem_cons_self]
    · have hne : spec.env ≠ spec₀.env := fun henv => hk (by
        rw [env_injective spec hspec spec₀ hmem₀ henv, hkey₀])
      rw [if_neg hne, hst]
      simp only [hlater hk]

/-- What the export publishes under the variable of a setting the environment leaves open. -/
theorem get?_exportToEnv (hfix : ∀ spec ∈ SETTING_SPECS, defines env spec.env = none)
    {spec : SettingSpec} (hspec : spec ∈ SETTING_SPECS) :
    (exportToEnv env s).1.get? spec.env =
      match s.settings.get? spec.key with
      | some v => some v
      | none => env.get? spec.env := by
  have h := Dict.foldl_entries (f := exportRow) (R := Published env s)
    (fun e es st he h => published_exportRow hfix he h) s.settings (s := (env, s.exported, []))
    ⟨fun e he => Dict.mem_entries.mp he, fun spec _ => ?_⟩
  · simpa [exportToEnv] using h.2 spec hspec
  · split
    · rfl
    · rename_i hk
      have hnone : s.settings.get? spec.key = none := by
        by_contra hn
        exact hk (Dict.mem_keys.mpr (Option.isSome_iff_ne_none.mpr hn))
      rw [hnone]

theorem exportSafe_of_bootSafe (hfix : ∀ spec ∈ SETTING_SPECS, defines env spec.env = none)
    (hs : BootSafe env s) : ExportSafe env s := by
  intro spec hspec hone needed hneeded
  obtain ⟨-, other, hother, rfl, hdefault⟩ := requires_facts spec hspec needed hneeded
  have hso : specOf other.key = some other := specOf_eq_some.mpr ⟨hother, rfl⟩
  have hopen : ∀ spec ∈ SETTING_SPECS, env.get? spec.env ≠ some "1" := by
    intro spec hspec h
    have hd := hfix spec hspec
    rw [defines, h] at hd
    revert hd
    decide
  have hstored : s.settings.get? spec.key = some "1" := by
    rw [get?_exportToEnv hfix hspec] at hone
    cases hg : s.settings.get? spec.key with
    | none =>
      rw [hg] at hone
      exact absurd hone (hopen spec hspec)
    | some v => rwa [hg] at hone
  have hon := hs spec hspec hstored _ hneeded
  rw [effectivelyOn_eq hfix hso] at hon
  refine ⟨other, ?_⟩
  rw [get?_exportToEnv hfix hother]
  cases hg : s.settings.get? other.key with
  | none =>
    rw [hg, Option.getD_none, hdefault] at hon
    cases hon
  | some v => exact ⟨v, hso, rfl, by simpa [hg] using hon⟩

end

/-- An empty table, in a process that has published `exported` before. -/
def init (exported : Dict String String) : SettingsStore := ⟨.empty, exported⟩

/-- Under an environment that does not define the settings, every switch stored on has its
prerequisites on in every state of a run, and in the environment exported from it, exactly
when no call turns off a prerequisite of a switch that is stored on. -/
theorem bootSafe_iff (env : Env) (exported : Dict String String) (ops : List Op)
    (hfix : ∀ spec ∈ SETTING_SPECS, defines env spec.env = none) :
    AllStates (step pf env) (fun s => BootSafe env s ∧ ExportSafe env s) (init exported) ops ↔
      AllSteps (step pf env) (Harmless pf) (init exported) ops :=
  allStates_iff_allSteps (I := BootSafe env) (fun _ _ hs hok => bootSafe_step pf hfix hs hok)
    (fun _ hs => ⟨hs, exportSafe_of_bootSafe hfix hs⟩)
    (fun _ _ _ hn hs => not_bootSafe_step pf hfix hn hs.1)
    (fun _ _ h => by cases h)

/-- The interpreter, as far as the sample runs go: they print no float and raise nothing. -/
def samplePlatform : Platform where
  repr s := "'" ++ s ++ "'"
  floatStr _ := "0.5"

def rawBool (b : Bool) : Raw := ⟨some b, if b then "True" else "False", .finite (if b then 1 else 0)⟩

/-- LAN access is turned on, then sensor nodes. -/
def sampleOn : List Op :=
  [.set "lan_access" (rawBool true) (some CONSENT_PHRASE),
    .set "nodes_enabled" (rawBool true) (some CONSENT_PHRASE)]

theorem bootSafe_sample :
    AllStates (step samplePlatform .empty)
        (fun s => BootSafe .empty s ∧ ExportSafe .empty s) (init .empty) sampleOn ↔
      AllSteps (step samplePlatform .empty) (Harmless samplePlatform) (init .empty) sampleOn :=
  bootSafe_iff samplePlatform .empty .empty sampleOn (by decide)

/-- LAN access is turned off again while sensor nodes stay on. -/
theorem nodes_without_lan :
    ¬ AllStates (step samplePlatform .empty)
        (fun s => BootSafe .empty s ∧ ExportSafe .empty s) (init .empty)
        (sampleOn ++ [.set "lan_access" (rawBool false) (some CONSENT_PHRASE)]) ∧
      ¬ AllStates (step samplePlatform .empty)
        (fun s => BootSafe .empty s ∧ ExportSafe .empty s) (init .empty)
        (sampleOn ++ [.unset "lan_access"]) := by
  constructor <;> intro h <;> refine absurd h.last.1 ?_ <;> unfold BootSafe <;> decide

end Wavr.Settings
