import Wavr.NetshLayout

/-!
# The verdict and the rules' own fields

The tally over printed rules, and when scanning all values of a rule gives what its fields say.
-/

namespace Wavr.LanReachability
open Lines Text

variable {u : Unicode}

/-! ## What the fields say -/

def Rule.enabled (r : Rule u) : Bool := Field.enabled true ∈ r.fields

/-- The program in its own field, or exactly the port in its own. -/
def governs (u : Unicode) (program : List Char) (port : ℕ) : Field → Bool
  | .program path => named u program (u.lower path)
  | .localPort (.ports items) => port ≠ 0 ∧ .single port ∈ items
  | _ => false

def covers (ativos : Finset Profile) : Field → Bool
  | .profiles none => ativos.Nonempty
  | .profiles (some listed) => ∃ p ∈ listed, p ∈ ativos
  | _ => false

def Verdict.action : Verdict → Action
  | .allow => .allow
  | .block => .block

/-- An enabled rule of this action that matches the Core and an active profile. -/
def Rule.effect (r : Rule u) (ativos : Finset Profile) (program : List Char) (port : ℕ) (v : Verdict) : Bool :=
  r.enabled ∧ r.fields.any (governs u program port) ∧ r.fields.any (covers ativos) ∧ .action v.action ∈ r.fields

/-- The same, from the values of all fields. -/
def Rule.scanned (r : Rule u) (ativos : Finset Profile) (program : List Char) (port : ℕ) (v : Verdict) : Bool :=
  LanReachability.enabled u r.block ∧ matchesRule u r.block program port = some true ∧
    (∃ p ∈ profilesOf u r.block, p ∈ ativos) ∧ verdictOf u r.block = some v

def namesOf (p : Rule u → Bool) (rs : List (Rule u)) : List (List Char) := (rs.filter p).map Rule.name

section
variable (ativos : Finset Profile) (program : List Char) (port : ℕ) (rs : List (Rule u))

/-- The firewall's verdict. -/
def Correct (result : Option Reachability) : Prop :=
  ∃ res, result = some res ∧
    (res.state = .blocked ↔ ∃ r ∈ rs, r.effect ativos program port .block = true) ∧
    (res.state = .allowed ↔
      (¬ ∃ r ∈ rs, r.effect ativos program port .block = true) ∧
        ∃ r ∈ rs, r.effect ativos program port .allow = true) ∧
    (res.state = .blocked → res.rules = namesOf (fun r => r.effect ativos program port .block) rs) ∧
    (res.state = .allowed → res.rules = namesOf (fun r => r.effect ativos program port .allow) rs)

/-- No number makes the scan raise, and by name the rules that block in the scan of all values are those
that block; where none does, likewise for those that allow. -/
def Agree : Prop :=
  (∀ r ∈ rs, matchesRule u r.block program port ≠ none) ∧
    namesOf (fun r => r.scanned ativos program port .block) rs =
      namesOf (fun r => r.effect ativos program port .block) rs ∧
    ((∀ r ∈ rs, r.effect ativos program port .block = false) →
      namesOf (fun r => r.scanned ativos program port .allow) rs =
        namesOf (fun r => r.effect ativos program port .allow) rs)

end

/-- The name and the values of the fields with another key. -/
def Rule.valuesBut (r : Rule u) (key : String) : List (List Char) :=
  r.name :: (r.fields.filter fun f => f.key ≠ key.toList).map Field.value

/-- No value looks like that of another field. -/
structure Rule.Clean (r : Rule u) (program : List Char) (port : ℕ) : Prop where
  enabled : ∀ v ∈ r.valuesBut "Enabled", isNo u v = false
  action : ∀ v ∈ r.valuesBut "Action", actionWord u v = none
  profiles : ∀ v ∈ r.valuesBut "Profiles", profileList u v = none
  program : named u program (u.lower ([' '].intercalate r.values)) = true →
    ∃ path, .program path ∈ r.fields ∧ named u program (u.lower path) = true
  port : ∀ v ∈ r.valuesBut "LocalPort", ∀ token ∈ tokens v, token.all u.isdigit = true →
    ∃ n, pyInt u token = some n ∧ n ≠ port

/-! ## The tally -/

theorem lower_const (u : Unicode) {s : List Char} (h : s.all (fun c => c.toNat < 128) = true) :
    u.lower s = s.map Char.toLower :=
  u.lower_ascii s fun c hc => by simpa using List.all_eq_true.mp h c hc

theorem rotulo_block (r : Rule u) : rotulo r.block = r.name := by
  have hkey : isNameKey (u.lower NAME_KEY) = true := by
    rw [lower_const u (by decide)]
    decide
  have hfind : r.block.entries.find? (fun e => isNameKey e.1) = some (u.lower NAME_KEY, r.name) := by
    rw [Rule.block_entries, List.find?_cons]
    simp [hkey]
  rw [rotulo, hfind]
  exact if_neg r.name_ne

section
variable {ativos : Finset Profile} {program : List Char} {port : ℕ}

/-- What one rule adds. -/
theorem tallyBlock_block (hactive : ativos.Nonempty) (r : Rule u)
    (hmatch : matchesRule u r.block program port ≠ none)
    (t : Tally) : ∃ t', tallyBlock u ativos program port t r.block = some t' ∧
      t'.blocking = t.blocking ++ (if r.scanned ativos program port .block then [r.name] else []) ∧
      t'.allowing = t.allowing ++ (if r.scanned ativos program port .allow then [r.name] else []) := by
  obtain ⟨hit, hhit⟩ := Option.ne_none_iff_exists'.mp hmatch
  rw [tallyBlock, hhit, Option.map_some]
  refine ⟨_, rfl, ?_⟩
  rw [rotulo_block]
  by_cases hm : hit = true
  · by_cases he : LanReachability.enabled u r.block = true
    · by_cases hp : ∃ p ∈ profilesOf u r.block, p ∈ ativos
      · cases hv : verdictOf u r.block with
        | none => simp [Rule.scanned, hhit, hm, he, hp, hv]
        | some v => cases v <;> simp [Rule.scanned, hhit, hm, he, hp, hv]
      · by_cases hv : verdictOf u r.block = some .allow <;> simp [Rule.scanned, hm, he, hp, hv, hactive]
    · simp [Rule.scanned, hm, he]
  · simp [Rule.scanned, hhit, hm]

theorem namesOf_cons (p : Rule u → Bool) (r : Rule u) (rs : List (Rule u)) :
    namesOf p (r :: rs) = (if p r then [r.name] else []) ++ namesOf p rs := by
  by_cases h : p r = true <;> simp [namesOf, h]

theorem foldlM_blocks (hactive : ativos.Nonempty) {rs : List (Rule u)}
    (hmatch : ∀ r ∈ rs, matchesRule u r.block program port ≠ none) (t : Tally) :
    ∃ t', (rs.map Rule.block).foldlM (tallyBlock u ativos program port) t = some t' ∧
      t'.blocking = t.blocking ++ namesOf (fun r => r.scanned ativos program port .block) rs ∧
      t'.allowing = t.allowing ++ namesOf (fun r => r.scanned ativos program port .allow) rs := by
  induction rs generalizing t with
  | nil => exact ⟨t, rfl, by simp [namesOf], by simp [namesOf]⟩
  | cons r rs ih =>
    obtain ⟨t₁, hstep, hblocking, hallowing⟩ := tallyBlock_block hactive r (hmatch r List.mem_cons_self) t
    obtain ⟨t', hrest, hblocking', hallowing'⟩ := ih (fun r' hr' => hmatch r' (List.mem_cons_of_mem r hr')) t₁
    refine ⟨t', ?_, ?_, ?_⟩
    · rw [List.map_cons, List.foldlM_cons, hstep]
      exact hrest
    · rw [hblocking', hblocking, namesOf_cons, List.append_assoc]
    · rw [hallowing', hallowing, namesOf_cons, List.append_assoc]

theorem foldlM_none {rs : List (Rule u)} {r : Rule u} (hr : r ∈ rs)
    (hnone : matchesRule u r.block program port = none) (t : Tally) :
    (rs.map Rule.block).foldlM (tallyBlock u ativos program port) t = none := by
  induction rs generalizing t with
  | nil => cases hr
  | cons r' rs ih =>
    rw [List.map_cons, List.foldlM_cons]
    cases hstep : tallyBlock u ativos program port t r'.block with
    | none => rfl
    | some t' =>
      rcases List.mem_cons.mp hr with rfl | hr
      · rw [tallyBlock, hnone] at hstep
        cases hstep
      · exact ih hr t'

theorem compute_printed (crlf : Bool) (pad : List Char → ℕ) (rs : List (Rule u)) :
    compute u true (printed crlf pad rs) ativos program port =
      ((rs.map Rule.block).foldlM (tallyBlock u ativos program port) {}).map (verdict ativos) := by
  have hmem : 'O' ∈ printed crlf pad rs := by
    simp [printed, written]
  have hne : stripped (printed crlf pad rs) ≠ [] := stripOf_ne_nil hmem (by decide)
  rw [compute, if_neg (by simp), if_neg hne, blocks_printed]

theorem namesOf_eq_nil {p : Rule u → Bool} {rs : List (Rule u)} : namesOf p rs = [] ↔ ¬ ∃ r ∈ rs, p r = true := by
  simp [namesOf, List.filter_eq_nil_iff]

theorem verdict_state (ativos : Finset Profile) (t : Tally) :
    ((verdict ativos t).state = .blocked ↔ t.blocking ≠ []) ∧
    ((verdict ativos t).state = .allowed ↔ t.blocking = [] ∧ t.allowing ≠ []) := by
  have hne : State.blocked ≠ .allowed ∧ State.allowed ≠ .blocked ∧ State.unknown ≠ .blocked ∧
    State.unknown ≠ .allowed := by
    decide
  by_cases hb : t.blocking ≠ []
  · rw [verdict, if_pos hb]
    exact ⟨iff_of_true rfl hb, iff_of_false hne.1 fun h => hb h.1⟩
  · have hb' := not_not.mp hb
    by_cases ha : t.allowing ≠ []
    · rw [verdict, if_neg hb, if_pos ha]
      exact ⟨iff_of_false hne.2.1 hb, iff_of_true rfl ⟨hb', ha⟩⟩
    · rw [verdict, if_neg hb, if_neg ha]
      split
      · exact ⟨iff_of_false hne.2.2.1 hb, iff_of_false hne.2.2.2 fun h => ha h.2⟩
      · exact ⟨iff_of_false hne.2.2.1 hb, iff_of_false hne.2.2.2 fun h => ha h.2⟩

theorem verdict_rules (ativos : Finset Profile) (t : Tally) :
    ((verdict ativos t).state = .blocked → (verdict ativos t).rules = t.blocking) ∧
    ((verdict ativos t).state = .allowed → (verdict ativos t).rules = t.allowing) := by
  obtain ⟨hblocked, hallowed⟩ := verdict_state ativos t
  refine ⟨fun h => ?_, fun h => ?_⟩
  · rw [verdict, if_pos (hblocked.mp h)]
  · obtain ⟨hb, ha⟩ := hallowed.mp h
    rw [verdict, if_neg (not_not.mpr hb), if_pos ha]

/-- The verdict over a tally, against the rules' own fields. -/
theorem correct_verdict_iff (t : Tally) (rs : List (Rule u)) :
    Correct ativos program port rs (some (verdict ativos t)) ↔
      t.blocking = namesOf (fun r => r.effect ativos program port .block) rs ∧
        (namesOf (fun r => r.effect ativos program port .block) rs = [] →
          t.allowing = namesOf (fun r => r.effect ativos program port .allow) rs) := by
  obtain ⟨hblocked, hallowed⟩ := verdict_state ativos t
  obtain ⟨hblockedRules, hallowedRules⟩ := verdict_rules ativos t
  have hsome : ∀ p : Rule u → Bool, (∃ r ∈ rs, p r = true) ↔ namesOf p rs ≠ [] := fun p =>
    (not_iff_comm.mp namesOf_eq_nil.symm).symm
  constructor
  · rintro ⟨res, hres, hstate₁, hstate₂, hrules₁, hrules₂⟩
    obtain rfl := Option.some.inj hres
    rw [hblocked, hsome] at hstate₁
    rw [hallowed, hsome, hsome, not_not] at hstate₂
    by_cases hb : t.blocking = []
    · have hnone := not_not.mp fun h => hstate₁.mpr h hb
      refine ⟨hb.trans hnone.symm, fun _ => ?_⟩
      by_cases ha : t.allowing = []
      · have hnone' := not_not.mp fun h => (hstate₂.mpr ⟨hnone, h⟩).2 ha
        exact ha.trans hnone'.symm
      · exact (hallowedRules (hallowed.mpr ⟨hb, ha⟩)).symm.trans (hrules₂ (hallowed.mpr ⟨hb, ha⟩))
    · refine ⟨(hblockedRules (hblocked.mpr hb)).symm.trans (hrules₁ (hblocked.mpr hb)), fun hnone => ?_⟩
      exact absurd hnone (hstate₁.mp hb)
  · rintro ⟨hb, ha⟩
    refine ⟨_, rfl, ?_, ?_, fun h => (hblockedRules h).trans hb, fun h => ?_⟩
    · rw [hblocked, hsome, hb]
    · rw [hallowed, hsome, hsome, hb, not_not]
      exact and_congr_right fun hnone => by rw [ha hnone]
    · have hnone := hb.symm.trans (hallowed.mp h).1
      exact (hallowedRules h).trans (ha hnone)

/-- The verdict is the firewall's exactly when the scans agree with the fields. -/
theorem correct_iff_agree (crlf : Bool) (pad : List Char → ℕ) (hactive : ativos.Nonempty) (rs : List (Rule u)) :
    Correct ativos program port rs (compute u true (printed crlf pad rs) ativos program port) ↔
      Agree ativos program port rs := by
  rw [compute_printed]
  by_cases hmatch : ∀ r ∈ rs, matchesRule u r.block program port ≠ none
  · obtain ⟨t, hfold, hblocking, hallowing⟩ := foldlM_blocks hactive hmatch {}
    rw [hfold, Option.map_some, correct_verdict_iff, hblocking, hallowing, List.nil_append, List.nil_append,
      namesOf_eq_nil]
    have hnone : (¬ ∃ r ∈ rs, r.effect ativos program port .block = true) ↔
        ∀ r ∈ rs, r.effect ativos program port .block = false := by simp
    rw [hnone]
    exact ⟨fun h => ⟨hmatch, h⟩, fun h => h.2⟩
  · obtain ⟨r, hr, hnone⟩ : ∃ r ∈ rs, matchesRule u r.block program port = none := by
      by_contra hnot
      exact hmatch fun r hr hnone => hnot ⟨r, hr, hnone⟩
    rw [foldlM_none hr hnone]
    exact ⟨fun ⟨res, hres, _⟩ => (nomatch hres), fun h => absurd hnone (h.1 r hr)⟩

end

/-! ## Rules whose values look like nothing else -/

section
variable {r : Rule u} {program : List Char} {port : ℕ} {ativos : Finset Profile}

theorem Rule.values_block (r : Rule u) : r.block.values = r.values := by
  simp [Dict.values, Rule.block, Rule.values, Function.comp_def]

theorem field_eq_of_key {f g : Field} (hf : f ∈ r.fields) (hg : g ∈ r.fields) (h : f.key = g.key) : f = g := by
  have hnodup := (List.nodup_cons.mp r.keys).2
  rw [List.map_map] at hnodup
  exact List.inj_on_of_nodup_map hnodup hf hg (congrArg u.lower h)

theorem mem_values (key : String) {v : List Char} (hv : v ∈ r.values) :
    v ∈ r.valuesBut key ∨ ∃ f ∈ r.fields, f.key = key.toList ∧ f.value = v := by
  rcases List.mem_cons.mp hv with rfl | hv
  · exact .inl List.mem_cons_self
  · obtain ⟨f, hf, rfl⟩ := List.mem_map.mp hv
    by_cases hkey : f.key = key.toList
    · exact .inr ⟨f, hf, hkey, rfl⟩
    · exact .inl (List.mem_cons_of_mem _ (List.mem_map_of_mem (List.mem_filter.mpr ⟨hf, by simpa using hkey⟩)))

theorem value_mem {f : Field} (hf : f ∈ r.fields) : f.value ∈ r.values :=
  List.mem_cons_of_mem _ (List.mem_map_of_mem hf)

/-- A text without blanks, in lower case. -/
theorem word_const (u : Unicode) {s : List Char} (hascii : s.all (fun c => c.toNat < 128) = true)
    (hspace : s.all (fun c => !isSpace c) = true) : word u s = s.map Char.toLower := by
  rw [word, stripped, stripOf_of_trimmed (plain_of_all hspace).2, lower_const u hascii]

theorem enabled_of_clean (hc : r.Clean program port) : LanReachability.enabled u r.block = r.enabled := by
  obtain ⟨yes, hyes⟩ := r.stated.1
  have hvalue : isNo u (Field.enabled yes).value = !yes := by
    cases yes with
    | false =>
      rw [isNo, Field.value, if_neg (by decide), word_const u (by decide) (by decide)]
      decide
    | true =>
      rw [isNo, Field.value, if_pos rfl, word_const u (by decide) (by decide)]
      decide
  have hany : r.values.any (isNo u) = !yes := by
    rw [Bool.eq_iff_iff, List.any_eq_true]
    constructor
    · rintro ⟨v, hv, hno⟩
      rcases mem_values "Enabled" hv with hbut | ⟨f, hf, hkey, rfl⟩
      · rw [hc.enabled v hbut] at hno
        cases hno
      · rwa [field_eq_of_key hf hyes hkey, hvalue] at hno
    · exact fun hyes' => ⟨_, value_mem hyes, hvalue.trans hyes'⟩
  have hown : r.enabled = yes := by
    rw [Bool.eq_iff_iff, Rule.enabled, decide_eq_true_eq]
    constructor
    · intro htrue
      have heq := field_eq_of_key htrue hyes rfl
      exact (Field.enabled.inj heq).symm
    · rintro rfl
      exact hyes
  rw [LanReachability.enabled, Rule.values_block, hany, hown]
  cases yes <;> decide

theorem findSome?_eq {α β : Type*} {g : α → Option β} {l : List α} {a : α} (ha : a ∈ l)
    (h : ∀ v ∈ l, g v = none ∨ g v = g a) : l.findSome? g = g a := by
  induction l with
  | nil => cases ha
  | cons b l ih =>
    rw [List.findSome?_cons]
    cases hb : g b with
    | some x =>
      rcases h b List.mem_cons_self with hnone | heq
      · cases hb.symm.trans hnone
      · exact hb.symm.trans heq
    | none =>
      rcases List.mem_cons.mp ha with rfl | ha
      · rw [hb]
        exact List.findSome?_eq_none_iff.mpr fun v hv => (h v (List.mem_cons_of_mem _ hv)).elim id fun heq => heq.trans hb
      · exact ih ha fun v hv => h v (List.mem_cons_of_mem b hv)

/-- Where only one field's value counts, the first value that counts is that one. -/
theorem findSome?_values {β : Type*} {g : List Char → Option β} {f : Field} (hf : f ∈ r.fields) {key : String}
    (hkey : f.key = key.toList) (h : ∀ v ∈ r.valuesBut key, g v = none) : r.values.findSome? g = g f.value := by
  refine findSome?_eq (value_mem hf) fun v hv => ?_
  rcases mem_values key hv with hbut | ⟨f', hf', hkey', rfl⟩
  · exact .inl (h v hbut)
  · exact .inr (congrArg (fun f => g f.value) (field_eq_of_key hf' hf (hkey'.trans hkey.symm)))

theorem verdictOf_of_clean (hc : r.Clean program port) (v : Verdict) :
    verdictOf u r.block = some v ↔ .action v.action ∈ r.fields := by
  obtain ⟨a, ha⟩ := r.stated.2.2
  have hown : Field.action v.action ∈ r.fields ↔ v.action = a :=
    ⟨fun hv => Field.action.inj (field_eq_of_key hv ha rfl), fun heq => heq ▸ ha⟩
  rw [verdictOf, Rule.values_block, findSome?_values ha rfl hc.action, hown, actionWord]
  cases a with
  | allow =>
    rw [Field.value, word_const u (by decide) (by decide), if_pos (by decide)]
    cases v <;> decide
  | block =>
    rw [Field.value, word_const u (by decide) (by decide), if_neg (by decide), if_pos (by decide)]
    cases v <;> decide
  | bypass =>
    rw [Field.value, word_const u (by decide) (by decide), if_neg (by decide), if_neg (by decide)]
    cases v <;> decide

theorem profileList_listed (u : Unicode) {listed : List Profile} (hne : listed ≠ []) :
    profileList u (Field.profiles (some listed)).value = some listed := by
  have hchars : ∀ c ∈ [','].intercalate (listed.map fun p => p.title.toList), c.toNat < 128 := by
    intro c hc
    rcases mem_intercalate hc with rfl | ⟨l, hl, hc⟩
    · decide
    · obtain ⟨p, _, rfl⟩ := List.mem_map.mp hl
      have hall : p.title.toList.all (fun c => c.toNat < 128) = true := by cases p <;> decide
      simpa using List.all_eq_true.mp hall c hc
  have hlower : ∀ l : List Profile, ([','].intercalate (l.map fun p => p.title.toList)).map Char.toLower =
      [','].intercalate (l.map fun p => p.text.toList) := by
    intro l
    have htitle : ∀ p : Profile, p.title.toList.map Char.toLower = p.text.toList := by
      intro p
      cases p <;> decide
    induction l with
    | nil => rfl
    | cons p l ih =>
      cases l with
      | nil => simp [htitle]
      | cons q l =>
        simp only [List.map_cons, List.intercalate_cons_cons, List.map_append, htitle] at ih ⊢
        rw [ih]
        rfl
  have hword : word u (Field.profiles (some listed)).value =
    [','].intercalate (listed.map fun p => p.text.toList) := by
    rw [word, stripped, Field.value, stripOf_of_trimmed (plain_of_no_space no_space_profiles).2,
      u.lower_ascii _ hchars,
      hlower]
  have hsplit : ([','].intercalate (listed.map fun p => p.text.toList)).splitOn ',' =
      listed.map fun p => p.text.toList := by
    refine List.splitOn_intercalate ',' (fun l hl => ?_) (by simpa using hne)
    obtain ⟨p, _, rfl⟩ := List.mem_map.mp hl
    cases p <;> decide
  have hfind : ∀ p : Profile, PERFIS.find? (fun q => q.text.toList = stripped p.text.toList) = some p := by
    intro p
    cases p <;> decide
  -- the list is none of the words for "any": its first item would be that word
  have hany : word u (Field.profiles (some listed)).value ∉ ANY_WORDS := by
    rw [hword]
    obtain ⟨p, l, rfl⟩ := List.exists_cons_of_ne_nil hne
    intro hmem
    have hhead := congrArg List.head? hsplit
    rw [List.map_cons, List.head?_cons] at hhead
    simp only [ANY_WORDS, List.mem_cons, List.not_mem_nil, or_false] at hmem
    rcases hmem with h | h | h | h <;> rw [List.map_cons] at h <;> rw [h] at hhead <;> cases p <;>
      exact absurd hhead (by decide)
  rw [profileList, if_neg hany, hword, hsplit]
  clear hne hword hsplit hany hchars
  induction listed with
  | nil => rfl
  | cons p l ih => simp [List.mapM_cons, hfind, ih]

theorem profilesOf_of_clean (hc : r.Clean program port) :
    (∃ p ∈ profilesOf u r.block, p ∈ ativos) ↔ r.fields.any (covers ativos) = true := by
  obtain ⟨ps, hps⟩ := r.stated.2.1
  have hown : r.fields.any (covers ativos) = covers ativos (.profiles ps) := by
    rw [Bool.eq_iff_iff, List.any_eq_true]
    constructor
    · rintro ⟨f, hf, hcovers⟩
      cases f with
      | profiles ps' => rwa [field_eq_of_key hf hps rfl] at hcovers
      | _ => cases hcovers
    · exact fun h => ⟨_, hps, h⟩
  rw [profilesOf, Rule.values_block, findSome?_values hps rfl hc.profiles, hown]
  cases ps with
  | none =>
    have hany : profileList u (Field.profiles none).value = none := by
      rw [profileList, Field.value, word_const u (by decide) (by decide), if_pos (by decide)]
    have hall : ∀ p : Profile, p ∈ PERFIS := by
      intro p
      cases p <;> decide
    rw [hany, Option.getD_none, covers, decide_eq_true_eq]
    exact ⟨fun ⟨p, _, hp⟩ => ⟨p, hp⟩, fun ⟨p, hp⟩ => ⟨p, hall p, hp⟩⟩
  | some listed =>
    have hok : listed ≠ [] := r.fields_ok _ hps
    rw [profileList_listed u hok, Option.getD_some, covers, decide_eq_true_eq]

/-! ### The program and the port -/

theorem lower_intercalate (u : Unicode) (vs : List (List Char)) :
    u.lower ([' '].intercalate vs) = [' '].intercalate (vs.map u.lower) := by
  induction vs with
  | nil => exact u.lower_ascii [] (fun c hc => nomatch hc)
  | cons v vs ih =>
    cases vs with
    | nil => simp
    | cons w vs =>
      rw [List.intercalate_cons_cons, List.append_assoc, List.singleton_append, u.lower_blank, ih]
      simp [List.intercalate_cons_cons]

theorem infix_intercalate {v : List Char} {vs : List (List Char)} (h : v ∈ vs) : v <:+: [' '].intercalate vs := by
  induction vs with
  | nil => cases h
  | cons w vs ih =>
    cases vs with
    | nil =>
      obtain rfl := List.mem_singleton.mp h
      simp
    | cons x vs =>
      rw [List.intercalate_cons_cons]
      rcases List.mem_cons.mp h with rfl | h
      · exact ⟨[], [' '] ++ [' '].intercalate (x :: vs), by simp⟩
      · exact (ih h).trans (List.suffix_append _ _).isInfix

/-- What names the program in one value names it in all. -/
theorem named_values {path : List Char} (hpath : path ∈ r.values) (h : named u program (u.lower path) = true) :
    named u program (u.lower ([' '].intercalate r.values)) = true := by
  have hin : u.lower path <:+: u.lower ([' '].intercalate r.values) := by
    rw [lower_intercalate]
    exact infix_intercalate (List.mem_map_of_mem hpath)
  simp only [named, decide_eq_true_eq] at h ⊢
  exact h.imp (fun h => ⟨h.1, h.2.trans hin⟩) fun h => ⟨h.1, h.2.trans hin⟩

theorem scanPort_eq (ts : List (List Char)) (h : ∀ t ∈ ts, t.all u.isdigit = true → ∃ n, pyInt u t = some n) :
    scanPort u port ts = some (ts.any fun t => t.all u.isdigit && pyInt u t = some port) := by
  induction ts with
  | nil => rfl
  | cons t ts ih =>
    have hrest := ih fun t' ht' => h t' (List.mem_cons_of_mem t ht')
    rw [scanPort, List.any_cons]
    split
    · rename_i hdigits
      obtain ⟨n, hn⟩ := h t List.mem_cons_self hdigits
      rw [hn]
      by_cases hport : n = port
      · simp [hport, hdigits]
      · simp [hport, hrest]
    · rename_i hdigits
      rw [hrest]
      simp [hdigits]

theorem pyInt_port (u : Unicode) {p : ℕ} (hp : p < 65536) : (Nat.toDigits 10 p).all u.isdigit = true ∧
    pyInt u (Nat.toDigits 10 p) = some p := by
  have hdigit : ∀ c ∈ Nat.toDigits 10 p, c.isDigit = true := fun c hc =>
    Nat.isDigit_of_mem_toDigits (by decide) (by decide) hc
  have hlen : (Nat.toDigits 10 p).length ≤ 5 := (Nat.length_toDigits_le_iff (by decide) (by decide)).mpr (by omega)
  have hmap : ∀ cs : List Char, (∀ c ∈ cs, c.isDigit = true) →
      cs.mapM u.decimal = some (cs.map fun c => c.toNat - 48) := by
    intro cs hcs
    induction cs with
    | nil => rfl
    | cons c cs ih =>
      have htail := ih fun d hd => hcs d (List.mem_cons_of_mem c hd)
      simp [List.mapM_cons, u.decimal_ascii c (hcs c List.mem_cons_self), htail]
  refine ⟨List.all_eq_true.mpr fun c hc => ?_, ?_⟩
  · have hrange := digit_range (hdigit c hc)
    rw [u.isdigit_ascii c (by omega), hdigit c hc]
  · have hvalue : ((Nat.toDigits 10 p).map fun c => c.toNat - 48).foldl (fun n d => n * 10 + d) 0 = p := by
      rw [List.foldl_map]
      conv_rhs => rw [← Nat.ofDigitChars_ten_toDigits (n := p), Nat.ofDigitChars_eq_foldl]
      simp only [Nat.mul_comm]
      rfl
    rw [pyInt, if_pos (hlen.trans (by decide)), hmap _ hdigit, Option.map_some, hvalue]

theorem splitOnP_congr {p q : Char → Bool} {s : List Char} (h : ∀ c ∈ s, p c = q c) :
    s.splitOnP p = s.splitOnP q := by
  induction s with
  | nil => rfl
  | cons c s ih =>
    rw [List.splitOnP_cons_eq_if_modifyHead, List.splitOnP_cons_eq_if_modifyHead, h c List.mem_cons_self,
      ih fun d hd => h d (List.mem_cons_of_mem c hd)]

theorem PortItem.text_chars (item : PortItem) : item.text ≠ [] ∧ ',' ∉ item.text := by
  have hdigits : ∀ n, ',' ∉ Nat.toDigits 10 n := fun n hc =>
    absurd (Nat.isDigit_of_mem_toDigits (by decide) (by decide) hc) (by decide)
  cases item with
  | single p => exact ⟨List.ne_nil_of_length_pos Nat.length_toDigits_pos, hdigits p⟩
  | range a b => exact ⟨by simp [PortItem.text], by simp [PortItem.text, hdigits]⟩

/-- The tokens of a printed list of ports. -/
theorem tokens_ports {items : List PortItem} (hne : items ≠ []) :
    tokens (Field.localPort (.ports items)).value = items.map PortItem.text := by
  have hplain : ∀ c ∈ [','].intercalate (items.map PortItem.text), isSpace c = false := no_space_ports
  have hsplit : ([','].intercalate (items.map PortItem.text)).splitOn ',' = items.map PortItem.text := by
    refine List.splitOn_intercalate ',' (fun l hl => ?_) (by simpa using hne)
    obtain ⟨item, _, rfl⟩ := List.mem_map.mp hl
    exact item.text_chars.2
  have hcongr : ∀ c ∈ [','].intercalate (items.map PortItem.text),
      (decide (c = ',' ∨ isSpace c = true)) = (c == ',') := by
    intro c hc
    rw [Bool.eq_iff_iff]
    simp [hplain c hc]
  have hpieces := (splitOnP_congr hcongr).trans hsplit
  have hstrip : stripped (Field.localPort (.ports items)).value = [','].intercalate (items.map PortItem.text) :=
    stripOf_of_trimmed (plain_of_no_space hplain).2
  rw [tokens, hstrip, hpieces, List.filter_eq_self]
  intro l hl
  obtain ⟨item, _, rfl⟩ := List.mem_map.mp hl
  simpa using item.text_chars.1

/-- What the scan makes of the port's own field. -/
theorem tokens_localPort (u : Unicode) (port : ℕ) {lp : LocalPort} (hok : (Field.localPort lp).Ok) :
    (∀ t ∈ tokens (Field.localPort lp).value, t.all u.isdigit = true → ∃ n, pyInt u t = some n) ∧
      ((∃ t ∈ tokens (Field.localPort lp).value, t.all u.isdigit = true ∧ pyInt u t = some port) ↔
        ∃ items, lp = .ports items ∧ .single port ∈ items) := by
  -- the words of the field are one token each, and it has a letter that is not a digit
  have hnot : ∀ c : Char, c.toNat < 128 → c.isDigit = false → ∀ t : List Char, c ∈ t →
    ¬ t.all u.isdigit = true := by
    intro c hascii hdigit t hc hall
    have hd := List.all_eq_true.mp hall c hc
    rw [u.isdigit_ascii c hascii, hdigit] at hd
    cases hd
  have hword : ∀ s : List Char, ∀ c : Char, c.toNat < 128 → c.isDigit = false → tokens s = [s] → c ∈ s →
      ∀ t ∈ tokens s, ¬ t.all u.isdigit = true := by
    intro s c hascii hdigit htokens hc t ht
    rw [htokens] at ht
    exact hnot c hascii hdigit t (List.mem_singleton.mp ht ▸ hc)
  have hnone : (∀ t ∈ tokens (Field.localPort lp).value, ¬ t.all u.isdigit = true) → (∀ items, lp ≠ .ports items) →
      (∀ t ∈ tokens (Field.localPort lp).value, t.all u.isdigit = true → ∃ n, pyInt u t = some n) ∧
      ((∃ t ∈ tokens (Field.localPort lp).value, t.all u.isdigit = true ∧ pyInt u t = some port) ↔
        ∃ items, lp = .ports items ∧ .single port ∈ items) := by
    intro htokens hports
    exact ⟨fun t ht hd => absurd hd (htokens t ht),
      iff_of_false (fun ⟨t, ht, hd, _⟩ => htokens t ht hd) fun ⟨items, heq, _⟩ => hports items heq⟩
  cases lp with
  | any => exact hnone (hword "Any".toList 'A' (by decide) (by decide) (by decide) (by decide)) fun _ h => nomatch h
  | rpc => exact hnone (hword "RPC".toList 'R' (by decide) (by decide) (by decide) (by decide)) fun _ h => nomatch h
  | rpcEpMap =>
    exact hnone (hword "RPC-EPMap".toList 'R' (by decide) (by decide) (by decide) (by decide)) fun _ h => nomatch h
  | iphttps =>
    exact hnone (hword "IPHTTPS".toList 'I' (by decide) (by decide) (by decide) (by decide)) fun _ h => nomatch h
  | teredo => exact hnone (hword "Teredo".toList 'T' (by decide) (by decide) (by decide) (by decide)) fun _ h => nomatch h
  | ply2Disc =>
    exact hnone (hword "Ply2Disc".toList 'P' (by decide) (by decide) (by decide) (by decide)) fun _ h => nomatch h
  | ports items =>
    -- a range is no digit token because of its dash, so the scan never looks inside it
    have hrange : ∀ a b : ℕ, ¬ (PortItem.range a b).text.all u.isdigit = true := fun a b =>
      hnot '-' (by decide) (by decide) _ (by simp [PortItem.text])
    rw [tokens_ports hok.1]
    constructor
    · intro t ht hdigits
      obtain ⟨item, hitem, rfl⟩ := List.mem_map.mp ht
      cases item with
      | single p => exact ⟨p, (pyInt_port u (hok.2 p hitem)).2⟩
      | range a b => exact absurd hdigits (hrange a b)
    · constructor
      · rintro ⟨t, ht, hdigits, hint⟩
        obtain ⟨item, hitem, rfl⟩ := List.mem_map.mp ht
        cases item with
        | single p =>
          obtain rfl := Option.some.inj ((pyInt_port u (hok.2 p hitem)).2.symm.trans hint)
          exact ⟨items, rfl, hitem⟩
        | range a b => exact absurd hdigits (hrange a b)
      · rintro ⟨_, ⟨⟩, hmem⟩
        obtain ⟨hdigits, hint⟩ := pyInt_port u (hok.2 port hmem)
        exact ⟨_, List.mem_map_of_mem hmem, hdigits, hint⟩

theorem localPort_of_key {f : Field} (hok : f.Ok) (hkey : f.key = "LocalPort".toList) : ∃ lp, f = .localPort lp := by
  cases f with
  | localPort lp => exact ⟨lp, rfl⟩
  | other key value =>
    have hmem : "LocalPort".toList ∈ OWN_KEYS := by decide
    rw [← hkey] at hmem
    exact absurd hmem hok.2.2.2
  | enabled _ => exact absurd hkey (by decide : "Enabled".toList ≠ "LocalPort".toList)
  | profiles _ => exact absurd hkey (by decide : "Profiles".toList ≠ "LocalPort".toList)
  | action _ => exact absurd hkey (by decide : "Action".toList ≠ "LocalPort".toList)
  | program _ => exact absurd hkey (by decide : "Program".toList ≠ "LocalPort".toList)

/-- No number raises, and the rule matches where its own fields do. -/
theorem matchesRule_of_clean (hc : r.Clean program port) :
    matchesRule u r.block program port = some (r.fields.any (governs u program port)) := by
  rw [matchesRule, Rule.values_block]
  split
  · rename_i hnamed
    obtain ⟨path, hpath, hown⟩ := hc.program hnamed
    have hany : r.fields.any (governs u program port) = true := List.any_eq_true.mpr ⟨_, hpath, hown⟩
    rw [hany]
  · rename_i hnamed
    -- the program was not named, so what is left is the scan for the port
    have hprogram : ∀ path, .program path ∈ r.fields → named u program (u.lower path) = false := by
      intro path hpath
      by_contra hown
      exact hnamed (named_values (value_mem hpath) (Bool.eq_true_of_not_eq_false hown))
    have hgoverns : r.fields.any (governs u program port) = true ↔
        port ≠ 0 ∧ ∃ items, .localPort (.ports items) ∈ r.fields ∧ .single port ∈ items := by
      rw [List.any_eq_true]
      constructor
      · rintro ⟨f, hf, hg⟩
        cases f with
        | program path =>
          rw [governs, hprogram path hf] at hg
          cases hg
        | localPort lp =>
          cases lp with
          | ports items =>
            have hboth := of_decide_eq_true hg
            exact ⟨hboth.1, items, hf, hboth.2⟩
          | _ => cases hg
        | _ => cases hg
      · rintro ⟨hport, items, hitems, hmem⟩
        exact ⟨_, hitems, decide_eq_true ⟨hport, hmem⟩⟩
    by_cases hport : port ≠ 0
    · rw [if_pos hport, scanPort_eq]
      · congr 1
        rw [Bool.eq_iff_iff, hgoverns, List.any_eq_true]
        constructor
        · rintro ⟨t, ht, hboth⟩
          obtain ⟨hdigits, hint⟩ : t.all u.isdigit = true ∧ pyInt u t = some port := by simpa using hboth
          obtain ⟨v, hv, htv⟩ := List.mem_flatMap.mp ht
          -- the scan reads every value of the block: of the other fields a clean rule has no such number
          rcases mem_values "LocalPort" hv with hbut | ⟨f, hf, hkey, rfl⟩
          · obtain ⟨n, hn, hne⟩ := hc.port v hbut t htv hdigits
            exact absurd (Option.some.inj (hn.symm.trans hint)) hne
          · obtain ⟨lp, rfl⟩ := localPort_of_key (r.fields_ok f hf) hkey
            obtain ⟨items, rfl, hmem⟩ := (tokens_localPort u port (r.fields_ok _ hf)).2.mp ⟨t, htv, hdigits, hint⟩
            exact ⟨hport, items, hf, hmem⟩
        · rintro ⟨_, items, hitems, hmem⟩
          obtain ⟨t, ht, hdigits, hint⟩ := (tokens_localPort u port (r.fields_ok _ hitems)).2.mpr
            ⟨items, rfl, hmem⟩
          exact ⟨t, List.mem_flatMap.mpr ⟨_, value_mem hitems, ht⟩, by simp [hdigits, hint]⟩
      · intro t ht hdigits
        obtain ⟨v, hv, htv⟩ := List.mem_flatMap.mp ht
        rcases mem_values "LocalPort" hv with hbut | ⟨f, hf, hkey, rfl⟩
        · obtain ⟨n, hn, _⟩ := hc.port v hbut t htv hdigits
          exact ⟨n, hn⟩
        · obtain ⟨lp, rfl⟩ := localPort_of_key (r.fields_ok f hf) hkey
          exact (tokens_localPort u port (r.fields_ok _ hf)).1 t htv hdigits
    · rw [if_neg hport]
      congr 1
      rw [Bool.eq_iff_iff, hgoverns]
      exact iff_of_false (by simp) fun h => hport h.1

theorem scanned_of_clean (hc : r.Clean program port) (v : Verdict) :
    r.scanned ativos program port v = r.effect ativos program port v := by
  rw [Rule.scanned, Rule.effect, decide_eq_decide, enabled_of_clean hc, matchesRule_of_clean hc,
    profilesOf_of_clean hc,
    verdictOf_of_clean hc v, Option.some.injEq]

theorem agree_of_clean {rs : List (Rule u)} (h : ∀ r ∈ rs, r.Clean program port) :
    Agree ativos program port rs := by
  have hnames : ∀ v, namesOf (fun r => r.scanned ativos program port v) rs =
      namesOf (fun r => r.effect ativos program port v) rs := fun v =>
    congrArg (List.map Rule.name) (List.filter_congr fun r hr => scanned_of_clean (h r hr) v)
  refine ⟨fun r hr => ?_, hnames .block, fun _ => hnames .allow⟩
  rw [matchesRule_of_clean (h r hr)]
  exact Option.some_ne_none _

end

/-- Over every printed list of rules the verdict is the firewall's exactly when the scans of all values agree
by name with the fields; they do where no value looks like that of another field. -/
theorem compute_correct_iff (u : Unicode) (crlf : Bool) (pad : List Char → ℕ) (ativos : Finset Profile)
    (hactive : ativos.Nonempty) (program : List Char) (port : ℕ) (rs : List (Rule u)) :
    (Correct ativos program port rs (compute u true (printed crlf pad rs) ativos program port) ↔
      Agree ativos program port rs) ∧ ((∀ r ∈ rs, r.Clean program port) → Agree ativos program port rs) :=
  ⟨correct_iff_agree crlf pad hactive rs, agree_of_clean⟩

/-! ## One rule -/

def sampleFields (edge : String) : List Field :=
  [.enabled true, .other "Direction".toList "In".toList, .profiles (some [.onPublic]), .localPort .any,
    .other "Edge traversal".toList edge.toList, .program "C:\\wavr-core.exe".toList, .action .block]

/-- A rule that blocks the Core on a public network. -/
def sampleRule (edge : String) (hedge : edge.toList.all (fun c => !isSpace c) = true) : Rule asciiTables where
  name := "wavr".toList
  fields := sampleFields edge
  name_ok := plain_of_all (by decide)
  name_ne := by decide
  fields_ok := by
    have hdirection : "Direction".toList.all (fun c => !isSpace c && c ≠ ':') = true := by decide
    rintro f (_ | ⟨_, _ | ⟨_, _ | ⟨_, _ | ⟨_, _ | ⟨_, _ | ⟨_, _ | ⟨_, ⟨⟩⟩⟩⟩⟩⟩⟩⟩)
    · trivial
    · exact ⟨(plain_key_of_all hdirection).1, (plain_key_of_all hdirection).2, plain_of_all (by decide), by decide⟩
    · exact List.cons_ne_nil _ _
    · trivial
    · exact ⟨plain_of_check (by decide) (by decide) (by decide), by decide, plain_of_all hedge, by decide⟩
    · exact plain_of_all (by decide)
    · trivial
  keys := by
    change ([NAME_KEY, "Enabled".toList, "Direction".toList, "Profiles".toList, "LocalPort".toList,
      "Edge traversal".toList, "Program".toList, "Action".toList].map (List.map Char.toLower)).Nodup
    decide
  stated := ⟨⟨true, by simp [sampleFields]⟩, ⟨some [.onPublic], by simp [sampleFields]⟩,
    ⟨.block, by simp [sampleFields]⟩⟩

def sampleProgram : List Char := "C:\\wavr-core.exe".toList

theorem clean_sample : (sampleRule "Yes" (by decide)).Clean sampleProgram 8000 := by
  constructor
  · have hall : ((sampleRule "Yes" (by decide)).valuesBut "Enabled").all (fun v => !isNo asciiTables v) = true := by
      decide
    intro v hv
    simpa using List.all_eq_true.mp hall v hv
  · have hall : ((sampleRule "Yes" (by decide)).valuesBut "Action").all
        (fun v => actionWord asciiTables v = none) = true := by decide
    intro v hv
    simpa using List.all_eq_true.mp hall v hv
  · have hall : ((sampleRule "Yes" (by decide)).valuesBut "Profiles").all
        (fun v => profileList asciiTables v = none) = true := by decide
    intro v hv
    simpa using List.all_eq_true.mp hall v hv
  · have hmem : .program sampleProgram ∈ sampleFields "Yes" := by decide
    exact fun _ => ⟨sampleProgram, hmem, by decide⟩
  · have hall : ((sampleRule "Yes" (by decide)).valuesBut "LocalPort").all
        (fun v => (tokens v).all fun t => !t.all Char.isDigit) = true := by decide
    intro v hv t ht hdigits
    have hnot := List.all_eq_true.mp (List.all_eq_true.mp hall v hv) t ht
    rw [show t.all Char.isDigit = true from hdigits] at hnot
    cases hnot

theorem verdict_sample : Correct {Profile.onPublic} sampleProgram 8000 [sampleRule "Yes" (by decide)]
    (compute asciiTables true (printed true (fun _ => 20) [sampleRule "Yes" (by decide)]) {Profile.onPublic}
      sampleProgram 8000) := by
  have hboth := compute_correct_iff asciiTables true (fun _ => 20) {Profile.onPublic} (Finset.singleton_nonempty _)
    sampleProgram 8000 [sampleRule "Yes" (by decide)]
  refine hboth.1.mpr (hboth.2 fun r hr => ?_)
  obtain rfl := List.mem_singleton.mp hr
  exact clean_sample

/-- The rule of a dump that says no edge traversal is taken for disabled. -/
theorem edge_traversal_no : ¬ Correct {Profile.onPublic} sampleProgram 8000 [sampleRule "No" (by decide)]
    (compute asciiTables true (printed true (fun _ => 20) [sampleRule "No" (by decide)]) {Profile.onPublic}
      sampleProgram 8000) := by
  intro h
  have hagree := ((correct_iff_agree true _ (Finset.singleton_nonempty _) _).mp h).2.1
  revert hagree
  decide +kernel

end Wavr.LanReachability
