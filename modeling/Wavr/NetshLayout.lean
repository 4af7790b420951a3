import Wavr.NetshBlocks

/-!
# Rules as netsh prints them

A rule is a name and fields in any order; what is printed of a list of rules is read as their blocks.
-/

namespace Wavr.LanReachability
open Lines Text

inductive Action where
  | allow
  | block
  | bypass
  deriving DecidableEq

def Action.text : Action → String
  | .allow => "Allow"
  | .block => "Block"
  | .bypass => "Bypass"

inductive PortItem where
  | single (p : ℕ)
  | range (p q : ℕ)
  deriving DecidableEq

def PortItem.text : PortItem → List Char
  | .single p => Nat.toDigits 10 p
  | .range p q => Nat.toDigits 10 p ++ '-' :: Nat.toDigits 10 q

inductive LocalPort where
  | any
  | rpc
  | rpcEpMap
  | iphttps
  | teredo
  | ply2Disc
  | ports (items : List PortItem)
  deriving DecidableEq

def LocalPort.text : LocalPort → List Char
  | .any => "Any".toList
  | .rpc => "RPC".toList
  | .rpcEpMap => "RPC-EPMap".toList
  | .iphttps => "IPHTTPS".toList
  | .teredo => "Teredo".toList
  | .ply2Disc => "Ply2Disc".toList
  | .ports items => [','].intercalate (items.map PortItem.text)

def Profile.title : Profile → String
  | .onDomain => "Domain"
  | .onPrivate => "Private"
  | .onPublic => "Public"

inductive Field where
  | enabled (yes : Bool)
  | profiles (listed : Option (List Profile))
  | action (a : Action)
  | localPort (p : LocalPort)
  | program (path : List Char)
  | other (key value : List Char)
  deriving DecidableEq

def Field.key : Field → List Char
  | .enabled _ => "Enabled".toList
  | .profiles _ => "Profiles".toList
  | .action _ => "Action".toList
  | .localPort _ => "LocalPort".toList
  | .program _ => "Program".toList
  | .other key _ => key

def Field.value : Field → List Char
  | .enabled yes => if yes then "Yes".toList else "No".toList
  | .profiles none => "Any".toList
  | .profiles (some listed) => [','].intercalate (listed.map fun p => p.title.toList)
  | .action a => a.text.toList
  | .localPort p => p.text
  | .program path => path
  | .other _ value => value

/-- One line without blanks at its ends. -/
def Plain (s : List Char) : Prop := OneLine s ∧ Trimmed isSpace s

/-- The keys of the fields that have a constructor. -/
def OWN_KEYS : List (List Char) :=
  ["Enabled".toList, "Profiles".toList, "Action".toList, "LocalPort".toList, "Program".toList]

def Field.Ok : Field → Prop
  | .profiles (some listed) => listed ≠ []
  | .localPort (.ports items) => items ≠ [] ∧ ∀ p, .single p ∈ items → p < 65536
  | .program path => Plain path
  | .other key value => Plain key ∧ ':' ∉ key ∧ Plain value ∧ key ∉ OWN_KEYS
  | _ => True

def NAME_KEY : List Char := "Rule Name".toList

/-- A rule of the firewall: its fields in any order, and others between them. -/
structure Rule (u : Unicode) where
  name : List Char
  fields : List Field
  name_ok : Plain name
  name_ne : name ≠ []
  fields_ok : ∀ f ∈ fields, f.Ok
  /-- Each field is there once. -/
  keys : ((NAME_KEY :: fields.map Field.key).map u.lower).Nodup
  stated : (∃ yes, .enabled yes ∈ fields) ∧ (∃ ps, .profiles ps ∈ fields) ∧ ∃ a, .action a ∈ fields

/-- A key, and its value in some column behind it. -/
def fieldLine (pad : List Char → ℕ) (key value : List Char) : List Char :=
  key ++ ':' :: (List.replicate (pad key) ' ' ++ value)

variable {u : Unicode}

def Rule.values (r : Rule u) : List (List Char) := r.name :: r.fields.map Field.value

/-- What the parser should make of a rule. -/
def Rule.block (r : Rule u) : Block where
  entries := (u.lower NAME_KEY, r.name) :: r.fields.map fun f => (u.lower f.key, f.value)
  nodup := by
    have hkeys := r.keys
    simpa [Function.comp_def] using hkeys

def Rule.lines (pad : List Char → ℕ) (r : Rule u) : List (List Char) :=
  fieldLine pad NAME_KEY r.name :: List.replicate 70 '-' ::
    (r.fields.map (fun f => fieldLine pad f.key f.value) ++ [[]])

def printed (crlf : Bool) (pad : List Char → ℕ) (rs : List (Rule u)) : List Char :=
  written crlf ([] :: (rs.flatMap (Rule.lines pad) ++ ["Ok.".toList]))

/-! ## Lines -/

theorem isSpace_of_isBreak {c : Char} (h : isBreak c = true) : isSpace c = true := by
  have hc := of_decide_eq_true h
  simp only [List.mem_cons, List.not_mem_nil, or_false] at hc
  rcases hc with rfl | rfl | rfl | rfl | rfl | rfl | rfl | rfl | rfl | rfl <;> decide

theorem plain_of_no_space {s : List Char} (h : ∀ c ∈ s, isSpace c = false) : Plain s := by
  refine ⟨fun c hc => ?_, fun c hc => h c (List.mem_of_mem_head? hc),
    fun c hc => h c (List.mem_of_mem_getLast? hc)⟩
  cases hb : isBreak c with
  | false => rfl
  | true => exact absurd (isSpace_of_isBreak hb) (by simp [h c hc])

theorem isSpace_range {c : Char} (h : isSpace c = true) : c.toNat ≤ 32 ∨ 133 ≤ c.toNat := by
  have hle : ∀ a b : Char, a ≤ b → a.toNat ≤ b.toNat := fun a b hab => UInt32.le_iff_toNat_le.mp hab
  have hc := of_decide_eq_true h
  rcases hc with ⟨_, hr⟩ | ⟨_, hr⟩ | rfl | rfl | rfl | ⟨hl, _⟩ | rfl | rfl | rfl | rfl | rfl
  · exact .inl ((hle _ _ hr).trans (by decide))
  · exact .inl (hle _ _ hr)
  all_goals right
  · decide
  · decide
  · decide
  · exact le_trans (by decide) (hle _ _ hl)
  all_goals decide

theorem digit_range {c : Char} (h : c.isDigit = true) : 48 ≤ c.toNat ∧ c.toNat ≤ 57 := by
  simp only [Char.isDigit, Bool.and_eq_true, decide_eq_true_eq] at h
  exact ⟨UInt32.le_iff_toNat_le.mp h.1, UInt32.le_iff_toNat_le.mp h.2⟩

theorem isSpace_of_digit {c : Char} (h : c.isDigit = true) : isSpace c = false := by
  cases hs : isSpace c with
  | false => rfl
  | true =>
    have hdigit := digit_range h
    have hspace := isSpace_range hs
    omega

theorem oneLine_append {s t : List Char} (hs : OneLine s) (ht : OneLine t) : OneLine (s ++ t) := by
  intro c hc
  rcases List.mem_append.mp hc with h | h
  · exact hs c h
  · exact ht c h

/-- A value in its column. -/
theorem stripped_column (n : ℕ) {value : List Char} (h : Plain value) :
    OneLine (List.replicate n ' ' ++ value) ∧ stripped (List.replicate n ' ' ++ value) = value := by
  have hblank : ∀ c ∈ List.replicate n ' ', isSpace c = true ∧ isBreak c = false := by
    intro c hc
    rw [List.eq_of_mem_replicate hc]
    decide
  refine ⟨oneLine_append (fun c hc => (hblank c hc).2) h.1, ?_⟩
  rw [stripped, stripOf_blank_append fun c hc => (hblank c hc).1]
  exact stripOf_of_trimmed h.2

/-! ## Rules -/

theorem no_space_ports {items : List PortItem} : ∀ c ∈ [','].intercalate (items.map PortItem.text), isSpace c = false := by
  have hdigits : ∀ n, ∀ c ∈ Nat.toDigits 10 n, isSpace c = false := fun n c hc =>
    isSpace_of_digit (Nat.isDigit_of_mem_toDigits (by decide) (by decide) hc)
  intro c hc
  rcases mem_intercalate hc with rfl | ⟨l, hl, hc⟩
  · decide
  · obtain ⟨item, _, rfl⟩ := List.mem_map.mp hl
    cases item with
    | single p => exact hdigits p c hc
    | range a b =>
      rcases List.mem_append.mp hc with ha | hb
      · exact hdigits a c ha
      · rcases List.mem_cons.mp hb with rfl | hb
        · decide
        · exact hdigits b c hb

theorem no_space_profiles {listed : List Profile} :
    ∀ c ∈ [','].intercalate (listed.map fun p => p.title.toList), isSpace c = false := by
  intro c hc
  rcases mem_intercalate hc with rfl | ⟨l, hl, hc⟩
  · decide
  · obtain ⟨p, _, rfl⟩ := List.mem_map.mp hl
    have hall : p.title.toList.all (fun c => !isSpace c) = true := by cases p <;> decide
    simpa using List.all_eq_true.mp hall c hc

theorem plain_of_all {s : List Char} (h : s.all (fun c => !isSpace c) = true) : Plain s :=
  plain_of_no_space fun c hc => by simpa using List.all_eq_true.mp h c hc

theorem plain_key_of_all {s : List Char} (h : s.all (fun c => !isSpace c && c ≠ ':') = true) :
    Plain s ∧ ':' ∉ s := by
  have hall := List.all_eq_true.mp h
  refine ⟨plain_of_no_space fun c hc => ?_, fun hmem => absurd (hall ':' hmem) (by decide)⟩
  have hc := hall c hc
  simp only [Bool.and_eq_true, Bool.not_eq_true'] at hc
  exact hc.1

theorem Field.plain_value {f : Field} (h : f.Ok) : Plain f.value := by
  cases f with
  | enabled yes => cases yes <;> exact plain_of_all (by decide)
  | profiles listed =>
    cases listed with
    | none => exact plain_of_all (by decide)
    | some listed => exact plain_of_no_space no_space_profiles
  | action a => cases a <;> exact plain_of_all (by decide)
  | localPort p =>
    cases p with
    | ports items => exact plain_of_no_space no_space_ports
    | _ => exact plain_of_all (by decide)
  | program path => exact h
  | other key value => exact h.2.2.1

theorem Field.plain_key {f : Field} (h : f.Ok) : Plain f.key ∧ ':' ∉ f.key := by
  cases f with
  | enabled _ => exact plain_key_of_all (by decide : "Enabled".toList.all (fun c => !isSpace c && c ≠ ':') = true)
  | profiles _ => exact plain_key_of_all (by decide : "Profiles".toList.all (fun c => !isSpace c && c ≠ ':') = true)
  | action _ => exact plain_key_of_all (by decide : "Action".toList.all (fun c => !isSpace c && c ≠ ':') = true)
  | localPort _ => exact plain_key_of_all (by decide : "LocalPort".toList.all (fun c => !isSpace c && c ≠ ':') = true)
  | program _ => exact plain_key_of_all (by decide : "Program".toList.all (fun c => !isSpace c && c ≠ ':') = true)
  | other key value => exact ⟨h.1, h.2.1⟩

def pair (u : Unicode) (f : Field) : List Char × List Char := (u.lower f.key, f.value)

/-- Blanks may stand within. -/
theorem plain_of_check {s : List Char} (hline : s.all (fun c => !isBreak c) = true)
    (hhead : s.head?.all (fun c => !isSpace c) = true)
    (hlast : s.getLast?.all (fun c => !isSpace c) = true) : Plain s := by
  have hends : ∀ o : Option Char, o.all (fun c => !isSpace c) = true → ∀ c ∈ o, isSpace c = false := by
    rintro _ ho c rfl
    simpa using ho
  exact ⟨fun c hc => by simpa using List.all_eq_true.mp hline c hc, hends _ hhead, hends _ hlast⟩

theorem plain_nameKey : Plain NAME_KEY := plain_of_check (by decide) (by decide) (by decide)

/-- A key and a value as a line. -/
def columnLine (pad : List Char → ℕ) (key value : List Char) (hkey : Plain key ∧ ':' ∉ key)
    (hvalue : Plain value) :
    FieldLine where
  key := key
  text := List.replicate (pad key) ' ' ++ value
  key_ok := ⟨hkey.1.1, hkey.2⟩
  text_ok := (stripped_column (pad key) hvalue).1

theorem pair_columnLine (pad : List Char → ℕ) {key value : List Char} (hkey : Plain key ∧ ':' ∉ key)
    (hvalue : Plain value) : (columnLine pad key value hkey hvalue).pair u = (u.lower key, value) := by
  have hstrip : stripped key = key := stripOf_of_trimmed hkey.1.2
  simp only [FieldLine.pair, columnLine, hstrip, (stripped_column (pad key) hvalue).2]

def Field.columnLine (pad : List Char → ℕ) (f : Field) (h : f.Ok) : FieldLine :=
  LanReachability.columnLine pad f.key f.value (Field.plain_key h) (Field.plain_value h)

theorem map_columnLine (pad : List Char → ℕ) (r : Rule u) :
    (r.fields.pmap (Field.columnLine pad) r.fields_ok).map FieldLine.line =
      r.fields.map fun f => fieldLine pad f.key f.value := by
  rw [List.map_pmap]
  refine (List.pmap_congr_left r.fields fun f _ h _ => ?_).trans (List.pmap_eq_map r.fields_ok)
  rfl

theorem pairs_columnLine (pad : List Char → ℕ) (r : Rule u) :
    (r.fields.pmap (Field.columnLine pad) r.fields_ok).map (FieldLine.pair u) = r.fields.map (pair u) := by
  rw [List.map_pmap]
  refine (List.pmap_congr_left r.fields fun f _ h _ => ?_).trans (List.pmap_eq_map r.fields_ok)
  exact pair_columnLine pad (Field.plain_key h) (Field.plain_value h)

theorem Rule.block_entries (r : Rule u) : r.block.entries =
    (u.lower NAME_KEY, r.name) :: r.fields.map (pair u) := rfl

/-- A rule as it is written. -/
def Rule.entry (pad : List Char → ℕ) (r : Rule u) : Entry u where
  name := columnLine pad NAME_KEY r.name ⟨plain_nameKey, by decide⟩ r.name_ok
  dashes := 70
  fields := r.fields.pmap (Field.columnLine pad) r.fields_ok
  blank := [[]]
  some_dash := by decide
  blank_ok := empty_line_ok
  keys := by
    have hkeys := r.block.nodup
    rw [r.block_entries, ← pairs_columnLine pad r, ← pair_columnLine pad ⟨plain_nameKey, by decide⟩ r.name_ok,
      ← List.map_cons, List.map_map] at hkeys
    exact hkeys

theorem Rule.entry_lines (pad : List Char → ℕ) (r : Rule u) : (r.entry pad).lines = r.lines pad := by
  rw [Entry.lines, Rule.lines, Rule.entry, map_columnLine]
  rfl

theorem Rule.entry_block (pad : List Char → ℕ) (r : Rule u) : (r.entry pad).block = r.block := by
  refine Dict.eq_of_entries ?_
  rw [r.block_entries, ← pairs_columnLine pad r, ← pair_columnLine pad ⟨plain_nameKey, by decide⟩ r.name_ok]
  rfl

theorem oneLine_lines (pad : List Char → ℕ) (r : Rule u) : ∀ l ∈ r.lines pad, OneLine l :=
  r.entry_lines pad ▸ (r.entry pad).oneLine_lines

/-- The parser reads what is printed. -/
theorem blocks_printed (crlf : Bool) (pad : List Char → ℕ) (rs : List (Rule u)) :
    blocks u (printed crlf pad rs) = rs.map Rule.block := by
  have hlines : ∀ l ∈ [] :: (rs.flatMap (Rule.lines pad) ++ ["Ok.".toList]), OneLine l := by
    intro l hl
    rcases List.mem_cons.mp hl with rfl | hl
    · exact fun c hc => nomatch hc
    rcases List.mem_append.mp hl with hl | hl
    · obtain ⟨r, _, hr⟩ := List.mem_flatMap.mp hl
      exact oneLine_lines pad r l hr
    · obtain rfl := List.mem_singleton.mp hl
      exact (plain_of_all (by decide)).1
  have hentries : rs.flatMap (Rule.lines pad) = (rs.map (Rule.entry pad)).flatMap Entry.lines := by
    simp only [List.flatMap_map, Rule.entry_lines]
  obtain ⟨out, current, pendente, hblocks, hclosed⟩ :=
    @blocksFrom_entries u ["Ok.".toList] (rs.map (Rule.entry pad)) [] Dict.empty none
  have hlast : blocksFrom u ["Ok.".toList] out current pendente = closed out (commit current pendente) := by
    simp [blocksFrom, stripped, stripOf, isSpace]
  have hfirst : ∀ lines, blocksFrom u ([] :: lines) [] Dict.empty none = blocksFrom u lines [] Dict.empty none :=
    fun _ => rfl
  rw [blocks, printed, splitlines_written hlines, hfirst, hentries, hblocks, hlast, hclosed, List.map_map]
  exact congrArg (fun f => rs.map f) (funext fun r => r.entry_block pad)

end Wavr.LanReachability
