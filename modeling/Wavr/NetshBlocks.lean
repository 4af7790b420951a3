import Mathlib
import Wavr.LanReachability

/-!
# Rules and their blocks

A rule is a line with its name, a line of dashes and lines with its fields; of what is so written
the parser gives one block for each rule.
-/

namespace Wavr.LanReachability
open Lines Text

/-- `Field: value`: what stands before the colon, and what behind it, blanks included. -/
structure FieldLine where
  key : List Char
  text : List Char
  key_ok : OneLine key ∧ ':' ∉ key
  text_ok : OneLine text

def FieldLine.line (f : FieldLine) : List Char := f.key ++ ':' :: f.text

/-- The key and the value, without the blanks around them. -/
def FieldLine.pair (u : Unicode) (f : FieldLine) : List Char × List Char :=
  (u.lower (stripped f.key), stripped f.text)

/-- A rule as it is written, and the blank lines behind it. -/
structure Entry (u : Unicode) where
  name : FieldLine
  dashes : ℕ
  fields : List FieldLine
  blank : List (List Char)
  some_dash : 0 < dashes
  blank_ok : ∀ l ∈ blank, OneLine l ∧ stripped l = []
  /-- Each key is there once. -/
  keys : ((name :: fields).map fun f => (f.pair u).1).Nodup

/-- One empty line. -/
theorem empty_line_ok : ∀ l ∈ ([[]] : List (List Char)), OneLine l ∧ stripped l = [] := by
  simp [OneLine, stripped, stripOf]

variable {u : Unicode}

def Entry.lines (e : Entry u) : List (List Char) :=
  e.name.line :: List.replicate e.dashes '-' :: (e.fields.map FieldLine.line ++ e.blank)

def Entry.block (e : Entry u) : Block where
  entries := (e.name :: e.fields).map (FieldLine.pair u)
  nodup := by
    have hkeys := e.keys
    simpa [Function.comp_def] using hkeys

/-! ## Lines -/

section
variable (lines : List (List Char)) (out : List Block) {current : Block} {pendente : Option (List Char × List Char)}

/-- A line of a field is read into what was pending before and the new pair. -/
theorem blocksFrom_fieldLine (f : FieldLine) :
    blocksFrom u (f.line :: lines) out current pendente =
      blocksFrom u lines out (commit current pendente) (some (f.pair u)) := by
  have hline : stripped f.line = f.key.dropWhile isSpace ++ ':' :: (f.text.reverse.dropWhile isSpace).reverse :=
    stripOf_append_cons (by decide)
  have hcolon : ':' ∉ f.key.dropWhile isSpace := fun h => f.key_ok.2 ((List.dropWhile_suffix isSpace).subset h)
  have hne : stripped f.line ≠ [] := by simp [hline]
  have hdash : ¬ (stripped f.line).all (· = '-') = true := by
    intro hall
    exact absurd (List.all_eq_true.mp hall ':' (by simp [hline])) (by decide)
  have hmem : ':' ∈ stripped f.line := by simp [hline]
  have hbefore : stripped (before ':' (stripped f.line)) = stripped f.key := by
    rw [hline, before_append hcolon, before_cons_self, List.append_nil]
    exact stripOf_dropWhile f.key
  have hafter : stripped (after ':' (stripped f.line)) = stripped f.text := by
    rw [hline, after_append hcolon, after_cons_self]
    exact stripOf_rstrip f.text
  rw [blocksFrom, if_neg hne, if_neg hdash, if_pos hmem, hbefore, hafter]
  rfl

theorem blocksFrom_blanks {blank : List (List Char)} (h : ∀ l ∈ blank, stripped l = []) :
    blocksFrom u (blank ++ lines) out current pendente = blocksFrom u lines out current pendente := by
  induction blank with
  | nil => rfl
  | cons l blank ih =>
    obtain ⟨hl, hblank⟩ := List.forall_mem_cons.mp h
    rw [List.cons_append, blocksFrom, if_pos hl, ih hblank]

theorem blocksFrom_dashes {n : ℕ} (h : 0 < n) :
    blocksFrom u (List.replicate n '-' :: lines) out current pendente =
      blocksFrom u lines (closed out current) (commit .empty pendente) none := by
  have hspace : ∀ c ∈ List.replicate n '-', isSpace c = false := by
    intro c hc
    rw [List.eq_of_mem_replicate hc]
    decide
  have hline : stripped (List.replicate n '-') = List.replicate n '-' := by
    refine stripOf_of_trimmed ⟨fun c hc => hspace c (List.mem_of_mem_head? hc), fun c hc => ?_⟩
    exact hspace c (List.mem_of_mem_getLast? hc)
  have hne : List.replicate n '-' ≠ [] := by simp [h.ne']
  have hdash : (List.replicate n '-').all (· = '-') = true := by simp
  rw [blocksFrom, hline, if_neg hne, if_pos hdash]

/-- The fields of a rule are read in their order. -/
theorem blocksFrom_fieldLines {fs : List FieldLine} {current : Block} {pendente : Option (List Char × List Char)}
    (hnew : (((commit current pendente).entries ++ fs.map (FieldLine.pair u)).map Prod.fst).Nodup) :
    ∃ current' pendente', blocksFrom u (fs.map FieldLine.line ++ lines) out current pendente =
        blocksFrom u lines out current' pendente' ∧
      (commit current' pendente').entries = (commit current pendente).entries ++ fs.map (FieldLine.pair u) := by
  induction fs generalizing current pendente with
  | nil => exact ⟨current, pendente, rfl, by simp⟩
  | cons f fs ih =>
    have hfresh : (commit current pendente).get? (f.pair u).1 = none := by
      rw [List.map_append, List.nodup_append] at hnew
      by_contra hsome
      have hkey := Dict.mem_keys.mpr (Option.isSome_iff_ne_none.mpr hsome)
      exact hnew.2.2 _ hkey _ List.mem_cons_self rfl
    have hnext : (commit (commit current pendente) (some (f.pair u))).entries =
        (commit current pendente).entries ++ [f.pair u] :=
      Dict.entries_set_of_get?_eq_none hfresh (f.pair u).2
    obtain ⟨current', pendente', hblocks, hentries⟩ := @ih (commit current pendente) (some (f.pair u)) (by
      rw [hnext, List.append_assoc]
      exact hnew)
    refine ⟨current', pendente', ?_, ?_⟩
    · rw [List.map_cons, List.cons_append, blocksFrom_fieldLine]
      exact hblocks
    · rw [hentries, hnext, List.append_assoc]
      rfl

/-! ## Rules -/

/-- One rule: what was there before is closed, and the rule is there. -/
theorem blocksFrom_entry (e : Entry u) {current : Block} {pendente : Option (List Char × List Char)} :
    ∃ current' pendente', blocksFrom u (e.lines ++ lines) out current pendente =
        blocksFrom u lines (closed out (commit current pendente)) current' pendente' ∧
      commit current' pendente' = e.block := by
  have hnew : (((commit (commit (Dict.empty : Block) (some (e.name.pair u))) none).entries ++
      e.fields.map (FieldLine.pair u)).map Prod.fst).Nodup := e.block.nodup
  obtain ⟨current', pendente', hblocks, hentries⟩ := blocksFrom_fieldLines (e.blank ++ lines)
    (closed out (commit current pendente)) hnew
  refine ⟨current', pendente', ?_, Dict.eq_of_entries hentries⟩
  rw [Entry.lines, List.cons_append, List.cons_append, blocksFrom_fieldLine, blocksFrom_dashes _ _ e.some_dash,
    List.append_assoc]
  exact hblocks.trans (blocksFrom_blanks _ _ fun l hl => (e.blank_ok l hl).2)

theorem closed_block (e : Entry u) : closed out e.block = out ++ [e.block] := if_neg (List.cons_ne_nil _ _)

/-- Of a list of rules each is closed by the next. -/
theorem blocksFrom_entries (es : List (Entry u)) {out : List Block} {current : Block}
    {pendente : Option (List Char × List Char)} :
    ∃ out' current' pendente', blocksFrom u (es.flatMap Entry.lines ++ lines) out current pendente =
        blocksFrom u lines out' current' pendente' ∧
      closed out' (commit current' pendente') = closed out (commit current pendente) ++ es.map Entry.block := by
  induction es generalizing out current pendente with
  | nil => exact ⟨out, current, pendente, rfl, (List.append_nil _).symm⟩
  | cons e es ih =>
    obtain ⟨current₁, pendente₁, hentry, hcommit⟩ :=
      @blocksFrom_entry u (es.flatMap Entry.lines ++ lines) out e current pendente
    obtain ⟨out', current', pendente', hrest, hclosed⟩ := @ih (closed out (commit current pendente)) current₁ pendente₁
    refine ⟨out', current', pendente', ?_, ?_⟩
    · rw [List.flatMap_cons, List.append_assoc, hentry, hrest]
    · rw [hclosed, hcommit, closed_block, List.append_assoc]
      rfl

end

theorem FieldLine.oneLine (f : FieldLine) : OneLine f.line := by
  intro c hc
  rcases List.mem_append.mp hc with hc | hc
  · exact f.key_ok.1 c hc
  · rcases List.mem_cons.mp hc with rfl | hc
    · decide
    · exact f.text_ok c hc

theorem Entry.oneLine_lines (e : Entry u) : ∀ l ∈ e.lines, OneLine l := by
  intro l hl
  rcases List.mem_cons.mp hl with rfl | hl
  · exact e.name.oneLine
  rcases List.mem_cons.mp hl with rfl | hl
  · intro c hc
    rw [List.eq_of_mem_replicate hc]
    decide
  rcases List.mem_append.mp hl with hl | hl
  · obtain ⟨f, -, rfl⟩ := List.mem_map.mp hl
    exact f.oneLine
  · exact (e.blank_ok l hl).1

/-- One block for each rule, with its own name and fields. -/
theorem blocks_entries {text : List Char} {es : List (Entry u)} (h : splitlines text = es.flatMap Entry.lines) :
    blocks u text = es.map Entry.block := by
  obtain ⟨out', current', pendente', hblocks, hclosed⟩ :=
    @blocksFrom_entries u [] es [] Dict.empty none
  rw [List.append_nil] at hblocks
  rw [blocks, h, hblocks]
  exact hclosed

/-! ## Two rules -/

def sampleLine (key text : String) (h : key.toList.all (fun c => !isBreak c && c ≠ ':') = true)
    (h' : text.toList.all (fun c => !isBreak c) = true) : FieldLine where
  key := key.toList
  text := text.toList
  key_ok := by
    rw [List.all_eq_true] at h
    exact ⟨fun c hc => by simpa using (Bool.and_eq_true_iff.mp (h c hc)).1, fun hc => by simpa using h _ hc⟩
  text_ok c hc := by simpa using List.all_eq_true.mp h' c hc

/-- A rule with two fields, one of which has a colon in its value. -/
def coreEntry : Entry asciiTables where
  name := sampleLine "Rule Name" "   wavr-core" (by decide) (by decide)
  dashes := 25
  fields := [sampleLine "Enabled" "     Yes" (by decide) (by decide),
    sampleLine "Program" "     C:\\wavr.exe" (by decide) (by decide)]
  blank := [[]]
  some_dash := by decide
  blank_ok := empty_line_ok
  keys := by decide

/-- A rule with a name only. -/
def edgeEntry : Entry asciiTables where
  name := sampleLine "Rule Name" " Microsoft Edge (mDNS-In)" (by decide) (by decide)
  dashes := 25
  fields := []
  blank := []
  some_dash := by decide
  blank_ok := by simp
  keys := by decide

theorem blocks_two_rules :
    blocks asciiTables (written true ([coreEntry, edgeEntry].flatMap Entry.lines)) =
      [coreEntry.block, edgeEntry.block] :=
  @blocks_entries asciiTables _ [coreEntry, edgeEntry] (splitlines_written fun l hl => by
    obtain ⟨e, -, hl⟩ := List.mem_flatMap.mp hl
    exact e.oneLine_lines l hl)

end Wavr.LanReachability
