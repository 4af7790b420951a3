import Mathlib.Data.Finset.Sort
import Mathlib.Data.List.Induction
import Mathlib.Data.List.TakeWhile
import Mathlib.Data.String.Basic

/-!
# Text as the code handles it

A Python `str` is a sequence of code points; the functions here are the string methods
the sources call, over `List Char` where a proof looks inside the text and over `String`
where it is only carried around.
-/

namespace Wavr.Text

/-- `str.isspace` of one character. -/
def isSpace (c : Char) : Bool :=
  ('\t' ≤ c ∧ c ≤ '\r') ∨ ('\x1c' ≤ c ∧ c ≤ ' ') ∨ c = '\u0085' ∨ c = '\u00a0' ∨ c = '\u1680' ∨
    ('\u2000' ≤ c ∧ c ≤ '\u200a') ∨ c = '\u2028' ∨ c = '\u2029' ∨ c = '\u202f' ∨ c = '\u205f' ∨
    c = '\u3000'

/-- Whether a text is among others is decided by the characters. -/
instance lawfulBEqChars : LawfulBEq (List Char) := inferInstance

/-- `str.split()` with no separator: the maximal runs of other characters. -/
def words (cs : List Char) : List (List Char) := (cs.splitOnP isSpace).filter (· ≠ [])

/-- `" ".join(raw.split())`. -/
def collapse (s : String) : String :=
  String.ofList ([' '].intercalate (words s.toList))

/-- `s[:n]`. -/
def truncate (n : ℕ) (s : String) : String := String.ofList (s.toList.take n)

/-- `str.strip()` and `str.strip(chars)`. -/
def stripOf (p : Char → Bool) (cs : List Char) : List Char := ((cs.dropWhile p).reverse.dropWhile p).reverse

def strip (s : String) : String := String.ofList (stripOf isSpace s.toList)

/-- `str.lower()`, exact on every character whose lower case contains an ASCII character.
The other capitals stay as they are: the sources compare the result with ASCII words only. -/
def lowerChar (c : Char) : List Char :=
  if c = '\u0130' then ['i', '\u0307'] else if c = '\u212a' then ['k'] else [c.toLower]

def lowerList (cs : List Char) : List Char := cs.flatMap lowerChar

def lower (s : String) : String := String.ofList (lowerList s.toList)

/-- `sorted` of a set of texts. -/
def sortedSet (s : Finset String) : List String := s.sort

/-- Python's truth value of a string. -/
def truthy (s : String) : Bool := s ≠ ""

/-! ## Blank text -/

def blank (s : String) : Bool := s.toList.all isSpace

theorem words_eq_nil {cs : List Char} : words cs = [] ↔ cs.all isSpace = true := by
  have key : words cs = [] ↔ ∀ w ∈ cs.splitOnP isSpace, w = [] := by
    simp [words, List.filter_eq_nil_iff]
  rw [key]
  induction cs with
  | nil => simp
  | cons c cs ih =>
    rw [List.splitOnP_cons_eq_if_modifyHead]
    by_cases hc : isSpace c = true
    · simpa [hc] using ih (by simp [words, List.filter_eq_nil_iff])
    · obtain ⟨w, ws, hw⟩ := List.exists_cons_of_ne_nil (List.splitOnP_ne_nil isSpace cs)
      simp [hc, hw]

theorem collapse_eq_empty {s : String} : collapse s = "" ↔ blank s = true := by
  rw [blank, ← words_eq_nil, collapse, ← String.toList_eq_nil_iff, String.toList_ofList]
  constructor
  · intro h
    cases hw : words s.toList with
    | nil => rfl
    | cons w ws =>
      have hne : w ≠ [] := by
        have hmem : w ∈ words s.toList := hw ▸ List.mem_cons_self
        simpa using (List.mem_filter.mp hmem).2
      cases ws <;> simp [hw, hne] at h
  · intro h
    simp [h]

theorem words_of_no_space {w : List Char} (hne : w ≠ []) (hw : ∀ c ∈ w, isSpace c = false) :
    words w = [w] := by
  rw [words, List.splitOnP_eq_singleton hw, List.filter_cons_of_pos (by simpa using hne),
    List.filter_nil]

/-- Words that are joined with blanks come apart again. -/
theorem words_intercalate {ws : List (List Char)}
    (h : ∀ w ∈ ws, w ≠ [] ∧ ∀ c ∈ w, isSpace c = false) : words ([' '].intercalate ws) = ws := by
  induction ws with
  | nil => rfl
  | cons w ws ih =>
    obtain ⟨hne, hw⟩ := h w List.mem_cons_self
    have hrest := ih fun w' hw' => h w' (List.mem_cons_of_mem w hw')
    cases ws with
    | nil =>
      rw [List.intercalate_singleton]
      exact words_of_no_space hne hw
    | cons w' ws =>
      rw [List.intercalate_cons_cons, List.append_assoc, List.singleton_append, words,
        List.splitOnP_append_cons_of_forall_mem hw ' ' (by decide),
        List.filter_cons_of_pos (by simpa using hne)]
      exact congrArg (w :: ·) hrest

theorem truncate_eq_empty {n : ℕ} (hn : 0 < n) {s : String} : truncate n s = "" ↔ s = "" := by
  rw [truncate, ← String.toList_eq_nil_iff, String.toList_ofList, List.take_eq_nil_iff,
    String.toList_eq_nil_iff]
  exact or_iff_right hn.ne'

theorem strip_of_no_space {s : String} (h : s.toList.all (fun c => ! isSpace c) = true) : strip s = s := by
  have hns : ∀ c ∈ s.toList, ¬ isSpace c = true := by simpa using h
  have drop : ∀ cs : List Char, (∀ c ∈ cs, ¬ isSpace c = true) → cs.dropWhile isSpace = cs := by
    intro cs hcs
    cases cs with
    | nil => rfl
    | cons c cs => exact List.dropWhile_cons_of_neg (hcs c List.mem_cons_self)
  rw [strip, stripOf, drop _ hns, drop _ fun c hc => hns c (List.mem_reverse.mp hc),
    List.reverse_reverse, String.ofList_toList]

/-! ## Collapsed text -/

/-- What `str.split()` gives. -/
def AreWords (ws : List (List Char)) : Prop := ∀ w ∈ ws, w ≠ [] ∧ ∀ c ∈ w, isSpace c = false

theorem not_space_of_mem_splitOnP {cs w : List Char} (hw : w ∈ cs.splitOnP isSpace) :
    ∀ c ∈ w, isSpace c = false := by
  induction cs generalizing w with
  | nil =>
    rw [List.splitOnP_nil, List.mem_singleton] at hw
    exact hw ▸ fun _ hc => (by cases hc)
  | cons c cs ih =>
    rw [List.splitOnP_cons_eq_if_modifyHead] at hw
    split_ifs at hw with hc
    · rcases List.mem_cons.mp hw with rfl | hw
      · exact fun _ hd => (by cases hd)
      · exact ih hw
    · obtain ⟨v, vs, hv⟩ := List.exists_cons_of_ne_nil (List.splitOnP_ne_nil isSpace cs)
      rw [hv] at hw ih
      rcases List.mem_cons.mp hw with rfl | hw
      · exact List.forall_mem_cons.mpr ⟨Bool.eq_false_iff.mpr hc, ih List.mem_cons_self⟩
      · exact ih (List.mem_cons_of_mem v hw)

theorem areWords_words (cs : List Char) : AreWords (words cs) := by
  intro w hw
  obtain ⟨hw, hne⟩ := List.mem_filter.mp hw
  exact ⟨of_decide_eq_true hne, not_space_of_mem_splitOnP hw⟩

theorem collapse_collapse (s : String) : collapse (collapse s) = collapse s := by
  rw [collapse, collapse, String.toList_ofList, words_intercalate (areWords_words _)]

theorem words_append_blank (cs : List Char) : words (cs ++ [' ']) = words cs := by
  rw [words, List.splitOnP_append_cons cs [] (by decide), List.filter_append]
  exact List.append_nil _

/-- A piece of collapsed text is collapsed, but for a blank at its end. -/
theorem piece_intercalate {ws : List (List Char)} (h : AreWords ws) {p : List Char}
    (hp : p <+: [' '].intercalate ws) :
    ∃ ws', AreWords ws' ∧ (p = [' '].intercalate ws' ∨ ws' ≠ [] ∧ p = [' '].intercalate ws' ++ [' ']) := by
  induction ws generalizing p with
  | nil =>
    rw [List.prefix_nil.mp hp]
    exact ⟨[], h, .inl rfl⟩
  | cons w ws ih =>
    obtain ⟨⟨hne, hw⟩, hws⟩ := List.forall_mem_cons.mp h
    have hcons : ∀ ws', AreWords ws' → AreWords (w :: ws') := fun ws' h => List.forall_mem_cons.mpr ⟨⟨hne, hw⟩, h⟩
    -- a piece that ends in the first word is that piece of it
    have hpart : p <+: w →
        ∃ ws', AreWords ws' ∧ (p = [' '].intercalate ws' ∨ ws' ≠ [] ∧ p = [' '].intercalate ws' ++ [' ']) := by
      intro hp
      by_cases hnil : p = []
      · exact ⟨[], fun _ h => (by cases h), .inl hnil⟩
      · refine ⟨[p], fun v hv => ?_, .inl List.intercalate_singleton.symm⟩
        rw [List.mem_singleton.mp hv]
        exact ⟨hnil, fun c hc => hw c (hp.subset hc)⟩
    cases ws with
    | nil =>
      rw [List.intercalate_singleton] at hp
      exact hpart hp
    | cons w' ws =>
      have heq : [' '].intercalate (w :: w' :: ws) = w ++ ' ' :: [' '].intercalate (w' :: ws) := by
        rw [List.intercalate_cons_cons, List.append_assoc, List.singleton_append]
      rw [heq] at hp
      rcases List.prefix_or_prefix_of_prefix hp (List.prefix_append w _) with hp | ⟨q, rfl⟩
      · exact hpart hp
      · rcases List.prefix_cons_iff.mp ((List.prefix_append_right_inj w).mp hp) with rfl | ⟨q, rfl, hq⟩
        · exact ⟨[w], hcons [] fun _ h => (by cases h), .inl (by rw [List.intercalate_singleton, List.append_nil])⟩
        · -- the blank is the last character of the piece, or more words follow it
          obtain ⟨ws', hws', hq⟩ := ih hws hq
          cases ws' with
          | nil =>
            have hnil : q = [] := hq.resolve_right fun h => h.1 rfl
            refine ⟨[w], hcons [] hws', .inr ⟨List.cons_ne_nil _ _, ?_⟩⟩
            rw [hnil, List.intercalate_singleton]
          | cons v ws' =>
            have hjoin : [' '].intercalate (w :: v :: ws') = w ++ ' ' :: [' '].intercalate (v :: ws') := by
              rw [List.intercalate_cons_cons, List.append_assoc, List.singleton_append]
            refine ⟨w :: v :: ws', hcons _ hws', ?_⟩
            rcases hq with rfl | ⟨-, rfl⟩
            · exact .inl hjoin.symm
            · exact .inr ⟨List.cons_ne_nil _ _, by rw [hjoin, List.append_assoc, List.cons_append]⟩

theorem getLast?_intercalate {ws : List (List Char)} (h : AreWords ws) :
    ([' '].intercalate ws).getLast? ≠ some ' ' := by
  induction ws with
  | nil => exact fun h => (by cases h)
  | cons w ws ih =>
    obtain ⟨⟨hne, hw⟩, hws⟩ := List.forall_mem_cons.mp h
    cases ws with
    | nil =>
      rw [List.intercalate_singleton]
      intro hlast
      cases hw ' ' (List.mem_of_getLast? hlast)
    | cons w' ws =>
      have hrest : [' '].intercalate (w' :: ws) ≠ [] := by
        intro hnil
        have hwords := words_intercalate hws
        rw [hnil] at hwords
        cases hwords
      rw [List.intercalate_cons_cons, List.getLast?_append_of_ne_nil _ hrest]
      exact ih hws

/-- Cut collapsed text is the same when it is collapsed and cut again, unless it was cut behind a blank. -/
theorem truncate_collapse_truncate (n : ℕ) (s : String) :
    truncate n (collapse (truncate n (collapse s))) = truncate n (collapse s) ↔
      (truncate n (collapse s)).toList.getLast? ≠ some ' ' := by
  have hpiece : (truncate n (collapse s)).toList <+: [' '].intercalate (words s.toList) := by
    rw [truncate, collapse, String.toList_ofList, String.toList_ofList]
    exact List.take_prefix n _
  have hlen : (truncate n (collapse s)).toList.length ≤ n := by
    rw [truncate, String.toList_ofList]
    exact List.length_take_le n _
  generalize truncate n (collapse s) = t at hpiece hlen ⊢
  obtain ⟨ws, hws, hjoin | ⟨-, hjoin⟩⟩ := piece_intercalate (areWords_words s.toList) hpiece
  · refine iff_of_true ?_ (hjoin ▸ getLast?_intercalate hws)
    have hwords : [' '].intercalate (words t.toList) = t.toList := by rw [hjoin, words_intercalate hws]
    rw [truncate, collapse, String.toList_ofList, hwords, List.take_of_length_le hlen, String.ofList_toList]
  · refine iff_of_false (fun h => ?_) (not_not.mpr (hjoin ▸ List.getLast?_concat))
    have hwords : [' '].intercalate (words t.toList) = [' '].intercalate ws := by
      rw [hjoin, words_append_blank, words_intercalate hws]
    have hlist : ([' '].intercalate ws).take n = t.toList := by
      rw [← hwords]
      simpa [truncate, collapse] using congrArg String.toList h
    have hshort : t.toList.length ≤ ([' '].intercalate ws).length := by
      rw [← hlist]
      exact List.length_take_le' n _
    rw [hjoin, List.length_append] at hshort
    exact absurd hshort (Nat.not_succ_le_self _)

/-! ## Splitting at a character

`s.partition(c)` is `(before c s, c, after c s)` where `c` occurs, and `s.rpartition(c)` is
`(beforeLast c s, c, afterLast c s)`; where it does not, the parts are those Python gives.
-/

def before (c : Char) (s : List Char) : List Char := s.takeWhile (· ≠ c)

def after (c : Char) (s : List Char) : List Char := (s.dropWhile (· ≠ c)).drop 1

def beforeLast (c : Char) (s : List Char) : List Char := (after c s.reverse).reverse

def afterLast (c : Char) (s : List Char) : List Char := (before c s.reverse).reverse

/-- `s.split(sep, 1)` where `sep` occurs. -/
def cut (sep : List Char) : List Char → Option (List Char × List Char)
  | [] => if sep = [] then some ([], []) else none
  | c :: cs =>
    if sep.isPrefixOf (c :: cs) then some ([], (c :: cs).drop sep.length)
    else (cut sep cs).map fun e => (c :: e.1, e.2)

section
variable {c : Char} {a b s : List Char}

theorem before_append (h : c ∉ a) : before c (a ++ b) = a ++ before c b :=
  List.takeWhile_append_of_pos fun x hx => by
    have hne : x ≠ c := fun he => h (he ▸ hx)
    simpa using hne

theorem after_append (h : c ∉ a) : after c (a ++ b) = after c b := by
  unfold after
  rw [List.dropWhile_append_of_pos fun x hx => ?_]
  have hne : x ≠ c := fun he => h (he ▸ hx)
  simpa using hne

@[simp] theorem before_cons_self : before c (c :: b) = [] := by simp [before]

@[simp] theorem after_cons_self : after c (c :: b) = b := by simp [after]

theorem before_of_not_mem (h : c ∉ s) : before c s = s := by simpa [before] using before_append (b := []) h

theorem afterLast_of_not_mem (h : c ∉ s) : afterLast c s = s := by
  rw [afterLast, before_of_not_mem (by simpa using h), List.reverse_reverse]

theorem afterLast_append_cons (h : c ∉ b) : afterLast c (a ++ c :: b) = b := by
  have : (a ++ c :: b).reverse = b.reverse ++ c :: a.reverse := by simp
  rw [afterLast, this, before_append (by simpa using h), before_cons_self, List.append_nil,
    List.reverse_reverse]

theorem beforeLast_append_cons (h : c ∉ b) : beforeLast c (a ++ c :: b) = a := by
  have : (a ++ c :: b).reverse = b.reverse ++ c :: a.reverse := by simp
  rw [beforeLast, this, after_append (by simpa using h), after_cons_self, List.reverse_reverse]

theorem exists_last (h : c ∈ s) : ∃ a b, s = a ++ c :: b ∧ c ∉ b := by
  obtain ⟨x, y, he, hn⟩ := List.eq_append_cons_of_mem (List.mem_reverse.mpr h)
  refine ⟨y.reverse, x.reverse, ?_, by simpa using hn⟩
  simpa using congrArg List.reverse he

theorem not_mem_afterLast : c ∉ afterLast c s := by
  by_cases h : c ∈ s
  · obtain ⟨a, b, rfl, hb⟩ := exists_last h
    rwa [afterLast_append_cons hb]
  · rwa [afterLast_of_not_mem h]

theorem afterLast_append (h : c ∉ b) : afterLast c (a ++ b) = afterLast c a ++ b := by
  by_cases ha : c ∈ a
  · obtain ⟨x, y, rfl, hy⟩ := exists_last ha
    have hyb : c ∉ y ++ b := by simp [hy, h]
    rw [List.append_assoc, List.cons_append, afterLast_append_cons hyb, afterLast_append_cons hy]
  · rw [afterLast_of_not_mem ha, afterLast_of_not_mem (by simp [ha, h])]

/-- Everything up to an occurrence is forgotten. -/
theorem afterLast_append_cons_eq : afterLast c (a ++ c :: b) = afterLast c b := by
  by_cases hb : c ∈ b
  · obtain ⟨x, y, rfl, hy⟩ := exists_last hb
    have : a ++ c :: (x ++ c :: y) = (a ++ c :: x) ++ c :: y := by simp
    rw [this, afterLast_append_cons hy, afterLast_append_cons hy]
  · rw [afterLast_append_cons hb, afterLast_of_not_mem hb]

theorem exists_beforeLast_append_cons : ∃ t, beforeLast c (a ++ c :: b) = a ++ t := by
  by_cases hb : c ∈ b
  · obtain ⟨x, y, rfl, hy⟩ := exists_last hb
    have : a ++ c :: (x ++ c :: y) = (a ++ c :: x) ++ c :: y := by simp
    exact ⟨c :: x, by rw [this, beforeLast_append_cons hy]⟩
  · exact ⟨[], by rw [beforeLast_append_cons hb, List.append_nil]⟩

theorem exists_append_afterLast : ∃ t, s = t ++ afterLast c s := by
  by_cases h : c ∈ s
  · obtain ⟨x, y, rfl, hy⟩ := exists_last h
    exact ⟨x ++ [c], by rw [afterLast_append_cons hy]; simp⟩
  · exact ⟨[], by rw [afterLast_of_not_mem h, List.nil_append]⟩

theorem eq_before_cons_after (h : c ∈ s) : s = before c s ++ c :: after c s := by
  obtain ⟨x, y, rfl, hx⟩ := List.eq_append_cons_of_mem h
  rw [before_append hx, after_append hx]
  simp

theorem not_mem_before : c ∉ before c s := fun h => by simpa using List.mem_takeWhile_imp h

/-- The first occurrence is found behind text without its first character. -/
theorem cut_append (sep : List Char) (h : c ∉ a) :
    cut (c :: sep) (a ++ c :: (sep ++ b)) = some (a, b) := by
  induction a with
  | nil => simp [cut]
  | cons x a ih =>
    have hx : c ≠ x := fun he => h (he ▸ List.mem_cons_self)
    have ha : c ∉ a := fun hm => h (List.mem_cons_of_mem x hm)
    simp [cut, hx, ih ha]

end

theorem mem_intercalate {c d : Char} {ls : List (List Char)} (h : c ∈ [d].intercalate ls) :
    c = d ∨ ∃ l ∈ ls, c ∈ l := by
  induction ls with
  | nil => cases h
  | cons l ls ih =>
    rcases ls.eq_nil_or_concat with rfl | ⟨init, last, rfl⟩
    · rw [List.intercalate_singleton] at h
      exact .inr ⟨l, List.mem_cons_self, h⟩
    · rw [List.intercalate_cons_of_ne_nil (by simp), List.mem_append, List.mem_append, List.mem_singleton] at h
      rcases h with (hl | rfl) | hrest
      · exact .inr ⟨l, List.mem_cons_self, hl⟩
      · exact .inl rfl
      · exact (ih hrest).imp_right fun ⟨l', hl', hc⟩ => ⟨l', List.mem_cons_of_mem l hl', hc⟩

/-! ## Edges -/

/-- The text neither starts nor ends with such a character. -/
def Trimmed (p : Char → Bool) (cs : List Char) : Prop :=
  (∀ c ∈ cs.head?, p c = false) ∧ ∀ c ∈ cs.getLast?, p c = false

section
variable {p : Char → Bool} {cs : List Char}

theorem dropWhile_eq_self (h : ∀ c ∈ cs.head?, p c = false) : cs.dropWhile p = cs := by
  cases cs with
  | nil => rfl
  | cons c cs =>
    have hc : p c = false := h c rfl
    exact List.dropWhile_cons_of_neg (by simp [hc])

theorem head?_dropWhile (cs : List Char) : ∀ c ∈ (cs.dropWhile p).head?, p c = false := by
  intro c hc
  have := List.head?_dropWhile_not p cs
  rw [hc] at this
  simpa using this

theorem stripOf_of_trimmed (h : Trimmed p cs) : stripOf p cs = cs := by
  have hlast : ∀ c ∈ cs.reverse.head?, p c = false := by
    rw [List.head?_reverse]
    exact h.2
  rw [stripOf, dropWhile_eq_self h.1, dropWhile_eq_self hlast, List.reverse_reverse]

theorem trimmed_stripOf (p : Char → Bool) (cs : List Char) : Trimmed p (stripOf p cs) := by
  refine ⟨fun c hc => ?_, fun c hc => ?_⟩
  · have hpre : stripOf p cs <+: cs.dropWhile p := by
      unfold stripOf
      rw [← List.reverse_suffix, List.reverse_reverse]
      exact List.dropWhile_suffix p
    obtain ⟨t, ht⟩ := hpre
    refine head?_dropWhile cs c ?_
    rw [← ht]
    cases hs : stripOf p cs with
    | nil =>
      rw [hs] at hc
      cases hc
    | cons d ds =>
      rw [hs] at hc
      exact hc
  · unfold stripOf at hc
    rw [List.getLast?_reverse] at hc
    exact head?_dropWhile _ c hc

theorem mem_of_mem_stripOf {c : Char} (h : c ∈ stripOf p cs) : c ∈ cs := by
  unfold stripOf at h
  rw [List.mem_reverse] at h
  exact List.dropWhile_sublist _ |>.subset (List.mem_reverse.mp (List.dropWhile_sublist _ |>.subset h))

theorem stripOf_ne_nil {s : List Char} {c : Char} (hc : c ∈ s) (hp : p c = false) :
    stripOf p s ≠ [] := by
  intro h
  have hall : ∀ d ∈ (s.dropWhile p).reverse, p d = true := by
    rw [stripOf, List.reverse_eq_nil_iff, List.dropWhile_eq_nil_iff] at h
    exact h
  cases hdrop : s.dropWhile p with
  | nil =>
    have := List.dropWhile_eq_nil_iff.mp hdrop c hc
    simp [hp] at this
  | cons d ds =>
    have hhead := head?_dropWhile (p := p) s d (by rw [hdrop]; rfl)
    have := hall d (by rw [hdrop]; simp)
    simp [hhead] at this

/-- Blanks are taken off on both sides of what is none. -/
theorem stripOf_append_cons {a b : List Char} {x : Char} (hx : p x = false) :
    stripOf p (a ++ x :: b) = a.dropWhile p ++ x :: (b.reverse.dropWhile p).reverse := by
  have hdrop : ∀ s t : List Char, (s ++ x :: t).dropWhile p = s.dropWhile p ++ x :: t := by
    intro s t
    rw [List.dropWhile_append]
    split
    · rename_i hnil
      rw [List.isEmpty_iff.mp hnil, List.nil_append, List.dropWhile_cons_of_neg (by simp [hx])]
    · rfl
  rw [stripOf, hdrop, List.reverse_append, List.reverse_cons, List.append_assoc, List.singleton_append, hdrop,
    List.reverse_append, List.reverse_cons, List.reverse_reverse, List.append_assoc, List.singleton_append]

theorem stripOf_dropWhile (s : List Char) : stripOf p (s.dropWhile p) = stripOf p s := by
  rw [stripOf, stripOf, dropWhile_eq_self (head?_dropWhile s)]

/-- Taken off at the end first, the blanks are gone as well. -/
theorem stripOf_rstrip (s : List Char) : stripOf p (s.reverse.dropWhile p).reverse = stripOf p s := by
  have hcomm : ∀ s : List Char, ((s.reverse.dropWhile p).reverse).dropWhile p = stripOf p s := by
    intro s
    induction s with
    | nil => rfl
    | cons c s ih =>
      by_cases hc : p c = true
      · have hright : stripOf p (c :: s) = stripOf p s := by rw [stripOf, stripOf, List.dropWhile_cons_of_pos hc]
        rw [hright, List.reverse_cons, List.dropWhile_append]
        split
        · rename_i hnil
          rw [List.isEmpty_iff.mp hnil] at ih
          rw [List.dropWhile_cons_of_pos hc]
          exact ih
        · rw [List.reverse_append, List.reverse_singleton, List.singleton_append, List.dropWhile_cons_of_pos hc]
          exact ih
      · have hc' : p c = false := by simpa using hc
        have hsplit : stripOf p ([] ++ c :: s) = c :: (s.reverse.dropWhile p).reverse := stripOf_append_cons hc'
        rw [List.nil_append] at hsplit
        rw [hsplit, List.reverse_cons, List.dropWhile_append]
        split
        · rename_i hnil
          rw [List.isEmpty_iff.mp hnil, List.dropWhile_cons_of_neg hc, List.reverse_singleton,
            List.dropWhile_cons_of_neg hc]
          rfl
        · rw [List.reverse_append, List.reverse_singleton, List.singleton_append, List.dropWhile_cons_of_neg hc]
  have hlast : ∀ c ∈ (stripOf p s).reverse.head?, p c = false := by
    intro c hc
    rw [List.head?_reverse] at hc
    exact (trimmed_stripOf p s).2 c hc
  have hunfold : stripOf p (s.reverse.dropWhile p).reverse =
      ((((s.reverse.dropWhile p).reverse).dropWhile p).reverse.dropWhile p).reverse := rfl
  rw [hunfold, hcomm s, dropWhile_eq_self hlast, List.reverse_reverse]

theorem stripOf_blank_append {s t : List Char} (ht : ∀ c ∈ t, p c = true) :
    stripOf p (t ++ s) = stripOf p s := by
  rw [stripOf, List.dropWhile_append_of_pos ht, ← stripOf]

theorem strip_strip (s : String) : strip (strip s) = strip s := by
  rw [strip, strip, String.toList_ofList, stripOf_of_trimmed (trimmed_stripOf isSpace s.toList)]

theorem Trimmed.flatMap {f : Char → List Char} (h : Trimmed p cs)
    (hf : ∀ c, f c ≠ [] ∧ (p c = false → ∀ d ∈ f c, p d = false)) : Trimmed p (cs.flatMap f) := by
  refine ⟨fun d hd => ?_, fun d hd => ?_⟩
  · cases cs with
    | nil => cases hd
    | cons c cs =>
      have hmem : d ∈ (f c).head? := by
        rw [List.flatMap_cons, List.head?_append_of_ne_nil _ (hf c).1] at hd
        exact hd
      exact (hf c).2 (h.1 c rfl) d (List.mem_of_mem_head? hmem)
  · induction cs using List.reverseRecOn with
    | nil => cases hd
    | append_singleton cs c _ =>
      have hmem : d ∈ (f c).getLast? := by
        rw [List.flatMap_append, List.flatMap_singleton, List.getLast?_append_of_ne_nil _ (hf c).1] at hd
        exact hd
      exact (hf c).2 (h.2 c List.getLast?_concat) d (List.mem_of_mem_getLast? hmem)

end

theorem lowerChar_capital : ∀ n ∈ List.range 26, (lowerChar (Char.ofNat (65 + n))).all fun d =>
    lowerChar d = [d] ∧ isSpace d = false ∧ d ≠ '-' := by
  decide

/-- A lower letter is its own lower case, and a blank or a dash only where the letter was one. -/
theorem mem_lowerChar {c d : Char} (h : d ∈ lowerChar c) :
    lowerChar d = [d] ∧ (isSpace c = false → isSpace d = false) ∧ (d = '-' → c = '-') := by
  by_cases hup : c.val ≥ 'A'.val ∧ c.val ≤ 'Z'.val
  · have hlow : 65 ≤ c.toNat := hup.1
    have hhigh : c.toNat ≤ 90 := hup.2
    have hc : Char.ofNat (65 + (c.toNat - 65)) = c := by
      rw [Nat.add_sub_cancel' hlow, Char.ofNat_toNat]
    have hall := lowerChar_capital (c.toNat - 65) (List.mem_range.mpr (by omega))
    rw [hc, List.all_eq_true] at hall
    obtain ⟨hlower, hspace, hdash⟩ := of_decide_eq_true (hall d h)
    exact ⟨hlower, fun _ => hspace, fun he => absurd he hdash⟩
  · have hsame : c.toLower = c := dif_neg hup
    unfold lowerChar at h
    split_ifs at h with hdot hkelvin
    · rcases List.mem_cons.mp h with rfl | h
      · exact ⟨by decide, fun _ => by decide, fun he => absurd he (by decide)⟩
      · rw [List.mem_singleton.mp h]
        exact ⟨by decide, fun _ => by decide, fun he => absurd he (by decide)⟩
    · rw [List.mem_singleton.mp h]
      exact ⟨by decide, fun _ => by decide, fun he => absurd he (by decide)⟩
    · rw [List.mem_singleton.mp h, hsame]
      refine ⟨?_, id, id⟩
      rw [lowerChar, if_neg hdot, if_neg hkelvin, hsame]

/-! ## MAC addresses -/

/-- `mac.strip().replace("-", ":").lower()`. -/
def macForm (mac : String) : String :=
  lower (String.ofList ((strip mac).toList.map fun c => if c = '-' then ':' else c))

theorem lowerChar_ne_nil (c : Char) : lowerChar c ≠ [] := by
  unfold lowerChar
  split_ifs <;> exact List.cons_ne_nil _ _

/-- What becomes of a character of a MAC. -/
def macChar (c : Char) : List Char := lowerChar (if c = '-' then ':' else c)

theorem mem_macChar {c d : Char} (h : d ∈ macChar c) :
    macChar d = [d] ∧ (isSpace c = false → isSpace d = false) := by
  obtain ⟨hlower, hspace, hdash⟩ := mem_lowerChar h
  have hne : d ≠ '-' := fun he => by
    have hc := hdash he
    split_ifs at hc with hcolon
    · cases hc
    · exact hcolon hc
  refine ⟨?_, fun hc => hspace ?_⟩
  · rw [macChar, if_neg hne, hlower]
  · split_ifs
    · decide
    · exact hc

theorem toList_macForm (mac : String) : (macForm mac).toList = (stripOf isSpace mac.toList).flatMap macChar := by
  unfold macForm lower lowerList strip
  rw [String.toList_ofList, String.toList_ofList, String.toList_ofList, List.flatMap_map]
  rfl

theorem stripOf_macForm (mac : String) : stripOf isSpace (macForm mac).toList = (macForm mac).toList := by
  rw [toList_macForm]
  exact stripOf_of_trimmed ((trimmed_stripOf isSpace mac.toList).flatMap fun c =>
    ⟨lowerChar_ne_nil _, fun hc d hd => (mem_macChar hd).2 hc⟩)

theorem macForm_macForm (mac : String) : macForm (macForm mac) = macForm mac := by
  refine String.toList_injective ?_
  rw [toList_macForm, stripOf_macForm, toList_macForm, List.flatMap_assoc]
  refine List.flatMap_congr fun c _ => ?_
  calc (macChar c).flatMap macChar
      = (macChar c).flatMap fun d => [d] := List.flatMap_congr fun d hd => (mem_macChar hd).1
    _ = macChar c := List.flatMap_singleton' _

theorem strip_macForm (mac : String) : strip (macForm mac) = macForm mac := by
  rw [strip, stripOf_macForm, String.ofList_toList]

theorem macForm_eq_empty {mac : String} : macForm mac = "" ↔ strip mac = "" := by
  rw [← String.toList_eq_nil_iff, ← String.toList_eq_nil_iff, toList_macForm, strip, String.toList_ofList,
    List.flatMap_eq_nil_iff]
  refine ⟨fun h => ?_, fun h => by simp [h]⟩
  refine List.eq_nil_iff_forall_not_mem.mpr fun c hc => lowerChar_ne_nil _ (h c hc)

end Wavr.Text
