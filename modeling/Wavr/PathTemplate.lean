import Wavr.UrlSplit

/-!
# Paths with places for arguments

A path is a template with every place filled, segment by segment. What `quote` writes there adds no
segment, no query and no fragment, and reads back.
-/

namespace Wavr.PathTemplate

open UrlSplit

def hexValue (c : Char) : Option ℕ :=
  if '0' ≤ c ∧ c ≤ '9' then some (c.toNat - 48)
  else if 'A' ≤ c ∧ c ≤ 'F' then some (c.toNat - 55)
  else if 'a' ≤ c ∧ c ≤ 'f' then some (c.toNat - 87)
  else none

/-- `unquote_to_bytes`. -/
def unquoteBytes : List Char → List UInt8
  | '%' :: a :: b :: rest =>
    match hexValue a, hexValue b with
    | some x, some y => UInt8.ofNat (16 * x + y) :: unquoteBytes rest
    | _, _ => String.utf8EncodeChar '%' ++ unquoteBytes (a :: b :: rest)
  | c :: rest => String.utf8EncodeChar c ++ unquoteBytes rest
  | [] => []

/-- The text that was percent-encoded. -/
def unquote (s : List Char) : Option String := String.fromUTF8? (unquoteBytes s).toByteArray

def segments (path : List Char) : List (List Char) := path.splitOn '/'

/-- The place of the argument `k`. -/
def place (k : String) : List Char := '{' :: (k.toList ++ ['}'])

/-- The argument a segment of a template is the place of. -/
def param : List Char → Option String
  | '{' :: rest => if rest.getLast? = some '}' then some (String.ofList rest.dropLast) else none
  | _ => none

def fill (values : String → Option (List Char)) (seg : List Char) : Option (List Char) :=
  match param seg with
  | some k => values k
  | none => some seg

def isLiteral (c : Char) : Bool := c ≠ '{' ∧ c ≠ '/' ∧ c ≠ '?' ∧ c ≠ '#'

def wellFormed (isName : Char → Bool) (seg : List Char) : Bool :=
  match param seg with
  | some k => k ≠ "" ∧ k.toList.all isName
  | none => seg.all isLiteral

/-- A substitution that leaves text alone and puts values in the places. -/
structure Expands (isName : Char → Bool) (values : String → Option (List Char))
    (f : List Char → Option (List Char)) : Prop where
  nil : f [] = some []
  char : ∀ c rest, c ≠ '{' → f (c :: rest) = (f rest).map (c :: ·)
  place : ∀ k rest, k ≠ "" → k.toList.all isName = true →
    f (place k ++ rest) = (values k).bind fun v => (f rest).map (v ++ ·)

/-! ## Percent-decoding -/

theorem hexValue_upperHex {n : ℕ} (h : n < 16) : hexValue (upperHex n) = some n := by
  have hall : ∀ m ∈ List.range 16, hexValue (upperHex m) = some m := by decide +kernel
  exact hall n (List.mem_range.mpr h)

theorem unquoteBytes_cons {c : Char} (hc : c ≠ '%') (rest : List Char) :
    unquoteBytes (c :: rest) = String.utf8EncodeChar c ++ unquoteBytes rest := by
  rw [unquoteBytes]
  rintro a b rest' rfl
  exact absurd rfl hc

theorem unquoteBytes_escaped (b : UInt8) (rest : List Char) :
    unquoteBytes ('%' :: upperHex (b.toNat / 16) :: upperHex (b.toNat % 16) :: rest) = b :: unquoteBytes rest := by
  have hlt : b.toNat < 256 := b.toNat_lt
  rw [unquoteBytes, hexValue_upperHex (by omega), hexValue_upperHex (by omega)]
  dsimp only
  rw [Nat.div_add_mod, UInt8.ofNat_toNat]

theorem unquoteBytes_quote (s : List Char) : unquoteBytes (quote s) = s.flatMap String.utf8EncodeChar := by
  have hbytes : ∀ (bs : List UInt8) (rest : List Char),
      unquoteBytes ((bs.flatMap fun b => ['%', upperHex (b.toNat / 16), upperHex (b.toNat % 16)]) ++ rest) =
        bs ++ unquoteBytes rest := by
    intro bs rest
    induction bs with
    | nil => rfl
    | cons b bs ih =>
      rw [List.flatMap_cons, List.append_assoc]
      exact (unquoteBytes_escaped b _).trans (congrArg (b :: ·) ih)
  induction s with
  | nil => rfl
  | cons c s ih =>
    have hquote : quote (c :: s) = (if isAlwaysSafe c then [c] else (String.utf8EncodeChar c).flatMap fun b =>
        ['%', upperHex (b.toNat / 16), upperHex (b.toNat % 16)]) ++ quote s := List.flatMap_cons
    rw [hquote, List.flatMap_cons, ← ih]
    split_ifs with hsafe
    · refine unquoteBytes_cons ?_ _
      rintro rfl
      exact absurd hsafe (by decide)
    · exact hbytes _ _

/-- What is percent-encoded reads back. -/
theorem unquote_quote (s : String) : unquote (quote s.toList) = some s := by
  have hbytes : (unquoteBytes (quote s.toList)).toByteArray = s.toByteArray := by
    rw [unquoteBytes_quote]
    exact String.utf8Encode_toList
  rw [unquote, hbytes, String.fromUTF8?, dif_pos s.isValidUTF8]
  rfl

theorem quote_injective {s t : String} (h : quote s.toList = quote t.toList) : s = t := by
  have heq := unquote_quote s
  rw [h, unquote_quote] at heq
  exact (Option.some.inj heq).symm

/-! ## Filling a template -/

section
variable {isName : Char → Bool} {values : String → Option (List Char)} {f : List Char → Option (List Char)}

theorem place_of_param {seg : List Char} {k : String} (h : param seg = some k) : seg = place k := by
  unfold param at h
  split at h
  · rename_i rest
    split_ifs at h with hlast
    cases h
    obtain ⟨init, rfl⟩ := List.getLast?_eq_some_iff.mp hlast
    simp [place]
  · cases h

theorem Expands.text (hf : Expands isName values f) {seg : List Char} (h : '{' ∉ seg) (rest : List Char) :
    f (seg ++ rest) = (f rest).map (seg ++ ·) := by
  induction seg with
  | nil => simp
  | cons c seg ih =>
    have hc : c ≠ '{' := fun heq => h (heq ▸ List.mem_cons_self)
    rw [List.cons_append, hf.char c _ hc, ih fun hmem => h (List.mem_cons_of_mem c hmem), Option.map_map]
    rfl

theorem Expands.segment (hf : Expands isName values f) {seg s : List Char} (hwf : wellFormed isName seg = true)
    (h : fill values seg = some s) (rest : List Char) : f (seg ++ rest) = (f rest).map (s ++ ·) := by
  unfold fill at h
  unfold wellFormed at hwf
  split at h
  · rename_i k hk
    rw [hk] at hwf
    obtain ⟨hne, hname⟩ := of_decide_eq_true hwf
    rw [place_of_param hk, hf.place k rest hne hname, h]
    rfl
  · rename_i hk
    rw [hk] at hwf
    cases h
    refine hf.text (fun hmem => ?_) rest
    exact absurd (List.all_eq_true.mp hwf _ hmem) (by decide)

/-- Every segment is filled in its place. -/
theorem Expands.path (hf : Expands isName values f) {segs outs : List (List Char)}
    (h : List.Forall₂ (fun seg s => wellFormed isName seg = true ∧ fill values seg = some s) segs outs) :
    f (['/'].intercalate segs) = some (['/'].intercalate outs) := by
  induction h with
  | nil => exact hf.nil
  | @cons seg s segs outs hseg hall ih =>
    cases hall with
    | nil =>
      have hlast := hf.segment hseg.1 hseg.2 []
      rw [hf.nil] at hlast
      simpa using hlast
    | cons hnext hall =>
      rw [List.intercalate_cons_cons, List.intercalate_cons_cons, List.append_assoc, List.append_assoc,
        hf.segment hseg.1 hseg.2, List.singleton_append, hf.char _ _ (by decide), ih]
      rfl

/-- What stands in a filled segment: text of the template, or what was quoted. -/
theorem isLiteral_of_fill {seg s : List Char} (hwf : wellFormed isName seg = true) (h : fill values seg = some s)
    (hvalues : ∀ k v, values k = some v → ∀ c ∈ v, isQuoted c = true) : ∀ c ∈ s, isLiteral c = true := by
  unfold fill at h
  unfold wellFormed at hwf
  split at h
  · intro c hc
    have hquoted := hvalues _ s h c hc
    by_contra hlit
    simp only [isLiteral, decide_eq_true_eq, not_and_or, not_not] at hlit
    rcases hlit with rfl | rfl | rfl | rfl <;> revert hquoted <;> decide
  · rename_i hk
    rw [hk] at hwf
    cases h
    exact List.all_eq_true.mp hwf

/-- The path of a template, however it is substituted: its segments are the filled ones, and it is
all path. -/
theorem exists_path {template : List Char}
    (hwf : ∀ seg ∈ segments template, wellFormed isName seg = true ∧ (fill values seg).isSome)
    (hvalues : ∀ k v, values k = some v → ∀ c ∈ v, isQuoted c = true) :
    ∃ path, (∀ f, Expands isName values f → f template = some path) ∧
      List.Forall₂ (fun seg s => fill values seg = some s) (segments template) (segments path) ∧
      '?' ∉ path ∧ '#' ∉ path := by
  let outs := (segments template).map fun seg => (fill values seg).getD []
  have hfill : List.Forall₂ (fun seg s => wellFormed isName seg = true ∧ fill values seg = some s)
      (segments template) outs := by
    refine List.forall₂_map_right_iff.mpr (List.forall₂_same.mpr fun seg hseg => ⟨(hwf seg hseg).1, ?_⟩)
    obtain ⟨s, hs⟩ := Option.isSome_iff_exists.mp (hwf seg hseg).2
    rw [hs]
    rfl
  have hlit : ∀ s ∈ outs, ∀ c ∈ s, isLiteral c = true := by
    intro s hs
    obtain ⟨seg, hseg, rfl⟩ := List.mem_map.mp hs
    obtain ⟨s, hs⟩ := Option.isSome_iff_exists.mp (hwf seg hseg).2
    rw [hs]
    exact isLiteral_of_fill (hwf seg hseg).1 hs hvalues
  have hnot : ∀ c, isLiteral c = false → c ≠ '/' → c ∉ ['/'].intercalate outs := by
    intro c hc hne hmem
    obtain heq | ⟨s, hs, hcs⟩ := Text.mem_intercalate hmem
    · exact hne heq
    · rw [hlit s hs c hcs] at hc
      cases hc
  refine ⟨['/'].intercalate outs, ?_, ?_, hnot '?' (by decide) (by decide), hnot '#' (by decide) (by decide)⟩
  · intro f hf
    have hpath := hf.path hfill
    rwa [segments, List.intercalate_splitOn] at hpath
  · have hsplit : segments (['/'].intercalate outs) = outs := by
      refine List.splitOn_intercalate '/' (fun s hs hslash => ?_) ?_
      · exact absurd (hlit s hs _ hslash) (by decide)
      · exact List.map_eq_nil_iff.not.mpr (List.splitOn_ne_nil '/' template)
    rw [hsplit]
    exact hfill.imp fun _ _ h => h.2

end

end Wavr.PathTemplate
