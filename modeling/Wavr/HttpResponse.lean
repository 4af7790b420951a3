import Wavr.Bytes
import Wavr.CNumbers
import Wavr.Framing

/-!
# Answers of the native HTTP client

`net::parse_response`, over messages framed by a length or in chunks.
-/

namespace Wavr.HttpResponse
open Bytes CNumbers Framing

def ascii (s : String) : List UInt8 := s.toList.map fun c => UInt8.ofNat c.toNat

def CRLF : List UInt8 := [13, 10]

/-- `std::tolower` in the C locale. -/
def lowerByte (b : UInt8) : UInt8 := if 65 ≤ b ∧ b ≤ 90 then b + 32 else b

def lower (s : List UInt8) : List UInt8 := s.map lowerByte

def TRANSFER_ENCODING : List UInt8 := ascii "transfer-encoding"

def CHUNKED : List UInt8 := ascii "chunked"

def CONTENT_LENGTH : List UInt8 := ascii "content-length"

structure Result where
  status : ℤ
  body : List UInt8
  deriving DecidableEq

/-- What the chunks from a position on hold, behind what is decoded already; none where the source
returns false. -/
def decodeChunks (ulongMax : ℕ) (body : List UInt8) (pos : ℕ) (decoded : List UInt8) : Option (List UInt8) :=
  match _h : find CRLF (body.drop pos) with
  | none => none
  | some i =>
    let n := strtoul ulongMax 16 (body.drop pos)
    let start := pos + i + 2
    if n = 0 then some decoded
    else if body.length - start < n then none
    else decodeChunks ulongMax body (start + n + 2) (decoded ++ slice body start (start + n))
termination_by body.length - pos
decreasing_by
  have hlt := (find_some _h).2.1
  rw [List.length_drop] at hlt
  omega

/-- The body by its framing headers. -/
def decodeBody (ulongMax : ℕ) (headers body : List UInt8) : Option (List UInt8) :=
  if (find (CRLF ++ (TRANSFER_ENCODING ++ ascii ": " ++ CHUNKED)) headers).isSome then
    decodeChunks ulongMax body 0 []
  else
    match find (CRLF ++ (CONTENT_LENGTH ++ ascii ":")) headers with
    | none => some body
    | some cl =>
      let n := strtoul ulongMax 10 (headers.drop (cl + 17))
      if body.length < n then none else some (body.take n)

def parseResponse (ulongMax : ℕ) (raw : List UInt8) : Option Result :=
  match find (CRLF ++ CRLF) raw, find (ascii " ") raw with
  | some headEnd, some sp =>
    if ¬ (ascii "HTTP/").isPrefixOf raw ∨ headEnd < sp + 4 then none
    else (decodeBody ulongMax (lower (raw.take headEnd)) (raw.drop (headEnd + 4))).map fun body =>
      ⟨atoi (raw.drop (sp + 1)), body⟩
  | _, _ => none

/-! ## Messages -/

/-- A word in any case. -/
structure Label (word : List UInt8) where
  text : List UInt8
  lower_text : lower text = word

structure Blanks where
  text : List UInt8
  blank : ∀ b ∈ text, b = 32 ∨ b = 9

/-- A number in digits, with or without leading zeros. -/
structure Number (base n : ℕ) where
  text : List UInt8
  ne : text ≠ []
  digits : ∀ b ∈ text, isDigit base b = true
  value_eq : value base text = n

/-- A header line that does not frame the body. -/
structure Header where
  name : List UInt8
  value : List UInt8
  name_ok : 58 ∉ name ∧ 13 ∉ name
  value_ok : 13 ∉ value
  plain : lower name ≠ TRANSFER_ENCODING ∧ lower name ≠ CONTENT_LENGTH

def Header.line (h : Header) : List UInt8 := h.name ++ 58 :: h.value

structure LengthField (n : ℕ) where
  name : Label CONTENT_LENGTH
  blanks : Blanks
  digits : Number 10 n
  trail : Blanks

def LengthField.line {n : ℕ} (f : LengthField n) : List UInt8 :=
  f.name.text ++ 58 :: (f.blanks.text ++ (f.digits.text ++ f.trail.text))

structure ChunkedField where
  name : Label TRANSFER_ENCODING
  blanks : Blanks
  coding : Label CHUNKED
  trail : Blanks

def ChunkedField.line (f : ChunkedField) : List UInt8 :=
  f.name.text ++ 58 :: (f.blanks.text ++ (f.coding.text ++ f.trail.text))

/-- The status line and the headers around the framing one. -/
structure Head where
  version : List UInt8
  status : ℕ
  code : Number 10 status
  reason : List UInt8
  before : List Header
  after : List Header
  version_ok : 32 ∉ version ∧ 13 ∉ version
  three : code.text.length = 3
  reason_ok : 13 ∉ reason ∧ ∀ b ∈ reason.head?, isDigit 10 b = false

def Head.statusLine (h : Head) : List UInt8 :=
  ascii "HTTP/" ++ h.version ++ 32 :: (h.code.text ++ h.reason)

/-- Lines, each behind a line break. -/
def joined (lines : List (List UInt8)) : List UInt8 := lines.flatMap (CRLF ++ ·)

def Head.lines (h : Head) (framing : List UInt8) : List (List UInt8) :=
  h.before.map Header.line ++ framing :: h.after.map Header.line

def Head.text (h : Head) (framing : List UInt8) : List UInt8 := h.statusLine ++ joined (h.lines framing)

/-- What may stand behind the size in its line. -/
structure Extension where
  text : List UInt8
  starts : ∀ b ∈ text.head?, b = 59 ∨ b = 32 ∨ b = 9
  line : 13 ∉ text

structure Chunk where
  data : List UInt8
  ne : data ≠ []
  size : Number 16 data.length
  ext : Extension

def Chunk.bytes (c : Chunk) : List UInt8 := c.size.text ++ c.ext.text ++ CRLF ++ c.data ++ CRLF

/-- The last chunk, with whatever trailer. -/
structure LastChunk where
  size : Number 16 0
  ext : Extension
  trailer : List UInt8

def LastChunk.bytes (c : LastChunk) : List UInt8 := c.size.text ++ c.ext.text ++ CRLF ++ c.trailer

inductive Framed where
  | length (body : List UInt8) (field : LengthField body.length)
  | chunked (field : ChunkedField) (chunks : List Chunk) (last : LastChunk)

def Framed.line : Framed → List UInt8
  | length _ field => field.line
  | chunked field _ _ => field.line

def Framed.bytes : Framed → List UInt8
  | length body _ => body
  | chunked _ chunks last => chunks.flatMap Chunk.bytes ++ last.bytes

def Framed.body : Framed → List UInt8
  | length body _ => body
  | chunked _ chunks _ => chunks.flatMap Chunk.data

structure Message where
  head : Head
  framed : Framed

def Message.bytes (m : Message) : List UInt8 := m.head.text m.framed.line ++ CRLF ++ CRLF ++ m.framed.bytes

def Message.result (m : Message) : Result := ⟨m.head.status, m.framed.body⟩

/-- A chunked message with a line where a size should stand. -/
structure Garbled where
  head : Head
  field : ChunkedField
  chunks : List Chunk
  line : List UInt8
  rest : List UInt8
  one_line : ¬ CRLF <:+: line
  no_digit : ∀ b ∈ line.head?, isDigit 16 b = false

def Garbled.tail (g : Garbled) : List UInt8 := g.line ++ CRLF ++ g.rest

def Garbled.bytes (g : Garbled) : List UInt8 :=
  g.head.text g.field.line ++ CRLF ++ CRLF ++ (g.chunks.flatMap Chunk.bytes ++ g.tail)

/-- The answer is delivered, and no cut of it as anything else. -/
def Delivered (ulongMax : ℕ) (m : Message) : Prop :=
  parseResponse ulongMax m.bytes = some m.result ∧
    ∀ p, p <+: m.bytes → parseResponse ulongMax p = none ∨ parseResponse ulongMax p = some m.result

/-- Pieces as long as `strtoul` reads their lines, up to one that it reads as 0. -/
inductive Pieces (ulongMax : ℕ) : List UInt8 → Prop
  | last {line rest : List UInt8} (h : ¬ CRLF <:+: line) (hn : strtoul ulongMax 16 (line ++ CRLF ++ rest) = 0) :
      Pieces ulongMax (line ++ CRLF ++ rest)
  | piece {line data sep rest : List UInt8} (h : ¬ CRLF <:+: line) (hne : data ≠ [])
      (hn : strtoul ulongMax 16 (line ++ CRLF ++ (data ++ (sep ++ rest))) = data.length) (hsep : sep.length = 2)
      (hrest : Pieces ulongMax rest) : Pieces ulongMax (line ++ CRLF ++ (data ++ (sep ++ rest)))

/-- The coding stands behind one blank. -/
def ChunkedField.Spelled (f : ChunkedField) : Prop := f.blanks.text = [32]

def Message.Spelled (m : Message) : Prop :=
  match m.framed with
  | .length _ _ => True
  | .chunked field _ _ => field.Spelled

/-! ## Line breaks -/

section
variable {line rest s p : List UInt8}

theorem find_crlf (h : ¬ CRLF <:+: line) : find CRLF (line ++ CRLF ++ rest) = some line.length := by
  induction line with
  | nil => exact find_of_prefix (by decide) ⟨rest, rfl⟩
  | cons b line ih =>
    have htail : ¬ CRLF <:+: line := fun hin => h (hin.trans (List.suffix_cons b line).isInfix)
    have hnot : ¬ CRLF <+: b :: (line ++ CRLF ++ rest) := by
      intro hpre
      obtain ⟨rfl, hnext⟩ := List.cons_prefix_cons.mp hpre
      cases line with
      | nil => exact absurd (List.cons_prefix_cons.mp hnext).1 (by decide)
      | cons c line =>
        obtain ⟨rfl, _⟩ := List.cons_prefix_cons.mp hnext
        exact h ⟨[], line, rfl⟩
    rw [List.cons_append, List.cons_append, find_cons hnot, ih htail]
    rfl

theorem no_crlf_of_not_mem (h : 13 ∉ line) : ¬ CRLF <:+: line :=
  fun hin => h (hin.subset (by decide))

/-- What comes before a line break has none in it. -/
theorem exists_line {i : ℕ} (h : find CRLF s = some i) :
    ∃ line rest, s = line ++ CRLF ++ rest ∧ line.length = i ∧ ¬ CRLF <:+: line := by
  obtain ⟨⟨rest, hrest⟩, hlt, hfirst⟩ := find_some h
  refine ⟨s.take i, rest, ?_, List.length_take_of_le hlt.le, ?_⟩
  · rw [List.append_assoc, hrest, List.take_append_drop]
  · rintro ⟨a, b, hab⟩
    have hlen := congrArg List.length hab
    simp only [List.length_append, List.length_take_of_le hlt.le] at hlen
    have hpos : CRLF.length = 2 := rfl
    refine hfirst a.length (by omega) ⟨b ++ s.drop i, ?_⟩
    have hs : s = a ++ (CRLF ++ (b ++ s.drop i)) := by
      calc s = s.take i ++ s.drop i := (List.take_append_drop i s).symm
        _ = a ++ (CRLF ++ (b ++ s.drop i)) := by rw [← hab]; simp
    rw [hs, List.drop_left, ← hs]

/-- Text before a character that does not occur in a prefix. -/
theorem prefix_of_append (hp : 13 ∉ p) (hs : s = [] ∨ ∃ t, s = 13 :: t) (h : p <+: line ++ s) : p <+: line := by
  rcases hs with rfl | ⟨t, rfl⟩
  · rwa [List.append_nil] at h
  · rcases List.prefix_or_prefix_of_prefix h (List.prefix_append line _) with hin | ⟨u, rfl⟩
    · exact hin
    · have hu := (List.prefix_append_right_inj line).mp h
      cases u with
      | nil => simp
      | cons c u =>
        obtain ⟨rfl, _⟩ := List.cons_prefix_cons.mp hu
        simp at hp

theorem joined_cases (lines : List (List UInt8)) : joined lines = [] ∨ ∃ t, joined lines = 13 :: t := by
  cases lines with
  | nil => exact .inl rfl
  | cons l ls => exact .inr ⟨_, rfl⟩

@[simp] theorem joined_cons (l : List UInt8) (ls : List (List UInt8)) :
    joined (l :: ls) = CRLF ++ (l ++ joined ls) := by
  simp [joined]

@[simp] theorem joined_append (ls ms : List (List UInt8)) : joined (ls ++ ms) = joined ls ++ joined ms := by
  simp [joined]

/-- A header that the next line does not begin with is searched for behind it. -/
theorem find_next_line {next : List UInt8} (hline : 13 ∉ line) (hnext : ¬ p <+: next) :
    find (CRLF ++ p) (line ++ (CRLF ++ next)) = (find (CRLF ++ p) next).map (line.length + 2 + ·) := by
  have hcr : ¬ CRLF ++ p <+: 13 :: 10 :: next := fun hpre =>
    hnext (List.cons_prefix_cons.mp (List.cons_prefix_cons.mp hpre).2).2
  have hlf : ¬ CRLF ++ p <+: 10 :: next := fun hpre =>
    absurd (List.cons_prefix_cons.mp hpre).1 (by decide)
  have hskip : find (CRLF ++ p) (line ++ (CRLF ++ next)) =
      (find (CRLF ++ p) (13 :: 10 :: next)).map (line.length + ·) := find_append_of_not_mem hline
  rw [hskip, find_cons hcr, find_cons hlf, Option.map_map, Option.map_map]
  congr 1
  funext i
  simp only [Function.comp]
  omega

end

/-! ## The head -/

section
variable {line : List UInt8} {ls : List (List UInt8)} {q : List UInt8}

/-- Lines of a head. -/
def AreLines (ls : List (List UInt8)) : Prop := ∀ l ∈ ls, l ≠ [] ∧ 13 ∉ l

theorem find_head_end (hline : 13 ∉ line) (hls : AreLines ls) :
    find (CRLF ++ CRLF) (line ++ joined ls ++ CRLF ++ CRLF ++ q) = some (line ++ joined ls).length := by
  induction ls generalizing line with
  | nil =>
    have hend : find (CRLF ++ CRLF) (CRLF ++ CRLF ++ q) = some 0 := find_of_prefix (by decide) (List.prefix_append _ _)
    have hskip : find (CRLF ++ CRLF) (line ++ (CRLF ++ CRLF ++ q)) =
        (find (CRLF ++ CRLF) (CRLF ++ CRLF ++ q)).map (line.length + ·) := find_append_of_not_mem hline
    simp only [joined, List.flatMap_nil, List.append_nil, List.append_assoc] at hskip ⊢
    rw [hskip, ← List.append_assoc, hend]
    rfl
  | cons l ls ih =>
    obtain ⟨hne, hl⟩ := hls l List.mem_cons_self
    have hnot : ¬ CRLF <+: l ++ joined ls ++ CRLF ++ CRLF ++ q := by
      cases l with
      | nil => exact absurd rfl hne
      | cons b l =>
        intro hpre
        exact hl ((List.cons_prefix_cons.mp hpre).1 ▸ List.mem_cons_self)
    have hnext := find_next_line hline hnot
    rw [ih hl fun l' hl' => hls l' (List.mem_cons_of_mem l hl')] at hnext
    have htext : line ++ joined (l :: ls) ++ CRLF ++ CRLF ++ q =
        line ++ (CRLF ++ (l ++ joined ls ++ CRLF ++ CRLF ++ q)) := by simp
    have hlen : CRLF.length = 2 := rfl
    rw [htext, hnext, Option.map_some, joined_cons]
    simp only [List.length_append, hlen]
    congr 1
    omega

/-- No line but the first one begins so. -/
theorem find_line_none {p : List UInt8} (hp : 13 ∉ p) (hline : 13 ∉ line)
    (hls : ∀ l ∈ ls, 13 ∉ l ∧ ¬ p <+: l) : find (CRLF ++ p) (line ++ joined ls) = none := by
  induction ls generalizing line with
  | nil =>
    have hskip : find (CRLF ++ p) (line ++ []) = (find (CRLF ++ p) []).map (line.length + ·) :=
      find_append_of_not_mem hline
    exact hskip
  | cons l ls ih =>
    obtain ⟨hl, hnot⟩ := hls l List.mem_cons_self
    have hnext : ¬ p <+: l ++ joined ls := fun hpre => hnot (prefix_of_append hp (joined_cases ls) hpre)
    rw [joined_cons, find_next_line hline hnext, ih hl fun l' hl' => hls l' (List.mem_cons_of_mem l hl')]
    rfl

/-- The first line that begins so, and what stands behind the beginning. -/
theorem find_line_some {p : List UInt8} (v : List UInt8) (ms : List (List UInt8)) (hp : 13 ∉ p) (hline : 13 ∉ line)
    (hls : ∀ l ∈ ls, 13 ∉ l ∧ ¬ p <+: l) :
    ∃ i, find (CRLF ++ p) (line ++ joined (ls ++ (p ++ v) :: ms)) = some i ∧
      (line ++ joined (ls ++ (p ++ v) :: ms)).drop (i + (CRLF ++ p).length) = v ++ joined ms := by
  induction ls generalizing line with
  | nil =>
    have hhere : find (CRLF ++ p) (CRLF ++ (p ++ v ++ joined ms)) = some 0 :=
      find_of_prefix (by simp [CRLF]) ⟨v ++ joined ms, by simp⟩
    have hskip : find (CRLF ++ p) (line ++ (CRLF ++ (p ++ v ++ joined ms))) =
        (find (CRLF ++ p) (CRLF ++ (p ++ v ++ joined ms))).map (line.length + ·) :=
      find_append_of_not_mem hline
    rw [hhere] at hskip
    refine ⟨line.length, by rw [List.nil_append, joined_cons, hskip]; rfl, ?_⟩
    rw [List.nil_append, joined_cons, ← List.drop_drop, List.drop_left]
    simp [List.drop_append]
  | cons l ls ih =>
    obtain ⟨hl, hnot⟩ := hls l List.mem_cons_self
    obtain ⟨i, hi, hdrop⟩ := ih hl fun l' hl' => hls l' (List.mem_cons_of_mem l hl')
    have hnext : ¬ p <+: l ++ joined (ls ++ (p ++ v) :: ms) := fun hpre =>
      hnot (prefix_of_append hp (joined_cases _) hpre)
    refine ⟨line.length + 2 + i, ?_, ?_⟩
    · rw [List.cons_append, joined_cons, find_next_line hline hnext, hi]
      rfl
    · have hsum : line.length + 2 + i + (CRLF ++ p).length =
        line.length + (2 + (i + (CRLF ++ p).length)) := by omega
      rw [List.cons_append, joined_cons, hsum, ← List.drop_drop, List.drop_left, ← List.drop_drop, ← hdrop]
      rfl

end

@[simp] theorem lower_append (s t : List UInt8) : lower (s ++ t) = lower s ++ lower t := List.map_append

@[simp] theorem lower_cons (b : UInt8) (s : List UInt8) : lower (b :: s) = lowerByte b :: lower s := rfl

@[simp] theorem lower_crlf : lower CRLF = CRLF := by decide

theorem lowerByte_eq_of_small {b c : UInt8} (hc : c < 65) (h : lowerByte b = c) : b = c := by
  unfold lowerByte at h
  split at h
  · rename_i hb
    have hle : (97 : UInt8) ≤ b + 32 := by
      have h65 := UInt8.le_iff_toNat_le.mp hb.1
      have h90 := UInt8.le_iff_toNat_le.mp hb.2
      rw [UInt8.le_iff_toNat_le, UInt8.toNat_add]
      change 65 ≤ b.toNat at h65
      change b.toNat ≤ 90 at h90
      change 97 ≤ (b.toNat + 32) % 256
      omega
    exact absurd (UInt8.lt_of_lt_of_le hc (UInt8.le_trans (by decide) (h ▸ hle))) (UInt8.lt_irrefl c)
  · exact h

theorem not_mem_lower {c : UInt8} {s : List UInt8} (hc : c < 65) (h : c ∉ s) : c ∉ lower s := by
  intro hm
  obtain ⟨b, hb, heq⟩ := List.mem_map.mp hm
  exact h (lowerByte_eq_of_small hc heq ▸ hb)

theorem lower_joined (ls : List (List UInt8)) : lower (joined ls) = joined (ls.map lower) := by
  induction ls with
  | nil => rfl
  | cons l ls ih =>
    rw [joined_cons, lower_append, lower_append, lower_crlf, ih, List.map_cons, joined_cons]

theorem lower_of_small {s : List UInt8} (h : ∀ b ∈ s, b < 65) : lower s = s := by
  have hid : ∀ b ∈ s, lowerByte b = id b := by
    intro b hb
    have hlt := h b hb
    exact if_neg fun hle => UInt8.not_le.mpr hlt hle.1
  rw [lower, List.map_congr_left hid, List.map_id]

theorem decimal_small {b : UInt8} (h : isDigit 10 b = true) : b < 65 := by
  by_contra hle
  have h65 : 65 ≤ b := UInt8.not_lt.mp hle
  have h57 : ¬ b ≤ 57 := fun hb => absurd (UInt8.le_trans h65 hb) (by decide)
  have hnat := UInt8.le_iff_toNat_le.mp h65
  change 65 ≤ b.toNat at hnat
  have hval := of_decide_eq_true h
  unfold digitValue at hval
  rw [if_neg fun hb => h57 hb.2] at hval
  split_ifs at hval with h97
  · have := UInt8.le_iff_toNat_le.mp h97.1
    change 97 ≤ b.toNat at this
    omega
  · omega
  · omega

theorem Blanks.small (bl : Blanks) : ∀ b ∈ bl.text, b < 65 := by
  intro b hb
  rcases bl.blank b hb with rfl | rfl <;> decide

/-- A line of one name does not begin with another one. -/
theorem name_of_isPrefix {word name x v : List UInt8} (hword : 58 ∉ word) (hname : 58 ∉ name)
    (h : word ++ 58 :: x <+: name ++ 58 :: v) : word = name := by
  obtain ⟨t, ht⟩ := h
  have hcut : ∀ w y : List UInt8, 58 ∉ w → (w ++ 58 :: y).takeWhile (· ≠ 58) = w := by
    intro w y hw
    rw [List.takeWhile_append_of_pos fun b hb => ?_]
    · simp
    · have hne : b ≠ 58 := fun he => hw (he ▸ hb)
      simpa using hne
  have heq := congrArg (List.takeWhile (· ≠ 58)) ht
  rwa [List.append_assoc, List.cons_append, hcut _ _ hword, hcut _ _ hname] at heq

/-! ## The framing headers -/

theorem Header.not_starts (h : Header) {word : List UInt8} (x : List UInt8)
    (hword : word = TRANSFER_ENCODING ∨ word = CONTENT_LENGTH) : ¬ word ++ 58 :: x <+: lower h.line := by
  intro hpre
  have hcolon : lowerByte 58 = 58 := by decide
  have hmem : 58 ∉ word := by rcases hword with rfl | rfl <;> decide
  rw [Header.line, lower_append, lower_cons, hcolon] at hpre
  have hname := name_of_isPrefix hmem (not_mem_lower (by decide) h.name_ok.1) hpre
  rcases hword with rfl | rfl
  · exact h.plain.1 hname.symm
  · exact h.plain.2 hname.symm

theorem Header.no_break (h : Header) : 13 ∉ h.line := by
  simp [Header.line, h.name_ok.2, h.value_ok]

theorem Blanks.no_break (bl : Blanks) : 13 ∉ bl.text := fun h => by
  rcases bl.blank 13 h with he | he <;> exact absurd he (by decide)

theorem Label.no_break {word : List UInt8} (l : Label word) (h : 13 ∉ word) : 13 ∉ l.text := by
  intro hm
  refine h (l.lower_text ▸ ?_)
  exact List.mem_map.mpr ⟨13, hm, by decide⟩

theorem Number.no_break {base n : ℕ} (d : Number base n) (hbase : base ≤ 16) : 13 ∉ d.text := by
  intro h
  have hval := digitValue_of_isDigit hbase (d.digits 13 h)
  exact absurd hval (by decide)

theorem LengthField.no_break {n : ℕ} (f : LengthField n) : 13 ∉ f.line := by
  simp [LengthField.line, f.name.no_break (by decide), f.blanks.no_break, f.digits.no_break, f.trail.no_break]

theorem ChunkedField.no_break (f : ChunkedField) : 13 ∉ f.line := by
  simp [ChunkedField.line, f.name.no_break (by decide), f.blanks.no_break, f.coding.no_break (by decide),
    f.trail.no_break]

theorem lower_lengthField {n : ℕ} (f : LengthField n) :
    lower f.line = CONTENT_LENGTH ++ 58 :: (f.blanks.text ++ (f.digits.text ++ f.trail.text)) := by
  have hcolon : lowerByte 58 = 58 := by decide
  have hdigits : lower f.digits.text = f.digits.text := lower_of_small fun b hb => decimal_small (f.digits.digits b hb)
  rw [LengthField.line, lower_append, lower_cons, lower_append, lower_append, hcolon, hdigits, f.name.lower_text,
    lower_of_small f.blanks.small, lower_of_small f.trail.small]

theorem lower_chunkedField (f : ChunkedField) :
    lower f.line = TRANSFER_ENCODING ++ 58 :: (f.blanks.text ++ (CHUNKED ++ f.trail.text)) := by
  have hcolon : lowerByte 58 = 58 := by decide
  rw [ChunkedField.line, lower_append, lower_cons, lower_append, lower_append, hcolon, f.name.lower_text,
    f.coding.lower_text, lower_of_small f.blanks.small, lower_of_small f.trail.small]

/-- The pattern of the source is found only behind one blank. -/
theorem spelled_of_isPrefix {f : ChunkedField}
    (h : TRANSFER_ENCODING ++ ascii ": " ++ CHUNKED <+: lower f.line) : f.Spelled := by
  have hpattern : TRANSFER_ENCODING ++ ascii ": " ++ CHUNKED = TRANSFER_ENCODING ++ 58 :: 32 :: CHUNKED := by decide
  rw [hpattern, lower_chunkedField] at h
  have hvalue := (List.cons_prefix_cons.mp ((List.prefix_append_right_inj _).mp h)).2
  rw [ChunkedField.Spelled]
  cases hblanks : f.blanks.text with
  | nil =>
    rw [hblanks] at hvalue
    exact absurd (List.cons_prefix_cons.mp hvalue).1 (by decide)
  | cons b bs =>
    rw [hblanks] at hvalue
    obtain ⟨rfl, hrest⟩ := List.cons_prefix_cons.mp hvalue
    cases bs with
    | nil => rfl
    | cons c bs =>
      have hc := f.blanks.blank c (by simp [hblanks])
      have h99 : 99 = c := (List.cons_prefix_cons.mp hrest).1
      rcases hc with rfl | rfl <;> exact absurd h99 (by decide)

section
variable {ulongMax : ℕ} {h : Head} {line q : List UInt8}

theorem Head.no_break (h : Head) : 13 ∉ h.statusLine := by
  have hhttp : 13 ∉ ascii "HTTP/" := by decide
  simp [Head.statusLine, hhttp, h.version_ok.2, h.code.no_break, h.reason_ok.1]

theorem areLines_headers (hs : List Header) : AreLines (hs.map Header.line) := by
  intro l hl
  obtain ⟨e, _, rfl⟩ := List.mem_map.mp hl
  exact ⟨by simp [Header.line], e.no_break⟩

theorem areLines_lines (hne : line ≠ []) (hline : 13 ∉ line) : AreLines (h.lines line) := by
  intro l hl
  rcases List.mem_append.mp hl with hb | ha
  · exact areLines_headers h.before l hb
  · rcases List.mem_cons.mp ha with rfl | ha
    · exact ⟨hne, hline⟩
    · exact areLines_headers h.after l ha

theorem lower_text (h : Head) (line : List UInt8) : lower (h.text line) = lower h.statusLine ++
    joined (h.before.map (lower ∘ Header.line) ++ lower line :: h.after.map (lower ∘ Header.line)) := by
  simp [Head.text, Head.lines, lower_joined]

theorem headers_not_start {word x : List UInt8} (hword : word = TRANSFER_ENCODING ∨ word = CONTENT_LENGTH)
    (hs : List Header) : ∀ l ∈ hs.map (lower ∘ Header.line), 13 ∉ l ∧ ¬ word ++ 58 :: x <+: l := by
  intro l hl
  obtain ⟨e, _, rfl⟩ := List.mem_map.mp hl
  exact ⟨not_mem_lower (by decide) e.no_break, e.not_starts x hword⟩

/-- No header of a name where the framing line does not begin so. -/
theorem find_header_none {word x : List UInt8} (hword : word = TRANSFER_ENCODING ∨ word = CONTENT_LENGTH)
    (hx : 13 ∉ x) (hline : 13 ∉ line) (hnot : ¬ word ++ 58 :: x <+: lower line) :
    find (CRLF ++ (word ++ 58 :: x)) (lower (h.text line)) = none := by
  have hp : 13 ∉ word ++ 58 :: x := by
    rcases hword with rfl | rfl <;> simp [hx] <;> decide
  rw [lower_text]
  refine find_line_none hp (not_mem_lower (by decide) h.no_break) fun l hl => ?_
  rcases List.mem_append.mp hl with hb | ha
  · exact headers_not_start hword h.before l hb
  · rcases List.mem_cons.mp ha with rfl | ha
    · exact ⟨not_mem_lower (by decide) hline, hnot⟩
    · exact headers_not_start hword h.after l ha

theorem find_header_some {word x v : List UInt8} (hword : word = TRANSFER_ENCODING ∨ word = CONTENT_LENGTH)
    (hx : 13 ∉ x) (hstart : lower line = (word ++ 58 :: x) ++ v) :
    ∃ i ms, find (CRLF ++ (word ++ 58 :: x)) (lower (h.text line)) = some i ∧
      (lower (h.text line)).drop (i + (CRLF ++ (word ++ 58 :: x)).length) = v ++ joined ms := by
  have hp : 13 ∉ word ++ 58 :: x := by
    rcases hword with rfl | rfl <;> simp [hx] <;> decide
  rw [lower_text, hstart]
  obtain ⟨i, hfind, hdrop⟩ := find_line_some v (h.after.map (lower ∘ Header.line)) hp
    (not_mem_lower (by decide) h.no_break) (headers_not_start (x := x) hword h.before)
  exact ⟨i, _, hfind, hdrop⟩

theorem pattern_chunked : TRANSFER_ENCODING ++ ascii ": " ++ CHUNKED = TRANSFER_ENCODING ++ 58 :: (32 :: CHUNKED) := by
  decide

theorem names_ne : TRANSFER_ENCODING ≠ CONTENT_LENGTH := by decide

theorem not_start_other {word other x v : List UInt8} (hword : 58 ∉ word) (hother : 58 ∉ other)
    (hne : word ≠ other) :
    ¬ word ++ 58 :: x <+: other ++ 58 :: v :=
  fun hpre => hne (name_of_isPrefix hword hother hpre)

/-- The length in the header counts. -/
theorem decodeBody_length {n : ℕ} (f : LengthField n) (hmax : n ≤ ulongMax) :
    decodeBody ulongMax (lower (h.text f.line)) q = if q.length < n then none else some (q.take n) := by
  have hlower := lower_lengthField f
  have hother : ¬ TRANSFER_ENCODING ++ 58 :: (32 :: CHUNKED) <+: lower f.line := by
    rw [hlower]
    exact not_start_other (by decide) (by decide) names_ne
  have hnone := find_header_none (h := h) (.inl rfl) (by decide : 13 ∉ 32 :: CHUNKED) f.no_break hother
  have hstart : lower f.line = (CONTENT_LENGTH ++ 58 :: []) ++ (f.blanks.text ++ (f.digits.text ++ f.trail.text)) := by
    rw [hlower]
    simp
  obtain ⟨i, ms, hfind, hdrop⟩ := find_header_some (h := h) (.inr rfl) List.not_mem_nil hstart
  have hrest : ∀ b ∈ (f.trail.text ++ joined ms).head?, isDigit 10 b = false ∧ b ≠ 120 ∧ b ≠ 88 := by
    intro b hb
    have hcases : b = 32 ∨ b = 9 ∨ b = 13 := by
      cases htrail : f.trail.text with
      | nil =>
        rw [htrail, List.nil_append] at hb
        rcases joined_cases ms with hj | ⟨t, hj⟩
        · simp [hj] at hb
        · simp only [hj, List.head?_cons, Option.mem_def, Option.some.injEq] at hb
          exact .inr (.inr hb.symm)
      | cons c t =>
        rw [htrail, List.cons_append, List.head?_cons] at hb
        cases hb
        exact (f.trail.blank b (by simp [htrail])).imp_right .inl
    rcases hcases with rfl | rfl | rfl <;> decide
  have hblanks : ∀ b ∈ f.blanks.text, isspace b = true := by
    intro b hb
    rcases f.blanks.blank b hb with rfl | rfl <;> decide
  have hvalue : strtoul ulongMax 10 ((lower (h.text f.line)).drop (i + 17)) = n := by
    have hlen : i + 17 = i + (CRLF ++ (CONTENT_LENGTH ++ 58 :: [])).length := rfl
    rw [hlen, hdrop, List.append_assoc, List.append_assoc, strtoul_blanks hblanks,
      strtoul_digits (by decide) f.digits.digits f.digits.ne hrest (f.digits.value_eq.trans_le hmax), f.digits.value_eq]
  have hcolon : ascii ":" = [58] := by decide
  rw [decodeBody, pattern_chunked, hnone, if_neg (by simp), hcolon, hfind]
  simp only [hvalue]

theorem decodeBody_spelled {f : ChunkedField} (hf : f.Spelled) :
    decodeBody ulongMax (lower (h.text f.line)) q = decodeChunks ulongMax q 0 [] := by
  have hlower : lower f.line = (TRANSFER_ENCODING ++ 58 :: (32 :: CHUNKED)) ++ f.trail.text := by
    rw [lower_chunkedField, hf]
    simp
  obtain ⟨i, ms, hfind, _⟩ := find_header_some (h := h) (.inl rfl) (by decide : 13 ∉ 32 :: CHUNKED) hlower
  rw [decodeBody, pattern_chunked, hfind, Option.isSome_some, if_pos rfl]

theorem decodeBody_unspelled {f : ChunkedField} (hf : ¬ f.Spelled) :
    decodeBody ulongMax (lower (h.text f.line)) q = some q := by
  have hnot : ¬ TRANSFER_ENCODING ++ 58 :: (32 :: CHUNKED) <+: lower f.line := fun hpre =>
    hf (spelled_of_isPrefix (pattern_chunked ▸ hpre))
  have hother : ¬ CONTENT_LENGTH ++ 58 :: [] <+: lower f.line := by
    rw [lower_chunkedField]
    exact not_start_other (by decide) (by decide) names_ne.symm
  have hcolon : ascii ":" = [58] := by decide
  rw [decodeBody, pattern_chunked, find_header_none (.inl rfl) (by decide) f.no_break hnot,
    if_neg (by simp), hcolon,
    find_header_none (.inr rfl) (by simp) f.no_break hother]

/-! ## Head and body -/

theorem find_space (h : Head) (s : List UInt8) :
    find (ascii " ") (h.statusLine ++ s) = some (ascii "HTTP/" ++ h.version).length := by
  have hnot : 32 ∉ ascii "HTTP/" ++ h.version := by
    have hhttp : 32 ∉ ascii "HTTP/" := by decide
    simp [hhttp, h.version_ok.1]
  have hskip : find [32] ((ascii "HTTP/" ++ h.version) ++ (32 :: (h.code.text ++ h.reason) ++ s)) =
      (find [32] (32 :: (h.code.text ++ h.reason) ++ s)).map ((ascii "HTTP/" ++ h.version).length + ·) :=
    find_append_of_not_mem hnot
  have hhere : find [32] (32 :: (h.code.text ++ h.reason) ++ s) = some 0 :=
    find_of_prefix (by simp) ⟨h.code.text ++ h.reason ++ s, rfl⟩
  have hspace : ascii " " = [32] := by decide
  rw [hspace, Head.statusLine, List.append_assoc, hskip, hhere]
  rfl

theorem atoi_status (h : Head) {s : List UInt8} (hs : ∃ t, s = 13 :: t) :
    atoi ((h.statusLine ++ s).drop ((ascii "HTTP/" ++ h.version).length + 1)) = h.status := by
  obtain ⟨t, rfl⟩ := hs
  have hrest : ∀ b ∈ (h.reason ++ 13 :: t).head?, isDigit 10 b = false := by
    intro b hb
    cases hreason : h.reason with
    | nil =>
      rw [hreason, List.nil_append, List.head?_cons] at hb
      cases hb
      decide
    | cons c cs =>
      rw [hreason, List.cons_append, List.head?_cons] at hb
      cases hb
      exact h.reason_ok.2 b (by simp [hreason])
  have hdrop : (h.statusLine ++ 13 :: t).drop ((ascii "HTTP/" ++ h.version).length + 1) =
      h.code.text ++ (h.reason ++ 13 :: t) := by
    rw [← List.drop_drop, Head.statusLine, List.append_assoc, List.drop_left]
    simp
  rw [hdrop, atoi_digits h.code.digits h.code.ne hrest, h.code.value_eq]

/-- Behind a head everything is the body. -/
theorem parse_head (hne : line ≠ []) (hline : 13 ∉ line) :
    parseResponse ulongMax (h.text line ++ CRLF ++ CRLF ++ q) =
      (decodeBody ulongMax (lower (h.text line)) q).map fun body => ⟨h.status, body⟩ := by
  have hend := find_head_end (q := q) h.no_break (areLines_lines (h := h) hne hline)
  have hraw : h.text line ++ CRLF ++ CRLF ++ q =
      h.statusLine ++ (joined (h.lines line) ++ CRLF ++ CRLF ++ q) := by simp [Head.text]
  have hbreak : ∃ t, joined (h.lines line) ++ CRLF ++ CRLF ++ q = 13 :: t := by
    rcases joined_cases (h.lines line) with hj | ⟨t, hj⟩
    · exact ⟨_, by rw [hj]; rfl⟩
    · exact ⟨_, by rw [hj]; rfl⟩
  have hspace := find_space h (joined (h.lines line) ++ CRLF ++ CRLF ++ q)
  have hstatus := atoi_status h hbreak
  have hlong : ¬ (h.text line).length < (ascii "HTTP/" ++ h.version).length + 4 := by
    have hcode := h.three
    simp only [Head.text, Head.statusLine, List.length_append, List.length_cons]
    omega
  have hhttp : (ascii "HTTP/").isPrefixOf (h.text line ++ CRLF ++ CRLF ++ q) = true :=
    List.isPrefixOf_iff_prefix.mpr ⟨_, by rw [hraw, Head.statusLine, List.append_assoc, List.append_assoc]⟩
  rw [← hraw] at hspace hstatus
  have htake : (h.text line ++ CRLF ++ CRLF ++ q).take (h.text line).length = h.text line := by
    rw [List.append_assoc, List.append_assoc, List.take_left]
  have hdrop : (h.text line ++ CRLF ++ CRLF ++ q).drop ((h.text line).length + 4) = q := by
    have hlen : (h.text line).length + 4 = (h.text line ++ CRLF ++ CRLF).length := by
      simp [CRLF]
    rw [hlen, List.drop_left]
  rw [← Head.text] at hend
  rw [parseResponse, hend, hspace]
  simp only [hhttp, hlong, not_true, or_self, if_false, htake, hdrop, hstatus]

/-- A head that is cut is none. -/
theorem parse_cut {p : List UInt8} (hne : line ≠ []) (hline : 13 ∉ line)
    (hp : p <+: h.text line ++ CRLF ++ CRLF ++ q) (hshort : p.length < (h.text line ++ CRLF ++ CRLF).length) :
    parseResponse ulongMax p = none := by
  have hend := find_head_end (q := q) h.no_break (areLines_lines (h := h) hne hline)
  have hnone : find (CRLF ++ CRLF) p = none := by
    by_contra hsome
    obtain ⟨i, hi⟩ := Option.ne_none_iff_exists'.mp hsome
    have hlen := (find_some hi).1.length_le
    obtain rfl := Option.some.inj (hend.symm.trans (find_mono hp hi))
    have h2 : CRLF.length = 2 := rfl
    simp only [Head.text, List.length_append, List.length_drop] at hlen hshort
    omega
  rw [parseResponse, hnone]

end

end Wavr.HttpResponse
