import Wavr.DirTree
import Wavr.Text

/-!
# Unpacking an update of the companion

`SafeTarExtractor`: the archive is a stream of bytes, each of them hostile; what it unpacks goes
below one fresh directory. A stream that fails to be read, or a disk that is full, is left out.
-/

namespace Wavr.SafeTar
open Text

abbrev Bytes := List UInt8
abbrev Path := List (List Char)
abbrev Tree := DirTree (List Char) Bytes

def BLOCK : ℕ := 512
def MAX_ENTRIES : ℕ := 4000
def MAX_ENTRY_BYTES : ℤ := 32 * 1024 * 1024
def MAX_TOTAL_BYTES : ℤ := 64 * 1024 * 1024

def ALLOWED_EXT : List String :=
  ["html", "htm", "js", "mjs", "css", "json", "webmanifest", "map",
    "svg", "png", "jpg", "jpeg", "gif", "webp", "ico", "bmp",
    "woff", "woff2", "ttf", "otf", "eot", "txt", "wasm", "xml"]

def FORBIDDEN_BASENAMES : List String := ["wavr-mobile-shim.js", "wavr-lib.js"]

inductive Failure
  | bundle (code message : String)
  /-- The file cannot be opened. -/
  | io
  deriving DecidableEq

def unsafeBundle (message : String) : Failure := .bundle "UNSAFE_BUNDLE" message

/-! ## The header -/

/-- One byte as `US_ASCII` decodes it. -/
def ascii (b : UInt8) : Char := if b < 128 then Char.ofNat b.toNat else '\ufffd'

def cString (b : Bytes) (off len : ℕ) : List Char :=
  (((b.drop off).take len).takeWhile (· ≠ 0)).map ascii

/-- `trim`, on what `ascii` gives. -/
def trim (cs : List Char) : List Char := stripOf isSpace cs

def combinedName (h : Bytes) : List Char :=
  let name := cString h 0 100
  let front := cString h 345 155
  let joined := if front.isEmpty then name else front ++ '/' :: name
  (trim joined).dropWhile (· = '/')

def octalDigit (c : Char) : Option ℕ :=
  if '0' ≤ c ∧ c ≤ '7' then some (c.toNat - '0'.toNat) else none

def octalDigits (cs : List Char) : Option ℕ :=
  if cs.isEmpty then none
  else (cs.mapM octalDigit).map fun ds => ds.foldl (fun n d => n * 8 + d) 0

/-- `toLong(8)`, on as many characters as cannot overflow. -/
def toLong8 : List Char → Option ℤ
  | '-' :: cs => (octalDigits cs).map fun n => - (n : ℤ)
  | '+' :: cs => (octalDigits cs).map Int.ofNat
  | cs => (octalDigits cs).map Int.ofNat

def parseOctalSize (h : Bytes) : Except Failure ℤ :=
  if 128 ≤ h.getD 124 0 then .error (unsafeBundle "unsupported size encoding")
  else
    let raw := trim (cString h 124 12)
    if raw.isEmpty then .ok 0
    else
      match toLong8 raw with
      | none => .error (unsafeBundle "malformed entry size")
      | some n => .ok n

def isZeroBlock (b : Bytes) : Bool := b.all (· = 0)

/-! ## The path -/

def validatePathComponents (name : List Char) : Except Failure Unit :=
  if name.isEmpty then .error (unsafeBundle "empty entry name")
  else if '\x00' ∈ name then .error (unsafeBundle "NUL in entry name")
  else if '\\' ∈ name then .error (unsafeBundle "backslash in entry name")
  else if name.head? = some '/' then .error (unsafeBundle "absolute entry path")
  else if name[1]? = some ':' then .error (unsafeBundle "drive-letter path")
  else if ['.', '.'] ∈ name.splitOn '/' then .error (unsafeBundle "'..' in entry path")
  else .ok ()

/-- `substringAfterLast`, with `missing` where the delimiter does not occur. -/
def substringAfterLast (cs : List Char) (c : Char) (missing : List Char) : List Char :=
  if c ∈ cs then (cs.reverse.takeWhile (· ≠ c)).reverse else missing

def lowercase (cs : List Char) : String := String.ofList (cs.map Char.toLower)

def baseName (name : List Char) : List Char := substringAfterLast name '/' name

def validateFileName (name : List Char) : Except Failure Unit :=
  let base := baseName name
  if lowercase base ∈ FORBIDDEN_BASENAMES then .error (unsafeBundle "the bundle carries a forbidden file")
  else
    let ext := lowercase (substringAfterLast base '.' [])
    if ext = "" ∨ ext ∉ ALLOWED_EXT then .error (unsafeBundle "the bundle carries a non-web asset")
    else .ok ()

/-- A path without its empty names, single dots and double dots; there are no links to follow. -/
def canonical (p : Path) : Path :=
  p.foldl (fun done part => if part = [] ∨ part = ['.'] then done
    else if part = ['.', '.'] then done.dropLast else done ++ [part]) []

/-- Where `name` is below `dest`. -/
def safeResolve (dest : Path) (name : List Char) : Except Failure Path :=
  let target := canonical (dest ++ name.splitOn '/')
  if dest <+: target then .ok (target.drop dest.length)
  else .error (unsafeBundle "entry escapes the destination directory")

/-! ## The data -/

/-- The next `n` bytes and what follows; `none` at the very end of the stream. -/
def readFully (tar : Bytes) (n : ℕ) : Except Failure (Option (Bytes × Bytes)) :=
  if n ≤ tar.length then .ok (some (tar.take n, tar.drop n))
  else if tar.isEmpty then .ok none
  else .error (unsafeBundle "truncated archive record")

/-- What is copied, and what is left of the stream, unless it ends before. -/
def copyExact (tar : Bytes) (size : ℤ) : Bytes × Except Failure Bytes :=
  (tar.take size.toNat,
    if size.toNat ≤ tar.length then .ok (tar.drop size.toNat) else .error (unsafeBundle "truncated archive"))

def skipPadding (tar : Bytes) (size : ℤ) : Except Failure Bytes :=
  let rem := size.tmod BLOCK
  if rem = 0 then .ok tar
  else
    match readFully tar (BLOCK - rem).toNat with
    | .error e => .error e
    | .ok none => .error (unsafeBundle "truncated padding")
    | .ok (some (_, rest)) => .ok rest

def skipEntryData (tar : Bytes) (size : ℤ) : Except Failure Bytes :=
  if size ≤ 0 then .ok tar
  else
    match (copyExact tar size).2 with
    | .error e => .error e
    | .ok tar => skipPadding tar size

structure State where
  tree : Tree
  totalBytes : ℤ
  sawIndex : Bool
  deriving DecidableEq

def directory (dest : Path) (name : List Char) (size : ℤ) (tar : Bytes) (s : State) :
    Except Failure Bytes × State :=
  match validatePathComponents name, safeResolve dest name with
  | .error e, _ => (.error e, s)
  | .ok _, .error e => (.error e, s)
  | .ok _, .ok dir =>
    if s.tree.isDirectory dir then (skipEntryData tar size, s)
    else
      match s.tree.mkdirs dir with
      | none => (.error (.bundle "STORAGE" "could not create a directory"), s)
      | some tree => (skipEntryData tar size, { s with tree })

/-- The directory that is to hold `out`. -/
def makeParent (tree : Tree) (out : Path) : Option Tree :=
  if tree.isDirectory out.dropLast then some tree else tree.mkdirs out.dropLast

def writeEntry (tar : Bytes) (out : Path) (size : ℤ) (s : State) : Except Failure Bytes × State :=
  let (data, rest) := copyExact tar size
  match s.tree.write out data with
  | none => (.error .io, s)
  | some tree =>
    match rest with
    | .error e => (.error e, { s with tree })
    | .ok rest => (skipPadding rest size, { s with tree })

def regularFile (dest : Path) (name : List Char) (size : ℤ) (tar : Bytes) (s : State) :
    Except Failure Bytes × State :=
  match validatePathComponents name, validateFileName name with
  | .error e, _ => (.error e, s)
  | .ok _, .error e => (.error e, s)
  | .ok _, .ok _ =>
    if MAX_ENTRY_BYTES < size then (.error (unsafeBundle "an entry exceeds the per-file cap"), s)
    else
      let s := { s with totalBytes := s.totalBytes + size }
      if MAX_TOTAL_BYTES < s.totalBytes then (.error (unsafeBundle "the bundle exceeds the total-size cap"), s)
      else
        match safeResolve dest name with
        | .error e => (.error e, s)
        | .ok out =>
          match makeParent s.tree out with
          | none => (.error (.bundle "STORAGE" "could not create a directory"), s)
          | some tree =>
            match writeEntry tar out size { s with tree } with
            | (.error e, s) => (.error e, s)
            | (.ok rest, s) => (.ok rest, { s with sawIndex := s.sawIndex || name = "index.html".toList })

/-- One entry behind its header: what is left of the stream. -/
def entry (dest : Path) (header tar : Bytes) (s : State) : Except Failure Bytes × State :=
  let name := combinedName header
  match parseOctalSize header with
  | .error e => (.error e, s)
  | .ok size =>
    match header.getD 156 0 with
    | 53 => directory dest name size tar s
    | 48 | 0 => regularFile dest name size tar s
    | _ => (.error (unsafeBundle "the bundle contains a non-file entry"), s)

/-- The loop of `extract`, which may take `left` more entries. -/
def extractLoop (dest : Path) : ℕ → Bytes → State → Option Failure × State
  | left, tar, s =>
    match readFully tar BLOCK with
    | .error e => (some e, s)
    | .ok none => (none, s)
    | .ok (some (header, rest)) =>
      if isZeroBlock header then (none, s)
      else
        match left with
        | 0 => (some (unsafeBundle "too many entries"), s)
        | left + 1 =>
          match entry dest header rest s with
          | (.error e, s) => (some e, s)
          | (.ok rest, s) => extractLoop dest left rest s

/-- The outcome, and what is below `dest` behind it, failed or not. -/
def extract (dest : Path) (tar : Bytes) : Except Failure Unit × Tree :=
  match extractLoop (canonical dest) MAX_ENTRIES tar ⟨.empty, 0, false⟩ with
  | (some e, s) => (.error e, s.tree)
  | (none, s) =>
    if s.sawIndex then (.ok (), s.tree) else (.error (unsafeBundle "the bundle has no root index.html"), s.tree)

/-! ## Where an entry goes -/

/-- The path of an entry below the destination. -/
def place (name : List Char) : Path := (name.splitOn '/').filter fun part => part ≠ [] ∧ part ≠ ['.']

/-- A name that stays where it is put. -/
def Plain (part : List Char) : Prop :=
  part ≠ [] ∧ part ≠ ['.'] ∧ part ≠ ['.', '.'] ∧ '/' ∉ part ∧ '\\' ∉ part ∧ '\x00' ∉ part

/-- A file that may come by an update. -/
def WebAsset (path : Path) : Prop :=
  ∃ base, path.getLast? = some base ∧ lowercase base ∉ FORBIDDEN_BASENAMES ∧
    lowercase (substringAfterLast base '.' []) ∈ ALLOWED_EXT

section
variable {name : List Char} {dest : Path}

theorem mem_canonical (p : Path) :
    ∀ part ∈ canonical p, part ≠ [] ∧ part ≠ ['.'] ∧ part ≠ ['.', '.'] := by
  unfold canonical
  induction p using List.reverseRecOn with
  | nil => simp
  | append_singleton p part ih =>
    rw [List.foldl_append, List.foldl_cons, List.foldl_nil]
    split
    · exact ih
    · rename_i hkeep
      rw [not_or] at hkeep
      split
      · exact fun q hq => ih q (List.mem_of_mem_dropLast hq)
      · rename_i hup
        intro q hq
        rcases List.mem_append.mp hq with hq | hq
        · exact ih q hq
        · rw [List.mem_singleton.mp hq]
          exact ⟨hkeep.1, hkeep.2, hup⟩

/-- Without double dots, a path goes on below where it starts. -/
theorem canonical_append {p q : Path} (hq : ['.', '.'] ∉ q) :
    canonical (p ++ q) = canonical p ++ q.filter fun part => part ≠ [] ∧ part ≠ ['.'] := by
  unfold canonical
  rw [List.foldl_append]
  generalize p.foldl _ [] = done
  induction q generalizing done with
  | nil => simp
  | cons part q ih =>
    rw [List.mem_cons, not_or] at hq
    rw [List.foldl_cons, ih hq.2]
    by_cases hskip : part = [] ∨ part = ['.']
    · rw [if_pos hskip, List.filter_cons_of_neg (by simpa [not_and_or, or_iff_not_imp_left] using hskip)]
    · rw [if_neg hskip, if_neg (Ne.symm hq.1), List.filter_cons_of_pos (by simpa [not_or] using hskip)]
      simp

theorem canonical_canonical (p : Path) : canonical (canonical p) = canonical p := by
  have h := mem_canonical p
  have happ := canonical_append (p := []) (q := canonical p) fun hm => (h _ hm).2.2 rfl
  rw [List.nil_append] at happ
  rw [happ, List.filter_eq_self.mpr fun part hp => by simpa using ⟨(h part hp).1, (h part hp).2.1⟩]
  rfl

theorem validatePathComponents_ok (h : validatePathComponents name = .ok ()) :
    name ≠ [] ∧ '\x00' ∉ name ∧ '\\' ∉ name ∧ ['.', '.'] ∉ name.splitOn '/' := by
  unfold validatePathComponents at h
  grind

/-- A name that is let through resolves below the destination. -/
theorem safeResolve_eq (h : validatePathComponents name = .ok ()) :
    safeResolve (canonical dest) name = .ok (place name) := by
  obtain ⟨-, -, -, hup⟩ := validatePathComponents_ok h
  unfold safeResolve
  rw [canonical_append hup, canonical_canonical]
  dsimp only
  rw [if_pos (List.prefix_append _ _), List.drop_left]
  rfl

/-- The last occurrence of a character. -/
theorem exists_last {cs : List Char} {c : Char} (h : c ∈ cs) : ∃ a b, cs = a ++ c :: b ∧ c ∉ b := by
  obtain ⟨a, b, hab, hn⟩ := List.eq_append_cons_of_mem (List.mem_reverse.mpr h)
  refine ⟨b.reverse, a.reverse, ?_, by simpa using hn⟩
  rw [← List.reverse_reverse cs, hab]
  simp

theorem substringAfterLast_append (a : List Char) {b : List Char} {c : Char} (h : c ∉ b) (missing : List Char) :
    substringAfterLast (a ++ c :: b) c missing = b := by
  have hstop : ∀ d ∈ b.reverse, decide (d ≠ c) = true := by
    intro d hd
    rw [decide_eq_true_eq]
    rintro rfl
    exact h (List.mem_reverse.mp hd)
  have htake : (b.reverse ++ c :: a.reverse).takeWhile (· ≠ c) = b.reverse := by
    rw [List.takeWhile_append_of_pos hstop, List.takeWhile_cons_of_neg (by simp), List.append_nil]
  unfold substringAfterLast
  rw [if_pos (by simp)]
  simp only [List.reverse_append, List.reverse_cons, List.append_assoc, List.cons_append, List.nil_append]
  rw [htake, List.reverse_reverse]

/-- A part holds the characters of the whole, but not the one it is cut at. -/
theorem mem_splitOn {cs : List Char} {c : Char} :
    ∀ part ∈ cs.splitOn c, c ∉ part ∧ ∀ d ∈ part, d ∈ cs := by
  induction hn : cs.length using Nat.strong_induction_on generalizing cs with
  | _ n ih =>
    by_cases h : c ∈ cs
    · obtain ⟨a, b, rfl, ha⟩ := List.eq_append_cons_of_mem h
      rw [List.splitOn_append_cons_self_of_not_mem ha]
      intro part hpart
      rcases List.mem_cons.mp hpart with rfl | hpart
      · exact ⟨ha, fun d hd => List.mem_append_left _ hd⟩
      · have hlt : b.length < n := by
          rw [← hn]
          simp
          omega
        obtain ⟨hno, hin⟩ := ih _ hlt rfl part hpart
        exact ⟨hno, fun d hd => List.mem_append_right _ (List.mem_cons_of_mem _ (hin d hd))⟩
    · rw [List.splitOn_eq_singleton h]
      intro part hpart
      rw [List.mem_singleton.mp hpart]
      exact ⟨h, fun d hd => hd⟩

/-- What is behind the last cut. -/
theorem splitOn_baseName (name : List Char) : ∃ front, name.splitOn '/' = front ++ [baseName name] := by
  by_cases h : '/' ∈ name
  · obtain ⟨a, b, rfl, hb⟩ := exists_last h
    refine ⟨a.splitOn '/', ?_⟩
    rw [List.splitOn_append_cons_self, List.splitOn_eq_singleton hb, baseName, substringAfterLast_append a hb]
  · refine ⟨[], ?_⟩
    rw [List.splitOn_eq_singleton h, baseName, substringAfterLast, if_neg h]
    rfl

theorem plain_place (h : validatePathComponents name = .ok ()) : ∀ part ∈ place name, Plain part := by
  obtain ⟨-, hnul, hback, hup⟩ := validatePathComponents_ok h
  intro part hpart
  obtain ⟨hsplit, hkeep⟩ := List.mem_filter.mp hpart
  obtain ⟨hslash, hin⟩ := mem_splitOn part hsplit
  rw [decide_eq_true_eq] at hkeep
  exact ⟨hkeep.1, hkeep.2, fun he => hup (he ▸ hsplit), hslash, fun hb => hback (hin _ hb), fun hb => hnul (hin _ hb)⟩

theorem validateFileName_ok (h : validateFileName name = .ok ()) :
    lowercase (baseName name) ∉ FORBIDDEN_BASENAMES ∧
      lowercase (substringAfterLast (baseName name) '.' []) ∈ ALLOWED_EXT := by
  unfold validateFileName at h
  grind

/-- A file goes where its name ends. -/
theorem webAsset_place (h : validateFileName name = .ok ()) : WebAsset (place name) := by
  obtain ⟨hforbidden, hext⟩ := validateFileName_ok h
  obtain ⟨front, hfront⟩ := splitOn_baseName name
  have hkeep : baseName name ≠ [] ∧ baseName name ≠ ['.'] := by
    constructor
    · intro he
      rw [he] at hext
      exact absurd hext (by decide)
    · intro he
      rw [he] at hext
      exact absurd hext (by decide)
  refine ⟨baseName name, ?_, hforbidden, hext⟩
  rw [place, hfront, List.filter_append, List.filter_cons_of_pos (by simpa using hkeep)]
  simp

end

end Wavr.SafeTar
