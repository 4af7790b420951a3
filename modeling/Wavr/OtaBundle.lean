import Wavr.OptionList
import Wavr.SafeTarBounds

/-!
# The update that the Core offers

`_build_ota_bundle` writes the web assets with Python's `tarfile`, whose default format is pax, and the
companion unpacks them with `SafeTarExtractor`. Both ends of gzip are left out: what the one compresses
the other decompresses.
-/

namespace Wavr.OtaBundle
open SafeTar

/-! ## `tarfile` -/

/-- `tarinfo.mtime`; that of a file read from the disk is a float, which rounds to a number and prints as
a text. -/
inductive Mtime
  | whole (n : ℤ)
  | float (rounded : ℤ) (text : String)
  deriving DecidableEq

/-- What `gettarinfo` makes of a file, and its content. -/
structure TarInfo where
  name : List Char
  mode : ℕ
  uid : ℤ
  gid : ℤ
  mtime : Mtime
  type : UInt8
  linkname : List Char
  uname : List Char
  gname : List Char
  content : Bytes
  deriving DecidableEq

/-- `b"ustar\x0000"` -/
def POSIX_MAGIC : Bytes := [117, 115, 116, 97, 114, 0, 48, 48]
def REGTYPE : UInt8 := 48
def XHDTYPE : UInt8 := 120

/-- `s.encode("ascii", "replace")`. -/
def encodeAscii (s : List Char) : Bytes :=
  s.map fun c => if c.toNat < 128 then UInt8.ofNat c.toNat else 63

/-- `ljust`: cut or filled with zeros to the length. -/
def fill (length : ℕ) (bs : Bytes) : Bytes := bs.take length ++ List.replicate (length - bs.length) 0

def stn (s : List Char) (length : ℕ) : Bytes := fill length (encodeAscii s)

/-- `"%0*o"` of a number that has at most this many octal digits. -/
def octalText : ℕ → ℕ → Bytes
  | 0, _ => []
  | width + 1, n => octalText width (n / 8) ++ [UInt8.ofNat (48 + n % 8)]

/-- A number field of the ustar format; `none` is the ValueError. -/
def itn (n : ℤ) (digits : ℕ) : Option Bytes :=
  if 0 ≤ n ∧ n < 8 ^ (digits - 1) then some (octalText (digits - 1) n.toNat ++ [0]) else none

def sumBytes (bs : Bytes) : ℕ := (bs.map UInt8.toNat).sum

/-- The checksum, over a header that has blanks in its place. -/
def withChecksum (buf : Bytes) : Bytes :=
  buf.take 148 ++ octalText 6 (sumBytes buf) ++ [0] ++ buf.drop 155

/-- `_create_header`; `size` is what the field of that name gets. -/
def createHeader (name : List Char) (mode : ℕ) (uid gid size mtime : ℤ) (type : UInt8)
    (linkname uname gname : List Char) : Option Bytes := do
  let mode ← itn (mode % 8 ^ 4) 8
  let uid ← itn uid 8
  let gid ← itn gid 8
  let size ← itn size 12
  let mtime ← itn mtime 12
  let blanks := List.replicate 8 32
  some (withChecksum (stn name 100 ++ mode ++ uid ++ gid ++ size ++ mtime ++ blanks ++ [type] ++
    stn linkname 100 ++ POSIX_MAGIC ++ stn uname 32 ++ stn gname 32 ++ stn [] 8 ++ stn [] 8 ++ stn [] 155 ++
    List.replicate 12 0))

/-- A string field that the header cannot hold. -/
def stringRecord (key : String) (length : ℕ) (s : List Char) : List (String × String) :=
  if s.any (fun c => 128 ≤ c.toNat) ∨ length < s.length then [(key, String.ofList s)] else []

/-- A number field: what the header gets, and the record if that is not all. -/
def numberRecord (key : String) (digits : ℕ) (n : ℤ) : ℤ × List (String × String) :=
  if 0 ≤ n ∧ n < 8 ^ (digits - 1) then (n, []) else (0, [(key, toString n)])

def mtimeRecord (m : Mtime) : ℤ × List (String × String) :=
  match m with
  | .whole n => numberRecord "mtime" 12 n
  | .float rounded text =>
    (if 0 ≤ rounded ∧ rounded < 8 ^ 11 then rounded else 0, [("mtime", text)])

def encodeUtf8 (s : String) : Bytes := s.toList.flatMap String.utf8EncodeChar

/-- `"%d keyword=value\n"`, whose number counts itself. -/
def recordLength (l : ℕ) : ℕ → ℕ → ℕ
  | 0, p => p
  | fuel + 1, p =>
    let n := l + (toString p).length
    if n = p then p else recordLength l fuel n

def paxRecord (r : String × String) : Bytes :=
  let keyword := encodeUtf8 r.1
  let value := encodeUtf8 r.2
  let l := keyword.length + value.length + 3
  encodeUtf8 (toString (recordLength l (l + 3) 0)) ++ [32] ++ keyword ++ [61] ++ value ++ [10]

/-- `_create_payload`. -/
def createPayload (payload : Bytes) : Bytes :=
  let remainder := payload.length % BLOCK
  if 0 < remainder then payload ++ List.replicate (BLOCK - remainder) 0 else payload

def createPaxGenericHeader (records : List (String × String)) : Option Bytes := do
  let payload := records.flatMap paxRecord
  let header ← createHeader "././@PaxHeader".toList 0 0 0 payload.length 0 XHDTYPE [] [] []
  some (header ++ createPayload payload)

/-- Nothing where there is nothing to add. -/
def extendedHeader (records : List (String × String)) : Option Bytes :=
  if records.isEmpty then some [] else createPaxGenericHeader records

/-- `create_pax_header`, of a file that `gettarinfo` gave the size of its content. -/
def createPaxHeader (info : TarInfo) : Option Bytes := do
  let (uid, uids) := numberRecord "uid" 8 info.uid
  let (gid, gids) := numberRecord "gid" 8 info.gid
  let (size, sizes) := numberRecord "size" 12 (if info.type = REGTYPE then info.content.length else 0)
  let (mtime, mtimes) := mtimeRecord info.mtime
  let records := stringRecord "path" 100 info.name ++ stringRecord "linkpath" 100 info.linkname ++
    stringRecord "uname" 32 info.uname ++ stringRecord "gname" 32 info.gname ++ uids ++ gids ++ sizes ++ mtimes
  let pax ← extendedHeader records
  let header ← createHeader info.name info.mode uid gid size mtime info.type info.linkname info.uname info.gname
  some (pax ++ header)

/-- `addfile`. -/
def addfile (info : TarInfo) : Option Bytes := do
  let header ← createPaxHeader info
  some (header ++ if info.type = REGTYPE then createPayload info.content else [])

/-- `close` fills the last record. -/
def finishArchive (archive : Bytes) : Bytes :=
  let archive := archive ++ List.replicate (BLOCK * 2) 0
  let remainder := archive.length % 10240
  if 0 < remainder then archive ++ List.replicate (10240 - remainder) 0 else archive

/-- The whole archive of these members. -/
def archive (members : List TarInfo) : Option Bytes := do
  let parts ← members.mapM addfile
  some (finishArchive parts.flatten)

/-! ## `_build_ota_bundle` -/

/-- A file as `os.lstat` and `open` see it; a time is a float. -/
structure Stat where
  mode : ℕ
  uid : ℤ
  gid : ℤ
  mtimeRounded : ℤ
  mtimeText : String
  type : UInt8
  linkname : List Char
  uname : List Char
  gname : List Char
  content : Bytes
  /-- `Path.exists` and `Path.is_file`, which follow links. -/
  present : Bool
  isFile : Bool
  deriving DecidableEq

structure Frontend where
  /-- The text of index.html, `none` for an OSError. -/
  shell : Option (List Char)
  files : List Char → Option Stat

def OTA_ASSET_NAMES : List String :=
  ["index.html", "manifest.webmanifest", "sw.js", "icon.svg", "measure.html"]

def MODULE_TAG : List Char := "<script src=\"js/".toList

/-- `[a-z0-9.-]` -/
def isModuleChar (c : Char) : Bool := ('a' ≤ c ∧ c ≤ 'z') ∨ ('0' ≤ c ∧ c ≤ '9') ∨ c = '.' ∨ c = '-'

/-- One match of the pattern at the start of the text: the name, and what follows. -/
def matchModule (text : List Char) : Option (List Char × List Char) :=
  if MODULE_TAG <+: text then
    let text := text.drop MODULE_TAG.length
    let name := text.takeWhile isModuleChar
    if name ≠ [] ∧ (text.drop name.length).head? = some '"' then some (name, text.drop (name.length + 1)) else none
  else none

/-- `re.findall`; each step takes at least one character. -/
def findModules : ℕ → List Char → List (List Char)
  | 0, _ => []
  | _ + 1, [] => []
  | fuel + 1, c :: text =>
    match matchModule (c :: text) with
    | some (name, rest) => name :: findModules fuel rest
    | none => findModules fuel text

def otaModuleNames (fe : Frontend) : List (List Char) :=
  match fe.shell with
  | none => []
  | some shell =>
    (findModules shell.length shell).filter fun n => (fe.files ("js/".toList ++ n)).any Stat.isFile

def gettarinfo (arcname : List Char) (st : Stat) : TarInfo :=
  { name := arcname, mode := st.mode, uid := st.uid, gid := st.gid,
    mtime := .float st.mtimeRounded st.mtimeText, type := st.type, linkname := st.linkname,
    uname := st.uname, gname := st.gname, content := st.content }

def bundleMembers (fe : Frontend) : List TarInfo :=
  (OTA_ASSET_NAMES.filterMap fun name =>
      ((fe.files name.toList).filter Stat.present).map (gettarinfo name.toList)) ++
    (otaModuleNames fe).filterMap fun name =>
      (fe.files ("js/".toList ++ name)).map (gettarinfo ("js/".toList ++ name))

/-- The archive, before it is compressed. -/
def buildOtaBundle (fe : Frontend) : Option Bytes := archive (bundleMembers fe)

/-! ## The header as the companion reads it -/

section

theorem length_fill (length : ℕ) (bs : Bytes) : (fill length bs).length = length := by
  rw [fill, List.length_append, List.length_take, List.length_replicate]
  omega

theorem length_stn (s : List Char) (length : ℕ) : (stn s length).length = length := length_fill _ _

theorem length_octalText (width n : ℕ) : (octalText width n).length = width := by
  induction width generalizing n with
  | zero => rfl
  | succ width ih => rw [octalText, List.length_append, ih]; rfl

theorem itn_eq_some {n : ℤ} {digits : ℕ} {bs : Bytes} (h : itn n digits = some bs) :
    0 ≤ n ∧ n < 8 ^ (digits - 1) ∧ bs = octalText (digits - 1) n.toNat ++ [0] := by
  unfold itn at h
  split at h
  · rename_i hn
    exact ⟨hn.1, hn.2, (Option.some.inj h).symm⟩
  · cases h

theorem length_itn {n : ℤ} {digits : ℕ} {bs : Bytes} (hd : 0 < digits) (h : itn n digits = some bs) :
    bs.length = digits := by
  rw [(itn_eq_some h).2.2, List.length_append, length_octalText, List.length_singleton]
  omega

/-- The checksum stands between what is before it and what is behind. -/
theorem withChecksum_append {a c : Bytes} (ha : a.length = 148) :
    ∃ chk : Bytes, chk.length = 8 ∧ withChecksum (a ++ List.replicate 8 32 ++ c) = a ++ chk ++ c := by
  refine ⟨octalText 6 (sumBytes (a ++ List.replicate 8 32 ++ c)) ++ [0] ++ [32], ?_, ?_⟩
  · simp [length_octalText]
  · unfold withChecksum
    have htake : (a ++ List.replicate 8 32 ++ c).take 148 = a := by
      rw [List.append_assoc, ← ha, List.take_left]
    have hdrop : (a ++ List.replicate 8 32 ++ c).drop 155 = 32 :: c := by
      have hlen : 155 = a.length + 7 := by omega
      rw [List.append_assoc, hlen, ← List.drop_drop, List.drop_left]
      rfl
    rw [htake, hdrop]
    simp

/-- Where the fields of a header are that the companion reads. -/
structure Layout (h : Bytes) (name size : Bytes) (type : UInt8) : Prop where
  length : h.length = BLOCK
  name : (h.take 100) = name
  size : (h.drop 124).take 12 = size
  type : h.getD 156 0 = type
  front : (h.drop 345).take 155 = List.replicate 155 0

theorem layout_of_append {n a s b c p z : Bytes} {type : UInt8} (hn : n.length = 100) (ha : a.length = 24)
    (hs : s.length = 12) (hb : b.length = 20) (hc : c.length = 188) (hp : p = List.replicate 155 0)
    (hz : z.length = 12) : Layout (n ++ (a ++ (s ++ (b ++ (type :: (c ++ (p ++ z))))))) n s type := by
  have hplen : p.length = 155 := by rw [hp, List.length_replicate]
  constructor
  · simp [hn, ha, hs, hb, hc, hplen, hz, BLOCK]
  · rw [← hn, List.take_left]
  · rw [← List.append_assoc, show 124 = (n ++ a).length by simp [hn, ha], List.drop_left, ← hs, List.take_left]
  · rw [← List.append_assoc, ← List.append_assoc, ← List.append_assoc]
    have hlen : (n ++ a ++ s ++ b).length = 156 := by simp [hn, ha, hs, hb]
    rw [List.getD_eq_getElem?_getD, List.getElem?_append_right (by omega), hlen]
    rfl
  · have hlen : (n ++ a ++ s ++ b ++ [type] ++ c).length = 345 := by simp [hn, ha, hs, hb, hc]
    have hassoc : n ++ (a ++ (s ++ (b ++ (type :: (c ++ (p ++ z)))))) = (n ++ a ++ s ++ b ++ [type] ++ c) ++ (p ++ z) := by
      simp
    rw [hassoc, ← hlen, List.drop_left, ← hplen, List.take_left, hp, List.length_replicate]

/-- Where a header has zeros to its end. -/
theorem stn_nil (length : ℕ) : stn [] length = List.replicate length 0 := by
  simp [stn, fill, encodeAscii]

theorem layout_createHeader {name linkname uname gname : List Char} {mode : ℕ} {uid gid size mtime : ℤ} {type : UInt8}
    {h : Bytes} (hh : createHeader name mode uid gid size mtime type linkname uname gname = some h) :
    0 ≤ size ∧ size < 8 ^ 11 ∧ Layout h (stn name 100) (octalText 11 size.toNat ++ [0]) type := by
  simp only [createHeader, Option.bind_eq_bind, Option.bind_eq_some_iff] at hh
  obtain ⟨mode', hmode, uid', huid, gid', hgid, size', hsize, mtime', hmtime, hh⟩ := hh
  obtain ⟨h0, hlt, hsize'⟩ := itn_eq_some hsize
  replace hmode := length_itn (by decide) hmode
  replace huid := length_itn (by decide) huid
  replace hgid := length_itn (by decide) hgid
  replace hmtime := length_itn (by decide) hmtime
  have hsizel := length_itn (by decide) hsize
  have hbefore : (stn name 100 ++ mode' ++ uid' ++ gid' ++ size' ++ mtime').length = 148 := by
    simp only [List.length_append, length_stn, hmode, huid, hgid, hsizel, hmtime]
  obtain ⟨chk, hchk, hsum⟩ := withChecksum_append hbefore (c := [type] ++ stn linkname 100 ++ POSIX_MAGIC ++
    stn uname 32 ++ stn gname 32 ++ stn [] 8 ++ stn [] 8 ++ stn [] 155 ++ List.replicate 12 0)
  refine ⟨h0, hlt, ?_⟩
  have hform : h = stn name 100 ++ ((mode' ++ uid' ++ gid') ++ (size' ++ ((mtime' ++ chk) ++ (type ::
      ((stn linkname 100 ++ POSIX_MAGIC ++ stn uname 32 ++ stn gname 32 ++ stn [] 8 ++ stn [] 8) ++
        (stn [] 155 ++ List.replicate 12 0)))))) := by
    rw [← Option.some.inj hh]
    simp only [List.append_assoc, List.cons_append, List.nil_append] at hsum ⊢
    exact hsum
  rw [hform, ← hsize']
  refine layout_of_append (length_stn _ _) ?_ hsizel ?_ ?_ (stn_nil 155) (List.length_replicate ..)
  · simp only [List.length_append, hmode, huid, hgid]
  · simp only [List.length_append, hmtime, hchk]
  · simp only [List.length_append, length_stn]
    rfl

theorem ascii_encode {c : Char} (hc : c.toNat < 128) : ascii (UInt8.ofNat c.toNat) = c := by
  have hto : (UInt8.ofNat c.toNat).toNat = c.toNat := by
    rw [UInt8.toNat_ofNat']
    omega
  unfold ascii
  rw [if_pos (by rw [UInt8.lt_iff_toNat_lt, hto]; exact hc), hto, Char.ofNat_toNat]

/-- An octal digit as a byte and as a character. -/
theorem digit_byte {d : ℕ} (hd : d < 8) :
    ascii (UInt8.ofNat (48 + d)) ∈ ['0', '1', '2', '3', '4', '5', '6', '7'] ∧
      octalDigit (ascii (UInt8.ofNat (48 + d))) = some d ∧ UInt8.ofNat (48 + d) ≠ 0 ∧ UInt8.ofNat (48 + d) < 128 ∧
      Text.isSpace (ascii (UInt8.ofNat (48 + d))) = false := by
  revert d
  decide

theorem mem_octalText {width n : ℕ} {b : UInt8} (hb : b ∈ octalText width n) : ∃ d < 8, b = UInt8.ofNat (48 + d) := by
  induction width generalizing n with
  | zero => cases hb
  | succ width ih =>
    rw [octalText, List.mem_append, List.mem_singleton] at hb
    rcases hb with hb | hb
    · exact ih hb
    · exact ⟨n % 8, Nat.mod_lt _ (by decide), hb⟩

theorem mapM_octalText (width n : ℕ) :
    ∃ ds : List ℕ, ((octalText width n).map ascii).mapM octalDigit = some ds ∧
      ds.foldl (fun n d => n * 8 + d) 0 = n % 8 ^ width := by
  induction width generalizing n with
  | zero => exact ⟨[], rfl, by simp [Nat.mod_one]⟩
  | succ width ih =>
    obtain ⟨ds, hds, hval⟩ := ih (n / 8)
    have hdigit := (digit_byte (Nat.mod_lt n (show 0 < 8 by decide))).2.1
    refine ⟨ds ++ [n % 8], ?_, ?_⟩
    · rw [octalText, List.map_append, List.mapM_append, hds, List.map_cons, List.map_nil, List.mapM_cons,
        List.mapM_nil, hdigit]
      rfl
    · rw [List.foldl_append, hval, List.foldl_cons, List.foldl_nil, Nat.pow_succ', Nat.mod_mul]
      omega

theorem trimmed_octalText (width n : ℕ) : trim ((octalText width n).map ascii) = (octalText width n).map ascii := by
  have hno : ∀ c ∈ (octalText width n).map ascii, Text.isSpace c = false := by
    intro c hc
    obtain ⟨b, hb, rfl⟩ := List.mem_map.mp hc
    obtain ⟨d, hd, rfl⟩ := mem_octalText hb
    exact (digit_byte hd).2.2.2.2
  refine Text.stripOf_of_trimmed ⟨fun c hc => hno c (List.mem_of_mem_head? hc), fun c hc => ?_⟩
  exact hno c (List.mem_of_mem_getLast? hc)

/-- The companion reads the size that was written. -/
theorem parseOctalSize_layout {h name : Bytes} {type : UInt8} {n : ℕ}
    (hl : Layout h name (octalText 11 n ++ [0]) type) (hn : n < 8 ^ 11) : parseOctalSize h = .ok (n : ℤ) := by
  have hfield : cString h 124 12 = (octalText 11 n).map ascii := by
    unfold cString
    rw [hl.size, List.takeWhile_append_of_pos]
    · simp
    · intro b hb
      obtain ⟨d, hd, rfl⟩ := mem_octalText hb
      simpa using (digit_byte hd).2.2.1
  have hfirst : h.getD 124 0 < 128 := by
    have hget : h.getD 124 0 = (octalText 11 n ++ [0]).getD 0 0 := by
      rw [← hl.size]
      simp [List.getD_eq_getElem?_getD]
    have hmem : (octalText 11 n ++ [0]).getD 0 0 ∈ octalText 11 n := by
      have hlen := length_octalText 11 n
      rw [List.getD_eq_getElem?_getD, List.getElem?_append_left (by omega), List.getElem?_eq_getElem (by omega)]
      exact List.getElem_mem _
    obtain ⟨d, hd, hb⟩ := mem_octalText hmem
    rw [hget, hb]
    exact (digit_byte hd).2.2.2.1
  obtain ⟨ds, hds, hval⟩ := mapM_octalText 11 n
  have hdigits : octalDigits ((octalText 11 n).map ascii) = some n := by
    unfold octalDigits
    rw [hds, Option.map_some, hval, Nat.mod_eq_of_lt hn, if_neg]
    rw [List.isEmpty_map]
    simp [octalText]
  have hlong : toLong8 ((octalText 11 n).map ascii) = some (n : ℤ) := by
    have hhead : ∀ c cs, (octalText 11 n).map ascii = c :: cs → c ≠ '-' ∧ c ≠ '+' := by
      intro c cs hc
      have hmem : c ∈ (octalText 11 n).map ascii := by rw [hc]; exact List.mem_cons_self
      obtain ⟨b, hb, rfl⟩ := List.mem_map.mp hmem
      obtain ⟨d, hd, rfl⟩ := mem_octalText hb
      have hin := (digit_byte hd).1
      constructor
      · intro he
        rw [he] at hin
        exact absurd hin (by decide)
      · intro he
        rw [he] at hin
        exact absurd hin (by decide)
    unfold toLong8
    split
    · rename_i cs hc
      exact absurd rfl (hhead _ _ hc).1
    · rename_i cs hc
      exact absurd rfl (hhead _ _ hc).2
    · rw [hdigits]
      rfl
  unfold parseOctalSize
  rw [if_neg (UInt8.not_le.mpr hfirst)]
  dsimp only
  rw [hfield, trimmed_octalText, if_neg (by simp [octalText]), hlong]

end

/-! ## Block by block -/

section
variable {dest : Path} {h rest : Bytes} {s : State}

theorem readFully_append (hlen : h.length = BLOCK) : readFully (h ++ rest) BLOCK = .ok (some (h, rest)) := by
  unfold readFully
  rw [if_pos (by rw [List.length_append, hlen]; exact Nat.le_add_right _ _), ← hlen, List.take_left, List.drop_left]

theorem extractLoop_block (left : ℕ) (hlen : h.length = BLOCK) (hzero : isZeroBlock h = false) :
    extractLoop dest (left + 1) (h ++ rest) s =
      match entry dest h rest s with
      | (.error e, s) => (some e, s)
      | (.ok rest, s) => extractLoop dest left rest s := by
  rw [extractLoop, readFully_append hlen]
  dsimp only
  rw [hzero]
  rfl

theorem extractLoop_end (left : ℕ) (rest : Bytes) :
    extractLoop dest left (List.replicate BLOCK 0 ++ rest) s = (none, s) := by
  have hzero : isZeroBlock (List.replicate BLOCK 0) = true := by
    simp [isZeroBlock]
  cases left <;> rw [extractLoop, readFully_append (List.length_replicate ..)] <;> simp only [hzero, if_true]

theorem Layout.nonzero {name size : Bytes} {type : UInt8} (hl : Layout h name size type) (ht : type ≠ 0) :
    isZeroBlock h = false := by
  have hmem : type ∈ h := by
    rw [← hl.type, List.getD_eq_getElem?_getD, List.getElem?_eq_getElem (by rw [hl.length]; decide)]
    exact List.getElem_mem _
  rw [isZeroBlock, List.all_eq_false]
  exact ⟨type, hmem, by simpa using ht⟩

/-- An entry that is neither a file nor a directory is not taken. -/
theorem entry_refused {name : Bytes} {type : UInt8} {n : ℕ} (hl : Layout h name (octalText 11 n ++ [0]) type)
    (hn : n < 8 ^ 11) (ht : type = XHDTYPE) :
    entry dest h rest s = (.error (unsafeBundle "the bundle contains a non-file entry"), s) := by
  unfold entry
  rw [parseOctalSize_layout hl hn, hl.type, ht]
  rfl

end

/-! ## The bundle of the Core -/

section
variable {dest : Path}

theorem layout_extended {records : List (String × String)} {pax : Bytes}
    (h : createPaxGenericHeader records = some pax) :
    ∃ header rest n, pax = header ++ rest ∧ n < 8 ^ 11 ∧
      Layout header (stn "././@PaxHeader".toList 100) (octalText 11 n ++ [0]) XHDTYPE := by
  simp only [createPaxGenericHeader, Option.bind_eq_bind, Option.bind_eq_some_iff] at h
  obtain ⟨header, hheader, hpax⟩ := h
  obtain ⟨-, hlt, hl⟩ := layout_createHeader hheader
  rw [Int.toNat_natCast] at hl
  cases hpax
  exact ⟨header, _, _, rfl, by exact_mod_cast hlt, hl⟩

/-- The header in front of a file whose time is a float. -/
theorem addfile_float {info : TarInfo} {rounded : ℤ} {text : String} (hm : info.mtime = .float rounded text)
    {bs : Bytes} (h : addfile info = some bs) :
    ∃ header rest n, bs = header ++ rest ∧ n < 8 ^ 11 ∧
      Layout header (stn "././@PaxHeader".toList 100) (octalText 11 n ++ [0]) XHDTYPE := by
  simp only [addfile, createPaxHeader, hm, mtimeRecord, Option.bind_eq_bind, Option.bind_eq_some_iff] at h
  obtain ⟨both, ⟨pax, hpax, header', -, hboth⟩, hbs⟩ := h
  rw [extendedHeader, if_neg (by simp)] at hpax
  obtain ⟨header, rest, n, rfl, hn, hl⟩ := layout_extended hpax
  cases hboth
  cases hbs
  refine ⟨header, rest ++ (header' ++ if info.type = REGTYPE then createPayload info.content else []), n, ?_, hn, hl⟩
  rw [List.append_assoc, List.append_assoc]

/-- An archive ends with two blocks of zeros, at least. -/
theorem finishArchive_eq (bs : Bytes) : ∃ rest, finishArchive bs = bs ++ (List.replicate BLOCK 0 ++ rest) := by
  have htwo : List.replicate (BLOCK * 2) (0 : UInt8) = List.replicate BLOCK 0 ++ List.replicate BLOCK 0 := by
    rw [List.replicate_append_replicate, Nat.mul_two]
  unfold finishArchive
  dsimp only
  rw [htwo]
  split
  · exact ⟨List.replicate BLOCK 0 ++ List.replicate _ 0, by rw [List.append_assoc, List.append_assoc]⟩
  · exact ⟨List.replicate BLOCK 0, rfl⟩

theorem mtime_bundleMembers (fe : Frontend) {info : TarInfo} (h : info ∈ bundleMembers fe) :
    ∃ rounded text, info.mtime = .float rounded text := by
  have hget : ∀ (arcname : List Char) (st : Option Stat), some info = st.map (gettarinfo arcname) →
      ∃ rounded text, info.mtime = .float rounded text := by
    intro arcname st hst
    cases st with
    | none => cases hst
    | some st =>
      rw [Option.some.inj hst]
      exact ⟨_, _, rfl⟩
  rcases List.mem_append.mp h with h | h
  · obtain ⟨name, -, hname⟩ := List.mem_filterMap.mp h
    exact hget _ _ hname.symm
  · obtain ⟨name, -, hname⟩ := List.mem_filterMap.mp h
    exact hget _ _ hname.symm

/-- No companion takes the bundle that a Core offers, whatever is in its frontend: the first member is
written behind an extended header, for its time, and that is an entry the companion refuses. Nothing
is unpacked. -/
theorem bundle_refused (fe : Frontend) (dest : Path) {tar : Bytes} (h : buildOtaBundle fe = some tar) :
    extract dest tar = (.error (unsafeBundle (if bundleMembers fe = [] then "the bundle has no root index.html"
      else "the bundle contains a non-file entry")), .empty) := by
  unfold buildOtaBundle archive at h
  simp only [Option.bind_eq_bind, Option.bind_eq_some_iff] at h
  obtain ⟨parts, hparts, htar⟩ := h
  cases hmembers : bundleMembers fe with
  | nil =>
    rw [hmembers, List.mapM_nil] at hparts
    obtain ⟨rest, hrest⟩ := finishArchive_eq parts.flatten
    rw [← Option.some.inj htar, hrest, ← Option.some.inj hparts]
    unfold extract
    rw [List.flatten_nil, List.nil_append, extractLoop_end, if_pos rfl]
    simp
  | cons info members =>
    rw [hmembers, List.mapM_cons] at hparts
    simp only [Option.bind_eq_bind, Option.bind_eq_some_iff] at hparts
    obtain ⟨bs, hbs, more, -, hcons⟩ := hparts
    obtain ⟨rounded, text, hm⟩ := mtime_bundleMembers fe (hmembers ▸ List.mem_cons_self)
    obtain ⟨header, rest, n, rfl, hn, hl⟩ := addfile_float hm hbs
    obtain ⟨final, hfinal⟩ := finishArchive_eq parts.flatten
    rw [← Option.some.inj htar, hfinal, ← Option.some.inj hcons, List.flatten_cons, List.append_assoc, List.append_assoc, if_neg (by simp)]
    unfold extract
    rw [show MAX_ENTRIES = 3999 + 1 from rfl, extractLoop_block 3999 hl.length (hl.nonzero (by decide)),
      entry_refused hl hn rfl]

/-- A frontend that is its index. -/
def sampleFrontend : Frontend where
  shell := some []
  files name :=
    if name = "index.html".toList then
      some { mode := 33188, uid := 1000, gid := 1000, mtimeRounded := 1700000000, mtimeText := "1700000000.25",
             type := REGTYPE, linkname := [], uname := ['w', 'a', 'v', 'r'], gname := ['w', 'a', 'v', 'r'],
             content := [60, 112, 62], present := true, isFile := true }
    else none

theorem bundle_refused_sample :
    ∃ tar, buildOtaBundle sampleFrontend = some tar ∧
      extract [['w', 'e', 'b']] tar = (.error (unsafeBundle "the bundle contains a non-file entry"), .empty) := by
  have hbuilt : (buildOtaBundle sampleFrontend).isSome = true := by decide +kernel
  obtain ⟨tar, htar⟩ := Option.isSome_iff_exists.mp hbuilt
  have hmembers : bundleMembers sampleFrontend ≠ [] := by decide +kernel
  refine ⟨tar, htar, ?_⟩
  rw [bundle_refused sampleFrontend [['w', 'e', 'b']] htar, if_neg hmembers]

end

/-! ## Plain members -/

/-- Some text of a header field: ASCII, and short enough. -/
def Fits (length : ℕ) (s : List Char) : Prop := (∀ c ∈ s, c.toNat < 128) ∧ s.length ≤ length

instance Fits.instDecidable (length : ℕ) (s : List Char) : Decidable (Fits length s) :=
  have := List.decidableBAll (fun c => c.toNat < 128) s
  instDecidableAnd

/-- A member that its header says all about, and that the companion takes. -/
structure Plainly (m : TarInfo) : Prop where
  type : m.type = REGTYPE
  mtime : ∃ n, m.mtime = .whole n ∧ 0 ≤ n ∧ n < 8 ^ 11
  uid : 0 ≤ m.uid ∧ m.uid < 8 ^ 7
  gid : 0 ≤ m.gid ∧ m.gid < 8 ^ 7
  uname : Fits 32 m.uname
  gname : Fits 32 m.gname
  linkname : Fits 100 m.linkname
  name : Fits 100 m.name
  noNul : '\x00' ∉ m.name
  trimmed : trim m.name = m.name
  path : validatePathComponents m.name = .ok ()
  file : validateFileName m.name = .ok ()
  size : (m.content.length : ℤ) ≤ MAX_ENTRY_BYTES

section
variable {dest : Path} {m : TarInfo}

theorem stringRecord_of_fits {key : String} {length : ℕ} {s : List Char} (h : Fits length s) :
    stringRecord key length s = [] := by
  unfold stringRecord
  rw [if_neg]
  rw [not_or, Bool.not_eq_true, List.any_eq_false]
  exact ⟨fun c hc => by simpa using h.1 c hc, not_lt.mpr h.2⟩

theorem numberRecord_of_range {key : String} (digits : ℕ) {n : ℤ} (h0 : 0 ≤ n) (hn : n < 8 ^ (digits - 1)) :
    numberRecord key digits n = (n, []) := by
  rw [numberRecord, if_pos ⟨h0, hn⟩]

theorem itn_of_range (digits : ℕ) {n : ℤ} (h0 : 0 ≤ n) (hn : n < 8 ^ (digits - 1)) : ∃ bs, itn n digits = some bs :=
  ⟨_, if_pos ⟨h0, hn⟩⟩

theorem createHeader_of_range (name linkname uname gname : List Char) (mode : ℕ) (type : UInt8)
    {uid gid size mtime : ℤ} (huid : 0 ≤ uid ∧ uid < 8 ^ 7) (hgid : 0 ≤ gid ∧ gid < 8 ^ 7) (hsize : 0 ≤ size ∧ size < 8 ^ 11)
    (hmtime : 0 ≤ mtime ∧ mtime < 8 ^ 11) :
    ∃ h, createHeader name mode uid gid size mtime type linkname uname gname = some h := by
  have hmode : 0 ≤ (mode : ℤ) % 8 ^ 4 ∧ (mode : ℤ) % 8 ^ 4 < 8 ^ (8 - 1) :=
    ⟨Int.emod_nonneg _ (by decide), (Int.emod_lt_of_pos _ (by decide)).trans (by decide)⟩
  obtain ⟨a, ha⟩ := itn_of_range 8 hmode.1 hmode.2
  obtain ⟨b, hb⟩ := itn_of_range 8 huid.1 huid.2
  obtain ⟨c, hc⟩ := itn_of_range 8 hgid.1 hgid.2
  obtain ⟨d, hd⟩ := itn_of_range 12 hsize.1 hsize.2
  obtain ⟨e, he⟩ := itn_of_range 12 hmtime.1 hmtime.2
  exact ⟨_, by simp only [createHeader, ha, hb, hc, hd, he]; rfl⟩

theorem addfile_plain (hm : Plainly m) :
    ∃ header, addfile m = some (header ++ createPayload m.content) ∧
      Layout header (stn m.name 100) (octalText 11 m.content.length ++ [0]) REGTYPE := by
  obtain ⟨n, hmtime, hn⟩ := hm.mtime
  have hsize : (0 : ℤ) ≤ m.content.length ∧ (m.content.length : ℤ) < 8 ^ 11 :=
    ⟨Int.natCast_nonneg _, hm.size.trans_lt (by decide)⟩
  obtain ⟨header, hheader⟩ := createHeader_of_range m.name m.linkname m.uname m.gname m.mode m.type hm.uid hm.gid
    hsize hn
  refine ⟨header, ?_, ?_⟩
  · have hpax : createPaxHeader m = some header := by
      simp only [createPaxHeader, hmtime, mtimeRecord, stringRecord_of_fits hm.name, stringRecord_of_fits hm.linkname,
        stringRecord_of_fits hm.uname, stringRecord_of_fits hm.gname,
        numberRecord_of_range 8 hm.uid.1 hm.uid.2, numberRecord_of_range 8 hm.gid.1 hm.gid.2,
        numberRecord_of_range 12 hn.1 hn.2, if_pos hm.type,
        numberRecord_of_range 12 hsize.1 hsize.2, hheader]
      rfl
    simp only [addfile, hpax, if_pos hm.type]
    rfl
  · have hl := (layout_createHeader hheader).2.2
    rw [Int.toNat_natCast, hm.type] at hl
    exact hl

/-- The companion reads the name that was written. -/
theorem combinedName_layout {h : Bytes} {name : List Char} {size : Bytes} {type : UInt8}
    (hl : Layout h (stn name 100) size type) (hname : Fits 100 name) (hnul : '\x00' ∉ name)
    (htrim : trim name = name) (hpath : validatePathComponents name = .ok ()) : combinedName h = name := by
  have hfield : cString h 0 100 = name := by
    have hbytes : ∀ b ∈ encodeAscii name, decide (b ≠ 0) = true := by
      intro b hb
      obtain ⟨c, hc, rfl⟩ := List.mem_map.mp hb
      rw [if_pos (hname.1 c hc), decide_eq_true_eq]
      intro h0
      have hc0 : c = '\x00' := by
        rw [← ascii_encode (hname.1 c hc), h0]
        rfl
      exact hnul (hc0 ▸ hc)
    have hlen : (encodeAscii name).length = name.length := List.length_map ..
    unfold cString
    rw [List.drop_zero, hl.name, stn, fill, List.take_of_length_le (by rw [hlen]; exact hname.2),
      List.takeWhile_append_of_pos hbytes]
    have hzeros : ((List.replicate (100 - (encodeAscii name).length) (0 : UInt8)).takeWhile (· ≠ 0)) = [] := by
      cases 100 - (encodeAscii name).length with
      | zero => rfl
      | succ n => rfl
    rw [hzeros, List.append_nil, encodeAscii, List.map_map]
    refine (List.map_congr_left fun c hc => ?_).trans (List.map_id name)
    rw [Function.comp_apply, if_pos (hname.1 c hc), ascii_encode (hname.1 c hc)]
    rfl
  have hfront : cString h 345 155 = [] := by
    unfold cString
    rw [hl.front]
    rfl
  unfold combinedName
  dsimp only
  rw [hfield, hfront, List.isEmpty_nil, if_pos rfl, htrim]
  unfold validatePathComponents at hpath
  cases name with
  | nil => rfl
  | cons c cs =>
    refine List.dropWhile_cons_of_neg ?_
    grind

theorem skipPadding_payload (content rest : Bytes) :
    ∃ pad, createPayload content = content ++ pad ∧ skipPadding (pad ++ rest) content.length = .ok rest := by
  have hmod : (content.length : ℤ).tmod (BLOCK : ℤ) = ((content.length % BLOCK : ℕ) : ℤ) := rfl
  have hlt : content.length % BLOCK < BLOCK := Nat.mod_lt _ (by decide)
  unfold skipPadding createPayload
  dsimp only
  rw [hmod]
  by_cases hrem : content.length % BLOCK = 0
  · refine ⟨[], ?_, ?_⟩
    · rw [if_neg (by omega), List.append_nil]
    · rw [if_pos (by exact_mod_cast hrem), List.nil_append]
  · refine ⟨List.replicate (BLOCK - content.length % BLOCK) 0, ?_, ?_⟩
    · rw [if_pos (by omega)]
    · rw [if_neg (by exact_mod_cast hrem)]
      have hn : ((BLOCK : ℤ) - ((content.length % BLOCK : ℕ) : ℤ)).toNat = BLOCK - content.length % BLOCK := by
        omega
      unfold readFully
      rw [hn, if_pos (by rw [List.length_append, List.length_replicate]; exact Nat.le_add_right _ _)]
      dsimp only
      rw [List.drop_left' (List.length_replicate ..)]

variable (dest) in
/-- A plain member goes to its place, if nothing is in the way. -/
theorem entry_plain (hm : Plainly m) {header : Bytes} (rest : Bytes) {s : State} {files : List (Path × Bytes)}
    (hl : Layout header (stn m.name 100) (octalText 11 m.content.length ++ [0]) REGTYPE)
    (ht : s.tree.Holds files) (hfree : DirTree.Free (place m.name) files)
    (htotal : s.totalBytes + m.content.length ≤ MAX_TOTAL_BYTES) :
    ∃ tree, entry (canonical dest) header (createPayload m.content ++ rest) s =
        (.ok rest, ⟨tree, s.totalBytes + m.content.length, s.sawIndex || m.name = "index.html".toList⟩) ∧
      tree.Holds (files ++ [(place m.name, m.content)]) := by
  have hlen : m.content.length < 8 ^ 11 := by
    have := hm.size
    have : MAX_ENTRY_BYTES < 8 ^ 11 := by decide
    omega
  have hne : place m.name ≠ [] := by
    obtain ⟨base, hbase, -⟩ := webAsset_place hm.file
    intro he
    rw [he] at hbase
    cases hbase
  obtain ⟨pad, hpayload, hskip⟩ := skipPadding_payload m.content rest
  have hparent : ∃ tree, makeParent s.tree (place m.name) = some tree ∧
      (tree = s.tree ∧ s.tree.isDirectory (place m.name).dropLast = true ∨
        s.tree.mkdirs (place m.name).dropLast = some tree) := by
    unfold makeParent
    by_cases hdir : s.tree.isDirectory (place m.name).dropLast = true
    · rw [if_pos hdir]
      exact ⟨s.tree, rfl, .inl ⟨rfl, hdir⟩⟩
    · rw [if_neg hdir]
      obtain ⟨tree, htree⟩ := ht.parent hfree (Bool.not_eq_true _ ▸ hdir)
      exact ⟨tree, htree, .inr htree⟩
  obtain ⟨tree, hmake, hcases⟩ := hparent
  obtain ⟨tree', hwrite, hholds⟩ := ht.put hfree hne hcases m.content
  refine ⟨tree', ?_, hholds⟩
  have hcopy : copyExact (m.content ++ (pad ++ rest)) m.content.length = (m.content, .ok (pad ++ rest)) := by
    unfold copyExact
    rw [Int.toNat_natCast, List.take_left, List.drop_left, if_pos (by simp)]
  unfold entry
  rw [parseOctalSize_layout hl hlen, combinedName_layout hl hm.name hm.noNul hm.trimmed hm.path, hl.type]
  show regularFile (canonical dest) m.name m.content.length (createPayload m.content ++ rest) s = _
  unfold regularFile
  rw [hm.path, hm.file]
  dsimp only
  rw [if_neg (not_lt.mpr hm.size), if_neg (not_lt.mpr htotal), safeResolve_eq hm.path]
  dsimp only
  rw [hmake, hpayload, List.append_assoc]
  unfold writeEntry
  rw [hcopy]
  dsimp only
  rw [hwrite]
  dsimp only
  rw [hskip]

variable (dest) in
/-- The members of an archive, one after another. -/
theorem extractLoop_plain {ms : List TarInfo} {parts : List Bytes} (hparts : ms.mapM addfile = some parts)
    (hplain : ∀ m ∈ ms, Plainly m) (left : ℕ) (hleft : ms.length ≤ left) (rest : Bytes) {s : State}
    {files : List (Path × Bytes)} (ht : s.tree.Holds files)
    (hfree : (files.map Prod.fst ++ ms.map fun m => place m.name).Pairwise fun p q => ¬ p <+: q ∧ ¬ q <+: p)
    (htotal : s.totalBytes + ((ms.map fun m => m.content.length).sum : ℕ) ≤ MAX_TOTAL_BYTES) :
    ∃ s', extractLoop (canonical dest) left (parts.flatten ++ (List.replicate BLOCK 0 ++ rest)) s = (none, s') ∧
      s'.tree.Holds (files ++ ms.map fun m => (place m.name, m.content)) ∧
      s'.sawIndex = (s.sawIndex || ms.any fun m => m.name = "index.html".toList) := by
  induction ms generalizing parts left s files with
  | nil =>
    rw [List.mapM_nil] at hparts
    rw [← Option.some.inj hparts]
    refine ⟨s, extractLoop_end left rest, ?_, ?_⟩
    · rw [List.map_nil, List.append_nil]
      exact ht
    · rw [List.any_nil, Bool.or_false]
  | cons m ms ih =>
    obtain ⟨left, rfl⟩ : ∃ l, left = l + 1 := ⟨left - 1, by rw [List.length_cons] at hleft; omega⟩
    obtain ⟨hm, hms⟩ := List.forall_mem_cons.mp hplain
    rw [List.mapM_cons] at hparts
    simp only [Option.bind_eq_bind, Option.bind_eq_some_iff] at hparts
    obtain ⟨bs, hbs, more, hmore, hcons⟩ := hparts
    obtain ⟨header, hheader, hl⟩ := addfile_plain hm
    rw [hheader] at hbs
    rw [← Option.some.inj hcons, ← Option.some.inj hbs]
    rw [List.map_cons, List.sum_cons, Nat.cast_add] at htotal
    -- the files before stay out of the way of this one, and this one of those behind
    have hhere : DirTree.Free (place m.name) files := by
      intro f hf
      have hpair := (List.pairwise_append.mp hfree).2.2 f.1 (List.mem_map_of_mem hf) (place m.name) (by simp)
      exact hpair
    obtain ⟨tree, hentry, hholds⟩ := entry_plain dest hm (more.flatten ++ (List.replicate BLOCK 0 ++ rest)) hl ht
      hhere (by omega)
    obtain ⟨s', hloop, hholds', hindex⟩ := ih hmore hms left (by simpa using hleft)
      (s := ⟨tree, s.totalBytes + m.content.length, s.sawIndex || m.name = "index.html".toList⟩) hholds
      (by simpa using hfree) (by dsimp only; omega)
    refine ⟨s', ?_, ?_, ?_⟩
    · rw [List.flatten_cons, List.append_assoc, List.append_assoc, extractLoop_block left hl.length
        (hl.nonzero (by decide)), hentry]
      exact hloop
    · rw [List.map_cons]
      simpa using hholds'
    · rw [hindex, List.any_cons, Bool.or_assoc]

/-- What `tarfile` writes without extended headers the companion unpacks, file by file, if there is an
index, within the caps. -/
theorem extract_plain (dest : Path) (ms : List TarInfo) (hplain : ∀ m ∈ ms, Plainly m)
    (hindex : ∃ m ∈ ms, m.name = "index.html".toList) (hcount : ms.length ≤ MAX_ENTRIES)
    (htotal : ((ms.map fun m => m.content.length).sum : ℕ) ≤ MAX_TOTAL_BYTES)
    (hfree : (ms.map fun m => place m.name).Pairwise fun p q => ¬ p <+: q ∧ ¬ q <+: p) :
    ∃ tar tree, archive ms = some tar ∧ extract dest tar = (.ok (), tree) ∧
      ∀ p c, tree.get? p = some (.file c) ↔ ∃ m ∈ ms, place m.name = p ∧ m.content = c := by
  obtain ⟨parts, hparts⟩ := OptionList.mapM_of_exists (f := addfile) fun m hm =>
    ⟨_, (addfile_plain (hplain m hm)).choose_spec.1⟩
  obtain ⟨rest, hrest⟩ := finishArchive_eq parts.flatten
  obtain ⟨s', hloop, hholds, hsaw⟩ := extractLoop_plain dest hparts hplain _ hcount rest
    (s := ⟨.empty, 0, false⟩) DirTree.holds_empty (by simpa using hfree) (by simpa using htotal)
  refine ⟨finishArchive parts.flatten, s'.tree, ?_, ?_, fun p c => ?_⟩
  · rw [archive, hparts]
    rfl
  · have hany : s'.sawIndex = true := by
      obtain ⟨m, hm, hname⟩ := hindex
      rw [hsaw, Bool.false_or, List.any_eq_true]
      exact ⟨m, hm, decide_eq_true hname⟩
    unfold extract
    rw [hrest, hloop]
    dsimp only
    rw [if_pos hany]
  · rw [hholds.file, List.nil_append, List.mem_map]
    simp only [Prod.mk.injEq]

def sampleMember (name : List Char) (content : Bytes) : TarInfo where
  name
  mode := 33188
  uid := 1000
  gid := 1000
  mtime := .whole 1700000000
  type := REGTYPE
  linkname := []
  uname := ['w', 'a', 'v', 'r']
  gname := ['w', 'a', 'v', 'r']
  content

def sampleMembers : List TarInfo :=
  [sampleMember "index.html".toList [60, 112, 62], sampleMember "js/app.js".toList [59]]

theorem plainly_sample : ∀ m ∈ sampleMembers, Plainly m := by
  have hid : (0 : ℤ) ≤ 1000 ∧ (1000 : ℤ) < 8 ^ 7 := by decide
  have howner : Fits 32 ['w', 'a', 'v', 'r'] := by decide
  have hlink : Fits 100 [] := by decide
  have h : ∀ name content, Fits 100 name → '\x00' ∉ name → trim name = name →
      validatePathComponents name = .ok () → validateFileName name = .ok () →
      (content.length : ℤ) ≤ MAX_ENTRY_BYTES → Plainly (sampleMember name content) :=
    fun name content hname hnul htrim hpath hfile hsize =>
      ⟨rfl, ⟨1700000000, rfl, by decide, by decide⟩, hid, hid, howner, howner, hlink, hname, hnul, htrim, hpath,
        hfile, hsize⟩
  intro m hm
  rw [sampleMembers, List.mem_cons, List.mem_singleton] at hm
  rcases hm with rfl | rfl
  · exact h _ _ (by decide +kernel) (by decide +kernel) (by decide +kernel) (by decide +kernel) (by decide +kernel)
      (by decide)
  · exact h _ _ (by decide +kernel) (by decide +kernel) (by decide +kernel) (by decide +kernel) (by decide +kernel)
      (by decide)

theorem extract_plain_sample :
    ∃ tar tree, archive sampleMembers = some tar ∧ extract [['w', 'e', 'b']] tar = (.ok (), tree) ∧
      ∀ p c, tree.get? p = some (.file c) ↔ ∃ m ∈ sampleMembers, place m.name = p ∧ m.content = c :=
  extract_plain [['w', 'e', 'b']] sampleMembers plainly_sample ⟨_, List.mem_cons_self, rfl⟩ (by decide)
    (by decide +kernel) (by decide +kernel)

/-! ## An entry that counts backwards -/

/-- `"-70000000000"`, which fills the field. -/
def backwardsSize : Bytes := [45, 55, 48, 48, 48, 48, 48, 48, 48, 48, 48, 48]

/-- A file `a.txt` of that size. -/
def backwardsEntry : Bytes :=
  [97, 46, 116, 120, 116] ++ List.replicate 95 0 ++ (List.replicate 24 0 ++ (backwardsSize ++
    (List.replicate 20 0 ++ (REGTYPE :: (List.replicate 188 0 ++ (List.replicate 155 0 ++ List.replicate 12 0))))))

def backwardsName : List Char := "a.txt".toList

theorem layout_backwards :
    Layout backwardsEntry ([97, 46, 116, 120, 116] ++ List.replicate 95 0) backwardsSize REGTYPE :=
  layout_of_append rfl rfl rfl rfl rfl rfl rfl

variable (dest) in
/-- It is taken, as an empty file, and the total goes down. -/
theorem entry_backwards (rest : Bytes) :
    ∃ tree, entry (canonical dest) backwardsEntry rest ⟨.empty, 0, false⟩ = (.ok rest, ⟨tree, - (7 * 8 ^ 10), false⟩) ∧
      tree.Holds [(place backwardsName, [])] := by
  have hl := layout_backwards
  have hsize : parseOctalSize backwardsEntry = .ok (- (7 * 8 ^ 10)) := by decide +kernel
  have hname : combinedName backwardsEntry = backwardsName := by decide +kernel
  have hpath : validatePathComponents backwardsName = .ok () := by decide +kernel
  have hfile : validateFileName backwardsName = .ok () := by decide +kernel
  have hne : place backwardsName ≠ [] := by decide +kernel
  have hroot : (place backwardsName).dropLast = [] := by decide +kernel
  have hdir : DirTree.isDirectory (Dict.empty : Tree) (place backwardsName).dropLast = true := by
    rw [hroot]
    rfl
  have hcopy : copyExact rest (- (7 * 8 ^ 10)) = ([], .ok rest) := by
    have hneg : (- (7 * 8 ^ 10) : ℤ).toNat = 0 := by decide
    unfold copyExact
    rw [hneg, List.take_zero, List.drop_zero, if_pos (Nat.zero_le _)]
  have hskip : skipPadding rest (- (7 * 8 ^ 10)) = .ok rest := by
    have hrem : (- (7 * 8 ^ 10) : ℤ).tmod BLOCK = 0 := by decide
    unfold skipPadding
    rw [hrem]
    rfl
  have hindex : decide (backwardsName = "index.html".toList) = false := by decide +kernel
  obtain ⟨tree, hwrite, hholds⟩ := (DirTree.holds_empty (ν := List Char) (κ := Bytes)).put
    (fun _ h => by cases h) hne (.inl ⟨rfl, hdir⟩) []
  refine ⟨tree, ?_, hholds⟩
  unfold entry
  rw [hsize, hname, hl.type]
  show regularFile (canonical dest) backwardsName (- (7 * 8 ^ 10)) rest ⟨.empty, 0, false⟩ = _
  unfold regularFile
  rw [hpath, hfile]
  dsimp only
  rw [if_neg (by decide), if_neg (by decide), safeResolve_eq hpath]
  dsimp only
  rw [makeParent, if_pos hdir]
  unfold writeEntry
  dsimp only
  rw [hcopy]
  dsimp only
  rw [hwrite]
  dsimp only
  rw [hskip, hindex]
  rfl

/-- Behind one such entry the cap on the total lets 7 GiB more through: what it is to keep out is
unpacked in full. -/
theorem extract_past_cap (dest : Path) (ms : List TarInfo) (hplain : ∀ m ∈ ms, Plainly m)
    (hindex : ∃ m ∈ ms, m.name = "index.html".toList) (hcount : ms.length < MAX_ENTRIES)
    (htotal : ((ms.map fun m => m.content.length).sum : ℕ) ≤ 7 * 8 ^ 10 + MAX_TOTAL_BYTES)
    (hfree : (place backwardsName :: ms.map fun m => place m.name).Pairwise fun p q => ¬ p <+: q ∧ ¬ q <+: p) :
    ∃ tar tree, archive ms = some tar ∧ extract dest (backwardsEntry ++ tar) = (.ok (), tree) ∧
      ∀ p c, tree.get? p = some (.file c) ↔
        (p, c) = (place backwardsName, []) ∨ ∃ m ∈ ms, place m.name = p ∧ m.content = c := by
  obtain ⟨parts, hparts⟩ := OptionList.mapM_of_exists (f := addfile) fun m hm =>
    ⟨_, (addfile_plain (hplain m hm)).choose_spec.1⟩
  obtain ⟨rest, hrest⟩ := finishArchive_eq parts.flatten
  obtain ⟨tree, hentry, hfirst⟩ := entry_backwards dest
    (parts.flatten ++ (List.replicate BLOCK 0 ++ rest))
  obtain ⟨s', hloop, hholds, hsaw⟩ := extractLoop_plain dest hparts hplain 3999
    (Nat.le_of_lt_succ hcount) rest (s := ⟨tree, - (7 * 8 ^ 10), false⟩) hfirst (by simpa using hfree)
    (by dsimp only; omega)
  refine ⟨finishArchive parts.flatten, s'.tree, ?_, ?_, fun p c => ?_⟩
  · rw [archive, hparts]
    rfl
  · have hany : s'.sawIndex = true := by
      obtain ⟨m, hm, hname⟩ := hindex
      rw [hsaw, Bool.false_or, List.any_eq_true]
      exact ⟨m, hm, decide_eq_true hname⟩
    unfold extract
    rw [hrest, show MAX_ENTRIES = 3999 + 1 from rfl, extractLoop_block 3999 layout_backwards.length
      (layout_backwards.nonzero (by decide)), hentry]
    dsimp only
    rw [hloop]
    dsimp only
    rw [if_pos hany]
  · rw [hholds.file, List.mem_append, List.mem_singleton, List.mem_map]
    simp only [Prod.mk.injEq]

theorem extract_past_cap_sample :
    ∃ tar tree, archive sampleMembers = some tar ∧
      extract [['w', 'e', 'b']] (backwardsEntry ++ tar) = (.ok (), tree) ∧
      ∀ p c, tree.get? p = some (.file c) ↔
        (p, c) = (place backwardsName, []) ∨ ∃ m ∈ sampleMembers, place m.name = p ∧ m.content = c :=
  extract_past_cap [['w', 'e', 'b']] sampleMembers plainly_sample ⟨_, List.mem_cons_self, rfl⟩ (by decide)
    (by decide +kernel) (by decide +kernel)

end

end Wavr.OtaBundle
