import Wavr.IpAddress
import Wavr.Text

/-!
# Splitting a URL

`urllib.parse.urlsplit` of Python 3.11 and the accessors of its result, over the characters
of the URL, and `quote` with no safe characters.
-/

namespace Wavr.UrlSplit
open Text

structure SplitResult where
  scheme : List Char
  netloc : List Char
  path : List Char
  query : List Char
  fragment : List Char
  deriving DecidableEq

/-- `_WHATWG_C0_CONTROL_OR_SPACE`. -/
def isC0OrSpace (c : Char) : Bool := c ≤ ' '

/-- `_UNSAFE_URL_BYTES_TO_REMOVE`. -/
def isUnsafe (c : Char) : Bool := c = '\t' ∨ c = '\r' ∨ c = '\n'

def clean (s : List Char) : List Char := s.filter fun c => ¬ isUnsafe c

def isAsciiAlpha (c : Char) : Bool := ('a' ≤ c ∧ c ≤ 'z') ∨ ('A' ≤ c ∧ c ≤ 'Z')

/-- `scheme_chars`. -/
def isSchemeChar (c : Char) : Bool :=
  isAsciiAlpha c ∨ IpAddress.isDecDigit c ∨ c = '+' ∨ c = '-' ∨ c = '.'

def splitScheme (url : List Char) : List Char × List Char :=
  let s := before ':' url
  if ':' ∈ url ∧ s.head?.any isAsciiAlpha ∧ s.all isSchemeChar then
    (s.map Char.toLower, after ':' url)
  else ([], url)

/-- What ends the authority. -/
def isDelim (c : Char) : Bool := c = '/' ∨ c = '?' ∨ c = '#'

/-- `_splitnetloc`. -/
def authority (s : List Char) : List Char := s.takeWhile fun c => ¬ isDelim c

def behind (s : List Char) : List Char := s.dropWhile fun c => ¬ isDelim c

/-- `_check_bracketed_host`. -/
def checkBracketedHost (h : List Char) : Bool :=
  match h with
  | 'v' :: t =>
    let rest := t.dropWhile IpAddress.isHexDigit
    t.head?.any IpAddress.isHexDigit ∧ rest.head? = some '.' ∧ rest.tail ≠ [] ∧ '\n' ∉ rest.tail
  | _ =>
    match IpAddress.ipAddress h with
    | some (.v6 _ _) => true
    | _ => false

/-- The brackets of an authority pair up, around something that may stand in brackets. -/
def bracketsOk (netloc : List Char) : Bool :=
  if '[' ∈ netloc ∧ ']' ∈ netloc then checkBracketedHost (before ']' (after '[' netloc))
  else '[' ∉ netloc ∧ ']' ∉ netloc

/-- The characters whose NFKC form contains one of `/?#@:`. -/
def nfkcUnsafe : List Char :=
  ['\u2047', '\u2048', '\u2049', '\u2100', '\u2101', '\u2105', '\u2106', '\u2a74', '\ufe13',
    '\ufe16', '\ufe55', '\ufe56', '\ufe5f', '\ufe6b', '\uff03', '\uff0f', '\uff1a', '\uff1f',
    '\uff20']

/-- `_checknetloc`. -/
def checkNetloc (netloc : List Char) : Bool := netloc.all (· ∉ nfkcUnsafe)

/-- The part of `urlsplit` behind the scheme. -/
def splitRest (scheme netloc url : List Char) : Option SplitResult :=
  let fragment := after '#' url
  let url := before '#' url
  let query := after '?' url
  let path := before '?' url
  if checkNetloc netloc then some { scheme, netloc, path, query, fragment } else none

/-- `none` is the ValueError. -/
def urlsplit (url : List Char) : Option SplitResult :=
  let url := clean (url.dropWhile isC0OrSpace)
  let (scheme, url) := splitScheme url
  match url with
  | '/' :: '/' :: rest =>
    if bracketsOk (authority rest) then splitRest scheme (authority rest) (behind rest) else none
  | url => splitRest scheme [] url

inductive Port
  | absent
  | number (n : ℕ)
  /-- Reading it raises ValueError. -/
  | invalid
  deriving DecidableEq

/-- Host and port as written, behind the userinfo. -/
def hostinfo (netloc : List Char) : List Char := afterLast '@' netloc

def hostOfInfo (info : List Char) : Option (List Char) :=
  let host := if '[' ∈ info then before ']' (after '[' info) else before ':' info
  if host = [] then none
  else
    -- the zone of a scoped address keeps its case
    let zone := host.dropWhile (· ≠ '%')
    some (lowerList (before '%' host) ++ zone)

def portOfInfo (info : List Char) : Port :=
  let port := if '[' ∈ info then after ':' (after ']' (after '[' info)) else after ':' info
  if port = [] then .absent
  else if port.all IpAddress.isDecDigit then
    let n := IpAddress.digitsValue 10 port
    if n ≤ 65535 then .number n else .invalid
  else .invalid

def SplitResult.hostname (v : SplitResult) : Option (List Char) := hostOfInfo (hostinfo v.netloc)

def SplitResult.port (v : SplitResult) : Port := portOfInfo (hostinfo v.netloc)

def SplitResult.username (v : SplitResult) : Option (List Char) :=
  if '@' ∈ v.netloc then some (before ':' (beforeLast '@' v.netloc)) else none

def SplitResult.password (v : SplitResult) : Option (List Char) :=
  let userinfo := beforeLast '@' v.netloc
  if '@' ∈ v.netloc ∧ ':' ∈ userinfo then some (after ':' userinfo) else none

/-- Where a URL leads: host, port and path. -/
def target (url : List Char) : Option (Option (List Char) × Port × List Char) :=
  (urlsplit url).map fun v => (v.hostname, v.port, v.path)

/-! ## `quote` -/

/-- `_ALWAYS_SAFE`. -/
def isAlwaysSafe (c : Char) : Bool :=
  isAsciiAlpha c ∨ IpAddress.isDecDigit c ∨ c = '_' ∨ c = '.' ∨ c = '-' ∨ c = '~'

def upperHex (n : ℕ) : Char := if n < 10 then Char.ofNat (48 + n) else Char.ofNat (55 + n)

/-- `quote(s, safe='')`. -/
def quote (s : List Char) : List Char :=
  s.flatMap fun c =>
    if isAlwaysSafe c then [c]
    else (String.utf8EncodeChar c).flatMap fun b =>
      ['%', upperHex (b.toNat / 16), upperHex (b.toNat % 16)]

/-- What `quote` writes. -/
def isQuoted (c : Char) : Bool := isAlwaysSafe c ∨ c = '%'

theorem isQuoted_upperHex {n : ℕ} (h : n < 16) : isQuoted (upperHex n) = true := by
  have hall : ∀ m ∈ List.range 16, isQuoted (upperHex m) = true := by decide +kernel
  exact hall n (List.mem_range.mpr h)

theorem isQuoted_of_mem_quote {s : List Char} {c : Char} (h : c ∈ quote s) : isQuoted c = true := by
  obtain ⟨x, -, hx⟩ := List.mem_flatMap.mp h
  split at hx
  · rename_i hs
    rw [List.mem_singleton.mp hx]
    simp [isQuoted, hs]
  · obtain ⟨b, -, hb⟩ := List.mem_flatMap.mp hx
    have hlt : b.toNat < 256 := b.toNat_lt
    simp only [List.mem_cons, List.not_mem_nil, or_false] at hb
    rcases hb with rfl | rfl | rfl
    · rfl
    · exact isQuoted_upperHex (by omega)
    · exact isQuoted_upperHex (by omega)

/-- Text that means nothing to `urlsplit` inside an authority. -/
def Plain (s : List Char) : Prop := ∀ c ∈ s, isQuoted c = true ∨ c = ':'

theorem plain_quote (s : List Char) : Plain (quote s) := fun _ h => .inl (isQuoted_of_mem_quote h)

theorem plain_credentials (u p : List Char) : Plain (quote u ++ ':' :: quote p) := by
  intro c h
  rcases List.mem_append.mp h with h | h
  · exact plain_quote u c h
  · rcases List.mem_cons.mp h with rfl | h
    · exact .inr rfl
    · exact plain_quote p c h

/-- A character that `quote` writes, or a colon, is none of the others. -/
theorem Plain.not_mem {s : List Char} (h : Plain s) {c : Char} (hc : isQuoted c = false)
    (hne : c ≠ ':') : c ∉ s := by
  intro hm
  rcases h c hm with hq | rfl
  · rw [hc] at hq
    cases hq
  · exact hne rfl

theorem not_isDelim_of_plain {c : Char} (h : isQuoted c = true ∨ c = ':') : isDelim c = false := by
  by_contra hd
  simp only [isDelim, Bool.not_eq_false, decide_eq_true_eq] at hd
  rcases hd with rfl | rfl | rfl <;> revert h <;> decide

theorem not_isUnsafe_of_plain {c : Char} (h : isQuoted c = true ∨ c = ':') : isUnsafe c = false := by
  by_contra hd
  simp only [isUnsafe, Bool.not_eq_false, decide_eq_true_eq] at hd
  rcases hd with rfl | rfl | rfl <;> revert h <;> decide

theorem not_mem_nfkcUnsafe_of_plain {c : Char} (h : isQuoted c = true ∨ c = ':') :
    c ∉ nfkcUnsafe := by
  intro hm
  have hall : (nfkcUnsafe.all fun x => ¬ (isQuoted x = true ∨ x = ':')) = true := by decide +kernel
  exact absurd h (by simpa using List.all_eq_true.mp hall c hm)

/-! ## How the parts compose -/

@[simp] theorem clean_append (a b : List Char) : clean (a ++ b) = clean a ++ clean b :=
  List.filter_append a b

theorem clean_cons {c : Char} (h : isUnsafe c = false) (b : List Char) :
    clean (c :: b) = c :: clean b := by
  simp [clean, h]

theorem clean_of_plain {s : List Char} (h : Plain s) : clean s = s :=
  List.filter_eq_self.mpr fun c hc => by simp [not_isUnsafe_of_plain (h c hc)]

theorem mem_clean {c : Char} (h : isUnsafe c = false) {s : List Char} : c ∈ clean s ↔ c ∈ s := by
  simp [clean, h]

/-- Cleaning commutes with taking the text behind the last `@`. -/
theorem clean_afterLast (s : List Char) : clean (afterLast '@' s) = afterLast '@' (clean s) := by
  by_cases h : '@' ∈ s
  · obtain ⟨a, b, rfl, hb⟩ := exists_last h
    rw [afterLast_append_cons hb, clean_append, clean_cons (by decide),
      afterLast_append_cons (by rwa [mem_clean (by decide)])]
  · rw [afterLast_of_not_mem h, afterLast_of_not_mem (by rwa [mem_clean (by decide)])]

theorem authority_append_behind (s : List Char) : authority s ++ behind s = s :=
  List.takeWhile_append_dropWhile

theorem authority_append {a : List Char} (h : ∀ c ∈ a, isDelim c = false) (b : List Char) :
    authority (a ++ b) = a ++ authority b :=
  List.takeWhile_append_of_pos fun c hc => by simp [h c hc]

theorem behind_append {a : List Char} (h : ∀ c ∈ a, isDelim c = false) (b : List Char) :
    behind (a ++ b) = behind b :=
  List.dropWhile_append_of_pos fun c hc => by simp [h c hc]

theorem not_isDelim_of_mem_authority {s : List Char} {c : Char} (h : c ∈ authority s) :
    isDelim c = false := by
  simpa using List.mem_takeWhile_imp h

@[simp] theorem authority_behind (s : List Char) : authority (behind s) = [] := by
  unfold authority behind
  induction s with
  | nil => rfl
  | cons c s ih =>
    by_cases h : isDelim c = true
    · simp [h]
    · simpa [h] using ih

@[simp] theorem behind_behind (s : List Char) : behind (behind s) = behind s := by
  have h := authority_append_behind (behind s)
  rwa [authority_behind, List.nil_append] at h

theorem bracketsOk_append {a : List Char} (h1 : '[' ∉ a) (h2 : ']' ∉ a) (b : List Char) :
    bracketsOk (a ++ b) = bracketsOk b := by
  unfold bracketsOk
  simp [h1, h2, after_append h1]

theorem checkNetloc_append (a b : List Char) :
    checkNetloc (a ++ b) = (checkNetloc a && checkNetloc b) := by
  simp [checkNetloc]

theorem checkNetloc_of_plain {a : List Char} (h : Plain a) : checkNetloc a = true := by
  simpa [checkNetloc] using fun c hc => not_mem_nfkcUnsafe_of_plain (h c hc)

end Wavr.UrlSplit
