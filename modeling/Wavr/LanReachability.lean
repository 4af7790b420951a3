import Mathlib
import Wavr.Dict
import Wavr.Lines
import Wavr.Text

/-!
# What the firewall would do

The parser of `netsh` and the verdict over its rules.
-/

namespace Wavr.LanReachability
open Lines Text

/-- Python's tables of characters: `str.lower`, `str.isdigit` and the digits `int` reads. -/
structure Unicode where
  lower : List Char → List Char
  isdigit : Char → Bool
  decimal : Char → Option ℕ
  lower_ascii : ∀ s : List Char, (∀ c ∈ s, c.toNat < 128) → lower s = s.map Char.toLower
  lower_blank : ∀ s t, lower (s ++ ' ' :: t) = lower s ++ ' ' :: lower t
  isdigit_ascii : ∀ c : Char, c.toNat < 128 → isdigit c = c.isDigit
  decimal_ascii : ∀ c : Char, c.isDigit = true → decimal c = some (c.toNat - 48)

/-- The tables for ASCII. -/
def asciiTables : Unicode where
  lower := List.map Char.toLower
  isdigit := Char.isDigit
  decimal c := some (c.toNat - 48)
  lower_ascii := fun _ _ => rfl
  lower_blank := fun s t => by simp
  isdigit_ascii := fun _ _ => rfl
  decimal_ascii := fun _ _ => rfl

/-- More digits than this, and `int` of a text raises. -/
def MAX_STR_DIGITS : ℕ := 4300

/-- `int` of a text of digits; none where it raises. -/
def pyInt (u : Unicode) (token : List Char) : Option ℕ :=
  if token.length ≤ MAX_STR_DIGITS then (token.mapM u.decimal).map fun ds => ds.foldl (fun n d => n * 10 + d) 0
  else none

inductive Profile where
  | onDomain
  | onPrivate
  | onPublic
  deriving DecidableEq

def Profile.text : Profile → String
  | .onDomain => "domain"
  | .onPrivate => "private"
  | .onPublic => "public"

def PERFIS : List Profile := [.onDomain, .onPrivate, .onPublic]

inductive State where
  | blocked
  | allowed
  | unknown
  deriving DecidableEq

structure Reachability where
  state : State
  reason : String
  rules : List (List Char)
  checked : Bool
  deriving DecidableEq

abbrev Block := Dict (List Char) (List Char)

def isSep (c : Char) : Bool := c = '\\' ∨ c = '/'

/-- The last component of a path. -/
def tailOf (p : List Char) : List Char := (p.reverse.takeWhile fun c => ¬ isSep c).reverse

/-- What stands behind the next separator. -/
def behindSep (p : List Char) : List Char := (p.dropWhile fun c => ¬ isSep c).drop 1

/-- `os.path.basename` of Windows. -/
def basename (p : List Char) : List Char :=
  match p with
  | a :: b :: rest =>
    if isSep a ∧ isSep b then
      -- a share: the drive is the host and the share
      let unc := ((p.take 8).map fun c => if c = '/' then '\\' else c.toUpper) = "\\\\?\\UNC\\".toList
      tailOf (behindSep (behindSep (if unc then p.drop 8 else rest)))
    else if b = ':' ∧ ¬ isSep a then tailOf rest
    else tailOf p
  | _ => tailOf p

def stripped (s : List Char) : List Char := stripOf isSpace s

def ANY_WORDS : List (List Char) := ["any".toList, "qualquer".toList, "alle".toList, "tous".toList]

def NO_WORDS : List (List Char) := ["no".toList, "não".toList, "nao".toList, "nein".toList, "non".toList]

def ALLOW_WORDS : List (List Char) :=
  ["allow".toList, "permitir".toList, "zulassen".toList, "autoriser".toList]

def BLOCK_WORDS : List (List Char) :=
  ["block".toList, "bloquear".toList, "blockieren".toList, "bloquer".toList]

section
variable (u : Unicode)

def word (value : List Char) : List Char := u.lower (stripped value)

/-! ## The parser -/

/-- A pair is committed once the next line proves it was no name. -/
def commit (current : Block) : Option (List Char × List Char) → Block
  | none => current
  | some (key, value) => current.set key value

def closed (out : List Block) (current : Block) : List Block :=
  if current.entries = [] then out else out ++ [current]

def blocksFrom : List (List Char) → List Block → Block → Option (List Char × List Char) → List Block
  | [], out, current, pendente => closed out (commit current pendente)
  | raw :: lines, out, current, pendente =>
    let line := stripped raw
    if line = [] then blocksFrom lines out current pendente
    else if line.all (· = '-') then blocksFrom lines (closed out current) (commit .empty pendente) none
    else if ':' ∈ line then
      blocksFrom lines out (commit current pendente)
        (some (u.lower (stripped (before ':' line)), stripped (after ':' line)))
    else blocksFrom lines out current pendente

def blocks (text : List Char) : List Block := blocksFrom u (splitlines text) [] .empty none

/-! ## One rule -/

/-- The profiles that a value lists, where it is such a list. -/
def profileList (value : List Char) : Option (List Profile) :=
  if word u value ∈ ANY_WORDS then none
  else ((word u value).splitOn ',').mapM fun p => PERFIS.find? fun q => q.text.toList = stripped p

def profilesOf (block : Block) : List Profile := (block.values.findSome? (profileList u)).getD PERFIS

inductive Verdict where
  | allow
  | block
  deriving DecidableEq

def actionWord (value : List Char) : Option Verdict :=
  if word u value ∈ ALLOW_WORDS then some .allow
  else if word u value ∈ BLOCK_WORDS then some .block
  else none

def verdictOf (block : Block) : Option Verdict := block.values.findSome? (actionWord u)

def isNo (value : List Char) : Bool := word u value ∈ NO_WORDS

def enabled (block : Block) : Bool := ¬ block.values.any (isNo u)

/-- The pieces of a value between commas and blanks; empty ones are no numbers. -/
def tokens (value : List Char) : List (List Char) :=
  ((stripped value).splitOnP fun c => c = ',' ∨ isSpace c).filter (· ≠ [])

/-- Whether a token is the port; none where `int` raises before. -/
def scanPort (port : ℕ) : List (List Char) → Option Bool
  | [] => some false
  | token :: rest =>
    if token.all u.isdigit then
      match pyInt u token with
      | none => none
      | some n => if n = port then some true else scanPort port rest
    else scanPort port rest

/-- The program, or at least its file name, stands in the text. -/
def named (program text : List Char) : Bool :=
  let prog := u.lower program
  (prog ≠ [] ∧ prog <:+: text) ∨ (basename prog ≠ [] ∧ basename prog <:+: text)

/-- None where it raises. -/
def matchesRule (block : Block) (program : List Char) (port : ℕ) : Option Bool :=
  if named u program (u.lower ([' '].intercalate block.values)) then some true
  else if port ≠ 0 then scanPort u port (block.values.flatMap tokens)
  else some false

def isNameKey (key : List Char) : Bool :=
  "name".toList <:+: key ∧ ¬ "program".toList <:+: key ∧ ¬ "group".toList <:+: key

def rotulo (block : Block) : List Char :=
  let name := ((block.entries.find? fun e => isNameKey e.1).map Prod.snd).getD []
  if name = [] then "(unnamed rule)".toList else name

/-! ## All rules -/

structure Tally where
  blocking : List (List Char) := []
  allowing : List (List Char) := []
  foraDoPerfil : List (List Char) := []

def tallyBlock (ativos : Finset Profile) (program : List Char) (port : ℕ) (t : Tally) (block : Block) :
    Option Tally :=
  (matchesRule u block program port).map fun hit : Bool =>
    if ¬ hit then t
    else if ¬ enabled u block then t
    else if ativos.Nonempty ∧ ¬ ∃ p ∈ profilesOf u block, p ∈ ativos then
      if verdictOf u block = some .allow then { t with foraDoPerfil := t.foraDoPerfil ++ [rotulo block] } else t
    else
      match verdictOf u block with
      | some .block => { t with blocking := t.blocking ++ [rotulo block] }
      | some .allow => { t with allowing := t.allowing ++ [rotulo block] }
      | none => t

/-- `", ".join(sorted(ativos))`. -/
def profileNames (ativos : Finset Profile) : String :=
  ", ".intercalate ((PERFIS.filter (· ∈ ativos)).map Profile.text)

def verdict (ativos : Finset Profile) (t : Tally) : Reachability :=
  if t.blocking ≠ [] then
    ⟨.blocked, "an enabled inbound BLOCK rule matches this Core; Windows refuses the connection " ++
      "before it reaches us", t.blocking, true⟩
  else if t.allowing ≠ [] then
    let escopo :=
      if ativos.Nonempty then
        "and applies to the network profile this machine is on (" ++ profileNames ativos ++ ")"
      else "though which network profile this machine is on could not be read, " ++
        "so whether the rule applies here is not established"
    ⟨.allowed, "an enabled inbound ALLOW rule matches this Core, " ++ escopo, t.allowing, true⟩
  else if t.foraDoPerfil ≠ [] then
    ⟨.unknown, "the only ALLOW rules for this Core apply to a different network profile than the one " ++
      "this machine is on (" ++ profileNames ativos ++ "), so they do not let anything through right now",
      t.foraDoPerfil, true⟩
  else
    ⟨.unknown, "no inbound rule mentions this Core; Windows will decide on the next bind, " ++
      "and the default inbound action is to refuse", [], true⟩

/-- None where it raises. -/
def compute (isWindows : Bool) (netshRules : List Char) (ativos : Finset Profile) (program : List Char)
    (port : ℕ) :
    Option Reachability :=
  if ¬ isWindows then some ⟨.unknown, "not Windows; no firewall query implemented", [], false⟩
  else if stripped netshRules = [] then
    some ⟨.unknown, "the firewall query returned nothing (timed out, blocked, or netsh is absent)", [], false⟩
  else ((blocks u netshRules).foldlM (tallyBlock u ativos program port) {}).map (verdict ativos)

end

end Wavr.LanReachability
