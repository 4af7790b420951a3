import Mathlib.Data.Finset.Sort
import Wavr.Dict
import Wavr.Json
import Wavr.Lines

/-!
# The loop of the assistant

A language model answers in text; a line `TOOL: name {json}` of its answer asks for a tool, a line
`ANSWER: …` ends the loop. The model is whatever it is: a function of all it has been sent.
-/

namespace Wavr.Assistant
open Text Lines

/-! ## Directives -/

/-- Characters that `re.IGNORECASE` takes for one ASCII letter. -/
def foldCase (c : Char) : Char :=
  if c = '\u017f' then 's' else if c = '\u212a' then 'k' else if c = '\u0130' ∨ c = '\u0131' then 'i'
  else c.toLower

/-- What follows a word at the front. -/
def afterWord (word s : List Char) : Option (List Char) :=
  if (s.take word.length).map foldCase = word then some (s.drop word.length) else none

def isNameStart (c : Char) : Bool := ('a' ≤ foldCase c ∧ foldCase c ≤ 'z') ∨ c = '_'

def isNameChar (c : Char) : Bool := isNameStart c ∨ ('0' ≤ c ∧ c ≤ '9')

/-- `_TOOL_LINE_RE`: the name, and the braces with what is in them. -/
def toolLine (line : List Char) : Option (List Char × Option (List Char)) :=
  match afterWord "tool:".toList (line.dropWhile isSpace) with
  | none => none
  | some rest =>
    let rest := rest.dropWhile isSpace
    let name := rest.takeWhile isNameChar
    let args := stripOf isSpace (rest.dropWhile isNameChar)
    if ¬ name.head?.any isNameStart then none
    else if args = [] then some (name, none)
    else if args.head? = some '{' ∧ args.getLast? = some '}' then some (name, some args)
    else none

/-- `_ANSWER_LINE_RE`. -/
def answerLine (line : List Char) : Option (List Char) :=
  (afterWord "answer:".toList (line.dropWhile isSpace)).map (·.dropWhile isSpace)

variable {F σ σ' : Type}

abbrev Args (F : Type) := List (String × Json F)

/-- What `json.loads` comes to. -/
inductive Loaded (F : Type)
  | value (v : Json F)
  /-- JSONDecodeError. -/
  | undecodable
  /-- An error of another kind: digits beyond the limit of `int`, say. -/
  | raised (kind : String)

def findToolLine (raw : String) : Option (List Char × Option (List Char)) :=
  (splitlines raw.toList).findSome? toolLine

/-- The arguments of a call: those that are no object count as none. -/
def readArgs (loads : String → Loaded F) : Option (List Char) → Except String (Args F)
  | none => .ok []
  | some args =>
    match loads (String.ofList args) with
    | .value (.obj fields) => .ok fields
    | .value _ => .ok []
    | .undecodable => .ok []
    | .raised kind => .error kind

def findToolCall (loads : String → Loaded F) (raw : String) : Except String (Option (String × Args F)) :=
  match findToolLine raw with
  | none => .ok none
  | some (name, args) => (readArgs loads args).map fun args => some (String.ofList name, args)

def joinLines (lines : List (List Char)) : List Char := ['\n'].intercalate lines

def findAnswerFrom : List (List Char) → Option String
  | [] => none
  | line :: lines =>
    match answerLine line with
    | some body => some (strip (String.ofList (joinLines (body :: lines))))
    | none => findAnswerFrom lines

def findAnswer (raw : String) : Option String := findAnswerFrom (splitlines raw.toList)

/-! ## Prompts -/

def toolLines (toolScope : Finset String) : String :=
  if toolScope = ∅ then "(none available)"
  else String.intercalate "\n" ((sortedSet toolScope).map ("- " ++ ·))

def buildPrompt (question : String) (toolScope : Finset String) (transcript : List String) : String :=
  String.intercalate "\n" ([
    "You are Wavr's home assistant. Answer ONLY using tool results below; " ++
      "never invent data about the house.",
    "Available tools (call at most one per reply):",
    toolLines toolScope,
    "",
    "To call a tool, reply with EXACTLY one line: TOOL: <tool_name> \x7b\"arg\": \"value\"\x7d",
    "When you have enough information, reply with: ANSWER: <your final answer>",
    "If the answer cannot be found in the tool results, say so plainly -- never guess.",
    "",
    "User question: " ++ question] ++
  if transcript = [] then [] else ["", "Steps so far:"] ++ transcript)

def OUT_OF_CALLS : String :=
  "\n\nYou are out of tool calls. Answer now using only the information " ++
    "above; if it is not enough, say plainly that you don't have enough " ++
    "information -- never guess."

/-! ## The loop -/

/-- What a call of `generate` comes to. -/
inductive Completion
  | text (raw : Option String)
  | raised (kind : String)

/-- The engine, given all prompts of the conversation, the one to complete last. -/
abbrev Generate := List String → Completion

/-- What a tool comes to. -/
inductive Outcome (F : Type)
  | result (v : Json F)
  | timedOut
  | failed

/-- A tool reads the app it runs in, and may leave it changed. -/
abbrev Tool (F σ : Type) := Args F → σ → Outcome F × σ

inductive Entry
  | tool (step : ℤ) (name : String) (ok : Bool)
  | final (step : ℤ) (forced : Bool)
  deriving DecidableEq

/-- What the loop leaves behind: what it returns, what it sent and what it ran. -/
structure Log (F : Type) where
  transcript : List String
  trace : List Entry
  toolNamesCalled : List String
  prompts : List String
  ran : List (String × Args F)

structure Ask (F σ : Type) where
  log : Log F
  app : σ

inductive Ended
  | answered (answer : String)
  /-- AssistantError, with the name of the exception's type. -/
  | engineFailed (kind : String)
  /-- Another exception. -/
  | escaped (kind : String)
  deriving DecidableEq

/-- Who talks about what, and with which tools within reach. -/
structure Dialogue (F : Type) where
  question : String
  generate : Generate
  toolScope : Finset String
  dumps : Json F → String
  loads : String → Loaded F

/-- The app around it. -/
structure Setting (F σ : Type) extends Dialogue F where
  tools : Dict String (Tool F σ)
  /-- What happens in the app while the engine completes its n-th prompt. -/
  meanwhile : ℕ → σ → σ

def OBSERVATION_MAX_CHARS : ℕ := 4000

section
variable (S : Setting F σ)

def Log.sent (l : Log F) (prompt : String) : Log F := { l with prompts := l.prompts ++ [prompt] }

/-- `_call_generate`. -/
def callGenerate (prompt : String) (a : Ask F σ) : Except String String × Ask F σ :=
  let log := a.log.sent prompt
  (match S.generate log.prompts with
    | .text raw => .ok (strip (raw.getD ""))
    | .raised kind => .error kind, ⟨log, S.meanwhile log.prompts.length a.app⟩)

/-- What the engine is told of a tool, and whether it went well. -/
def observe (name : String) : Outcome F → String × Bool
  | .result v => (truncate OBSERVATION_MAX_CHARS (S.dumps v), true)
  | .timedOut => ("tool '" ++ name ++ "' timed out", false)
  | .failed => ("tool '" ++ name ++ "' failed", false)

def refusal (name : String) : String := "refused: '" ++ name ++ "' is not permitted for this engine"

/-- A step of the transcript. -/
def Log.observed (l : Log F) (step : ℤ) (name : String) (args : Args F) (obs : String × Bool) : Log F :=
  { l with
    toolNamesCalled := l.toolNamesCalled ++ [name]
    trace := l.trace ++ [.tool step name obs.2]
    transcript := l.transcript ++
      ["TOOL: " ++ name ++ " " ++ S.dumps (.obj args), "Observation: " ++ obs.1] }

def Log.run (l : Log F) (name : String) (args : Args F) : Log F := { l with ran := l.ran ++ [(name, args)] }

/-- A call that the model asked for. -/
def callTool (step : ℤ) (name : String) (args : Args F) (a : Ask F σ) : Ask F σ :=
  match S.tools.get? name with
  | none => ⟨a.log.observed S step name args (refusal name, false), a.app⟩
  | some tool =>
    if name ∉ S.toolScope then ⟨a.log.observed S step name args (refusal name, false), a.app⟩
    else
      let done := tool args a.app
      ⟨(a.log.run name args).observed S step name args (observe S name done.1), done.2⟩

def Log.ended (l : Log F) (step : ℤ) (forced : Bool) : Log F :=
  { l with trace := l.trace ++ [.final step forced] }

/-- One turn of the loop: how it ended, if it did. -/
def turn (step : ℤ) (a : Ask F σ) : Option Ended × Ask F σ :=
  match callGenerate S (buildPrompt S.question S.toolScope a.log.transcript) a with
  | (.error kind, a) => (some (.engineFailed kind), a)
  | (.ok raw, a) =>
    match findToolCall S.loads raw with
    | .error kind => (some (.escaped kind), a)
    | .ok (some (name, args)) => (none, callTool S step name args a)
    | .ok none => (some (.answered ((findAnswer raw).getD raw)), ⟨a.log.ended step false, a.app⟩)

/-- `n` turns at most. -/
def turns : ℕ → ℤ → Ask F σ → Option Ended × Ask F σ
  | 0, _, a => (none, a)
  | n + 1, step, a =>
    match turn S step a with
    | (none, a) => turns n (step + 1) a
    | (some ended, a) => (some ended, a)

/-- The call for an answer when the budget is used up. -/
def force (step : ℤ) (a : Ask F σ) : Ended × Ask F σ :=
  match callGenerate S (buildPrompt S.question S.toolScope a.log.transcript ++ OUT_OF_CALLS) a with
  | (.error kind, a) => (.engineFailed kind, a)
  | (.ok raw, a) => (.answered ((findAnswer raw).getD raw), ⟨a.log.ended step true, a.app⟩)

def newLog : Log F := ⟨[], [], [], [], []⟩

def runAsk (maxSteps : ℤ) (app : σ) : Ended × Ask F σ :=
  match turns S maxSteps.toNat 1 ⟨newLog, app⟩ with
  | (some ended, a) => (ended, a)
  | (none, a) => force S (maxSteps + 1) a

end

/-! ## What the conversation can depend on -/

section
variable (R : σ → σ' → Prop) {S : Setting F σ} {S' : Setting F σ'}

/-- Two tools that related apps do not tell apart. -/
def ToolsAgree (tool : Tool F σ) (tool' : Tool F σ') : Prop :=
  ∀ args app app', R app app' → (tool args app).1 = (tool' args app').1 ∧ R (tool args app).2 (tool' args app').2

/-- The same dialogue in two apps whose tools agree as far as they are in scope. -/
structure Similar (S : Setting F σ) (S' : Setting F σ') : Prop where
  dialogue : S.toDialogue = S'.toDialogue
  tools : ∀ name ∈ S.toolScope, Option.Rel (ToolsAgree R) (S.tools.get? name) (S'.tools.get? name)
  meanwhile : ∀ n app app', R app app' → R (S.meanwhile n app) (S'.meanwhile n app')

def Same (a : Ask F σ) (a' : Ask F σ') : Prop := a.log = a'.log ∧ R a.app a'.app

variable {R} {a : Ask F σ} {a' : Ask F σ'}

theorem callGenerate_sim (h : Similar R S S') (ha : Same R a a') (prompt : String) :
    (callGenerate S prompt a).1 = (callGenerate S' prompt a').1 ∧
      Same R (callGenerate S prompt a).2 (callGenerate S' prompt a').2 := by
  have hg : S.generate = S'.generate := congrArg Dialogue.generate h.dialogue
  unfold callGenerate
  rw [hg, ha.1]
  exact ⟨rfl, rfl, h.meanwhile _ _ _ ha.2⟩

theorem observed_congr (h : S.toDialogue = S'.toDialogue) (l : Log F) (step : ℤ) (name : String) (args : Args F)
    (obs : String × Bool) : l.observed S step name args obs = l.observed S' step name args obs := by
  have hd : S.dumps = S'.dumps := congrArg Dialogue.dumps h
  unfold Log.observed
  rw [hd]

theorem observe_congr (h : S.toDialogue = S'.toDialogue) (name : String) (o : Outcome F) :
    observe S name o = observe S' name o := by
  have hd : S.dumps = S'.dumps := congrArg Dialogue.dumps h
  cases o with
  | result v => rw [observe, observe, hd]
  | timedOut => rfl
  | failed => rfl

theorem callTool_refused {name : String} (h : name ∈ S.toolScope → S.tools.get? name = none) (step : ℤ)
    (args : Args F) :
    callTool S step name args a = ⟨a.log.observed S step name args (refusal name, false), a.app⟩ := by
  unfold callTool
  cases htool : S.tools.get? name with
  | none => rfl
  | some tool => exact if_pos fun hn => by simp [h hn] at htool

theorem callTool_run {name : String} (h : name ∈ S.toolScope) {tool : Tool F σ}
    (htool : S.tools.get? name = some tool) (step : ℤ) (args : Args F) :
    callTool S step name args a = ⟨(a.log.run name args).observed S step name args
      (observe S name (tool args a.app).1), (tool args a.app).2⟩ := by
  unfold callTool
  rw [htool]
  exact if_neg (not_not.mpr h)

/-- What is out of scope is refused in both; what is in scope does the same in both. -/
theorem callTool_sim (h : Similar R S S') (ha : Same R a a') (step : ℤ) (name : String) (args : Args F) :
    Same R (callTool S step name args a) (callTool S' step name args a') := by
  have hs : S.toolScope = S'.toolScope := congrArg Dialogue.toolScope h.dialogue
  have hrefused (hr : name ∈ S.toolScope → S.tools.get? name = none)
      (hr' : name ∈ S.toolScope → S'.tools.get? name = none) :
      Same R (callTool S step name args a) (callTool S' step name args a') := by
    rw [callTool_refused hr, callTool_refused (hs ▸ hr')]
    exact ⟨by rw [ha.1, observed_congr h.dialogue], ha.2⟩
  by_cases hn : name ∈ S.toolScope
  · generalize ht : S.tools.get? name = t
    generalize ht' : S'.tools.get? name = t'
    have hrel : Option.Rel (ToolsAgree R) t t' := ht ▸ ht' ▸ h.tools name hn
    cases hrel with
    | none => exact hrefused (fun _ => ht) fun _ => ht'
    | some hagree =>
      obtain ⟨hout, happ⟩ := hagree args a.app a'.app ha.2
      rw [callTool_run hn ht, callTool_run (hs ▸ hn) ht']
      exact ⟨by rw [ha.1, hout, observe_congr h.dialogue, observed_congr h.dialogue], happ⟩
  · exact hrefused (absurd · hn) (absurd · hn)

theorem turn_sim (h : Similar R S S') (ha : Same R a a') (step : ℤ) :
    (turn S step a).1 = (turn S' step a').1 ∧ Same R (turn S step a).2 (turn S' step a').2 := by
  have hprompt : buildPrompt S.question S.toolScope a.log.transcript =
      buildPrompt S'.question S'.toolScope a'.log.transcript := by
    rw [congrArg Dialogue.question h.dialogue, congrArg Dialogue.toolScope h.dialogue, ha.1]
  have hloads : S.loads = S'.loads := congrArg Dialogue.loads h.dialogue
  obtain ⟨hsaid, hcall⟩ := callGenerate_sim h ha (buildPrompt S.question S.toolScope a.log.transcript)
  unfold turn
  rw [← hprompt, ← hloads]
  revert hsaid hcall
  rcases callGenerate S (buildPrompt S.question S.toolScope a.log.transcript) a with ⟨said, b⟩
  rcases callGenerate S' (buildPrompt S.question S.toolScope a.log.transcript) a' with ⟨said', b'⟩
  rintro hsaid hb
  obtain rfl : said = said' := hsaid
  cases said with
  | error kind => exact ⟨rfl, hb⟩
  | ok raw =>
    dsimp only
    cases findToolCall S.loads raw with
    | error kind => exact ⟨rfl, hb⟩
    | ok call =>
      cases call with
      | none => exact ⟨rfl, congrArg (Log.ended · step false) hb.1, hb.2⟩
      | some call => exact ⟨rfl, callTool_sim h hb step call.1 call.2⟩

theorem turns_sim (h : Similar R S S') (n : ℕ) (step : ℤ) (ha : Same R a a') :
    (turns S n step a).1 = (turns S' n step a').1 ∧ Same R (turns S n step a).2 (turns S' n step a').2 := by
  induction n generalizing step a a' with
  | zero => exact ⟨rfl, ha⟩
  | succ n ih =>
    obtain ⟨hended, hturn⟩ := turn_sim h ha step
    unfold turns
    revert hended hturn
    rcases turn S step a with ⟨e, b⟩
    rcases turn S' step a' with ⟨e', b'⟩
    rintro hended hb
    obtain rfl : e = e' := hended
    cases e with
    | none => exact ih (step + 1) hb
    | some ended => exact ⟨rfl, hb⟩

theorem force_sim (h : Similar R S S') (ha : Same R a a') (step : ℤ) :
    (force S step a).1 = (force S' step a').1 ∧ Same R (force S step a).2 (force S' step a').2 := by
  have hprompt : buildPrompt S.question S.toolScope a.log.transcript =
      buildPrompt S'.question S'.toolScope a'.log.transcript := by
    rw [congrArg Dialogue.question h.dialogue, congrArg Dialogue.toolScope h.dialogue, ha.1]
  obtain ⟨hsaid, hcall⟩ :=
    callGenerate_sim h ha (buildPrompt S.question S.toolScope a.log.transcript ++ OUT_OF_CALLS)
  unfold force
  rw [← hprompt]
  revert hsaid hcall
  rcases callGenerate S _ a with ⟨said, b⟩
  rcases callGenerate S' _ a' with ⟨said', b'⟩
  rintro hsaid hb
  obtain rfl : said = said' := hsaid
  cases said with
  | error kind => exact ⟨rfl, hb⟩
  | ok raw => exact ⟨rfl, congrArg (Log.ended · step true) hb.1, hb.2⟩

/-- A whole conversation: what was sent, run, traced and returned. -/
theorem runAsk_sim (h : Similar R S S') (maxSteps : ℤ) {app : σ} {app' : σ'} (happ : R app app') :
    (runAsk S maxSteps app).1 = (runAsk S' maxSteps app').1 ∧
      Same R (runAsk S maxSteps app).2 (runAsk S' maxSteps app').2 := by
  obtain ⟨hended, hturns⟩ := turns_sim h maxSteps.toNat 1 (show Same R ⟨newLog, app⟩ ⟨newLog, app'⟩ from ⟨rfl, happ⟩)
  unfold runAsk
  revert hended hturns
  rcases turns S maxSteps.toNat 1 ⟨newLog, app⟩ with ⟨e, b⟩
  rcases turns S' maxSteps.toNat 1 ⟨newLog, app'⟩ with ⟨e', b'⟩
  rintro hended hb
  obtain rfl : e = e' := hended
  cases e with
  | none => exact force_sim h hb (maxSteps + 1)
  | some ended => exact ⟨rfl, hb⟩

end

/-! ## What a conversation amounts to -/

/-- A name as the directive has it. -/
def IsName (name : String) : Prop :=
  name.toList.head?.any isNameStart = true ∧ ∀ c ∈ name.toList, isNameChar c = true

theorem isName_of_toolLine {line name : List Char} {args : Option (List Char)}
    (h : toolLine line = some (name, args)) : IsName (String.ofList name) := by
  unfold toolLine at h
  split at h
  · cases h
  · rename_i rest _
    dsimp only at h
    split at h
    · cases h
    · rename_i hstart
      have hname : name = (rest.dropWhile isSpace).takeWhile isNameChar := by
        split at h
        · exact (congrArg Prod.fst (Option.some.inj h)).symm
        · split at h
          · exact (congrArg Prod.fst (Option.some.inj h)).symm
          · cases h
      unfold IsName
      rw [String.toList_ofList, hname]
      exact ⟨not_not.mp hstart, fun c hc => List.mem_takeWhile_imp hc⟩

theorem isName_of_findToolCall {loads : String → Loaded F} {raw name : String} {args : Args F}
    (h : findToolCall loads raw = .ok (some (name, args))) : IsName name := by
  unfold findToolCall at h
  split at h
  · cases h
  · rename_i name' args' hline
    obtain ⟨line, -, hline⟩ := List.exists_of_findSome?_eq_some hline
    cases hargs : readArgs loads args' with
    | error kind =>
      rw [hargs] at h
      cases h
    | ok fields =>
      rw [hargs] at h
      cases h
      exact isName_of_toolLine hline

def Entry.call : Entry → Option (ℤ × String)
  | .tool step name _ => some (step, name)
  | .final _ _ => none

section
variable (S : Setting F σ)

/-- Within the engine's reach. -/
def Allowed (name : String) : Prop := name ∈ S.toolScope ∧ (S.tools.get? name).isSome

instance : DecidablePred (Allowed S) := fun _ => inferInstanceAs (Decidable (_ ∧ _))

/-- What a step puts into the transcript: the call, and what was observed, within bounds. -/
def Step (lines : List String) : Prop :=
  ∃ name args obs, IsName name ∧ lines = ["TOOL: " ++ name ++ " " ++ S.dumps (.obj args), "Observation: " ++ obs] ∧
    (obs.length ≤ OBSERVATION_MAX_CHARS ∨
      obs ∈ [refusal name, "tool '" ++ name ++ "' timed out", "tool '" ++ name ++ "' failed"])

/-- The log after `n` calls. -/
structure Counted (n : ℕ) (l : Log F) : Prop where
  names : l.toolNamesCalled.length = n
  calls : l.trace.map Entry.call = l.toolNamesCalled.zipIdx.map fun e => some ((e.2 : ℤ) + 1, e.1)
  ran : l.ran.map Prod.fst = l.toolNamesCalled.filter (Allowed S)
  succeeded : ∀ step name, Entry.tool step name true ∈ l.trace → Allowed S name
  identifiers : ∀ name ∈ l.toolNamesCalled, IsName name
  transcript : ∃ steps : List (List String), steps.length = n ∧ l.transcript = steps.flatten ∧
    ∀ lines ∈ steps, Step S lines

variable {S} {a : Ask F σ} {n : ℕ}

theorem Counted.sent {l : Log F} (h : Counted S n l) (prompt : String) : Counted S n (l.sent prompt) :=
  { h with }

theorem Counted.observed {l l' : Log F} (h : Counted S n l) {name : String} {args : Args F} {obs : String × Bool}
    (hname : IsName name) (hsame : l' = { l with ran := l'.ran })
    (hran : l'.ran.map Prod.fst = l.ran.map Prod.fst ++ if Allowed S name then [name] else [])
    (hok : obs.2 = true → Allowed S name)
    (hobs : obs.1.length ≤ OBSERVATION_MAX_CHARS ∨
      obs.1 ∈ [refusal name, "tool '" ++ name ++ "' timed out", "tool '" ++ name ++ "' failed"]) :
    Counted S (n + 1) (l'.observed S (n + 1) name args obs) := by
  rw [hsame]
  refine ⟨?_, ?_, ?_, ?_, ?_, ?_⟩
  · simp [Log.observed, h.names]
  · simp [Log.observed, h.calls, List.zipIdx_append, h.names, Entry.call]
  · rw [Log.observed]
    dsimp only
    rw [hran, h.ran, List.filter_append, List.filter_singleton]
    by_cases hn : Allowed S name <;> simp [hn]
  · intro step name' hmem
    rcases List.mem_append.mp hmem with hmem | hmem
    · exact h.succeeded step name' hmem
    · obtain ⟨-, rfl, hok'⟩ := Entry.tool.inj (List.mem_singleton.mp hmem)
      exact hok hok'.symm
  · intro name' hmem
    rcases List.mem_append.mp hmem with hmem | hmem
    · exact h.identifiers name' hmem
    · exact (List.mem_singleton.mp hmem) ▸ hname
  · obtain ⟨steps, hlen, hflat, hsteps⟩ := h.transcript
    refine ⟨steps ++ [["TOOL: " ++ name ++ " " ++ S.dumps (.obj args), "Observation: " ++ obs.1]], ?_, ?_, ?_⟩
    · simp [hlen]
    · simp [Log.observed, hflat]
    · intro lines hmem
      rcases List.mem_append.mp hmem with hmem | hmem
      · exact hsteps lines hmem
      · rw [List.mem_singleton.mp hmem]
        exact ⟨name, args, obs.1, hname, rfl, hobs⟩

theorem observe_bounded (name : String) (o : Outcome F) : (observe S name o).1.length ≤ OBSERVATION_MAX_CHARS ∨
    (observe S name o).1 ∈ [refusal name, "tool '" ++ name ++ "' timed out", "tool '" ++ name ++ "' failed"] := by
  cases o with
  | result v =>
    left
    show (truncate _ _).length ≤ _
    rw [truncate, String.length_ofList, List.length_take]
    exact min_le_left _ _
  | timedOut => simp [observe]
  | failed => simp [observe]

theorem Counted.callTool (h : Counted S n a.log) {name : String} (hname : IsName name) (args : Args F) :
    Counted S (n + 1) (callTool S (n + 1) name args a).log := by
  by_cases hn : Allowed S name
  · obtain ⟨tool, htool⟩ := Option.isSome_iff_exists.mp hn.2
    rw [callTool_run hn.1 htool]
    exact h.observed hname rfl (by simp [Log.run, hn]) (fun _ => hn) (observe_bounded name _)
  · rw [callTool_refused fun hs => Option.not_isSome_iff_eq_none.mp fun ht => hn ⟨hs, ht⟩]
    exact h.observed hname rfl (by simp [hn]) (fun he => by cases he) (.inr (by simp))

/-- What ends a conversation behind its calls. -/
def Log.concluded (l : Log F) (step : ℤ) (forced : Bool) : Ended → Log F
  | .answered _ => l.ended step forced
  | _ => l

/-- A conversation between two calls of the engine. -/
def Underway (S : Setting F σ) (n : ℕ) (a : Ask F σ) : Prop := Counted S n a.log ∧ a.log.prompts.length = n

/-- A conversation that ended with the `n + 1`st prompt. -/
def EndedAt (S : Setting F σ) (n : ℕ) (step : ℤ) (forced : Bool) (ended : Ended) (a : Ask F σ) : Prop :=
  ∃ l, Counted S n l ∧ l.prompts.length = n + 1 ∧ a.log = l.concluded step forced ended

theorem turn_counted (h : Underway S n a) :
    match turn S (n + 1) a with
    | (none, b) => Underway S (n + 1) b
    | (some ended, b) => EndedAt S n (n + 1) false ended b := by
  have hsent (prompt : String) : (a.log.sent prompt).prompts.length = n + 1 := by simp [Log.sent, h.2]
  unfold turn callGenerate
  dsimp only
  cases S.generate (a.log.sent _).prompts with
  | raised kind => exact ⟨_, h.1.sent _, hsent _, rfl⟩
  | text raw =>
    dsimp only
    cases hcall : findToolCall S.loads (strip (raw.getD "")) with
    | error kind => exact ⟨_, h.1.sent _, hsent _, rfl⟩
    | ok call =>
      cases call with
      | none => exact ⟨_, h.1.sent _, hsent _, rfl⟩
      | some call =>
        refine ⟨Counted.callTool (h.1.sent _) (isName_of_findToolCall hcall) call.2, ?_⟩
        unfold callTool
        split
        · exact hsent _
        · split <;> exact hsent _

theorem force_counted (h : Underway S n a) (step : ℤ) :
    EndedAt S n step true (force S step a).1 (force S step a).2 := by
  have hsent (prompt : String) : (a.log.sent prompt).prompts.length = n + 1 := by simp [Log.sent, h.2]
  unfold force callGenerate
  dsimp only
  cases S.generate (a.log.sent _).prompts with
  | raised kind => exact ⟨_, h.1.sent _, hsent _, rfl⟩
  | text raw => exact ⟨_, h.1.sent _, hsent _, rfl⟩

theorem turns_counted (k : ℕ) (h : Underway S n a) :
    match turns S k (n + 1) a with
    | (none, b) => Underway S (n + k) b
    | (some ended, b) => ∃ m, m < n + k ∧ EndedAt S m (m + 1) false ended b := by
  induction k generalizing n a with
  | zero => exact h
  | succ k ih =>
    have hturn := turn_counted h
    unfold turns
    revert hturn
    rcases turn S (n + 1) a with ⟨_ | ended, b⟩
    · intro hturn
      have hrest := ih hturn
      rw [Nat.cast_succ, Nat.add_assoc, Nat.add_comm 1 k] at hrest
      exact hrest
    · intro hturn
      exact ⟨n, by omega, hturn⟩

theorem counted_newLog : Counted S 0 newLog where
  names := rfl
  calls := rfl
  ran := rfl
  succeeded _ _ h := by cases h
  identifiers _ h := by cases h
  transcript := ⟨[], rfl, rfl, fun _ h => by cases h⟩

/-- Every conversation ends, after at most `max_steps` calls and with one prompt more than calls. The
trace numbers the calls in order and names whatever was asked for; what was run is what was asked for
within reach, and only that can have succeeded. -/
theorem runAsk_accounts (S : Setting F σ) (maxSteps : ℤ) (app : σ) :
    ∃ n ≤ maxSteps.toNat, EndedAt S n (if n = maxSteps.toNat then maxSteps + 1 else n + 1)
      (n = maxSteps.toNat) (runAsk S maxSteps app).1 (runAsk S maxSteps app).2 := by
  have hstart : Underway S 0 ⟨newLog, app⟩ := ⟨counted_newLog, rfl⟩
  have hturns := turns_counted maxSteps.toNat hstart
  unfold runAsk
  rw [Nat.cast_zero, zero_add] at hturns
  revert hturns
  rcases turns S maxSteps.toNat 1 ⟨newLog, app⟩ with ⟨_ | ended, b⟩
  · intro hturns
    rw [zero_add] at hturns
    exact ⟨_, le_rfl, by simpa using force_counted hturns (maxSteps + 1)⟩
  · rintro ⟨n, hn, hend⟩
    rw [zero_add] at hn
    exact ⟨n, hn.le, by simpa [hn.ne] using hend⟩

end

end Wavr.Assistant
