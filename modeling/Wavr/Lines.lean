import Wavr.Text

/-!
# Lines of a text

`str.splitlines`, and texts written line by line.
-/

namespace Wavr.Lines

/-- What ends a line. -/
def isBreak (c : Char) : Bool :=
  c ∈ ['\n', '\r', '\x0b', '\x0c', '\x1c', '\x1d', '\x1e', '\u0085', '\u2028', '\u2029']

/-- The lines of a text, behind what there is of the first one. -/
def splitFrom (line : List Char) : List Char → List (List Char)
  | [] => if line = [] then [] else [line]
  | '\r' :: '\n' :: cs => line :: splitFrom [] cs
  | c :: cs => if isBreak c then line :: splitFrom [] cs else splitFrom (line ++ [c]) cs

/-- `str.splitlines()`. -/
def splitlines (s : List Char) : List (List Char) := splitFrom [] s

def eol (crlf : Bool) : List Char := if crlf then ['\r', '\n'] else ['\n']

/-- Lines, each with its end. -/
def written (crlf : Bool) (lines : List (List Char)) : List Char := lines.flatMap (· ++ eol crlf)

/-- No line end within. -/
def OneLine (line : List Char) : Prop := ∀ c ∈ line, isBreak c = false

example : splitlines "a\r\nb\n\nc".toList = ["a".toList, "b".toList, [], "c".toList] := by decide

section
variable {line cs : List Char} {crlf : Bool}

theorem splitFrom_of_not_break {c : Char} (h : isBreak c = false) :
    splitFrom line (c :: cs) = splitFrom (line ++ [c]) cs := by
  have hcr : c ≠ '\r' := fun he => by rw [he] at h; revert h; decide
  rw [splitFrom]
  · rw [if_neg (by simp [h])]
  · exact fun d hc _ => hcr hc

theorem splitFrom_append (h : OneLine line) (start : List Char) :
    splitFrom start (line ++ cs) = splitFrom (start ++ line) cs := by
  induction line generalizing start with
  | nil => simp
  | cons c line ih =>
    rw [List.cons_append, splitFrom_of_not_break (h c List.mem_cons_self),
      ih fun d hd => h d (List.mem_cons_of_mem c hd), List.append_assoc]
    rfl

theorem splitFrom_eol (crlf : Bool) : splitFrom line (eol crlf ++ cs) = line :: splitFrom [] cs := by
  cases crlf with
  | false => simp [eol, splitFrom, isBreak]
  | true => rfl

/-- What is written line by line is read line by line. -/
theorem splitlines_written {lines : List (List Char)} (h : ∀ l ∈ lines, OneLine l) :
    splitlines (written crlf lines) = lines := by
  induction lines with
  | nil => rfl
  | cons l ls ih =>
    rw [splitlines, written, List.flatMap_cons, List.append_assoc, splitFrom_append (h l List.mem_cons_self),
      splitFrom_eol, List.nil_append]
    exact congrArg _ (ih fun l' hl' => h l' (List.mem_cons_of_mem l hl'))

end
end Wavr.Lines
