import Mathlib.Data.List.Destutter

/-!
# Flips

What a tracker reports that is told values one by one and reports each that differs from the last.
-/

namespace Wavr.Flips

variable {α : Type*} [DecidableEq α]

/-- The flips of a sequence, after the last value before it. -/
def flipsFrom : Option α → List α → List α
  | none, l => (l.destutter (· ≠ ·)).tail
  | some a, l => (l.destutter' (· ≠ ·) a).tail

/-- The flips between consecutive values. -/
def flips (l : List α) : List α := flipsFrom none l

variable {a b : α} {l : List α} {last : Option α}

@[simp] theorem flipsFrom_nil : flipsFrom last ([] : List α) = [] := by
  cases last <;> rfl

theorem cons_tail_destutter' : a :: (l.destutter' (· ≠ ·) a).tail = l.destutter' (· ≠ ·) a := by
  induction l with
  | nil => rfl
  | cons b l ih =>
    by_cases h : a ≠ b
    · rw [List.destutter'_cons_pos _ h, List.tail_cons]
    · rw [List.destutter'_cons_neg _ h, ih]

theorem flipsFrom_none_cons : flipsFrom none (b :: l) = flipsFrom (some b) l := rfl

theorem flipsFrom_self_cons : flipsFrom (some b) (b :: l) = flipsFrom (some b) l := by
  simp only [flipsFrom]
  rw [List.destutter'_cons_neg _ (not_not.mpr rfl)]

theorem flipsFrom_cons_of_ne (h : a ≠ b) : flipsFrom (some a) (b :: l) = b :: flipsFrom (some b) l := by
  simp only [flipsFrom]
  rw [List.destutter'_cons_pos _ h, List.tail_cons, cons_tail_destutter']

/-- One more value is a flip where it differs from the last. -/
theorem flipsFrom_cons (last : Option α) (b : α) (l : List α) :
    flipsFrom last (b :: l) = (if ∃ a ∈ last, a ≠ b then [b] else []) ++ flipsFrom (some b) l := by
  cases last with
  | none =>
    rw [flipsFrom_none_cons, if_neg (by simp)]
    rfl
  | some a =>
    by_cases hab : a = b
    · subst hab
      rw [flipsFrom_self_cons, if_neg (by simp)]
      rfl
    · rw [flipsFrom_cons_of_ne hab, if_pos (by simpa using hab)]
      rfl

theorem isChain_flips (l : List α) : (flips l).IsChain (· ≠ ·) :=
  (List.isChain_destutter _ l).tail

end Wavr.Flips
