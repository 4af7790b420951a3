import Mathlib

/-!
# Numbers in C strings

`strtoul` and `atoi`, on the bytes of a string; its end stands for the zero byte behind it.
-/

namespace Wavr.CNumbers

/-- In the C locale. -/
def isspace (b : UInt8) : Bool := b = 32 ∨ (9 ≤ b ∧ b ≤ 13)

/-- 36 where it is none to any base. -/
def digitValue (b : UInt8) : ℕ :=
  if 48 ≤ b ∧ b ≤ 57 then b.toNat - 48
  else if 97 ≤ b ∧ b ≤ 122 then b.toNat - 87
  else if 65 ≤ b ∧ b ≤ 90 then b.toNat - 55
  else 36

def isDigit (base : ℕ) (b : UInt8) : Bool := digitValue b < base

def value (base : ℕ) (ds : List UInt8) : ℕ := ds.foldl (fun n b => n * base + digitValue b) 0

/-- The digits that come first, however many. -/
def readDigits (base : ℕ) (s : List UInt8) : ℕ := value base (s.takeWhile (isDigit base))

/-- Whether there is a minus, and what is behind the sign. -/
def sign (s : List UInt8) : Bool × List UInt8 :=
  match s with
  | 43 :: rest => (false, rest)
  | 45 :: rest => (true, rest)
  | _ => (false, s)

/-- To base 16 a `0x` may stand before the digits. -/
def skip0x (base : ℕ) (s : List UInt8) : List UInt8 :=
  match s with
  | 48 :: x :: d :: rest => if base = 16 ∧ (x = 120 ∨ x = 88) ∧ isDigit 16 d then d :: rest else s
  | _ => s

/-- A number that is too large becomes the largest one; without digits it is 0. -/
def strtoul (ulongMax base : ℕ) (s : List UInt8) : ℕ :=
  let signed := sign (s.dropWhile isspace)
  let n := readDigits base (skip0x base signed.2)
  if ulongMax < n then ulongMax
  else if signed.1 then (ulongMax + 1 - n) % (ulongMax + 1)
  else n

def atoi (s : List UInt8) : ℤ :=
  let signed := sign (s.dropWhile isspace)
  if signed.1 then -readDigits 10 signed.2 else readDigits 10 signed.2

example : strtoul 255 16 [32, 13, 10, 43, 48, 120, 49, 70, 59] = 31 := by decide

example : (strtoul 255 16 [122, 122], strtoul 255 16 [45, 49], strtoul 255 10 [51, 48, 48]) = (0, 255, 255) := by
  decide

section
variable {base : ℕ} {ds rest : List UInt8}

theorem readDigits_append (hds : ∀ b ∈ ds, isDigit base b = true)
    (hrest : ∀ b ∈ rest.head?, isDigit base b = false) :
    readDigits base (ds ++ rest) = value base ds := by
  rw [readDigits, List.takeWhile_append_of_pos hds]
  cases rest with
  | nil => simp
  | cons b rest => simp [hrest b rfl]

theorem digitValue_of_isDigit (hbase : base ≤ 16) {b : UInt8} (h : isDigit base b = true) :
    digitValue b < 16 := (of_decide_eq_true h).trans_le hbase

/-- A digit to base 16 is neither white space nor a sign nor an x. -/
theorem digit_facts {b : UInt8} (h : digitValue b < 16) :
    isspace b = false ∧ b ≠ 43 ∧ b ≠ 45 ∧ b ≠ 120 ∧ b ≠ 88 := by
  have hlow : 48 ≤ b := by
    by_contra hlt
    have h97 : ¬ 97 ≤ b := fun hle => hlt (UInt8.le_trans (by decide) hle)
    have h65 : ¬ 65 ≤ b := fun hle => hlt (UInt8.le_trans (by decide) hle)
    simp [digitValue, hlt, h97, h65] at h
  have hx : b ≠ 120 ∧ b ≠ 88 := by
    constructor <;> rintro rfl <;> exact absurd h (by decide)
  have hnot : ∀ c : UInt8, c < 48 → b ≠ c := fun c hc he => absurd (he ▸ hlow) (UInt8.not_le.mpr hc)
  have hspace : ¬ b ≤ 13 := fun hle => absurd (UInt8.le_trans hlow hle) (by decide)
  exact ⟨by simp [isspace, hnot 32 (by decide), hspace], hnot 43 (by decide), hnot 45 (by decide), hx⟩

theorem dropWhile_isspace_digit {b : UInt8} (h : digitValue b < 16) (s : List UInt8) :
    (b :: s).dropWhile isspace = b :: s := by
  simp [(digit_facts h).1]

theorem sign_digit {b : UInt8} (h : digitValue b < 16) (s : List UInt8) : sign (b :: s) = (false, b :: s) := by
  obtain ⟨_, hplus, hminus, _⟩ := digit_facts h
  unfold sign
  split
  · rename_i heq
    exact absurd (List.cons.inj heq).1 hplus
  · rename_i heq
    exact absurd (List.cons.inj heq).1 hminus
  · rfl

/-- No `0x` is skipped where the number is followed by no x. -/
theorem skip0x_append (hds : ∀ b ∈ ds, isDigit base b = true) (hbase : base ≤ 16) (hne : ds ≠ [])
    (hrest : ∀ b ∈ rest.head?, b ≠ 120 ∧ b ≠ 88) : skip0x base (ds ++ rest) = ds ++ rest := by
  unfold skip0x
  split
  · rename_i x d tail heq
    refine if_neg fun hx => ?_
    cases ds with
    | nil => exact hne rfl
    | cons a ds =>
      have hnot : x ≠ 120 ∧ x ≠ 88 := by
        cases ds with
        | nil =>
          refine hrest x ?_
          rw [List.cons_append, List.nil_append] at heq
          rw [(List.cons.inj heq).2]
          rfl
        | cons c ds =>
          simp only [List.cons_append, List.cons.injEq] at heq
          have hc := digit_facts (digitValue_of_isDigit hbase (hds c (by simp)))
          exact heq.2.1 ▸ hc.2.2.2
      exact hx.2.1.elim hnot.1 hnot.2
  · rfl

/-- A number is read to its end. -/
theorem strtoul_digits {ulongMax : ℕ} (hbase : base ≤ 16) (hds : ∀ b ∈ ds, isDigit base b = true) (hne : ds ≠ [])
    (hrest : ∀ b ∈ rest.head?, isDigit base b = false ∧ b ≠ 120 ∧ b ≠ 88) (hmax : value base ds ≤ ulongMax) :
    strtoul ulongMax base (ds ++ rest) = value base ds := by
  have hskip := skip0x_append hds hbase hne fun b hb => (hrest b hb).2
  have hread := readDigits_append hds fun b hb => (hrest b hb).1
  obtain ⟨b, ds', rfl⟩ := List.exists_cons_of_ne_nil hne
  have hb := digitValue_of_isDigit hbase (hds b List.mem_cons_self)
  rw [List.cons_append] at hskip hread
  rw [strtoul, List.cons_append, dropWhile_isspace_digit hb, sign_digit hb]
  simp only [hskip, hread]
  rw [if_neg (not_lt.mpr hmax)]
  rfl

theorem strtoul_blanks {ulongMax : ℕ} {bs : List UInt8} (h : ∀ b ∈ bs, isspace b = true) (s : List UInt8) :
    strtoul ulongMax base (bs ++ s) = strtoul ulongMax base s := by
  rw [strtoul, List.dropWhile_append_of_pos h, ← strtoul]

theorem atoi_digits (hds : ∀ b ∈ ds, isDigit 10 b = true) (hne : ds ≠ [])
    (hrest : ∀ b ∈ rest.head?, isDigit 10 b = false) : atoi (ds ++ rest) = value 10 ds := by
  have hread := readDigits_append hds hrest
  obtain ⟨b, ds', rfl⟩ := List.exists_cons_of_ne_nil hne
  have hb := digitValue_of_isDigit (by decide) (hds b List.mem_cons_self)
  rw [List.cons_append] at hread
  rw [atoi, List.cons_append, dropWhile_isspace_digit hb, sign_digit hb]
  simp [hread]

end
end Wavr.CNumbers
