import Mathlib.Data.Rat.Lemmas
import Mathlib.Data.List.TakeWhile
import Mathlib.Tactic.FieldSimp
import Mathlib.Tactic.Positivity
import Mathlib.Tactic.Ring

/-!
# Plain decimals

Numbers written with a fixed count of digits behind the point, and what such a text denotes.
-/

namespace Wavr.Decimal

/-- Digits, and perhaps a point with digits behind it. -/
def unsigned (cs : List Char) : Option ℚ :=
  let whole := cs.takeWhile Char.isDigit
  if whole = [] then none
  else match cs.dropWhile Char.isDigit with
    | [] => some (Nat.ofDigitChars 10 whole 0)
    | '.' :: frac =>
      if frac ≠ [] ∧ frac.all Char.isDigit then
        some (Nat.ofDigitChars 10 (whole ++ frac) 0 / 10 ^ frac.length)
      else none
    | _ => none

/-- The number of a plain decimal, where the text is one. -/
def decimal : List Char → Option ℚ
  | '-' :: cs => (unsigned cs).map fun q => -q
  | cs => unsigned cs

/-- `n` in `k` digits at least. -/
def padded (k n : ℕ) : List Char := List.replicate (k - (Nat.toDigits 10 n).length) '0' ++ Nat.toDigits 10 n

/-- `n / 10 ^ k`, with `k` digits behind the point. -/
def fixed (k : ℕ) (negative : Bool) (n : ℕ) : List Char :=
  (if negative then ['-'] else []) ++ Nat.toDigits 10 (n / 10 ^ k) ++ '.' :: padded k (n % 10 ^ k)

theorem isDigit_toDigits {n : ℕ} {c : Char} (h : c ∈ Nat.toDigits 10 n) : c.isDigit = true :=
  Nat.isDigit_of_mem_toDigits (by decide) (by decide) h

theorem isDigit_padded {k n : ℕ} {c : Char} (h : c ∈ padded k n) : c.isDigit = true := by
  rcases List.mem_append.mp h with h | h
  · rw [List.eq_of_mem_replicate h]
    rfl
  · exact isDigit_toDigits h

theorem length_padded {k n : ℕ} (hk : 0 < k) (h : n < 10 ^ k) : (padded k n).length = k := by
  have hle := (Nat.length_toDigits_le_iff (by decide) hk).mpr h
  rw [padded, List.length_append, List.length_replicate]
  omega

theorem ofDigitChars_padded (k n : ℕ) : Nat.ofDigitChars 10 (padded k n) 0 = n := by
  rw [padded, Nat.ofDigitChars_append, Nat.ofDigitChars_replicate_zero, Nat.mul_zero,
    Nat.ofDigitChars_ten_toDigits]

/-- The digits in front of the point and behind it are those of `n`. -/
theorem ofDigitChars_split {k : ℕ} (hk : 0 < k) (n : ℕ) :
    Nat.ofDigitChars 10 (Nat.toDigits 10 (n / 10 ^ k) ++ padded k (n % 10 ^ k)) 0 = n := by
  have hmod : n % 10 ^ k < 10 ^ k := Nat.mod_lt n (Nat.pow_pos (by decide))
  rw [Nat.ofDigitChars_append, Nat.ofDigitChars_ten_toDigits, Nat.ofDigitChars_eq_ofDigitChars_zero,
    length_padded hk hmod, ofDigitChars_padded, Nat.div_add_mod]

theorem unsigned_fixed {k : ℕ} (hk : 0 < k) (n : ℕ) :
    unsigned (Nat.toDigits 10 (n / 10 ^ k) ++ '.' :: padded k (n % 10 ^ k)) = some (n / 10 ^ k : ℚ) := by
  have hmod : n % 10 ^ k < 10 ^ k := Nat.mod_lt n (Nat.pow_pos (by decide))
  have hlen := length_padded hk hmod
  have hwhole : ∀ c ∈ Nat.toDigits 10 (n / 10 ^ k), c.isDigit = true := fun c hc => isDigit_toDigits hc
  have htake : (Nat.toDigits 10 (n / 10 ^ k) ++ '.' :: padded k (n % 10 ^ k)).takeWhile Char.isDigit =
      Nat.toDigits 10 (n / 10 ^ k) := by
    rw [List.takeWhile_append_of_pos hwhole, List.takeWhile_cons_of_neg (by decide), List.append_nil]
  have hdrop : (Nat.toDigits 10 (n / 10 ^ k) ++ '.' :: padded k (n % 10 ^ k)).dropWhile Char.isDigit =
      '.' :: padded k (n % 10 ^ k) := by
    rw [List.dropWhile_append_of_pos hwhole, List.dropWhile_cons_of_neg (by decide)]
  have hne : Nat.toDigits 10 (n / 10 ^ k) ≠ [] := Nat.toDigits_ne_nil
  have hfrac : padded k (n % 10 ^ k) ≠ [] := by
    rintro hnil
    rw [hnil] at hlen
    exact hk.ne hlen
  have hall : (padded k (n % 10 ^ k)).all Char.isDigit = true := List.all_eq_true.mpr fun c hc => isDigit_padded hc
  rw [unsigned, htake, hdrop, if_neg hne]
  refine (if_pos ⟨hfrac, hall⟩).trans ?_
  rw [hlen, ofDigitChars_split hk]

/-- What is written with a fixed count of digits denotes what was written. -/
theorem decimal_fixed {k : ℕ} (hk : 0 < k) (negative : Bool) (n : ℕ) :
    decimal (fixed k negative n) = some (if negative then -(n / 10 ^ k : ℚ) else n / 10 ^ k) := by
  have hunsigned := unsigned_fixed hk n
  cases negative with
  | true =>
    show (unsigned (Nat.toDigits 10 (n / 10 ^ k) ++ '.' :: padded k (n % 10 ^ k))).map (fun q => -q) = _
    rw [hunsigned]
    rfl
  | false =>
    have hfixed : fixed k false n = Nat.toDigits 10 (n / 10 ^ k) ++ '.' :: padded k (n % 10 ^ k) := rfl
    obtain ⟨c, cs, hcs⟩ := List.exists_cons_of_ne_nil (Nat.toDigits_ne_nil (b := 10) (n := n / 10 ^ k))
    have hdigit : c.isDigit = true := isDigit_toDigits (hcs ▸ List.mem_cons_self)
    have hminus : c ≠ '-' := by
      rintro rfl
      cases hdigit
    rw [hfixed]
    rw [hcs, List.cons_append] at hunsigned ⊢
    rw [decimal, hunsigned]
    · rfl
    · rintro cs' heq
      exact hminus (List.cons_eq_cons.mp heq).1

theorem notMem_fixed {c : Char} (hdigit : c.isDigit = false) (hpoint : c ≠ '.') (hminus : c ≠ '-') (k : ℕ)
    (negative : Bool) (n : ℕ) : c ∉ fixed k negative n := by
  intro h
  rcases List.mem_append.mp h with h | h
  · rcases List.mem_append.mp h with h | h
    · split_ifs at h
      · exact hminus (List.mem_singleton.mp h)
      · cases h
    · cases hdigit.symm.trans (isDigit_toDigits h)
  · rcases List.mem_cons.mp h with h | h
    · exact hpoint h
    · cases hdigit.symm.trans (isDigit_padded h)

end Wavr.Decimal
