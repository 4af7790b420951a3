import Mathlib.Data.List.Lex
import Mathlib.Data.String.Basic

/-!
# UTF-8 keeps the order of texts

Texts compare by their code points, and their encodings byte by byte: the two orders are one.
-/

namespace Wavr.Utf8

/-- The encoding of a character, each byte as an unsigned number. -/
def encode (c : Char) : List ℕ := (String.utf8EncodeChar c).map UInt8.toNat

/-- The encoding of a text. -/
def bytes (s : String) : List ℕ := s.toList.flatMap encode

/-- The first byte in which the two differ is the smaller one on the left. -/
def Below (xs ys : List ℕ) : Prop := ∃ p a b x y, xs = p ++ a :: x ∧ ys = p ++ b :: y ∧ a < b

section
variable {a b : ℕ} {xs ys : List ℕ}

theorem Below.head (h : a < b) (xs ys : List ℕ) : Below (a :: xs) (b :: ys) := ⟨[], a, b, xs, ys, rfl, rfl, h⟩

theorem Below.cons (a : ℕ) (h : Below xs ys) : Below (a :: xs) (a :: ys) := by
  obtain ⟨p, b, c, x, y, rfl, rfl, hlt⟩ := h
  exact ⟨a :: p, b, c, x, y, rfl, rfl, hlt⟩

theorem below_cons (h : a < b ∨ a = b ∧ Below xs ys) : Below (a :: xs) (b :: ys) := by
  rcases h with hlt | ⟨rfl, hrest⟩
  · exact .head hlt xs ys
  · exact hrest.cons a

/-- What follows does not matter. -/
theorem Below.append_lt (h : Below xs ys) (us vs : List ℕ) : xs ++ us < ys ++ vs := by
  obtain ⟨p, a, b, x, y, rfl, rfl, hlt⟩ := h
  rw [List.append_assoc, List.append_assoc]
  exact List.append_left_lt (List.cons_lt_cons_iff.mpr (.inl hlt))

end

/-! ## One character -/

theorem toNat_lt (c : Char) : c.val.toNat < 0x110000 := by
  rcases c.valid with h | ⟨-, h⟩
  · exact Nat.lt_trans h (by decide)
  · exact h

/-- The leading byte holds what the six-bit groups behind it do not. -/
theorem encode_eq (c : Char) : encode c =
    let v := c.val.toNat
    if v ≤ 0x7f then [v]
    else if v ≤ 0x7ff then [v / 64 + 192, v % 64 + 128]
    else if v ≤ 0xffff then [v / 4096 + 224, v / 64 % 64 + 128, v % 64 + 128]
    else [v / 262144 + 240, v / 4096 % 64 + 128, v / 64 % 64 + 128, v % 64 + 128] := by
  have hlt := toNat_lt c
  unfold encode String.utf8EncodeChar
  dsimp only
  split_ifs with h₁ h₂ h₃
  all_goals simp only [List.map_cons, List.map_nil, UInt8.toNat_ofNat', List.cons.injEq, and_true]
  all_goals omega

theorem encode_below {c d : Char} (h : c < d) : Below (encode c) (encode d) := by
  have hlt : c.val.toNat < d.val.toNat := h
  have hd := toNat_lt d
  rw [encode_eq, encode_eq]
  dsimp only
  generalize c.val.toNat = v at *
  generalize d.val.toNat = w at *
  -- where the two are equally long, the first six-bit group that differs decides
  split_ifs
  all_goals try exact absurd hlt (by omega)
  all_goals try exact .head (by omega) _ _
  · refine below_cons ?_
    by_cases hlead : v / 64 = w / 64
    · exact .inr ⟨by omega, .head (by omega) _ _⟩
    · exact .inl (by omega)
  · refine below_cons ?_
    by_cases hlead : v / 4096 = w / 4096
    · refine .inr ⟨by omega, below_cons ?_⟩
      by_cases hnext : v / 64 = w / 64
      · exact .inr ⟨by omega, .head (by omega) _ _⟩
      · exact .inl (by omega)
    · exact .inl (by omega)
  · refine below_cons ?_
    by_cases hlead : v / 262144 = w / 262144
    · refine .inr ⟨by omega, below_cons ?_⟩
      by_cases hnext : v / 4096 = w / 4096
      · refine .inr ⟨by omega, below_cons ?_⟩
        by_cases hlast : v / 64 = w / 64
        · exact .inr ⟨by omega, .head (by omega) _ _⟩
        · exact .inl (by omega)
      · exact .inl (by omega)
    · exact .inl (by omega)

theorem encode_ne_nil (c : Char) : encode c ≠ [] := by
  rw [encode_eq]
  dsimp only
  split_ifs <;> exact List.cons_ne_nil _ _

/-! ## Texts -/

theorem flatMap_encode_lt {s t : List Char} (h : s < t) : s.flatMap encode < t.flatMap encode := by
  induction s generalizing t with
  | nil =>
    cases t with
    | nil => exact absurd h (lt_irrefl [])
    | cons d t =>
      rw [List.flatMap_nil, List.flatMap_cons]
      obtain ⟨b, bs, hb⟩ := List.exists_cons_of_ne_nil (encode_ne_nil d)
      rw [hb]
      exact List.nil_lt_cons _ _
  | cons c s ih =>
    cases t with
    | nil => exact absurd h (List.not_lt_nil _)
    | cons d t =>
      rw [List.flatMap_cons, List.flatMap_cons]
      rcases List.cons_lt_cons_iff.mp h with hlt | ⟨rfl, hrest⟩
      · exact (encode_below hlt).append_lt _ _
      · exact List.append_left_lt (ih hrest)

theorem strictMono_bytes : StrictMono bytes := fun _ _ h => flatMap_encode_lt (String.lt_iff_toList_lt.mp h)

/-- The bytes of two texts compare as their code points do. -/
theorem bytes_lt_iff {s t : String} : bytes s < bytes t ↔ s < t := strictMono_bytes.lt_iff_lt

end Wavr.Utf8
