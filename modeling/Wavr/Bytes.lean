import Mathlib

/-!
# Bytes of a datagram

Big-endian numbers, Python's slices, and what stands at a position of a byte string.
-/

namespace Wavr.Bytes

/-- `data[a:b]`. -/
def slice (data : List UInt8) (a b : ℕ) : List UInt8 := (data.take b).drop a

/-- `int.from_bytes(bs, "big")`. -/
def beNat (bs : List UInt8) : ℕ := bs.foldl (fun n b => n * 256 + b.toNat) 0

/-- The lowest bytes of a number, highest first. -/
def beBytes : ℕ → ℕ → List UInt8
  | 0, _ => []
  | w + 1, n => beBytes w (n / 256) ++ [UInt8.ofNat n]

/-- The digits of a number to base 256, highest first; none for zero. -/
def digitBytes (n : ℕ) : List UInt8 := ((Nat.digits 256 n).map UInt8.ofNat).reverse

/-- These bytes stand at this position. -/
def At (data : List UInt8) (pos : ℕ) (bs : List UInt8) : Prop :=
  ∃ pre rest, data = pre ++ (bs ++ rest) ∧ pre.length = pos

/-- A character of which bytes are missing: how many, the range of the next, the value so far. -/
structure Pending where
  need : ℕ
  low : UInt8
  high : UInt8
  value : ℕ

/-- The first byte of a character: all of it, or what it needs. -/
def utf8Start (b : UInt8) : Char ⊕ Pending :=
  if b < 0x80 then .inl (Char.ofNat b.toNat)
  else if b < 0xC2 then .inl '\uFFFD'
  else if b < 0xE0 then .inr ⟨1, 0x80, 0xBF, b.toNat % 0x20⟩
  else if b < 0xF0 then
    .inr ⟨2, if b = 0xE0 then 0xA0 else 0x80, if b = 0xED then 0x9F else 0xBF, b.toNat % 0x10⟩
  else if b < 0xF5 then
    .inr ⟨3, if b = 0xF0 then 0x90 else 0x80, if b = 0xF4 then 0x8F else 0xBF, b.toNat % 0x8⟩
  else .inl '\uFFFD'

def utf8From : Option Pending → List UInt8 → List Char
  | none, [] => []
  | some _, [] => ['\uFFFD']
  | none, b :: bs =>
    match utf8Start b with
    | .inl c => c :: utf8From none bs
    | .inr p => utf8From (some p) bs
  | some p, b :: bs =>
    if p.low ≤ b ∧ b ≤ p.high then
      let value := p.value * 64 + b.toNat % 64
      if p.need ≤ 1 then Char.ofNat value :: utf8From none bs
      else utf8From (some ⟨p.need - 1, 0x80, 0xBF, value⟩) bs
    else
      -- what has come so far is one replacement, and this byte starts over
      '\uFFFD' :: match utf8Start b with
        | .inl c => c :: utf8From none bs
        | .inr p => utf8From (some p) bs

/-- `bs.decode("utf-8", errors="replace")`. -/
def decodeUtf8 (bs : List UInt8) : List Char := utf8From none bs

example : decodeUtf8 [0x61, 0xC3, 0xA9, 0xE2, 0x82, 0x41, 0xF0, 0x9F] = ['a', 'é', '\uFFFD', 'A', '\uFFFD'] := by
  decide

/-! ## Numbers -/

theorem beNat_append (as bs : List UInt8) : beNat (as ++ bs) = beNat as * 256 ^ bs.length + beNat bs := by
  induction bs using List.reverseRecOn with
  | nil => simp [beNat]
  | append_singleton bs b ih =>
    have hstep : ∀ cs : List UInt8, beNat (cs ++ [b]) = beNat cs * 256 + b.toNat := fun cs => by
      simp [beNat]
    rw [← List.append_assoc, hstep, hstep, ih, List.length_append, List.length_singleton, pow_succ]
    ring

@[simp] theorem beNat_singleton (b : UInt8) : beNat [b] = b.toNat := by simp [beNat]

@[simp] theorem length_beBytes (w n : ℕ) : (beBytes w n).length = w := by
  induction w generalizing n with
  | zero => rfl
  | succ w ih => simp [beBytes, ih]

theorem beNat_beBytes {w n : ℕ} (h : n < 256 ^ w) : beNat (beBytes w n) = n := by
  induction w generalizing n with
  | zero => simp only [pow_zero, Nat.lt_one_iff] at h; subst h; rfl
  | succ w ih =>
    have hdiv : n / 256 < 256 ^ w := Nat.div_lt_of_lt_mul (by rwa [← pow_succ'])
    rw [beBytes, beNat_append, ih hdiv, beNat_singleton, UInt8.toNat_ofNat', List.length_singleton]
    omega

theorem digitBytes_of_pos {n : ℕ} (h : 0 < n) : digitBytes n = digitBytes (n / 256) ++ [UInt8.ofNat n] := by
  have hmod : UInt8.ofNat (n % 256) = UInt8.ofNat n := UInt8.toNat_inj.mp (by simp)
  rw [digitBytes, Nat.digits_def' (by decide) h, List.map_cons, List.reverse_cons, ← digitBytes, hmod]

theorem beNat_digitBytes (n : ℕ) : beNat (digitBytes n) = n := by
  induction n using Nat.strongRecOn with
  | ind n ih =>
    rcases Nat.eq_zero_or_pos n with rfl | hpos
    · rfl
    · rw [digitBytes_of_pos hpos, beNat_append, ih (n / 256) (Nat.div_lt_self hpos (by decide)), beNat_singleton,
        UInt8.toNat_ofNat', List.length_singleton]
      omega

theorem length_digitBytes_le {n w : ℕ} (h : n < 256 ^ w) : (digitBytes n).length ≤ w := by
  simpa [digitBytes] using (Nat.digits_length_le_iff (by decide) n).mpr h

/-! ## Positions -/

section
variable {data bs cs : List UInt8} {pos : ℕ}

theorem at_append : At data pos (bs ++ cs) ↔ At data pos bs ∧ At data (pos + bs.length) cs := by
  constructor
  · rintro ⟨pre, rest, rfl, rfl⟩
    exact ⟨⟨pre, cs ++ rest, by simp, rfl⟩, ⟨pre ++ bs, rest, by simp, by simp⟩⟩
  · rintro ⟨⟨pre, rest, hdata, rfl⟩, ⟨pre', rest', hdata', hlen⟩⟩
    have hpre : pre' = pre ++ bs := by
      have htake := congrArg (List.take (pre.length + bs.length)) (hdata'.symm.trans hdata)
      rw [← hlen, List.take_left, ← List.append_assoc, hlen, ← List.length_append, List.take_left] at htake
      exact htake
    exact ⟨pre, rest', by rw [hdata', hpre]; simp, rfl⟩

theorem At.length_le (h : At data pos bs) : pos + bs.length ≤ data.length := by
  obtain ⟨pre, rest, rfl, rfl⟩ := h
  simp

theorem At.slice (h : At data pos bs) : slice data pos (pos + bs.length) = bs := by
  obtain ⟨pre, rest, rfl, rfl⟩ := h
  rw [Bytes.slice, ← List.append_assoc, ← List.length_append, List.take_left, List.drop_left]

theorem At.beNat {w n : ℕ} (h : At data pos (beBytes w n)) (hn : n < 256 ^ w) :
    beNat (Bytes.slice data pos (pos + w)) = n := by
  have hslice := h.slice
  rw [length_beBytes] at hslice
  rw [hslice, beNat_beBytes hn]

theorem At.getElem? {b : UInt8} (h : At data pos (b :: bs)) : data[pos]? = some b := by
  obtain ⟨pre, rest, rfl, rfl⟩ := h
  simp

theorem At.take {k : ℕ} (h : At data pos bs) (hk : pos + bs.length ≤ k) : At (data.take k) pos bs := by
  obtain ⟨pre, rest, rfl, rfl⟩ := h
  refine ⟨pre, rest.take (k - (pre.length + bs.length)), ?_, rfl⟩
  rw [← List.append_assoc, List.take_append, List.take_of_length_le (by simpa using hk), List.length_append,
    List.append_assoc]

theorem at_self (data : List UInt8) : At data 0 data := ⟨[], [], by simp, rfl⟩

theorem at_cons {b : UInt8} : At data pos (b :: bs) ↔ At data pos [b] ∧ At data (pos + 1) bs := by
  rw [← List.singleton_append, at_append, List.length_singleton]

end
/-! ## Lengths of labels -/

theorem label_length_below : ∀ n ∈ List.range 64, 0 < n →
    UInt8.ofNat n ≠ 0 ∧ ¬ (UInt8.ofNat n &&& 0xC0 = 0xC0) ∧ (UInt8.ofNat n).toNat = n := by
  decide

/-- The length of a label ends no name and marks no pointer. -/
theorem label_length {n : ℕ} (hpos : 0 < n) (hlt : n < 64) :
    UInt8.ofNat n ≠ 0 ∧ ¬ (UInt8.ofNat n &&& 0xC0 = 0xC0) ∧ (UInt8.ofNat n).toNat = n :=
  label_length_below n (List.mem_range.mpr hlt) hpos

end Wavr.Bytes
