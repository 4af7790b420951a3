import Wavr.Bytes

/-!
# Basic encoding rules

The tags, lengths, integers and object identifiers of the SNMP collector, both ways.
-/

namespace Wavr.Ber
open Bytes

/-- More digits than this, and `int` of a text and `str` of a number raise. -/
def MAX_STR_DIGITS : ℕ := 4300

def decimal (n : ℕ) : List Char := Nat.toDigits 10 n

def printable (n : ℕ) : Bool := (decimal n).length ≤ MAX_STR_DIGITS

def berLen (n : ℕ) : List UInt8 :=
  if n < 0x80 then [UInt8.ofNat n]
  else UInt8.ofNat (0x80 ||| (digitBytes n).length) :: digitBytes n

def tlv (tag : UInt8) (content : List UInt8) : List UInt8 := [tag] ++ berLen content.length ++ content

/-- The content that `_encode_int` makes of a number. -/
def natContent (n : ℕ) : List UInt8 :=
  if n = 0 then [0]
  else if 0x80 ≤ (digitBytes n).headD 0 then 0 :: digitBytes n
  else digitBytes n

/-- Two's complement. -/
def intContent : ℤ → List UInt8
  | .ofNat n => natContent n
  | .negSucc n => (natContent n).map fun b => 0xFF - b

def encodeInt (z : ℤ) : List UInt8 := tlv 0x02 (intContent z)

/-- The digits of an arc to base 128, highest first. -/
def chunk (p : ℕ) : List ℕ := if p = 0 then [0] else (Nat.digits 128 p).reverse

def arcBytes (p : ℕ) : List UInt8 :=
  ((chunk p).dropLast.map fun d => UInt8.ofNat (d ||| 0x80)) ++ ((chunk p).getLast?.map UInt8.ofNat).toList

/-- `_encode_oid` of the text of these arcs; none where it raises. -/
def encodeOid (parts : List ℕ) : Option (List UInt8) :=
  if parts.all printable then
    match parts with
    | a :: b :: rest =>
      if a * 40 + b < 256 then some (tlv 0x06 (UInt8.ofNat (a * 40 + b) :: rest.flatMap arcBytes)) else none
    | _ => none
  else none

/-- The arcs behind the first byte; an arc that is not ended is dropped. -/
def decodeArcs : ℕ → List UInt8 → List ℕ
  | _, [] => []
  | val, b :: bs =>
    let val := val * 128 + b.toNat % 128
    if b.toNat < 128 then val :: decodeArcs 0 bs else decodeArcs val bs

def oidText (parts : List ℕ) : List Char := ['.'].intercalate (parts.map decimal)

/-- None where `str` raises. -/
def decodeOid (data : List UInt8) : Option (List Char) :=
  match data with
  | [] => some []
  | first :: rest =>
    let parts := first.toNat / 40 :: first.toNat % 40 :: decodeArcs 0 rest
    if parts.all printable then some (oidText parts) else none

/-- The tag, the content and where it ends; none where it raises. -/
def readTlv (data : List UInt8) (pos : ℕ) : Option (UInt8 × List UInt8 × ℕ) :=
  match data[pos]?, data[pos + 1]? with
  | some tag, some length =>
    if length.toNat < 0x80 then
      if data.length < pos + 2 + length.toNat then none
      else some (tag, slice data (pos + 2) (pos + 2 + length.toNat), pos + 2 + length.toNat)
    else
      let numBytes := length.toNat % 0x80
      if numBytes = 0 ∨ data.length < pos + 2 + numBytes then none
      else
        let start := pos + 2 + numBytes
        let length := beNat (slice data (pos + 2) start)
        if data.length < start + length then none
        else some (tag, slice data start (start + length), start + length)
  | _, _ => none

/-- `int.from_bytes(content, "big", signed=True)`. -/
def signed (content : List UInt8) : ℤ :=
  if 0x80 ≤ content.headD 0 then (beNat content : ℤ) - 256 ^ content.length else beNat content

inductive Decoded where
  | int (z : ℤ)
  | str (s : List Char)
  | none
  deriving DecidableEq

def decodeValue (tag : UInt8) (content : List UInt8) : Option Decoded :=
  if tag = 0x02 then some (.int (signed content))
  else if tag = 0x04 then some (.str (decodeUtf8 content))
  else if tag = 0x06 then (decodeOid content).map .str
  else some .none

/-! ## Tags and lengths -/

/-- Long enough for every byte string: none is longer than this. -/
def MAX_SIZE : ℕ := 2 ^ 63

section
variable {data content : List UInt8} {pos : ℕ} {tag : UInt8}

theorem berLen_short {n : ℕ} (h : n < 0x80) : berLen n = [UInt8.ofNat n] := if_pos h

theorem length_digitBytes_small {n : ℕ} (h : n < MAX_SIZE) : (digitBytes n).length ≤ 8 :=
  length_digitBytes_le (h.trans (by decide))

theorem length_digitBytes_pos {n : ℕ} (h : 0 < n) : 0 < (digitBytes n).length := by
  rw [digitBytes_of_pos h]
  simp

theorem long_form : ∀ k ∈ List.range 9, (UInt8.ofNat (0x80 ||| k)).toNat = 0x80 + k := by
  decide

theorem toNat_long {n : ℕ} (h : n < MAX_SIZE) :
    (UInt8.ofNat (0x80 ||| (digitBytes n).length)).toNat = 0x80 + (digitBytes n).length :=
  long_form _ (List.mem_range.mpr (Nat.lt_succ_of_le (length_digitBytes_small h)))

/-- What is written is read, wherever it stands. -/
theorem readTlv_at (h : At data pos (tlv tag content)) (hsize : content.length < MAX_SIZE) :
    readTlv data pos = some (tag, content, pos + (tlv tag content).length) := by
  rw [tlv, List.append_assoc] at h
  obtain ⟨htag, hrest⟩ := at_append.mp h
  obtain ⟨hlen, hcontent⟩ := at_append.mp hrest
  rw [List.length_singleton] at hlen hcontent
  have hget := htag.getElem?
  have hle := hcontent.length_le
  have hslice := hcontent.slice
  by_cases hshort : content.length < 0x80
  · have hnat : (UInt8.ofNat content.length).toNat = content.length := UInt8.toNat_ofNat_of_lt' (hshort.trans (by decide))
    rw [berLen_short hshort] at hlen hle hslice
    have hstart : pos + 1 + [UInt8.ofNat content.length].length = pos + 2 := rfl
    rw [hstart] at hle hslice
    rw [readTlv, hget, hlen.getElem?]
    simp only [hnat, if_pos hshort, if_neg (not_lt.mpr hle), hslice, tlv, berLen_short hshort]
    simp only [List.length_append, List.length_singleton, Option.some.injEq, Prod.mk.injEq, true_and]
    omega
  · have hpos : 0 < content.length := by omega
    have hk := length_digitBytes_pos hpos
    have hk8 := length_digitBytes_small hsize
    have hberLen : berLen content.length = UInt8.ofNat (0x80 ||| (digitBytes content.length).length) ::
        digitBytes content.length := if_neg hshort
    rw [hberLen] at hlen hle hslice
    obtain ⟨hfirst, hdigits⟩ := at_cons.mp hlen
    have hdigitsLe := hdigits.length_le
    have hdigitsSlice := hdigits.slice
    have hnat := toNat_long hsize
    have hstart : pos + 1 + (UInt8.ofNat (0x80 ||| (digitBytes content.length).length) ::
        digitBytes content.length).length = pos + 2 + (digitBytes content.length).length := by
      rw [List.length_cons]
      omega
    have hmod : (0x80 + (digitBytes content.length).length) % 0x80 = (digitBytes content.length).length := by omega
    rw [hstart] at hle hslice
    rw [readTlv, hget, hfirst.getElem?]
    simp only [hnat, if_neg (by omega : ¬ 0x80 + (digitBytes content.length).length < 0x80), hmod]
    rw [if_neg (by omega), hdigitsSlice, beNat_digitBytes, if_neg (not_lt.mpr hle), hslice, tlv, hberLen]
    simp only [List.length_append, List.length_nil, List.length_cons, Option.some.injEq, Prod.mk.injEq, true_and]
    omega

/-- A TLV cut short is not read. -/
theorem readTlv_cut (hsize : content.length < MAX_SIZE) {k : ℕ} (hk : k < (tlv tag content).length) :
    readTlv ((tlv tag content).take k) 0 = none := by
  match k with
  | 0 => simp [readTlv]
  | 1 => simp [readTlv, tlv]
  | k + 2 =>
    -- the short form announces the content in its one length byte
    by_cases hshort : content.length < 0x80
    · have hnat : (UInt8.ofNat content.length).toNat = content.length :=
        UInt8.toNat_ofNat_of_lt' (hshort.trans (by decide))
      have htlv : tlv tag content = tag :: UInt8.ofNat content.length :: content := by
        rw [tlv, berLen_short hshort]
        rfl
      rw [htlv, List.length_cons, List.length_cons] at hk
      have hlen : ((tlv tag content).take (k + 2)).length = k + 2 := by
        rw [htlv, List.length_take, List.length_cons, List.length_cons]
        omega
      have hcut : (tlv tag content).take (k + 2) = tag :: UInt8.ofNat content.length :: content.take k := by
        rw [htlv]
        rfl
      rw [readTlv, hlen, hcut]
      simp only [List.getElem?_cons_zero, List.getElem?_cons_succ, hnat, if_pos hshort]
      rw [if_pos (by omega)]
    · have hpos : 0 < content.length := by omega
      have hk8 := length_digitBytes_small hsize
      have hnat := toNat_long hsize
      have hdigitsPos := length_digitBytes_pos hpos
      generalize hds : digitBytes content.length = ds at hk8 hnat hdigitsPos
      have htlv : tlv tag content = tag :: UInt8.ofNat (0x80 ||| ds.length) :: (ds ++ content) := by
        rw [tlv, berLen, if_neg hshort, hds]
        rfl
      rw [htlv, List.length_cons, List.length_cons, List.length_append] at hk
      have hlen : ((tlv tag content).take (k + 2)).length = k + 2 := by
        rw [htlv, List.length_take, List.length_cons, List.length_cons, List.length_append]
        omega
      have hcut : (tlv tag content).take (k + 2) = tag :: UInt8.ofNat (0x80 ||| ds.length) :: (ds ++ content).take k := by
        rw [htlv]
        rfl
      have hmod : (0x80 + ds.length) % 0x80 = ds.length := by omega
      rw [readTlv, hlen, hcut]
      simp only [List.getElem?_cons_zero, List.getElem?_cons_succ, hnat,
        if_neg (by omega : ¬ 0x80 + ds.length < 0x80), hmod]
      -- in the long form the cut is among the length bytes or in the content behind them
      by_cases hcutLen : k < ds.length
      · rw [if_pos (by omega)]
      · have hslice : slice (tag :: UInt8.ofNat (0x80 ||| ds.length) :: (ds ++ content).take k) (0 + 2)
            (0 + 2 + ds.length) = ds := by
          have htake : ((ds ++ content).take k).take ds.length = ds := by
            rw [List.take_take, Nat.min_eq_left (by omega), List.take_left]
          have hsum : 0 + 2 + ds.length = ds.length + 1 + 1 := by omega
          rw [slice, hsum, List.take_succ_cons, List.take_succ_cons, htake]
          rfl
        rw [if_neg (by omega), hslice, ← hds, beNat_digitBytes, hds, if_pos (by omega)]

/-! ## Integers -/

theorem beNat_complement (bs : List UInt8) : beNat (bs.map fun b => 0xFF - b) + beNat bs + 1 =
    256 ^ bs.length := by
  induction bs using List.reverseRecOn with
  | nil => rfl
  | append_singleton bs b ih =>
    have hlt : b.toNat < 256 := b.toNat_lt
    have hle : b ≤ 0xFF := UInt8.le_iff_toNat_le.mpr (Nat.le_of_lt_succ hlt)
    have hb : (0xFF - b).toNat = 255 - b.toNat := UInt8.toNat_sub_of_le _ _ hle
    rw [List.map_append, List.map_singleton, beNat_append, beNat_append, beNat_singleton, beNat_singleton, hb,
      List.length_append, List.length_singleton, pow_succ]
    simp only [List.length_singleton, pow_one]
    omega

theorem natContent_spec (n : ℕ) : natContent n ≠ [] ∧ (natContent n).headD 0 < 0x80 ∧
    beNat (natContent n) = n := by
  rcases Nat.eq_zero_or_pos n with rfl | hpos
  · decide
  have hne : digitBytes n ≠ [] := List.length_pos_iff.mp (length_digitBytes_pos hpos)
  rw [natContent, if_neg (by omega)]
  by_cases hhigh : 0x80 ≤ (digitBytes n).headD 0
  · have hzero : beNat (0 :: digitBytes n) = n := by
      rw [← List.singleton_append, beNat_append, beNat_digitBytes]
      simp
    rw [if_pos hhigh]
    exact ⟨by simp, (by decide : (0 : UInt8) < 0x80), hzero⟩
  · rw [if_neg hhigh]
    exact ⟨hne, UInt8.not_le.mp hhigh, beNat_digitBytes n⟩

theorem signed_intContent (z : ℤ) : signed (intContent z) = z := by
  cases z with
  | ofNat n =>
    obtain ⟨_, hhead, hval⟩ := natContent_spec n
    rw [intContent, signed, if_neg (UInt8.not_le.mpr hhead), hval]
    rfl
  | negSucc n =>
    obtain ⟨hne, hhead, hval⟩ := natContent_spec n
    obtain ⟨b, bs, hbs⟩ := List.exists_cons_of_ne_nil hne
    have hcompl := beNat_complement (natContent n)
    have hhigh : 0x80 ≤ ((natContent n).map fun b => 0xFF - b).headD 0 := by
      rw [hbs] at hhead ⊢
      have hlt : b.toNat < 128 := hhead
      have hle : b ≤ 0xFF := UInt8.le_iff_toNat_le.mpr (by change b.toNat ≤ 255; omega)
      have hb : (0xFF - b).toNat = 255 - b.toNat := UInt8.toNat_sub_of_le _ _ hle
      change 0x80 ≤ 0xFF - b
      rw [UInt8.le_iff_toNat_le, hb]
      change 128 ≤ 255 - b.toNat
      omega
    rw [intContent, signed, if_pos hhigh, List.length_map, Int.negSucc_eq]
    rw [hval] at hcompl
    have hcast : ((beNat ((natContent n).map fun b => 0xFF - b) : ℕ) : ℤ) + n + 1 =
      256 ^ (natContent n).length := by
      exact_mod_cast hcompl
    omega

/-! ## Arcs -/

theorem chunk_eq (p : ℕ) : chunk p = (Nat.digits 128 (p / 128)).reverse ++ [p % 128] := by
  rcases Nat.eq_zero_or_pos p with rfl | hpos
  · rfl
  · rw [chunk, if_neg (by omega), Nat.digits_def' (by decide) hpos, List.reverse_cons]

theorem continued : ∀ d ∈ List.range 128, (UInt8.ofNat (d ||| 0x80)).toNat = 128 + d := by
  decide +kernel

theorem decodeArcs_high (ds : List ℕ) (hds : ∀ d ∈ ds, d < 128) (val : ℕ) (rest : List UInt8) :
    decodeArcs val ((ds.map fun d => UInt8.ofNat (d ||| 0x80)) ++ rest) =
      decodeArcs (ds.foldl (fun n d => n * 128 + d) val) rest := by
  induction ds generalizing val with
  | nil => rfl
  | cons d ds ih =>
    have hd := hds d List.mem_cons_self
    have hmod : (128 + d) % 128 = d := by omega
    rw [List.map_cons, List.cons_append, decodeArcs]
    simp only [continued d (List.mem_range.mpr hd), hmod, if_neg (by omega : ¬ 128 + d < 128)]
    exact ih (fun e he => hds e (List.mem_cons_of_mem _ he)) (val * 128 + d)

theorem decodeArcs_arcBytes (p : ℕ) (rest : List UInt8) :
    decodeArcs 0 (arcBytes p ++ rest) = p :: decodeArcs 0 rest := by
  have hlt : p % 128 < 128 := Nat.mod_lt p (by decide)
  have hlast : (UInt8.ofNat (p % 128)).toNat = p % 128 := UInt8.toNat_ofNat_of_lt' (hlt.trans (by decide))
  have hhigh : ((Nat.digits 128 (p / 128)).reverse).foldl (fun n d => n * 128 + d) 0 = p / 128 := by
    have hdigits := Nat.ofDigits_digits 128 (p / 128)
    rw [Nat.ofDigits_eq_foldr] at hdigits
    rw [List.foldl_reverse]
    simpa [add_comm, mul_comm] using hdigits
  have hbytes : arcBytes p = ((Nat.digits 128 (p / 128)).reverse.map fun d => UInt8.ofNat (d ||| 0x80)) ++
      [UInt8.ofNat (p % 128)] := by
    rw [arcBytes, chunk_eq, List.dropLast_concat, List.getLast?_concat]
    rfl
  rw [hbytes, List.append_assoc, decodeArcs_high _ (by
    intro d hd
    exact Nat.digits_lt_base (by decide) (List.mem_reverse.mp hd)), hhigh, List.singleton_append, decodeArcs]
  simp only [hlast, Nat.mod_mod, if_pos hlt]
  rw [Nat.div_add_mod' p 128]

theorem decodeArcs_flatMap (ps : List ℕ) : decodeArcs 0 (ps.flatMap arcBytes) = ps := by
  induction ps with
  | nil => rfl
  | cons p ps ih => rw [List.flatMap_cons, decodeArcs_arcBytes, ih]

/-! ## Object identifiers -/

/-- The arcs that come back: the first byte holds two of them. -/
def reread : List ℕ → List ℕ
  | a :: b :: rest => (a * 40 + b) / 40 :: (a * 40 + b) % 40 :: rest
  | parts => parts

theorem printable_small {n : ℕ} (h : n < 1000) : printable n = true := by
  have hlen : (decimal n).length ≤ 3 := (Nat.length_toDigits_le_iff (by decide) (by decide)).mpr h
  exact decide_eq_true (hlen.trans (by decide))

theorem decodeOid_encodeOid {parts : List ℕ} {bytes : List UInt8} (h : encodeOid parts = some bytes) :
    ∃ content, bytes = tlv 0x06 content ∧ decodeOid content = some (oidText (reread parts)) := by
  unfold encodeOid at h
  split at h
  · rename_i hall
    split at h
    · rename_i a b rest
      split at h
      · rename_i hfit
        have hfirst : (UInt8.ofNat (a * 40 + b)).toNat = a * 40 + b := UInt8.toNat_ofNat_of_lt' hfit
        have hrest : rest.all printable = true := by
          simp only [List.all_cons, Bool.and_eq_true] at hall
          exact hall.2.2
        have hhigh := printable_small (n := (a * 40 + b) / 40) (by omega)
        have hlow := printable_small (n := (a * 40 + b) % 40) (by omega)
        cases h
        refine ⟨_, rfl, ?_⟩
        simp only [decodeOid, hfirst, decodeArcs_flatMap, List.all_cons, hhigh, hlow, hrest, Bool.and_self,
          if_true]
        rfl
      · cases h
    · cases h
  · cases h

theorem decimal_injective {m n : ℕ} (h : decimal m = decimal n) : m = n := by
  rw [← Nat.ofDigitChars_ten_toDigits (n := m), ← Nat.ofDigitChars_ten_toDigits (n := n)]
  exact congrArg (fun ds => Nat.ofDigitChars 10 ds 0) h

theorem oidText_injective {ps qs : List ℕ} (hp : ps ≠ []) (hq : qs ≠ []) (h : oidText ps = oidText qs) :
    ps = qs := by
  have hdot : ∀ rs : List ℕ, ∀ l ∈ rs.map decimal, '.' ∉ l := by
    intro rs l hl hdot
    obtain ⟨n, _, rfl⟩ := List.mem_map.mp hl
    exact absurd (Nat.isDigit_of_mem_toDigits (by decide) (by decide) hdot) (by decide)
  have hsplit := congrArg (List.splitOn '.') h
  rw [oidText, oidText, List.splitOn_intercalate _ (hdot ps) (by simpa using hp),
    List.splitOn_intercalate _ (hdot qs) (by simpa using hq)] at hsplit
  exact List.map_injective_iff.mpr (fun _ _ => decimal_injective) hsplit

/-- The arcs come back as they are. -/
def Plain (parts : List ℕ) : Prop := ∃ a b rest, parts = a :: b :: rest ∧ b < 40

theorem reread_of_plain {parts : List ℕ} (h : Plain parts) : reread parts = parts := by
  obtain ⟨a, b, rest, rfl, hb⟩ := h
  have hdiv : (a * 40 + b) / 40 = a := by omega
  have hmod : (a * 40 + b) % 40 = b := by omega
  rw [reread, hdiv, hmod]

theorem plain_reread {a b : ℕ} {rest : List ℕ} : Plain (reread (a :: b :: rest)) :=
  ⟨_, _, rest, rfl, Nat.mod_lt _ (by decide)⟩

end
end Wavr.Ber
