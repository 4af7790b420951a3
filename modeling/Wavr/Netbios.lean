import Wavr.Bytes

/-!
# Node status responses

`parse_nbstat_response`: the names and the unit id that a host answers with.
-/

namespace Wavr.Netbios
open Bytes

def QTYPE_NBSTAT : ℕ := 0x21

def GROUP_FLAG : ℕ := 0x8000

/-- Each turn takes at least one byte, so the length of the datagram is fuel enough. -/
def skipNameFrom (data : List UInt8) : ℕ → ℕ → ℕ
  | 0, _ => data.length
  | fuel + 1, pos =>
    match data[pos]? with
    | none => data.length
    | some length =>
      if length = 0 then pos + 1
      else if length &&& 0xC0 = 0xC0 then pos + 2
      else skipNameFrom data fuel (pos + 1 + length.toNat)

def skipName (data : List UInt8) (pos : ℕ) : ℕ := skipNameFrom data (data.length - pos) pos

def skipQuestions (data : List UInt8) : ℕ → ℕ → Option ℕ
  | 0, pos => some pos
  | n + 1, pos =>
    if data.length < skipName data pos + 4 then none
    else skipQuestions data n (skipName data pos + 4)

/-- The data of the first answer, where it is a node status that lies in the datagram. -/
def recordData (data : List UInt8) : Option (List UInt8) :=
  if data.length < 12 then none
  else
    match skipQuestions data (beNat (slice data 4 6)) 12 with
    | none => none
    | some pos =>
      if beNat (slice data 6 8) < 1 ∨ data.length ≤ pos then none
      else
        let pos := skipName data pos
        if data.length < pos + 10 then none
        else
          let rtype := beNat (slice data pos (pos + 2))
          let rdlength := beNat (slice data (pos + 8) (pos + 10))
          if rtype ≠ QTYPE_NBSTAT ∨ data.length < pos + 10 + rdlength then none
          else
            let rdata := slice data (pos + 10) (pos + 10 + rdlength)
            if rdata = [] then none else some rdata

/-- `decode("ascii", errors="replace")` of one byte. -/
def asciiChar (b : UInt8) : Char := if b < 128 then Char.ofNat b.toNat else '\uFFFD'

def rstrip (c : Char) (s : List Char) : List Char := (s.reverse.dropWhile (· = c)).reverse

def decodeName (raw : List UInt8) : List Char := rstrip '\x00' (rstrip ' ' (raw.map asciiChar))

structure Entry where
  name : List Char
  suffix : ℕ
  isGroup : Bool
  deriving DecidableEq

def readEntry (rdata : List UInt8) (offset : ℕ) : Entry where
  name := decodeName (slice rdata offset (offset + 15))
  suffix := (rdata.getD (offset + 15) 0).toNat
  isGroup := beNat (slice rdata (offset + 16) (offset + 18)) &&& GROUP_FLAG ≠ 0

/-- The entries that are there, and where the last of them ends. -/
def readEntries (rdata : List UInt8) : ℕ → ℕ → List Entry × ℕ
  | 0, offset => ([], offset)
  | n + 1, offset =>
    if rdata.length < offset + 18 then ([], offset)
    else
      let rest := readEntries rdata n (offset + 18)
      (readEntry rdata offset :: rest.1, rest.2)

/-- `f"{b:02x}"` -/
def hexByte (b : UInt8) : List Char := [Nat.digitChar (b.toNat / 16), Nat.digitChar (b.toNat % 16)]

def macText (mac : List UInt8) : List Char := [':'].intercalate (mac.map hexByte)

structure Response where
  entries : List Entry
  mac : Option (List Char)
  deriving DecidableEq

/-- How many names the record data announces. -/
def numNames (rdata : List UInt8) : ℕ := (rdata.headD 0).toNat

def readRecord (rdata : List UInt8) : Response :=
  let entries := readEntries rdata (numNames rdata) 1
  let macBytes := slice rdata entries.2 (entries.2 + 6)
  { entries := entries.1
    mac := if entries.2 + 6 ≤ rdata.length ∧ macBytes.any (· ≠ 0) then some (macText macBytes) else none }

/-- None is the empty dict. -/
def parseNbstatResponse (data : List UInt8) : Option Response := (recordData data).map readRecord

/-! ## What a host sends -/

/-- Labels, ended by the root or by a pointer. -/
structure WireName where
  labels : List (List UInt8)
  pointer : Option (UInt8 × UInt8)
  sized : ∀ l ∈ labels, 0 < l.length ∧ l.length < 64
  marked : ∀ p ∈ pointer, p.1 &&& 0xC0 = 0xC0

def labelBytes (l : List UInt8) : List UInt8 := UInt8.ofNat l.length :: l

def stopBytes : Option (UInt8 × UInt8) → List UInt8
  | none => [0]
  | some p => [p.1, p.2]

def WireName.bytes (n : WireName) : List UInt8 := n.labels.flatMap labelBytes ++ stopBytes n.pointer

/-- One entry of the name table. -/
structure RawEntry where
  raw : List UInt8
  suffix : UInt8
  flags : UInt8 × UInt8
  sized : raw.length = 15

def RawEntry.bytes (e : RawEntry) : List UInt8 := e.raw ++ [e.suffix, e.flags.1, e.flags.2]

def RawEntry.decoded (e : RawEntry) : Entry :=
  ⟨decodeName e.raw, e.suffix.toNat, beNat [e.flags.1, e.flags.2] &&& GROUP_FLAG ≠ 0⟩

/-- A well-formed node status response. -/
structure NodeStatus where
  /-- Transaction id and flags. -/
  head : List UInt8
  questions : List (WireName × List UInt8)
  ancount : ℕ
  /-- The counts of the other two sections. -/
  counts : List UInt8
  owner : WireName
  /-- Class and TTL. -/
  classTtl : List UInt8
  entries : List RawEntry
  unitId : List UInt8
  statistics : List UInt8
  /-- What follows the first answer. -/
  trailing : List UInt8
  headSized : head.length = 4
  questionsSized : questions.length < 0x10000 ∧ ∀ q ∈ questions, q.2.length = 4
  answered : 1 ≤ ancount ∧ ancount < 0x10000
  countsSized : counts.length = 4
  classTtlSized : classTtl.length = 6
  entriesSized : entries.length < 256
  unitIdSized : unitId.length = 6
  fits : 7 + 18 * entries.length + statistics.length < 0x10000

def NodeStatus.rdata (r : NodeStatus) : List UInt8 :=
  UInt8.ofNat r.entries.length :: (r.entries.flatMap RawEntry.bytes ++ (r.unitId ++ r.statistics))

def questionBytes (q : WireName × List UInt8) : List UInt8 := q.1.bytes ++ q.2

def NodeStatus.bytes (r : NodeStatus) : List UInt8 :=
  r.head ++ (beBytes 2 r.questions.length ++ (beBytes 2 r.ancount ++ (r.counts ++
    (r.questions.flatMap questionBytes ++ (r.owner.bytes ++ (beBytes 2 QTYPE_NBSTAT ++ (r.classTtl ++
      (beBytes 2 r.rdata.length ++ (r.rdata ++ r.trailing)))))))))

/-- An ASCII name, padded with blanks. -/
def padded (name : List UInt8) : List UInt8 := name ++ List.replicate (15 - name.length) 0x20

/-- Every announced entry lies in front of the bytes that the MAC is read from. -/
def AllPresent (data : List UInt8) : Prop :=
  ∃ rdata, recordData data = some rdata ∧ 1 + 18 * numNames rdata + 6 ≤ rdata.length

/-- The announced entries fit, or what is left behind those that fit is no MAC. -/
def NoFalseMac (rdata : List UInt8) : Prop :=
  1 + 18 * numNames rdata ≤ rdata.length ∨
    let left := rdata.drop (1 + 18 * ((rdata.length - 1) / 18))
    left.length < 6 ∨ (left.take 6).all (· = 0)

/-! ## Names -/

section
variable {data rdata : List UInt8} {pos : ℕ}

/-- A name is skipped to its end, wherever it stands and however long the datagram is. -/
theorem skipNameFrom_labels {labels : List (List UInt8)} (hs : ∀ l ∈ labels, 0 < l.length ∧ l.length < 64)
    {p : Option (UInt8 × UInt8)} (hp : ∀ q ∈ p, q.1 &&& 0xC0 = 0xC0) {fuel : ℕ}
    (h : At data pos (labels.flatMap labelBytes ++ stopBytes p)) (hfuel : data.length - pos ≤ fuel) :
    skipNameFrom data fuel pos = pos + (labels.flatMap labelBytes ++ stopBytes p).length := by
  induction labels generalizing pos fuel with
  | nil =>
    have hlen := h.length_le
    rw [List.flatMap_nil, List.nil_append] at h hlen ⊢
    cases p with
    | none =>
      obtain ⟨fuel, rfl⟩ : ∃ f, fuel = f + 1 := ⟨fuel - 1, by simp [stopBytes] at hlen; omega⟩
      simp [skipNameFrom, At.getElem? h, stopBytes]
    | some q =>
      obtain ⟨fuel, rfl⟩ : ∃ f, fuel = f + 1 := ⟨fuel - 1, by simp [stopBytes] at hlen; omega⟩
      have hmark := hp q rfl
      have hne : q.1 ≠ 0 := by
        intro h0
        rw [h0] at hmark
        exact absurd hmark (by decide)
      simp [skipNameFrom, At.getElem? h, stopBytes, hmark, hne]
  | cons l labels ih =>
    obtain ⟨hpos, hlt⟩ := hs l List.mem_cons_self
    obtain ⟨hne, hplain, hval⟩ := label_length hpos hlt
    have hlen := h.length_le
    rw [List.flatMap_cons, List.append_assoc] at h hlen ⊢
    obtain ⟨hlabel, hrest⟩ := at_append.mp h
    have hsize : (labelBytes l).length = l.length + 1 := rfl
    obtain ⟨fuel, rfl⟩ : ∃ f, fuel = f + 1 := ⟨fuel - 1, by simp [hsize] at hlen; omega⟩
    have hget : data[pos]? = some (UInt8.ofNat l.length) := hlabel.getElem?
    rw [hsize] at hrest
    rw [skipNameFrom, hget]
    simp only [if_neg hne, if_neg hplain, hval]
    have hnext : pos + 1 + l.length = pos + (l.length + 1) := by omega
    rw [hnext, ih (fun l' hl' => hs l' (List.mem_cons_of_mem _ hl')) hrest (by omega)]
    simp only [List.length_append, hsize]
    omega

theorem skipName_bytes (n : WireName) (h : At data pos n.bytes) : skipName data pos = pos + n.bytes.length :=
  skipNameFrom_labels n.sized n.marked h le_rfl

theorem bytes_ne_nil (n : WireName) : 0 < n.bytes.length := by
  unfold WireName.bytes stopBytes
  cases n.pointer <;> simp

theorem skipQuestions_bytes {questions : List (WireName × List UInt8)} (hs : ∀ q ∈ questions, q.2.length = 4)
    (h : At data pos (questions.flatMap questionBytes)) :
    skipQuestions data questions.length pos = some (pos + (questions.flatMap questionBytes).length) := by
  induction questions generalizing pos with
  | nil => rfl
  | cons q questions ih =>
    rw [List.flatMap_cons] at h
    obtain ⟨hq, hrest⟩ := at_append.mp h
    obtain ⟨hname, htail⟩ := at_append.mp hq
    have hsize := hs q List.mem_cons_self
    have hskip := skipName_bytes q.1 hname
    have hle := htail.length_le
    have hqsize : (questionBytes q).length = q.1.bytes.length + 4 := by
      rw [questionBytes, List.length_append, hsize]
    have hnext : skipName data pos + 4 = pos + (questionBytes q).length := by rw [hskip, hqsize]; omega
    rw [List.length_cons, skipQuestions, if_neg (by omega), hnext,
      ih (fun q' hq' => hs q' (List.mem_cons_of_mem _ hq')) hrest, List.flatMap_cons, List.length_append]
    congr 1
    omega

theorem entry_length (e : RawEntry) : e.bytes.length = 18 := by simp [RawEntry.bytes, e.sized]

theorem entries_length (es : List RawEntry) : (es.flatMap RawEntry.bytes).length = 18 * es.length := by
  induction es with
  | nil => rfl
  | cons e es ih =>
    rw [List.flatMap_cons, List.length_append, entry_length, ih, List.length_cons]
    omega

theorem rdata_length (r : NodeStatus) : r.rdata.length = 7 + 18 * r.entries.length + r.statistics.length := by
  simp only [NodeStatus.rdata, List.length_cons, List.length_append, entries_length, r.unitIdSized]
  omega

/-- The record data is found in front of whatever trails it. -/
theorem recordData_at (r : NodeStatus) (hall : At data 0 r.bytes) : recordData data = some r.rdata := by
  rw [NodeStatus.bytes] at hall
  obtain ⟨h0, hall⟩ := at_append.mp hall
  obtain ⟨hqd, hall⟩ := at_append.mp hall
  obtain ⟨han, hall⟩ := at_append.mp hall
  obtain ⟨hcounts, hall⟩ := at_append.mp hall
  obtain ⟨hquestions, hall⟩ := at_append.mp hall
  obtain ⟨howner, hall⟩ := at_append.mp hall
  obtain ⟨htype, hall⟩ := at_append.mp hall
  obtain ⟨hclass, hall⟩ := at_append.mp hall
  obtain ⟨hrdlength, hall⟩ := at_append.mp hall
  obtain ⟨hrdata, -⟩ := at_append.mp hall
  simp only [r.headSized, r.countsSized, r.classTtlSized, length_beBytes, Nat.zero_add, Nat.reduceAdd]
    at hqd han hquestions howner htype hrdlength hrdata
  have hqdcount : beNat (slice data 4 6) = r.questions.length := hqd.beNat r.questionsSized.1
  have hancount : beNat (slice data 6 8) = r.ancount := han.beNat r.answered.2
  have hskip := skipQuestions_bytes r.questionsSized.2 hquestions
  have hname := skipName_bytes r.owner howner
  have hrtype := htype.beNat (by decide : QTYPE_NBSTAT < 256 ^ 2)
  have hrlen := hrdlength.beNat (by rw [rdata_length]; have := r.fits; omega)
  have hnonempty := bytes_ne_nil r.owner
  have hfits := hrdata.length_le
  have hslice := hrdata.slice
  have hanswered := r.answered.1
  have hsize := rdata_length r
  generalize 12 + (r.questions.flatMap questionBytes).length = start at *
  generalize howned : start + r.owner.bytes.length = owned at *
  have hne : r.rdata ≠ [] := by simp [NodeStatus.rdata]
  have hpos : owned + 2 + 6 = owned + 8 ∧ owned + 8 + 2 = owned + 10 := ⟨rfl, rfl⟩
  simp only [recordData, hqdcount, hskip, hancount, hname]
  rw [if_neg (by omega), if_neg (by omega), if_neg (by omega)]
  simp only [hpos.1, hpos.2] at hrlen hslice hfits
  rw [hrtype, hrlen, if_neg (by omega), hslice, if_neg hne]

/-! ## Entries -/

theorem readEntry_bytes {e : RawEntry} {offset : ℕ} (h : At rdata offset e.bytes) :
    readEntry rdata offset = e.decoded := by
  obtain ⟨hraw, hrest⟩ := at_append.mp h
  rw [e.sized] at hrest
  obtain ⟨-, hflags⟩ := at_cons.mp hrest
  have hname : slice rdata offset (offset + 15) = e.raw := by
    rw [← e.sized]
    exact hraw.slice
  have hsuffix : rdata.getD (offset + 15) 0 = e.suffix := by
    rw [List.getD_eq_getElem?_getD, hrest.getElem?]
    rfl
  have hflag : slice rdata (offset + 16) (offset + 18) = [e.flags.1, e.flags.2] := hflags.slice
  rw [readEntry, hname, hsuffix, hflag]
  rfl

theorem readEntries_bytes {es : List RawEntry} {offset : ℕ} (h : At rdata offset (es.flatMap RawEntry.bytes)) :
    readEntries rdata es.length offset = (es.map RawEntry.decoded, offset + 18 * es.length) := by
  induction es generalizing offset with
  | nil => rfl
  | cons e es ih =>
    rw [List.flatMap_cons] at h
    obtain ⟨hentry, hrest⟩ := at_append.mp h
    have hle := hentry.length_le
    rw [entry_length] at hrest hle
    rw [List.length_cons, readEntries, if_neg (by omega), ih hrest, readEntry_bytes hentry]
    simp only [List.map_cons, Prod.mk.injEq, true_and]
    omega

/-- Reading stops at the announced number, or where the next entry does not fit. -/
theorem readEntries_end (rdata : List UInt8) (n offset : ℕ) :
    (readEntries rdata n offset).2 = offset + 18 * min n ((rdata.length - offset) / 18) := by
  induction n generalizing offset with
  | zero => simp [readEntries]
  | succ n ih =>
    by_cases h : rdata.length < offset + 18
    · have hnone : (rdata.length - offset) / 18 = 0 := Nat.div_eq_of_lt (by omega)
      simp [readEntries, h, hnone]
    · rw [readEntries, if_neg h]
      simp only [ih]
      omega

theorem any_nonzero (bs : List UInt8) : bs.any (· ≠ 0) = ! bs.all (· = 0) := by
  induction bs with
  | nil => rfl
  | cons b bs ih =>
    rw [List.any_cons, List.all_cons, ih]
    by_cases hb : b = 0 <;> simp [hb]

theorem readRecord_rdata (r : NodeStatus) : readRecord r.rdata =
    ⟨r.entries.map RawEntry.decoded, if r.unitId.all (· = 0) then none else some (macText r.unitId)⟩ := by
  have hnum : numNames r.rdata = r.entries.length :=
    UInt8.toNat_ofNat_of_lt' r.entriesSized
  have hall : At r.rdata 0 r.rdata := at_self r.rdata
  obtain ⟨-, hall⟩ := at_cons.mp hall
  obtain ⟨hentries, hall⟩ := at_append.mp hall
  obtain ⟨hunit, -⟩ := at_append.mp hall
  rw [entries_length, Nat.zero_add] at hunit
  have hmac := hunit.slice
  have hle := hunit.length_le
  rw [r.unitIdSized] at hmac hle
  simp only [readRecord, hnum, readEntries_bytes hentries, Nat.zero_add, hmac, any_nonzero]
  cases hz : r.unitId.all (· = 0) <;> simp [hle]

/-! ## The MAC -/

theorem mac_ne_none_iff (rdata : List UInt8) :
    (readRecord rdata).mac ≠ none ↔
      (readEntries rdata (numNames rdata) 1).2 + 6 ≤ rdata.length ∧
        (slice rdata (readEntries rdata (numNames rdata) 1).2
          ((readEntries rdata (numNames rdata) 1).2 + 6)).any (· ≠ 0) := by
  simp [readRecord]

theorem slice_eq_take (data : List UInt8) (pos n : ℕ) : slice data pos (pos + n) = (data.drop pos).take n := by
  rw [slice, List.drop_take, Nat.add_sub_cancel_left]

/-- A MAC is never read in front of the announced entries' end exactly when none is left there. -/
theorem mac_iff (hne : rdata ≠ []) :
    ((readRecord rdata).mac ≠ none → 1 + 18 * numNames rdata + 6 ≤ rdata.length) ↔ NoFalseMac rdata := by
  have hpos : 0 < rdata.length := List.length_pos_iff.mpr hne
  rw [mac_ne_none_iff, readEntries_end]
  by_cases hfit : 1 + 18 * numNames rdata ≤ rdata.length
  · have hall : min (numNames rdata) ((rdata.length - 1) / 18) = numNames rdata := by omega
    rw [hall]
    exact iff_of_true (fun h => h.1) (.inl hfit)
  · have hsome : min (numNames rdata) ((rdata.length - 1) / 18) = (rdata.length - 1) / 18 := by omega
    have hnot : ¬ 1 + 18 * numNames rdata + 6 ≤ rdata.length := by omega
    rw [hsome, slice_eq_take, any_nonzero, NoFalseMac]
    simp only [hnot, imp_false, hfit, false_or, not_and_or, List.length_drop, Bool.not_eq_true', Bool.not_eq_false,
      not_le]
    exact or_congr_left (by omega)

end

/-! ## Names in the table -/

theorem rstrip_replicate {c : Char} {s : List Char} (hs : s.getLast? ≠ some c) (n : ℕ) :
    rstrip c (s ++ List.replicate n c) = s := by
  have hhead : ∀ d ∈ s.reverse.head?, decide (d = c) = false := by
    intro d hd
    rw [List.head?_reverse] at hd
    exact decide_eq_false fun h => hs (h ▸ hd)
  have hdrop : s.reverse.dropWhile (· = c) = s.reverse := by
    cases hr : s.reverse with
    | nil => rfl
    | cons d ds =>
      rw [hr] at hhead
      exact List.dropWhile_cons_of_neg (by simpa using hhead d rfl)
  rw [rstrip, List.reverse_append, List.reverse_replicate, List.dropWhile_append_of_pos (by simp), hdrop,
    List.reverse_reverse]

theorem blank_of_ascii : ∀ n ∈ List.range 128,
    (Char.ofNat n = ' ' → UInt8.ofNat n = 0x20) ∧ (Char.ofNat n = '\x00' → UInt8.ofNat n = 0) := by
  decide +kernel

/-- The last character of an ASCII name stands for its last byte. -/
theorem getLast?_map_ascii {name : List UInt8} (hascii : ∀ b ∈ name, b < 128) {c : Char} {b : UInt8}
    (hc : ∀ n ∈ List.range 128, Char.ofNat n = c → UInt8.ofNat n = b) (hlast : name.getLast? ≠ some b) :
    (name.map fun b => Char.ofNat b.toNat).getLast? ≠ some c := by
  rw [List.getLast?_map]
  intro h
  obtain ⟨d, hd, hdc⟩ := Option.map_eq_some_iff.mp h
  have hlt : d.toNat < 128 := hascii d (List.mem_of_mem_getLast? hd)
  have hdb := hc d.toNat (List.mem_range.mpr hlt) hdc
  rw [UInt8.ofNat_toNat] at hdb
  exact hlast (hdb ▸ hd)

/-- A padded ASCII name is read back. -/
theorem decodeName_padded {name : List UInt8} (hascii : ∀ b ∈ name, b < 128)
    (hblank : name.getLast? ≠ some 0x20) (hnul : name.getLast? ≠ some 0) :
    decodeName (padded name) = name.map fun b => Char.ofNat b.toNat := by
  have hmap : name.map asciiChar = name.map fun b => Char.ofNat b.toNat :=
    List.map_congr_left fun b hb => if_pos (hascii b hb)
  have hpad : asciiChar 0x20 = ' ' := rfl
  have hlast := getLast?_map_ascii hascii (fun n hn => (blank_of_ascii n hn).1) hblank
  have hlast' := getLast?_map_ascii hascii (fun n hn => (blank_of_ascii n hn).2) hnul
  rw [decodeName, padded, List.map_append, List.map_replicate, hpad, hmap, rstrip_replicate hlast]
  simpa using rstrip_replicate hlast' 0

theorem recordData_ne_nil {data rdata : List UInt8} (h : recordData data = some rdata) : rdata ≠ [] := by
  unfold recordData at h
  dsimp only at h
  split at h
  · cases h
  split at h
  · cases h
  split at h
  · cases h
  split at h
  · cases h
  split at h
  · cases h
  split at h
  · cases h
  · cases h
    assumption

/-- A well-formed response is read exactly; and a MAC stands behind all the announced entries
exactly when those that do not fit leave no six bytes of which one is not zero. -/
theorem nbstat_exact (data : List UInt8) :
    (∀ r : NodeStatus, parseNbstatResponse r.bytes = some
      ⟨r.entries.map RawEntry.decoded, if r.unitId.all (· = 0) then none else some (macText r.unitId)⟩) ∧
    (∀ name : List UInt8, (∀ b ∈ name, b < 128) → name.getLast? ≠ some 0x20 → name.getLast? ≠ some 0 →
      decodeName (padded name) = name.map fun b => Char.ofNat b.toNat) ∧
    ((∀ resp, parseNbstatResponse data = some resp → resp.mac ≠ none → AllPresent data) ↔
      ∀ rdata, recordData data = some rdata → NoFalseMac rdata) := by
  refine ⟨fun r => ?_, fun name => decodeName_padded, ?_⟩
  · rw [parseNbstatResponse, recordData_at r (at_self r.bytes), Option.map_some, readRecord_rdata]
  · cases hdata : recordData data with
    | none => simp [parseNbstatResponse, hdata]
    | some rdata =>
      simp only [parseNbstatResponse, AllPresent, hdata, Option.map_some, Option.some.injEq, forall_eq',
        exists_eq_left']
      exact mac_iff (recordData_ne_nil hdata)

/-- Two names announced, and twelve bytes of statistics where the first should stand. -/
def shortTable : List UInt8 :=
  [0x13, 0x37, 0x84, 0, 0, 0, 0, 1, 0, 0, 0, 0] ++ [0] ++ [0, 0x21, 0, 1, 0, 0, 0, 0, 0, 13] ++
    [2, 0x41, 0x42, 0x43, 0x44, 0x45, 0x46, 0x20, 0x20, 0x20, 0x20, 0x20, 0x20]

/-- The first six bytes of the name come back as the MAC. -/
theorem shortTable_mac :
    ¬ ∀ resp, parseNbstatResponse shortTable = some resp → resp.mac ≠ none → AllPresent shortTable := by
  have hdata : recordData shortTable = some
      [2, 0x41, 0x42, 0x43, 0x44, 0x45, 0x46, 0x20, 0x20, 0x20, 0x20, 0x20, 0x20] := by decide
  have hparse : parseNbstatResponse shortTable = some ⟨[], some "41:42:43:44:45:46".toList⟩ := by decide
  intro h
  obtain ⟨rdata, hrdata, hfit⟩ := h _ hparse (by simp)
  cases hdata.symm.trans hrdata
  exact absurd hfit (by decide)

end Wavr.Netbios
