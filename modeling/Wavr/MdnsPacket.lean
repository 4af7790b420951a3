import Wavr.Mdns

/-!
# What is read of an mDNS packet

Names, records and whole packets, as they are and cut anywhere.
-/

namespace Wavr.Mdns
open Bytes Text

section
variable {data : List UInt8} {pos : ℕ} {labels : List (List UInt8)} {jumped : Bool} {resumeAt hops : ℕ}

/-! ## Turns of the loop over a name -/

theorem readNameFrom_end (h : data.length ≤ pos) : readNameFrom data pos labels jumped resumeAt hops =
    (labels, resumeAt) := by
  rw [readNameFrom]
  split
  · rfl
  · rename_i length hget
    exact absurd (List.getElem?_eq_some_iff.mp hget).1 (not_lt.mpr h)

theorem readNameFrom_root (h : data[pos]? = some 0) :
    readNameFrom data pos labels jumped resumeAt hops = (labels, if jumped then resumeAt else pos + 1) := by
  rw [readNameFrom]
  split
  · rename_i hnone
    cases h.symm.trans hnone
  · rename_i length hget
    obtain rfl := Option.some.inj (h.symm.trans hget)
    exact if_pos rfl

theorem not_zero_of_mark {b : UInt8} (h : b &&& 0xC0 = 0xC0) : b ≠ 0 := by
  rintro rfl
  exact absurd h (by decide)

theorem readNameFrom_mark {high : UInt8} (h : data[pos]? = some high) (hmark : high &&& 0xC0 = 0xC0) :
    readNameFrom data pos labels jumped resumeAt hops =
      match data[pos + 1]? with
      | none => (labels, resumeAt)
      | some low =>
        if 64 < hops + 1 ∨ data.length ≤ pointerTo high low then (labels, if jumped then resumeAt else pos + 2)
        else readNameFrom data (pointerTo high low) labels true (if jumped then resumeAt else pos + 2) (hops + 1) := by
  rw [readNameFrom]
  split
  · rename_i hnone
    cases h.symm.trans hnone
  · rename_i length hget
    obtain rfl := Option.some.inj (h.symm.trans hget)
    rw [if_neg (not_zero_of_mark hmark), if_pos hmark]
    cases data[pos + 1]? with
    | none => rfl
    | some low => simp only [dite_eq_ite]

theorem readNameFrom_label {length : UInt8} (h : data[pos]? = some length) (hzero : length ≠ 0)
    (hmark : ¬ length &&& 0xC0 = 0xC0) :
    readNameFrom data pos labels jumped resumeAt hops =
      readNameFrom data (pos + 1 + length.toNat) (labels ++ [slice data (pos + 1) (pos + 1 + length.toNat)]) jumped
        (if jumped then resumeAt else pos + 1 + length.toNat) hops := by
  rw [readNameFrom]
  split
  · rename_i hnone
    cases h.symm.trans hnone
  · rename_i length' hget
    obtain rfl := Option.some.inj (h.symm.trans hget)
    rw [if_neg hzero, if_neg hmark]

/-- Once it has jumped, the caller's place stays. -/
theorem readNameFrom_jumped (h : jumped = true) : (readNameFrom data pos labels jumped resumeAt hops).2 =
    resumeAt := by
  fun_induction readNameFrom data pos labels jumped resumeAt hops with
  | case1 => rfl
  | case2 => exact if_pos h
  | case3 => rfl
  | case4 => exact if_pos h
  | case5 _ _ _ _ _ _ _ _ _ _ _ _ _ ih => exact (ih rfl).trans (if_pos h)
  | case6 _ _ _ _ _ _ _ _ _ _ ih => exact (ih h).trans (if_pos h)

/-! ## Names -/

/-- A name is read as what is encoded, behind the labels that are there. -/
theorem readNameFrom_at {jumps stop reach : ℕ} {ls : List (List UInt8)} (h : NameAt data jumps pos ls stop reach)
    (hhops : hops + jumps ≤ 64) : readNameFrom data pos labels jumped resumeAt hops =
      (labels ++ ls, if jumped then resumeAt else stop) := by
  induction h generalizing labels jumped resumeAt hops with
  | root h => rw [readNameFrom_root h.getElem?, List.append_nil]
  | @label jumps pos stop reach l ls h hpos hlt rest ih =>
    obtain ⟨hzero, hmark, hlength⟩ := label_length hpos hlt
    have hslice := (at_cons.mp h).2.slice
    rw [readNameFrom_label h.getElem? hzero hmark, hlength, hslice, ih hhops, List.append_assoc]
    cases jumped <;> rfl
  | @pointer jumps pos stop reach ls high low h hmark hback rest ih =>
    have hlow : data[pos + 1]? = some low := (at_cons.mp h).2.getElem?
    have hlt := (List.getElem?_eq_some_iff.mp h.getElem?).1
    rw [readNameFrom_mark h.getElem? hmark, hlow]
    simp only
    rw [if_neg (by omega), ih (by omega)]
    rfl

theorem readName_at {stop reach : ℕ} (h : LegalName data pos labels stop reach) :
    readName data pos = (dotted labels, stop) := by
  obtain ⟨jumps, hjumps, hname⟩ := h
  have hread : readNameFrom data pos [] false pos 0 = ([] ++ labels, stop) := readNameFrom_at hname (by omega)
  rw [readName, hread]
  rfl

/-! ## Cuts -/

section
variable {jumps stop reach k : ℕ} {ls : List (List UInt8)}

theorem NameAt.bounds (h : NameAt data jumps pos ls stop reach) :
    pos < stop ∧ stop ≤ reach ∧ reach ≤ data.length := by
  induction h with
  | root h =>
    have := h.length_le
    simp only [List.length_singleton] at this
    omega
  | label h hpos hlt rest ih => omega
  | pointer h hmark hback rest ih =>
    have := h.length_le
    simp only [List.length_cons, List.length_nil] at this
    omega

theorem NameAt.take (h : NameAt data jumps pos ls stop reach) (hk : reach ≤ k) :
    NameAt (data.take k) jumps pos ls stop reach := by
  induction h with
  | root h => exact .root (h.take hk)
  | @label jumps pos stop reach l ls h hpos hlt rest ih =>
    have hbounds := rest.bounds
    refine .label (h.take ?_) hpos hlt (ih hk)
    rw [List.length_cons]
    omega
  | pointer h hmark hback rest ih =>
    refine .pointer (h.take ?_) hmark hback (ih (by omega))
    simp only [List.length_cons, List.length_nil]
    omega

/-- Where a name ends behind the cut, the caller goes on at most a byte before it. -/
theorem resume_take (h : NameAt data jumps pos ls stop reach) (hk : k ≤ data.length) :
    let resume := (readNameFrom (data.take k) pos labels false pos 0).2
    (stop ≤ k → resume = stop) ∧ (k < stop → k ≤ resume + 1) := by
  have hlen : (data.take k).length = k := List.length_take_of_le hk
  have hget : ∀ {p : ℕ} {b : UInt8}, p < k → data[p]? = some b → (data.take k)[p]? = some b := by
    intro p b hp hb
    rw [List.getElem?_take_of_lt hp, hb]
  -- along the name: each label and each pointer lies before the cut, or is where it stops
  induction h generalizing labels with
  | @root pos h =>
    by_cases hin : pos < k
    · rw [readNameFrom_root (hget hin h.getElem?)]
      exact ⟨fun _ => rfl, fun hcut => absurd hcut (by omega)⟩
    · rw [readNameFrom_end (by omega)]
      exact ⟨fun hstop => absurd hstop (by omega), fun _ => by simp only; omega⟩
  | @label jumps pos stop reach l ls h hpos hlt rest ih =>
    obtain ⟨hzero, hmark, hlength⟩ := label_length hpos hlt
    have hbounds := rest.bounds
    by_cases hin : pos < k
    · rw [readNameFrom_label (hget hin h.getElem?) hzero hmark, hlength]
      exact ih
    · rw [readNameFrom_end (by omega)]
      exact ⟨fun hstop => absurd hstop (by omega), fun _ => by simp only; omega⟩
  | @pointer jumps pos stop reach ls high low h hmark hback rest ih =>
    have hlow : data[pos + 1]? = some low := (at_cons.mp h).2.getElem?
    by_cases hboth : pos + 1 < k
    · have hresume : (readNameFrom (data.take k) pos labels false pos 0).2 = pos + 2 := by
        rw [readNameFrom_mark (hget (by omega) h.getElem?) hmark, hget hboth hlow]
        simp only
        split
        · rfl
        · exact readNameFrom_jumped rfl
      rw [hresume]
      exact ⟨fun _ => rfl, fun hcut => absurd hcut (by omega)⟩
    by_cases hin : pos < k
    · have hnone : (data.take k)[pos + 1]? = none := List.getElem?_eq_none (by omega)
      rw [readNameFrom_mark (hget hin h.getElem?) hmark, hnone]
      exact ⟨fun hstop => absurd hstop (by omega), fun _ => by simp only; omega⟩
    · rw [readNameFrom_end (by omega)]
      exact ⟨fun hstop => absurd hstop (by omega), fun _ => by simp only; omega⟩

end

theorem LegalName.bounds {stop reach : ℕ} (h : LegalName data pos labels stop reach) :
    pos < stop ∧ stop ≤ reach ∧ reach ≤ data.length := by
  obtain ⟨jumps, _, hname⟩ := h
  exact hname.bounds

theorem LegalName.take {stop reach k : ℕ} (h : LegalName data pos labels stop reach) (hk : reach ≤ k) :
    LegalName (data.take k) pos labels stop reach := by
  obtain ⟨jumps, hjumps, hname⟩ := h
  exact ⟨jumps, hjumps, hname.take hk⟩

/-- Where the caller goes on in a cut packet. -/
theorem LegalName.resume {stop reach k : ℕ} (h : LegalName data pos labels stop reach) (hk : k ≤ data.length) :
    (stop ≤ k → (readName (data.take k) pos).2 = stop) ∧ (k < stop → k ≤ (readName (data.take k) pos).2 + 1) := by
  obtain ⟨jumps, _, hname⟩ := h
  exact resume_take hname hk

end

/-! ## Records -/

section
variable {lower : List Char → List Char} {data : List UInt8} {pos stop k : ℕ}

theorem readTxt_end {rdata : List UInt8} {tpos : ℕ} {f : Found} (h : rdata.length ≤ tpos) :
    readTxt lower rdata tpos f = f := by
  rw [readTxt]
  split
  · rfl
  · rename_i length hget
    exact absurd (List.getElem?_eq_some_iff.mp hget).1 (not_lt.mpr h)

theorem readTxt_string {rdata s : List UInt8} {tpos : ℕ} {f : Found} (h : At rdata tpos (stringBytes s))
    (hs : s.length < 256) : readTxt lower rdata tpos f = readTxt lower rdata (tpos + 1 + s.length) (addTxt lower s f) := by
  have hlength : (UInt8.ofNat s.length).toNat = s.length := by
    rw [UInt8.toNat_ofNat', Nat.mod_eq_of_lt hs]
  rw [readTxt]
  split
  · rename_i hnone
    cases h.getElem?.symm.trans hnone
  · rename_i length hget
    obtain rfl := Option.some.inj (h.getElem?.symm.trans hget)
    rw [hlength, (at_cons.mp h).2.slice]

theorem readTxt_strings {rdata : List UInt8} {strings : List (List UInt8)} {tpos : ℕ} {f : Found}
    (h : At rdata tpos (strings.flatMap stringBytes))
    (hall : rdata.length = tpos + (strings.flatMap stringBytes).length)
    (hsized : ∀ s ∈ strings, s.length < 256) :
    readTxt lower rdata tpos f = strings.foldl (fun f s => addTxt lower s f) f := by
  induction strings generalizing tpos f with
  | nil => exact readTxt_end (by simpa using hall.le)
  | cons s strings ih =>
    rw [List.flatMap_cons] at h hall
    obtain ⟨hfirst, hrest⟩ := at_append.mp h
    have hstring : (stringBytes s).length = 1 + s.length := by rw [stringBytes, List.length_cons, add_comm]
    rw [hstring, ← add_assoc] at hrest
    rw [List.length_append, hstring] at hall
    rw [readTxt_string hfirst (hsized s (by simp)), ih hrest (by omega) fun t ht => hsized t (by simp [ht]),
      List.foldl_cons]

/-- What stands in a slice that begins there. -/
theorem At.slice_self {bs : List UInt8} (h : At data pos bs) : At (slice data pos (pos + bs.length)) 0 bs := by
  rw [h.slice]
  exact at_self bs

theorem addRecord_at {r : Record} {rtype rdlength reach : ℕ} {f : Found}
    (h : DataAt data pos (pos + rdlength) r rtype reach) :
    addRecord lower data (dotted r.owner) rtype pos rdlength f = step lower f r := by
  generalize hstop : pos + rdlength = stop at h
  cases h with
  | ptr h => rw [addRecord, if_pos rfl, readName_at h]; rfl
  | srv h =>
    have hlong : 6 ≤ rdlength := by have := h.bounds; omega
    rw [addRecord, if_neg (by decide), if_pos rfl, if_pos hlong, readName_at h]
    rfl
  | @txt owner strings h hend hsized =>
    obtain rfl : rdlength = (strings.flatMap stringBytes).length := by omega
    rw [addRecord, if_neg (by decide), if_neg (by decide), if_pos rfl, h.slice,
      readTxt_strings (at_self _) (by simp) hsized]
    rfl
  | other h hptr hsrv htxt => rw [addRecord, if_neg hptr, if_neg hsrv, if_neg htxt]; rfl

theorem DataAt.take {r : Record} {rtype reach : ℕ} (h : DataAt data pos stop r rtype reach) (hstop : stop ≤ k)
    (hreach : reach ≤ k) : DataAt (data.take k) pos stop r rtype reach := by
  cases h with
  | ptr h => exact .ptr (h.take hreach)
  | srv h => exact .srv (h.take hreach)
  | txt h hend hsized => exact .txt (h.take (hend ▸ hstop)) hend hsized
  | other h hptr hsrv htxt => exact .other h hptr hsrv htxt

theorem RecordsAt.lt_stop {records : List Placed} (h : RecordsAt data pos records) :
    ∀ p ∈ records, pos < p.stop := by
  induction h with
  | nil => simp
  | cons howner _ _ _ _ _ _ ih =>
    have hbounds := howner.bounds
    rintro p (_ | ⟨_, hp⟩)
    · simp only
      omega
    · have := ih p hp
      omega

theorem DataAt.rtype_lt {r : Record} {rtype reach : ℕ} (h : DataAt data pos stop r rtype reach) :
    rtype < 65536 := by
  cases h with
  | ptr | srv | txt => decide
  | other h => exact h

/-- The fixed fields of a record, read where they are. -/
theorem fields_at {rtype rdlength : ℕ} {fixed : List UInt8}
    (h : At data pos (beBytes 2 rtype ++ (fixed ++ beBytes 2 rdlength))) (hsized : fixed.length = 6)
    (htype : rtype < 65536) (hlength : rdlength < 65536) :
    beNat (slice data pos (pos + 2)) = rtype ∧ beNat (slice data (pos + 8) (pos + 10)) = rdlength := by
  obtain ⟨hfirst, hrest⟩ := at_append.mp h
  obtain ⟨_, hlast⟩ := at_append.mp hrest
  rw [length_beBytes, hsized] at hlast
  exact ⟨hfirst.beNat htype, hlast.beNat hlength⟩

/-- Of a cut packet the records are read that end before the cut. -/
theorem readRecords_take {records : List Placed} {f : Found} (h : RecordsAt data pos records)
    (hk : k ≤ data.length)
    (hreach : ∀ p ∈ records, p.stop ≤ k → p.reach ≤ k) :
    readRecords lower (data.take k) records.length pos f =
      ((records.takeWhile (fun p => p.stop ≤ k)).map Placed.record).foldl (step lower) f := by
  have hlen : (data.take k).length = k := List.length_take_of_le hk
  induction h generalizing f with
  | nil => rfl
  | @cons pos ownerStop ownerReach rtype rdlength reach r fixed rest howner hfixed hsized hlength hfits hdata hrest ih =>
    have hbounds := howner.bounds
    obtain ⟨hin, hout⟩ := howner.resume hk
    have hfields : ownerStop + 10 ≤ k → _ := fun hten =>
      fields_at (hfixed.take (k := k) (by simp [hsized]; omega)) hsized hdata.rtype_lt hlength
    rw [List.length_cons, readRecords, hlen]
    by_cases hcut : ownerStop + 10 + rdlength ≤ k
    · -- the whole record is there
      obtain ⟨hown, hread⟩ := max_le_iff.mp (hreach _ List.mem_cons_self hcut)
      obtain ⟨htype, hrdlength⟩ := hfields (by omega)
      rw [if_neg (by omega), readName_at (howner.take hown)]
      simp only
      rw [if_neg (by omega), hrdlength, if_neg (by omega), htype, addRecord_at (hdata.take hcut hread),
        ih fun p hp => hreach p (by simp [hp]), List.takeWhile_cons_of_pos (by simpa using hcut)]
      rfl
    · rw [List.takeWhile_cons_of_neg (by simpa using hcut)]
      by_cases hpos : k ≤ pos
      · rw [if_pos hpos]
        rfl
      rw [if_neg hpos]
      simp only
      by_cases hten : k < (readName (data.take k) pos).2 + 10
      · rw [if_pos hten]
        rfl
      · have hstop : (readName (data.take k) pos).2 = ownerStop := hin (by omega)
        rw [hstop] at hten ⊢
        rw [if_neg hten, (hfields (by omega)).2, if_pos (by omega)]
        rfl

/-! ## Packets -/

theorem QuestionsAt.le {n : ℕ} (h : QuestionsAt data n pos stop) : pos ≤ stop := by
  induction h with
  | zero => exact le_refl _
  | succ hname _ _ ih =>
    have := hname.bounds
    omega

/-- Where the questions of a packet end in it cut; nowhere where the cut is before that. -/
theorem skipQuestions_take {n : ℕ} (h : QuestionsAt data n pos stop) (hk : k ≤ data.length) (hpos : pos ≤ k) :
    skipQuestions (data.take k) n pos = if stop ≤ k then some stop else none := by
  have hlen : (data.take k).length = k := List.length_take_of_le hk
  induction h with
  | zero => rw [skipQuestions, if_pos hpos]
  | @succ n pos nameStop nameReach stop labels hname hfits hrest ih =>
    have hbounds := hname.bounds
    have hstop := hrest.le
    obtain ⟨hin, hout⟩ := hname.resume hk
    rw [skipQuestions, hlen]
    by_cases hfirst : nameStop + 4 ≤ k
    · rw [if_neg (by omega), hin (by omega), if_neg (by omega), ih hfirst]
    · rw [if_neg (show ¬ stop ≤ k by omega)]
      split
      · rfl
      · rw [if_pos]
        by_cases hlast : nameStop ≤ k
        · rw [hin hlast]
          omega
        · have := hout (by omega)
          omega

theorem slice_take {a b : ℕ} (hb : b ≤ k) : slice (data.take k) a b = slice data a b := by
  rw [slice, slice, List.take_take, min_eq_left hb]

theorem DataAt.reach_le {r : Record} {rtype reach : ℕ} (h : DataAt data pos stop r rtype reach)
    (hstop : stop ≤ data.length) : reach ≤ data.length := by
  cases h with
  | ptr h | srv h => exact h.bounds.2.2
  | txt | other => exact hstop

theorem RecordsAt.le_length {records : List Placed} (h : RecordsAt data pos records) :
    ∀ p ∈ records, p.stop ≤ data.length ∧ p.reach ≤ data.length := by
  induction h with
  | nil => simp
  | cons howner _ _ _ hfits hdata _ ih =>
    rintro p (_ | ⟨_, hp⟩)
    · exact ⟨hfits, max_le howner.bounds.2.2 (hdata.reach_le hfits)⟩
    · exact ih p hp

/-- The records that end before a cut. -/
def upTo (k : ℕ) (records : List Placed) : List Record := (records.takeWhile fun p => p.stop ≤ k).map Placed.record

theorem upTo_eq_nil {records : List Placed} (h : RecordsAt data pos records) (hk : k ≤ pos) :
    upTo k records = [] := by
  cases records with
  | nil => rfl
  | cons p records =>
    have hlt := h.lt_stop p List.mem_cons_self
    rw [upTo, List.takeWhile_cons_of_neg (by simp only [decide_eq_true_eq]; omega)]
    rfl

theorem upTo_length {records : List Placed} (h : RecordsAt data pos records) :
    upTo data.length records = records.map Placed.record := by
  rw [upTo, List.takeWhile_eq_self_iff.mpr]
  intro p hp
  simpa using (h.le_length p hp).1

theorem parse_take {records : List Placed} (h : Packet data records) (hk : k ≤ data.length)
    (hreach : ∀ p ∈ records, p.stop ≤ k → p.reach ≤ k) :
    parseMdnsPacket lower (data.take k) = meaning lower (upTo k records) := by
  obtain ⟨stop, hquestions, hrecords⟩ := h.sections
  have hle := hquestions.le
  rw [parseMdnsPacket, List.length_take_of_le hk]
  split
  · rw [upTo_eq_nil hrecords (by omega)]
    rfl
  · rw [slice_take (by omega), slice_take (by omega), slice_take (by omega), slice_take (by omega),
      skipQuestions_take hquestions hk (by omega)]
    split
    · rename_i hnone
      by_cases hstop : stop ≤ k
      · rw [if_pos hstop] at hnone
        cases hnone
      · rw [upTo_eq_nil hrecords (by omega)]
        rfl
    · rename_i pos hsome
      obtain ⟨hstop, rfl⟩ : stop ≤ k ∧ stop = pos := by simpa using hsome
      rw [h.count]
      exact congrArg Found.parsed (readRecords_take hrecords hk hreach)

theorem parse_packet {records : List Placed} (h : Packet data records) :
    parseMdnsPacket lower data = meaning lower (records.map Placed.record) := by
  obtain ⟨stop, _, hrecords⟩ := h.sections
  have hparse : parseMdnsPacket lower (data.take data.length) = _ :=
    parse_take h (le_refl _) fun p hp _ => (hrecords.le_length p hp).2
  rwa [List.take_length, upTo_length hrecords] at hparse

/-! ## Services -/

theorem services_addTxt (chunk : List UInt8) (f : Found) : (addTxt lower chunk f).services = f.services := by
  rw [addTxt]
  split <;> rfl

theorem services_step (f : Found) (r : Record) : f.services ⊆ (step lower f r).services := by
  cases r with
  | ptr owner target =>
    simp only [step, addPtr]
    generalize (if LOCAL <:+ lower (rstripDots (dotted owner)) then _ else _ : List Char) = service
    by_cases hservice : service ≠ []
    · rw [if_pos hservice]
      exact Finset.subset_insert _ _
    · rw [if_neg hservice]
  | srv owner target =>
    simp only [step, addSrv]
    split
    · exact subset_rfl
    · split <;> exact subset_rfl
  | txt owner strings =>
    rw [step]
    induction strings generalizing f with
    | nil => exact subset_rfl
    | cons s strings ih =>
      rw [List.foldl_cons]
      exact (services_addTxt s f).symm.subset.trans (ih _)
  | other => exact subset_rfl

theorem services_foldl (f : Found) (records : List Record) :
    f.services ⊆ (records.foldl (step lower) f).services := by
  induction records generalizing f with
  | nil => exact subset_rfl
  | cons r records ih => exact (services_step f r).trans (ih _)

theorem services_upTo (k : ℕ) (records : List Placed) :
    (meaning lower (upTo k records)).services ⊆ (meaning lower (records.map Placed.record)).services := by
  have hsplit : records.map Placed.record =
      upTo k records ++ (records.dropWhile fun p => p.stop ≤ k).map Placed.record := by
    rw [upTo, ← List.map_append, List.takeWhile_append_dropWhile]
  rw [hsplit]
  simp only [meaning, Found.parsed, List.foldl_append]
  exact services_foldl _ _

/-- A legal name is read as its labels; a packet is read as its records, and cut anywhere as those of them that end
before the cut, where no name of a record is read from bytes behind its end. -/
theorem parse_exact (lower : List Char → List Char) (data : List UInt8) :
    (∀ pos labels stop reach, LegalName data pos labels stop reach → readName data pos = (dotted labels, stop)) ∧
    ∀ records, Packet data records →
      parseMdnsPacket lower data = meaning lower (records.map Placed.record) ∧
      ((∀ p ∈ records, p.reach ≤ p.stop) → ∀ k,
        parseMdnsPacket lower (data.take k) = meaning lower (upTo k records) ∧
        (parseMdnsPacket lower (data.take k)).services ⊆ (parseMdnsPacket lower data).services) := by
  refine ⟨fun pos labels stop reach => readName_at, fun records h => ⟨parse_packet h, fun hreach k => ?_⟩⟩
  have hcut : parseMdnsPacket lower (data.take k) = meaning lower (upTo k records) := by
    rcases le_total k data.length with hk | hk
    · exact parse_take h hk fun p hp hstop => (hreach p hp).trans hstop
    · obtain ⟨stop, _, hrecords⟩ := h.sections
      have hall : upTo k records = records.map Placed.record := by
        rw [upTo, List.takeWhile_eq_self_iff.mpr]
        intro p hp
        simpa using ((hrecords.le_length p hp).1).trans hk
      rw [List.take_of_length_le hk, hall, parse_packet h]
  refine ⟨hcut, ?_⟩
  rw [hcut, parse_packet h]
  exact services_upTo k records

end

/-! ## A name that reaches behind its record -/

/-- Both names of the first record are the packet's first bytes, up to the zero byte in the second record. -/
def behindPacket : List UInt8 :=
  [36, 0, 0, 0, 0, 0, 0, 2, 0, 0, 0, 0] ++ [0xC0, 0, 0, 12, 0, 0, 0, 0, 0, 0, 0, 2, 0xC0, 0] ++
    [0, 0, 1, 0, 0, 0, 0, 0, 0, 0, 1, 0]

def behindLabel : List UInt8 := slice behindPacket 1 37

theorem behindPacket_name {pos : ℕ} (h : At behindPacket pos [0xC0, 0]) (hpos : 0 < pos) :
    LegalName behindPacket pos [behindLabel] (pos + 2) (max (pos + 2) 38) :=
  ⟨1, by decide, .pointer h (by decide) hpos
    (.label ⟨[], _, rfl, rfl⟩ (by decide) (by decide) (.root ⟨behindPacket.take 37, [], by decide, by decide⟩))⟩

theorem behindPacket_packet : Packet behindPacket
    [⟨.ptr [behindLabel] [behindLabel], 26, 38⟩, ⟨.other [] 1, 38, 38⟩] where
  header := by decide
  count := by decide
  sections := by
    refine ⟨12, .zero, ?_⟩
    have hfirst : At behindPacket 12 [0xC0, 0] := ⟨behindPacket.take 12, behindPacket.drop 14, by decide,
      by decide⟩
    have hsecond : At behindPacket 24 [0xC0, 0] := ⟨behindPacket.take 24, behindPacket.drop 26, by decide,
      by decide⟩
    have howner := behindPacket_name hfirst (by decide)
    have htarget := behindPacket_name hsecond (by decide)
    have hroot : LegalName behindPacket 26 [] 27 27 :=
      ⟨0, by decide, .root ⟨behindPacket.take 26, behindPacket.drop 27, by decide, by decide⟩⟩
    have hlastFixed : At behindPacket 27 (beBytes 2 1 ++ (List.replicate 6 0 ++ beBytes 2 1)) :=
      ⟨behindPacket.take 27, [0], by decide, by decide⟩
    have hlast : RecordsAt behindPacket 26 [⟨.other [] 1, 38, 38⟩] :=
      .cons hroot hlastFixed (by decide) (by decide) (by decide)
        (.other (by decide) (by decide) (by decide) (by decide)) .nil
    have hfirstFixed : At behindPacket 14 (beBytes 2 TYPE_PTR ++ (List.replicate 6 0 ++ beBytes 2 2)) :=
      ⟨behindPacket.take 14, behindPacket.drop 24, by decide, by decide⟩
    exact .cons howner hfirstFixed (by decide) (by decide) (by decide) (.ptr htarget) hlast

/-- Cut behind the first record, the packet names another service. -/
theorem pointer_behind_cut :
    ¬ ∀ data records, Packet data records → ∀ k,
      (parseMdnsPacket (List.map Char.toLower) (data.take k)).services ⊆
        (parseMdnsPacket (List.map Char.toLower) data).services := by
  intro h
  have hcut := h behindPacket _ behindPacket_packet 26
  have hname : ∀ pos, (behindPacket.take 26)[pos]? = some 0xC0 → (behindPacket.take 26)[pos + 1]? = some 0 →
      readName (behindPacket.take 26) pos = (dotted [behindLabel.take 25], pos + 2) := by
    intro pos hhigh hlow
    rw [readName, readNameFrom_mark hhigh (by decide), hlow]
    simp only
    rw [if_neg (by decide), readNameFrom_label (show _ = some 36 by decide) (by decide) (by decide),
      readNameFrom_end (by decide)]
    rfl
  have hparse : parseMdnsPacket (List.map Char.toLower) (behindPacket.take 26) =
      meaning (List.map Char.toLower) [.ptr [behindLabel.take 25] [behindLabel.take 25]] := by
    rw [parseMdnsPacket, if_neg (by decide), show skipQuestions _ _ 12 = some 12 from rfl]
    have hfirst := hname 12 (by decide) (by decide)
    have hsecond := hname 24 (by decide) (by decide)
    have hcount : beNat (slice (behindPacket.take 26) 6 8) + beNat (slice (behindPacket.take 26) 8 10) +
        beNat (slice (behindPacket.take 26) 10 12) = 2 := by decide
    simp only [hcount]
    rw [readRecords, if_neg (by decide), hfirst]
    simp only
    rw [if_neg (by decide), if_neg (by decide), readRecords, if_pos (by decide), addRecord,
      if_pos (by decide), hsecond]
    rfl
  rw [parse_packet behindPacket_packet, hparse] at hcut
  revert hcut
  decide +kernel

end Wavr.Mdns
