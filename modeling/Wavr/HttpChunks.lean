import Wavr.HttpResponse

/-!
# Answers in chunks

What the loop over the chunks makes of a chunked body, of its cuts, and of a line that is no size.
-/

namespace Wavr.HttpResponse
open Bytes CNumbers Framing

/-! ## The chunks -/

section
variable {ulongMax pos : ℕ} {body decoded line rest : List UInt8}

theorem decodeChunks_none (h : find CRLF (body.drop pos) = none) :
    decodeChunks ulongMax body pos decoded = none := by
  rw [decodeChunks]
  split
  · rfl
  · rename_i i hi
    cases h.symm.trans hi

/-- One turn of the loop. -/
theorem decodeChunks_line (hbody : body.drop pos = line ++ CRLF ++ rest) (hline : ¬ CRLF <:+: line) :
    decodeChunks ulongMax body pos decoded =
      let n := strtoul ulongMax 16 (line ++ CRLF ++ rest)
      if n = 0 then some decoded
      else if rest.length < n then none
      else decodeChunks ulongMax body (pos + line.length + 2 + n + 2) (decoded ++ rest.take n) := by
  have hfind : find CRLF (line ++ CRLF ++ rest) = some line.length := find_crlf hline
  have hrest : body.drop (pos + line.length + 2) = rest := by
    have hlen : line.length + 2 = (line ++ CRLF).length := by simp [CRLF]
    rw [Nat.add_assoc, ← List.drop_drop, hbody, hlen, List.drop_left]
  have hlength : body.length - (pos + line.length + 2) = rest.length := by rw [← hrest, List.length_drop]
  rw [← hbody] at hfind
  rw [decodeChunks]
  split
  · rename_i hnone
    cases hfind.symm.trans hnone
  · rename_i i hi
    obtain rfl := Option.some.inj (hfind.symm.trans hi)
    simp only [hbody, hlength, slice, List.drop_take, hrest, Nat.add_sub_cancel_left]

theorem drop_turn (hbody : body.drop pos = line ++ CRLF ++ rest) (n : ℕ) :
    body.drop (pos + line.length + 2 + n + 2) = rest.drop (n + 2) := by
  have hlen : line.length + 2 = (line ++ CRLF).length := by simp [CRLF]
  have hsum : pos + line.length + 2 + n + 2 = pos + ((line.length + 2) + (n + 2)) := by omega
  rw [hsum, ← List.drop_drop, hbody, ← List.drop_drop, hlen, List.drop_left]

theorem sizeLine_no_break {n : ℕ} (size : Number 16 n) (ext : Extension) : ¬ CRLF <:+: size.text ++ ext.text :=
  no_crlf_of_not_mem (by simp [size.no_break, ext.line])

theorem strtoul_size {n : ℕ} (size : Number 16 n) (ext : Extension) (hmax : n ≤ ulongMax) :
    strtoul ulongMax 16 (size.text ++ ext.text ++ CRLF ++ rest) = n := by
  have hrest : ∀ b ∈ (ext.text ++ (CRLF ++ rest)).head?, isDigit 16 b = false ∧ b ≠ 120 ∧ b ≠ 88 := by
    intro b hb
    have hcases : b = 13 ∨ b = 59 ∨ b = 32 ∨ b = 9 := by
      cases hext : ext.text with
      | nil =>
        rw [hext] at hb
        cases hb
        exact .inl rfl
      | cons c t =>
        rw [hext] at hb
        cases hb
        exact .inr (ext.starts b (by simp [hext]))
    rcases hcases with rfl | rfl | rfl | rfl <;> decide
  rw [List.append_assoc, List.append_assoc,
    strtoul_digits (by decide) size.digits size.ne hrest (size.value_eq.trans_le hmax), size.value_eq]

/-- A beginning of a line and what follows it: either the line is not ended, or it is that line. -/
theorem line_of_prefix {s more : List UInt8} (hline : ¬ CRLF <:+: line) (hs : s <+: line ++ CRLF ++ more) :
    find CRLF s = none ∨ ∃ rest, s = line ++ CRLF ++ rest ∧ rest <+: more := by
  cases hfind : find CRLF s with
  | none => exact .inl rfl
  | some i =>
    obtain ⟨line', rest, rfl, hlen, _⟩ := exists_line hfind
    have hi := Option.some.inj ((find_mono hs hfind).symm.trans (find_crlf hline))
    obtain ⟨t, ht⟩ := hs
    rw [List.append_assoc, List.append_assoc, List.append_assoc] at ht
    obtain ⟨rfl, hmore⟩ := List.append_inj ht (hlen.trans hi)
    exact .inr ⟨rest, rfl, t, List.append_cancel_left hmore⟩

theorem chunk_cons (c : Chunk) (more : List UInt8) :
    c.bytes ++ more = c.size.text ++ c.ext.text ++ CRLF ++ (c.data ++ (CRLF ++ more)) := by
  simp [Chunk.bytes]

theorem drop_data {sep : List UInt8} (hsep : sep.length = 2) (data more : List UInt8) :
    (data ++ (sep ++ more)).drop (data.length + 2) = more := by
  rw [← List.append_assoc, ← hsep, ← List.length_append, List.drop_left]

/-- One chunk of which at least the size line is there. -/
theorem decodeChunks_chunk {c : Chunk} (hmax : c.data.length ≤ ulongMax)
    (hbody : body.drop pos = c.size.text ++ c.ext.text ++ CRLF ++ rest) (decoded : List UInt8) :
    decodeChunks ulongMax body pos decoded =
      if rest.length < c.data.length then none
      else decodeChunks ulongMax body (pos + (c.size.text ++ c.ext.text).length + 2 + c.data.length + 2)
        (decoded ++ rest.take c.data.length) := by
  have hzero : c.data.length ≠ 0 := fun h => c.ne (List.length_eq_zero_iff.mp h)
  rw [decodeChunks_line hbody (sizeLine_no_break c.size c.ext)]
  simp only [strtoul_size c.size c.ext hmax, hzero, if_false]

/-- Whole chunks are read one by one. -/
theorem decodeChunks_chunks {chunks : List Chunk} {tail : List UInt8}
    (hmax : ∀ c ∈ chunks, c.data.length ≤ ulongMax) (hbody : body.drop pos = chunks.flatMap Chunk.bytes ++ tail)
    (decoded : List UInt8) : ∃ pos', body.drop pos' = tail ∧ decodeChunks ulongMax body pos decoded =
      decodeChunks ulongMax body pos' (decoded ++ chunks.flatMap Chunk.data) := by
  induction chunks generalizing pos decoded with
  | nil => exact ⟨pos, hbody, by simp⟩
  | cons c cs ih =>
    rw [List.flatMap_cons, List.append_assoc, chunk_cons] at hbody
    have hnext := drop_turn hbody c.data.length
    rw [drop_data rfl] at hnext
    obtain ⟨pos', htail, heq⟩ := ih (fun c' hc' => hmax c' (List.mem_cons_of_mem c hc')) hnext (decoded ++ c.data)
    refine ⟨pos', htail, ?_⟩
    rw [decodeChunks_chunk (hmax c List.mem_cons_self) hbody, if_neg (by simp), List.take_left, heq]
    simp

/-- A cut of a chunked body is read as all of it or not at all. -/
theorem decodeChunks_prefix {chunks : List Chunk} {last : LastChunk}
    (hmax : ∀ c ∈ chunks, c.data.length ≤ ulongMax)
    (hbody : body.drop pos <+: chunks.flatMap Chunk.bytes ++ last.bytes) :
    decodeChunks ulongMax body pos decoded = none ∨
      decodeChunks ulongMax body pos decoded = some (decoded ++ chunks.flatMap Chunk.data) := by
  induction chunks generalizing pos decoded with
  | nil =>
    rcases line_of_prefix (sizeLine_no_break last.size last.ext) hbody with hnone | ⟨rest, hrest, _⟩
    · exact .inl (decodeChunks_none hnone)
    · refine .inr ?_
      rw [decodeChunks_line hrest (sizeLine_no_break last.size last.ext)]
      simp only [strtoul_size last.size last.ext (Nat.zero_le ulongMax), if_true]
      simp
  | cons c cs ih =>
    rw [List.flatMap_cons, List.append_assoc, chunk_cons] at hbody
    rcases line_of_prefix (sizeLine_no_break c.size c.ext) hbody with hnone | ⟨rest, hrest, hpre⟩
    · exact .inl (decodeChunks_none hnone)
    · rw [decodeChunks_chunk (hmax c List.mem_cons_self) hrest]
      split
      · exact .inl rfl
      · rename_i hlong
        have htake : rest.take c.data.length = c.data := by
          rw [List.prefix_iff_eq_take.mp hpre, List.take_take, min_eq_left (not_lt.mp hlong), List.take_left]
        have hnext := hpre.drop (c.data.length + 2)
        rw [← drop_turn hrest, drop_data rfl] at hnext
        rw [htake, List.flatMap_cons, ← List.append_assoc]
        exact ih (fun c' hc' => hmax c' (List.mem_cons_of_mem c hc')) hnext

theorem Pieces.length_pos {s : List UInt8} (h : Pieces ulongMax s) : 0 < s.length := by
  have hcrlf : CRLF.length = 2 := rfl
  cases h <;> simp only [List.length_append, hcrlf] <;> omega

theorem exists_data {n : ℕ} (h : n + 2 ≤ rest.length) :
    ∃ data sep, rest = data ++ (sep ++ rest.drop (n + 2)) ∧ data.length = n ∧ sep.length = 2 := by
  refine ⟨rest.take n, (rest.drop n).take 2, ?_, List.length_take_of_le (by omega), ?_⟩
  · rw [← List.drop_drop, List.take_append_drop, List.take_append_drop]
  · exact List.length_take_of_le (by rw [List.length_drop]; omega)

theorem pieces_of_isSome (h : (decodeChunks ulongMax body pos decoded).isSome = true) :
    Pieces ulongMax (body.drop pos) := by
  induction hsize : body.length - pos using Nat.strong_induction_on generalizing pos decoded with
  | _ size ih =>
    cases hfind : find CRLF (body.drop pos) with
    | none =>
      rw [decodeChunks_none hfind] at h
      cases h
    | some i =>
      obtain ⟨line, rest, hbody, _, hline⟩ := exists_line hfind
      have hlt := (find_some hfind).2.1
      rw [List.length_drop] at hlt
      rw [decodeChunks_line hbody hline] at h
      generalize hn : strtoul ulongMax 16 (line ++ CRLF ++ rest) = n at h
      simp only at h
      split_ifs at h with hzero hshort
      · rw [hbody]
        exact .last hline (hn.trans hzero)
      · cases h
      · have hnext := ih _ (by omega) h rfl
        rw [drop_turn hbody] at hnext
        have hlong := hnext.length_pos
        rw [List.length_drop] at hlong
        obtain ⟨data, sep, hrest, hdata, hsep⟩ := exists_data (by omega : n + 2 ≤ rest.length)
        have hne : data ≠ [] := fun he => hzero (by rw [← hdata, he, List.length_nil])
        rw [hbody, hrest]
        rw [hrest] at hn
        exact .piece hline hne (hn.trans hdata.symm) hsep hnext

theorem isSome_of_pieces {s : List UInt8} (h : Pieces ulongMax s) (hbody : body.drop pos = s) :
    (decodeChunks ulongMax body pos decoded).isSome = true := by
  induction h generalizing pos decoded with
  | last hline hn =>
    rw [decodeChunks_line hbody hline]
    simp only [hn, if_true, Option.isSome_some]
  | @piece line data sep rest hline hne hn hsep hrest ih =>
    have hzero : data.length ≠ 0 := fun h => hne (List.length_eq_zero_iff.mp h)
    have hnext := drop_turn hbody data.length
    rw [drop_data hsep] at hnext
    rw [decodeChunks_line hbody hline]
    simp only [hn, hzero, if_false]
    rw [if_neg (by simp)]
    exact ih hnext

/-- The loop ends well exactly on pieces. -/
theorem decodeChunks_isSome_iff :
    (decodeChunks ulongMax body pos decoded).isSome = true ↔ Pieces ulongMax (body.drop pos) :=
  ⟨pieces_of_isSome, fun h => isSome_of_pieces h rfl⟩

end

/-! ## Messages -/

section
variable {ulongMax : ℕ}

theorem line_of_framed (f : Framed) : f.line ≠ [] ∧ 13 ∉ f.line := by
  cases f with
  | length body field => exact ⟨by simp [Framed.line, LengthField.line], field.no_break⟩
  | chunked field chunks last => exact ⟨by simp [Framed.line, ChunkedField.line], field.no_break⟩

theorem data_le_bytes {chunks : List Chunk} {c : Chunk} (hc : c ∈ chunks) :
    c.data.length ≤ (chunks.flatMap Chunk.bytes).length := by
  obtain ⟨before, after, rfl⟩ := List.append_of_mem hc
  simp only [List.flatMap_append, List.flatMap_cons, Chunk.bytes, List.length_append]
  omega

/-- The chunks take more bytes than they hold. -/
theorem body_lt_bytes (chunks : List Chunk) (last : LastChunk) :
    (chunks.flatMap Chunk.data).length < (chunks.flatMap Chunk.bytes ++ last.bytes).length := by
  have hlast : 0 < last.bytes.length := by simp [LastChunk.bytes, CRLF]
  induction chunks with
  | nil => simpa using hlast
  | cons c cs ih =>
    simp only [List.flatMap_cons, List.length_append, Chunk.bytes] at ih ⊢
    omega

/-- What the parser makes of the head of a message and any body behind it. -/
def Message.decode (ulongMax : ℕ) (m : Message) (q : List UInt8) : Option (List UInt8) :=
  decodeBody ulongMax (lower (m.head.text m.framed.line)) q

theorem decode_prefix {m : Message} (hm : m.Spelled) (hmax : m.bytes.length ≤ ulongMax) {q : List UInt8}
    (hq : q <+: m.framed.bytes) : m.decode ulongMax q = none ∨ m.decode ulongMax q = some m.framed.body := by
  obtain ⟨head, framed⟩ := m
  simp only [Message.bytes, List.length_append] at hmax
  cases framed with
  | length body field =>
    simp only [Framed.bytes] at hmax hq
    rw [Message.decode, Framed.line, decodeBody_length field (by omega)]
    split
    · exact .inl rfl
    · rename_i hlong
      obtain rfl := hq.eq_of_length_le (not_lt.mp hlong)
      exact .inr (congrArg some (List.take_length))
  | chunked field chunks last =>
    have hdata : ∀ c ∈ chunks, c.data.length ≤ ulongMax := by
      intro c hc
      have hle := data_le_bytes hc
      simp only [Framed.bytes, List.length_append] at hmax
      omega
    rw [Message.decode, Framed.line, decodeBody_spelled hm]
    exact decodeChunks_prefix hdata hq

theorem decode_bytes {m : Message} (hm : m.Spelled) (hmax : m.bytes.length ≤ ulongMax) :
    m.decode ulongMax m.framed.bytes = some m.framed.body := by
  obtain ⟨head, framed⟩ := m
  simp only [Message.bytes, List.length_append] at hmax
  cases framed with
  | length body field =>
    simp only [Framed.bytes] at hmax
    rw [Message.decode, Framed.line, decodeBody_length field (by omega)]
    simp [Framed.bytes, Framed.body]
  | chunked field chunks last =>
    have hdata : ∀ c ∈ chunks, c.data.length ≤ ulongMax := by
      intro c hc
      have hle := data_le_bytes hc
      simp only [Framed.bytes, List.length_append] at hmax
      omega
    have hbody : (chunks.flatMap Chunk.bytes ++ last.bytes).drop 0 =
      chunks.flatMap Chunk.bytes ++ last.bytes := rfl
    obtain ⟨pos, htail, heq⟩ := decodeChunks_chunks hdata hbody []
    rw [Message.decode, Framed.line, decodeBody_spelled hm, Framed.bytes, heq,
      decodeChunks_line htail (sizeLine_no_break last.size last.ext)]
    simp only [strtoul_size last.size last.ext (Nat.zero_le ulongMax), if_true]
    rfl

theorem delivered_of_spelled {m : Message} (hm : m.Spelled) (hmax : m.bytes.length ≤ ulongMax) :
    Delivered ulongMax m := by
  obtain ⟨hne, hline⟩ := line_of_framed m.framed
  refine ⟨?_, fun p hp => ?_⟩
  · rw [Message.bytes, parse_head hne hline, ← Message.decode, decode_bytes hm hmax]
    rfl
  · by_cases hshort : p.length < (m.head.text m.framed.line ++ CRLF ++ CRLF).length
    · exact .inl (parse_cut hne hline hp hshort)
    · obtain ⟨q, rfl⟩ := List.prefix_of_prefix_length_le (List.prefix_append _ _) hp (not_lt.mp hshort)
      have hq := (List.prefix_append_right_inj _).mp hp
      rw [parse_head hne hline, ← Message.decode]
      rcases decode_prefix hm hmax hq with hnone | hsome
      · exact .inl (by rw [hnone]; rfl)
      · exact .inr (by rw [hsome]; rfl)

/-- A coding that the source does not find is not taken off. -/
theorem not_delivered {m : Message} (hm : ¬ m.Spelled) : ¬ Delivered ulongMax m := by
  rintro ⟨hparse, _⟩
  obtain ⟨hne, hline⟩ := line_of_framed m.framed
  obtain ⟨head, framed⟩ := m
  cases framed with
  | length body field => exact hm trivial
  | chunked field chunks last =>
    rw [Message.bytes, parse_head hne hline, Framed.line, decodeBody_unspelled hm] at hparse
    have hbody : chunks.flatMap Chunk.bytes ++ last.bytes = chunks.flatMap Chunk.data :=
      congrArg Result.body (Option.some.inj hparse)
    have hlt := body_lt_bytes chunks last
    rw [hbody] at hlt
    exact Nat.lt_irrefl _ hlt

theorem garbled_rejected_iff {g : Garbled} (hmax : g.bytes.length ≤ ulongMax) :
    parseResponse ulongMax g.bytes = none ↔ g.field.Spelled ∧ ¬ Pieces ulongMax g.tail := by
  have hne : g.field.line ≠ [] := by simp [ChunkedField.line]
  have hdata : ∀ c ∈ g.chunks, c.data.length ≤ ulongMax := by
    intro c hc
    have hle := data_le_bytes hc
    simp only [Garbled.bytes, List.length_append] at hmax
    omega
  rw [Garbled.bytes, parse_head hne g.field.no_break, Option.map_eq_none_iff]
  by_cases hf : g.field.Spelled
  · have hbody : (g.chunks.flatMap Chunk.bytes ++ g.tail).drop 0 = g.chunks.flatMap Chunk.bytes ++ g.tail := rfl
    obtain ⟨pos, htail, heq⟩ := decodeChunks_chunks hdata hbody []
    rw [decodeBody_spelled hf, heq, ← Option.not_isSome_iff_eq_none, decodeChunks_isSome_iff, htail]
    exact ⟨fun h => ⟨hf, h⟩, fun h => h.2⟩
  · rw [decodeBody_unspelled hf]
    exact ⟨fun h => (by cases h), fun h => absurd h.1 hf⟩

end

/-- Every answer within the range of sizes is delivered, and no cut of it as anything else, exactly when
it is framed by a length or the coding stands behind one blank. Where a line of a chunked one should be a size
and is none, it is rejected exactly when the source finds the coding and what begins with that line
is no pieces. -/
theorem parseResponse_exact (ulongMax : ℕ) :
    (∀ m : Message, m.bytes.length ≤ ulongMax → (Delivered ulongMax m ↔ m.Spelled)) ∧
      ∀ g : Garbled, g.bytes.length ≤ ulongMax →
        (parseResponse ulongMax g.bytes = none ↔ g.field.Spelled ∧ ¬ Pieces ulongMax g.tail) := by
  refine ⟨fun m hmax => ⟨fun h => ?_, fun hm => delivered_of_spelled hm hmax⟩,
    fun g hmax => garbled_rejected_iff hmax⟩
  by_contra hm
  exact not_delivered hm h

/-! ## One answer -/

def sampleHead : Head where
  version := ascii "1.1"
  status := 200
  code := ⟨ascii "200", by decide, List.all_eq_true.mp (by decide), by decide⟩
  reason := ascii " OK"
  before := []
  after := []
  version_ok := by decide
  three := by decide
  reason_ok := ⟨by decide, fun b hb => by cases hb; decide⟩

def sampleField : ChunkedField :=
  ⟨⟨ascii "Transfer-Encoding", by decide⟩, ⟨[32], by simp⟩, ⟨ascii "chunked", by decide⟩, ⟨[], by simp⟩⟩

def noExtension : Extension := ⟨[], by simp, by simp⟩

def sampleChunk : Chunk :=
  ⟨ascii "hello", by decide, ⟨ascii "5", by decide, List.all_eq_true.mp (by decide), by decide⟩, noExtension⟩

def sampleLast : LastChunk := ⟨⟨ascii "0", by decide, List.all_eq_true.mp (by decide), by decide⟩, noExtension, CRLF⟩

def sampleMessage : Message := ⟨sampleHead, .chunked sampleField [sampleChunk] sampleLast⟩

theorem sampleMessage_delivered : Delivered (2 ^ 64 - 1) sampleMessage :=
  ((parseResponse_exact (2 ^ 64 - 1)).1 sampleMessage (by decide)).mpr rfl

/-- Behind the same chunk a line that is no size. -/
def garbledSample : Garbled :=
  ⟨sampleHead, sampleField, [sampleChunk], ascii "zz", ascii "more", by decide, fun b hb => by cases hb; decide⟩

theorem garbled_accepted : parseResponse (2 ^ 64 - 1) garbledSample.bytes ≠ none := by
  have hlast : Pieces (2 ^ 64 - 1) (ascii "zz" ++ CRLF ++ ascii "more") := .last (by decide) (by decide)
  exact fun h => ((garbled_rejected_iff (by decide)).mp h).2 hlast

end Wavr.HttpResponse
