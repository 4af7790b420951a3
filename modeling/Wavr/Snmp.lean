import Wavr.Ber
import Wavr.Dict
import Wavr.OptionList

/-!
# SNMP responses

`parse_snmp_response`, and the GetResponse messages that an agent sends.
-/

namespace Wavr.Snmp
open Bytes Ber

/-- Each turn takes at least two bytes, so the length of the list is fuel enough. -/
def readVarbinds (vblist : List UInt8) : ℕ → ℕ → Dict (List Char) Decoded → Option (Dict (List Char) Decoded)
  | 0, _, result => some result
  | fuel + 1, vpos, result =>
    if vblist.length ≤ vpos then some result
    else do
      let (_, seqcontent, vpos) ← readTlv vblist vpos
      let (_, oidcontent, spos) ← readTlv seqcontent 0
      let (valtag, valcontent, _) ← readTlv seqcontent spos
      let value ← decodeValue valtag valcontent
      let oid ← decodeOid oidcontent
      readVarbinds vblist fuel vpos (result.set oid value)

/-- None where something raises. -/
def readResponse (data : List UInt8) : Option (Dict (List Char) Decoded) := do
  let (_, content, _) ← readTlv data 0
  let (_, _, pos) ← readTlv content 0
  let (_, _, pos) ← readTlv content pos
  let (ptag, pcontent, _) ← readTlv content pos
  if ptag ≠ 0xA2 then some .empty
  else do
    let (_, _, ppos) ← readTlv pcontent 0
    let (_, _, ppos) ← readTlv pcontent ppos
    let (_, _, ppos) ← readTlv pcontent ppos
    let (_, vblist, _) ← readTlv pcontent ppos
    readVarbinds vblist vblist.length 0 .empty

def parseSnmpResponse (data : List UInt8) : Dict (List Char) Decoded := (readResponse data).getD .empty

/-! ## What an agent sends -/

inductive Value where
  | int (z : ℤ)
  | octets (bs : List UInt8)
  | oid (parts : List ℕ)
  | null

def Value.bytes : Value → Option (List UInt8)
  | .int z => some (encodeInt z)
  | .octets bs => some (tlv 0x04 bs)
  | .oid parts => encodeOid parts
  | .null => some (tlv 0x05 [])

def Value.decoded : Value → Decoded
  | .int z => .int z
  | .octets bs => .str (decodeUtf8 bs)
  | .oid parts => .str (oidText parts)
  | .null => .none

structure Varbind where
  oid : List ℕ
  value : Value

def Varbind.content (v : Varbind) : Option (List UInt8) := do
  let oid ← encodeOid v.oid
  let value ← v.value.bytes
  some (oid ++ value)

/-- A GetResponse of SNMPv1. -/
structure Message where
  community : List UInt8
  requestId : ℤ
  errorStatus : ℤ
  errorIndex : ℤ
  varbinds : List Varbind

def Message.pdu (m : Message) (varbinds : List (List UInt8)) : List UInt8 :=
  encodeInt m.requestId ++ (encodeInt m.errorStatus ++ (encodeInt m.errorIndex ++
    tlv 0x30 (varbinds.flatMap (tlv 0x30))))

def Message.content (m : Message) (varbinds : List (List UInt8)) : List UInt8 :=
  encodeInt 0 ++ (tlv 0x04 m.community ++ tlv 0xA2 (m.pdu varbinds))

/-- None where an object identifier does not encode. -/
def Message.bytes (m : Message) : Option (List UInt8) :=
  (m.varbinds.mapM Varbind.content).map fun varbinds => tlv 0x30 (m.content varbinds)

/-- What the varbinds say. -/
def Message.expected (m : Message) : List (List Char × Decoded) :=
  m.varbinds.map fun v => (oidText v.oid, v.value.decoded)

def Value.oids : Value → List (List ℕ)
  | .oid parts => [parts]
  | _ => []

/-- All object identifiers of a message. -/
def Message.oids (m : Message) : List (List ℕ) := m.varbinds.flatMap fun v => v.oid :: v.value.oids

/-- The first arc is 0, 1 or 2, and below 2 the second one is below 40. -/
def ValidOid (parts : List ℕ) : Prop := ∃ a b rest, parts = a :: b :: rest ∧ a ≤ 2 ∧ (a < 2 → b < 40)

/-- The second arc is below 40 anyway, and no arc is too long for `int` and `str`. -/
def Readable (parts : List ℕ) : Prop := Plain parts ∧ ∀ arc ∈ parts, printable arc = true

/-! ## Reading a message -/

/-- What comes back of a value. -/
def Value.returned : Value → Decoded
  | .oid parts => .str (oidText (reread parts))
  | v => v.decoded

def Varbind.returned (v : Varbind) : List Char × Decoded := (oidText (reread v.oid), v.value.returned)

def setAll (es : List (List Char × Decoded)) (d : Dict (List Char) Decoded) : Dict (List Char) Decoded :=
  es.foldl (fun d e => d.set e.1 e.2) d

theorem value_bytes {v : Value} {bytes : List UInt8} (h : v.bytes = some bytes) :
    ∃ tag content, bytes = tlv tag content ∧ decodeValue tag content = some v.returned := by
  cases v with
  | int z =>
    cases h
    exact ⟨0x02, intContent z, rfl, by simp [decodeValue, signed_intContent, Value.returned, Value.decoded]⟩
  | octets bs =>
    cases h
    exact ⟨0x04, bs, rfl, rfl⟩
  | oid parts =>
    obtain ⟨content, hbytes, hdecode⟩ := decodeOid_encodeOid h
    exact ⟨0x06, content, hbytes, by simp [decodeValue, hdecode, Value.returned]⟩
  | null =>
    cases h
    exact ⟨0x05, [], rfl, rfl⟩

theorem length_le_tlv (tag : UInt8) (content : List UInt8) : content.length ≤ (tlv tag content).length := by
  rw [tlv, List.length_append]
  omega

theorem tlv_pos (tag : UInt8) (content : List UInt8) : 0 < (tlv tag content).length := by
  simp [tlv]

/-- One turn over one varbind. -/
theorem readVarbinds_step {v : Varbind} {content : List UInt8} (hv : v.content = some content)
    {vblist : List UInt8} (hsize : vblist.length < MAX_SIZE) {pos : ℕ} (h : At vblist pos (tlv 0x30 content))
    (fuel : ℕ) (result : Dict (List Char) Decoded) :
    readVarbinds vblist (fuel + 1) pos result = readVarbinds vblist fuel (pos + (tlv 0x30 content).length)
      (result.set v.returned.1 v.returned.2) := by
  obtain ⟨oid, hoid, hv⟩ := Option.bind_eq_some_iff.mp hv
  obtain ⟨value, hvalue, hv⟩ := Option.bind_eq_some_iff.mp hv
  cases hv
  obtain ⟨oidContent, rfl, hdecodeOid⟩ := decodeOid_encodeOid hoid
  obtain ⟨tag, valueContent, rfl, hdecode⟩ := value_bytes hvalue
  have hle := h.length_le
  have hcontent := length_le_tlv 0x30 (tlv 0x06 oidContent ++ tlv tag valueContent)
  have hparts : (tlv 0x06 oidContent ++ tlv tag valueContent).length =
      (tlv 0x06 oidContent).length + (tlv tag valueContent).length := List.length_append
  have hoidLe := length_le_tlv 0x06 oidContent
  have hvalueLe := length_le_tlv tag valueContent
  have hpos := tlv_pos 0x30 (tlv 0x06 oidContent ++ tlv tag valueContent)
  obtain ⟨h1, h2⟩ := at_append.mp (at_self (tlv 0x06 oidContent ++ tlv tag valueContent))
  rw [readVarbinds, if_neg (by omega)]
  simp only [readTlv_at h (by omega), readTlv_at h1 (by omega), readTlv_at h2 (by omega), bind, Option.bind,
    hdecode, hdecodeOid, Varbind.returned]

theorem readVarbinds_all {vs : List Varbind} {contents : List (List UInt8)}
    (hvs : List.Forall₂ (fun v c => v.content = some c) vs contents) {vblist : List UInt8}
    (hsize : vblist.length < MAX_SIZE) {pos : ℕ} (h : At vblist pos (contents.flatMap (tlv 0x30)))
    (hend : pos + (contents.flatMap (tlv 0x30)).length = vblist.length) {fuel : ℕ}
    (hfuel : vblist.length - pos ≤ fuel) (result : Dict (List Char) Decoded) :
    readVarbinds vblist fuel pos result = some (setAll (vs.map Varbind.returned) result) := by
  induction hvs generalizing pos fuel result with
  | nil =>
    rw [List.flatMap_nil, List.length_nil] at hend
    cases fuel with
    | zero => rfl
    | succ fuel =>
      rw [readVarbinds, if_pos (by omega)]
      rfl
  | @cons v content vs contents hv _ ih =>
    rw [List.flatMap_cons] at h hend
    obtain ⟨hhead, htail⟩ := at_append.mp h
    have hpos := tlv_pos 0x30 content
    have hle := hhead.length_le
    rw [List.length_append] at hend
    obtain ⟨fuel, rfl⟩ : ∃ f, fuel = f + 1 := ⟨fuel - 1, by omega⟩
    rw [readVarbinds_step hv hsize hhead, ih htail (by omega) (by omega)]
    rfl

/-- A turn that goes on leaves the list behind its start. -/
theorem readTlv_advances {data content : List UInt8} {pos next : ℕ} {tag : UInt8}
    (h : readTlv data pos = some (tag, content, next)) : pos < next := by
  unfold readTlv at h
  grind

theorem readVarbinds_fuel {vblist : List UInt8} {fuel fuel' pos : ℕ} (h : vblist.length ≤ pos + fuel)
    (h' : vblist.length ≤ pos + fuel') (result : Dict (List Char) Decoded) :
    readVarbinds vblist fuel pos result = readVarbinds vblist fuel' pos result := by
  induction fuel generalizing fuel' pos result with
  | zero =>
    cases fuel' with
    | zero => rfl
    | succ fuel' => rw [readVarbinds, readVarbinds, if_pos (by omega)]
  | succ fuel ih =>
    cases fuel' with
    | zero => rw [readVarbinds, readVarbinds, if_pos (by omega)]
    | succ fuel' =>
      rw [readVarbinds, readVarbinds]
      split
      · rfl
      · cases hread : readTlv vblist pos with
        | none => rfl
        | some r =>
          obtain ⟨tag, seqcontent, next⟩ := r
          have hnext := readTlv_advances hread
          have hrest : ∀ result, readVarbinds vblist fuel next result = readVarbinds vblist fuel' next result :=
            ih (by omega) (by omega)
          simp only [bind, Option.bind, hrest]

/-- A message is read to its end. -/
theorem parse_bytes {m : Message} {d : List UInt8} (h : m.bytes = some d) (hsize : d.length < MAX_SIZE) :
    parseSnmpResponse d = setAll (m.varbinds.map Varbind.returned) .empty := by
  obtain ⟨contents, hcontents, rfl⟩ := Option.map_eq_some_iff.mp h
  have hvs := OptionList.forall₂_of_mapM hcontents
  have hc := length_le_tlv 0x30 (m.content contents)
  have hp : (m.pdu contents).length ≤ (m.content contents).length := by
    have := length_le_tlv 0xA2 (m.pdu contents)
    simp only [Message.content, List.length_append]
    omega
  have hv : (contents.flatMap (tlv 0x30)).length ≤ (m.pdu contents).length := by
    have := length_le_tlv 0x30 (contents.flatMap (tlv 0x30))
    simp only [Message.pdu, List.length_append]
    omega
  have hints : ∀ z : ℤ, ∀ {data pos}, data.length < MAX_SIZE → At data pos (encodeInt z) →
      readTlv data pos = some (0x02, intContent z, pos + (encodeInt z).length) := by
    intro z data pos hdata hat
    have hle := hat.length_le
    have hz := length_le_tlv 0x02 (intContent z)
    exact readTlv_at hat (hz.trans_lt (by rw [encodeInt] at hle; omega))
  obtain ⟨h1, hrest⟩ := at_append.mp (at_self (m.content contents))
  obtain ⟨h2, h3⟩ := at_append.mp hrest
  obtain ⟨h4, hrest⟩ := at_append.mp (at_self (m.pdu contents))
  obtain ⟨h5, hrest⟩ := at_append.mp hrest
  obtain ⟨h6, h7⟩ := at_append.mp hrest
  have hcommunity := length_le_tlv 0x04 m.community
  have h2le := h2.length_le
  have hlist := readVarbinds_all hvs (by omega) (at_self (contents.flatMap (tlv 0x30))) (Nat.zero_add _)
    (Nat.sub_le _ _) .empty
  simp only [parseSnmpResponse, readResponse, readTlv_at (at_self (tlv 0x30 (m.content contents))) (by omega),
    hints 0 (by omega) h1, readTlv_at h2 (by omega), readTlv_at h3 (by omega), hints _ (by omega) h4,
    hints _ (by omega) h5, hints _ (by omega) h6, readTlv_at h7 (by omega), bind, Option.bind, hlist]
  rfl

/-- A message that is cut short is not read at all. -/
theorem parse_prefix {m : Message} {d p : List UInt8} (h : m.bytes = some d) (hsize : d.length < MAX_SIZE)
    (hp : p <+: d) (hne : p ≠ d) : parseSnmpResponse p = .empty := by
  obtain ⟨contents, _, rfl⟩ := Option.map_eq_some_iff.mp h
  have hlen : p.length < (tlv 0x30 (m.content contents)).length :=
    lt_of_le_of_ne hp.length_le fun he => hne (hp.eq_of_length he)
  have hcut := readTlv_cut ((length_le_tlv 0x30 (m.content contents)).trans_lt hsize) hlen
  rw [← List.prefix_iff_eq_take.mp hp] at hcut
  simp [parseSnmpResponse, readResponse, hcut]

/-! ## The map -/

theorem keys_setAll (es : List (List Char × Decoded)) (d : Dict (List Char) Decoded) {k : List Char}
    (h : k ∈ (setAll es d).entries.map Prod.fst) : k ∈ d.entries.map Prod.fst ∨ k ∈ es.map Prod.fst := by
  induction es generalizing d with
  | nil => exact .inl h
  | cons e es ih =>
    rcases ih (d.set e.1 e.2) h with hd | hes
    · rcases (Dict.mem_keys_setEntry e.1 e.2 d.entries k).mp hd with rfl | hd
      · exact .inr List.mem_cons_self
      · exact .inl hd
    · exact .inr (List.mem_cons_of_mem _ hes)

theorem entries_setAll {es : List (List Char × Decoded)} (hn : (es.map Prod.fst).Nodup) :
    ∀ d : Dict (List Char) Decoded, (∀ k ∈ es.map Prod.fst, d.get? k = none) →
      (setAll es d).entries = d.entries ++ es := by
  induction es with
  | nil => simp [setAll]
  | cons e es ih =>
    intro d hd
    obtain ⟨hnot, htail⟩ := List.nodup_cons.mp hn
    have hnew := Dict.entries_set_of_get?_eq_none (hd e.1 List.mem_cons_self) e.2
    have hrest : ∀ k ∈ es.map Prod.fst, (d.set e.1 e.2).get? k = none := by
      intro k hk
      have hne : k ≠ e.1 := fun he => hnot (he ▸ hk)
      rw [Dict.get?_set_ne d hne]
      exact hd k (List.mem_cons_of_mem _ hk)
    rw [setAll, List.foldl_cons, ← setAll, ih htail _ hrest, hnew, List.append_assoc, List.singleton_append]

theorem two_arcs_of_encodeOid {parts : List ℕ} {bytes : List UInt8} (h : encodeOid parts = some bytes) :
    (∃ a b rest, parts = a :: b :: rest) ∧ ∀ arc ∈ parts, printable arc = true := by
  unfold encodeOid at h
  split at h
  · rename_i hall
    split at h
    · exact ⟨⟨_, _, _, rfl⟩, List.all_eq_true.mp hall⟩
    · cases h
  · cases h

/-- The text of an encodable identifier is one that comes back only if the identifier does. -/
theorem plain_of_text_eq {ps qs : List ℕ} (hp : ps ≠ []) {bytes : List UInt8} (hq : encodeOid qs = some bytes)
    (h : oidText ps = oidText (reread qs)) : Plain ps ∧ ps = reread qs := by
  obtain ⟨⟨a, b, rest, rfl⟩, _⟩ := two_arcs_of_encodeOid hq
  have heq := oidText_injective hp (by simp [reread]) h
  exact ⟨heq ▸ plain_reread, heq⟩

theorem encodeOid_of_readable {parts : List ℕ} (hv : ValidOid parts) (hr : Readable parts) :
    ∃ bytes, encodeOid parts = some bytes := by
  obtain ⟨a, b, rest, rfl, ha, _⟩ := hv
  obtain ⟨⟨a', b', rest', heq, hb⟩, hprint⟩ := hr
  cases heq
  rw [encodeOid, if_pos (List.all_eq_true.mpr hprint), if_pos (by omega)]
  exact ⟨_, rfl⟩

/-- A message is read as what it says, and none of its proper beginnings is read as anything. -/
def Faithful (m : Message) : Prop :=
  ∃ d, m.bytes = some d ∧ (parseSnmpResponse d).entries = m.expected ∧
    ∀ p, p <+: d → p ≠ d → parseSnmpResponse p = .empty

section
variable {m : Message}

theorem encodes_of_bytes {d : List UInt8} (h : m.bytes = some d) {v : Varbind} (hv : v ∈ m.varbinds) :
    (∃ bytes, encodeOid v.oid = some bytes) ∧ ∃ bytes, v.value.bytes = some bytes := by
  obtain ⟨contents, hcontents, _⟩ := Option.map_eq_some_iff.mp h
  obtain ⟨content, hcontent⟩ := OptionList.exists_of_mapM hcontents v hv
  obtain ⟨oid, hoid, hrest⟩ := Option.bind_eq_some_iff.mp hcontent
  obtain ⟨value, hvalue, _⟩ := Option.bind_eq_some_iff.mp hrest
  exact ⟨⟨oid, hoid⟩, ⟨value, hvalue⟩⟩

theorem nodup_texts (hdistinct : (m.varbinds.map Varbind.oid).Nodup) (hne : ∀ v ∈ m.varbinds, v.oid ≠ []) :
    (m.varbinds.map fun v => oidText v.oid).Nodup := by
  have hpair := List.pairwise_map.mp hdistinct
  refine List.pairwise_map.mpr (hpair.imp_of_mem fun {v w} hv hw hvw htext => hvw ?_)
  exact oidText_injective (hne v hv) (hne w hw) htext

theorem entries_of_plain (hdistinct : (m.varbinds.map Varbind.oid).Nodup)
    (hplain : ∀ v ∈ m.varbinds, Plain v.oid) :
    (setAll (m.varbinds.map Varbind.returned) .empty).entries = m.varbinds.map Varbind.returned := by
  have hne : ∀ v ∈ m.varbinds, v.oid ≠ [] := by
    intro v hv
    obtain ⟨a, b, rest, hoid, _⟩ := hplain v hv
    simp [hoid]
  have hkeys : (m.varbinds.map Varbind.returned).map Prod.fst = m.varbinds.map fun v => oidText v.oid := by
    rw [List.map_map]
    exact List.map_congr_left fun v hv => by simp [Varbind.returned, reread_of_plain (hplain v hv)]
  have hn : ((m.varbinds.map Varbind.returned).map Prod.fst).Nodup := by
    rw [hkeys]
    exact nodup_texts hdistinct hne
  rw [entries_setAll hn .empty fun _ _ => rfl]
  rfl

theorem returned_of_readable {v : Varbind} (hoid : Plain v.oid) (hvalue : ∀ parts ∈ v.value.oids, Plain parts) :
    v.returned = (oidText v.oid, v.value.decoded) := by
  rw [Varbind.returned, reread_of_plain hoid]
  cases hval : v.value with
  | oid parts =>
    have hparts := reread_of_plain (hvalue parts (by simp [hval, Value.oids]))
    simp [Value.returned, Value.decoded, hparts]
  | _ => rfl

theorem mem_oids {oid : List ℕ} : oid ∈ m.oids ↔ ∃ v ∈ m.varbinds, oid = v.oid ∨ oid ∈ v.value.oids := by
  simp [Message.oids]

theorem faithful_of_readable (hvalid : ∀ oid ∈ m.oids, ValidOid oid)
    (hdistinct : (m.varbinds.map Varbind.oid).Nodup) (hsize : ∀ d, m.bytes = some d → d.length < MAX_SIZE)
    (hread : ∀ oid ∈ m.oids, Readable oid) : Faithful m := by
  have hcontent : ∀ v ∈ m.varbinds, ∃ content, v.content = some content := by
    intro v hv
    have hoid := mem_oids.mpr ⟨v, hv, .inl rfl⟩
    obtain ⟨oid, hoid⟩ := encodeOid_of_readable (hvalid _ hoid) (hread _ hoid)
    have hvalue : ∃ value, v.value.bytes = some value := by
      cases hval : v.value with
      | oid parts =>
        have hparts := mem_oids.mpr ⟨v, hv, .inr (by simp [hval, Value.oids] : parts ∈ v.value.oids)⟩
        exact encodeOid_of_readable (hvalid _ hparts) (hread _ hparts)
      | _ => exact ⟨_, rfl⟩
    obtain ⟨value, hvalue⟩ := hvalue
    exact ⟨oid ++ value, by simp [Varbind.content, hoid, hvalue]⟩
  obtain ⟨contents, hcontents⟩ := OptionList.mapM_of_exists hcontent
  have hd : m.bytes = some (tlv 0x30 (m.content contents)) := by rw [Message.bytes, hcontents]; rfl
  refine ⟨_, hd, ?_, fun p hp hne => parse_prefix hd (hsize _ hd) hp hne⟩
  have hplain : ∀ v ∈ m.varbinds, Plain v.oid := fun v hv => (hread _ (mem_oids.mpr ⟨v, hv, .inl rfl⟩)).1
  rw [parse_bytes hd (hsize _ hd), entries_of_plain hdistinct hplain]
  exact List.map_congr_left fun v hv => returned_of_readable (hplain v hv) fun parts hparts =>
    (hread _ (mem_oids.mpr ⟨v, hv, .inr hparts⟩)).1

theorem readable_of_faithful (hvalid : ∀ oid ∈ m.oids, ValidOid oid)
    (hdistinct : (m.varbinds.map Varbind.oid).Nodup) (hsize : ∀ d, m.bytes = some d → d.length < MAX_SIZE)
    (h : Faithful m) : ∀ oid ∈ m.oids, Readable oid := by
  obtain ⟨d, hd, hentries, _⟩ := h
  have hne : ∀ oid ∈ m.oids, oid ≠ [] := by
    intro oid hoid
    obtain ⟨a, b, rest, rfl, _⟩ := hvalid oid hoid
    simp
  rw [parse_bytes hd (hsize d hd)] at hentries
  -- the text of every identifier is a key, and the keys are texts of identifiers that come back
  have hplain : ∀ v ∈ m.varbinds, Plain v.oid := by
    intro v hv
    have hkey : oidText v.oid ∈ (setAll (m.varbinds.map Varbind.returned) .empty).entries.map Prod.fst := by
      rw [hentries]
      exact List.mem_map.mpr ⟨_, List.mem_map_of_mem hv, rfl⟩
    rcases keys_setAll _ _ hkey with hnone | hsome
    · cases hnone
    · obtain ⟨e, he, htext⟩ := List.mem_map.mp hsome
      obtain ⟨w, hw, rfl⟩ := List.mem_map.mp he
      obtain ⟨⟨bytes, hbytes⟩, _⟩ := encodes_of_bytes hd hw
      exact (plain_of_text_eq (hne _ (mem_oids.mpr ⟨v, hv, .inl rfl⟩)) hbytes htext.symm).1
  rw [entries_of_plain hdistinct hplain] at hentries
  have hreturned := List.map_inj_left.mp hentries
  intro oid hoid
  obtain ⟨v, hv, rfl | hvalue⟩ := mem_oids.mp hoid
  · obtain ⟨⟨bytes, hbytes⟩, _⟩ := encodes_of_bytes hd hv
    exact ⟨hplain v hv, (two_arcs_of_encodeOid hbytes).2⟩
  · obtain ⟨_, bytes, hbytes⟩ := encodes_of_bytes hd hv
    have hsame := congrArg Prod.snd (hreturned v hv)
    cases hval : v.value with
    | oid parts =>
      rw [hval] at hvalue hbytes
      obtain rfl := List.mem_singleton.mp hvalue
      simp only [Varbind.returned, hval, Value.returned, Value.decoded, Decoded.str.injEq] at hsame
      exact ⟨(plain_of_text_eq (hne _ hoid) hbytes hsame.symm).1, (two_arcs_of_encodeOid hbytes).2⟩
    | _ => simp [hval, Value.oids] at hvalue

end

/-- The loop ends within its fuel for every list of bytes, and a message of valid and distinct
identifiers is read as what it says exactly when in all its identifiers the second arc is below 40
and no arc has more than 4300 digits. -/
theorem faithful_iff (m : Message) (hvalid : ∀ oid ∈ m.oids, ValidOid oid)
    (hdistinct : (m.varbinds.map Varbind.oid).Nodup) (hsize : ∀ d, m.bytes = some d → d.length < MAX_SIZE) :
    (Faithful m ↔ ∀ oid ∈ m.oids, Readable oid) ∧
      ∀ (vblist : List UInt8) (fuel : ℕ), vblist.length ≤ fuel → ∀ result,
        readVarbinds vblist fuel 0 result = readVarbinds vblist vblist.length 0 result := by
  refine ⟨⟨readable_of_faithful hvalid hdistinct hsize, faithful_of_readable hvalid hdistinct hsize⟩, ?_⟩
  intro vblist fuel hfuel result
  exact readVarbinds_fuel (by omega) (by omega) result

/-- One varbind: 1.3.6 is 5. -/
def sampleMessage : Message := ⟨[112], 1, 0, 0, [⟨[1, 3, 6], .int 5⟩]⟩

theorem bytes_sampleMessage : sampleMessage.bytes = some [0x30, 28, 2, 1, 0, 4, 1, 112, 0xA2, 20,
    2, 1, 1, 2, 1, 0, 2, 1, 0, 0x30, 9, 0x30, 7, 6, 2, 43, 6, 2, 1, 5] := by
  decide +kernel

theorem faithful_sampleMessage : Faithful sampleMessage := by
  have hvalid : ∀ oid ∈ sampleMessage.oids, ValidOid oid := by
    rintro oid (_ | ⟨_, ⟨⟩⟩)
    exact ⟨1, 3, [6], rfl, by decide, by decide⟩
  have hread : ∀ oid ∈ sampleMessage.oids, Readable oid := by
    rintro oid (_ | ⟨_, ⟨⟩⟩)
    exact ⟨⟨1, 3, [6], rfl, by decide⟩, by decide⟩
  have hsize : ∀ d, sampleMessage.bytes = some d → d.length < MAX_SIZE := by
    intro d hd
    rw [bytes_sampleMessage] at hd
    cases hd
    decide
  exact (faithful_iff sampleMessage hvalid (by decide) hsize).1.mpr hread

/-- One varbind: 2.47 is null. -/
def foldedMessage : Message := ⟨[112], 1, 0, 0, [⟨[2, 47], .null⟩]⟩

/-- A valid identifier comes back as 3.7. -/
theorem second_arc_folded : (∀ oid ∈ foldedMessage.oids, ValidOid oid) ∧ ¬ Faithful foldedMessage := by
  have hvalid : ∀ oid ∈ foldedMessage.oids, ValidOid oid := by
    rintro oid (_ | ⟨_, ⟨⟩⟩)
    exact ⟨2, 47, [], rfl, by decide, by decide⟩
  have hsize : ∀ d, foldedMessage.bytes = some d → d.length < MAX_SIZE := by
    intro d hd
    have hlen : foldedMessage.bytes.map List.length = some 28 := by decide +kernel
    rw [hd] at hlen
    have : d.length = 28 := Option.some.inj hlen
    rw [this]
    decide
  refine ⟨hvalid, fun h => ?_⟩
  obtain ⟨⟨a, b, rest, heq, hb⟩, _⟩ := readable_of_faithful hvalid (by decide) hsize h [2, 47] (by decide)
  cases heq
  omega

end Wavr.Snmp
