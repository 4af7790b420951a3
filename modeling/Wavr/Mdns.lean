import Wavr.Bytes
import Wavr.Dict
import Wavr.Text

/-!
# mDNS packets

`_read_name` and `parse_mdns_packet`, and what a packet of resource records is.
-/

namespace Wavr.Mdns
open Bytes Text

def TYPE_PTR : ℕ := 12

def TYPE_TXT : ℕ := 16

def TYPE_SRV : ℕ := 33

def pointerTo (high low : UInt8) : ℕ := high.toNat % 64 * 256 + low.toNat

/-- The labels from a position on and where the caller goes on. -/
def readNameFrom (data : List UInt8) (pos : ℕ) (labels : List (List UInt8)) (jumped : Bool) (resumeAt hops : ℕ) :
    List (List UInt8) × ℕ :=
  match _h : data[pos]? with
  | none => (labels, resumeAt)
  | some length =>
    if length = 0 then (labels, if jumped then resumeAt else pos + 1)
    else if length &&& 0xC0 = 0xC0 then
      match data[pos + 1]? with
      | none => (labels, resumeAt)
      | some low =>
        let resumeAt := if jumped then resumeAt else pos + 2
        -- never loop on a malformed packet
        if _hops : 64 < hops + 1 ∨ data.length ≤ pointerTo length low then (labels, resumeAt)
        else readNameFrom data (pointerTo length low) labels true resumeAt (hops + 1)
    else
      let next := pos + 1 + length.toNat
      readNameFrom data next (labels ++ [slice data (pos + 1) next]) jumped (if jumped then resumeAt else next) hops
termination_by (65 - hops, data.length - pos)
decreasing_by
  · exact Prod.Lex.left _ _ (by omega)
  · have hlt := (List.getElem?_eq_some_iff.mp _h).1
    exact Prod.Lex.right _ (by omega)

def dotted (labels : List (List UInt8)) : List Char := ['.'].intercalate (labels.map decodeUtf8)

def readName (data : List UInt8) (offset : ℕ) : List Char × ℕ :=
  let r := readNameFrom data offset [] false offset 0
  (dotted r.1, r.2)

/-- What is found so far. -/
structure Found where
  hostname : Option (List Char) := none
  services : Finset String := ∅
  instances : Finset String := ∅
  txt : Dict (List Char) (List Char) := .empty
  deriving DecidableEq

structure Parsed where
  hostname : Option (List Char)
  services : Finset String
  txt : Dict (List Char) (List Char)
  deriving DecidableEq

def rstripDots (s : List Char) : List Char := (s.reverse.dropWhile (· = '.')).reverse

def LOCAL : List Char := ".local".toList

/-- `s[:-len(suffix)]` of a suffix that is not empty. -/
def withoutLast (suffix s : List Char) : List Char := s.take (s.length - suffix.length)

section
variable (lower : List Char → List Char)

def addPtr (owner target : List Char) (f : Found) : Found :=
  let ownerClean := rstripDots owner
  let service := lower ownerClean
  let service := if LOCAL <:+ service then withoutLast LOCAL service else service
  let services := if service ≠ [] then insert (String.ofList service) f.services else f.services
  let targetClean := rstripDots target
  let suffix := '.' :: ownerClean
  let instanceName := withoutLast suffix targetClean
  let instances :=
    if ownerClean ≠ [] ∧ lower suffix <:+ lower targetClean ∧ instanceName ≠ [] then
      insert (String.ofList instanceName) f.instances
    else f.instances
  { f with services := services, instances := instances }

def addSrv (target : List Char) (f : Found) : Found :=
  let targetClean := rstripDots target
  if LOCAL <:+ lower targetClean then { f with hostname := some (withoutLast LOCAL targetClean) }
  else if targetClean ≠ [] then { f with hostname := some targetClean }
  else f

/-- One string of a TXT record: the key before the first `=`, and what is behind it. -/
def addTxt (chunk : List UInt8) (f : Found) : Found :=
  if chunk = [] then f
  else
    let key := lower (decodeUtf8 (chunk.takeWhile (· ≠ 61)))
    { f with txt := f.txt.set key (decodeUtf8 ((chunk.dropWhile (· ≠ 61)).drop 1)) }

def readTxt (rdata : List UInt8) (tpos : ℕ) (f : Found) : Found :=
  match _h : rdata[tpos]? with
  | none => f
  | some length =>
    readTxt rdata (tpos + 1 + length.toNat) (addTxt lower (slice rdata (tpos + 1) (tpos + 1 + length.toNat)) f)
termination_by rdata.length - tpos
decreasing_by
  have hlt := (List.getElem?_eq_some_iff.mp _h).1
  omega

/-- Where the questions end; none where one of them does not fit. -/
def skipQuestions (data : List UInt8) : ℕ → ℕ → Option ℕ
  | 0, pos => some pos
  | n + 1, pos =>
    if data.length ≤ pos then none
    else if data.length < (readName data pos).2 + 4 then none
    else skipQuestions data n ((readName data pos).2 + 4)

/-- What a record of this type adds. -/
def addRecord (data : List UInt8) (owner : List Char) (rtype rdataOffset rdlength : ℕ) (f : Found) : Found :=
  if rtype = TYPE_PTR then addPtr lower owner (readName data rdataOffset).1 f
  else if rtype = TYPE_SRV then
    if 6 ≤ rdlength then addSrv lower (readName data (rdataOffset + 6)).1 f else f
  else if rtype = TYPE_TXT then readTxt lower (slice data rdataOffset (rdataOffset + rdlength)) 0 f
  else f

def readRecords (data : List UInt8) : ℕ → ℕ → Found → Found
  | 0, _, f => f
  | n + 1, pos, f =>
    if data.length ≤ pos then f
    else
      let owner := readName data pos
      if data.length < owner.2 + 10 then f
      else
        let rtype := beNat (slice data owner.2 (owner.2 + 2))
        let rdlength := beNat (slice data (owner.2 + 8) (owner.2 + 10))
        if data.length < owner.2 + 10 + rdlength then f
        else
          readRecords data n (owner.2 + 10 + rdlength) (addRecord lower data owner.1 rtype (owner.2 + 10) rdlength f)

/-- The hostname of an SRV target, or else the first of the instances. -/
def Found.parsed (f : Found) : Parsed where
  hostname := f.hostname.or ((sortedSet f.instances).head?.map String.toList)
  services := f.services
  txt := f.txt

def parseMdnsPacket (data : List UInt8) : Parsed :=
  if data.length < 12 then Found.parsed {}
  else
    match skipQuestions data (beNat (slice data 4 6)) 12 with
    | none => Found.parsed {}
    | some pos =>
      let count := beNat (slice data 6 8) + beNat (slice data 8 10) + beNat (slice data 10 12)
      (readRecords lower data count pos {}).parsed

/-! ## Records -/

/-- A resource record, its names as lists of labels. -/
inductive Record where
  | ptr (owner target : List (List UInt8))
  | srv (owner target : List (List UInt8))
  | txt (owner : List (List UInt8)) (strings : List (List UInt8))
  | other (owner : List (List UInt8)) (rtype : ℕ)

def step (f : Found) : Record → Found
  | .ptr owner target => addPtr lower (dotted owner) (dotted target) f
  | .srv _ target => addSrv lower (dotted target) f
  | .txt _ strings => strings.foldl (fun f s => addTxt lower s f) f
  | .other _ _ => f

/-- What a list of records says. -/
def meaning (records : List Record) : Parsed := (records.foldl (step lower) {}).parsed

end

/-! ## Packets -/

/-- These labels are what is encoded at a position: after so many jumps, each of them backwards; where the
encoding ends there, and up to where bytes are read for it. -/
inductive NameAt (data : List UInt8) : (jumps pos : ℕ) → List (List UInt8) → (stop reach : ℕ) → Prop
  | root {pos : ℕ} (h : At data pos [0]) : NameAt data 0 pos [] (pos + 1) (pos + 1)
  | label {jumps pos stop reach : ℕ} {l : List UInt8} {ls : List (List UInt8)}
      (h : At data pos (UInt8.ofNat l.length :: l)) (hpos : 0 < l.length) (hlt : l.length < 64)
      (rest : NameAt data jumps (pos + 1 + l.length) ls stop reach) : NameAt data jumps pos (l :: ls) stop reach
  | pointer {jumps pos stop reach : ℕ} {ls : List (List UInt8)} {high low : UInt8} (h : At data pos [high, low])
      (hmark : high &&& 0xC0 = 0xC0) (hback : pointerTo high low < pos)
      (rest : NameAt data jumps (pointerTo high low) ls stop reach) :
      NameAt data (jumps + 1) pos ls (pos + 2) (max (pos + 2) reach)

/-- At most 64 jumps. -/
def LegalName (data : List UInt8) (pos : ℕ) (labels : List (List UInt8)) (stop reach : ℕ) : Prop :=
  ∃ jumps ≤ 64, NameAt data jumps pos labels stop reach

/-- The bytes of a character string. -/
def stringBytes (s : List UInt8) : List UInt8 := UInt8.ofNat s.length :: s

/-- The data of a record, from its beginning to its end, and up to where bytes are read for it. -/
inductive DataAt (data : List UInt8) (pos stop : ℕ) : Record → (rtype reach : ℕ) → Prop
  | ptr {owner target : List (List UInt8)} {reach : ℕ} (h : LegalName data pos target stop reach) :
      DataAt data pos stop (.ptr owner target) TYPE_PTR reach
  | srv {owner target : List (List UInt8)} {reach : ℕ} (h : LegalName data (pos + 6) target stop reach) :
      DataAt data pos stop (.srv owner target) TYPE_SRV reach
  | txt {owner strings : List (List UInt8)} (h : At data pos (strings.flatMap stringBytes))
      (hstop : stop = pos + (strings.flatMap stringBytes).length) (hsized : ∀ s ∈ strings, s.length < 256) :
      DataAt data pos stop (.txt owner strings) TYPE_TXT stop
  | other {owner : List (List UInt8)} {rtype : ℕ} (h : rtype < 65536) (hptr : rtype ≠ TYPE_PTR)
      (hsrv : rtype ≠ TYPE_SRV) (htxt : rtype ≠ TYPE_TXT) : DataAt data pos stop (.other owner rtype) rtype stop

def Record.owner : Record → List (List UInt8)
  | .ptr owner _ => owner
  | .srv owner _ => owner
  | .txt owner _ => owner
  | .other owner _ => owner

/-- A record in a packet: where it ends, and up to where bytes are read for its names. -/
structure Placed where
  record : Record
  stop : ℕ
  reach : ℕ

inductive RecordsAt (data : List UInt8) : ℕ → List Placed → Prop
  | nil {pos : ℕ} : RecordsAt data pos []
  | cons {pos ownerStop ownerReach rtype rdlength reach : ℕ} {r : Record} {fixed : List UInt8} {rest : List Placed}
      (howner : LegalName data pos r.owner ownerStop ownerReach)
      (hfixed : At data ownerStop (beBytes 2 rtype ++ (fixed ++ beBytes 2 rdlength))) (hsized : fixed.length = 6)
      (hlength : rdlength < 65536) (hfits : ownerStop + 10 + rdlength ≤ data.length)
      (hdata : DataAt data (ownerStop + 10) (ownerStop + 10 + rdlength) r rtype reach)
      (hrest : RecordsAt data (ownerStop + 10 + rdlength) rest) :
      RecordsAt data pos (⟨r, ownerStop + 10 + rdlength, max ownerReach reach⟩ :: rest)

/-- So many questions from a position on, and where they end. -/
inductive QuestionsAt (data : List UInt8) : ℕ → ℕ → ℕ → Prop
  | zero {pos : ℕ} : QuestionsAt data 0 pos pos
  | succ {n pos nameStop nameReach stop : ℕ} {labels : List (List UInt8)}
      (hname : LegalName data pos labels nameStop nameReach) (hfits : nameStop + 4 ≤ data.length)
      (hrest : QuestionsAt data n (nameStop + 4) stop) : QuestionsAt data (n + 1) pos stop

/-- A packet whose names are legally compressed. -/
structure Packet (data : List UInt8) (records : List Placed) : Prop where
  header : 12 ≤ data.length
  count : beNat (slice data 6 8) + beNat (slice data 8 10) + beNat (slice data 10 12) = records.length
  sections : ∃ stop, QuestionsAt data (beNat (slice data 4 6)) 12 stop ∧ RecordsAt data stop records

end Wavr.Mdns
