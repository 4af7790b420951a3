import Mathlib.Data.List.Forall2
import Mathlib.Data.List.Induction
import Mathlib.Data.List.Sort
import Wavr.Dict
import Wavr.Json
import Wavr.Utf8

/-!
# JSON values as the native library holds them

Objects are maps ordered by the bytes of their keys, and integers have 64 bits with a sign or
without. The relation to the decoded documents of `Json`, where objects keep the order of their
text and integers are unbounded.
-/

namespace Wavr.NativeJson

inductive Value (F : Type)
  | null
  | boolean (b : Bool)
  | integer (n : Int64)
  | unsigned (n : UInt64)
  | float (x : F)
  | string (s : String)
  | array (items : List (Value F))
  | object (entries : List (String × Value F))

/-- `m.emplace(k, v)`: a key that is there keeps its value. -/
def emplace {ν : Type} (k : String) (v : ν) : List (String × ν) → List (String × ν)
  | [] => [(k, v)]
  | e :: es =>
    if Utf8.bytes k < Utf8.bytes e.1 then (k, v) :: e :: es
    else if k = e.1 then e :: es
    else e :: emplace k v es

def ofPairs {ν : Type} (ps : List (String × ν)) : List (String × ν) :=
  ps.foldl (fun m p => emplace p.1 p.2 m) []

def Sorted {ν : Type} (m : List (String × ν)) : Prop :=
  m.Pairwise fun e e' => Utf8.bytes e.1 < Utf8.bytes e'.1

namespace Value
variable {F : Type}

/-- An initializer list of pairs. -/
def ofFields (ps : List (String × Value F)) : Value F := object (ofPairs ps)

def isNull : Value F → Bool
  | null => true
  | _ => false

def isBoolean : Value F → Bool
  | boolean _ => true
  | _ => false

/-- `is_number_integer`, which is true of an unsigned integer too. -/
def isNumberInteger : Value F → Bool
  | integer _ => true
  | unsigned _ => true
  | _ => false

def isNumber : Value F → Bool
  | float _ => true
  | v => v.isNumberInteger

def isString : Value F → Bool
  | string _ => true
  | _ => false

def isObject : Value F → Bool
  | object _ => true
  | _ => false

/-- `o.find(k)`; `none` is `o.end()`. -/
def find (o : Value F) (k : String) : Option (Value F) :=
  match o with
  | object m => m.lookup k
  | _ => none

/-- `o[k]` of a key that is there. -/
def item (o : Value F) (k : String) : Value F := (o.find k).getD null

/-- `v.get<bool>()` of a boolean. -/
def getBool : Value F → Bool
  | boolean b => b
  | _ => false

end Value

/-- The two are one document: an object's entries are the fields in the order of their keys. -/
inductive Denotes {F : Type} : Value F → Json F → Prop
  | null : Denotes .null .null
  | boolean (b : Bool) : Denotes (.boolean b) (.bool b)
  | integer (n : Int64) : Denotes (.integer n) (.int n.toInt)
  | unsigned (n : UInt64) : Denotes (.unsigned n) (.int n.toNat)
  | float (x : F) : Denotes (.float x) (.float x)
  | string (s : String) : Denotes (.string s) (.str s)
  | array {vs : List (Value F)} {js : List (Json F)} (h : List.Forall₂ Denotes vs js) :
      Denotes (.array vs) (.arr js)
  | object {m : List (String × Value F)} {es fields : List (String × Json F)} (hsorted : Sorted m)
      (hperm : es.Perm fields) (hkeys : m.map Prod.fst = es.map Prod.fst)
      (hvalues : List.Forall₂ Denotes (m.map Prod.snd) (es.map Prod.snd)) :
      Denotes (.object m) (.obj fields)

/-- Entry by entry one key, and values of one document. -/
def Agree {F : Type} : List (String × Value F) → List (String × Json F) → Prop :=
  List.Forall₂ fun e e' => e.1 = e'.1 ∧ Denotes e.2 e'.2

/-- The integers of the document have 64 bits, with a sign or without, and no object has a key
twice. -/
inductive Fits {F : Type} : Json F → Prop
  | null : Fits .null
  | bool (b : Bool) : Fits (.bool b)
  | int {n : ℤ} (hlow : -2 ^ 63 ≤ n) (hhigh : n < 2 ^ 64) : Fits (.int n)
  | float (x : F) : Fits (.float x)
  | str (s : String) : Fits (.str s)
  | arr {items : List (Json F)} (hitems : ∀ v ∈ items, Fits v) : Fits (.arr items)
  | obj {fields : List (String × Json F)} (hkeys : (fields.map Prod.fst).Nodup)
      (hvalues : ∀ kv ∈ fields, Fits kv.2) : Fits (.obj fields)

/-! ## A document as the parser reads it -/

section
variable {F : Type}

mutual

/-- An integer without a minus is unsigned. -/
def encode : Json F → Value F
  | .null => .null
  | .bool b => .boolean b
  | .int n => if 0 ≤ n then .unsigned (UInt64.ofNat n.toNat) else .integer (Int64.ofInt n)
  | .float x => .float x
  | .str s => .string s
  | .arr items => .array (encodeItems items)
  | .obj fields => .ofFields (encodeFields fields)

def encodeItems : List (Json F) → List (Value F)
  | [] => []
  | v :: vs => encode v :: encodeItems vs

def encodeFields : List (String × Json F) → List (String × Value F)
  | [] => []
  | (k, v) :: fields => (k, encode v) :: encodeFields fields

end

end

/-! ## Maps built entry by entry -/

section
variable {ν : Type} {k : String} {v : ν} {m : List (String × ν)}

theorem mem_emplace {e : String × ν} (h : e ∈ emplace k v m) : e = (k, v) ∨ e ∈ m := by
  induction m with
  | nil => exact .inl (List.mem_singleton.mp h)
  | cons e' es ih =>
    unfold emplace at h
    split_ifs at h with hlt heq
    · exact List.mem_cons.mp h
    · exact .inr h
    · rcases List.mem_cons.mp h with rfl | hmem
      · exact .inr List.mem_cons_self
      · exact (ih hmem).imp_right (List.mem_cons_of_mem e')

theorem sorted_emplace (h : Sorted m) : Sorted (emplace k v m) := by
  induction m with
  | nil => exact List.pairwise_singleton _ _
  | cons e es ih =>
    obtain ⟨hhead, hes⟩ := List.pairwise_cons.mp h
    unfold emplace
    split_ifs with hlt heq
    · refine List.pairwise_cons.mpr ⟨fun e' he' => ?_, h⟩
      rcases List.mem_cons.mp he' with rfl | hmem
      · exact hlt
      · exact hlt.trans (hhead e' hmem)
    · exact h
    · refine List.pairwise_cons.mpr ⟨fun e' he' => ?_, ih hes⟩
      rcases mem_emplace he' with rfl | hmem
      · -- neither before the entry nor its key, so behind it
        rw [Utf8.bytes_lt_iff] at hlt ⊢
        exact lt_of_le_of_ne (not_lt.mp hlt) (Ne.symm heq)
      · exact hhead e' hmem

theorem perm_emplace (h : k ∉ m.map Prod.fst) : (emplace k v m).Perm ((k, v) :: m) := by
  induction m with
  | nil => exact .refl _
  | cons e es ih =>
    rw [List.map_cons, List.mem_cons, not_or] at h
    obtain ⟨hne, hes⟩ := h
    unfold emplace
    split_ifs with hlt
    · exact .refl _
    · exact ((ih hes).cons e).trans (.swap _ _ _)

theorem sorted_ofPairs (ps : List (String × ν)) : Sorted (ofPairs ps) :=
  List.foldlRecOn ps _ List.Pairwise.nil fun _ hm _ _ => sorted_emplace hm

theorem perm_ofPairs {ps : List (String × ν)} (h : (ps.map Prod.fst).Nodup) : (ofPairs ps).Perm ps := by
  induction ps using List.reverseRecOn with
  | nil => exact .refl _
  | append_singleton ps p ih =>
    rw [List.map_append, List.nodup_append] at h
    obtain ⟨hps, -, hdisj⟩ := h
    have hperm := ih hps
    have hkey : p.1 ∉ (ofPairs ps).map Prod.fst := fun hmem =>
      hdisj p.1 ((hperm.map Prod.fst).subset hmem) p.1 (List.mem_singleton.mpr rfl) rfl
    have hfold : ofPairs (ps ++ [p]) = emplace p.1 p.2 (ofPairs ps) := List.foldl_append
    rw [hfold]
    exact ((perm_emplace hkey).trans (hperm.cons p)).trans (List.perm_append_singleton p ps).symm

theorem Sorted.nodup (h : Sorted m) : (m.map Prod.fst).Nodup :=
  List.pairwise_map.mpr (h.imp fun hlt heq => hlt.ne (congrArg Utf8.bytes heq))

/-- Sorted by keys of which none repeats, the entries have one order. -/
theorem Sorted.eq_insertionSort (h : Sorted m) {ps : List (String × ν)} (hperm : m.Perm ps) :
    m = ps.insertionSort fun a b => a.1 ≤ b.1 := by
  have hm : m.Pairwise fun a b => a.1 ≤ b.1 := h.imp fun hlt => (Utf8.bytes_lt_iff.mp hlt).le
  have hsort := List.pairwise_insertionSort (fun a b : String × ν => a.1 ≤ b.1) ps
  refine List.Perm.eq_of_pairwise ?_ hm hsort (hperm.trans (List.perm_insertionSort _ _).symm)
  intro a b ha hb hab hba
  have hb' : b ∈ m := hperm.mem_iff.mpr ((List.mem_insertionSort _).mp hb)
  exact List.inj_on_of_nodup_map h.nodup ha hb' (le_antisymm hab hba)

end

/-! ## Entries of one object -/

section
variable {F : Type} {k : String} {v : Value F} {j : Json F} {m : List (String × Value F)}
  {es fields : List (String × Json F)}

theorem Agree.keys (h : Agree m es) : m.map Prod.fst = es.map Prod.fst := by
  have hkeys : List.Forall₂ (· = ·) (m.map Prod.fst) (es.map Prod.fst) :=
    List.forall₂_map_left_iff.mpr (List.forall₂_map_right_iff.mpr (h.imp fun _ _ he => he.1))
  rwa [List.forall₂_eq_eq_eq] at hkeys

theorem Agree.values (h : Agree m es) : List.Forall₂ Denotes (m.map Prod.snd) (es.map Prod.snd) :=
  List.forall₂_map_left_iff.mpr (List.forall₂_map_right_iff.mpr (h.imp fun _ _ he => he.2))

theorem agree_of_keys (hkeys : m.map Prod.fst = es.map Prod.fst)
    (hvalues : List.Forall₂ Denotes (m.map Prod.snd) (es.map Prod.snd)) : Agree m es := by
  induction m generalizing es with
  | nil =>
    cases List.map_eq_nil_iff.mp hkeys.symm
    exact .nil
  | cons e m ih =>
    cases es with
    | nil => cases hkeys
    | cons e' es =>
      obtain ⟨hkey, hkeys⟩ := List.cons_eq_cons.mp hkeys
      obtain ⟨hvalue, hvalues⟩ := List.forall₂_cons.mp hvalues
      exact .cons ⟨hkey, hvalue⟩ (ih hkeys hvalues)

theorem agree_emplace (hm : Agree m es) (h : Denotes v j) : Agree (emplace k v m) (emplace k j es) := by
  induction hm with
  | nil => exact .cons ⟨rfl, h⟩ .nil
  | @cons e e' m es he hm ih =>
    unfold emplace
    rw [he.1]
    split_ifs with hlt heq
    · exact .cons ⟨rfl, h⟩ (.cons he hm)
    · exact .cons he hm
    · exact .cons he ih

theorem agree_ofPairs {ps : List (String × Value F)} {js : List (String × Json F)} (h : Agree ps js) :
    Agree (ofPairs ps) (ofPairs js) := by
  refine List.rel_foldl (P := Agree) (fun m es hm e e' he => ?_) .nil h
  show Agree (emplace e.1 e.2 m) (emplace e'.1 e'.2 es)
  rw [he.1]
  exact agree_emplace hm he.2

theorem Denotes.ofFields {ps : List (String × Value F)} {js : List (String × Json F)} (h : Agree ps js)
    (hn : (js.map Prod.fst).Nodup) : Denotes (.ofFields ps) (.obj js) := by
  have hall := agree_ofPairs h
  exact .object (sorted_ofPairs ps) (perm_ofPairs hn) hall.keys hall.values

/-- A key is there in both or in neither. -/
theorem Agree.lookup (h : Agree m es) (k : String) : Option.Rel Denotes (m.lookup k) (es.lookup k) := by
  induction h with
  | nil => exact .none
  | @cons e e' m es he hm ih =>
    rw [Dict.lookup_cons, Dict.lookup_cons, he.1]
    split
    · exact .some he.2
    · exact ih

theorem Denotes.item {o : Value F} (h : Denotes o (.obj fields)) (k : String) :
    Denotes (o.item k) (Json.get fields k) := by
  cases h with
  | @object m es _ hsorted hperm hkeys hvalues =>
    have hall := agree_of_keys hkeys hvalues
    have hn : (es.map Prod.fst).Nodup := hkeys ▸ hsorted.nodup
    have hlookup := hall.lookup k
    rw [Dict.lookup_perm hperm hn] at hlookup
    show Denotes ((m.lookup k).getD .null) ((fields.lookup k).getD .null)
    generalize m.lookup k = v, fields.lookup k = j at hlookup ⊢
    cases hlookup with
    | none => exact .null
    | some hv => exact hv

theorem Denotes.mem_keys (h : Denotes (.object m) (.obj fields)) {k : String} :
    k ∈ m.map Prod.fst ↔ k ∈ fields.map Prod.fst := by
  cases h with
  | object _ hperm hkeys _ =>
    rw [hkeys]
    exact (hperm.map Prod.fst).mem_iff

/-- The map holds the fields as `sorted` lists them. -/
theorem Denotes.entries (h : Denotes (.object m) (.obj fields)) :
    Agree m (fields.insertionSort fun a b => a.1 ≤ b.1) := by
  cases h with
  | @object _ es _ hsorted hperm hkeys hvalues =>
    have hes : Sorted es := by
      have hbytes : (m.map Prod.fst).Pairwise fun k k' => Utf8.bytes k < Utf8.bytes k' :=
        List.pairwise_map.mpr hsorted
      rw [hkeys] at hbytes
      exact (List.pairwise_map (f := Prod.fst)).mp hbytes
    rw [← hes.eq_insertionSort hperm]
    exact agree_of_keys hkeys hvalues

end

/-! ## What the parser reads is the document -/

section
variable {F : Type}

theorem encodeItems_eq (items : List (Json F)) : encodeItems items = items.map encode := by
  induction items with
  | nil => rfl
  | cons v items ih => rw [encodeItems, ih, List.map_cons]

theorem encodeFields_eq (fields : List (String × Json F)) :
    encodeFields fields = fields.map fun e => (e.1, encode e.2) := by
  induction fields with
  | nil => rfl
  | cons e fields ih =>
    obtain ⟨k, v⟩ := e
    rw [encodeFields, ih, List.map_cons]

theorem denotes_encode {j : Json F} (h : Fits j) : Denotes (encode j) j := by
  induction h with
  | null => exact .null
  | bool b => exact .boolean b
  | @int n hlow hhigh =>
    unfold encode
    split_ifs with hn
    · have hlt : n.toNat < UInt64.size := (Int.toNat_lt hn).mpr hhigh
      have hnat : (UInt64.ofNat n.toNat).toNat = n.toNat := UInt64.toNat_ofNat_of_lt' hlt
      have hd := Denotes.unsigned (F := F) (UInt64.ofNat n.toNat)
      rwa [hnat, Int.toNat_of_nonneg hn] at hd
    · have hint : (Int64.ofInt n).toInt = n := Int64.toInt_ofInt_of_le hlow (by omega)
      have hd := Denotes.integer (F := F) (Int64.ofInt n)
      rwa [hint] at hd
  | float x => exact .float x
  | str s => exact .string s
  | @arr items _ ih =>
    unfold encode
    rw [encodeItems_eq]
    exact .array (List.forall₂_map_left_iff.mpr (List.forall₂_same.mpr ih))
  | @obj fields hkeys _ ih =>
    unfold encode
    rw [encodeFields_eq]
    refine .ofFields ?_ hkeys
    exact List.forall₂_map_left_iff.mpr (List.forall₂_same.mpr fun e he => ⟨rfl, ih e he⟩)

end

end Wavr.NativeJson
