import Mathlib.Data.List.Nodup
import Mathlib.Data.List.Sigma

/-!
# Insertion-ordered dictionaries

A finite map that remembers the order in which its keys were first set: assigning to a
key that is present keeps its place, a new key goes to the end. This is a Python `dict`,
and also a table with a primary key, where `map` is an update of some rows and `filter` a
deletion. That no key occurs twice is part of the type.
-/

namespace Wavr

structure Dict (κ ν : Type*) where
  entries : List (κ × ν)
  nodup : (entries.map Prod.fst).Nodup

namespace Dict

variable {κ ν : Type*} [DecidableEq κ]

instance [DecidableEq ν] : DecidableEq (Dict κ ν) := fun d e =>
  decidable_of_iff (d.entries = e.entries) (by cases d; cases e; simp)

omit [DecidableEq κ] in
theorem eq_of_entries {d e : Dict κ ν} (h : d.entries = e.entries) : d = e := by
  cases d
  cases e
  simpa using h

def empty : Dict κ ν := ⟨[], List.nodup_nil⟩

instance : Inhabited (Dict κ ν) := ⟨empty⟩

def keys (d : Dict κ ν) : List κ := d.entries.map Prod.fst

def values (d : Dict κ ν) : List ν := d.entries.map Prod.snd

def get? (d : Dict κ ν) (k : κ) : Option ν := (d.entries.find? fun e => e.1 = k).map Prod.snd

/-- Assign in place, or append. -/
def setEntry (k : κ) (v : ν) : List (κ × ν) → List (κ × ν)
  | [] => [(k, v)]
  | e :: es => if e.1 = k then (k, v) :: es else e :: setEntry k v es

theorem mem_keys_setEntry (k : κ) (v : ν) (es : List (κ × ν)) (k' : κ) :
    k' ∈ (setEntry k v es).map Prod.fst ↔ k' = k ∨ k' ∈ es.map Prod.fst := by
  induction es with
  | nil => simp [setEntry]
  | cons e es ih =>
    by_cases he : e.1 = k
    · simp [setEntry, he]
    · simp only [setEntry, if_neg he, List.map_cons, List.mem_cons, ih]
      tauto

theorem nodup_setEntry (k : κ) (v : ν) {es : List (κ × ν)} (h : (es.map Prod.fst).Nodup) :
    ((setEntry k v es).map Prod.fst).Nodup := by
  induction es with
  | nil => simp [setEntry]
  | cons e es ih =>
    obtain ⟨hn, ht⟩ := List.nodup_cons.mp h
    by_cases he : e.1 = k
    · simpa [setEntry, he] using h
    · simp only [setEntry, if_neg he, List.map_cons, List.nodup_cons]
      refine ⟨fun hm => ?_, ih ht⟩
      rcases (mem_keys_setEntry k v es e.1).mp hm with h' | h'
      · exact he h'
      · exact hn h'

def set (d : Dict κ ν) (k : κ) (v : ν) : Dict κ ν :=
  ⟨setEntry k v d.entries, nodup_setEntry k v d.nodup⟩

/-- Keep the entries that meet `p`. -/
def filter (d : Dict κ ν) (p : κ → ν → Bool) : Dict κ ν :=
  ⟨d.entries.filter fun e => p e.1 e.2, d.nodup.sublist (List.filter_sublist.map _)⟩

/-- Rewrite every value, keys and order untouched. -/
def map (d : Dict κ ν) (f : κ → ν → ν) : Dict κ ν :=
  ⟨d.entries.map fun e => (e.1, f e.1 e.2), by simpa [Function.comp_def] using d.nodup⟩

/-- Rewrite every value into one of another type. -/
def mapValues {μ : Type*} (d : Dict κ ν) (f : ν → μ) : Dict κ μ :=
  ⟨d.entries.map fun e => (e.1, f e.2), by simpa [Function.comp_def] using d.nodup⟩

def erase (d : Dict κ ν) (k : κ) : Dict κ ν := d.filter fun k' _ => k' ≠ k

/-- Python's `setdefault`, without the value it returns. -/
def setDefault (d : Dict κ ν) (k : κ) (v : ν) : Dict κ ν :=
  if (d.get? k).isSome then d else d.set k v

@[simp] theorem get?_empty (k : κ) : (empty : Dict κ ν).get? k = none := rfl

theorem mem_entries {d : Dict κ ν} {k : κ} {v : ν} : (k, v) ∈ d.entries ↔ d.get? k = some v := by
  obtain ⟨es, hn⟩ := d
  simp only [get?]
  induction es with
  | nil => simp
  | cons e es ih =>
    obtain ⟨hk, ht⟩ := List.nodup_cons.mp hn
    by_cases he : e.1 = k
    · subst he
      have : ∀ w, (e.1, w) ∉ es := fun w hw => hk (List.mem_map.mpr ⟨_, hw, rfl⟩)
      simp only [List.mem_cons, this, or_false, List.find?_cons_of_pos, decide_true,
        Option.map_some, Option.some.injEq]
      exact ⟨fun h => (congrArg Prod.snd h).symm, fun h => by rw [← h]⟩
    · rw [List.find?_cons_of_neg (by simpa using he), ← ih ht]
      simp only [List.mem_cons, or_iff_right_iff_imp]
      exact fun h => absurd (congrArg Prod.fst h).symm he

/-- Different values stand under different keys. -/
theorem ne_of_get? {d : Dict κ ν} {k k' : κ} {v v' : ν} (h : d.get? k = some v) (h' : d.get? k' = some v')
    (hne : v ≠ v') : k ≠ k' := by
  rintro rfl
  exact hne (Option.some.inj (h.symm.trans h'))

theorem mem_keys {d : Dict κ ν} {k : κ} : k ∈ d.keys ↔ (d.get? k).isSome := by
  simp only [keys, List.mem_map, Prod.exists, exists_and_right, exists_eq_right,
    mem_entries, Option.isSome_iff_exists]

theorem mem_values {d : Dict κ ν} {v : ν} : v ∈ d.values ↔ ∃ k, d.get? k = some v := by
  simp only [values, List.mem_map, Prod.exists, exists_eq_right, mem_entries]

/-- Where each value names its own key, the values of a key are the one under it. -/
theorem values_filter_of_key {d : Dict κ ν} {f : ν → κ} (h : ∀ k v, d.get? k = some v → f v = k)
    (k : κ) : (d.values.filter fun v => f v = k) = (d.get? k).toList := by
  have he : ∀ e ∈ d.entries, f e.2 = e.1 := fun e he => h e.1 e.2 (mem_entries.mp he)
  clear h
  obtain ⟨es, hn⟩ := d
  simp only [values, get?] at he ⊢
  induction es with
  | nil => rfl
  | cons e es ih =>
    obtain ⟨hk, ht⟩ := List.nodup_cons.mp hn
    have hrest := ih ht fun e' he' => he e' (List.mem_cons_of_mem e he')
    have hfe := he e List.mem_cons_self
    by_cases hek : e.1 = k
    · have hnone : (es.find? fun e => decide (e.1 = k)) = none := by
        rw [List.find?_eq_none]
        intro e' he' hke
        refine hk (List.mem_map.mpr ⟨e', he', ?_⟩)
        rw [of_decide_eq_true hke, hek]
      rw [hnone] at hrest
      rw [List.map_cons, List.filter_cons_of_pos (by simp [hfe, hek]), hrest,
        List.find?_cons_of_pos (by simp [hek])]
      rfl
    · rw [List.map_cons, List.filter_cons_of_neg (by simp [hfe, hek]), hrest,
        List.find?_cons_of_neg (by simp [hek])]

theorem find?_setEntry (k k' : κ) (v : ν) (es : List (κ × ν)) :
    ((setEntry k v es).find? fun e => e.1 = k').map Prod.snd =
      if k' = k then some v else (es.find? fun e => e.1 = k').map Prod.snd := by
  induction es with
  | nil => by_cases h : k = k' <;> simp [setEntry, h, eq_comm]
  | cons e es ih =>
    by_cases he : e.1 = k
    · by_cases h : k' = k
      · simp [setEntry, he, h]
      · have h1 : ¬ k = k' := fun hk => h hk.symm
        simp [setEntry, he, h, h1]
    · simp only [setEntry, if_neg he]
      by_cases h : e.1 = k'
      · have h1 : ¬ k' = k := fun hk => he (h.trans hk)
        simp [h, h1]
      · rw [List.find?_cons_of_neg (by simpa using h), ih, List.find?_cons_of_neg (by simpa using h)]

@[simp] theorem get?_set (d : Dict κ ν) (k k' : κ) (v : ν) :
    (d.set k v).get? k' = if k' = k then some v else d.get? k' :=
  find?_setEntry k k' v d.entries

theorem get?_set_self (d : Dict κ ν) (k : κ) (v : ν) : (d.set k v).get? k = some v := by simp

theorem get?_set_ne (d : Dict κ ν) {k k' : κ} (h : k' ≠ k) (v : ν) :
    (d.set k v).get? k' = d.get? k' := by simp [h]

@[simp] theorem get?_filter (d : Dict κ ν) (p : κ → ν → Bool) (k : κ) :
    (d.filter p).get? k = (d.get? k).filter (p k) := by
  apply Option.ext
  intro v
  rw [← mem_entries, Option.filter_eq_some_iff, ← mem_entries]
  simp [filter]

@[simp] theorem get?_erase (d : Dict κ ν) (k k' : κ) :
    (d.erase k).get? k' = if k' = k then none else d.get? k' := by
  unfold erase
  rw [get?_filter]
  by_cases h : k' = k
  · cases d.get? k' <;> simp [h, Option.filter]
  · cases d.get? k' <;> simp [h, Option.filter]

/-- Entries have only gone. -/
def Fewer (d d' : Dict κ ν) : Prop := ∀ k, d'.get? k = d.get? k ∨ d'.get? k = none

theorem Fewer.refl (d : Dict κ ν) : Fewer d d := fun _ => .inl rfl

theorem Fewer.trans {d d' d'' : Dict κ ν} (h : Fewer d d') (h' : Fewer d' d'') : Fewer d d'' := by
  intro k
  rcases h' k with hsame | hgone
  · rw [hsame]
    exact h k
  · exact .inr hgone

theorem Fewer.of_get? {d d' : Dict κ ν} (h : Fewer d d') {k : κ} {v : ν} (hv : d'.get? k = some v) :
    d.get? k = some v := by
  rcases h k with hsame | hgone
  · exact hsame.symm.trans hv
  · cases hgone.symm.trans hv

theorem fewer_filter (d : Dict κ ν) (p : κ → ν → Bool) : Fewer d (d.filter p) := by
  intro k
  rw [get?_filter]
  cases d.get? k with
  | none => exact .inl rfl
  | some v => by_cases hv : p k v = true <;> simp [Option.filter, hv]

theorem fewer_erase (d : Dict κ ν) (k : κ) : Fewer d (d.erase k) := fewer_filter d _

omit [DecidableEq κ] in
theorem filter_congr {d : Dict κ ν} {p q : κ → ν → Bool} (h : ∀ e ∈ d.entries, p e.1 e.2 = q e.1 e.2) :
    d.filter p = d.filter q := by
  unfold filter
  congr 1
  exact List.filter_congr h

omit [DecidableEq κ] in
theorem filter_eq_self {d : Dict κ ν} {p : κ → ν → Bool} (h : ∀ e ∈ d.entries, p e.1 e.2 = true) :
    d.filter p = d := by
  obtain ⟨es, hn⟩ := d
  unfold filter
  congr 1
  exact List.filter_eq_self.mpr h

omit [DecidableEq κ] in
theorem filter_filter (d : Dict κ ν) (p q : κ → ν → Bool) :
    (d.filter p).filter q = d.filter fun k v => p k v && q k v := by
  unfold filter
  congr 1
  rw [List.filter_filter]
  simp only [Bool.and_comm]

omit [DecidableEq κ] in
theorem keys_filter (d : Dict κ ν) (p : κ → Bool) : (d.filter fun k _ => p k).keys = d.keys.filter p := by
  unfold keys filter
  rw [List.filter_map]
  rfl

@[simp] theorem get?_map (d : Dict κ ν) (f : κ → ν → ν) (k : κ) :
    (d.map f).get? k = (d.get? k).map (f k) := by
  obtain ⟨es, hn⟩ := d
  simp only [get?, map]
  induction es with
  | nil => rfl
  | cons e es ih =>
    by_cases h : e.1 = k
    · simp [h]
    · simpa [List.find?_cons_of_neg, h] using ih (List.nodup_cons.mp hn).2

omit [DecidableEq κ] in
theorem values_mapValues {μ : Type*} (d : Dict κ ν) (f : ν → μ) :
    (d.mapValues f).values = d.values.map f := by
  simp [values, mapValues, Function.comp_def]

@[simp] theorem get?_mapValues {μ : Type*} (d : Dict κ ν) (f : ν → μ) (k : κ) :
    (d.mapValues f).get? k = (d.get? k).map f := by
  simp [get?, mapValues, List.find?_map, Function.comp_def]

omit [DecidableEq κ] in
theorem keys_mapValues {μ : Type*} (d : Dict κ ν) (f : ν → μ) : (d.mapValues f).keys = d.keys := by
  simp [keys, mapValues, Function.comp_def]

theorem mapValues_set {μ : Type*} (d : Dict κ ν) (f : ν → μ) (k : κ) (v : ν) :
    (d.set k v).mapValues f = (d.mapValues f).set k (f v) := by
  have key : ∀ es : List (κ × ν), (setEntry k v es).map (fun e => (e.1, f e.2)) =
      setEntry k (f v) (es.map fun e => (e.1, f e.2)) := by
    intro es
    induction es with
    | nil => rfl
    | cons e es ih =>
      by_cases he : e.1 = k
      · simp [setEntry, he]
      · simp [setEntry, he, ih]
  simp only [mapValues, set, key]

theorem mapValues_erase {μ : Type*} (d : Dict κ ν) (f : ν → μ) (k : κ) :
    (d.erase k).mapValues f = (d.mapValues f).erase k := by
  simp only [mapValues, erase, filter, List.filter_map, Function.comp_def]

theorem mapValues_setDefault {μ : Type*} (d : Dict κ ν) (f : ν → μ) (k : κ) (v : ν) :
    (d.setDefault k v).mapValues f = (d.mapValues f).setDefault k (f v) := by
  unfold setDefault
  rw [get?_mapValues, Option.isSome_map]
  split
  · rfl
  · exact mapValues_set d f k v

/-- A rewriting that changes no value changes nothing. -/
theorem map_eq_self {d : Dict κ ν} {f : κ → ν → ν} (h : ∀ k v, d.get? k = some v → f k v = v) :
    d.map f = d := by
  obtain ⟨es, hn⟩ := d
  have he : (es.map fun e => (e.1, f e.1 e.2)) = es := by
    refine (List.map_congr_left fun e he => ?_).trans (List.map_id es)
    exact Prod.ext rfl (h e.1 e.2 (mem_entries.mp he))
  simp only [map, he]

@[simp] theorem get?_setDefault (d : Dict κ ν) (k k' : κ) (v : ν) :
    (d.setDefault k v).get? k' = if k' = k then some ((d.get? k).getD v) else d.get? k' := by
  unfold setDefault
  cases hk : d.get? k <;> by_cases h : k' = k <;> simp [h, hk]

theorem get?_foldl_setDefault (ks : List κ) (d : Dict κ ν) (k : κ) (v : ν) :
    (ks.foldl (fun d k => d.setDefault k v) d).get? k =
      if k ∈ ks then some ((d.get? k).getD v) else d.get? k := by
  induction ks generalizing d with
  | nil => simp
  | cons k' ks ih =>
    rw [List.foldl_cons, ih, get?_setDefault]
    by_cases hk : k = k'
    · simp [hk]
    · simp [hk]

/-- A new key goes to the end. -/
theorem entries_set_of_get?_eq_none {d : Dict κ ν} {k : κ} (h : d.get? k = none) (v : ν) :
    (d.set k v).entries = d.entries ++ [(k, v)] := by
  obtain ⟨es, hn⟩ := d
  have hk : ∀ e ∈ es, ¬ e.1 = k := by simpa [get?] using h
  show setEntry k v es = es ++ [(k, v)]
  clear hn h
  induction es with
  | nil => rfl
  | cons e es ih =>
    rw [setEntry, if_neg (hk e List.mem_cons_self),
      ih fun e' he' => hk e' (List.mem_cons_of_mem e he'), List.cons_append]

theorem length_setDefault_le (d : Dict κ ν) (k : κ) (v : ν) :
    (d.setDefault k v).entries.length ≤ d.entries.length + 1 := by
  unfold setDefault
  cases hk : d.get? k with
  | none => simp [entries_set_of_get?_eq_none hk]
  | some w => simp

theorem length_foldl_setDefault_le (ks : List κ) (d : Dict κ ν) (v : ν) :
    (ks.foldl (fun d k => d.setDefault k v) d).entries.length ≤ d.entries.length + ks.length := by
  induction ks generalizing d with
  | nil => exact Nat.le_refl _
  | cons k ks ih =>
    have hone := length_setDefault_le d k v
    have hrest := ih (d.setDefault k v)
    rw [List.foldl_cons, List.length_cons]
    omega

/-- Dropping keys that are there, each once, makes as much room. -/
theorem length_filter_notMem (d : Dict κ ν) {ks : List κ} (hn : ks.Nodup) (hks : ks ⊆ d.keys) :
    (d.filter fun k _ => k ∉ ks).entries.length + ks.length = d.entries.length := by
  have hperm : (d.keys.filter fun k => k ∈ ks).Perm ks := by
    have hkeys : d.keys.Nodup := d.nodup
    refine (List.perm_ext_iff_of_nodup (hkeys.filter _) hn).mpr fun k => ?_
    simpa using fun hk => hks hk
  have hdrop : (d.filter fun k _ => k ∉ ks).entries.length = (d.keys.filter fun k => k ∉ ks).length := by
    unfold filter keys
    rw [List.filter_map, List.length_map]
    rfl
  have hsplit := List.length_eq_length_filter_add (l := d.keys) fun k => decide (k ∈ ks)
  rw [hdrop, ← hperm.length_eq]
  simp only [decide_not] at hsplit ⊢
  have hlen : d.keys.length = d.entries.length := List.length_map _
  omega

theorem values_set_of_get?_eq_none {d : Dict κ ν} {k : κ} (h : d.get? k = none) (v : ν) :
    (d.set k v).values = d.values ++ [v] := by
  simp [values, entries_set_of_get?_eq_none h]

theorem mem_flatMap_values {β : Type*} {d : Dict κ ν} {f : ν → List β} {b : β} :
    b ∈ d.values.flatMap f ↔ ∃ k v, d.get? k = some v ∧ b ∈ f v := by
  simp only [List.mem_flatMap, mem_values]
  constructor
  · rintro ⟨v, ⟨k, hv⟩, hb⟩
    exact ⟨k, v, hv, hb⟩
  · rintro ⟨k, v, hv, hb⟩
    exact ⟨v, ⟨k, hv⟩, hb⟩

/-- A new entry adds what is its own. -/
theorem mem_flatMap_values_set {β : Type*} {d : Dict κ ν} {f : ν → List β} {b : β} {k : κ}
    (h : d.get? k = none) (v : ν) :
    b ∈ (d.set k v).values.flatMap f ↔ b ∈ f v ∨ b ∈ d.values.flatMap f := by
  rw [values_set_of_get?_eq_none h, List.flatMap_append, List.mem_append, List.flatMap_singleton,
    or_comm]

/-- An entry that goes takes no more than its own away. -/
theorem mem_flatMap_values_of_erase {β : Type*} {d : Dict κ ν} {f : ν → List β} {b : β} {k : κ} {v : ν}
    (hv : d.get? k = some v) (h : b ∈ d.values.flatMap f) :
    b ∈ f v ∨ b ∈ (d.erase k).values.flatMap f := by
  obtain ⟨k', v', hv', hb⟩ := mem_flatMap_values.mp h
  by_cases hk : k' = k
  · subst hk
    cases hv.symm.trans hv'
    exact .inl hb
  · refine .inr (mem_flatMap_values.mpr ⟨k', v', ?_, hb⟩)
    rw [get?_erase, if_neg hk, hv']

/-- Where a value is assigned, and what was there. -/
theorem exists_values_set (d : Dict κ ν) (k : κ) (v : ν) : ∃ pre post,
    (d.set k v).values = pre ++ v :: post ∧ d.values = pre ++ ((d.get? k).toList ++ post) := by
  obtain ⟨es, hn⟩ := d
  show ∃ pre post, (setEntry k v es).map Prod.snd = pre ++ v :: post ∧
    es.map Prod.snd = pre ++ (((es.find? fun e => e.1 = k).map Prod.snd).toList ++ post)
  clear hn
  induction es with
  | nil => exact ⟨[], [], rfl, rfl⟩
  | cons e es ih =>
    by_cases he : e.1 = k
    · refine ⟨[], es.map Prod.snd, ?_, ?_⟩
      · simp [setEntry, he]
      · simp [he]
    · obtain ⟨pre, post, hset, hold⟩ := ih
      refine ⟨e.2 :: pre, post, ?_, ?_⟩
      · simp [setEntry, he, hset]
      · rw [List.find?_cons_of_neg (by simpa using he), List.map_cons, hold, List.cons_append]

theorem countP_values_set_le (d : Dict κ ν) (k : κ) (v : ν) (p : ν → Bool) :
    (d.set k v).values.countP p ≤ d.values.countP p + [v].countP p := by
  obtain ⟨pre, post, hset, hold⟩ := exists_values_set d k v
  rw [hset, hold, List.countP_append, List.countP_append, List.countP_append, List.countP_cons,
    List.countP_cons, List.countP_nil]
  omega

theorem values_erase_sublist (d : Dict κ ν) (k : κ) : (d.erase k).values.Sublist d.values :=
  List.Sublist.map _ List.filter_sublist

theorem countP_values_erase {d : Dict κ ν} {k : κ} {v : ν} (h : d.get? k = some v) (p : ν → Bool) :
    (d.erase k).values.countP p + [v].countP p = d.values.countP p := by
  obtain ⟨es, hn⟩ := d
  simp only [get?, values, erase, filter] at h ⊢
  induction es with
  | nil => cases h
  | cons e es ih =>
    obtain ⟨hk, ht⟩ := List.nodup_cons.mp hn
    by_cases he : e.1 = k
    · subst he
      rw [List.find?_cons_of_pos (by simp)] at h
      cases h
      have hrest : (es.filter fun e' => decide (e'.1 ≠ e.1)) = es := by
        refine List.filter_eq_self.mpr fun e' he' => decide_eq_true fun heq => hk ?_
        exact List.mem_map.mpr ⟨e', he', heq⟩
      rw [List.filter_cons_of_neg (by simp), hrest, List.map_cons]
      simp only [List.countP_cons, List.countP_nil]
      omega
    · rw [List.find?_cons_of_neg (by simpa using he)] at h
      have hih := ih ht h
      rw [List.filter_cons_of_pos (by simpa using he), List.map_cons, List.map_cons]
      simp only [List.countP_cons] at hih ⊢
      omega

theorem mem_of_lookup {l : List (κ × ν)} {k : κ} {v : ν} (h : l.lookup k = some v) : (k, v) ∈ l := by
  obtain ⟨as, bs, he, -⟩ := List.lookup_eq_some_iff.mp h
  rw [he]
  exact List.mem_append_right as List.mem_cons_self

/-- What the default and every entry of a table meet, a lookup in it meets. -/
theorem getD_lookup {l : List (κ × ν)} {P : ν → Prop} {v : ν} (hv : P v) (hl : ∀ e ∈ l, P e.2) (k : κ) :
    P ((l.lookup k).getD v) := by
  cases h : l.lookup k with
  | none => exact hv
  | some w => exact hl _ (mem_of_lookup h)

theorem lookup_cons (k k' : κ) (v : ν) (l : List (κ × ν)) :
    ((k, v) :: l).lookup k' = if k' = k then some v else l.lookup k' := by
  rw [List.lookup_cons]
  by_cases h : k' = k
  · rw [if_pos h, beq_iff_eq.mpr h]
  · rw [if_neg h, beq_false_of_ne h]

theorem lookup_setEntry (k k' : κ) (v : ν) (es : List (κ × ν)) :
    (setEntry k v es).lookup k' = if k' = k then some v else es.lookup k' := by
  induction es with
  | nil => exact lookup_cons k k' v []
  | cons e es ih =>
    obtain ⟨k₀, v₀⟩ := e
    by_cases he : k₀ = k
    · rw [setEntry, if_pos he, lookup_cons, lookup_cons, he]
      split_ifs <;> rfl
    · rw [setEntry, if_neg he, lookup_cons, ih, lookup_cons]
      by_cases h : k' = k₀
      · have hne : k' ≠ k := fun hk => he (h.symm.trans hk)
        rw [if_pos h, if_neg hne, if_pos h]
      · rw [if_neg h, if_neg h]

theorem mem_setEntry {k : κ} {v : ν} {es : List (κ × ν)} {e : κ × ν} (h : e ∈ setEntry k v es) :
    e = (k, v) ∨ e ∈ es := by
  induction es with
  | nil => exact .inl (List.mem_singleton.mp h)
  | cons e' es ih =>
    unfold setEntry at h
    split_ifs at h
    · exact (List.mem_cons.mp h).imp_right (List.mem_cons_of_mem e')
    · rcases List.mem_cons.mp h with rfl | hin
      · exact .inr List.mem_cons_self
      · exact (ih hin).imp_right (List.mem_cons_of_mem e')

/-- Only the last of two assignments stays. -/
theorem setEntry_setEntry (k : κ) (v w : ν) (es : List (κ × ν)) :
    setEntry k v (setEntry k w es) = setEntry k v es := by
  induction es with
  | nil => simp [setEntry]
  | cons e es ih =>
    by_cases he : e.1 = k
    · simp [setEntry, he]
    · simp [setEntry, he, ih]

theorem lookup_entries (d : Dict κ ν) (k : κ) : d.entries.lookup k = d.get? k := by
  obtain ⟨es, hn⟩ := d
  show es.lookup k = (es.find? fun e => e.1 = k).map Prod.snd
  clear hn
  induction es with
  | nil => rfl
  | cons e es ih =>
    rw [lookup_cons, ih]
    by_cases h : k = e.1
    · simp [h]
    · rw [if_neg h, List.find?_cons_of_neg (by simpa using Ne.symm h)]

theorem lookup_of_mem {l : List (κ × ν)} (hn : (l.map Prod.fst).Nodup) {k : κ} {v : ν} (h : (k, v) ∈ l) :
    l.lookup k = some v := by
  have hget := mem_entries (d := ⟨l, hn⟩).mp h
  rwa [← lookup_entries] at hget

/-- Where no key occurs twice, the order of a table does not matter. -/
theorem lookup_perm {l l' : List (κ × ν)} (hp : l.Perm l') (hn : (l.map Prod.fst).Nodup) (k : κ) :
    l.lookup k = l'.lookup k := by
  induction hp with
  | nil => rfl
  | cons e _ ih =>
    rw [lookup_cons, lookup_cons, ih (List.nodup_cons.mp hn).2]
  | swap e e' l =>
    have hne : e'.1 ≠ e.1 := fun h => (List.nodup_cons.mp hn).1 (h ▸ List.mem_cons_self)
    rw [lookup_cons, lookup_cons, lookup_cons, lookup_cons]
    by_cases hk : k = e.1
    · simp [hk, hne.symm]
    · simp [hk]
  | trans hp _ ih ih' => exact (ih hn).trans (ih' ((hp.map Prod.fst).nodup_iff.mp hn))

omit [DecidableEq κ] in
/-- A loop over a snapshot of the entries: what holds of the entries still to come is
carried from one to the next. -/
theorem foldl_entries {σ : Type*} {f : σ → κ × ν → σ} {R : List (κ × ν) → σ → Prop}
    (hstep : ∀ e es s, e.1 ∉ es.map Prod.fst → R (e :: es) s → R es (f s e))
    (d : Dict κ ν) {s : σ} (hs : R d.entries s) : R [] (d.entries.foldl f s) := by
  obtain ⟨es, hn⟩ := d
  induction es generalizing s with
  | nil => exact hs
  | cons e es ih =>
    obtain ⟨he, ht⟩ := List.nodup_cons.mp hn
    exact ih ht (hstep e es s he hs)

end Dict

end Wavr
