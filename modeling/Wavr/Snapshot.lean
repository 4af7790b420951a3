import Mathlib.Data.List.Induction
import Wavr.Dict

/-!
# A copy that follows what is announced

Lists of values with keys come one after the other, and two lists are told apart by their keys: the
values of the keys that are new are announced, those of the keys that have gone are withdrawn. A copy
that follows this has the values of the last list just where no value changed under its key.
-/

namespace Wavr.Snapshot

variable {κ ν : Type*} [DecidableEq κ] (key : ν → κ)

/-- Values that come under their keys. -/
def announce (vs : List ν) (copy : Dict κ ν) : Dict κ ν := vs.foldl (fun d v => d.set (key v) v) copy

def withdraw (vs : List ν) (copy : Dict κ ν) : Dict κ ν := vs.foldl (fun d v => d.erase (key v)) copy

/-- Of several values with one key the last stays. -/
def byKey (vs : List ν) : Dict κ ν := announce key vs .empty

/-- The copy has the values of the list, each under its key. -/
def Mirrors (copy : Dict κ ν) (vs : List ν) : Prop := ∀ k v, copy.get? k = some v ↔ v ∈ vs ∧ key v = k

/-- A key that the new list has comes with one value, the one it had before if it did. -/
def Steady (old new : List ν) : Prop := ∀ v ∈ new, ∀ u ∈ new ++ old, key v = key u → v = u

variable {key} {vs old new : List ν} {copy d : Dict κ ν} {k : κ} {v : ν}

theorem mirrors_nil : Mirrors key .empty [] := by
  intro k v
  simp

theorem byKey_concat (vs : List ν) (v : ν) : byKey key (vs ++ [v]) = (byKey key vs).set (key v) v :=
  List.foldl_append

theorem of_get?_byKey (h : (byKey key vs).get? k = some v) : v ∈ vs ∧ key v = k := by
  induction vs using List.reverseRecOn with
  | nil => cases h
  | append_singleton vs u ih =>
    rw [byKey_concat, Dict.get?_set] at h
    split at h
    · next hk =>
      cases h
      exact ⟨List.mem_append_right _ List.mem_cons_self, hk.symm⟩
    · obtain ⟨hmem, hk⟩ := ih h
      exact ⟨List.mem_append_left _ hmem, hk⟩

theorem mem_keys_byKey : k ∈ (byKey key vs).keys ↔ ∃ v ∈ vs, key v = k := by
  rw [Dict.mem_keys, Option.isSome_iff_exists]
  constructor
  · rintro ⟨v, hv⟩
    exact ⟨v, of_get?_byKey hv⟩
  · intro h
    induction vs using List.reverseRecOn with
    | nil => simp at h
    | append_singleton vs u ih =>
      rw [byKey_concat, Dict.get?_set]
      split
      · exact ⟨u, rfl⟩
      · next hk =>
        obtain ⟨v, hv, hvk⟩ := h
        rcases List.mem_append.mp hv with hv | hv
        · exact ih ⟨v, hv, hvk⟩
        · exact absurd ((List.mem_singleton.mp hv) ▸ hvk).symm hk

/-- What is announced of a list, the keys being those of `ks`. -/
theorem get?_announce_filterMap (ks : List κ) (copy : Dict κ ν) (k : κ) :
    (announce key (ks.filterMap (byKey key vs).get?) copy).get? k =
      if k ∈ ks then ((byKey key vs).get? k).or (copy.get? k) else copy.get? k := by
  induction ks generalizing copy with
  | nil => rfl
  | cons i ks ih =>
    cases hi : (byKey key vs).get? i with
    | none =>
      rw [List.filterMap_cons_none hi, ih]
      by_cases hk : k = i
      · simp [hk, hi]
      · simp [hk]
    | some v =>
      rw [List.filterMap_cons_some hi]
      have hstep := ih (copy.set (key v) v)
      rw [Dict.get?_set, (of_get?_byKey hi).2] at hstep
      refine Eq.trans ?_ (hstep.trans ?_)
      · rw [announce, List.foldl_cons, (of_get?_byKey hi).2]
        rfl
      · by_cases hk : k = i
        · subst hk
          simp [hi]
        · simp [hk]

theorem get?_withdraw_filterMap (ks : List κ) (copy : Dict κ ν) (k : κ) :
    (withdraw key (ks.filterMap (byKey key vs).get?) copy).get? k =
      if k ∈ ks ∧ k ∈ (byKey key vs).keys then none else copy.get? k := by
  induction ks generalizing copy with
  | nil => simp [withdraw]
  | cons i ks ih =>
    cases hi : (byKey key vs).get? i with
    | none =>
      have hnot : i ∉ (byKey key vs).keys := by simp [Dict.mem_keys, hi]
      rw [List.filterMap_cons_none hi, ih]
      by_cases hk : k = i
      · simp [hk, hnot]
      · simp [hk]
    | some v =>
      have hmem : i ∈ (byKey key vs).keys := by simp [Dict.mem_keys, hi]
      rw [List.filterMap_cons_some hi]
      have hstep := ih (copy.erase (key v))
      rw [Dict.get?_erase, (of_get?_byKey hi).2] at hstep
      refine Eq.trans ?_ (hstep.trans ?_)
      · rw [withdraw, List.foldl_cons, (of_get?_byKey hi).2]
        rfl
      · by_cases hk : k = i
        · simp [hk, hmem]
        · simp [hk]

theorem Mirrors.get?_eq_none (h : Mirrors key copy vs) (hk : k ∉ (byKey key vs).keys) : copy.get? k = none := by
  rw [Option.eq_none_iff_forall_ne_some]
  intro v hv
  exact hk (mem_keys_byKey.mpr ⟨v, (h k v).mp hv⟩)

/-- A steady list has one value under each key. -/
theorem mirrors_byKey (h : Steady key old new) : Mirrors key (byKey key new) new := by
  intro k v
  refine ⟨of_get?_byKey, fun ⟨hv, hvk⟩ => ?_⟩
  have hk : k ∈ (byKey key new).keys := mem_keys_byKey.mpr ⟨v, hv, hvk⟩
  obtain ⟨u, hu⟩ := Option.isSome_iff_exists.mp (Dict.mem_keys.mp hk)
  obtain ⟨humem, huk⟩ := of_get?_byKey hu
  have hvu : v = u := h v hv u (List.mem_append_left _ humem) (hvk.trans huk.symm)
  rw [hu, hvu]

/-- A key of both lists has the same values in both. -/
theorem Steady.mem_iff (h : Steady key old new) (hold : k ∈ (byKey key old).keys)
    (hnew : k ∈ (byKey key new).keys) : v ∈ old ∧ key v = k ↔ v ∈ new ∧ key v = k := by
  obtain ⟨u, hu, huk⟩ := mem_keys_byKey.mp hold
  obtain ⟨w, hw, hwk⟩ := mem_keys_byKey.mp hnew
  have hwu : w = u := h w hw u (List.mem_append_right _ hu) (hwk.trans huk.symm)
  constructor
  · rintro ⟨hv, hvk⟩
    have hwv : w = v := h w hw v (List.mem_append_right _ hv) (hwk.trans hvk.symm)
    exact ⟨hwv ▸ hw, hvk⟩
  · rintro ⟨hv, hvk⟩
    have hvu : v = u := h v hv u (List.mem_append_right _ hu) (hvk.trans huk.symm)
    exact ⟨hvu ▸ hu, hvk⟩

section
variable {arrived gone : List κ}

/-- What a copy has under a key after a list has followed another. -/
theorem get?_follow (harrived : ∀ k, k ∈ arrived ↔ k ∈ (byKey key new).keys ∧ k ∉ (byKey key old).keys)
    (hgone : ∀ k, k ∈ gone ↔ k ∈ (byKey key old).keys ∧ k ∉ (byKey key new).keys) (copy : Dict κ ν) (k : κ) :
    (withdraw key (gone.filterMap (byKey key old).get?)
      (announce key (arrived.filterMap (byKey key new).get?) copy)).get? k =
      if k ∈ (byKey key old).keys then if k ∈ (byKey key new).keys then copy.get? k else none
      else ((byKey key new).get? k).or (copy.get? k) := by
  rw [get?_withdraw_filterMap, get?_announce_filterMap]
  by_cases hold : k ∈ (byKey key old).keys
  · by_cases hnew : k ∈ (byKey key new).keys <;> simp [harrived, hgone, hold, hnew]
  · by_cases hnew : k ∈ (byKey key new).keys
    · simp [harrived, hgone, hold, hnew]
    · have hnone : (byKey key new).get? k = none := by simpa [Dict.mem_keys] using hnew
      simp [harrived, hgone, hold, hnew, hnone]

/-- A copy that mirrored a list mirrors the next one just where values are steady. -/
theorem mirrors_follow_iff (hcopy : Mirrors key copy old)
    (harrived : ∀ k, k ∈ arrived ↔ k ∈ (byKey key new).keys ∧ k ∉ (byKey key old).keys)
    (hgone : ∀ k, k ∈ gone ↔ k ∈ (byKey key old).keys ∧ k ∉ (byKey key new).keys) :
    Mirrors key (withdraw key (gone.filterMap (byKey key old).get?)
      (announce key (arrived.filterMap (byKey key new).get?) copy)) new ↔ Steady key old new := by
  have hget := get?_follow harrived hgone copy
  constructor
  · intro h v hv u hu hk
    have hfound := (h (key v) v).mpr ⟨hv, rfl⟩
    rcases List.mem_append.mp hu with hu | hu
    · exact Option.some.inj (hfound.symm.trans ((h (key v) u).mpr ⟨hu, hk.symm⟩))
    · -- the copy still has what the old list had
      have hold : key v ∈ (byKey key old).keys := mem_keys_byKey.mpr ⟨u, hu, hk.symm⟩
      have hnew : key v ∈ (byKey key new).keys := mem_keys_byKey.mpr ⟨v, hv, rfl⟩
      rw [hget, if_pos hold, if_pos hnew] at hfound
      exact Option.some.inj (hfound.symm.trans ((hcopy (key v) u).mpr ⟨hu, hk.symm⟩))
  · intro h k v
    rw [hget]
    by_cases hold : k ∈ (byKey key old).keys
    · rw [if_pos hold]
      by_cases hnew : k ∈ (byKey key new).keys
      · rw [if_pos hnew, hcopy]
        exact h.mem_iff hold hnew
      · rw [if_neg hnew]
        exact iff_of_false nofun fun hv => hnew (mem_keys_byKey.mpr ⟨v, hv⟩)
    · rw [if_neg hold, hcopy.get?_eq_none hold, Option.or_none]
      exact mirrors_byKey h k v

end

end Wavr.Snapshot
