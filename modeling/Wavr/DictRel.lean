import Mathlib.Data.List.Forall2
import Wavr.Dict

/-!
# Dictionaries with the same keys

Two dictionaries that have the same keys in the same order, and related values under each.
-/

namespace Wavr.Dict

variable {κ ν μ : Type*} [DecidableEq κ]

omit [DecidableEq κ] in
def Rel (r : ν → μ → Prop) (d : Dict κ ν) (e : Dict κ μ) : Prop :=
  List.Forall₂ (fun a b => a.1 = b.1 ∧ r a.2 b.2) d.entries e.entries

variable {r : ν → μ → Prop} {d : Dict κ ν} {e : Dict κ μ} {v : ν} {w : μ}

theorem Rel.get? (h : Rel r d e) (k : κ) : Option.Rel r (d.get? k) (e.get? k) := by
  obtain ⟨es, hd⟩ := d
  obtain ⟨fs, he⟩ := e
  rw [← lookup_entries, ← lookup_entries]
  unfold Rel at h
  dsimp only at h ⊢
  clear hd he
  induction h with
  | nil => exact .none
  | cons hab _ ih =>
    rename_i a b es fs _
    obtain ⟨ka, va⟩ := a
    obtain ⟨kb, vb⟩ := b
    obtain ⟨rfl, hr⟩ := hab
    rw [lookup_cons, lookup_cons]
    split
    · exact .some hr
    · exact ih

theorem Rel.set (h : Rel r d e) (k : κ) (hr : r v w) : Rel r (d.set k v) (e.set k w) := by
  obtain ⟨es, hd⟩ := d
  obtain ⟨fs, he⟩ := e
  unfold Rel Dict.set at *
  dsimp only at h ⊢
  clear hd he
  induction h with
  | nil => exact .cons ⟨rfl, hr⟩ .nil
  | cons hab hrest ih =>
    unfold setEntry
    rw [hab.1]
    split
    · exact .cons ⟨rfl, hr⟩ hrest
    · exact .cons hab ih

theorem Rel.setDefault (h : Rel r d e) (k : κ) (hr : r v w) : Rel r (d.setDefault k v) (e.setDefault k w) := by
  unfold Dict.setDefault
  have hsome : (d.get? k).isSome = (e.get? k).isSome := by
    have hk := h.get? k
    revert hk
    cases d.get? k <;> cases e.get? k <;> intro hk <;> cases hk <;> rfl
  rw [hsome]
  split
  · exact h
  · exact h.set k hr

theorem Rel.erase (h : Rel r d e) (k : κ) : Rel r (d.erase k) (e.erase k) := by
  obtain ⟨es, hd⟩ := d
  obtain ⟨fs, he⟩ := e
  unfold Rel Dict.erase Dict.filter at *
  dsimp only at h ⊢
  clear hd he
  induction h with
  | nil => exact .nil
  | cons hab _ ih =>
    rw [List.filter_cons, List.filter_cons, hab.1]
    split
    · exact .cons hab ih
    · exact ih

omit [DecidableEq κ] in
theorem Rel.mapValues {ν' μ' : Type*} {r' : ν' → μ' → Prop} {f : ν → ν'} {g : μ → μ'} (h : Rel r d e)
    (hr : ∀ v w, r v w → r' (f v) (g w)) : Rel r' (d.mapValues f) (e.mapValues g) := by
  refine List.forall₂_map_left_iff.mpr (List.forall₂_map_right_iff.mpr ?_)
  exact h.imp fun a b hab => ⟨hab.1, hr a.2 b.2 hab.2⟩

omit [DecidableEq κ] in
theorem Rel.values (h : Rel r d e) : List.Forall₂ r d.values e.values := by
  refine List.forall₂_map_left_iff.mpr (List.forall₂_map_right_iff.mpr ?_)
  exact h.imp fun _ _ hab => hab.2

omit [DecidableEq κ] in
/-- What looks at a value only as far as the relation goes sees the same on both sides. -/
theorem Rel.map_entries {β : Type*} {f : κ × ν → β} {g : κ × μ → β} (h : Rel r d e)
    (hr : ∀ k v w, r v w → f (k, v) = g (k, w)) : d.entries.map f = e.entries.map g := by
  obtain ⟨es, hd⟩ := d
  obtain ⟨fs, he⟩ := e
  unfold Rel at h
  dsimp only at h ⊢
  clear hd he
  induction h with
  | nil => rfl
  | cons hab _ ih =>
    rename_i a b es fs _
    obtain ⟨ka, va⟩ := a
    obtain ⟨kb, vb⟩ := b
    obtain ⟨rfl, hv⟩ := hab
    rw [List.map_cons, List.map_cons, ih, hr ka va vb hv]

end Wavr.Dict
