import Mathlib

/-!
# Lists mapped in `Option`
-/

namespace Wavr.OptionList

variable {α β : Type} {f : α → Option β} {l : List α}

theorem forall₂_of_mapM {out : List β} (h : l.mapM f = some out) :
    List.Forall₂ (fun a b => f a = some b) l out := by
  induction l generalizing out with
  | nil =>
    cases h
    exact .nil
  | cons a l ih =>
    rw [List.mapM_cons] at h
    obtain ⟨b, hb, h⟩ := Option.bind_eq_some_iff.mp h
    obtain ⟨bs, hbs, h⟩ := Option.bind_eq_some_iff.mp h
    cases h
    exact .cons hb (ih hbs)

theorem exists_of_mapM {out : List β} (h : l.mapM f = some out) : ∀ a ∈ l, ∃ b, f a = some b := by
  intro a ha
  have hall := forall₂_of_mapM h
  clear h
  induction hall with
  | nil => cases ha
  | cons hb _ ih =>
    rcases List.mem_cons.mp ha with rfl | ha
    · exact ⟨_, hb⟩
    · exact ih ha

theorem exists_of_mem_mapM {out : List β} (h : l.mapM f = some out) {b : β} (hb : b ∈ out) :
    ∃ a ∈ l, f a = some b := by
  have hall := forall₂_of_mapM h
  clear h
  induction hall with
  | nil => cases hb
  | @cons a _ l _ hfa _ ih =>
    rcases List.mem_cons.mp hb with rfl | hb
    · exact ⟨a, List.mem_cons_self, hfa⟩
    · obtain ⟨a', ha', hfa'⟩ := ih hb
      exact ⟨a', List.mem_cons_of_mem a ha', hfa'⟩

theorem mapM_of_exists (h : ∀ a ∈ l, ∃ b, f a = some b) : ∃ out, l.mapM f = some out := by
  induction l with
  | nil => exact ⟨[], rfl⟩
  | cons a l ih =>
    obtain ⟨b, hb⟩ := h a List.mem_cons_self
    obtain ⟨bs, hbs⟩ := ih fun a' ha' => h a' (List.mem_cons_of_mem a ha')
    exact ⟨b :: bs, by rw [List.mapM_cons, hb, hbs]; rfl⟩

end Wavr.OptionList
