import Mathlib.Data.List.Nodup

/-!
# A pass over keyed items

Items are looked at one after the other with a state in hand, and those that hit are collected. Where
an item looks at the state only under its own key, the keys being distinct, the pass is a filter.
-/

namespace Wavr.Pass

variable {α β κ σ : Type*}

def collect (f : α → σ → Bool × σ) : List α → σ → List α × σ
  | [], s => ([], s)
  | a :: l, s =>
    let (hit, s) := f a s
    let (out, s) := collect f l s
    (if hit then a :: out else out, s)

/-- Whether an item hits, and what it leaves under its key, is decided by what it finds there; `g` is
what a state has under a key. -/
structure Local (key : α → κ) (g : σ → κ → β) (f : α → σ → Bool × σ) (d : α → β → Bool) (u : α → β → β) :
    Prop where
  hit : ∀ a s, (f a s).1 = d a (g s (key a))
  own : ∀ a s, g (f a s).2 (key a) = u a (g s (key a))
  other : ∀ a s k, k ≠ key a → g (f a s).2 k = g s k

variable {key : α → κ} {g : σ → κ → β} {f : α → σ → Bool × σ} {d : α → β → Bool} {u : α → β → β}
  {a : α} {l : List α} {s : σ} {k : κ}

theorem Local.collect_fst (h : Local key g f d u) (hl : (l.map key).Nodup) (s : σ) :
    (collect f l s).1 = l.filter fun a => d a (g s (key a)) := by
  induction l generalizing s with
  | nil => rfl
  | cons a l ih =>
    obtain ⟨ha, hl⟩ := List.nodup_cons.mp hl
    have hrest : ∀ b ∈ l, d b (g (f a s).2 (key b)) = d b (g s (key b)) := by
      intro b hb
      rw [h.other a s (key b) fun he => ha (he ▸ List.mem_map_of_mem hb)]
    rw [List.filter_cons, ← List.filter_congr hrest, ← ih hl, ← h.hit]
    rfl

theorem Local.collect_snd_of_not_mem (h : Local key g f d u) (hk : k ∉ l.map key) (s : σ) :
    g (collect f l s).2 k = g s k := by
  induction l generalizing s with
  | nil => rfl
  | cons a l ih =>
    obtain ⟨ha, hl⟩ := not_or.mp (List.mem_cons.not.mp hk)
    exact (ih hl _).trans (h.other a s k ha)

theorem Local.collect_snd_of_mem (h : Local key g f d u) (hl : (l.map key).Nodup) (ha : a ∈ l) (s : σ) :
    g (collect f l s).2 (key a) = u a (g s (key a)) := by
  induction l generalizing s with
  | nil => cases ha
  | cons b l ih =>
    obtain ⟨hb, hl⟩ := List.nodup_cons.mp hl
    rcases List.mem_cons.mp ha with rfl | ha
    · exact (h.collect_snd_of_not_mem hb _).trans (h.own a s)
    · have hne : key a ≠ key b := fun he => hb (he ▸ List.mem_map_of_mem ha)
      refine (ih hl ha _).trans ?_
      rw [h.other b s (key a) hne]

/-- What no item touches, a pass leaves. -/
theorem collect_frame {γ : Type*} {r : σ → γ} (h : ∀ a s, r (f a s).2 = r s) (l : List α) (s : σ) :
    r (collect f l s).2 = r s := by
  induction l generalizing s with
  | nil => rfl
  | cons a l ih => exact (ih (f a s).2).trans (h a s)

end Wavr.Pass
