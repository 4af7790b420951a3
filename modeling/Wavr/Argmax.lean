import Mathlib.Data.List.Perm.Basic
import Mathlib.Order.Lattice

/-!
# Picking the heaviest

A loop over a list that keeps a value for the heaviest candidate so far, the first among equals.
-/

namespace Wavr.Argmax

variable {α β R : Type*}

section
variable (cand : α → Bool) (lt : R → R → Bool) (w : α → R) (val : α → β)

/-- A candidate replaces the best so far where it is strictly heavier. -/
def pick (best : R × β) (a : α) : R × β :=
  if cand a && lt best.1 (w a) then (w a, val a) else best

variable {cand lt w val}

theorem foldl_pick_mem (as : List α) (best : R × β) :
    as.foldl (pick cand lt w val) best = best ∨
      ∃ a ∈ as, cand a = true ∧ as.foldl (pick cand lt w val) best = (w a, val a) := by
  induction as generalizing best with
  | nil => exact .inl rfl
  | cons a as ih =>
    rcases ih (pick cand lt w val best a) with hkeep | ⟨b, hb, hcand, hfold⟩
    · rw [List.foldl_cons, hkeep]
      unfold pick
      split
      · rename_i h
        exact .inr ⟨a, List.mem_cons_self, (Bool.and_eq_true _ _ ▸ h).1, rfl⟩
      · exact .inl rfl
    · exact .inr ⟨b, List.mem_cons_of_mem a hb, hcand, hfold⟩

theorem pick_of_not {best : R × β} {a : α} (h : cand a = true → lt best.1 (w a) = false) :
    pick cand lt w val best a = best := by
  unfold pick
  split
  · rename_i hif
    obtain ⟨hc, hlt⟩ := Bool.and_eq_true _ _ ▸ hif
    rw [h hc] at hlt
    cases hlt
  · rfl

theorem foldl_pick_of_not {as : List α} {best : R × β}
    (h : ∀ a ∈ as, cand a = true → lt best.1 (w a) = false) :
    as.foldl (pick cand lt w val) best = best := by
  induction as with
  | nil => rfl
  | cons a as ih =>
    rw [List.foldl_cons, pick_of_not (h a List.mem_cons_self)]
    exact ih fun b hb => h b (List.mem_cons_of_mem a hb)

/-- Lighter candidates leave a best that the weight beats. -/
theorem foldl_pick_lighter {as : List α} {best : R × β} {x : R} (hbest : lt best.1 x = true)
    (h : ∀ a ∈ as, cand a = true → lt (w a) x = true) :
    lt (as.foldl (pick cand lt w val) best).1 x = true := by
  rcases foldl_pick_mem as best with hkeep | ⟨a, ha, hable, hpick⟩
  · rw [hkeep]
    exact hbest
  · rw [hpick]
    exact h a ha hable

/-- A candidate that beats all before it, and that none behind it beats, is picked. -/
theorem foldl_pick_first {pre post : List α} {a : α} {best : R × β} (hable : cand a = true)
    (hbest : lt best.1 (w a) = true) (hpre : ∀ b ∈ pre, cand b = true → lt (w b) (w a) = true)
    (hpost : ∀ b ∈ post, cand b = true → lt (w a) (w b) = false) :
    (pre ++ a :: post).foldl (pick cand lt w val) best = (w a, val a) := by
  have hbeat : lt (pre.foldl (pick cand lt w val) best).1 (w a) = true :=
    foldl_pick_lighter hbest hpre
  have hpick : pick cand lt w val (pre.foldl (pick cand lt w val) best) a = (w a, val a) := by
    rw [pick, hable, hbeat]
    rfl
  rw [List.foldl_append, List.foldl_cons, hpick]
  exact foldl_pick_of_not hpost

/-- A heavier candidate is not passed over for nothing. -/
theorem foldl_pick_of_heavier {as : List α} {best : R × β}
    (h : ∃ a ∈ as, cand a = true ∧ lt best.1 (w a) = true) :
    ∃ a ∈ as, cand a = true ∧ as.foldl (pick cand lt w val) best = (w a, val a) := by
  induction as generalizing best with
  | nil => simp at h
  | cons a as ih =>
    rw [List.foldl_cons]
    by_cases ha : cand a = true ∧ lt best.1 (w a) = true
    · have hpick : pick cand lt w val best a = (w a, val a) :=
        if_pos (Bool.and_eq_true _ _ ▸ ha)
      rcases foldl_pick_mem as (pick cand lt w val best a) with hkeep | ⟨b, hb, hcand, hfold⟩
      · exact ⟨a, List.mem_cons_self, ha.1, hkeep.trans hpick⟩
      · exact ⟨b, List.mem_cons_of_mem a hb, hcand, hfold⟩
    · have hpick : pick cand lt w val best a = best :=
        pick_of_not fun hc => Bool.not_eq_true _ ▸ fun hlt => ha ⟨hc, hlt⟩
      obtain ⟨b, hb, hcand, hlt⟩ := h
      rcases List.mem_cons.mp hb with rfl | hb
      · exact absurd ⟨hcand, hlt⟩ ha
      · rw [hpick]
        obtain ⟨c, hc, hfold⟩ := ih ⟨b, hb, hcand, hlt⟩
        exact ⟨c, List.mem_cons_of_mem a hc, hfold⟩

end

/-! ## In a linear order -/

section
variable [LinearOrder R] {cand : α → Bool} {w : α → R} {val : α → β} {floor : R} {v : β}
  {as bs : List α} {a : α}

/-- The loop from a floor and a value for want of candidates. -/
def heaviest (cand : α → Bool) (w : α → R) (val : α → β) (floor : R) (v : β) (as : List α) : R × β :=
  as.foldl (pick cand (fun x y => decide (x < y)) w val) (floor, v)

/-- A candidate above the floor that none outweighs. -/
structure Heaviest (cand : α → Bool) (w : α → R) (floor : R) (as : List α) (a : α) : Prop where
  mem : a ∈ as
  able : cand a = true
  above : floor < w a
  max : ∀ b ∈ as, cand b = true → w b ≤ w a

theorem Heaviest.perm (h : Heaviest cand w floor as a) (hp : as.Perm bs) :
    Heaviest cand w floor bs a :=
  ⟨hp.mem_iff.mp h.mem, h.able, h.above, fun b hb => h.max b (hp.mem_iff.mpr hb)⟩

theorem weight_le_heaviest (cand : α → Bool) (w : α → R) (val : α → β) (floor : R) (v : β)
    (as : List α) :
    floor ≤ (heaviest cand w val floor v as).1 ∧
      ∀ a ∈ as, cand a = true → w a ≤ (heaviest cand w val floor v as).1 := by
  induction as generalizing floor v with
  | nil => exact ⟨le_refl floor, by simp⟩
  | cons a as ih =>
    have hstep : heaviest cand w val floor v (a :: as) =
        if cand a = true ∧ floor < w a then heaviest cand w val (w a) (val a) as
        else heaviest cand w val floor v as := by
      simp only [heaviest, List.foldl_cons, pick, Bool.and_eq_true, decide_eq_true_eq]
      split <;> rfl
    rw [hstep]
    split
    · rename_i h
      obtain ⟨hfloor, hmax⟩ := ih (w a) (val a)
      refine ⟨h.2.le.trans hfloor, fun b hb hcand => ?_⟩
      rcases List.mem_cons.mp hb with rfl | hb
      · exact hfloor
      · exact hmax b hb hcand
    · rename_i h
      obtain ⟨hfloor, hmax⟩ := ih floor v
      refine ⟨hfloor, fun b hb hcand => ?_⟩
      rcases List.mem_cons.mp hb with rfl | hb
      · exact (not_lt.mp fun hlt => h ⟨hcand, hlt⟩).trans hfloor
      · exact hmax b hb hcand

/-- One of the heaviest is picked, if there is any candidate above the floor. -/
theorem exists_heaviest (val : α → β) (v : β) (h : ∃ a ∈ as, cand a = true ∧ floor < w a) :
    ∃ a, Heaviest cand w floor as a ∧ heaviest cand w val floor v as = (w a, val a) := by
  obtain ⟨b, hb, hcand, hlt⟩ := h
  obtain ⟨a, ha, hable, hfold⟩ : ∃ a ∈ as, cand a = true ∧
      heaviest cand w val floor v as = (w a, val a) :=
    foldl_pick_of_heavier ⟨b, hb, hcand, decide_eq_true hlt⟩
  have hmax := (weight_le_heaviest cand w val floor v as).2
  rw [hfold] at hmax
  exact ⟨a, ⟨ha, hable, hlt.trans_le (hmax b hb hcand), hmax⟩, hfold⟩

/-- In front of the others, it is the one picked. -/
theorem Heaviest.exists_front (h : Heaviest cand w floor as a) (val : α → β) (v : β) :
    ∃ l, l.Perm as ∧ heaviest cand w val floor v l = (w a, val a) := by
  obtain ⟨pre, post, rfl⟩ := List.append_of_mem h.mem
  refine ⟨a :: (pre ++ post), List.perm_middle.symm, ?_⟩
  show heaviest cand w val floor v ([] ++ a :: (pre ++ post)) = _
  apply foldl_pick_first h.able (decide_eq_true h.above) (by simp)
  intro b hb hcand
  exact decide_eq_false (not_lt.mpr (h.max b (List.perm_middle.mem_iff.mpr
    (List.mem_cons_of_mem a hb)) hcand))

/-- What is read off the value picked is the same in every order exactly where the heaviest
agree on it. -/
theorem heaviest_orderless_iff {γ : Type*} (f : β → γ) :
    (∀ l l', l.Perm as → l'.Perm as →
      f (heaviest cand w val floor v l).2 = f (heaviest cand w val floor v l').2) ↔
    ∀ a b, Heaviest cand w floor as a → Heaviest cand w floor as b → f (val a) = f (val b) := by
  constructor
  · intro h a b ha hb
    obtain ⟨l, hl, hfold⟩ := ha.exists_front val v
    obtain ⟨l', hl', hfold'⟩ := hb.exists_front val v
    have heq := h l l' hl hl'
    rwa [hfold, hfold'] at heq
  · intro h l l' hl hl'
    by_cases hany : ∃ a ∈ as, cand a = true ∧ floor < w a
    · have hperm : ∀ m : List α, m.Perm as → ∃ a ∈ m, cand a = true ∧ floor < w a := by
        rintro m hm
        obtain ⟨a, ha, hrest⟩ := hany
        exact ⟨a, hm.mem_iff.mpr ha, hrest⟩
      obtain ⟨a, ha, hfold⟩ := exists_heaviest val v (hperm l hl)
      obtain ⟨b, hb, hfold'⟩ := exists_heaviest val v (hperm l' hl')
      rw [hfold, hfold']
      exact h a b (ha.perm hl) (hb.perm hl')
    · have hstay : ∀ m : List α, m.Perm as → heaviest cand w val floor v m = (floor, v) := by
        intro m hm
        apply foldl_pick_of_not
        intro a ha hcand
        exact decide_eq_false fun hlt => hany ⟨a, hm.mem_iff.mp ha, hcand, hlt⟩
      rw [hstay l hl, hstay l' hl']

end

end Wavr.Argmax
