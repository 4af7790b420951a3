import Mathlib.Data.List.MinMax
import Mathlib.Data.List.Nodup

/-!
# Making room

The element with the least key goes, of equals the one that stands first, as long as there are
`limit` elements or more.
-/

namespace Wavr.Eviction

variable {α β : Type*} [DecidableEq α] [LinearOrder β]

section
variable (f : α → β) (l : List α)

/-- The key of `b` is larger than that of `a`, or the same and `b` does not stand before `a`. -/
def NoSooner (a b : α) : Prop := f a < f b ∨ f a = f b ∧ l.idxOf a ≤ l.idxOf b

instance (a b : α) : Decidable (NoSooner f l a b) := inferInstanceAs (Decidable (_ ∨ _))

/-- The first of the least. -/
def victim (s : List α) : Option α := s.argmin f

/-- What is left of a list; the number bounds the rounds. -/
def trim (limit : ℤ) : ℕ → List α → List α
  | 0, s => s
  | n + 1, s =>
    if limit ≤ s.length then
      match victim f s with
      | none => s
      | some o => trim limit n (s.erase o)
    else s

end

variable {f : α → β} {l s : List α} {a b c o : α} {limit : ℤ} {n : ℕ}

/-! ## The order of going -/

theorem NoSooner.trans (h : NoSooner f l a b) (h' : NoSooner f l b c) : NoSooner f l a c := by
  rcases h with h | ⟨h, hi⟩
  · rcases h' with h' | ⟨h', -⟩
    · exact .inl (h.trans h')
    · exact .inl (h' ▸ h)
  · rcases h' with h' | ⟨h', hi'⟩
    · exact .inl (h ▸ h')
    · exact .inr ⟨h.trans h', hi.trans hi'⟩

theorem NoSooner.antisymm (h : NoSooner f l a b) (h' : NoSooner f l b a) (ha : a ∈ l) : a = b := by
  rcases h with h | ⟨he, hi⟩
  · rcases h' with h' | ⟨he, -⟩
    · exact absurd h' h.asymm
    · exact absurd he h.ne'
  · rcases h' with h' | ⟨-, hi'⟩
    · exact absurd he h'.ne'
    · exact (List.idxOf_inj ha).mp (le_antisymm hi hi')

theorem idxOf_le_of_sublist (hs : s.Sublist l) (hl : l.Nodup) (ha : a ∈ s) (hb : b ∈ s)
    (h : s.idxOf a ≤ s.idxOf b) : l.idxOf a ≤ l.idxOf b := by
  induction hs with
  | slnil => cases ha
  | cons x hs ih =>
    obtain ⟨hx, hl⟩ := List.nodup_cons.mp hl
    have hxa : x ≠ a := fun he => hx (he ▸ hs.subset ha)
    have hxb : x ≠ b := fun he => hx (he ▸ hs.subset hb)
    rw [List.idxOf_cons_ne _ hxa, List.idxOf_cons_ne _ hxb]
    exact Nat.succ_le_succ (ih hl ha hb h)
  | cons_cons x hs ih =>
    by_cases hxa : x = a
    · rw [List.idxOf_cons_eq _ hxa]
      exact Nat.zero_le _
    · by_cases hxb : x = b
      · rw [List.idxOf_cons_ne _ hxa, List.idxOf_cons_eq _ hxb] at h
        exact absurd h (Nat.not_succ_le_zero _)
      · rw [List.idxOf_cons_ne _ hxa, List.idxOf_cons_ne _ hxb] at h ⊢
        have hmem : a ∈ _ := (List.mem_cons.mp ha).resolve_left (Ne.symm hxa)
        have hmem' : b ∈ _ := (List.mem_cons.mp hb).resolve_left (Ne.symm hxb)
        exact Nat.succ_le_succ (ih (List.nodup_cons.mp hl).2 hmem hmem' (Nat.le_of_succ_le_succ h))

omit [DecidableEq α] in
theorem exists_victim (f : α → β) (h : s ≠ []) : ∃ o ∈ s, victim f s = some o := by
  cases ho : victim f s with
  | none => exact absurd (List.argmin_eq_none.mp ho) h
  | some o => exact ⟨o, List.argmin_mem (f := f) ho, rfl⟩

omit [DecidableEq α] in
/-- A loop that keeps the first of the least finds it. -/
theorem foldl_eq_victim {g : α → β} {as : List α} (hg : ∀ x ∈ a :: as, f x = g x) :
    some (as.foldl (fun best b => if g b < g best then b else best) a) = victim f (a :: as) := by
  unfold victim List.argmin
  rw [List.foldl_cons]
  change _ = as.foldl (List.argAux fun b c => f b < f c) (some a)
  induction as generalizing a with
  | nil => rfl
  | cons b as ih =>
    have ha := hg a List.mem_cons_self
    have hb := hg b (List.mem_cons_of_mem a List.mem_cons_self)
    rw [List.foldl_cons, List.foldl_cons, List.argAux]
    dsimp only
    rw [ha, hb]
    split
    · exact ih fun x hx => hg x (List.mem_cons_of_mem a hx)
    · refine ih fun x hx => hg x ?_
      rcases List.mem_cons.mp hx with rfl | hx
      · exact List.mem_cons_self
      · exact List.mem_cons_of_mem a (List.mem_cons_of_mem b hx)

/-- The one that goes next goes no later than the others. -/
theorem noSooner_of_victim (hs : s.Sublist l) (hl : l.Nodup) (ho : victim f s = some o) (hb : b ∈ s) :
    NoSooner f l o b := by
  obtain ⟨hmem, hle, hfirst⟩ := List.mem_argmin_iff.mp ho
  rcases (hle b hb).lt_or_eq with hlt | heq
  · exact .inl hlt
  · exact .inr ⟨heq, idxOf_le_of_sublist hs hl hmem hb (hfirst b hb heq.ge)⟩

/-! ## What is left -/

theorem trim_sublist : (trim f limit n s).Sublist s := by
  induction n generalizing s with
  | zero => exact .refl s
  | succ n ih =>
    unfold trim
    split
    · split
      · exact .refl s
      · exact ih.trans List.erase_sublist
    · exact .refl s

/-- An element stays exactly where fewer than `limit` go no sooner, itself counted. -/
theorem mem_trim_iff (hs : s.Sublist l) (hl : l.Nodup) (hn : s.length ≤ n) :
    a ∈ trim f limit n s ↔ a ∈ s ∧ (s.countP fun x => NoSooner f l a x : ℕ) < limit := by
  induction n generalizing s with
  | zero =>
    rw [List.length_eq_zero_iff.mp (Nat.le_zero.mp hn)]
    simp [trim]
  | succ n ih =>
    unfold trim
    split
    · rename_i hfull
      split
      · rename_i hnone
        rw [List.argmin_eq_none.mp hnone]
        simp
      · rename_i o ho
        have hmem : o ∈ s := List.argmin_mem ho
        have hrest : (s.erase o).length ≤ n := by
          rw [List.length_erase_of_mem hmem]
          omega
        rw [ih (List.erase_sublist.trans hs) hrest]
        by_cases hao : a = o
        · subst hao
          have hall : (s.countP fun x => NoSooner f l a x) = s.length :=
            List.countP_eq_length.mpr fun x hx => decide_eq_true (noSooner_of_victim hs hl ho hx)
          rw [hall]
          constructor
          · exact fun h => absurd h.1 (hl.sublist hs).not_mem_erase
          · exact fun h => absurd h.2 hfull.not_gt
        · rw [List.mem_erase_of_ne hao]
          refine and_congr_right fun ha => ?_
          have hsooner : ¬ NoSooner f l a o := fun h =>
            hao (h.antisymm (noSooner_of_victim hs hl ho ha) (hs.subset ha))
          rw [(List.perm_cons_erase hmem).countP_eq, List.countP_cons_of_neg (by simpa using hsooner)]
    · rename_i hroom
      refine ⟨fun ha => ⟨ha, ?_⟩, And.left⟩
      have hle : (s.countP fun x => NoSooner f l a x) ≤ s.length := List.countP_le_length
      omega

/-- Of those that go no sooner than some, all stay or as many as there is room for. -/
theorem countP_trim {p : α → Bool} (hs : s.Sublist l) (hl : l.Nodup) (hn : s.length ≤ n)
    (hlimit : 0 < limit) (hp : ∀ a ∈ s, ∀ b ∈ s, p a = true → NoSooner f l a b → p b = true) :
    ((trim f limit n s).countP p : ℤ) = min (s.countP p : ℤ) (limit - 1) := by
  induction n generalizing s with
  | zero =>
    rw [List.length_eq_zero_iff.mp (Nat.le_zero.mp hn)]
    simp only [trim, List.countP_nil]
    omega
  | succ n ih =>
    unfold trim
    split
    · rename_i hfull
      split
      · rename_i hnone
        rw [List.argmin_eq_none.mp hnone]
        simp only [List.countP_nil]
        omega
      · rename_i o ho
        have hmem : o ∈ s := List.argmin_mem ho
        have hrest : (s.erase o).length ≤ n := by
          rw [List.length_erase_of_mem hmem]
          omega
        rw [ih (List.erase_sublist.trans hs) hrest fun a ha b hb =>
          hp a (List.mem_of_mem_erase ha) b (List.mem_of_mem_erase hb)]
        have hcount := (List.perm_cons_erase hmem).countP_eq p
        by_cases hpo : p o = true
        · -- the first to go is counted, so all are
          have hall : s.countP p = s.length := List.countP_eq_length.mpr fun x hx =>
            hp o hmem x hx hpo (noSooner_of_victim hs hl ho hx)
          rw [List.countP_cons_of_pos hpo] at hcount
          omega
        · rw [hcount, List.countP_cons_of_neg hpo]
    · have hle : s.countP p ≤ s.length := List.countP_le_length
      omega

/-- A list from which a part is trimmed holds the rest of it, and what is left of the part. -/
theorem countP_filter_imp {p : α → Prop} [DecidablePred p] {t : List α} (hl : l.Nodup)
    (hs : s.Sublist l) (ht : t.Sublist s) :
    ((l.filter fun x => x ∈ s → x ∈ t).countP fun x => p x) =
      (l.countP fun x => x ∉ s ∧ p x) + t.countP fun x => p x := by
  have hnodup : ((l.filter fun x => x ∉ s) ++ t).Nodup := by
    refine List.Nodup.append (hl.filter _) ((hl.sublist hs).sublist ht) ?_
    intro x hx hxt
    exact of_decide_eq_true (List.mem_filter.mp hx).2 (ht.subset hxt)
  have hperm : (l.filter fun x => x ∈ s → x ∈ t).Perm ((l.filter fun x => x ∉ s) ++ t) := by
    refine (List.perm_ext_iff_of_nodup (hl.filter _) hnodup).mpr fun x => ?_
    simp only [List.mem_filter, List.mem_append, decide_eq_true_eq]
    constructor
    · rintro ⟨hx, himp⟩
      by_cases hxs : x ∈ s
      · exact .inr (himp hxs)
      · exact .inl ⟨hx, hxs⟩
    · rintro (⟨hx, hxs⟩ | hxt)
      · exact ⟨hx, fun h => absurd h hxs⟩
      · exact ⟨hs.subset (ht.subset hxt), fun _ => hxt⟩
  rw [hperm.countP_eq, List.countP_append, List.countP_filter]
  simp only [Bool.and_comm, Bool.decide_and]

/-! ## One for one -/

omit [DecidableEq α] in
/-- Those that take a place. -/
theorem map_snd_zip_eq_take {γ : Type*} (as : List α) (cs : List γ) :
    (as.zip cs).map Prod.snd = cs.take as.length := by
  induction as generalizing cs with
  | nil => simp
  | cons a as ih =>
    cases cs with
    | nil => rfl
    | cons c cs => simp [ih cs]

omit [DecidableEq α] in
/-- Those that lose theirs. -/
theorem map_fst_zip_eq_take {γ : Type*} (as : List α) (cs : List γ) :
    (as.zip cs).map Prod.fst = as.take cs.length := by
  induction as generalizing cs with
  | nil => simp
  | cons a as ih =>
    cases cs with
    | nil => rfl
    | cons c cs => simp [ih cs]

end Wavr.Eviction
