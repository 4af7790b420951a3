import Mathlib.Algebra.Order.BigOperators.Group.Finset
import Mathlib.Data.Finset.Card
import Mathlib.Data.Finset.Range
import Mathlib.Data.List.Sort

/-!
# Signals that change in steps

A signal is a list of steps, each an instant and the value from there on. It is read at an
instant, and the instants at which it reads a certain way are counted.
-/

namespace Wavr.Signal

variable {α β ι : Type*}

section order
variable [LinearOrder ι] {κ : Type*} [LinearOrder κ] (key : α → ι)

/-- The elements by their keys; equal ones stay in the order they are in. -/
def inOrder (l : List α) : List α := l.insertionSort fun a b => key a ≤ key b

def Sorted (l : List α) : Prop := l.Pairwise fun a b => key a ≤ key b

variable {key} {l : List α}

@[simp] theorem mem_inOrder {a : α} : a ∈ inOrder key l ↔ a ∈ l := List.mem_insertionSort _

theorem sorted_inOrder (key : α → ι) (l : List α) : Sorted key (inOrder key l) := by
  have htrans : IsTrans α fun a b => key a ≤ key b := ⟨fun _ _ _ => le_trans⟩
  have htotal : Std.Total fun a b : α => key a ≤ key b := ⟨fun a b => le_total (key a) (key b)⟩
  exact List.pairwise_insertionSort _ l

theorem inOrder_of_sorted (h : Sorted key l) : inOrder key l = l := h.insertionSort_eq

theorem map_inOrder {key' : β → κ} (f : α → β)
    (h : ∀ a ∈ l, ∀ b ∈ l, key a ≤ key b ↔ key' (f a) ≤ key' (f b)) :
    (inOrder key l).map f = inOrder key' (l.map f) :=
  List.map_insertionSort _ _ f l h

theorem filter_orderedInsert (p : α → Bool) (a : α) (h : Sorted key l) :
    (l.orderedInsert (fun a b => key a ≤ key b) a).filter p =
      if p a then (l.filter p).orderedInsert (fun a b => key a ≤ key b) a else l.filter p := by
  induction l with
  | nil => cases hp : p a <;> simp [hp]
  | cons b l ih =>
    have hb : ∀ c ∈ l, key b ≤ key c := (List.pairwise_cons.mp h).1
    rw [List.orderedInsert_cons]
    split
    · rename_i hab
      -- everything behind the new element has a key at least as large, filtered or not
      have hall : ∀ c ∈ (b :: l).filter p, key a ≤ key c := by
        intro c hc
        rcases List.mem_cons.mp (List.mem_of_mem_filter hc) with rfl | hc
        · exact hab
        · exact hab.trans (hb c hc)
      cases hp : p a with
      | false => simp [hp]
      | true =>
        rw [List.filter_cons_of_pos hp, if_pos rfl]
        cases hl : (b :: l).filter p with
        | nil => rfl
        | cons c l' =>
          rw [hl] at hall
          rw [List.orderedInsert_cons, if_pos (hall c List.mem_cons_self)]
    · rename_i hab
      have hrest := ih (List.pairwise_cons.mp h).2
      cases hpb : p b with
      | false =>
        rw [List.filter_cons_of_neg (by simp [hpb]), List.filter_cons_of_neg (by simp [hpb]), hrest]
      | true =>
        rw [List.filter_cons_of_pos hpb, List.filter_cons_of_pos hpb, hrest]
        split
        · rw [List.orderedInsert_cons, if_neg hab]
        · rfl

/-- It is the same to sort what is left and to leave out of what is sorted. -/
theorem filter_inOrder (p : α → Bool) (l : List α) :
    (inOrder key l).filter p = inOrder key (l.filter p) := by
  induction l with
  | nil => rfl
  | cons a l ih =>
    have hins := filter_orderedInsert p a (sorted_inOrder key l)
    rw [ih] at hins
    rw [inOrder, List.insertionSort_cons]
    refine hins.trans ?_
    cases hp : p a with
    | false => rw [List.filter_cons_of_neg (by simp [hp]), if_neg (by simp)]
    | true =>
      rw [List.filter_cons_of_pos hp, if_pos rfl]
      rfl

/-- A sorted list falls in two where a key is passed. -/
theorem Sorted.split (h : Sorted key l) (p : α → Bool)
    (hdown : ∀ a b, key a ≤ key b → p b = true → p a = true) :
    l = l.filter p ++ l.filter fun a => ! p a := by
  induction l with
  | nil => rfl
  | cons a l ih =>
    obtain ⟨ha, hl⟩ := List.pairwise_cons.mp h
    cases hp : p a with
    | true =>
      have hrest := ih hl
      rw [List.filter_cons_of_pos hp, List.filter_cons_of_neg (by simp [hp]), List.cons_append, ← hrest]
    | false =>
      have hnone : ∀ b ∈ a :: l, p b = false := by
        intro b hb
        rcases List.mem_cons.mp hb with rfl | hb
        · exact hp
        · cases hpb : p b with
          | false => rfl
          | true => exact absurd (hdown a b (ha b hb) hpb) (by simp [hp])
      have hleft : (a :: l).filter p = [] := List.filter_eq_nil_iff.mpr fun b hb => by simp [hnone b hb]
      have hright : ((a :: l).filter fun b => ! p b) = a :: l :=
        List.filter_eq_self.mpr fun b hb => by simp [hnone b hb]
      rw [hleft, hright, List.nil_append]

end order

/-! ## What a signal is at an instant -/

section read
variable {steps steps' : List (ℤ × α)} {s : ℤ × α} {t : ℤ} {v : α}

/-- The value of the last step listed that is at or before `t`. -/
def held (steps : List (ℤ × α)) (t : ℤ) : Option α :=
  (steps.filter fun s => s.1 ≤ t).getLast?.map Prod.snd

/-- The value of the latest step at or before `t`, of the one listed last among equals. -/
def valueAt (steps : List (ℤ × α)) (t : ℤ) : Option α := held (inOrder Prod.fst steps) t

@[simp] theorem held_nil : held ([] : List (ℤ × α)) t = none := rfl

theorem held_append (steps steps' : List (ℤ × α)) (t : ℤ) :
    held (steps ++ steps') t = (held steps' t).or (held steps t) := by
  unfold held
  rw [List.filter_append, List.getLast?_append, Option.map_or]

theorem held_cons (s : ℤ × α) (steps : List (ℤ × α)) (t : ℤ) :
    held (s :: steps) t = (held steps t).or (if s.1 ≤ t then some s.2 else none) := by
  have hone : held [s] t = if s.1 ≤ t then some s.2 else none := by
    unfold held
    by_cases hs : s.1 ≤ t
    · simp [hs]
    · simp [hs]
  rw [← hone, ← held_append]
  rfl

theorem exists_of_held (h : held steps t = some v) : ∃ s ∈ steps, s.1 ≤ t ∧ s.2 = v := by
  obtain ⟨s, hs, rfl⟩ := Option.map_eq_some_iff.mp h
  have hmem := List.mem_of_getLast? hs
  exact ⟨s, List.mem_of_mem_filter hmem, by simpa using (List.mem_filter.mp hmem).2, rfl⟩

theorem held_eq_none_iff : held steps t = none ↔ ∀ s ∈ steps, t < s.1 := by
  rw [held, Option.map_eq_none_iff, List.getLast?_eq_none_iff, List.filter_eq_nil_iff]
  simp

/-- Until its first step a sorted signal has no value, and from there on it has one. -/
theorem held_eq_none_iff_of_sorted (h : Sorted Prod.fst (s :: steps)) :
    held (s :: steps) t = none ↔ t < s.1 := by
  rw [held_eq_none_iff]
  constructor
  · intro hall
    exact hall s List.mem_cons_self
  · intro hs s' hs'
    rcases List.mem_cons.mp hs' with rfl | hs'
    · exact hs
    · exact hs.trans_le ((List.pairwise_cons.mp h).1 s' hs')

/-- At an instant of a window the signal is what its steps in the window make it, or else what it
was just before. -/
theorem valueAt_window {a b : ℤ} (hat : a ≤ t) (htb : t < b) :
    valueAt steps t =
      (valueAt (steps.filter fun s => a ≤ s.1 ∧ s.1 < b) t).or (valueAt steps (a - 1)) := by
  have hsplit := (sorted_inOrder Prod.fst steps).split (fun s => s.1 < a)
    fun s s' hle hs' => by simpa using hle.trans_lt (by simpa using hs')
  have hbefore : held ((inOrder Prod.fst steps).filter fun s => s.1 < a) t = valueAt steps (a - 1) := by
    rw [valueAt, held, held, List.filter_filter]
    congr 2
    refine List.filter_congr fun s _ => ?_
    rw [← Bool.decide_and]
    exact decide_eq_decide.mpr (by omega)
  have hwindow : held ((inOrder Prod.fst steps).filter fun s => ! decide (s.1 < a)) t =
      valueAt (steps.filter fun s => a ≤ s.1 ∧ s.1 < b) t := by
    rw [valueAt, ← filter_inOrder, held, held, List.filter_filter, List.filter_filter]
    congr 2
    refine List.filter_congr fun s _ => ?_
    rw [← decide_not, ← Bool.decide_and, ← Bool.decide_and]
    exact decide_eq_decide.mpr (by omega)
  rw [← hwindow, ← hbefore, ← held_append, ← hsplit]
  rfl

end read

/-! ## How long -/

section span
variable {p : ℤ → Prop} [DecidablePred p] {a b c : ℤ}

/-- The instants from `a` until `b`. -/
def instants (a b : ℤ) : Finset ℤ := (Finset.range (b - a).toNat).image fun i : ℕ => a + i

/-- How many instants from `a` until `b` there are with `p`. -/
def span (p : ℤ → Prop) [DecidablePred p] (a b : ℤ) : ℕ := ((instants a b).filter p).card

@[simp] theorem mem_instants {t : ℤ} : t ∈ instants a b ↔ a ≤ t ∧ t < b := by
  rw [instants, Finset.mem_image]
  constructor
  · rintro ⟨i, hi, rfl⟩
    have hlt := Finset.mem_range.mp hi
    omega
  · rintro ⟨hat, htb⟩
    exact ⟨(t - a).toNat, Finset.mem_range.mpr (by omega), by omega⟩

theorem card_instants (a b : ℤ) : (instants a b).card = (b - a).toNat := by
  rw [instants, Finset.card_image_of_injective, Finset.card_range]
  intro i j hij
  have hsame : a + (i : ℤ) = a + j := hij
  omega

theorem span_of_none (h : ∀ t, a ≤ t → t < b → ¬ p t) : span p a b = 0 := by
  rw [span, Finset.filter_false_of_mem, Finset.card_empty]
  intro t ht
  rw [mem_instants] at ht
  exact h t ht.1 ht.2

theorem span_of_all (h : ∀ t, a ≤ t → t < b → p t) : span p a b = (b - a).toNat := by
  rw [span, Finset.filter_true_of_mem, card_instants]
  intro t ht
  rw [mem_instants] at ht
  exact h t ht.1 ht.2

theorem span_eq_zero (h : b ≤ a) : span p a b = 0 :=
  span_of_none fun _ hat htb => absurd (hat.trans_lt htb) (not_lt.mpr h)

theorem span_add (hac : a ≤ c) (hcb : c ≤ b) : span p a b = span p a c + span p c b := by
  unfold span
  rw [← Finset.card_union_of_disjoint]
  · congr 1
    ext t
    simp only [Finset.mem_union, Finset.mem_filter, mem_instants]
    constructor
    · rintro ⟨⟨hat, htb⟩, hp⟩
      rcases lt_or_ge t c with htc | hct
      · exact .inl ⟨⟨hat, htc⟩, hp⟩
      · exact .inr ⟨⟨hct, htb⟩, hp⟩
    · rintro (⟨⟨hat, htc⟩, hp⟩ | ⟨⟨hct, htb⟩, hp⟩)
      · exact ⟨⟨hat, htc.trans_le hcb⟩, hp⟩
      · exact ⟨⟨hac.trans hct, htb⟩, hp⟩
  · rw [Finset.disjoint_left]
    intro t hleft hright
    have hlt := (mem_instants.mp (Finset.mem_filter.mp hleft).1).2
    have hle := (mem_instants.mp (Finset.mem_filter.mp hright).1).1
    omega

theorem span_congr {q : ℤ → Prop} [DecidablePred q] (h : ∀ t, a ≤ t → t < b → (p t ↔ q t)) :
    span p a b = span q a b := by
  unfold span
  congr 1
  refine Finset.filter_congr fun t ht => ?_
  rw [mem_instants] at ht
  exact h t ht.1 ht.2

theorem span_pos (hat : a ≤ c) (hcb : c < b) (hc : p c) : 0 < span p a b :=
  Finset.card_pos.mpr ⟨c, Finset.mem_filter.mpr ⟨mem_instants.mpr ⟨hat, hcb⟩, hc⟩⟩

variable {s : ℤ × α} {steps : List (ℤ × α)} (q : α → Bool)

/-- When the step in front ends: where the next one is, or at `b`. -/
def endOf (steps : List (ℤ × α)) (b : ℤ) : ℤ :=
  match steps with
  | [] => b
  | next :: _ => min next.1 b

theorem endOf_le (steps : List (ℤ × α)) (b : ℤ) : endOf steps b ≤ b := by
  cases steps with
  | nil => exact le_rfl
  | cons next steps => exact min_le_right _ _

/-- Up to where it begins the rest has no value, so that the step in front shows. -/
theorem held_eq_none_iff_lt_endOf {t : ℤ} (h : Sorted Prod.fst steps) (ht : t < b) :
    held steps t = none ↔ t < endOf steps b := by
  cases steps with
  | nil => simpa [endOf] using ht
  | cons next steps =>
    rw [held_eq_none_iff_of_sorted h, endOf, lt_min_iff]
    exact ⟨fun hnext => ⟨hnext, ht⟩, And.left⟩

theorem any_held_cons {t : ℤ} (h : Sorted Prod.fst (s :: steps)) (ht : t < b) :
    (held (s :: steps) t).any q = true ↔
      (s.1 ≤ t ∧ t < endOf steps b ∧ q s.2 = true) ∨ (held steps t).any q = true := by
  have hnone := held_eq_none_iff_lt_endOf (List.pairwise_cons.mp h).2 ht
  rw [held_cons, ← hnone]
  cases hheld : held steps t with
  | some v => simp
  | none =>
    rw [Option.none_or]
    by_cases hs : s.1 ≤ t
    · simp [hs]
    · simp [hs]

/-- The instants at which a sorted signal reads so are those of the step in front, and those at
which the rest reads so. -/
theorem span_held_cons (h : Sorted Prod.fst (s :: steps)) :
    span (fun t => p t ∧ (held (s :: steps) t).any q) a b =
      (if q s.2 then span p (max s.1 a) (endOf steps b) else 0) +
        span (fun t => p t ∧ (held steps t).any q) a b := by
  have hfront : (if q s.2 then span p (max s.1 a) (endOf steps b) else 0) =
      ((instants (max s.1 a) (endOf steps b)).filter fun t => p t ∧ q s.2 = true).card := by
    cases hq : q s.2 with
    | false => simp
    | true => simp [span]
  rw [hfront, span, span, ← Finset.card_union_of_disjoint]
  · congr 1
    ext t
    simp only [Finset.mem_filter, Finset.mem_union, mem_instants, max_le_iff]
    constructor
    · rintro ⟨⟨hat, htb⟩, hp, hany⟩
      rcases (any_held_cons q h htb).mp hany with ⟨hst, hend, hq⟩ | hrest
      · exact .inl ⟨⟨⟨hst, hat⟩, hend⟩, hp, hq⟩
      · exact .inr ⟨⟨hat, htb⟩, hp, hrest⟩
    · rintro (⟨⟨⟨hst, hat⟩, hend⟩, hp, hq⟩ | ⟨⟨hat, htb⟩, hp, hrest⟩)
      · have htb : t < b := hend.trans_le (endOf_le steps b)
        exact ⟨⟨hat, htb⟩, hp, (any_held_cons q h htb).mpr (.inl ⟨hst, hend, hq⟩)⟩
      · exact ⟨⟨hat, htb⟩, hp, (any_held_cons q h htb).mpr (.inr hrest)⟩
  · rw [Finset.disjoint_left]
    intro t hleft hright
    have hend := (mem_instants.mp (Finset.mem_filter.mp hleft).1).2
    have hany := (Finset.mem_filter.mp hright).2.2
    rw [(held_eq_none_iff_lt_endOf (List.pairwise_cons.mp h).2
      (hend.trans_le (endOf_le steps b))).mpr hend] at hany
    cases hany

end span

end Wavr.Signal
