import Mathlib.Data.Int.Order.Basic
import Wavr.Dict
import Wavr.Run

/-!
# Episodes of a sampled condition

A condition is sampled, and holds or does not. An episode of it is kept as the instant it began
and the instant of its last positive sample; the gap since that last one decides whether the next
sample belongs to it.
-/

namespace Wavr.Episode
open Run

structure Sample where
  positive : Bool
  at' : ℤ
  deriving DecidableEq

inductive Input
  | sample (x : Sample)
  /-- Whatever is held is dropped. -/
  | reset
  deriving DecidableEq

def Input.date : Input → Option ℤ
  | .sample x => some x.at'
  | .reset => none

/-- The dates never go back. -/
def Ordered (is : List Input) : Prop := (is.filterMap Input.date).Pairwise (· ≤ ·)

structure Timer where
  since : ℤ
  last : ℤ
  deriving DecidableEq

/-- The gaps over which a positive sample begins anew, and over which another sample ends what
is held. -/
structure Policy where
  restart : ℤ → Bool
  drop : ℤ → Bool

def Policy.breaks (p : Policy) (last : ℤ) (x : Sample) : Bool :=
  if x.positive then p.restart (x.at' - last) else p.drop (x.at' - last)

def step (p : Policy) : Option Timer → Input → Option Timer
  | _, .reset => none
  | none, .sample x => if x.positive then some ⟨x.at', x.at'⟩ else none
  | some e, .sample x =>
    if x.positive then
      if p.restart (x.at' - e.last) then some ⟨x.at', x.at'⟩ else some ⟨e.since, x.at'⟩
    else if p.drop (x.at' - e.last) then none else some e

/-- The last positive instant behind the samples, where the one before them was `last`. -/
def lastPositive (last : ℤ) (xs : List Sample) : ℤ :=
  xs.foldl (fun last x => if x.positive then x.at' else last) last

/-- No sample breaks an episode whose last positive one was at `last`. -/
def Unbroken (p : Policy) : ℤ → List Sample → Prop
  | _, [] => True
  | last, x :: xs => p.breaks last x = false ∧ Unbroken p (if x.positive then x.at' else last) xs

section
variable {p q : Policy} {last : ℤ} {x : Sample} {xs : List Sample} {e : Timer} {is : List Input}

theorem lastPositive_append_singleton : lastPositive last (xs ++ [x]) =
    if x.positive then x.at' else lastPositive last xs := by
  simp [lastPositive]

theorem unbroken_append_singleton : Unbroken p last (xs ++ [x]) ↔
    Unbroken p last xs ∧ p.breaks (lastPositive last xs) x = false := by
  induction xs generalizing last with
  | nil => simp [Unbroken, lastPositive]
  | cons y ys ih =>
    rw [List.cons_append, Unbroken, Unbroken, ih, and_assoc]
    rfl

theorem Unbroken.mono (h : ∀ last x, q.breaks last x = true → p.breaks last x = true)
    (hp : Unbroken p last xs) : Unbroken q last xs := by
  induction xs generalizing last with
  | nil => trivial
  | cons x xs ih =>
    have hx : q.breaks last x = false := by
      cases hq : q.breaks last x with
      | false => rfl
      | true => exact absurd (h last x hq) (by simp [hp.1])
    exact ⟨hx, ih hp.2⟩

theorem le_lastPositive {t : ℤ} (h : t ≤ last) (hxs : ∀ x ∈ xs, t ≤ x.at') :
    t ≤ lastPositive last xs := by
  induction xs generalizing last with
  | nil => exact h
  | cons x xs ih =>
    have hx := hxs x List.mem_cons_self
    refine @ih (if x.positive then x.at' else last) ?_ fun y hy =>
      hxs y (List.mem_cons_of_mem x hy)
    split
    · exact hx
    · exact h

/-- The history ends in the samples of the episode that is held: a positive one at its start,
and behind it none that breaks it. -/
def Holds (p : Policy) (is : List Input) (e : Timer) : Prop :=
  ∃ older window, is = older ++ .sample ⟨true, e.since⟩ :: window.map .sample ∧
    Unbroken p e.since window ∧ lastPositive e.since window = e.last

theorem Holds.fresh (p : Policy) (is : List Input) (t : ℤ) :
    Holds p (is ++ [.sample ⟨true, t⟩]) ⟨t, t⟩ :=
  ⟨is, [], rfl, trivial, rfl⟩

theorem Holds.extend (h : Holds p is e) (hx : p.breaks e.last x = false) :
    Holds p (is ++ [.sample x]) ⟨e.since, if x.positive then x.at' else e.last⟩ := by
  obtain ⟨older, window, his, hunbroken, hlast⟩ := h
  refine ⟨older, window ++ [x], ?_, ?_, ?_⟩
  · rw [his]
    simp
  · exact unbroken_append_singleton.mpr ⟨hunbroken, by rwa [hlast]⟩
  · rw [lastPositive_append_singleton, hlast]

theorem Holds.step {i : Input} {e' : Timer} (h : Holds p is e) (he : step p (some e) i = some e') :
    Holds p (is ++ [i]) e' := by
  cases i with
  | reset => cases he
  | sample x =>
    obtain ⟨positive, t⟩ := x
    cases positive with
    | true =>
      by_cases hgap : p.restart (t - e.last) = true
      · have he' : e' = ⟨t, t⟩ := by simpa [Episode.step, hgap, eq_comm] using he
        rw [he']
        exact .fresh p is t
      · have he' : e' = ⟨e.since, t⟩ := by simpa [Episode.step, hgap, eq_comm] using he
        rw [he']
        exact h.extend (x := ⟨true, t⟩) (by simpa [Policy.breaks] using hgap)
    | false =>
      by_cases hgap : p.drop (t - e.last) = true
      · simp [Episode.step, hgap] at he
      · have he' : e' = e := by simpa [Episode.step, hgap, eq_comm] using he
        rw [he']
        exact h.extend (x := ⟨false, t⟩) (by simpa [Policy.breaks] using hgap)

/-- What is held behind a history is an episode of it. -/
theorem holds_of_finish (p : Policy) (is : List Input) :
    ∀ e, finish (step p) none is = some e → Holds p is e := by
  refine history_induction (R := fun is s => ∀ e, s = some e → Holds p is e) ?_ ?_ is
  · intro e he
    cases he
  · intro is i ih e he
    cases hs : finish (Episode.step p) none is with
    | some e' =>
      rw [hs] at he
      exact (ih e' hs).step he
    | none =>
      rw [hs] at he
      cases i with
      | reset => cases he
      | sample x =>
        obtain ⟨positive, t⟩ := x
        cases positive with
        | false => cases he
        | true =>
          obtain rfl : (⟨t, t⟩ : Timer) = e := Option.some.inj he
          exact .fresh p is t

theorem Ordered.split {older : List Input} {since : ℤ} {window : List Sample}
    (h : Ordered (older ++ .sample ⟨true, since⟩ :: window.map .sample)) :
    (∀ x, .sample x ∈ older → x.at' ≤ since) ∧ ∀ x ∈ window, since ≤ x.at' := by
  unfold Ordered at h
  rw [List.filterMap_append, List.pairwise_append] at h
  obtain ⟨-, hbehind, hacross⟩ := h
  have hcons : (Input.sample ⟨true, since⟩ :: window.map .sample).filterMap Input.date =
      since :: window.map Sample.at' := by
    simp [Input.date, Function.comp_def]
  rw [hcons] at hbehind hacross
  refine ⟨fun x hx => ?_, fun x hx => ?_⟩
  · exact hacross x.at' (List.mem_filterMap.mpr ⟨_, hx, rfl⟩) since List.mem_cons_self
  · exact List.rel_of_pairwise_cons hbehind (List.mem_map_of_mem hx)

/-! ## Two policies -/

/-- The samples alike end what is held, whatever began it. -/
theorem map_last_step (hdrop : p.drop = q.drop) {a b : Option Timer}
    (h : a.map Timer.last = b.map Timer.last) (i : Input) :
    (step p a i).map Timer.last = (step q b i).map Timer.last := by
  cases i with
  | reset => rfl
  | sample x =>
    cases a with
    | none => cases b with
      | none => rfl
      | some b => cases h
    | some a => cases b with
      | none => cases h
      | some b =>
        have hlast : a.last = b.last := Option.some.inj h
        unfold step
        dsimp only
        rw [hlast, hdrop]
        split
        · split <;> split <;> rfl
        · split
          · rfl
          · exact h

/-- The policies do the same to a sample at which they agree on beginning anew. -/
theorem step_congr (hdrop : p.drop = q.drop) {a : Option Timer} {i : Input}
    (h : ∀ e t, a = some e → i = .sample ⟨true, t⟩ →
      p.restart (t - e.last) = q.restart (t - e.last)) : step p a i = step q a i := by
  cases i with
  | reset => rfl
  | sample x =>
    cases a with
    | none => rfl
    | some e =>
      obtain ⟨positive, t⟩ := x
      cases positive with
      | true =>
        unfold step
        dsimp only
        rw [h e t rfl rfl, hdrop]
      | false =>
        unfold step
        dsimp only
        rw [hdrop]
        rfl

end

/-! ## Two tables -/

/-- Where the starts and the last positive instants are kept by key, what is held for one. -/
def held {κ : Type*} [DecidableEq κ] (since last : Dict κ ℤ) (k : κ) : Option Timer :=
  (since.get? k).bind fun a => (last.get? k).map fun b => ⟨a, b⟩

/-- The tables have the same keys. -/
def Paired {κ : Type*} [DecidableEq κ] (since last : Dict κ ℤ) : Prop :=
  ∀ k, since.get? k = none ↔ last.get? k = none

section
variable {κ : Type*} [DecidableEq κ] {since last : Dict κ ℤ} {k : κ}

theorem Paired.cases (h : Paired since last) (k : κ) :
    (since.get? k = none ∧ last.get? k = none ∧ held since last k = none) ∨
      ∃ e : Timer, since.get? k = some e.since ∧ last.get? k = some e.last ∧
        held since last k = some e := by
  cases hs : since.get? k with
  | none => exact .inl ⟨rfl, (h k).mp hs, by simp [held, hs]⟩
  | some a =>
    cases hl : last.get? k with
    | none => exact absurd ((h k).mpr hl) (by simp [hs])
    | some b => exact .inr ⟨⟨a, b⟩, rfl, rfl, by simp [held, hs, hl]⟩

theorem held_begin (k k' : κ) (t : ℤ) : held (since.set k t) (last.set k t) k' =
    if k' = k then some ⟨t, t⟩ else held since last k' := by
  unfold held
  rw [Dict.get?_set, Dict.get?_set]
  split <;> rfl

theorem held_extend {a : ℤ} (h : since.get? k = some a) (k' : κ) (t : ℤ) :
    held since (last.set k t) k' = if k' = k then some ⟨a, t⟩ else held since last k' := by
  unfold held
  rw [Dict.get?_set]
  split
  · rename_i hk
    rw [hk, h]
    rfl
  · rfl

theorem held_erase (k k' : κ) : held (since.erase k) (last.erase k) k' =
    if k' = k then none else held since last k' := by
  unfold held
  rw [Dict.get?_erase, Dict.get?_erase]
  split <;> rfl

theorem Paired.begin (h : Paired since last) (k : κ) (t : ℤ) : Paired (since.set k t) (last.set k t) := by
  intro k'
  rw [Dict.get?_set, Dict.get?_set]
  split
  · simp
  · exact h k'

theorem Paired.extend (h : Paired since last) {a : ℤ} (hk : since.get? k = some a) (t : ℤ) :
    Paired since (last.set k t) := by
  intro k'
  rw [Dict.get?_set]
  split
  · rename_i hk'
    simp [hk', hk]
  · exact h k'

theorem Paired.erase (h : Paired since last) (k : κ) : Paired (since.erase k) (last.erase k) := by
  intro k'
  rw [Dict.get?_erase, Dict.get?_erase]
  split
  · simp
  · exact h k'

end

end Wavr.Episode
