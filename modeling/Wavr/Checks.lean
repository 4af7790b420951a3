import Mathlib.Data.List.Basic

/-!
# Chains of checks

What a computation raises where it walks lists and stops at the first failure, and exactly when it
raises nothing but what is allowed.
-/

namespace Wavr.Checks

variable {ε α β σ : Type}

/-- Whatever the computation raises is allowed. -/
def Clean (good : ε → Prop) (x : Except ε α) : Prop := ∀ e, x = .error e → good e

/-- A loop that returns from the first item that gives something. -/
def firstSome (f : α → Except ε (Option β)) : List α → Except ε (Option β)
  | [] => .ok none
  | a :: as => do
    match ← f a with
    | some b => return some b
    | none => firstSome f as

theorem ok_bind (a : α) (f : α → Except ε β) : (.ok a : Except ε α) >>= f = f a := rfl

theorem error_bind (e : ε) (f : α → Except ε β) : (.error e : Except ε α) >>= f = .error e := rfl

theorem bind_eq_ok {x : Except ε α} {f : α → Except ε β} {b : β} :
    x >>= f = .ok b ↔ ∃ a, x = .ok a ∧ f a = .ok b := by
  cases x with
  | error e => exact ⟨fun h => (by cases h), fun ⟨_, h, _⟩ => (by cases h)⟩
  | ok a =>
    constructor
    · exact fun h => ⟨a, rfl, h⟩
    · rintro ⟨_, ⟨⟩, h⟩
      exact h

/-- A check that returns nothing, and what follows it. -/
theorem unit_bind_eq_ok {x : Except ε Unit} {f : Unit → Except ε β} {b : β} :
    x >>= f = .ok b ↔ x = .ok () ∧ f () = .ok b := by
  rw [bind_eq_ok]
  exact ⟨fun ⟨_, hx, hf⟩ => ⟨hx, hf⟩, fun ⟨hx, hf⟩ => ⟨(), hx, hf⟩⟩

section
variable {good : ε → Prop} {x : Except ε α}

theorem clean_ok (a : α) : Clean good (.ok a : Except ε α) := fun _ h => (by cases h)

theorem clean_error {e : ε} : Clean good (.error e : Except ε α) ↔ good e :=
  ⟨fun h => h e rfl, fun h _ he => Except.error.inj he ▸ h⟩

theorem clean_of_eq_ok {a : α} (h : x = .ok a) : Clean good x := h ▸ clean_ok a

/-- Where nothing is allowed, something is returned. -/
theorem returns_iff : (∃ a, x = .ok a) ↔ Clean (fun _ => False) x := by
  cases x with
  | ok a => exact iff_of_true ⟨a, rfl⟩ (clean_ok a)
  | error e => exact iff_of_false (fun ⟨_, h⟩ => (by cases h)) fun h => h e rfl

/-- What follows always returns. -/
theorem bind_returns_iff {f : α → β} :
    (∃ b, (x >>= fun a => (.ok (f a) : Except ε β)) = .ok b) ↔ ∃ a, x = .ok a := by
  cases x with
  | error e => exact iff_of_false (fun ⟨_, h⟩ => (by cases h)) (fun ⟨_, h⟩ => (by cases h))
  | ok a => exact iff_of_true ⟨f a, rfl⟩ ⟨a, rfl⟩

theorem clean_bind {f : α → Except ε β} :
    Clean good (x >>= f) ↔ Clean good x ∧ ∀ a, x = .ok a → Clean good (f a) := by
  cases x with
  | error e =>
    constructor
    · exact fun h => ⟨fun e' he => h e' (by rw [Except.error.inj he]; rfl), fun _ ha => (by cases ha)⟩
    · exact fun h => fun e' he => h.1 e' (by rw [Except.error.inj he])
  | ok a =>
    constructor
    · exact fun h => ⟨clean_ok a, fun _ ha => Except.ok.inj ha ▸ h⟩
    · exact fun h => h.2 a rfl

/-- In front of what follows stands something that is clean. -/
theorem clean_bind_of_clean (hx : Clean good x) {f : α → Except ε β} :
    Clean good (x >>= f) ↔ ∀ a, x = .ok a → Clean good (f a) := by
  rw [clean_bind]
  exact and_iff_right hx

theorem firstSome_map {γ : Type} (f : β → Except ε (Option γ)) (g : α → β) (l : List α) :
    firstSome f (l.map g) = firstSome (fun a => f (g a)) l := by
  induction l with
  | nil => rfl
  | cons a l ih => rw [List.map_cons, firstSome, firstSome, ih]

/-- A search that never fails finds what `find?` does. -/
theorem firstSome_eq_find? {f : α → Except ε (Option α)} {p : α → Bool} {l : List α}
    (h : ∀ a ∈ l, f a = .ok (if p a then some a else none)) : firstSome f l = .ok (l.find? p) := by
  induction l with
  | nil => rfl
  | cons a l ih =>
    obtain ⟨ha, hl⟩ := List.forall_mem_cons.mp h
    rw [firstSome, ha, ok_bind, ih hl, List.find?_cons]
    cases p a <;> rfl

/-- A first match, where what is skipped gives nothing, and what is not always gives something. -/
theorem firstSome_returns_iff {f : α → Except ε (Option β)} {p : α → Bool} {l : List α}
    (hskip : ∀ a ∈ l, p a = false → f a = .ok none) (hhit : ∀ a ∈ l, p a = true → f a ≠ .ok none) :
    (∃ o, firstSome f l = .ok o) ↔ ∀ a, l.find? p = some a → ∃ o, f a = .ok o := by
  induction l with
  | nil => exact iff_of_true ⟨none, rfl⟩ fun _ h => (by cases h)
  | cons a l ih =>
    obtain ⟨hskipa, hskip⟩ := List.forall_mem_cons.mp hskip
    obtain ⟨hhita, hhit⟩ := List.forall_mem_cons.mp hhit
    rw [firstSome]
    cases hp : p a with
    | false =>
      rw [hskipa hp, ok_bind, List.find?_cons_of_neg (by simp [hp])]
      exact ih hskip hhit
    | true =>
      rw [List.find?_cons_of_pos hp]
      have hne := hhita hp
      constructor
      · rintro ⟨o, ho⟩ b hb
        obtain ⟨r, hr, -⟩ := bind_eq_ok.mp ho
        exact ⟨r, Option.some.inj hb ▸ hr⟩
      · intro h
        obtain ⟨r, hr⟩ := h a rfl
        cases r with
        | none => exact absurd hr hne
        | some b => exact ⟨some b, by rw [hr]; rfl⟩

theorem clean_foldlM {f : σ → α → Except ε σ} {l : List α} {s : σ} :
    Clean good (l.foldlM f s) ↔
      ∀ pre a post, l = pre ++ a :: post → ∀ t, pre.foldlM f s = .ok t → Clean good (f t a) := by
  induction l generalizing s with
  | nil => exact iff_of_true (clean_ok s) fun pre a post h => by simp at h
  | cons a l ih =>
    rw [List.foldlM_cons, clean_bind]
    constructor
    · rintro ⟨ha, hl⟩ pre b post heq t ht
      cases pre with
      | nil =>
        cases ht
        rw [List.nil_append, List.cons_eq_cons] at heq
        exact heq.1 ▸ ha
      | cons c pre =>
        rw [List.cons_append, List.cons_eq_cons] at heq
        obtain ⟨rfl, heq⟩ := heq
        rw [List.foldlM_cons, bind_eq_ok] at ht
        obtain ⟨s', hs', ht⟩ := ht
        exact ih.mp (hl s' hs') pre b post heq t ht
    · intro h
      refine ⟨h [] a l rfl s rfl, fun s' hs' => ih.mpr fun pre b post heq t ht => ?_⟩
      refine h (a :: pre) b post (by rw [heq, List.cons_append]) t ?_
      rw [List.foldlM_cons, bind_eq_ok]
      exact ⟨s', hs', ht⟩

theorem forM_cons (f : α → Except ε Unit) (a : α) (l : List α) :
    (a :: l).forM f = f a >>= fun _ => l.forM f := rfl

theorem forM_eq_ok {f : α → Except ε Unit} {l : List α} : l.forM f = .ok () ↔ ∀ a ∈ l, f a = .ok () := by
  induction l with
  | nil => exact iff_of_true rfl fun _ h => (by cases h)
  | cons a l ih => rw [forM_cons, unit_bind_eq_ok, ih, List.forall_mem_cons]

theorem clean_forM {f : α → Except ε Unit} {l : List α} :
    Clean good (l.forM f) ↔
      ∀ pre a post, l = pre ++ a :: post → (∀ b ∈ pre, f b = .ok ()) → Clean good (f a) := by
  have hfold : ∀ l : List α, l.forM f = l.foldlM (fun _ a => f a) () := by
    intro l
    induction l with
    | nil => rfl
    | cons a l ih =>
      rw [forM_cons, List.foldlM_cons]
      exact congrArg (f a >>= ·) (funext fun _ => ih)
  rw [hfold, clean_foldlM]
  constructor
  · intro h pre a post heq hpre
    refine h pre a post heq () ?_
    rw [← hfold]
    exact forM_eq_ok.mpr hpre
  · intro h pre a post heq t ht
    rw [← hfold] at ht
    exact h pre a post heq (forM_eq_ok.mp ht)

theorem clean_firstSome {f : α → Except ε (Option β)} {l : List α} :
    Clean good (firstSome f l) ↔
      ∀ pre a post, l = pre ++ a :: post → (∀ b ∈ pre, f b = .ok none) → Clean good (f a) := by
  induction l with
  | nil => exact iff_of_true (clean_ok none) fun pre a post h => by simp at h
  | cons a l ih =>
    rw [firstSome, clean_bind]
    constructor
    · rintro ⟨ha, hl⟩ pre b post heq hpre
      cases pre with
      | nil =>
        rw [List.nil_append, List.cons_eq_cons] at heq
        exact heq.1 ▸ ha
      | cons c pre =>
        rw [List.cons_append, List.cons_eq_cons] at heq
        obtain ⟨rfl, heq⟩ := heq
        obtain ⟨hc, hpre⟩ := List.forall_mem_cons.mp hpre
        exact ih.mp (hl none hc) pre b post heq hpre
    · intro h
      refine ⟨h [] a l rfl fun _ hb => (by cases hb), fun r hr => ?_⟩
      cases r with
      | some b => exact clean_ok _
      | none =>
        refine ih.mpr fun pre b post heq hpre => ?_
        exact h (a :: pre) b post (by rw [heq, List.cons_append]) (List.forall_mem_cons.mpr ⟨hr, hpre⟩)

/-- A walk that never returns early. -/
theorem clean_mapM {f : α → Except ε β} {l : List α} (h : ∀ a ∈ l, Clean good (f a)) :
    Clean good (l.mapM f) := by
  induction l with
  | nil => exact clean_ok []
  | cons a l ih =>
    obtain ⟨ha, hl⟩ := List.forall_mem_cons.mp h
    rw [List.mapM_cons]
    exact clean_bind.mpr ⟨ha, fun b _ => clean_bind.mpr ⟨ih hl, fun bs _ => clean_ok _⟩⟩

end

end Wavr.Checks
