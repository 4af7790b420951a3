import Mathlib.Algebra.Order.Field.Basic
import Mathlib.Data.List.Basic
import Mathlib.Data.List.TakeWhile
import Mathlib.Tactic.Linarith
import Mathlib.Tactic.Ring

/-!
# A token bucket

A bucket is filled at a constant rate up to its capacity, and each call that is let through takes a
token. It is only brought up to date when it is asked.
-/

namespace Wavr.TokenBucket

structure Rate (K : Type*) where
  capacity : K
  refill : K

structure Bucket (K : Type*) where
  tokens : K
  last : K

variable {K : Type*} [Field K] [LinearOrder K]

/-- The tokens there are by now. -/
def Rate.available (r : Rate K) (b : Bucket K) (now : K) : K :=
  min r.capacity (b.tokens + (now - b.last) * r.refill)

/-- Whether a call is let through, and the bucket behind it; the first call finds a full one. -/
def Rate.take (r : Rate K) (now : K) : Option (Bucket K) → Bool × Bucket K
  | none => (true, ⟨r.capacity - 1, now⟩)
  | some b =>
    if r.available b now < 1 then (false, ⟨r.available b now, now⟩)
    else (true, ⟨r.available b now - 1, now⟩)

def Rate.answers (r : Rate K) : Option (Bucket K) → List K → List Bool
  | _, [] => []
  | b, now :: times => (r.take now b).1 :: r.answers (some (r.take now b).2) times

def Rate.after (r : Rate K) (b : Option (Bucket K)) (times : List K) : Option (Bucket K) :=
  times.foldl (fun b now => some (r.take now b).2) b

section
variable {r : Rate K} {b : Option (Bucket K)} {times : List K}

@[simp] theorem length_answers : (r.answers b times).length = times.length := by
  induction times generalizing b with
  | nil => rfl
  | cons now times ih => rw [Rate.answers, List.length_cons, ih, List.length_cons]

theorem answers_append (front back : List K) :
    r.answers b (front ++ back) = r.answers b front ++ r.answers (r.after b front) back := by
  induction front generalizing b with
  | nil => rfl
  | cons now front ih =>
    rw [List.cons_append, Rate.answers, ih, Rate.answers, List.cons_append]
    rfl

variable [IsStrictOrderedRing K]

/-! ## What is spent -/

/-- Tokens are never overdrawn, and what is let through is paid for with them. -/
structure Paid (r : Rate K) (start : K) (since : K) (count : ℕ) (b : Bucket K) : Prop where
  nonneg : 0 ≤ b.tokens
  paid : count + b.tokens ≤ start + (b.last - since) * r.refill

theorem paid_take {start since now : K} {count : ℕ} {b : Bucket K} (hcap : 0 ≤ r.capacity) (hrefill : 0 ≤ r.refill)
    (h : Paid r start since count b) (hnow : b.last ≤ now) :
    Paid r start since (count + if (r.take now (some b)).1 then 1 else 0) (r.take now (some b)).2 := by
  have hgain : 0 ≤ (now - b.last) * r.refill := mul_nonneg (sub_nonneg.mpr hnow) hrefill
  have hle : r.available b now ≤ b.tokens + (now - b.last) * r.refill := min_le_right _ _
  have hnonneg : 0 ≤ r.available b now := le_min hcap (add_nonneg h.nonneg hgain)
  have hpaid := h.paid
  have htime : (now - since) * r.refill = (now - b.last) * r.refill + (b.last - since) * r.refill := by ring
  rw [Rate.take]
  split
  · refine ⟨hnonneg, ?_⟩
    simp only [Bool.false_eq_true, if_false, add_zero]
    linarith
  · rename_i hone
    refine ⟨sub_nonneg.mpr (not_lt.mp hone), ?_⟩
    simp only [if_true]
    push_cast
    linarith

omit [IsStrictOrderedRing K] in
theorem last_take {now : K} : (r.take now b).2.last = now := by
  cases b with
  | none => rfl
  | some b =>
    rw [Rate.take]
    split <;> rfl

omit [IsStrictOrderedRing K] in
theorem last_mem_of_after {b' : Bucket K} (h : r.after none times = some b') : b'.last ∈ times := by
  rcases times.eq_nil_or_concat' with rfl | ⟨front, t, rfl⟩
  · cases h
  · rw [Rate.after, List.foldl_append, List.foldl_cons, List.foldl_nil, Option.some.injEq] at h
    rw [← h, last_take]
    exact List.mem_append_right front (List.mem_singleton_self t)

/-- Over calls in the order of time. -/
theorem paid_answers {start since : K} {count : ℕ} {b : Bucket K} (hcap : 0 ≤ r.capacity) (hrefill : 0 ≤ r.refill)
    (h : Paid r start since count b) (hsorted : times.Pairwise (· ≤ ·)) (hlast : ∀ t ∈ times, b.last ≤ t) :
    ∃ b', r.after (some b) times = some b' ∧ Paid r start since (count + (r.answers (some b) times).count true) b' ∧
      (b'.last = b.last ∨ b'.last ∈ times) := by
  induction times generalizing b count with
  | nil => exact ⟨b, rfl, h, .inl rfl⟩
  | cons now times ih =>
    obtain ⟨hnow, hsorted⟩ := List.pairwise_cons.mp hsorted
    have hstep := paid_take hcap hrefill h (hlast now List.mem_cons_self)
    obtain ⟨b', hafter, hpaid, hlast'⟩ := ih hstep hsorted fun t ht => by
      rw [last_take]
      exact hnow t ht
    refine ⟨b', hafter, ?_, .inr ?_⟩
    · rw [Rate.answers, List.count_cons]
      have hcomm : count + ((r.answers (some (r.take now (some b)).2) times).count true +
          if ((r.take now (some b)).1 == true) = true then 1 else 0) =
          count + (if (r.take now (some b)).1 then 1 else 0) +
            (r.answers (some (r.take now (some b)).2) times).count true := by
        simp only [beq_true]
        omega
      rw [hcomm]
      exact hpaid
    · rw [last_take] at hlast'
      rcases hlast' with heq | hmem
      · exact heq ▸ List.mem_cons_self
      · exact List.mem_cons_of_mem now hmem

/-- A state in which a call can be answered at this time: not overdrawn, and not newer. -/
def Ready (now : K) : Option (Bucket K) → Prop
  | none => True
  | some b => 0 ≤ b.tokens ∧ b.last ≤ now

/-- A call begins a new account, with no more than a full bucket. -/
theorem paid_first {now : K} (hcap : 1 ≤ r.capacity) (hrefill : 0 ≤ r.refill) (h : Ready now b) :
    Paid r r.capacity now (if (r.take now b).1 then 1 else 0) (r.take now b).2 := by
  cases b with
  | none =>
    refine ⟨sub_nonneg.mpr hcap, ?_⟩
    simp [Rate.take]
  | some b =>
    have hgain : 0 ≤ (now - b.last) * r.refill := mul_nonneg (sub_nonneg.mpr h.2) hrefill
    have hnonneg : 0 ≤ r.available b now := le_min (zero_le_one.trans hcap) (add_nonneg h.1 hgain)
    have hle : r.available b now ≤ r.capacity := min_le_left _ _
    rw [Rate.take]
    split
    · exact ⟨hnonneg, by simpa using hle⟩
    · rename_i hone
      exact ⟨sub_nonneg.mpr (not_lt.mp hone), by simpa using hle⟩

/-- The state behind calls that start with a full bucket. -/
theorem ready_after (hcap : 1 ≤ r.capacity) (hrefill : 0 ≤ r.refill) {front : List K}
    (hsorted : front.Pairwise (· ≤ ·))
    {now : K} (hnow : ∀ t ∈ front, t ≤ now) : Ready now (r.after none front) := by
  cases front with
  | nil => trivial
  | cons t front =>
    obtain ⟨ht, hsorted⟩ := List.pairwise_cons.mp hsorted
    have hfirst : Paid r r.capacity t 1 (r.take t none).2 := paid_first hcap hrefill (b := none) trivial
    obtain ⟨b', hafter, hpaid, hlast⟩ := paid_answers (zero_le_one.trans hcap) hrefill hfirst hsorted ht
    have heq : r.after none (t :: front) = some b' := hafter
    rw [heq]
    refine ⟨hpaid.nonneg, ?_⟩
    rcases hlast with hlast | hlast
    · rw [hlast]
      exact hnow t List.mem_cons_self
    · exact hnow _ (List.mem_cons_of_mem t hlast)

/-- Within a span of time no more is let through than a full bucket and what flows in. -/
theorem count_answers_le (hcap : 1 ≤ r.capacity) (hrefill : 0 ≤ r.refill) {s e : K} (hse : s ≤ e)
    (hready : ∀ t ∈ times, Ready t b) (hsorted : times.Pairwise (· ≤ ·)) (hspan : ∀ t ∈ times, s ≤ t ∧ t ≤ e) :
    ((r.answers b times).count true : K) ≤ r.capacity + (e - s) * r.refill := by
  cases times with
  | nil =>
    have hgain : 0 ≤ (e - s) * r.refill := mul_nonneg (sub_nonneg.mpr hse) hrefill
    simp only [Rate.answers, List.count_nil, Nat.cast_zero]
    linarith
  | cons t times =>
    obtain ⟨ht, hsorted⟩ := List.pairwise_cons.mp hsorted
    have hfirst := paid_first hcap hrefill (hready t List.mem_cons_self)
    obtain ⟨b', -, hpaid, hlast⟩ := paid_answers (zero_le_one.trans hcap) hrefill hfirst hsorted fun t' ht' => by
      rw [last_take]
      exact ht t' ht'
    rw [last_take] at hlast
    have hend : b'.last ≤ e := by
      rcases hlast with hlast | hlast
      · exact hlast ▸ (hspan t List.mem_cons_self).2
      · exact (hspan _ (List.mem_cons_of_mem t hlast)).2
    have hstart := (hspan t List.mem_cons_self).1
    have hflow : (b'.last - t) * r.refill ≤ (e - s) * r.refill :=
      mul_le_mul_of_nonneg_right (by linarith) hrefill
    have hcount : (r.answers b (t :: times)).count true =
        (if (r.take t b).1 then 1 else 0) + (r.answers (some (r.take t b).2) times).count true := by
      rw [Rate.answers, List.count_cons, add_comm]
      simp only [beq_true]
    have htotal := hpaid.paid
    have hnonneg := hpaid.nonneg
    rw [hcount]
    linarith

omit [Field K] [IsStrictOrderedRing K] in
/-- In the order of time, what is dropped is all that comes before. -/
theorem not_of_mem_dropWhile {p : K → Bool} (hdown : ∀ {t t' : K}, t ≤ t' → p t' = true → p t = true)
    (hsorted : times.Pairwise (· ≤ ·)) : ∀ t ∈ times.dropWhile p, p t = false := by
  induction times with
  | nil => simp
  | cons t times ih =>
    obtain ⟨ht, hsorted⟩ := List.pairwise_cons.mp hsorted
    by_cases hp : p t = true
    · rw [List.dropWhile_cons_of_pos hp]
      exact ih hsorted
    · rw [List.dropWhile_cons_of_neg hp]
      intro t' ht'
      by_contra hp'
      refine hp (hdown ?_ (Bool.not_eq_false _ ▸ hp'))
      rcases List.mem_cons.mp ht' with rfl | ht'
      · exact le_rfl
      · exact ht t' ht'

/-- What is let through from one time to another. -/
theorem countP_within_le (hcap : 1 ≤ r.capacity) (hrefill : 0 ≤ r.refill) {s e : K} (hse : s ≤ e)
    (hsorted : times.Pairwise (· ≤ ·)) :
    (((times.zip (r.answers none times)).countP fun x => s ≤ x.1 ∧ x.1 ≤ e ∧ x.2 = true : ℕ) : K) ≤
      r.capacity + (e - s) * r.refill := by
  -- the calls before `s`, those of the span and those after `e`; only the middle ones count
  obtain ⟨front, mid, back, rfl, hfront, hmid, hback⟩ : ∃ front mid back, times = front ++ (mid ++ back) ∧
      (∀ t ∈ front, t < s) ∧ (∀ t ∈ mid, s ≤ t ∧ t ≤ e) ∧ ∀ t ∈ back, e < t := by
    have hrest := hsorted.sublist (List.dropWhile_sublist fun t => t < s)
    refine ⟨times.takeWhile fun t => t < s, (times.dropWhile fun t => t < s).takeWhile fun t => t ≤ e,
      (times.dropWhile fun t => t < s).dropWhile fun t => t ≤ e, ?_, ?_, ?_, ?_⟩
    · rw [List.takeWhile_append_dropWhile, List.takeWhile_append_dropWhile]
    · intro t ht
      simpa using List.mem_takeWhile_imp ht
    · intro t ht
      have hlate := not_of_mem_dropWhile (p := fun t => t < s) (fun hle h => by simp at h ⊢; exact hle.trans_lt h)
        hsorted t ((List.takeWhile_sublist _).subset ht)
      exact ⟨by simpa using hlate, by simpa using List.mem_takeWhile_imp ht⟩
    · intro t ht
      simpa using not_of_mem_dropWhile (p := fun t => t ≤ e) (fun hle h => by simp at h ⊢; exact hle.trans h) hrest t ht
  obtain ⟨hsfront, hsrest, -⟩ := List.pairwise_append.mp hsorted
  obtain ⟨hsmid, -, -⟩ := List.pairwise_append.mp hsrest
  have hready : ∀ t ∈ mid, Ready t (r.after none front) := fun t ht =>
    ready_after hcap hrefill hsfront fun t' ht' => (hfront t' ht').le.trans (hmid t ht).1
  rw [answers_append, answers_append, List.zip_append (by simp), List.zip_append (by simp), List.countP_append,
    List.countP_append]
  have hzero : ∀ (ts : List K) (as : List Bool), (∀ t ∈ ts, t < s ∨ e < t) →
      (ts.zip as).countP (fun x => s ≤ x.1 ∧ x.1 ≤ e ∧ x.2 = true) = 0 := by
    intro ts as hts
    rw [List.countP_eq_zero]
    intro x hx hin
    have hin : s ≤ x.1 ∧ x.1 ≤ e ∧ x.2 = true := by simpa using hin
    rcases hts x.1 (List.of_mem_zip hx).1 with hlt | hlt
    · exact absurd hin.1 (not_le.mpr hlt)
    · exact absurd hin.2.1 (not_le.mpr hlt)
  rw [hzero front _ fun t ht => .inl (hfront t ht), hzero back _ fun t ht => .inr (hback t ht), zero_add, add_zero]
  refine le_trans (Nat.cast_le.mpr ?_) (count_answers_le hcap hrefill hse hready hsmid hmid)
  have hsnd : (mid.zip (r.answers (r.after none front) mid)).map Prod.snd = r.answers (r.after none front) mid :=
    List.map_snd_zip (by simp)
  rw [← hsnd, List.count, List.countP_map, hsnd]
  exact List.countP_mono_left fun x _ hx => by simpa using (of_decide_eq_true hx).2.2

/-! ## Bursts -/

/-- As many calls are let through as there are tokens. -/
theorem answers_of_tokens {b : Bucket K} {n : ℕ} (hrefill : 0 ≤ r.refill) (hn : (n : K) ≤ b.tokens)
    (hcap : (n : K) ≤ r.capacity) (hsorted : times.Pairwise (· ≤ ·)) (hlast : ∀ t ∈ times, b.last ≤ t) :
    ∀ i < n, (r.answers (some b) times)[i]? ≠ some false := by
  induction times generalizing b n with
  | nil => simp [Rate.answers]
  | cons t times ih =>
    intro i hi
    obtain ⟨ht, hsorted⟩ := List.pairwise_cons.mp hsorted
    obtain ⟨m, rfl⟩ := Nat.exists_eq_succ_of_ne_zero (Nat.ne_zero_of_lt hi)
    have hgain : 0 ≤ (t - b.last) * r.refill :=
      mul_nonneg (sub_nonneg.mpr (hlast t List.mem_cons_self)) hrefill
    have henough : ((m + 1 : ℕ) : K) ≤ r.available b t := le_min hcap (by linarith)
    push_cast at henough hcap
    have hm : (0 : K) ≤ m := Nat.cast_nonneg m
    have htake : r.take t (some b) = (true, ⟨r.available b t - 1, t⟩) := by
      rw [Rate.take, if_neg (not_lt.mpr (by linarith))]
    rw [Rate.answers, htake]
    cases i with
    | zero => simp
    | succ i =>
      rw [List.getElem?_cons_succ]
      exact ih (by linarith) (by linarith) hsorted ht i (Nat.lt_of_succ_lt_succ hi)

/-- Once the bucket has had the time to fill, a full burst is let through. -/
theorem answers_of_rest (hcap : 1 ≤ r.capacity) (hrefill : 0 ≤ r.refill) (hready : ∀ t ∈ times, Ready t b)
    (hrest : ∀ b' ∈ b, ∀ t ∈ times, r.capacity ≤ (t - b'.last) * r.refill) (hsorted : times.Pairwise (· ≤ ·)) :
    ∀ i : ℕ, (i : K) + 1 ≤ r.capacity → (r.answers b times)[i]? ≠ some false := by
  intro i hi
  cases times with
  | nil => simp [Rate.answers]
  | cons t times =>
    obtain ⟨ht, hsorted⟩ := List.pairwise_cons.mp hsorted
    have htake : r.take t b = (true, ⟨r.capacity - 1, t⟩) := by
      cases b with
      | none => rfl
      | some b =>
        have hfull : r.available b t = r.capacity := by
          have hflow := hrest b rfl t List.mem_cons_self
          have htokens := (hready t List.mem_cons_self).1
          exact min_eq_left (by linarith)
        rw [Rate.take, hfull, if_neg (not_lt.mpr hcap)]
    rw [Rate.answers, htake]
    cases i with
    | zero => simp
    | succ i =>
      push_cast at hi
      rw [List.getElem?_cons_succ]
      refine answers_of_tokens (n := i + 1) hrefill ?_ ?_ hsorted ht i (Nat.lt_succ_self i)
      · push_cast
        linarith
      · push_cast
        linarith

end

end Wavr.TokenBucket
