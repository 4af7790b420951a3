import Mathlib.Algebra.BigOperators.Intervals

/-!
# A queue that is served a portion at a time

Work arrives in rounds, and every round serves one portion, once there is as much. What waits stays
bounded exactly when no stretch of rounds brings much more than it can serve.
-/

namespace Wavr.Backlog

variable (portion : ℕ) (arrivals : ℕ → ℕ)

/-- What waits in front of a round. -/
def level : ℕ → ℕ
  | 0 => 0
  | n + 1 => if portion ≤ level n + arrivals n then level n + arrivals n - portion else level n + arrivals n

variable {portion arrivals}

theorem level_succ_of_le {n : ℕ} (h : portion ≤ level portion arrivals n + arrivals n) :
    level portion arrivals (n + 1) = level portion arrivals n + arrivals n - portion := if_pos h

theorem level_succ_of_lt {n : ℕ} (h : level portion arrivals n + arrivals n < portion) :
    level portion arrivals (n + 1) = level portion arrivals n + arrivals n := if_neg (not_le.mpr h)

/-- What a stretch of rounds brings is served, or waits. -/
theorem sum_le (portion : ℕ) (arrivals : ℕ → ℕ) (i n : ℕ) :
    ∑ k ∈ Finset.range n, arrivals (i + k) ≤ portion * n + level portion arrivals (i + n) := by
  induction n with
  | zero => simp
  | succ n ih =>
    have hstep : level portion arrivals (i + n) + arrivals (i + n) ≤
        level portion arrivals (i + (n + 1)) + portion := by
      rw [← Nat.add_assoc]
      by_cases h : portion ≤ level portion arrivals (i + n) + arrivals (i + n)
      · rw [level_succ_of_le h]
        omega
      · rw [level_succ_of_lt (not_le.mp h)]
        omega
    rw [Finset.sum_range_succ, Nat.mul_succ]
    omega

/-- What waits arrived in a stretch of rounds that all served, behind less than a portion. -/
theorem exists_busy (arrivals : ℕ → ℕ) (hpos : 0 < portion) (m : ℕ) :
    ∃ i n, i + n = m ∧ level portion arrivals i < portion ∧
    level portion arrivals m + portion * n = level portion arrivals i + ∑ k ∈ Finset.range n, arrivals (i + k) := by
  induction m with
  | zero => exact ⟨0, 0, rfl, hpos, by simp⟩
  | succ m ih =>
    -- a round that serves prolongs the stretch, one that does not starts the next
    by_cases h : portion ≤ level portion arrivals m + arrivals m
    · obtain ⟨i, n, hm, hlow, hsum⟩ := ih
      refine ⟨i, n + 1, by omega, hlow, ?_⟩
      rw [level_succ_of_le h, Finset.sum_range_succ, hm, Nat.mul_succ]
      omega
    · have hlow := not_le.mp h
      refine ⟨m + 1, 0, rfl, ?_, by simp⟩
      rw [level_succ_of_lt hlow]
      exact hlow

theorem bounded_iff (hpos : 0 < portion) : (∃ c, ∀ m, level portion arrivals m ≤ c) ↔
    ∃ c, ∀ i n, ∑ k ∈ Finset.range n, arrivals (i + k) ≤ portion * n + c := by
  constructor
  · rintro ⟨c, hc⟩
    refine ⟨c, fun i n => (sum_le portion arrivals i n).trans ?_⟩
    exact Nat.add_le_add_left (hc (i + n)) _
  · rintro ⟨c, hc⟩
    refine ⟨portion + c, fun m => ?_⟩
    obtain ⟨i, n, -, hlow, hsum⟩ := exists_busy arrivals hpos m
    have hstretch := hc i n
    omega

end Wavr.Backlog
