import Mathlib.Algebra.Order.Group.Defs
import Mathlib.Algebra.Order.Sub.Defs
import Wavr.Dict
import Wavr.Run

/-!
# Stamps in a sliding window

A limiter keeps a list of stamps for each key. Every call purges the stamps that have left the
window, for all keys, and may then record one stamp for one key.
-/

namespace Wavr.SlidingWindow
open Run

variable {κ τ : Type*} [DecidableEq κ]

def stamps (k : κ) (d : Dict κ (List τ)) : List τ := (d.get? k).getD []

def record (k : κ) (t : τ) (d : Dict κ (List τ)) : Dict κ (List τ) := d.set k (stamps k d ++ [t])

@[simp] theorem stamps_empty (k : κ) : stamps k (Dict.empty : Dict κ (List τ)) = [] := rfl

@[simp] theorem stamps_record_self (k : κ) (t : τ) (d : Dict κ (List τ)) :
    stamps k (record k t d) = stamps k d ++ [t] := by
  unfold record
  rw [stamps, Dict.get?_set_self, Option.getD_some]

theorem stamps_record_ne {k k' : κ} (h : k' ≠ k) (t : τ) (d : Dict κ (List τ)) :
    stamps k' (record k t d) = stamps k' d := by
  unfold record
  rw [stamps, Dict.get?_set_ne d h, stamps]

variable [LinearOrder τ]

/-- Drops the stamps before the cutoff, and the keys that are left without any. -/
def purge (cutoff : τ) (d : Dict κ (List τ)) : Dict κ (List τ) :=
  (d.mapValues fun stamps => stamps.filter (cutoff ≤ ·)).filter fun _ stamps => stamps ≠ []

@[simp] theorem stamps_purge (k : κ) (cutoff : τ) (d : Dict κ (List τ)) :
    stamps k (purge cutoff d) = (stamps k d).filter (cutoff ≤ ·) := by
  unfold stamps purge
  rw [Dict.get?_filter, Dict.get?_mapValues]
  cases d.get? k with
  | none => rfl
  | some l =>
    by_cases h : l.filter (cutoff ≤ ·) = []
    · simp [Option.filter, h]
    · simp [Option.filter, h]

/-- A call on the limiter: a clock reading, and the key that a stamp is recorded for. -/
structure Call (κ τ : Type*) where
  now : τ
  marks : Option κ

variable [AddCommGroup τ] [IsOrderedAddMonoid τ] (w : τ)

def step (d : Dict κ (List τ)) (c : Call κ τ) : Dict κ (List τ) :=
  match c.marks with
  | none => purge (c.now - w) d
  | some k => record k c.now (purge (c.now - w) d)

/-- When the calls recorded a stamp for the key. -/
def marksOf (k : κ) (cs : List (Call κ τ)) : List τ :=
  cs.filterMap fun c => if c.marks = some k then some c.now else none

variable {w}

omit [LinearOrder τ] [AddCommGroup τ] [IsOrderedAddMonoid τ] in
theorem marksOf_append (k : κ) (cs cs' : List (Call κ τ)) :
    marksOf k (cs ++ cs') = marksOf k cs ++ marksOf k cs' := List.filterMap_append

theorem stamps_step (k : κ) (d : Dict κ (List τ)) (c : Call κ τ) :
    stamps k (step w d c) = (stamps k d).filter (c.now - w ≤ ·) ++ marksOf k [c] := by
  unfold step marksOf
  cases hm : c.marks with
  | none => simp [hm]
  | some k' =>
    by_cases hk : k = k'
    · subst hk
      simp [hm]
    · simp [hm, stamps_record_ne hk, Ne.symm hk]

/-- The stamps of a key are some of those recorded for it, whatever the clock does. -/
theorem stamps_sublist (k : κ) (cs : List (Call κ τ)) :
    (stamps k (finish (step w) Dict.empty cs)).Sublist (marksOf k cs) := by
  induction cs using List.reverseRecOn with
  | nil => exact List.Sublist.refl _
  | append_singleton cs c ih =>
    rw [finish_append, marksOf_append, finish_cons, finish_nil, stamps_step]
    exact (List.filter_sublist.trans ih).append (List.Sublist.refl _)

/-- Where the clock never goes back, they are all that the window still holds. -/
theorem filter_stamps (k : κ) {cs : List (Call κ τ)} {t : τ}
    (hclock : (cs.map Call.now ++ [t]).Pairwise (· ≤ ·)) :
    (stamps k (finish (step w) Dict.empty cs)).filter (t - w ≤ ·) =
      (marksOf k cs).filter (t - w ≤ ·) := by
  induction cs using List.reverseRecOn generalizing t with
  | nil => rfl
  | append_singleton cs c ih =>
    rw [List.map_append, List.map_singleton] at hclock
    have hct : c.now ≤ t := by
      rw [List.pairwise_append] at hclock
      exact hclock.2.2 c.now (by simp) t (by simp)
    have hlast : (cs.map Call.now ++ [t]).Pairwise (· ≤ ·) :=
      hclock.sublist (List.Sublist.append (List.sublist_append_left _ _) (List.Sublist.refl _))
    rw [finish_append, marksOf_append, finish_cons, finish_nil, stamps_step, List.filter_append,
      List.filter_append, ← ih hlast, List.filter_filter]
    congr 1
    refine List.filter_congr fun u _ => ?_
    -- what is in the later window is in the earlier one
    have hearlier : t - w ≤ u → c.now - w ≤ u := (sub_le_sub_right hct w).trans
    by_cases hu : t - w ≤ u
    · simp [hu, hearlier hu]
    · simp [hu]

/-- A limiter that records a stamp only below the maximum holds at most that many of a key in any
window. -/
theorem length_window_le (k : κ) {max : ℕ} {cs : List (Call κ τ)}
    (hclock : (cs.map Call.now).Pairwise (· ≤ ·))
    (hbelow : AllSteps (step w) (fun d c => c.marks = some k →
      (stamps k (purge (c.now - w) d)).length < max) Dict.empty cs) (t : τ) :
    ((marksOf k cs).filter fun u => t - w ≤ u ∧ u ≤ t).length ≤ max := by
  induction cs using List.reverseRecOn with
  | nil => exact Nat.zero_le _
  | append_singleton cs c ih =>
    rw [List.map_append, List.map_singleton] at hclock
    obtain ⟨hbefore, hlast, -⟩ := allSteps_append.mp hbelow
    have hih := ih (List.pairwise_append.mp hclock).1 hbefore
    rw [marksOf_append, List.filter_append, List.length_append]
    by_cases hmark : c.marks = some k
    · by_cases hin : t - w ≤ c.now ∧ c.now ≤ t
      · have hheld := hlast hmark
        rw [stamps_purge, filter_stamps k hclock] at hheld
        -- the stamps of this window are in the window of the last call as well
        have hsub : ((marksOf k cs).filter fun u => t - w ≤ u ∧ u ≤ t).length ≤
            ((marksOf k cs).filter (c.now - w ≤ ·)).length := by
          refine List.Sublist.length_le (List.monotone_filter_right _ fun u hu => ?_)
          have hu' : t - w ≤ u ∧ u ≤ t := by simpa using hu
          simpa using (sub_le_sub_right hin.2 w).trans hu'.1
        have hone : ((marksOf k [c]).filter fun u => t - w ≤ u ∧ u ≤ t).length ≤ 1 := by
          refine (List.length_filter_le _ _).trans ?_
          simp [marksOf, hmark]
        omega
      · have hnone : (marksOf k [c]).filter (fun u => t - w ≤ u ∧ u ≤ t) = [] := by
          simpa [marksOf, hmark] using hin
        rw [hnone]
        exact hih
    · have hnone : marksOf k [c] = [] := by simp [marksOf, hmark]
      rw [hnone]
      exact hih

/-- The call with the marks of every other key left out. -/
def Call.only (k : κ) (c : Call κ τ) : Call κ τ := { c with marks := c.marks.filter (· = k) }

/-- What is recorded for other keys leaves the stamps of a key alone. -/
theorem stamps_only (k : κ) (cs : List (Call κ τ)) :
    stamps k (finish (step w) Dict.empty (cs.map (Call.only k))) =
      stamps k (finish (step w) Dict.empty cs) := by
  induction cs using List.reverseRecOn with
  | nil => rfl
  | append_singleton cs c ih =>
    rw [List.map_append, finish_append, finish_append, List.map_singleton, finish_cons, finish_cons,
      finish_nil, finish_nil, stamps_step, stamps_step, ih]
    congr 1
    unfold marksOf Call.only
    cases hm : c.marks with
    | none => simp [hm]
    | some k' => by_cases hk : k' = k <;> simp [hm, hk]

end Wavr.SlidingWindow
