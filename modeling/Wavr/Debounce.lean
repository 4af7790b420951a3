import Mathlib.Data.List.DropRight
import Wavr.Run

/-!
# A debounced edge

A detector for a stream of Booleans. While it rises it keeps the last `m` observations, and an
observation that makes `n` of them true confirms it. Then `n` false ones in a row release it.
-/

namespace Wavr.Debounce
open Run

inductive Gate
  | rising (window : List Bool)
  | confirmed (streak : ℕ)
  deriving DecidableEq

def Gate.isRising : Gate → Bool
  | .rising _ => true
  | .confirmed _ => false

variable (n m : ℕ)

/-- A window without a true observation is forgotten. -/
def step : Gate → Bool → Gate
  | .rising w, b =>
    let w := (w ++ [b]).rtake m
    if b = false ∧ w.count true = 0 then .rising []
    else if w.count true < n then .rising w
    else .confirmed 0
  | .confirmed k, b =>
    if b = true then .confirmed 0
    else if k + 1 < n then .confirmed (k + 1)
    else .rising []

/-- The observation confirms the detector. -/
def fires (g : Gate) (b : Bool) : Bool := g.isRising && ! (step n m g b).isRising

/-- The observations that are made while the detector rises. -/
def unconfirmed : Gate → List Bool → List Bool :=
  outputs (step n m) fun g b => if g.isRising then some b else none

variable {n m} {g : Gate} {w bs : List Bool} {b : Bool} {k : ℕ}

theorem step_rising : step n m (.rising w) b =
    if b = false ∧ ((w ++ [b]).rtake m).count true = 0 then .rising []
    else if ((w ++ [b]).rtake m).count true < n then .rising ((w ++ [b]).rtake m)
    else .confirmed 0 := rfl

theorem step_confirmed : step n m (.confirmed k) b =
    if b = true then .confirmed 0 else if k + 1 < n then .confirmed (k + 1) else .rising [] := rfl

theorem rtake_suffix (l : List Bool) (m : ℕ) : l.rtake m <:+ l := List.drop_suffix _ l

theorem length_rtake_le (l : List Bool) (m : ℕ) : (l.rtake m).length ≤ m := by
  rw [List.rtake, List.length_drop]
  omega

/-- The last `m` of a list end in every shorter end of it. -/
theorem suffix_rtake {l : List Bool} (h : w <:+ l) (hw : w.length ≤ m) : w <:+ l.rtake m := by
  refine List.suffix_of_suffix_length_le h (rtake_suffix l m) ?_
  have hle := h.length_le
  rw [List.rtake, List.length_drop]
  omega

theorem suffix_append_rtake {l z : List Bool} (h : l <:+ z ++ w) (hl : l.length ≤ m) :
    l <:+ z ++ w.rtake m := by
  by_cases hw : w.length ≤ m
  · rw [List.rtake, Nat.sub_eq_zero_of_le hw, List.drop_zero]
    exact h
  · refine List.suffix_append_of_suffix (List.suffix_of_suffix_length_le h ?_ ?_)
    · exact List.suffix_append_of_suffix (rtake_suffix w m)
    · rw [List.rtake, List.length_drop]
      omega

/-! ## The rising edge -/

theorem fires_eq_true (h : fires n m g b = true) : ∃ w, g = .rising w ∧
    n ≤ ((w ++ [b]).rtake m).count true ∧ step n m g b = .confirmed 0 := by
  cases g with
  | confirmed k => cases h
  | rising w =>
    unfold fires at h
    rw [step_rising] at h ⊢
    split at h
    · cases h
    · rename_i hheard
      split at h
      · cases h
      · rename_i hmany
        exact ⟨w, rfl, Nat.not_lt.mp hmany, by rw [if_neg hheard, if_neg hmany]⟩

/-- The window is an end of what was observed while the detector rose. -/
theorem window_suffix (h : finish (step n m) (.rising []) bs = .rising w) :
    w <:+ unconfirmed n m (.rising []) bs := by
  induction bs using List.reverseRecOn generalizing w with
  | nil =>
    cases h
    exact List.nil_suffix
  | append_singleton bs b ih =>
    rw [finish_append, finish_cons, finish_nil] at h
    rw [unconfirmed, outputs_append]
    cases hg : finish (step n m) (.rising []) bs with
    | confirmed k =>
      rw [hg, step_confirmed] at h
      split at h
      · cases h
      · split at h
        · cases h
        · cases h
          exact List.nil_suffix
    | rising w₀ =>
      have hpush : (w₀ ++ [b]).rtake m <:+ unconfirmed n m (.rising []) bs ++ [b] :=
        (rtake_suffix _ m).trans (List.suffix_append_self_iff.mpr (ih hg))
      rw [hg, step_rising] at h
      split at h
      · cases h
        exact List.nil_suffix
      · split at h
        · cases h
          exact hpush
        · cases h

/-- Where the detector fires, `n` of the last `m` observations made while it rose are true. -/
theorem fires_sound (h : fires n m (finish (step n m) (.rising []) bs) b = true) :
    n ≤ ((unconfirmed n m (.rising []) bs ++ [b]).rtake m).count true := by
  obtain ⟨w, hg, hcount, -⟩ := fires_eq_true h
  have hsuffix : (w ++ [b]).rtake m <:+ (unconfirmed n m (.rising []) bs ++ [b]).rtake m :=
    suffix_rtake ((rtake_suffix _ m).trans (List.suffix_append_self_iff.mpr (window_suffix hg)))
      (length_rtake_le _ m)
  exact hcount.trans (hsuffix.sublist.count_le true)

/-- What was observed since, up to `m` observations, ends the window behind some false ones. -/
theorem suffix_window (hlen : bs.length ≤ m)
    (hrising : AllStates (step n m) (fun g => g.isRising = true) g bs) :
    ∃ z w, finish (step n m) g bs = .rising w ∧ z.count true = 0 ∧ bs <:+ z ++ w ∧
      (bs ≠ [] → 0 < n → w.count true < n) := by
  induction bs using List.reverseRecOn with
  | nil =>
    cases g with
    | confirmed k => cases hrising
    | rising w => exact ⟨[], w, rfl, rfl, List.nil_suffix, fun h => absurd rfl h⟩
  | append_singleton bs b ih =>
    have hbs : AllStates (step n m) (fun g => g.isRising = true) g bs :=
      allStates_iff_split.mpr fun pre post he =>
        allStates_iff_split.mp hrising pre (post ++ [b]) (by rw [he, List.append_assoc])
    have hlast := hrising.last
    rw [List.length_append, List.length_singleton] at hlen
    obtain ⟨z, w, hfinish, hz, hsuffix, -⟩ := ih (Nat.le_of_succ_le hlen) hbs
    have hpush : bs ++ [b] <:+ z ++ (w ++ [b]) := by
      rw [← List.append_assoc]
      exact List.suffix_append_self_iff.mpr hsuffix
    have hkept : bs ++ [b] <:+ z ++ (w ++ [b]).rtake m := suffix_append_rtake hpush (by simpa using hlen)
    rw [finish_append, hfinish, finish_cons, finish_nil, step_rising] at hlast ⊢
    split at hlast
    · rename_i hquiet
      rw [if_pos hquiet]
      refine ⟨z ++ (w ++ [b]).rtake m, [], rfl, ?_, ?_, fun _ hn => hn⟩
      · rw [List.count_append, hz, hquiet.2]
      · rw [List.append_nil]
        exact hkept
    · rename_i hheard
      split at hlast
      · rename_i hfew
        rw [if_neg hheard, if_pos hfew]
        exact ⟨z, (w ++ [b]).rtake m, rfl, hz, hkept, fun _ _ => hfew⟩
      · cases hlast

/-- While the detector does not fire, no `m` observations in a row hold `n` true ones. -/
theorem count_lt_of_rising (hn : 0 < n) (hlen : bs.length ≤ m)
    (hrising : AllStates (step n m) (fun g => g.isRising = true) g bs) : bs.count true < n := by
  obtain ⟨z, w, -, hz, hsuffix, hfew⟩ := suffix_window hlen hrising
  by_cases hbs : bs = []
  · subst hbs
    exact hn
  · have hle := hsuffix.sublist.count_le true
    rw [List.count_append, hz, Nat.zero_add] at hle
    exact hle.trans_lt (hfew hbs hn)

/-! ## The falling edge -/

/-- The streak counts the false observations at the end, and none is released before `n` of them. -/
theorem streak_suffix (bs : List Bool) :
    (∀ k, finish (step n m) (.confirmed 0) bs = .confirmed k → List.replicate k false <:+ bs) ∧
      ((finish (step n m) (.confirmed 0) bs).isRising = true → List.replicate n false <:+: bs) := by
  induction bs using List.reverseRecOn with
  | nil =>
    refine ⟨fun k hk => ?_, fun h => by cases h⟩
    cases hk
    exact List.nil_suffix
  | append_singleton bs b ih =>
    obtain ⟨hstreak, hreleased⟩ := ih
    have hmore : bs <:+: bs ++ [b] := (List.prefix_append bs [b]).isInfix
    rw [finish_append, finish_cons, finish_nil]
    cases hg : finish (step n m) (.confirmed 0) bs with
    | rising w =>
      have hgone : List.replicate n false <:+: bs ++ [b] := (hreleased (by rw [hg]; rfl)).trans hmore
      refine ⟨fun k hk => ?_, fun _ => hgone⟩
      rw [step_rising] at hk
      split at hk
      · cases hk
      · split at hk
        · cases hk
        · cases hk
          exact List.nil_suffix
    | confirmed k =>
      rw [step_confirmed]
      split
      · refine ⟨fun k hk => ?_, fun h => by cases h⟩
        cases hk
        exact List.nil_suffix
      · rename_i hb
        -- the streak grows by this observation, and at `n` of them the detector is released
        have hlonger : List.replicate (k + 1) false <:+ bs ++ [b] := by
          rw [Bool.eq_false_iff.mpr hb, List.replicate_succ']
          exact List.suffix_append_self_iff.mpr (hstreak k hg)
        split
        · refine ⟨fun j hj => ?_, fun h => by cases h⟩
          cases hj
          exact hlonger
        · rename_i hlong
          refine ⟨fun j hj => (by cases hj), fun _ => ?_⟩
          have hend : List.replicate n false <:+ List.replicate (k + 1) false :=
            List.suffix_replicate_iff.mpr ⟨by simpa using Nat.not_lt.mp hlong, by simp⟩
          exact (hend.trans hlonger).isInfix

/-- A confirmed detector is released behind `n` false observations in a row. -/
theorem released (hrising : (finish (step n m) (.confirmed 0) bs).isRising = true) :
    List.replicate n false <:+: bs :=
  (streak_suffix bs).2 hrising

end Wavr.Debounce
