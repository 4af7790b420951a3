import Mathlib.Data.List.Induction

/-!
# Finite runs of a deterministic component

A component is a function `step : σ → ι → σ`; everything it cannot decide for itself
(clock readings, random draws, outcomes of a transport) is part of the input `ι`. A run
is the list of its inputs. The predicates below quantify over the steps and over the
states of a run, and the rules carry an invariant from the steps to both.
-/

namespace Wavr.Run

variable {σ ι : Type*} (step : σ → ι → σ)

/-- The state a run ends in. -/
def finish (s : σ) (is : List ι) : σ := is.foldl step s

@[simp] theorem finish_nil (s : σ) : finish step s [] = s := rfl

@[simp] theorem finish_cons (s : σ) (i : ι) (is : List ι) :
    finish step s (i :: is) = finish step (step s i) is := rfl

@[simp] theorem finish_append (s : σ) (is js : List ι) :
    finish step s (is ++ js) = finish step (finish step s is) js := List.foldl_append

/-- Every step of the run meets `ok`, which sees the state the step starts from. -/
def AllSteps (ok : σ → ι → Prop) : σ → List ι → Prop
  | _, [] => True
  | s, i :: is => ok s i ∧ AllSteps ok (step s i) is

/-- Every state of the run meets `P`, the first and the last included. -/
def AllStates (P : σ → Prop) : σ → List ι → Prop
  | s, [] => P s
  | s, i :: is => P s ∧ AllStates P (step s i) is

instance AllSteps.instDecidable (ok : σ → ι → Prop) [∀ s i, Decidable (ok s i)] :
    ∀ (s : σ) (is : List ι), Decidable (AllSteps step ok s is)
  | _, [] => .isTrue trivial
  | s, i :: is =>
    have := AllSteps.instDecidable ok (step s i) is
    inferInstanceAs (Decidable (ok s i ∧ AllSteps step ok (step s i) is))

instance AllStates.instDecidable (P : σ → Prop) [DecidablePred P] :
    ∀ (s : σ) (is : List ι), Decidable (AllStates step P s is)
  | s, [] => inferInstanceAs (Decidable (P s))
  | s, i :: is =>
    have := AllStates.instDecidable P (step s i) is
    inferInstanceAs (Decidable (P s ∧ AllStates step P (step s i) is))

variable {step} {ok Q : σ → ι → Prop} {I P : σ → Prop}

theorem allSteps_append {s : σ} {is js : List ι} :
    AllSteps step ok s (is ++ js) ↔ AllSteps step ok s is ∧ AllSteps step ok (finish step s is) js := by
  induction is generalizing s with
  | nil => simp [AllSteps]
  | cons i is ih => simp [AllSteps, ih, and_assoc]

theorem allSteps_mono (h : ∀ s i, ok s i → Q s i) {s : σ} {is : List ι}
    (hs : AllSteps step ok s is) : AllSteps step Q s is := by
  induction is generalizing s with
  | nil => trivial
  | cons i is ih => exact ⟨h s i hs.1, ih hs.2⟩

theorem allSteps_of_forall {is : List ι} (h : ∀ i ∈ is, ∀ s, ok s i) {s : σ} :
    AllSteps step ok s is := by
  induction is generalizing s with
  | nil => trivial
  | cons i is ih =>
    exact ⟨h i List.mem_cons_self s, ih fun j hj => h j (List.mem_cons_of_mem i hj)⟩

theorem allStates_iff_split {s : σ} {is : List ι} :
    AllStates step P s is ↔ ∀ pre post, is = pre ++ post → P (finish step s pre) := by
  constructor
  · intro h pre post he
    induction pre generalizing s is with
    | nil => cases is with
      | nil => exact h
      | cons i is => exact h.1
    | cons i pre ih => subst he; exact ih h.2 rfl
  · intro h
    induction is generalizing s with
    | nil => exact h [] [] rfl
    | cons i is ih =>
      exact ⟨h [] (i :: is) rfl, ih fun pre post he => by
        simpa using h (i :: pre) post (by rw [he, List.cons_append])⟩

theorem AllStates.left {s : σ} {is js : List ι} (h : AllStates step P s (is ++ js)) : AllStates step P s is :=
  allStates_iff_split.mpr fun pre post he =>
    allStates_iff_split.mp h pre (post ++ js) (by rw [he, List.append_assoc])

theorem AllStates.right {s : σ} {is js : List ι} (h : AllStates step P s (is ++ js)) :
    AllStates step P (finish step s is) js :=
  allStates_iff_split.mpr fun pre post he => by
    simpa using allStates_iff_split.mp h (is ++ pre) post (by rw [he, List.append_assoc])

theorem AllStates.first {s : σ} {is : List ι} (h : AllStates step P s is) : P s := by
  cases is with
  | nil => exact h
  | cons i is => exact h.1

/-- An invariant of the steps that meet `ok` holds at the end of a run of such steps. -/
theorem finish_of_invariant (hstep : ∀ s i, I s → ok s i → I (step s i)) {s : σ} {is : List ι}
    (hs : I s) (hok : AllSteps step ok s is) : I (finish step s is) := by
  induction is generalizing s with
  | nil => exact hs
  | cons i is ih => exact ih (hstep s i hs hok.1) hok.2

/-- ... and in every state on the way. -/
theorem allStates_of_invariant (hstep : ∀ s i, I s → ok s i → I (step s i))
    (hP : ∀ s, I s → P s) {s : σ} {is : List ι} (hs : I s) (hok : AllSteps step ok s is) :
    AllStates step P s is := by
  induction is generalizing s with
  | nil => exact hP s hs
  | cons i is ih => exact ⟨hP s hs, ih (hstep s i hs hok.1) hok.2⟩

/-- Where a step outside `ok` destroys `P`, the runs that keep `P` in every state are
exactly the runs whose steps all meet `ok`. -/
theorem allStates_iff_allSteps (hstep : ∀ s i, I s → ok s i → I (step s i))
    (hP : ∀ s, I s → P s) (hbreak : ∀ s i, I s → ¬ ok s i → ¬ P (step s i))
    {s : σ} {is : List ι} (hs : I s) : AllStates step P s is ↔ AllSteps step ok s is := by
  refine ⟨fun h => ?_, allStates_of_invariant hstep hP hs⟩
  induction is generalizing s with
  | nil => trivial
  | cons i is ih =>
    have hi : ok s i := by
      by_contra hn
      -- the state behind the first bad step is one of the run's
      exact hbreak s i hs hn h.2.first
    exact ⟨hi, ih (hstep s i hs hi) h.2⟩

/-- Two properties of steps that agree under an invariant agree on the runs that keep it. -/
theorem allSteps_congr_of_invariant {P : σ → ι → Prop} (hstep : ∀ s i, I s → ok s i → I (step s i))
    (hiff : ∀ s i, I s → ok s i → (P s i ↔ Q s i)) {s : σ} {is : List ι} (hs : I s)
    (hok : AllSteps step ok s is) : AllSteps step P s is ↔ AllSteps step Q s is := by
  induction is generalizing s with
  | nil => exact Iff.rfl
  | cons i is ih => exact and_congr (hiff s i hs hok.1) (ih (hstep s i hs hok.1) hok.2)

/-- Two properties of states that agree under an invariant agree on every run. -/
theorem allStates_congr_of_invariant {Q : σ → Prop} (hstep : ∀ s i, I s → I (step s i))
    (hiff : ∀ s, I s → (P s ↔ Q s)) {s : σ} {is : List ι} (hs : I s) :
    AllStates step P s is ↔ AllStates step Q s is := by
  induction is generalizing s with
  | nil => exact hiff s hs
  | cons i is ih => exact and_congr (hiff s hs) (ih (hstep s i hs))

/-- A run that leaves `P` leaves it at one step, up to which `P` held throughout. -/
theorem exists_leaving_step {s : σ} {is : List ι} (hs : P s) (hn : ¬ P (finish step s is)) :
    ∃ pre i post, is = pre ++ i :: post ∧ AllStates step P s pre ∧
      ¬ P (step (finish step s pre) i) := by
  induction is generalizing s with
  | nil => exact absurd hs hn
  | cons i is ih =>
    by_cases hi : P (step s i)
    · obtain ⟨pre, j, post, he, hall, hj⟩ := ih hi hn
      exact ⟨i :: pre, j, post, by rw [he, List.cons_append], ⟨hs, hall⟩, hj⟩
    · exact ⟨[], i, is, rfl, hs, hi⟩

theorem AllStates.last {s : σ} {is : List ι} (h : AllStates step P s is) :
    P (finish step s is) :=
  allStates_iff_split.mp h is [] (by simp)

/-- What the steps of a run put out, in order; a step sees the state it starts from. -/
def outputs {ω : Type*} (step : σ → ι → σ) (out : σ → ι → Option ω) : σ → List ι → List ω
  | _, [] => []
  | s, i :: is => (out s i).toList ++ outputs step out (step s i) is

theorem outputs_append {ω : Type*} {out : σ → ι → Option ω} {s : σ} {is js : List ι} :
    outputs step out s (is ++ js) = outputs step out s is ++ outputs step out (finish step s is) js := by
  induction is generalizing s with
  | nil => rfl
  | cons i is ih => simp only [List.cons_append, outputs, ih, finish_cons, List.append_assoc]

theorem map_outputs {ω ω' : Type*} {out : σ → ι → Option ω} {s : σ} {is : List ι} (f : ω → ω') :
    (outputs step out s is).map f = outputs step (fun s i => (out s i).map f) s is := by
  induction is generalizing s with
  | nil => rfl
  | cons i is ih => simp only [outputs, List.map_append, ih, Option.toList_map]

/-- Where the steps commute with an erasure, and no output tells the erased from the original,
the runs put out the same. -/
theorem outputs_erase {ω : Type*} {out : σ → ι → Option ω} (hide : σ → σ) (hideInput : ι → ι)
    (hstep : ∀ s i, step (hide s) (hideInput i) = hide (step s i))
    (hout : ∀ s i, out (hide s) (hideInput i) = out s i) (s : σ) (is : List ι) :
    outputs step out (hide s) (is.map hideInput) = outputs step out s is := by
  induction is generalizing s with
  | nil => rfl
  | cons i is ih => rw [List.map_cons, outputs, outputs, hstep, hout, ih]

/-- Where a step may put out several. -/
def emissions {ω : Type*} (step : σ → ι → σ) (out : σ → ι → List ω) : σ → List ι → List ω
  | _, [] => []
  | s, i :: is => out s i ++ emissions step out (step s i) is

theorem emissions_append {ω : Type*} {out : σ → ι → List ω} {s : σ} {is js : List ι} :
    emissions step out s (is ++ js) =
      emissions step out s is ++ emissions step out (finish step s is) js := by
  induction is generalizing s with
  | nil => rfl
  | cons i is ih => simp only [List.cons_append, emissions, ih, finish_cons, List.append_assoc]

section
variable {σ' ι' ω : Type*} {step' : σ' → ι' → σ'} {part : σ → σ'} {out : σ → ι → Option ι'}

/-- A part of the state that moves on some inputs of its own, and otherwise stays. -/
theorem finish_part (hpart : ∀ s i, part (step s i) = finish step' (part s) (out s i).toList) (s : σ) (is : List ι) :
    part (finish step s is) = finish step' (part s) (outputs step out s is) := by
  induction is generalizing s with
  | nil => rfl
  | cons i is ih => rw [finish_cons, ih, outputs, finish_append, hpart]

/-- ... and what it puts out there. -/
theorem outputs_part {tell : σ → ι → Option ω} {tell' : σ' → ι' → Option ω}
    (hpart : ∀ s i, part (step s i) = finish step' (part s) (out s i).toList)
    (htell : ∀ s i, (tell s i).toList = outputs step' tell' (part s) (out s i).toList) (s : σ) (is : List ι) :
    outputs step tell s is = outputs step' tell' (part s) (outputs step out s is) := by
  induction is generalizing s with
  | nil => rfl
  | cons i is ih => rw [outputs, ih, htell, hpart, ← outputs_append, ← outputs]

end

section
variable {κ ω : Type*} [DecidableEq κ]

/-- What the steps of a run put out for one key. -/
def outputsFor (step : σ → ι → σ) (out : σ → ι → Option (κ × ω)) (k : κ) (s : σ) (is : List ι) : List ω :=
  (outputs step out s is).filterMap fun e => if e.1 = k then some e.2 else none

variable {out : σ → ι → Option (κ × ω)} {k : κ} {s : σ} {i : ι} {is : List ι}

theorem outputsFor_cons_of_none (h : ∀ v, out s i ≠ some (k, v)) :
    outputsFor step out k s (i :: is) = outputsFor step out k (step s i) is := by
  unfold outputsFor
  rw [outputs, List.filterMap_append]
  cases hout : out s i with
  | none => rfl
  | some e =>
    have hne : e.1 ≠ k := fun he => h e.2 (by rw [hout, ← he])
    simp [hne]

theorem outputsFor_cons_of_some {v : ω} (h : out s i = some (k, v)) :
    outputsFor step out k s (i :: is) = v :: outputsFor step out k (step s i) is := by
  unfold outputsFor
  rw [outputs, List.filterMap_append, h]
  simp

theorem outputsFor_append {js : List ι} :
    outputsFor step out k s (is ++ js) =
      outputsFor step out k s is ++ outputsFor step out k (finish step s is) js := by
  unfold outputsFor
  rw [outputs_append, List.filterMap_append]

/-- A run without outputs for the key has none in its first step and none behind it. -/
theorem outputsFor_cons_eq_nil (h : outputsFor step out k s (i :: is) = []) :
    (∀ v, out s i ≠ some (k, v)) ∧ outputsFor step out k (step s i) is = [] := by
  have hnone : ∀ v, out s i ≠ some (k, v) := by
    intro v hv
    rw [outputsFor_cons_of_some hv] at h
    cases h
  exact ⟨hnone, (outputsFor_cons_of_none hnone).symm.trans h⟩

end

/-- What the inputs of a run stand for, the first of them taken apart. -/
theorem filterMap_cons_eq_append {α β : Type*} (f : α → Option β) (a : α) (l : List α) :
    (a :: l).filterMap f = (f a).toList ++ l.filterMap f := by
  cases h : f a with
  | none => exact List.filterMap_cons_none h
  | some b => exact List.filterMap_cons_some h

/-- ... and the last one. -/
theorem filterMap_append_singleton {α β : Type*} (f : α → Option β) (l : List α) (a : α) :
    (l ++ [a]).filterMap f = l.filterMap f ++ (f a).toList := by
  rw [List.filterMap_append, filterMap_cons_eq_append, List.filterMap_nil, List.append_nil]

/-- Induction over what a run has done so far: the history `is` grows at its end. -/
theorem history_induction {R : List ι → σ → Prop} {s : σ} (hnil : R [] s)
    (hstep : ∀ is i, R is (finish step s is) → R (is ++ [i]) (step (finish step s is) i))
    (is : List ι) : R is (finish step s is) := by
  induction is using List.reverseRecOn with
  | nil => exact hnil
  | append_singleton is i ih => simpa using hstep is i ih

end Wavr.Run
