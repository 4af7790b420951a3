import Mathlib.Data.List.Basic
import Mathlib.Order.Basic
import Wavr.Run

/-!
# A file that several writers replace

A writer takes up a value that is at least what the file holds, and later moves it into place.
In between the others may have moved theirs. The file never goes back exactly if no writer moves
a value into place that has been overtaken since it was taken up.
-/

namespace Wavr.Replace

variable {α ι : Type*} [DecidableEq ι]

structure File (α ι : Type*) where
  content : Option α
  /-- What each writer is about to move into place. -/
  pending : ι → Option α
  /-- What has been moved into place since it took that up. -/
  since : ι → List α

inductive Op (α ι : Type*)
  | take (p : ι) (v : α)
  | replace (p : ι)
  | drop (p : ι)
  | remove
  | stay

def File.new (content : Option α) : File α ι := ⟨content, fun _ => none, fun _ => []⟩

def step (s : File α ι) : Op α ι → File α ι
  | .take p v => { s with pending := Function.update s.pending p (some v), since := Function.update s.since p [] }
  | .replace p => match s.pending p with
    | some v => ⟨some v, Function.update s.pending p none, fun q => s.since q ++ [v]⟩
    | none => s
  | .drop p => { s with pending := Function.update s.pending p none }
  | .remove => { s with content := none, since := fun _ => [] }
  | .stay => s

section
variable [Preorder α]

/-- What is taken up is at least what the file holds. -/
def Merges (s : File α ι) : Op α ι → Prop
  | .take _ v => ∀ c ∈ s.content, c ≤ v
  | _ => True

/-- The file is not replaced by less. -/
def NotBack (content content' : Option α) : Prop := ∀ c ∈ content, ∀ c' ∈ content', c ≤ c'

/-- Nothing greater was moved into place since the value was taken up. -/
def NotOvertaken (s : File α ι) : Op α ι → Prop
  | .replace p => ∀ v ∈ s.pending p, ∀ c ∈ s.since p, c ≤ v
  | _ => True

/-- For every writer with a value: what the file holds is below it or came since, and what came
since is below what the file holds. -/
structure Inv (s : File α ι) : Prop where
  held : ∀ p, ∀ v ∈ s.pending p, ∀ c ∈ s.content, c ∈ s.since p ∨ c ≤ v
  rising : ∀ p, ∀ c ∈ s.since p, ∃ c' ∈ s.content, c ≤ c'

omit [DecidableEq ι] in
theorem inv_new (content : Option α) : Inv (File.new content : File α ι) :=
  ⟨fun _ _ h => (by cases h), fun _ _ h => (by cases h)⟩

theorem notBack_self (content : Option α) : NotBack content content := by
  intro c hc c' hc'
  rw [Option.mem_unique hc hc']

theorem notBack_iff {s : File α ι} (hs : Inv s) (op : Op α ι) :
    NotBack s.content (step s op).content ↔ NotOvertaken s op := by
  cases op with
  | replace p =>
    cases hp : s.pending p with
    | none =>
      simp only [NotOvertaken, step, hp]
      exact ⟨fun _ v hv => (by cases hv), fun _ => notBack_self s.content⟩
    | some v =>
      simp only [NotBack, NotOvertaken, step, hp, Option.mem_some_iff, forall_eq']
      constructor
      · intro hback c hc
        obtain ⟨c', hc', hle⟩ := hs.rising p c hc
        exact hle.trans (hback c' hc')
      · intro hover c hc
        exact (hs.held p v hp c hc).elim (hover c) id
  | take p v => exact iff_of_true (notBack_self s.content) trivial
  | drop p => exact iff_of_true (notBack_self s.content) trivial
  | remove => exact iff_of_true (fun _ _ _ h => by cases h) trivial
  | stay => exact iff_of_true (notBack_self s.content) trivial

theorem inv_step {s : File α ι} (hs : Inv s) {op : Op α ι} (hm : Merges s op) (hno : NotOvertaken s op) :
    Inv (step s op) := by
  cases op with
  | take p v =>
    constructor
    · intro q w hw c hc
      simp only [step, Function.update_apply, Option.mem_def] at hw ⊢
      split_ifs at hw ⊢ with hq
      · cases hw
        exact .inr (hm c hc)
      · exact hs.held q w hw c hc
    · intro q c hc
      simp only [step, Function.update_apply] at hc
      split_ifs at hc
      · cases hc
      · exact hs.rising q c hc
  | replace p =>
    have hback := (notBack_iff hs (.replace p)).mpr hno
    cases hp : s.pending p with
    | none =>
      simp only [step, hp]
      exact hs
    | some v =>
      simp only [step, hp] at hback ⊢
      constructor
      · intro q w _ c hc
        cases hc
        exact .inl (List.mem_append_right _ List.mem_cons_self)
      · intro q c hc
        refine ⟨v, rfl, ?_⟩
        -- what came before is below the old content, and that is below the new one: nobody was overtaken
        rcases List.mem_append.mp hc with hold | hnew
        · obtain ⟨c', hc', hle⟩ := hs.rising q c hold
          exact hle.trans (hback c' hc' v rfl)
        · rw [List.mem_singleton.mp hnew]
  | drop p =>
    refine ⟨fun q w hw => ?_, hs.rising⟩
    simp only [step, Function.update_apply, Option.mem_def] at hw
    split_ifs at hw
    exact hs.held q w hw
  | remove => exact ⟨fun _ _ _ _ h => (by cases h), fun _ _ h => (by cases h)⟩
  | stay => exact hs

/-- The file never goes back exactly if no writer is overtaken. -/
theorem allSteps_notBack_iff {s : File α ι} (hs : Inv s) {ops : List (Op α ι)}
    (hm : Run.AllSteps step Merges s ops) :
    Run.AllSteps step (fun s op => NotBack s.content (step s op).content) s ops ↔
      Run.AllSteps step NotOvertaken s ops := by
  induction ops generalizing s with
  | nil => exact Iff.rfl
  | cons op ops ih =>
    have hiff := notBack_iff hs op
    constructor
    · rintro ⟨hback, hrest⟩
      have hno := hiff.mp hback
      exact ⟨hno, (ih (inv_step hs hm.1 hno) hm.2).mp hrest⟩
    · rintro ⟨hno, hrest⟩
      exact ⟨hiff.mpr hno, (ih (inv_step hs hm.1 hno) hm.2).mpr hrest⟩

end

end Wavr.Replace
