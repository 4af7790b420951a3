import Mathlib.Data.List.Nodup
import Wavr.Connection

/-!
# A transaction in which a failure is passed over

Statement after statement in one transaction that is committed at its end. A statement that fails
is skipped and the next one is issued; some failures take the open transaction back as well, and
what is issued behind them starts a new one.
-/

namespace Wavr.Transaction

variable {σ α : Type*}

/-- What a failing statement does to the transaction it is issued in. -/
inductive Failure
  | statement
  | rollback
  deriving DecidableEq, Repr

/-- The fault of a sequence of statements is the number of those that go well before it, and the
failure; here is what it means for the first statement ... -/
def failure : Option (ℕ × Failure) → Option Failure
  | some (0, e) => some e
  | _ => none

/-- ... and for the others. -/
def rest : Option (ℕ × Failure) → Option (ℕ × Failure)
  | some (n + 1, e) => some (n, e)
  | _ => none

/-- One statement of an open transaction. -/
def issue (f : σ → σ) (e : Option Failure) (c : Connection σ) : Connection σ :=
  match e with
  | none => ⟨f c.seen, c.committed⟩
  | some .statement => c
  | some .rollback => Connection.opened c.committed

def issueAll (f : α → σ → σ) : Option (ℕ × Failure) → List α → Connection σ → Connection σ
  | _, [], c => c
  | fault, a :: as, c => issueAll f (rest fault) as (issue (f a) (failure fault) c)

/-- The statements that have an effect in the end: all but the failing one, and where the failure
takes the transaction back only those behind it. -/
def effective (fault : Option (ℕ × Failure)) (as : List α) : List α :=
  match fault with
  | none => as
  | some (n, .statement) => as.eraseIdx n
  | some (n, .rollback) => if n < as.length then as.drop (n + 1) else as

section
variable {f : α → σ → σ} {as : List α} {c : Connection σ}

theorem seen_issueAll_none : (issueAll f none as c).seen = as.foldl (fun s a => f a s) c.seen := by
  induction as generalizing c with
  | nil => rfl
  | cons a as ih => exact ih

theorem seen_issueAll_statement (n : ℕ) :
    (issueAll f (some (n, .statement)) as c).seen = (as.eraseIdx n).foldl (fun s a => f a s) c.seen := by
  induction as generalizing n c with
  | nil => rfl
  | cons a as ih =>
    cases n with
    | zero => exact seen_issueAll_none
    | succ n => exact ih n

theorem seen_issueAll_rollback (n : ℕ) : (issueAll f (some (n, .rollback)) as c).seen =
    if n < as.length then (as.drop (n + 1)).foldl (fun s a => f a s) c.committed
    else as.foldl (fun s a => f a s) c.seen := by
  induction as generalizing n c with
  | nil => rfl
  | cons a as ih =>
    cases n with
    | zero =>
      have hpos : 0 < (a :: as).length := Nat.succ_pos as.length
      rw [if_pos hpos]
      exact seen_issueAll_none
    | succ n =>
      simp only [List.length_cons, Nat.add_lt_add_iff_right, List.drop_succ_cons, List.foldl_cons]
      exact ih n

/-- What a faulty transaction leaves is what its effective statements make of the state. -/
theorem seen_issueAll (fault : Option (ℕ × Failure)) (t : σ) :
    (issueAll f fault as (Connection.opened t)).seen = (effective fault as).foldl (fun s a => f a s) t := by
  rcases fault with _ | ⟨n, _ | _⟩
  · exact seen_issueAll_none
  · exact seen_issueAll_statement n
  · rw [seen_issueAll_rollback, effective]
    split_ifs <;> rfl

theorem effective_sublist (fault : Option (ℕ × Failure)) (as : List α) : (effective fault as).Sublist as := by
  rcases fault with _ | ⟨n, _ | _⟩
  · exact List.Sublist.refl as
  · exact List.eraseIdx_sublist as n
  · rw [effective]
    split_ifs
    · exact List.drop_sublist _ as
    · exact List.Sublist.refl as

/-- The failing statement is not among them. -/
theorem not_mem_effective (hn : as.Nodup) {n : ℕ} {e : Failure} {a : α} (ha : as[n]? = some a) :
    a ∉ effective (some (n, e)) as := by
  obtain ⟨hlt, hget⟩ := List.getElem?_eq_some_iff.mp ha
  have hsplit : as = as.take n ++ a :: as.drop (n + 1) := by
    rw [← hget, List.getElem_cons_drop, List.take_append_drop]
  rw [hsplit] at hn
  obtain ⟨-, hdrop, hdisjoint⟩ := List.nodup_append.mp hn
  have hbehind : a ∉ as.drop (n + 1) := (List.nodup_cons.mp hdrop).1
  cases e with
  | statement =>
    rw [effective, List.eraseIdx_eq_take_drop_succ, List.mem_append]
    rintro (hm | hm)
    · exact hdisjoint a hm a List.mem_cons_self rfl
    · exact hbehind hm
  | rollback =>
    rw [effective, if_pos hlt]
    exact hbehind

end

/-! ## Statements that write different parts

A state made of parts, of which each statement rewrites one.
-/

section
variable {κ ν : Type*} [DecidableEq κ] (part : α → κ) (g : α → ν → ν)

def rewrite (a : α) (s : κ → ν) : κ → ν := Function.update s (part a) (g a (s (part a)))

variable {part g} {as : List α} {s : κ → ν}

theorem foldl_rewrite_of_not_mem {p : κ} (hp : p ∉ as.map part) :
    as.foldl (fun s a => rewrite part g a s) s p = s p := by
  induction as generalizing s with
  | nil => rfl
  | cons a as ih =>
    rw [List.map_cons, List.mem_cons, not_or] at hp
    rw [List.foldl_cons, ih hp.2]
    exact Function.update_of_ne hp.1 _ _

theorem foldl_rewrite (hn : (as.map part).Nodup) {a : α} (ha : a ∈ as) :
    as.foldl (fun s a => rewrite part g a s) s (part a) = g a (s (part a)) := by
  induction as generalizing s with
  | nil => cases ha
  | cons b as ih =>
    obtain ⟨hb, hn⟩ := List.nodup_cons.mp hn
    rw [List.foldl_cons]
    rcases List.mem_cons.mp ha with rfl | ha
    · rw [foldl_rewrite_of_not_mem hb]
      exact Function.update_self ..
    · have hne : part a ≠ part b := fun he => hb (he ▸ List.mem_map_of_mem ha)
      rw [ih hn ha]
      simp only [rewrite, Function.update_of_ne hne]

/-- Leaving statements out makes no difference exactly where they would have changed nothing. -/
theorem foldl_rewrite_sublist (hn : (as.map part).Nodup) {bs : List α} (hbs : bs.Sublist as) :
    bs.foldl (fun s a => rewrite part g a s) s = as.foldl (fun s a => rewrite part g a s) s ↔
      ∀ a ∈ as, a ∉ bs → g a (s (part a)) = s (part a) := by
  have hn' : (bs.map part).Nodup := hn.sublist (hbs.map part)
  have hinj : ∀ a ∈ as, ∀ b ∈ as, part a = part b → a = b := fun a ha b hb he =>
    List.inj_on_of_nodup_map hn ha hb he
  constructor
  · intro he a ha hab
    have hp : part a ∉ bs.map part := by
      rintro hm
      obtain ⟨b, hb, hpart⟩ := List.mem_map.mp hm
      exact hab (hinj b (hbs.subset hb) a ha hpart ▸ hb)
    have hall : as.foldl (fun s a => rewrite part g a s) s (part a) = g a (s (part a)) := foldl_rewrite hn ha
    rw [← hall, ← he, foldl_rewrite_of_not_mem hp]
  · intro h
    funext p
    by_cases hp : p ∈ as.map part
    · obtain ⟨a, ha, rfl⟩ := List.mem_map.mp hp
      rw [foldl_rewrite hn ha]
      by_cases hb : a ∈ bs
      · exact foldl_rewrite hn' hb
      · have hpb : part a ∉ bs.map part := by
          rintro hm
          obtain ⟨b, hb', hpart⟩ := List.mem_map.mp hm
          exact hb (hinj b (hbs.subset hb') a ha hpart ▸ hb')
        rw [foldl_rewrite_of_not_mem hpb, h a ha hb]
    · rw [foldl_rewrite_of_not_mem hp, foldl_rewrite_of_not_mem fun hm => hp ((hbs.map part).subset hm)]

end

end Wavr.Transaction
