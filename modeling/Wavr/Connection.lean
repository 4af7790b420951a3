import Mathlib.Data.List.Basic

/-!
# A connection with an open transaction

One connection to a database in which every write is followed by its own commit. A write whose
commit is refused stays in the transaction that is open: this connection reads it and the next
commit takes it along, while a restart or a roll-back loses it.
-/

namespace Wavr

structure Connection (σ : Type*) where
  /-- What the connection reads. -/
  seen : σ
  /-- What another connection, or the next start, finds. -/
  committed : σ
  deriving DecidableEq

/-- How a write and its commit can fail. -/
inductive Fault
  | statement
  | commit
  | rollback
  deriving DecidableEq, Repr

namespace Connection
variable {σ α : Type*}

/-- A connection with nothing under way. -/
def opened (t : σ) : Connection σ := ⟨t, t⟩

def write (f : σ → σ) (fault : Option Fault) (c : Connection σ) : Connection σ :=
  match fault with
  | none => ⟨f c.seen, f c.seen⟩
  | some .statement => c
  | some .commit => ⟨f c.seen, c.committed⟩
  | some .rollback => ⟨c.committed, c.committed⟩

def restart (c : Connection σ) : Connection σ := opened c.committed

/-- Write after write, up to the one the fault meets. -/
def writeAll (f : α → σ → σ) (fault : Option (ℕ × Fault)) : List α → Connection σ → Connection σ
  | [], c => c
  | a :: as, c =>
    match fault with
    | none => writeAll f none as (c.write (f a) none)
    | some (0, e) => c.write (f a) (some e)
    | some (k + 1, e) => writeAll f (some (k, e)) as (c.write (f a) none)

/-- What holds of what is read and of what a restart would find. -/
def Holds (P : σ → Prop) (c : Connection σ) : Prop := P c.seen ∧ P c.committed

@[simp] theorem write_none (f : σ → σ) (c : Connection σ) : c.write f none = opened (f c.seen) := rfl

@[simp] theorem restart_opened (t : σ) : (opened t).restart = opened t := rfl

theorem Holds.opened {P : σ → Prop} {t : σ} (h : P t) : Holds P (opened t) := ⟨h, h⟩

theorem Holds.restart {P : σ → Prop} {c : Connection σ} (h : Holds P c) : Holds P c.restart := ⟨h.2, h.2⟩

/-- A write keeps what its effect keeps, whatever becomes of it. -/
theorem Holds.write {P : σ → Prop} {f : σ → σ} (hf : ∀ t, P t → P (f t)) {c : Connection σ}
    (h : Holds P c) (fault : Option Fault) : Holds P (c.write f fault) := by
  cases fault with
  | none => exact ⟨hf _ h.1, hf _ h.1⟩
  | some e =>
    cases e with
    | statement => exact h
    | commit => exact ⟨hf _ h.1, h.2⟩
    | rollback => exact ⟨h.2, h.2⟩

/-- Without a fault among them, all writes are made and committed. -/
theorem writeAll_opened {f : α → σ → σ} {fault : Option (ℕ × Fault)} {as : List α} {t : σ}
    (h : ∀ p ∈ fault, as.length ≤ p.1) :
    writeAll f fault as (opened t) = opened (as.foldl (fun t a => f a t) t) := by
  induction as generalizing fault t with
  | nil => rfl
  | cons a as ih =>
    rcases fault with _ | ⟨k, e⟩
    · exact ih (by simp)
    · have hk := h (k, e) rfl
      cases k with
      | zero => simp at hk
      | succ k => exact ih (by simpa using hk)

/-- The write that the fault meets starts where those before it have left off. -/
theorem writeAll_fault {f : α → σ → σ} {k : ℕ} {e : Fault} {as : List α} {t : σ} (hk : k < as.length) :
    writeAll f (some (k, e)) as (opened t) =
      (opened ((as.take k).foldl (fun t a => f a t) t)).write (f (as[k])) (some e) := by
  induction as generalizing k t with
  | nil => simp at hk
  | cons a as ih =>
    cases k with
    | zero => rfl
    | succ k =>
      have hk' : k < as.length := by simpa using hk
      exact ih hk'

/-- What a faulty run of writes leaves to be read: those before the fault, and the one it met
where that one stayed in the open transaction. -/
theorem seen_writeAll_fault {f : α → σ → σ} {k : ℕ} {e : Fault} {as : List α} {t : σ} (hk : k < as.length) :
    (writeAll f (some (k, e)) as (opened t)).seen =
      (as.take (if e = .commit then k + 1 else k)).foldl (fun t a => f a t) t := by
  rw [writeAll_fault hk]
  cases e with
  | statement => rfl
  | commit =>
    rw [if_pos rfl, List.take_add_one, List.getElem?_eq_getElem hk, List.foldl_append]
    rfl
  | rollback => rfl

end Connection

end Wavr
