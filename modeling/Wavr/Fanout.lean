import Mathlib.Data.Nat.Basic
import Mathlib.Order.Lattice
import Wavr.DictRel
import Wavr.Run

/-!
# The hub

Everything that is published goes to every queue. A queue is bounded, and where one is full its
oldest item makes room. A queue goes by the number of its subscription.
-/

namespace Wavr.Fanout
open Run

variable {α : Type*}

def MAX_QUEUE : ℤ := 256

structure Hub (α : Type*) where
  subscribers : Dict ℕ (List α)
  maxsize : ℤ
  deriving DecidableEq

def newHub (maxsize : ℤ) : Hub α := ⟨.empty, maxsize⟩

/-- `put_nowait`: nothing where it raises `QueueFull`. A bound of 0 or less is no bound. -/
def putNowait (maxsize : ℤ) (x : α) (q : List α) : Option (List α) :=
  if 0 < maxsize ∧ maxsize ≤ q.length then none else some (q ++ [x])

/-- One turn of the loop of `publish_nowait`. -/
def offer (maxsize : ℤ) (x : α) (q : List α) : List α :=
  match putNowait maxsize x q with
  | some q' => q'
  | none => (putNowait maxsize x q.tail).getD q.tail

def subscribe (k : ℕ) (h : Hub α) : Hub α := { h with subscribers := h.subscribers.setDefault k [] }

def unsubscribe (k : ℕ) (h : Hub α) : Hub α := { h with subscribers := h.subscribers.erase k }

def publish (x : α) (h : Hub α) : Hub α := { h with subscribers := h.subscribers.mapValues (offer h.maxsize x) }

/-- What `get` returns to a reader of the queue, if there is anything in it. -/
def head (k : ℕ) (h : Hub α) : Option α := (h.subscribers.get? k).bind List.head?

def receive (k : ℕ) (h : Hub α) : Hub α :=
  match h.subscribers.get? k with
  | none => h
  | some q => { h with subscribers := h.subscribers.set k q.tail }

inductive Op (α : Type*)
  | subscribe (k : ℕ)
  | unsubscribe (k : ℕ)
  | publish (x : α)
  | receive (k : ℕ)

def step (h : Hub α) : Op α → Hub α
  | .subscribe k => subscribe k h
  | .unsubscribe k => unsubscribe k h
  | .publish x => publish x h
  | .receive k => receive k h

def Op.published : Op α → Option α
  | .publish x => some x
  | _ => none

/-- What the reader of one queue is handed. -/
def delivered (k : ℕ) (h : Hub α) : Op α → Option α
  | .receive j => if j = k then head k h else none
  | _ => none

/-! ## One queue -/

section
variable {n : ℕ} {x : α} {q : List α}

theorem offer_room (h : q.length < n) : offer n x q = q ++ [x] := by
  unfold offer putNowait
  rw [if_neg (by omega)]

theorem offer_full (hn : 0 < n) (h : q.length = n) : offer n x q = q.tail ++ [x] := by
  unfold offer putNowait
  rw [if_pos (by omega)]
  dsimp only
  rw [if_neg (by rw [List.length_tail]; omega), Option.getD_some]

/-- What was sent to a queue of `n`, what its reader has got, and what is in it. All that has been
pushed out is older than the `n` last that were sent. -/
structure Kept (n : ℕ) (sent got q : List α) : Prop where
  recent : ∃ older recent old, sent = older ++ recent ∧ recent.length ≤ n ∧ (older ≠ [] → recent.length = n) ∧
    old.Sublist older ∧ got ++ q = old ++ recent
  bound : q.length ≤ n

theorem Kept.init (n : ℕ) : Kept n ([] : List α) [] [] :=
  ⟨⟨[], [], [], rfl, Nat.zero_le n, fun h => absurd rfl h, .slnil, rfl⟩, Nat.zero_le n⟩

theorem Kept.offer {sent got : List α} (hn : 0 < n) (h : Kept n sent got q) (x : α) :
    Kept n (sent ++ [x]) got (offer n x q) := by
  obtain ⟨⟨older, recent, old, rfl, hlen, hfull, hsub, heq⟩, hbound⟩ := h
  have hcount : got.length + q.length = old.length + recent.length := by
    rw [← List.length_append, heq, List.length_append]
  rcases hbound.lt_or_eq with hroom | hq
  · rw [offer_room hroom]
    refine ⟨?_, by rw [List.length_append, List.length_singleton]; omega⟩
    rcases hlen.lt_or_eq with hshort | hn'
    · -- nothing is older than the last `n` yet
      refine ⟨older, recent ++ [x], old, ?_, ?_, fun hne => absurd (hfull hne) hshort.ne, hsub, ?_⟩
      · rw [List.append_assoc]
      · rw [List.length_append, List.length_singleton]
        exact hshort
      · rw [← List.append_assoc, heq, List.append_assoc]
    · cases recent with
      | nil => exact absurd hn' hn.ne
      | cons y more =>
        refine ⟨older ++ [y], more ++ [x], old ++ [y], by simp, ?_, fun _ => ?_, hsub.append_right [y], ?_⟩
        · simpa using hn'.le
        · simpa using hn'
        · rw [← List.append_assoc, heq]
          simp
  · rw [offer_full hn hq]
    have hrecent : recent.length = n := by
      by_contra hne
      have hold : older = [] := by
        by_contra h
        exact hne (hfull h)
      rw [hold, List.sublist_nil] at hsub
      rw [hsub, List.length_nil] at hcount
      omega
    obtain ⟨hgot, hqr⟩ := List.append_inj heq (by omega)
    subst hgot hqr
    cases q with
    | nil => exact absurd hq hn.ne
    | cons y more =>
      refine ⟨⟨older ++ [y], more ++ [x], got, by simp, ?_, fun _ => ?_, ?_, rfl⟩, ?_⟩
      · simpa using hq.le
      · simpa using hq
      · exact hsub.trans (List.sublist_append_left _ _)
      · simpa using hq.le

theorem Kept.take {sent got : List α} {y : α} (h : Kept n sent got (y :: q)) : Kept n sent (got ++ [y]) q := by
  obtain ⟨⟨older, recent, old, hsent, hlen, hfull, hsub, heq⟩, hbound⟩ := h
  refine ⟨⟨older, recent, old, hsent, hlen, hfull, hsub, ?_⟩, (Nat.le_succ _).trans hbound⟩
  rw [List.append_assoc, List.singleton_append, heq]

/-- In order, and nothing twice. -/
theorem Kept.sublist {sent got : List α} (h : Kept n sent got q) : (got ++ q).Sublist sent := by
  obtain ⟨⟨older, recent, old, hsent, -, -, hsub, heq⟩, -⟩ := h
  rw [heq, hsent]
  exact hsub.append_right recent

/-- What has fewer than `n` behind it is there. -/
theorem Kept.last {sent got : List α} (h : Kept n sent got q) {before after : List α} {y : α}
    (hsent : sent = before ++ y :: after) (hafter : after.length < n) :
    ∃ seen, got ++ q = seen ++ y :: after := by
  obtain ⟨⟨older, recent, old, rfl, -, hfull, -, heq⟩, -⟩ := h
  have hsuffix : y :: after <:+ recent := by
    refine List.suffix_of_suffix_length_le ⟨before, hsent.symm⟩ (List.suffix_append older recent) ?_
    by_cases hold : older = []
    · have hlen := congrArg List.length hsent
      rw [hold, List.nil_append, List.length_append] at hlen
      rw [hlen]
      exact Nat.le_add_left _ _
    · rw [hfull hold, List.length_cons]
      exact hafter
  obtain ⟨pre, rfl⟩ := hsuffix
  exact ⟨old ++ pre, by rw [heq, List.append_assoc]⟩

end

/-! ## Runs -/

section
variable {h : Hub α} {k : ℕ} {n : ℕ}

theorem maxsize_step (h : Hub α) (op : Op α) : (step h op).maxsize = h.maxsize := by
  cases op with
  | receive k =>
    simp only [step, receive]
    split <;> rfl
  | subscribe k => rfl
  | unsubscribe k => rfl
  | publish x => rfl

/-- What one operation does to the queue of a reader that stays. -/
theorem get?_step {q : List α} (hq : h.subscribers.get? k = some q) {op : Op α} (hop : op ≠ .unsubscribe k) :
    (step h op).subscribers.get? k = some (match op with
      | .publish x => offer h.maxsize x q
      | .receive j => if j = k then q.tail else q
      | _ => q) := by
  cases op with
  | subscribe j =>
    simp only [step, subscribe, Dict.get?_setDefault]
    split
    · rename_i hj
      rw [← hj, hq]
      rfl
    · exact hq
  | unsubscribe j =>
    have hj : k ≠ j := fun he => hop (he ▸ rfl)
    simp only [step, unsubscribe, Dict.get?_erase, if_neg hj, hq]
  | publish x =>
    simp only [step, publish, Dict.get?_mapValues, hq]
    rfl
  | receive j =>
    simp only [step, receive]
    by_cases hj : j = k
    · subst hj
      rw [hq]
      simp
    · rw [if_neg hj]
      split
      · exact hq
      · rw [Dict.get?_set_ne _ (Ne.symm hj), hq]

def queue (k : ℕ) (h : Hub α) : List α := (h.subscribers.get? k).getD []

theorem offer_cases (m : ℤ) (x : α) (q : List α) :
    ∃ lost new, lost.Sublist q ∧ new.Sublist [x] ∧ offer m x q = lost ++ new := by
  unfold offer putNowait
  by_cases hfull : 0 < m ∧ m ≤ q.length
  · rw [if_pos hfull]
    dsimp only
    by_cases hstill : 0 < m ∧ m ≤ q.tail.length
    · rw [if_pos hstill]
      exact ⟨q.tail, [], List.tail_sublist q, List.nil_sublist _, (List.append_nil _).symm⟩
    · rw [if_neg hstill]
      exact ⟨q.tail, [x], List.tail_sublist q, List.Sublist.refl _, rfl⟩
  · rw [if_neg hfull]
    exact ⟨q, [x], List.Sublist.refl _, List.Sublist.refl _, rfl⟩

/-- What one operation hands out or leaves in a queue was there, or has just been published. -/
theorem queue_step (k : ℕ) (h : Hub α) (op : Op α) : ∃ lost new, lost.Sublist (queue k h) ∧
    new.Sublist op.published.toList ∧ (delivered k h op).toList ++ queue k (step h op) = lost ++ new := by
  have hsame : ∀ l : List α, l.Sublist (queue k h) → ∃ lost new, lost.Sublist (queue k h) ∧
      new.Sublist op.published.toList ∧ l = lost ++ new :=
    fun l hl => ⟨l, [], hl, List.nil_sublist _, (List.append_nil l).symm⟩
  cases op with
  | subscribe j =>
    apply hsame
    simp only [delivered, step, subscribe, queue, Dict.get?_setDefault, Option.toList_none, List.nil_append]
    split
    · rename_i hj
      rw [← hj, Option.getD_some]
    · exact List.Sublist.refl _
  | unsubscribe j =>
    apply hsame
    simp only [delivered, step, unsubscribe, queue, Dict.get?_erase, Option.toList_none, List.nil_append]
    split
    · exact List.nil_sublist _
    · exact List.Sublist.refl _
  | publish x =>
    simp only [delivered, step, publish, queue, Dict.get?_mapValues, Option.toList_none, List.nil_append,
      Op.published, Option.toList_some]
    cases h.subscribers.get? k with
    | none => exact ⟨[], [], List.Sublist.refl _, List.nil_sublist _, rfl⟩
    | some q => exact offer_cases h.maxsize x q
  | receive j =>
    apply hsame
    simp only [delivered, step, receive, queue, head]
    by_cases hj : j = k
    · subst hj
      cases hq : h.subscribers.get? j with
      | none => simp [hq]
      | some q => cases q <;> simp
    · rw [if_neg hj]
      split
      · exact List.Sublist.refl _
      · rw [Dict.get?_set_ne _ (Ne.symm hj)]
        exact List.Sublist.refl _

theorem length_offer_le {q : List α} (hn : 0 < n) (hq : q.length ≤ n) (x : α) : (offer n x q).length ≤ n := by
  rcases hq.lt_or_eq with hroom | hfull
  · rw [offer_room hroom, List.length_append, List.length_singleton]
    exact hroom
  · rw [offer_full hn hfull, List.length_append, List.length_tail, List.length_singleton]
    omega

/-- No queue outgrows its bound. -/
theorem bounded_run (hn : 0 < n) (hsize : h.maxsize = n) (hq : ∀ k, (queue k h).length ≤ n) (ops : List (Op α))
    (k : ℕ) : (queue k (finish step h ops)).length ≤ n := by
  induction ops generalizing h with
  | nil => exact hq k
  | cons op ops ih =>
    refine ih ((maxsize_step h op).trans hsize) fun j => ?_
    have hj := hq j
    have hquiet : op.published = none → (queue j (step h op)).length ≤ n := by
      intro hp
      obtain ⟨lost, new, hlost, hnew, heq⟩ := queue_step j h op
      rw [hp, Option.toList_none, List.sublist_nil] at hnew
      have hlen := congrArg List.length heq
      rw [hnew, List.append_nil, List.length_append] at hlen
      have hle := hlost.length_le
      omega
    cases op with
    | publish x =>
      unfold queue at hj
      simp only [step, publish, queue, Dict.get?_mapValues, hsize]
      cases hg : h.subscribers.get? j with
      | none => exact Nat.zero_le n
      | some q =>
        rw [hg] at hj
        exact length_offer_le hn hj x
    | subscribe i => exact hquiet rfl
    | unsubscribe i => exact hquiet rfl
    | receive i => exact hquiet rfl

/-- Where all that is published meets `p`, a reader gets of the rest what was in its queue, and no more. -/
theorem rest_run (p : α → Bool) (h : Hub α) (k : ℕ) (ops : List (Op α))
    (hp : ∀ x ∈ ops.filterMap Op.published, p x = true) :
    ((outputs step (delivered k) h ops ++ queue k (finish step h ops)).filter fun x => ! p x).Sublist
      (queue k h) := by
  induction ops generalizing h with
  | nil => exact List.filter_sublist
  | cons op ops ih =>
    rw [filterMap_cons_eq_append] at hp
    have hrest := ih (step h op) fun x hx => hp x (List.mem_append_right _ hx)
    obtain ⟨lost, new, hlost, hnew, heq⟩ := queue_step k h op
    have hnone : new.filter (fun x => ! p x) = [] := by
      rw [List.filter_eq_nil_iff]
      intro x hx
      rw [hp x (List.mem_append_left _ (hnew.subset hx))]
      decide
    rw [outputs, finish_cons, List.append_assoc, List.filter_append]
    have hagain := hrest.filter fun x => ! p x
    rw [List.filter_filter] at hagain
    simp only [Bool.and_self] at hagain
    refine (hagain.append_left _).trans ?_
    rw [← List.filter_append, heq, List.filter_append, hnone, List.append_nil]
    exact List.filter_sublist.trans hlost

end

end Wavr.Fanout
