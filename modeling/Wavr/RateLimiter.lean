import Mathlib.Data.Finset.Card
import Mathlib.Tactic.FieldSimp
import Wavr.Dict
import Wavr.TokenBucket

/-!
# The rate limit of the MCP endpoint

`_RateLimiter`: a token bucket for each key, in a table of bounded size, over any ordered field.
-/

namespace Wavr.McpRateLimit
open TokenBucket

structure RateLimiter (K : Type) where
  capacity : ℤ
  refillPerSec : K
  maxKeys : ℤ
  buckets : Dict String (Bucket K)

variable {K : Type} [Field K] [LinearOrder K]

def newLimiter (capacity : ℤ) (refillPerSec : K) (maxKeys : ℤ) : RateLimiter K :=
  ⟨capacity, refillPerSec, maxKeys, .empty⟩

/-- The oldest key goes where the table is full; none is the StopIteration of an empty one. -/
def makeRoom (l : RateLimiter K) : Option (Dict String (Bucket K)) :=
  if l.maxKeys ≤ l.buckets.keys.length then l.buckets.keys.head?.map l.buckets.erase else some l.buckets

def allow (l : RateLimiter K) (key : String) (now : K) : Option (Bool × RateLimiter K) :=
  match l.buckets.get? key with
  | none => (makeRoom l).map fun buckets => (true, { l with buckets := buckets.set key ⟨l.capacity - 1, now⟩ })
  | some b =>
    let tokens := min (l.capacity : K) (b.tokens + (now - b.last) * l.refillPerSec)
    if tokens < 1 then some (false, { l with buckets := l.buckets.set key ⟨tokens, now⟩ })
    else some (true, { l with buckets := l.buckets.set key ⟨tokens - 1, now⟩ })

/-- A call: the key and the time. -/
abbrev Call (K : Type) := String × K

/-- The answers to a sequence of calls. -/
def run (l : RateLimiter K) : List (Call K) → Option (List Bool × RateLimiter K)
  | [] => some ([], l)
  | c :: calls => (allow l c.1 c.2).bind fun first => (run first.2 calls).map fun rest => (first.1 :: rest.1, rest.2)

/-! ## Statements -/

def callsOf (key : String) (calls : List (Call K)) : List (Call K) := calls.filter fun c => c.1 = key

def answersTo (key : String) (calls : List (Call K)) (answers : List Bool) : List Bool :=
  ((calls.zip answers).filter fun e => e.1.1 = key).map Prod.snd

/-- How often a key is allowed from one time to another. -/
def allowedWithin (key : String) (s e : K) (calls : List (Call K)) (answers : List Bool) : ℕ :=
  (calls.zip answers).countP fun x => x.1.1 = key ∧ s ≤ x.1.2 ∧ x.1.2 ≤ e ∧ x.2 = true

/-- What the limit promises of the answers to these calls. -/
structure Kept (capacity : ℤ) (refillPerSec : K) (maxKeys : ℤ) (calls : List (Call K)) (answers : List Bool) :
    Prop where
  /-- In no window is more allowed than a burst and what flows in. -/
  bounded : ∀ key ∈ calls.map Prod.fst, ∀ s T, 0 ≤ T →
    (allowedWithin key s (s + T) calls answers : K) ≤ capacity + refillPerSec * T
  /-- After a pause in which a bucket fills, a full burst is allowed. -/
  burst : ∀ key front back, calls = front ++ back →
    (∀ c ∈ callsOf key front, ∀ c' ∈ callsOf key back, (capacity : K) ≤ (c'.2 - c.2) * refillPerSec) →
    ∀ i : ℕ, (i : ℤ) < capacity → (answersTo key back (answers.drop front.length))[i]? ≠ some false
  /-- A key gets the answers that it would get alone. -/
  apart : ∀ key, ∃ l, run (newLimiter capacity refillPerSec maxKeys) (callsOf key calls) =
    some (answersTo key calls answers, l)

/-- Calls in the order of time, by no more keys than the table holds. -/
structure Fits (maxKeys : ℤ) (calls : List (Call K)) : Prop where
  sorted : (calls.map Prod.snd).Pairwise (· ≤ ·)
  keys : ((calls.map Prod.fst).toFinset.card : ℤ) ≤ maxKeys

/-! ## One bucket for each key -/

def RateLimiter.rate (l : RateLimiter K) : Rate K := ⟨l.capacity, l.refillPerSec⟩

/-- The table has a place for every key that is there or comes. -/
def Roomy (l : RateLimiter K) (calls : List (Call K)) : Prop :=
  ((l.buckets.keys ++ calls.map Prod.fst).toFinset.card : ℤ) ≤ l.maxKeys

def updated (l : RateLimiter K) (key : String) (now : K) : RateLimiter K :=
  { l with buckets := l.buckets.set key (l.rate.take now (l.buckets.get? key)).2 }

section
variable {l : RateLimiter K} {key : String} {now : K} {calls : List (Call K)}

omit [Field K] [LinearOrder K] in
theorem makeRoom_of_roomy (h : Roomy l ((key, now) :: calls)) (hnew : l.buckets.get? key = none) :
    makeRoom l = some l.buckets := by
  have hkey : key ∉ l.buckets.keys := by
    rw [Dict.mem_keys, hnew]
    exact Bool.false_ne_true
  have hsub : (key :: l.buckets.keys).toFinset ⊆
      (l.buckets.keys ++ ((key, now) :: calls).map Prod.fst).toFinset := by
    intro k hk
    rw [List.mem_toFinset, List.mem_cons] at hk
    rw [List.mem_toFinset, List.mem_append, List.map_cons, List.mem_cons]
    exact hk.elim (fun heq => .inr (.inl heq)) .inl
  have hcard := Finset.card_le_card hsub
  rw [List.toFinset_card_of_nodup (List.nodup_cons.mpr ⟨hkey, l.buckets.nodup⟩), List.length_cons] at hcard
  have hroom : ¬ l.maxKeys ≤ l.buckets.keys.length := by
    rw [Roomy] at h
    omega
  rw [makeRoom, if_neg hroom]

/-- Where there is room, a call is answered by the key's own bucket. -/
theorem allow_eq (h : Roomy l ((key, now) :: calls)) :
    allow l key now = some ((l.rate.take now (l.buckets.get? key)).1, updated l key now) := by
  rw [allow, updated]
  cases hget : l.buckets.get? key with
  | none => rw [makeRoom_of_roomy h hget]; rfl
  | some b =>
    have htokens : l.rate.available b now = min (l.capacity : K) (b.tokens + (now - b.last) * l.refillPerSec) := rfl
    by_cases hone : min (l.capacity : K) (b.tokens + (now - b.last) * l.refillPerSec) < 1
    · simp only [Rate.take, htokens, if_pos hone]
    · simp only [Rate.take, htokens, if_neg hone]

theorem roomy_updated (h : Roomy l ((key, now) :: calls)) : Roomy (updated l key now) calls := by
  refine le_trans (Nat.cast_le.mpr (Finset.card_le_card fun k hk => ?_)) h
  rw [List.mem_toFinset, List.mem_append] at hk
  rw [List.mem_toFinset, List.mem_append, List.map_cons, List.mem_cons]
  rcases hk with hk | hk
  · rw [Dict.mem_keys, updated, Dict.get?_set] at hk
    by_cases heq : k = key
    · exact .inr (.inl heq)
    · rw [if_neg heq] at hk
      exact .inl (Dict.mem_keys.mpr hk)
  · exact .inr (.inr hk)

omit [Field K] [LinearOrder K] in
theorem callsOf_cons (c : Call K) :
    callsOf key (c :: calls) = if c.1 = key then c :: callsOf key calls else callsOf key calls := by
  simp only [callsOf, List.filter_cons, decide_eq_true_eq]

omit [Field K] [LinearOrder K] in
theorem answersTo_cons (c : Call K) (ok : Bool) (answers : List Bool) :
    answersTo key (c :: calls) (ok :: answers) =
      if c.1 = key then ok :: answersTo key calls answers else answersTo key calls answers := by
  simp only [answersTo, List.zip_cons_cons, List.filter_cons, decide_eq_true_eq]
  split <;> rfl

/-- Each key is answered by its own bucket. -/
theorem run_eq (h : Roomy l calls) :
    ∃ answers l', run l calls = some (answers, l') ∧ answers.length = calls.length ∧
      ∀ key, answersTo key calls answers =
        l.rate.answers (l.buckets.get? key) ((callsOf key calls).map Prod.snd) := by
  induction calls generalizing l with
  | nil => exact ⟨[], l, rfl, rfl, fun _ => rfl⟩
  | cons c calls ih =>
    obtain ⟨k, now⟩ := c
    obtain ⟨answers, l', hrun, hlen, hanswers⟩ := ih (roomy_updated h)
    refine ⟨(l.rate.take now (l.buckets.get? k)).1 :: answers, l', ?_, ?_, fun key => ?_⟩
    · rw [run, allow_eq h, Option.bind_some, hrun]
      rfl
    · rw [List.length_cons, hlen, List.length_cons]
    · have hget : (updated l k now).buckets.get? key =
          if key = k then some (l.rate.take now (l.buckets.get? k)).2 else l.buckets.get? key := Dict.get?_set ..
      rw [answersTo_cons, callsOf_cons, hanswers key, hget]
      by_cases hkey : k = key
      · subst hkey
        rw [if_pos rfl, if_pos rfl, if_pos rfl]
        rfl
      · rw [if_neg hkey, if_neg hkey, if_neg (Ne.symm hkey)]
        rfl

omit [Field K] [LinearOrder K] in
theorem length_answersTo {answers : List Bool} (h : answers.length = calls.length) :
    (answersTo key calls answers).length = (callsOf key calls).length := by
  induction calls generalizing answers with
  | nil => rfl
  | cons c calls ih =>
    obtain ⟨ok, answers, rfl⟩ : ∃ ok rest, answers = ok :: rest := List.exists_cons_of_length_eq_add_one h
    have hrest := ih (Nat.succ.inj h)
    rw [callsOf_cons, answersTo_cons]
    split
    · rw [List.length_cons, hrest, List.length_cons]
    · exact hrest

omit [Field K] [LinearOrder K] in
theorem answersTo_callsOf {answers : List Bool} (h : answers.length = (callsOf key calls).length) :
    answersTo key (callsOf key calls) answers = answers := by
  have hall : ∀ x ∈ (callsOf key calls).zip answers, decide (x.1.1 = key) = true := fun x hx =>
    (List.mem_filter.mp (List.of_mem_zip hx).1).2
  rw [answersTo, List.filter_eq_self.mpr hall]
  exact List.map_snd_zip h.le

omit [Field K] in
/-- What is counted for a key is counted among its own calls. -/
theorem allowedWithin_eq (s e : K) {answers : List Bool} (h : answers.length = calls.length) :
    allowedWithin key s e calls answers =
      (((callsOf key calls).map Prod.snd).zip (answersTo key calls answers)).countP
        fun x => s ≤ x.1 ∧ x.1 ≤ e ∧ x.2 = true := by
  induction calls generalizing answers with
  | nil => rfl
  | cons c calls ih =>
    obtain ⟨ok, answers, rfl⟩ : ∃ ok rest, answers = ok :: rest := List.exists_cons_of_length_eq_add_one h
    have hrest := ih (Nat.succ.inj h)
    rw [callsOf_cons, answersTo_cons, allowedWithin, List.zip_cons_cons, List.countP_cons, ← allowedWithin, hrest]
    by_cases hkey : c.1 = key
    · simp [hkey, List.countP_cons]
    · simp [hkey]

omit [Field K] [LinearOrder K] in
theorem answersTo_append (front back : List (Call K)) {answers : List Bool} (h : front.length ≤ answers.length) :
    answersTo key (front ++ back) answers =
      answersTo key front (answers.take front.length) ++ answersTo key back (answers.drop front.length) := by
  have hlen : front.length = (answers.take front.length).length := (List.length_take_of_le h).symm
  have hzip : (front ++ back).zip answers =
      front.zip (answers.take front.length) ++ back.zip (answers.drop front.length) := by
    rw [← List.zip_append hlen, List.take_append_drop]
  rw [answersTo, hzip, List.filter_append, List.map_append]
  rfl

end

/-! ## The limit -/

section
variable [IsStrictOrderedRing K] {capacity maxKeys : ℤ} {refillPerSec : K} {calls : List (Call K)}

omit [Field K] [IsStrictOrderedRing K] in
theorem roomy_newLimiter (h : Fits maxKeys calls) : Roomy (newLimiter capacity refillPerSec maxKeys) calls := h.keys

omit [Field K] [IsStrictOrderedRing K] in
theorem sorted_callsOf (key : String) (h : (calls.map Prod.snd).Pairwise (· ≤ ·)) :
    ((callsOf key calls).map Prod.snd).Pairwise (· ≤ ·) :=
  h.sublist (List.filter_sublist.map Prod.snd)

theorem kept_of_run (hcap : 1 ≤ capacity) (hrefill : 0 ≤ refillPerSec) (h : Fits maxKeys calls) :
    ∃ answers l, run (newLimiter capacity refillPerSec maxKeys) calls = some (answers, l) ∧
      Kept capacity refillPerSec maxKeys calls answers := by
  have hcap' : (1 : K) ≤ capacity := by exact_mod_cast hcap
  obtain ⟨answers, l, hrun, hlen, hanswers⟩ := run_eq (roomy_newLimiter h)
  -- no key is evicted, so each key is answered as if its bucket were alone
  have hown : ∀ key, answersTo key calls answers =
      (Rate.mk (capacity : K) refillPerSec).answers none ((callsOf key calls).map Prod.snd) := hanswers
  refine ⟨answers, l, hrun, ⟨fun key _ s T hT => ?_, fun key front back hsplit hpause i hi => ?_, fun key => ?_⟩⟩
  · have hbound := countP_within_le (r := ⟨(capacity : K), refillPerSec⟩) hcap' hrefill
      (le_add_of_nonneg_right hT : s ≤ s + T) (sorted_callsOf key h.sorted)
    rw [allowedWithin_eq _ _ hlen, hown]
    rw [add_sub_cancel_left, mul_comm] at hbound
    exact hbound
  · subst hsplit
    have hsorted := sorted_callsOf key h.sorted
    have happend : callsOf key (front ++ back) = callsOf key front ++ callsOf key back := List.filter_append ..
    have hle : front.length ≤ answers.length := by
      rw [hlen, List.length_append]
      exact Nat.le_add_right _ _
    rw [happend, List.map_append] at hsorted
    -- the pause splits the calls of the key: behind it the bucket is full again
    obtain ⟨hfront, hback, hacross⟩ := List.pairwise_append.mp hsorted
    have hsplit := hown key
    rw [answersTo_append front back hle, happend, List.map_append, answers_append] at hsplit
    have hfrontLen : (answersTo key front (answers.take front.length)).length =
        ((Rate.mk (capacity : K) refillPerSec).answers none ((callsOf key front).map Prod.snd)).length := by
      rw [length_answersTo (List.length_take_of_le hle), length_answers, List.length_map]
    rw [(List.append_inj hsplit hfrontLen).2]
    refine answers_of_rest hcap' hrefill
      (fun t ht => ready_after hcap' hrefill hfront fun t' ht' => hacross t' ht' t ht) (fun b hb t ht => ?_) hback i ?_
    · obtain ⟨c, hc, hlast⟩ := List.mem_map.mp (last_mem_of_after hb)
      obtain ⟨c', hc', rfl⟩ := List.mem_map.mp ht
      rw [← hlast]
      exact hpause c hc c' hc'
    · have hle' : ((i : ℤ) : K) + 1 ≤ capacity := by exact_mod_cast Int.add_one_le_iff.mpr hi
      simpa using hle'
  · have hfits : Fits maxKeys (callsOf key calls) := by
      refine ⟨sorted_callsOf key h.sorted, le_trans (Nat.cast_le.mpr (Finset.card_le_card fun k hk => ?_)) h.keys⟩
      obtain ⟨c, hc, rfl⟩ := List.mem_map.mp (List.mem_toFinset.mp hk)
      exact List.mem_toFinset.mpr (List.mem_map_of_mem (List.mem_of_mem_filter hc))
    obtain ⟨alone, l', hrun', hlen', halone⟩ := run_eq (roomy_newLimiter hfits)
    have hself : callsOf key (callsOf key calls) = callsOf key calls := by
      rw [callsOf, callsOf, List.filter_filter]
      simp only [Bool.and_self]
    refine ⟨l', ?_⟩
    rw [hrun', hown key, ← answersTo_callsOf hlen', halone key, hself]
    rfl

/-- A single call shows what the bucket must be like. -/
theorem one_le_of_kept (hkeys : 1 ≤ maxKeys)
    (h : ∀ calls, Fits maxKeys calls → ∃ answers l,
      run (newLimiter capacity refillPerSec maxKeys) calls = some (answers, l) ∧
        Kept capacity refillPerSec maxKeys calls answers) : 1 ≤ capacity ∧ 0 ≤ refillPerSec := by
  have hfits : Fits maxKeys [("", (0 : K))] := ⟨List.pairwise_singleton _ _, by simpa using hkeys⟩
  obtain ⟨answers, l, hrun, hkept⟩ := h _ hfits
  rw [run, allow_eq (roomy_newLimiter hfits)] at hrun
  obtain rfl : [true] = answers := (Prod.ext_iff.mp (Option.some.inj hrun)).1
  have hone : ∀ T : K, 0 ≤ T → (1 : K) ≤ capacity + refillPerSec * T := by
    intro T hT
    have hbound := hkept.bounded "" (by simp) 0 T hT
    have hcount : allowedWithin "" 0 (0 + T) [("", (0 : K))] [true] = 1 := by simp [allowedWithin, hT]
    rw [hcount, Nat.cast_one] at hbound
    exact hbound
  have hcap : 1 ≤ capacity := by
    have hzero := hone 0 le_rfl
    rw [mul_zero, add_zero] at hzero
    exact_mod_cast hzero
  refine ⟨hcap, ?_⟩
  by_contra hneg
  have hleak : 0 < -refillPerSec := neg_pos.mpr (not_le.mp hneg)
  have hempty := hone (capacity / -refillPerSec) (div_nonneg (by exact_mod_cast (zero_le_one.trans hcap)) hleak.le)
  have hall : refillPerSec * (capacity / -refillPerSec) = -(capacity : K) := by
    have hne : refillPerSec ≠ 0 := neg_ne_zero.mp hleak.ne'
    field_simp
  rw [hall, add_neg_cancel] at hempty
  exact absurd hempty (not_le.mpr zero_lt_one)

/-- The limit is kept exactly by a bucket that holds a token and does not leak; a table without a place takes
no call. -/
theorem limit_kept_iff (capacity : ℤ) (refillPerSec : K) (maxKeys : ℤ) :
    (∀ calls, Fits maxKeys calls → ∃ answers l, run (newLimiter capacity refillPerSec maxKeys) calls =
      some (answers, l) ∧
        Kept capacity refillPerSec maxKeys calls answers) ↔
      maxKeys ≤ 0 ∨ 1 ≤ capacity ∧ 0 ≤ refillPerSec := by
  constructor
  · intro h
    by_cases hkeys : maxKeys ≤ 0
    · exact .inl hkeys
    · exact .inr (one_le_of_kept (not_le.mp hkeys) h)
  · intro h calls hfits
    rcases h with hkeys | ⟨hcap, hrefill⟩
    · cases calls with
      | nil =>
        refine ⟨[], _, rfl, ⟨by simp, fun key front back hsplit _ i _ => ?_, fun key => ⟨_, rfl⟩⟩⟩
        obtain ⟨rfl, rfl⟩ := List.nil_eq_append_iff.mp hsplit
        simp [answersTo]
      | cons c calls =>
        have hpos : 0 < (((c :: calls).map Prod.fst).toFinset).card :=
          Finset.card_pos.mpr ⟨c.1, List.mem_toFinset.mpr (by simp)⟩
        have := hfits.keys
        omega
    · exact kept_of_run hcap hrefill hfits

/-- One call at the limiter that is built unless something else is asked for. -/
theorem default_limit_kept : ∃ answers l, run (newLimiter 120 (4 : ℚ) 4096) [("agent", 0)] = some (answers, l) ∧
    Kept 120 (4 : ℚ) 4096 [("agent", 0)] answers :=
  (limit_kept_iff (K := ℚ) 120 4 4096).mpr (.inr ⟨by norm_num, by norm_num⟩) [("agent", 0)] ⟨by simp, by decide⟩

/-- A limit of no call at all allows the first one. -/
theorem first_call_of_none : ¬ ∀ calls : List (Call ℚ), Fits 4096 calls →
    ∃ answers l, run (newLimiter 0 0 4096) calls = some (answers, l) ∧ Kept 0 0 4096 calls answers :=
  fun h => absurd (one_le_of_kept (by decide) h).1 (by decide)

end

end Wavr.McpRateLimit
