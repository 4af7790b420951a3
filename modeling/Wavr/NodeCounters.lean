import Mathlib.Data.List.Count
import Wavr.NodeLifecycle

/-!
# Counters and tokens of nodes

What `record_seq` accepts, how the press count moves, and how often a token is handed out.
-/

namespace Wavr.Nodes
open Run Text

variable (pf : Platform)

/-- The seq that a call records for the node, if it is accepted. -/
def acceptedSeq (n : String) (s : NodeStore) : Op → Option ℤ
  | .recordSeq nodeId seq => if nodeId = n ∧ (recordSeq nodeId seq s).1 then some seq else none
  | _ => none

/-- The token that an approval mints. -/
def minted (s : NodeStore) : Op → Option String
  | .approve now token nodeId name sensorType room transport =>
    ((approve pf now token nodeId name sensorType room transport s).1.toOption).join
  | _ => none

/-- The token that a claim hands out. -/
def handedOut (s : NodeStore) : Op → Option String
  | .claim now requestId =>
    match (claim now requestId s).1 with
    | some (.approved, _, token) => some token
    | _ => none
  | _ => none

/-! ## Telemetry -/

section
variable {pf} {s : NodeStore} {n : String} {r : Node} {op : Op}

theorem acceptedSeq_eq_some {seq : ℤ} :
    acceptedSeq n s op = some seq ↔
      op = .recordSeq n seq ∧ ∃ r, s.nodes.get? n = some r ∧ r.lastSeq < seq := by
  constructor
  · intro h
    cases op with
    | recordSeq nodeId seq' =>
      rw [acceptedSeq, Option.ite_none_right_eq_some] at h
      obtain ⟨⟨rfl, hacc⟩, hseq⟩ := h
      cases hseq
      refine ⟨rfl, ?_⟩
      unfold recordSeq at hacc
      split at hacc
      · cases hacc
      · rename_i row hrow
        split at hacc
        · cases hacc
        · rename_i hlt
          exact ⟨row, hrow, not_le.mp hlt⟩
    | _ => cases h
  · rintro ⟨rfl, r, hr, hlt⟩
    simp [acceptedSeq, recordSeq, hr, not_le.mpr hlt]

/-- The last seq stays, unless one that is newer is accepted. -/
theorem RowWrite.lastSeq {r' : Node} (h : RowWrite s op n r r') (hd : ¬ Draws op n) :
    r'.lastSeq = r.lastSeq ∨ (r.lastSeq < r'.lastSeq ∧ op = .recordSeq n r'.lastSeq) := by
  cases h with
  | counted seq hop hlt h => subst h; exact .inr ⟨hlt, hop⟩
  | redrawn hdraw => exact absurd hdraw hd
  | kept h => subst h; exact .inl rfl
  | seen ts h => subst h; exact .inl rfl
  | approved hash name sensorType room transport hpend h => subst h; exact .inl rfl
  | disabled hlive h => subst h; exact .inl rfl
  | pressed now p hop hlt h hret => subst h; exact .inl rfl
  | revoked h => subst h; exact .inl rfl
  | collected h => subst h; exact .inl rfl
  | requeued hq h => subst h; exact .inl rfl

theorem get?_recordSeq {seq : ℤ} (hr : s.nodes.get? n = some r) (hlt : r.lastSeq < seq) :
    (recordSeq n seq s).2.nodes.get? n = some { r with lastSeq := seq } := by
  simp [recordSeq, hr, not_le.mpr hlt]

variable {ops : List Op}

/-- What is accepted is newer than all the row has seen. -/
theorem lastSeq_lt_accepted (hd : ∀ op ∈ ops, ¬ Draws op n) {seq : ℤ}
    (h : seq ∈ outputs (step pf) (acceptedSeq n) s ops) :
    ∃ r, s.nodes.get? n = some r ∧ r.lastSeq < seq := by
  induction ops generalizing s with
  | nil => cases h
  | cons op ops ih =>
    obtain ⟨hop, hops⟩ := List.forall_mem_cons.mp hd
    rcases List.mem_append.mp h with hhead | htail
    · rw [Option.mem_toList, acceptedSeq_eq_some] at hhead
      exact hhead.2
    · obtain ⟨r', hr', hlt⟩ := ih hops htail
      cases hr : s.nodes.get? n with
      | none =>
        rw [get?_step_none pf hr hop] at hr'
        cases hr'
      | some r =>
        refine ⟨r, rfl, ?_⟩
        rcases rowWritten pf s op hr with ⟨hnone, -⟩ | ⟨q, hq, hwrite⟩
        · rw [hnone] at hr'
          cases hr'
        · rw [hq] at hr'
          cases hr'
          rcases hwrite.lastSeq hop with heq | ⟨hgt, -⟩
          · rw [← heq]
            exact hlt
          · exact hgt.trans hlt

theorem accepted_increasing (hd : ∀ op ∈ ops, ¬ Draws op n) :
    (outputs (step pf) (acceptedSeq n) s ops).Pairwise (· < ·) := by
  induction ops generalizing s with
  | nil => exact List.Pairwise.nil
  | cons op ops ih =>
    obtain ⟨hop, hops⟩ := List.forall_mem_cons.mp hd
    refine List.pairwise_append.mpr ⟨?_, ih hops, fun seq hseq seq' hseq' => ?_⟩
    · cases acceptedSeq n s op with
      | none => exact List.Pairwise.nil
      | some seq => exact List.pairwise_singleton _ seq
    · rw [Option.mem_toList, acceptedSeq_eq_some] at hseq
      obtain ⟨rfl, r, hr, hlt⟩ := hseq
      obtain ⟨r', hr', hlt'⟩ := lastSeq_lt_accepted hops hseq'
      have hnew : (step pf s (.recordSeq n seq)).nodes.get? n = some { r with lastSeq := seq } :=
        get?_recordSeq hr hlt
      rw [hnew] at hr'
      cases hr'
      exact hlt'

end

/-! ## Tokens -/

/-- How many pick-ups the token is held for. -/
def held (token : String) (s : NodeStore) : ℕ := s.issued.values.countP fun e => e.1 = token

section
variable {pf} {s : NodeStore}

theorem held_approve (token : String) (now : ℚ) (token' nodeId name sensorType room transport : String) :
    held token (approve pf now token' nodeId name sensorType room transport s).2 ≤ held token s +
      (minted pf s (.approve now token' nodeId name sensorType room transport)).toList.count token := by
  unfold minted approve
  dsimp only
  split
  · exact Nat.le_add_right _ _
  · split
    · exact Nat.le_add_right _ _
    · split
      · exact Nat.le_add_right _ _
      · dsimp only
        split
        · rename_i rid _
          split
          · have hset := Dict.countP_values_set_le s.issued rid (token', now + CLAIM_PICKUP_SECONDS)
              fun e => decide (e.1 = token)
            refine hset.trans (Nat.add_le_add_left (le_of_eq ?_) _)
            by_cases ht : token' = token <;> simp [ht, Except.toOption]
          · exact Nat.le_add_right _ _
        · exact Nat.le_add_right _ _

/-- What a claim does to the held tokens. -/
theorem claim_cases (now : ℚ) (requestId : String) :
    (handedOut s (.claim now requestId) = none ∧
      ((claim now requestId s).2.issued = s.issued ∨
        (claim now requestId s).2.issued = s.issued.erase requestId)) ∨
    ∃ entry, s.issued.get? requestId = some entry ∧
      handedOut s (.claim now requestId) = some entry.1 ∧
      (claim now requestId s).2.issued = s.issued.erase requestId := by
  unfold handedOut
  dsimp only
  by_cases hid : truthy requestId = true
  · cases hrow : rowOfRequest requestId s with
    | none =>
      have hclaim : claim now requestId s = (none, s) := by simp [claim, hid, hrow]
      rw [hclaim]
      exact .inl ⟨rfl, .inl rfl⟩
    | some found =>
      by_cases hpend : found.2.state = .pending
      · have hclaim : claim now requestId s = (some (.pending, found.1, ""), s) := by
          simp [claim, hid, hrow, hpend]
        rw [hclaim]
        exact .inl ⟨rfl, .inl rfl⟩
      · cases htok : heldToken now requestId s with
        | none => exact .inl (by simp [claim, hid, hrow, hpend, htok, updateRequest])
        | some token =>
          obtain ⟨entry, hentry, hlive⟩ := Option.bind_eq_some_iff.mp htok
          rw [Option.ite_none_right_eq_some] at hlive
          obtain ⟨-, hlive⟩ := hlive
          cases hlive
          exact .inr ⟨entry, hentry, by simp [claim, hid, hrow, hpend, htok, updateRequest]⟩
  · have hclaim : claim now requestId s = (none, s) := by simp [claim, hid]
    rw [hclaim]
    exact .inl ⟨rfl, .inl rfl⟩

/-- A claim that hands a token out no longer holds it. -/
theorem held_claim (token : String) (now : ℚ) (requestId : String) :
    (handedOut s (.claim now requestId)).toList.count token + held token (claim now requestId s).2 ≤
      held token s := by
  unfold held
  rcases claim_cases (s := s) now requestId with ⟨hout, hsame | herase⟩ | ⟨entry, hentry, hout, herase⟩
  · rw [hout, hsame]
    exact le_of_eq (zero_add _)
  · rw [hout, herase]
    exact (le_of_eq (zero_add _)).trans (Dict.values_erase_sublist s.issued requestId).countP_le
  · rw [hout, herase, ← Dict.countP_values_erase hentry, add_comm]
    refine Nat.add_le_add_left (le_of_eq ?_) _
    by_cases ht : entry.1 = token <;> simp [ht]

/-- Every other call leaves the held tokens alone. -/
theorem issued_add (nodeId token ts name sensorType room transport cert : String) :
    (add pf nodeId token ts name sensorType room transport cert s).2.issued = s.issued := by
  unfold add
  dsimp only
  split <;> rfl

theorem issued_requestJoin (now : ℚ) (nodeId requestId ts nameHint sensorHint cert : String) :
    (requestJoin pf now nodeId requestId ts nameHint sensorHint cert s).2.issued = s.issued := by
  unfold requestJoin
  dsimp only
  split <;> rfl

theorem issued_getByToken (ts token : String) : (getByToken pf ts token s).2.issued = s.issued := by
  unfold getByToken
  split
  · rfl
  · split
    · rfl
    · split <;> rfl

theorem issued_recordSeq (nodeId : String) (seq : ℤ) : (recordSeq nodeId seq s).2.issued = s.issued := by
  unfold recordSeq
  split
  · rfl
  · split <;> rfl

theorem issued_reactivate (now : ℚ) (nodeId : String) (p : ℤ) :
    (reactivate now nodeId p s).2.issued = s.issued := by
  unfold reactivate
  dsimp only
  split
  · rfl
  · split
    · rfl
    · split <;> rfl

theorem held_step (token : String) (op : Op) :
    (handedOut s op).toList.count token + held token (step pf s op) ≤
      held token s + (minted pf s op).toList.count token := by
  have hframe : ∀ s', s'.issued = s.issued → [].count token + held token s' ≤ held token s + 0 := by
    intro s' h
    simp [held, h]
  cases op with
  | approve now token' nodeId name sensorType room transport =>
    exact (le_of_eq (zero_add _)).trans (held_approve token now token' nodeId name sensorType room transport)
  | claim now requestId => exact held_claim token now requestId
  | restart => exact (le_of_eq (zero_add _)).trans (Nat.zero_le _)
  | add => exact hframe _ (issued_add ..)
  | requestJoin => exact hframe _ (issued_requestJoin ..)
  | getByToken => exact hframe _ (issued_getByToken ..)
  | recordSeq => exact hframe _ (issued_recordSeq ..)
  | reactivate => exact hframe _ (issued_reactivate ..)
  | deny => exact hframe _ rfl
  | disable => exact hframe _ rfl
  | revoke => exact hframe _ rfl

/-- A token is handed out at most as often as it was held or minted. -/
theorem count_handedOut_le (token : String) (ops : List Op) :
    (outputs (step pf) handedOut s ops).count token ≤
      held token s + (outputs (step pf) (minted pf) s ops).count token := by
  induction ops generalizing s with
  | nil => exact Nat.zero_le _
  | cons op ops ih =>
    have hstep : (handedOut s op).toList.count token + held token (step pf s op) ≤
        held token s + (minted pf s op).toList.count token := held_step token op
    have hrest := ih (s := step pf s op)
    rw [outputs, outputs, List.count_append, List.count_append]
    omega

end

/-- While the id of a node is not drawn again, the sequence numbers it gets accepted increase
and its press count never falls; and no token is handed out more often than it was minted. -/
theorem anti_replay (pre post : List Op) (n : String) (hd : ∀ op ∈ post, ¬ Draws op n) :
    (outputs (step pf) (acceptedSeq n) (finish (step pf) emptyStore pre) post).Pairwise (· < ·) ∧
      (∀ mid rest, post = mid ++ rest → ∀ r r',
        (finish (step pf) emptyStore (pre ++ mid)).nodes.get? n = some r →
        (finish (step pf) emptyStore (pre ++ post)).nodes.get? n = some r' →
        r.pressCount ≤ r'.pressCount) ∧
      ∀ token, (outputs (step pf) handedOut emptyStore (pre ++ post)).count token ≤
        (outputs (step pf) (minted pf) emptyStore (pre ++ post)).count token := by
  refine ⟨accepted_increasing hd, ?_, fun token => ?_⟩
  · rintro mid rest rfl r r' hr hr'
    rw [← List.append_assoc, finish_append] at hr'
    exact pressCount_le_finish pf (fun op hop => hd op (List.mem_append_right mid hop)) hr hr'
  · exact (count_handedOut_le token (pre ++ post)).trans (le_of_eq (zero_add _))

/-- The board collects its token, reports, and is put back in the queue by a poll with an old
request. -/
theorem anti_replay_sample :
    (outputs (step samplePlatform) (acceptedSeq "n1")
        (finish (step samplePlatform) emptyStore sampleJoin)
        [.claim 30 "r1", .recordSeq "n1" 4, .recordSeq "n1" 4, .recordSeq "n1" 9]).Pairwise (· < ·) ∧
      (∀ mid rest, [Op.claim 30 "r1", .recordSeq "n1" 4, .recordSeq "n1" 4, .recordSeq "n1" 9] =
          mid ++ rest → ∀ r r',
        (finish (step samplePlatform) emptyStore (sampleJoin ++ mid)).nodes.get? "n1" = some r →
        (finish (step samplePlatform) emptyStore (sampleJoin ++
          [.claim 30 "r1", .recordSeq "n1" 4, .recordSeq "n1" 4, .recordSeq "n1" 9])).nodes.get? "n1" =
            some r' →
        r.pressCount ≤ r'.pressCount) ∧
      ∀ token, (outputs (step samplePlatform) handedOut emptyStore (sampleJoin ++
          [.claim 30 "r1", .recordSeq "n1" 4, .recordSeq "n1" 4, .recordSeq "n1" 9])).count token ≤
        (outputs (step samplePlatform) (minted samplePlatform) emptyStore (sampleJoin ++
          [.claim 30 "r1", .recordSeq "n1" 4, .recordSeq "n1" 4, .recordSeq "n1" 9])).count token := by
  refine anti_replay samplePlatform sampleJoin
    [.claim 30 "r1", .recordSeq "n1" 4, .recordSeq "n1" 4, .recordSeq "n1" 9] "n1" ?_
  rintro op hop (⟨_, _, _, _, _, _, _, rfl⟩ | ⟨_, _, _, _, _, _, rfl⟩) <;> simp at hop

end Wavr.Nodes
