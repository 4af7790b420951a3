import Wavr.Nodes

/-!
# The life of one node

What a call can do to the row of one node, and what follows for the kill switch: which
runs keep a revoked node revoked, and what lifts a local disable.
-/

namespace Wavr.Nodes
open Run

variable (pf : Platform)

/-- `claim` takes the branch for a lost token, and the row of `n` is among those it puts
back in the queue. -/
def Requeues (s : NodeStore) (op : Op) (n : String) : Prop :=
  ∃ now requestId found row, op = .claim now requestId ∧ Text.truthy requestId = true ∧
    rowOfRequest requestId s = some found ∧ found.2.state ≠ .pending ∧
    heldToken now requestId s = none ∧ s.nodes.get? n = some row ∧
    row.requestId = some requestId

/-- The call draws `n` as the id of a new row. -/
def Draws (op : Op) (n : String) : Prop :=
  (∃ token ts name sensorType room transport cert,
    op = .add n token ts name sensorType room transport cert) ∨
  ∃ now rid ts nameHint sensorHint cert, op = .requestJoin now n rid ts nameHint sensorHint cert

/-- Everything one call can do to a row that is there before and after it. -/
inductive RowMove (s : NodeStore) (op : Op) (n : String) (r r' : Node) : Prop
  | kept (hs : r'.state = r.state) (hp : r'.pressCount = r.pressCount)
  | approved (h : r.state = .pending) (hs : r'.state = .active)
      (hp : r'.pressCount = r.pressCount)
  | disabled (h : r.state ≠ .revoked) (hs : r'.state = .disabled)
      (hp : r'.pressCount = r.pressCount)
  | pressed (now : ℚ) (p : ℤ) (hop : op = .reactivate now n p) (hlt : r.pressCount < p)
      (hs : r'.state = if r.state = .disabled then .active else r.state)
      (hp : r'.pressCount = p) (hret : (reactivate now n p s).1 = .ok (some r'.state))
  | revoked (hs : r'.state = .revoked) (hp : r'.pressCount = r.pressCount)
  | requeued (hq : Requeues s op n) (hs : r'.state = .pending)
      (hp : r'.pressCount = r.pressCount)
  /-- A pending row is pruned and its id drawn again for a new pending row. -/
  | redrawn (hd : Draws op n) (h : r.state = .pending) (hs : r'.state = .pending)

/-- A row goes away only while it is pending; otherwise it moves. -/
def RowStep (s : NodeStore) (op : Op) (n : String) (r : Node) (after : Option Node) : Prop :=
  (after = none ∧ r.state = .pending) ∨ ∃ r', after = some r' ∧ RowMove s op n r r'

/-- A row as a join request writes it. -/
structure Asking (r : Node) : Prop where
  state : r.state = .pending
  pressCount : r.pressCount = 0
  lastSeq : r.lastSeq = 0
  cap : r.confidenceCap = 1

/-- What one call writes into a row, column by column. -/
inductive RowWrite (s : NodeStore) (op : Op) (n : String) (r r' : Node) : Prop
  | kept (h : r' = r)
  | seen (ts : String) (h : r' = { r with lastSeenTs := some ts })
  | counted (seq : ℤ) (hop : op = .recordSeq n seq) (hlt : r.lastSeq < seq)
      (h : r' = { r with lastSeq := seq })
  | approved (hash name sensorType room transport : String) (hpend : r.state = .pending)
      (h : r' = { r with
        name, sensorType, room, transport
        modality := (SENSOR_MODALITY.lookup sensorType).getD ""
        tokenHash := some hash
        confidenceCap := (TRANSPORT_CAP.lookup transport).getD (7 / 10)
        state := .active })
  | disabled (hlive : r.state ≠ .revoked) (h : r' = { r with state := .disabled })
  | pressed (now : ℚ) (p : ℤ) (hop : op = .reactivate now n p) (hlt : r.pressCount < p)
      (h : r' = { r with
        pressCount := p
        state := if r.state = .disabled then .active else r.state })
      (hret : (reactivate now n p s).1 = .ok (some r'.state))
  | revoked (h : r' = { r with state := .revoked, tokenHash := none })
  | collected (h : r' = { r with requestId := none })
  | requeued (hq : Requeues s op n) (h : r' = { r with state := .pending, tokenHash := none })
  | redrawn (hd : Draws op n) (hpend : r.state = .pending) (h : Asking r')

/-- A row goes away only while it is pending; otherwise it is written. -/
def RowWritten (s : NodeStore) (op : Op) (n : String) (r : Node) (after : Option Node) : Prop :=
  (after = none ∧ r.state = .pending) ∨ ∃ r', after = some r' ∧ RowWrite s op n r r'

theorem RowWritten.same {s : NodeStore} {op : Op} {n : String} {r : Node} {after : Option Node}
    (h : after = some r) : RowWritten s op n r after :=
  .inr ⟨r, h, .kept rfl⟩

theorem RowWrite.move {s : NodeStore} {op : Op} {n : String} {r r' : Node}
    (h : RowWrite s op n r r') : RowMove s op n r r' := by
  cases h with
  | kept h => subst h; exact .kept rfl rfl
  | seen ts h => subst h; exact .kept rfl rfl
  | counted seq hop hlt h => subst h; exact .kept rfl rfl
  | approved hash name sensorType room transport hpend h => subst h; exact .approved hpend rfl rfl
  | disabled hlive h => subst h; exact .disabled hlive rfl rfl
  | pressed now p hop hlt h hret => subst h; exact .pressed now p hop hlt rfl rfl hret
  | revoked h => subst h; exact .revoked rfl rfl
  | collected h => subst h; exact .kept rfl rfl
  | requeued hq h => subst h; exact .requeued hq rfl rfl
  | redrawn hd hpend h => exact .redrawn hd hpend h.state

/-! ## What each call does to a row -/

section
variable {s : NodeStore} {n : String} {r : Node}

theorem get?_dropStale (now : ℚ) {nodes : Dict String Node} (hr : nodes.get? n = some r) :
    (dropStale pf now nodes).get? n = some r ∨
      ((dropStale pf now nodes).get? n = none ∧ r.state = .pending) := by
  simp only [dropStale, Dict.get?_filter, hr, Option.filter]
  grind

/-- Only rows selected as pending are among the oldest. -/
theorem get?_dropOldest {nodes : Dict String Node} (hr : nodes.get? n = some r) :
    (dropOldest nodes).get? n = some r ∨
      ((dropOldest nodes).get? n = none ∧ r.state = .pending) := by
  unfold dropOldest
  dsimp only
  split
  · rw [Dict.get?_filter, hr]
    by_cases hmem : n ∈ ((oldestFirst (pendingRows nodes)).take
        ((pendingRows nodes).length - MAX_PENDING_NODES + 1)).map Prod.fst
    · right
      obtain ⟨e, he, hen⟩ := List.mem_map.mp hmem
      have he' := List.mem_mergeSort.mp (List.mem_of_mem_take he)
      obtain ⟨hin, hstate⟩ := List.mem_filter.mp he'
      have hget : nodes.get? n = some e.2 := hen ▸ Dict.mem_entries.mp hin
      rw [hr] at hget
      cases hget
      exact ⟨by simp only [Option.filter, hmem]; simp, by simpa using hstate⟩
    · left
      simp only [Option.filter, hmem]
      simp
  · exact .inl hr

theorem get?_prunePendingLocked (now : ℚ) {nodes : Dict String Node} (hr : nodes.get? n = some r) :
    (prunePendingLocked pf now nodes).get? n = some r ∨
      ((prunePendingLocked pf now nodes).get? n = none ∧ r.state = .pending) := by
  rcases get?_dropStale pf now hr with h | ⟨h, hp⟩
  · exact get?_dropOldest h
  · refine .inr ⟨?_, hp⟩
    unfold prunePendingLocked dropOldest
    dsimp only
    split
    · simp [h, Option.filter]
    · exact h

theorem get?_insertNode {nodes nodes' : Dict String Node} {id : String} {row : Node}
    (h : insertNode nodes id row = some nodes') :
    nodes.get? id = none ∧ ∀ m, nodes'.get? m = if m = id then some row else nodes.get? m := by
  unfold insertNode at h
  split at h
  · cases h
  · rename_i hnone
    cases h
    exact ⟨by simpa using hnone, fun m => Dict.get?_set _ _ _ _⟩

theorem rowWritten_add (token id ts name st room transport cert : String)
    (hr : s.nodes.get? n = some r) (op : Op) :
    RowWritten s op n r ((add pf id token ts name st room transport cert s).2.nodes.get? n) := by
  unfold add
  dsimp only
  split
  · exact .same hr
  · rename_i nodes' hins
    obtain ⟨hid, hget⟩ := get?_insertNode hins
    have hne : n ≠ id := by rintro rfl; simp [hr] at hid
    exact .same (by rw [hget, if_neg hne, hr])

theorem rowWritten_requestJoin (now : ℚ) (id rid ts nh sh cert : String)
    (hr : s.nodes.get? n = some r) :
    RowWritten s (.requestJoin now id rid ts nh sh cert) n r
      ((requestJoin pf now id rid ts nh sh cert s).2.nodes.get? n) := by
  have hprune := get?_prunePendingLocked pf now hr
  unfold requestJoin
  dsimp only
  split
  · rcases hprune with h | h
    · exact .same h
    · exact .inl h
  · rename_i nodes' hins
    obtain ⟨hid, hget⟩ := get?_insertNode hins
    by_cases hn : n = id
    · subst hn
      -- the only way the id can be drawn again: the pending row under it was pruned just before
      rcases hprune with h | ⟨-, hp⟩
      · rw [hid] at h; cases h
      · refine .inr ⟨_, by rw [hget, if_pos rfl], .redrawn ?_ hp ⟨rfl, rfl, rfl, rfl⟩⟩
        exact .inr ⟨now, rid, ts, nh, sh, cert, rfl⟩
    · rw [hget, if_neg hn]
      rcases hprune with h | h
      · exact .same h
      · exact .inl h

theorem rowWritten_approve (now : ℚ) (token id name st room transport : String)
    (hr : s.nodes.get? n = some r) (op : Op) :
    RowWritten s op n r ((approve pf now token id name st room transport s).2.nodes.get? n) := by
  unfold approve
  dsimp only
  split
  · exact .same hr
  · split
    · exact .same hr
    · rename_i row hrow
      split
      · exact .same hr
      · rename_i hpend
        by_cases hn : n = id
        · subst hn
          rw [hr] at hrow
          cases hrow
          exact .inr ⟨_, Dict.get?_set_self _ _ _, .approved _ _ _ _ _ (not_not.mp hpend) rfl⟩
        · exact .same (by rw [Dict.get?_set_ne _ hn, hr])

theorem rowWritten_deny (id : String) (hr : s.nodes.get? n = some r) (op : Op) :
    RowWritten s op n r ((deny id s).2.nodes.get? n) := by
  simp only [deny, Dict.get?_filter, hr, Option.filter]
  by_cases h : n = id ∧ r.state = .pending
  · exact .inl ⟨by simp [h.1, h.2], h.2⟩
  · exact .same (by simp only [h]; simp)

theorem get?_updateRequest (rid : String) (f : Node → Node) (s : NodeStore) (n : String) :
    (updateRequest rid f s).nodes.get? n =
      (s.nodes.get? n).map fun r => if r.requestId = some rid then f r else r := by
  simp [updateRequest]

theorem rowWritten_claim (now : ℚ) (rid : String) (hr : s.nodes.get? n = some r) :
    RowWritten s (.claim now rid) n r ((claim now rid s).2.nodes.get? n) := by
  unfold claim
  split
  · exact .same hr
  · rename_i hrid
    split
    · exact .same hr
    · rename_i id row hrow
      split
      · exact .same hr
      · rename_i hpend
        dsimp only
        split
        · rename_i token htok
          -- delivered: only the request_id goes
          rw [get?_updateRequest, hr, Option.map_some]
          by_cases hrq : r.requestId = some rid
          · rw [if_pos hrq]
            exact .inr ⟨_, rfl, .collected rfl⟩
          · exact .same (by rw [if_neg hrq])
        · rename_i htok
          rw [get?_updateRequest, hr, Option.map_some]
          by_cases hrq : r.requestId = some rid
          · rw [if_pos hrq]
            refine .inr ⟨_, rfl, .requeued ?_ rfl⟩
            exact ⟨now, rid, (id, row), r, rfl, not_not.mp hrid, hrow, hpend, htok, hr, hrq⟩
          · exact .same (by rw [if_neg hrq])

theorem rowWritten_getByToken (ts token : String) (hr : s.nodes.get? n = some r) (op : Op) :
    RowWritten s op n r ((getByToken pf ts token s).2.nodes.get? n) := by
  unfold getByToken
  split
  · exact .same hr
  · split
    · exact .same hr
    · rename_i id row hrow
      split
      · exact .same hr
      · by_cases hn : n = id
        · subst hn
          have hin := Dict.mem_entries.mp (List.mem_of_find?_eq_some hrow)
          rw [hr] at hin
          cases hin
          exact .inr ⟨_, Dict.get?_set_self _ _ _, .seen ts rfl⟩
        · exact .same (by rw [Dict.get?_set_ne _ hn, hr])

theorem rowWritten_recordSeq (id : String) (seq : ℤ) (hr : s.nodes.get? n = some r) :
    RowWritten s (.recordSeq id seq) n r ((recordSeq id seq s).2.nodes.get? n) := by
  unfold recordSeq
  split
  · exact .same hr
  · rename_i row hrow
    split
    · exact .same hr
    · rename_i hlt
      by_cases hn : n = id
      · subst hn
        rw [hr] at hrow
        cases hrow
        exact .inr ⟨_, Dict.get?_set_self _ _ _, .counted seq rfl (not_le.mp hlt) rfl⟩
      · exact .same (by rw [Dict.get?_set_ne _ hn, hr])

theorem get?_updateNode (id : String) (p : Node → Bool) (f : Node → Node) (s : NodeStore)
    (n : String) : (updateNode id p f s).2.nodes.get? n =
      (s.nodes.get? n).map fun r => if n = id ∧ p r then f r else r := by
  simp [updateNode]

theorem rowWritten_disable (id : String) (hr : s.nodes.get? n = some r) (op : Op) :
    RowWritten s op n r ((disable id s).2.nodes.get? n) := by
  rw [disable, get?_updateNode, hr, Option.map_some]
  by_cases h : n = id ∧ decide (r.state ≠ .revoked) = true
  · rw [if_pos h]
    exact .inr ⟨_, rfl, .disabled (by simpa using h.2) rfl⟩
  · exact .same (by rw [if_neg h])

theorem rowWritten_reactivate (now : ℚ) (id : String) (p : ℤ) (hr : s.nodes.get? n = some r) :
    RowWritten s (.reactivate now id p) n r ((reactivate now id p s).2.nodes.get? n) := by
  by_cases hn : n = id
  · subst hn
    by_cases hpress : r.pressCount < p
    · by_cases hbrake : REACTIVATE_MAX_ATTEMPTS ≤
          (((s.reactivateAttempts.get? n).getD []).filter fun t =>
            now - t < REACTIVATE_WINDOW_SECONDS).length
      · exact .same (by simp only [reactivate, if_pos hbrake]; exact hr)
      · refine .inr ⟨{ r with pressCount := p, state := if r.state = .disabled then .active
            else r.state }, ?_, .pressed now p rfl hpress rfl ?_⟩
        · simp only [reactivate, if_neg hbrake, hr, if_pos hpress, Dict.get?_set_self]
        · simp only [reactivate, if_neg hbrake, hr, if_pos hpress]
    · refine .same ?_
      unfold reactivate
      dsimp only
      split
      · exact hr
      · simp only [hr, if_neg hpress]
  · refine .same ?_
    unfold reactivate
    dsimp only
    split
    · exact hr
    · split
      · exact hr
      · split
        · rw [Dict.get?_set_ne _ hn, hr]
        · exact hr

theorem rowWritten_revoke (id : String) (hr : s.nodes.get? n = some r) (op : Op) :
    RowWritten s op n r ((revoke id s).2.nodes.get? n) := by
  rw [revoke, get?_updateNode, hr, Option.map_some]
  by_cases h : n = id ∧ true = true
  · rw [if_pos h]
    exact .inr ⟨_, rfl, .revoked rfl⟩
  · exact .same (by rw [if_neg h])

/-- The inversion of one call: each row it finds goes away while pending, or is written. -/
theorem rowWritten (s : NodeStore) (op : Op) (hr : s.nodes.get? n = some r) :
    RowWritten s op n r ((step pf s op).nodes.get? n) := by
  cases op <;> simp only [step]
  case add => exact rowWritten_add pf _ _ _ _ _ _ _ _ hr _
  case requestJoin => exact rowWritten_requestJoin pf _ _ _ _ _ _ _ hr
  case approve => exact rowWritten_approve pf _ _ _ _ _ _ _ hr _
  case deny => exact rowWritten_deny _ hr _
  case claim => exact rowWritten_claim _ _ hr
  case getByToken => exact rowWritten_getByToken pf _ _ hr _
  case recordSeq => exact rowWritten_recordSeq _ _ hr
  case disable => exact rowWritten_disable _ hr _
  case reactivate => exact rowWritten_reactivate _ _ _ hr
  case revoke => exact rowWritten_revoke _ hr _
  case restart => exact .same hr

/-- What a call does to the state and the press count of a row it finds. -/
theorem rowStep (s : NodeStore) (op : Op) (hr : s.nodes.get? n = some r) :
    RowStep s op n r ((step pf s op).nodes.get? n) := by
  rcases rowWritten pf s op hr with h | ⟨r', hr', hwrite⟩
  · exact .inl h
  · exact .inr ⟨r', hr', hwrite.move⟩

theorem get?_prunePendingLocked_none (now : ℚ) {nodes : Dict String Node}
    (h : nodes.get? n = none) : (prunePendingLocked pf now nodes).get? n = none := by
  unfold prunePendingLocked dropOldest dropStale
  dsimp only
  split <;> simp [h, Option.filter]

/-- Writing to a row that is there gives no row to a node that has none. -/
theorem get?_set_none {nodes : Dict String Node} {id : String} {row : Node} (v : Node)
    (h : nodes.get? n = none) (hrow : nodes.get? id = some row) :
    (nodes.set id v).get? n = none := by
  have hne : n ≠ id := by rintro rfl; rw [h] at hrow; cases hrow
  rw [Dict.get?_set_ne _ hne, h]

/-- A node that has no row gets one only from a call that draws its id. -/
theorem get?_step_none {op : Op} (h : s.nodes.get? n = none) (hd : ¬ Draws op n) :
    (step pf s op).nodes.get? n = none := by
  -- only `add` and `requestJoin` insert rows; the other calls write a row that they have read
  cases op <;> simp only [step]
  case add id token ts name st room transport cert =>
    have hne : n ≠ id := fun he => hd (.inl ⟨token, ts, name, st, room, transport, cert, by rw [he]⟩)
    unfold add
    dsimp only
    split
    · exact h
    · rename_i nodes' hins
      rw [(get?_insertNode hins).2, if_neg hne, h]
  case requestJoin now id rid ts nh sh cert =>
    have hne : n ≠ id := fun he => hd (.inr ⟨now, rid, ts, nh, sh, cert, by rw [he]⟩)
    have hp := get?_prunePendingLocked_none pf now h
    unfold requestJoin
    dsimp only
    split
    · exact hp
    · rename_i nodes' hins
      rw [(get?_insertNode hins).2, if_neg hne, hp]
  case approve now token id name st room transport =>
    unfold approve
    dsimp only
    split
    · exact h
    · split
      · exact h
      · rename_i row hrow
        split
        · exact h
        · exact get?_set_none _ h hrow
  case deny id => simp [deny, h, Option.filter]
  case claim now rid =>
    unfold claim
    repeat' split
    all_goals try exact h
    · rw [get?_updateRequest, h]; rfl
    · rw [get?_updateRequest, h]; rfl
  case getByToken ts token =>
    unfold getByToken
    repeat' split
    all_goals try exact h
    rename_i id row hrow _
    exact get?_set_none _ h (Dict.mem_entries.mp (List.mem_of_find?_eq_some hrow))
  case recordSeq id seq =>
    unfold recordSeq
    repeat' split
    all_goals try exact h
    rename_i row hrow _
    exact get?_set_none _ h hrow
  case disable id => rw [disable, get?_updateNode, h]; rfl
  case reactivate now id p =>
    unfold reactivate
    dsimp only
    split
    · exact h
    · split
      · exact h
      · rename_i row hrow
        split
        · exact get?_set_none _ h hrow
        · exact h
  case revoke id => rw [revoke, get?_updateNode, h]; rfl
  case restart => exact h

theorem get?_finish_none {ops : List Op} (h : s.nodes.get? n = none)
    (hd : ∀ op ∈ ops, ¬ Draws op n) : (finish (step pf) s ops).nodes.get? n = none := by
  induction ops generalizing s with
  | nil => exact h
  | cons op ops ih =>
    exact ih (get?_step_none pf h (hd op List.mem_cons_self))
      fun o ho => hd o (List.mem_cons_of_mem op ho)

/-- While the id of a node is not drawn again, its high-water mark only rises. -/
theorem pressCount_le_finish {ops : List Op} (hd : ∀ op ∈ ops, ¬ Draws op n) {r' : Node}
    (hr : s.nodes.get? n = some r) (hr' : (finish (step pf) s ops).nodes.get? n = some r') :
    r.pressCount ≤ r'.pressCount := by
  induction ops generalizing s r with
  | nil => rw [finish_nil, hr] at hr'; cases hr'; exact le_rfl
  | cons op ops ih =>
    have hd' := fun o ho => hd o (List.mem_cons_of_mem op ho)
    rcases rowStep pf s op hr with ⟨hnone, -⟩ | ⟨q, hq, hmove⟩
    · rw [finish_cons, get?_finish_none pf hnone hd'] at hr'
      cases hr'
    · refine le_trans ?_ (ih hd' hq hr')
      cases hmove with
      | pressed now p hop hlt hs hp hret => rw [hp]; exact hlt.le
      | redrawn hdraw => exact absurd hdraw (hd op List.mem_cons_self)
      | _ => rename_i hp; rw [hp]

end

/-! ## Revocation -/

/-- The row says revoked, and no presented token resolves to the node. -/
def Terminated (n : String) (s : NodeStore) : Prop :=
  stateOf n s = some .revoked ∧
    ∀ ts token node, (getByToken pf ts token s).1 ≠ some (n, node)

theorem terminated_iff {n : String} {s : NodeStore} :
    Terminated pf n s ↔ stateOf n s = some .revoked := by
  refine ⟨And.left, fun h => ⟨h, fun ts token node hg => ?_⟩⟩
  obtain ⟨r, hr, hrev⟩ := Option.map_eq_some_iff.mp h
  unfold getByToken at hg
  split at hg
  · cases hg
  · split at hg
    · cases hg
    · rename_i id row hrow
      have hin := Dict.mem_entries.mp (List.mem_of_find?_eq_some hrow)
      split at hg
      · cases hg
      · rename_i hstate
        cases hg
        rw [hr] at hin
        cases hin
        exact hstate hrev

theorem stateOf_revoke {n : String} {s : NodeStore} (h : (revoke n s).1 = true) :
    stateOf n (revoke n s).2 = some .revoked := by
  cases hr : s.nodes.get? n with
  | none => simp [revoke, updateNode, hr] at h
  | some r => simp [stateOf, revoke, get?_updateNode, hr]

/-- A step leaves a revoked node revoked, unless it is a claim that requeues it. -/
theorem stateOf_step_revoked {n : String} {s : NodeStore} {op : Op}
    (h : stateOf n s = some .revoked) :
    stateOf n (step pf s op) = some .revoked ↔ ¬ Requeues s op n := by
  obtain ⟨r, hr, hrev⟩ := Option.map_eq_some_iff.mp h
  constructor
  · rintro hafter ⟨now, rid, found, row, rfl, ht, hfound, hpend, hheld, hrow, hrq⟩
    simp [stateOf, step, claim, ht, hfound, hpend, hheld, get?_updateRequest, hrow, hrq] at hafter
  · intro hnq
    rcases rowStep pf s op hr with ⟨-, hp⟩ | ⟨r', hr', hmove⟩
    · rw [hrev] at hp; cases hp
    · rw [stateOf, hr', Option.map_some]
      cases hmove with
      | kept hs => rw [hs, hrev]
      | approved h => rw [hrev] at h; cases h
      | disabled h => exact absurd hrev h
      | pressed now p hop hlt hs => rw [hs, hrev]; rfl
      | revoked hs => rw [hs]
      | requeued hq => exact absurd hq hnq
      | redrawn hd h => rw [hrev] at h; cases h

/-- After `revoke` has answered True, the node stays revoked and its tokens dead through a
run exactly when no claim in it requeues the revoked row for a lost token. -/
theorem revocation_terminal_iff (pre post : List Op) (n : String)
    (h : (revoke n (finish (step pf) emptyStore pre)).1 = true) :
    AllStates (step pf) (Terminated pf n) (revoke n (finish (step pf) emptyStore pre)).2 post ↔
      AllSteps (step pf) (fun s op => ¬ Requeues s op n)
        (revoke n (finish (step pf) emptyStore pre)).2 post :=
  allStates_iff_allSteps (I := fun s => stateOf n s = some .revoked)
    (fun _ _ hs hok => (stateOf_step_revoked pf hs).mpr hok)
    (fun _ hs => (terminated_iff pf).mpr hs)
    (fun _ _ hs hn ht => hn ((stateOf_step_revoked pf hs).mp ht.1))
    (stateOf_revoke h)

/-- The interpreter on the inputs of the sample runs: two tokens, and the clock at zero. -/
def samplePlatform : Platform where
  hashToken t :=
    if t = "token-1" then "3f08aace122ee2368432c1ca23a049bc640bafbf00fdf33a52429f38ba12dbf9"
    else if t = "token-2" then "0f6bffa9661cb5dd2f3f7b2929f33061f58a7ba7fdd689530b1a306f8ed8f3ec"
    else ""
  isoformat t :=
    if t = -604800 then "1969-12-25T00:00:00+00:00" else "1970-01-01T00:00:00+00:00"
  isalnum := Char.isAlphanum

/-- A board asks to join and is approved. -/
def sampleJoin : List Op :=
  [.requestJoin 0 "n1" "r1" "1970-01-01T00:00:00+00:00" "radar" "ld2450" "",
    .approve 0 "token-1" "n1" "Radar" "ld2450" "hall" "native"]

theorem revocation_terminal_sample :
    AllStates (step samplePlatform) (Terminated samplePlatform "n1")
        (revoke "n1" (finish (step samplePlatform) emptyStore sampleJoin)).2 [.claim 30 "r1"] ↔
      AllSteps (step samplePlatform) (fun s op => ¬ Requeues s op "n1")
        (revoke "n1" (finish (step samplePlatform) emptyStore sampleJoin)).2 [.claim 30 "r1"] :=
  revocation_terminal_iff samplePlatform sampleJoin [.claim 30 "r1"] "n1" (by decide +kernel)

/-- The board polls eleven minutes after the approval. The node was revoked in between, is
back in the queue, and a second approval makes its new token good. -/
theorem revoked_node_returns :
    (revoke "n1" (finish (step samplePlatform) emptyStore sampleJoin)).1 = true ∧
      ¬ AllStates (step samplePlatform) (Terminated samplePlatform "n1")
        (revoke "n1" (finish (step samplePlatform) emptyStore sampleJoin)).2
        [.claim 660 "r1", .approve 700 "token-2" "n1" "Radar" "ld2450" "hall" "native"] ∧
      ((getByToken samplePlatform "" "token-2"
        (finish (step samplePlatform) (revoke "n1"
          (finish (step samplePlatform) emptyStore sampleJoin)).2
          [.claim 660 "r1", .approve 700 "token-2" "n1" "Radar" "ld2450" "hall" "native"])).1.map
        Prod.fst) = some "n1" := by
  refine ⟨by decide +kernel, fun h => ?_, by decide +kernel⟩
  exact absurd h.last.1 (by decide +kernel)

/-! ## Local disable -/

/-- States that only the board, or nothing at all, may take a node out of. -/
def Sealed (n : String) (s : NodeStore) : Prop :=
  stateOf n s = some .disabled ∨ stateOf n s = some .revoked

theorem sealed_step {n : String} {s : NodeStore} {op : Op} (h : Sealed n s)
    (hnq : ¬ Requeues s op n) (hleave : ¬ Sealed n (step pf s op)) :
    ∃ now p r, op = .reactivate now n p ∧ s.nodes.get? n = some r ∧ r.pressCount < p ∧
      (reactivate now n p s).1 = .ok (some .active) := by
  obtain ⟨r, hr, hstate⟩ : ∃ r, s.nodes.get? n = some r ∧
      (r.state = .disabled ∨ r.state = .revoked) := by
    rcases h with h | h <;> obtain ⟨r, hr, hs⟩ := Option.map_eq_some_iff.mp h
    · exact ⟨r, hr, .inl hs⟩
    · exact ⟨r, hr, .inr hs⟩
  have hpend : r.state ≠ .pending := by rcases hstate with h | h <;> simp [h]
  rcases rowStep pf s op hr with ⟨-, hp⟩ | ⟨r', hr', hmove⟩
  · exact absurd hp hpend
  · have hleave' : ¬ (r'.state = .disabled ∨ r'.state = .revoked) := by
      simpa [Sealed, stateOf, hr'] using hleave
    cases hmove with
    | kept hs => exact absurd (by rwa [hs]) hleave'
    | approved h => exact absurd h hpend
    | disabled _ hs => exact absurd (.inl hs) hleave'
    | revoked hs => exact absurd (.inr hs) hleave'
    | requeued hq => exact absurd hq hnq
    | redrawn _ h => exact absurd h hpend
    | pressed now p hop hlt hs hp hret =>
      rcases hstate with hd | hrev
      · rw [if_pos hd] at hs
        exact ⟨now, p, r, hop, hr, hlt, by rw [hret, hs]⟩
      · rw [hrev] at hs
        exact absurd (.inr hs) hleave'

/-- In a run where no claim requeues the node for a lost token, a node that was disabled
and is active again was reactivated in between, by a press count above every one recorded
since its id was drawn. -/
theorem disable_lifted_at_board (pre mid : List Op) (n : String)
    (hdis : stateOf n (finish (step pf) emptyStore pre) = some .disabled)
    (hact : stateOf n (finish (step pf) emptyStore (pre ++ mid)) = some .active)
    (hok : AllSteps (step pf) (fun s op => ¬ Requeues s op n)
      (finish (step pf) emptyStore pre) mid) :
    ∃ mid₁ now p mid₂, mid = mid₁ ++ .reactivate now n p :: mid₂ ∧
      (reactivate now n p (finish (step pf) emptyStore (pre ++ mid₁))).1 = .ok (some .active) ∧
      ∀ pre₁ pre₂, pre ++ mid₁ = pre₁ ++ pre₂ → (∀ op ∈ pre₂, ¬ Draws op n) →
        ∀ r, (finish (step pf) emptyStore pre₁).nodes.get? n = some r → r.pressCount < p := by
  have hn : ¬ Sealed n (finish (step pf) (finish (step pf) emptyStore pre) mid) := by
    rw [finish_append] at hact
    simp [Sealed, hact]
  -- the node stays sealed up to one call, and only a press at the board leaves the seal
  obtain ⟨mid₁, op, mid₂, rfl, hall, hleave⟩ := exists_leaving_step (P := Sealed n) (.inl hdis) hn
  have hnq := (allSteps_append.mp hok).2.1
  obtain ⟨now, p, row, rfl, hrow, hlt, hret⟩ := sealed_step pf hall.last hnq hleave
  refine ⟨mid₁, now, p, mid₂, rfl, by rw [finish_append]; exact hret, ?_⟩
  intro pre₁ pre₂ he hd r hr
  -- every count recorded since the id was drawn is at most the one the press is compared with
  refine lt_of_le_of_lt (pressCount_le_finish pf hd hr ?_) hlt
  rw [← finish_append, ← he, finish_append]
  exact hrow

/-- ... and is then disabled by hand. -/
def sampleDisabled : List Op := sampleJoin ++ [.disable "n1"]

theorem disable_lifted_sample :
    ∃ mid₁ now p mid₂, [Op.reactivate 90 "n1" 1] = mid₁ ++ .reactivate now "n1" p :: mid₂ ∧
      (reactivate now "n1" p (finish (step samplePlatform) emptyStore
        (sampleDisabled ++ mid₁))).1 = .ok (some .active) ∧
      ∀ pre₁ pre₂, sampleDisabled ++ mid₁ = pre₁ ++ pre₂ →
        (∀ op ∈ pre₂, ¬ Draws op "n1") →
        ∀ r, (finish (step samplePlatform) emptyStore pre₁).nodes.get? "n1" = some r →
          r.pressCount < p := by
  refine disable_lifted_at_board samplePlatform sampleDisabled [.reactivate 90 "n1" 1] "n1"
    (by decide +kernel) (by decide +kernel) ⟨?_, trivial⟩
  rintro ⟨_, _, _, _, h, _⟩
  cases h

/-- The process restarts, the board polls and finds its token gone, a human approves it. -/
def sampleRequeue : List Op :=
  [.restart, .claim 30 "r1", .approve 40 "token-2" "n1" "Radar" "ld2450" "hall" "native"]

/-- A disabled board comes back through the queue, and nobody touched it. -/
theorem disabled_node_approved_back :
    stateOf "n1" (finish (step samplePlatform) emptyStore sampleDisabled) = some .disabled ∧
      stateOf "n1" (finish (step samplePlatform) emptyStore
        (sampleDisabled ++ sampleRequeue)) = some .active ∧
      ∀ now p, Op.reactivate now "n1" p ∉ sampleRequeue := by
  refine ⟨by decide +kernel, by decide +kernel, fun now p h => ?_⟩
  simp [sampleRequeue] at h

end Wavr.Nodes
