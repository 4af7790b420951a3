import Wavr.Dict
import Wavr.Events
import Wavr.Run

/-!
# The occupancy log

`OccupancyLog`: the last row of each room as it is held in memory, the table, and the writes
that are under way. A claim is taken at once; its write ends later, in any order, and well or
badly.
-/

namespace Wavr.Occupancy
open Fusion Run

variable {R : Type} (ar : Arith R)

def CONFIDENCE_EPS : ℚ := 1 / 100

structure Row (R : Type) where
  occupied : Bool
  personCount : Option ℤ
  confidence : R
  ts : String
  deriving DecidableEq

/-- A row as an object: the number of the claim that made it, none if it was loaded at start. -/
structure Entry (R : Type) where
  tag : Option ℕ
  row : Row R
  deriving DecidableEq

structure OccupancyLog (R : Type) where
  /-- The last row of each room. -/
  last : Dict String (Entry R)
  /-- The table in the order of its ids, as its connection sees it. -/
  table : List (String × Row R)
  deriving DecidableEq

/-- What the constructor loads: the latest rows by `ts`, the later id among equals. -/
def loaded (table : List (String × Row R)) : Dict String (Entry R) :=
  (table.filter fun e => table.all fun e' => e'.1 ≠ e.1 ∨ ¬ e.2.ts < e'.2.ts).foldl
    (fun last e => last.set e.1 ⟨none, e.2⟩) .empty

def openLog (table : List (String × Row R)) : OccupancyLog R := ⟨loaded table, table⟩

def abs (x : R) : R := if ar.lt x (ar.lit 0) then ar.neg x else x

/-- The reading is a new row. -/
def changed (prev : Option (Row R)) (row : Row R) : Bool :=
  match prev with
  | none => true
  | some prev =>
    prev.occupied ≠ row.occupied ∨ prev.personCount ≠ row.personCount ∨
      ar.le (ar.lit CONFIDENCE_EPS) (abs ar (ar.sub prev.confidence row.confidence)) = true

/-- What `claim` hands to `write`: the room, the row it replaces, and its own. -/
structure Claim (R : Type) where
  room : String
  prev : Option (Entry R)
  entry : Entry R
  deriving DecidableEq

/-- The `n`-th claim makes the reading the room's last row, or finds it unchanged. -/
def claim (n : ℕ) (room : String) (row : Row R) (s : OccupancyLog R) :
    Option (Claim R) × OccupancyLog R :=
  let prev := s.last.get? room
  if changed ar (prev.map Entry.row) row then
    let entry : Entry R := ⟨some n, row⟩
    (some ⟨room, prev, entry⟩, { s with last := s.last.set room entry })
  else (none, s)

/-- How a write ends. -/
inductive Outcome
  /-- The row is committed, and the rows from before `cutoff` are pruned. -/
  | persisted (cutoff : Option String)
  /-- It raised; the row may be left in the transaction that is open. -/
  | failed (inserted : Bool)
  deriving DecidableEq

def prune (cutoff : Option String) (table : List (String × Row R)) : List (String × Row R) :=
  match cutoff with
  | none => table
  | some cutoff => table.filter fun e => ¬ e.2.ts < cutoff

/-- `is`: the room's last row is this very object. -/
def isLast (c : Claim R) (s : OccupancyLog R) : Bool :=
  (s.last.get? c.room).map Entry.tag = some c.entry.tag

/-- Put the row back that the claim replaced, if nothing newer was claimed since. -/
def rollback (c : Claim R) (s : OccupancyLog R) : OccupancyLog R :=
  if isLast c s then
    { s with last := match c.prev with
        | none => s.last.erase c.room
        | some prev => s.last.set c.room prev }
  else s

def write (c : Claim R) (outcome : Outcome) (s : OccupancyLog R) : OccupancyLog R :=
  match outcome with
  | .persisted cutoff => { s with table := prune cutoff (s.table ++ [(c.room, c.entry.row)]) }
  | .failed inserted =>
    rollback c { s with table := if inserted then s.table ++ [(c.room, c.entry.row)] else s.table }

inductive Status
  | inFlight
  | persisted
  | failed
  deriving DecidableEq, Repr

def Outcome.status : Outcome → Status
  | .persisted _ => .persisted
  | .failed _ => .failed

/-- A claim that was taken, and what became of its write. -/
structure Call (R : Type) where
  claim : Claim R
  status : Status
  deriving DecidableEq

/-- The log and the claims taken from it, in order. -/
structure System (R : Type) where
  log : OccupancyLog R
  calls : List (Call R)
  deriving DecidableEq

def init (table : List (String × Row R)) : System R := ⟨openLog table, []⟩

inductive Op (R : Type)
  | claim (room : String) (row : Row R)
  /-- The write of the `n`-th claim ends. -/
  | write (n : ℕ) (outcome : Outcome)

def step (s : System R) : Op R → System R
  | .claim room row =>
    match claim ar s.calls.length room row s.log with
    | (none, log) => { s with log }
    | (some c, log) => ⟨log, s.calls ++ [⟨c, .inFlight⟩]⟩
  | .write n outcome =>
    match s.calls[n]? with
    | some ⟨c, .inFlight⟩ => ⟨write c outcome s.log, s.calls.set n ⟨c, outcome.status⟩⟩
    | _ => s

/-! ## The last row that was persisted -/

/-- The row of the room's most recent claim whose write succeeded, else the row loaded at
start. -/
def persisted (table : List (String × Row R)) (room : String) (s : System R) : Option (Row R) :=
  match (s.calls.filter fun c => c.claim.room = room ∧ c.status = .persisted).getLast? with
  | some c => some c.claim.entry.row
  | none => ((loaded table).get? room).map Entry.row

/-- No write of the room is under way. -/
def Quiet (room : String) (s : System R) : Prop :=
  ∀ c ∈ s.calls, c.claim.room = room → c.status ≠ .inFlight

/-- A room with no write under way remembers the row that was persisted last, and calls no
reading unchanged that differs from it. -/
def LossFree (table : List (String × Row R)) (s : System R) : Prop :=
  ∀ room, Quiet room s →
    (s.log.last.get? room).map Entry.row = persisted table room s ∧
      ∀ n row, (claim ar n room row s.log).1 = none →
        changed ar (persisted table room s) row = false

/-- The claim with this tag is there, and its write failed. -/
def HasFailed (calls : List (Call R)) (tag : Option ℕ) : Prop :=
  ∃ k c, tag = some k ∧ calls[k]? = some c ∧ c.status = .failed

/-- A write that fails and finds its row the room's last one puts back a row whose own write
has not failed. -/
def Harmless (s : System R) : Op R → Prop
  | .claim _ _ => True
  | .write n outcome =>
    ∀ c, s.calls[n]? = some ⟨c, .inFlight⟩ → outcome.status = .failed → isLast c s.log = true →
      ∀ prev, c.prev = some prev → ¬ HasFailed s.calls prev.tag

/-- No room remembers a row whose write failed. -/
def NoneFailed (s : System R) : Prop :=
  ∀ room e, s.log.last.get? room = some e → ¬ HasFailed s.calls e.tag

/-! ## Claims in order -/

/-- The `k`-th claim was taken after the one that made the row. -/
def After (o : Option (Entry R)) (k : ℕ) : Prop := ∀ j, o.bind Entry.tag = some j → j < k

/-- The row is one of the room's: loaded at start, or made by a claim. -/
def Known (table : List (String × Row R)) (calls : List (Call R)) (room : String) :
    Option (Entry R) → Prop
  | none => (loaded table).get? room = none
  | some e =>
    (e.tag = none ∧ (loaded table).get? room = some e) ∨
      ∃ k c, e.tag = some k ∧ calls[k]? = some c ∧ c.claim.entry = e ∧ c.claim.room = room

/-- What the memory and the claims have to do with each other: later claims than the one
remembered have failed, and so have those between a claim under way and the row it replaced. -/
structure Inv (table : List (String × Row R)) (s : System R) : Prop where
  numbered : ∀ (k : ℕ) (c : Call R), s.calls[k]? = some c → c.claim.entry.tag = some k
  known : ∀ room, Known table s.calls room (s.log.last.get? room)
  superseded : ∀ (k : ℕ) (c : Call R), s.calls[k]? = some c →
    After (s.log.last.get? c.claim.room) k → c.status = .failed
  replaced : ∀ (k : ℕ) (c : Call R), s.calls[k]? = some c → c.status = .inFlight →
    Known table s.calls c.claim.room c.claim.prev ∧ After c.claim.prev k ∧
      ∀ (i : ℕ) (d : Call R), s.calls[i]? = some d → d.claim.room = c.claim.room →
        After c.claim.prev i → i < k → d.status = .failed

theorem getLast?_filter {α : Type*} {l : List α} {p : α → Bool} {k : ℕ} {x : α}
    (hx : l[k]? = some x) (hp : p x = true) (hn : ∀ i y, k < i → l[i]? = some y → p y = false) :
    (l.filter p).getLast? = some x := by
  obtain ⟨hk, hget⟩ := List.getElem?_eq_some_iff.mp hx
  have hrest : (l.drop (k + 1)).filter p = [] := by
    rw [List.filter_eq_nil_iff]
    intro y hy
    obtain ⟨i, hi⟩ := List.mem_iff_getElem?.mp hy
    rw [List.getElem?_drop] at hi
    simp [hn _ y (by omega) hi]
  have hsplit : l = l.take k ++ x :: l.drop (k + 1) := by
    rw [← hget, ← List.drop_eq_getElem_cons hk, List.take_append_drop]
  rw [hsplit, List.filter_append, List.filter_cons_of_pos hp, hrest, List.getLast?_concat]

section
variable {ar} {table : List (String × Row R)} {s : System R} {calls : List (Call R)} {n : ℕ}
  {c : Claim R} {status : Status}

/-- A write that ends changes the status of its own claim. -/
theorem getElem?_settled (hc : calls[n]? = some ⟨c, .inFlight⟩) {k : ℕ} {d : Call R} :
    (calls.set n ⟨c, status⟩)[k]? = some d ↔
      (k = n ∧ d = ⟨c, status⟩) ∨ (k ≠ n ∧ calls[k]? = some d) := by
  obtain ⟨hn, -⟩ := List.getElem?_eq_some_iff.mp hc
  rw [List.getElem?_set]
  by_cases hk : n = k
  · subst hk
    simp [hn, eq_comm]
  · have hk' : k ≠ n := fun h => hk h.symm
    simp [hk, hk']

theorem Known.settled (hc : calls[n]? = some ⟨c, .inFlight⟩) {room : String} {o : Option (Entry R)}
    (h : Known table calls room o) : Known table (calls.set n ⟨c, status⟩) room o := by
  cases o with
  | none => exact h
  | some e =>
    refine h.imp_right ?_
    rintro ⟨k, d, htag, hd, he, hroom⟩
    by_cases hk : k = n
    · subst hk
      rw [hc] at hd
      cases hd
      exact ⟨k, _, htag, (getElem?_settled hc).mpr (.inl ⟨rfl, rfl⟩), he, hroom⟩
    · exact ⟨k, d, htag, (getElem?_settled hc).mpr (.inr ⟨hk, hd⟩), he, hroom⟩

theorem hasFailed_settled (hc : calls[n]? = some ⟨c, .inFlight⟩) {tag : Option ℕ} :
    HasFailed (calls.set n ⟨c, status⟩) tag ↔
      (tag = some n ∧ status = .failed) ∨ HasFailed calls tag := by
  constructor
  · rintro ⟨k, d, htag, hd, hf⟩
    rcases (getElem?_settled hc).mp hd with ⟨rfl, rfl⟩ | ⟨-, hd⟩
    · exact .inl ⟨htag, hf⟩
    · exact .inr ⟨k, d, htag, hd, hf⟩
  · rintro (⟨htag, hf⟩ | ⟨k, d, htag, hd, hf⟩)
    · exact ⟨n, _, htag, (getElem?_settled hc).mpr (.inl ⟨rfl, rfl⟩), hf⟩
    · refine ⟨k, d, htag, (getElem?_settled hc).mpr (.inr ⟨?_, hd⟩), hf⟩
      rintro rfl
      rw [hc] at hd
      cases hd
      cases hf

/-- The end of a write keeps the invariant, if the rows then remembered are the rooms' own and
only failed claims are later than they. -/
theorem Inv.settle (hi : Inv table s) (hc : s.calls[n]? = some ⟨c, .inFlight⟩)
    (hst : status ≠ .inFlight) {log : OccupancyLog R}
    (hknown : ∀ room, Known table s.calls room (log.last.get? room))
    (hself : After (log.last.get? c.room) n → status = .failed)
    (hother : ∀ (k : ℕ) (d : Call R), k ≠ n → s.calls[k]? = some d →
      After (log.last.get? d.claim.room) k → d.status = .failed) :
    Inv table ⟨log, s.calls.set n ⟨c, status⟩⟩ where
  numbered := by
    intro k d hd
    rcases (getElem?_settled hc).mp hd with ⟨rfl, rfl⟩ | ⟨-, hd⟩
    · exact hi.numbered k ⟨c, .inFlight⟩ hc
    · exact hi.numbered k d hd
  known := fun room => (hknown room).settled hc
  superseded := by
    intro k d hd hafter
    rcases (getElem?_settled hc).mp hd with ⟨rfl, rfl⟩ | ⟨hk, hd⟩
    · exact hself hafter
    · exact hother k d hk hd hafter
  replaced := by
    intro k d hd hflight
    rcases (getElem?_settled hc).mp hd with ⟨rfl, rfl⟩ | ⟨hk, hd⟩
    · exact absurd hflight hst
    obtain ⟨hprev, hafter, hbetween⟩ := hi.replaced k d hd hflight
    refine ⟨hprev.settled hc, hafter, fun i e he hroom hai hik => ?_⟩
    rcases (getElem?_settled hc).mp he with ⟨rfl, rfl⟩ | ⟨-, he⟩
    · -- it was under way until now, and none between the two was
      exact absurd (hbetween i _ hc hroom hai hik) (by simp)
    · exact hbetween i e he hroom hai hik

/-! ## Steps -/

/-- What an ended write leaves the last rows at. -/
theorem last_write (outcome : Outcome) (log : OccupancyLog R) :
    (write c outcome log).last =
      if outcome.status = .failed ∧ isLast c log = true then
        match c.prev with
        | none => log.last.erase c.room
        | some prev => log.last.set c.room prev
      else log.last := by
  cases outcome with
  | persisted cutoff => rfl
  | failed inserted =>
    by_cases hl : isLast c log = true
    · have hl' : isLast c { log with
          table := if inserted then log.table ++ [(c.room, c.entry.row)] else log.table } = true := hl
      simp only [write, rollback, hl', hl, Outcome.status, and_self, if_true]
    · have hl' : ¬ isLast c { log with
          table := if inserted then log.table ++ [(c.room, c.entry.row)] else log.table } = true := hl
      simp only [write, rollback, hl', hl]
      rfl

theorem get?_rolledBack {last : Dict String (Entry R)} (room : String) :
    (match c.prev with
      | none => last.erase c.room
      | some prev => last.set c.room prev).get? room =
      if room = c.room then c.prev else last.get? room := by
  cases c.prev with
  | none => rw [Dict.get?_erase]
  | some prev => rw [Dict.get?_set]

theorem Inv.write (hi : Inv table s) (hc : s.calls[n]? = some ⟨c, .inFlight⟩) (outcome : Outcome) :
    Inv table ⟨Occupancy.write c outcome s.log, s.calls.set n ⟨c, outcome.status⟩⟩ := by
  have hst : outcome.status ≠ .inFlight := by cases outcome <;> simp [Outcome.status]
  obtain ⟨hprev, hafter, hbetween⟩ := hi.replaced n _ hc rfl
  by_cases hback : outcome.status = .failed ∧ isLast c s.log = true
  · have hlast : ∀ room, (Occupancy.write c outcome s.log).last.get? room =
        if room = c.room then c.prev else s.log.last.get? room := by
      intro room
      rw [last_write, if_pos hback, get?_rolledBack]
    refine hi.settle hc hst (fun room => ?_) (fun _ => hback.1) fun k d hk hd hak => ?_
    · rw [hlast]
      split
      · rename_i hroom
        rw [hroom]
        exact hprev
      · exact hi.known room
    · rw [hlast] at hak
      split at hak
      · rename_i hroom
        -- later than the row put back: later than the failed one, or between the two
        rcases Nat.lt_or_gt_of_ne hk with hlt | hgt
        · exact hbetween k d hd hroom hak hlt
        · refine hi.superseded k d hd fun j hj => ?_
          obtain ⟨e, he, htag⟩ := Option.map_eq_some_iff.mp (of_decide_eq_true hback.2)
          rw [hroom, he, Option.bind_some, htag, hi.numbered n _ hc] at hj
          cases hj
          exact hgt
      · exact hi.superseded k d hd hak
  · have hlast : (Occupancy.write c outcome s.log).last = s.log.last := by
      rw [last_write, if_neg hback]
    refine hi.settle hc hst (fun room => ?_) (fun hself => ?_) fun k d _ hd hak => ?_
    · rw [hlast]
      exact hi.known room
    · rw [hlast] at hself
      exact absurd (hi.superseded n _ hc hself) (by simp)
    · rw [hlast] at hak
      exact hi.superseded k d hd hak

theorem Known.grow {room : String} {o : Option (Entry R)} (h : Known table calls room o) (d : Call R) :
    Known table (calls ++ [d]) room o := by
  cases o with
  | none => exact h
  | some e =>
    refine h.imp_right ?_
    rintro ⟨k, c, htag, hc, hrest⟩
    obtain ⟨hk, -⟩ := List.getElem?_eq_some_iff.mp hc
    exact ⟨k, c, htag, by rw [List.getElem?_append_left hk, hc], hrest⟩

/-- A claim yet to come is later than any row that is known. -/
theorem Known.after {room : String} {o : Option (Entry R)} (h : Known table calls room o) :
    After o calls.length := by
  intro j hj
  obtain ⟨e, rfl, htag⟩ := Option.bind_eq_some_iff.mp hj
  rcases h with ⟨hnone, -⟩ | ⟨k, d, hk, hd, -⟩
  · rw [htag] at hnone
    cases hnone
  · rw [htag] at hk
    cases hk
    exact (List.getElem?_eq_some_iff.mp hd).1

theorem getElem?_grown {d e : Call R} {k : ℕ} :
    (calls ++ [d])[k]? = some e ↔ (k = calls.length ∧ e = d) ∨ calls[k]? = some e := by
  rcases Nat.lt_trichotomy k calls.length with hlt | rfl | hgt
  · rw [List.getElem?_append_left hlt]
    exact ⟨.inr, fun h => h.resolve_left fun h => hlt.ne h.1⟩
  · simp [eq_comm]
  · rw [List.getElem?_eq_none (by simp; omega), List.getElem?_eq_none hgt.le]
    simp [hgt.ne']

/-- A claim that is taken is the room's last row, ahead of nothing but failed ones. -/
theorem Inv.claimed (hi : Inv table s) (room : String) (row : Row R) :
    Inv table ⟨{ s.log with last := s.log.last.set room ⟨some s.calls.length, row⟩ },
      s.calls ++ [⟨⟨room, s.log.last.get? room, ⟨some s.calls.length, row⟩⟩, .inFlight⟩]⟩ where
  numbered := by
    intro k d hd
    rcases getElem?_grown.mp hd with ⟨rfl, rfl⟩ | hd
    · rfl
    · exact hi.numbered k d hd
  known := by
    intro room'
    rw [Dict.get?_set]
    split
    · rename_i hroom
      exact .inr ⟨_, _, rfl, getElem?_grown.mpr (.inl ⟨rfl, rfl⟩), rfl, hroom.symm⟩
    · exact (hi.known room').grow _
  -- the new claim is the last of its room; for the older ones nothing changes
  superseded := by
    intro k d hd hafter
    rcases getElem?_grown.mp hd with ⟨rfl, rfl⟩ | hd
    · rw [Dict.get?_set_self] at hafter
      exact absurd (hafter _ rfl) (lt_irrefl _)
    · rw [Dict.get?_set] at hafter
      split at hafter
      · obtain ⟨hk, -⟩ := List.getElem?_eq_some_iff.mp hd
        exact absurd (hafter _ rfl) (Nat.lt_asymm hk)
      · exact hi.superseded k d hd hafter
  replaced := by
    intro k d hd hflight
    rcases getElem?_grown.mp hd with ⟨rfl, rfl⟩ | hd
    · refine ⟨(hi.known room).grow _, (hi.known room).after, fun i e he hroom hai hik => ?_⟩
      rcases getElem?_grown.mp he with ⟨rfl, -⟩ | he
      · exact absurd hik (lt_irrefl _)
      · refine hi.superseded i e he ?_
        rw [hroom]
        exact hai
    · obtain ⟨hprev, hafter, hbetween⟩ := hi.replaced k d hd hflight
      refine ⟨hprev.grow _, hafter, fun i e he hroom hai hik => ?_⟩
      rcases getElem?_grown.mp he with ⟨rfl, -⟩ | he
      · obtain ⟨hk, -⟩ := List.getElem?_eq_some_iff.mp hd
        exact absurd hik (Nat.lt_asymm hk)
      · exact hbetween i e he hroom hai hik

theorem step_claim (room : String) (row : Row R) :
    step ar s (.claim room row) =
      if changed ar ((s.log.last.get? room).map Entry.row) row then
        ⟨{ s.log with last := s.log.last.set room ⟨some s.calls.length, row⟩ },
          s.calls ++ [⟨⟨room, s.log.last.get? room, ⟨some s.calls.length, row⟩⟩, .inFlight⟩]⟩
      else s := by
  unfold step claim
  dsimp only
  split
  · rename_i h
    split at h
    · cases h
    · rename_i hu
      rw [if_neg hu]
      cases h
      rfl
  · rename_i h
    split at h
    · rename_i hu
      rw [if_pos hu]
      cases h
      rfl
    · cases h

theorem step_write (hc : s.calls[n]? = some ⟨c, .inFlight⟩) (outcome : Outcome) :
    step ar s (.write n outcome) = ⟨write c outcome s.log, s.calls.set n ⟨c, outcome.status⟩⟩ := by
  unfold step
  simp only [hc]

theorem step_write_none (h : ∀ c, s.calls[n]? ≠ some ⟨c, .inFlight⟩) (outcome : Outcome) :
    step ar s (.write n outcome) = s := by
  unfold step
  dsimp only
  split
  · rename_i c hc
    exact absurd hc (h c)
  · rfl

theorem Inv.step (hi : Inv table s) (op : Op R) : Inv table (step ar s op) := by
  cases op with
  | claim room row =>
    rw [step_claim]
    split
    · exact hi.claimed room row
    · exact hi
  | write n outcome =>
    by_cases hc : ∃ c, s.calls[n]? = some ⟨c, .inFlight⟩
    · obtain ⟨c, hc⟩ := hc
      rw [step_write hc]
      exact hi.write hc outcome
    · rw [step_write_none fun c h => hc ⟨c, h⟩]
      exact hi

/-- Only its own room can remember the row of a claim. -/
theorem Inv.isLast_of_tag (hi : Inv table s) (hc : s.calls[n]? = some ⟨c, .inFlight⟩)
    {room : String} {e : Entry R} (he : s.log.last.get? room = some e) (htag : e.tag = some n) :
    room = c.room ∧ isLast c s.log = true := by
  have hknown := hi.known room
  rw [he] at hknown
  rcases hknown with ⟨hnone, -⟩ | ⟨k, d, hk, hd, -, hroom⟩
  · rw [htag] at hnone
    cases hnone
  · rw [htag] at hk
    cases hk
    rw [hc] at hd
    cases hd
    cases hroom
    exact ⟨rfl, decide_eq_true (by rw [he, Option.map_some, htag, hi.numbered n _ hc])⟩

theorem noneFailed_claim (hn : NoneFailed s) (room : String) (row : Row R) :
    NoneFailed (step ar s (.claim room row)) := by
  rw [step_claim]
  split
  · intro room' e he hfailed
    obtain ⟨k, d, htag, hd, hf⟩ := hfailed
    rcases getElem?_grown.mp hd with ⟨-, rfl⟩ | hd
    · cases hf
    · rw [Dict.get?_set] at he
      split at he
      · cases he
        cases htag
        exact absurd (List.getElem?_eq_some_iff.mp hd).1 (lt_irrefl _)
      · exact hn room' e he ⟨k, d, htag, hd, hf⟩
  · exact hn

/-- The end of a write leaves no failed row remembered exactly when it is harmless. -/
theorem noneFailed_write (hi : Inv table s) (hn : NoneFailed s)
    (hc : s.calls[n]? = some ⟨c, .inFlight⟩) (outcome : Outcome) :
    NoneFailed (step ar s (.write n outcome)) ↔ Harmless s (.write n outcome) := by
  rw [step_write hc]
  constructor
  · intro hafter c' hc' hf hlast prev hprev hfailed
    rw [hc] at hc'
    cases hc'
    refine hafter c.room prev ?_ ((hasFailed_settled hc).mpr (.inr hfailed))
    rw [last_write, if_pos ⟨hf, hlast⟩, get?_rolledBack, if_pos rfl, hprev]
  · intro hok room e he hfailed
    rw [last_write] at he
    split at he
    · rename_i hback
      rw [get?_rolledBack] at he
      rcases (hasFailed_settled hc).mp hfailed with ⟨htag, -⟩ | hold
      · split at he
        · exact lt_irrefl n ((hi.replaced n _ hc rfl).2.1 n (by simp [he, htag]))
        · rename_i hroom
          exact hroom (hi.isLast_of_tag hc he htag).1
      · split at he
        · exact hok c hc hback.1 hback.2 e he hold
        · exact hn room e he hold
    · rename_i hback
      rcases (hasFailed_settled hc).mp hfailed with ⟨htag, hf⟩ | hold
      · exact hback ⟨hf, (hi.isLast_of_tag hc he htag).2⟩
      · exact hn room e he hold

theorem noneFailed_step (hi : Inv table s) (hn : NoneFailed s) (op : Op R) :
    NoneFailed (step ar s op) ↔ Harmless s op := by
  cases op with
  | claim room row => exact iff_of_true (noneFailed_claim hn room row) trivial
  | write n outcome =>
    by_cases hc : ∃ c, s.calls[n]? = some ⟨c, .inFlight⟩
    · obtain ⟨c, hc⟩ := hc
      exact noneFailed_write hi hn hc outcome
    · rw [step_write_none fun c h => hc ⟨c, h⟩]
      exact iff_of_true hn fun c h => absurd ⟨c, h⟩ hc

/-! ## Runs -/

/-- A quiet room whose row has not failed remembers the row that was persisted last. -/
theorem Inv.last_eq_persisted (hi : Inv table s) (hn : NoneFailed s) {room : String}
    (hquiet : Quiet room s) : (s.log.last.get? room).map Entry.row = persisted table room s := by
  unfold persisted
  have hknown := hi.known room
  -- a claim of the room later than the row remembered has failed
  have hlater : ∀ (k : ℕ) (d : Call R), s.calls[k]? = some d → After (s.log.last.get? room) k →
      decide (d.claim.room = room ∧ d.status = .persisted) = false := by
    intro k d hd hafter
    rw [decide_eq_false_iff_not]
    rintro ⟨rfl, hp⟩
    rw [hi.superseded k d hd hafter] at hp
    cases hp
  have hempty : ((s.log.last.get? room).bind Entry.tag) = none →
      (s.calls.filter fun d => decide (d.claim.room = room ∧ d.status = .persisted)) = [] := by
    intro htag
    rw [List.filter_eq_nil_iff]
    intro d hd
    obtain ⟨k, hk⟩ := List.mem_iff_getElem?.mp hd
    simpa using hlater k d hk fun j hj => by rw [htag] at hj; cases hj
  cases hlast : s.log.last.get? room with
  | none =>
    rw [hlast] at hknown hempty
    rw [hempty rfl, List.getLast?_nil]
    dsimp only
    rw [show (loaded table).get? room = none from hknown]
  | some e =>
    rw [hlast] at hknown hempty hlater
    rcases hknown with ⟨hnone, hloaded⟩ | ⟨k, d, htag, hd, he, hroom⟩
    · rw [hempty hnone, List.getLast?_nil]
      dsimp only
      rw [hloaded]
    · have hstatus : d.status = .persisted := by
        cases hs : d.status with
        | inFlight => exact absurd hs (hquiet d (List.mem_of_getElem? hd) hroom)
        | failed => exact absurd ⟨k, d, htag, hd, hs⟩ (hn room e hlast)
        | persisted => rfl
      have hget := getLast?_filter (p := fun d => decide (d.claim.room = room ∧ d.status = .persisted))
        hd (decide_eq_true ⟨hroom, hstatus⟩) fun i y hi hy => hlater i y hy fun j hj => by
          rw [Option.bind_some, htag] at hj
          cases hj
          exact hi
      rw [hget]
      dsimp only
      rw [he, Option.map_some]

theorem Inv.lossFree (hi : Inv table s) (hn : NoneFailed s) : LossFree ar table s := by
  intro room hquiet
  have hlast := hi.last_eq_persisted hn hquiet
  refine ⟨hlast, fun n row hnone => ?_⟩
  rw [← hlast]
  unfold claim at hnone
  dsimp only at hnone
  split at hnone
  · cases hnone
  · rename_i h
    exact Bool.eq_false_of_not_eq_true h

end

theorem tag_foldl_loaded (rows : List (String × Row R)) {last : Dict String (Entry R)}
    (hlast : ∀ room e, last.get? room = some e → e.tag = none) {room : String} {e : Entry R}
    (h : (rows.foldl (fun last e => last.set e.1 ⟨none, e.2⟩) last).get? room = some e) :
    e.tag = none := by
  induction rows generalizing last with
  | nil => exact hlast room e h
  | cons r rows ih =>
    refine ih (fun room' e' he' => ?_) h
    rw [Dict.get?_set] at he'
    split at he'
    · cases he'
      rfl
    · exact hlast room' e' he'

theorem tag_loaded {table : List (String × Row R)} {room : String} {e : Entry R}
    (h : (loaded table).get? room = some e) : e.tag = none :=
  tag_foldl_loaded _ (fun _ _ h => by cases h) h

theorem inv_init (table : List (String × Row R)) : Inv table (init table) where
  numbered := by
    intro k c hc
    cases hc
  known := by
    intro room
    show Known table [] room ((loaded table).get? room)
    cases h : (loaded table).get? room with
    | none => exact h
    | some e => exact .inl ⟨tag_loaded h, h⟩
  superseded := by
    intro k c hc
    cases hc
  replaced := by
    intro k c hc
    cases hc

/-- The runs in which no failed row is ever remembered are those in which every write that
fails is harmless. -/
theorem noneFailed_iff (table : List (String × Row R)) (ops : List (Op R)) :
    AllStates (step ar) NoneFailed (init table) ops ↔
      AllSteps (step ar) Harmless (init table) ops := by
  refine allStates_iff_allSteps (I := fun s => Inv table s ∧ NoneFailed s) ?_ (fun s h => h.2) ?_
    ⟨inv_init table, fun room e _ => ?_⟩
  · intro s op h hok
    exact ⟨h.1.step op, (noneFailed_step h.1 h.2 op).mpr hok⟩
  · intro s op h hbad hn
    exact hbad ((noneFailed_step h.1 h.2 op).mp hn)
  · rintro ⟨k, c, -, hc, -⟩
    cases hc

/-- Where every write that fails is harmless, no row is lost: at each point of the run a room
with no write under way remembers the row that was persisted last. -/
theorem lossFree_of_harmless (table : List (String × Row R)) (ops : List (Op R))
    (h : AllSteps (step ar) Harmless (init table) ops) :
    AllStates (step ar) (LossFree ar table) (init table) ops := by
  have hn := (noneFailed_iff ar table ops).mpr h
  rw [allStates_iff_split] at hn ⊢
  intro pre post he
  subst he
  have hpre := (allSteps_append.mp h).1
  have hi : Inv table (finish (step ar) (init table) pre) :=
    finish_of_invariant (fun _ op hs _ => hs.step op) (inv_init table) hpre
  exact hi.lossFree (hn pre post rfl)

def somebody : Row ℚ := ⟨true, some 1, 9 / 10, "2026-01-01T00:00:00+00:00"⟩

def nobody : Row ℚ := ⟨false, some 0, 1 / 10, "2026-01-01T00:00:05+00:00"⟩

/-- The second write fails after the first one ended well, and the first row comes back. -/
theorem lossFree_sala :
    AllStates (step ratArith) (LossFree ratArith []) (init [])
      [.claim "sala" somebody, .write 0 (.persisted none), .claim "sala" nobody,
        .write 1 (.failed false)] := by
  refine lossFree_of_harmless ratArith [] _ ⟨trivial, ?_, trivial, ?_, trivial⟩
  · intro c _ hf
    cases hf
  · rintro c hc - - prev hprev ⟨k, d, htag, hd, hfailed⟩
    have hc' : c.prev = some ⟨some 0, somebody⟩ := by
      have := congrArg (Option.map fun call => call.claim.prev) hc
      exact (Option.some.inj this).symm
    rw [hc'] at hprev
    cases hprev
    cases htag
    cases hd
    cases hfailed

/-- Two claims are in flight and fail in the order they were taken: the second write puts back
the row of the first, which was never persisted, and a reading like it is then unchanged. -/
theorem two_failures_resurrect :
    ¬ AllStates (step ratArith) (LossFree ratArith []) (init [])
      [.claim "sala" somebody, .claim "sala" nobody, .write 0 (.failed false),
        .write 1 (.failed false)] := by
  intro h
  have hquiet : Quiet "sala" (finish (step ratArith) (init [])
      [.claim "sala" somebody, .claim "sala" nobody, .write 0 (.failed false),
        .write 1 (.failed false)]) := by
    unfold Quiet
    decide +kernel
  exact absurd (h.last "sala" hquiet).1 (by decide +kernel)

end Wavr.Occupancy
