import Mathlib.Algebra.Order.Ring.Rat
import Mathlib.Data.List.Sort
import Wavr.Dict
import Wavr.Run
import Wavr.Text

/-!
# The discovery inbox

`DiscoveryInbox`: one item for each kind and subject that was seen, pending until a person decides
it. The rows of the table are keyed by `discovery_id`, in the order of their insertion.
-/

namespace Wavr.DiscoveryInbox
open Run Text

def DISCOVERY_KINDS : List String :=
  ["device_new", "camera_found", "node_pending", "peer_core", "device_moved", "core_contested"]

inductive Status
  | pending
  | accepted
  | dismissed
  deriving DecidableEq

def MAX_PENDING : ℕ := 500

def MAX_TITLE : ℕ := 160

def MAX_DETAIL_BYTES : ℕ := 4096

/-- One day in microseconds. -/
def DAY : ℤ := 86400000000

/-- `DiscoveryError` with its text, and the refusal of a second row with one `discovery_id`. -/
inductive Error
  | discovery (text : String)
  | integrity
  deriving DecidableEq

/-- What the code takes from the standard library: the hex digest, the compact dumps of a detail
(`dumpsSorted` with its keys sorted at every depth) and the text of a time. -/
structure Library (α : Type) where
  sha256 : String → String
  dumps : List (String × α) → String
  dumpsSorted : List (String × α) → String
  isoformat : ℤ → String

/-- A row of the table, with the detail as it is dumped. -/
structure Discovery where
  kind : String
  subject : String
  title : String
  detail : String
  confidence : ℚ
  status : Status
  fingerprint : String
  firstSeen : String
  lastSeen : String
  decidedTs : Option String
  deriving DecidableEq

abbrev Table := Dict String Discovery

/-- The arguments of `observe`. -/
structure Sighting (α : Type) where
  kind : String
  subject : String
  title : String
  detail : Option (List (String × α))
  confidence : ℚ

section
variable {α : Type} (lib : Library α)

def VOLATILE : List String := ["last_seen", "seen_ts", "rssi", "count", "age_s", "uptime"]

/-- `_fingerprint`. -/
def fingerprint (detail : List (String × α)) : String :=
  let stable := (detail.insertionSort fun a b => a.1 ≤ b.1).filter fun e => e.1 ∉ VOLATILE
  truncate 32 (lib.sha256 (lib.dumpsSorted stable))

/-- The row that a sighting makes, or why it makes none. -/
def candidate (sighting : Sighting α) (now : String) : Except Error Discovery :=
  if sighting.kind ∉ DISCOVERY_KINDS then
    .error (.discovery ("unknown discovery kind: " ++ sighting.kind))
  else
    let subject := truncate 128 (strip sighting.subject)
    if subject = "" then .error (.discovery "subject must not be empty")
    else
      let title := truncate MAX_TITLE (collapse sighting.title)
      if title = "" then .error (.discovery "title must not be empty")
      else
        let detail := sighting.detail.getD []
        if MAX_DETAIL_BYTES < (lib.dumps detail).utf8ByteSize then
          .error (.discovery "detail is too large")
        else
          .ok {
            kind := sighting.kind
            subject := subject
            title := title
            detail := lib.dumps detail
            confidence := max 0 (min 1 sighting.confidence)
            status := .pending
            fingerprint := fingerprint lib detail
            firstSeen := now
            lastSeen := now
            decidedTs := none }

def discoveryId (kind subject : String) : String :=
  truncate 24 (lib.sha256 (kind ++ "|" ++ subject))

/-- `WHERE kind = ? AND subject = ?`. -/
def lookup (kind subject : String) (t : Table) : Option (String × Discovery) :=
  t.entries.find? fun e => e.2.kind = kind ∧ e.2.subject = subject

def pendingItems (t : Table) : Table := t.filter fun _ row => row.status = .pending

/-- `SELECT COUNT(*) .. WHERE status = 'pending'`. -/
def pending (t : Table) : ℕ := t.values.countP fun row => row.status = .pending

def evicted (t : Table) : List String :=
  if pending t < MAX_PENDING then []
  else
    let oldest := (pendingItems t).entries.insertionSort fun a b => a.2.lastSeen ≤ b.2.lastSeen
    (oldest.take (pending t - MAX_PENDING + 1)).map Prod.fst

/-- `_evict_if_full_locked`. -/
def evictIfFull (t : Table) : Table := t.filter fun id _ => id ∉ evicted t

/-- The row is one that was decided, and the sighting shows that the thing itself changed. -/
def Reopens (old new : Discovery) : Prop := old.fingerprint ≠ new.fingerprint ∧ old.status ≠ .pending

instance (old new : Discovery) : Decidable (Reopens old new) := inferInstanceAs (Decidable (_ ∧ _))

/-- The row of a thing that is seen again. -/
def refreshed (old new : Discovery) : Discovery :=
  { new with
    status := if Reopens old new then .pending else old.status
    firstSeen := old.firstSeen
    decidedTs := if Reopens old new then none else old.decidedTs }

def observe (sighting : Sighting α) (now : String) (t : Table) :
    Except Error (String × Discovery) × Table :=
  match candidate lib sighting now with
  | .error e => (.error e, t)
  | .ok new =>
    match lookup new.kind new.subject t with
    | none =>
      let t := evictIfFull t
      let id := discoveryId lib new.kind new.subject
      if (t.get? id).isSome then (.error .integrity, t)
      else (.ok (id, new), t.set id new)
    | some (id, old) => (.ok (id, refreshed old new), t.set id (refreshed old new))

def decide (id : String) (status : Status) (now : String) (t : Table) : Except Error Discovery × Table :=
  if status = .pending then (.error (.discovery "status must be 'accepted' or 'dismissed'"), t)
  else
    match t.get? id with
    | none => (.error (.discovery "unknown discovery"), t)
    | some row =>
      let row := { row with status := status, decidedTs := some now }
      (.ok row, t.set id row)

/-- Whether there was an item to resolve, and the table after it. -/
def resolve (kind subject : String) (status : Status) (now : String) (t : Table) :
    Except Error Bool × Table :=
  if status = .pending then (.error (.discovery "status must be 'accepted' or 'dismissed'"), t)
  else
    let asked (row : Discovery) : Bool :=
      row.kind = kind ∧ row.subject = subject ∧ row.status = .pending
    (.ok (t.values.any asked), t.map fun _ row =>
      if asked row then { row with status := status, decidedTs := some now } else row)

/-- How many went, and the table after it. -/
def prune (days now : ℤ) (t : Table) : ℕ × Table :=
  let cutoff := lib.isoformat (now - max 1 days * DAY)
  let stale (row : Discovery) : Bool := row.status = .pending ∧ row.lastSeen < cutoff
  (t.values.countP stale, t.filter fun _ row => ! stale row)

inductive Op (α : Type)
  | observe (sighting : Sighting α) (now : String)
  | decide (id : String) (status : Status) (now : String)
  | resolve (kind subject : String) (status : Status) (now : String)
  | prune (days now : ℤ)

def step (t : Table) : Op α → Table
  | .observe sighting now => (observe lib sighting now t).2
  | .decide id status now => (decide id status now t).2
  | .resolve kind subject status now => (resolve kind subject status now t).2
  | .prune days now => (prune lib days now t).2

/-- A decided item is re-opened while the inbox is full. -/
def Overfills (t : Table) : Op α → Prop
  | .observe sighting now => ∃ new id old, candidate lib sighting now = .ok new ∧
      lookup new.kind new.subject t = some (id, old) ∧ Reopens old new ∧ MAX_PENDING ≤ pending t
  | _ => False

/-- If the op observes the thing of the row, it is with the row's own fingerprint. -/
def Unchanged (row : Discovery) (_ : Table) : Op α → Prop
  | .observe sighting now => ∀ new, candidate lib sighting now = .ok new → new.kind = row.kind →
      new.subject = row.subject → new.fingerprint = row.fingerprint
  | _ => True

/-! ## The number of pending items -/

variable {lib} {t : Table} {id : String} {row old new : Discovery}

theorem length_pendingItems (t : Table) : (pendingItems t).entries.length = pending t := by
  unfold pendingItems pending Dict.filter Dict.values
  rw [← List.countP_eq_length_filter, List.countP_map]
  rfl

theorem pending_set_of_none (h : t.get? id = none) (hrow : row.status = .pending) :
    pending (t.set id row) = pending t + 1 := by
  unfold pending
  rw [Dict.values_set_of_get?_eq_none h, List.countP_append, List.countP_singleton, hrow]
  rfl

theorem pending_set (row : Discovery) (h : t.get? id = some old) :
    pending (t.set id row) + [old].countP (·.status = .pending) =
    pending t + [row].countP (·.status = .pending) := by
  obtain ⟨pre, post, hset, hold⟩ := Dict.exists_values_set t id row
  rw [h, Option.toList_some, List.singleton_append] at hold
  unfold pending
  rw [hset, hold]
  simp only [List.countP_append, List.countP_cons, List.countP_nil]
  omega

theorem pending_set_decided_le (h : t.get? id = some old) (hrow : row.status ≠ .pending) :
    pending (t.set id row) ≤ pending t := by
  have hcount := pending_set row h
  have hzero : [row].countP (·.status = .pending) = 0 := by simpa using hrow
  omega

theorem pending_filter_le (t : Table) (p : String → Discovery → Bool) :
    pending (t.filter p) ≤ pending t :=
  (List.filter_sublist.map _).countP_le

theorem evicted_subset (t : Table) : evicted t ⊆ (pendingItems t).keys := by
  unfold evicted
  split
  · exact List.nil_subset _
  · intro id hid
    obtain ⟨e, he, rfl⟩ := List.mem_map.mp hid
    exact List.mem_map_of_mem ((List.mem_insertionSort _).mp (List.mem_of_mem_take he))

theorem nodup_evicted (t : Table) : (evicted t).Nodup := by
  unfold evicted
  split
  · exact List.nodup_nil
  · refine List.Nodup.sublist ((List.take_sublist _ _).map _) ?_
    exact ((List.perm_insertionSort _ _).map _).nodup_iff.mpr (pendingItems t).nodup

theorem length_evicted (h : MAX_PENDING ≤ pending t) :
    (evicted t).length = pending t - MAX_PENDING + 1 := by
  unfold evicted
  rw [if_neg (by omega), List.length_map, List.length_take, List.length_insertionSort,
    length_pendingItems]
  have hpos : 0 < MAX_PENDING := by decide
  omega

theorem evicted_eq_nil (h : pending t < MAX_PENDING) : evicted t = [] := if_pos h

/-- Behind the eviction there is room for one more. -/
theorem pending_evictIfFull (t : Table) : pending (evictIfFull t) + 1 ≤ MAX_PENDING := by
  by_cases h : pending t < MAX_PENDING
  · exact (Nat.succ_le_succ (pending_filter_le t _)).trans h
  · have hmax : MAX_PENDING ≤ pending t := Nat.le_of_not_lt h
    have hswap : pendingItems (evictIfFull t) = (pendingItems t).filter fun id _ => id ∉ evicted t := by
      unfold evictIfFull pendingItems
      rw [Dict.filter_filter, Dict.filter_filter]
      exact Dict.filter_congr fun e _ => Bool.and_comm _ _
    have hlen := Dict.length_filter_notMem (pendingItems t) (nodup_evicted t) (evicted_subset t)
    rw [← hswap, length_pendingItems, length_pendingItems, length_evicted hmax] at hlen
    omega

theorem pending_of_evicted (h : t.get? id = some row) (hid : id ∈ evicted t) : row.status = .pending := by
  obtain ⟨row', hrow'⟩ := Option.isSome_iff_exists.mp (Dict.mem_keys.mp (evicted_subset t hid))
  unfold pendingItems at hrow'
  rw [Dict.get?_filter, h] at hrow'
  obtain ⟨hsame, hpending⟩ := Option.filter_eq_some_iff.mp hrow'
  obtain rfl : row = row' := Option.some.inj hsame
  simpa using hpending

/-! ## What an operation does -/

theorem mem_lookup {kind subject : String} (h : lookup kind subject t = some (id, row)) :
    t.get? id = some row ∧ row.kind = kind ∧ row.subject = subject := by
  have hmem := Dict.mem_entries.mp (List.mem_of_find?_eq_some h)
  have hkey := List.find?_some h
  exact ⟨hmem, by simpa using hkey⟩

theorem lookup_empty (kind subject : String) : lookup kind subject .empty = none := rfl

theorem candidate_pending {sighting : Sighting α} {now : String} (h : candidate lib sighting now = .ok new) :
    new.status = .pending := by
  unfold candidate at h
  dsimp only at h
  split_ifs at h
  cases h
  rfl

/-- An observation leaves the table alone, makes room, makes room and inserts, or updates. -/
inductive Observed (lib : Library α) (sighting : Sighting α) (now : String) (t : Table) :
    Except Error (String × Discovery) × Table → Prop
  | refused (e : Error) (h : candidate lib sighting now = .error e) :
    Observed lib sighting now t (.error e, t)
  | collided {new : Discovery} (h : candidate lib sighting now = .ok new)
    (hnone : lookup new.kind new.subject t = none) :
    Observed lib sighting now t (.error .integrity, evictIfFull t)
  | inserted {new : Discovery} (h : candidate lib sighting now = .ok new)
    (hnone : lookup new.kind new.subject t = none)
    (hfree : (evictIfFull t).get? (discoveryId lib new.kind new.subject) = none) :
    Observed lib sighting now t (.ok (discoveryId lib new.kind new.subject, new),
      (evictIfFull t).set (discoveryId lib new.kind new.subject) new)
  | updated {new old : Discovery} {id : String} (h : candidate lib sighting now = .ok new)
    (hold : lookup new.kind new.subject t = some (id, old)) :
    Observed lib sighting now t (.ok (id, refreshed old new), t.set id (refreshed old new))

theorem observe_observed (lib : Library α) (sighting : Sighting α) (now : String) (t : Table) :
    Observed lib sighting now t (observe lib sighting now t) := by
  unfold observe
  split
  · rename_i e h
    exact .refused e h
  · rename_i new h
    split
    · rename_i hnone
      dsimp only
      split
      · exact .collided h hnone
      · rename_i hfree
        exact .inserted h hnone (by simpa using hfree)
    · rename_i id old hold
      exact .updated h hold

theorem pending_refreshed (old new : Discovery) : [refreshed old new].countP (·.status = .pending) =
    [old].countP (·.status = .pending) + if Reopens old new then 1 else 0 := by
  unfold refreshed
  by_cases h : Reopens old new
  · simp [h, h.2]
  · simp [h, List.countP_singleton]

theorem pending_map_le (t : Table) (f : String → Discovery → Discovery)
    (h : ∀ id row, (f id row).status = .pending → row.status = .pending) :
    pending (t.map f) ≤ pending t := by
  unfold pending Dict.map Dict.values
  rw [List.map_map, List.countP_map, List.countP_map]
  refine List.countP_mono_left fun e _ he => ?_
  simpa using h e.1 e.2 (by simpa using he)

/-- An observation keeps the number within the ceiling unless it re-opens an item of a full inbox. -/
theorem pending_observe (h : pending t ≤ MAX_PENDING) (sighting : Sighting α) (now : String) :
    pending (observe lib sighting now t).2 ≤ MAX_PENDING ↔ ¬ Overfills lib t (.observe sighting now) := by
  have hobserved := observe_observed lib sighting now t
  generalize observe lib sighting now t = out at hobserved ⊢
  cases hobserved with
  | refused e hnew =>
    refine iff_of_true h ?_
    rintro ⟨new, id, old, hok, -⟩
    cases hnew.symm.trans hok
  | @collided new hnew hnone =>
    refine iff_of_true (Nat.le_of_succ_le (pending_evictIfFull t)) ?_
    rintro ⟨new', id, old, hok, hold, -⟩
    obtain rfl : new = new' := Except.ok.inj (hnew.symm.trans hok)
    cases hnone.symm.trans hold
  | @inserted new hnew hnone hfree =>
    have hroom := pending_evictIfFull t
    rw [← pending_set_of_none hfree (candidate_pending hnew)] at hroom
    refine iff_of_true hroom ?_
    rintro ⟨new', id, old, hok, hold, -⟩
    obtain rfl : new = new' := Except.ok.inj (hnew.symm.trans hok)
    cases hnone.symm.trans hold
  -- an update evicts nothing, so reopening a decided row can go over the cap
  | @updated new old id hnew hold =>
    have hcount := pending_set (refreshed old new) (mem_lookup hold).1
    rw [pending_refreshed] at hcount
    by_cases hover : Reopens old new ∧ MAX_PENDING ≤ pending t
    · rw [if_pos hover.1] at hcount
      refine iff_of_false ?_ (not_not.mpr ⟨new, id, old, hnew, hold, hover⟩)
      show ¬ pending (t.set id (refreshed old new)) ≤ MAX_PENDING
      omega
    · refine iff_of_true ?_ ?_
      · show pending (t.set id (refreshed old new)) ≤ MAX_PENDING
        split at hcount
        · rename_i hre
          have hlt : pending t < MAX_PENDING := Nat.lt_of_not_le fun hmax => hover ⟨hre, hmax⟩
          omega
        · omega
      · rintro ⟨new', id', old', hok, hold', hover'⟩
        obtain rfl : new = new' := Except.ok.inj (hnew.symm.trans hok)
        cases hold.symm.trans hold'
        exact hover hover'

theorem pending_decide_le (id : String) (status : Status) (now : String) (t : Table) :
    pending (decide id status now t).2 ≤ pending t := by
  unfold decide
  split
  · exact le_rfl
  · rename_i hstatus
    split
    · exact le_rfl
    · rename_i row hrow
      exact pending_set_decided_le hrow hstatus

theorem pending_resolve_le (kind subject : String) (status : Status) (now : String) (t : Table) :
    pending (resolve kind subject status now t).2 ≤ pending t := by
  unfold resolve
  split
  · exact le_rfl
  · refine pending_map_le t _ fun id row h => ?_
    dsimp only at h
    split at h
    · rename_i hasked
      exact (of_decide_eq_true hasked).2.2
    · exact h

theorem pending_step (h : pending t ≤ MAX_PENDING) (op : Op α) :
    pending (step lib t op) ≤ MAX_PENDING ↔ ¬ Overfills lib t op := by
  cases op with
  | observe sighting now => exact pending_observe h sighting now
  | decide id status now => exact iff_of_true ((pending_decide_le id status now t).trans h) not_false
  | resolve kind subject status now =>
    exact iff_of_true ((pending_resolve_le kind subject status now t).trans h) not_false
  | prune days now => exact iff_of_true ((pending_filter_le t _).trans h) not_false

/-! ## Decided items -/

/-- Eviction, prune and resolve leave a decided item as it is. -/
theorem get?_evictIfFull (h : t.get? id = some row) (hrow : row.status ≠ .pending) :
    (evictIfFull t).get? id = some row := by
  unfold evictIfFull
  rw [Dict.get?_filter, h]
  have hid : id ∉ evicted t := fun hid => hrow (pending_of_evicted h hid)
  simp [Option.filter, hid]

theorem get?_prune (h : t.get? id = some row) (hrow : row.status ≠ .pending) (days now : ℤ) :
    (prune lib days now t).2.get? id = some row := by
  unfold prune
  rw [Dict.get?_filter, h]
  simp [Option.filter, hrow]

theorem get?_resolve (h : t.get? id = some row) (hrow : row.status ≠ .pending) (kind subject : String)
    (status : Status) (now : String) : (resolve kind subject status now t).2.get? id = some row := by
  unfold resolve
  split
  · exact h
  · rw [Dict.get?_map, h]
    simp [hrow]

/-- The item is there, decided, and its thing looks as it did. -/
def Rests (id : String) (row : Discovery) (t : Table) : Prop :=
  ∃ row', t.get? id = some row' ∧ row'.status ≠ .pending ∧ row'.kind = row.kind ∧
    row'.subject = row.subject ∧ row'.fingerprint = row.fingerprint

theorem Rests.observe (h : Rests id row t) {sighting : Sighting α} {now : String}
    (hop : Unchanged lib row t (.observe sighting now)) :
    Rests id row (DiscoveryInbox.observe lib sighting now t).2 := by
  obtain ⟨row', hrow', hdecided, hkind, hsubject, hprint⟩ := h
  have hsame : ∀ t', t'.get? id = some row' → Rests id row t' := fun t' ht' =>
    ⟨row', ht', hdecided, hkind, hsubject, hprint⟩
  have hobserved := observe_observed lib sighting now t
  generalize DiscoveryInbox.observe lib sighting now t = out at hobserved ⊢
  cases hobserved with
  | refused => exact hsame _ hrow'
  | collided => exact hsame _ (get?_evictIfFull hrow' hdecided)
  | @inserted new hnew hnone hfree =>
    have hkept := get?_evictIfFull hrow' hdecided
    have hne : id ≠ discoveryId lib new.kind new.subject := fun he => by
      rw [← he, hkept] at hfree
      cases hfree
    exact hsame _ ((Dict.get?_set_ne _ hne _).trans hkept)
  | @updated new old id' hnew hold =>
    obtain ⟨hold, hold_kind, hold_subject⟩ := mem_lookup hold
    by_cases hid : id = id'
    · subst hid
      obtain rfl : row' = old := Option.some.inj (hrow'.symm.trans hold)
      have hnew_print := hop new hnew (hold_kind.symm.trans hkind) (hold_subject.symm.trans hsubject)
      have hquiet : ¬ Reopens row' new := fun hre => hre.1 (hprint.trans hnew_print.symm)
      refine ⟨refreshed row' new, Dict.get?_set_self _ _ _, ?_, hold_kind.symm.trans hkind,
        hold_subject.symm.trans hsubject, hnew_print⟩
      show (if Reopens row' new then Status.pending else row'.status) ≠ .pending
      rwa [if_neg hquiet]
    · exact hsame _ ((Dict.get?_set_ne _ hid _).trans hrow')

theorem Rests.decide (h : Rests id row t) (id' : String) (status : Status) (now : String) :
    Rests id row (DiscoveryInbox.decide id' status now t).2 := by
  obtain ⟨row', hrow', hdecided, hkind, hsubject, hprint⟩ := h
  have hsame : ∀ t', t'.get? id = some row' → Rests id row t' := fun t' ht' =>
    ⟨row', ht', hdecided, hkind, hsubject, hprint⟩
  unfold DiscoveryInbox.decide
  split
  · exact hsame _ hrow'
  · rename_i hstatus
    split
    · exact hsame _ hrow'
    · rename_i old hold
      by_cases hid : id = id'
      · subst hid
        obtain rfl : row' = old := Option.some.inj (hrow'.symm.trans hold)
        exact ⟨_, Dict.get?_set_self _ _ _, hstatus, hkind, hsubject, hprint⟩
      · exact hsame _ ((Dict.get?_set_ne _ hid _).trans hrow')

theorem Rests.step (h : Rests id row t) {op : Op α} (hop : Unchanged lib row t op) :
    Rests id row (step lib t op) := by
  cases op with
  | observe sighting now => exact h.observe hop
  | decide id' status now => exact h.decide id' status now
  | resolve kind subject status now =>
    obtain ⟨row', hrow', hdecided, hrest⟩ := h
    exact ⟨row', get?_resolve hrow' hdecided kind subject status now, hdecided, hrest⟩
  | prune days now =>
    obtain ⟨row', hrow', hdecided, hrest⟩ := h
    exact ⟨row', get?_prune hrow' hdecided days now, hdecided, hrest⟩

/-- In every run, the number of pending items stays within `MAX_PENDING` if and only if no decided
item is re-opened while that many are pending; a dismissed item comes back only with another
fingerprint; eviction, prune and resolve leave the decided items alone. -/
theorem inbox_bounded (lib : Library α) (ops : List (Op α)) :
    (AllStates (step lib) (fun t => pending t ≤ MAX_PENDING) .empty ops ↔
      AllSteps (step lib) (fun t op => ¬ Overfills lib t op) .empty ops) ∧
    (∀ id row, (finish (step lib) .empty ops).get? id = some row → row.status = .dismissed →
      ∀ later, AllSteps (step lib) (Unchanged lib row) (finish (step lib) .empty ops) later →
        ∃ row', (finish (step lib) .empty (ops ++ later)).get? id = some row' ∧ row'.status ≠ .pending) ∧
    (∀ id row, (finish (step lib) .empty ops).get? id = some row → row.status ≠ .pending →
      (evictIfFull (finish (step lib) .empty ops)).get? id = some row ∧
      (∀ days now, (prune lib days now (finish (step lib) .empty ops)).2.get? id = some row) ∧
      ∀ kind subject status now,
        (resolve kind subject status now (finish (step lib) .empty ops)).2.get? id = some row) := by
  refine ⟨?_, fun id row hrow hdismissed later hlater => ?_, fun id row hrow hdecided =>
    ⟨get?_evictIfFull hrow hdecided, get?_prune hrow hdecided, get?_resolve hrow hdecided⟩⟩
  · exact allStates_iff_allSteps (I := fun t => pending t ≤ MAX_PENDING)
      (fun t op h hop => (pending_step h op).mpr hop) (fun t h => h)
      (fun t op h hop hle => hop ((pending_step h op).mp hle)) (Nat.zero_le _)
  · have hdecided : row.status ≠ .pending := by
      rw [hdismissed]
      decide
    have hrests : Rests id row (finish (step lib) .empty ops) := ⟨row, hrow, hdecided, rfl, rfl, rfl⟩
    obtain ⟨row', hrow', hdecided', -⟩ :=
      finish_of_invariant (I := Rests id row) (fun t op h hop => h.step hop) hrests hlater
    exact ⟨row', by rw [finish_append]; exact hrow', hdecided'⟩

end

/-! ## An inbox that overflows -/

/-- A digest without collisions on the run below. -/
def plain : Library Unit where
  sha256 := id
  dumps detail := String.join (detail.map Prod.fst)
  dumpsSorted detail := String.join (detail.map Prod.fst)
  isoformat now := toString now

/-- A name of nine characters. -/
def name (i : ℕ) : String := String.ofList ((List.range 9).map fun k => if i.testBit k then 'b' else 'a')

def core (i : ℕ) (detail : List (String × Unit)) : Sighting Unit :=
  ⟨"peer_core", name i, "Core", some detail, 1⟩

def coreRow (i : ℕ) (detail : List (String × Unit)) : Discovery where
  kind := "peer_core"
  subject := name i
  title := truncate MAX_TITLE (collapse "Core")
  detail := plain.dumps detail
  confidence := max 0 (min 1 1)
  status := .pending
  fingerprint := fingerprint plain detail
  firstSeen := "2026-01-01T00:00:00+00:00"
  lastSeen := "2026-01-01T00:00:00+00:00"
  decidedTs := none

def coreId (i : ℕ) : String := discoveryId plain "peer_core" (name i)

/-- A Core is seen and dismissed, and others are, up to the ceiling. -/
def filling (n : ℕ) : List (Op Unit) :=
  .observe (core 0 []) "2026-01-01T00:00:00+00:00" ::
    .decide (coreId 0) .dismissed "2026-01-01T00:00:00+00:00" ::
    (List.range n).map fun i => .observe (core (i + 1) []) "2026-01-01T00:00:00+00:00"

theorem toList_name (i : ℕ) :
    (name i).toList = (List.range 9).map fun k => if i.testBit k then 'b' else 'a' := String.toList_ofList

theorem name_inj {i j : ℕ} (hi : i < 512) (hj : j < 512) (h : name i = name j) : i = j := by
  have hbits : ∀ k ∈ List.range 9, (if i.testBit k then 'b' else 'a') = if j.testBit k then 'b' else 'a' :=
    List.map_inj_left.mp (String.ofList_injective h)
  refine Nat.eq_of_testBit_eq fun k => ?_
  by_cases hk : k < 9
  · have hbit := hbits k (List.mem_range.mpr hk)
    cases hik : i.testBit k <;> cases hjk : j.testBit k <;> simp [hik, hjk] at hbit ⊢
  · have hpow : 2 ^ 9 ≤ 2 ^ k := Nat.pow_le_pow_right (by decide) (by omega)
    rw [Nat.testBit_lt_two_pow (by omega), Nat.testBit_lt_two_pow (by omega)]

theorem coreId_eq (i : ℕ) : coreId i = "peer_core" ++ "|" ++ name i := by
  have hlen : ("peer_core" ++ "|" ++ name i).toList.length ≤ 24 := by
    rw [String.toList_append, List.length_append, toList_name, List.length_map, List.length_range]
    decide
  show truncate 24 ("peer_core" ++ "|" ++ name i) = _
  rw [truncate, List.take_of_length_le hlen, String.ofList_toList]

theorem coreId_inj {i j : ℕ} (hi : i < 512) (hj : j < 512) (h : coreId i = coreId j) : i = j := by
  rw [coreId_eq, coreId_eq] at h
  exact name_inj hi hj (by simpa using h)

theorem candidate_core (i : ℕ) (detail : List (String × Unit))
    (h : (plain.dumps detail).utf8ByteSize ≤ MAX_DETAIL_BYTES) :
    candidate plain (core i detail) "2026-01-01T00:00:00+00:00" = .ok (coreRow i detail) := by
  have hstrip : truncate 128 (strip (name i)) = name i := by
    rw [strip_of_no_space, truncate, List.take_of_length_le, String.ofList_toList]
    · simp [toList_name]
    · rw [toList_name, List.all_map, List.all_eq_true]
      intro k _
      simp only [Function.comp_apply]
      split <;> rfl
  have hname : name i ≠ "" := fun he => by
    have hnil := congrArg String.toList he
    rw [toList_name] at hnil
    cases hnil
  have htitle : truncate MAX_TITLE (collapse "Core") ≠ "" := by
    rw [Ne, truncate_eq_empty (by decide), collapse_eq_empty]
    decide
  unfold candidate core
  dsimp only
  rw [if_neg (by decide), hstrip, if_neg hname, if_neg htitle, Option.getD_some,
    if_neg (Nat.not_lt.mpr h)]
  rfl

/-- A thing that is not there yet is inserted, where the inbox is not full. -/
theorem observe_fresh {α : Type} {lib : Library α} {sighting : Sighting α} {now : String} {t : Table}
    {new : Discovery} (hnew : candidate lib sighting now = .ok new)
    (hnone : lookup new.kind new.subject t = none) (hroom : pending t < MAX_PENDING)
    (hfree : t.get? (discoveryId lib new.kind new.subject) = none) :
    (observe lib sighting now t).2 = t.set (discoveryId lib new.kind new.subject) new := by
  have hkeep : evictIfFull t = t := Dict.filter_eq_self fun e _ => by simp [evicted_eq_nil hroom]
  unfold observe
  rw [hnew]
  dsimp only
  rw [hnone]
  dsimp only
  rw [hkeep, hfree]
  rfl

theorem step_core {t : Table} (i : ℕ) (hnone : lookup "peer_core" (name i) t = none)
    (hroom : pending t < MAX_PENDING) (hfree : t.get? (coreId i) = none) :
    step plain t (.observe (core i []) "2026-01-01T00:00:00+00:00") = t.set (coreId i) (coreRow i []) := by
  have hsize : (plain.dumps []).utf8ByteSize ≤ MAX_DETAIL_BYTES := by decide
  have hseen := observe_fresh (candidate_core i [] hsize) hnone hroom hfree
  exact hseen

def dismissedRow : Discovery :=
  { coreRow 0 [] with status := .dismissed, decidedTs := some "2026-01-01T00:00:00+00:00" }

def reopening : Op Unit := .observe (core 0 [("ip", ())]) "2026-01-01T00:00:00+00:00"

/-- What the filling leaves. -/
def filled (n : ℕ) : List (String × Discovery) :=
  (coreId 0, dismissedRow) :: (List.range n).map fun i => (coreId (i + 1), coreRow (i + 1) [])

theorem pending_filled {t : Table} {n : ℕ} (h : t.entries = filled n) : pending t = n := by
  have hall : ∀ i ∈ List.range n, ((fun row : Discovery => Decidable.decide (row.status = .pending)) ∘
      Prod.snd ∘ fun i => (coreId (i + 1), coreRow (i + 1) [])) i = true := fun _ _ => rfl
  unfold pending Dict.values
  rw [h, filled, List.map_cons, List.map_map, List.countP_cons_of_neg (by decide), List.countP_map,
    List.countP_eq_length.mpr hall, List.length_range]

/-- The names that are there are those of the smaller numbers, so the next one is free. -/
theorem free_of_filled {t : Table} {n : ℕ} (hn : n + 1 ≤ 500) (h : t.entries = filled n) :
    t.get? (coreId (n + 1)) = none ∧ lookup "peer_core" (name (n + 1)) t = none := by
  have hknown : ∀ id row, t.get? id = some row → id ≠ coreId (n + 1) ∧ row.subject ≠ name (n + 1) := by
    intro id row hrow
    have hmem := Dict.mem_entries.mpr hrow
    rw [h, filled] at hmem
    have hnumber : ∃ j ≤ n, id = coreId j ∧ row.subject = name j := by
      rcases List.mem_cons.mp hmem with heq | hmem
      · obtain ⟨hid, hrow⟩ := Prod.mk.inj heq
        exact ⟨0, Nat.zero_le n, hid, congrArg Discovery.subject hrow⟩
      · obtain ⟨i, hi, heq⟩ := List.mem_map.mp hmem
        obtain ⟨hid, hrow⟩ := Prod.mk.inj heq
        exact ⟨i + 1, List.mem_range.mp hi, hid.symm, congrArg Discovery.subject hrow.symm⟩
    obtain ⟨j, hj, hid, hsubject⟩ := hnumber
    refine ⟨fun he => ?_, fun he => ?_⟩
    · have heq := coreId_inj (by omega) (by omega) (hid.symm.trans he)
      omega
    · have heq := name_inj (by omega) (by omega) (hsubject.symm.trans he)
      omega
  constructor
  · cases hget : t.get? (coreId (n + 1)) with
    | none => rfl
    | some row => exact absurd rfl (hknown _ row hget).1
  · cases hlookup : lookup "peer_core" (name (n + 1)) t with
    | none => rfl
    | some e => exact absurd (mem_lookup hlookup).2.2 (hknown e.1 e.2 (mem_lookup hlookup).1).2

theorem entries_filling {n : ℕ} (hn : n ≤ 500) :
    (finish (step plain) .empty (filling n)).entries = filled n := by
  induction n with
  | zero =>
    have hseen := step_core (t := .empty) 0 (lookup_empty _ _) (by decide) (Dict.get?_empty _)
    rw [filling, finish_cons, hseen, finish_cons, step, decide, if_neg (by decide), Dict.get?_set_self]
    show Dict.setEntry (coreId 0) dismissedRow [(coreId 0, coreRow 0 [])] = _
    rw [Dict.setEntry, if_pos rfl]
    rfl
  | succ n ih =>
    have hentries := ih (Nat.le_of_succ_le hn)
    have hsplit : filling (n + 1) =
        filling n ++ [.observe (core (n + 1) []) "2026-01-01T00:00:00+00:00"] := by
      simp [filling, List.range_succ]
    rw [hsplit, finish_append]
    generalize finish (step plain) .empty (filling n) = t at hentries ⊢
    obtain ⟨hfree, hnone⟩ := free_of_filled hn hentries
    have hroom : pending t < MAX_PENDING := by
      rw [pending_filled hentries]
      exact hn
    rw [finish_cons, finish_nil, step_core (n + 1) hnone hroom hfree,
      Dict.entries_set_of_get?_eq_none hfree, hentries]
    simp [filled, List.range_succ]

theorem fingerprint_changed : fingerprint plain [] ≠ fingerprint plain [("ip", ())] := by
  decide

/-- The dismissed Core comes back with an address, as one more than `MAX_PENDING`. -/
theorem inbox_overflows :
    ¬ AllStates (step plain) (fun t => pending t ≤ MAX_PENDING) .empty (filling 500 ++ [reopening]) := by
  intro h
  have hlast := h.last
  rw [finish_append, finish_cons, finish_nil] at hlast
  have hentries := entries_filling (Nat.le_refl 500)
  generalize finish (step plain) .empty (filling 500) = t at hentries hlast
  have hcount : pending t = MAX_PENDING := pending_filled hentries
  have hfound : lookup "peer_core" (name 0) t = some (coreId 0, dismissedRow) := by
    unfold lookup
    rw [hentries, filled]
    exact List.find?_cons_of_pos (by simp [dismissedRow, coreRow])
  have hnew := candidate_core 0 [("ip", ())] (by decide)
  have hchanged : Reopens dismissedRow (coreRow 0 [("ip", ())]) := ⟨fingerprint_changed, by decide⟩
  exact (pending_step hcount.le reopening).mp hlast
    ⟨coreRow 0 [("ip", ())], coreId 0, dismissedRow, hnew, hfound, hchanged, hcount.ge⟩

end Wavr.DiscoveryInbox
