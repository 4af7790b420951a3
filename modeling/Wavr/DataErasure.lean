import Mathlib.Algebra.GroupWithZero.Nat
import Mathlib.Data.List.Dedup
import Wavr.Dict
import Wavr.Text
import Wavr.Transaction

/-!
# Erasing what was learned

The categories of what is stored, which of them may be erased, and the deletion of a chosen set of
them in one transaction. A table that cannot be read is skipped and named in the report.
-/

namespace Wavr.DataErasure

open Transaction (Failure failure rest issue issueAll effective rewrite)

inductive Retention
  | persistent
  | session
  | never
  deriving DecidableEq

/-- One kind of thing that is held; `also` names further tables it covers. -/
structure Category where
  key : String
  retention : Retention
  table : Option String
  also : List String

def CATEGORIES : List Category :=
  [⟨"camera_frames", .never, none, []⟩,
    ⟨"positions", .never, none, []⟩,
    ⟨"vitals", .never, none, []⟩,
    ⟨"assistant_log", .persistent, some "assistant_log", []⟩,
    ⟨"assistant_setup", .persistent, some "assistant_selection", ["assistant_manual_config"]⟩,
    ⟨"occupancy_log", .persistent, some "occupancy_log", []⟩,
    ⟨"anchors", .persistent, some "anchors", ["anchor_mappings"]⟩,
    ⟨"people", .persistent, some "people", []⟩,
    ⟨"person_devices", .persistent, some "person_devices", []⟩,
    ⟨"devices", .persistent, some "devices", []⟩,
    ⟨"identity_devices", .persistent, some "identity_devices", []⟩,
    ⟨"known_devices", .persistent, some "known_devices", []⟩,
    ⟨"device_meta", .persistent, some "device_meta", []⟩,
    ⟨"device_roles", .persistent, some "device_functions", ["device_capabilities"]⟩,
    ⟨"cameras", .persistent, some "cameras", []⟩,
    ⟨"nodes", .persistent, some "nodes", []⟩,
    ⟨"sensor_reliability", .persistent, some "sensor_reliability", []⟩,
    ⟨"validation_sessions", .persistent, some "validation_sessions", []⟩,
    ⟨"camera_calib", .persistent, some "camera_calib", []⟩,
    ⟨"space", .persistent, some "space", []⟩,
    ⟨"cores", .persistent, some "cores", []⟩,
    ⟨"peers", .persistent, some "peers", []⟩,
    ⟨"room_links", .persistent, some "room_links", []⟩,
    ⟨"settings", .persistent, some "settings", []⟩,
    ⟨"connectors", .persistent, some "connectors", []⟩,
    ⟨"experience_grants", .persistent, some "experience_grants", []⟩,
    ⟨"external_providers", .persistent, some "external_providers", []⟩,
    ⟨"ha_presence_map", .persistent, some "ha_presence_map", []⟩,
    ⟨"ha_devices", .persistent, some "ha_devices", []⟩,
    ⟨"core_pin", .persistent, some "core_pin", []⟩,
    ⟨"gateway_binding", .persistent, some "gateway_binding", []⟩,
    ⟨"routines", .persistent, some "routines", []⟩,
    ⟨"discoveries", .persistent, some "discoveries", []⟩,
    ⟨"room_states", .persistent, some "room_states", []⟩,
    ⟨"trace", .session, none, []⟩]

inductive Kind
  | observation
  | setup
  deriving DecidableEq

def CLASSIFICATION : List (String × Kind) :=
  [("assistant_log", .observation), ("occupancy_log", .observation), ("room_states", .observation),
    ("sensor_reliability", .observation), ("validation_sessions", .observation),
    ("discoveries", .observation), ("gateway_binding", .observation), ("ha_devices", .observation),
    ("assistant_setup", .setup), ("known_devices", .setup), ("anchors", .setup), ("people", .setup),
    ("person_devices", .setup), ("devices", .setup), ("identity_devices", .setup),
    ("device_meta", .setup), ("device_roles", .setup), ("cameras", .setup), ("nodes", .setup),
    ("camera_calib", .setup), ("space", .setup), ("cores", .setup), ("peers", .setup),
    ("room_links", .setup), ("settings", .setup), ("connectors", .setup),
    ("experience_grants", .setup), ("external_providers", .setup), ("ha_presence_map", .setup),
    ("core_pin", .setup), ("routines", .setup)]

/-- The clause that isolates what was observed, for a table that also holds decisions. -/
def ROW_FILTER : List (String × String) := [("discoveries", "status = 'pending'")]

structure Entry where
  key : String
  kind : Kind
  tables : List String
  clause : Option String

def erasable : List Entry :=
  CATEGORIES.filterMap fun c =>
    match c.retention, c.table, CLASSIFICATION.lookup c.key with
    | .persistent, some table, some kind => some ⟨c.key, kind, table :: c.also, ROW_FILTER.lookup c.key⟩
    | _, _, _ => none

inductive ErasureError
  | noCategory
  | notErasable (unknown : List String)

/-- `list(dict.fromkeys(keys))`. -/
def fromKeys (keys : List String) : List String := keys.reverse.dedup.reverse

def plan (keys : List String) : Except ErasureError (List Entry) :=
  let wanted := fromKeys keys
  if wanted = [] then .error .noCategory
  else
    let unknown := wanted.filter fun k => ! erasable.any fun e => e.key = k
    if unknown ≠ [] then .error (.notErasable (Text.sortedSet unknown.toFinset))
    else .ok (wanted.filterMap fun k => erasable.find? fun e => e.key = k)

/-! ## The database -/

variable {ρ : Type} (meets : String → ρ → Bool)

/-- The rows of each table there is. -/
abbrev Database (ρ : Type) := String → Option (List ρ)

/-- The rows a statement is about: those that meet its clause, all without one. -/
def selects (clause : Option String) (row : ρ) : Bool := clause.elim true fun c => meets c row

def selected (clause : Option String) (table : String) (db : Database ρ) : List ρ :=
  ((db table).getD []).filter (selects meets clause)

/-- `DELETE FROM table WHERE clause` on a table that is there. -/
def remove (clause : Option String) (table : String) (db : Database ρ) : Database ρ :=
  Function.update db table ((db table).map fun rows => rows.filter fun row => ! selects meets clause row)

def countEntries (db : Database ρ) (entries : List Entry) : Dict String ℕ :=
  entries.foldl (fun out e => out.set e.key (e.tables.map fun t => (selected meets e.clause t db).length).sum)
    .empty

def counts (db : Database ρ) (keys : List String) : Except ErasureError (Dict String ℕ) :=
  (plan keys).map (countEntries meets db)

/-! ## The deletion -/

/-- The state of the loop: the connection, what is still to fail, and the tables that were skipped. -/
structure Loop (ρ : Type) where
  conn : Connection (Database ρ)
  fault : Option (ℕ × Failure)
  missing : List String

/-- One DELETE, and how many rows it says went. -/
def deleteFrom (clause : Option String) (table : String) (l : Loop ρ) : Loop ρ × ℕ :=
  match failure l.fault, l.conn.seen table with
  | some e, _ => (⟨issue id (some e) l.conn, rest l.fault, l.missing ++ [table]⟩, 0)
  | none, none => (⟨l.conn, rest l.fault, l.missing ++ [table]⟩, 0)
  | none, some _ =>
    (⟨issue (remove meets clause table) none l.conn, rest l.fault, l.missing⟩,
      (selected meets clause table l.conn.seen).length)

def eraseEntry (e : Entry) (l : Loop ρ) : Loop ρ × ℕ :=
  e.tables.foldl (fun acc table =>
    let out := deleteFrom meets e.clause table acc.1
    (out.1, acc.2 + out.2)) (l, 0)

def eraseEntries (entries : List Entry) (l : Loop ρ) : Loop ρ × Dict String ℕ :=
  entries.foldl (fun acc e =>
    let out := eraseEntry meets e acc.1
    (out.1, acc.2.set e.key out.2)) (l, .empty)

structure Report where
  deleted : Dict String ℕ
  before : Dict String ℕ
  total : ℕ
  tablesNotPresent : List String

/-- What is returned or raised, and the database afterwards; `fault` is a failure, other than that
of a missing table, of one of the DELETEs. -/
def erase (db : Database ρ) (keys : List String) (fault : Option (ℕ × Failure)) :
    Except ErasureError Report × Database ρ :=
  match plan keys with
  | .error e => (.error e, db)
  | .ok entries =>
    let out := eraseEntries meets entries ⟨.opened db, fault, []⟩
    (.ok ⟨out.2, countEntries meets db entries, out.2.values.sum, Text.sortedSet out.1.missing.toFinset⟩,
      out.1.conn.seen)

/-! ## All or nothing -/

/-- The DELETEs of a plan, in order. -/
def statements (entries : List Entry) : List (Option String × String) :=
  entries.flatMap fun e => e.tables.map fun t => (e.clause, t)

/-- A row that the plan is about. -/
def named (entries : List Entry) (table : String) (row : ρ) : Bool :=
  (statements entries).any fun a => a.2 = table ∧ selects meets a.1 row

/-- A success deletes the rows that were announced and no others, a refusal none, and nothing else
is ever deleted. -/
structure Lawful (db : Database ρ) (keys : List String) (out : Except ErasureError Report × Database ρ) :
    Prop where
  done : ∀ r, out.1 = .ok r → counts meets db keys = .ok r.deleted ∧ ∀ entries, plan keys = .ok entries →
    ∀ table, out.2 table = (db table).map fun rows => rows.filter fun row => ! named meets entries table row
  refused : ∀ e, out.1 = .error e → out.2 = db
  frame : ∀ entries, plan keys = .ok entries → ∀ table,
    (out.2 table).map (fun rows => rows.filter fun row => ! named meets entries table row) =
      (db table).map fun rows => rows.filter fun row => ! named meets entries table row

/-! ## The plan -/

section
variable {entries : List Entry} {keys : List String}

theorem fromKeys_nodup (keys : List String) : (fromKeys keys).Nodup :=
  List.nodup_reverse.mpr (List.nodup_dedup _)

theorem tables_nodup_of_erasable : ∀ e ∈ erasable, e.tables.Nodup := by decide +kernel

theorem tables_disjoint_of_erasable : ∀ e ∈ erasable, ∀ e' ∈ erasable, e.key ≠ e'.key →
    ∀ t ∈ e.tables, t ∉ e'.tables := by
  decide +kernel

theorem plan_ok (h : plan keys = .ok entries) :
    entries = (fromKeys keys).filterMap fun k => erasable.find? fun e => e.key = k := by
  unfold plan at h
  dsimp only at h
  split_ifs at h
  exact (Except.ok.inj h).symm

theorem find_erasable {k : String} {e : Entry} (h : (erasable.find? fun e => e.key = k) = some e) :
    e ∈ erasable ∧ e.key = k :=
  ⟨List.mem_of_find?_eq_some h, by simpa using List.find?_some h⟩

/-- No table is named twice in a plan. -/
theorem plan_tables_nodup (h : plan keys = .ok entries) : ((statements entries).map Prod.snd).Nodup := by
  have hflat : (statements entries).map Prod.snd = entries.flatMap Entry.tables := by
    simp [statements, List.map_flatMap, Function.comp_def]
  rw [hflat, plan_ok h, List.nodup_flatMap]
  constructor
  · intro e he
    obtain ⟨k, _, hk⟩ := List.mem_filterMap.mp he
    exact tables_nodup_of_erasable e (find_erasable hk).1
  · rw [List.pairwise_filterMap]
    refine (fromKeys_nodup keys).imp fun {k k'} hne e he e' he' => ?_
    obtain ⟨hmem, hkey⟩ := find_erasable he
    obtain ⟨hmem', hkey'⟩ := find_erasable he'
    intro t ht ht'
    exact tables_disjoint_of_erasable e hmem e' hmem' (by rwa [hkey, hkey']) t ht ht'

end

/-! ## The loop as a transaction -/

section
variable {meets} {db : Database ρ} {l : Loop ρ}

/-- What a statement makes of its table. -/
def purge (meets : String → ρ → Bool) (a : Option String × String) (rows : Option (List ρ)) : Option (List ρ) :=
  rows.map fun rs => rs.filter fun row => ! selects meets a.1 row

theorem purge_eq_self {a : Option String × String} :
    purge meets a (db a.2) = db a.2 ↔ selected meets a.1 a.2 db = [] := by
  unfold purge selected
  cases db a.2 with
  | none => simp
  | some rows => simp [List.filter_eq_self, List.filter_eq_nil_iff]

def advance (meets : String → ρ → Bool) (l : Loop ρ) (a : Option String × String) : Loop ρ :=
  (deleteFrom meets a.1 a.2 l).1

theorem advance_fault (a : Option String × String) : (advance meets l a).fault = rest l.fault := by
  unfold advance deleteFrom
  split <;> rfl

/-- A DELETE on a missing table changes no more than the statement would. -/
theorem advance_conn (a : Option String × String) : (advance meets l a).conn =
    issue (rewrite Prod.snd (purge meets) a) (failure l.fault) l.conn := by
  unfold advance deleteFrom
  split
  · rename_i e he
    rw [he]
    cases e <;> rfl
  · rename_i he hmissing
    have hsame : rewrite Prod.snd (purge meets) a l.conn.seen = l.conn.seen := by
      rw [rewrite, hmissing]
      exact Function.update_eq_self_iff.mpr hmissing.symm
    rw [he, issue, hsame]
  · rename_i he _
    rw [he]
    rfl

theorem conn_foldl_advance (as : List (Option String × String)) : (as.foldl (advance meets) l).conn =
    issueAll (rewrite Prod.snd (purge meets)) l.fault as l.conn := by
  induction as generalizing l with
  | nil => rfl
  | cons a as ih => rw [List.foldl_cons, ih, advance_fault, advance_conn, issueAll]

theorem foldl_tables (clause : Option String) (ts : List String) (n : ℕ) :
    (ts.foldl (fun acc t => let out := deleteFrom meets clause t acc.1; (out.1, acc.2 + out.2)) (l, n)).1 =
      (ts.map fun t => (clause, t)).foldl (advance meets) l := by
  induction ts generalizing l n with
  | nil => rfl
  | cons t ts ih => exact ih _

theorem eraseEntry_fst (e : Entry) :
    (eraseEntry meets e l).1 = (e.tables.map fun t => (e.clause, t)).foldl (advance meets) l :=
  foldl_tables e.clause e.tables 0

theorem foldl_entries (es : List Entry) (d : Dict String ℕ) :
    (es.foldl (fun acc e => let out := eraseEntry meets e acc.1; (out.1, acc.2.set e.key out.2)) (l, d)).1 =
      (statements es).foldl (advance meets) l := by
  induction es generalizing l d with
  | nil => rfl
  | cons e es ih =>
    have hcons : statements (e :: es) = (e.tables.map fun t => (e.clause, t)) ++ statements es := by
      simp [statements]
    rw [List.foldl_cons, ih, hcons, List.foldl_append, eraseEntry_fst]

/-- The database a loop leaves. -/
theorem seen_eraseEntries (es : List Entry) (fault : Option (ℕ × Failure)) :
    (eraseEntries meets es ⟨.opened db, fault, []⟩).1.conn.seen =
      (effective fault (statements es)).foldl (fun db a => rewrite Prod.snd (purge meets) a db) db := by
  rw [eraseEntries, foldl_entries, conn_foldl_advance, Transaction.seen_issueAll]

/-! ## What is reported -/

/-- A loop in front of statements whose tables it has not touched, and whose failure hits a table
with nothing to delete. -/
structure Fine (meets : String → ρ → Bool) (db : Database ρ) (l : Loop ρ) (as : List (Option String × String)) :
    Prop where
  seen : ∀ a ∈ as, l.conn.seen a.2 = db a.2
  committed : ∀ a ∈ as, l.conn.committed a.2 = db a.2
  harmless : ∀ n e a, l.fault = some (n, e) → as[n]? = some a → selected meets a.1 a.2 db = []
  nodup : (as.map Prod.snd).Nodup

theorem Fine.advance {a : Option String × String} {as : List (Option String × String)}
    (h : Fine meets db l (a :: as)) : Fine meets db (advance meets l a) as := by
  obtain ⟨hseen, hcom, hharm, hn⟩ := h
  obtain ⟨hfresh, hn⟩ := List.nodup_cons.mp hn
  have hstep : ∀ b ∈ as, (DataErasure.advance meets l a).conn.seen b.2 = db b.2 ∧
      (DataErasure.advance meets l a).conn.committed b.2 = db b.2 := by
    intro b hb
    have hs := hseen b (List.mem_cons_of_mem a hb)
    have hc := hcom b (List.mem_cons_of_mem a hb)
    have hne : b.2 ≠ a.2 := fun he => hfresh (he ▸ List.mem_map_of_mem hb)
    rw [advance_conn]
    rcases failure l.fault with _ | _ | _
    · exact ⟨(Function.update_of_ne hne _ _).trans hs, hc⟩
    · exact ⟨hs, hc⟩
    · exact ⟨hc, hc⟩
  refine ⟨fun b hb => (hstep b hb).1, fun b hb => (hstep b hb).2, fun n e b hf hb => ?_, hn⟩
  rw [advance_fault] at hf
  rcases hl : l.fault with _ | ⟨n', e'⟩
  · rw [hl] at hf
    cases hf
  · rw [hl] at hf
    cases n' with
    | zero => cases hf
    | succ n' =>
      cases hf
      exact hharm (n + 1) e b hl hb

theorem Fine.foldl {as bs : List (Option String × String)} (h : Fine meets db l (as ++ bs)) :
    Fine meets db (as.foldl (DataErasure.advance meets) l) bs := by
  induction as generalizing l with
  | nil => exact h
  | cons a as ih => exact ih h.advance

/-- A DELETE says how many rows were announced for its table. -/
theorem Fine.deleteFrom_snd {clause : Option String} {t : String} {as : List (Option String × String)}
    (h : Fine meets db l ((clause, t) :: as)) :
    (deleteFrom meets clause t l).2 = (selected meets clause t db).length := by
  have hseen := h.seen (clause, t) List.mem_cons_self
  unfold deleteFrom
  split
  · rename_i e he
    rcases hl : l.fault with _ | ⟨n, e'⟩
    · rw [hl] at he
      cases he
    · rw [hl] at he
      cases n with
      | zero => rw [h.harmless 0 e' (clause, t) hl rfl, List.length_nil]
      | succ n => cases he
  · rename_i hmissing
    have hnone : db t = none := hseen.symm.trans hmissing
    simp [selected, hnone]
  · simp only [selected, hseen]

theorem Fine.tables {clause : Option String} {ts : List String} {bs : List (Option String × String)}
    (h : Fine meets db l ((ts.map fun t => (clause, t)) ++ bs)) (n : ℕ) :
    (ts.foldl (fun acc t => let out := deleteFrom meets clause t acc.1; (out.1, acc.2 + out.2)) (l, n)).2 =
      n + (ts.map fun t => (selected meets clause t db).length).sum := by
  induction ts generalizing l n with
  | nil => rfl
  | cons t ts ih =>
    rw [List.foldl_cons, List.map_cons, List.sum_cons, ← Nat.add_assoc, ← h.deleteFrom_snd]
    exact ih h.advance _

theorem Fine.entries {es : List Entry} (h : Fine meets db l (statements es)) (d : Dict String ℕ) :
    (es.foldl (fun acc e => let out := eraseEntry meets e acc.1; (out.1, acc.2.set e.key out.2)) (l, d)).2 =
      es.foldl (fun out e => out.set e.key (e.tables.map fun t => (selected meets e.clause t db).length).sum) d := by
  induction es generalizing l d with
  | nil => rfl
  | cons e es ih =>
    have hcons : statements (e :: es) = (e.tables.map fun t => (e.clause, t)) ++ statements es := by
      simp [statements]
    rw [hcons] at h
    have hcount : (eraseEntry meets e l).2 = (e.tables.map fun t => (selected meets e.clause t db).length).sum := by
      rw [eraseEntry, h.tables, Nat.zero_add]
    have hnext : Fine meets db (eraseEntry meets e l).1 (statements es) := by
      rw [eraseEntry_fst]
      exact h.foldl
    rw [List.foldl_cons, List.foldl_cons, ← hcount]
    exact ih hnext _

/-! ## The law -/

theorem named_eq_selects {es : List Entry} (hn : ((statements es).map Prod.snd).Nodup)
    {a : Option String × String} (ha : a ∈ statements es) (row : ρ) :
    named meets es a.2 row = selects meets a.1 row := by
  have hiff : named meets es a.2 row = true ↔ selects meets a.1 row = true := by
    rw [named, List.any_eq_true]
    constructor
    · rintro ⟨b, hb, hrow⟩
      obtain ⟨htable, hsel⟩ := of_decide_eq_true hrow
      rw [← List.inj_on_of_nodup_map hn hb ha htable]
      exact hsel
    · exact fun hsel => ⟨a, ha, decide_eq_true ⟨rfl, hsel⟩⟩
  exact Bool.eq_iff_iff.mpr hiff

theorem named_of_not_mem {es : List Entry} {table : String} (h : table ∉ (statements es).map Prod.snd) (row : ρ) :
    named meets es table row = false := by
  rw [named, List.any_eq_false]
  intro a ha hrow
  exact h (List.mem_map.mpr ⟨a, ha, (of_decide_eq_true hrow).1⟩)

/-- All statements of a plan delete the rows it names, and no others. -/
theorem foldl_statements {es : List Entry} (hn : ((statements es).map Prod.snd).Nodup) (table : String) :
    (statements es).foldl (fun db a => rewrite Prod.snd (purge meets) a db) db table =
      (db table).map fun rows => rows.filter fun row => ! named meets es table row := by
  by_cases ht : table ∈ (statements es).map Prod.snd
  · obtain ⟨a, ha, rfl⟩ := List.mem_map.mp ht
    rw [Transaction.foldl_rewrite hn ha]
    simp only [purge, named_eq_selects hn ha]
  · rw [Transaction.foldl_rewrite_of_not_mem ht]
    simp only [named_of_not_mem ht, Bool.not_false, List.filter_true]
    exact Option.map_id'.symm

/-- ... and fewer of them delete fewer. -/
theorem frame_statements {es : List Entry} (hn : ((statements es).map Prod.snd).Nodup)
    {as : List (Option String × String)} (has : as.Sublist (statements es)) (table : String) :
    (as.foldl (fun db a => rewrite Prod.snd (purge meets) a db) db table).map
        (fun rows => rows.filter fun row => ! named meets es table row) =
      (db table).map fun rows => rows.filter fun row => ! named meets es table row := by
  by_cases ht : table ∈ as.map Prod.snd
  · obtain ⟨a, ha, rfl⟩ := List.mem_map.mp ht
    rw [Transaction.foldl_rewrite (hn.sublist (has.map _)) ha]
    have hsel : ∀ row, named meets es a.2 row = selects meets a.1 row := named_eq_selects hn (has.subset ha)
    simp only [purge, Option.map_map, Function.comp_def, hsel, List.filter_filter, Bool.and_self]
  · rw [Transaction.foldl_rewrite_of_not_mem ht]

variable (meets db) in
theorem erase_of_plan {keys : List String} {es : List Entry} (h : plan keys = .ok es)
    (fault : Option (ℕ × Failure)) :
    (erase meets db keys fault).2 =
        (effective fault (statements es)).foldl (fun db a => rewrite Prod.snd (purge meets) a db) db ∧
      ∃ r, (erase meets db keys fault).1 = .ok r ∧
        r.deleted = (eraseEntries meets es ⟨.opened db, fault, []⟩).2 := by
  rw [← seen_eraseEntries es fault, erase, h]
  exact ⟨rfl, _, rfl, rfl⟩

theorem erase_of_refused {keys : List String} {e : ErasureError} (h : plan keys = .error e)
    (fault : Option (ℕ × Failure)) : erase meets db keys fault = (.error e, db) := by
  rw [erase, h]

theorem fine_start {es : List Entry} (hn : ((statements es).map Prod.snd).Nodup) {fault : Option (ℕ × Failure)}
    (h : ∀ a ∈ statements es, a ∉ effective fault (statements es) → selected meets a.1 a.2 db = []) :
    Fine meets db ⟨.opened db, fault, []⟩ (statements es) where
  seen _ _ := rfl
  committed _ _ := rfl
  harmless n e a hf ha := by
    have hf' : fault = some (n, e) := hf
    refine h a (List.mem_of_getElem? ha) ?_
    rw [hf']
    exact Transaction.not_mem_effective (hn.of_map _) ha
  nodup := hn

end

/-- An erasure is all or nothing exactly where the DELETEs that have no effect in the end, the one
the failure hits and those it takes back, would have deleted nothing. -/
theorem erase_lawful_iff (meets : String → ρ → Bool) (db : Database ρ) (keys : List String)
    (fault : Option (ℕ × Failure)) : Lawful meets db keys (erase meets db keys fault) ↔
      ∀ entries, plan keys = .ok entries → ∀ a ∈ statements entries, a ∉ effective fault (statements entries) →
        selected meets a.1 a.2 db = [] := by
  cases hplan : plan keys with
  | error e =>
    rw [erase_of_refused hplan]
    refine ⟨fun _ es he => (by cases he), fun _ => ⟨fun r hr => (by cases hr), fun _ _ => rfl, fun es he => ?_⟩⟩
    rw [hplan] at he
    cases he
  | ok es =>
    have hn := plan_tables_nodup hplan
    have hsub := Transaction.effective_sublist fault (statements es)
    have hlaw := Transaction.foldl_rewrite_sublist (g := purge meets) (s := db) hn hsub
    simp only [purge_eq_self] at hlaw
    obtain ⟨hdb, r, hr, hdeleted⟩ := erase_of_plan meets db hplan fault
    constructor
    · rintro ⟨hdone, -, -⟩ es' he
      cases he
      refine hlaw.mp (funext fun table => ?_)
      rw [← hdb, foldl_statements hn]
      exact (hdone r hr).2 es hplan table
    · intro hcond
      have hfine := fine_start hn (hcond es rfl)
      refine ⟨fun r' hr' => ⟨?_, fun es' he table => ?_⟩, fun e he => ?_, fun es' he table => ?_⟩
      · rw [← Except.ok.inj (hr.symm.trans hr'), hdeleted, counts, hplan]
        exact congrArg Except.ok (hfine.entries .empty).symm
      · rw [← Except.ok.inj (hplan.symm.trans he), hdb, hlaw.mpr (hcond es rfl), foldl_statements hn]
      · rw [hr] at he
        cases he
      · rw [← Except.ok.inj (hplan.symm.trans he), hdb]
        exact frame_statements hn hsub table

/-- A log with one row; another process holds the lock when the DELETE is issued. -/
def lockedLog : Database Unit := fun table => if table = "occupancy_log" then some [()] else none

theorem lockedLog_not_lawful : ¬ Lawful (fun _ _ => false) lockedLog ["occupancy_log"]
    (erase (fun _ _ => false) lockedLog ["occupancy_log"] (some (0, .statement))) := by
  intro h
  have hplan : plan ["occupancy_log"] = .ok [⟨"occupancy_log", .observation, ["occupancy_log"], none⟩] := rfl
  obtain ⟨hdb, r, hr, -⟩ := erase_of_plan (fun _ _ => false) lockedLog hplan (some (0, .statement))
  have hgone := (h.done r hr).2 _ hplan "occupancy_log"
  rw [hdb] at hgone
  exact absurd hgone (by decide)

end Wavr.DataErasure
