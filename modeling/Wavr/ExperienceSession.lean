import Wavr.Eviction
import Wavr.Experience
import Wavr.Run
import Wavr.Snapshot

/-!
# Experience sessions

`SessionStore`: an experience that runs somewhere is told when its room or its targets change.
-/

namespace Wavr.ExperienceSession
open Experience Run Text

def IDLE_TTL_S : ℚ := 3600

def MAX_SESSIONS : ℕ := 200

def MAX_METADATA_KEYS : ℕ := 16

def MAX_METADATA_CHARS : ℕ := 512

def MAX_SESSION_DEVICES : ℕ := 32

def MAX_ROOM_CHARS : ℕ := 80

def MAX_EXPERIENCE_ID : ℕ := 64

def MAX_DEVICE_ID : ℕ := 64

/-- A number, a truth value or nothing; or a text. -/
inductive Datum (M : Type)
  | plain (m : M)
  | text (s : String)
  deriving DecidableEq

/-- What comes as metadata. -/
inductive RawMetadata (M : Type)
  | absent
  | notAnObject
  | object (entries : List (String × Datum M))

structure Target where
  deviceId : String
  label : String
  can : List String
  deriving DecidableEq

structure Session (M : Type) where
  sessionId : String
  experienceId : String
  room : String
  devices : List String
  metadata : Dict String (Datum M)
  createdTs : ℚ
  updatedTs : ℚ
  targets : List Target
  deriving DecidableEq

/-- The sessions by id. -/
abbrev SessionStore (M : Type) := Dict String (Session M)

/-- `EV_ROOM_CHANGED`, `EV_TARGET_AVAILABLE` and `EV_TARGET_LOST`. -/
inductive Change
  | roomChanged (room previous : String)
  | targetAvailable (target : Target)
  | targetLost (target : Target)
  deriving DecidableEq

structure Event where
  sessionId : String
  experienceId : String
  change : Change
  deriving DecidableEq

/-! ## Targets -/

/-- What a device can be a target for; a device that did not say is none. -/
def kinds (d : Device) : List String :=
  (if d.display = some true then ["display"] else []) ++ if d.audio = some true then ["audio"] else []

/-- `_derived_label`. -/
def derivedLabel (d : Device) (room : String) : String :=
  if truthy room then strip (room ++ " " ++ deviceKind d) else deviceKind d

def asTarget (room : String) (d : Device) : Target := ⟨d.deviceId, derivedLabel d room, kinds d⟩

def targetsIn (room : String) (devices : List Device) : List Target :=
  ((devices.filter fun d => d.room = room ∧ kinds d ≠ []).map (asTarget room)).insertionSort fun t u =>
    t.deviceId ≤ u.deviceId

/-! ## Sessions -/

section
variable {M : Type} (repr : String → String)

def cleanValue (key : String) : Datum M → Except String (Datum M)
  | .plain m => .ok (.plain m)
  | .text s =>
    if MAX_METADATA_CHARS < s.length then
      .error ("metadata value for " ++ repr key ++ " is longer than " ++ toString MAX_METADATA_CHARS ++
        " characters — Wavr is not a state store")
    else .ok (.text s)

/-- `_clean_metadata`. -/
def cleanMetadata : RawMetadata M → Except String (Dict String (Datum M))
  | .absent => .ok .empty
  | .notAnObject => .error "metadata must be an object"
  | .object entries =>
    if MAX_METADATA_KEYS < entries.length then
      .error ("at most " ++ toString MAX_METADATA_KEYS ++ " metadata keys")
    else
      entries.foldlM (fun out e => do
        let key := truncate 64 e.1
        let v ← cleanValue repr key e.2
        return out.set key v) Dict.empty

/-- `_expire`. -/
def expireIdle (now : ℚ) (b : SessionStore M) : SessionStore M :=
  b.filter fun _ s => now - s.updatedTs ≤ IDLE_TTL_S

/-- At the cap, the one that nobody touched for longest goes. -/
def dropOldest (b : SessionStore M) : SessionStore M :=
  if MAX_SESSIONS ≤ b.entries.length then
    match Eviction.victim Session.updatedTs b.values with
    | some oldest => b.erase oldest.sessionId
    | none => b
  else b

/-- The clock is read for the expiry, and again for the new session. -/
def openSession (now now' : ℚ) (sessionId experienceId room : String) (devices : List String)
    (metadata : RawMetadata M) (b : SessionStore M) : Except String (Session M) × SessionStore M :=
  let experienceId := truncate MAX_EXPERIENCE_ID (collapse experienceId)
  if ¬ truthy experienceId then (.error "a session must name the experience it is for", b)
  else
    let b := dropOldest (expireIdle now b)
    match cleanMetadata repr metadata with
    | .error e => (.error e, b)
    | .ok metadata =>
      let session :=
        { sessionId
          experienceId
          room := truncate MAX_ROOM_CHARS room
          devices
          metadata
          createdTs := now'
          updatedTs := now'
          targets := [] }
      (.ok session, b.set sessionId session)

def get (now : ℚ) (sessionId : String) (b : SessionStore M) : Option (Session M) × SessionStore M :=
  let b := expireIdle now b
  (b.get? sessionId, b)

def close (sessionId : String) (b : SessionStore M) : Bool × SessionStore M :=
  ((b.get? sessionId).isSome, b.erase sessionId)

def list (now : ℚ) (b : SessionStore M) : List (Session M) × SessionStore M :=
  let b := expireIdle now b
  ((sortedSet b.keys.toFinset).filterMap b.get?, b)

def touch (now now' : ℚ) (sessionId : String) (b : SessionStore M) : Option (Session M) × SessionStore M :=
  let b := expireIdle now b
  match b.get? sessionId with
  | none => (none, b)
  | some s =>
    let s := { s with updatedTs := now' }
    (some s, b.set sessionId s)

/-- What is told of a session that is in `room` now, with targets `now`. -/
def changes (s : Session M) (room : String) (now : List Target) : List Change :=
  let before := Snapshot.byKey Target.deviceId s.targets
  let after := Snapshot.byKey Target.deviceId now
  (if room ≠ s.room then [.roomChanged room s.room] else []) ++
  ((sortedSet (after.keys.toFinset \ before.keys.toFinset)).filterMap after.get?).map .targetAvailable ++
  ((sortedSet (before.keys.toFinset \ after.keys.toFinset)).filterMap before.get?).map .targetLost

def observe (now now' : ℚ) (sessionId room : String) (devices : List Device) (b : SessionStore M) :
    Except String (List Event) × SessionStore M :=
  let b := expireIdle now b
  match b.get? sessionId with
  | none => (.error "no such session", b)
  | some s =>
    let room := truncate MAX_ROOM_CHARS room
    let targets := targetsIn room devices
    (.ok ((changes s room targets).map fun c => ⟨sessionId, s.experienceId, c⟩),
      b.set sessionId { s with room, targets, updatedTs := now' })

def setMetadata (now now' : ℚ) (sessionId : String) (metadata : RawMetadata M) (b : SessionStore M) :
    Except String (Session M) × SessionStore M :=
  let b := expireIdle now b
  match b.get? sessionId with
  | none => (.error "no such session", b)
  | some s =>
    match cleanMetadata repr metadata with
    | .error e => (.error e, b)
    | .ok metadata =>
      let s := { s with metadata, updatedTs := now' }
      (.ok s, b.set sessionId s)

def join (now now' : ℚ) (sessionId deviceId : String) (b : SessionStore M) :
    Except String (Session M) × SessionStore M :=
  let b := expireIdle now b
  match b.get? sessionId with
  | none => (.error "no such session", b)
  | some s =>
    let deviceId := truncate MAX_DEVICE_ID (strip deviceId)
    if ¬ truthy deviceId then (.error "a device id is required", b)
    else if deviceId ∉ s.devices ∧ MAX_SESSION_DEVICES ≤ s.devices.length then
      (.error ("a session may hold at most " ++ toString MAX_SESSION_DEVICES ++
        " devices. More than that is not a session, it is a leak."), b)
    else
      let s :=
        { s with
          devices := if deviceId ∈ s.devices then s.devices else s.devices ++ [deviceId]
          updatedTs := now' }
      (.ok s, b.set sessionId s)

/-- The calls of a store, with the readings of the clock, the ids that are drawn and the devices as
found. -/
inductive Op (M : Type)
  | openSession (now now' : ℚ) (sessionId experienceId room : String) (devices : List String)
      (metadata : RawMetadata M)
  | get (now : ℚ) (sessionId : String)
  | close (sessionId : String)
  | list (now : ℚ)
  | touch (now now' : ℚ) (sessionId : String)
  | observe (now now' : ℚ) (sessionId room : String) (devices : List Device)
  | setMetadata (now now' : ℚ) (sessionId : String) (metadata : RawMetadata M)
  | join (now now' : ℚ) (sessionId deviceId : String)

def step (b : SessionStore M) : Op M → SessionStore M
  | .openSession now now' sessionId experienceId room devices metadata =>
    (openSession repr now now' sessionId experienceId room devices metadata b).2
  | .get now sessionId => (get now sessionId b).2
  | .close sessionId => (close sessionId b).2
  | .list now => (list now b).2
  | .touch now now' sessionId => (touch now now' sessionId b).2
  | .observe now now' sessionId room devices => (observe now now' sessionId room devices b).2
  | .setMetadata now now' sessionId metadata => (setMetadata repr now now' sessionId metadata b).2
  | .join now now' sessionId deviceId => (join now now' sessionId deviceId b).2

/-- The session that a call opens. -/
def opened (b : SessionStore M) : Op M → Option (Session M)
  | .openSession now now' sessionId experienceId room devices metadata =>
    (openSession repr now now' sessionId experienceId room devices metadata b).1.toOption
  | _ => none

/-- The events of a call. -/
def emitted (b : SessionStore M) : Op M → List Event
  | .observe now now' sessionId room devices =>
    (observe now now' sessionId room devices b).1.toOption.getD []
  | _ => []

end

/-! ## A subscriber -/

/-- What a subscriber knows of a session from its events. -/
structure Fold where
  room : String
  targets : Dict String Target

def Fold.ofSession {M : Type} (s : Session M) : Fold := ⟨s.room, Snapshot.byKey Target.deviceId s.targets⟩

def Fold.apply (f : Fold) : Change → Fold
  | .roomChanged room _ => { f with room }
  | .targetAvailable t => { f with targets := f.targets.set t.deviceId t }
  | .targetLost t => { f with targets := f.targets.erase t.deviceId }

/-- A store, and what a subscriber knows of each session. -/
structure Watched (M : Type) where
  store : SessionStore M
  folds : String → Fold

section
variable {M : Type}

def Watched.start : Watched M := ⟨.empty, fun _ => ⟨"", .empty⟩⟩

/-- The events are folded in; a session that is opened is a new one. -/
def watch (repr : String → String) (w : Watched M) (op : Op M) : Watched M where
  store := step repr w.store op
  folds :=
    let folds := (emitted w.store op).foldl
      (fun f e => Function.update f e.sessionId ((f e.sessionId).apply e.change)) w.folds
    match opened repr w.store op with
    | some s => Function.update folds s.sessionId (.ofSession s)
    | none => folds

/-- The fold of every session has its room, and its targets with their labels and capabilities. -/
def InSync (w : Watched M) : Prop :=
  ∀ id s, w.store.get? id = some s →
    (w.folds id).room = s.room ∧ Snapshot.Mirrors Target.deviceId (w.folds id).targets s.targets

/-- A device that can be a target where a session is observed: what it can do is said once, and where
the session has it already nothing has changed, neither what it can do nor what it is called there. -/
def KeepsTargets (s : Session M) (room : String) (devices : List Device) : Prop :=
  ∀ d ∈ devices, d.room = room → kinds d ≠ [] →
    (∀ e ∈ devices, e.room = room → kinds e ≠ [] → e.deviceId = d.deviceId → kinds e = kinds d) ∧
    ∀ t ∈ s.targets, t.deviceId = d.deviceId → t.can = kinds d ∧ t.label = derivedLabel d room

/-- The observation of a session keeps the targets that stay. -/
def SteadyTargets (w : Watched M) : Op M → Prop
  | .observe now _ sessionId room devices =>
    ∀ s, (expireIdle now w.store).get? sessionId = some s →
      KeepsTargets s (truncate MAX_ROOM_CHARS room) devices
  | _ => True

/-! ## What is told of the targets -/

theorem mem_targetsIn {room : String} {devices : List Device} {t : Target} :
    t ∈ targetsIn room devices ↔ ∃ d ∈ devices, d.room = room ∧ kinds d ≠ [] ∧ asTarget room d = t := by
  simp [targetsIn, List.mem_insertionSort, and_assoc]

theorem deviceKind_eq_of_kinds {d e : Device} (h : kinds e = kinds d) : deviceKind e = deviceKind d := by
  unfold kinds at h
  unfold deviceKind
  by_cases hd : d.display = some true <;> by_cases he : e.display = some true <;>
    by_cases hd' : d.audio = some true <;> by_cases he' : e.audio = some true <;>
    simp_all

theorem asTarget_eq_iff {room : String} {d : Device} {t : Target} (hid : t.deviceId = d.deviceId) :
    asTarget room d = t ↔ t.can = kinds d ∧ t.label = derivedLabel d room := by
  cases t
  simp only [asTarget, Target.mk.injEq] at hid ⊢
  constructor
  · rintro ⟨-, hlabel, hcan⟩
    exact ⟨hcan.symm, hlabel.symm⟩
  · rintro ⟨hcan, hlabel⟩
    exact ⟨hid.symm, hlabel.symm, hcan.symm⟩

theorem keepsTargets_iff_steady {s : Session M} {room : String} {devices : List Device} :
    KeepsTargets s room devices ↔ Snapshot.Steady Target.deviceId s.targets (targetsIn room devices) := by
  constructor
  · intro h t ht u hu hid
    obtain ⟨d, hd, hroom, hkinds, rfl⟩ := mem_targetsIn.mp ht
    obtain ⟨hsame, hheld⟩ := h d hd hroom hkinds
    rcases List.mem_append.mp hu with hu | hu
    · obtain ⟨e, he, heroom, hekinds, rfl⟩ := mem_targetsIn.mp hu
      have hek : kinds e = kinds d := hsame e he heroom hekinds hid.symm
      refine (asTarget_eq_iff hid.symm).mpr ⟨hek, ?_⟩
      rw [asTarget, derivedLabel, derivedLabel, deviceKind_eq_of_kinds hek]
    · exact (asTarget_eq_iff hid.symm).mpr (hheld u hu hid.symm)
  · intro h d hd hroom hkinds
    have hmem : asTarget room d ∈ targetsIn room devices := mem_targetsIn.mpr ⟨d, hd, hroom, hkinds, rfl⟩
    constructor
    · intro e he heroom hekinds hid
      have hmem' : asTarget room e ∈ targetsIn room devices :=
        mem_targetsIn.mpr ⟨e, he, heroom, hekinds, rfl⟩
      have heq := h _ hmem _ (List.mem_append_left _ hmem') hid.symm
      exact (congrArg Target.can heq).symm
    · intro t ht hid
      exact (asTarget_eq_iff hid).mp (h _ hmem t (List.mem_append_right _ ht) hid.symm)

theorem foldl_available (ts : List Target) (f : Fold) :
    (ts.map Change.targetAvailable).foldl Fold.apply f =
      ⟨f.room, Snapshot.announce Target.deviceId ts f.targets⟩ := by
  induction ts generalizing f with
  | nil => rfl
  | cons t ts ih => exact ih _

theorem foldl_lost (ts : List Target) (f : Fold) :
    (ts.map Change.targetLost).foldl Fold.apply f =
      ⟨f.room, Snapshot.withdraw Target.deviceId ts f.targets⟩ := by
  induction ts generalizing f with
  | nil => rfl
  | cons t ts ih => exact ih _

/-- A fold that is in sync follows an observation just where the targets that stay are kept. -/
theorem inSync_changes_iff {s : Session M} {f : Fold} (room : String) (devices : List Device)
    (hroom : f.room = s.room) (hf : Snapshot.Mirrors Target.deviceId f.targets s.targets) :
    let g := (changes s room (targetsIn room devices)).foldl Fold.apply f
    g.room = room ∧
      (Snapshot.Mirrors Target.deviceId g.targets (targetsIn room devices) ↔ KeepsTargets s room devices) := by
  have hmoved : ∀ f : Fold, f.room = s.room →
      (if room ≠ s.room then [Change.roomChanged room s.room] else []).foldl Fold.apply f =
        ⟨room, f.targets⟩ := by
    intro f hf
    by_cases hsame : room = s.room
    · rw [if_neg (not_not.mpr hsame), hsame, ← hf]
      rfl
    · rw [if_pos hsame]
      rfl
  dsimp only
  rw [changes, List.foldl_append, List.foldl_append, hmoved f hroom, foldl_available, foldl_lost]
  refine ⟨rfl, ?_⟩
  rw [keepsTargets_iff_steady]
  refine Snapshot.mirrors_follow_iff hf ?_ ?_ <;> simp [sortedSet]

/-! ## What a call does to a session -/

/-- Sessions may have gone; those that are left are where they were, with the targets they had. -/
def Unmoved (b b' : SessionStore M) : Prop :=
  ∀ id s', b'.get? id = some s' → ∃ s, b.get? id = some s ∧ s'.room = s.room ∧ s'.targets = s.targets

variable {b b' : SessionStore M} {now now' : ℚ} {id : String} {s s' : Session M}

theorem Unmoved.of_fewer (h : b.Fewer b') : Unmoved b b' := by
  intro id s hs
  exact ⟨s, h.of_get? hs, rfl, rfl⟩

theorem Unmoved.set (h : b.get? id = some s) (hroom : s'.room = s.room) (htargets : s'.targets = s.targets) :
    Unmoved b (b.set id s') := by
  intro id' x hx
  rw [Dict.get?_set] at hx
  split at hx
  · next hid =>
    cases hx
    exact ⟨s, hid ▸ h, hroom, htargets⟩
  · exact ⟨x, hx, rfl, rfl⟩

theorem fewer_expireIdle (now : ℚ) (b : SessionStore M) : b.Fewer (expireIdle now b) := b.fewer_filter _

theorem Unmoved.after_expire (h : Unmoved (expireIdle now b) b') : Unmoved b b' := by
  intro id s' hs'
  obtain ⟨s, hs, hrest⟩ := h id s' hs'
  exact ⟨s, (fewer_expireIdle now b).of_get? hs, hrest⟩

theorem fewer_dropOldest (b : SessionStore M) : b.Fewer (dropOldest b) := by
  unfold dropOldest
  split
  · split
    · exact b.fewer_erase _
    · exact .refl b
  · exact .refl b

variable {repr : String → String}

theorem unmoved_touch (now now' : ℚ) (id : String) (b : SessionStore M) : Unmoved b (touch now now' id b).2 := by
  unfold touch
  dsimp only
  split
  · exact .of_fewer (fewer_expireIdle now b)
  · next s hs => exact .after_expire (.set hs rfl rfl)

theorem unmoved_setMetadata (now now' : ℚ) (id : String) (metadata : RawMetadata M) (b : SessionStore M) :
    Unmoved b (setMetadata repr now now' id metadata b).2 := by
  unfold setMetadata
  dsimp only
  split
  · exact .of_fewer (fewer_expireIdle now b)
  · next s hs =>
    split
    · exact .of_fewer (fewer_expireIdle now b)
    · exact .after_expire (.set hs rfl rfl)

theorem unmoved_join (now now' : ℚ) (id deviceId : String) (b : SessionStore M) :
    Unmoved b (join now now' id deviceId b).2 := by
  unfold join
  dsimp only
  split
  · exact .of_fewer (fewer_expireIdle now b)
  · next s hs =>
    split
    · exact .of_fewer (fewer_expireIdle now b)
    · split
      · exact .of_fewer (fewer_expireIdle now b)
      · exact .after_expire (.set hs rfl rfl)

/-- A session is opened without targets. -/
theorem openSession_cases (repr : String → String) (now now' : ℚ) (sessionId experienceId room : String)
    (devices : List String)
    (metadata : RawMetadata M) (b : SessionStore M) :
    (∃ e b', openSession repr now now' sessionId experienceId room devices metadata b = (.error e, b') ∧
      b.Fewer b') ∨
    ∃ s b', openSession repr now now' sessionId experienceId room devices metadata b =
      (.ok s, b'.set sessionId s) ∧ s.sessionId = sessionId ∧ s.targets = [] ∧ b.Fewer b' := by
  have hfewer : b.Fewer (dropOldest (expireIdle now b)) := (fewer_expireIdle now b).trans (fewer_dropOldest _)
  unfold openSession
  dsimp only
  split
  · exact .inl ⟨_, _, rfl, .refl b⟩
  · split
    · exact .inl ⟨_, _, rfl, hfewer⟩
    · exact .inr ⟨_, _, rfl, rfl, rfl, hfewer⟩

/-! ## Runs -/

variable {w : Watched M} {op : Op M}

theorem inSync_start : InSync (.start : Watched M) := by
  intro id s hs
  cases hs

/-- A call that tells nothing and opens nothing. -/
theorem InSync.of_unmoved (h : InSync w) (hopened : opened repr w.store op = none)
    (hemitted : emitted w.store op = []) (hunmoved : Unmoved w.store (step repr w.store op)) :
    InSync (watch repr w op) := by
  intro id s' hs'
  obtain ⟨s, hs, hroom, htargets⟩ := hunmoved id s' hs'
  have hfolds : (watch repr w op).folds = w.folds := by
    unfold watch
    rw [hopened, hemitted]
    rfl
  rw [hfolds, hroom, htargets]
  exact h id s hs

/-- One session and its fold have been replaced. -/
theorem InSync.set_iff (h : InSync w) (hfewer : w.store.Fewer b) (id : String) (s : Session M) (f : Fold) :
    InSync ⟨b.set id s, Function.update w.folds id f⟩ ↔
      f.room = s.room ∧ Snapshot.Mirrors Target.deviceId f.targets s.targets := by
  constructor
  · intro hnext
    have hself := hnext id s (Dict.get?_set_self _ _ _)
    dsimp only at hself
    rwa [Function.update_self] at hself
  · intro hself id' x hx
    rw [Dict.get?_set] at hx
    dsimp only
    by_cases hid : id' = id
    · rw [if_pos hid] at hx
      cases hx
      rw [hid, Function.update_self]
      exact hself
    · rw [if_neg hid] at hx
      rw [Function.update_of_ne hid]
      exact h id' x (hfewer.of_get? hx)

theorem InSync.openSession (h : InSync w) (now now' : ℚ) (sessionId experienceId room : String)
    (devices : List String) (metadata : RawMetadata M) :
    InSync (watch repr w (.openSession now now' sessionId experienceId room devices metadata)) := by
  rcases openSession_cases repr now now' sessionId experienceId room devices metadata w.store with
    ⟨e, b', hopen, hfewer⟩ | ⟨s, b', hopen, rfl, htargets, hfewer⟩
  · refine h.of_unmoved ?_ rfl ?_
    · simp [opened, hopen, Except.toOption]
    · rw [step, hopen]
      exact .of_fewer hfewer
  · have hwatch : watch repr w (.openSession now now' s.sessionId experienceId room devices metadata) =
        ⟨b'.set s.sessionId s, Function.update w.folds s.sessionId (.ofSession s)⟩ := by
      simp [watch, step, opened, emitted, hopen, Except.toOption]
    rw [hwatch, h.set_iff hfewer, Fold.ofSession, htargets]
    exact ⟨rfl, Snapshot.mirrors_nil⟩

/-- The events of one session change one fold. -/
theorem foldl_update (id experienceId : String) (cs : List Change) (folds : String → Fold) :
    (cs.map fun c => (⟨id, experienceId, c⟩ : Event)).foldl
        (fun f e => Function.update f e.sessionId ((f e.sessionId).apply e.change)) folds =
      Function.update folds id (cs.foldl Fold.apply (folds id)) := by
  induction cs generalizing folds with
  | nil => simp
  | cons c cs ih =>
    rw [List.map_cons, List.foldl_cons, ih, Function.update_idem, Function.update_self, List.foldl_cons]

/-- An observation of a session that is there. -/
theorem watch_observe (hs : (expireIdle now w.store).get? id = some s) (now' : ℚ) (room : String)
    (devices : List Device) :
    watch repr w (.observe now now' id room devices) =
      let room := truncate MAX_ROOM_CHARS room
      let targets := targetsIn room devices
      ⟨(expireIdle now w.store).set id { s with room, targets, updatedTs := now' },
        Function.update w.folds id ((changes s room targets).foldl Fold.apply (w.folds id))⟩ := by
  simp only [watch, step, emitted, opened, observe, hs, Except.toOption, Option.getD_some, foldl_update]

theorem steadyTargets_observe_iff (hs : (expireIdle now w.store).get? id = some s) (room : String)
    (devices : List Device) :
    SteadyTargets w (.observe now now' id room devices) ↔
      KeepsTargets s (truncate MAX_ROOM_CHARS room) devices := by
  constructor
  · exact fun hall => hall s hs
  · intro hkeeps s' hs'
    cases hs.symm.trans hs'
    exact hkeeps

theorem inSync_observe_iff (h : InSync w) (now now' : ℚ) (id room : String) (devices : List Device) :
    InSync (watch repr w (.observe now now' id room devices)) ↔
      SteadyTargets w (.observe now now' id room devices) := by
  cases hs : (expireIdle now w.store).get? id with
  | none =>
    have hobserve : observe now now' id room devices w.store =
        (.error "no such session", expireIdle now w.store) := by
      simp only [observe, hs]
    refine iff_of_true (h.of_unmoved rfl ?_ ?_) ?_
    · simp [emitted, hobserve, Except.toOption]
    · rw [step, hobserve]
      exact .of_fewer (fewer_expireIdle now w.store)
    · intro s hsome
      cases hs.symm.trans hsome
  | some s =>
    have hfewer := fewer_expireIdle now w.store
    obtain ⟨hroom, hmirrors⟩ := h id s (hfewer.of_get? hs)
    obtain ⟨hroom', hmirrors'⟩ := inSync_changes_iff (truncate MAX_ROOM_CHARS room) devices hroom hmirrors
    rw [steadyTargets_observe_iff hs, ← hmirrors', watch_observe hs]
    dsimp only
    rw [h.set_iff hfewer]
    exact and_iff_right hroom'

theorem inSync_watch_iff (h : InSync w) (op : Op M) : InSync (watch repr w op) ↔ SteadyTargets w op := by
  cases op with
  | openSession now now' sessionId experienceId room devices metadata =>
    exact iff_of_true (h.openSession now now' sessionId experienceId room devices metadata) trivial
  | observe now now' sessionId room devices => exact inSync_observe_iff h now now' sessionId room devices
  | get now sessionId =>
    exact iff_of_true (h.of_unmoved rfl rfl (.of_fewer (fewer_expireIdle now w.store))) trivial
  | close sessionId => exact iff_of_true (h.of_unmoved rfl rfl (.of_fewer (w.store.fewer_erase _))) trivial
  | list now => exact iff_of_true (h.of_unmoved rfl rfl (.of_fewer (fewer_expireIdle now w.store))) trivial
  | touch now now' sessionId => exact iff_of_true (h.of_unmoved rfl rfl (unmoved_touch _ _ _ _)) trivial
  | setMetadata now now' sessionId metadata =>
    exact iff_of_true (h.of_unmoved rfl rfl (unmoved_setMetadata _ _ _ _ _)) trivial
  | join now now' sessionId deviceId =>
    exact iff_of_true (h.of_unmoved rfl rfl (unmoved_join _ _ _ _ _)) trivial

/-- The events are complete for just the runs in which a target that stays is kept as it is. -/
theorem session_events_complete (repr : String → String) (ops : List (Op M)) :
    AllStates (watch repr) InSync .start ops ↔ AllSteps (watch repr) SteadyTargets .start ops :=
  allStates_iff_allSteps (fun _ op h hok => (inSync_watch_iff h op).mpr hok) (fun _ h => h)
    (fun _ op h hn hnext => hn ((inSync_watch_iff h op).mp hnext)) inSync_start

/-- A device that plays sound gets a screen. -/
def screenGained : List (Op Empty) :=
  [.openSession 0 0 "ses_1" "recipes" "living" [] .absent,
    .observe 1 1 "ses_1" "living" [⟨"tv", "living", [], none, some true, none⟩],
    .observe 2 2 "ses_1" "living" [⟨"tv", "living", [], some true, some true, none⟩]]

/-- Nothing is told of it: the fold has a speaker where the session has a screen. -/
theorem screen_missed : ¬ AllStates (watch fun s => s) InSync .start screenGained := by
  intro h
  let screen : Target := ⟨"tv", "living screen", ["display", "audio"]⟩
  have hsession : ((finish (watch fun s => s) .start screenGained).store.get? "ses_1").any
      (fun s => screen ∈ s.targets) = true := by decide +kernel
  have hfold : ((finish (watch fun s => s) .start screenGained).folds "ses_1").targets.get? "tv" ≠
      some screen := by decide +kernel
  obtain ⟨s, hs, hscreen⟩ := (Option.any_eq_true _ _).mp hsession
  exact hfold (((h.last "ses_1" s hs).2 "tv" screen).mpr ⟨of_decide_eq_true hscreen, rfl⟩)

end

end Wavr.ExperienceSession
