import Mathlib
import Wavr.Replace

/-!
# The state file of a node

`wavr node run` and `wavr node reactivate` share one state file. Each loads it once, counts on in
memory, and saves by reading the file again, merging the greater counts, writing a temporary file
of its own and renaming it into place. The steps of several processes interleave.
-/

namespace Wavr.NodeStateFile

open Replace (File Op)

structure NodeState where
  url : String
  nodeId : String
  token : String
  pin : String
  state : String
  seq : ℤ
  pressCount : ℤ
  deriving DecidableEq

inductive Role
  | run
  | reactivate
  deriving DecidableEq

/-- Where a process is in `save`, if it is there. -/
inductive Phase
  | idle
  | saving
  | merged (s : NodeState)
  | written
  deriving DecidableEq

structure Process where
  role : Role
  mem : NodeState
  phase : Phase
  /-- A reactivation the Core has answered. -/
  answered : Bool

/-- The file, where it is one that loads, each process's temporary file, and the processes. -/
structure World where
  file : Option NodeState
  temp : ℕ → Option NodeState
  procs : ℕ → Option Process

/-- What the Core says a node is. -/
inductive Told
  | active
  | disabled

def Told.text : Told → String
  | .active => "active"
  | .disabled => "disabled"

inductive Step
  /-- A process starts and loads the file. -/
  | start (pid : ℕ) (role : Role)
  /-- Telemetry is sent at `ms`. -/
  | nextSeq (pid : ℕ) (ms : ℤ)
  /-- ... and refused as stale. -/
  | stale (pid : ℕ) (ms : ℤ)
  /-- The Core's answer changes the state, which is saved. -/
  | told (pid : ℕ) (state : Told)
  /-- The periodic save, and the last one. -/
  | save (pid : ℕ)
  | read (pid : ℕ)
  | write (pid : ℕ) (ok : Bool)
  | rename (pid : ℕ) (ok : Bool)
  /-- The Core has revoked the node. -/
  | revoked (pid : ℕ)
  | exit (pid : ℕ)

/-! ## The processes -/

/-- `save` before it writes: never below what is on the disk. -/
def merge (s : NodeState) (disk : Option NodeState) : NodeState :=
  match disk with
  | some d => { s with seq := max s.seq d.seq, pressCount := max s.pressCount d.pressCount }
  | none => s

def started (role : Role) (s : NodeState) : Process :=
  match role with
  | .run => ⟨.run, s, .idle, false⟩
  | .reactivate => ⟨.reactivate, { s with pressCount := s.pressCount + 1 }, .saving, false⟩

def World.set (w : World) (pid : ℕ) (p : Option Process) : World :=
  { w with procs := Function.update w.procs pid p }

/-- Behind a save: the loop goes on; a reactivation waits for the Core, or has ended. -/
def saved (p : Process) (ok : Bool) : Option Process :=
  match p.role with
  | .run => some { p with phase := .idle }
  | .reactivate => if ok ∧ p.answered = false then some { p with phase := .idle } else none

def stepProcess (w : World) (pid : ℕ) (p : Process) : Step → World
  | .nextSeq _ ms =>
    if p.role = .run ∧ p.phase = .idle then
      w.set pid (some { p with mem := { p.mem with seq := max (p.mem.seq + 1) ms } })
    else w
  | .stale _ ms =>
    if p.role = .run ∧ p.phase = .idle then
      w.set pid (some { p with mem := { p.mem with seq := max p.mem.seq ms } })
    else w
  | .told _ t =>
    if p.phase = .idle ∧ (p.role = .run ∨ t.text = "active") then
      w.set pid (some { p with mem := { p.mem with state := t.text }, phase := .saving, answered := true })
    else w
  | .save _ =>
    if p.role = .run ∧ p.phase = .idle then w.set pid (some { p with phase := .saving }) else w
  | .read _ =>
    if p.phase = .saving then w.set pid (some { p with phase := .merged (merge p.mem w.file) }) else w
  | .write _ ok =>
    match p.phase with
    | .merged s =>
      if ok then { w.set pid (some { p with phase := .written }) with temp := Function.update w.temp pid (some s) }
      else { w.set pid (saved p false) with temp := Function.update w.temp pid none }
    | _ => w
  | .rename _ ok =>
    match p.phase, w.temp pid with
    | .written, some s =>
      if ok then { w.set pid (saved p true) with file := some s, temp := Function.update w.temp pid none }
      else w.set pid (saved p false)
    | _, _ => w
  | .revoked _ =>
    if p.role = .run ∧ p.phase = .idle then { w.set pid none with file := none } else w
  | .exit _ => w.set pid none
  | .start _ _ => w

def Step.pid : Step → ℕ
  | .start pid _ | .nextSeq pid _ | .stale pid _ | .told pid _ | .save pid | .read pid | .write pid _
  | .rename pid _ | .revoked pid | .exit pid => pid

/-- A step that its process is not ready for changes nothing. -/
def step (w : World) (i : Step) : World :=
  match w.procs i.pid, i with
  | some p, i => stepProcess w i.pid p i
  | none, .start pid role =>
    match w.file with
    | some s => w.set pid (some (started role s))
    | none => w
  | none, _ => w

/-! ## The file as its writers see it -/

/-- What must never go back. -/
def counts (s : NodeState) : ℤ × ℤ := (s.seq, s.pressCount)

/-- A step of a process as one on a file of counts. -/
def opOf (w : World) (p : Process) (i : Step) : Op (ℤ × ℤ) ℕ :=
  match i, p.phase with
  | .read pid, .saving => .take pid (counts (merge p.mem w.file))
  | .write pid false, .merged _ => .drop pid
  | .rename pid true, .written => .replace pid
  | .rename pid false, .written => .drop pid
  | .revoked _, .idle => if p.role = .run then .remove else .stay
  | .exit pid, _ => .drop pid
  | _, _ => .stay

def op (w : World) (i : Step) : Op (ℤ × ℤ) ℕ := (w.procs i.pid).elim .stay fun p => opOf w p i

/-- The account of a run in these terms. -/
def ops : World → List Step → List (Op (ℤ × ℤ) ℕ)
  | _, [] => []
  | w, i :: is => op w i :: ops (step w i) is

/-- What a process is about to move into place. -/
def inHand (w : World) (pid : ℕ) : Option NodeState :=
  (w.procs pid).bind fun p => match p.phase with
    | .merged s => some s
    | .written => w.temp pid
    | _ => none

/-- The counts in the file never go back in a step. -/
def NotBack (w : World) (i : Step) : Prop :=
  ∀ s ∈ w.file, ∀ s' ∈ (step w i).file, s.seq ≤ s'.seq ∧ s.pressCount ≤ s'.pressCount

/-! ## The processes as writers of the file -/

section
variable {w : World} {f : File (ℤ × ℤ) ℕ}

structure Agree (w : World) (f : File (ℤ × ℤ) ℕ) : Prop where
  content : f.content = w.file.map counts
  pending : ∀ pid, f.pending pid = (inHand w pid).map counts

/-- A step that changes one process and its temporary file. -/
theorem inHand_of_ne {w' : World} {pid q : ℕ} (hq : q ≠ pid)
    (hprocs : ∀ q, q ≠ pid → w'.procs q = w.procs q) (htemp : ∀ q, q ≠ pid → w'.temp q = w.temp q) :
    inHand w' q = inHand w q := by
  unfold inHand
  rw [hprocs q hq, htemp q hq]

theorem merge_merges (s : NodeState) (disk : Option NodeState) :
    ∀ c ∈ disk.map counts, c ≤ counts (merge s disk) := by
  intro c hc
  cases disk with
  | none => cases hc
  | some d =>
    cases hc
    exact ⟨le_max_right _ _, le_max_right _ _⟩

theorem merges_op (hf : Agree w f) (i : Step) : Replace.Merges f (op w i) := by
  unfold op
  cases w.procs i.pid with
  | none => trivial
  | some p =>
    rw [Option.elim_some]
    unfold opOf
    split
    · rw [Replace.Merges, hf.content]
      exact merge_merges _ _
    · trivial
    · trivial
    · trivial
    · split_ifs <;> trivial
    · trivial
    · trivial

/-- Agreement where only one process, its temporary file and the file have changed. -/
theorem Agree.changed (hf : Agree w f) {w' : World} {f' : File (ℤ × ℤ) ℕ} (pid : ℕ)
    (hprocs : ∀ q, q ≠ pid → w'.procs q = w.procs q) (htemp : ∀ q, q ≠ pid → w'.temp q = w.temp q)
    (hcontent : f'.content = w'.file.map counts) (hothers : ∀ q, q ≠ pid → f'.pending q = f.pending q)
    (hpid : f'.pending pid = (inHand w' pid).map counts) : Agree w' f' := by
  refine ⟨hcontent, fun q => ?_⟩
  by_cases hq : q = pid
  · rw [hq]
    exact hpid
  · rw [hothers q hq, hf.pending q, inHand_of_ne hq hprocs htemp]

theorem set_procs_of_ne {pid q : ℕ} (hq : q ≠ pid) (p : Option Process) : (w.set pid p).procs q = w.procs q :=
  Function.update_of_ne hq _ _

/-- A process that is set to one with nothing to move into place. -/
theorem Agree.set_none (hf : Agree w f) {pid : ℕ} {p : Option Process} (hold : inHand w pid = none)
    (hp : ∀ p' ∈ p, p'.phase = .idle ∨ p'.phase = .saving) : Agree (w.set pid p) f := by
  refine hf.changed pid (fun q hq => set_procs_of_ne hq p) (fun _ _ => rfl) hf.content (fun _ _ => rfl) ?_
  rw [hf.pending, hold]
  unfold inHand
  have hset : (w.set pid p).procs pid = p := Function.update_self ..
  rw [hset]
  cases p with
  | none => rfl
  | some p => rcases hp p rfl with h | h <;> simp [h]

/-- ... and drops what it had. -/
theorem Agree.drop (hf : Agree w f) {pid : ℕ} {p : Option Process} (temp : Option NodeState)
    (hp : ∀ p' ∈ p, p'.phase = .idle ∨ p'.phase = .saving) :
    Agree { w.set pid p with temp := Function.update w.temp pid temp } (Replace.step f (.drop pid)) := by
  refine hf.changed pid (fun q hq => set_procs_of_ne hq p) (fun q hq => Function.update_of_ne hq _ _) hf.content
    (fun q hq => Function.update_of_ne hq _ _) ?_
  have hset : (w.set pid p).procs pid = p := Function.update_self ..
  have hnone : (Replace.step f (.drop pid)).pending pid = none := Function.update_self ..
  rw [hnone]
  unfold inHand
  dsimp only
  rw [hset]
  cases p with
  | none => rfl
  | some p => rcases hp p rfl with h | h <;> simp [h]

theorem saved_phase (p : Process) (ok : Bool) : ∀ p' ∈ saved p ok, p'.phase = .idle ∨ p'.phase = .saving := by
  intro p' hp'
  unfold saved at hp'
  split at hp'
  · cases hp'
    exact .inl rfl
  · split_ifs at hp'
    · cases hp'
      exact .inl rfl
    · cases hp'

theorem inHand_eq_none {pid : ℕ} {p : Process} (hp : w.procs pid = some p)
    (hphase : p.phase = .idle ∨ p.phase = .saving) : inHand w pid = none := by
  unfold inHand
  rcases hphase with h | h <;> simp [hp, h]

theorem update_temp_self (pid : ℕ) (p : Option Process) :
    { w.set pid p with temp := Function.update w.temp pid (w.temp pid) } = w.set pid p := by
  rw [Function.update_eq_self]
  rfl

theorem agree_stepProcess (hf : Agree w f) (i : Step) {p : Process} (hp : w.procs i.pid = some p) :
    Agree (stepProcess w i.pid p i) (Replace.step f (opOf w p i)) := by
  cases i with
  | nextSeq pid ms =>
    rw [stepProcess]
    split_ifs with h
    · exact hf.set_none (inHand_eq_none hp (.inl h.2)) fun p' hp' => by cases hp'; exact .inl h.2
    · exact hf
  | stale pid ms =>
    rw [stepProcess]
    split_ifs with h
    · exact hf.set_none (inHand_eq_none hp (.inl h.2)) fun p' hp' => by cases hp'; exact .inl h.2
    · exact hf
  | told pid t =>
    rw [stepProcess]
    split_ifs with h
    · exact hf.set_none (inHand_eq_none hp (.inl h.1)) fun p' hp' => by cases hp'; exact .inr rfl
    · exact hf
  | save pid =>
    rw [stepProcess]
    split_ifs with h
    · exact hf.set_none (inHand_eq_none hp (.inl h.2)) fun p' hp' => by cases hp'; exact .inr rfl
    · exact hf
  | read pid =>
    replace hp : w.procs pid = some p := hp
    by_cases h : p.phase = .saving
    · have hop : opOf w p (.read pid) = .take pid (counts (merge p.mem w.file)) := by simp only [opOf, h]
      rw [stepProcess, if_pos h, hop]
      refine hf.changed pid (fun q hq => set_procs_of_ne hq _) (fun _ _ => rfl) hf.content
        (fun q hq => Function.update_of_ne hq _ _) ?_
      simp [Replace.step, inHand, World.set, Step.pid]
    · have hop : opOf w p (.read pid) = .stay := by
        cases hphase : p.phase <;> simp_all [opOf]
      rw [stepProcess, if_neg h, hop]
      exact hf
  | write pid ok =>
    replace hp : w.procs pid = some p := hp
    simp only [stepProcess, opOf]
    cases hphase : p.phase with
    | merged s =>
      cases ok with
      | true =>
        refine hf.changed pid (fun q hq => set_procs_of_ne hq _) (fun q hq => Function.update_of_ne hq _ _)
          hf.content (fun _ _ => rfl) ?_
        have hold : inHand w pid = some s := by simp [inHand, hp, hphase]
        have hpend : f.pending pid = some (counts s) := by rw [hf.pending, hold]; rfl
        simpa [Replace.step, inHand, World.set, Step.pid] using hpend
      | false => exact hf.drop none (saved_phase p false)
    | idle => cases ok <;> exact hf
    | saving => cases ok <;> exact hf
    | written => cases ok <;> exact hf
  | rename pid ok =>
    replace hp : w.procs pid = some p := hp
    simp only [stepProcess, opOf, Step.pid]
    cases hphase : p.phase with
    | written =>
      have hold : inHand w pid = w.temp pid := by simp [inHand, hp, hphase]
      cases htemp : w.temp pid with
      | none =>
        -- nothing was written: there is nothing to move, and nothing to drop
        have hnone : f.pending pid = none := by rw [hf.pending, hold, htemp]; rfl
        have hdrop : Function.update f.pending pid none = f.pending := Function.update_eq_self_iff.mpr hnone.symm
        cases ok <;> simpa [Replace.step, hnone, hdrop] using hf
      | some s =>
        have hsome : f.pending pid = some (counts s) := by rw [hf.pending, hold, htemp]; rfl
        cases ok with
        | true =>
          have hagree : Agree { w.set pid (saved p true) with temp := Function.update w.temp pid none }
              (Replace.step f (.drop pid)) := hf.drop none (saved_phase p true)
          simp only [Replace.step, hsome, if_true]
          exact ⟨rfl, hagree.pending⟩
        | false =>
          simp only [Bool.false_eq_true, if_false]
          rw [← update_temp_self]
          exact hf.drop _ (saved_phase p false)
    | idle => cases ok <;> exact hf
    | saving => cases ok <;> exact hf
    | merged s => cases ok <;> exact hf
  | revoked pid =>
    replace hp : w.procs pid = some p := hp
    by_cases h : p.role = .run ∧ p.phase = .idle
    · have hop : opOf w p (.revoked pid) = .remove := by simp only [opOf, h, if_true]
      rw [stepProcess, if_pos h, hop]
      have hagree : Agree (w.set pid none) f :=
        hf.set_none (inHand_eq_none hp (.inl h.2)) fun p' hp' => by cases hp'
      exact ⟨rfl, hagree.pending⟩
    · have hop : opOf w p (.revoked pid) = .stay := by
        cases hphase : p.phase <;> simp_all [opOf]
      rw [stepProcess, if_neg h, hop]
      exact hf
  | exit pid =>
    rw [stepProcess, ← update_temp_self]
    exact hf.drop _ fun p' hp' => by cases hp'
  | start pid role => exact hf

theorem agree_step (hf : Agree w f) (i : Step) : Agree (step w i) (Replace.step f (op w i)) := by
  unfold step op
  cases hp : w.procs i.pid with
  | some p => exact agree_stepProcess hf i hp
  | none =>
    cases i with
    | start pid role =>
      cases hfile : w.file with
      | none => exact hf
      | some s =>
        have hold : inHand w pid = none := by
          have hnone : w.procs pid = none := hp
          simp [inHand, hnone]
        refine hf.set_none hold fun p' hp' => ?_
        cases hp'
        cases role
        · exact .inl rfl
        · exact .inr rfl
    | _ => exact hf

theorem notBack_iff (hf : Agree w f) (i : Step) :
    NotBack w i ↔ Replace.NotBack f.content (Replace.step f (op w i)).content := by
  rw [(agree_step hf i).content, hf.content]
  constructor
  · intro h c hc c' hc'
    obtain ⟨s, hs, rfl⟩ := Option.mem_map.mp hc
    obtain ⟨s', hs', rfl⟩ := Option.mem_map.mp hc'
    exact h s hs s' hs'
  · intro h s hs s' hs'
    exact h (counts s) (Option.mem_map_of_mem counts hs) (counts s') (Option.mem_map_of_mem counts hs')

/-- A run of the processes is a run of writers. -/
theorem allSteps_ops_iff (hf : Agree w f) (is : List Step) :
    (Run.AllSteps step NotBack w is ↔ Run.AllSteps Replace.step
        (fun f o => Replace.NotBack f.content (Replace.step f o).content) f (ops w is)) ∧
      Run.AllSteps Replace.step Replace.Merges f (ops w is) := by
  induction is generalizing w f with
  | nil => exact ⟨Iff.rfl, trivial⟩
  | cons i is ih =>
    obtain ⟨hiff, hmerges⟩ := ih (agree_step hf i)
    exact ⟨and_congr (notBack_iff hf i) hiff, merges_op hf i, hmerges⟩

end

/-- Where a run starts: some state file, and no process. -/
def World.start (file : Option NodeState) : World := ⟨file, fun _ => none, fun _ => none⟩

/-- However the steps of the processes interleave, the counts in the file never go back exactly if
no process moves a state into place behind one with a greater count that was moved there since it
read the file. -/
theorem counts_never_back_iff (file : Option NodeState) (is : List Step) :
    Run.AllSteps step NotBack (World.start file) is ↔
      Run.AllSteps Replace.step Replace.NotOvertaken (File.new (file.map counts)) (ops (World.start file) is) := by
  have hf : Agree (World.start file) (File.new (file.map counts)) := ⟨rfl, fun _ => rfl⟩
  obtain ⟨hiff, hmerges⟩ := allSteps_ops_iff hf is
  exact hiff.trans (Replace.allSteps_notBack_iff (Replace.inv_new _) hmerges)

/-- The button is pressed while the node saves: its save has read the file, and replaces it last. -/
def pressed : List Step :=
  [.start 1 .run, .save 1, .read 1, .start 2 .reactivate, .read 2, .write 2 true, .rename 2 true, .write 1 true,
    .rename 1 true]

theorem pressed_goes_back : ¬ Run.AllSteps step NotBack
    (World.start (some ⟨"https://core", "n1", "secret", "", "active", 10, 0⟩)) pressed := by
  intro h
  have hlast := h.2.2.2.2.2.2.2.2.1
  have hpress := (hlast _ rfl _ rfl).2
  exact absurd hpress (by decide)

end Wavr.NodeStateFile
