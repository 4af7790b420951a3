import Wavr.ProviderRuntime

/-!
# Switching the sources

`SourceManager` on an event loop: the calls that switch the sources and the tasks that run them
take turns at their awaits, in any order. A source senses until it is cancelled, and then ends.
-/

namespace Wavr.SourceManager
open Run ProviderRuntime

/-- How far a task of `_run` is; one that is `closing` tears its source down. -/
inductive Phase
  | created
  | sensing
  | closing
  | done
  deriving DecidableEq

structure Task where
  name : String
  phase : Phase
  cancelled : Bool
  deriving DecidableEq

def Task.cancel (k : Task) : Task := { k with cancelled := true }

/-- What a call does behind its `_kill`; a `stop` has names left of the snapshot it walks. -/
inductive Rest
  | setEnabled
  | unregister
  | restart
  | stop (names : List String)
  deriving DecidableEq

/-- A call that waits for the task it has cancelled. -/
structure Kill where
  name : String
  task : ℕ
  rest : Rest
  deriving DecidableEq

/-- The sources that are still to be visited. -/
def Kill.due (w : Kill) : List String :=
  match w.rest with
  | .stop names => names
  | _ => []

/-- The source, where it is to get a task again or to leave the roster. -/
def Kill.pending (w : Kill) : List String :=
  match w.rest with
  | .unregister => [w.name]
  | .restart => [w.name]
  | _ => []

structure Manager (Factory : Type*) where
  factories : Dict String Factory
  enabled : Dict String Bool
  tasks : Dict String ℕ
  running : Bool
  supervisor : SourceSupervisor
  /-- What the sources declare, of the rows of the supervisor. -/
  heartbeats : Dict String (Option ℚ)
  /-- All tasks there have been, by their number. -/
  created : List Task
  /-- The calls that have not returned. -/
  calls : Dict ℕ Kill

inductive Request (Factory : Type*)
  | register (name : String) (factory : Factory) (enabled : Bool) (heartbeatS : Option ℚ)
  | start
  | stop
  | setEnabled (name : String) (enabled : Bool)
  | unregister (name : String)
  | restart (name : String)

/-- What may happen next: a call is made or is resumed, a task takes its first step, yields an event,
meets its cancellation, or ends. -/
inductive Step (Factory : Type*)
  | call (c : ℕ) (request : Request Factory)
  | resume (c : ℕ)
  | begin (t : ℕ) (now : ℚ)
  | event (t : ℕ) (now : ℚ)
  | interrupt (t : ℕ)
  | finish (t : ℕ)

variable {Factory : Type*}

def init (supervisor : SourceSupervisor) : Manager Factory :=
  ⟨.empty, .empty, .empty, false, supervisor, .empty, [], .empty⟩

namespace Manager

/-- `_should_run`. -/
def shouldRun (name : String) (m : Manager Factory) : Bool := m.running && (m.enabled.get? name).getD false

def stateOf (name : String) (now : ℚ) (m : Manager Factory) : Reported :=
  ProviderRuntime.stateOf name (m.heartbeats.get? name).join now m.supervisor

def onStop (name : String) (m : Manager Factory) : Manager Factory :=
  { m with supervisor := ProviderRuntime.onStop name m.supervisor }

/-- `create_task`, of a task that is not entered yet. -/
def create (name : String) (m : Manager Factory) : Manager Factory :=
  { m with
    tasks := m.tasks.set name m.created.length
    created := m.created ++ [⟨name, .created, false⟩] }

/-- `_spawn`. -/
def spawn (name : String) (m : Manager Factory) : Manager Factory :=
  if (m.tasks.get? name).isSome then m else m.create name

/-- The first half of `_kill`: the task is popped and cancelled, and the call waits for its end. -/
def cancel (c : ℕ) (name : String) (t : ℕ) (rest : Rest) (m : Manager Factory) : Manager Factory :=
  { m with
    tasks := m.tasks.erase name
    created := m.created.modify t Task.cancel
    calls := m.calls.set c ⟨name, t, rest⟩ }

/-- The loop of `stop`, which waits where there is a task to kill. -/
def walk (c : ℕ) : List String → Manager Factory → Manager Factory
  | [], m => m
  | name :: names, m =>
    match m.tasks.get? name with
    | some t => m.cancel c name t (.stop names)
    | none => walk c names (m.onStop name)

def drop (name : String) (m : Manager Factory) : Manager Factory :=
  { m with
    factories := m.factories.erase name
    enabled := m.enabled.erase name
    supervisor := forget name m.supervisor
    heartbeats := m.heartbeats.erase name }

/-- What is done behind `_kill`, which ends with `on_stop`. -/
def proceed (c : ℕ) (name : String) (rest : Rest) (m : Manager Factory) : Manager Factory :=
  let m := m.onStop name
  match rest with
  | .setEnabled => m
  | .unregister => m.drop name
  | .restart => if m.shouldRun name then m.spawn name else m
  | .stop names => m.walk c names

/-- `_kill` and what is behind it. -/
def kill (c : ℕ) (name : String) (rest : Rest) (m : Manager Factory) : Manager Factory :=
  match m.tasks.get? name with
  | some t => m.cancel c name t rest
  | none => m.proceed c name rest

def declare (name : String) (factory : Factory) (enabled : Bool) (heartbeatS : Option ℚ)
    (m : Manager Factory) : Manager Factory :=
  { m with
    factories := m.factories.set name factory
    enabled := m.enabled.set name enabled
    supervisor := register name m.supervisor
    heartbeats := m.heartbeats.set name heartbeatS }

/-- A call up to its first await. Of a name that is not registered there is a `KeyError`. -/
def call (c : ℕ) (m : Manager Factory) : Request Factory → Manager Factory
  | .register name factory enabled heartbeatS =>
    let m := m.declare name factory enabled heartbeatS
    if enabled && m.running then m.spawn name else m
  | .start =>
    let m := { m with running := true }
    m.enabled.entries.foldl (fun m e => if e.2 then m.spawn e.1 else m) m
  | .stop =>
    let m := { m with running := false }
    m.walk c m.tasks.keys
  | .setEnabled name enabled =>
    if (m.factories.get? name).isNone then m
    else
      let m := { m with enabled := m.enabled.set name enabled }
      if enabled && m.running then m.spawn name
      else if !enabled then m.kill c name .setEnabled
      else m
  | .unregister name =>
    if (m.factories.get? name).isNone then m else m.kill c name .unregister
  | .restart name =>
    if (m.factories.get? name).isNone then m else m.kill c name .restart

/-- Whether the task has ended. -/
def ended (t : ℕ) (m : Manager Factory) : Bool := (m.created[t]?).any fun k => k.phase = .done

/-- The call goes on when the task it waits for has ended. -/
def resume (c : ℕ) (m : Manager Factory) : Manager Factory :=
  match m.calls.get? c with
  | none => m
  | some w => if m.ended w.task then { m with calls := m.calls.erase c }.proceed c w.name w.rest else m

def setPhase (t : ℕ) (phase : Phase) (m : Manager Factory) : Manager Factory :=
  { m with created := m.created.modify t fun k => { k with phase } }

/-- The end of `_run`: the task is popped if it is still the one of its source. -/
def leave (t : ℕ) (name : String) (m : Manager Factory) : Manager Factory :=
  { m.setPhase t .done with
    tasks := if m.tasks.get? name = some t then m.tasks.erase name else m.tasks }

/-- The first step of a task. One that was cancelled before it never enters `_run`; a source that is
not registered is a `KeyError` inside of it. -/
def enter (t : ℕ) (now : ℚ) (k : Task) (m : Manager Factory) : Manager Factory :=
  if k.cancelled then m.setPhase t .done
  else if (m.factories.get? k.name).isNone then m.leave t k.name
  else if m.shouldRun k.name then
    { m with supervisor := onStart k.name now m.supervisor }.setPhase t .sensing
  else (m.onStop k.name).leave t k.name

def step (m : Manager Factory) : Step Factory → Manager Factory
  | .call c request => if (m.calls.get? c).isSome then m else m.call c request
  | .resume c => m.resume c
  | .begin t now =>
    match m.created[t]? with
    | some ⟨name, .created, cancelled⟩ => m.enter t now ⟨name, .created, cancelled⟩
    | _ => m
  | .event t now =>
    match m.created[t]? with
    | some ⟨name, .sensing, false⟩ => { m with supervisor := onEvent name now m.supervisor }
    | _ => m
  | .interrupt t =>
    match m.created[t]? with
    | some ⟨name, .sensing, true⟩ => (m.onStop name).setPhase t .closing
    | _ => m
  | .finish t =>
    match m.created[t]? with
    | some ⟨name, .closing, true⟩ => m.leave t name
    | _ => m

/-! ## What the switching should keep -/

/-- A task that has not ended. -/
def Live (m : Manager Factory) (t : ℕ) (k : Task) : Prop := m.created[t]? = some k ∧ k.phase ≠ .done

def HasTask (m : Manager Factory) (name : String) : Prop := ∃ t k, m.Live t k ∧ k.name = name

def Wanted (m : Manager Factory) (name : String) : Prop :=
  (m.factories.get? name).isSome ∧ m.enabled.get? name = some true ∧ m.running = true

/-- A source never has two tasks. Where all calls have returned it has one if it is wanted, and is
listed so; and a source that senses is not reported as stopped. -/
structure RaceFree (m : Manager Factory) : Prop where
  single : ∀ t t' k k', m.Live t k → m.Live t' k' → k.name = k'.name → t = t'
  settled : m.calls = .empty → ∀ name, m.HasTask name ↔ m.Wanted name
  listed : m.calls = .empty → ∀ name, (m.tasks.get? name).isSome ↔ m.Wanted name
  reported : m.calls = .empty → ∀ t k, m.Live t k → k.phase = .sensing →
    ∀ now, m.stateOf k.name now ≠ .observed .stopped

/-! ## The steps that keep it -/

/-- The sources that a `stop` still has to visit. -/
def due (m : Manager Factory) : List String := m.calls.values.flatMap Kill.due

/-- Where there is no task in hand, none of an earlier time is left either. -/
def MaySpawn (m : Manager Factory) (name : String) : Prop :=
  (m.tasks.get? name).isSome ∨ ∀ k ∈ m.created, k.name = name → k.phase = .done

/-- There is no task in hand, or a `stop` will see to it. -/
def MayDrop (m : Manager Factory) (name : String) : Prop := m.tasks.get? name = none ∨ name ∈ m.due

/-- Whether the task in hand has begun. -/
def senses (m : Manager Factory) (name : String) : Bool :=
  (m.tasks.get? name).any fun t => (m.created[t]?).any fun k => k.phase = .sensing

/-- What a `stop` is about to kill, in a manager that was started again meanwhile. -/
def MayWalk (m : Manager Factory) (names : List String) : Prop :=
  ∀ name ∈ names.find? fun name => (m.tasks.get? name).isSome, m.shouldRun name = false

def CarefulCall (m : Manager Factory) : Request Factory → Prop
  | .register name _ true _ => m.running = true → m.MaySpawn name
  | .register name _ false _ => m.MayDrop name
  | .start => ∀ e ∈ m.enabled.entries, e.2 = true → m.MaySpawn e.1
  | .stop => True
  | .setEnabled name true => (m.factories.get? name).isSome → m.running = true → m.MaySpawn name
  | .setEnabled _ false => True
  | .unregister _ => True
  | .restart name => m.shouldRun name = true → m.MaySpawn name

def CarefulRest (m : Manager Factory) (name : String) : Rest → Prop
  | .setEnabled => True
  | .unregister => m.MayDrop name
  | .restart => m.shouldRun name = true → m.MaySpawn name
  | .stop names => m.MayWalk names

/-- While a call waits in its `_kill`, no other one has brought the source back; and a source is not
declared to be off while it is on. -/
def Careful (m : Manager Factory) : Step Factory → Prop
  | .call c request => m.calls.get? c = none → m.CarefulCall request
  | .resume c => ∀ w ∈ m.calls.get? c, m.ended w.task = true →
      (m.senses w.name = true → w.name ∈ m.due) ∧ m.CarefulRest w.name w.rest
  | _ => True

instance (m : Manager Factory) (name : String) : Decidable (m.MaySpawn name) :=
  inferInstanceAs (Decidable (_ ∨ ∀ k ∈ m.created, k.name = name → k.phase = .done))

instance (m : Manager Factory) (name : String) : Decidable (m.MayDrop name) :=
  inferInstanceAs (Decidable (_ ∨ _))

instance (m : Manager Factory) (names : List String) : Decidable (m.MayWalk names) :=
  inferInstanceAs (Decidable (∀ name ∈ List.find? _ names, _))

instance (m : Manager Factory) : ∀ request, Decidable (m.CarefulCall request)
  | .register name _ true _ => inferInstanceAs (Decidable (m.running = true → m.MaySpawn name))
  | .register name _ false _ => inferInstanceAs (Decidable (m.MayDrop name))
  | .start => inferInstanceAs (Decidable (∀ e ∈ m.enabled.entries, e.2 = true → m.MaySpawn e.1))
  | .stop => .isTrue trivial
  | .setEnabled name true =>
    inferInstanceAs (Decidable ((m.factories.get? name).isSome → m.running = true → m.MaySpawn name))
  | .setEnabled _ false => .isTrue trivial
  | .unregister _ => .isTrue trivial
  | .restart name => inferInstanceAs (Decidable (m.shouldRun name = true → m.MaySpawn name))

instance (m : Manager Factory) (name : String) : ∀ rest, Decidable (m.CarefulRest name rest)
  | .setEnabled => .isTrue trivial
  | .unregister => inferInstanceAs (Decidable (m.MayDrop name))
  | .restart => inferInstanceAs (Decidable (m.shouldRun name = true → m.MaySpawn name))
  | .stop names => inferInstanceAs (Decidable (m.MayWalk names))

instance (m : Manager Factory) : ∀ e, Decidable (m.Careful e)
  | .call c request => inferInstanceAs (Decidable (m.calls.get? c = none → m.CarefulCall request))
  | .resume c => inferInstanceAs (Decidable (∀ w ∈ m.calls.get? c, m.ended w.task = true →
      (m.senses w.name = true → w.name ∈ m.due) ∧ m.CarefulRest w.name w.rest))
  | .begin _ _ => .isTrue trivial
  | .event _ _ => .isTrue trivial
  | .interrupt _ => .isTrue trivial
  | .finish _ => .isTrue trivial

end Manager
end Wavr.SourceManager
