import Wavr.Auth
import Wavr.NodeCounters

/-!
# A node and its Core

The loop of `wavr node run` and the routes it posts to. Between them is a network that delays and
loses: a request reaches the Core late or never, and so does its answer. The Core serves everybody
else meanwhile.
-/

namespace Wavr.NodeLink
open Nodes Run Text

/-! ## The Core -/

inductive Request
  | heartbeat
  | telemetry (seq : ℤ)
  deriving DecidableEq

/-- The status, and the string under `command` where the body is an object that has one. -/
structure Answer where
  status : ℕ
  command : Option String
  deriving DecidableEq

/-- What the middleware knows of the peer, and of its own configuration. -/
structure Peer where
  host : Option String
  localIp : String
  multidevice : Bool
  /-- `WAVR_LOCAL_TOKEN`; empty where it is not set. -/
  localToken : String
  deriving DecidableEq

def parseBearer (header : Option String) : Option String :=
  match (header.getD "").toList.span (· ≠ ' ') with
  | (scheme, _ :: token) =>
    if lower (String.ofList scheme) ≠ "bearer" then none
    else
      let token := strip (String.ofList token)
      if truthy token then some token else none
  | (_, []) => none

/-- `loopback_or_authed` on the paths of the nodes: the status, where it answers by itself. -/
def loopbackOrAuthed (peer : Peer) (bearer : Option String) : Option ℕ :=
  if peer.host.any (· ∈ Auth.LOOPBACK_HOSTS) then
    if truthy peer.localToken ∧ bearer.getD "" ≠ peer.localToken then some 401 else none
  else if ¬ peer.multidevice then some 403
  else if peer.host.any (Auth.inSubnet · peer.localIp) then none
  else some 403

variable (pf : Platform)

/-- The node behind a token, or the status that refuses it. -/
def authNode (ts : String) (bearer : Option String) (core : NodeStore) :
    Except ℕ (String × Node) × NodeStore :=
  match bearer with
  | none => (.error 401, core)
  | some token =>
    match getByToken pf ts token core with
    | (none, core) => (.error 403, core)
    | (some node, core) => (.ok node, core)

def HEARTBEAT_COMMAND : List (NodeState × String) :=
  [(.active, "ok"), (.disabled, "sleep"), (.revoked, "revoked")]

/-- A request served: the answer, what went on to the fusion, and the registry behind it. -/
structure Served where
  answer : Answer
  accepted : Option (String × ℤ)
  core : NodeStore

def heartbeat (node : Node) : Answer :=
  ⟨200, some ((HEARTBEAT_COMMAND.lookup node.state).getD "sleep")⟩

def telemetry (nodeId : String) (node : Node) (seq : ℤ) (core : NodeStore) : Served :=
  if node.state ≠ .active then ⟨⟨423, none⟩, none, core⟩
  else if ¬ (0 ≤ seq ∧ seq ≤ 2 ^ 63 - 1) then ⟨⟨400, none⟩, none, core⟩
  else
    match recordSeq nodeId seq core with
    | (false, core) => ⟨⟨409, none⟩, none, core⟩
    | (true, core) => ⟨⟨200, none⟩, some (nodeId, seq), core⟩

def serve (peer : Peer) (ts : String) (bearer : Option String) (request : Request) (core : NodeStore) :
    Served :=
  match loopbackOrAuthed peer bearer with
  | some status => ⟨⟨status, none⟩, none, core⟩
  | none =>
    match authNode pf ts bearer core with
    | (.error status, core) => ⟨⟨status, none⟩, none, core⟩
    | (.ok (nodeId, node), core) =>
      match request with
      | .heartbeat => ⟨heartbeat node, none, core⟩
      | .telemetry seq => telemetry nodeId node seq core

/-! ## The node -/

inductive NodeNext
  | keep
  | active
  | disabled
  | revoked
  deriving DecidableEq

def heartbeatNextState (status : Option ℕ) (command : Option String) : NodeNext :=
  match status with
  | none => .keep
  | some status =>
    if status = 401 ∨ status = 403 then .revoked
    else if status ≠ 200 then .keep
    else
      match command with
      | some "ok" | some "run" => .active
      | some "sleep" => .disabled
      | some "revoked" => .revoked
      | _ => .keep

/-- Where the loop of `node_run` is; a wait is for the answer to the request of that number. -/
inductive Phase
  | top
  | collecting
  | awaitingHeartbeat (k : ℕ)
  | awaitingTelemetry (k : ℕ)
  deriving DecidableEq

structure Process where
  state : String
  seq : ℤ
  /-- `next_heartbeat` has come for sure. -/
  due : Bool
  phase : Phase
  deriving DecidableEq

structure World where
  core : NodeStore
  node : Option Process
  /-- The node has removed its state file. -/
  erased : Bool
  /-- All that was ever sent, by number. -/
  sent : List Request
  /-- The answers, each under the number of its request. -/
  answers : List (ℕ × Answer)
  deriving DecidableEq

/-- Behind a heartbeat: a disabled node only waits, its sensor off. -/
def Process.afterHeartbeat (p : Process) : Process :=
  { p with phase := if p.state = "disabled" then .top else .collecting }

/-- The answer to a heartbeat, `none` where none came; the node erases itself at `none`. -/
def Process.heardHeartbeat (p : Process) (answer : Option Answer) : Option Process :=
  match heartbeatNextState (answer.map Answer.status) (answer.bind Answer.command) with
  | .revoked => none
  | .disabled => some { p with state := "disabled" }.afterHeartbeat
  | .active => some { p with state := "active" }.afterHeartbeat
  | .keep => some p.afterHeartbeat

/-- The answer to telemetry, heard at `ms`. -/
def Process.heardTelemetry (p : Process) (ms : ℤ) (answer : Answer) : Process :=
  if answer.status = 423 then { p with state := "disabled", phase := .top }
  else if answer.status = 409 then { p with seq := max p.seq ms, phase := .top }
  else if answer.status = 401 ∨ answer.status = 403 then { p with due := true, phase := .top }
  else { p with phase := .top }

inductive Event
  /-- `wavr node run` starts, and loads this from the state file. -/
  | start (state : String) (seq : ℤ)
  | stop
  /-- The loop comes round, the heartbeat due or not. -/
  | beat
  | noBeat
  /-- The sensor has frames at `ms`, or has none. -/
  | frames (ms : ℤ)
  | noFrames
  /-- The Core serves a request that it has not served yet. -/
  | deliver (k : ℕ) (peer : Peer) (ts : String)
  /-- Something else answers: the host check, or an error of the server. -/
  | fail (k : ℕ) (status : ℕ)
  /-- The node reads the answer that it waits for, at `ms`. -/
  | hear (ms : ℤ)
  | giveUp
  /-- Whatever else calls the registry. -/
  | call (op : Op)
  deriving DecidableEq

/-- The statuses that the node's loop reads something in. -/
def READ_STATUSES : List ℕ := [200, 401, 403, 409, 423]

def send (w : World) (p : Process) (request : Request) : World :=
  { w with node := some p, sent := w.sent ++ [request] }

/-- What the process does with an event; one that is not its turn changes nothing. -/
def stepNode (w : World) (p : Process) : Event → World
  | .beat =>
    if p.phase = .top then
      send w { p with due := false, phase := .awaitingHeartbeat w.sent.length } .heartbeat
    else w
  | .noBeat =>
    if p.phase = .top ∧ p.due = false then { w with node := some p.afterHeartbeat } else w
  | .frames ms =>
    if p.phase = .collecting then
      let seq := max (p.seq + 1) ms
      send w { p with seq, phase := .awaitingTelemetry w.sent.length } (.telemetry seq)
    else w
  | .noFrames => if p.phase = .collecting then { w with node := some { p with phase := .top } } else w
  | .hear ms =>
    match p.phase with
    | .awaitingHeartbeat k =>
      match w.answers.lookup k with
      | none => w
      | some answer =>
        match p.heardHeartbeat (some answer) with
        | none => { w with node := none, erased := true }
        | some p => { w with node := some p }
    | .awaitingTelemetry k =>
      match w.answers.lookup k with
      | none => w
      | some answer => { w with node := some (p.heardTelemetry ms answer) }
    | _ => w
  | .giveUp =>
    match p.phase with
    | .awaitingHeartbeat _ => { w with node := p.heardHeartbeat none }
    | .awaitingTelemetry _ => { w with node := some { p with phase := .top } }
    | _ => w
  | _ => w

variable (token : String)

/-- The `Authorization` of a node that holds `token`, as the Core reads it. -/
def bearer (token : String) : Option String := parseBearer (some ("Bearer " ++ token))

def step (w : World) : Event → World
  | .start state seq =>
    match w.node with
    | none => { w with node := some ⟨state, seq, true, .top⟩ }
    | some _ => w
  | .stop => { w with node := none }
  | .deliver k peer ts =>
    match w.sent[k]?, w.answers.lookup k with
    | some request, none =>
      let served := serve pf peer ts (bearer token) request w.core
      { w with core := served.core, answers := (k, served.answer) :: w.answers }
    | _, _ => w
  | .fail k status =>
    if k < w.sent.length ∧ w.answers.lookup k = none ∧ status ∉ READ_STATUSES then
      { w with answers := (k, ⟨status, none⟩) :: w.answers }
    else w
  | .call op => { w with core := Nodes.step pf w.core op }
  | event =>
    match w.node with
    | none => w
    | some p => stepNode w p event

/-- The telemetry that a delivery lets through, and for which node. -/
def accepted (w : World) : Event → Option (String × ℤ)
  | .deliver k peer ts =>
    match w.sent[k]?, w.answers.lookup k with
    | some request, none => (serve pf peer ts (bearer token) request w.core).accepted
    | _, _ => none
  | _ => none

/-- Before the node's first start, over any registry. -/
def World.init (core : NodeStore) : World := ⟨core, none, false, [], []⟩

/-- The registry behind one join that was let in. -/
def sampleCore : NodeStore := finish (Nodes.step samplePlatform) emptyStore sampleJoin

def sampleHost : Peer := ⟨some "127.0.0.1", "192.168.1.2", false, ""⟩

/-- Somebody on the network of a Core that serves only its own machine. -/
def sampleGuest : Peer := ⟨some "192.168.1.7", "192.168.1.2", false, ""⟩

/-! ## One request served -/

section
variable {pf} {token} {peer : Peer} {ts : String} {core : NodeStore} {n : String} {seq : ℤ}

/-- Nobody gets past the token: the Core turns the peer away, or knows no live node by it. -/
def Rejected (pf : Platform) (token : String) (peer : Peer) (ts : String) (core : NodeStore) : Prop :=
  (loopbackOrAuthed peer (bearer token)).isSome ∨
    ∀ t, bearer token = some t → (getByToken pf ts t core).1 = none

theorem getByToken_eq_some {t : String} {found : String × Node}
    (hfound : (getByToken pf ts t core).1 = some found) :
    ∃ row, core.nodes.get? found.1 = some row ∧ row.tokenHash = some (pf.hashToken t) ∧
      row.state ≠ .revoked ∧ found.2 = { row with lastSeenTs := some ts } ∧
      (getByToken pf ts t core).2.nodes.get? found.1 = some found.2 := by
  unfold getByToken at hfound ⊢
  by_cases htoken : ¬ truthy t = true
  · rw [if_pos htoken] at hfound
    cases hfound
  · rw [if_neg htoken] at hfound ⊢
    cases hrow : core.nodes.entries.find? fun e => e.2.tokenHash = some (pf.hashToken t) with
    | none =>
      rw [hrow] at hfound
      cases hfound
    | some e =>
      rw [hrow] at hfound
      dsimp only at hfound ⊢
      by_cases hstate : e.2.state = .revoked
      · rw [if_pos hstate] at hfound
        cases hfound
      · rw [if_neg hstate] at hfound ⊢
        cases hfound
        have hhash := List.find?_some hrow
        exact ⟨e.2, Dict.mem_entries.mp (List.mem_of_find?_eq_some hrow), by simpa using hhash, hstate, rfl,
          Dict.get?_set_self _ _ _⟩

variable (pf token peer ts core) in
/-- What a request that gets past the token finds. -/
theorem serve_cases (request : Request) :
    (Rejected pf token peer ts core ∧
      ((serve pf peer ts (bearer token) request core).answer.status = 401 ∨
        (serve pf peer ts (bearer token) request core).answer.status = 403) ∧
      (serve pf peer ts (bearer token) request core).answer.command = none ∧
      (serve pf peer ts (bearer token) request core).accepted = none ∧
      ((serve pf peer ts (bearer token) request core).core = core ∨
        ∃ t, (serve pf peer ts (bearer token) request core).core = (getByToken pf ts t core).2)) ∨
    ∃ t nodeId node, bearer token = some t ∧ (getByToken pf ts t core).1 = some (nodeId, node) ∧
      serve pf peer ts (bearer token) request core =
        match request with
        | .heartbeat => ⟨heartbeat node, none, (getByToken pf ts t core).2⟩
        | .telemetry seq => telemetry nodeId node seq (getByToken pf ts t core).2 := by
  unfold serve
  cases hpeer : loopbackOrAuthed peer (bearer token) with
  | some status =>
    refine .inl ⟨.inl (by rw [hpeer]; rfl), ?_, rfl, rfl, .inl rfl⟩
    unfold loopbackOrAuthed at hpeer
    split at hpeer
    · split at hpeer
      · cases hpeer
        exact .inl rfl
      · cases hpeer
    · split at hpeer
      · cases hpeer
        exact .inr rfl
      · split at hpeer
        · cases hpeer
        · cases hpeer
          exact .inr rfl
  | none =>
    unfold authNode
    cases hbearer : bearer token with
    | none =>
      refine .inl ⟨.inr fun t ht => ?_, .inl rfl, rfl, rfl, .inl rfl⟩
      rw [hbearer] at ht
      cases ht
    | some t =>
      cases hfound : getByToken pf ts t core with
      | mk found core' =>
        cases found with
        | none =>
          refine .inl ⟨.inr fun t' ht => ?_, ?_⟩
          · rw [hbearer] at ht
            cases ht
            rw [hfound]
          · simp only [hfound]
            exact ⟨.inr trivial, trivial, trivial, .inr ⟨t, by rw [hfound]⟩⟩
        | some found =>
          refine .inr ⟨t, found.1, found.2, rfl, by simp [hfound], ?_⟩
          simp only [hfound]

theorem heartbeat_command (node : Node) :
    (heartbeat node).command = some (match node.state with
      | .active => "ok"
      | .revoked => "revoked"
      | _ => "sleep") := by
  unfold heartbeat
  cases node.state <;> rfl

/-- Telemetry that goes through is newer than all that its node, an active one, has sent. -/
theorem telemetry_accepted {node : Node} {found : String × ℤ}
    (h : (telemetry n node seq core).accepted = some found) :
    found = (n, seq) ∧ node.state = .active ∧ 0 ≤ seq ∧ seq ≤ 2 ^ 63 - 1 ∧
      (recordSeq n seq core).1 = true ∧ (telemetry n node seq core).core = (recordSeq n seq core).2 := by
  unfold telemetry at h ⊢
  split at h
  · cases h
  · rename_i hactive
    split at h
    · cases h
    · rename_i hrange
      rw [if_neg hactive, if_neg hrange]
      cases hrec : recordSeq n seq core with
      | mk new core' =>
        rw [hrec] at h
        cases new with
        | false => cases h
        | true =>
          cases h
          exact ⟨rfl, not_not.mp hactive, (not_not.mp hrange).1, (not_not.mp hrange).2, rfl, rfl⟩

theorem telemetry_status (node : Node) :
    (telemetry n node seq core).answer.command = none ∧
      (telemetry n node seq core).answer.status ≠ 401 ∧ (telemetry n node seq core).answer.status ≠ 403 := by
  unfold telemetry
  split
  · simp
  · split
    · simp
    · split <;> simp

variable (core n seq) in
theorem telemetry_core (node : Node) :
    (telemetry n node seq core).core = core ∨ (telemetry n node seq core).core = (recordSeq n seq core).2 := by
  unfold telemetry
  split
  · exact .inl rfl
  · split
    · exact .inl rfl
    · split
      · rename_i core' h
        rw [h]
        exact .inr rfl
      · rename_i core' h
        rw [h]
        exact .inr rfl

variable (pf token peer ts core n) in
/-- The registry behind a delivery is where calls of its methods lead, and they record what is
let through. -/
theorem serve_calls (request : Request) :
    ∃ ops : List Op, (serve pf peer ts (bearer token) request core).core = finish (Nodes.step pf) core ops ∧
      (∀ op ∈ ops, ¬ Draws op n) ∧
      ∀ seq, (serve pf peer ts (bearer token) request core).accepted = some (n, seq) →
        outputs (Nodes.step pf) (acceptedSeq n) core ops = [seq] := by
  have hread : ∀ t, finish (Nodes.step pf) core [.getByToken ts t] = (getByToken pf ts t core).2 :=
    fun _ => rfl
  have hrecord : ∀ t m seq, finish (Nodes.step pf) core [.getByToken ts t, .recordSeq m seq] =
      (recordSeq m seq (getByToken pf ts t core).2).2 := fun _ _ _ => rfl
  rcases serve_cases pf token peer ts core request with
    ⟨-, -, -, hacc, hsame | ⟨t, hcore⟩⟩ | ⟨t, nodeId, node, -, -, hserve⟩
  · exact ⟨[], hsame, by simp, by simp [hacc]⟩
  · exact ⟨[.getByToken ts t], by rw [hcore, hread], by simp [Draws], by simp [hacc]⟩
  · cases request with
    | heartbeat => exact ⟨[.getByToken ts t], by rw [hserve, hread], by simp [Draws], by simp [hserve]⟩
    | telemetry seq =>
      rw [hserve]
      dsimp only
      cases hacc : (telemetry nodeId node seq (getByToken pf ts t core).2).accepted with
      | none =>
        rcases telemetry_core (getByToken pf ts t core).2 nodeId seq node with hcore | hcore
        · exact ⟨[.getByToken ts t], by rw [hcore, hread], by simp [Draws], by simp⟩
        · exact ⟨[.getByToken ts t, .recordSeq nodeId seq], by rw [hcore, hrecord], by simp [Draws], by simp⟩
      | some found =>
        obtain ⟨rfl, -, -, -, hnew, hcore⟩ := telemetry_accepted hacc
        refine ⟨[.getByToken ts t, .recordSeq nodeId seq], by rw [hcore, hrecord], by simp [Draws], ?_⟩
        intro seq' h
        cases h
        have hstep : Nodes.step pf core (.getByToken ts t) = (getByToken pf ts t core).2 := rfl
        simp [outputs, acceptedSeq, hstep, hnew]

end

/-! ## One step -/

section

/-- Everything one step can do. -/
inductive Moved (w : World) (e : Event) (w' : World) : Prop
  | idle (h : w' = w)
  | started (state : String) (seq : ℤ) (he : e = .start state seq) (hnode : w.node = none)
      (h : w' = { w with node := some ⟨state, seq, true, .top⟩ })
  | stopped (h : w' = { w with node := none })
  | delivered (k : ℕ) (peer : Peer) (ts : String) (request : Request) (he : e = .deliver k peer ts)
      (hsent : w.sent[k]? = some request) (hnew : w.answers.lookup k = none)
      (h : w' = { w with
        core := (serve pf peer ts (bearer token) request w.core).core
        answers := (k, (serve pf peer ts (bearer token) request w.core).answer) :: w.answers })
  | failed (k status : ℕ) (hk : k < w.sent.length) (hnew : w.answers.lookup k = none)
      (hstatus : status ∉ READ_STATUSES) (h : w' = { w with answers := (k, ⟨status, none⟩) :: w.answers })
  | called (op : Op) (he : e = .call op) (h : w' = { w with core := Nodes.step pf w.core op })
  | asked (p : Process) (hnode : w.node = some p) (hphase : p.phase = .top)
      (h : w' = send w { p with due := false, phase := .awaitingHeartbeat w.sent.length } .heartbeat)
  | reported (p : Process) (ms : ℤ) (hnode : w.node = some p) (hphase : p.phase = .collecting)
      (h : w' = send w { p with seq := max (p.seq + 1) ms, phase := .awaitingTelemetry w.sent.length }
        (.telemetry (max (p.seq + 1) ms)))
  | wentOn (p p' : Process) (hnode : w.node = some p) (hp : p' = p.afterHeartbeat ∨ p' = { p with phase := .top })
      (h : w' = { w with node := some p' })
  | heardHeartbeat (p : Process) (k : ℕ) (ms : ℤ) (answer : Answer) (he : e = .hear ms) (hnode : w.node = some p)
      (hphase : p.phase = .awaitingHeartbeat k) (hanswer : w.answers.lookup k = some answer)
      (h : w' = match p.heardHeartbeat (some answer) with
        | none => { w with node := none, erased := true }
        | some p => { w with node := some p })
  | heardTelemetry (p : Process) (k : ℕ) (ms : ℤ) (answer : Answer) (he : e = .hear ms) (hnode : w.node = some p)
      (hphase : p.phase = .awaitingTelemetry k) (hanswer : w.answers.lookup k = some answer)
      (h : w' = { w with node := some (p.heardTelemetry ms answer) })

variable {pf} {token} {w : World} {e : Event}

theorem moved_stepNode {p : Process} (hnode : w.node = some p) : Moved pf token w e (stepNode w p e) := by
  cases e with
  | beat =>
    simp only [stepNode]
    split
    · rename_i h
      exact .asked p hnode h rfl
    · exact .idle rfl
  | noBeat =>
    simp only [stepNode]
    split
    · exact .wentOn p _ hnode (.inl rfl) rfl
    · exact .idle rfl
  | frames ms =>
    simp only [stepNode]
    split
    · rename_i h
      exact .reported p ms hnode h rfl
    · exact .idle rfl
  | noFrames =>
    simp only [stepNode]
    split
    · exact .wentOn p _ hnode (.inr rfl) rfl
    · exact .idle rfl
  | hear ms =>
    simp only [stepNode]
    split
    · rename_i k hphase
      split
      · exact .idle rfl
      · rename_i answer hanswer
        exact .heardHeartbeat p k ms answer rfl hnode hphase hanswer rfl
    · rename_i k hphase
      split
      · exact .idle rfl
      · rename_i answer hanswer
        exact .heardTelemetry p k ms answer rfl hnode hphase hanswer rfl
    · exact .idle rfl
  | giveUp =>
    simp only [stepNode]
    split
    · exact .wentOn p _ hnode (.inl rfl) rfl
    · exact .wentOn p _ hnode (.inr rfl) rfl
    · exact .idle rfl
  | start | stop | deliver | fail | call => exact .idle rfl

variable (pf token) in
theorem moved (w : World) (e : Event) : Moved pf token w e (step pf token w e) := by
  cases e with
  | start state seq =>
    simp only [step]
    split
    · rename_i h
      exact .started state seq rfl h rfl
    · exact .idle rfl
  | stop => exact .stopped rfl
  | deliver k peer ts =>
    simp only [step]
    split
    · rename_i request hsent hnew
      exact .delivered k peer ts request rfl hsent hnew rfl
    · exact .idle rfl
  | fail k status =>
    simp only [step]
    split
    · rename_i h
      exact .failed k status h.1 h.2.1 h.2.2 rfl
    · exact .idle rfl
  | call op => exact .called op rfl rfl
  | beat | noBeat | frames ms | noFrames | hear ms | giveUp =>
    simp only [step]
    split
    · exact .idle rfl
    · rename_i p hnode
      exact moved_stepNode hnode

/-- A heartbeat whose answer makes the node erase itself. -/
theorem heardHeartbeat_eq_none {p : Process} {answer : Answer} (h : p.heardHeartbeat (some answer) = none) :
    answer.status = 401 ∨ answer.status = 403 ∨ answer.command = some "revoked" := by
  unfold Process.heardHeartbeat heartbeatNextState at h
  grind

end

/-! ## What the node does, and why -/

section
variable (w₀ : World) (is : List Event)

/-- The run has had request `k`, which was `request`, served with this answer. -/
def Answered (k : ℕ) (request : Request) (answer : Answer) : Prop :=
  ∃ pre peer ts post, is = pre ++ .deliver k peer ts :: post ∧
    (finish (step pf token) w₀ pre).sent[k]? = some request ∧
    answer = (serve pf peer ts (bearer token) request (finish (step pf token) w₀ pre).core).answer

/-- A heartbeat of the run that the Core rejected. -/
def Turned : Prop :=
  ∃ pre k peer ts post, is = pre ++ .deliver k peer ts :: post ∧
    (finish (step pf token) w₀ pre).sent[k]? = some .heartbeat ∧
    Rejected pf token peer ts (finish (step pf token) w₀ pre).core

/-- Only what was sent is answered. -/
def Numbered (w : World) : Prop := ∀ k answer, w.answers.lookup k = some answer → k < w.sent.length

/-- What is behind every answer, every wait and the end. -/
structure Grounded (w : World) : Prop where
  numbered : Numbered w
  answered : ∀ k answer, w.answers.lookup k = some answer →
    answer.status ∉ READ_STATUSES ∧ answer.command = none ∨
      ∃ request, w.sent[k]? = some request ∧ Answered pf token w₀ is k request answer
  asked : ∀ p k, w.node = some p → p.phase = .awaitingHeartbeat k → w.sent[k]? = some .heartbeat
  erased : w.erased = true → Turned pf token w₀ is

variable {pf} {token} {w₀} {is}

theorem Answered.snoc {k : ℕ} {request : Request} {answer : Answer} (h : Answered pf token w₀ is k request answer)
    (e : Event) : Answered pf token w₀ (is ++ [e]) k request answer := by
  obtain ⟨pre, peer, ts, post, rfl, hsent, hanswer⟩ := h
  exact ⟨pre, peer, ts, post ++ [e], by simp, hsent, hanswer⟩

theorem Turned.snoc (h : Turned pf token w₀ is) (e : Event) : Turned pf token w₀ (is ++ [e]) := by
  obtain ⟨pre, k, peer, ts, post, rfl, hsent, hrej⟩ := h
  exact ⟨pre, k, peer, ts, post ++ [e], by simp, hsent, hrej⟩

/-- An answer that ends the node came to a request that the Core rejected. -/
theorem Answered.rejected {k : ℕ} {answer : Answer} (h : Answered pf token w₀ is k .heartbeat answer)
    (hend : answer.status = 401 ∨ answer.status = 403 ∨ answer.command = some "revoked") :
    Turned pf token w₀ is := by
  obtain ⟨pre, peer, ts, post, his, hsent, rfl⟩ := h
  refine ⟨pre, k, peer, ts, post, his, hsent, ?_⟩
  rcases serve_cases pf token peer ts (finish (step pf token) w₀ pre).core .heartbeat with
    ⟨hrej, -⟩ | ⟨t, nodeId, node, -, hfound, hserve⟩
  · exact hrej
  · obtain ⟨row, -, -, hlive, hnode, -⟩ := getByToken_eq_some hfound
    have hstate : node.state = row.state := by rw [show node = _ from hnode]
    rw [hserve] at hend
    dsimp only at hend
    rw [heartbeat_command, hstate] at hend
    rcases hend with h | h | h
    · cases h
    · cases h
    · cases hrow : row.state <;> rw [hrow] at h hlive <;> simp at h hlive

theorem Grounded.init (core : NodeStore) : Grounded pf token (World.init core) [] (World.init core) where
  numbered _ _ h := by cases h
  answered _ _ h := by cases h
  asked _ _ h := by cases h
  erased h := by cases h

theorem getElem?_append_of_some {l : List Request} {k : ℕ} {r : Request} (h : l[k]? = some r) (l' : List Request) :
    (l ++ l')[k]? = some r := by
  rw [List.getElem?_append_left (List.getElem?_eq_some_iff.mp h).1, h]

theorem Numbered.keep {w w' : World} (hn : Numbered w) (hsent : ∃ l, w'.sent = w.sent ++ l)
    (hanswers : w'.answers = w.answers) : Numbered w' := by
  obtain ⟨l, hl⟩ := hsent
  intro k answer h
  rw [hl, List.length_append]
  exact (hn k answer (hanswers ▸ h)).trans_le (Nat.le_add_right _ _)

/-- The answers behind one more. -/
theorem lookup_cons {w : World} {k k' : ℕ} {answer a : Answer}
    (h : ((k, answer) :: w.answers).lookup k' = some a) :
    (k' = k ∧ a = answer) ∨ w.answers.lookup k' = some a := by
  by_cases hkk : k' = k
  · subst hkk
    rw [List.lookup_cons, beq_self_eq_true] at h
    cases h
    exact .inl ⟨rfl, rfl⟩
  · rw [List.lookup_cons, beq_eq_false_iff_ne.mpr hkk] at h
    exact .inr h

theorem Numbered.answer {w : World} {k : ℕ} (hn : Numbered w) (hk : k < w.sent.length) (core : NodeStore)
    (answer : Answer) : Numbered { w with core, answers := (k, answer) :: w.answers } := by
  intro k' a h
  rcases lookup_cons h with ⟨rfl, -⟩ | h
  · exact hk
  · exact hn k' a h

/-- A step that leaves what was sent and answered where it was. -/
theorem Grounded.keep {w w' : World} (hg : Grounded pf token w₀ is w) (e : Event)
    (hsent : ∃ l, w'.sent = w.sent ++ l) (hanswers : w'.answers = w.answers) (herased : w'.erased = w.erased)
    (hasked : ∀ p k, w'.node = some p → p.phase = .awaitingHeartbeat k → w'.sent[k]? = some .heartbeat) :
    Grounded pf token w₀ (is ++ [e]) w' where
  numbered := hg.numbered.keep hsent hanswers
  answered k answer h := by
    obtain ⟨l, hl⟩ := hsent
    rw [hanswers] at h
    rcases hg.answered k answer h with hfail | ⟨request, hreq, hans⟩
    · exact .inl hfail
    · exact .inr ⟨request, by rw [hl]; exact getElem?_append_of_some hreq l, hans.snoc e⟩
  asked := hasked
  erased h := (hg.erased (herased ▸ h)).snoc e

theorem phase_afterHeartbeat (p : Process) :
    p.afterHeartbeat.phase = .top ∨ p.afterHeartbeat.phase = .collecting := by
  unfold Process.afterHeartbeat
  dsimp only
  split <;> simp

theorem phase_heardTelemetry (p : Process) (ms : ℤ) (answer : Answer) :
    (p.heardTelemetry ms answer).phase = .top := by
  unfold Process.heardTelemetry
  repeat' split
  all_goals rfl

theorem heardHeartbeat_some {p p' : Process} {answer : Option Answer} (h : p.heardHeartbeat answer = some p') :
    ∃ state, p' = { p with state := state }.afterHeartbeat := by
  unfold Process.heardHeartbeat at h
  split at h
  · cases h
  · cases h; exact ⟨_, rfl⟩
  · cases h; exact ⟨_, rfl⟩
  · cases h; exact ⟨p.state, rfl⟩

theorem Grounded.step {w : World} (hg : Grounded pf token w₀ is w) (hw : w = finish (step pf token) w₀ is)
    (e : Event) : Grounded pf token w₀ (is ++ [e]) (step pf token w e) := by
  -- a process that is not at a heartbeat any more waits for none
  have hnone : ∀ {w' : World} {p : Process}, w'.node = some p → p.phase = .top ∨ p.phase = .collecting →
      ∀ q k, w'.node = some q → q.phase = .awaitingHeartbeat k → w'.sent[k]? = some .heartbeat := by
    intro w' p hp hphase q k hq hk
    rw [hp] at hq
    cases hq
    rcases hphase with h | h <;> rw [h] at hk <;> cases hk
  rcases moved pf token w e with h | ⟨state, seq, -, hnode, h⟩ | h |
    ⟨k, peer, ts, request, he, hsent, hnew, h⟩ | ⟨k, status, hk, hnew, hstatus, h⟩ | ⟨op, he, h⟩ |
    ⟨p, hnode, hphase, h⟩ | ⟨p, ms, hnode, hphase, h⟩ | ⟨p, p', hnode, hp, h⟩ |
    ⟨p, k, ms, answer, he, hnode, hphase, hanswer, h⟩ | ⟨p, k, ms, answer, he, hnode, hphase, hanswer, h⟩ <;>
    rw [h]
  · exact hg.keep e ⟨[], by simp⟩ rfl rfl hg.asked
  · exact hg.keep e ⟨[], by simp⟩ rfl rfl (hnone rfl (.inl rfl))
  · exact hg.keep e ⟨[], by simp⟩ rfl rfl (fun _ _ h => by cases h)
  · refine ⟨hg.numbered.answer (List.getElem?_eq_some_iff.mp hsent).1 _ _, fun k' answer hlook => ?_, hg.asked,
      fun h => (hg.erased h).snoc e⟩
    rcases lookup_cons hlook with ⟨rfl, rfl⟩ | hlook
    · exact .inr ⟨request, hsent, is, peer, ts, [], by rw [he], by rw [← hw]; exact hsent, by rw [← hw]⟩
    · rcases hg.answered k' answer hlook with hfail | ⟨request', hreq, hans⟩
      · exact .inl hfail
      · exact .inr ⟨request', hreq, hans.snoc e⟩
  · refine ⟨hg.numbered.answer hk _ _, fun k' answer hlook => ?_, hg.asked, fun h => (hg.erased h).snoc e⟩
    rcases lookup_cons hlook with ⟨rfl, rfl⟩ | hlook
    · exact .inl ⟨hstatus, rfl⟩
    · rcases hg.answered k' answer hlook with hfail | ⟨request', hreq, hans⟩
      · exact .inl hfail
      · exact .inr ⟨request', hreq, hans.snoc e⟩
  · exact hg.keep e ⟨[], by simp⟩ rfl rfl hg.asked
  · refine hg.keep e ⟨[.heartbeat], rfl⟩ rfl rfl fun q k hq hk => ?_
    cases hq
    cases hk
    simp [send]
  · refine hg.keep e ⟨[_], rfl⟩ rfl rfl fun q k hq hk => ?_
    cases hq
    cases hk
  · refine hg.keep e ⟨[], by simp⟩ rfl rfl (hnone rfl ?_)
    rcases hp with rfl | rfl
    · exact phase_afterHeartbeat p
    · exact .inl rfl
  · cases hheard : p.heardHeartbeat (some answer) with
    | none =>
      have hsent := hg.asked p k hnode hphase
      have hturned : Turned pf token w₀ is := by
        rcases hg.answered k answer hanswer with ⟨hstatus, hcommand⟩ | ⟨request, hreq, hans⟩
        · rcases heardHeartbeat_eq_none hheard with h | h | h
          · exact absurd (by rw [h]; decide) hstatus
          · exact absurd (by rw [h]; decide) hstatus
          · rw [hcommand] at h
            cases h
        · rw [hsent] at hreq
          cases hreq
          exact hans.rejected (heardHeartbeat_eq_none hheard)
      dsimp only
      refine ⟨hg.numbered, fun k' answer hlook => ?_, fun _ _ h => (by cases h), fun _ => hturned.snoc e⟩
      rcases hg.answered k' answer hlook with hfail | ⟨request', hreq, hans⟩
      · exact .inl hfail
      · exact .inr ⟨request', hreq, hans.snoc e⟩
    | some p' =>
      obtain ⟨state, rfl⟩ := heardHeartbeat_some hheard
      exact hg.keep e ⟨[], by simp⟩ rfl rfl (hnone rfl (phase_afterHeartbeat _))
  · exact hg.keep e ⟨[], by simp⟩ rfl rfl (hnone rfl (.inl (phase_heardTelemetry p ms answer)))

variable (pf token) in
theorem grounded_run (core : NodeStore) (is : List Event) :
    Grounded pf token (World.init core) is (finish (NodeLink.step pf token) (World.init core) is) :=
  history_induction (R := fun is w => Grounded pf token (World.init core) is w) (.init core)
    (fun _ e hg => hg.step rfl e) is

/-- A node erases itself only where the Core has rejected a heartbeat of it: the peer was turned
away, or there was no live node under the token. Nothing else that is lost, late or answered by
somebody else ends it. -/
theorem erased_turned (core : NodeStore) (is : List Event)
    (h : (finish (NodeLink.step pf token) (World.init core) is).erased = true) :
    Turned pf token (World.init core) is :=
  (grounded_run pf token core is).erased h

/-- The node asks for its state, and the Core lets nobody in from the network. -/
theorem erased_turned_guest :
    Turned samplePlatform "token-1" (World.init sampleCore)
      [.start "active" 0, .beat, .deliver 0 sampleGuest "1", .hear 1] :=
  erased_turned sampleCore _ (by decide +kernel)

/-! ## What the Core lets through -/

/-- The seqs let through for node `n`, in order. -/
def acceptedFor (pf : Platform) (token n : String) : World → List Event → List ℤ :=
  outputsFor (NodeLink.step pf token) (accepted pf token) n

theorem stepNode_core (w : World) (p : Process) (e : Event) : (stepNode w p e).core = w.core := by
  unfold stepNode
  split <;> (repeat' split) <;> rfl

variable (pf token) in
/-- The registry behind a step is where calls of its methods lead, and they record what the step
lets through. -/
theorem registry_step {n : String} (w : World) {e : Event} (hd : ∀ op, e = .call op → ¬ Draws op n) :
    ∃ ops : List Op, (NodeLink.step pf token w e).core = finish (Nodes.step pf) w.core ops ∧
      (∀ op ∈ ops, ¬ Draws op n) ∧
      ((accepted pf token w e).toList.filterMap fun a => if a.1 = n then some a.2 else none).Sublist
        (outputs (Nodes.step pf) (acceptedSeq n) w.core ops) := by
  cases e with
  | deliver k peer ts =>
    simp only [NodeLink.step, accepted]
    split
    · rename_i request hsent hnew
      obtain ⟨ops, hcore, hdraws, hout⟩ := serve_calls pf token peer ts w.core n request
      refine ⟨ops, hcore, hdraws, ?_⟩
      cases hacc : (serve pf peer ts (bearer token) request w.core).accepted with
      | none => simp
      | some found =>
        by_cases hn : found.1 = n
        · subst hn
          rw [hout found.2 hacc]
          simp
        · simp [hn]
    · exact ⟨[], rfl, by simp, by simp⟩
  | call op => exact ⟨[op], rfl, by simpa using hd op rfl, by simp [accepted]⟩
  | start | stop | fail | beat | noBeat | frames | noFrames | hear | giveUp =>
    refine ⟨[], ?_, by simp, by simp [accepted]⟩
    simp only [NodeLink.step]
    try split
    all_goals simp [stepNode_core]

variable (pf token) in
/-- The registry of a run of the link is that of a run of its own, which records at least what the
link lets through. -/
theorem registry_run (n : String) (w : World) (is : List Event)
    (hd : ∀ op, Event.call op ∈ is → ¬ Draws op n) :
    ∃ ops : List Op, (finish (NodeLink.step pf token) w is).core = finish (Nodes.step pf) w.core ops ∧
      (∀ op ∈ ops, ¬ Draws op n) ∧
      (acceptedFor pf token n w is).Sublist (outputs (Nodes.step pf) (acceptedSeq n) w.core ops) := by
  induction is generalizing w with
  | nil => exact ⟨[], rfl, by simp, List.Sublist.refl _⟩
  | cons e is ih =>
    obtain ⟨first, hcore', hdraws', hsub'⟩ := registry_step pf token w
      (fun op (h : e = .call op) => hd op (h ▸ List.mem_cons_self))
    obtain ⟨ops, hcore, hdraws, hsub⟩ :=
      ih (NodeLink.step pf token w e) fun op h => hd op (List.mem_cons_of_mem _ h)
    refine ⟨first ++ ops, ?_, ?_, ?_⟩
    · rw [finish_cons, hcore, hcore', finish_append]
    · intro op hop
      rcases List.mem_append.mp hop with h | h
      · exact hdraws' op h
      · exact hdraws op h
    · rw [outputs_append, ← hcore']
      unfold acceptedFor outputsFor
      rw [outputs, List.filterMap_append]
      exact hsub'.append hsub

/-- What is let through at a step was sent, and its node is active at that moment. -/
theorem accepted_sent {w : World} {e : Event} {n : String} {seq : ℤ}
    (h : accepted pf token w e = some (n, seq)) :
    Request.telemetry seq ∈ w.sent ∧ ∃ t row, bearer token = some t ∧ w.core.nodes.get? n = some row ∧
      row.tokenHash = some (pf.hashToken t) ∧ row.state = .active ∧ row.lastSeq < seq := by
  unfold accepted at h
  split at h
  · rename_i k peer ts
    split at h
    · rename_i request hsent hnew
      rcases serve_cases pf token peer ts w.core request with
        ⟨-, -, -, hacc, -⟩ | ⟨t, nodeId, node, hbearer, hfound, hserve⟩
      · rw [hacc] at h
        cases h
      · rw [hserve] at h
        cases request with
        | heartbeat => cases h
        | telemetry seq' =>
          obtain ⟨heq, hactive, -, -, hnew, -⟩ := telemetry_accepted h
          cases heq
          obtain ⟨row, hrow, hhash, -, rfl, hseen⟩ := getByToken_eq_some hfound
          refine ⟨List.mem_of_getElem? hsent, t, row, hbearer, hrow, hhash, hactive, ?_⟩
          have hrecords : acceptedSeq n (getByToken pf ts t w.core).2 (.recordSeq n seq) = some seq := by
            simp [acceptedSeq, hnew]
          obtain ⟨-, r, hr, hlt⟩ := acceptedSeq_eq_some.mp hrecords
          rw [hseen] at hr
          cases hr
          exact hlt
    · cases h
  · cases h

/-- However requests are delayed and lost, no seq of a node goes through twice or behind a greater
one; each was sent, and its node held the token and was active when it went through. -/
theorem accepted_once (core : NodeStore) (n : String) (is : List Event)
    (hd : ∀ op, Event.call op ∈ is → ¬ Draws op n) :
    (acceptedFor pf token n (World.init core) is).Pairwise (· < ·) ∧
      ∀ pre e post seq, is = pre ++ e :: post →
        accepted pf token (finish (NodeLink.step pf token) (World.init core) pre) e = some (n, seq) →
        Request.telemetry seq ∈ (finish (NodeLink.step pf token) (World.init core) pre).sent ∧
          ∃ t row, bearer token = some t ∧
            (finish (NodeLink.step pf token) (World.init core) pre).core.nodes.get? n = some row ∧
            row.tokenHash = some (pf.hashToken t) ∧ row.state = .active ∧ row.lastSeq < seq := by
  obtain ⟨ops, -, hdraws, hsub⟩ := registry_run pf token n (World.init core) is hd
  exact ⟨(accepted_increasing hdraws).sublist hsub, fun pre e post seq _ h => accepted_sent h⟩

/-- Frames are sent twice, and come to the Core the other way round. -/
def sampleReports : List Event :=
  [.start "active" 0, .beat, .deliver 0 sampleHost "1", .hear 1, .frames 5, .giveUp, .noBeat, .frames 6,
    .deliver 2 sampleHost "2", .deliver 1 sampleHost "3"]

theorem accepted_once_late :
    acceptedFor samplePlatform "token-1" "n1" (World.init sampleCore) sampleReports = [6] ∧
      (acceptedFor samplePlatform "token-1" "n1" (World.init sampleCore) sampleReports).Pairwise (· < ·) :=
  ⟨by decide +kernel, (accepted_once sampleCore "n1" sampleReports (by simp [sampleReports])).1⟩

/-! ## A node that has been told -/

/-- Nobody who holds the token is active. -/
def Dark (pf : Platform) (token : String) (core : NodeStore) : Prop :=
  ∀ t ts found, bearer token = some t → (getByToken pf ts t core).1 = some found → found.2.state ≠ .active

theorem dark_of_rows {core : NodeStore} (h : ∀ e ∈ core.nodes.entries, e.2.state ≠ .active) :
    Dark pf token core := by
  intro t ts found _ hfound
  obtain ⟨row, hrow, -, -, hnode, -⟩ := getByToken_eq_some hfound
  rw [hnode]
  exact h (found.1, row) (Dict.mem_entries.mpr hrow)

/-- The node has read that it is off, in the answer to a request it sent after the first `m`. -/
def Told (m : ℕ) (w : World) : Prop :=
  ∃ p k answer, w.node = some p ∧ m ≤ k ∧ w.answers.lookup k = some answer ∧
    (p.phase = .awaitingHeartbeat k ∧ answer.status = 200 ∨ p.phase = .awaitingTelemetry k ∧ answer.status = 423)

/-- Since request `m` nobody was told to go on. -/
structure Hushed (m : ℕ) (w : World) : Prop where
  numbered : Numbered w
  answers : ∀ k answer, m ≤ k → w.answers.lookup k = some answer →
    answer.command ≠ some "ok" ∧ answer.command ≠ some "run" ∧
      (w.sent[k]? = some .heartbeat → answer.status = 200 → answer.command = some "sleep")

/-- ... and the node, if it runs, is off and waits. -/
structure Off (m : ℕ) (w : World) : Prop extends Hushed m w where
  since : m ≤ w.sent.length
  node : ∀ p, w.node = some p → p.state = "disabled" ∧
    (p.phase = .top ∨ ∃ k, m ≤ k ∧ p.phase = .awaitingHeartbeat k ∧ w.sent[k]? = some .heartbeat)

/-- While nobody who holds the token is active, no answer tells the node to go on. -/
theorem serve_dark (peer : Peer) (ts : String) {core : NodeStore} (hdark : Dark pf token core) (request : Request) :
    (serve pf peer ts (bearer token) request core).answer.command ≠ some "ok" ∧
      (serve pf peer ts (bearer token) request core).answer.command ≠ some "run" ∧
      (request = .heartbeat → (serve pf peer ts (bearer token) request core).answer.status = 200 →
        (serve pf peer ts (bearer token) request core).answer.command = some "sleep") := by
  rcases serve_cases pf token peer ts core request with
    ⟨-, hstatus, hcommand, -⟩ | ⟨t, nodeId, node, hbearer, hfound, hserve⟩
  · rw [hcommand]
    refine ⟨by simp, by simp, fun _ h => ?_⟩
    rcases hstatus with h' | h' <;> rw [h'] at h <;> cases h
  · rw [hserve]
    cases request with
    | heartbeat =>
      have hactive := hdark t ts _ hbearer hfound
      obtain ⟨row, -, -, hlive, hnode, -⟩ := getByToken_eq_some hfound
      have hstate : node.state = row.state := by rw [show node = _ from hnode]
      dsimp only at hactive ⊢
      rw [heartbeat_command]
      rw [hstate] at hactive ⊢
      cases h : row.state with
      | active => exact absurd h hactive
      | revoked => exact absurd h hlive
      | pending | disabled => simp
    | telemetry seq =>
      dsimp only
      rw [(telemetry_status node).1]
      simp

theorem Hushed.keep {m : ℕ} {w w' : World} (hh : Hushed m w) (hsent : ∃ l, w'.sent = w.sent ++ l)
    (hanswers : w'.answers = w.answers) : Hushed m w' := by
  refine ⟨hh.numbered.keep hsent hanswers, fun k answer hk h => ?_⟩
  obtain ⟨l, hl⟩ := hsent
  rw [hanswers] at h
  obtain ⟨hok, hrun, hsleep⟩ := hh.answers k answer hk h
  refine ⟨hok, hrun, fun hreq => hsleep ?_⟩
  rwa [hl, List.getElem?_append_left (hh.numbered k answer h)] at hreq

/-- One more answer, of which the same is to be said. -/
theorem Hushed.answer {m k : ℕ} {w : World} {core : NodeStore} {answer : Answer} (hh : Hushed m w)
    (hk : k < w.sent.length)
    (hnew : answer.command ≠ some "ok" ∧ answer.command ≠ some "run" ∧
      (w.sent[k]? = some .heartbeat → answer.status = 200 → answer.command = some "sleep")) :
    Hushed m { w with core, answers := (k, answer) :: w.answers } := by
  refine ⟨hh.numbered.answer hk core answer, fun k' a hm h => ?_⟩
  rcases lookup_cons h with ⟨rfl, rfl⟩ | h
  · exact hnew
  · exact hh.answers k' a hm h

/-- What is said of the answers outlasts a step of the world, the registry being dark. -/
theorem Hushed.step {m : ℕ} {w : World} (hh : Hushed m w) (hdark : Dark pf token w.core) (e : Event) :
    Hushed m (step pf token w e) := by
  rcases moved pf token w e with h | ⟨state, seq, -, hnode, h⟩ | h |
    ⟨k, peer, ts, request, he, hsent, hnew, h⟩ | ⟨k, status, hk, hnew, hstatus, h⟩ | ⟨op, he, h⟩ |
    ⟨p, hnode, hphase, h⟩ | ⟨p, ms, hnode, hphase, h⟩ | ⟨p, p', hnode, hp, h⟩ |
    ⟨p, k, ms, answer, he, hnode, hphase, hanswer, h⟩ | ⟨p, k, ms, answer, he, hnode, hphase, hanswer, h⟩ <;>
    rw [h]
  · exact hh
  · exact hh.keep ⟨[], by simp⟩ rfl
  · exact hh.keep ⟨[], by simp⟩ rfl
  · obtain ⟨hok, hrun, hsleep⟩ := serve_dark peer ts hdark request
    refine hh.answer (List.getElem?_eq_some_iff.mp hsent).1 ⟨hok, hrun, fun hreq => hsleep ?_⟩
    rw [hsent] at hreq
    exact Option.some.inj hreq
  · refine hh.answer hk ⟨by simp, by simp, fun _ hs => ?_⟩
    exact absurd (show status ∈ READ_STATUSES by rw [show status = 200 from hs]; decide) hstatus
  · exact hh.keep ⟨[], by simp⟩ rfl
  · exact hh.keep ⟨[_], rfl⟩ rfl
  · exact hh.keep ⟨[_], rfl⟩ rfl
  · exact hh.keep ⟨[], by simp⟩ rfl
  · cases hheard : p.heardHeartbeat (some answer) with
    | none => exact hh.keep ⟨[], by simp⟩ rfl
    | some p' => exact hh.keep ⟨[], by simp⟩ rfl
  · exact hh.keep ⟨[], by simp⟩ rfl

theorem afterHeartbeat_disabled {p : Process} (h : p.state = "disabled") :
    p.afterHeartbeat.state = "disabled" ∧ p.afterHeartbeat.phase = .top := by
  simp [Process.afterHeartbeat, h]

/-- An answer that does not say to go on leaves a node off that is off, and one that says to sleep
turns it off. -/
theorem heardHeartbeat_off {p p' : Process} {answer : Answer} (hok : answer.command ≠ some "ok")
    (hrun : answer.command ≠ some "run")
    (hoff : p.state = "disabled" ∨ answer.status = 200 ∧ answer.command = some "sleep")
    (h : p.heardHeartbeat (some answer) = some p') : p'.state = "disabled" ∧ p'.phase = .top := by
  have hnext : heartbeatNextState (some answer.status) answer.command ≠ .active := by
    unfold heartbeatNextState
    grind
  have hkeep : heartbeatNextState (some answer.status) answer.command = .keep → p.state = "disabled" := by
    rintro hk
    rcases hoff with h | ⟨hstatus, hcommand⟩
    · exact h
    · rw [hstatus, hcommand] at hk
      cases hk
  unfold Process.heardHeartbeat at h
  dsimp only [Option.map_some, Option.bind_some] at h
  split at h
  · cases h
  · cases h
    exact afterHeartbeat_disabled rfl
  · rename_i hactive
    exact absurd hactive hnext
  · rename_i hk
    cases h
    exact afterHeartbeat_disabled (hkeep hk)

/-- A node that is off stays off, and sends heartbeats only. -/
theorem Off.step {m : ℕ} {w : World} (ho : Off m w) (hdark : Dark pf token w.core) (e : Event)
    (hstart : ∀ state seq, e = .start state seq → state = "disabled") :
    Off m (step pf token w e) ∧ ∃ j, (step pf token w e).sent = w.sent ++ List.replicate j .heartbeat := by
  have hh : Hushed m (NodeLink.step pf token w e) := ho.toHushed.step hdark e
  have hsame : w.sent = w.sent ++ List.replicate 0 .heartbeat := by simp
  rcases moved pf token w e with h | ⟨state, seq, he, hnode, h⟩ | h |
    ⟨k, peer, ts, request, he, hsent, hnew, h⟩ | ⟨k, status, hk, hnew, hstatus, h⟩ | ⟨op, he, h⟩ |
    ⟨p, hnode, hphase, h⟩ | ⟨p, ms, hnode, hphase, h⟩ | ⟨p, p', hnode, hp, h⟩ |
    ⟨p, k, ms, answer, he, hnode, hphase, hanswer, h⟩ | ⟨p, k, ms, answer, he, hnode, hphase, hanswer, h⟩ <;>
    rw [h] at hh ⊢
  · exact ⟨ho, 0, hsame⟩
  · refine ⟨⟨hh, ho.since, fun q hq => ?_⟩, 0, hsame⟩
    cases hq
    exact ⟨hstart state seq he, .inl rfl⟩
  · exact ⟨⟨hh, ho.since, fun q hq => by cases hq⟩, 0, hsame⟩
  · exact ⟨⟨hh, ho.since, ho.node⟩, 0, hsame⟩
  · exact ⟨⟨hh, ho.since, ho.node⟩, 0, hsame⟩
  · exact ⟨⟨hh, ho.since, ho.node⟩, 0, hsame⟩
  · refine ⟨⟨hh, ho.since.trans (by simp [send]), fun q hq => ?_⟩, 1, rfl⟩
    cases hq
    exact ⟨(ho.node p hnode).1, .inr ⟨w.sent.length, ho.since, rfl, by simp [send]⟩⟩
  · rcases (ho.node p hnode).2 with hp | ⟨k, -, hp, -⟩ <;> rw [hp] at hphase <;> cases hphase
  · refine ⟨⟨hh, ho.since, fun q hq => ?_⟩, 0, hsame⟩
    cases hq
    rcases hp with rfl | rfl
    · exact ⟨(afterHeartbeat_disabled (ho.node p hnode).1).1, .inl (afterHeartbeat_disabled (ho.node p hnode).1).2⟩
    · exact ⟨(ho.node p hnode).1, .inl rfl⟩
  · obtain ⟨hoff, hwait⟩ := ho.node p hnode
    have hk : m ≤ k := by
      rcases hwait with hp | ⟨k', hm, hp, -⟩ <;> rw [hp] at hphase <;> cases hphase
      exact hm
    obtain ⟨hok, hrun, -⟩ := ho.answers k answer hk hanswer
    cases hheard : p.heardHeartbeat (some answer) with
    | none =>
      rw [hheard] at hh
      exact ⟨⟨hh, ho.since, fun q hq => by cases hq⟩, 0, hsame⟩
    | some p' =>
      rw [hheard] at hh
      refine ⟨⟨hh, ho.since, fun q hq => ?_⟩, 0, hsame⟩
      cases hq
      obtain ⟨hstate, htop⟩ := heardHeartbeat_off hok hrun (.inl hoff) hheard
      exact ⟨hstate, .inl htop⟩
  · rcases (ho.node p hnode).2 with hp | ⟨k, -, hp, -⟩ <;> rw [hp] at hphase <;> cases hphase

theorem Off.run {m : ℕ} {w : World} {is : List Event} (ho : Off m w)
    (hdark : Run.AllStates (NodeLink.step pf token) (fun w => Dark pf token w.core) w is)
    (hstart : ∀ state seq, Event.start state seq ∈ is → state = "disabled") :
    ∃ j, (finish (NodeLink.step pf token) w is).sent = w.sent ++ List.replicate j .heartbeat := by
  induction is generalizing w with
  | nil => exact ⟨0, by simp⟩
  | cons e is ih =>
    obtain ⟨hoff, j, hj⟩ := ho.step hdark.1 e fun state seq he => hstart state seq (he ▸ List.mem_cons_self)
    obtain ⟨j', hj'⟩ := ih hoff hdark.2 fun state seq h => hstart state seq (List.mem_cons_of_mem _ h)
    exact ⟨j + j', by rw [finish_cons, hj', hj, List.append_assoc, List.replicate_append_replicate]⟩

/-- Nobody has been told anything since the request that comes next. -/
theorem Hushed.now {w : World} (hnum : Numbered w) :
    Hushed w.sent.length w :=
  ⟨hnum, fun k answer hk h => absurd (hnum k answer h) (not_lt.mpr hk)⟩

theorem Hushed.run {m : ℕ} {w : World} {is : List Event} (hh : Hushed m w)
    (hdark : Run.AllStates (NodeLink.step pf token) (fun w => Dark pf token w.core) w is) :
    Hushed m (finish (NodeLink.step pf token) w is) := by
  induction is generalizing w with
  | nil => exact hh
  | cons e is ih => exact ih (hh.step hdark.1 e) hdark.2

/-- Once it has read that it is off, a node is off. -/
theorem Told.off {m : ℕ} {w : World} (hh : Hushed m w) (hm : m ≤ w.sent.length)
    (hasked : ∀ p k, w.node = some p → p.phase = .awaitingHeartbeat k → w.sent[k]? = some .heartbeat)
    (hdark : Dark pf token w.core) (ht : Told m w) (ms : ℤ) : Off m (NodeLink.step pf token w (.hear ms)) := by
  have hh' : Hushed m (NodeLink.step pf token w (.hear ms)) := hh.step hdark _
  obtain ⟨p, k, answer, hnode, hk, hanswer, ⟨hphase, hstatus⟩ | ⟨hphase, hstatus⟩⟩ := ht
  · obtain ⟨hok, hrun, hsleep⟩ := hh.answers k answer hk hanswer
    have hcommand := hsleep (hasked p k hnode hphase) hstatus
    revert hh'
    simp only [NodeLink.step, hnode, stepNode, hphase, hanswer]
    intro hh'
    cases hheard : p.heardHeartbeat (some answer) with
    | none =>
      rw [hheard] at hh'
      exact ⟨hh', hm, fun q hq => by cases hq⟩
    | some p' =>
      rw [hheard] at hh'
      refine ⟨hh', hm, fun q hq => ?_⟩
      cases hq
      obtain ⟨hstate, htop⟩ := heardHeartbeat_off hok hrun (.inr ⟨hstatus, hcommand⟩) hheard
      exact ⟨hstate, .inl htop⟩
  · revert hh'
    simp only [NodeLink.step, hnode, stepNode, hphase, hanswer]
    intro hh'
    refine ⟨hh', hm, fun q hq => ?_⟩
    cases hq
    exact ⟨by simp [Process.heardTelemetry, hstatus], .inl (phase_heardTelemetry p ms answer)⟩

variable (pf token) in
theorem sent_step (w : World) (e : Event) : ∃ l, (NodeLink.step pf token w e).sent = w.sent ++ l := by
  rcases moved pf token w e with h | ⟨_, _, -, -, h⟩ | h | ⟨_, _, _, _, -, -, -, h⟩ |
    ⟨_, _, -, -, -, h⟩ | ⟨_, -, h⟩ | ⟨_, -, -, h⟩ | ⟨_, _, -, -, h⟩ | ⟨_, _, -, -, h⟩ |
    ⟨p, k, ms, answer, -, -, -, -, h⟩ | ⟨_, _, _, _, -, -, -, -, h⟩ <;> rw [h]
  case asked | reported => exact ⟨[_], rfl⟩
  case heardHeartbeat =>
    cases p.heardHeartbeat (some answer) <;> exact ⟨[], by simp⟩
  all_goals exact ⟨[], by simp⟩

theorem length_sent_run (w : World) (is : List Event) :
    w.sent.length ≤ (finish (NodeLink.step pf token) w is).sent.length := by
  induction is generalizing w with
  | nil => exact le_rfl
  | cons e is ih =>
    obtain ⟨l, hl⟩ := sent_step pf token w e
    refine le_trans ?_ (ih _)
    rw [hl, List.length_append]
    exact Nat.le_add_right _ _

theorem sent_hear (w : World) (ms : ℤ) : (NodeLink.step pf token w (.hear ms)).sent = w.sent := by
  simp only [NodeLink.step]
  split
  · rfl
  · simp only [stepNode]
    repeat' split
    all_goals rfl

/-- Let nobody who holds the token be active from some moment on. Once the node has read so in the
answer to a request it sent behind that moment, it sends heartbeats and no telemetry, whatever is
still under way, as long as it is not started again with another state in its file. -/
theorem quiet_once_told (core : NodeStore) (before dark rest : List Event) (ms : ℤ)
    (hdark : Run.AllStates (NodeLink.step pf token) (fun w => Dark pf token w.core)
      (finish (NodeLink.step pf token) (World.init core) before) (dark ++ .hear ms :: rest))
    (htold : Told (finish (NodeLink.step pf token) (World.init core) before).sent.length
      (finish (NodeLink.step pf token) (World.init core) (before ++ dark)))
    (hstart : ∀ state seq, Event.start state seq ∈ rest → state = "disabled") :
    ∃ j, (finish (NodeLink.step pf token) (World.init core) (before ++ dark ++ .hear ms :: rest)).sent =
      (finish (NodeLink.step pf token) (World.init core) (before ++ dark)).sent ++ List.replicate j .heartbeat := by
  have hmid := grounded_run pf token core (before ++ dark)
  have hfrom := grounded_run pf token core before
  have hlast := hdark.right
  rw [← finish_append] at hlast
  have hhushed := (Hushed.now hfrom.numbered).run hdark.left
  rw [← finish_append] at hhushed
  have hlen : (finish (NodeLink.step pf token) (World.init core) before).sent.length ≤
      (finish (NodeLink.step pf token) (World.init core) (before ++ dark)).sent.length := by
    rw [finish_append]
    exact length_sent_run _ dark
  have hoff := htold.off hhushed hlen hmid.asked hlast.first ms
  obtain ⟨j, hj⟩ := hoff.run hlast.2 hstart
  exact ⟨j, by rw [finish_append, finish_cons, hj, sent_hear]⟩

/-- The node is switched off while its frames are under way. -/
theorem quiet_once_told_late :
    ∃ j, (finish (NodeLink.step samplePlatform "token-1") (World.init sampleCore)
        ([.start "active" 0, .beat, .deliver 0 sampleHost "1", .hear 1, .call (.disable "n1")] ++
          [.frames 5, .deliver 1 sampleHost "2"] ++ .hear 6 :: [.beat, .deliver 2 sampleHost "3"])).sent =
      (finish (NodeLink.step samplePlatform "token-1") (World.init sampleCore)
        ([.start "active" 0, .beat, .deliver 0 sampleHost "1", .hear 1, .call (.disable "n1")] ++
          [.frames 5, .deliver 1 sampleHost "2"])).sent ++ List.replicate j .heartbeat := by
  have hdark : Run.AllStates (NodeLink.step samplePlatform "token-1") (fun w => Dark samplePlatform "token-1" w.core)
      (finish (NodeLink.step samplePlatform "token-1") (World.init sampleCore)
        [.start "active" 0, .beat, .deliver 0 sampleHost "1", .hear 1, .call (.disable "n1")])
      ([.frames 5, .deliver 1 sampleHost "2"] ++ .hear 6 :: [.beat, .deliver 2 sampleHost "3"]) := by
    refine ⟨?_, ?_, ?_, ?_, ?_, ?_⟩ <;> exact dark_of_rows (by decide +kernel)
  have htold : Told (finish (NodeLink.step samplePlatform "token-1") (World.init sampleCore)
        [.start "active" 0, .beat, .deliver 0 sampleHost "1", .hear 1, .call (.disable "n1")]).sent.length
      (finish (NodeLink.step samplePlatform "token-1") (World.init sampleCore)
        ([.start "active" 0, .beat, .deliver 0 sampleHost "1", .hear 1, .call (.disable "n1")] ++
          [.frames 5, .deliver 1 sampleHost "2"])) :=
    ⟨⟨"active", 5, false, .awaitingTelemetry 1⟩, 1, ⟨423, none⟩, by decide +kernel, by decide +kernel,
      by decide +kernel, .inr (by decide +kernel)⟩
  exact quiet_once_told sampleCore _ _ _ 6 hdark htold (by simp)

end

end Wavr.NodeLink
