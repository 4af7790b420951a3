import Mathlib.Algebra.Order.Field.Rat
import Wavr.Dict
import Wavr.Run
import Wavr.Text

/-!
# The sensor-node registry

`NodeStore`: the `nodes` table, keyed by `node_id`, and the two maps the process holds in
memory. Each method is a function of the store; the clock readings, the `secrets` draws
and the timestamp strings it takes from outside are arguments. Seconds are rationals.
-/

namespace Wavr.Nodes
open Text

/-- Node lifecycle states. -/
inductive NodeState
  | pending
  | active
  | disabled
  | revoked
  deriving DecidableEq, Repr

/-- Sensor archetype to fusion modality; a non-presence sensor maps to the empty string. -/
def SENSOR_MODALITY : List (String × String) :=
  [("ld2450", "mmwave"), ("mmwave", "mmwave"), ("pir", "pir"), ("ble_beacon", "ble"),
    ("generic", "node"), ("environmental", "")]

/-- Transport-trust cap on a node's emitted confidence. -/
def TRANSPORT_CAP : List (String × ℚ) := [("native", 1), ("mqtt", 7 / 10)]

def PENDING_TTL_SECONDS : ℚ := 7 * 24 * 3600
def MAX_PENDING_NODES : ℕ := 50
def REACTIVATE_MAX_ATTEMPTS : ℕ := 20
def REACTIVATE_WINDOW_SECONDS : ℚ := 60
def CLAIM_PICKUP_SECONDS : ℚ := 600

/-- One row of `nodes`, without its key. -/
structure Node where
  name : String
  sensorType : String
  modality : String
  room : String
  transport : String
  tokenHash : Option String
  certFingerprint : String
  confidenceCap : ℚ
  state : NodeState
  pressCount : ℤ
  lastSeq : ℤ
  lastSeenTs : Option String
  createdTs : String
  nameHint : String
  sensorHint : String
  requestId : Option String
  deriving DecidableEq

structure NodeStore where
  /-- The table, in rowid order. -/
  nodes : Dict String Node
  /-- request_id to the token approved but not yet collected, and its expiry. -/
  issued : Dict String (String × ℚ)
  /-- The abuse brake of `reactivate`. -/
  reactivateAttempts : Dict String (List ℚ)
  deriving DecidableEq

/-- What the interpreter supplies: sha256 of a token, `isoformat` of a clock reading and
`str.isalnum` of a character. -/
structure Platform where
  hashToken : String → String
  isoformat : ℚ → String
  isalnum : Char → Bool

variable (pf : Platform)

def emptyStore : NodeStore := ⟨.empty, .empty, .empty⟩

/-- A new `NodeStore` over the same database: what was only in memory is gone. -/
def restart (s : NodeStore) : NodeStore := { s with issued := .empty, reactivateAttempts := .empty }

/-- `INSERT INTO nodes`; a primary key that is already there raises IntegrityError. -/
def insertNode (nodes : Dict String Node) (nodeId : String) (row : Node) :
    Option (Dict String Node) :=
  if (nodes.get? nodeId).isSome then none else some (nodes.set nodeId row)

/-- The enrollment-code path. `none` is the IntegrityError. -/
def add (nodeId token ts name sensorType room transport certFingerprint : String)
    (s : NodeStore) : Option (String × String) × NodeStore :=
  let modality := (SENSOR_MODALITY.lookup sensorType).getD "node"
  let cap := (TRANSPORT_CAP.lookup transport).getD (7 / 10)
  let row : Node :=
    { name, sensorType, modality, room, transport, tokenHash := some (pf.hashToken token),
      certFingerprint, confidenceCap := cap, state := .active, pressCount := 0, lastSeq := 0,
      lastSeenTs := none, createdTs := ts, nameHint := "", sensorHint := "", requestId := none }
  match insertNode s.nodes nodeId row with
  | none => (none, s)
  | some nodes => (some (nodeId, token), { s with nodes })

/-- `DELETE FROM nodes WHERE state = 'pending' AND created_ts < cutoff`. -/
def dropStale (now : ℚ) (nodes : Dict String Node) : Dict String Node :=
  let cutoff := pf.isoformat (now - PENDING_TTL_SECONDS)
  nodes.filter fun _ r => ¬ (r.state = .pending ∧ r.createdTs < cutoff)

def pendingRows (nodes : Dict String Node) : List (String × Node) :=
  nodes.entries.filter fun e => e.2.state = .pending

/-- `ORDER BY created_ts ASC`. -/
def oldestFirst (rows : List (String × Node)) : List (String × Node) :=
  rows.mergeSort fun a b => a.2.createdTs ≤ b.2.createdTs

/-- At the cap, the oldest pending requests make room for one more. -/
def dropOldest (nodes : Dict String Node) : Dict String Node :=
  let n := (pendingRows nodes).length
  if MAX_PENDING_NODES ≤ n then
    let oldest := ((oldestFirst (pendingRows nodes)).take (n - MAX_PENDING_NODES + 1)).map Prod.fst
    nodes.filter fun id _ => id ∉ oldest
  else nodes

/-- Age out stale requests, then cap the rest. -/
def prunePendingLocked (now : ℚ) (nodes : Dict String Node) : Dict String Node :=
  dropOldest (dropStale pf now nodes)

def requestJoin (now : ℚ) (nodeId requestId ts nameHint sensorHint certFingerprint : String)
    (s : NodeStore) : Option (String × String) × NodeStore :=
  let hint := truncate 64 (collapse nameHint)
  let nameHint := if truthy hint then hint else "Unnamed sensor"
  let sensorHint := String.ofList ((sensorHint.toList.take 32).filter fun c =>
    pf.isalnum c || c = '_' || c = '-')
  let certFingerprint := String.ofList ((certFingerprint.toList.take 128).filter fun c =>
    pf.isalnum c || c = ':')
  let nodes := prunePendingLocked pf now s.nodes
  let row : Node :=
    { name := nameHint, sensorType := "", modality := "", room := "", transport := "",
      tokenHash := none, certFingerprint, confidenceCap := 1, state := .pending,
      pressCount := 0, lastSeq := 0, lastSeenTs := none, createdTs := ts, nameHint, sensorHint,
      requestId := some requestId }
  match insertNode nodes nodeId row with
  | none => (none, { s with nodes })
  | some nodes => (some (nodeId, requestId), { s with nodes })

/-- The rows that `list_pending` returns. -/
def listPending (s : NodeStore) : List (String × Node) := oldestFirst (pendingRows s.nodes)

/-- Approve a pending join and mint its token; `error` is the ValueError. -/
def approve (now : ℚ) (token nodeId name sensorType room transport : String) (s : NodeStore) :
    Except String (Option String) × NodeStore :=
  let modality := (SENSOR_MODALITY.lookup sensorType).getD ""
  let cap := (TRANSPORT_CAP.lookup transport).getD (7 / 10)
  let name := truncate 64 (collapse name)
  let room := truncate 64 (collapse room)
  if ¬ truthy name ∨ ¬ truthy room then
    (.error "name and room are required to approve a node", s)
  else
    match s.nodes.get? nodeId with
    | none => (.ok none, s)
    | some row =>
      if row.state ≠ .pending then (.ok none, s)
      else
        let nodes := s.nodes.set nodeId
          { row with name, sensorType, modality, room, transport,
                     tokenHash := some (pf.hashToken token), confidenceCap := cap,
                     state := .active }
        -- a row without a request has nobody to pick the token up
        let issued := match row.requestId with
          | some rid =>
            if truthy rid then s.issued.set rid (token, now + CLAIM_PICKUP_SECONDS) else s.issued
          | none => s.issued
        (.ok (some token), { s with nodes, issued })

def deny (nodeId : String) (s : NodeStore) : Bool × NodeStore :=
  ((s.nodes.get? nodeId).any fun r => r.state = .pending,
    { s with nodes := s.nodes.filter fun id r => ¬ (id = nodeId ∧ r.state = .pending) })

inductive ClaimStatus
  | pending
  | approved
  deriving DecidableEq, Repr

/-- `SELECT ... WHERE request_id = ?`, the first row. -/
def rowOfRequest (requestId : String) (s : NodeStore) : Option (String × Node) :=
  s.nodes.entries.find? fun e => e.2.requestId = some requestId

/-- The token held for pick-up, while its window lasts. -/
def heldToken (now : ℚ) (requestId : String) (s : NodeStore) : Option String :=
  (s.issued.get? requestId).bind fun held => if now < held.2 then some held.1 else none

/-- `UPDATE nodes SET ... WHERE request_id = ?`. -/
def updateRequest (requestId : String) (f : Node → Node) (s : NodeStore) : NodeStore :=
  { s with nodes := s.nodes.map fun _ r => if r.requestId = some requestId then f r else r }

/-- A node polls for the outcome of its join request. -/
def claim (now : ℚ) (requestId : String) (s : NodeStore) :
    Option (ClaimStatus × String × String) × NodeStore :=
  if ¬ truthy requestId then (none, s)
  else
    match rowOfRequest requestId s with
    | none => (none, s)
    | some (nodeId, row) =>
      if row.state = .pending then (some (.pending, nodeId, ""), s)
      else
        let popped := { s with issued := s.issued.erase requestId }
        match heldToken now requestId s with
        | some token =>
          -- single-use: the polling capability is dropped with the token
          (some (.approved, nodeId, token),
            updateRequest requestId (fun r => { r with requestId := none }) popped)
        | none =>
          -- the token is gone, so the node is put back in the queue, whatever its state was
          (some (.pending, nodeId, ""),
            updateRequest requestId (fun r => { r with state := .pending, tokenHash := none })
              popped)

/-- Resolve the node presenting `token` and stamp it, unless it is revoked. -/
def getByToken (ts token : String) (s : NodeStore) : Option (String × Node) × NodeStore :=
  if ¬ truthy token then (none, s)
  else
    -- rowid order: should two rows carry one hash, the older answers
    match s.nodes.entries.find? fun e => e.2.tokenHash = some (pf.hashToken token) with
    | none => (none, s)
    | some (nodeId, row) =>
      if row.state = .revoked then (none, s)
      else
        let row := { row with lastSeenTs := some ts }
        (some (nodeId, row), { s with nodes := s.nodes.set nodeId row })

/-- Telemetry anti-replay: `seq` is accepted iff it is strictly newer. -/
def recordSeq (nodeId : String) (seq : ℤ) (s : NodeStore) : Bool × NodeStore :=
  match s.nodes.get? nodeId with
  | none => (false, s)
  | some row =>
    if seq ≤ row.lastSeq then (false, s)
    else (true, { s with nodes := s.nodes.set nodeId { row with lastSeq := seq } })

/-- `UPDATE ... WHERE node_id = ? AND p`, with the row count as a truth value. -/
def updateNode (nodeId : String) (p : Node → Bool) (f : Node → Node) (s : NodeStore) :
    Bool × NodeStore :=
  ((s.nodes.get? nodeId).any p,
    { s with nodes := s.nodes.map fun id r => if id = nodeId ∧ p r then f r else r })

def disable (nodeId : String) (s : NodeStore) : Bool × NodeStore :=
  updateNode nodeId (fun r => r.state ≠ .revoked) (fun r => { r with state := .disabled }) s

/-- The node's new state, `none` if unknown; `error` is NodeReactivateRateLimited. -/
def reactivate (now : ℚ) (nodeId : String) (pressCount : ℤ) (s : NodeStore) :
    Except Unit (Option NodeState) × NodeStore :=
  let stamps := ((s.reactivateAttempts.get? nodeId).getD []).filter fun t =>
    now - t < REACTIVATE_WINDOW_SECONDS
  if REACTIVATE_MAX_ATTEMPTS ≤ stamps.length then
    (.error (), { s with reactivateAttempts := s.reactivateAttempts.set nodeId stamps })
  else
    let s := { s with reactivateAttempts := s.reactivateAttempts.set nodeId (stamps ++ [now]) }
    match s.nodes.get? nodeId with
    | none => (.ok none, s)
    | some row =>
      if row.pressCount < pressCount then
        -- the high-water mark moves in any state, but only a disabled node is flipped on
        let state := if row.state = .disabled then .active else row.state
        (.ok (some state), { s with nodes := s.nodes.set nodeId { row with pressCount, state } })
      else (.ok (some row.state), s)

def revoke (nodeId : String) (s : NodeStore) : Bool × NodeStore :=
  updateNode nodeId (fun _ => true) (fun r => { r with state := .revoked, tokenHash := none }) s

/-- The calls a store receives, with what each takes from outside, and the restart of the
process around it. -/
inductive Op
  | add (nodeId token ts name sensorType room transport certFingerprint : String)
  | requestJoin (now : ℚ) (nodeId requestId ts nameHint sensorHint certFingerprint : String)
  | approve (now : ℚ) (token nodeId name sensorType room transport : String)
  | deny (nodeId : String)
  | claim (now : ℚ) (requestId : String)
  | getByToken (ts token : String)
  | recordSeq (nodeId : String) (seq : ℤ)
  | disable (nodeId : String)
  | reactivate (now : ℚ) (nodeId : String) (pressCount : ℤ)
  | revoke (nodeId : String)
  | restart
  deriving DecidableEq

def step (s : NodeStore) : Op → NodeStore
  | .add nodeId token ts name sensorType room transport cert =>
    (add pf nodeId token ts name sensorType room transport cert s).2
  | .requestJoin now nodeId requestId ts nameHint sensorHint cert =>
    (requestJoin pf now nodeId requestId ts nameHint sensorHint cert s).2
  | .approve now token nodeId name sensorType room transport =>
    (approve pf now token nodeId name sensorType room transport s).2
  | .deny nodeId => (deny nodeId s).2
  | .claim now requestId => (claim now requestId s).2
  | .getByToken ts token => (getByToken pf ts token s).2
  | .recordSeq nodeId seq => (recordSeq nodeId seq s).2
  | .disable nodeId => (disable nodeId s).2
  | .reactivate now nodeId pressCount => (reactivate now nodeId pressCount s).2
  | .revoke nodeId => (revoke nodeId s).2
  | .restart => restart s

/-- The state column of one node; `none` when there is no such row. -/
def stateOf (n : String) (s : NodeStore) : Option NodeState := (s.nodes.get? n).map Node.state

end Wavr.Nodes
