import Mathlib.Algebra.Order.Ring.Rat
import Mathlib.Data.Finset.Insert
import Wavr.Dict
import Wavr.Eviction
import Wavr.Run
import Wavr.Text

/-!
# Brokering UWB sessions

`UwbBroker`: two devices are handed the parameters they range with, and a key that each of them
collects once.
-/

namespace Wavr.Uwb
open Run Text

def SESSION_KEY_BYTES : ℕ := 16

def UWB_CHANNELS : List ℕ := [5, 9]

def UWB_PREAMBLES : List ℕ := [9, 10, 11, 12]

def SESSION_TTL_S : ℚ := 300

def MAX_SESSIONS : ℕ := 32

abbrev Key := Fin SESSION_KEY_BYTES → UInt8

structure RangingSession where
  sessionId : String
  controller : String
  controlees : List String
  channel : ℕ
  preambleIndex : ℕ
  createdTs : ℚ
  key : Key
  claimed : Finset String
  deriving DecidableEq

/-- The sessions by id. -/
abbrev UwbBroker := Dict String RangingSession

def expire (now : ℚ) (b : UwbBroker) : UwbBroker :=
  b.filter fun _ s => now - s.createdTs ≤ SESSION_TTL_S

/-- The sessions that have not expired. -/
def live (now : ℚ) (b : UwbBroker) : List RangingSession :=
  b.values.filter fun s => now - s.createdTs ≤ SESSION_TTL_S

/-- At the cap, the stalest goes. -/
def makeRoom (b : UwbBroker) : UwbBroker :=
  if MAX_SESSIONS ≤ b.entries.length then
    match Eviction.victim RangingSession.createdTs b.values with
    | some oldest => b.erase oldest.sessionId
    | none => b
  else b

def channelAt (n : ℕ) : ℕ := UWB_CHANNELS.get ⟨n % UWB_CHANNELS.length, Nat.mod_lt n (by decide)⟩

def preambleAt (n : ℕ) : ℕ := UWB_PREAMBLES.get ⟨n % UWB_PREAMBLES.length, Nat.mod_lt n (by decide)⟩

def refusal (device : String) (answer : Option Bool) : String :=
  device ++ " has not reported UWB support" ++
    if answer = some false then ""
    else " — its capability manifest is silent on it, and Wavr does not assume a radio it was " ++
      "never told about"

/-- The clock is read for the expiry, and again for the new session. -/
def openSession (now createdTs : ℚ) (sessionId : String) (key : Key) (controller : String)
    (controlees : List String) (capable : String → Option Bool) (b : UwbBroker) :
    Except String RangingSession × UwbBroker :=
  let controller := strip controller
  let peers := (controlees.map strip).filter (truthy ·)
  if ¬ truthy controller ∨ peers = [] then
    (.error "a session needs a controller and at least one controlee", b)
  else if controller ∈ peers then (.error "a device cannot range with itself", b)
  else
    match (controller :: peers).find? fun device => capable device ≠ some true with
    | some device => (.error (refusal device (capable device)), b)
    | none =>
      let b := makeRoom (expire now b)
      let n := b.entries.length
      let session := ⟨sessionId, controller, peers, channelAt n, preambleAt n, createdTs, key, ∅⟩
      (.ok session, b.set sessionId session)

/-- `key.hex()`. -/
def hex (key : Key) : String :=
  String.ofList ((List.ofFn key).flatMap fun b => [Nat.digitChar (b.toNat / 16), Nat.digitChar (b.toNat % 16)])

structure Delivery where
  sessionId : String
  role : String
  channel : ℕ
  preambleIndex : ℕ
  sessionKey : String
  peers : List String
  /-- Before it is rounded to a tenth. -/
  expiresIn : ℚ
  deriving DecidableEq

def claim (now now' : ℚ) (sessionId deviceId : String) (b : UwbBroker) : Except String Delivery × UwbBroker :=
  let b := expire now b
  match b.get? sessionId with
  | none => (.error "no such session, or it has expired", b)
  | some s =>
    if deviceId ≠ s.controller ∧ deviceId ∉ s.controlees then
      (.error (deviceId ++ " is not part of this session"), b)
    else if deviceId ∈ s.claimed then
      (.error (deviceId ++ " has already collected these parameters. A session key is delivered " ++
        "once; open a new session instead."), b)
    else
      (.ok
        { sessionId := s.sessionId
          role := if deviceId = s.controller then "controller" else "controlee"
          channel := s.channel
          preambleIndex := s.preambleIndex
          sessionKey := hex s.key
          peers := if deviceId = s.controller then s.controlees else [s.controller]
          expiresIn := max 0 (SESSION_TTL_S - (now' - s.createdTs)) },
        b.set sessionId { s with claimed := insert deviceId s.claimed })

def get (now : ℚ) (sessionId : String) (b : UwbBroker) : Option RangingSession × UwbBroker :=
  let b := expire now b
  (b.get? sessionId, b)

def list (now : ℚ) (b : UwbBroker) : List RangingSession × UwbBroker :=
  let b := expire now b
  ((sortedSet b.keys.toFinset).filterMap b.get?, b)

def close (sessionId : String) (b : UwbBroker) : Bool × UwbBroker :=
  ((b.get? sessionId).isSome, b.erase sessionId)

/-- The calls of a broker, with the readings of the clock, the draws and the manifests as found, and
time that passes between two of them. A close reads no clock; its time is the one it comes at. -/
inductive Op
  | openSession (now createdTs : ℚ) (sessionId : String) (key : Key) (controller : String)
      (controlees : List String) (capable : String → Option Bool)
  | claim (now now' : ℚ) (sessionId deviceId : String)
  | get (now : ℚ) (sessionId : String)
  | list (now : ℚ)
  | close (now : ℚ) (sessionId : String)
  | wait (now : ℚ)

def step (b : UwbBroker) : Op → UwbBroker
  | .openSession now createdTs sessionId key controller controlees capable =>
    (openSession now createdTs sessionId key controller controlees capable b).2
  | .claim now now' sessionId deviceId => (claim now now' sessionId deviceId b).2
  | .get now sessionId => (get now sessionId b).2
  | .list now => (list now b).2
  | .close _ sessionId => (close sessionId b).2
  | .wait _ => b

/-- The session that a call opens, under its id. -/
def opened (b : UwbBroker) : Op → Option (String × RangingSession)
  | .openSession now createdTs sessionId key controller controlees capable =>
    (openSession now createdTs sessionId key controller controlees capable b).1.toOption.map
      fun s => (sessionId, s)
  | _ => none

/-- The session whose key a call hands out, the device and what it is handed. -/
def delivered (b : UwbBroker) : Op → Option (String × String × Delivery)
  | .claim now now' sessionId deviceId =>
    (claim now now' sessionId deviceId b).1.toOption.map fun d => (sessionId, deviceId, d)
  | _ => none

/-- How many other sessions are live when a call opens one; at the cap one of them has gone. -/
def foundBy (b : UwbBroker) : Op → ℕ
  | .openSession now .. =>
    if MAX_SESSIONS ≤ (live now b).length then (live now b).length - 1 else (live now b).length
  | _ => 0

/-! ## What a call does to a session -/

section
variable {b b' : UwbBroker} {op : Op} {id : String} {x : RangingSession} {now : ℚ}

theorem get?_expire : (expire now b).get? id = (b.get? id).filter fun s => now - s.createdTs ≤ SESSION_TTL_S := by
  simp [expire]

theorem fewer_expire (now : ℚ) (b : UwbBroker) : b.Fewer (expire now b) := b.fewer_filter _

theorem fewer_makeRoom (b : UwbBroker) : b.Fewer (makeRoom b) := by
  unfold makeRoom
  split
  · split
    · exact b.fewer_erase _
    · exact .refl b
  · exact .refl b

/-- Every session stands under its own id. -/
def Keyed (b : UwbBroker) : Prop := ∀ id x, b.get? id = some x → x.sessionId = id

theorem Keyed.expire (h : Keyed b) : Keyed (expire now b) := by
  intro id x hx
  rw [get?_expire] at hx
  exact h id x (Option.filter_eq_some_iff.mp hx).1

theorem values_expire : (Uwb.expire now b).values = live now b := by
  simp only [Uwb.expire, live, Dict.values, Dict.filter, List.filter_map]
  rfl

theorem length_makeRoom (h : Keyed b) :
    (makeRoom b).values.length =
      if MAX_SESSIONS ≤ b.values.length then b.values.length - 1 else b.values.length := by
  have hlen : b.entries.length = b.values.length := by rw [Dict.values, List.length_map]
  unfold makeRoom
  rw [hlen]
  split
  · rename_i hfull
    have hne : b.values ≠ [] := List.ne_nil_of_length_pos (lt_of_lt_of_le (by decide) hfull)
    obtain ⟨o, ho, hvictim⟩ := Eviction.exists_victim RangingSession.createdTs hne
    obtain ⟨id, hid⟩ := Dict.mem_values.mp ho
    rw [hvictim]
    dsimp only
    have hcount := Dict.countP_values_erase hid fun _ => true
    rw [← h id o hid] at hcount
    simp only [List.countP_true, List.length_singleton] at hcount
    omega
  · rfl

/-- A refused open changes nothing; another one purges, makes room and adds its session. -/
theorem openSession_cases (now createdTs : ℚ) (sessionId : String) (key : Key) (controller : String)
    (controlees : List String) (capable : String → Option Bool) (b : UwbBroker) :
    (∃ e, openSession now createdTs sessionId key controller controlees capable b = (.error e, b)) ∨
    ∃ x : RangingSession, x.sessionId = sessionId ∧ x.claimed = ∅ ∧
      x.channel = channelAt (makeRoom (expire now b)).entries.length ∧
      openSession now createdTs sessionId key controller controlees capable b =
        (.ok x, (makeRoom (expire now b)).set sessionId x) := by
  unfold openSession
  dsimp only
  split
  · exact .inl ⟨_, rfl⟩
  · split
    · exact .inl ⟨_, rfl⟩
    · split
      · exact .inl ⟨_, rfl⟩
      · exact .inr ⟨_, rfl, rfl, rfl, rfl⟩

/-- A claim purges. One that delivers was made by a device of the session that had not claimed. -/
theorem claim_cases (now now' : ℚ) (sessionId deviceId : String) (b : UwbBroker) :
    (∃ e, claim now now' sessionId deviceId b = (.error e, expire now b)) ∨
    ∃ s d, b.get? sessionId = some s ∧ now - s.createdTs ≤ SESSION_TTL_S ∧
      (deviceId = s.controller ∨ deviceId ∈ s.controlees) ∧ deviceId ∉ s.claimed ∧
      d.sessionKey = hex s.key ∧ claim now now' sessionId deviceId b =
        (.ok d, (expire now b).set sessionId { s with claimed := insert deviceId s.claimed }) := by
  unfold claim
  dsimp only
  split
  · exact .inl ⟨_, rfl⟩
  · rename_i s hs
    obtain ⟨hget, hlive⟩ := Option.filter_eq_some_iff.mp (get?_expire.symm.trans hs)
    split
    · exact .inl ⟨_, rfl⟩
    · rename_i hpart
      split
      · exact .inl ⟨_, rfl⟩
      · rename_i hnew
        refine .inr ⟨s, _, hget, of_decide_eq_true hlive, ?_, hnew, ?_, rfl⟩
        · by_contra hout
          exact hpart (not_or.mp hout)
        · rfl

/-- What becomes of one session in a step. -/
inductive SessionStep (b : UwbBroker) (op : Op) (id : String) :
    Option RangingSession → Option RangingSession → Prop
  | gone (x : Option RangingSession) : SessionStep b op id x none
  | kept (x : Option RangingSession) (hopened : ∀ y, opened b op ≠ some (id, y))
      (hdelivered : ∀ d, delivered b op ≠ some (id, d)) : SessionStep b op id x x
  | opened (x : Option RangingSession) (y : RangingSession) (hopened : opened b op = some (id, y))
      (hfresh : y.claimed = ∅) : SessionStep b op id x (some y)
  | claimed (x : RangingSession) (deviceId : String) (d : Delivery)
      (hopened : ∀ y, opened b op ≠ some (id, y)) (hdelivered : delivered b op = some (id, deviceId, d)) :
      SessionStep b op id (some x) (some { x with claimed := insert deviceId x.claimed })

theorem SessionStep.of_fewer (hopened : ∀ y, Uwb.opened b op ≠ some (id, y))
    (hdelivered : ∀ d, delivered b op ≠ some (id, d)) (h : b.Fewer b') :
    SessionStep b op id (b.get? id) (b'.get? id) := by
  rcases h id with hsame | hgone
  · rw [hsame]
    exact .kept _ hopened hdelivered
  · rw [hgone]
    exact .gone _

theorem sessionStep (b : UwbBroker) (op : Op) (id : String) :
    SessionStep b op id (b.get? id) ((step b op).get? id) := by
  -- an open and a claim write one session; all else that a call does is to drop some
  cases op with
  | openSession now createdTs sessionId key controller controlees capable =>
    rcases openSession_cases now createdTs sessionId key controller controlees capable b with
      ⟨e, hopen⟩ | ⟨x, -, hfresh, -, hopen⟩
    · refine .of_fewer ?_ ?_ ?_
      · simp [Uwb.opened, hopen, Except.toOption]
      · simp [delivered]
      · rw [step, hopen]
        exact fun _ => .inl rfl
    · rw [step, hopen]
      by_cases hid : id = sessionId
      · subst hid
        rw [Dict.get?_set_self]
        exact .opened _ x (by simp [Uwb.opened, hopen, Except.toOption]) hfresh
      · rw [Dict.get?_set_ne _ hid]
        refine .of_fewer ?_ ?_ ((fewer_expire now b).trans (fewer_makeRoom _))
        · simp [Uwb.opened, hopen, Except.toOption, Ne.symm hid]
        · simp [delivered]
  | claim now now' sessionId deviceId =>
    rcases claim_cases now now' sessionId deviceId b with
      ⟨e, hclaim⟩ | ⟨x, d, hget, hlive, -, -, -, hclaim⟩
    · rw [step, hclaim]
      refine .of_fewer ?_ ?_ (fewer_expire now b)
      · simp [Uwb.opened]
      · simp [delivered, hclaim, Except.toOption]
    · rw [step, hclaim]
      by_cases hid : id = sessionId
      · subst hid
        rw [Dict.get?_set_self, hget]
        exact .claimed x deviceId d (by simp [Uwb.opened]) (by simp [delivered, hclaim, Except.toOption])
      · rw [Dict.get?_set_ne _ hid]
        refine .of_fewer ?_ ?_ (fewer_expire now b)
        · simp [Uwb.opened]
        · simp [delivered, hclaim, Except.toOption, Ne.symm hid]
  | get now sessionId =>
    exact .of_fewer (by simp [Uwb.opened]) (by simp [delivered]) (fewer_expire now b)
  | list now => exact .of_fewer (by simp [Uwb.opened]) (by simp [delivered]) (fewer_expire now b)
  | close now sessionId =>
    exact .of_fewer (by simp [Uwb.opened]) (by simp [delivered]) (b.fewer_erase sessionId)
  | wait now => exact .of_fewer (by simp [Uwb.opened]) (by simp [delivered]) (.refl b)

theorem opened_eq_some (hb : Keyed b) (h : opened b op = some (id, x)) :
    x.sessionId = id ∧ x.channel = channelAt (foundBy b op) ∧ (step b op).get? id = some x := by
  cases op with
  | openSession now createdTs sessionId key controller controlees capable =>
    rcases openSession_cases now createdTs sessionId key controller controlees capable b with
      ⟨e, hopen⟩ | ⟨y, hid, -, hchannel, hopen⟩
    · simp [opened, hopen, Except.toOption] at h
    · simp only [opened, hopen, Except.toOption, Option.map_some, Option.some.injEq, Prod.mk.injEq] at h
      obtain ⟨rfl, rfl⟩ := h
      refine ⟨hid, ?_, ?_⟩
      · have hlen := length_makeRoom (hb.expire : Keyed (expire now b))
        rw [values_expire, Dict.values, List.length_map] at hlen
        rw [hchannel, hlen, foundBy]
      · rw [step, hopen, Dict.get?_set_self]
  | _ => cases h

/-- A key is handed to a device of its session that has not claimed it, while the session lives. -/
theorem delivered_eq_some {deviceId : String} {d : Delivery} (h : delivered b op = some (id, deviceId, d)) :
    ∃ now now' s, op = .claim now now' id deviceId ∧ b.get? id = some s ∧
      now - s.createdTs ≤ SESSION_TTL_S ∧ (deviceId = s.controller ∨ deviceId ∈ s.controlees) ∧
      deviceId ∉ s.claimed ∧ d.sessionKey = hex s.key := by
  cases op with
  | claim now now' sessionId deviceId' =>
    rcases claim_cases now now' sessionId deviceId' b with
      ⟨e, hclaim⟩ | ⟨s, d', hget, hlive, hpart, hnew, hkey, hclaim⟩
    · simp [delivered, hclaim, Except.toOption] at h
    · simp only [delivered, hclaim, Except.toOption, Option.map_some, Option.some.injEq,
        Prod.mk.injEq] at h
      obtain ⟨rfl, rfl, rfl⟩ := h
      exact ⟨now, now', s, rfl, hget, hlive, hpart, hnew, hkey⟩
  | _ => cases h

end

/-! ## Channels -/

/-- The time that a call ends at. -/
def endsAt : Op → ℚ
  | .openSession _ createdTs .. => createdTs
  | .claim _ now' .. => now'
  | .get now _ | .list now | .close now _ | .wait now => now

/-- A broker, the time, and beside how many others each session was opened. -/
structure Watched where
  broker : UwbBroker
  now : ℚ
  found : String → ℕ

def Watched.start : Watched := ⟨Dict.empty, 0, fun _ => 0⟩

def watch (w : Watched) (op : Op) : Watched where
  broker := step w.broker op
  now := endsAt op
  found := match opened w.broker op with
    | some (id, _) => Function.update w.found id (foundBy w.broker op)
    | none => w.found

def Watched.live (w : Watched) : List RangingSession := Uwb.live w.now w.broker

/-- No more sessions are live than there are channels, and then no two share one. -/
def Distinct (w : Watched) : Prop :=
  w.live.length ≤ UWB_CHANNELS.length → w.live.Pairwise fun x y => x.channel ≠ y.channel

/-- No two of so few live sessions were opened beside numbers of others that are congruent. -/
def Staggered (w : Watched) : Prop :=
  w.live.length ≤ UWB_CHANNELS.length → w.live.Pairwise fun x y =>
    w.found x.sessionId % UWB_CHANNELS.length ≠ w.found y.sessionId % UWB_CHANNELS.length

instance (w : Watched) : Decidable (Distinct w) := inferInstanceAs (Decidable (_ → _))

instance (w : Watched) : Decidable (Staggered w) := inferInstanceAs (Decidable (_ → _))

/-- Each session stands under its id, on the channel for the number of others it was opened beside. -/
def OnPlan (w : Watched) : Prop :=
  ∀ id x, w.broker.get? id = some x → x.sessionId = id ∧ x.channel = channelAt (w.found id)

theorem channelAt_inj {m n : ℕ} :
    channelAt m = channelAt n ↔ m % UWB_CHANNELS.length = n % UWB_CHANNELS.length := by
  unfold channelAt
  rw [List.Nodup.get_inj_iff (by decide), Fin.mk.injEq]

theorem OnPlan.watch {w : Watched} (h : OnPlan w) (op : Op) : OnPlan (watch w op) := by
  have hkeyed : Keyed w.broker := fun id x hx => (h id x hx).1
  intro id x' hx'
  have hstep := sessionStep w.broker op id
  -- a session that was there keeps its number as long as its id is not opened again
  have hfound : (∀ y, opened w.broker op ≠ some (id, y)) → (Uwb.watch w op).found id = w.found id := by
    intro hnone
    cases hopened : opened w.broker op with
    | none => simp [Uwb.watch, hopened]
    | some e =>
      have hne : id ≠ e.1 := fun he => hnone e.2 (he ▸ hopened)
      simp [Uwb.watch, hopened, hne]
  change (step w.broker op).get? id = some x' at hx'
  rw [hx'] at hstep
  generalize hx : w.broker.get? id = before at hstep
  cases hstep with
  | kept _ hopened _ =>
    obtain ⟨hid, hchannel⟩ := h id x' hx
    rw [hfound hopened]
    exact ⟨hid, hchannel⟩
  | opened _ _ hopened _ =>
    obtain ⟨hid, hchannel, -⟩ := opened_eq_some hkeyed hopened
    refine ⟨hid, ?_⟩
    rw [hchannel]
    simp [Uwb.watch, hopened]
  | claimed x deviceId d hopened _ =>
    obtain ⟨hid, hchannel⟩ := h id x hx
    rw [hfound hopened]
    exact ⟨hid, hchannel⟩

theorem OnPlan.distinct_iff {w : Watched} (h : OnPlan w) : Distinct w ↔ Staggered w := by
  refine imp_congr_right fun _ => List.Pairwise.iff_of_mem fun {x y} hx hy => ?_
  have hplan : ∀ s ∈ w.live, s.channel = channelAt (w.found s.sessionId) := by
    intro s hs
    obtain ⟨id, hid⟩ := Dict.mem_values.mp (List.mem_of_mem_filter hs)
    obtain ⟨hkey, hchannel⟩ := h id s hid
    rw [hchannel, hkey]
  rw [hplan x hx, hplan y hy, Ne, channelAt_inj]

/-! ## Keys -/

/-- No call of the run opens a session under the id. -/
def Unopened (id : String) : UwbBroker → List Op → Prop :=
  AllSteps step fun b op => ∀ s, opened b op ≠ some (id, s)

/-- No call of the run hands the device a key for the id. -/
def Undelivered (id deviceId : String) : UwbBroker → List Op → Prop :=
  AllSteps step fun b op => ∀ d, delivered b op ≠ some (id, deviceId, d)

/-- What is handed out is the key of the session last opened under the id; it goes to a device of that
session which has had nothing of it yet, and before the session has expired. -/
def KeysHonest (ops : List Op) : Prop :=
  ∀ pre op post id deviceId d, ops = pre ++ op :: post →
    delivered (finish step Dict.empty pre) op = some (id, deviceId, d) →
    ∃ before o since s now now', pre = before ++ o :: since ∧
      opened (finish step Dict.empty before) o = some (id, s) ∧
      Unopened id (finish step Dict.empty (before ++ [o])) since ∧
      Undelivered id deviceId (finish step Dict.empty (before ++ [o])) since ∧
      op = .claim now now' id deviceId ∧ now - s.createdTs ≤ SESSION_TTL_S ∧
      (deviceId = s.controller ∨ deviceId ∈ s.controlees) ∧ d.sessionKey = hex s.key

/-- The session under the id after the calls `is`, and how it got there. -/
def Lineage (id : String) (is : List Op) (x : RangingSession) : Prop :=
  ∃ before o since s, is = before ++ o :: since ∧
    opened (finish step Dict.empty before) o = some (id, s) ∧
    Unopened id (finish step Dict.empty (before ++ [o])) since ∧
    (∀ deviceId ∉ x.claimed, Undelivered id deviceId (finish step Dict.empty (before ++ [o])) since) ∧
    x = { s with claimed := x.claimed }

section
variable {id : String} {is : List Op} {op : Op} {x : RangingSession}

/-- A call that opens nothing under the id, and hands nothing to those left out, lengthens the history. -/
theorem Lineage.append {claimed : Finset String} (h : Lineage id is x)
    (hopened : ∀ y, opened (finish step Dict.empty is) op ≠ some (id, y)) (hsub : x.claimed ⊆ claimed)
    (hdelivered : ∀ deviceId ∉ claimed, ∀ d,
      delivered (finish step Dict.empty is) op ≠ some (id, deviceId, d)) :
    Lineage id (is ++ [op]) { x with claimed := claimed } := by
  obtain ⟨before, o, since, s, rfl, hopen, hunopened, hundelivered, hx⟩ := h
  have hend : finish step (finish step Dict.empty (before ++ [o])) since =
      finish step Dict.empty (before ++ o :: since) := by
    rw [← finish_append, List.append_assoc, List.singleton_append]
  refine ⟨before, o, since ++ [op], s, by simp, hopen, ?_, fun deviceId hout => ?_, ?_⟩
  · refine allSteps_append.mpr ⟨hunopened, ?_, trivial⟩
    rw [hend]
    exact hopened
  · refine allSteps_append.mpr ⟨hundelivered deviceId fun hin => hout (hsub hin), ?_, trivial⟩
    rw [hend]
    exact hdelivered deviceId hout
  · rw [hx]

theorem lineage (id : String) (is : List Op) :
    ∀ x, (finish step Dict.empty is).get? id = some x → Lineage id is x := by
  refine history_induction (R := fun is (b : UwbBroker) => ∀ x, b.get? id = some x → Lineage id is x)
    (fun x hx => ?_) (fun is op ih x' hx' => ?_) is
  · cases hx
  have hstep := sessionStep (finish step Dict.empty is) op id
  rw [hx'] at hstep
  generalize hx : (finish step Dict.empty is).get? id = before at hstep
  cases hstep with
  | kept _ hopened hdelivered =>
    exact (ih x' hx).append hopened subset_rfl fun deviceId _ d => hdelivered (deviceId, d)
  | opened _ _ hopened _ => exact ⟨is, op, [], x', rfl, hopened, trivial, fun _ _ => trivial, rfl⟩
  | claimed x deviceId d hopened hdelivered =>
    refine (ih x hx).append hopened (Finset.subset_insert _ _) fun deviceId' hout d' hd' => ?_
    rw [hdelivered] at hd'
    cases hd'
    exact hout (Finset.mem_insert_self _ _)

end

theorem keysHonest (ops : List Op) : KeysHonest ops := by
  rintro pre op post id deviceId d - hd
  obtain ⟨now, now', x, rfl, hget, hlive, hpart, hnew, hkey⟩ := delivered_eq_some hd
  obtain ⟨before, o, since, s, rfl, hopen, hunopened, hundelivered, hx⟩ := lineage id pre x hget
  rw [hx] at hlive hpart hkey
  exact ⟨before, o, since, s, now, now', rfl, hopen, hunopened, hundelivered deviceId hnew, rfl, hlive,
    hpart, hkey⟩

/-- The channel is picked from how many sessions there are: so few sessions are on different channels
exactly as long as the numbers they were opened beside are not congruent. -/
theorem uwb_sessions (ops : List Op) :
    KeysHonest ops ∧ AllStates watch Distinct .start ops ↔ AllStates watch Staggered .start ops := by
  have hstart : OnPlan .start := fun id x hx => by cases hx
  have hiff : AllStates watch Distinct .start ops ↔ AllStates watch Staggered .start ops :=
    allStates_congr_of_invariant (I := OnPlan) (fun _ op h => h.watch op) (fun _ h => h.distinct_iff) hstart
  rw [hiff]
  exact and_iff_right (keysHonest ops)

/-- Two sessions are opened, the first is closed and a third is opened: it lands on the channel of the
second. -/
theorem channel_shared : ¬ AllStates watch Distinct .start
    [.openSession 0 0 "uwb_1" (fun _ => 1) "phone" ["anchor"] fun _ => some true,
      .openSession 1 1 "uwb_2" (fun _ => 2) "watch" ["anchor"] fun _ => some true,
      .close 2 "uwb_1",
      .openSession 3 3 "uwb_3" (fun _ => 3) "tablet" ["anchor"] fun _ => some true] := by
  decide +kernel

end Wavr.Uwb
