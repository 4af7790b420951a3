import Wavr.CameraUrl
import Wavr.Dict
import Wavr.Run

/-!
# PTZ actuation and the runaway-slew guard

`CameraPTZ` with its endpoint cache and its auto-stop timers, and what passed between it and
the cameras. A call whose Stop is on its way takes two steps, sending and being answered, so
that other calls and timers may come in between; a move takes effect when it is answered.
-/

namespace Wavr.Ptz
open Run UrlSplit CameraUrl

def ONVIF_PORT : List Char := "2020".toList
def DEVICE_PATH : List Char := "/onvif/device_service".toList
def PTZ_FALLBACK : List Char := "/onvif/service".toList

/-- Host, user and password of a stored URL, if its host is a LAN literal. -/
def endpoints (rtspUrl : List Char) :
    Option (List Char × Option (List Char) × Option (List Char)) :=
  (urlsplit rtspUrl).bind fun p =>
    match p.hostname with
    | none => none
    | some host => if IpAddress.isLanIp host then some (host, p.username, p.password) else none

/-- What the two discovery requests brought; `none` is an exception of the transport. -/
structure Discovery where
  /-- The profile tokens of the GetProfiles response. -/
  profiles : Option (List String)
  /-- The PTZ address in the GetServices response, if it has one. -/
  services : Option (Option (List Char))
  deriving DecidableEq

/-- How a control request ended. -/
inductive Outcome
  | acknowledged
  | fault
  /-- A response that does not parse, which counts as a fault. -/
  | unreadable
  /-- An exception of the transport, after the request may have been delivered. -/
  | raised
  deriving DecidableEq, Repr

/-- What a camera may have seen. -/
inductive Wire
  | move
  | stopped
  deriving DecidableEq, Repr

structure CameraPTZ where
  /-- name to (PTZ service URL, profile token) -/
  cache : Dict String (List Char × String)
  /-- name to the stored URL of the pending auto-stop -/
  timers : Dict String (List Char)
  /-- names of the cameras that a Stop is being sent to, once for each -/
  stopping : List String
  /-- moves that may have reached a camera and acknowledged Stops, newest first -/
  wire : List (String × Wire)
  deriving DecidableEq

def init : CameraPTZ := ⟨.empty, .empty, [], []⟩

def url (host path : List Char) : List Char :=
  "http://".toList ++ host ++ ':' :: ONVIF_PORT ++ path

/-- The service URL of the camera's answer, or the fallback. -/
def ptzUrl (host : List Char) (service : Option (List Char)) : Option (List Char) :=
  let chosen := match service with
    | some u => if u ≠ [] ∧ xaddrOk u then u else url host PTZ_FALLBACK
    | none => url host PTZ_FALLBACK
  if xaddrOk chosen then some chosen else none

/-- The endpoint that discovery finds for a camera that is not cached. -/
def resolve (rtspUrl : List Char) (d : Discovery) : Option (List Char × String) := do
  let (host, _, _) ← endpoints rtspUrl
  if xaddrOk (url host DEVICE_PATH) then
    let profiles ← d.profiles
    let token ← profiles.head?
    let services ← d.services
    let ptz ← ptzUrl host services
    some (ptz, token)
  else none

def discover (name : String) (rtspUrl : List Char) (d : Discovery) (s : CameraPTZ) :
    Option (List Char × String) × CameraPTZ :=
  match s.cache.get? name with
  | some found => (some found, s)
  | none =>
    match resolve rtspUrl d with
    | none => (none, s)
    | some found => (some found, { s with cache := s.cache.set name found })

/-- A request is sent: the camera is known and the stored URL has an endpoint. -/
def reachable (name : String) (rtspUrl : List Char) (d : Discovery) (s : CameraPTZ) : Bool :=
  (discover name rtspUrl d s).1.isSome ∧ (endpoints rtspUrl).isSome

def cancelAutostop (name : String) (s : CameraPTZ) : CameraPTZ :=
  { s with timers := s.timers.erase name }

def armAutostop (name : String) (rtspUrl : List Char) (s : CameraPTZ) : CameraPTZ :=
  let s := cancelAutostop name s
  { s with timers := s.timers.set name rtspUrl }

def mayHaveMoved (name : String) (s : CameraPTZ) : CameraPTZ :=
  { s with wire := (name, .move) :: s.wire }

/-- Slew, and arm the guard on a response that is no fault. -/
def continuousMove (name : String) (rtspUrl : List Char) (d : Discovery) (outcome : Outcome)
    (s : CameraPTZ) : Bool × CameraPTZ :=
  let sent := reachable name rtspUrl d s
  let s := (discover name rtspUrl d s).2
  if ¬ sent then (false, s)
  else
    match outcome with
    -- delivered or not, nobody knows; no guard is armed
    | .raised => (false, mayHaveMoved name s)
    | .unreadable => (false, mayHaveMoved name s)
    | .fault => (false, s)
    | .acknowledged => (true, armAutostop name rtspUrl (mayHaveMoved name s))

def sendStop (name : String) (s : CameraPTZ) : CameraPTZ :=
  { s with stopping := name :: s.stopping }

/-- `stop` up to the sending of its request, and whether it sends one. -/
def stop (name : String) (rtspUrl : List Char) (d : Discovery) (s : CameraPTZ) :
    Bool × CameraPTZ :=
  let s := cancelAutostop name s
  let sent := reachable name rtspUrl d s
  let s := (discover name rtspUrl d s).2
  if sent then (true, sendStop name s) else (false, s)

/-- A Stop under way is answered; the truth value is what `stop` returns. -/
def stopAnswered (name : String) (outcome : Outcome) (s : CameraPTZ) : Bool × CameraPTZ :=
  if name ∉ s.stopping then (false, s)
  else
    let s := { s with stopping := s.stopping.erase name }
    if outcome = .acknowledged then (true, { s with wire := (name, .stopped) :: s.wire })
    else (false, s)

/-- `_autostop_after` past its sleep, up to the sending of the Stop. -/
def autostopAfter (name : String) (d : Discovery) (s : CameraPTZ) : CameraPTZ :=
  match s.timers.get? name with
  | none => s
  | some rtspUrl =>
    let s := { s with timers := s.timers.erase name }
    let sent := reachable name rtspUrl d s
    let s := (discover name rtspUrl d s).2
    if sent then sendStop name s else s

inductive Op
  | continuousMove (name : String) (rtspUrl : List Char) (d : Discovery) (outcome : Outcome)
  | stop (name : String) (rtspUrl : List Char) (d : Discovery)
  | stopAnswered (name : String) (outcome : Outcome)
  | timerFires (name : String) (d : Discovery)
  deriving DecidableEq

def step (s : CameraPTZ) : Op → CameraPTZ
  | .continuousMove name rtspUrl d outcome => (continuousMove name rtspUrl d outcome s).2
  | .stop name rtspUrl d => (stop name rtspUrl d s).2
  | .stopAnswered name outcome => (stopAnswered name outcome s).2
  | .timerFires name d => autostopAfter name d s

/-! ## The guard -/

/-- A move may have reached the camera, and no Stop was acknowledged since. -/
def Unstopped (n : String) (s : CameraPTZ) : Prop :=
  (s.wire.find? fun e => e.1 = n).map Prod.snd = some .move

instance (n : String) (s : CameraPTZ) : Decidable (Unstopped n s) :=
  inferInstanceAs (Decidable (_ = _))

/-- An auto-stop is pending, or a Stop is being sent. -/
def Covered (n : String) (s : CameraPTZ) : Prop := (s.timers.get? n).isSome ∨ n ∈ s.stopping

instance (n : String) (s : CameraPTZ) : Decidable (Covered n s) :=
  inferInstanceAs (Decidable (_ ∨ _))

def Guarded (n : String) (s : CameraPTZ) : Prop := Unstopped n s → Covered n s

instance (n : String) (s : CameraPTZ) : Decidable (Guarded n s) :=
  inferInstanceAs (Decidable (_ → _))

/-- A move that ends without a verdict finds the camera covered; a `stop` of a camera that may
be moving has an endpoint to send to, or another Stop is on its way; and a Stop that is not
acknowledged leaves a timer or another Stop behind. -/
def Harmless (n : String) (s : CameraPTZ) : Op → Prop
  | .continuousMove name rtspUrl d outcome =>
    name = n → reachable name rtspUrl d s = true → (outcome = .raised ∨ outcome = .unreadable) →
      Covered n s
  | .stop name rtspUrl _ =>
    name = n → Unstopped n s → (endpoints rtspUrl).isSome ∨ n ∈ s.stopping
  | .stopAnswered name outcome =>
    name = n → name ∈ s.stopping → outcome ≠ .acknowledged → Unstopped n s →
      (s.timers.get? n).isSome ∨ n ∈ s.stopping.erase n
  | .timerFires _ _ => True

/-- A camera that may be moving is cached; a pending auto-stop can reach its camera. -/
structure Inv (s : CameraPTZ) : Prop where
  moved : ∀ n, (n, Wire.move) ∈ s.wire → (s.cache.get? n).isSome
  armed : ∀ n rtspUrl, s.timers.get? n = some rtspUrl →
    (s.cache.get? n).isSome ∧ (endpoints rtspUrl).isSome

theorem Inv.cached {s : CameraPTZ} (hi : Inv s) {n : String} (h : Unstopped n s) :
    (s.cache.get? n).isSome := by
  obtain ⟨⟨n', w⟩, he, hw⟩ := Option.map_eq_some_iff.mp h
  have hn : n' = n := by simpa using List.find?_some he
  subst hn
  subst hw
  exact hi.moved n' (List.mem_of_find?_eq_some he)

section
variable {name : String} {rtspUrl : List Char} {d : Discovery} {s : CameraPTZ}

theorem discover_timers : (discover name rtspUrl d s).2.timers = s.timers := by
  unfold discover; split
  · rfl
  · split <;> rfl

theorem discover_stopping : (discover name rtspUrl d s).2.stopping = s.stopping := by
  unfold discover; split
  · rfl
  · split <;> rfl

theorem discover_wire : (discover name rtspUrl d s).2.wire = s.wire := by
  unfold discover; split
  · rfl
  · split <;> rfl

/-- Discovery forgets no camera. -/
theorem discover_cache {n : String} (h : (s.cache.get? n).isSome) :
    ((discover name rtspUrl d s).2.cache.get? n).isSome := by
  unfold discover
  split
  · exact h
  · split
    · exact h
    · simp only [Dict.get?_set]
      split
      · rfl
      · exact h

/-- ... and remembers the one it resolved. -/
theorem discover_resolved (h : reachable name rtspUrl d s = true) :
    ((discover name rtspUrl d s).2.cache.get? name).isSome := by
  have hsome : (discover name rtspUrl d s).1.isSome := by
    simp only [reachable, decide_eq_true_eq] at h
    exact h.1
  unfold discover at hsome ⊢
  split at hsome
  · rename_i found hc
    simp [hc]
  · split at hsome
    · cases hsome
    · simp

theorem reachable_of_cached (h : (s.cache.get? name).isSome) :
    reachable name rtspUrl d s = (endpoints rtspUrl).isSome := by
  obtain ⟨found, hf⟩ := Option.isSome_iff_exists.mp h
  simp [reachable, discover, hf]

theorem Inv.discover (hi : Inv s) (name : String) (rtspUrl : List Char) (d : Discovery) :
    Inv (discover name rtspUrl d s).2 :=
  ⟨fun n hn => discover_cache (hi.moved n (by rwa [discover_wire] at hn)),
    fun n u hu => by
      rw [discover_timers] at hu
      exact ⟨discover_cache (hi.armed n u hu).1, (hi.armed n u hu).2⟩⟩

theorem Inv.cancelAutostop (hi : Inv s) (name : String) : Inv (cancelAutostop name s) :=
  ⟨hi.moved, fun n u hu => by
    simp only [Ptz.cancelAutostop, Dict.get?_erase] at hu
    split at hu
    · cases hu
    · exact hi.armed n u hu⟩

theorem Inv.mayHaveMoved (hi : Inv s) (h : (s.cache.get? name).isSome) :
    Inv (mayHaveMoved name s) := by
  refine ⟨fun n hn => ?_, hi.armed⟩
  rcases List.mem_cons.mp hn with he | hm
  · cases he
    exact h
  · exact hi.moved n hm

theorem Inv.armAutostop (hi : Inv s) (h : (s.cache.get? name).isSome)
    (he : (endpoints rtspUrl).isSome) : Inv (armAutostop name rtspUrl s) := by
  refine ⟨hi.moved, fun n u hu => ?_⟩
  simp only [Ptz.armAutostop, Ptz.cancelAutostop, Dict.get?_set] at hu
  split at hu
  · rename_i hn
    cases hu
    exact ⟨by rw [hn]; exact h, he⟩
  · exact (hi.cancelAutostop name).armed n u hu

theorem Inv.step (hi : Inv s) (op : Op) : Inv (step s op) := by
  cases op with
  | continuousMove name rtspUrl d outcome =>
    rw [Ptz.step]
    unfold continuousMove
    dsimp only
    split
    · exact hi.discover name rtspUrl d
    · rename_i hs
      -- the outcome decides whether the camera may move, and only an acknowledged move arms a timer
      have hsent : reachable name rtspUrl d s = true := by simpa using hs
      have hc := discover_resolved hsent
      have hd := hi.discover name rtspUrl d
      have he : (endpoints rtspUrl).isSome := by
        simp only [reachable, decide_eq_true_eq] at hsent
        exact hsent.2
      cases outcome with
      | acknowledged => exact (hd.mayHaveMoved hc).armAutostop hc he
      | fault => exact hd
      | unreadable => exact hd.mayHaveMoved hc
      | raised => exact hd.mayHaveMoved hc
  | stop name rtspUrl d =>
    -- a stop disarms first, and nothing it does afterwards arms again
    have h := (hi.cancelAutostop name).discover name rtspUrl d
    rw [Ptz.step]
    unfold stop
    dsimp only
    split
    · exact ⟨h.moved, h.armed⟩
    · exact h
  | stopAnswered name outcome =>
    rw [Ptz.step, stopAnswered]
    split
    · exact hi
    · split
      · refine ⟨fun n hn => ?_, hi.armed⟩
        rcases List.mem_cons.mp hn with he | hm
        · cases he
        · exact hi.moved n hm
      · exact ⟨hi.moved, hi.armed⟩
  | timerFires name d =>
    rw [Ptz.step]
    unfold autostopAfter
    split
    · exact hi
    · rename_i rtspUrl _
      have h := (hi.cancelAutostop name).discover name rtspUrl d
      dsimp only
      split
      · exact ⟨h.moved, h.armed⟩
      · exact h

end

/-! ## One step and the guard -/

/-- The two states agree in what the guard of `n` looks at. -/
structure SameGuard (n : String) (s s' : CameraPTZ) : Prop where
  unstopped : Unstopped n s' ↔ Unstopped n s
  timers : s'.timers.get? n = s.timers.get? n
  stopping : n ∈ s'.stopping ↔ n ∈ s.stopping

section
variable {n name : String} {s s' s'' : CameraPTZ}

theorem SameGuard.guarded (h : SameGuard n s s') : Guarded n s' ↔ Guarded n s := by
  rw [Guarded, Guarded, Covered, Covered, h.unstopped, h.timers, h.stopping]

theorem SameGuard.trans (h : SameGuard n s s') (h' : SameGuard n s' s'') : SameGuard n s s'' :=
  ⟨h'.unstopped.trans h.unstopped, h'.timers.trans h.timers, h'.stopping.trans h.stopping⟩

theorem sameGuard_discover (name : String) (rtspUrl : List Char) (d : Discovery) :
    SameGuard n s (discover name rtspUrl d s).2 :=
  ⟨by rw [Unstopped, Unstopped, discover_wire], by rw [discover_timers], by rw [discover_stopping]⟩

theorem sameGuard_cancelAutostop (h : n ≠ name) : SameGuard n s (cancelAutostop name s) :=
  ⟨Iff.rfl, by simp [cancelAutostop, h], Iff.rfl⟩

theorem sameGuard_sendStop (h : n ≠ name) : SameGuard n s (sendStop name s) :=
  ⟨Iff.rfl, rfl, by simp [sendStop, h]⟩

theorem sameGuard_mayHaveMoved (h : n ≠ name) : SameGuard n s (mayHaveMoved name s) :=
  ⟨by simp [Unstopped, mayHaveMoved, h.symm], rfl, Iff.rfl⟩

theorem sameGuard_armAutostop (rtspUrl : List Char) (h : n ≠ name) :
    SameGuard n s (armAutostop name rtspUrl s) :=
  ⟨Iff.rfl, by simp [armAutostop, cancelAutostop, h], Iff.rfl⟩

theorem guarded_sendStop : Guarded n (sendStop n s) := fun _ => .inr List.mem_cons_self

theorem unstopped_mayHaveMoved : Unstopped n (mayHaveMoved n s) := by
  simp [Unstopped, mayHaveMoved]

/-- A call for another camera is harmless and changes nothing for this one. -/
theorem sameGuard_of_ne (rtspUrl : List Char) (d : Discovery) (outcome : Outcome) (h : n ≠ name) :
    SameGuard n s (continuousMove name rtspUrl d outcome s).2 ∧
      SameGuard n s (stop name rtspUrl d s).2 ∧
      SameGuard n s (stopAnswered name outcome s).2 ∧
      SameGuard n s (autostopAfter name d s) := by
  have hd := sameGuard_discover (n := n) (s := s) name rtspUrl d
  -- whatever is sent, only what is kept under `name` is written
  refine ⟨?_, ?_, ?_, ?_⟩
  · unfold continuousMove
    dsimp only
    split
    · exact hd
    · cases outcome with
      | acknowledged =>
        exact (hd.trans (sameGuard_mayHaveMoved h)).trans (sameGuard_armAutostop rtspUrl h)
      | fault => exact hd
      | unreadable => exact hd.trans (sameGuard_mayHaveMoved h)
      | raised => exact hd.trans (sameGuard_mayHaveMoved h)
  · have hc := (sameGuard_cancelAutostop (s := s) h).trans (sameGuard_discover name rtspUrl d)
    unfold stop
    dsimp only
    split
    · exact hc.trans (sameGuard_sendStop h)
    · exact hc
  · unfold stopAnswered
    split
    · exact ⟨Iff.rfl, rfl, Iff.rfl⟩
    · split
      · exact ⟨by simp [Unstopped, h.symm], rfl, by simp [List.mem_erase_of_ne h]⟩
      · exact ⟨Iff.rfl, rfl, by simp [List.mem_erase_of_ne h]⟩
  · unfold autostopAfter
    split
    · exact ⟨Iff.rfl, rfl, Iff.rfl⟩
    · rename_i u hu
      have hc := (sameGuard_cancelAutostop (s := s) h).trans (sameGuard_discover name u d)
      dsimp only
      split
      · exact hc.trans (sameGuard_sendStop h)
      · exact hc

theorem guarded_continuousMove (rtspUrl : List Char) (d : Discovery) (outcome : Outcome)
    (hg : Guarded n s) : Guarded n (continuousMove n rtspUrl d outcome s).2 ↔
      (reachable n rtspUrl d s = true → (outcome = .raised ∨ outcome = .unreadable) →
        Covered n s) := by
  have hd := sameGuard_discover (n := n) (s := s) n rtspUrl d
  have hmoved : Guarded n (mayHaveMoved n (discover n rtspUrl d s).2) ↔ Covered n s := by
    have hcov : Covered n (mayHaveMoved n (discover n rtspUrl d s).2) ↔ Covered n s := by
      rw [Covered, Covered, ← hd.timers, ← hd.stopping]
      rfl
    rw [Guarded, hcov]
    exact ⟨fun h => h unstopped_mayHaveMoved, fun h _ => h⟩
  unfold continuousMove
  by_cases hs : reachable n rtspUrl d s = true
  · rw [if_neg (by simpa using hs)]
    cases outcome with
    | acknowledged =>
      refine iff_of_true (fun _ => .inl ?_) fun _ h => by simp at h
      simp [armAutostop]
    | fault => exact iff_of_true (hd.guarded.mpr hg) fun _ h => by simp at h
    | unreadable => simpa [hs] using hmoved
    | raised => simpa [hs] using hmoved
  · rw [if_pos (by simpa using hs)]
    exact iff_of_true (hd.guarded.mpr hg) fun h => absurd h hs

theorem guarded_stop (rtspUrl : List Char) (d : Discovery) (hi : Inv s) :
    Guarded n (stop n rtspUrl d s).2 ↔
      (Unstopped n s → (endpoints rtspUrl).isSome ∨ n ∈ s.stopping) := by
  have hd := sameGuard_discover (n := n) (s := cancelAutostop n s) n rtspUrl d
  unfold stop
  by_cases hs : reachable n rtspUrl d (cancelAutostop n s) = true
  · have he : (endpoints rtspUrl).isSome := by
      simp only [reachable, decide_eq_true_eq] at hs
      exact hs.2
    rw [if_pos hs]
    exact iff_of_true guarded_sendStop fun _ => .inl he
  · rw [if_neg hs]
    dsimp only
    rw [hd.guarded]
    have hcov : Covered n (cancelAutostop n s) ↔ n ∈ s.stopping := by
      simp [Covered, cancelAutostop]
    -- the timer is cancelled before anything is sent, so only another Stop covers
    refine forall_congr' fun hu => ?_
    -- a camera that may be moving is cached, so only its stored URL can keep the Stop back
    have hc : ((cancelAutostop n s).cache.get? n).isSome := hi.cached hu
    rw [reachable_of_cached hc] at hs
    rw [hcov, or_iff_right hs]

theorem guarded_stopAnswered (outcome : Outcome) (hg : Guarded n s) :
    Guarded n (stopAnswered n outcome s).2 ↔
      (n ∈ s.stopping → outcome ≠ .acknowledged → Unstopped n s →
        (s.timers.get? n).isSome ∨ n ∈ s.stopping.erase n) := by
  unfold stopAnswered
  by_cases hm : n ∈ s.stopping
  · rw [if_neg (by simpa using hm)]
    by_cases ho : outcome = .acknowledged
    · rw [if_pos ho]
      refine iff_of_true (fun hu => ?_) fun _ h => absurd ho h
      simp [Unstopped] at hu
    · rw [if_neg ho]
      exact ⟨fun h _ _ hu => h hu, fun h hu => h hm ho hu⟩
  · rw [if_pos hm]
    exact iff_of_true hg fun h => absurd h hm

theorem guarded_autostopAfter (d : Discovery) (hi : Inv s) (hg : Guarded n s) :
    Guarded n (autostopAfter n d s) := by
  unfold autostopAfter
  split
  · exact hg
  · rename_i u hu
    obtain ⟨hc, he⟩ := hi.armed n u hu
    -- what was armed can be reached: the camera is cached and the URL had an endpoint
    have hs : reachable n u d { s with timers := s.timers.erase n } = true :=
      (reachable_of_cached (s := { s with timers := s.timers.erase n }) hc).trans he
    dsimp only
    rw [if_pos hs]
    exact guarded_sendStop

end

/-- A step keeps the guard up exactly when it is harmless. -/
theorem guarded_step {n : String} {s : CameraPTZ} (hi : Inv s) (hg : Guarded n s) (op : Op) :
    Guarded n (step s op) ↔ Harmless n s op := by
  cases op with
  | continuousMove name rtspUrl d outcome =>
    by_cases h : name = n
    · subst h
      exact (guarded_continuousMove rtspUrl d outcome hg).trans ⟨fun hok _ => hok, fun hok => hok rfl⟩
    · refine iff_of_true ?_ fun he => absurd he h
      exact (sameGuard_of_ne rtspUrl d outcome (Ne.symm h)).1.guarded.mpr hg
  | stop name rtspUrl d =>
    by_cases h : name = n
    · subst h
      exact (guarded_stop rtspUrl d hi).trans ⟨fun hok _ => hok, fun hok => hok rfl⟩
    · refine iff_of_true ?_ fun he => absurd he h
      exact (sameGuard_of_ne rtspUrl d .fault (Ne.symm h)).2.1.guarded.mpr hg
  | stopAnswered name outcome =>
    by_cases h : name = n
    · subst h
      exact (guarded_stopAnswered outcome hg).trans ⟨fun hok _ => hok, fun hok => hok rfl⟩
    · refine iff_of_true ?_ fun he => absurd he h
      exact (sameGuard_of_ne [] ⟨none, none⟩ outcome (Ne.symm h)).2.2.1.guarded.mpr hg
  | timerFires name d =>
    refine iff_of_true ?_ trivial
    by_cases h : name = n
    · subst h
      exact guarded_autostopAfter d hi hg
    · exact (sameGuard_of_ne [] d .fault (Ne.symm h)).2.2.2.guarded.mpr hg

theorem inv_init : Inv init :=
  ⟨fun _ h => (by cases h), fun _ _ h => (by cases h)⟩

/-- In every state of a run a camera that may be moving has a pending auto-stop or a Stop on
its way, exactly when every step of the run is harmless to it. -/
theorem guarded_iff (n : String) (ops : List Op) :
    AllStates step (Guarded n) init ops ↔ AllSteps step (Harmless n) init ops :=
  allStates_iff_allSteps (I := fun s => Inv s ∧ Guarded n s)
    (fun _ op hi hok => ⟨hi.1.step op, (guarded_step hi.1 hi.2 op).mpr hok⟩)
    (fun _ hi => hi.2) (fun _ op hi hn hg => hn ((guarded_step hi.1 hi.2 op).mp hg))
    ⟨inv_init, fun h => by cases h⟩

def sampleUrl : List Char := "rtsp://admin:pw@192.168.1.64:554/stream1".toList

def sampleDiscovery : Discovery where
  profiles := some ["profile_1"]
  services := some none

/-- The camera slews, and the explicit `stop` of it is answered with a fault. -/
theorem failed_stop_leaves_slewing :
    ¬ AllStates step (Guarded "porch") init
        [.continuousMove "porch" sampleUrl sampleDiscovery .acknowledged,
          .stop "porch" sampleUrl sampleDiscovery, .stopAnswered "porch" .fault] ∧
      ¬ AllStates step (Guarded "porch") init
        [.continuousMove "porch" sampleUrl sampleDiscovery .raised] := by
  constructor <;> decide +kernel

end Wavr.Ptz
