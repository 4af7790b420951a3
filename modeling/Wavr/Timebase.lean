import Mathlib.Tactic.NormNum
import Wavr.Dict
import Wavr.Events
import Wavr.Run
import Wavr.Text

/-!
# Clocks of other machines

`TimeBase`: a window of apparent lags for each source, and the moment a stated timestamp is
turned into. Instants are whole microseconds. A lag is a difference of two of them in seconds.
-/

namespace Wavr.Timebase
open Fusion (roundHalfEven)
open Run Text

def WINDOW : ℕ := 32
def MAX_CORRECTION_S : ℚ := 120
def TZ_TOLERANCE_S : ℚ := 90

/-- 15m, 30m, 45m, 1h. -/
def TZ_STEPS_S : List ℚ := [900, 1800, 2700, 3600]

/-- Why a stamp reads the way it does. -/
inductive StampSource
  | stated
  | corrected
  | received
  | assumedUtc
  deriving DecidableEq, Repr

/-- What a provider hands in as a time. -/
inductive Value
  | text (s : String)
  /-- A `datetime`, in UTC. -/
  | moment (utc : ℤ)
  /-- Anything else, as `str` shows it. -/
  | other (s : String)
  deriving DecidableEq

/-- What the interpreter supplies: `datetime.fromisoformat` read in UTC, `repr` of a value, and
the `.2g` format. -/
structure Platform where
  fromIsoformat : String → Option ℤ
  repr : Value → String
  format2g : ℚ → String

structure Stamp where
  at' : ℤ
  stated : ℤ
  received : ℤ
  source : StampSource
  correctionS : ℚ
  assumedUtc : Bool
  note : String
  deriving DecidableEq

structure ClockEstimate where
  offsetS : ℚ
  samples : ℕ
  lastLagS : ℚ
  usable : Bool
  note : String
  lags : List ℚ
  deriving DecidableEq

/-- The clocks by source id. -/
abbrev TimeBase := Dict String ClockEstimate

def freshEstimate : ClockEstimate := ⟨0, 0, 0, true, "", []⟩

/-- `total_seconds()`. -/
def seconds (t : ℤ) : ℚ := t / 1000000

/-- `timedelta(seconds=s)`. -/
def micros (s : ℚ) : ℤ := roundHalfEven (s * 1000000)

variable (pf : Platform)

def parse (value : Value) : Except String ℤ :=
  match value with
  | .moment utc => .ok utc
  | .text s | .other s =>
    match pf.fromIsoformat s with
    | some t => .ok t
    | none => .error ("not a timestamp: " ++ pf.repr value)

/-- `_has_offset`: only the tail behind the date matters. -/
def hasOffset (text : String) : Bool :=
  let s := (strip text).toList
  if s.getLast? = some 'Z' ∨ s.getLast? = some 'z' then true
  else
    let tail := if 'T' ∈ s then afterLast 'T' s else if ' ' ∈ s then afterLast ' ' s else []
    '+' ∈ tail ∨ '-' ∈ tail

def looksLikeATimezone (skewS : ℚ) : String :=
  let mag := |skewS|
  if TZ_STEPS_S.any fun step =>
      |mag - roundHalfEven (mag / step) * step| ≤ TZ_TOLERANCE_S ∧ step - TZ_TOLERANCE_S ≤ mag then
    "about " ++ pf.format2g (mag / 3600) ++ "h " ++ (if 0 < skewS then "behind" else "ahead of") ++
      " this Core — that is a timezone setting, not clock drift"
  else ""

/-- `append` to a deque that holds at most `WINDOW`. -/
def pushLag (lag : ℚ) (lags : List ℚ) : List ℚ :=
  (lags ++ [lag]).drop ((lags ++ [lag]).length - WINDOW)

/-- `min(lags)`. -/
def least : List ℚ → ℚ
  | [] => 0
  | lag :: lags => lags.foldl min lag

/-- The estimate with one more lag. -/
def measured (lag : ℚ) (est : ClockEstimate) : ClockEstimate :=
  let lags := pushLag lag est.lags
  { est with lags, lastLagS := lag, samples := lags.length, offsetS := least lags }

def unusableNote (offsetS : ℚ) : String :=
  let note := looksLikeATimezone pf offsetS
  if truthy note then note
  else "clock is " ++ toString (roundHalfEven |offsetS|) ++ "s " ++
    (if 0 < offsetS then "behind" else "ahead of") ++
    " this Core — too far out to correct, so Wavr is using the time it received each reading instead"

/-- One reading, with the Core's clock as it is handed in. -/
structure Call where
  now : ℤ
  value : Value
  sourceId : String
  received : Option Value
  trusted : Bool
  deriving DecidableEq

/-- When the reading counts as received. -/
def receivedAt (call : Call) : Except String ℤ :=
  match call.received with
  | some value => parse pf value
  | none => .ok call.now

/-- A text that carries no timezone. -/
def naive : Value → Bool
  | .text s => ! hasOffset s
  | _ => false

/-- `normalize`; the error is the text of the TimeError. -/
def normalize (max : ℚ) (call : Call) (s : TimeBase) : Except String Stamp × TimeBase :=
  match receivedAt pf call with
  | .error e => (.error e, s)
  | .ok received =>
    match parse pf call.value with
    | .error e => (.error e, s)
    | .ok stated =>
      let assumedUtc := naive call.value
      if call.trusted || ! truthy call.sourceId then
        -- no estimate is possible, so the time is taken as given
        (.ok ⟨min stated received, stated, received, .stated, 0, assumedUtc, ""⟩, s)
      else
        let lag := seconds (received - stated)
        let est := measured lag ((s.get? call.sourceId).getD freshEstimate)
        if max < |est.offsetS| then
          let note := unusableNote pf est.offsetS
          (.ok ⟨received, stated, received, .received, lag, assumedUtc, note⟩,
            s.set call.sourceId { est with usable := false, note })
        else
          let at' := min (stated + micros est.offsetS) received
          let source : StampSource := if assumedUtc then .assumedUtc
            else if est.offsetS ≠ 0 then .corrected else .stated
          (.ok ⟨at', stated, received, source, seconds (at' - stated), assumedUtc, ""⟩,
            s.set call.sourceId { est with usable := true, note := "" })

def forget (sourceId : String) (s : TimeBase) : TimeBase := s.erase sourceId

inductive Op
  | normalize (call : Call)
  | forget (sourceId : String)
  deriving DecidableEq

def step (max : ℚ) (s : TimeBase) : Op → TimeBase
  | .normalize call => (normalize pf max call s).2
  | .forget sourceId => forget sourceId s

/-! ## The window -/

theorem mem_pushLag_self (lag : ℚ) (lags : List ℚ) : lag ∈ pushLag lag lags := by
  have hlen : (lags ++ [lag]).length - WINDOW ≤ lags.length := by
    rw [List.length_append, List.length_singleton, WINDOW]
    omega
  rw [pushLag, List.drop_append_of_le_length hlen]
  exact List.mem_append_right _ (List.mem_singleton_self lag)

theorem mem_pushLag {x lag : ℚ} {lags : List ℚ} (h : x ∈ pushLag lag lags) : x ∈ lags ∨ x = lag := by
  have hmem := List.mem_of_mem_drop h
  simpa using hmem

theorem least_mem {lags : List ℚ} (h : lags ≠ []) : least lags ∈ lags := by
  cases lags with
  | nil => exact absurd rfl h
  | cons lag lags =>
    rw [least]
    induction lags generalizing lag with
    | nil => exact List.mem_singleton_self lag
    | cons x lags ih =>
      rw [List.foldl_cons]
      have hfold := ih (min lag x) (List.cons_ne_nil _ _)
      rcases List.mem_cons.mp hfold with hmin | hmem
      · rw [hmin]
        rcases min_choice lag x with hx | hx
        · rw [hx]
          exact List.mem_cons_self
        · rw [hx]
          exact List.mem_cons_of_mem _ List.mem_cons_self
      · exact List.mem_cons_of_mem _ (List.mem_cons_of_mem _ hmem)

theorem foldl_min_le (lags : List ℚ) (a : ℚ) :
    lags.foldl min a ≤ a ∧ ∀ x ∈ lags, lags.foldl min a ≤ x := by
  induction lags generalizing a with
  | nil => exact ⟨le_rfl, fun x hx => nomatch hx⟩
  | cons b lags ih =>
    obtain ⟨hstart, hrest⟩ := ih (min a b)
    refine ⟨hstart.trans (min_le_left a b), fun x hx => ?_⟩
    rcases List.mem_cons.mp hx with rfl | hx
    · exact hstart.trans (min_le_right a x)
    · exact hrest x hx

theorem least_le {x : ℚ} {lags : List ℚ} (hx : x ∈ lags) : least lags ≤ x := by
  cases lags with
  | nil => cases hx
  | cons lag lags =>
    obtain ⟨hstart, hrest⟩ := foldl_min_le lags lag
    rcases List.mem_cons.mp hx with rfl | hx
    · exact hstart
    · exact hrest x hx

/-! ## Seconds -/

theorem seconds_le_seconds {a b : ℤ} : seconds a ≤ seconds b ↔ a ≤ b := by
  unfold seconds
  rw [div_le_div_iff_of_pos_right (by norm_num)]
  exact Int.cast_le

theorem seconds_inj {a b : ℤ} : seconds a = seconds b ↔ a = b := by
  rw [le_antisymm_iff, le_antisymm_iff, seconds_le_seconds, seconds_le_seconds]

/-- A whole number of microseconds comes back as it went. -/
theorem micros_seconds (t : ℤ) : micros (seconds t) = t := by
  have hmul : seconds t * 1000000 = t := div_mul_cancel₀ _ (by norm_num)
  have hfloor : (t : ℚ).floor = t := Rat.floor_intCast t
  rw [micros, hmul, roundHalfEven]
  rw [hfloor, sub_self, if_pos (.inl (by norm_num))]

/-! ## A clock that stands off by a constant -/

/-- The readings of a source that an estimate is made for. -/
def Own (src : String) (call : Call) : Prop := call.sourceId = src ∧ call.trusted = false

/-- When a reading was emitted by the Core's clock, from a source whose clock is `d` behind. -/
def emitted (d stated : ℤ) : ℤ := stated + d

/-- A reading takes no negative time to arrive. -/
def Delivered (d : ℤ) (src : String) (_ : TimeBase) : Op → Prop
  | .normalize call => Own src call → ∀ stated received, parse pf call.value = .ok stated →
      receivedAt pf call = .ok received → emitted d stated ≤ received
  | .forget _ => True

/-- No stamp is later than its reception. -/
def NotAhead (max : ℚ) (s : TimeBase) : Op → Prop
  | .normalize call => ∀ stamp, (normalize pf max call s).1 = .ok stamp → stamp.at' ≤ stamp.received
  | .forget _ => True

/-- No stamp is later than its reception, and none of the source later than its emission. -/
def NeverLate (max : ℚ) (d : ℤ) (src : String) (s : TimeBase) : Op → Prop
  | .normalize call => ∀ stamp, (normalize pf max call s).1 = .ok stamp →
      stamp.at' ≤ stamp.received ∧ (Own src call → stamp.at' ≤ emitted d stamp.stated)
  | .forget _ => True

/-- One delivery in the window of the source, this one included, took no time at all. -/
def OneInstant (d : ℤ) (src : String) (s : TimeBase) : Op → Prop
  | .normalize call => Own src call → ∀ stated received, parse pf call.value = .ok stated →
      receivedAt pf call = .ok received →
      seconds d ∈ pushLag (seconds (received - stated)) ((s.get? src).getD freshEstimate).lags
  | .forget _ => True

/-- Every lag kept for the source is the offset of its clock and some time in transit. -/
def Lagging (d : ℤ) (src : String) (s : TimeBase) : Prop :=
  ∀ est, s.get? src = some est → ∀ lag ∈ est.lags, ∃ transit : ℕ, lag = seconds (d + transit)

section
variable {pf} {max : ℚ} {d : ℤ} {src : String} {s : TimeBase} {call : Call} {stated received : ℤ}

/-- The estimate that the reading is normalized with. -/
def estimateFor (received stated : ℤ) (src : String) (s : TimeBase) : ClockEstimate :=
  measured (seconds (received - stated)) ((s.get? src).getD freshEstimate)

/-- A reading that does not parse changes nothing. -/
theorem normalize_unread (max : ℚ) (s : TimeBase) (h : ∀ stated received, parse pf call.value = .ok stated →
    receivedAt pf call ≠ .ok received) : ∃ e, normalize pf max call s = (.error e, s) := by
  unfold normalize
  cases hr : receivedAt pf call with
  | error e => exact ⟨e, rfl⟩
  | ok received =>
    cases hp : parse pf call.value with
    | error e => exact ⟨e, rfl⟩
    | ok stated => exact absurd hr (h stated received hp)

theorem normalize_taken (hr : receivedAt pf call = .ok received)
    (hp : parse pf call.value = .ok stated)
    (h : (call.trusted || ! truthy call.sourceId) = true) :
    normalize pf max call s =
      (.ok ⟨min stated received, stated, received, .stated, 0, naive call.value, ""⟩, s) := by
  simp [normalize, hr, hp, h]

/-- What a reading is turned into once its lag is in the window. -/
theorem normalize_estimated (max : ℚ) (s : TimeBase) (hr : receivedAt pf call = .ok received)
    (hp : parse pf call.value = .ok stated)
    (h : (call.trusted || ! truthy call.sourceId) = false) :
    ∃ stamp est, normalize pf max call s = (.ok stamp, s.set call.sourceId est) ∧
      est.lags = (estimateFor received stated call.sourceId s).lags ∧
      stamp.stated = stated ∧ stamp.received = received ∧
      stamp.at' = if max < |(estimateFor received stated call.sourceId s).offsetS| then received
        else min (stated + micros (estimateFor received stated call.sourceId s).offsetS) received := by
  unfold normalize
  rw [hr, hp]
  dsimp only
  rw [if_neg (by simp [h])]
  by_cases hfar : max < |(estimateFor received stated call.sourceId s).offsetS|
  · refine ⟨_, _, if_pos hfar, rfl, rfl, rfl, ?_⟩
    rw [if_pos hfar]
  · refine ⟨_, _, if_neg hfar, rfl, rfl, rfl, ?_⟩
    rw [if_neg hfar]
    rfl

/-- Nothing is stamped later than it was received, whatever came before. -/
theorem at_le_received {stamp : Stamp} (h : (normalize pf max call s).1 = .ok stamp) :
    stamp.at' ≤ stamp.received := by
  by_cases hread : ∃ stated received, parse pf call.value = .ok stated ∧
      receivedAt pf call = .ok received
  · obtain ⟨stated, received, hp, hr⟩ := hread
    cases htaken : (call.trusted || ! truthy call.sourceId) with
    | true =>
      rw [normalize_taken hr hp htaken] at h
      cases h
      exact min_le_right stated received
    | false =>
      obtain ⟨stamp', est, hnorm, -, -, hrec, hat⟩ := normalize_estimated max s hr hp htaken
      rw [hnorm] at h
      cases h
      rw [hat, hrec]
      split
      · exact le_rfl
      · exact min_le_right _ _
  · obtain ⟨e, he⟩ := normalize_unread max s
      fun stated received hp hr => hread ⟨stated, received, hp, hr⟩
    rw [he] at h
    cases h

theorem lags_estimateFor {src : String} :
    (estimateFor received stated src s).lags =
      pushLag (seconds (received - stated)) ((s.get? src).getD freshEstimate).lags := by
  rw [estimateFor, measured]

/-- Each lag in the window is the offset and a transit, if that of the reading is. -/
theorem Lagging.estimateFor (hlag : Lagging d src s) (hdel : emitted d stated ≤ received) {lag : ℚ}
    (hmem : lag ∈ (estimateFor received stated src s).lags) :
    ∃ transit : ℕ, lag = seconds (d + transit) := by
  rw [lags_estimateFor] at hmem
  rcases mem_pushLag hmem with hold | rfl
  · cases hest : s.get? src with
    | none =>
      rw [hest] at hold
      cases hold
    | some est =>
      rw [hest] at hold
      exact hlag est hest lag hold
  · have hsub : 0 ≤ received - emitted d stated := Int.sub_nonneg_of_le hdel
    refine ⟨(received - emitted d stated).toNat, ?_⟩
    rw [seconds_inj, Int.toNat_of_nonneg hsub, emitted]
    omega

/-- The offset that is estimated is that of the clock and the fastest transit in the window. -/
theorem offset_estimateFor (hlag : Lagging d src s) (hdel : emitted d stated ≤ received) :
    ∃ fastest : ℕ, (estimateFor received stated src s).offsetS = seconds (d + fastest) ∧
      emitted d stated + fastest ≤ received ∧
      (fastest = 0 ↔ seconds d ∈ (estimateFor received stated src s).lags) := by
  have hown : seconds (received - stated) ∈ (estimateFor received stated src s).lags :=
    mem_pushLag_self _ _
  have hmem : (estimateFor received stated src s).offsetS ∈ (estimateFor received stated src s).lags :=
    least_mem (List.ne_nil_of_mem hown)
  obtain ⟨fastest, hfast⟩ := hlag.estimateFor hdel hmem
  refine ⟨fastest, hfast, ?_, fun h => ?_, fun h => ?_⟩
  · have hle : (estimateFor received stated src s).offsetS ≤ seconds (received - stated) :=
      least_le hown
    rw [hfast, seconds_le_seconds] at hle
    rw [emitted]
    omega
  · rw [h, Nat.cast_zero, add_zero] at hfast
    rw [← hfast]
    exact hmem
  · have hle : (estimateFor received stated src s).offsetS ≤ seconds d := least_le h
    rw [hfast, seconds_le_seconds] at hle
    omega

variable (hsrc : src ≠ "") (hd : |seconds d| ≤ max)
include hsrc hd

/-- A stamp of the source errs by the fastest transit in its window, to the late side. -/
theorem at_estimated (hlag : Lagging d src s) (hown : Own src call)
    (hp : parse pf call.value = .ok stated) (hr : receivedAt pf call = .ok received)
    (hdel : emitted d stated ≤ received) {stamp : Stamp}
    (h : (normalize pf max call s).1 = .ok stamp) :
    stamp.stated = stated ∧ (stamp.at' ≤ emitted d stated ↔
      seconds d ∈ (estimateFor received stated src s).lags) := by
  obtain ⟨rfl, htrusted⟩ := hown
  have hest : (call.trusted || ! truthy call.sourceId) = false := by
    simp [htrusted, truthy, hsrc]
  obtain ⟨stamp', est, hnorm, -, hstated, -, hat⟩ := normalize_estimated max s hr hp hest
  rw [hnorm] at h
  cases h
  obtain ⟨fastest, hoff, hfast, hzero⟩ := offset_estimateFor hlag hdel
  refine ⟨hstated, ?_⟩
  rw [hat, ← hzero]
  by_cases hfar : max < |(estimateFor received stated call.sourceId s).offsetS|
  · rw [if_pos hfar]
    constructor
    · intro hle
      omega
    · intro h0
      -- a delivery in no time has the offset of the clock alone, which is within the limit
      rw [hoff, h0, Nat.cast_zero, add_zero] at hfar
      exact absurd hfar (not_lt.mpr hd)
  · rw [if_neg hfar, hoff, micros_seconds]
    have hsum : stated + (d + fastest) = emitted d stated + fastest := by
      rw [emitted]
      omega
    rw [hsum, min_eq_left hfast]
    omega

theorem neverLate_iff (hlag : Lagging d src s) {op : Op} (hdel : Delivered pf d src s op) :
    NeverLate pf max d src s op ↔ OneInstant pf d src s op := by
  cases op with
  | forget _ => exact Iff.rfl
  | normalize call =>
    constructor
    · intro h hown stated received hp hr
      have hest : (call.trusted || ! truthy call.sourceId) = false := by
        simp [hown.1, hown.2, truthy, hsrc]
      obtain ⟨stamp, est, hnorm, -⟩ := normalize_estimated max s hr hp hest
      have hok : (normalize pf max call s).1 = .ok stamp := by rw [hnorm]
      obtain ⟨hstated, hiff⟩ := at_estimated hsrc hd hlag hown hp hr (hdel hown stated received hp hr) hok
      rw [← lags_estimateFor, ← hiff, ← hstated]
      exact (h stamp hok).2 hown
    · intro h stamp hok
      refine ⟨at_le_received hok, fun hown => ?_⟩
      by_cases hread : ∃ stated received, parse pf call.value = .ok stated ∧
          receivedAt pf call = .ok received
      · obtain ⟨stated, received, hp, hr⟩ := hread
        obtain ⟨hstated, hiff⟩ := at_estimated hsrc hd hlag hown hp hr
          (hdel hown stated received hp hr) hok
        rw [hstated, hiff, lags_estimateFor]
        exact h hown stated received hp hr
      · obtain ⟨e, he⟩ := normalize_unread max s
          fun stated received hp hr => hread ⟨stated, received, hp, hr⟩
        rw [he] at hok
        cases hok

omit hsrc hd in
theorem Lagging.step (hlag : Lagging d src s) {op : Op} (hdel : Delivered pf d src s op) :
    Lagging d src (step pf max s op) := by
  cases op with
  | forget sourceId =>
    intro est hest
    have hkeep : s.get? src = some est := by
      unfold Timebase.step forget at hest
      rw [Dict.get?_erase] at hest
      split at hest
      · cases hest
      · exact hest
    exact hlag est hkeep
  | normalize call =>
    show Lagging d src (normalize pf max call s).2
    -- only a reading that is estimated, and of this source, writes its entry
    by_cases hread : ∃ stated received, parse pf call.value = .ok stated ∧
        receivedAt pf call = .ok received
    · obtain ⟨stated, received, hp, hr⟩ := hread
      cases htaken : (call.trusted || ! truthy call.sourceId) with
      | true =>
        rw [normalize_taken hr hp htaken]
        exact hlag
      | false =>
        obtain ⟨stamp, est, hnorm, hlags, -⟩ := normalize_estimated max s hr hp htaken
        rw [hnorm]
        intro est' hest'
        dsimp only at hest'
        rw [Dict.get?_set] at hest'
        split at hest'
        · rename_i hsame
          cases hest'
          have hown : Own src call := ⟨hsame.symm, by simpa using (Bool.or_eq_false_iff.mp htaken).1⟩
          rw [hlags, ← hsame]
          intro lag hmem
          exact hlag.estimateFor (hdel hown stated received hp hr) hmem
        · exact hlag est' hest'
    · obtain ⟨e, he⟩ := normalize_unread max s
        fun stated received hp hr => hread ⟨stated, received, hp, hr⟩
      rw [he]
      exact hlag

end

/-- In every history no stamp is later than its reception. Where a source whose clock stands off
by a constant, within the limit, is heard without negative delays, none of its stamps is later
than its emission exactly when each has a delivery in its window that took no time. -/
theorem underCorrects_iff (max : ℚ) (d : ℤ) (src : String) (hsrc : src ≠ "")
    (hd : |seconds d| ≤ max) (ops : List Op) :
    AllSteps (step pf max) (NotAhead pf max) .empty ops ∧
      (AllSteps (step pf max) (Delivered pf d src) .empty ops →
        (AllSteps (step pf max) (NeverLate pf max d src) .empty ops ↔
          AllSteps (step pf max) (OneInstant pf d src) .empty ops)) := by
  constructor
  · refine allSteps_of_forall fun op _ s => ?_
    cases op with
    | forget _ => trivial
    | normalize call => exact fun stamp h => at_le_received h
  · refine allSteps_congr_of_invariant (I := Lagging d src) (fun _ _ hlag hop => hlag.step hop)
      (fun _ _ hlag hop => neverLate_iff hsrc hd hlag hop) (fun est hest => ?_)
    cases hest

/-! ## Two seconds on the way -/

/-- No reading of the samples is a text. -/
def samplePlatform : Platform := ⟨fun _ => none, fun _ => "", fun _ => ""⟩

/-- A reading that says 0 s and is received at 32 s. -/
def slowDelivery : Op := .normalize ⟨32000000, .moment 0, "ha", none, false⟩

theorem slowDelivery_delivered :
    AllSteps (step samplePlatform MAX_CORRECTION_S) (Delivered samplePlatform 30000000 "ha") .empty
      [slowDelivery] := by
  refine ⟨fun _ stated received hp hr => ?_, trivial⟩
  cases hp
  cases hr
  decide

theorem underCorrects_sample :
    AllSteps (step samplePlatform MAX_CORRECTION_S) (NotAhead samplePlatform MAX_CORRECTION_S)
        .empty [slowDelivery] ∧
      (AllSteps (step samplePlatform MAX_CORRECTION_S)
          (NeverLate samplePlatform MAX_CORRECTION_S 30000000 "ha") .empty [slowDelivery] ↔
        AllSteps (step samplePlatform MAX_CORRECTION_S) (OneInstant samplePlatform 30000000 "ha")
          .empty [slowDelivery]) :=
  have h := underCorrects_iff samplePlatform MAX_CORRECTION_S 30000000 "ha" (by decide)
    (by decide +kernel) [slowDelivery]
  ⟨h.1, h.2 slowDelivery_delivered⟩

/-- The clock is 30 s behind, so the reading was emitted at 30 s. It is stamped 32 s. -/
theorem slow_delivery_overcorrects :
    AllSteps (step samplePlatform MAX_CORRECTION_S) (Delivered samplePlatform 30000000 "ha") .empty
        [slowDelivery] ∧
      ¬ AllSteps (step samplePlatform MAX_CORRECTION_S)
        (NeverLate samplePlatform MAX_CORRECTION_S 30000000 "ha") .empty [slowDelivery] := by
  refine ⟨slowDelivery_delivered, ?_⟩
  rintro ⟨h, -⟩
  have hat : (normalize samplePlatform MAX_CORRECTION_S ⟨32000000, .moment 0, "ha", none, false⟩
      .empty).1 = .ok ⟨32000000, 0, 32000000, .corrected, 32, false, ""⟩ := by decide +kernel
  exact absurd ((h _ hat).2 ⟨rfl, rfl⟩) (by decide)

end Wavr.Timebase
