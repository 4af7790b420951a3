import Mathlib

/-!
# Guided calibration

A session visits the known floor spots in order and pairs each with the feet pixel captured
there. The first capture locks the image size; `retry_current` undoes the last capture.
-/

namespace Wavr.CalibSession

inductive SessionState where
  | walking | ready | solved | aborted
  deriving DecidableEq

def SessionState.value : SessionState → String
  | .walking => "walking"
  | .ready => "ready"
  | .solved => "solved"
  | .aborted => "aborted"

/-- `raised` is what `int()` and `tuple()` throw at values they cannot read. -/
inductive Error where
  | calibSession (text : String)
  | raised
  deriving DecidableEq

variable {F T : Type}

structure Session (F T : Type) where
  spots : List (List F)
  state : SessionState
  spotIdx : ℕ
  pairs : List (List F × List F)
  imgSize : Option (ℤ × ℤ)
  started : T
  touched : T
  deriving DecidableEq

def start (spots : List (List F)) (now : T) : Session F T :=
  ⟨spots, .walking, 0, [], none, now, now⟩

def sizeText (size : ℤ × ℤ) : String :=
  "(" ++ toString size.1 ++ ", " ++ toString size.2 ++ ")"

/-- The part of `capture` behind the lock: whatever raises here leaves the lock behind. -/
def pairUp (s : Session F T) (feetPx : Option (List F)) (now : T) : Session F T × Except Error Unit :=
  match feetPx, s.spots[s.spotIdx]? with
  | some feet, some spot =>
    ({ s with
        pairs := s.pairs ++ [(feet, spot)]
        spotIdx := s.spotIdx + 1
        touched := now
        state := if s.spots.length ≤ s.spotIdx + 1 then .ready else s.state }, .ok ())
  | _, _ => (s, .error .raised)

/-- `feetPx` is none where `tuple()` raises, a size is none where `int()` does. -/
def capture (s : Session F T) (feetPx : Option (List F)) (imgW imgH : Option ℤ) (now : T) :
    Session F T × Except Error Unit :=
  if s.state ≠ .walking then
    (s, .error (.calibSession ("session is " ++ s.state.value ++ ", not walking")))
  else if s.spots.length ≤ s.spotIdx then (s, .error (.calibSession "no spot left to capture"))
  else match imgW, imgH with
    | some w, some h =>
      match s.imgSize with
      | none => pairUp { s with imgSize := some (w, h) } feetPx now
      | some size =>
        if size ≠ (w, h) then
          (s, .error (.calibSession ("image size changed mid-walk (was " ++ sizeText size ++
            ", now " ++ sizeText (w, h) ++ ")")))
        else pairUp s feetPx now
    | _, _ => (s, .error .raised)

def retryCurrent (s : Session F T) (now : T) : Session F T × Except Error Unit :=
  if s.state ≠ .walking ∧ s.state ≠ .ready then
    (s, .error (.calibSession ("session is " ++ s.state.value ++ ", cannot retry")))
  else if s.pairs = [] then (s, .error (.calibSession "no capture to retry"))
  else
    ({ s with
        pairs := s.pairs.dropLast
        spotIdx := s.spotIdx - 1
        state := .walking
        touched := now }, .ok ())

def abort (s : Session F T) (now : T) : Session F T :=
  { s with pairs := [], state := .aborted, touched := now }

def markSolved (s : Session F T) (now : T) : Session F T :=
  { s with state := .solved, touched := now }

/-! ## Walks -/

/-- A call with the clock reading it makes. -/
inductive Call (F T : Type) where
  | capture (feetPx : Option (List F)) (imgW imgH : Option ℤ) (now : T)
  | retryCurrent (now : T)

def Session.call (s : Session F T) : Call F T → Session F T × Except Error Unit
  | .capture feetPx imgW imgH now => capture s feetPx imgW imgH now
  | .retryCurrent now => retryCurrent s now

def Accepted (s : Session F T) (c : Call F T) : Prop := (s.call c).2 = .ok ()

/-- A session, and for each of its pairs the size it was captured at. -/
structure Walk (F T : Type) where
  session : Session F T
  sizes : List (ℤ × ℤ)

def Walk.step (w : Walk F T) (c : Call F T) : Walk F T where
  session := (w.session.call c).1
  sizes := match c, (w.session.call c).2 with
    | .capture _ (some x) (some y) _, .ok () => w.sizes ++ [(x, y)]
    | .retryCurrent _, .ok () => w.sizes.dropLast
    | _, _ => w.sizes

structure Aligned (w : Walk F T) : Prop where
  counted : w.session.pairs.length = w.session.spotIdx
  floors : w.session.pairs.map Prod.snd = w.session.spots.take w.session.spotIdx
  ready : w.session.state = .ready ↔ w.session.spotIdx = w.session.spots.length
  sized : w.sizes.length = w.session.pairs.length ∧ ∀ size ∈ w.sizes, w.session.imgSize = some size

/-- Everything of a session but when it was touched. -/
def SameWalk (s t : Session F T) : Prop :=
  s.pairs = t.pairs ∧ s.spotIdx = t.spotIdx ∧ s.state = t.state ∧ s.imgSize = t.imgSize ∧ s.spots = t.spots

/-- A run that stays aligned, where a rejected call changes nothing and a retry directly behind
an accepted capture undoes it. -/
def StaysAligned : Walk F T → List (Call F T) → Prop
  | w, [] => Aligned w
  | w, c :: cs => Aligned w ∧ (¬ Accepted w.session c → w.step c = w) ∧
      (∀ feet imgW imgH now now', c = .capture feet imgW imgH now → Accepted w.session c →
        cs.head? = some (.retryCurrent now') →
          SameWalk ((w.step c).step (.retryCurrent now')).session w.session) ∧
      StaysAligned (w.step c) cs

/-- Whether the first call that locks the size pairs a feet pixel and is not undone at once. -/
def KeepsFirst : List (Call F T) → Prop
  | [] => True
  | .capture feet (some _) (some _) _ :: cs => feet ≠ none ∧ ∀ now, cs.head? ≠ some (.retryCurrent now)
  | _ :: cs => KeepsFirst cs

/-! ## What one call does -/

/-- A capture goes through or is rejected with at most the lock to show for it. -/
theorem capture_cases (s : Session F T) (feet : Option (List F)) (imgW imgH : Option ℤ) (now : T) :
    (∃ e, s.call (.capture feet imgW imgH now) = (s, .error e)) ∨
    (∃ w h, imgW = some w ∧ imgH = some h ∧ s.imgSize = none ∧ feet = none ∧
      s.call (.capture feet imgW imgH now) = ({ s with imgSize := some (w, h) }, .error .raised)) ∨
    ∃ w h f spot, imgW = some w ∧ imgH = some h ∧ feet = some f ∧ s.state = .walking ∧
      s.spots[s.spotIdx]? = some spot ∧ (s.imgSize = none ∨ s.imgSize = some (w, h)) ∧
      s.call (.capture feet imgW imgH now) =
        ({ s with
            imgSize := some (w, h)
            pairs := s.pairs ++ [(f, spot)]
            spotIdx := s.spotIdx + 1
            touched := now
            state := if s.spots.length ≤ s.spotIdx + 1 then .ready else .walking }, .ok ()) := by
  simp only [Session.call, capture]
  by_cases hw : s.state ≠ .walking
  · exact .inl ⟨_, if_pos hw⟩
  rw [if_neg hw]
  by_cases hi : s.spots.length ≤ s.spotIdx
  · exact .inl ⟨_, if_pos hi⟩
  rw [if_neg hi]
  have hw' : s.state = .walking := not_not.mp hw
  obtain ⟨spot, hspot⟩ : ∃ spot, s.spots[s.spotIdx]? = some spot :=
    ⟨_, List.getElem?_eq_getElem (not_le.mp hi)⟩
  -- the size is locked before the foot point is used, so a capture without one keeps the lock
  match imgW, imgH with
  | none, _ => exact .inl ⟨_, rfl⟩
  | some _, none => exact .inl ⟨_, rfl⟩
  | some w, some h =>
    match hz : s.imgSize, feet with
    | none, none => exact .inr (.inl ⟨w, h, rfl, rfl, rfl, rfl, rfl⟩)
    | none, some f =>
      refine .inr (.inr ⟨w, h, f, spot, rfl, rfl, rfl, hw', hspot, .inl rfl, ?_⟩)
      simp [pairUp, hspot, hw']
    | some size, feet =>
      by_cases hne : size ≠ (w, h)
      · exact .inl ⟨_, if_pos hne⟩
      obtain rfl : size = (w, h) := not_not.mp hne
      match feet with
      | none => exact .inl ⟨.raised, by simp [pairUp]⟩
      | some f =>
        refine .inr (.inr ⟨w, h, f, spot, rfl, rfl, rfl, hw', hspot, .inr rfl, ?_⟩)
        simp [pairUp, hspot, hw', hz]

theorem retryCurrent_ok {s : Session F T} (hs : s.state = .walking ∨ s.state = .ready) (hp : s.pairs ≠ [])
    (now : T) : s.call (.retryCurrent now) =
      ({ s with
          pairs := s.pairs.dropLast
          spotIdx := s.spotIdx - 1
          state := .walking
          touched := now }, .ok ()) := by
  have hs' : ¬ (s.state ≠ .walking ∧ s.state ≠ .ready) := by tauto
  rw [Session.call, retryCurrent, if_neg hs', if_neg hp]

theorem retryCurrent_cases (s : Session F T) (now : T) :
    (∃ e, s.call (.retryCurrent now) = (s, .error e)) ∨
    (s.state = .walking ∨ s.state = .ready) ∧ s.pairs ≠ [] := by
  simp only [Session.call, retryCurrent]
  by_cases hs : s.state ≠ .walking ∧ s.state ≠ .ready
  · exact .inl ⟨_, if_pos hs⟩
  rw [if_neg hs]
  by_cases hp : s.pairs = []
  · exact .inl ⟨_, if_pos hp⟩
  exact .inr ⟨by tauto, hp⟩

/-- A walk that was aborted or solved takes no further call. -/
theorem call_of_closed {s : Session F T} (hs : s.state = .aborted ∨ s.state = .solved) (c : Call F T) :
    ∃ e, s.call c = (s, .error e) := by
  have hw : s.state ≠ .walking := by rcases hs with h | h <;> simp [h]
  have hr : s.state ≠ .walking ∧ s.state ≠ .ready := by rcases hs with h | h <;> simp [h]
  cases c with
  | capture feet imgW imgH now => exact ⟨_, if_pos hw⟩
  | retryCurrent now => exact ⟨_, if_pos hr⟩

theorem call_abort (s : Session F T) (now : T) (c : Call F T) :
    ∃ e, (abort s now).call c = (abort s now, .error e) := call_of_closed (.inl rfl) c

theorem call_markSolved (s : Session F T) (now : T) (c : Call F T) :
    ∃ e, (markSolved s now).call c = (markSolved s now, .error e) := call_of_closed (.inr rfl) c

/-! ## One step of a walk -/

theorem step_of_error {w : Walk F T} {c : Call F T} {e : Error} (h : w.session.call c = (w.session, .error e)) :
    w.step c = w ∧ ¬ Accepted w.session c := by
  refine ⟨?_, by simp [Accepted, h]⟩
  cases c with
  | capture feet imgW imgH now => cases imgW <;> cases imgH <;> simp [Walk.step, h]
  | retryCurrent now => simp [Walk.step, h]

/-- An aligned walk that is neither aborted nor solved. -/
def Open (w : Walk F T) : Prop :=
  Aligned w ∧ (w.session.state = .walking ∨ w.session.state = .ready)

theorem open_start (spots : List (List F)) (now : T) (hs : spots ≠ []) :
    Open ⟨start spots now, []⟩ := by
  have hl : (0 : ℕ) ≠ spots.length := fun h => hs (List.length_eq_zero_iff.mp h.symm)
  exact ⟨⟨rfl, rfl, by simp [start, hl], rfl, by simp⟩, .inl rfl⟩

/-- What an accepted capture makes of a walk. -/
theorem open_captured {w : Walk F T} (hw : Open w) {x y : ℤ} {f spot : List F} (now : T)
    (hspot : w.session.spots[w.session.spotIdx]? = some spot)
    (hz : w.session.imgSize = none ∨ w.session.imgSize = some (x, y)) :
    Open ⟨{ w.session with
        imgSize := some (x, y)
        pairs := w.session.pairs ++ [(f, spot)]
        spotIdx := w.session.spotIdx + 1
        touched := now
        state := if w.session.spots.length ≤ w.session.spotIdx + 1 then .ready else .walking },
      w.sizes ++ [(x, y)]⟩ := by
  obtain ⟨⟨hc, hf, hr, hl, hs⟩, hst⟩ := hw
  have hi : w.session.spotIdx < w.session.spots.length := (List.getElem?_eq_some_iff.mp hspot).1
  refine ⟨⟨by simp [hc], ?_, ?_, by simp [hl], ?_⟩, ?_⟩
  · simp [List.take_add_one, hf, hspot]
  · by_cases h : w.session.spots.length ≤ w.session.spotIdx + 1
    · simp [h]
      omega
    · simp [h]
      omega
  · intro size hm
    rcases List.mem_append.mp hm with hm | hm
    · rcases hz with hz | hz
      · exact absurd (hs size hm) (by simp [hz])
      · exact (hz.symm.trans (hs size hm))
    · rw [List.mem_singleton.mp hm]
  · by_cases h : w.session.spots.length ≤ w.session.spotIdx + 1 <;> simp [h]

theorem open_retried {w : Walk F T} (hw : Open w) (now : T) (hp : w.session.pairs ≠ []) :
    Open ⟨{ w.session with
        pairs := w.session.pairs.dropLast
        spotIdx := w.session.spotIdx - 1
        state := .walking
        touched := now }, w.sizes.dropLast⟩ := by
  obtain ⟨⟨hc, hf, hr, hl, hs⟩, hst⟩ := hw
  have hpos : 0 < w.session.pairs.length := List.length_pos_iff.mpr hp
  have hlen : (w.session.spots.take w.session.spotIdx).length = w.session.spotIdx := by
    rw [← hf, List.length_map, hc]
  have hle : w.session.spotIdx ≤ w.session.spots.length := by
    rw [← hlen]
    exact List.length_take_le' _ _
  refine ⟨⟨by simp [hc], ?_, ?_, by simp [hl], fun size hm => hs size (List.mem_of_mem_dropLast hm)⟩, .inl rfl⟩
  · rw [List.map_dropLast, hf, List.dropLast_eq_take, hlen, List.take_take, Nat.min_eq_left (Nat.sub_le _ _)]
  · simp only [reduceCtorEq, false_iff]
    omega

theorem open_step {w : Walk F T} (hw : Open w) (c : Call F T) : Open (w.step c) := by
  cases c with
  | capture feet imgW imgH now =>
    rcases capture_cases w.session feet imgW imgH now with
      ⟨e, he⟩ | ⟨x, y, rfl, rfl, hz, rfl, he⟩ | ⟨x, y, f, spot, rfl, rfl, rfl, _, hspot, hz, he⟩
    · rw [(step_of_error he).1]
      exact hw
    · obtain ⟨⟨hc, hf, hr, hl, hs⟩, hst⟩ := hw
      have hnil : w.sizes = [] :=
        List.eq_nil_iff_forall_not_mem.mpr fun size hm => by simpa [hz] using hs size hm
      simp only [Walk.step, he]
      exact ⟨⟨hc, hf, hr, hl, by simp [hnil]⟩, hst⟩
    · simp only [Walk.step, he]
      exact open_captured hw now hspot hz
  | retryCurrent now =>
    rcases retryCurrent_cases w.session now with ⟨e, he⟩ | ⟨hs, hp⟩
    · rw [(step_of_error he).1]
      exact hw
    · simp only [Walk.step, retryCurrent_ok hs hp]
      exact open_retried hw now hp

/-- Once the size is locked a rejected call changes nothing, and the lock stays. -/
theorem locked_step {w : Walk F T} (hz : w.session.imgSize ≠ none) (c : Call F T) :
    (¬ Accepted w.session c → w.step c = w) ∧ (w.step c).session.imgSize ≠ none := by
  cases c with
  | capture feet imgW imgH now =>
    rcases capture_cases w.session feet imgW imgH now with
      ⟨e, he⟩ | ⟨x, y, _, _, hn, _, _⟩ | ⟨x, y, f, spot, rfl, rfl, rfl, _, _, _, he⟩
    · rw [(step_of_error he).1]
      exact ⟨fun _ => rfl, hz⟩
    · exact absurd hn hz
    · exact ⟨fun hna => absurd (congrArg Prod.snd he) hna, by simp [Walk.step, he]⟩
  | retryCurrent now =>
    rcases retryCurrent_cases w.session now with ⟨e, he⟩ | ⟨hs, hp⟩
    · rw [(step_of_error he).1]
      exact ⟨fun _ => rfl, hz⟩
    · have he := retryCurrent_ok hs hp now
      exact ⟨fun hna => absurd (congrArg Prod.snd he) hna, by simpa [Walk.step, he] using hz⟩

/-- An accepted capture is undone but for the lock. -/
theorem undone {w : Walk F T} {feet : Option (List F)} {imgW imgH : Option ℤ} {now : T}
    (ha : Accepted w.session (.capture feet imgW imgH now)) (now' : T) :
    SameWalk ((w.step (.capture feet imgW imgH now)).step (.retryCurrent now')).session w.session ↔
      w.session.imgSize ≠ none := by
  rcases capture_cases w.session feet imgW imgH now with
    ⟨e, he⟩ | ⟨x, y, _, _, _, _, he⟩ | ⟨x, y, f, spot, rfl, rfl, rfl, hst, hspot, hz, he⟩
  · exact absurd ha (step_of_error he).2
  · exact absurd ha (by simp [Accepted, he])
  · have hstep := congrArg Prod.fst he
    have hopen : (w.session.call (.capture (some f) (some x) (some y) now)).1.state = .walking ∨
        (w.session.call (.capture (some f) (some x) (some y) now)).1.state = .ready := by
      by_cases h : w.session.spots.length ≤ w.session.spotIdx + 1 <;> simp [hstep, h]
    have hpairs : (w.session.call (.capture (some f) (some x) (some y) now)).1.pairs ≠ [] := by simp [hstep]
    have hretry := congrArg Prod.fst (retryCurrent_ok hopen hpairs now')
    change SameWalk (Session.call (Session.call _ _).1 _).1 _ ↔ _
    rw [hretry, hstep]
    simp only [SameWalk, List.dropLast_concat, Nat.add_sub_cancel, hst, true_and, and_true]
    rcases hz with hz | hz <;> simp [hz]

/-! ## Whole runs -/

theorem staysAligned_of_locked {w : Walk F T} (hw : Open w) (hz : w.session.imgSize ≠ none)
    (cs : List (Call F T)) : StaysAligned w cs := by
  induction cs generalizing w with
  | nil => exact hw.1
  | cons c cs ih =>
    obtain ⟨hsame, hlock⟩ := locked_step hz c
    refine ⟨hw.1, hsame, ?_, ih (open_step hw c) hlock⟩
    rintro feet imgW imgH now now' rfl ha _
    exact (undone ha now').mpr hz

/-- As long as nothing locks the size, every call is rejected and changes nothing. -/
theorem staysAligned_skip {w : Walk F T} (hw : Open w) {c : Call F T} {e : Error}
    (h : w.session.call c = (w.session, .error e)) (cs : List (Call F T)) :
    StaysAligned w (c :: cs) ↔ StaysAligned w cs := by
  obtain ⟨hstep, hna⟩ := step_of_error h
  rw [StaysAligned, hstep]
  exact ⟨fun hall => hall.2.2.2,
    fun hrest => ⟨hw.1, fun _ => rfl, fun _ _ _ _ _ _ ha => absurd ha hna, hrest⟩⟩

theorem capture_first {s : Session F T} (hst : s.state = .walking) (hi : s.spotIdx < s.spots.length)
    (hz : s.imgSize = none) (feet : Option (List F)) (x y : ℤ) (now : T) :
    s.call (.capture feet (some x) (some y) now) = pairUp { s with imgSize := some (x, y) } feet now := by
  rw [Session.call, capture, if_neg (not_not.mpr hst), if_neg (not_le.mpr hi)]
  simp only [hz]

/-- The call that locks the size. -/
theorem staysAligned_lock {w : Walk F T} (hw : Open w) (hst : w.session.state = .walking)
    (hi : w.session.spotIdx < w.session.spots.length) (hz : w.session.imgSize = none)
    (feet : Option (List F)) (x y : ℤ) (now : T) (cs : List (Call F T)) :
    StaysAligned w (.capture feet (some x) (some y) now :: cs) ↔
      feet ≠ none ∧ ∀ now', cs.head? ≠ some (.retryCurrent now') := by
  have hfirst := fun feet => capture_first hst hi hz feet x y now
  cases feet with
  | none =>
    have he : w.session.call (.capture none (some x) (some y) now) =
        ({ w.session with imgSize := some (x, y) }, .error .raised) := hfirst none
    have hne : w.step (.capture none (some x) (some y) now) ≠ w := fun h => by
      have := congrArg (fun v => v.session.imgSize) h
      simp [Walk.step, he, hz] at this
    refine ⟨fun hall => absurd (hall.2.1 ?_) hne, fun h => absurd rfl h.1⟩
    simp [Accepted, he]
  | some f =>
    have hspot := List.getElem?_eq_getElem hi
    have ha : Accepted w.session (.capture (some f) (some x) (some y) now) := by
      simp [Accepted, hfirst, pairUp, hspot]
    have hlocked : (w.step (.capture (some f) (some x) (some y) now)).session.imgSize ≠ none := by
      simp [Walk.step, hfirst, pairUp, hspot]
    rw [StaysAligned]
    constructor
    · rintro ⟨_, _, hundo, _⟩
      exact ⟨by simp, fun now' hhead => (undone ha now').mp (hundo _ _ _ _ now' rfl ha hhead) hz⟩
    · rintro ⟨_, hhead⟩
      refine ⟨hw.1, fun hna => absurd ha hna, fun _ _ _ _ now' _ _ h => absurd h (hhead now'), ?_⟩
      exact staysAligned_of_locked (open_step hw _) hlocked cs

/-- The run of a fresh session stays aligned exactly when its first capture with a readable size
pairs a feet pixel and is not undone by the next call. -/
theorem staysAligned_iff (spots : List (List F)) (hs : spots ≠ []) (now : T) (calls : List (Call F T)) :
    StaysAligned ⟨start spots now, []⟩ calls ↔ KeepsFirst calls := by
  have hw : Open ⟨start spots now, []⟩ := open_start spots now hs
  have hi : 0 < spots.length := List.length_pos_iff.mpr hs
  induction calls with
  | nil => exact ⟨fun _ => trivial, fun _ => hw.1⟩
  | cons c cs ih =>
    cases c with
    | retryCurrent now' =>
      have he : (start spots now).call (.retryCurrent now') =
          (start spots now, .error (.calibSession "no capture to retry")) := rfl
      exact (staysAligned_skip hw he cs).trans ih
    | capture feet imgW imgH now' =>
      match imgW, imgH with
      | some x, some y => exact staysAligned_lock hw rfl hi rfl feet x y now' cs
      | none, imgH =>
        have he : (start spots now).call (.capture feet none imgH now') = (start spots now, .error .raised) := by
          simp [Session.call, capture, start, hs]
        exact (staysAligned_skip hw he cs).trans ih
      | some x, none =>
        have he : (start spots now).call (.capture feet (some x) none now') =
          (start spots now, .error .raised) := by
          simp [Session.call, capture, start, hs]
        exact (staysAligned_skip hw he cs).trans ih

/-- Two spots: the first capture at 1280x720, undone at once. -/
theorem first_capture_not_undone :
    ¬ StaysAligned (F := ℤ) (T := ℕ) ⟨start [[0, 0], [1, 0]] 0, []⟩
      [.capture (some [100, 600]) (some 1280) (some 720) 1, .retryCurrent 2] := by
  intro hall
  have hundo := hall.2.2.1 _ _ _ _ 2 rfl rfl rfl
  exact absurd hundo.2.2.2.1 (by decide)

theorem staysAligned_two_spots :
    StaysAligned (F := ℤ) (T := ℕ) ⟨start [[0, 0], [1, 0]] 0, []⟩
      [.capture (some [100, 600]) (some 1280) (some 720) 1, .capture (some [9, 9]) (some 640) (some 480) 2,
        .capture (some [200, 500]) (some 1280) (some 720) 3, .retryCurrent 4] :=
  (staysAligned_iff [[0, 0], [1, 0]] (by decide) 0 _).mpr ⟨by simp, by simp⟩

end Wavr.CalibSession
