import Mathlib.Data.Finset.Image
import Mathlib.Logic.Equiv.Basic
import Wavr.Egress

/-!
# Who is at home, and Watch

Two runs of the same Core, in the same order. In the second the persons go by other names, each by one
of its own, and where they are and how they are may be anything.
-/

namespace Wavr.Egress
open Fusion Run Text

variable {R : Type} {ρ : String → String}

/-- The same but for what is personal; the persons are renamed. -/
structure Masked (ρ : String → String) (rs rs' : RoomState R) : Prop where
  rest : suppress rs' = suppress rs
  persons : rs'.identities.map Identity.person = rs.identities.map fun i => ρ i.person

inductive MaskedInput (ρ : String → String) : Input R → Input R → Prop
  | publish (now : String) {rs rs' : RoomState R} (h : Masked ρ rs rs') :
    MaskedInput ρ (.publish now rs) (.publish now rs')
  | setWatch (now : String) (on : Bool) : MaskedInput ρ (.setWatch now on) (.setWatch now on)
  | subscribe (k : ℕ) : MaskedInput ρ (.subscribe k) (.subscribe k)
  | unsubscribe (k : ℕ) : MaskedInput ρ (.unsubscribe k) (.unsubscribe k)
  | receive (k : ℕ) : MaskedInput ρ (.receive k) (.receive k)

/-- The same item, unless both are from while Watch was off. -/
def SameView (v v' : View R) : Prop := v' = v ∨ v.watch = none ∧ v'.watch = none

def MaskedLive (ρ : String → String) (d d' : Live R) : Prop :=
  Masked ρ d.state d'.state ∧ d'.disagreement = d.disagreement

structure Indistinct (ρ : String → String) (w w' : World R) : Prop where
  latest : Dict.Rel (MaskedLive ρ) w.latest w'.latest
  watch : w'.watch = w.watch
  intrusion : w'.intrusion = w.intrusion
  effects : w'.effects = w.effects
  maxsize : w'.hub.maxsize = w.hub.maxsize
  queues : Dict.Rel (List.Forall₂ SameView) w.hub.subscribers w'.hub.subscribers

section
variable {cfg : Config} {w w' : World R} {d d' : Live R} {rs rs' : RoomState R} {k : ℕ}

/-! ## Rooms -/

/-- What does not look at what is personal sees the same. -/
theorem Masked.congr {β : Type*} (h : Masked ρ rs rs') (f : RoomState R → β) (hf : ∀ rs, f (suppress rs) = f rs) :
    f rs' = f rs := by
  rw [← hf rs', h.rest, hf]

theorem Masked.room (h : Masked ρ rs rs') : rs'.room = rs.room := h.congr RoomState.room fun _ => rfl

theorem Masked.personCount (h : Masked ρ rs rs') : rs'.personCount = rs.personCount :=
  h.congr RoomState.personCount fun _ => rfl

theorem Masked.ts (h : Masked ρ rs rs') : rs'.ts = rs.ts := h.congr RoomState.ts fun _ => rfl

theorem Masked.live (h : Masked ρ rs rs') : MaskedLive ρ (withDisagreement rs) (withDisagreement rs') :=
  ⟨h, h.congr (fun rs => disagreement rs.sources) fun _ => rfl⟩

/-- Where Watch is on the projections are one. -/
theorem MaskedLive.projectState (h : MaskedLive ρ d d') (unrecognized : Bool) :
    Egress.projectState d' true unrecognized = Egress.projectState d true unrecognized := by
  show View.mk (suppress d'.state) d'.disagreement (some true) (some unrecognized) = _
  rw [h.1.rest, h.2]
  rfl

theorem persons_masked {states states' : List (Live R)} (h : List.Forall₂ (MaskedLive ρ) states states') :
    (states'.flatMap fun d => d.state.identities.map Identity.person) =
      (states.flatMap fun d => d.state.identities.map Identity.person).map ρ := by
  induction h with
  | nil => rfl
  | cons hd _ ih =>
    rw [List.flatMap_cons, List.flatMap_cons, List.map_append, ih, hd.1.persons, List.map_map]
    rfl

/-- As many known persons, whoever they are. -/
theorem card_knownPresentPersons (hρ : Function.Injective ρ) (h0 : ρ "" = "") {states states' : List (Live R)}
    (h : List.Forall₂ (MaskedLive ρ) states states') :
    (knownPresentPersons states').card = (knownPresentPersons states).card := by
  have htruthy : ∀ p, truthy (ρ p) = truthy p := by
    intro p
    unfold truthy
    rw [decide_eq_decide, ← h0, ne_eq, hρ.eq_iff, h0]
  unfold knownPresentPersons
  rw [persons_masked h, List.filter_map]
  have hcomp : ((fun p => truthy p) ∘ ρ) = fun p => truthy p := by
    funext p
    exact htruthy p
  have himage : ∀ l : List String, (l.map ρ).toFinset = l.toFinset.image ρ := by
    intro l
    ext p
    simp
  rw [hcomp, himage, Finset.card_image_of_injective _ hρ]

theorem housePersonCount_masked {states states' : List (Live R)} (h : List.Forall₂ (MaskedLive ρ) states states') :
    housePersonCount states' = housePersonCount states := by
  have hcounts : (states'.filterMap fun d => d.state.personCount) =
      states.filterMap fun d => d.state.personCount := by
    induction h with
    | nil => rfl
    | cons hd _ ih => rw [List.filterMap_cons, List.filterMap_cons, hd.1.personCount, ih]
  unfold housePersonCount
  rw [hcounts]

/-! ## Verdicts -/

theorem roomUnrecognized_masked (h : MaskedLive ρ d d') (n : ℤ) : roomUnrecognized d' n = roomUnrecognized d n := by
  unfold roomUnrecognized
  rw [h.1.personCount]

theorem roomVerdict_masked (h : MaskedLive ρ d d') (n : ℤ) (now room : String) :
    roomVerdict n now room d' = roomVerdict n now room d := by
  unfold roomVerdict
  rw [roomUnrecognized_masked h, h.1.personCount, h.1.ts]

theorem houseVerdict_masked {states states' : List (Live R)} (h : List.Forall₂ (MaskedLive ρ) states states') (n : ℤ)
    (ts : Option String) (now : String) : houseVerdict n ts now states' = houseVerdict n ts now states := by
  unfold houseVerdict
  rw [housePersonCount_masked h]

theorem Indistinct.known (hρ : Function.Injective ρ) (h0 : ρ "" = "") (h : Indistinct ρ w w') :
    Egress.known w' = Egress.known w :=
  congrArg Nat.cast (card_knownPresentPersons hρ h0 h.latest.values)

theorem Indistinct.gate (h : Indistinct ρ w w') : Egress.gate cfg w' = Egress.gate cfg w := by
  unfold Egress.gate
  rw [h.watch]

theorem Indistinct.view (hρ : Function.Injective ρ) (h0 : ρ "" = "") (h : Indistinct ρ w w')
    (hd : MaskedLive ρ d d') : SameView (Egress.view cfg w d) (Egress.view cfg w' d') := by
  unfold Egress.view
  rw [h.gate, h.known hρ h0, roomUnrecognized_masked hd, h.watch]
  cases w.watch with
  | true => exact .inl (hd.projectState _)
  | false => exact .inr ⟨rfl, rfl⟩

theorem Indistinct.assess (h : Indistinct ρ w w') (v : Watch.Verdict) :
    Indistinct ρ (Egress.assess cfg w v) (Egress.assess cfg w' v) := by
  refine ⟨h.latest, h.watch, ?_, ?_, h.maxsize, h.queues⟩
  · show (Watch.record v w'.intrusion).2 = (Watch.record v w.intrusion).2
    rw [h.intrusion]
  · unfold Egress.assess
    dsimp only
    rw [h.intrusion, h.effects]

theorem Indistinct.assessAll (h : Indistinct ρ w w') (vs : List Watch.Verdict) :
    Indistinct ρ (vs.foldl (Egress.assess cfg) w) (vs.foldl (Egress.assess cfg) w') := by
  induction vs generalizing w w' with
  | nil => exact h
  | cons v vs ih => exact ih (h.assess v)

/-! ## Steps -/

theorem forall₂_offer {n : ℤ} {v v' : View R} {q q' : List (View R)} (hv : SameView v v')
    (h : List.Forall₂ SameView q q') : List.Forall₂ SameView (Fanout.offer n v q) (Fanout.offer n v' q') := by
  have htail : List.Forall₂ SameView q.tail q'.tail := by
    cases h with
    | nil => exact .nil
    | cons _ hrest => exact hrest
  have hlen := h.length_eq
  have hlen' := htail.length_eq
  unfold Fanout.offer Fanout.putNowait
  rw [hlen, hlen']
  by_cases hfull : 0 < n ∧ n ≤ q'.length
  · rw [if_pos hfull, if_pos hfull]
    dsimp only
    by_cases hstill : 0 < n ∧ n ≤ q'.tail.length
    · rw [if_pos hstill, if_pos hstill]
      exact htail
    · rw [if_neg hstill, if_neg hstill]
      exact List.rel_append htail (.cons hv .nil)
  · rw [if_neg hfull, if_neg hfull]
    exact List.rel_append h (.cons hv .nil)

theorem Indistinct.learn (h : Indistinct ρ w w') (hd : MaskedLive ρ d d') :
    Indistinct ρ (w.learn d) (w'.learn d') := by
  refine ⟨?_, h.watch, h.intrusion, h.effects, h.maxsize, h.queues⟩
  unfold World.learn
  rw [hd.1.room]
  exact h.latest.set _ hd

theorem Indistinct.publish (hρ : Function.Injective ρ) (h0 : ρ "" = "") (h : Indistinct ρ w w')
    (hd : MaskedLive ρ d d') (now : String) :
    Indistinct ρ (Egress.publish cfg now d w) (Egress.publish cfg now d' w') := by
  have hlearn := h.learn hd
  have hview : SameView (Egress.view cfg (w.learn d) d) (Egress.view cfg (w'.learn d') d') := hlearn.view hρ h0 hd
  have hinner : Indistinct ρ
      (if Egress.gate cfg (w.learn d) then
        Egress.assess cfg (Egress.assess cfg (w.learn d)
          (roomVerdict (Egress.known (w.learn d)) now d.state.room d))
          (houseVerdict (Egress.known (w.learn d)) (some d.state.ts) now (w.learn d).latest.values)
      else w.learn d)
      (if Egress.gate cfg (w'.learn d') then
        Egress.assess cfg (Egress.assess cfg (w'.learn d')
          (roomVerdict (Egress.known (w'.learn d')) now d'.state.room d'))
          (houseVerdict (Egress.known (w'.learn d')) (some d'.state.ts) now (w'.learn d').latest.values)
      else w'.learn d') := by
    rw [hlearn.gate, hlearn.known hρ h0, hd.1.room, hd.1.ts, roomVerdict_masked hd,
      houseVerdict_masked hlearn.latest.values]
    split
    · exact (hlearn.assess _).assess _
    · exact hlearn
  refine ⟨hinner.latest, hinner.watch, hinner.intrusion, hinner.effects, hinner.maxsize, ?_⟩
  show Dict.Rel _ (Dict.mapValues _ _) (Dict.mapValues _ _)
  refine hinner.queues.mapValues fun q q' hq => ?_
  rw [hinner.maxsize]
  exact forall₂_offer hview hq

theorem Indistinct.setWatch (hρ : Function.Injective ρ) (h0 : ρ "" = "") (h : Indistinct ρ w w') (now : String)
    (on : Bool) : Indistinct ρ (Egress.setWatch cfg now on w) (Egress.setWatch cfg now on w') := by
  have hset : Indistinct ρ { w with watch := on } { w' with watch := on } :=
    ⟨h.latest, rfl, h.intrusion, h.effects, h.maxsize, h.queues⟩
  unfold Egress.setWatch
  dsimp only
  cases on with
  | false =>
    refine ⟨h.latest, rfl, ?_, ?_, h.maxsize, h.queues⟩
    · show Watch.reset w'.intrusion = Watch.reset w.intrusion
      rw [h.intrusion]
    · show w'.effects ++ _ = w.effects ++ _
      rw [h.effects, h.intrusion]
  | true =>
    rw [if_pos rfl, if_pos rfl]
    split
    · have hverdicts : (w'.latest.entries.map fun e => roomVerdict (Egress.known { w' with watch := true }) now e.1 e.2) =
          w.latest.entries.map fun e => roomVerdict (Egress.known { w with watch := true }) now e.1 e.2 := by
        rw [hset.known hρ h0]
        exact (h.latest.map_entries fun room d d' hd => (roomVerdict_masked hd _ now room).symm).symm
      rw [hverdicts, hset.known hρ h0, houseVerdict_masked h.latest.values]
      exact (hset.assessAll _).assess _
    · exact hset

theorem Indistinct.receive (h : Indistinct ρ w w') (k : ℕ) :
    Indistinct ρ { w with hub := Fanout.receive k w.hub } { w' with hub := Fanout.receive k w'.hub } := by
  have hget := h.queues.get? k
  refine ⟨h.latest, h.watch, h.intrusion, h.effects, ?_, ?_⟩
  · show (Fanout.step w'.hub (.receive k)).maxsize = (Fanout.step w.hub (.receive k)).maxsize
    rw [Fanout.maxsize_step, Fanout.maxsize_step, h.maxsize]
  · show Dict.Rel _ (Fanout.receive k w.hub).subscribers (Fanout.receive k w'.hub).subscribers
    unfold Fanout.receive
    revert hget
    cases w.hub.subscribers.get? k with
    | none =>
      cases w'.hub.subscribers.get? k with
      | none => exact fun _ => h.queues
      | some q' => exact fun hget => by cases hget
    | some q =>
      cases w'.hub.subscribers.get? k with
      | none => exact fun hget => by cases hget
      | some q' =>
        intro hget
        cases hget with
        | some hq =>
          refine h.queues.set k ?_
          cases hq with
          | nil => exact .nil
          | cons _ hrest => exact hrest

theorem Indistinct.step (hρ : Function.Injective ρ) (h0 : ρ "" = "") (h : Indistinct ρ w w') {i i' : Input R}
    (hi : MaskedInput ρ i i') : Indistinct ρ (Egress.step cfg w i) (Egress.step cfg w' i') := by
  cases hi with
  | publish now hm => exact h.publish hρ h0 hm.live now
  | setWatch now on => exact h.setWatch hρ h0 now on
  | subscribe k => exact ⟨h.latest, h.watch, h.intrusion, h.effects, h.maxsize, h.queues.setDefault k .nil⟩
  | unsubscribe k => exact ⟨h.latest, h.watch, h.intrusion, h.effects, h.maxsize, h.queues.erase k⟩
  | receive k => exact h.receive k

theorem Indistinct.delivered (h : Indistinct ρ w w') {i i' : Input R} (hi : MaskedInput ρ i i') (k : ℕ) :
    List.Forall₂ SameView (Egress.delivered k w i).toList (Egress.delivered k w' i').toList := by
  cases hi with
  | receive j =>
    simp only [Egress.delivered, Fanout.head]
    split
    · have hget := h.queues.get? k
      revert hget
      cases w.hub.subscribers.get? k with
      | none =>
        cases w'.hub.subscribers.get? k with
        | none => exact fun _ => .nil
        | some q' => exact fun hget => by cases hget
      | some q =>
        cases w'.hub.subscribers.get? k with
        | none => exact fun hget => by cases hget
        | some q' =>
          intro hget
          cases hget with
          | some hq =>
            cases hq with
            | nil => exact .nil
            | cons hv _ => exact .cons hv .nil
    · exact .nil
  | publish now hm => exact .nil
  | setWatch now on => exact .nil
  | subscribe j => exact .nil
  | unsubscribe j => exact .nil

/-! ## Runs -/

theorem Indistinct.run (hρ : Function.Injective ρ) (h0 : ρ "" = "") (h : Indistinct ρ w w') {is is' : List (Input R)}
    (his : List.Forall₂ (MaskedInput ρ) is is') (k : ℕ) :
    Indistinct ρ (finish (Egress.step cfg) w is) (finish (Egress.step cfg) w' is') ∧
      List.Forall₂ SameView (outputs (Egress.step cfg) (Egress.delivered k) w is)
        (outputs (Egress.step cfg) (Egress.delivered k) w' is') := by
  induction his generalizing w w' with
  | nil => exact ⟨h, .nil⟩
  | cons hi _ ih =>
    obtain ⟨hend, hout⟩ := ih (h.step hρ h0 hi)
    exact ⟨hend, List.rel_append (h.delivered hi k) hout⟩

end

end Wavr.Egress
