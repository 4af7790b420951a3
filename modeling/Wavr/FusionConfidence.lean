import Mathlib.Algebra.Order.BigOperators.Group.List
import Mathlib.Algebra.Order.Field.Basic
import Mathlib.Tactic.Ring
import Wavr.Argmax
import Wavr.FusionRooms

/-!
# Confidence and its evidence

Over exact arithmetic, the confidence of a room is the share of the mass that says present,
times the best single piece of evidence.
-/

namespace Wavr.Fusion
open Run

variable {asUtc : String → Option ℤ}

/-! ## Rounding -/

theorem roundHalfEven_eq_floor_or (q : ℚ) : roundHalfEven q = q.floor ∨ roundHalfEven q = q.floor + 1 := by
  unfold roundHalfEven
  dsimp only
  split
  · exact .inl rfl
  · exact .inr rfl

theorem roundHalfEven_mono {x y : ℚ} (h : x ≤ y) : roundHalfEven x ≤ roundHalfEven y := by
  have hfloor : x.floor ≤ y.floor := Rat.floor_monotone h
  rcases hfloor.lt_or_eq with hlt | heq
  · have hx : roundHalfEven x ≤ x.floor + 1 := by
      rcases roundHalfEven_eq_floor_or x with hx | hx <;> omega
    have hy : y.floor ≤ roundHalfEven y := by
      rcases roundHalfEven_eq_floor_or y with hy | hy <;> omega
    omega
  · -- over one floor the fractions decide, and `x` has the smaller one
    unfold roundHalfEven
    dsimp only
    rw [heq]
    have hfrac : x - y.floor ≤ y - y.floor := sub_le_sub_right h _
    split
    · split <;> omega
    · rename_i hx
      rw [if_neg]
      rintro (hy | ⟨hy, heven⟩)
      · exact hx (.inl (hfrac.trans_lt hy))
      · rcases (hfrac.trans_eq hy).lt_or_eq with hlt | hhalf
        · exact hx (.inl hlt)
        · exact hx (.inr ⟨hhalf, heven⟩)

theorem round3_mono {x y : ℚ} (h : x ≤ y) : ratArith.round3 x ≤ ratArith.round3 y := by
  have hle : roundHalfEven (x * 1000) ≤ roundHalfEven (y * 1000) :=
    roundHalfEven_mono (mul_le_mul_of_nonneg_right h (by decide))
  show (roundHalfEven (x * 1000) : ℚ) / 1000 ≤ (roundHalfEven (y * 1000) : ℚ) / 1000
  exact div_le_div_of_nonneg_right (Int.cast_le.mpr hle) (by decide)

theorem round3_zero : ratArith.round3 0 = 0 := by decide +kernel

theorem round3_one : ratArith.round3 1 = 1 := by decide +kernel

/-! ## Agreement -/

/-- The share of the mass that says present. -/
def agreement (present absent : ℚ) : ℚ :=
  if 0 < present + absent then present / (present + absent) else 0

section
variable {p a p' a' : ℚ}

theorem agreement_nonneg (hp : 0 ≤ p) : 0 ≤ agreement p a := by
  unfold agreement
  split
  · rename_i h
    exact div_nonneg hp h.le
  · exact le_refl 0

theorem agreement_le_one (ha : 0 ≤ a) : agreement p a ≤ 1 := by
  unfold agreement
  split
  · rename_i h
    exact (div_le_one h).mpr (le_add_of_nonneg_right ha)
  · exact zero_le_one

/-- Less mass present and more absent leave no more agreement. -/
theorem agreement_anti (hp' : 0 ≤ p') (ha : 0 ≤ a) (hp : p' ≤ p) (haa : a ≤ a') :
    agreement p' a' ≤ agreement p a := by
  by_cases hpos : 0 < p' + a'
  · by_cases hz : p' = 0
    · rw [agreement, if_pos hpos, hz, zero_div]
      exact agreement_nonneg (hp'.trans hp)
    · have hp0 : 0 < p' := lt_of_le_of_ne hp' (Ne.symm hz)
      have hden : 0 < p + a := add_pos_of_pos_of_nonneg (hp0.trans_le hp) ha
      rw [agreement, if_pos hpos, agreement, if_pos hden, div_le_div_iff₀ hpos hden]
      -- p' (p + a) ≤ p (p' + a'), term by term
      have hcross : p' * a ≤ p * a' := mul_le_mul hp haa ha (hp'.trans hp)
      calc p' * (p + a) = p * p' + p' * a := by ring
        _ ≤ p * p' + p * a' := by gcongr
        _ = p * (p' + a') := by ring
  · rw [agreement, if_neg hpos]
    exact agreement_nonneg (hp'.trans hp)

end

/-! ## The tally -/

section
variable (cfg : Config ratArith) (env : Env ℚ) (room : String) (ref : ℤ)
  (es : List (Stored (R := ℚ) asUtc))

/-- Weight, freshness, reliability and the event's own confidence. -/
def evidence (e : Stored (R := ℚ) asUtc) : ℚ :=
  weight cfg e * decay cfg ref e * (relFactor ratArith env room e).1 * e.event.confidence

def presentMass : ℚ :=
  (es.map fun e => if e.event.presence then mass cfg env room ref e else 0).sum

def absentMass : ℚ :=
  (es.map fun e => if e.event.presence then 0 else mass cfg env room ref e).sum

def tallyStep (t : Tally ℚ) (e : Stored (R := ℚ) asUtc) : Tally ℚ :=
  let m := mass cfg env room ref e
  if e.event.presence then ⟨t.num + m, t.den + m, ratArith.max t.strength m⟩
  else { t with den := t.den + m }

variable {cfg env room ref es} in
theorem presentMass_cons (e : Stored (R := ℚ) asUtc) : presentMass cfg env room ref (e :: es) =
    (if e.event.presence then mass cfg env room ref e else 0) + presentMass cfg env room ref es :=
  List.sum_cons

variable {cfg env room ref es} in
theorem absentMass_cons (e : Stored (R := ℚ) asUtc) : absentMass cfg env room ref (e :: es) =
    (if e.event.presence then 0 else mass cfg env room ref e) + absentMass cfg env room ref es :=
  List.sum_cons

theorem tally_foldl (t : Tally ℚ) :
    (es.foldl (tallyStep cfg env room ref) t).num = t.num + presentMass cfg env room ref es ∧
    (es.foldl (tallyStep cfg env room ref) t).den =
      t.den + (presentMass cfg env room ref es + absentMass cfg env room ref es) := by
  induction es generalizing t with
  | nil => simp [presentMass, absentMass]
  | cons e es ih =>
    obtain ⟨hnum, hden⟩ := ih (tallyStep cfg env room ref t e)
    rw [List.foldl_cons, hnum, hden, presentMass_cons, absentMass_cons, tallyStep]
    split
    · exact ⟨by ring, by ring⟩
    · exact ⟨by ring, by ring⟩

theorem tally_num : (tally cfg env room ref es).num = presentMass cfg env room ref es :=
  (tally_foldl cfg env room ref es ⟨0, 0, 0⟩).1.trans (zero_add _)

theorem tally_den : (tally cfg env room ref es).den =
    presentMass cfg env room ref es + absentMass cfg env room ref es :=
  (tally_foldl cfg env room ref es ⟨0, 0, 0⟩).2.trans (zero_add _)

theorem ratArith_max (a b : ℚ) : ratArith.max a b = max a b := by
  unfold Arith.max
  split
  · rename_i h
    exact (max_eq_right (of_decide_eq_true h).le).symm
  · rename_i h
    exact (max_eq_left (not_lt.mp fun hlt => h (decide_eq_true hlt))).symm

/-- The best present evidence, by what bounds it. -/
theorem tally_strength_le {x : ℚ} : (tally cfg env room ref es).strength ≤ x ↔
    0 ≤ x ∧ ∀ e ∈ es, e.event.presence = true → mass cfg env room ref e ≤ x := by
  have key : ∀ t : Tally ℚ, (es.foldl (tallyStep cfg env room ref) t).strength ≤ x ↔
      t.strength ≤ x ∧ ∀ e ∈ es, e.event.presence = true → mass cfg env room ref e ≤ x := by
    intro t
    induction es generalizing t with
    | nil => simp
    | cons e es ih =>
      rw [List.foldl_cons, ih]
      cases hpres : e.event.presence <;> simp [tallyStep, hpres, ratArith_max, and_assoc]
  exact key ⟨0, 0, 0⟩

theorem confidence_eq : confidence cfg env room ref es = ratArith.round3 (min 1 (max 0
    (agreement (presentMass cfg env room ref es) (absentMass cfg env room ref es) *
      (tally cfg env room ref es).strength))) := by
  have hagree : (if ratArith.lt (ratArith.lit 0) (tally cfg env room ref es).den then
      ratArith.div (tally cfg env room ref es).num (tally cfg env room ref es).den
      else ratArith.lit 0) =
      agreement (presentMass cfg env room ref es) (absentMass cfg env room ref es) := by
    rw [tally_num, tally_den, agreement]
    exact if_congr decide_eq_true_iff rfl rfl
  have hmin : ∀ a b : ℚ, ratArith.min a b = min a b := by
    intro a b
    unfold Arith.min
    split
    · rename_i h
      exact (min_eq_right (of_decide_eq_true h).le).symm
    · rename_i h
      exact (min_eq_left (not_lt.mp fun hlt => h (decide_eq_true hlt))).symm
  unfold confidence
  dsimp only
  rw [hagree, hmin, ratArith_max]
  rfl

end

/-! ## Signs -/

/-- No modality weighs less than nothing. -/
def WeightsNonneg (cfg : Config ratArith) : Prop := ∀ m w, cfg.weights.get? m = some w → 0 ≤ w

/-- Its own confidence and its reliability factor are in range. -/
structure InRange (env : Env ℚ) (room : String) (e : Stored (R := ℚ) asUtc) : Prop where
  confidence : 0 ≤ e.event.confidence ∧ e.event.confidence ≤ 1
  reliability : 0 ≤ (relFactor ratArith env room e).1 ∧ (relFactor ratArith env room e).1 ≤ 1

section
variable {cfg : Config ratArith} {env : Env ℚ} {room : String} {ref : ℤ}
  {e : Stored (R := ℚ) asUtc} {es : List (Stored (R := ℚ) asUtc)}

theorem decay_nonneg : 0 ≤ decay cfg ref e := by
  unfold decay freshness
  split
  · exact zero_le_one
  · split
    · exact le_refl 0
    · rename_i h
      rw [Bool.not_eq_true, Bool.or_eq_false_iff] at h
      -- on the slope: older than fresh, and not yet stale
      have hage : ageS ratArith ref e < cfg.staleS := not_le.mp (of_decide_eq_false h.1)
      have hwindow : cfg.freshnessS < cfg.staleS := not_le.mp (of_decide_eq_false h.2)
      exact div_nonneg (sub_nonneg.mpr hage.le) (sub_nonneg.mpr hwindow.le)

theorem WeightsNonneg.weight (hw : WeightsNonneg cfg) : 0 ≤ weight cfg e := by
  unfold Fusion.weight
  cases h : cfg.weights.get? e.event.modality with
  | none => exact div_nonneg (by decide) (by decide)
  | some w => exact hw _ w h

theorem trust_nonneg (hw : WeightsNonneg cfg) (hr : 0 ≤ (relFactor ratArith env room e).1) :
    0 ≤ weight cfg e * decay cfg ref e * (relFactor ratArith env room e).1 :=
  mul_nonneg (mul_nonneg hw.weight decay_nonneg) hr

theorem mass_nonneg (hw : WeightsNonneg cfg) (he : InRange env room e) :
    0 ≤ mass cfg env room ref e := by
  unfold mass
  dsimp only
  split
  · exact trust_nonneg hw he.reliability.1
  · exact mul_nonneg (trust_nonneg hw he.reliability.1) he.confidence.1

theorem mass_present (hp : e.event.presence = true) :
    mass cfg env room ref e = evidence cfg env room ref e := by
  have hnot : dissents cfg ref e = false := by rw [dissents, hp]; rfl
  rw [mass, hnot]
  rfl

/-- A source that is not live has decayed to nothing. -/
theorem evidence_dead (hp : e.event.presence = true) (hl : live cfg ref e = false) :
    evidence cfg env room ref e = 0 := by
  rw [live, hp, Bool.true_and] at hl
  have hzero : decay cfg ref e = 0 := le_antisymm (not_lt.mp (of_decide_eq_false hl)) decay_nonneg
  rw [evidence, hzero, mul_zero, zero_mul, zero_mul]

theorem presentMass_nonneg (hw : WeightsNonneg cfg) (hes : ∀ e ∈ es, InRange env room e) :
    0 ≤ presentMass cfg env room ref es := by
  apply List.sum_nonneg
  intro m hm
  obtain ⟨e, he, rfl⟩ := List.mem_map.mp hm
  split
  · exact mass_nonneg hw (hes e he)
  · exact le_refl 0

theorem absentMass_nonneg (hw : WeightsNonneg cfg) (hes : ∀ e ∈ es, InRange env room e) :
    0 ≤ absentMass cfg env room ref es := by
  apply List.sum_nonneg
  intro m hm
  obtain ⟨e, he, rfl⟩ := List.mem_map.mp hm
  split
  · exact le_refl 0
  · exact mass_nonneg hw (hes e he)

theorem strength_nonneg : 0 ≤ (tally cfg env room ref es).strength :=
  ((tally_strength_le cfg env room ref es).mp (le_refl _)).1

/-! ## Bounds -/

theorem confidence_unit : 0 ≤ confidence cfg env room ref es ∧ confidence cfg env room ref es ≤ 1 := by
  rw [confidence_eq]
  constructor
  · exact round3_zero.symm.trans_le (round3_mono (le_min zero_le_one (le_max_left _ _)))
  · exact (round3_mono (min_le_left _ _)).trans_eq round3_one

theorem confidence_le_strength (hw : WeightsNonneg cfg) (hes : ∀ e ∈ es, InRange env room e) :
    confidence cfg env room ref es ≤ ratArith.round3 (tally cfg env room ref es).strength := by
  rw [confidence_eq]
  apply round3_mono
  refine (min_le_right _ _).trans (max_le strength_nonneg ?_)
  exact mul_le_of_le_one_left strength_nonneg (agreement_le_one (absentMass_nonneg hw hes))

/-- Without a live source, nothing. -/
theorem confidence_unsupported (h : ∀ e ∈ es, live cfg ref e = false) :
    confidence cfg env room ref es = 0 := by
  have hstrength : (tally cfg env room ref es).strength = 0 := by
    refine le_antisymm ((tally_strength_le cfg env room ref es).mpr ⟨le_refl 0, ?_⟩) strength_nonneg
    intro e he hp
    rw [mass_present hp, evidence_dead hp (h e he)]
  rw [confidence_eq, hstrength, mul_zero, max_self, min_eq_right zero_le_one, round3_zero]

/-- With one, no more than the best of them. -/
theorem confidence_supported (hw : WeightsNonneg cfg) (hes : ∀ e ∈ es, InRange env room e)
    (h : ∃ e ∈ es, live cfg ref e = true) :
    ∃ e ∈ es, live cfg ref e = true ∧
      (∀ e' ∈ es, live cfg ref e' = true → evidence cfg env room ref e' ≤ evidence cfg env room ref e) ∧
      confidence cfg env room ref es ≤ ratArith.round3 (evidence cfg env room ref e) := by
  obtain ⟨e₀, he₀, hlive₀⟩ := h
  have hnonneg : ∀ e ∈ es, live cfg ref e = true → 0 ≤ evidence cfg env room ref e := by
    intro e he hl
    rw [← mass_present (Bool.and_eq_true _ _ ▸ hl).1]
    exact mass_nonneg hw (hes e he)
  have habove : (-1 : ℚ) < evidence cfg env room ref e₀ :=
    neg_one_lt_zero.trans_le (hnonneg e₀ he₀ hlive₀)
  obtain ⟨e, hbest, -⟩ := Argmax.exists_heaviest id e₀ ⟨e₀, he₀, hlive₀, habove⟩
  refine ⟨e, hbest.mem, hbest.able, hbest.max, (confidence_le_strength hw hes).trans (round3_mono ?_)⟩
  refine (tally_strength_le cfg env room ref es).mpr ⟨hnonneg e hbest.mem hbest.able, ?_⟩
  intro e' he' hp
  rw [mass_present hp]
  cases hl : live cfg ref e' with
  | true => exact hbest.max e' he' hl
  | false =>
    rw [evidence_dead hp hl]
    exact hnonneg e hbest.mem hbest.able

/-! ## More evidence of absence -/

theorem presentMass_perm {es es' : List (Stored (R := ℚ) asUtc)} (h : es.Perm es') :
    presentMass cfg env room ref es = presentMass cfg env room ref es' := (h.map _).sum_eq

theorem absentMass_perm {es es' : List (Stored (R := ℚ) asUtc)} (h : es.Perm es') :
    absentMass cfg env room ref es = absentMass cfg env room ref es' := (h.map _).sum_eq

theorem le_strength (he : e ∈ es) (hp : e.event.presence = true) :
    mass cfg env room ref e ≤ (tally cfg env room ref es).strength :=
  ((tally_strength_le cfg env room ref es).mp (le_refl _)).2 e he hp

/-- Less present mass, more absent mass and no better evidence leave no more confidence. -/
theorem confidence_anti {es es' : List (Stored (R := ℚ) asUtc)}
    (hp' : 0 ≤ presentMass cfg env room ref es') (ha : 0 ≤ absentMass cfg env room ref es)
    (hp : presentMass cfg env room ref es' ≤ presentMass cfg env room ref es)
    (haa : absentMass cfg env room ref es ≤ absentMass cfg env room ref es')
    (hs : (tally cfg env room ref es').strength ≤ (tally cfg env room ref es).strength) :
    confidence cfg env room ref es' ≤ confidence cfg env room ref es := by
  rw [confidence_eq, confidence_eq]
  apply round3_mono
  refine min_le_min (le_refl 1) (max_le_max (le_refl 0) ?_)
  exact mul_le_mul (agreement_anti hp' ha hp haa) hs strength_nonneg
    (agreement_nonneg (hp'.trans hp))

theorem presentMass_middle (pre post : List (Stored (R := ℚ) asUtc)) :
    presentMass cfg env room ref (pre ++ e :: post) =
      (if e.event.presence then mass cfg env room ref e else 0) +
        presentMass cfg env room ref (pre ++ post) := by
  rw [presentMass_perm List.perm_middle, presentMass_cons]

theorem absentMass_middle (pre post : List (Stored (R := ℚ) asUtc)) :
    absentMass cfg env room ref (pre ++ e :: post) =
      (if e.event.presence then 0 else mass cfg env room ref e) +
        absentMass cfg env room ref (pre ++ post) := by
  rw [absentMass_perm List.perm_middle, absentMass_cons]

/-- An event that says absent is no evidence, whatever it takes the place of. -/
theorem strength_absent (pre post old : List (Stored (R := ℚ) asUtc))
    (habs : e.event.presence = false) :
    (tally cfg env room ref (pre ++ e :: post)).strength ≤
      (tally cfg env room ref (pre ++ (old ++ post))).strength := by
  refine (tally_strength_le cfg env room ref _).mpr ⟨strength_nonneg, fun e' he' hp => ?_⟩
  refine le_strength ?_ hp
  rcases List.mem_append.mp he' with h | h
  · exact List.mem_append_left _ h
  · rcases List.mem_cons.mp h with rfl | h
    · rw [habs] at hp
      cases hp
    · exact List.mem_append_right _ (List.mem_append_right _ h)

/-- An event that says absent takes the place of `old`, or of nothing. -/
theorem confidence_absent {pre post : List (Stored (R := ℚ) asUtc)}
    {old : Option (Stored (R := ℚ) asUtc)} (hw : WeightsNonneg cfg)
    (hes : ∀ e ∈ pre ++ (old.toList ++ post), InRange env room e) (he : InRange env room e)
    (habs : e.event.presence = false)
    (hold : ∀ o ∈ old, o.event.presence = false →
      mass cfg env room ref o ≤ mass cfg env room ref e) :
    confidence cfg env room ref (pre ++ e :: post) ≤
      confidence cfg env room ref (pre ++ (old.toList ++ post)) := by
  have hrest : ∀ e ∈ pre ++ post, InRange env room e := by
    intro e he
    rcases List.mem_append.mp he with h | h
    · exact hes e (List.mem_append_left _ h)
    · exact hes e (List.mem_append_right _ (List.mem_append_right _ h))
  have hpresent : presentMass cfg env room ref (pre ++ e :: post) =
      presentMass cfg env room ref (pre ++ post) := by
    rw [presentMass_middle, habs]
    exact zero_add _
  have habsent : absentMass cfg env room ref (pre ++ e :: post) =
      mass cfg env room ref e + absentMass cfg env room ref (pre ++ post) := by
    rw [absentMass_middle, habs]
    rfl
  -- the present mass and the strength can only fall, and the absent mass can only rise
  refine confidence_anti ?_ (absentMass_nonneg hw hes) ?_ ?_ (strength_absent pre post _ habs)
  · rw [hpresent]
    exact presentMass_nonneg hw hrest
  · rw [hpresent]
    cases old with
    | none => exact le_refl _
    | some o =>
      rw [Option.toList_some, List.singleton_append, presentMass_middle]
      refine le_add_of_nonneg_left ?_
      split
      · exact mass_nonneg hw (hes o (by simp))
      · exact le_refl 0
  · rw [habsent]
    cases old with
    | none => exact le_add_of_nonneg_left (mass_nonneg hw he)
    | some o =>
      rw [Option.toList_some, List.singleton_append, absentMass_middle]
      refine add_le_add_left ?_ _
      split
      · exact mass_nonneg hw he
      · rename_i hp
        exact hold o rfl (Bool.not_eq_true _ ▸ hp)

/-- A look at the room, by a source that can prove absence, that finds nobody. -/
def Denies (room : String) (e : Stored (R := ℚ) asUtc) : Prop :=
  e.event.room = room ∧ e.event.presence = false ∧ isTrustedAbsence e.event.modality = true

/-- It weighs in with all its trust, also where that has decayed to nothing. -/
theorem Denies.mass (h : Denies room e) : mass cfg env room ref e =
    weight cfg e * decay cfg ref e * (relFactor ratArith env room e).1 := by
  obtain ⟨-, hp, ht⟩ := h
  have hd : dissents cfg ref e = decide (0 < decay cfg ref e) := by
    rw [dissents, hp, ht, Bool.and_true]
    rfl
  unfold Fusion.mass
  dsimp only
  rw [hd]
  split
  · rfl
  · rename_i hdead
    have hzero : decay cfg ref e = 0 :=
      le_antisymm (not_lt.mp fun hlt => hdead (decide_eq_true hlt)) decay_nonneg
    show weight cfg e * decay cfg ref e * _ * _ = weight cfg e * decay cfg ref e * _
    rw [hzero, mul_zero, zero_mul, zero_mul]

/-- Of one sensor, the fresher denial has the more mass. -/
theorem Denies.mass_le (hw : WeightsNonneg cfg) (h : Denies room e) {o : Stored (R := ℚ) asUtc}
    (hkey : key o = key e) (hroom : o.event.room = room) (hp : o.event.presence = false)
    (hr : 0 ≤ (relFactor ratArith env room e).1) (hfresh : decay cfg ref o ≤ decay cfg ref e) :
    Fusion.mass cfg env room ref o ≤ Fusion.mass cfg env room ref e := by
  obtain ⟨hmodality, hsensor⟩ := Prod.mk.inj hkey
  have ho : Denies room o := ⟨hroom, hp, by rw [hmodality]; exact h.2.2⟩
  have hweight : weight cfg o = weight cfg e := by rw [weight, weight, hmodality]
  have hrel : relFactor ratArith env room o = relFactor ratArith env room e := by
    rw [relFactor, relFactor, hsensor]
  rw [ho.mass, h.mass, hweight, hrel]
  exact mul_le_mul_of_nonneg_right (mul_le_mul_of_nonneg_left hfresh hw.weight) hr

theorem confidence_silent (hp : e.event.presence = false) (hc : e.event.confidence = 0)
    (ht : isTrustedAbsence e.event.modality = false) (es : List (Stored (R := ℚ) asUtc)) :
    confidence cfg env room ref (es ++ [e]) = confidence cfg env room ref es := by
  have hmass : mass cfg env room ref e = 0 := by
    have hd : dissents cfg ref e = false := by rw [dissents, ht, Bool.and_false]
    unfold mass
    dsimp only
    rw [hd, hc]
    exact mul_zero _
  have hsnoc : tally cfg env room ref (es ++ [e]) =
      tallyStep cfg env room ref (tally cfg env room ref es) e := List.foldl_append
  rw [tallyStep, hmass, hp, if_neg Bool.false_ne_true, add_zero] at hsnoc
  rw [confidence, confidence, hsnoc]

/-! ## What the confidence of a room owes its events -/

structure Supported (cfg : Config ratArith) (env : Env ℚ) (room : String) (ref : ℤ)
    (s : Engine (R := ℚ) asUtc) : Prop where
  unit : 0 ≤ confidence cfg env room ref (s.events room) ∧
    confidence cfg env room ref (s.events room) ≤ 1
  supported : (∃ e ∈ s.events room, live cfg ref e = true) →
    ∃ e ∈ s.events room, live cfg ref e = true ∧
      (∀ e' ∈ s.events room, live cfg ref e' = true →
        evidence cfg env room ref e' ≤ evidence cfg env room ref e) ∧
      confidence cfg env room ref (s.events room) ≤ ratArith.round3 (evidence cfg env room ref e)
  unsupported : (∀ e ∈ s.events room, live cfg ref e = false) →
    confidence cfg env room ref (s.events room) = 0
  /-- Where it replaces an older denial of the same sensor, it is no less fresh. -/
  denied : ∀ e : Stored (R := ℚ) asUtc, Denies room e → InRange env room e →
    (∀ o, (s.sensors room).get? (key e) = some o → o.event.presence = false →
      decay cfg ref o ≤ decay cfg ref e) →
    confidence cfg env room ref ((s.put e).events room) ≤
      confidence cfg env room ref (s.events room)
  silent : ∀ e : Stored (R := ℚ) asUtc, e.event.room = room → e.event.presence = false →
    e.event.confidence = 0 → isTrustedAbsence e.event.modality = false →
    (s.sensors room).get? (key e) = none →
    confidence cfg env room ref ((s.put e).events room) =
      confidence cfg env room ref (s.events room)

theorem Keyed.supported {s : Engine (R := ℚ) asUtc} (hkeyed : Keyed s) (hw : WeightsNonneg cfg)
    (hes : ∀ e ∈ s.events room, InRange env room e) : Supported cfg env room ref s where
  unit := confidence_unit
  supported := confidence_supported hw hes
  unsupported := confidence_unsupported
  denied := by
    rintro e ⟨rfl, hp, ht⟩ he hfresh
    obtain ⟨pre, post, hput, hevents⟩ := exists_events_put s e
    rw [hput, hevents]
    rw [hevents] at hes
    refine confidence_absent hw hes he hp fun o ho hpo => ?_
    obtain ⟨hkey, hroom⟩ := hkeyed _ _ o ho
    exact Denies.mass_le hw ⟨rfl, hp, ht⟩ hkey hroom hpo he.reliability.1 (hfresh o ho hpo)
  silent := by
    rintro e rfl hp hc ht hnew
    have hput : (s.put e).events e.event.room = s.events e.event.room ++ [e] := by
      rw [events_eq_sensors, sensors_put, if_pos rfl, Dict.values_set_of_get?_eq_none hnew]
      rfl
    rw [hput]
    exact confidence_silent hp hc ht _

/-- In every room of every run whose events are in range. -/
theorem confidence_bounded (cfg : Config ratArith) (hw : WeightsNonneg cfg) (calls : List (Call ℚ))
    (env : Env ℚ) (room : String) (ref : ℤ)
    (hes : ∀ e ∈ (finish (step cfg) (newEngine asUtc) calls).events room, InRange env room e) :
    Supported cfg env room ref (finish (step cfg) (newEngine asUtc) calls) :=
  (keyed_finish cfg calls).supported hw hes

end

/-! ## A camera whose clock runs ahead -/

theorem defaultConfig_weightsNonneg : WeightsNonneg defaultConfig := by
  intro m w h
  have hall : defaultConfig.weights.entries.all (fun e => decide (0 ≤ e.2)) = true := by
    decide +kernel
  exact of_decide_eq_true (List.all_eq_true.mp hall (m, w) (Dict.mem_entries.mpr h))

/-- A camera that sees nobody, and a radar that does. -/
def disagreement : List (Call ℚ) :=
  [⟨.update (sighting "camera" "door" false 0 none), clockAt 1767225600000000⟩,
    ⟨.update (sighting "mmwave" "radar" true (9 / 10) (some 1)), clockAt 1767225600000000⟩]

theorem disagreement_bounded : Supported defaultConfig (clockAt 1767225600000000) "sala"
    1767225600000000 (finish (step defaultConfig) (newEngine parse) disagreement) := by
  refine confidence_bounded defaultConfig defaultConfig_weightsNonneg disagreement _ _ _ ?_
  intro e he
  have hall : ((finish (step defaultConfig) (newEngine parse) disagreement).events "sala").all
      (fun e => decide (0 ≤ e.event.confidence ∧ e.event.confidence ≤ 1)) = true := by
    decide +kernel
  have hrel : (relFactor ratArith (clockAt 1767225600000000) "sala" e).1 = 1 := by
    unfold relFactor
    split <;> rfl
  exact ⟨of_decide_eq_true (List.all_eq_true.mp hall e he),
    by rw [hrel]; exact ⟨zero_le_one, le_refl 1⟩⟩

/-- The camera reports again, a hundred seconds ahead of the clock: it still sees nobody, counts
as dead, and the confidence rises. -/
theorem future_denial_raises : ¬ ∀ e : Stored (R := ℚ) parse, Denies "sala" e →
    InRange (clockAt 1767225600000000) "sala" e →
    confidence defaultConfig (clockAt 1767225600000000) "sala" 1767225600000000
      (((finish (step defaultConfig) (newEngine parse) disagreement).put e).events "sala") ≤
    confidence defaultConfig (clockAt 1767225600000000) "sala" 1767225600000000
      ((finish (step defaultConfig) (newEngine parse) disagreement).events "sala") := by
  intro h
  have hle := h ⟨{ sighting "camera" "door" false 0 none with ts := "2026-01-01T00:01:40+00:00" },
    1767225700000000, by decide⟩ ⟨rfl, rfl, by decide⟩
    ⟨⟨le_refl 0, zero_le_one⟩, ⟨zero_le_one, le_refl 1⟩⟩
  exact absurd hle (by decide +kernel)

end Wavr.Fusion
