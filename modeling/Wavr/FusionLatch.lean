import Wavr.FusionRooms

/-!
# How long the count latch vouches

Every latched number is traced to the call that handed the event in. The latch carries the
timestamp of the event; a run whose counting events are not ahead of the clock when they are
handed in keeps the bound in terms of the clock.
-/

namespace Wavr.Fusion
open Run

variable {R : Type} {ar : Arith R} {asUtc : String → Option ℤ}

/-- One of the calls handed the event in, for this room. -/
def Handed (calls : List (Call R)) (room : String) (e : Stored (R := R) asUtc) : Prop :=
  ∃ c ∈ calls, c.op = .update e.event ∧ e.event.room = room

/-- A latched number comes from a present counting event that was handed in. -/
def LatchHanded (asUtc : String → Option ℤ) (calls : List (Call R)) (room : String) (l : Latch R) :
    Prop :=
  ∃ e : Stored (R := R) asUtc, Handed calls room e ∧ e.event.presence = true ∧
    isCounting e.event.modality = true ∧ e.event.count = some l.count ∧ e.utc = l.ts

structure Traced (calls : List (Call R)) (s : Engine (R := R) asUtc) : Prop where
  events : ∀ room, ∀ e ∈ s.events room, Handed calls room e
  latch : ∀ room l, s.countLatch.get? room = some l → LatchHanded asUtc calls room l

theorem Handed.mono {calls calls' : List (Call R)} {room : String} {e : Stored (R := R) asUtc}
    (h : Handed calls room e) (hsub : calls ⊆ calls') : Handed calls' room e := by
  obtain ⟨c, hc, he⟩ := h
  exact ⟨c, hsub hc, he⟩

section
variable {call : Call R} {s : Engine (R := R) asUtc} {room : String}

/-- An event that is there after the call arrived was there before, or came with it. -/
theorem mem_begin_events {e : Stored (R := R) asUtc} (h : e ∈ (begin call s).2.events room) :
    e ∈ s.events room ∨ Handed [call] room e := by
  rcases sensors_begin call s with ⟨new, hop, hput⟩ | hsame
  · rw [hput] at h
    by_cases hroom : room = new.event.room
    · subst hroom
      obtain ⟨pre, post, hevents, hold⟩ := exists_events_put s new
      rw [hevents] at h
      rw [hold]
      rcases List.mem_append.mp h with hpre | htail
      · exact .inl (List.mem_append_left _ hpre)
      · rcases List.mem_cons.mp htail with rfl | hpost
        · exact .inr ⟨call, List.mem_singleton_self call, hop, rfl⟩
        · exact .inl (List.mem_append_right _ (List.mem_append_right _ hpost))
    · rw [events_eq_sensors, sensors_put, if_neg hroom] at h
      exact .inl h
  · rw [events_eq_sensors, hsame] at h
    exact .inl h

end

section
variable {cfg : Config ar} {env : Env R} {room room' ts : String} {ref : ℤ}
  {es : List (Stored (R := R) asUtc)} {occupied : Bool} {best : List (Target R)}
  {s : Engine (R := R) asUtc} {l : Latch R} {n : ℕ}

/-- A latch that is there afterwards was there before, or is stamped with a live count. -/
theorem latchCount_stamped
    (h : (latchCount cfg room ref es occupied best s).2.countLatch.get? room' = some l) :
    s.countLatch.get? room' = some l ∨
      (room' = room ∧ ∃ e ∈ es, Vouches cfg ref l.count l.ts e) := by
  have released : (s.countLatch.erase room).get? room' = some l → s.countLatch.get? room' = some l := by
    rw [Dict.get?_erase]
    split
    · exact fun he => absurd he.symm (Option.some_ne_none l)
    · exact id
  unfold latchCount at h
  split at h
  · exact .inl (released h)
  · split at h
    · rename_i m t hp
      change (s.countLatch.set room ⟨m, best, t⟩).get? room' = some l at h
      rw [Dict.get?_set] at h
      split at h
      · rename_i hroom
        cases h
        exact .inr ⟨hroom, pickCount_vouches hp⟩
      · exact .inl h
    · split at h
      · exact .inl (released h)
      · split at h
        · split at h
          · exact .inl h
          · exact .inl (released h)
        · exact .inl (released h)

/-- A number that no live source gives comes from a latch within its bound. -/
theorem latchCount_held (hp : pickCount cfg ref es = none)
    (h : (latchCount cfg room ref es occupied best s).1.personCount = some n) :
    ∃ l, s.countLatch.get? room = some l ∧ l.count = n ∧
      ar.le (ar.seconds (ref - l.ts)) cfg.staleS = true := by
  unfold latchCount at h
  rw [hp] at h
  split at h
  · cases h
  · dsimp only at h
    split at h
    · cases h
    · split at h
      · rename_i l hl
        split at h
        · rename_i hle
          exact ⟨l, hl, Option.some.inj h, hle⟩
        · cases h
      · cases h

theorem fuse_stamped (h : (fuse cfg env room ts s).2.countLatch.get? room' = some l) :
    s.countLatch.get? room' = some l ∨ (room' = room ∧
      ∃ e ∈ s.events room, Vouches cfg (reference asUtc env ts) l.count l.ts e) := by
  have hs := latchCount_stamped h
  rwa [dwell, (debounceOccupancy_frame cfg room _ _ s).2] at hs

theorem fuse_held (hp : pickCount cfg (reference asUtc env ts) (s.events room) = none)
    (h : (fuse cfg env room ts s).1.personCount = some n) :
    ∃ l, s.countLatch.get? room = some l ∧ l.count = n ∧
      ar.le (ar.seconds (reference asUtc env ts - l.ts)) cfg.staleS = true := by
  have hs := latchCount_held hp h
  rwa [dwell, (debounceOccupancy_frame cfg room _ _ s).2] at hs

end

/-! ## Runs -/

section
variable (cfg : Config ar)

theorem Traced.begin {calls : List (Call R)} {s : Engine (R := R) asUtc} (h : Traced calls s)
    (call : Call R) : Traced (calls ++ [call]) (begin call s).2 where
  events := by
    intro room e he
    rcases mem_begin_events he with hold | hnew
    · exact (h.events room e hold).mono (List.subset_append_left calls [call])
    · exact hnew.mono (List.subset_append_right calls [call])
  latch := by
    intro room l hl
    rw [(begin_frame call s).2.2] at hl
    obtain ⟨e, he, hrest⟩ := h.latch room l hl
    exact ⟨e, he.mono (List.subset_append_left calls [call]), hrest⟩

theorem Traced.fuse {calls : List (Call R)} {s : Engine (R := R) asUtc} (h : Traced calls s)
    (env : Env R) (room ts : String) : Traced calls (fuse cfg env room ts s).2 where
  events := by
    intro room' e he
    rw [Engine.events, fuse_latest] at he
    exact h.events room' e he
  latch := by
    intro room' l hl
    -- an old latch was traced before; a new one is stamped with an event of the room
    rcases fuse_stamped hl with hold | ⟨rfl, e, he, hcount, hlive, hn, hts⟩
    · exact h.latch room' l hold
    · exact ⟨e, h.events _ e he, (Bool.and_eq_true _ _ ▸ hlive).1, hcount, hn, hts⟩

theorem Traced.step {calls : List (Call R)} {s : Engine (R := R) asUtc} (h : Traced calls s)
    (call : Call R) : Traced (calls ++ [call]) (step cfg s call) := by
  have hb := h.begin call
  unfold Fusion.step run
  split
  · rename_i he
    rwa [he] at hb
  · rename_i he
    rw [he] at hb
    exact hb.fuse cfg call.env _ _

theorem traced_finish (calls : List (Call R)) :
    Traced calls (finish (step cfg) (newEngine (R := R) asUtc) calls) := by
  refine history_induction (R := Traced) ⟨?_, ?_⟩ (fun calls call h => h.step cfg call) calls
  · intro room e he
    cases he
  · intro room l hl
    cases hl

/-- The injected clock answers every call, and never goes backwards. -/
def Clocked (calls : List (Call R)) : Prop :=
  (∀ c ∈ calls, ∃ t, c.env.now = .at t) ∧
    calls.Pairwise fun c c' => ∀ t t', c.env.now = .at t → c'.env.now = .at t' → t ≤ t'

/-- The clock reading of a call, and of a call at or behind it. -/
theorem Clocked.le {pre post : List (Call R)} {call c : Call R}
    (h : Clocked (pre ++ call :: post)) (hc : c ∈ pre ++ [call]) :
    ∃ t ref, c.env.now = .at t ∧ call.env.now = .at ref ∧ t ≤ ref := by
  obtain ⟨hall, hpair⟩ := h
  obtain ⟨ref, hnow⟩ := hall call (by simp)
  rcases List.mem_append.mp hc with hpre | hlast
  · obtain ⟨t, ht⟩ := hall c (List.mem_append_left _ hpre)
    have hle := (List.pairwise_append.mp hpair).2.2 c hpre call List.mem_cons_self
    exact ⟨t, ref, ht, hnow, hle t ref ht hnow⟩
  · rw [List.mem_singleton.mp hlast]
    exact ⟨ref, ref, hnow, hnow, le_refl ref⟩

/-- A present counting event with a count is not ahead of the clock when it is handed in. -/
def Timely (asUtc : String → Option ℤ) (c : Call R) : Prop :=
  ∀ e, c.op = .update e → isCounting e.modality = true → e.presence = true → e.count ≠ none →
    ∀ t utc, c.env.now = .at t → asUtc e.ts = some utc → utc ≤ t

/-- A present counting event with this count was handed in, and not more than `stale_s` seconds
before. -/
def VouchedSince (calls : List (Call R)) (asUtc : String → Option ℤ) (room : String) (ref : ℤ)
    (n : ℕ) : Prop :=
  ∃ c ∈ calls, ∃ e t, c.op = .update e ∧ asUtc e.ts ≠ none ∧ e.room = room ∧
    isCounting e.modality = true ∧ e.presence = true ∧ e.count = some n ∧
    c.env.now = .at t ∧ t ≤ ref ∧ ar.le (ar.seconds (ref - t)) cfg.staleS = true

/-- A call behind `pre` that reports a number although no live source gives one reports one that
was given within the bound. -/
def BoundedCall (asUtc : String → Option ℤ) (pre : List (Call R)) (call : Call R) : Prop :=
  ∀ s rs n, finish (step cfg) (newEngine (R := R) asUtc) pre = s →
    (run cfg call s).1 = .fused rs → rs.personCount = some n →
    (∀ e ∈ (step cfg s call).events rs.room, isCounting e.event.modality = true →
      live cfg (reference asUtc call.env rs.ts) e = true → e.event.count = none) →
    VouchedSince cfg (pre ++ [call]) asUtc rs.room (reference asUtc call.env rs.ts) n

/-- In a run under a clock that never goes backwards, whose counting events are not ahead of
the clock when they are handed in, the latch keeps its bound. -/
theorem latch_bounded (calls : List (Call R)) (hclock : Clocked calls)
    (htimely : ∀ c ∈ calls, Timely asUtc c) :
    ∀ pre call post, calls = pre ++ call :: post → BoundedCall cfg asUtc pre call := by
  rintro pre call post rfl s rs n hs hrs hn hquiet
  have htraced : Traced (pre ++ [call]) (begin call s).2 := hs ▸ (traced_finish cfg pre).begin call
  obtain ⟨room, ts, s₁, hb, rfl, hstep⟩ := run_fused hrs
  rw [hb] at htraced
  rw [hstep, Engine.events, fuse_latest] at hquiet
  -- no live source gives the number, so it is the latch's
  have hpick : pickCount cfg (reference asUtc call.env ts) (s₁.events room) = none := by
    by_contra hp
    obtain ⟨⟨m, t⟩, hp⟩ := Option.ne_none_iff_exists'.mp hp
    obtain ⟨e, he, hcount, hlive, hm, -⟩ := pickCount_vouches hp
    exact Option.some_ne_none m (hm.symm.trans (hquiet e he hcount hlive))
  obtain ⟨l, hl, rfl, hle⟩ := fuse_held hpick hn
  obtain ⟨e, ⟨c, hc, hop, hroom⟩, hpres, hcount, hm, hts⟩ := htraced.latch room l hl
  -- the clock read `t` when the event was handed in, and reads `ref` now
  obtain ⟨t, ref, ht, hnow, htref⟩ := hclock.le hc
  have hbehind : e.utc ≤ t := by
    refine htimely c ?_ e.event hop hcount hpres ?_ t e.utc ht e.parsed
    · exact (List.append_subset.mpr ⟨List.subset_append_left _ _,
        List.subset_append_of_subset_right _ (by simp)⟩) hc
    · rw [hm]
      exact Option.some_ne_none _
  have hreference : reference asUtc call.env ts = ref := by rw [reference, hnow]
  refine ⟨c, hc, e.event, t, hop, ?_, hroom, hcount, hpres, hm, ht, ?_, ?_⟩
  · rw [e.parsed]
    exact Option.some_ne_none _
  · exact le_of_le_of_eq htref hreference.symm
  · have hshorter : reference asUtc call.env ts - t ≤ reference asUtc call.env ts - l.ts := by omega
    exact ar.seconds_mono hshorter hle

end

/-! ## A radar that loses a still person -/

/-- The radar counts two people; the timestamp is its own. -/
def radarCounts (ts : String) : Call ℚ :=
  ⟨.update { sighting "mmwave" "radar" true (9 / 10) (some 2) with ts }, clockAt 1767225600000000⟩

/-- At `t`, the radar sees nobody. -/
def radarLoses (t : ℤ) (ts : String) : Call ℚ :=
  ⟨.update { sighting "mmwave" "radar" false 0 (some 0) with ts }, clockAt t⟩

theorem radar_clocked (ts ts' : String) (t : ℤ) (h : 1767225600000000 ≤ t) :
    Clocked [radarCounts ts, radarLoses t ts'] := by
  refine ⟨fun c hc => ?_, List.pairwise_pair.mpr fun t₁ t₂ h₁ h₂ => ?_⟩
  · rcases List.mem_cons.mp hc with rfl | hc
    · exact ⟨_, rfl⟩
    · rw [List.mem_singleton.mp hc]
      exact ⟨_, rfl⟩
  · cases h₁
    cases h₂
    exact h

/-- A radar on time: a minute later, its number may still stand. -/
theorem radar_on_time : BoundedCall defaultConfig parse [radarCounts "2026-01-01T00:00:00+00:00"]
    (radarLoses 1767225660000000 "2026-01-01T00:01:00+00:00") := by
  refine latch_bounded defaultConfig [radarCounts "2026-01-01T00:00:00+00:00",
    radarLoses 1767225660000000 "2026-01-01T00:01:00+00:00"] (radar_clocked _ _ _ (by decide)) ?_ _ _
    [] rfl
  intro c hc e hop hcount hpres hn t utc ht hutc
  rcases List.mem_cons.mp hc with rfl | hc
  · cases hop
    cases ht
    cases hutc
    decide
  · rw [List.mem_singleton.mp hc] at hop
    cases hop
    cases hpres

/-- A radar whose clock is a minute fast: a hundred seconds after it counted, the room still
reports its number. -/
theorem fast_radar_outlives_bound :
    Clocked [radarCounts "2026-01-01T00:01:00+00:00",
      radarLoses 1767225700000000 "2026-01-01T00:01:40+00:00"] ∧
    ¬ BoundedCall defaultConfig parse [radarCounts "2026-01-01T00:01:00+00:00"]
      (radarLoses 1767225700000000 "2026-01-01T00:01:40+00:00") := by
  refine ⟨radar_clocked _ _ _ (by decide), fun hbounded => ?_⟩
  have hreport : ((run defaultConfig (radarLoses 1767225700000000 "2026-01-01T00:01:40+00:00")
      (step defaultConfig (newEngine parse) (radarCounts "2026-01-01T00:01:00+00:00"))).1.state?.map
      fun rs => (rs.room, rs.personCount)) = some ("sala", some 2) := by decide +kernel
  have hquiet : ((step defaultConfig (step defaultConfig (newEngine parse)
      (radarCounts "2026-01-01T00:01:00+00:00"))
      (radarLoses 1767225700000000 "2026-01-01T00:01:40+00:00")).events "sala").all
      (fun e => ! live defaultConfig 1767225700000000 e) = true := by decide +kernel
  obtain ⟨rs, hrs, hview⟩ := Option.map_eq_some_iff.mp hreport
  obtain ⟨hroom, hcount⟩ := Prod.mk.inj hview
  obtain ⟨c, hc, e, t, hop, -, -, -, hpres, -, ht, -, hle⟩ :=
    hbounded _ rs 2 rfl (Reply.eq_fused hrs) hcount fun e he _ hlive => by
      rw [hroom] at he
      have hdead := List.all_eq_true.mp hquiet e he
      have hl : live defaultConfig 1767225700000000 e = true := hlive
      rw [hl] at hdead
      cases hdead
  rcases List.mem_cons.mp hc with rfl | hc
  · cases ht
    have hlate : ratArith.le (ratArith.seconds (1767225700000000 - 1767225600000000)) 90 = true := hle
    exact absurd hlate (by decide +kernel)
  · rw [List.mem_singleton.mp hc] at hop
    cases hop
    cases hpres

end Wavr.Fusion
