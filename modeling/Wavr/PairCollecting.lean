import Wavr.Eviction
import Wavr.PairRequests

/-!
# Collecting an approved pairing

Which requests a create drops, and when the token of an approved one can be collected.
-/

namespace Wavr.PairRequests
open Eviction Run Text Timebase

variable (pf : Devices.Platform) (cfg : Config)

/-- How many of the requests that a create of the host leaves are dropped no sooner than this one: of
the host's own pending ones no more than there is room for. -/
def behind (key : String) (m : PairApprovalManager) (id : String) : ℤ :=
  let mine := pendingOf key m
  let others := m.keys.countP fun x => x ∉ mine ∧ NoSooner (createdAt m) m.keys id x
  let own := mine.countP fun x => NoSooner (createdAt m) m.keys id x
  others + min (own : ℤ) (cfg.maxPendingPerIp - 1)

/-- The requests that a create finds alive and approved are young enough to stay under the global
bound. -/
def SparesApproved (m : PairApprovalManager) : Op → Prop
  | .create now _ _ requesterName sourceIp .. =>
    truthy (truncate 64 (strip requesterName)) = true → 0 < cfg.maxPendingPerIp →
      ∀ e ∈ (purgeExpired now m).entries, e.2.status = .approved →
        behind cfg (sourceIp.getD "") (purgeExpired now m) e.1 < cfg.maxPending
  | _ => True

instance (m : PairApprovalManager) : (op : Op) → Decidable (SparesApproved cfg m op)
  | .create .. => inferInstanceAs (Decidable (_ → _))
  | .poll .. | .listPending .. | .approve .. | .deny .. => .isTrue trivial

/-! ## The requests that a create drops -/

section
variable {pf cfg} {m : PairApprovalManager} {id : String} {f : String → ℤ} {mine : List String}

theorem oldest_eq_victim (hf : ∀ x ∈ mine, f x = createdAt m x) : oldest m mine = victim f mine := by
  cases mine with
  | nil => rfl
  | cons first mine => exact foldl_eq_victim hf

theorem createdAt_of_fewer {m' : PairApprovalManager} {x : String} (h : Fewer m m') (hx : x ∈ m'.keys) :
    createdAt m' x = createdAt m x := by
  unfold createdAt
  rcases h x with hsame | hgone
  · rw [hsame]
  · rw [Dict.mem_keys, hgone] at hx
    cases hx

/-- Of those among which the oldest is sought, the ones that are left stay. -/
theorem evictOldest_snd (limit : ℤ) (n : ℕ) (hmine : mine.Nodup)
    (hf : ∀ x ∈ mine, f x = createdAt m x) :
    (evictOldest limit n mine m).2 = m.filter fun x _ => x ∈ mine → x ∈ trim f limit n mine := by
  induction n generalizing mine m with
  | zero =>
    unfold evictOldest trim
    rw [Dict.filter_eq_self (by simp)]
    split <;> rfl
  | succ n ih =>
    unfold evictOldest trim
    split
    · rw [oldest_eq_victim hf]
      cases ho : victim f mine with
      | none => exact (Dict.filter_eq_self (by simp)).symm
      | some o =>
        dsimp only
        have hrest : ∀ x ∈ mine.erase o, f x = createdAt (m.erase o) x := by
          intro x hx
          have hne : x ≠ o := fun he => hmine.not_mem_erase (he ▸ hx)
          rw [createdAt, Dict.get?_erase, if_neg hne]
          exact hf x (List.mem_of_mem_erase hx)
        rw [ih (hmine.erase o) hrest]
        unfold Dict.erase
        rw [Dict.filter_filter]
        refine Dict.filter_congr fun e _ => ?_
        by_cases hne : e.1 = o
        · have hgone : o ∉ trim f limit n (mine.erase o) := fun hmem =>
            hmine.not_mem_erase (trim_sublist.subset hmem)
          simp [hne, hgone, List.argmin_mem ho]
        · simp [hne, List.mem_erase_of_ne hne]
    · exact (Dict.filter_eq_self (by simp)).symm

theorem pendingOf_sublist (key : String) (m : PairApprovalManager) : (pendingOf key m).Sublist m.keys :=
  List.filter_sublist.map _

theorem evictOldestForIp_snd (key : String) :
    (evictOldestForIp cfg key m).2 = m.filter fun x _ => x ∈ pendingOf key m →
      x ∈ trim (createdAt m) cfg.maxPendingPerIp (pendingOf key m).length (pendingOf key m) :=
  evictOldest_snd _ _ (m.nodup.sublist (pendingOf_sublist key m)) fun _ _ => rfl

/-- The bound for one host drops pending requests only. -/
theorem get?_evictOldestForIp {r : PairRequest} (key : String) (hget : m.get? id = some r)
    (hr : r.status ≠ .pending) : (evictOldestForIp cfg key m).2.get? id = some r := by
  have hid : id ∉ pendingOf key m := by
    intro hmem
    obtain ⟨e, he, rfl⟩ := List.mem_map.mp hmem
    obtain ⟨hin, hpend⟩ := List.mem_filter.mp he
    rw [Dict.mem_entries.mp hin] at hget
    cases hget
    exact hr (of_decide_eq_true hpend).2
  exact (get?_evictOldest _ _ hid m).trans hget

/-- A request stays under the global bound exactly where fewer are dropped no sooner. -/
theorem get?_evictOldestGlobal {r : PairRequest} {l : List String} (hkeys : m.keys.Sublist l)
    (hl : l.Nodup) (hf : ∀ x ∈ m.keys, f x = createdAt m x) (hget : m.get? id = some r) :
    (evictOldestGlobal cfg m).2.get? id = some r ↔
      (m.keys.countP fun x => NoSooner f l id x : ℕ) < cfg.maxPending := by
  have hid : id ∈ m.keys := Dict.mem_keys.mpr (by rw [hget]; rfl)
  have hnodup : m.keys.Nodup := hl.sublist hkeys
  unfold evictOldestGlobal
  rw [evictOldest_snd _ _ hnodup hf, Dict.get?_filter, hget, Option.filter_eq_some_iff,
    decide_eq_true_eq, mem_trim_iff hkeys hl le_rfl]
  simp [hid]

/-- The requests that are left for one host and dropped no sooner than this one. -/
theorem countP_keys_evictOldestForIp (key : String) (hlimit : 0 < cfg.maxPendingPerIp) :
    ((evictOldestForIp cfg key m).2.keys.countP fun x => NoSooner (createdAt m) m.keys id x : ℕ) =
      behind cfg key m id := by
  have hkeys : m.keys.Nodup := m.nodup
  have hmine := pendingOf_sublist key m
  rw [evictOldestForIp_snd, Dict.keys_filter, countP_filter_imp hkeys hmine trim_sublist,
    Nat.cast_add, countP_trim hmine hkeys le_rfl hlimit]
  · rfl
  · intro a _ b _ ha hab
    exact decide_eq_true ((of_decide_eq_true ha).trans hab)

/-- A request that is decided is left for the new one exactly where it is young enough. -/
theorem get?_roomFor_iff {r : PairRequest} {now : ℤ} (sourceIp : Option String)
    (hlimit : 0 < cfg.maxPendingPerIp) (hget : (purgeExpired now m).get? id = some r)
    (hr : r.status ≠ .pending) :
    (roomFor cfg now sourceIp m).get? id = some r ↔
      behind cfg (sourceIp.getD "") (purgeExpired now m) id < cfg.maxPending := by
  have hsub : (evictOldestForIp cfg (sourceIp.getD "") (purgeExpired now m)).2.keys.Sublist
      (purgeExpired now m).keys := by
    rw [evictOldestForIp_snd, Dict.keys_filter]
    exact List.filter_sublist
  unfold roomFor
  rw [get?_evictOldestGlobal hsub (purgeExpired now m).nodup
    (fun x hx => (createdAt_of_fewer (fewer_evictOldest _ _ _ _) hx).symm)
    (get?_evictOldestForIp _ hget hr), countP_keys_evictOldestForIp _ hlimit]

end

/-! ## An approved request -/

section
variable {pf cfg} {m : PairApprovalManager} {op : Op} {id : String} {r : PairRequest}

/-- An approved request stays until its deadline, unless a create drops it or draws its id. -/
theorem get?_step_of_approved (hget : m.get? id = some r) (hr : r.status = .approved)
    (hlive : ∀ now, op.reading = some now → now < r.expiresAt)
    (hshown : ∀ code, shown cfg m op ≠ some (id, code)) (hspares : SparesApproved cfg m op) :
    (step pf cfg m op).get? id = some r := by
  -- every call but `deny` purges first, and the purge spares what has not expired
  have hpurge : ∀ now, now < r.expiresAt → (purgeExpired now m).get? id = some r := by
    intro now hnow
    rw [get?_purgeExpired, hget]
    simpa [Option.filter] using hnow
  cases op with
  | create now requestId draw requesterName sourceIp platform reportedFp deviceKey =>
    rw [step]
    rcases create_cases now requestId draw requesterName sourceIp platform reportedFp deviceKey m with
      ⟨-, hcreate⟩ | ⟨hname, hroom⟩
    · rw [hcreate]
      exact hget
    · have hnow : now < r.expiresAt := by
        apply hlive now
        rw [Op.reading, if_pos hname]
      -- the eviction takes pending requests only, and this one is decided
      have hdecided : r.status ≠ .pending := by
        rw [hr]
        decide
      rcases hroom with ⟨e, hcreate⟩ | ⟨hlimit, hroom⟩
      · rw [hcreate]
        exact get?_evictOldestForIp _ (hpurge now hnow) hdecided
      · have hglobal : (roomFor cfg now sourceIp m).get? id = some r :=
          (get?_roomFor_iff sourceIp hlimit (hpurge now hnow) hdecided).mpr
            (hspares hname hlimit (id, r) (Dict.mem_entries.mpr (hpurge now hnow)) hr)
        rcases hroom with ⟨e, hcreate⟩ | ⟨r', -, hcreate⟩
        · rw [hcreate]
          exact hglobal
        · have hne : id ≠ requestId := by
            rintro rfl
            apply hshown r'.compareCode
            rw [shown, hcreate]
            rfl
          rw [hcreate, Dict.get?_set_ne _ hne]
          exact hglobal
  | poll now requestId =>
    rw [step, poll_snd]
    exact hpurge now (hlive now rfl)
  | listPending now => exact hpurge now (hlive now rfl)
  | approve now draw requestId role confirmCode store =>
    rw [step]
    rcases approve_cases now draw requestId role confirmCode store m with
      ⟨-, hnext⟩ | ⟨r', hget', hpend, -, -, -, hnext⟩
    · rw [hnext]
      exact hpurge now (hlive now rfl)
    · have hne : id ≠ requestId := Dict.ne_of_get? hget hget' fun h => by
        rw [← h, hr] at hpend
        cases hpend
      rw [hnext, Dict.get?_set_ne _ hne]
      exact hpurge now (hlive now rfl)
  | deny requestId =>
    rw [step]
    unfold deny
    split
    · exact hget
    · rename_i r' hget'
      split
      · exact hget
      · rename_i hpend
        have hne : id ≠ requestId := Dict.ne_of_get? hget hget' fun h => by
          rw [← h, hr] at hpend
          exact hpend (by decide)
        rw [Dict.get?_set_ne _ hne]
        exact hget

variable {ops : List Op}

theorem get?_finish_of_approved (hget : m.get? id = some r) (hr : r.status = .approved)
    (hlive : ∀ now ∈ ops.filterMap Op.reading, now < r.expiresAt)
    (hshown : shownFor pf cfg id m ops = []) (hspares : AllSteps (step pf cfg) (SparesApproved cfg) m ops) :
    (finish (step pf cfg) m ops).get? id = some r := by
  induction ops generalizing m with
  | nil => exact hget
  | cons op ops ih =>
    obtain ⟨hquiet, hrest⟩ := outputsFor_cons_eq_nil hshown
    refine ih ?_ (fun now hnow => hlive now ?_) hrest hspares.2
    · refine get?_step_of_approved hget hr (fun now hnow => hlive now ?_) hquiet hspares.1
      rw [List.filterMap_cons, hnow]
      exact List.mem_cons_self
    · rw [List.filterMap_cons]
      split
      · exact hnow
      · exact List.mem_cons_of_mem _ hnow

end

/-- In a run whose creates find the approved requests young enough, every poll before the deadline of
an approved request hands out its credential. -/
theorem approved_collectable (ops : List Op)
    (hspares : AllSteps (step pf cfg) (SparesApproved cfg) Dict.empty ops)
    (hclock : (ops.filterMap Op.reading).Pairwise (· ≤ ·)) :
    ∀ pre op mid now id post device token r, ops = pre ++ op :: (mid ++ .poll now id :: post) →
      minted pf cfg (finish (step pf cfg) Dict.empty pre) op = some (id, device, token) →
      -- the id is random, and not drawn again
      shownFor pf cfg id (finish (step pf cfg) Dict.empty (pre ++ [op])) mid = [] →
      (finish (step pf cfg) Dict.empty (pre ++ [op])).get? id = some r → now < r.expiresAt →
      (poll now id (finish (step pf cfg) Dict.empty (pre ++ op :: mid))).1 =
        .approved (some device) (some token) := by
  rintro pre op mid now id post device token r rfl hmint hquiet hget hlive
  obtain ⟨r₀, t, draw, role, store, -, -, -, -, rfl, rfl, hnext⟩ := minted_eq_some hmint
  have hr : r = approvedRequest cfg t draw r₀ := by
    rw [finish_append, finish_cons, finish_nil, hnext] at hget
    cases hget
    rfl
  obtain ⟨-, -, hspares'⟩ := allSteps_append.mp hspares
  obtain ⟨hmidSpares, -⟩ := allSteps_append.mp hspares'
  have hmidClock : ∀ u ∈ mid.filterMap Op.reading, u < r.expiresAt := by
    intro u hu
    have hsub : (mid ++ [Op.poll now id]).Sublist (pre ++ op :: (mid ++ .poll now id :: post)) := by
      refine List.Sublist.trans (List.Sublist.cons op ?_) (List.sublist_append_right pre _)
      exact List.Sublist.append_left (by simp) mid
    have hordered := hclock.sublist (hsub.filterMap Op.reading)
    rw [List.filterMap_append] at hordered
    exact ((List.pairwise_append.mp hordered).2.2 u hu now (by simp [Op.reading])).trans_lt hlive
  have hmid : (finish (step pf cfg) Dict.empty (pre ++ op :: mid)).get? id = some r := by
    rw [finish_append, finish_cons, finish_nil] at hget hquiet
    rw [finish_append, finish_cons]
    exact get?_finish_of_approved hget (by rw [hr]; rfl) hmidClock hquiet hmidSpares
  have hpoll : (purgeExpired now (finish (step pf cfg) Dict.empty (pre ++ op :: mid))).get? id = some r := by
    rw [get?_purgeExpired, hmid]
    simpa [Option.filter] using hlive
  unfold poll
  dsimp only
  rw [hpoll, hr]
  rfl

/-- A phone asks and is approved. -/
def sampleApproved : List Op :=
  [.create 0 "r" (fun _ => 7) "phone" (some "192.168.1.5") none none none,
    .approve 1000000 ⟨"d1", "token-1", "1970-01-01T00:00:01+00:00"⟩ "r" "user" (some "000007") .empty]

/-- Twenty hosts ask after it. -/
def sampleFlood : List Op :=
  (List.range 20).map fun i => .create 2000000 ("q" ++ toString i) (fun k => Fin.ofNat 1000000 (8 + i + k))
    "phone" (some ("192.168.1." ++ toString (10 + i))) none none none

theorem approved_collectable_sample :
    (poll 3000000 "r" (finish (step Devices.samplePlatform defaults) Dict.empty
      ([sampleApproved.head (by decide)] ++ sampleApproved.getLast (by decide) :: sampleFlood.take 19))).1 =
        .approved (some "d1") (some "token-1") :=
  approved_collectable Devices.samplePlatform defaults
    (sampleApproved ++ (sampleFlood.take 19 ++ .poll 3000000 "r" :: [])) (by decide +kernel)
    (by decide +kernel) [sampleApproved.head (by decide)] _ _ 3000000 "r" [] "d1" "token-1"
    (approvedRequest defaults 1000000 ⟨"d1", "token-1", "1970-01-01T00:00:01+00:00"⟩
      { requesterName := "phone", platform := none, sourceIp := some "192.168.1.5", reportedFp := none,
        createdAt := 0, expiresAt := 180000000, status := .pending, deviceId := none, token := none,
        deviceKey := none, compareCode := "000007" }) rfl (by decide +kernel) (by decide +kernel)
    (by decide +kernel) (by decide +kernel)

/-- Twenty-one hosts ask within three seconds, and nobody collects the first one's token. -/
theorem flood_strands_approval :
    (approve Devices.samplePlatform defaults 1000000
        ⟨"d1", "token-1", "1970-01-01T00:00:01+00:00"⟩ "r" "user" (some "000007") .empty
        (finish (step Devices.samplePlatform defaults) Dict.empty (sampleApproved.take 1))).1 = .ok (some "d1") ∧
      ((finish (step Devices.samplePlatform defaults) Dict.empty sampleApproved).get? "r").map
        PairRequest.expiresAt = some 180000000 ∧
      (poll 3000000 "r" (finish (step Devices.samplePlatform defaults) Dict.empty
        (sampleApproved ++ sampleFlood))).1 = .expired := by
  decide +kernel

end Wavr.PairRequests
