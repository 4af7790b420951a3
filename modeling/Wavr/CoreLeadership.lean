import Wavr.CoreRegistry
import Wavr.Run

/-!
# Leadership of one Core

Promotion, demotion and the reading of a peer's claim on one machine: the epoch counter on its
Space's row, and the registry.
-/

namespace Wavr.Leadership
open Run Setup

/-- The two stores of a machine that a promotion goes through. -/
structure Machine where
  store : SpaceStore
  cores : CoreRegistry
  deriving DecidableEq

/-- `SELECT * FROM cores WHERE is_self = 1`, the first row. -/
def selfCore (cs : CoreRegistry) : Option (String × Core) :=
  cs.entries.find? fun e => e.2.info.isSelf

def stoodDown (coreId : String) (cs : CoreRegistry) : CoreRegistry :=
  cs.map fun k c => if k = coreId then { c with status := .standby } else c

def demote (coreId : String) (cs : CoreRegistry) : Except Exn Core × CoreRegistry :=
  match cs.get? coreId with
  | none => (.error (.coreRegistryError "unknown core"), cs)
  | some c => (.ok { c with status := .standby }, stoodDown coreId cs)

inductive Verdict
  | hold
  | yield
  | contested
  deriving DecidableEq, Repr

def observePeer (peerCoreId : String) (peerEpoch : ℤ) (peerClaimsPrimary : Bool)
    (cs : CoreRegistry) : Verdict × CoreRegistry :=
  match selfCore cs with
  | none => (.hold, cs)
  | some (coreId, me) =>
    if me.status ≠ .primary then (.hold, cs)
    else if peerClaimsPrimary = false then (.hold, cs)
    else if me.epoch < peerEpoch then (.yield, (demote coreId cs).2)
    else if peerEpoch < me.epoch then (.hold, cs)
    -- equal epochs, two claimants: the smaller id keeps the Space
    else if peerCoreId < coreId then (.contested, (demote coreId cs).2)
    else (.contested, cs)

/-- The promote route: the epoch is bumped first, whatever becomes of the promotion. -/
def promoteRoute (coreId : String) (m : Machine) : Except Exn Core × Machine :=
  match bumpEpoch none m.store with
  | (.error e, store) => (.error (.httpException 422 e.detail), ⟨store, m.cores⟩)
  | (.ok newEpoch, store) =>
    match promote coreId newEpoch none m.cores with
    | (.error e, cores) => (.error (.httpException 422 e.detail), ⟨store, cores⟩)
    | (.ok core, cores) => (.ok core, ⟨store, cores⟩)

/-- The route turns the one error of `demote` into a 422. -/
def demoteRoute (coreId : String) (m : Machine) : Except Exn Core × Machine :=
  match demote coreId m.cores with
  | (.error e, cores) => (.error (.httpException 422 e.detail), { m with cores })
  | (.ok core, cores) => (.ok core, { m with cores })

/-! ## What each operation does -/

section
variable {cs : CoreRegistry} {coreId k : String} {c me : Core} {n : ℕ}

/-- Updates that leave `is_self` alone leave the self row in its place. -/
theorem selfCore_map {f : String → Core → Core} (hf : ∀ k c, (f k c).info.isSelf = c.info.isSelf) :
    selfCore (cs.map f) = (selfCore cs).map fun e => (e.1, f e.1 e.2) := by
  unfold selfCore Dict.map
  rw [List.find?_map]
  have hcomp : ((fun e : String × Core => e.2.info.isSelf) ∘ fun e : String × Core =>
      (e.1, f e.1 e.2)) = fun e => e.2.info.isSelf := by
    funext e
    exact hf e.1 e.2
  rw [hcomp]

theorem selfCore_stoodDown : selfCore (stoodDown coreId cs) = (selfCore cs).map fun e =>
    (e.1, if e.1 = coreId then { e.2 with status := .standby } else e.2) :=
  selfCore_map fun k c => by split <;> rfl

theorem selfCore_crown : selfCore (crown coreId n cs) = (selfCore cs).map fun e =>
    (e.1, if e.1 = coreId then { e.2 with status := .primary, epoch := n }
      else if e.2.status = .primary then { e.2 with status := .standby } else e.2) :=
  selfCore_map fun k c => by split_ifs <;> rfl

theorem get?_of_selfCore (h : selfCore cs = some (k, me)) : cs.get? k = some me :=
  Dict.mem_entries.mp (List.mem_of_find?_eq_some h)

theorem isSelf_of_selfCore (h : selfCore cs = some (k, me)) : me.info.isSelf = true := by
  have := List.find?_some h
  exact this

theorem demote_snd (coreId : String) (cs : CoreRegistry) :
    (demote coreId cs).2 = stoodDown coreId cs := by
  unfold demote
  cases h : cs.get? coreId with
  | some c => rfl
  | none =>
    refine (Dict.map_eq_self fun k c hk => if_neg ?_).symm
    rintro rfl
    rw [h] at hk
    cases hk

theorem demoteRoute_snd (coreId : String) (m : Machine) :
    (demoteRoute coreId m).2 = { m with cores := stoodDown coreId m.cores } := by
  have h := demote_snd coreId m.cores
  unfold demoteRoute
  split <;> rename_i hd <;> rw [hd] at h <;> rw [← h]

/-- A claim below the Core's own epoch is a stale one. -/
theorem observePeer_hold (h : selfCore cs = some (k, me)) {peerEpoch : ℤ}
    (hlt : peerEpoch < me.epoch) (peerCoreId : String) (claims : Bool) :
    observePeer peerCoreId peerEpoch claims cs = (.hold, cs) := by
  unfold observePeer
  rw [h]
  dsimp only
  split_ifs with h₁ h₂ h₃
  · rfl
  · rfl
  · exact absurd h₃ (by omega)
  · rfl

/-- What is heard of a peer can do no more than stand the Core itself down. -/
theorem observePeer_snd (peerCoreId : String) (peerEpoch : ℤ) (claims : Bool) (cs : CoreRegistry) :
    (observePeer peerCoreId peerEpoch claims cs).2 = cs ∨
      ∃ coreId me, selfCore cs = some (coreId, me) ∧
        (observePeer peerCoreId peerEpoch claims cs).2 = stoodDown coreId cs := by
  unfold observePeer
  split
  · exact .inl rfl
  · rename_i coreId me h
    split_ifs
    · exact .inl rfl
    · exact .inl rfl
    · exact .inr ⟨coreId, me, h, demote_snd coreId cs⟩
    · exact .inl rfl
    · exact .inr ⟨coreId, me, h, demote_snd coreId cs⟩
    · exact .inl rfl

end

/-- The promotion will be carried out: there is a Space, the registry knows the Core, and the
next epoch is above every one it holds. -/
def goesThrough (coreId : String) (m : Machine) : Bool :=
  match m.store.space with
  | none => false
  | some space => (m.cores.get? coreId).isSome ∧ highest m.cores ≤ space.epoch

/-- The store after a bump of its epoch. -/
def bumped (store : SpaceStore) : SpaceStore :=
  { store with space := store.space.map fun space => { space with epoch := space.epoch + 1 } }

section
variable {coreId : String} {m : Machine}

theorem bumped_none {store : SpaceStore} (h : store.space = none) : bumped store = store := by
  unfold bumped
  rw [h, Option.map_none, ← h]

theorem bumpEpoch_some {store : SpaceStore} {space : Space} (h : store.space = some space) :
    bumpEpoch none store = (.ok (space.epoch + 1), bumped store) := by
  have hf : raisedAt .epochWrite none = none := rfl
  rw [bumpEpoch_ok h hf, bumped, h, Option.map_some]

theorem bumpEpoch_noSpace {store : SpaceStore} (h : store.space = none) :
    bumpEpoch none store = (.error (.spaceError "no Space on this Core"), bumped store) := by
  rw [bumped_none h]
  unfold bumpEpoch
  rw [h]
  rfl

theorem promoteRoute_ok (h : goesThrough coreId m = true) :
    ∃ space c, m.store.space = some space ∧ m.cores.get? coreId = some c ∧
      highest m.cores ≤ space.epoch ∧ promoteRoute coreId m =
        (.ok { c with status := .primary, epoch := space.epoch + 1 },
          ⟨bumped m.store, crown coreId (space.epoch + 1) m.cores⟩) := by
  unfold goesThrough at h
  cases hs : m.store.space with
  | none => simp [hs] at h
  | some space =>
    rw [hs] at h
    obtain ⟨hc, hhigh⟩ := of_decide_eq_true h
    obtain ⟨c, hc⟩ := Option.isSome_iff_exists.mp hc
    refine ⟨space, c, rfl, hc, hhigh, ?_⟩
    have hnew : ¬ space.epoch + 1 ≤ highest m.cores := by omega
    have hpromote : promote coreId (space.epoch + 1) none m.cores =
        (.ok { c with status := .primary, epoch := space.epoch + 1 },
          crown coreId (space.epoch + 1) m.cores) := by
      unfold promote
      rw [hc]
      dsimp only [raisedAt, Option.filter_none, Option.map_none]
      rw [if_neg hnew]
    unfold promoteRoute
    rw [bumpEpoch_some hs]
    dsimp only
    rw [hpromote]

/-- A promotion that is refused has bumped the epoch all the same. -/
theorem promoteRoute_refused (h : goesThrough coreId m = false) :
    ∃ e, promoteRoute coreId m = (.error e, ⟨bumped m.store, m.cores⟩) := by
  unfold goesThrough at h
  unfold promoteRoute
  cases hs : m.store.space with
  | none =>
    rw [bumpEpoch_noSpace hs]
    exact ⟨_, rfl⟩
  | some space =>
    rw [hs] at h
    have hno := of_decide_eq_false h
    have hpromote : ∃ e, promote coreId (space.epoch + 1) none m.cores = (.error e, m.cores) := by
      unfold promote
      cases hc : m.cores.get? coreId with
      | none => exact ⟨_, rfl⟩
      | some c =>
        have hold : space.epoch + 1 ≤ highest m.cores := by
          by_contra hlt
          exact hno ⟨by rw [hc]; rfl, by omega⟩
        dsimp only [raisedAt, Option.filter_none, Option.map_none]
        rw [if_pos hold]
        exact ⟨_, rfl⟩
    obtain ⟨e, hpromote⟩ := hpromote
    rw [bumpEpoch_some hs]
    dsimp only
    rw [hpromote]
    exact ⟨_, rfl⟩

end

/-! ## What was seen and what was promoted -/

/-- The machine, the epochs of the peers that it heard claim to be primary, and those of them
that it had heard when it was last promoted itself. -/
structure System where
  machine : Machine
  seen : List ℤ
  fenced : List ℤ
  deriving DecidableEq

def init (m : Machine) : System := ⟨m, [], []⟩

inductive Call
  | promote (coreId : String)
  | demote (coreId : String)
  | observe (peerCoreId : String) (peerEpoch : ℤ) (peerClaimsPrimary : Bool)
  deriving DecidableEq

def selfId (cs : CoreRegistry) : Option String := (selfCore cs).map Prod.fst

def step (s : System) : Call → System
  | .promote coreId =>
    { s with
      machine := (promoteRoute coreId s.machine).2
      fenced := match (promoteRoute coreId s.machine).1 with
        | .ok _ => if selfId s.machine.cores = some coreId then s.seen else s.fenced
        | .error _ => s.fenced }
  | .demote coreId => { s with machine := (demoteRoute coreId s.machine).2 }
  | .observe peerCoreId peerEpoch claims =>
    { s with
      machine := { s.machine with
        cores := (observePeer peerCoreId peerEpoch claims s.machine.cores).2 }
      seen := if claims then s.seen ++ [peerEpoch] else s.seen }

/-- A Core that is primary leads at an epoch above all it had seen when it was promoted, and
stands down for none of them. -/
def Fenced (s : System) : Prop :=
  ∀ coreId me, selfCore s.machine.cores = some (coreId, me) → me.status = .primary →
    ∀ e ∈ s.fenced, e < me.epoch ∧ ∀ peerCoreId,
      observePeer peerCoreId e true s.machine.cores = (.hold, s.machine.cores)

/-- The Core is not promoted while an epoch it has seen is ahead of the Space's. -/
def CaughtUp (s : System) : Call → Prop
  | .promote coreId =>
    selfId s.machine.cores = some coreId → goesThrough coreId s.machine = true →
      ∀ space, s.machine.store.space = some space → ∀ e ∈ s.seen, e ≤ space.epoch
  | _ => True

theorem fenced_iff_lt {s : System} :
    Fenced s ↔ ∀ coreId me, selfCore s.machine.cores = some (coreId, me) → me.status = .primary →
      ∀ e ∈ s.fenced, e < me.epoch := by
  refine ⟨fun h coreId me hme hp e he => (h coreId me hme hp e he).1,
    fun h coreId me hme hp e he => ?_⟩
  have hlt := h coreId me hme hp e he
  exact ⟨hlt, fun peerCoreId => observePeer_hold hme hlt peerCoreId true⟩

/-- A Core that was stood down defends nothing. -/
theorem fenced_stoodDown {s : System} (h : Fenced s) (coreId : String) {seen : List ℤ} :
    Fenced ⟨{ s.machine with cores := stoodDown coreId s.machine.cores }, seen, s.fenced⟩ := by
  rw [fenced_iff_lt] at h ⊢
  intro k me hme hp
  dsimp only at hme
  rw [selfCore_stoodDown, Option.map_eq_some_iff] at hme
  obtain ⟨⟨k', me'⟩, hme', he⟩ := hme
  cases he
  by_cases hk : k' = coreId
  · simp [hk] at hp
  · rw [if_neg hk] at hp ⊢
    exact h k' me' hme' hp

/-- A Core that is promoted itself is fenced if nothing it has seen is ahead of the Space. -/
theorem fenced_crown_self {s : System} {coreId : String} {me : Core} {space : Space}
    (hme : selfCore s.machine.cores = some (coreId, me)) :
    Fenced ⟨⟨bumped s.machine.store, crown coreId (space.epoch + 1) s.machine.cores⟩, s.seen, s.seen⟩ ↔
      ∀ e ∈ s.seen, e ≤ space.epoch := by
  rw [fenced_iff_lt]
  dsimp only
  rw [selfCore_crown, hme, Option.map_some, if_pos rfl]
  constructor
  · intro h e he
    have hlt := h coreId _ rfl rfl e he
    push_cast at hlt
    omega
  · intro h k' me' hme' _ e he
    cases hme'
    have hle := h e he
    push_cast
    omega

/-- A Core is not primary once another one has been promoted. -/
theorem fenced_crown_other {s : System} {coreId : String} {n : ℕ}
    (hself : selfId s.machine.cores ≠ some coreId) :
    Fenced ⟨⟨bumped s.machine.store, crown coreId n s.machine.cores⟩, s.seen, s.fenced⟩ := by
  rw [fenced_iff_lt]
  intro k me hme hp
  dsimp only at hme
  rw [selfCore_crown, Option.map_eq_some_iff] at hme
  obtain ⟨⟨k', me'⟩, hme', he⟩ := hme
  have hk : ¬ k' = coreId := fun hk => hself (by rw [selfId, hme', Option.map_some, hk])
  rw [if_neg hk] at he
  cases he
  split at hp
  · cases hp
  · rename_i hnp
    exact absurd hp hnp

theorem fenced_promote {s : System} (h : Fenced s) (coreId : String) :
    Fenced (step s (.promote coreId)) ↔ CaughtUp s (.promote coreId) := by
  cases hgo : goesThrough coreId s.machine with
  | false =>
    obtain ⟨e, hrefused⟩ := promoteRoute_refused hgo
    refine iff_of_true ?_ fun _ hgo' => by rw [hgo] at hgo'; cases hgo'
    have hstep : step s (.promote coreId) =
        ⟨⟨bumped s.machine.store, s.machine.cores⟩, s.seen, s.fenced⟩ := by
      simp only [step, hrefused]
    rw [hstep]
    exact h
  | true =>
    obtain ⟨space, c, hspace, hc, -, hok⟩ := promoteRoute_ok hgo
    have hstep : step s (.promote coreId) =
        ⟨⟨bumped s.machine.store, crown coreId (space.epoch + 1) s.machine.cores⟩, s.seen,
          if selfId s.machine.cores = some coreId then s.seen else s.fenced⟩ := by
      simp only [step, hok]
    rw [hstep]
    by_cases hself : selfId s.machine.cores = some coreId
    · obtain ⟨⟨k, me⟩, hme, hk⟩ := Option.map_eq_some_iff.mp hself
      cases hk
      rw [if_pos hself, fenced_crown_self hme]
      constructor
      · intro hle _ _ space' hs
        rw [hspace] at hs
        cases hs
        exact hle
      · intro hcaught
        exact hcaught hself hgo space hspace
    · rw [if_neg hself]
      exact iff_of_true (fenced_crown_other hself) fun h => absurd h hself

theorem fenced_step {s : System} (h : Fenced s) (call : Call) :
    Fenced (step s call) ↔ CaughtUp s call := by
  cases call with
  | promote coreId => exact fenced_promote h coreId
  | demote coreId =>
    refine iff_of_true ?_ trivial
    show Fenced ⟨(demoteRoute coreId s.machine).2, s.seen, s.fenced⟩
    rw [demoteRoute_snd]
    exact fenced_stoodDown h coreId
  | observe peerCoreId peerEpoch claims =>
    refine iff_of_true ?_ trivial
    show Fenced ⟨⟨s.machine.store, (observePeer peerCoreId peerEpoch claims s.machine.cores).2⟩, _,
      s.fenced⟩
    rcases observePeer_snd peerCoreId peerEpoch claims s.machine.cores with hsame | ⟨k, -, -, hdown⟩
    · rw [hsame]
      exact h
    · rw [hdown]
      exact fenced_stoodDown h k

/-- The runs in which each promotion is fenced against all that was seen before are those in
which the Space's epoch has caught up with it by then. -/
theorem fenced_iff (m : Machine) (calls : List Call) :
    AllStates step Fenced (init m) calls ↔ AllSteps step CaughtUp (init m) calls := by
  refine allStates_iff_allSteps (I := Fenced) ?_ (fun s h => h) ?_ fun coreId me _ _ e he => ?_
  · intro s call h hok
    exact (fenced_step h call).mpr hok
  · intro s call h hbad hf
    exact hbad ((fenced_step h call).mp hf)
  · cases he

/-- A Core at epoch 1 of its Space. -/
def one : Machine where
  store := ⟨some ⟨"space", "Casa", "home", "", 1⟩, .empty, 0, 0, 0⟩
  cores := Dict.empty.set "core-aaaaaaaa"
    ⟨"space", ⟨"sala", "", "", "", false, "", true, []⟩, .primary, 1, "", ""⟩

/-- It stands down for a peer at epoch 9, is promoted to 2, and stands down for the same peer. -/
theorem one_not_fenced :
    ¬ AllStates step Fenced (init one)
      [.observe "core-bbbbbbbb" 9 true, .promote "core-aaaaaaaa"] := by
  intro h
  have hself : selfCore (finish step (init one)
      [.observe "core-bbbbbbbb" 9 true, .promote "core-aaaaaaaa"]).machine.cores =
      some ("core-aaaaaaaa",
        ⟨"space", ⟨"sala", "", "", "", false, "", true, []⟩, .primary, 2, "", ""⟩) := by
    decide +kernel
  exact absurd (h.last _ _ hself rfl 9 (by decide +kernel)).1 (by decide)

end Wavr.Leadership
