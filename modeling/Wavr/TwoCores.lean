import Mathlib.Logic.Function.Basic
import Wavr.CoreLeadership

/-!
# Two Cores of one Space

Each machine has its own Space row and its own registry, and hears of the other only what it
answered at some moment, in any order and as often as it asks.
-/

namespace Wavr.TwoCores
open Run Setup Leadership Text

inductive Side
  | a
  | b
  deriving DecidableEq, Repr

def Side.other : Side → Side
  | .a => .b
  | .b => .a

@[simp] theorem Side.other_other (side : Side) : side.other.other = side := by cases side <;> rfl

/-- What a Core answers about itself. -/
structure Claim where
  epoch : ℕ
  primary : Bool
  deriving DecidableEq

def claimOf (cs : CoreRegistry) : Option Claim :=
  (selfCore cs).map fun e => ⟨e.2.epoch, e.2.status = .primary⟩

structure Node where
  machine : Machine
  /-- Its answers so far, one for each moment. -/
  claims : List Claim
  /-- The epochs of the promotions it has carried out. -/
  stamps : List ℕ
  deriving DecidableEq

inductive Op
  /-- A Core registers with `is_self` the row of its own id and no other. -/
  | register (coreId spaceId : String) (info : CoreInfo) (ts : String)
  | promote (coreId : String)
  | demote (coreId : String)
  /-- It hears the `n`-th answer of the other Core. -/
  | observe (n : ℕ)

def move (own peer : String) (answers : List Claim) (node : Node) : Op → Machine × List ℕ
  | .register coreId spaceId info ts =>
    ({ node.machine with
        cores := (register coreId spaceId { info with isSelf := strip coreId = own } ts none
          node.machine.cores).2 }, node.stamps)
  | .promote coreId =>
    ((promoteRoute coreId node.machine).2,
      match (promoteRoute coreId node.machine).1 with
      | .ok core => node.stamps ++ [core.epoch]
      | .error _ => node.stamps)
  | .demote coreId => ((demoteRoute coreId node.machine).2, node.stamps)
  | .observe n =>
    match answers[n]? with
    | none => (node.machine, node.stamps)
    | some claim =>
      ({ node.machine with
          cores := (observePeer peer claim.epoch claim.primary node.machine.cores).2 }, node.stamps)

/-- The node after the move, with its new answer. -/
def settle (node : Node) (moved : Machine × List ℕ) : Node :=
  ⟨moved.1, node.claims ++ (claimOf moved.1.cores).toList, moved.2⟩

variable (ids : Side → String)

def step (s : Side → Node) (op : Side × Op) : Side → Node :=
  Function.update s op.1
    (settle (s op.1) (move (ids op.1) (ids op.1.other) (s op.1.other).claims (s op.1) op.2))

def init (stores : Side → SpaceStore) (side : Side) : Node := ⟨⟨stores side, .empty⟩, [], []⟩

/-! ## Agreement -/

def AtMostOnePrimary (cs : CoreRegistry) : Prop :=
  ∀ k k' c c', cs.get? k = some c → cs.get? k' = some c' →
    c.status = .primary → c'.status = .primary → k = k'

/-- The higher epoch wins, and the smaller id between equal ones. -/
def Wins (epochs : Side → ℕ) (side : Side) : Prop :=
  epochs side.other < epochs side ∨ (epochs side = epochs side.other ∧ ids side < ids side.other)

def IsPrimary (node : Node) : Prop := ∃ epoch, claimOf node.machine.cores = some ⟨epoch, true⟩

/-- In the window the side hears an answer that the other gives at its start or later. -/
def Hears (s : Side → Node) (window : List (Side × Op)) (side : Side) : Prop :=
  ∃ pre n post claim, window = pre ++ (side, .observe n) :: post ∧
    (finish (step ids) s pre side.other).claims[n]? = some claim ∧
      (s side.other).claims.length ≤ n + 1

/-- Where both are primary and each hears the other, the winner alone is primary afterwards,
whatever else happens of what is `quiet`. -/
def Converges (quiet : Side → Op → Prop) (s : Side → Node) : Prop :=
  ∀ (window : List (Side × Op)) (epochs : Side → ℕ), (∀ op ∈ window, quiet op.1 op.2) →
    (∀ side, claimOf (s side).machine.cores = some ⟨epochs side, true⟩) →
      (∀ side, Hears ids s window side) →
        ∃ side, Wins ids epochs side ∧ IsPrimary (finish (step ids) s window side) ∧
          ¬ IsPrimary (finish (step ids) s window side.other)

/-- One primary row at most and rising epochs in each registry, and convergence of the two. -/
def Agrees (quiet : Side → Op → Prop) (s : Side → Node) : Prop :=
  (∀ side, AtMostOnePrimary (s side).machine.cores ∧ (s side).stamps.Pairwise (· < ·)) ∧
    Converges ids quiet s

def NoPromotion (_ : Side) : Op → Prop
  | .promote _ => False
  | _ => True

/-- No promotion, and no Core is stood down by hand on its own machine. -/
def NoHandover (side : Side) : Op → Prop
  | .promote _ => False
  | .demote coreId => coreId ≠ ids side
  | _ => True

/-! ## One node -/

/-- The rows that say `is_self` are those of the machine's own id. -/
def Named (own : String) (cs : CoreRegistry) : Prop :=
  ∀ k c, cs.get? k = some c → (c.info.isSelf = true ↔ k = own)

def claimAt (c : Core) : Claim := ⟨c.epoch, c.status = .primary⟩

section
variable {own coreId : String} {cs : CoreRegistry}

theorem claimOf_eq (h : Named own cs) : claimOf cs = (cs.get? own).map claimAt := by
  unfold claimOf
  cases hself : selfCore cs with
  | some e =>
    obtain ⟨k, me⟩ := e
    have hget := get?_of_selfCore hself
    have hk : k = own := (h k me hget).mp (isSelf_of_selfCore hself)
    rw [← hk, hget]
    rfl
  | none =>
    cases hown : cs.get? own with
    | none => rfl
    | some c =>
      have hnone := List.find?_eq_none.mp hself (own, c) (Dict.mem_entries.mpr hown)
      exact absurd ((h own c hown).mpr rfl) hnone

theorem Named.map (h : Named own cs) {f : String → Core → Core}
    (hf : ∀ k c, (f k c).info.isSelf = c.info.isSelf) : Named own (cs.map f) := by
  intro k c hc
  rw [Dict.get?_map, Option.map_eq_some_iff] at hc
  obtain ⟨c', hc', rfl⟩ := hc
  rw [hf]
  exact h k c' hc'

theorem Named.stoodDown (h : Named own cs) (coreId : String) : Named own (stoodDown coreId cs) :=
  h.map fun k c => by split <;> rfl

theorem Named.crown (h : Named own cs) (coreId : String) (n : ℕ) :
    Named own (crown coreId n cs) :=
  h.map fun k c => by split_ifs <;> rfl

/-- What a registration leaves: the upsert, or nothing if the id does not fit. -/
theorem register_snd (coreId spaceId : String) (info : CoreInfo) (ts : String) (cs : CoreRegistry) :
    (register coreId spaceId info ts none cs).2 = cs ∨
      (register coreId spaceId info ts none cs).2 = registered (strip coreId) spaceId info ts cs := by
  by_cases hlen : 8 ≤ (strip coreId).length ∧ (strip coreId).length ≤ 64
  · right
    simp only [register, hlen, and_self, not_true_eq_false, if_false, raisedAt, Option.filter_none,
      Option.map_none, ite_self]
  · left
    simp only [register, hlen, not_false_eq_true, if_true]

theorem upsertCore_info (spaceId : String) (info : CoreInfo) (ts : String) (old : Option Core) :
    (upsertCore spaceId info ts old).info = info := by
  cases old <;> rfl

theorem upsertCore_status (spaceId : String) (info : CoreInfo) (ts : String) (old : Option Core) :
    (upsertCore spaceId info ts old).status = (old.map Core.status).getD .standby := by
  cases old <;> rfl

theorem claimAt_upsertCore (spaceId : String) (info : CoreInfo) (ts : String) (old : Option Core) :
    claimAt (upsertCore spaceId info ts old) = (old.map claimAt).getD ⟨0, false⟩ := by
  cases old <;> rfl

variable {spaceId ts : String} {info : CoreInfo}

theorem Named.registered (h : Named own cs) (hself : info.isSelf = decide (coreId = own)) :
    Named own (registered coreId spaceId info ts cs) := by
  intro k c hc
  rw [get?_registered] at hc
  split at hc
  · rename_i hk
    cases hc
    rw [coreRow, upsertCore_info]
    dsimp only
    rw [hself, hk, decide_eq_true_iff]
  · rename_i hk
    unfold cleared at hc
    split at hc
    · rename_i hown
      rw [hself, decide_eq_true_iff] at hown
      rw [clearSelf, Dict.get?_map, Option.map_eq_some_iff] at hc
      obtain ⟨c', -, rfl⟩ := hc
      rw [if_neg hk]
      exact ⟨fun hf => (by cases hf), fun hko => absurd (hko.trans hown.symm) hk⟩
    · exact h k c hc

theorem get?_cleared_claimAt (k : String) :
    ((cleared coreId info cs).get? k).map claimAt = (cs.get? k).map claimAt := by
  unfold cleared
  split
  · rw [clearSelf, Dict.get?_map, Option.map_map]
    congr 1
    funext c
    show claimAt (if k = coreId then c else _) = claimAt c
    split <;> rfl
  · rfl

/-- A registration keeps what the Core claims, or makes it a standby at epoch 0. -/
theorem claimOf_registered (h : Named own cs) (hself : info.isSelf = decide (coreId = own)) :
    claimOf (registered coreId spaceId info ts cs) = claimOf cs ∨
      (claimOf cs = none ∧ claimOf (registered coreId spaceId info ts cs) = some ⟨0, false⟩) := by
  rw [claimOf_eq h, claimOf_eq (h.registered hself), get?_registered]
  split
  · rename_i hown
    subst hown
    rw [Option.map_some, coreRow, claimAt_upsertCore, get?_cleared_claimAt]
    cases (cs.get? own).map claimAt with
    | none => exact .inr ⟨rfl, rfl⟩
    | some claim => exact .inl rfl
  · exact .inl (get?_cleared_claimAt own)

theorem claimOf_stoodDown (h : Named own cs) (coreId : String) :
    claimOf (stoodDown coreId cs) = if own = coreId then (claimOf cs).map fun c => ⟨c.epoch, false⟩
      else claimOf cs := by
  rw [claimOf_eq h, claimOf_eq (h.stoodDown coreId), Leadership.stoodDown, Dict.get?_map]
  by_cases hown : own = coreId
  · simp [hown, Function.comp_def, claimAt]
  · simp [hown]

theorem claimOf_crown (h : Named own cs) (coreId : String) (n : ℕ) :
    claimOf (Setup.crown coreId n cs) =
      if own = coreId then (claimOf cs).map fun _ => ⟨n, true⟩
      else (claimOf cs).map fun c => ⟨c.epoch, false⟩ := by
  rw [claimOf_eq h, claimOf_eq (h.crown coreId n), Setup.crown, Dict.get?_map]
  by_cases hown : own = coreId
  · simp [hown, Function.comp_def, claimAt]
  · simp only [if_neg hown, Option.map_map]
    congr 1
    funext c
    cases hst : c.status <;> simp [claimAt, hst]

/-! ## Primary rows -/

/-- Every primary row of the one registry is primary in the other. -/
def NoNewPrimary (cs cs' : CoreRegistry) : Prop :=
  ∀ k c', cs'.get? k = some c' → c'.status = .primary →
    ∃ c, cs.get? k = some c ∧ c.status = .primary

theorem AtMostOnePrimary.mono {cs' : CoreRegistry} (h : AtMostOnePrimary cs)
    (hsub : NoNewPrimary cs cs') : AtMostOnePrimary cs' := by
  intro k k' c c' hc hc' hp hp'
  obtain ⟨d, hd, hdp⟩ := hsub k c hc hp
  obtain ⟨d', hd', hdp'⟩ := hsub k' c' hc' hp'
  exact h k k' d d' hd hd' hdp hdp'

theorem noNewPrimary_stoodDown (coreId : String) (cs : CoreRegistry) :
    NoNewPrimary cs (Leadership.stoodDown coreId cs) := by
  intro k c' hc hp
  rw [Leadership.stoodDown, Dict.get?_map, Option.map_eq_some_iff] at hc
  obtain ⟨c, hc, rfl⟩ := hc
  split at hp
  · cases hp
  · exact ⟨c, hc, hp⟩

theorem noNewPrimary_registered (coreId spaceId : String) (info : CoreInfo) (ts : String)
    (cs : CoreRegistry) : NoNewPrimary cs (Setup.registered coreId spaceId info ts cs) := by
  have hcleared : NoNewPrimary cs (cleared coreId info cs) := by
    intro k c' hc hp
    have hclaim : ((cleared coreId info cs).get? k).map claimAt = (cs.get? k).map claimAt :=
      get?_cleared_claimAt k
    rw [hc, Option.map_some, eq_comm, Option.map_eq_some_iff] at hclaim
    obtain ⟨c, hget, hcc⟩ := hclaim
    refine ⟨c, hget, ?_⟩
    have hdec : decide (c.status = .primary) = decide (c'.status = .primary) :=
      congrArg Claim.primary hcc
    rw [decide_eq_decide] at hdec
    exact hdec.mpr hp
  intro k c' hc hp
  rw [get?_registered] at hc
  split at hc
  · rename_i hk
    subst hk
    cases hc
    rw [coreRow, upsertCore_status] at hp
    cases hget : (cleared k info cs).get? k with
    | none =>
      rw [hget] at hp
      cases hp
    | some c =>
      rw [hget] at hp
      exact hcleared k c hget hp
  · exact hcleared k c' hc hp

theorem atMostOnePrimary_crown (coreId : String) (n : ℕ) (cs : CoreRegistry) :
    AtMostOnePrimary (Setup.crown coreId n cs) := by
  have key : ∀ k c, (Setup.crown coreId n cs).get? k = some c → c.status = .primary →
      k = coreId := by
    intro k c hc hp
    rw [Setup.crown, Dict.get?_map, Option.map_eq_some_iff] at hc
    obtain ⟨c', -, rfl⟩ := hc
    by_contra hk
    rw [if_neg hk] at hp
    split at hp
    · cases hp
    · rename_i hnp
      exact hnp hp
  intro k k' c c' hc hc' hp hp'
  rw [key k c hc hp, key k' c' hc' hp']

/-! ## What is heard -/

/-- The claim stays, unless the Core is primary and hears of one that is ahead of it. -/
theorem claimOf_observePeer (h : Named own cs) {e n : ℕ} {p : Bool}
    (hc : claimOf cs = some ⟨e, p⟩) (peer : String) (claims : Bool) :
    claimOf (observePeer peer n claims cs).2 =
      some ⟨e, decide (p = true ∧ ¬ (claims = true ∧ (e < n ∨ (e = n ∧ peer < own))))⟩ := by
  unfold claimOf at hc
  rw [Option.map_eq_some_iff] at hc
  obtain ⟨⟨k, me⟩, hself, he⟩ := hc
  have hk : k = own := (h k me (get?_of_selfCore hself)).mp (isSelf_of_selfCore hself)
  subst hk
  cases he
  have hsame : claimOf cs = some ⟨me.epoch, me.status = .primary⟩ := by
    rw [claimOf, hself, Option.map_some]
  have hdown : claimOf (Leadership.stoodDown k cs) = some ⟨me.epoch, false⟩ := by
    rw [claimOf_stoodDown h, if_pos rfl, hsame, Option.map_some]
  unfold observePeer
  rw [hself]
  dsimp only
  split_ifs with h₁ h₂ h₃ h₄ h₅
  · rw [hsame]
    simp [h₁]
  · rw [hsame]
    simp [h₂]
  · rw [demote_snd, hdown]
    simp at h₃
    simp [h₂, h₃]
  · rw [hsame]
    simp at h₄
    have hne : me.epoch ≠ n := by omega
    have hnlt : ¬ me.epoch < n := by omega
    simp [hne, hnlt]
  · rw [demote_snd, hdown]
    have heq : me.epoch = n := by omega
    simp [h₂, heq, h₅]
  · rw [hsame]
    have heq : me.epoch = n := by omega
    simp [heq, h₅]

theorem epoch_le_highest {claim : Claim} (h : claimOf cs = some claim) :
    claim.epoch ≤ highest cs := by
  unfold claimOf at h
  rw [Option.map_eq_some_iff] at h
  obtain ⟨⟨k, me⟩, hself, rfl⟩ := h
  exact highest_le_iff.mp le_rfl k me (get?_of_selfCore hself)

/-! ## Moves of a node -/

/-- What a node keeps: one primary row at most, rising stamps none of which is ahead of the
Space, and answers of which the last is what the Core claims and none is ahead of it. -/
structure Inv (own : String) (node : Node) : Prop where
  named : Named own node.machine.cores
  single : AtMostOnePrimary node.machine.cores
  stamped : ∀ e ∈ node.stamps, ∃ space, node.machine.store.space = some space ∧ e ≤ space.epoch
  rising : node.stamps.Pairwise (· < ·)
  latest : node.claims.getLast? = claimOf node.machine.cores
  bounded : ∀ c ∈ node.claims, ∃ me, claimOf node.machine.cores = some me ∧ c.epoch ≤ me.epoch

/-- The epoch a Core claims does not fall. -/
def Grows (old new : Option Claim) : Prop :=
  ∀ c, old = some c → ∃ c', new = some c' ∧ c.epoch ≤ c'.epoch

theorem Grows.refl (c : Option Claim) : Grows c c := fun c h => ⟨c, h, le_rfl⟩

theorem grows_stoodDown (h : Named own cs) (coreId : String) :
    Grows (claimOf cs) (claimOf (Leadership.stoodDown coreId cs)) := by
  intro c hc
  rw [claimOf_stoodDown h, hc]
  split
  · exact ⟨_, rfl, le_rfl⟩
  · exact ⟨c, rfl, le_rfl⟩

theorem grows_crown (h : Named own cs) (coreId : String) {n : ℕ} (hn : highest cs ≤ n) :
    Grows (claimOf cs) (claimOf (Setup.crown coreId (n + 1) cs)) := by
  intro c hc
  have hle := epoch_le_highest hc
  rw [claimOf_crown h, hc]
  split
  · exact ⟨_, rfl, by dsimp only; omega⟩
  · exact ⟨_, rfl, le_rfl⟩

/-- A move that keeps the rest keeps the answers in step. -/
theorem Inv.settle {node : Node} (hi : Inv own node) {moved : Machine × List ℕ}
    (hnamed : Named own moved.1.cores) (hsingle : AtMostOnePrimary moved.1.cores)
    (hstamped : ∀ e ∈ moved.2, ∃ space, moved.1.store.space = some space ∧ e ≤ space.epoch)
    (hrising : moved.2.Pairwise (· < ·))
    (hgrows : Grows (claimOf node.machine.cores) (claimOf moved.1.cores)) :
    Inv own (settle node moved) where
  named := hnamed
  single := hsingle
  stamped := hstamped
  rising := hrising
  latest := by
    show (node.claims ++ (claimOf moved.1.cores).toList).getLast? = claimOf moved.1.cores
    cases hnew : claimOf moved.1.cores with
    | some c => rw [Option.toList_some, List.getLast?_concat]
    | none =>
      rw [Option.toList_none, List.append_nil, hi.latest]
      cases hold : claimOf node.machine.cores with
      | none => rfl
      | some c =>
        obtain ⟨c', hc', -⟩ := hgrows c hold
        rw [hnew] at hc'
        cases hc'
  bounded := by
    intro c hc
    show ∃ me, claimOf moved.1.cores = some me ∧ c.epoch ≤ me.epoch
    rcases List.mem_append.mp hc with hold | hnew
    · obtain ⟨me, hme, hle⟩ := hi.bounded c hold
      obtain ⟨me', hme', hle'⟩ := hgrows me hme
      exact ⟨me', hme', hle.trans hle'⟩
    · exact ⟨c, Option.mem_toList.mp hnew, le_rfl⟩

/-- The Space's epoch only rises, so a stamp taken after a bump is above all before. -/
theorem stamped_bumped {stamps : List ℕ} {store : SpaceStore}
    (h : ∀ e ∈ stamps, ∃ space, store.space = some space ∧ e ≤ space.epoch) :
    ∀ e ∈ stamps, ∃ space, (bumped store).space = some space ∧ e ≤ space.epoch := by
  intro e he
  obtain ⟨space, hs, hle⟩ := h e he
  exact ⟨_, by rw [bumped, hs, Option.map_some], Nat.le_succ_of_le hle⟩

/-- A registration stamps nothing and touches the registry only. It is the node's own where the
id says so. -/
theorem move_register (peer : String) (answers : List Claim) (node : Node)
    (coreId spaceId : String) (info : CoreInfo) (ts : String) :
    move own peer answers node (.register coreId spaceId info ts) = (node.machine, node.stamps) ∨
    ∃ mine : CoreInfo, mine.isSelf = decide (strip coreId = own) ∧
      move own peer answers node (.register coreId spaceId info ts) =
        ({ node.machine with
            cores := registered (strip coreId) spaceId mine ts node.machine.cores }, node.stamps) := by
  unfold move
  dsimp only
  rcases register_snd coreId spaceId { info with isSelf := strip coreId = own } ts
    node.machine.cores with hsame | hrow
  · rw [hsame]
    exact .inl rfl
  · rw [hrow]
    refine .inr ⟨{ info with isSelf := strip coreId = own }, ?_, ?_⟩
    · rfl
    · rfl

/-- A promotion always bumps the Space. Where it goes through, it is stamped with the new epoch. -/
theorem move_promote (own peer : String) (answers : List Claim) (node : Node) (coreId : String) :
    move own peer answers node (.promote coreId) =
        (⟨bumped node.machine.store, node.machine.cores⟩, node.stamps) ∨
      ∃ space, node.machine.store.space = some space ∧ highest node.machine.cores ≤ space.epoch ∧
        move own peer answers node (.promote coreId) =
          (⟨bumped node.machine.store, Setup.crown coreId (space.epoch + 1) node.machine.cores⟩,
            node.stamps ++ [space.epoch + 1]) := by
  cases hgo : goesThrough coreId node.machine with
  | false =>
    obtain ⟨e, hrefused⟩ := promoteRoute_refused hgo
    left
    simp only [move, hrefused]
  | true =>
    obtain ⟨space, c, hspace, -, hhigh, hok⟩ := promoteRoute_ok hgo
    refine .inr ⟨space, hspace, hhigh, ?_⟩
    simp only [move, hok]

theorem move_demote (own peer : String) (answers : List Claim) (node : Node) (coreId : String) :
    move own peer answers node (.demote coreId) =
      ({ node.machine with cores := Leadership.stoodDown coreId node.machine.cores },
        node.stamps) := by
  simp only [move, demoteRoute_snd]

/-- All that hearing a peer can do is stand a Core down. -/
theorem move_observe (own peer : String) (answers : List Claim) (node : Node) (n : ℕ) :
    move own peer answers node (.observe n) = (node.machine, node.stamps) ∨
      ∃ coreId, move own peer answers node (.observe n) =
        ({ node.machine with cores := Leadership.stoodDown coreId node.machine.cores },
          node.stamps) := by
  cases hn : answers[n]? with
  | none =>
    left
    simp only [move, hn]
  | some claim =>
    rcases observePeer_snd peer claim.epoch claim.primary node.machine.cores with hsame |
      ⟨coreId, -, -, hdown⟩
    · left
      simp only [move, hn, hsame]
    · right
      exact ⟨coreId, by simp only [move, hn, hdown]⟩

theorem Inv.keep {node : Node} (hi : Inv own node) :
    Inv own (TwoCores.settle node (node.machine, node.stamps)) :=
  hi.settle hi.named hi.single hi.stamped hi.rising (Grows.refl _)

theorem Inv.stoodDown {node : Node} (hi : Inv own node) (coreId : String) :
    Inv own (TwoCores.settle node
      ({ node.machine with cores := Leadership.stoodDown coreId node.machine.cores },
        node.stamps)) :=
  hi.settle (hi.named.stoodDown _) (hi.single.mono (noNewPrimary_stoodDown _ _)) hi.stamped
    hi.rising (grows_stoodDown hi.named _)

theorem Inv.crowned {node : Node} (hi : Inv own node) (coreId : String) {space : Space}
    (hspace : node.machine.store.space = some space)
    (hhigh : highest node.machine.cores ≤ space.epoch) :
    Inv own (TwoCores.settle node
      (⟨bumped node.machine.store, Setup.crown coreId (space.epoch + 1) node.machine.cores⟩,
        node.stamps ++ [space.epoch + 1])) := by
  refine hi.settle (hi.named.crown _ _) (atMostOnePrimary_crown _ _ _) (fun e he => ?_) ?_
    (grows_crown hi.named coreId hhigh)
  · rcases List.mem_append.mp he with hold | hnew
    · exact stamped_bumped hi.stamped e hold
    · rw [List.mem_singleton.mp hnew]
      exact ⟨_, by dsimp only; rw [bumped, hspace, Option.map_some], le_rfl⟩
  · refine List.pairwise_append.mpr ⟨hi.rising, List.pairwise_singleton _ _, ?_⟩
    intro e he e' he'
    rw [List.mem_singleton.mp he']
    obtain ⟨space', hs, hle⟩ := hi.stamped e he
    rw [hspace] at hs
    cases hs
    exact Nat.lt_succ_of_le hle

theorem Inv.move {peer : String} {answers : List Claim} {node : Node} (hi : Inv own node) (op : Op) :
    Inv own (TwoCores.settle node (move own peer answers node op)) := by
  cases op with
  | register coreId spaceId info ts =>
    rcases move_register peer answers node coreId spaceId info ts with hsame | ⟨mine, hself, hrow⟩
    · rw [hsame]
      exact hi.keep
    · rw [hrow]
      refine hi.settle (hi.named.registered hself) (hi.single.mono (noNewPrimary_registered _ _ _ _ _))
        hi.stamped hi.rising fun c hc => ?_
      rcases claimOf_registered hi.named hself with h | ⟨hnone, -⟩
      · exact ⟨c, h.trans hc, le_rfl⟩
      · rw [hnone] at hc
        cases hc
  | promote coreId =>
    rcases move_promote own peer answers node coreId with hrefused | ⟨space, hspace, hhigh, hok⟩
    · rw [hrefused]
      exact hi.settle hi.named hi.single (stamped_bumped hi.stamped) hi.rising (Grows.refl _)
    · rw [hok]
      exact hi.crowned coreId hspace hhigh
  | demote coreId =>
    rw [move_demote]
    exact hi.stoodDown coreId
  | observe n =>
    rcases move_observe own peer answers node n with hsame | ⟨coreId, hdown⟩
    · rw [hsame]
      exact hi.keep
    · rw [hdown]
      exact hi.stoodDown coreId

/-- Without a handover a Core keeps its claim, unless it is primary and hears of one that is
ahead of it. -/
theorem claimOf_move (peer : String) (answers : List Claim) {node : Node} (hi : Inv own node)
    {e : ℕ} {p : Bool} (hc : claimOf node.machine.cores = some ⟨e, p⟩) {op : Op}
    (hpromote : ∀ coreId, op ≠ .promote coreId) (hdemote : op ≠ .demote own) :
    claimOf (move own peer answers node op).1.cores = some ⟨e, p⟩ ∨
      ∃ n claim, op = .observe n ∧ answers[n]? = some claim ∧ claim.primary = true ∧
        (e < claim.epoch ∨ (e = claim.epoch ∧ peer < own)) ∧
        claimOf (move own peer answers node op).1.cores = some ⟨e, false⟩ := by
  cases op with
  | promote coreId => exact absurd rfl (hpromote coreId)
  | register coreId spaceId info ts =>
    left
    rcases move_register peer answers node coreId spaceId info ts with hsame | ⟨mine, hself, hrow⟩
    · rw [hsame]
      exact hc
    · rw [hrow]
      rcases claimOf_registered hi.named hself with h | ⟨hnone, -⟩
      · exact h.trans hc
      · rw [hc] at hnone
        cases hnone
  | demote coreId =>
    left
    have hne : ¬ own = coreId := fun h => hdemote (by rw [h])
    rw [move_demote]
    dsimp only
    rw [claimOf_stoodDown hi.named, if_neg hne]
    exact hc
  | observe n =>
    dsimp only [move]
    cases hn : answers[n]? with
    | none => exact .inl hc
    | some claim =>
      dsimp only
      rw [claimOf_observePeer hi.named hc]
      -- only a primary Core stands down, and only before a primary claim ahead of its own
      by_cases hahead : p = true ∧ claim.primary = true ∧
          (e < claim.epoch ∨ (e = claim.epoch ∧ peer < own))
      · refine .inr ⟨n, claim, rfl, hn, hahead.2.1, hahead.2.2, ?_⟩
        rw [decide_eq_false fun h => h.2 hahead.2]
      · left
        cases p with
        | false => rw [decide_eq_false fun h => Bool.false_ne_true h.1]
        | true => rw [decide_eq_true ⟨rfl, fun h => hahead ⟨rfl, h⟩⟩]

/-- A Core that hears of a claim that is ahead of its own is not primary afterwards. -/
theorem claimOf_heard {peer : String} {answers : List Claim} {node : Node} (hi : Inv own node)
    {e : ℕ} {p : Bool} (hc : claimOf node.machine.cores = some ⟨e, p⟩) {n : ℕ} {claim : Claim}
    (hn : answers[n]? = some claim) (hp : claim.primary = true)
    (hahead : e < claim.epoch ∨ (e = claim.epoch ∧ peer < own)) :
    claimOf (move own peer answers node (.observe n)).1.cores = some ⟨e, false⟩ := by
  dsimp only [move]
  rw [hn]
  dsimp only
  rw [claimOf_observePeer hi.named hc, decide_eq_false fun h => h.2 ⟨hp, hahead⟩]

end

/-! ## A window without a handover -/

section
variable {ids} {s w : Side → Node} {epochs : Side → ℕ} {win : Side} {op : Side × Op}

@[simp] theorem step_same (w : Side → Node) (side : Side) (op : Op) :
    step ids w (side, op) side =
      settle (w side) (move (ids side) (ids side.other) (w side.other).claims (w side) op) :=
  Function.update_self ..

@[simp] theorem step_other {side side' : Side} (h : side' ≠ side) (w : Side → Node) (op : Op) :
    step ids w (side, op) side' = w side' :=
  Function.update_of_ne h ..

/-- What holds in the window: epochs stand still, the winner leads, and all it answers from the
start of the window on is that it does. -/
structure Window (ids : Side → String) (s : Side → Node) (epochs : Side → ℕ) (win : Side)
    (w : Side → Node) : Prop where
  node : ∀ side, Inv (ids side) (w side)
  epoch : ∀ side, ∃ p, claimOf (w side).machine.cores = some ⟨epochs side, p⟩
  lead : claimOf (w win).machine.cores = some ⟨epochs win, true⟩
  answers : ∀ (n : ℕ) (c : Claim), (w win).claims[n]? = some c → (s win).claims.length ≤ n + 1 →
    c = ⟨epochs win, true⟩

theorem NoHandover.ne {side : Side} {op : Op} (h : NoHandover ids side op) :
    (∀ coreId, op ≠ .promote coreId) ∧ op ≠ .demote (ids side) := by
  constructor
  · rintro coreId rfl
    exact h
  · rintro rfl
    exact h rfl

/-- The winner's claim is ahead of whatever the other answers. -/
theorem Window.not_ahead (hw : Window ids s epochs win w) (hwin : Wins ids epochs win) {n : ℕ}
    {c : Claim} (hc : (w win.other).claims[n]? = some c) :
    ¬ (epochs win < c.epoch ∨ (epochs win = c.epoch ∧ ids win.other < ids win)) := by
  obtain ⟨me, hme, hle⟩ := (hw.node win.other).bounded c (List.mem_of_getElem? hc)
  obtain ⟨p, hp⟩ := hw.epoch win.other
  rw [hp] at hme
  cases hme
  rintro (hlt | ⟨heq, hid⟩)
  · rcases hwin with h | ⟨h, -⟩ <;> dsimp only at hle <;> omega
  · rcases hwin with h | ⟨-, hid'⟩
    · dsimp only at hle
      omega
    · exact String.lt_asymm hid hid'

theorem Window.epoch_step (hw : Window ids s epochs win w) (hquiet : NoHandover ids op.1 op.2) :
    ∃ p, claimOf (step ids w op op.1).machine.cores = some ⟨epochs op.1, p⟩ := by
  obtain ⟨hpromote, hdemote⟩ := hquiet.ne
  obtain ⟨p, hp⟩ := hw.epoch op.1
  rw [step_same]
  rcases claimOf_move (ids op.1.other) (w op.1.other).claims (hw.node op.1) hp hpromote hdemote with
    h | ⟨-, -, -, -, -, -, h⟩
  · exact ⟨p, h⟩
  · exact ⟨false, h⟩

/-- The winner hears of nothing that is ahead of it. -/
theorem Window.lead_step (hw : Window ids s epochs win w) (hwin : Wins ids epochs win)
    (hquiet : NoHandover ids op.1 op.2) :
    claimOf (step ids w op win).machine.cores = some ⟨epochs win, true⟩ := by
  obtain ⟨side, op⟩ := op
  by_cases hs : win = side
  · subst hs
    obtain ⟨hpromote, hdemote⟩ := hquiet.ne
    rw [step_same]
    rcases claimOf_move (ids win.other) (w win.other).claims (hw.node win) hw.lead hpromote hdemote
      with h | ⟨n, c, -, hc, -, hahead, -⟩
    · exact h
    · exact absurd hahead (hw.not_ahead hwin hc)
  · rw [step_other hs]
    exact hw.lead

theorem Window.answers_step (hw : Window ids s epochs win w)
    (hlead : claimOf (step ids w op win).machine.cores = some ⟨epochs win, true⟩) {n : ℕ} {c : Claim}
    (hn : (step ids w op win).claims[n]? = some c) (hlen : (s win).claims.length ≤ n + 1) :
    c = ⟨epochs win, true⟩ := by
  obtain ⟨side, op⟩ := op
  by_cases hs : win = side
  · subst hs
    rw [step_same] at hn hlead
    have hnew : claimOf (move (ids win) (ids win.other) (w win.other).claims (w win) op).1.cores =
        some ⟨epochs win, true⟩ := hlead
    unfold settle at hn
    dsimp only at hn
    rw [hnew, Option.toList_some] at hn
    rcases Nat.lt_or_ge n (w win).claims.length with hlt | hge
    · rw [List.getElem?_append_left hlt] at hn
      exact hw.answers n c hn hlen
    · rw [List.getElem?_append_right hge] at hn
      have hmem := List.mem_of_getElem? hn
      exact List.mem_singleton.mp hmem
  · rw [step_other hs] at hn
    exact hw.answers n c hn hlen

theorem Window.step (hw : Window ids s epochs win w) (hwin : Wins ids epochs win)
    (hquiet : NoHandover ids op.1 op.2) : Window ids s epochs win (step ids w op) := by
  have hlead := hw.lead_step hwin hquiet
  have hepoch := hw.epoch_step hquiet
  obtain ⟨side, op⟩ := op
  refine ⟨fun side' => ?_, fun side' => ?_, hlead, fun n c hn hlen => hw.answers_step hlead hn hlen⟩
  · by_cases hs : side' = side
    · subst hs
      rw [step_same]
      exact (hw.node side').move op
    · rw [step_other hs]
      exact hw.node side'
  · by_cases hs : side' = side
    · subst hs
      exact hepoch
    · rw [step_other hs]
      exact hw.epoch side'

theorem Window.start (hi : ∀ side, Inv (ids side) (s side))
    (hp : ∀ side, claimOf (s side).machine.cores = some ⟨epochs side, true⟩) :
    Window ids s epochs win s := by
  refine ⟨hi, fun side => ⟨true, hp side⟩, hp win, fun n c hn hlen => ?_⟩
  have hlast := (hi win).latest
  rw [hp win, List.getLast?_eq_getElem?] at hlast
  have hlt : n < (s win).claims.length := (List.getElem?_eq_some_iff.mp hn).1
  have hidx : (s win).claims.length - 1 = n := by omega
  rw [hidx, hn] at hlast
  exact Option.some.inj hlast

/-- A Core that stood down stays down. -/
theorem down_step (hw : Window ids s epochs win w) {side : Side}
    (hdown : claimOf (w side).machine.cores = some ⟨epochs side, false⟩)
    (hquiet : NoHandover ids op.1 op.2) :
    claimOf (step ids w op side).machine.cores = some ⟨epochs side, false⟩ := by
  obtain ⟨side', op⟩ := op
  obtain ⟨hpromote, hdemote⟩ := hquiet.ne
  by_cases hs : side = side'
  · subst hs
    rw [step_same]
    rcases claimOf_move (ids side.other) (w side.other).claims (hw.node side) hdown hpromote
      hdemote with h | ⟨-, -, -, -, -, -, h⟩
    · exact h
    · exact h
  · rw [step_other hs]
    exact hdown

theorem exists_wins (hids : ids .a ≠ ids .b) (epochs : Side → ℕ) : ∃ win, Wins ids epochs win := by
  rcases Nat.lt_trichotomy (epochs .a) (epochs .b) with hlt | heq | hgt
  · exact ⟨.b, .inl hlt⟩
  · by_cases hid : ids .a < ids .b
    · exact ⟨.a, .inr ⟨heq, hid⟩⟩
    · refine ⟨.b, .inr ⟨heq.symm, ?_⟩⟩
      by_contra hid'
      exact hids (String.le_antisymm (String.not_lt.mp hid') (String.not_lt.mp hid))
  · exact ⟨.a, .inl hgt⟩

theorem Window.run (hw : Window ids s epochs win w) (hwin : Wins ids epochs win)
    {ops : List (Side × Op)} (hquiet : ∀ op ∈ ops, NoHandover ids op.1 op.2) :
    Window ids s epochs win (finish (TwoCores.step ids) w ops) := by
  have hok : AllSteps (TwoCores.step ids) (fun _ op => NoHandover ids op.1 op.2) w ops :=
    allSteps_of_forall fun op hop _ => hquiet op hop
  exact finish_of_invariant (fun _ _ hw hq => Window.step hw hwin hq) hw hok

theorem down_run (hw : Window ids s epochs win w) (hwin : Wins ids epochs win) {side : Side}
    (hdown : claimOf (w side).machine.cores = some ⟨epochs side, false⟩)
    {ops : List (Side × Op)} (hquiet : ∀ op ∈ ops, NoHandover ids op.1 op.2) :
    claimOf (finish (step ids) w ops side).machine.cores = some ⟨epochs side, false⟩ := by
  have hok : AllSteps (step ids) (fun _ op => NoHandover ids op.1 op.2) w ops :=
    allSteps_of_forall fun op hop _ => hquiet op hop
  have hstep : ∀ (w : Side → Node) (op : Side × Op), (Window ids s epochs win w ∧
      claimOf (w side).machine.cores = some ⟨epochs side, false⟩) → NoHandover ids op.1 op.2 →
      Window ids s epochs win (step ids w op) ∧
        claimOf (step ids w op side).machine.cores = some ⟨epochs side, false⟩ :=
    fun w op hw hq => ⟨hw.1.step hwin hq, down_step hw.1 hw.2 hq⟩
  exact (finish_of_invariant hstep ⟨hw, hdown⟩ hok).2

theorem converges_of_inv (hids : ids .a ≠ ids .b) (hi : ∀ side, Inv (ids side) (s side)) :
    Converges ids (NoHandover ids) s := by
  intro window epochs hquiet hprimary hhears
  obtain ⟨win, hwin⟩ := exists_wins hids epochs
  have hstart : Window ids s epochs win s := Window.start hi hprimary
  refine ⟨win, hwin, ⟨_, (hstart.run hwin hquiet).lead⟩, ?_⟩
  -- the loser hears of the winner, and from there on it is down
  obtain ⟨pre, n, post, claim, rfl, hclaim, hlen⟩ := hhears win.other
  rw [Side.other_other] at hclaim hlen
  have hpre : Window ids s epochs win (finish (step ids) s pre) :=
    hstart.run hwin fun op hop => hquiet op (List.mem_append_left _ hop)
  have hfresh := hpre.answers n claim hclaim hlen
  obtain ⟨p, hp⟩ := hpre.epoch win.other
  have hahead : epochs win.other < claim.epoch ∨
      (epochs win.other = claim.epoch ∧ ids win.other.other < ids win.other) := by
    rw [hfresh, Side.other_other]
    rcases hwin with h | ⟨h, hid⟩
    · exact .inl h
    · exact .inr ⟨h.symm, hid⟩
  have hdown : claimOf (step ids (finish (step ids) s pre) (win.other, .observe n)
      win.other).machine.cores = some ⟨epochs win.other, false⟩ := by
    rw [step_same]
    refine claimOf_heard (hpre.node win.other) hp ?_ (by rw [hfresh]) hahead
    rw [Side.other_other]
    exact hclaim
  have hlast := down_run (hpre.step hwin (hquiet (win.other, .observe n) (by simp))) hwin hdown
    fun op hop => hquiet op (List.mem_append_right _ (List.mem_cons_of_mem _ hop))
  rw [finish_append, finish_cons]
  rintro ⟨e, he⟩
  rw [hlast] at he
  cases he

theorem inv_step (hi : ∀ side, Inv (ids side) (s side)) (op : Side × Op) (side : Side) :
    Inv (ids side) (step ids s op side) := by
  obtain ⟨side', op⟩ := op
  by_cases hs : side = side'
  · subst hs
    rw [step_same]
    exact (hi side).move op
  · rw [step_other hs]
    exact hi side

theorem inv_init (stores : Side → SpaceStore) (side : Side) : Inv (ids side) (init stores side) where
  named := by
    intro k c hc
    cases hc
  single := by
    intro k k' c c' hc
    cases hc
  stamped := by
    intro e he
    cases he
  rising := List.Pairwise.nil
  latest := rfl
  bounded := by
    intro c hc
    cases hc

end

/-! ## Runs -/

/-- In every state of every run each registry has one primary row at most and its promotions
carry rising epochs; and two primary Cores that hear each other end with the winner alone, as
long as nobody promotes or stands one down by hand. -/
theorem agrees (hids : ids .a ≠ ids .b) (stores : Side → SpaceStore) (ops : List (Side × Op)) :
    AllStates (step ids) (Agrees ids (NoHandover ids)) (init stores) ops := by
  have hok : AllSteps (step ids) (fun _ _ => True) (init stores) ops :=
    allSteps_of_forall fun _ _ _ => trivial
  refine allStates_of_invariant (I := fun s => ∀ side, Inv (ids side) (s side))
    (fun s op hi _ side => inv_step (s := s) hi op side) (fun s hi => ⟨fun side => ?_, ?_⟩) (inv_init stores) hok
  · exact ⟨(hi side).single, (hi side).rising⟩
  · exact converges_of_inv hids hi

def names : Side → String
  | .a => "core-aaaaaaaa"
  | .b => "core-bbbbbbbb"

def stores (_ : Side) : SpaceStore := ⟨some ⟨"space", "Casa", "home", "", 1⟩, .empty, 0, 0, 0⟩

def registration (side : Side) : Side × Op :=
  (side, .register (names side) "space" ⟨"sala", "", "", "", false, "", false, []⟩ "")

/-- Both Cores are promoted, the one to epoch 2 and the other to 3. -/
def bothPromoted : List (Side × Op) :=
  [registration .a, registration .b, (.a, .promote (names .a)), (.b, .promote (names .b)),
    (.b, .promote (names .b))]

theorem agrees_bothPromoted :
    AllStates (step names) (Agrees names (NoHandover names)) (init stores) bothPromoted :=
  agrees names (by decide) stores bothPromoted

/-- The winner is stood down by hand before the loser hears of it: the loser stays. -/
theorem not_agrees_demoted :
    ¬ AllStates (step names) (Agrees names NoPromotion) (init stores) bothPromoted := by
  intro h
  have hconv := h.last.2
  have hcurrent : ∀ side : Side, Hears names (finish (step names) (init stores) bothPromoted)
      [(.b, .demote (names .b)), (.a, .observe 3), (.b, .observe 2)] side := by
    intro side
    cases side with
    | a => exact ⟨[(.b, .demote (names .b))], 3, [(.b, .observe 2)], ⟨3, false⟩, rfl,
        by decide +kernel, by decide +kernel⟩
    | b => exact ⟨[(.b, .demote (names .b)), (.a, .observe 3)], 2, [], ⟨2, true⟩, rfl,
        by decide +kernel, by decide +kernel⟩
  obtain ⟨side, hwins, ⟨e, hprimary⟩, -⟩ := hconv _ (fun side => if side = .a then 2 else 3)
    (by simp [NoPromotion]) (fun side => by cases side <;> decide +kernel) hcurrent
  cases side with
  | a => rcases hwins with hlt | ⟨heq, -⟩ <;> simp [Side.other] at *
  | b =>
    have hdown : claimOf (finish (step names) (finish (step names) (init stores) bothPromoted)
        [(.b, .demote (names .b)), (.a, .observe 3), (.b, .observe 2)] .b).machine.cores =
          some ⟨3, false⟩ := by decide +kernel
    rw [hdown] at hprimary
    cases hprimary

end Wavr.TwoCores
