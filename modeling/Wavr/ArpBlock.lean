import Mathlib.Algebra.Order.Field.Rat
import Mathlib.Data.Rat.Floor
import Wavr.Dict
import Wavr.IpAddress
import Wavr.Run

/-!
# ARP device blocking

`ArpBlocker`: the table of active blocks, the audit ring, and the log of what was handed to
the ARP transport. A transport that is wired accepts every frame.
-/

namespace Wavr.ArpBlock
open Text Run

variable (lower : String → String)

def METADATA_IPS : List (List Char) := ["169.254.169.254".toList, "fd00:ec2::254".toList]

def normMac (mac : String) : String :=
  lower (String.ofList ((strip mac).toList.map fun c => if c = '-' ∨ c = '.' then ':' else c))

/-- A record of the LAN inventory. -/
structure Device where
  mac : String
  ip : String
  isGateway : Bool
  deriving DecidableEq

/-- What a block request is judged against. -/
structure Lan where
  inventory : List Device
  gateway : Option Device
  localIp : String
  /-- The gateway address derived without the inventory flag. -/
  gatewayIp : Option String
  deriving DecidableEq

/-- The normalised MAC and the IP of an acceptable target, or the text of the ValueError. -/
def validateTarget (mac : String) (lan : Lan) : Except String (String × String) :=
  let m := normMac lower mac
  let lip := strip lan.localIp
  if m = "" then .error "mac is required"
  else if lip = "" then
    .error "cannot determine this host's LAN IP; refusing to block for safety"
  else match lan.gateway with
  | none => .error "gateway not positively identified this scan; refusing to block for safety"
  | some gateway =>
    let gwMac := normMac lower gateway.mac
    -- an address the scan left blank denies nothing
    let deniedGwIps := [strip gateway.ip, strip (lan.gatewayIp.getD "")].filter (· ≠ "")
    if gwMac ≠ "" ∧ gwMac = m then
      .error "refusing to block the gateway (would DoS the whole LAN)"
    else match lan.inventory.find? fun d => normMac lower d.mac = m with
    | none => .error "target MAC is not in the current inventory"
    | some target =>
      if target.isGateway then .error "refusing to block the gateway (would DoS the whole LAN)"
      else
        let ip := strip target.ip
        if ip = "" then .error "target has no resolved IP"
        else match IpAddress.ipAddress ip.toList with
        | none => .error "target IP is not a valid address"
        | some addr =>
          if METADATA_IPS.any fun m => m = addr.compressed ∨ m = ip.toList then
            .error "refusing cloud-metadata address"
          else if ¬ addr.isPrivate ∨ addr.isLoopback ∨ addr.isLinkLocal ∨ addr.isMulticast ∨
              addr.isReserved ∨ addr.isUnspecified then
            .error "target IP must be a private LAN address"
          else if ip = lip then .error "refusing to block this host"
          else if ip ∈ deniedGwIps then
            .error "refusing to block the gateway (would DoS the whole LAN)"
          else if ¬ IpAddress.sameSlash24 ip.toList lip.toList then
            .error "target IP is outside this host's /24"
          else .ok (m, ip)

structure Block where
  mac : String
  ip : String
  gatewayIp : String
  expiresAt : ℚ
  deriving DecidableEq

inductive EventKind
  | block
  | unblock
  | reassert
  | expire
  | restore
  deriving DecidableEq, Repr

/-- An audit record, without its timestamp. -/
structure Event where
  kind : EventKind
  mac : String
  ip : String
  detail : String
  deriving DecidableEq

/-- One frame given to the transport: a poison, or with `restore` a corrective one. -/
structure Frame where
  ip : String
  mac : String
  gatewayIp : String
  restore : Bool
  deriving DecidableEq

/-- The constructor's arguments after clamping. -/
structure Config where
  /-- A transport is wired. -/
  available : Bool
  ttl : ℚ
  maxBlocks : ℕ
  maxEvents : ℕ
  one_le_ttl : 1 ≤ ttl
  maxBlocks_pos : 0 < maxBlocks
  maxEvents_pos : 0 < maxEvents

def Config.ofArgs (available : Bool) (ttl : ℚ) (maxBlocks maxEvents : ℤ) : Config where
  available
  ttl := max 1 ttl
  maxBlocks := (max 1 maxBlocks).toNat
  maxEvents := (max 1 maxEvents).toNat
  one_le_ttl := le_max_left _ _
  maxBlocks_pos := by omega
  maxEvents_pos := by omega

structure ArpBlocker where
  /-- Active blocks by MAC. -/
  blocks : Dict String Block
  /-- The audit ring, oldest first. -/
  events : List Event
  /-- What the transport was given, newest first. -/
  sent : List Frame
  deriving DecidableEq

def init : ArpBlocker := ⟨.empty, [], []⟩

variable (cfg : Config)

def record (kind : EventKind) (mac ip detail : String) (s : ArpBlocker) : ArpBlocker :=
  let events := s.events ++ [⟨kind, mac, ip, detail⟩]
  { s with events := events.drop (events.length - cfg.maxEvents) }

def emit (ip mac gatewayIp : String) (restore : Bool) (s : ArpBlocker) : ArpBlocker :=
  if cfg.available then { s with sent := ⟨ip, mac, gatewayIp, restore⟩ :: s.sent } else s

/-- The body of a reply, whose keys depend on what happened. -/
structure Reply where
  blocked : Bool
  mac : String
  ip : Option String
  ttl : Option ℤ
  note : Option String
  deriving DecidableEq

def block (now : ℚ) (mac : String) (lan : Lan) (s : ArpBlocker) :
    Except String Reply × ArpBlocker :=
  match validateTarget lower mac lan with
  | .error e => (.error e, s)
  | .ok (m, ip) =>
    let gwIp := (lan.gateway.map fun g => strip g.ip).getD ""
    if (s.blocks.get? m).isNone ∧ cfg.maxBlocks ≤ s.blocks.entries.length then
      (.error "too many active blocks", s)
    else
      -- the record of a MAC that is blocked already is replaced, and its triple gets no frame
      let s := { s with blocks := s.blocks.set m ⟨m, ip, gwIp, now + cfg.ttl⟩ }
      let s := emit cfg ip m gwIp false s
      let s := record cfg .block m ip ("ttl=" ++ toString ⌊cfg.ttl⌋ ++ "s") s
      (.ok { blocked := true, mac := m, ip := some ip, ttl := some ⌊cfg.ttl⌋,
             note := some "best-effort ARP disruption; effect not guaranteed on hardened targets" },
        s)

/-- Pop a block, heal its target and say so in the audit ring. -/
def drop (kind : EventKind) (detail m : String) (b : Block) (s : ArpBlocker) : ArpBlocker :=
  record cfg kind m b.ip detail
    (emit cfg b.ip m b.gatewayIp true { s with blocks := s.blocks.erase m })

def unblock (mac : String) (s : ArpBlocker) : Reply × ArpBlocker :=
  let m := normMac lower mac
  match s.blocks.get? m with
  | none => ({ blocked := false, mac := m, ip := none, ttl := none, note := some "was not blocked" }, s)
  | some b =>
    ({ blocked := false, mac := m, ip := some b.ip, ttl := none, note := none },
      drop cfg .unblock "corrective ARP sent" m b s)

/-- One block's turn in a cycle. -/
def tickOne (now : ℚ) (s : ArpBlocker) (e : String × Block) : ArpBlocker :=
  if e.2.expiresAt ≤ now then
    drop cfg .expire "TTL reached; corrective ARP sent" e.1 e.2 s
  else record cfg .reassert e.1 e.2.ip "" (emit cfg e.2.ip e.1 e.2.gatewayIp false s)

/-- One re-assert/expiry cycle. -/
def tick (now : ℚ) (s : ArpBlocker) : ArpBlocker := s.blocks.entries.foldl (tickOne cfg now) s

/-- Shutdown undoes every active block. -/
def stop (s : ArpBlocker) : ArpBlocker :=
  s.blocks.entries.foldl
    (fun s e => drop cfg .restore "shutdown; corrective ARP sent" e.1 e.2 s) s

inductive Op
  | block (now : ℚ) (mac : String) (lan : Lan)
  | unblock (mac : String)
  | tick (now : ℚ)
  | stop
  deriving DecidableEq

def step (s : ArpBlocker) : Op → ArpBlocker
  | .block now mac lan => (block lower cfg now mac lan s).2
  | .unblock mac => (unblock lower cfg mac s).2
  | .tick now => tick cfg now s
  | .stop => stop cfg s

/-! ## Poisoned triples -/

/-- What a frame binds: target IP, target MAC, gateway IP. -/
abbrev Triple := String × String × String

def Frame.triple (f : Frame) : Triple := (f.ip, f.mac, f.gatewayIp)

def Block.triple (b : Block) : Triple := (b.ip, b.mac, b.gatewayIp)

/-- The `restore` flag of the newest frame for a triple. -/
def lastSent (t : Triple) (s : ArpBlocker) : Option Bool :=
  (s.sent.find? fun f => f.triple = t).map Frame.restore

/-- Every triple poisoned last belongs to an active block. -/
def NoneStranded (s : ArpBlocker) : Prop :=
  ∀ t, lastSent t s = some false → ∃ m b, s.blocks.get? m = some b ∧ b.triple = t

/-- A block request for a MAC that is blocked already resolves to the same triple. -/
def KeepsTriple (s : ArpBlocker) (op : Op) : Prop :=
  ∀ now mac lan m ip b, op = .block now mac lan → validateTarget lower mac lan = .ok (m, ip) →
    s.blocks.get? m = some b →
    b.ip = ip ∧ b.gatewayIp = (lan.gateway.map fun g => strip g.ip).getD ""

/-- Active blocks are filed under their MAC and poisoned last, and nothing else is. -/
structure Inv (s : ArpBlocker) : Prop where
  filed : ∀ m b, s.blocks.get? m = some b → b.mac = m
  poisoned : ∀ m b, s.blocks.get? m = some b → lastSent b.triple s = some false
  noneStranded : NoneStranded s

section
variable {cfg}

@[simp] theorem blocks_record (k : EventKind) (m ip d : String) (s : ArpBlocker) :
    (record cfg k m ip d s).blocks = s.blocks := rfl

@[simp] theorem lastSent_record (k : EventKind) (m ip d : String) (s : ArpBlocker) (t : Triple) :
    lastSent t (record cfg k m ip d s) = lastSent t s := rfl

@[simp] theorem blocks_emit (ip m g : String) (r : Bool) (s : ArpBlocker) :
    (emit cfg ip m g r s).blocks = s.blocks := by unfold emit; split <;> rfl

theorem lastSent_emit (hsend : cfg.available) (ip m g : String) (r : Bool) (s : ArpBlocker)
    (t : Triple) :
    lastSent t (emit cfg ip m g r s) = if t = (ip, m, g) then some r else lastSent t s := by
  unfold lastSent emit
  rw [if_pos hsend]
  by_cases h : t = (ip, m, g)
  · simp [h, Frame.triple]
  · have h' : ¬ (ip, m, g) = t := fun he => h he.symm
    simp [h, h', Frame.triple]

/-- Triples of blocks under different MACs differ. -/
theorem Inv.triple_ne {s : ArpBlocker} (hi : Inv s) {m m' : String} {b b' : Block}
    (hb : s.blocks.get? m = some b) (hb' : s.blocks.get? m' = some b') (hne : m' ≠ m) :
    b'.triple ≠ b.triple := by
  intro h
  apply hne
  rw [← hi.filed m b hb, ← hi.filed m' b' hb']
  exact congrArg (fun t => t.2.1) h

/-- Poisoning the triple of the one block under its MAC. -/
theorem Inv.poison {s s' : ArpBlocker} (hi : Inv s) {m : String} {b : Block}
    (hm : b.mac = m) (hb : s'.blocks.get? m = some b)
    (hother : ∀ m' ≠ m, s'.blocks.get? m' = s.blocks.get? m')
    (hold : ∀ b₀, s.blocks.get? m = some b₀ → b₀.triple = b.triple)
    (hsent : ∀ t, lastSent t s' = if t = b.triple then some false else lastSent t s) : Inv s' := by
  have hfiled : ∀ m' b', s'.blocks.get? m' = some b' → b'.mac = m' := by
    intro m' b' h
    by_cases hmm : m' = m
    · subst hmm
      rw [hb] at h
      cases h
      exact hm
    · exact hi.filed m' b' (by rwa [hother m' hmm] at h)
  refine ⟨hfiled, fun m' b' h => ?_, fun t ht => ?_⟩
  · rw [hsent]
    by_cases hmm : m' = m
    · subst hmm
      rw [hb] at h
      cases h
      rw [if_pos rfl]
    · split
      · rfl
      · exact hi.poisoned m' b' (by rwa [hother m' hmm] at h)
  · rw [hsent] at ht
    split at ht
    · rename_i htb
      exact ⟨m, b, hb, htb.symm⟩
    · rename_i htb
      obtain ⟨m', b', h, rfl⟩ := hi.noneStranded t ht
      by_cases hmm : m' = m
      · subst hmm
        exact absurd (hold b' h) htb
      · exact ⟨m', b', by rwa [hother m' hmm], rfl⟩

/-- Healing the triple of a block and dropping the block. -/
theorem Inv.drop (hsend : cfg.available) {s : ArpBlocker} (hi : Inv s) {m : String} {b : Block}
    (hb : s.blocks.get? m = some b) (kind : EventKind) (detail : String) :
    Inv (drop cfg kind detail m b s) := by
  have hblocks : ∀ m', (ArpBlock.drop cfg kind detail m b s).blocks.get? m' =
      if m' = m then none else s.blocks.get? m' := by
    intro m'
    simp [ArpBlock.drop]
  have htriple : (b.ip, m, b.gatewayIp) = b.triple := by rw [Block.triple, hi.filed m b hb]
  have hsent : ∀ t, lastSent t (ArpBlock.drop cfg kind detail m b s) =
      if t = b.triple then some true else lastSent t s := by
    intro t
    rw [ArpBlock.drop, lastSent_record, lastSent_emit hsend, htriple]
    rfl
  have hkept : ∀ m' b', (ArpBlock.drop cfg kind detail m b s).blocks.get? m' = some b' →
      m' ≠ m ∧ s.blocks.get? m' = some b' := by
    intro m' b' h
    rw [hblocks] at h
    split at h
    · cases h
    · rename_i hmm
      exact ⟨hmm, h⟩
  refine ⟨fun m' b' h => hi.filed m' b' (hkept m' b' h).2, fun m' b' h => ?_, fun t ht => ?_⟩
  · obtain ⟨hmm, h⟩ := hkept m' b' h
    rw [hsent, if_neg (hi.triple_ne hb h hmm)]
    exact hi.poisoned m' b' h
  · rw [hsent] at ht
    split at ht
    · cases ht
    · rename_i htb
      obtain ⟨m', b', h, rfl⟩ := hi.noneStranded t ht
      refine ⟨m', b', ?_, rfl⟩
      rw [hblocks, if_neg, h]
      rintro rfl
      rw [hb] at h
      cases h
      exact htb rfl

theorem triple_of_filed {m : String} {b : Block} (h : b.mac = m) :
    (b.ip, m, b.gatewayIp) = b.triple := by
  rw [Block.triple, h]

theorem Inv.tickOne (hsend : cfg.available) {s : ArpBlocker} (hi : Inv s) {m : String} {b : Block}
    (hb : s.blocks.get? m = some b) (now : ℚ) : Inv (tickOne cfg now s (m, b)) := by
  unfold ArpBlock.tickOne
  split
  · exact hi.drop hsend hb _ _
  · refine hi.poison (hi.filed m b hb) (by simpa using hb) (fun m' _ => by simp)
      (fun b₀ h => by rw [hb] at h; cases h; rfl) fun t => ?_
    rw [lastSent_record, lastSent_emit hsend, triple_of_filed (hi.filed m b hb)]

theorem blocks_tickOne_ne (now : ℚ) (s : ArpBlocker) (e : String × Block) {m : String}
    (h : m ≠ e.1) : (ArpBlock.tickOne cfg now s e).blocks.get? m = s.blocks.get? m := by
  unfold ArpBlock.tickOne
  split
  · simp [ArpBlock.drop, h]
  · simp

theorem Inv.tick (hsend : cfg.available) {s : ArpBlocker} (hi : Inv s) (now : ℚ) :
    Inv (tick cfg now s) := by
  -- the entries that the cycle has still to visit are the ones in the table
  refine (Dict.foldl_entries (R := fun es s' => Inv s' ∧ ∀ e ∈ es, s'.blocks.get? e.1 = some e.2)
    ?_ s.blocks ⟨hi, fun e he => Dict.mem_entries.mp he⟩).1
  rintro e es s' hfresh ⟨hi', hes⟩
  refine ⟨hi'.tickOne hsend (hes e List.mem_cons_self) now, fun e' he' => ?_⟩
  have hne : e'.1 ≠ e.1 := fun h => hfresh (h ▸ List.mem_map_of_mem he')
  rw [blocks_tickOne_ne now s' e hne]
  exact hes e' (List.mem_cons_of_mem e he')

/-- Shutdown keeps the invariant and leaves no block. -/
theorem Inv.stop (hsend : cfg.available) {s : ArpBlocker} (hi : Inv s) :
    Inv (stop cfg s) ∧ ∀ m, (ArpBlock.stop cfg s).blocks.get? m = none := by
  -- the entries still to come are the blocks that are left, so none is left at the end
  have h := Dict.foldl_entries
    (f := fun s e => ArpBlock.drop cfg .restore "shutdown; corrective ARP sent" e.1 e.2 s)
    (R := fun es s' => Inv s' ∧ ∀ m b, s'.blocks.get? m = some b ↔ (m, b) ∈ es)
    ?_ s.blocks ⟨hi, fun m b => Dict.mem_entries.symm⟩
  · exact ⟨h.1, fun m => Option.eq_none_iff_forall_ne_some.mpr fun b hb => by simpa using (h.2 m b).mp hb⟩
  rintro ⟨m, b⟩ es s' hfresh ⟨hi', hes⟩
  refine ⟨hi'.drop hsend ((hes m b).mpr List.mem_cons_self) _ _, fun m' b' => ?_⟩
  simp only [ArpBlock.drop, blocks_record, blocks_emit, Dict.get?_erase]
  by_cases hm : m' = m
  · subst hm
    have hnot : (m', b') ∉ es := fun h => hfresh (List.mem_map.mpr ⟨_, h, rfl⟩)
    simp [hnot]
  · rw [if_neg hm, hes]
    simp [hm]

theorem Inv.unblock (hsend : cfg.available) {s : ArpBlocker} (hi : Inv s) (mac : String) :
    Inv (unblock lower cfg mac s).2 := by
  unfold ArpBlock.unblock
  dsimp only
  split
  · exact hi
  · rename_i b hb
    exact hi.drop hsend hb _ _

/-- What an accepted request does: it files the new block and poisons its triple. -/
theorem block_accepted (hsend : cfg.available) {s : ArpBlocker} {now : ℚ} {mac : String} {lan : Lan}
    {r : Reply} (h : (block lower cfg now mac lan s).1 = .ok r) :
    ∃ m b, validateTarget lower mac lan = .ok (m, b.ip) ∧ b.mac = m ∧
      b.gatewayIp = (lan.gateway.map fun g => strip g.ip).getD "" ∧
      (∀ m', (block lower cfg now mac lan s).2.blocks.get? m' =
        if m' = m then some b else s.blocks.get? m') ∧
      ∀ t, lastSent t (block lower cfg now mac lan s).2 =
        if t = b.triple then some false else lastSent t s := by
  unfold block at h ⊢
  split at h
  · cases h
  · rename_i m ip hv
    dsimp only at h ⊢
    split at h
    · cases h
    · rename_i hfull
      simp only [if_neg hfull]
      refine ⟨m, ⟨m, ip, (lan.gateway.map fun g => strip g.ip).getD "", now + cfg.ttl⟩, hv, rfl, rfl,
        fun m' => by simp, fun t => ?_⟩
      rw [lastSent_record, lastSent_emit hsend]
      rfl

theorem block_refused {s : ArpBlocker} {now : ℚ} {mac : String} {lan : Lan} {e : String}
    (h : (block lower cfg now mac lan s).1 = .error e) : (block lower cfg now mac lan s).2 = s := by
  unfold block at h ⊢
  split at h
  · rfl
  · dsimp only at h ⊢
    split at h
    · rename_i hfull
      rw [if_pos hfull]
    · cases h

/-- A blocked MAC is never turned away for want of room. -/
theorem block_of_blocked {s : ArpBlocker} (now : ℚ) {mac : String} {lan : Lan} {m ip : String}
    {b : Block} (hv : validateTarget lower mac lan = .ok (m, ip)) (hb : s.blocks.get? m = some b) :
    ∃ r, (block lower cfg now mac lan s).1 = .ok r := by
  unfold block
  rw [hv]
  dsimp only
  rw [if_neg (by simp [hb])]
  exact ⟨_, rfl⟩

theorem Inv.step (hsend : cfg.available) {s : ArpBlocker} {op : Op} (hi : Inv s)
    (hk : KeepsTriple lower s op) : Inv (step lower cfg s op) := by
  cases op with
  | unblock mac => exact hi.unblock lower hsend mac
  | tick now => exact hi.tick hsend now
  | stop => exact (hi.stop hsend).1
  | block now mac lan =>
    rw [ArpBlock.step]
    cases hres : (block lower cfg now mac lan s).1 with
    | error e => rwa [block_refused lower hres]
    | ok r =>
      obtain ⟨m, b, hv, hm, hg, hblocks, hsent⟩ := block_accepted lower hsend hres
      refine hi.poison hm (by rw [hblocks, if_pos rfl]) (fun m' hm' => by rw [hblocks, if_neg hm'])
        (fun b₀ hb₀ => ?_) hsent
      obtain ⟨hip, hgw⟩ := hk now mac lan m b.ip b₀ rfl hv hb₀
      rw [Block.triple, Block.triple, hip, hgw, hg, hm, hi.filed m b₀ hb₀]

/-- A block that moves to another triple leaves the old one poisoned and unaccounted for. -/
theorem Inv.stranded (hsend : cfg.available) {s : ArpBlocker} {op : Op} (hi : Inv s)
    (hk : ¬ KeepsTriple lower s op) : ¬ NoneStranded (ArpBlock.step lower cfg s op) := by
  simp only [KeepsTriple, not_forall] at hk
  obtain ⟨now, mac, lan, m, ip, b₀, rfl, hv, hb₀, hmoved⟩ := hk
  rw [ArpBlock.step]
  obtain ⟨r, hres⟩ : ∃ r, (block lower cfg now mac lan s).1 = .ok r :=
    block_of_blocked lower now hv hb₀
  obtain ⟨m₁, b, hv₁, hm, hg, hblocks, hsent⟩ := block_accepted lower hsend hres
  obtain ⟨rfl, rfl⟩ : m = m₁ ∧ ip = b.ip := by simpa [hv] using hv₁
  have hne : b₀.triple ≠ b.triple := by
    intro h
    refine hmoved ⟨congrArg Prod.fst h, ?_⟩
    rw [← hg]
    exact congrArg (fun t => t.2.2) h
  intro hnone
  obtain ⟨m', b', hb', htriple⟩ := hnone b₀.triple (by
    rw [hsent, if_neg hne]
    exact hi.poisoned m b₀ hb₀)
  -- the block that accounts for the old triple would have to be the new one, or another MAC's
  rw [hblocks] at hb'
  split at hb'
  · cases hb'
    exact hne htriple.symm
  · rename_i hm'
    exact hi.triple_ne hb₀ hb' hm' htriple

theorem inv_init : Inv init :=
  ⟨fun _ _ h => (by cases h), fun _ _ h => (by cases h), fun _ h => (by cases h)⟩

/-- A triple that was ever poisoned. -/
def EverPoisoned (t : Triple) (s : ArpBlocker) : Prop := ∃ f ∈ s.sent, f.triple = t ∧ f.restore = false

theorem lastSent_isSome {t : Triple} {s : ArpBlocker} (h : EverPoisoned t s) :
    (lastSent t s).isSome := by
  obtain ⟨f, hf, ht, -⟩ := h
  simpa [lastSent] using ⟨f, hf, ht⟩

end

/-- With a transport wired, nobody is stranded in any state of a run exactly when each
block request for a blocked MAC resolves to the triple it has. A shutdown after such a run
has healed every triple that was poisoned. -/
theorem none_stranded_iff (hsend : cfg.available) (ops : List Op) :
    (AllStates (step lower cfg) NoneStranded init ops ↔
      AllSteps (step lower cfg) (KeepsTriple lower) init ops) ∧
    (AllSteps (step lower cfg) (KeepsTriple lower) init ops → ∀ t,
      EverPoisoned t (stop cfg (finish (step lower cfg) init ops)) →
      lastSent t (stop cfg (finish (step lower cfg) init ops)) = some true) := by
  refine ⟨allStates_iff_allSteps (I := Inv) (fun _ _ hi hk => hi.step lower hsend hk)
    (fun _ hi => hi.noneStranded) (fun _ _ hi hk => hi.stranded lower hsend hk) inv_init,
    fun hok t hp => ?_⟩
  have hi := finish_of_invariant (I := Inv) (fun _ _ hi hk => hi.step lower hsend hk) inv_init hok
  obtain ⟨hstop, hempty⟩ := hi.stop hsend
  obtain ⟨r, hr⟩ := Option.isSome_iff_exists.mp (lastSent_isSome hp)
  cases r with
  | true => exact hr
  | false =>
    -- poisoned last needs an active block, and the shutdown left none
    obtain ⟨m, b, hb, -⟩ := hstop.noneStranded t hr
    rw [hempty m] at hb
    cases hb

def sampleConfig : Config := .ofArgs true 300 16 200

def sampleLan (ip : String) : Lan where
  inventory := [⟨"02:00:00:00:00:01", "192.168.1.1", true⟩, ⟨"AA-BB-CC-DD-EE-01", ip, false⟩]
  gateway := some ⟨"02:00:00:00:00:01", "192.168.1.1", true⟩
  localIp := "192.168.1.10"
  gatewayIp := none

/-- Two requests for one address, a cycle after the first has run out, and a shutdown. -/
def sampleRun : List Op :=
  [.block 0 "aa:bb:cc:dd:ee:01" (sampleLan "192.168.1.50"),
    .block 5 "AA-BB-CC-DD-EE-01" (sampleLan "192.168.1.50"), .tick 310, .stop]

theorem none_stranded_sample :
    (AllStates (step Text.lower sampleConfig) NoneStranded init sampleRun ↔
      AllSteps (step Text.lower sampleConfig) (KeepsTriple Text.lower) init sampleRun) ∧
    (AllSteps (step Text.lower sampleConfig) (KeepsTriple Text.lower) init sampleRun → ∀ t,
      EverPoisoned t (stop sampleConfig (finish (step Text.lower sampleConfig) init sampleRun)) →
      lastSent t (stop sampleConfig (finish (step Text.lower sampleConfig) init sampleRun)) =
        some true) :=
  none_stranded_iff Text.lower sampleConfig rfl sampleRun

/-- The device gets a new lease between two block requests. -/
def sampleMoved : List Op :=
  [.block 0 "aa:bb:cc:dd:ee:01" (sampleLan "192.168.1.50"),
    .block 5 "aa:bb:cc:dd:ee:01" (sampleLan "192.168.1.60"), .stop]

/-- The shutdown heals the new address only; the old one stays poisoned. -/
theorem moved_device_stranded :
    (finish (step Text.lower sampleConfig) init sampleMoved).sent =
        [⟨"192.168.1.60", "aa:bb:cc:dd:ee:01", "192.168.1.1", true⟩,
          ⟨"192.168.1.60", "aa:bb:cc:dd:ee:01", "192.168.1.1", false⟩,
          ⟨"192.168.1.50", "aa:bb:cc:dd:ee:01", "192.168.1.1", false⟩] ∧
      ¬ AllStates (step Text.lower sampleConfig) NoneStranded init sampleMoved := by
  have hstate : (finish (step Text.lower sampleConfig) init sampleMoved).blocks = .empty := by
    decide +kernel
  have hlog : (finish (step Text.lower sampleConfig) init sampleMoved).sent =
      [⟨"192.168.1.60", "aa:bb:cc:dd:ee:01", "192.168.1.1", true⟩,
        ⟨"192.168.1.60", "aa:bb:cc:dd:ee:01", "192.168.1.1", false⟩,
        ⟨"192.168.1.50", "aa:bb:cc:dd:ee:01", "192.168.1.1", false⟩] := by
    decide +kernel
  have hsent : lastSent ("192.168.1.50", "aa:bb:cc:dd:ee:01", "192.168.1.1")
      (finish (step Text.lower sampleConfig) init sampleMoved) = some false := by
    rw [lastSent, hlog]
    decide
  refine ⟨hlog, fun h => ?_⟩
  obtain ⟨m, b, hb, -⟩ := h.last _ hsent
  rw [hstate] at hb
  cases hb

end Wavr.ArpBlock
