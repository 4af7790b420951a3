import Mathlib
import Wavr.ArpBlock
import Wavr.LanGuard

/-!
# The target of a block

`validate_target` compares spellings; this is what it says about the addresses and the MACs that
they denote.
-/

namespace Wavr.ArpBlock
open Text IpAddress

variable (lower : String → String)

/-- The separators of MAC spellings. -/
def isMacSeparator (c : Char) : Bool := c = ':' ∨ c = '-' ∨ c = '.'

/-- The number a MAC denotes: six groups of at most two digits, three of four, or one of twelve. -/
def macValue (mac : String) : Option ℕ :=
  let groups := (stripOf isSpace mac.toList).splitOnP isMacSeparator
  let sized (n : ℕ) (lengths : List ℕ) : Bool := groups.length = n ∧ groups.all fun g =>
    g.length ∈ lengths ∧ g.all isHexDigit
  if sized 6 [1, 2] then some (groups.foldl (fun n g => n * 0x100 + digitsValue 16 g) 0)
  else if sized 3 [4] then some (groups.foldl (fun n g => n * 0x10000 + digitsValue 16 g) 0)
  else if sized 1 [12] then some (digitsValue 16 groups.flatten)
  else none

/-- The address behind a field of a record. -/
def addressOf (ip : String) : Option IpAddress :=
  (ipAddress (strip ip).toList).map fun addr => dropScope addr.unmap

def SameIp (s t : String) : Prop := ∃ addr, addressOf s = some addr ∧ addressOf t = some addr

/-- A normalised MAC and a MAC as it stands in a record. -/
def SameMac (m mac : String) : Prop := normMac lower mac = m ∨ ∃ v, macValue m = some v ∧ macValue mac = some v

def Unicast (addr : IpAddress) : Prop :=
  addr.isPrivate ∧ ¬ addr.isLoopback ∧ ¬ addr.isLinkLocal ∧ ¬ addr.isMulticast ∧ ¬ addr.isReserved ∧
    ¬ addr.isUnspecified

/-- The first or the last address of its /24. -/
def isEdge : IpAddress → Bool
  | .v4 ip => ip.setWidth 8 = 0 ∨ ip.setWidth 8 = BitVec.allOnes 8
  | .v6 ip _ => ip.setWidth 104 = 0 ∨ ip.setWidth 104 = BitVec.allOnes 104

/-- The flagged records and the gateway that was passed in. -/
def Lan.gateways (lan : Lan) : List Device := lan.inventory.filter Device.isGateway ++ lan.gateway.toList

/-- One ordinary neighbour. -/
structure Ordinary (lan : Lan) (m ip : String) : Prop where
  neighbour : ∃ addr, ipAddress ip.toList = some addr ∧ Unicast addr ∧ isEdge addr = false ∧
    sameSlash24 ip.toList (strip lan.localIp).toList = true
  notHost : ¬ SameIp ip lan.localIp
  notMetadata : ∀ addr ∈ addressOf ip, addr ∉ metadataIps
  notGateway : ∀ g ∈ lan.gateways, ¬ SameIp ip g.ip ∧ ¬ SameMac lower m g.mac
  notDerived : ∀ g ∈ lan.gatewayIp, ¬ SameIp ip g

/-- The tests of `validate_target`, passed by the record that the MAC picks. -/
structure Passes (mac : String) (lan : Lan) (gateway target : Device) (addr : IpAddress) : Prop where
  named : normMac lower mac ≠ ""
  located : strip lan.localIp ≠ ""
  identified : lan.gateway = some gateway
  notGatewayMac : ¬ (normMac lower gateway.mac ≠ "" ∧ normMac lower gateway.mac = normMac lower mac)
  picked : lan.inventory.find? (fun d => normMac lower d.mac = normMac lower mac) = some target
  unflagged : ¬ target.isGateway
  resolved : strip target.ip ≠ ""
  parsed : ipAddress (strip target.ip).toList = some addr
  notMetadata : ¬ METADATA_IPS.any fun m => m = addr.compressed ∨ m = (strip target.ip).toList
  unicast : Unicast addr
  notHost : strip target.ip ≠ strip lan.localIp
  notGatewayIp : strip target.ip ∉ [strip gateway.ip, strip (lan.gatewayIp.getD "")].filter (· ≠ "")
  slash24 : sameSlash24 (strip target.ip).toList (strip lan.localIp).toList

/-- What the tests do not see. -/
inductive Missed (lan : Lan) (m ip : String) (addr : IpAddress) : Prop
  | edge (h : isEdge addr = true)
  | scopedMetadata (scope : List Char) (h : addr = .v6 metadata6 (some scope))
  | hostRespelled (h : SameIp ip lan.localIp)
  | gatewayRespelled (g : Device) (hg : lan.gateway = some g) (h : SameIp ip g.ip ∨ SameMac lower m g.mac)
  | derivedRespelled (g : String) (hg : lan.gatewayIp = some g) (h : SameIp ip g)
  | otherFlagged (d : Device) (hd : d ∈ lan.inventory) (hflag : d.isGateway = true)
      (h : SameIp ip d.ip ∨ SameMac lower m d.mac)

section
variable {lower} {mac : String} {lan : Lan} {gateway target : Device} {addr : IpAddress}

theorem refuse_eq_ok {α : Type} {c : Prop} [Decidable c] {e : String} {r : Except String α} {x : α} :
    (if c then .error e else r) = .ok x ↔ ¬ c ∧ r = .ok x := by
  by_cases h : c <;> simp [h]

theorem validateTarget_eq_ok {m ip : String} :
    validateTarget lower mac lan = .ok (m, ip) ↔
      ∃ gateway target addr, Passes lower mac lan gateway target addr ∧ m = normMac lower mac ∧
        ip = strip target.ip := by
  rw [validateTarget, refuse_eq_ok, refuse_eq_ok]
  -- each lookup that fails refuses, and what passes needs it to succeed
  cases hgateway : lan.gateway with
  | none =>
    refine iff_of_false (by simp) ?_
    rintro ⟨gateway, target, addr, h, _⟩
    cases hgateway.symm.trans h.identified
  | some gateway =>
    simp only [refuse_eq_ok]
    cases hpicked : lan.inventory.find? fun d => normMac lower d.mac = normMac lower mac with
    | none =>
      refine iff_of_false (by simp) ?_
      rintro ⟨gateway, target, addr, h, _⟩
      cases hpicked.symm.trans h.picked
    | some target =>
      simp only [refuse_eq_ok]
      cases hparsed : ipAddress (strip target.ip).toList with
      | none =>
        refine iff_of_false (by simp) ?_
        rintro ⟨gateway, target', addr, h, _⟩
        cases hpicked.symm.trans h.picked
        cases hparsed.symm.trans h.parsed
      | some addr =>
        have hunicast : Unicast addr ↔ ¬ (¬ addr.isPrivate ∨ addr.isLoopback ∨ addr.isLinkLocal ∨
            addr.isMulticast ∨ addr.isReserved ∨ addr.isUnspecified) := by
          simp only [Unicast, not_or, not_not]
        simp only [refuse_eq_ok]
        constructor
        · rintro ⟨h1, h2, h4, h6, h7, h9, h10, h11, h12, h13, heq⟩
          cases heq
          exact ⟨gateway, target, addr, ⟨h1, h2, hgateway, h4, hpicked, h6, h7, hparsed, h9, hunicast.mpr h10, h11,
            h12, not_not.mp h13⟩, rfl, rfl⟩
        · rintro ⟨gateway', target', addr', h, rfl, rfl⟩
          cases hgateway.symm.trans h.identified
          cases hpicked.symm.trans h.picked
          cases hparsed.symm.trans h.parsed
          exact ⟨h.named, h.located, h.notGatewayMac, h.unflagged, h.resolved, h.notMetadata,
            hunicast.mp h.unicast, h.notHost, h.notGatewayIp, not_not.mpr h.slash24, rfl⟩

/-- The mapped form of an IPv4 address lies in a reserved network. -/
theorem isReserved_of_mapped {ip : BitVec 128} {scope : Option (List Char)} {a : BitVec 32}
    (h : ipv4Mapped ip = some a) : isReserved (.v6 ip scope) = true := by
  have hhigh : ip >>> 32 = 0xffff := by
    rw [ipv4Mapped] at h
    split at h
    · assumption
    · cases h
  have hnet : inNet ip (v6Net 0 0 0 0 8) = true := by
    have hshift : ip >>> 120 = (ip >>> 32) >>> 88 := by rw [← BitVec.shiftRight_add]
    have hzero : ip >>> 120 = (v6Net 0 0 0 0 8).1 >>> 120 := by
      rw [hshift, hhigh]
      decide
    exact decide_eq_true hzero
  simp [isReserved, reservedNetworks6, hnet]

/-- Of the metadata endpoints only the one under a scope id passes the tests. -/
theorem scoped_of_passes (h : Passes lower mac lan gateway target addr)
    (hmeta : dropScope addr.unmap ∈ metadataIps) : ∃ scope, addr = .v6 metadata6 (some scope) := by
  obtain ⟨_, _, hlinkLocal, _, hreserved, _⟩ := h.unicast
  have hunmap : addr.unmap = addr := by
    cases addr with
    | v4 ip => rfl
    | v6 ip scope =>
      cases hm : ipv4Mapped ip with
      | none => simp [unmap, hm]
      | some a => exact absurd (isReserved_of_mapped hm) hreserved
  rw [hunmap, mem_metadataIps_dropScope, metadataIps_eq] at hmeta
  rcases hmeta with hmem | hscoped
  · rcases List.mem_pair.mp hmem with rfl | rfl
    · exact absurd (by decide) hlinkLocal
    · refine absurd ?_ h.notMetadata
      have hwritten : (IpAddress.v6 metadata6 none).compressed = "fd00:ec2::254".toList := by decide +kernel
      simp [METADATA_IPS, hwritten]
  · exact hscoped

theorem addressOf_of_passes (h : Passes lower mac lan gateway target addr) :
    addressOf (strip target.ip) = some (dropScope addr.unmap) := by
  rw [addressOf, strip_strip, h.parsed]
  rfl

/-- A target is an ordinary neighbour exactly when the tests miss nothing about it. -/
theorem ordinary_iff (h : Passes lower mac lan gateway target addr) :
    Ordinary lower lan (normMac lower mac) (strip target.ip) ↔
      ¬ Missed lower lan (normMac lower mac) (strip target.ip) addr := by
  have haddress := addressOf_of_passes h
  constructor
  · rintro ⟨⟨addr', hparsed, _, hedge, _⟩, hhost, hmeta, hgateway, hderived⟩ hmissed
    cases h.parsed.symm.trans hparsed
    cases hmissed with
    | edge he => simp [hedge] at he
    | scopedMetadata scope hs =>
      subst hs
      exact hmeta _ haddress (by rw [unmap_metadata6, metadataIps_eq]; simp [dropScope])
    | hostRespelled hs => exact hhost hs
    | gatewayRespelled g hg hs =>
      obtain ⟨hip, hmac⟩ := hgateway g (by simp [Lan.gateways, hg])
      exact hs.elim hip hmac
    | derivedRespelled g hg hs => exact hderived g hg hs
    | otherFlagged d hd hflag hs =>
      obtain ⟨hip, hmac⟩ := hgateway d (by simp [Lan.gateways, hd, hflag])
      exact hs.elim hip hmac
  · intro hmissed
    refine ⟨⟨addr, h.parsed, h.unicast, ?_, h.slash24⟩, fun hs => hmissed (.hostRespelled hs), ?_, ?_,
      fun g hg hs => hmissed (.derivedRespelled g hg hs)⟩
    · exact Bool.eq_false_iff.mpr fun he => hmissed (.edge he)
    · intro a ha hmem
      cases haddress.symm.trans ha
      obtain ⟨scope, hs⟩ := scoped_of_passes h hmem
      exact hmissed (.scopedMetadata scope hs)
    · intro g hg
      rcases List.mem_append.mp hg with hd | hd
      · obtain ⟨hd, hflag⟩ := List.mem_filter.mp hd
        exact ⟨fun hs => hmissed (.otherFlagged g hd hflag (.inl hs)),
          fun hs => hmissed (.otherFlagged g hd hflag (.inr hs))⟩
      · have hg : lan.gateway = some g := Option.mem_toList.mp hd
        exact ⟨fun hs => hmissed (.gatewayRespelled g hg (.inl hs)),
          fun hs => hmissed (.gatewayRespelled g hg (.inr hs))⟩

end

/-- What is accepted is one ordinary neighbour exactly when the record that the MAC picks, if it
passes the tests, is none of the cases they miss. -/
theorem validateTarget_ordinary_iff (mac : String) (lan : Lan) :
    (∀ m ip, validateTarget lower mac lan = .ok (m, ip) → Ordinary lower lan m ip) ↔
      ∀ gateway target addr, Passes lower mac lan gateway target addr →
        ¬ Missed lower lan (normMac lower mac) (strip target.ip) addr := by
  constructor
  · intro hall gateway target addr h
    exact (ordinary_iff h).mp (hall _ _ (validateTarget_eq_ok.mpr ⟨gateway, target, addr, h, rfl, rfl⟩))
  · intro hmissed m ip hok
    obtain ⟨gateway, target, addr, h, rfl, rfl⟩ := validateTarget_eq_ok.mp hok
    exact (ordinary_iff h).mpr (hmissed gateway target addr h)

/-- A record at the broadcast address of the /24 is accepted. -/
theorem broadcast_accepted :
    ¬ ∀ m ip, validateTarget Text.lower "aa:bb:cc:dd:ee:01" (sampleLan "192.168.1.255") = .ok (m, ip) →
      Ordinary Text.lower (sampleLan "192.168.1.255") m ip := by
  intro h
  have hok : validateTarget Text.lower "aa:bb:cc:dd:ee:01" (sampleLan "192.168.1.255") =
      .ok ("aa:bb:cc:dd:ee:01", "192.168.1.255") := by decide +kernel
  have hparsed : ipAddress "192.168.1.255".toList = some (.v4 (v4Net 192 168 1 255 32).1) := by decide +kernel
  obtain ⟨addr, haddr, _, hedge, _⟩ := (h _ _ hok).neighbour
  cases hparsed.symm.trans haddr
  exact absurd hedge (by decide)

end Wavr.ArpBlock
