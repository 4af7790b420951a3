import Mathlib
import Wavr.IpAddress

/-!
# The LAN guard over spellings

`is_lan_ip` judges a spelling; what it should judge is the address that the spelling denotes.
-/

namespace Wavr.IpAddress
open Text

/-- `fd00:ec2::254` -/
def metadata6 : BitVec 128 := (v6Net 0xfd00 0xec2 0 0 128).1 + 0x254

/-- A host without the space and the brackets around it. -/
def bare (host : List Char) : List Char := stripOf (fun c => c = '[' ∨ c = ']') (stripOf isSpace host)

def dropScope : IpAddress → IpAddress
  | .v4 ip => .v4 ip
  | .v6 ip _ => .v6 ip none

/-- The address behind a spelling: neither brackets nor space, no scope id, no mapped form. -/
def denoted (host : List Char) : Option IpAddress := (ipAddress (bare host)).map fun ip => dropScope ip.unmap

/-- Of the kind that the guard lets through. -/
def Local (ip : IpAddress) : Prop := ip.isPrivate ∨ ip.isLoopback ∨ ip.isLinkLocal

/-- What an accepted host should denote. -/
def Lan (host : List Char) : Prop := ∃ ip, denoted host = some ip ∧ Local ip ∧ ip ∉ metadataIps

/-- The IPv6 metadata endpoint written with a scope id. -/
def ScopedMetadata (host : List Char) : Prop :=
  ∃ scope, ipAddress (bare host) = some (.v6 metadata6 (some scope))

theorem local_dropScope (ip : IpAddress) : Local (dropScope ip) ↔ Local ip := by
  cases ip <;> rfl

theorem metadataIps_eq : metadataIps = [.v4 (v4Net 169 254 169 254 32).1, .v6 metadata6 none] := rfl

/-- Only the scope id hides a metadata endpoint. -/
theorem mem_metadataIps_dropScope (ip : IpAddress) :
    dropScope ip ∈ metadataIps ↔ ip ∈ metadataIps ∨ ∃ scope, ip = .v6 metadata6 (some scope) := by
  cases ip with
  | v4 ip => simp [dropScope]
  | v6 ip scope =>
    rw [metadataIps_eq]
    cases scope <;> simp [dropScope]

theorem unmap_metadata6 (scope : Option (List Char)) :
    unmap (.v6 metadata6 scope) = .v6 metadata6 scope := by
  have hmapped : ipv4Mapped metadata6 = none := by decide
  simp [unmap, hmapped]

theorem eq_of_unmap_v6 {ip : IpAddress} {a : BitVec 128} {scope : Option (List Char)}
    (h : ip.unmap = .v6 a scope) : ip = .v6 a scope := by
  cases ip with
  | v4 ip => exact h
  | v6 ip s =>
    cases hm : ipv4Mapped ip with
    | none => simpa [unmap, hm] using h
    | some m => simp [unmap, hm] at h

/-- The two spellings that are refused as written denote metadata endpoints. -/
theorem metadataHosts_denote : ∀ h ∈ metadataHosts, (ipAddress h).any fun ip => ip.unmap ∈ metadataIps := by
  decide +kernel

theorem isLanIp_bare (host : List Char) :
    isLanIp host = if bare host ∈ metadataHosts then false
      else match ipAddress (bare host) with
        | none => false
        | some ip => decide (ip.unmap ∉ metadataIps ∧
            (ip.unmap.isPrivate ∨ ip.unmap.isLoopback ∨ ip.unmap.isLinkLocal)) := rfl

theorem isLanIp_iff (host : List Char) :
    isLanIp host = true ↔ ∃ ip, ipAddress (bare host) = some ip ∧ ip.unmap ∉ metadataIps ∧ Local ip.unmap := by
  have hwritten : bare host ∈ metadataHosts →
      ∀ ip, ipAddress (bare host) = some ip → ip.unmap ∈ metadataIps := by
    intro hmem ip hip
    simpa [hip] using metadataHosts_denote _ hmem
  rw [isLanIp_bare]
  by_cases hmem : bare host ∈ metadataHosts
  · rw [if_pos hmem]
    refine iff_of_false (by simp) ?_
    rintro ⟨ip, hip, hnot, _⟩
    exact hnot (hwritten hmem ip hip)
  · rw [if_neg hmem]
    cases ipAddress (bare host) with
    | none => simp
    | some ip => simp [Local]

/-- What the guard accepts, said of the address behind the spelling. -/
theorem isLanIp_iff_denoted (host : List Char) :
    isLanIp host = true ↔
      ∃ ip, denoted host = some ip ∧ Local ip ∧ (ip ∉ metadataIps ∨ ScopedMetadata host) := by
  rw [isLanIp_iff, denoted, ScopedMetadata]
  cases hip : ipAddress (bare host) with
  | none => simp
  | some ip =>
    simp only [Option.map_some, Option.some.injEq, exists_eq_left', local_dropScope, mem_metadataIps_dropScope]
    constructor
    · rintro ⟨hnot, hlocal⟩
      refine ⟨hlocal, ?_⟩
      by_cases hs : ∃ scope, ip.unmap = .v6 metadata6 (some scope)
      · obtain ⟨scope, hs⟩ := hs
        exact .inr ⟨scope, eq_of_unmap_v6 hs⟩
      · exact .inl (not_or.mpr ⟨hnot, hs⟩)
    · rintro ⟨hlocal, hnot | ⟨scope, rfl⟩⟩
      · exact ⟨(not_or.mp hnot).1, hlocal⟩
      · exact ⟨by simp [unmap_metadata6, metadataIps_eq], hlocal⟩

theorem denoted_of_scopedMetadata {host : List Char} (h : ScopedMetadata host) :
    denoted host = some (.v6 metadata6 none) := by
  obtain ⟨scope, hip⟩ := h
  simp [denoted, hip, unmap_metadata6, dropScope]

theorem local_of_mem_metadataIps : ∀ ip ∈ metadataIps, Local ip := by
  unfold Local
  decide

/-- The guard means the address behind the spelling, and judges two spellings of one address
alike, but for the IPv6 metadata endpoint under a scope id. -/
theorem isLanIp_textual (host : List Char) :
    ((isLanIp host = true → Lan host) ↔ ¬ ScopedMetadata host) ∧
    ∀ host' ip, denoted host = some ip → denoted host' = some ip →
      (isLanIp host = isLanIp host' ↔ (ScopedMetadata host ↔ ScopedMetadata host')) := by
  have hmeta : IpAddress.v6 metadata6 none ∈ metadataIps := by decide
  refine ⟨⟨fun hlan hs => ?_, fun hs hacc => ?_⟩, fun host' ip hd hd' => ?_⟩
  · have hden := denoted_of_scopedMetadata hs
    obtain ⟨ip, hip, _, hnot⟩ := hlan ((isLanIp_iff_denoted host).mpr
      ⟨_, hden, local_of_mem_metadataIps _ hmeta, .inr hs⟩)
    exact hnot (Option.some.inj (hden.symm.trans hip) ▸ hmeta)
  · obtain ⟨ip, hip, hlocal, hnot⟩ := (isLanIp_iff_denoted host).mp hacc
    exact ⟨ip, hip, hlocal, hnot.resolve_right hs⟩
  · have hscoped : ∀ h, denoted h = some ip → ScopedMetadata h → ip ∈ metadataIps := by
      intro h hip hs
      rw [← Option.some.inj ((denoted_of_scopedMetadata hs).symm.trans hip)]
      exact hmeta
    have hacc : ∀ h, denoted h = some ip →
        (isLanIp h = true ↔ Local ip ∧ (ip ∉ metadataIps ∨ ScopedMetadata h)) := by
      intro h hip
      rw [isLanIp_iff_denoted, hip]
      simp
    rw [Bool.eq_iff_iff, hacc host hd, hacc host' hd']
    by_cases hm : ip ∈ metadataIps
    · have hl := local_of_mem_metadataIps ip hm
      simp [hm, hl]
    · have h1 : ¬ ScopedMetadata host := fun h => hm (hscoped host hd h)
      have h2 : ¬ ScopedMetadata host' := fun h => hm (hscoped host' hd' h)
      simp [h1, h2]

/-- `fd00:ec2::254%1` passes the guard. -/
theorem scoped_metadata_accepted : ¬ ∀ host, isLanIp host = true → Lan host := by
  intro h
  have hparse : ipAddress (bare "fd00:ec2::254%1".toList) = some (.v6 metadata6 (some ['1'])) := by decide +kernel
  have hs : ScopedMetadata "fd00:ec2::254%1".toList := ⟨_, hparse⟩
  have hden := denoted_of_scopedMetadata hs
  have hmeta : IpAddress.v6 metadata6 none ∈ metadataIps := by decide
  obtain ⟨ip, hip, _, hnot⟩ := h _ ((isLanIp_iff_denoted _).mpr
    ⟨_, hden, local_of_mem_metadataIps _ hmeta, .inr hs⟩)
  exact hnot (Option.some.inj (hden.symm.trans hip) ▸ hmeta)

/-- Two spellings of one address. -/
theorem isLanIp_two_spellings :
    isLanIp "[::FFFF:192.168.1.20]".toList = isLanIp "192.168.1.20".toList ↔
      (ScopedMetadata "[::FFFF:192.168.1.20]".toList ↔ ScopedMetadata "192.168.1.20".toList) :=
  (isLanIp_textual "[::FFFF:192.168.1.20]".toList).2 "192.168.1.20".toList
    (.v4 (v4Net 192 168 1 20 32).1) (by decide +kernel) (by decide +kernel)

end Wavr.IpAddress
