import Wavr.Text

/-!
# IP address literals

What the sources use of Python's `ipaddress`: parsing of IPv4 and IPv6 literals, the
registry predicates (`is_private` and the like), the compressed spelling, and the shared
LAN guard `is_lan_ip` built on them.
-/

namespace Wavr

inductive IpAddress
  | v4 (ip : BitVec 32)
  | v6 (ip : BitVec 128) (scopeId : Option (List Char))
  deriving DecidableEq

namespace IpAddress
open Text

/-- Membership in the network `net/len`. -/
def inNet {w : ℕ} (ip : BitVec w) (net : BitVec w × ℕ) : Bool :=
  ip >>> (w - net.2) = net.1 >>> (w - net.2)

/-! ## Parsing -/

def isDecDigit (c : Char) : Bool := '0' ≤ c ∧ c ≤ '9'

def isHexDigit (c : Char) : Bool := isDecDigit c ∨ ('a' ≤ c ∧ c ≤ 'f') ∨ ('A' ≤ c ∧ c ≤ 'F')

def hexValue (c : Char) : ℕ :=
  if isDecDigit c then c.toNat - 48 else if 'a' ≤ c then c.toNat - 87 else c.toNat - 55

/-- `int(s, base)` of a string of digits. -/
def digitsValue (base : ℕ) (cs : List Char) : ℕ := cs.foldl (fun n c => n * base + hexValue c) 0

/-- `_parse_octet`; a leading zero is refused. -/
def parseOctet (cs : List Char) : Option ℕ :=
  if cs ≠ [] ∧ cs.all isDecDigit ∧ cs.length ≤ 3 ∧ (cs = ['0'] ∨ cs.head? ≠ some '0') ∧
      digitsValue 10 cs ≤ 255 then
    some (digitsValue 10 cs)
  else none

/-- `_BaseV4._ip_int_from_string`. -/
def parseV4 (cs : List Char) : Option (BitVec 32) :=
  let octets := cs.splitOn '.'
  if octets.length ≠ 4 then none
  else (octets.mapM parseOctet).map fun os => BitVec.ofNat 32 (os.foldl (· * 256 + ·) 0)

/-- `_parse_hextet`. -/
def parseHextet (cs : List Char) : Option ℕ :=
  if cs ≠ [] ∧ cs.all isHexDigit ∧ cs.length ≤ 4 then some (digitsValue 16 cs) else none

/-- A dotted-quad suffix becomes two hextets. -/
def expandV4Suffix (parts : List (List Char)) : Option (List (List Char)) :=
  let tail := parts.getLastD []
  if '.' ∈ tail then
    (parseV4 tail).map fun ip =>
      parts.dropLast ++ [Nat.toDigits 16 (ip.toNat / 65536), Nat.toDigits 16 (ip.toNat % 65536)]
  else some parts

/-- The hextets before and after a `::`, and how many zeros it stands for. -/
def splitHextets (parts : List (List Char)) :
    Option (List (List Char) × ℕ × List (List Char)) :=
  match (List.range (parts.length - 1)).filter fun i => 1 ≤ i ∧ parts.getD i [] = [] with
  | [] =>
    if parts.length = 8 ∧ parts.headD [] ≠ [] ∧ parts.getLastD [] ≠ [] then some (parts, 0, [])
    else none
  | [skip] =>
    let hi := if parts.headD [] = [] then skip - 1 else skip
    let lo := parts.length - skip - 1
    let lo := if parts.getLastD [] = [] then lo - 1 else lo
    -- a leading or trailing colon has to be part of the `::`
    if parts.headD [] = [] ∧ hi ≠ 0 then none
    else if parts.getLastD [] = [] ∧ lo ≠ 0 then none
    else if 8 ≤ hi + lo then none
    else some (parts.take hi, 8 - (hi + lo), parts.drop (parts.length - lo))
  | _ => none

/-- `_BaseV6._ip_int_from_string`. -/
def parseV6 (cs : List Char) : Option (BitVec 128) := do
  let parts := cs.splitOn ':'
  if parts.length < 3 then none
  let parts ← expandV4Suffix parts
  if 9 < parts.length then none
  let (hi, zeros, lo) ← splitHextets parts
  let hi ← hi.mapM parseHextet
  let lo ← lo.mapM parseHextet
  some (BitVec.ofNat 128 ((hi ++ List.replicate zeros 0 ++ lo).foldl (· * 65536 + ·) 0))

/-- `_split_scope_id`. -/
def splitScopeId (cs : List Char) : Option (List Char × Option (List Char)) :=
  if '%' ∈ cs then
    let scope := (cs.dropWhile (· ≠ '%')).tail
    if scope = [] ∨ '%' ∈ scope then none else some (cs.takeWhile (· ≠ '%'), some scope)
  else some (cs, none)

/-- `ipaddress.ip_address`; `none` is the ValueError. -/
def ipAddress (cs : List Char) : Option IpAddress :=
  if '/' ∈ cs then none
  else
    match parseV4 cs with
    | some ip => some (.v4 ip)
    | none => do
      let (addr, scope) ← splitScopeId cs
      let ip ← parseV6 addr
      some (.v6 ip scope)

/-! ## Registries -/

def v4Net (a b c d len : ℕ) : BitVec 32 × ℕ :=
  (BitVec.ofNat 32 (((a * 256 + b) * 256 + c) * 256 + d), len)

/-- A network given by its first four hextets; `::1` and the like by the value itself. -/
def v6Net (a b c d len : ℕ) : BitVec 128 × ℕ :=
  (BitVec.ofNat 128 ((((a * 65536 + b) * 65536 + c) * 65536 + d) * 0x10000000000000000), len)

def privateNetworks4 : List (BitVec 32 × ℕ) :=
  [v4Net 0 0 0 0 8, v4Net 10 0 0 0 8, v4Net 127 0 0 0 8, v4Net 169 254 0 0 16,
    v4Net 172 16 0 0 12, v4Net 192 0 0 0 24, v4Net 192 0 0 170 31, v4Net 192 0 2 0 24,
    v4Net 192 168 0 0 16, v4Net 198 18 0 0 15, v4Net 198 51 100 0 24, v4Net 203 0 113 0 24,
    v4Net 240 0 0 0 4, v4Net 255 255 255 255 32]

def privateNetworksExceptions4 : List (BitVec 32 × ℕ) := [v4Net 192 0 0 9 32, v4Net 192 0 0 10 32]

def privateNetworks6 : List (BitVec 128 × ℕ) :=
  [(1, 128), (0, 128), (BitVec.ofNat 128 0xffff00000000, 96), v6Net 0x64 0xff9b 1 0 48,
    v6Net 0x100 0 0 0 64, v6Net 0x2001 0 0 0 23, v6Net 0x2001 0xdb8 0 0 32,
    v6Net 0x2002 0 0 0 16, v6Net 0xfc00 0 0 0 7, v6Net 0xfe80 0 0 0 10]

def privateNetworksExceptions6 : List (BitVec 128 × ℕ) :=
  [((v6Net 0x2001 1 0 0 128).1 + 1, 128), ((v6Net 0x2001 1 0 0 128).1 + 2, 128),
    v6Net 0x2001 3 0 0 32, v6Net 0x2001 4 0x112 0 48, v6Net 0x2001 0x20 0 0 28,
    v6Net 0x2001 0x30 0 0 28]

def reservedNetworks6 : List (BitVec 128 × ℕ) :=
  [v6Net 0 0 0 0 8, v6Net 0x100 0 0 0 8, v6Net 0x200 0 0 0 7, v6Net 0x400 0 0 0 6,
    v6Net 0x800 0 0 0 5, v6Net 0x1000 0 0 0 4, v6Net 0x4000 0 0 0 3, v6Net 0x6000 0 0 0 3,
    v6Net 0x8000 0 0 0 3, v6Net 0xa000 0 0 0 3, v6Net 0xc000 0 0 0 3, v6Net 0xe000 0 0 0 4,
    v6Net 0xf000 0 0 0 5, v6Net 0xf800 0 0 0 6, v6Net 0xfe00 0 0 0 9]

/-- In one of the first networks and in none of the second. -/
def listed {w : ℕ} (ip : BitVec w) (nets exceptions : List (BitVec w × ℕ)) : Bool :=
  nets.any (inNet ip) ∧ ¬ exceptions.any (inNet ip)

def ipv4Mapped (ip : BitVec 128) : Option (BitVec 32) :=
  if ip >>> 32 = 0xffff then some (ip.setWidth 32) else none

def isPrivate : IpAddress → Bool
  | .v4 ip => listed ip privateNetworks4 privateNetworksExceptions4
  | .v6 ip _ =>
    match ipv4Mapped ip with
    | some ip => listed ip privateNetworks4 privateNetworksExceptions4
    | none => listed ip privateNetworks6 privateNetworksExceptions6

def isLoopback : IpAddress → Bool
  | .v4 ip => inNet ip (v4Net 127 0 0 0 8)
  | .v6 ip _ => ip = 1

def isLinkLocal : IpAddress → Bool
  | .v4 ip => inNet ip (v4Net 169 254 0 0 16)
  | .v6 ip _ => inNet ip (v6Net 0xfe80 0 0 0 10)

def isMulticast : IpAddress → Bool
  | .v4 ip => inNet ip (v4Net 224 0 0 0 4)
  | .v6 ip _ => inNet ip (v6Net 0xff00 0 0 0 8)

def isReserved : IpAddress → Bool
  | .v4 ip => inNet ip (v4Net 240 0 0 0 4)
  | .v6 ip _ => reservedNetworks6.any (inNet ip)

def isUnspecified : IpAddress → Bool
  | .v4 ip => ip = 0
  | .v6 ip _ => ip = 0

/-! ## The compressed spelling -/

/-- Start and length of the longest run of zeros, the first of several. -/
def longestZeros : List ℕ → ℕ → ℕ × ℕ → ℕ × ℕ
  | [], _, best => best
  | h :: hs, i, best =>
    let run := ((h :: hs).takeWhile (· = 0)).length
    longestZeros hs (i + 1) (if best.2 < run then (i, run) else best)

/-- `_string_from_ip_int` with `_compress_hextets`. -/
def compressV6 (ip : BitVec 128) : List Char :=
  let hextets := (List.range 8).map fun i => (ip >>> (16 * (7 - i))).toNat % 65536
  let digits := hextets.map (Nat.toDigits 16)
  let (start, len) := longestZeros hextets 0 (0, 0)
  if 1 < len then
    let left := if start = 0 then [[]] else digits.take start
    let right := if start + len = 8 then [[]] else digits.drop (start + len)
    [':'].intercalate (left ++ [[]] ++ right)
  else [':'].intercalate digits

def compressed : IpAddress → List Char
  | .v4 ip =>
    ['.'].intercalate ((List.range 4).map fun i =>
      Nat.toDigits 10 ((ip >>> (8 * (3 - i))).toNat % 256))
  | .v6 ip scope =>
    match scope with
    | some scope => compressV6 ip ++ '%' :: scope
    | none => compressV6 ip

/-- `ip in ip_network(local_ip + "/24", strict=False)`, false where either does not parse. -/
def sameSlash24 (ip localIp : List Char) : Bool :=
  match ipAddress localIp, ipAddress ip with
  | some (.v4 l), some (.v4 a) => inNet a (l, 24)
  | some (.v6 l _), some (.v6 a _) => inNet a (l, 24)
  | _, _ => false

/-! ## The LAN guard -/

def metadataHosts : List (List Char) := ["169.254.169.254".toList, "fd00:ec2::254".toList]

def metadataIps : List IpAddress :=
  [.v4 (v4Net 169 254 169 254 32).1, .v6 ((v6Net 0xfd00 0xec2 0 0 128).1 + 0x254) none]

/-- The IPv4-mapped form of an IPv6 address counts as the IPv4 address. -/
def unmap : IpAddress → IpAddress
  | .v4 ip => .v4 ip
  | .v6 ip scope => ((ipv4Mapped ip).map IpAddress.v4).getD (.v6 ip scope)

/-- A literal private, loopback or link-local address that is no metadata endpoint. -/
def isLanIp (host : List Char) : Bool :=
  let h := stripOf (fun c => c = '[' ∨ c = ']') (stripOf isSpace host)
  -- refused as written, and below once more as a value
  if h ∈ metadataHosts then false
  else
    match ipAddress h with
    | none => false
    | some ip => ip.unmap ∉ metadataIps ∧
        (ip.unmap.isPrivate ∨ ip.unmap.isLoopback ∨ ip.unmap.isLinkLocal)

example : isLanIp "[::ffff:169.254.169.254]".toList = false := by decide +kernel

end IpAddress

end Wavr
