import Mathlib
import Wavr.LanGuard
import Wavr.OptionList
import Wavr.UrlSplit

/-!
# Rebinding a camera

The host of an rtsp URL, cut out of the text by hand, and the URL with another host in its place.
-/

namespace Wavr.CameraRebind
open Text UrlSplit

def schemeSep : List Char := "://".toList

/-- Scheme, authority and tail. -/
def splitAuthority (url : List Char) : Option (List Char × List Char × List Char) :=
  (cut schemeSep url).map fun e => (e.1, authority e.2, behind e.2)

def hostportOf (authority : List Char) : List Char := afterLast '@' authority

/-- The credentials with their `@`. -/
def credsOf (authority : List Char) : List Char :=
  if '@' ∈ authority then beforeLast '@' authority ++ ['@'] else []

/-- What follows the host: the port with its colon, or nothing. -/
def portOf (hostport : List Char) : List Char :=
  if hostport.head? = some '[' then after ']' hostport
  else if ':' ∈ hostport then ':' :: afterLast ':' hostport
  else []

def orNone (s : List Char) : Option (List Char) := if s = [] then none else some s

def rtspHost (url : List Char) : Option (List Char) :=
  match splitAuthority url with
  | none => none
  | some (_, authority, _) =>
    let hostport := hostportOf authority
    if hostport = [] then none
    else if hostport.head? = some '[' then
      if ']' ∈ hostport then orNone ((before ']' hostport).drop 1) else none
    else
      let host := if ':' ∈ hostport then beforeLast ':' hostport else []
      orNone (if host = [] then hostport else host)

def rebindRtspHost (url newIp : List Char) : List Char :=
  match splitAuthority url with
  | none => url
  | some (scheme, authority, tail) =>
    if stripOf isSpace newIp = [] then url
    else
      let hostport := hostportOf authority
      if hostport = [] then url
      else if hostport.head? = some '[' ∧ ']' ∉ hostport then url
      else scheme ++ schemeSep ++ (credsOf authority ++ newIp ++ portOf hostport ++ tail)

/-! ## The parts of a URL -/

/-- Everything but the host. -/
structure Parts where
  scheme : List Char
  creds : List Char
  port : List Char
  tail : List Char
  deriving DecidableEq

def partsOf (url : List Char) : Option Parts :=
  (splitAuthority url).map fun e => ⟨e.1, credsOf e.2.1, portOf (hostportOf e.2.1), e.2.2⟩

def Parts.join (p : Parts) (host : List Char) : List Char :=
  p.scheme ++ schemeSep ++ (p.creds ++ host ++ p.port ++ p.tail)

/-- Nothing stands behind the host, or one colon and a port. -/
def PortOk (port : List Char) : Prop := port = [] ∨ ∃ p, port = ':' :: p ∧ ':' ∉ p

/-- An address that can stand in front of this port as it is written. -/
structure Fits (port addr : List Char) : Prop where
  lan : IpAddress.isLanIp addr = true
  plain : ∀ c ∈ addr, isDelim c = false ∧ c ≠ '@'
  unbracketed : addr.head? ≠ some '['
  colon : ':' ∈ addr → port ≠ []

section
variable {u a b : List Char}

theorem nonblank_of_lan (h : IpAddress.isLanIp a = true) : stripOf isSpace a ≠ [] := by
  intro hnil
  have hbare : IpAddress.bare a = [] := by rw [IpAddress.bare, hnil]; rfl
  obtain ⟨ip, hip, _⟩ := (IpAddress.isLanIp_iff a).mp h
  rw [hbare] at hip
  cases hip

theorem ne_nil_of_lan (h : IpAddress.isLanIp a = true) : a ≠ [] := by
  rintro rfl
  exact nonblank_of_lan h rfl

theorem eq_of_cut {sep u x y : List Char} (h : cut sep u = some (x, y)) : u = x ++ sep ++ y := by
  induction u generalizing x with
  | nil =>
    rw [cut] at h
    split at h <;> cases h
    simp_all
  | cons c u ih =>
    rw [cut] at h
    split at h
    · rename_i hpre
      cases h
      obtain ⟨t, ht⟩ := List.isPrefixOf_iff_prefix.mp hpre
      rw [← ht, List.drop_left, List.nil_append]
    · obtain ⟨e, he, hxy⟩ := Option.map_eq_some_iff.mp h
      cases hxy
      simpa using ih he

/-- Where a separator is first found does not depend on what comes behind it. -/
theorem cut_replace {sep u x y : List Char} (hsep : sep ≠ []) (h : cut sep u = some (x, y)) (z : List Char) :
    cut sep (x ++ sep ++ z) = some (x, z) := by
  induction u generalizing x with
  | nil => simp [cut, hsep] at h
  | cons c u ih =>
    rw [cut] at h
    split at h
    · cases h
      obtain ⟨d, ds, rfl⟩ := List.exists_cons_of_ne_nil hsep
      simp [cut]
    · rename_i hnot
      obtain ⟨⟨x', y'⟩, he, hxy⟩ := Option.map_eq_some_iff.mp h
      cases hxy
      have hnot' : ¬ sep.isPrefixOf (c :: (x' ++ sep ++ z)) = true := by
        rw [List.isPrefixOf_iff_prefix] at hnot ⊢
        intro hpre
        -- the separator would have stood in front of the first one before
        have hshort : sep <+: c :: (x' ++ sep) :=
          List.prefix_of_prefix_length_le hpre ⟨z, by simp⟩ (by simp; omega)
        rw [eq_of_cut he] at hnot
        exact hnot (hshort.trans ⟨y', by simp⟩)
      change cut sep (c :: (x' ++ sep ++ z)) = _
      rw [cut, if_neg hnot', ih he]
      rfl

/-! ## A rebuilt URL -/

theorem mem_credsOf {authority : List Char} {c : Char} (h : c ∈ credsOf authority) : c ∈ authority := by
  unfold credsOf at h
  split at h
  · rename_i hat
    obtain ⟨x, y, rfl, hy⟩ := exists_last hat
    rw [beforeLast_append_cons hy] at h
    simp only [List.mem_append, List.mem_singleton] at h
    simp only [List.mem_append, List.mem_cons]
    tauto
  · cases h

theorem mem_hostportOf {authority : List Char} {c : Char} (h : c ∈ hostportOf authority) : c ∈ authority := by
  obtain ⟨t, ht⟩ := exists_append_afterLast (c := '@') (s := authority)
  rw [ht]
  exact List.mem_append_right t h

theorem mem_portOf {hostport : List Char} {c : Char} (h : c ∈ portOf hostport) : c ∈ hostport := by
  unfold portOf at h
  split at h
  · exact (List.dropWhile_sublist _).subset (List.mem_of_mem_drop h)
  · split at h
    · rename_i hcolon
      obtain ⟨x, y, rfl, hy⟩ := exists_last hcolon
      rw [afterLast_append_cons hy] at h
      exact List.mem_append_right x h
    · cases h

/-- The credentials stay in front of whatever is put behind their `@`. -/
theorem credsOf_append {authority y : List Char} (hy : '@' ∉ y) :
    credsOf (credsOf authority ++ y) = credsOf authority ∧ hostportOf (credsOf authority ++ y) = y := by
  by_cases hat : '@' ∈ authority
  · have hc : credsOf authority = beforeLast '@' authority ++ ['@'] := if_pos hat
    have he : credsOf authority ++ y = beforeLast '@' authority ++ '@' :: y := by simp [hc]
    rw [he, hostportOf, afterLast_append_cons hy, credsOf, if_pos (by simp), beforeLast_append_cons hy, ← hc]
    exact ⟨rfl, rfl⟩
  · have hc : credsOf authority = [] := if_neg hat
    rw [hc, List.nil_append, credsOf, if_neg hy, hostportOf, afterLast_of_not_mem hy]
    exact ⟨rfl, rfl⟩

theorem head?_append (hne : a ≠ []) (port : List Char) : (a ++ port).head? = a.head? := by
  obtain ⟨c, a', rfl⟩ := List.exists_cons_of_ne_nil hne
  rfl

/-- A port is read back behind a host in front of it. -/
theorem portOf_append {port : List Char} (hport : PortOk port) (ha : Fits port a) : portOf (a ++ port) = port := by
  have hhead : (a ++ port).head? ≠ some '[' := by
    rw [head?_append (ne_nil_of_lan ha.lan)]
    exact ha.unbracketed
  rw [portOf, if_neg hhead]
  rcases hport with rfl | ⟨p, rfl, hp⟩
  · have hcolon : ':' ∉ a := fun hm => ha.colon hm rfl
    rw [List.append_nil, if_neg hcolon]
  · rw [if_pos (by simp), afterLast_append_cons hp]

/-- And so is the host. -/
theorem host_append {port : List Char} (hport : PortOk port) (ha : Fits port a) :
    (if ':' ∈ a ++ port then beforeLast ':' (a ++ port) else []) = if port = [] then [] else a := by
  rcases hport with rfl | ⟨p, rfl, hp⟩
  · have hcolon : ':' ∉ a := fun hm => ha.colon hm rfl
    rw [List.append_nil, if_neg hcolon, if_pos rfl]
  · rw [if_pos (by simp), beforeLast_append_cons hp, if_neg (by simp)]

theorem splitAuthority_join {scheme rest x : List Char} (hcut : cut schemeSep u = some (scheme, rest))
    (hx : ∀ c ∈ x, isDelim c = false) :
    splitAuthority (scheme ++ schemeSep ++ (x ++ behind rest)) = some (scheme, x, behind rest) := by
  rw [splitAuthority, cut_replace (by decide) hcut]
  simp [authority_append hx, behind_append hx]

/-- What a URL with a host looks like to both functions. -/
theorem exists_of_rtspHost (h : (rtspHost u).isSome) :
    ∃ scheme rest, cut schemeSep u = some (scheme, rest) ∧ hostportOf (authority rest) ≠ [] ∧
      ((hostportOf (authority rest)).head? = some '[' → ']' ∈ hostportOf (authority rest)) := by
  unfold rtspHost splitAuthority at h
  cases hcut : cut schemeSep u with
  | none => simp [hcut] at h
  | some e =>
    simp only [hcut, Option.map_some] at h
    refine ⟨e.1, e.2, rfl, fun hnil => by simp [hnil] at h, fun hhead => ?_⟩
    by_contra hclose
    rw [if_pos hhead, if_neg hclose] at h
    split at h <;> cases h

/-- Rebinding puts the address between the parts. -/
theorem rebind_eq (h : (rtspHost u).isSome) : ∃ p, partsOf u = some p ∧
    ∀ addr, stripOf isSpace addr ≠ [] → rebindRtspHost u addr = p.join addr := by
  obtain ⟨scheme, rest, hcut, hne, hclose⟩ := exists_of_rtspHost h
  refine ⟨⟨scheme, credsOf (authority rest), portOf (hostportOf (authority rest)), behind rest⟩,
    by simp [partsOf, splitAuthority, hcut], fun addr haddr => ?_⟩
  have hbracket : ¬ ((hostportOf (authority rest)).head? = some '[' ∧ ']' ∉ hostportOf (authority rest)) :=
    fun hb => hb.2 (hclose hb.1)
  simp only [rebindRtspHost, splitAuthority, hcut, Option.map_some, if_neg haddr, if_neg hne, if_neg hbracket,
    Parts.join]

/-- The parts around an address that fits are the parts of the URL that is put together. -/
theorem parts_join {p : Parts} (hp : partsOf u = some p) (hport : PortOk p.port) (ha : Fits p.port a) :
    partsOf (p.join a) = some p ∧ rtspHost (p.join a) = some a := by
  unfold partsOf splitAuthority at hp
  cases hcut : cut schemeSep u with
  | none => simp [hcut] at hp
  | some e =>
    obtain ⟨scheme, rest⟩ := e
    simp only [hcut, Option.map_some, Option.some.injEq] at hp
    subst hp
    simp only at hport ha
    have haddr := ne_nil_of_lan ha.lan
    have hportMem : ∀ c ∈ portOf (hostportOf (authority rest)), c ∈ authority rest ∧ c ≠ '@' := by
      intro c hc
      refine ⟨mem_hostportOf (mem_portOf hc), ?_⟩
      rintro rfl
      exact not_mem_afterLast (mem_portOf hc)
    -- no `@` and no delimiter in what is new, so the cuts fall where they fell before
    have hat : '@' ∉ a ++ portOf (hostportOf (authority rest)) := by
      intro hm
      rcases List.mem_append.mp hm with hm | hm
      · exact (ha.plain _ hm).2 rfl
      · exact (hportMem _ hm).2 rfl
    have hdelim : ∀ c ∈ credsOf (authority rest) ++ (a ++ portOf (hostportOf (authority rest))),
      isDelim c = false := by
      intro c hc
      rcases List.mem_append.mp hc with hc | hc
      · exact not_isDelim_of_mem_authority (mem_credsOf hc)
      · rcases List.mem_append.mp hc with hc | hc
        · exact (ha.plain c hc).1
        · exact not_isDelim_of_mem_authority (hportMem c hc).1
    have hsplit := splitAuthority_join hcut hdelim
    obtain ⟨hcreds, hhostport⟩ : credsOf (credsOf (authority rest) ++ _) = _ ∧ _ := credsOf_append hat
    have hassoc : (Parts.mk scheme (credsOf (authority rest)) (portOf (hostportOf (authority rest)))
        (behind rest)).join a = scheme ++ schemeSep ++
          (credsOf (authority rest) ++ (a ++ portOf (hostportOf (authority rest))) ++ behind rest) := by
      simp only [Parts.join, List.append_assoc]
    rw [hassoc]
    constructor
    · rw [partsOf, hsplit, Option.map_some, hcreds, hhostport, portOf_append hport ha]
    · -- the host is read back: the address is not empty and opens no bracket
      have hne : a ++ portOf (hostportOf (authority rest)) ≠ [] := List.append_ne_nil_of_left_ne_nil haddr _
      have hhead : (a ++ portOf (hostportOf (authority rest))).head? ≠ some '[' := by
        rw [head?_append haddr]
        exact ha.unbracketed
      simp only [rtspHost, hsplit, hhostport, if_neg hne, if_neg hhead, host_append hport ha]
      by_cases hp : portOf (hostportOf (authority rest)) = []
      · rw [if_pos hp, if_pos rfl, hp, List.append_nil, orNone, if_neg haddr]
      · rw [if_neg hp, if_neg haddr, orNone, if_neg haddr]

/-- Of a URL with a host, a rebind changes the host only. -/
theorem rebind_host {p : Parts} (h : (rtspHost u).isSome) (hp : partsOf u = some p) (hport : PortOk p.port)
    (ha : Fits p.port a) (hb : Fits p.port b) :
    rtspHost (rebindRtspHost u a) = some a ∧
      rebindRtspHost (rebindRtspHost u a) b = rebindRtspHost u b ∧ partsOf (rebindRtspHost u a) = some p := by
  obtain ⟨p', hp', hrebind⟩ := rebind_eq h
  cases hp.symm.trans hp'
  obtain ⟨hparts, hhost⟩ := parts_join hp hport ha
  rw [hrebind a (nonblank_of_lan ha.lan), hrebind b (nonblank_of_lan hb.lan)]
  obtain ⟨p', hp', hagain⟩ := rebind_eq (u := p.join a) (by rw [hhost]; rfl)
  cases hparts.symm.trans hp'
  exact ⟨hhost, hagain b (nonblank_of_lan hb.lan), hparts⟩

/-- An IPv4 literal is written with digits and dots. -/
theorem mem_of_parseV4 {ip : BitVec 32} (h : IpAddress.parseV4 a = some ip) :
    ∀ c ∈ a, c = '.' ∨ IpAddress.isDecDigit c = true := by
  intro c hc
  have hjoin : ['.'].intercalate (a.splitOn '.') = a := List.intercalate_splitOn '.'
  rw [← hjoin] at hc
  rcases mem_intercalate hc with rfl | ⟨o, ho, hc⟩
  · exact .inl rfl
  unfold IpAddress.parseV4 at h
  dsimp only at h
  split at h
  · cases h
  obtain ⟨os, hos, _⟩ := Option.map_eq_some_iff.mp h
  obtain ⟨n, hn⟩ := OptionList.exists_of_mapM hos o ho
  unfold IpAddress.parseOctet at hn
  split at hn
  · rename_i hoctet
    exact .inr (List.all_eq_true.mp hoctet.2.1 c hc)
  · cases hn

theorem parseV4_of_ipAddress {ip : BitVec 32} (h : IpAddress.ipAddress a = some (.v4 ip)) :
    IpAddress.parseV4 a = some ip := by
  unfold IpAddress.ipAddress at h
  split at h
  · cases h
  split at h
  · rename_i ip' hip
    cases h
    exact hip
  · obtain ⟨e, _, h⟩ := Option.bind_eq_some_iff.mp h
    obtain ⟨ip', _, h⟩ := Option.bind_eq_some_iff.mp h
    cases h

/-- The addresses that the rebind route takes fit in front of every port. -/
theorem fits_of_v4 {ip : BitVec 32} (hlan : IpAddress.isLanIp a = true)
    (hip : IpAddress.ipAddress a = some (.v4 ip)) (port : List Char) : Fits port a := by
  have hchar := mem_of_parseV4 (parseV4_of_ipAddress hip)
  have hnot : ∀ d ∈ ['/', '?', '#', '@', '[', ':'], d ∉ a := by
    have hother : ['/', '?', '#', '@', '[', ':'].all fun d => ¬ (d = '.' ∨ IpAddress.isDecDigit d = true) := by
      decide
    exact fun d hd hm => of_decide_eq_true (List.all_eq_true.mp hother d hd) (hchar d hm)
  refine ⟨hlan, fun c hc => ⟨?_, ?_⟩, fun h => ?_, fun h => absurd h (hnot ':' (by simp))⟩
  · by_contra hdelim
    simp only [isDelim, Bool.not_eq_false, decide_eq_true_eq] at hdelim
    rcases hdelim with rfl | rfl | rfl
    · exact hnot '/' (by simp) hc
    · exact hnot '?' (by simp) hc
    · exact hnot '#' (by simp) hc
  · rintro rfl
    exact hnot '@' (by simp) hc
  · exact hnot '[' (by simp) (List.mem_of_mem_head? h)

end

/-- Without a port behind it an IPv6 address is cut at its last colon. -/
theorem ipv6_without_port :
    IpAddress.isLanIp "fd00::1".toList = true ∧
      rebindRtspHost "rtsp://cam/stream".toList "fd00::1".toList = "rtsp://fd00::1/stream".toList ∧
      rtspHost (rebindRtspHost "rtsp://cam/stream".toList "fd00::1".toList) ≠ some "fd00::1".toList := by
  decide +kernel

theorem rebind_host_sample :
    rtspHost (rebindRtspHost "rtsp://user:p%40ss@[fd00::7]:554/s1?tcp".toList "10.0.0.9".toList) =
        some "10.0.0.9".toList ∧
      rebindRtspHost (rebindRtspHost "rtsp://user:p%40ss@[fd00::7]:554/s1?tcp".toList "10.0.0.9".toList)
          "fd00::9".toList =
        rebindRtspHost "rtsp://user:p%40ss@[fd00::7]:554/s1?tcp".toList "fd00::9".toList ∧
      partsOf (rebindRtspHost "rtsp://user:p%40ss@[fd00::7]:554/s1?tcp".toList "10.0.0.9".toList) =
        some ⟨"rtsp".toList, "user:p%40ss@".toList, ":554".toList, "/s1?tcp".toList⟩ := by
  have hfits : ∀ addr ∈ ["10.0.0.9".toList, "fd00::9".toList], Fits ":554".toList addr := by
    have hall : ["10.0.0.9".toList, "fd00::9".toList].all fun addr => IpAddress.isLanIp addr ∧
        (addr.all fun c => isDelim c = false ∧ c ≠ '@') ∧ addr.head? ≠ some '[' := by decide +kernel
    intro addr haddr
    obtain ⟨hlan, hplain, hhead⟩ := of_decide_eq_true (List.all_eq_true.mp hall addr haddr)
    exact ⟨hlan, fun c hc => of_decide_eq_true (List.all_eq_true.mp hplain c hc), hhead,
      fun _ => by decide +kernel⟩
  have hport : PortOk ":554".toList := .inr ⟨"554".toList, by decide +kernel, by decide +kernel⟩
  exact rebind_host (by decide +kernel) (by decide +kernel) hport (hfits _ List.mem_cons_self)
    (hfits _ (List.mem_cons_of_mem _ List.mem_cons_self))

end Wavr.CameraRebind
