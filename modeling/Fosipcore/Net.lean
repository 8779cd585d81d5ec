import Fosipcore.Library.IpAddr
import Mathlib.Tactic.SplitIfs

/-!
# Camera addresses and page origins

A browser claims the address of its camera at login. The claim is resolved once, and addresses
that are never a camera on the local network are refused. The page that sends the claim has an
origin, which it cannot forge.

## Main definitions

* `isBlockedIp`, `resolveCamera`: the validation and the resolution of a claim
* `OriginInfo`, `OriginInfo.parse`, `OriginInfo.matches`: page origins

## Main results

* `resolveCamera_not_blocked`: a resolved camera is not blocked
* `OriginInfo.matches_iff`: an origin matches a claim iff it is that of the camera's page
-/

namespace Fosipcore

open Text Ip

/-- An address and a port. -/
structure SocketAddr where
  ip : IpAddr
  port : UInt16
  deriving DecidableEq

/-- True if this address must never be dialed on behalf of a client claim. -/
def isBlockedIp : IpAddr → Bool
  | .v4 v4 => v4.isUnspecified || v4.isLoopback || v4.isLinkLocal || v4.isMulticast
  | .v6 v6 =>
    v6.isUnspecified || v6.isLoopback || v6.isMulticast ||
      (v6.segment 0 &&& 0xffc0) == 0xfe80 || -- fe80::/10 link-local
      v6.toIpv4Mapped.any fun v4 => v4.isUnspecified || v4.isLoopback || v4.isLinkLocal

/-- Validate the answers for a resolved camera hostname: there is one, and none is blocked. -/
def validateResolved (addrs : List SocketAddr) : Bool :=
  !addrs.isEmpty && addrs.all fun a => !isBlockedIp a.ip

/-- Resolve a claimed camera `host:port`. `lookupHost` is the answer of the resolver, which is
asked for names only. -/
def resolveCamera (lookupHost : Option (List SocketAddr)) (host : Str) (port : UInt16) :
    Option SocketAddr :=
  let host := trim host
  if host = [] then none
  else
    match parseIpAddr host with
    -- a literal is not resolved
    | some ip => if isBlockedIp ip then none else some ⟨ip, port⟩
    | none =>
      match lookupHost with
      | none => none
      | some addrs => if validateResolved addrs then addrs.head? else none

/-- A parsed `Origin` header: the lowercased host, and the port with scheme defaults applied. -/
structure OriginInfo where
  host : Str
  port : UInt16
  deriving DecidableEq

namespace OriginInfo

/-- `str::parse::<u16>` -/
def parsePort (s : Str) : Option UInt16 := (parseUnsigned 65535 s).map UInt16.ofNat

/-- The default port of a scheme with its colon. -/
def defaultPort (scheme : Str) : Option UInt16 :=
  match stripSuffix [':'] scheme with
  | some name =>
    if name = "http".toList then some 80
    else if name = "https".toList then some 443
    else none
  | none => none

/-- The host and port of an authority. -/
def parseAuthority (authority : Str) (defaultPort : UInt16) : Option (Str × UInt16) :=
  match authority with
  -- IPv6 literals are bracketed, and need a port
  | '[' :: inner => do
    let (host, rest) ← splitOnce [']'] inner
    let port ← (stripPrefix [':'] rest).bind parsePort
    some (asciiLower host, port)
  | _ =>
    match rsplitOnce ':' authority with
    | some (h, p) => (parsePort p).map fun port => (asciiLower h, port)
    | none => some (asciiLower authority, defaultPort)

/-- Parse an `Origin` header value, `scheme://host[:port]`. -/
def parse (value : Str) : Option OriginInfo :=
  let value := trim value
  if value = [] ∨ value = "null".toList then none
  else do
    let (scheme, authority) ← splitOnce "//".toList value
    -- a path is cut off
    let authority := trim (authority.takeWhile (· ≠ '/'))
    let port ← defaultPort scheme
    let (host, port) ← parseAuthority authority port
    if host = [] then none else some ⟨host, port⟩

/-- The origin matches a claimed camera iff host (case-insensitive) and port are equal. -/
def «matches» (o : OriginInfo) (claimedHost : Str) (claimedPort : UInt16) : Bool :=
  o.host == asciiLower (trim claimedHost) && o.port == claimedPort

/-- The origin of a camera's own page, as `openVideo` builds it from the claim. -/
def ofCamera (claimedHost : Str) (httpPort : UInt16) : OriginInfo :=
  ⟨asciiLower (trim claimedHost), httpPort⟩

/-- An origin that matches a claim is that of the camera's page. -/
theorem matches_iff {o : OriginInfo} {claimedHost : Str} {claimedPort : UInt16} :
    o.matches claimedHost claimedPort = true ↔ o = ofCamera claimedHost claimedPort := by
  simp only [OriginInfo.matches, ofCamera, Bool.and_eq_true, beq_iff_eq]
  constructor
  · rintro ⟨hhost, hport⟩
    rw [← hhost, ← hport]
  · rintro rfl
    exact ⟨rfl, rfl⟩

/-- A host that has been trimmed and lowered stays as it is. -/
theorem ofCamera_ofCamera (claimedHost : Str) (httpPort : UInt16) :
    ofCamera (ofCamera claimedHost httpPort).host (ofCamera claimedHost httpPort).port =
      ofCamera claimedHost httpPort := by
  simp only [ofCamera, trim_asciiLower, trim_trim, asciiLower_asciiLower]

end OriginInfo

/-- **A resolved camera is not blocked**: neither a literal nor any answer of the resolver. -/
theorem resolveCamera_not_blocked {lookupHost : Option (List SocketAddr)} {host : Str}
    {port : UInt16} {addr : SocketAddr} (h : resolveCamera lookupHost host port = some addr) :
    isBlockedIp addr.ip = false := by
  unfold resolveCamera at h
  dsimp only at h
  split_ifs at h
  cases hparse : parseIpAddr (trim host) with
  | some ip =>
    simp only [hparse] at h
    split_ifs at h with hblocked
    obtain rfl := Option.some.inj h
    simpa using hblocked
  | none =>
    simp only [hparse] at h
    cases lookupHost with
    | none => cases h
    | some addrs =>
      simp only at h
      split_ifs at h with hvalid
      -- all answers were validated, and so was the first
      have hall := (Bool.and_eq_true_iff.mp hvalid).2
      simpa using List.all_eq_true.mp hall addr (List.mem_of_mem_head? h)

end Fosipcore
