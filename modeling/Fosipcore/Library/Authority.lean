import Fosipcore.Library.IpText

/-!
# The authority of a URI

The authority follows the two slashes of a URI and runs to the next slash, question mark or hash. It
has a host, possibly with user information in front of it, and a port behind it. An IPv6 address
stands in brackets, and a port without digits is the default one.

## Main definitions

* `authority`: the authority at the front of a text
* `Denotes`: the IP address and the port of an authority

## Main results

* `Denotes.v4_cases`: how an authority with an IPv4 address is written
* `Denotes.bracket`: an authority with an IPv6 address has a colon behind a bracket
-/

namespace Uri

open Text Ip

/-! ## Grammar -/

def endsAuthority (c : Char) : Bool := c = '/' || c = '?' || c = '#'

/-- The authority at the front of what follows the two slashes. -/
def authority (s : Str) : Str := s.takeWhile (!endsAuthority ·)

def isHexDigit (c : Char) : Bool := (digitVal 16 c).isSome

/-- An unreserved character, one of the delimiters that a part may have, or a colon. -/
def isUserInfoChar (c : Char) : Bool := c.isAlphanum || c ∈ "-._~!$&'()*+,;=:".toList

/-- Other characters are percent-encoded. -/
def isUserInfo : Str → Bool
  | '%' :: a :: b :: s => isHexDigit a && isHexDigit b && isUserInfo s
  | c :: s => isUserInfoChar c && isUserInfo s
  | [] => true

/-- A host that is an IP address. -/
inductive IsHost : Str → IpAddr → Prop
  | v4 {s : Str} {x : Ipv4Addr} : parseIpAddr s = some (.v4 x) → IsHost s (.v4 x)
  | v6 {s : Str} {x : Ipv6Addr} : parseIpAddr s = some (.v6 x) → IsHost ('[' :: (s ++ [']'])) (.v6 x)

/-- What follows the host, and the port this is. -/
inductive IsPort (default : ℕ) : Str → ℕ → Prop
  | absent : IsPort default [] default
  | empty : IsPort default [':'] default
  | digits {s : Str} : s ≠ [] → s.all Char.isDigit = true → IsPort default (':' :: s) (decimal s)

/-- **The IP address and the port of an authority.** -/
inductive Denotes (default : ℕ) : Str → IpAddr → ℕ → Prop
  | bare {host portText : Str} {ip : IpAddr} {port : ℕ} : IsHost host ip →
      IsPort default portText port → Denotes default (host ++ portText) ip port
  | user {info host portText : Str} {ip : IpAddr} {port : ℕ} : isUserInfo info = true →
      IsHost host ip → IsPort default portText port →
      Denotes default (info ++ '@' :: (host ++ portText)) ip port

/-! ## Addresses of either kind -/

variable {default port : ℕ}

/-- An authority with an IPv4 address has the one text of this. -/
theorem Denotes.v4_cases {s : Str} {x : Ipv4Addr} (h : Denotes default s (.v4 x) port) :
    ∃ portText, IsPort default portText port ∧
      (s = x.display ++ portText ∨
        ∃ info, isUserInfo info = true ∧ s = info ++ '@' :: (x.display ++ portText)) := by
  cases h with
  | bare hhost hport =>
    cases hhost with
    | v4 hparse => exact ⟨_, hport, Or.inl (by rw [parseIpAddr_v4_iff.mp hparse])⟩
  | user hinfo hhost hport =>
    cases hhost with
    | v4 hparse => exact ⟨_, hport, Or.inr ⟨_, hinfo, by rw [parseIpAddr_v4_iff.mp hparse]⟩⟩

theorem Denotes.of_v4 {x : Ipv4Addr} {portText : Str} (h : IsPort default portText port) :
    Denotes default (x.display ++ portText) (.v4 x) port :=
  .bare (.v4 (parseIpAddr_v4_iff.mpr rfl)) h

/-- An authority with an IPv6 address has a colon behind the bracket. -/
theorem Denotes.bracket {s : Str} {x : Ipv6Addr} (h : Denotes default s (.v6 x) port) :
    ∃ a b c, s = a ++ '[' :: (b ++ ':' :: c) := by
  cases h with
  | @bare _ portText _ _ hhost hport =>
    cases hhost with
    | v6 hparse =>
      obtain ⟨b, c, rfl⟩ := List.append_of_mem (colon_mem_of_parse_v6 hparse)
      exact ⟨[], b, c ++ ']' :: portText, by simp⟩
  | @user info _ portText _ _ _ hhost hport =>
    cases hhost with
    | v6 hparse =>
      obtain ⟨b, c, rfl⟩ := List.append_of_mem (colon_mem_of_parse_v6 hparse)
      exact ⟨info ++ ['@'], b, c ++ ']' :: portText, by simp⟩

end Uri
