import Fosipcore.Library.Text

/-!
# IP addresses

The two kinds of IP address, the classes of addresses that a network service treats specially,
and the parser of their textual forms.

## Main definitions

* `Ipv4Addr`, `Ipv6Addr`, `IpAddr`: addresses
* `Ipv4Addr.isLoopback` and others: classes of addresses
* `parseIpAddr`: the textual forms, `::` and embedded IPv4 addresses included
-/

namespace Ip

open Text

/-- An IPv4 address: four octets. -/
structure Ipv4Addr where
  a : UInt8
  b : UInt8
  c : UInt8
  d : UInt8
  deriving DecidableEq

/-- An IPv6 address: eight 16-bit segments. -/
structure Ipv6Addr where
  segments : List UInt16
  length_segments : segments.length = 8
  deriving DecidableEq

inductive IpAddr where
  | v4 (addr : Ipv4Addr)
  | v6 (addr : Ipv6Addr)
  deriving DecidableEq

namespace Ipv4Addr

/-- `0.0.0.0` -/
def isUnspecified (x : Ipv4Addr) : Bool := x = ⟨0, 0, 0, 0⟩

/-- `127.0.0.0/8` -/
def isLoopback (x : Ipv4Addr) : Bool := x.a = 127

/-- `169.254.0.0/16` -/
def isLinkLocal (x : Ipv4Addr) : Bool := x.a = 169 && x.b = 254

/-- `224.0.0.0/4` -/
def isMulticast (x : Ipv4Addr) : Bool := 224 ≤ x.a && x.a ≤ 239

end Ipv4Addr

namespace Ipv6Addr

/-- The segment at an index below eight. -/
def segment (x : Ipv6Addr) (i : ℕ) : UInt16 := x.segments.getD i 0

/-- `::` -/
def isUnspecified (x : Ipv6Addr) : Bool := x.segments = List.replicate 8 0

/-- `::1` -/
def isLoopback (x : Ipv6Addr) : Bool := x.segments = List.replicate 7 0 ++ [1]

/-- `ff00::/8` -/
def isMulticast (x : Ipv6Addr) : Bool := x.segment 0 >>> 8 = 0xff

/-- The IPv4 address in `::ffff:a.b.c.d`. -/
def toIpv4Mapped (x : Ipv6Addr) : Option Ipv4Addr :=
  if x.segments.take 6 = [0, 0, 0, 0, 0, 0xffff] then
    some ⟨(x.segment 6 >>> 8).toUInt8, (x.segment 6).toUInt8, (x.segment 7 >>> 8).toUInt8,
      (x.segment 7).toUInt8⟩
  else none

end Ipv6Addr

/-! ## Parsing

A reader takes an optional value from the front of the text and returns the rest; a reader that
fails takes nothing. -/

/-- The value of a digit in a radix of at most sixteen. -/
def digitVal (radix : ℕ) (c : Char) : Option ℕ :=
  let n :=
    if c.isDigit then c.toNat - '0'.toNat
    else if 'a' ≤ c ∧ c ≤ 'f' then c.toNat - 'a'.toNat + 10
    else if 'A' ≤ c ∧ c ≤ 'F' then c.toNat - 'A'.toNat + 10
    else radix
  if n < radix then some n else none

/-- Read a number of at most `maxDigits` digits and at most `max`. -/
def readNumber (radix maxDigits max : ℕ) (allowZeroPrefix : Bool) (s : Str) :
    Option (ℕ × Str) :=
  let digits := s.takeWhile fun c => (digitVal radix c).isSome
  let value := digits.foldl (fun n c => n * radix + (digitVal radix c).getD 0) 0
  -- a number that overflows is too large for any `max`
  if digits.length = 0 ∨ digits.length > maxDigits ∨ value > max then none
  else if !allowZeroPrefix && digits.head? == some '0' && digits.length > 1 then none
  else some (value, s.drop digits.length)

/-- Read a given character. -/
def readGivenChar (c : Char) : Str → Option (Unit × Str)
  | d :: s => if c = d then some ((), s) else none
  | [] => none

/-- Read a value behind a separator, except at index zero. -/
def readSeparator {α : Type} (sep : Char) (index : ℕ) (inner : Str → Option (α × Str))
    (s : Str) : Option (α × Str) :=
  if index = 0 then inner s
  else do
    let (_, s) ← readGivenChar sep s
    inner s

/-- Read four octets without leading zeros, separated by dots. -/
def readIpv4Addr (s : Str) : Option (Ipv4Addr × Str) := do
  let octet := readNumber 10 3 255 false
  let (a, s) ← octet s
  let (b, s) ← readSeparator '.' 1 octet s
  let (c, s) ← readSeparator '.' 2 octet s
  let (d, s) ← readSeparator '.' 3 octet s
  some (⟨.ofNat a, .ofNat b, .ofNat c, .ofNat d⟩, s)

/-- Read up to `limit` groups from index `i` on, the last two possibly as an IPv4 address:
the groups, whether they end in such an address, and the rest. -/
def readGroups (limit : ℕ) : ℕ → ℕ → Str → List UInt16 × Bool × Str
  | 0, _, s => ([], false, s)
  | n + 1, i, s =>
    -- an IPv4 address takes two groups
    let ipv4 := if i + 1 < limit then readSeparator ':' i readIpv4Addr s else none
    match ipv4 with
    | some (v4, s) =>
      ([v4.a.toUInt16 <<< 8 ||| v4.b.toUInt16, v4.c.toUInt16 <<< 8 ||| v4.d.toUInt16], true, s)
    | none =>
      match readSeparator ':' i (readNumber 16 4 0xffff true) s with
      | some (group, s) =>
        let (groups, ipv4, s) := readGroups limit n (i + 1) s
        (.ofNat group :: groups, ipv4, s)
      | none => ([], false, s)

/-- Read eight groups, or fewer around a `::` that stands for at least one zero group. -/
def readIpv6Addr (s : Str) : Option (Ipv6Addr × Str) :=
  let (head, headIpv4, s) := readGroups 8 8 0 s
  if h : head.length = 8 then some (⟨head, h⟩, s)
  -- an IPv4 address comes last
  else if headIpv4 then none
  else do
    let (_, s) ← readGivenChar ':' s
    let (_, s) ← readGivenChar ':' s
    -- the `::` stands for one group at least
    let limit := 8 - (head.length + 1)
    let (tail, _, s) := readGroups limit limit 0 s
    let segments := head ++ List.replicate (8 - head.length - tail.length) 0 ++ tail
    if h : segments.length = 8 then some (⟨segments, h⟩, s) else none

/-- **Parse an IP address** of either kind; nothing may follow it. -/
def parseIpAddr (s : Str) : Option IpAddr :=
  let addr := match readIpv4Addr s with
    | some (v4, s) => some (IpAddr.v4 v4, s)
    | none => (readIpv6Addr s).map fun (v6, s) => (.v6 v6, s)
  match addr with
  | some (addr, []) => some addr
  | _ => none

end Ip
