import Fosipcore.Net

/-!
# Refused camera addresses

An address that is unspecified, loopback, link-local or multicast is never a camera, and neither is
an IPv6 address that maps such an IPv4 address. The check lists the classes for the two kinds of
addresses and once more for mapped addresses, where multicast is missing.

## Main definitions

* `Ip.IpAddr.unmapped`: an IPv4-mapped address as the IPv4 address
* `Refused`, `MapsMulticast`: what is to be refused, and the addresses that are not
* `answers`: the addresses that a claim is resolved to

## Main results

* `isBlockedIp_iff`: the addresses that are blocked
* `resolveCamera_refuses_iff`: the claims for which no refused address is let through
-/

namespace Ip

/-- `fe80::/10` -/
def Ipv6Addr.isLinkLocal (x : Ipv6Addr) : Bool := x.segment 0 &&& 0xffc0 = 0xfe80

namespace IpAddr

/-- An IPv4-mapped address is the IPv4 address. -/
def unmapped : IpAddr → IpAddr
  | .v4 x => .v4 x
  | .v6 x => x.toIpv4Mapped.elim (.v6 x) .v4

def isUnspecified : IpAddr → Bool
  | .v4 x => x.isUnspecified
  | .v6 x => x.isUnspecified

def isLoopback : IpAddr → Bool
  | .v4 x => x.isLoopback
  | .v6 x => x.isLoopback

def isLinkLocal : IpAddr → Bool
  | .v4 x => x.isLinkLocal
  | .v6 x => x.isLinkLocal

def isMulticast : IpAddr → Bool
  | .v4 x => x.isMulticast
  | .v6 x => x.isMulticast

end IpAddr

namespace Ipv6Addr

variable {x : Ipv6Addr} {y : Ipv4Addr}

/-- The segments in front of a mapped address. -/
theorem segments_of_mapped (h : x.toIpv4Mapped = some y) :
    ∃ high low, x.segments = [0, 0, 0, 0, 0, 0xffff, high, low] := by
  unfold toIpv4Mapped at h
  split_ifs at h with htake
  have hlength : (x.segments.drop 6).length = 2 := by rw [List.length_drop, x.length_segments]
  obtain ⟨high, low, hdrop⟩ := List.length_eq_two.mp hlength
  refine ⟨high, low, ?_⟩
  calc x.segments = x.segments.take 6 ++ x.segments.drop 6 := (List.take_append_drop 6 _).symm
    _ = [0, 0, 0, 0, 0, 0xffff, high, low] := by
      rw [htake, hdrop]
      rfl

/-- A mapped address is in none of the classes of IPv6 addresses. -/
theorem classes_of_mapped (h : x.toIpv4Mapped = some y) :
    x.isUnspecified = false ∧ x.isLoopback = false ∧ x.isMulticast = false ∧
      x.isLinkLocal = false := by
  obtain ⟨high, low, hsegments⟩ := segments_of_mapped h
  have hfirst : x.segment 0 = 0 := by rw [segment, hsegments]; rfl
  refine ⟨?_, ?_, ?_, ?_⟩
  · rw [isUnspecified, hsegments]
    simp [List.replicate]
  · rw [isLoopback, hsegments]
    simp [List.replicate]
  · rw [isMulticast, hfirst]
    rfl
  · rw [isLinkLocal, hfirst]
    rfl

end Ipv6Addr

end Ip

namespace Fosipcore

open Text Ip

/-- **What is to be refused**: the classes, in either form. -/
def Refused (ip : IpAddr) : Prop :=
  ip.unmapped.isUnspecified ∨ ip.unmapped.isLoopback ∨ ip.unmapped.isLinkLocal ∨
    ip.unmapped.isMulticast

/-- The address maps an IPv4 multicast address. -/
def MapsMulticast (ip : IpAddr) : Prop :=
  ∃ x y, ip = .v6 x ∧ x.toIpv4Mapped = some y ∧ y.isMulticast = true

theorem isBlockedIp_mapped {x : Ipv6Addr} {y : Ipv4Addr} (h : x.toIpv4Mapped = some y) :
    isBlockedIp (.v6 x) = (y.isUnspecified || y.isLoopback || y.isLinkLocal) := by
  obtain ⟨hunspecified, hloopback, hmulticast, hlinkLocal⟩ := Ipv6Addr.classes_of_mapped h
  have hlink : (x.segment 0 &&& 0xffc0 == 0xfe80) = false := hlinkLocal
  simp only [isBlockedIp, hunspecified, hloopback, hmulticast, hlink, h, Option.any_some,
    Bool.false_or]

/-- A multicast address is in no other class. -/
theorem isBlocked_of_multicast {y : Ipv4Addr} (h : y.isMulticast = true) :
    (y.isUnspecified || y.isLoopback || y.isLinkLocal) = false := by
  obtain ⟨a, b, c, d⟩ := y
  simp only [Ipv4Addr.isMulticast, Bool.and_eq_true, decide_eq_true_eq] at h
  have hne : a ≠ 0 ∧ a ≠ 127 ∧ a ≠ 169 := by
    refine ⟨?_, ?_, ?_⟩ <;> rintro rfl <;> exact absurd h (by decide)
  simp [Ipv4Addr.isUnspecified, Ipv4Addr.isLoopback, Ipv4Addr.isLinkLocal, hne]

/-- The mapped form is blocked as the address is, unless that is multicast. -/
theorem isBlockedIp_mapped_iff {x : Ipv6Addr} {y : Ipv4Addr} (h : x.toIpv4Mapped = some y) :
    isBlockedIp (.v6 x) = isBlockedIp (.v4 y) ↔ y.isMulticast = false := by
  rw [isBlockedIp_mapped h, isBlockedIp]
  cases hmulticast : y.isMulticast with
  | true => simp [isBlocked_of_multicast hmulticast]
  | false => simp

theorem MapsMulticast.refused {ip : IpAddr} (h : MapsMulticast ip) : Refused ip := by
  obtain ⟨x, y, rfl, hmapped, hmulticast⟩ := h
  rw [Refused, IpAddr.unmapped, hmapped]
  exact .inr (.inr (.inr hmulticast))

/-- **A blocked address** is one to be refused that maps no multicast address. -/
theorem isBlockedIp_iff (ip : IpAddr) :
    isBlockedIp ip = true ↔ Refused ip ∧ ¬ MapsMulticast ip := by
  cases ip with
  | v4 y =>
    have hmaps : ¬ MapsMulticast (.v4 y) := by
      rintro ⟨_, _, heq, -⟩
      cases heq
    simp [hmaps, Refused, isBlockedIp, IpAddr.unmapped, IpAddr.isUnspecified, IpAddr.isLoopback,
      IpAddr.isLinkLocal, IpAddr.isMulticast, or_assoc]
  | v6 x =>
    cases hmapped : x.toIpv4Mapped with
    | none =>
      have hmaps : ¬ MapsMulticast (.v6 x) := by
        rintro ⟨_, _, ⟨⟩, hsome, -⟩
        cases hmapped.symm.trans hsome
      simp only [hmaps, Refused, isBlockedIp, IpAddr.unmapped, hmapped, IpAddr.isUnspecified,
        IpAddr.isLoopback, IpAddr.isLinkLocal, IpAddr.isMulticast, Ipv6Addr.isLinkLocal]
      simp
      tauto
    | some y =>
      have hmaps : MapsMulticast (.v6 x) ↔ y.isMulticast = true := by
        constructor
        · rintro ⟨_, _, ⟨⟩, hsome, hmulticast⟩
          obtain rfl := Option.some.inj (hmapped.symm.trans hsome)
          exact hmulticast
        · exact fun h => ⟨x, y, rfl, hmapped, h⟩
      rw [isBlockedIp_mapped hmapped, hmaps]
      simp only [Refused, IpAddr.unmapped, hmapped, Option.elim_some, IpAddr.isUnspecified,
        IpAddr.isLoopback, IpAddr.isLinkLocal, IpAddr.isMulticast]
      cases hmulticast : y.isMulticast with
      | true => simp [isBlocked_of_multicast hmulticast]
      | false => simp [or_assoc]

/-- The addresses that a claim is resolved to: a literal is its own answer. -/
def answers (lookupHost : Option (List SocketAddr)) (host : Str) (port : UInt16) :
    List SocketAddr :=
  if trim host = [] then []
  else (parseIpAddr (trim host)).elim (lookupHost.getD []) fun ip => [⟨ip, port⟩]

/-- A claim is resolved to the first of its answers, if none of them is blocked. -/
theorem resolveCamera_eq (lookupHost : Option (List SocketAddr)) (host : Str) (port : UInt16) :
    resolveCamera lookupHost host port =
      if (answers lookupHost host port).any fun a => isBlockedIp a.ip then none
      else (answers lookupHost host port).head? := by
  unfold resolveCamera answers
  dsimp only
  by_cases hhost : trim host = []
  · simp [hhost]
  rw [if_neg hhost, if_neg hhost]
  cases parseIpAddr (trim host) with
  | some ip => simp
  | none =>
    cases lookupHost with
    | none => rfl
    | some addrs =>
      simp only [Option.elim_none, Option.getD_some, validateResolved, List.all_eq_not_any_not,
        Bool.not_not]
      cases addrs with
      | nil => rfl
      | cons a addrs =>
        by_cases hany : ((a :: addrs).any fun a => isBlockedIp a.ip) = true
        · simp [hany]
        · simp [hany]

/-- **No refused address is let through** by the resolution of a claim, if and only if one of the
answers is to be refused and maps no multicast address, or none of them maps one. The answer that
is returned is the first one, and a mapped address is treated as the IPv4 address unless that is
multicast. -/
theorem resolveCamera_refuses_iff (lookupHost : Option (List SocketAddr)) (host : Str)
    (port : UInt16) :
    ((∀ addr, resolveCamera lookupHost host port = some addr →
        (answers lookupHost host port).head? = some addr ∧
          ∀ a ∈ answers lookupHost host port, ¬ Refused a.ip) ↔
      (∃ a ∈ answers lookupHost host port, Refused a.ip ∧ ¬ MapsMulticast a.ip) ∨
        ∀ a ∈ answers lookupHost host port, ¬ MapsMulticast a.ip) ∧
    ∀ (x : Ipv6Addr) (y : Ipv4Addr), x.toIpv4Mapped = some y →
      (isBlockedIp (.v6 x) = isBlockedIp (.v4 y) ↔ y.isMulticast = false) := by
  constructor
  · simp only [← isBlockedIp_iff]
    rw [resolveCamera_eq]
    generalize answers lookupHost host port = addrs
    by_cases hblocked : ∃ a ∈ addrs, isBlockedIp a.ip = true
    · rw [if_pos (List.any_eq_true.mpr hblocked)]
      exact iff_of_true (fun _ h => nomatch h) (.inl hblocked)
    rw [if_neg (mt List.any_eq_true.mp hblocked), or_iff_right hblocked]
    -- nothing is blocked, so that what is refused maps a multicast address
    have hiff : ∀ a ∈ addrs, ¬ Refused a.ip ↔ ¬ MapsMulticast a.ip := by
      intro a ha
      have hnot : ¬ (Refused a.ip ∧ ¬ MapsMulticast a.ip) := fun h =>
        hblocked ⟨a, ha, (isBlockedIp_iff a.ip).mpr h⟩
      exact ⟨mt MapsMulticast.refused, fun hmaps hrefused => hnot ⟨hrefused, hmaps⟩⟩
    constructor
    · intro h a ha
      obtain ⟨first, hfirst⟩ : ∃ first, addrs.head? = some first := by
        cases addrs with
        | nil => cases ha
        | cons b addrs => exact ⟨b, rfl⟩
      exact (hiff a ha).mp ((h first hfirst).2 a ha)
    · exact fun h addr haddr => ⟨haddr, fun a ha => (hiff a ha).mpr (h a ha)⟩
  · exact fun x y h => isBlockedIp_mapped_iff h

/-- The mapped form of a multicast address is let through. -/
theorem mapped_multicast_resolved :
    resolveCamera none "::ffff:224.0.0.1".toList 88 =
        some ⟨.v6 ⟨[0, 0, 0, 0, 0, 0xffff, 0xe000, 1], rfl⟩, 88⟩ ∧
      (IpAddr.v6 ⟨[0, 0, 0, 0, 0, 0xffff, 0xe000, 1], rfl⟩).unmapped = .v4 ⟨224, 0, 0, 1⟩ ∧
      ¬ ∀ addr, resolveCamera none "::ffff:224.0.0.1".toList 88 = some addr →
        (answers none "::ffff:224.0.0.1".toList 88).head? = some addr ∧
          ∀ a ∈ answers none "::ffff:224.0.0.1".toList 88, ¬ Refused a.ip := by
  have hresolve : resolveCamera none "::ffff:224.0.0.1".toList 88 =
      some ⟨.v6 ⟨[0, 0, 0, 0, 0, 0xffff, 0xe000, 1], rfl⟩, 88⟩ := by decide +kernel
  refine ⟨hresolve, by decide, fun h => ?_⟩
  obtain ⟨hhead, hnone⟩ := h _ hresolve
  exact hnone _ (List.mem_of_mem_head? hhead) (.inr (.inr (.inr (by decide))))

end Fosipcore
