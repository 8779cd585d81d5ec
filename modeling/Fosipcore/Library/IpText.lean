import Fosipcore.Library.IpAddr

/-!
# The text of an IP address

An IPv4 address is written as four numbers with dots. An IPv6 address is written as eight groups in
hexadecimal with colons, where the longest run of zero groups, the first one of several, is left
out, and as an IPv4 address behind `::ffff:` if it is one of those.

## Main definitions

* `Ipv4Addr.display`, `Ipv6Addr.display`, `IpAddr.display`: the text of an address

## Main results

* `parseIpAddr_v4_iff`: an IPv4 address has one text
* `colon_mem_of_parse_v6`: a text of an IPv6 address has a colon
* `colon_mem_display`, `isAddressChar_of_mem`: what is in the text that is written
-/

namespace Ip

open Text

/-! ## Printing -/

/-- `a.b.c.d` -/
def Ipv4Addr.display (x : Ipv4Addr) : Str :=
  numeral x.a.toNat ++ '.' :: (numeral x.b.toNat ++ '.' :: (numeral x.c.toNat ++
    '.' :: numeral x.d.toNat))

/-- A run of groups. -/
structure Span where
  start : ℕ
  len : ℕ
  deriving DecidableEq

/-- The longest run of zero groups, with the longest one so far and the one that may go on. -/
def zeroSpanLoop : ℕ → Span → Span → List UInt16 → Span
  | _, longest, _, [] => longest
  | i, longest, current, group :: groups =>
    if group = 0 then
      let current : Span := if current.len = 0 then ⟨i, 1⟩ else ⟨current.start, current.len + 1⟩
      zeroSpanLoop (i + 1) (if longest.len < current.len then current else longest) current groups
    else zeroSpanLoop (i + 1) longest ⟨0, 0⟩ groups

def zeroSpan (groups : List UInt16) : Span := zeroSpanLoop 0 ⟨0, 0⟩ ⟨0, 0⟩ groups

/-- A group in hexadecimal, without leading zeros. -/
def groupText (group : UInt16) : Str := Nat.toDigits 16 group.toNat

def groupsText (groups : List UInt16) : Str := [':'].intercalate (groups.map groupText)

def Ipv6Addr.display (x : Ipv6Addr) : Str :=
  match x.toIpv4Mapped with
  | some v4 => "::ffff:".toList ++ v4.display
  | none =>
    let zeros := zeroSpan x.segments
    -- one zero group alone is written
    if 1 < zeros.len then
      groupsText (x.segments.take zeros.start) ++ "::".toList ++
        groupsText (x.segments.drop (zeros.start + zeros.len))
    else groupsText x.segments

/-- **The text of an IP address**. -/
def IpAddr.display : IpAddr → Str
  | .v4 x => x.display
  | .v6 x => x.display

example : (Ipv6Addr.mk [0x2001, 0xdb8, 0, 0, 1, 0, 0, 1] rfl).display = "2001:db8::1:0:0:1".toList :=
  by decide

/-! ## The characters -/

/-- A digit in decimal or lower case hexadecimal, a dot or a colon. -/
def isAddressChar (c : Char) : Bool :=
  c.isDigit || (0x61 ≤ c.toNat && c.toNat ≤ 0x66) || c = '.' || c = ':'

theorem isAddressChar_of_isDigit {c : Char} (h : c.isDigit = true) : isAddressChar c = true := by
  simp only [isAddressChar, h, Bool.true_or]

theorem isAddressChar_of_mem_toDigits {n : ℕ} {c : Char} (h : c ∈ Nat.toDigits 16 n) :
    isAddressChar c = true := by
  have hdigit : ∀ d < 16, isAddressChar (Nat.digitChar d) = true := by decide
  induction n using Nat.strong_induction_on with
  | _ n ih =>
    rcases Nat.lt_or_ge n 16 with hlt | hle
    · rw [Nat.toDigits_of_lt_base hlt, List.mem_singleton] at h
      rw [h]
      exact hdigit n hlt
    · -- all digits but the last are those of the quotient
      have hpos : 0 < n / 16 := Nat.div_pos hle (by decide)
      have hlast : n % 16 < 16 := Nat.mod_lt n (by decide)
      rw [← Nat.div_add_mod n 16, ← Nat.toDigits_append_toDigits (by decide) hpos hlast,
        List.mem_append, Nat.toDigits_of_lt_base hlast, List.mem_singleton] at h
      rcases h with h | rfl
      · exact ih (n / 16) (Nat.div_lt_self (by omega) (by decide)) h
      · exact hdigit _ hlast

theorem isAddressChar_of_mem_groupsText {groups : List UInt16} {c : Char}
    (h : c ∈ groupsText groups) : isAddressChar c = true := by
  induction groups with
  | nil => cases h
  | cons group groups ih =>
    cases groups with
    | nil =>
      rw [groupsText, List.map_singleton, List.intercalate_singleton] at h
      exact isAddressChar_of_mem_toDigits h
    | cons group' groups =>
      rw [groupsText, List.map_cons, List.map_cons, List.intercalate_cons_cons, List.mem_append,
        List.mem_append, List.mem_singleton] at h
      rcases h with (h | rfl) | h
      · exact isAddressChar_of_mem_toDigits h
      · decide
      · exact ih h

theorem isAddressChar_of_mem_v4 {x : Ipv4Addr} {c : Char} (h : c ∈ x.display) :
    c.isDigit = true ∨ c = '.' := by
  simp only [Ipv4Addr.display, List.mem_append, List.mem_cons] at h
  rcases h with h | rfl | h | rfl | h | rfl | h <;>
    first
    | exact Or.inr rfl
    | exact Or.inl (isDigit_of_mem_numeral h)

/-- **Nothing else is in the text of an address.** -/
theorem isAddressChar_of_mem {ip : IpAddr} {c : Char} (h : c ∈ ip.display) :
    isAddressChar c = true := by
  have hv4 : ∀ {x : Ipv4Addr}, c ∈ x.display → isAddressChar c = true := by
    intro x hx
    rcases isAddressChar_of_mem_v4 hx with hdigit | rfl
    · exact isAddressChar_of_isDigit hdigit
    · decide
  cases ip with
  | v4 x => exact hv4 h
  | v6 x =>
    rw [IpAddr.display, Ipv6Addr.display] at h
    split at h
    · rcases List.mem_append.mp h with h | h
      · exact forall_of_all (P := fun c => isAddressChar c = true) (by decide) c h
      · exact hv4 h
    · dsimp only at h
      split_ifs at h
      · simp only [List.mem_append] at h
        rcases h with (h | h) | h
        · exact isAddressChar_of_mem_groupsText h
        · exact forall_of_all (P := fun c => isAddressChar c = true) (by decide) c h
        · exact isAddressChar_of_mem_groupsText h
      · exact isAddressChar_of_mem_groupsText h

/-- An IPv6 address is written with a colon. -/
theorem colon_mem_display (x : Ipv6Addr) : ':' ∈ x.display := by
  rw [Ipv6Addr.display]
  split
  · exact List.mem_append_left _ (by decide)
  · dsimp only
    split_ifs
    · exact List.mem_append_left _ (List.mem_append_right _ (by decide))
    · -- there are eight groups, with a colon behind the first one
      obtain ⟨_ | ⟨group, _ | ⟨group', groups⟩⟩, hlength⟩ := x
      · cases hlength
      · cases hlength
      · rw [groupsText, List.map_cons, List.map_cons, List.intercalate_cons_cons]
        exact List.mem_append_left _ (List.mem_append_right _ List.mem_cons_self)

/-! ## IPv4 addresses -/

theorem digitVal_ten (c : Char) :
    digitVal 10 c = if c.isDigit = true then some (c.toNat - '0'.toNat) else none := by
  unfold digitVal
  dsimp only
  by_cases hdigit : c.isDigit = true
  · rw [if_pos hdigit, if_pos hdigit, if_pos (digitChar_digit hdigit).1]
  · rw [if_neg hdigit, if_neg hdigit, if_neg]
    split_ifs <;> omega

theorem isSome_digitVal_ten (c : Char) : (digitVal 10 c).isSome = c.isDigit := by
  rw [digitVal_ten]
  split_ifs with h
  · exact h.symm
  · exact (Bool.eq_false_iff.mpr h).symm

/-- The number of decimal digits is the one that is read. -/
theorem foldl_digitVal {digits : Str} (h : ∀ c ∈ digits, c.isDigit = true) :
    digits.foldl (fun n c => n * 10 + (digitVal 10 c).getD 0) 0 = decimal digits := by
  rw [decimal]
  refine List.foldl_ext _ _ 0 fun n c hc => ?_
  rw [digitVal_ten, if_pos (h c hc), Option.getD_some]

/-- An octet of an IPv4 address. -/
def readOctet : Str → Option (ℕ × Str) := readNumber 10 3 255 false

theorem readOctet_def (s : Str) : readOctet s =
    let digits := s.takeWhile Char.isDigit
    if digits.length = 0 ∨ digits.length > 3 ∨ decimal digits > 255 then none
    else if digits.head? = some '0' ∧ digits.length > 1 then none
    else some (decimal digits, s.drop digits.length) := by
  have hdigits : (s.takeWhile fun c => (digitVal 10 c).isSome) = s.takeWhile Char.isDigit :=
    congrArg (List.takeWhile · s) (funext isSome_digitVal_ten)
  rw [readOctet, readNumber]
  dsimp only
  rw [hdigits, foldl_digitVal fun c hc => List.mem_takeWhile_imp hc]
  simp only [Bool.not_false, Bool.true_and, Bool.and_eq_true, beq_iff_eq, decide_eq_true_eq]

/-- **An octet is read from its numeral**, and from no other text. -/
theorem readOctet_eq {s rest : Str} {n : ℕ} (h : readOctet s = some (n, rest)) :
    s = numeral n ++ rest ∧ n ≤ 255 := by
  rw [readOctet_def] at h
  dsimp only at h
  split_ifs at h with hlong hzero
  obtain ⟨rfl, rfl⟩ := Prod.mk.inj (Option.some.inj h)
  rw [not_or, not_or] at hlong
  have hne : s.takeWhile Char.isDigit ≠ [] := fun hnil => hlong.1 (by rw [hnil]; rfl)
  have hnumeral : numeral (decimal (s.takeWhile Char.isDigit)) = s.takeWhile Char.isDigit := by
    refine numeral_decimal hne (fun c hc => List.mem_takeWhile_imp hc) fun hhead => ?_
    have hle : ¬ (s.takeWhile Char.isDigit).length > 1 := fun hgt => hzero ⟨hhead, hgt⟩
    omega
  rw [hnumeral]
  exact ⟨(List.prefix_iff_eq_append.mp (List.takeWhile_prefix _)).symm, by omega⟩

theorem readOctet_numeral {n : ℕ} (hn : n ≤ 255) {rest : Str}
    (hrest : ∀ c ∈ rest.head?, c.isDigit = false) :
    readOctet (numeral n ++ rest) = some (n, rest) := by
  have hshort : ∀ n < 256, (numeral n).length ≤ 3 ∧
      ¬ ((numeral n).head? = some '0' ∧ (numeral n).length > 1) := by
    decide +kernel
  obtain ⟨hlength, hzero⟩ := hshort n (Nat.lt_succ_of_le hn)
  have hpos : (numeral n).length ≠ 0 := fun h => Nat.toDigits_ne_nil (List.eq_nil_of_length_eq_zero h)
  have htake : (numeral n ++ rest).takeWhile Char.isDigit = numeral n := by
    rw [List.takeWhile_append_of_pos fun _ => isDigit_of_mem_numeral]
    cases rest with
    | nil => exact List.append_nil _
    | cons c rest =>
      rw [List.takeWhile_cons_of_neg (by rw [hrest c rfl]; decide), List.append_nil]
  rw [readOctet_def]
  dsimp only
  rw [htake, decimal_numeral, if_neg (by omega), if_neg hzero, List.drop_left]

/-- An octet behind a dot. -/
theorem readSeparator_eq {s rest : Str} {n i : ℕ} (hi : i ≠ 0)
    (h : readSeparator '.' i readOctet s = some (n, rest)) :
    s = '.' :: (numeral n ++ rest) ∧ n ≤ 255 := by
  rw [readSeparator, if_neg hi] at h
  obtain ⟨⟨_, s'⟩, hdot, hoctet⟩ := Option.bind_eq_some_iff.mp h
  cases s with
  | nil => cases hdot
  | cons c s =>
    rw [readGivenChar] at hdot
    split_ifs at hdot with hc
    obtain ⟨-, rfl⟩ := Prod.mk.inj (Option.some.inj hdot)
    obtain ⟨rfl, hn⟩ := readOctet_eq hoctet
    exact ⟨by rw [hc], hn⟩

theorem readSeparator_numeral {n i : ℕ} (hi : i ≠ 0) (hn : n ≤ 255) {rest : Str}
    (hrest : ∀ c ∈ rest.head?, c.isDigit = false) :
    readSeparator '.' i readOctet ('.' :: (numeral n ++ rest)) = some (n, rest) := by
  rw [readSeparator, if_neg hi, readGivenChar, if_pos rfl]
  exact readOctet_numeral hn hrest

theorem toNat_ofNat_octet {n : ℕ} (h : n ≤ 255) : (UInt8.ofNat n).toNat = n :=
  UInt8.toNat_ofNat_of_lt' (Nat.lt_succ_of_le h)

theorem readIpv4Addr_eq {s rest : Str} {x : Ipv4Addr} (h : readIpv4Addr s = some (x, rest)) :
    s = x.display ++ rest := by
  rw [readIpv4Addr] at h
  simp only [Option.bind_eq_bind, Option.bind_eq_some_iff, Prod.exists] at h
  obtain ⟨a, sa, ha, b, sb, hb, c, sc, hc, d, sd, hd, hx⟩ := h
  obtain ⟨rfl, rfl⟩ := Prod.mk.inj (Option.some.inj hx)
  obtain ⟨rfl, hale⟩ := readOctet_eq ha
  obtain ⟨rfl, hble⟩ := readSeparator_eq (by decide) hb
  obtain ⟨rfl, hcle⟩ := readSeparator_eq (by decide) hc
  obtain ⟨rfl, hdle⟩ := readSeparator_eq (by decide) hd
  simp only [Ipv4Addr.display, toNat_ofNat_octet hale, toNat_ofNat_octet hble,
    toNat_ofNat_octet hcle, toNat_ofNat_octet hdle, List.append_assoc, List.cons_append]

theorem readIpv4Addr_display (x : Ipv4Addr) : readIpv4Addr x.display = some (x, []) := by
  have hle : ∀ b : UInt8, b.toNat ≤ 255 := fun b => Nat.le_of_lt_succ b.toNat_lt
  have hdot : ∀ s : Str, ∀ c ∈ ('.' :: s).head?, c.isDigit = false := by
    rintro s _ ⟨⟩
    decide
  have ha := readOctet_numeral (hle x.a) (hdot (numeral x.b.toNat ++
    '.' :: (numeral x.c.toNat ++ '.' :: numeral x.d.toNat)))
  have hb := readSeparator_numeral (i := 1) (by decide) (hle x.b)
    (hdot (numeral x.c.toNat ++ '.' :: numeral x.d.toNat))
  have hc := readSeparator_numeral (i := 2) (by decide) (hle x.c) (hdot (numeral x.d.toNat))
  have hend : ∀ c ∈ ([] : Str).head?, c.isDigit = false := by simp
  have hd := readSeparator_numeral (i := 3) (by decide) (hle x.d) hend
  rw [List.append_nil] at hd
  unfold readOctet at ha hb hc hd
  rw [readIpv4Addr]
  simp only [Ipv4Addr.display, ha, hb, hc, hd, Option.bind_eq_bind, Option.bind_some,
    UInt8.ofNat_toNat]

/-- **An IPv4 address has one text.** -/
theorem parseIpAddr_v4_iff {s : Str} {x : Ipv4Addr} :
    parseIpAddr s = some (.v4 x) ↔ s = x.display := by
  constructor
  · intro h
    unfold parseIpAddr at h
    cases hv4 : readIpv4Addr s with
    | some found =>
      obtain ⟨y, rest⟩ := found
      rw [hv4] at h
      cases rest with
      | nil =>
        cases h
        rw [readIpv4Addr_eq hv4, List.append_nil]
      | cons c rest => cases h
    | none =>
      rw [hv4] at h
      cases hv6 : readIpv6Addr s with
      | none =>
        rw [hv6] at h
        cases h
      | some found =>
        obtain ⟨y, _ | ⟨c, rest⟩⟩ := found <;> rw [hv6] at h <;> cases h
  · rintro rfl
    rw [parseIpAddr, readIpv4Addr_display]

/-! ## IPv6 addresses -/

theorem readGivenChar_none {c : Char} {s : Str} (h : c ∉ s) : readGivenChar c s = none := by
  cases s with
  | nil => rfl
  | cons d s =>
    rw [List.mem_cons, not_or] at h
    rw [readGivenChar, if_neg h.1]

theorem readSeparator_none {α : Type} {i : ℕ} (hi : i ≠ 0) (inner : Str → Option (α × Str))
    {s : Str} (h : ':' ∉ s) : readSeparator ':' i inner s = none := by
  rw [readSeparator, if_neg hi]
  rw [readGivenChar_none h]
  rfl

theorem mem_of_readNumber {radix maxDigits max n : ℕ} {allowZeroPrefix : Bool} {s rest : Str}
    (h : readNumber radix maxDigits max allowZeroPrefix s = some (n, rest)) {c : Char}
    (hc : c ∈ rest) : c ∈ s := by
  unfold readNumber at h
  dsimp only at h
  split_ifs at h
  obtain ⟨-, rfl⟩ := Prod.mk.inj (Option.some.inj h)
  exact List.mem_of_mem_drop hc

/-- Without a colon, one group is read at most, or an IPv4 address. -/
theorem readGroups_short {s : Str} (h : ':' ∉ s) :
    ∃ head isIpv4 rest, readGroups 8 8 0 s = (head, isIpv4, rest) ∧ head.length < 8 ∧
      (isIpv4 = false → ':' ∉ rest) := by
  rw [readGroups, if_pos (by decide)]
  cases hv4 : readSeparator ':' 0 readIpv4Addr s with
  | some found => exact ⟨_, true, _, rfl, by simp, nofun⟩
  | none =>
    dsimp only
    cases hgroup : readSeparator ':' 0 (readNumber 16 4 0xffff true) s with
    | none => exact ⟨[], false, s, rfl, by decide, fun _ => h⟩
    | some found =>
      obtain ⟨group, rest⟩ := found
      have hrest : ':' ∉ rest := fun hc => h (mem_of_readNumber hgroup hc)
      -- there is no separator in front of a second group
      dsimp only
      rw [readGroups, if_pos (by decide), readSeparator_none (by decide) _ hrest]
      dsimp only
      rw [readSeparator_none (by decide) _ hrest]
      exact ⟨_, false, rest, rfl, by simp, fun _ => hrest⟩

theorem readIpv6Addr_eq_none {s : Str} (h : ':' ∉ s) : readIpv6Addr s = none := by
  obtain ⟨head, isIpv4, rest, hgroups, hlength, hrest⟩ := readGroups_short h
  rw [readIpv6Addr, hgroups]
  dsimp only
  rw [dif_neg hlength.ne]
  cases isIpv4 with
  | true => rfl
  | false =>
    rw [if_neg (by decide), readGivenChar_none (hrest rfl)]
    rfl

/-- **A text of an IPv6 address has a colon.** -/
theorem colon_mem_of_parse_v6 {s : Str} {x : Ipv6Addr} (h : parseIpAddr s = some (.v6 x)) :
    ':' ∈ s := by
  by_contra hnot
  unfold parseIpAddr at h
  cases hv4 : readIpv4Addr s with
  | some found =>
    obtain ⟨y, _ | ⟨c, rest⟩⟩ := found <;> rw [hv4] at h <;> cases h
  | none =>
    rw [hv4, readIpv6Addr_eq_none hnot] at h
    cases h

end Ip
