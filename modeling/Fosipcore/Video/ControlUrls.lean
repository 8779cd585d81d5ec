import Fosipcore.Library.Authority
import Fosipcore.Video.Handshake

/-!
# Control addresses

The SDP gives the address of a track relative to that of the session, or as an absolute address,
which has to be one at the camera. The client compares the text behind the scheme with the text of
the address it has dialed, and the number behind the last colon with the port. This agrees with what
the authority denotes for a camera with an IPv4 address, except in some spellings, and never for a
camera with an IPv6 address, whose text has no brackets.

## Main definitions

* `dialed`: the camera at an IP address
* `Resolves`: what a control is to be resolved to
* `Misread`: the kinds of addresses where the comparison and the authority disagree

## Main results

* `resolveControlUrl_iff`: when a control is resolved as it should be
-/

namespace Fosipcore

namespace RtspClient

open Text Ip Uri

/-! ## Resolving -/

/-- The camera as it is dialed, at the text of its address. -/
def dialed (ip : IpAddr) (port : UInt16) (path user pwd : Str) : Target :=
  ⟨ip.display, port, path, user, pwd⟩

def scheme : Str := "rtsp://".toList

/-- The authority of an absolute address. -/
def urlAuthority (url : Str) : Option Str := (stripPrefix scheme url).map authority

/-- What the client resolves a control to. -/
def resolved (target : Target) (control : Str) : Except Failure Str :=
  resolveControlUrl (rtspUrl target) control target.host target.port

/-- **What a control is to be resolved to**, for a camera at an IP address. White space around the
control does not count. -/
structure Resolves (target : Target) (ip : IpAddr) (control : Str) : Prop where
  base : trim control = [] ∨ trim control = ['*'] → resolved target control = .ok (rtspUrl target)
  accepted : ∀ rest, trim control = scheme ++ rest →
    Denotes 554 (authority rest) ip target.port.toNat →
      resolved target control = .ok (trim control)
  refused : ∀ rest, trim control = scheme ++ rest →
    ¬ Denotes 554 (authority rest) ip target.port.toNat →
      resolved target control = .error .failed
  relative : trim control ≠ [] → trim control ≠ ['*'] → (∀ rest, trim control ≠ scheme ++ rest) →
    ∃ url, resolved target control = .ok url ∧
      (url = rtspUrl target ++ trim control ∨ url = rtspUrl target ++ '/' :: trim control) ∧
      urlAuthority url = urlAuthority (rtspUrl target)

/-- The text that the client compares. -/
def upToSlash (rest : Str) : Str := rest.takeWhile (· ≠ '/')

/-- **The addresses that are misread.** The first four kinds denote the camera and are refused, the
last three do not and are accepted. -/
inductive Misread : IpAddr → UInt16 → Str → Prop
  /-- The camera has an IPv6 address, which stands in brackets. -/
  | bracketed {x : Ipv6Addr} {port : UInt16} {rest : Str} :
      Denotes 554 (authority rest) (.v6 x) port.toNat → Misread (.v6 x) port rest
  /-- There is user information in front of the host. -/
  | userInfo {x : Ipv4Addr} {port : UInt16} {rest info portText : Str} :
      isUserInfo info = true → IsPort 554 portText port.toNat →
      authority rest = info ++ '@' :: (x.display ++ portText) → Misread (.v4 x) port rest
  /-- A query or a fragment follows the authority. If it has no colon, then the text behind the port
  is no number, which is taken for port 0. -/
  | queried {x : Ipv4Addr} {port : UInt16} {rest portText more : Str} :
      IsPort 554 portText port.toNat → authority rest = x.display ++ portText →
      upToSlash rest = x.display ++ portText ++ more → more ≠ [] →
      ¬ (port = 0 ∧ ':' ∉ more) → Misread (.v4 x) port rest
  /-- There are no digits behind the colon. -/
  | emptyPort {x : Ipv4Addr} {rest : Str} :
      upToSlash rest = x.display ++ [':'] → Misread (.v4 x) 554 rest
  /-- An IPv6 address has no brackets. -/
  | unbracketed {x : Ipv6Addr} {port : UInt16} {rest host portText : Str} :
      upToSlash rest = host ++ ':' :: portText → ':' ∉ portText →
      asciiLower host = x.display → (parseUnsigned 65535 portText).getD 0 = port.toNat →
      Misread (.v6 x) port rest
  /-- There is a plus sign in front of the port. -/
  | signed {x : Ipv4Addr} {port : UInt16} {rest digits : Str} :
      upToSlash rest = x.display ++ ':' :: '+' :: digits →
      parseUnsigned 65535 ('+' :: digits) = some port.toNat → Misread (.v4 x) port rest
  /-- The port is no number, and the camera was dialed at port 0. -/
  | noNumber {x : Ipv4Addr} {rest portText : Str} :
      upToSlash rest = x.display ++ ':' :: portText → ':' ∉ portText →
      parseUnsigned 65535 portText = none →
      (∀ portText, authority rest = x.display ++ portText → ¬ IsPort 554 portText 0) →
      Misread (.v4 x) 0 rest

/-- The host and the port that the client compares. -/
def compared (authority : Str) : Str × ℕ :=
  match rsplitOnce ':' authority with
  | some (host, port) => (asciiLower host, (parseUnsigned 65535 port).getD 0)
  | none => (asciiLower authority, 554)

/-- The comparison of the client. -/
def Accepted (ip : IpAddr) (port : UInt16) (authority : Str) : Prop :=
  compared authority = (ip.display, port.toNat)

/-! ## The text of the dialed address -/

theorem isAddressChar_facts {c : Char} (h : isAddressChar c = true) :
    isWhitespace c = false ∧ c.toLower = c ∧ endsAuthority c = false ∧ c ≠ '[' ∧ c ≠ '@' := by
  have hlt : c.toNat < 128 := by
    simp only [isAddressChar, Char.isDigit, Bool.or_eq_true, Bool.and_eq_true,
      decide_eq_true_eq] at h
    rcases h with ((h | h) | rfl) | rfl
    · have hhigh : c.toNat ≤ 57 := h.2
      omega
    · omega
    · decide
    · decide
  have hascii : ∀ n < 128, isAddressChar (Char.ofNat n) = true →
      isWhitespace (Char.ofNat n) = false ∧ (Char.ofNat n).toLower = Char.ofNat n ∧
        endsAuthority (Char.ofNat n) = false ∧ Char.ofNat n ≠ '[' ∧ Char.ofNat n ≠ '@' := by
    decide +kernel
  have hfacts := hascii c.toNat hlt
  rw [Char.ofNat_toNat] at hfacts
  exact hfacts h

theorem asciiLower_display (ip : IpAddr) : asciiLower ip.display = ip.display :=
  (List.map_congr_left fun _ hc => (isAddressChar_facts (isAddressChar_of_mem hc)).2.1).trans
    (List.map_id _)

theorem trim_display (ip : IpAddr) : trim ip.display = ip.display :=
  trim_eq_self fun _ hc => (isAddressChar_facts (isAddressChar_of_mem hc)).1

theorem endsAuthority_of_isDigit {c : Char} (h : c.isDigit = true) : endsAuthority c = false :=
  (isAddressChar_facts (isAddressChar_of_isDigit h)).2.2.1

theorem endsAuthority_of_mem (ip : IpAddr) {c : Char} (h : c ∈ ip.display) :
    endsAuthority c = false :=
  (isAddressChar_facts (isAddressChar_of_mem h)).2.2.1

theorem endsAuthority_of_mem_v4 {x : Ipv4Addr} {c : Char} (h : c ∈ x.display) :
    endsAuthority c = false :=
  endsAuthority_of_mem (.v4 x) h

/-- An IPv4 address has no capital letters to be lowered. -/
theorem asciiLower_eq_v4_iff {host : Str} {x : Ipv4Addr} :
    asciiLower host = x.display ↔ host = x.display := by
  constructor
  · intro h
    have hsame : ∀ c ∈ host, c.toLower = c := by
      intro c hc
      by_contra hne
      -- the lower case of a capital letter is in no IPv4 address
      have hupper : c.val ≥ 'A'.val ∧ c.val ≤ 'Z'.val := by
        by_contra hnot
        exact hne (toLower_of_not_upper hnot)
      obtain ⟨hlow, -, hshift⟩ := toLower_toNat hupper
      have hmem : c.toLower ∈ x.display := h ▸ List.mem_map_of_mem hc
      rcases isAddressChar_of_mem_v4 hmem with hdigit | hdot
      · simp only [Char.isDigit, Bool.and_eq_true, decide_eq_true_eq] at hdigit
        have hhigh : c.toLower.val.toNat ≤ 57 := hdigit.2
        omega
      · have hval : c.toLower.val.toNat = 46 := congrArg (·.val.toNat) hdot
        omega
    rw [← h, asciiLower, List.map_congr_left hsame, List.map_id']
  · rintro rfl
    exact asciiLower_display (.v4 x)

theorem not_mem_v4 {x : Ipv4Addr} {c : Char} (hdigit : c.isDigit = false) (hdot : c ≠ '.') :
    c ∉ x.display := by
  intro hmem
  rcases isAddressChar_of_mem_v4 hmem with h | h
  · rw [hdigit] at h
    cases h
  · exact hdot h

/-! ## The comparison -/

theorem stripPrefix_append (pre s : Str) : stripPrefix pre (pre ++ s) = some s := by
  simp [stripPrefix]

theorem eq_of_stripPrefix {pre s rest : Str} (h : stripPrefix pre s = some rest) :
    s = pre ++ rest := by
  rw [stripPrefix] at h
  split_ifs at h with hprefix
  obtain rfl := Option.some.inj h
  exact (List.prefix_iff_eq_append.mp (List.isPrefixOf_iff_prefix.mp hprefix)).symm

variable {ip : IpAddr} {port : UInt16} {path user pwd control rest : Str}

/-- **An absolute address is compared**, and nothing else. -/
theorem resolved_absolute (h : trim control = scheme ++ rest) :
    resolved (dialed ip port path user pwd) control =
      if compared (upToSlash rest) = (ip.display, port.toNat) then .ok (trim control)
      else .error .failed := by
  have hcontrol : ¬ (trim control = [] ∨ trim control = ['*']) := by
    rw [h]
    rintro (h | h) <;> cases h
  have hstrip : stripPrefix "rtsp://".toList (trim control) = some rest := by
    rw [h]
    exact stripPrefix_append scheme rest
  have hhost : asciiLower (trim (dialed ip port path user pwd).host) = ip.display := by
    rw [dialed, trim_display, asciiLower_display]
  have hresolved : resolved (dialed ip port path user pwd) control =
      if (compared (upToSlash rest)).1 ≠ asciiLower (trim (dialed ip port path user pwd).host) ∨
          (compared (upToSlash rest)).2 ≠ port.toNat then .error .failed
      else .ok (trim control) := by
    rw [resolved, resolveControlUrl]
    dsimp only
    rw [if_neg hcontrol, hstrip]
    rfl
  rw [hresolved, hhost]
  by_cases hsame : compared (upToSlash rest) = (ip.display, port.toNat)
  · rw [if_neg (by simp [hsame]), if_pos hsame]
  · have hdiffer := fun heq : _ ∧ _ => hsame (Prod.ext heq.1 heq.2)
    rw [if_pos (not_and_or.mp hdiffer), if_neg hsame]

theorem resolved_of_accepted (h : trim control = scheme ++ rest)
    (haccepted : Accepted ip port (upToSlash rest)) :
    resolved (dialed ip port path user pwd) control = .ok (trim control) :=
  (resolved_absolute h).trans (if_pos haccepted)

theorem resolved_of_not_accepted (h : trim control = scheme ++ rest)
    (hnot : ¬ Accepted ip port (upToSlash rest)) :
    resolved (dialed ip port path user pwd) control = .error .failed :=
  (resolved_absolute h).trans (if_neg hnot)

theorem accepted_withPort_iff {host portText : Str} (h : ':' ∉ portText) :
    Accepted ip port (host ++ ':' :: portText) ↔
      asciiLower host = ip.display ∧ (parseUnsigned 65535 portText).getD 0 = port.toNat := by
  rw [Accepted, compared, rsplitOnce_char _ h, Prod.mk.injEq]

theorem accepted_withoutPort_iff {host : Str} (h : ':' ∉ host) :
    Accepted ip port host ↔ asciiLower host = ip.display ∧ 554 = port.toNat := by
  rw [Accepted, compared, rsplitOnce_char_none h, Prod.mk.injEq]

/-- What is accepted has the text of the address in front of the last colon, or is this. -/
theorem Accepted.cases {text : Str} (h : Accepted ip port text) :
    (∃ host portText, text = host ++ ':' :: portText ∧ ':' ∉ portText ∧
      asciiLower host = ip.display ∧ (parseUnsigned 65535 portText).getD 0 = port.toNat) ∨
      (':' ∉ text ∧ asciiLower text = ip.display ∧ 554 = port.toNat) := by
  by_cases hcolon : ':' ∈ text
  · obtain ⟨host, portText, rfl, hlast⟩ := exists_last_of_mem hcolon
    exact Or.inl ⟨host, portText, rfl, hlast, (accepted_withPort_iff hlast).mp h⟩
  · exact Or.inr ⟨hcolon, (accepted_withoutPort_iff hcolon).mp h⟩

/-! ## Up to the slash -/

/-- The authority is what stands in front of a query or a fragment. -/
theorem upToSlash_eq (rest : Str) :
    ∃ more, upToSlash rest = authority rest ++ more ∧
      (more = [] ∨ ∃ c tail, more = c :: tail ∧ (c = '?' ∨ c = '#')) := by
  have hauthority : authority rest = (upToSlash rest).takeWhile (!endsAuthority ·) := by
    rw [upToSlash, List.takeWhile_takeWhile, authority]
    refine congrArg (List.takeWhile · rest) (funext fun c => ?_)
    by_cases hc : c = '/' <;> simp [endsAuthority, hc]
  refine ⟨(upToSlash rest).dropWhile (!endsAuthority ·), ?_, ?_⟩
  · rw [hauthority, List.takeWhile_append_dropWhile]
  · cases hmore : (upToSlash rest).dropWhile (!endsAuthority ·) with
    | nil => exact Or.inl rfl
    | cons c tail =>
      refine Or.inr ⟨c, tail, rfl, ?_⟩
      have hend : endsAuthority c = true := by
        have hhead := List.head?_dropWhile_not (!endsAuthority ·) (upToSlash rest)
        rw [hmore] at hhead
        simpa using hhead
      have hslash : c ≠ '/' := by
        have hmem : c ∈ upToSlash rest :=
          (List.dropWhile_suffix _).subset (hmore ▸ List.mem_cons_self)
        simpa using List.mem_takeWhile_imp hmem
      simpa [endsAuthority, hslash] using hend

/-- Without one, they are the same. -/
theorem authority_of_upToSlash {text : Str} (h : upToSlash rest = text)
    (htext : ∀ c ∈ text, endsAuthority c = false) : authority rest = text := by
  obtain ⟨more, heq, rfl | ⟨c, tail, rfl, hc⟩⟩ := upToSlash_eq rest
  · rw [← h, heq, List.append_nil]
  · -- the query would be a part of the text
    have hend := htext c (by
      rw [← h, heq]
      exact List.mem_append_right _ List.mem_cons_self)
    rcases hc with rfl | rfl <;> cases hend

/-! ## Where they disagree -/

/-- Nothing but the text of an address stands in front of a colon that is accepted. -/
theorem Accepted.not_before {text a b e : Str} {d : Char} (h : Accepted ip port text)
    (hd : isAddressChar d = false) (hlow : d.toLower = d) : text ≠ a ++ d :: (b ++ ':' :: e) := by
  intro heq
  rcases h.cases with ⟨host, portText, rfl, hlast, hhost, -⟩ | ⟨hcolon, -, -⟩
  · have hsplit : host ++ ':' :: portText = (a ++ d :: b) ++ ':' :: e := by simpa using heq
    have hmem : d ∈ host := (prefix_of_last hsplit hlast).subset (by simp)
    have haddress : d ∈ ip.display := by
      rw [← hhost, ← hlow]
      exact List.mem_map_of_mem hmem
    rw [isAddressChar_of_mem haddress] at hd
    cases hd
  · exact hcolon (by simp [heq])

/-- **An IPv6 address is never accepted** as it should be written. -/
theorem not_accepted_of_denotes_v6 {x : Ipv6Addr}
    (h : Denotes 554 (authority rest) (.v6 x) port.toNat) :
    ¬ Accepted (.v6 x) port (upToSlash rest) := by
  obtain ⟨a, b, e, hauthority⟩ := h.bracket
  obtain ⟨more, heq, -⟩ := upToSlash_eq rest
  intro haccepted
  refine haccepted.not_before (a := a) (b := b) (e := e ++ more) (d := '[') (by decide)
    (by decide) ?_
  rw [heq, hauthority]
  simp

theorem misread_of_accepted_v6 {x : Ipv6Addr} (h : Accepted (.v6 x) port (upToSlash rest)) :
    Misread (.v6 x) port rest := by
  rcases h.cases with ⟨host, portText, heq, hlast, hhost, hport⟩ | ⟨hcolon, hhost, -⟩
  · exact .unbracketed heq hlast hhost hport
  · -- the text of the address has a colon
    have hmem : ':' ∈ asciiLower (upToSlash rest) := hhost ▸ colon_mem_display x
    obtain ⟨c, hc, hlow⟩ := List.mem_map.mp hmem
    obtain rfl : c = ':' := by
      by_cases hupper : c.val ≥ 'A'.val ∧ c.val ≤ 'Z'.val
      · obtain ⟨hle, -, hshift⟩ := toLower_toNat hupper
        have hval : c.toLower.val.toNat = 58 := congrArg (·.val.toNat) hlow
        omega
      · rwa [toLower_of_not_upper hupper] at hlow
    exact absurd hc hcolon

section

variable {x : Ipv4Addr} {portText : Str}

theorem isPort_cases (h : IsPort 554 portText port.toNat) :
    (portText = [] ∧ port = 554) ∨ (portText = [':'] ∧ port = 554) ∨
      ∃ digits, portText = ':' :: digits ∧ digits ≠ [] ∧ digits.all Char.isDigit = true ∧
        decimal digits = port.toNat := by
  have hdefault : ∀ {n : ℕ}, n = 554 → port.toNat = n → port = 554 := by
    rintro n rfl hn
    exact UInt16.toNat_inj.mp hn
  generalize hn : port.toNat = n at h
  cases h with
  | absent => exact Or.inl ⟨rfl, hdefault rfl hn⟩
  | empty => exact Or.inr (Or.inl ⟨rfl, hdefault rfl hn⟩)
  | digits hne hdigits => exact Or.inr (Or.inr ⟨_, rfl, hne, hdigits, rfl⟩)

/-- An IPv4 address that is accepted is the whole text, or what is in front of the colon. -/
theorem Accepted.v4_cases {text : Str} (h : Accepted (.v4 x) port text) :
    (∃ portText, text = x.display ++ ':' :: portText ∧ ':' ∉ portText ∧
      (parseUnsigned 65535 portText).getD 0 = port.toNat) ∨
      (text = x.display ∧ port = 554) := by
  rcases h.cases with ⟨host, portText, rfl, hlast, hhost, hport⟩ | ⟨-, hhost, hport⟩
  · rw [asciiLower_eq_v4_iff.mp hhost]
    exact Or.inl ⟨portText, rfl, hlast, hport⟩
  · exact Or.inr ⟨asciiLower_eq_v4_iff.mp hhost, UInt16.toNat_inj.mp hport.symm⟩

theorem accepted_v4 (hlast : ':' ∉ portText)
    (hport : (parseUnsigned 65535 portText).getD 0 = port.toNat) :
    Accepted (.v4 x) port (x.display ++ ':' :: portText) :=
  (accepted_withPort_iff hlast).mpr ⟨asciiLower_display (.v4 x), hport⟩

/-- A text without digits is taken for port 0. -/
theorem getD_parseUnsigned {c : Char} {text : Str} (hc : c ∈ text) (hdigit : c.isDigit = false)
    (hplus : c ≠ '+') : (parseUnsigned 65535 text).getD 0 = 0 := by
  rw [parseUnsigned_eq_none hc hdigit hplus, Option.getD_none]

/-- **User information** is taken for a part of the host or of the port. -/
theorem not_accepted_of_userInfo {info : Str} (hport : IsPort 554 portText port.toNat)
    (h : authority rest = info ++ '@' :: (x.display ++ portText)) :
    ¬ Accepted (.v4 x) port (upToSlash rest) := by
  intro haccepted
  obtain ⟨more, heq, -⟩ := upToSlash_eq rest
  have hbefore : ∀ e, portText ++ more ≠ ':' :: e := by
    intro e he
    refine haccepted.not_before (a := info) (b := x.display) (e := e) (d := '@') (by decide)
      (by decide) ?_
    rw [heq, h, ← he]
    simp
  have hat : '@' ∉ x.display := not_mem_v4 (by decide) (by decide)
  have hmem : '@' ∈ upToSlash rest := by
    rw [heq, h]
    simp
  rcases isPort_cases hport with ⟨-, hdefault⟩ | ⟨rfl, -⟩ | ⟨digits, rfl, -⟩
  · rcases haccepted.v4_cases with ⟨portText', htext, -, hparse⟩ | ⟨htext, -⟩
    · -- the user information is in front of no colon, so that it is in the port
      have hport' : '@' ∈ portText' := by
        rw [htext] at hmem
        simpa [hat] using hmem
      rw [getD_parseUnsigned hport' (by decide) (by decide), hdefault] at hparse
      cases hparse
    · exact hat (htext ▸ hmem)
  · exact hbefore _ rfl
  · exact hbefore _ rfl

/-- **A query** is taken for a part of the host or of the port. -/
theorem accepted_queried_iff {more : Str} {c : Char} (hport : IsPort 554 portText port.toNat)
    (hc : c = '?' ∨ c = '#') :
    Accepted (.v4 x) port (x.display ++ portText ++ c :: more) ↔ port = 0 ∧ ':' ∉ c :: more := by
  have hnotDigit : c.isDigit = false := by rcases hc with rfl | rfl <;> decide
  have hnotPlus : c ≠ '+' := by rcases hc with rfl | rfl <;> decide
  have hnotColon : c ≠ ':' := by rcases hc with rfl | rfl <;> decide
  constructor
  · intro haccepted
    rcases haccepted.v4_cases with ⟨portText', htext, hlast, hparse⟩ | ⟨htext, -⟩
    · rw [List.append_assoc] at htext
      have hbehind := List.append_cancel_left htext
      -- the colon is that of the port, so that the query is behind it
      obtain ⟨digits, rfl⟩ : ∃ digits, portText = ':' :: digits := by
        cases portText with
        | nil => exact absurd (List.cons.inj hbehind).1 hnotColon
        | cons d digits => exact ⟨digits, by rw [(List.cons.inj hbehind).1]⟩
      obtain rfl : digits ++ c :: more = portText' := (List.cons.inj hbehind).2
      rw [getD_parseUnsigned (List.mem_append_right _ List.mem_cons_self) hnotDigit
        hnotPlus] at hparse
      exact ⟨UInt16.toNat_inj.mp hparse.symm, fun hmem => hlast (List.mem_append_right _ hmem)⟩
    · have hlength := congrArg List.length htext
      simp only [List.length_append, List.length_cons] at hlength
      omega
  · rintro ⟨rfl, hmore⟩
    rcases isPort_cases hport with ⟨-, hdefault⟩ | ⟨-, hdefault⟩ | ⟨digits, rfl, -, hdigits, -⟩
    · exact absurd hdefault (by decide)
    · exact absurd hdefault (by decide)
    · have hlast : ':' ∉ digits ++ c :: more := by
        rw [List.mem_append, not_or]
        exact ⟨fun hmem => absurd (List.all_eq_true.mp hdigits _ hmem) (by decide), hmore⟩
      rw [List.append_assoc, List.cons_append]
      refine accepted_v4 hlast ?_
      rw [getD_parseUnsigned (List.mem_append_right _ List.mem_cons_self) hnotDigit hnotPlus]
      rfl

theorem misread_of_denotes_v4 (h : Denotes 554 (authority rest) (.v4 x) port.toNat)
    (hnot : ¬ Accepted (.v4 x) port (upToSlash rest)) : Misread (.v4 x) port rest := by
  obtain ⟨portText, hport, hbare | ⟨info, hinfo, huser⟩⟩ := h.v4_cases
  · obtain ⟨more, heq, rfl | ⟨c, tail, rfl, hc⟩⟩ := upToSlash_eq rest
    · rw [hbare, List.append_nil] at heq
      rcases isPort_cases hport with ⟨rfl, rfl⟩ | ⟨rfl, rfl⟩ | ⟨digits, rfl, hne, hdigits, hvalue⟩
      · rw [heq, List.append_nil] at hnot
        have hcolon : ':' ∉ x.display := not_mem_v4 (by decide) (by decide)
        exact absurd ((accepted_withoutPort_iff hcolon).mpr ⟨asciiLower_display (.v4 x), rfl⟩) hnot
      · exact .emptyPort heq
      · have hlast : ':' ∉ digits :=
          fun hmem => absurd (List.all_eq_true.mp hdigits _ hmem) (by decide)
        have hle : decimal digits ≤ 65535 := hvalue ▸ Nat.le_of_lt_succ port.toNat_lt
        rw [heq] at hnot
        refine absurd (accepted_v4 hlast ?_) hnot
        rw [parseUnsigned_digits hne hdigits hle, Option.getD_some, hvalue]
    · rw [hbare] at heq
      refine .queried hport hbare heq (List.cons_ne_nil c tail) fun hzero => hnot ?_
      rw [heq]
      exact (accepted_queried_iff hport hc).mpr hzero
  · exact .userInfo hinfo hport huser

/-- An address and its port are the whole authority. -/
theorem authority_of_port {portText : Str} (h : upToSlash rest = x.display ++ ':' :: portText)
    (hport : ∀ c ∈ portText, endsAuthority c = false) :
    authority rest = x.display ++ ':' :: portText := by
  apply authority_of_upToSlash h
  intro c hc
  rw [List.mem_append, List.mem_cons] at hc
  rcases hc with hc | rfl | hc
  · exact endsAuthority_of_mem_v4 hc
  · rfl
  · exact hport c hc

theorem misread_of_accepted_v4 (h : Accepted (.v4 x) port (upToSlash rest))
    (hnot : ¬ Denotes 554 (authority rest) (.v4 x) port.toNat) : Misread (.v4 x) port rest := by
  rcases h.v4_cases with ⟨portText, htext, hlast, hparse⟩ | ⟨htext, rfl⟩
  · cases hnumber : parseUnsigned 65535 portText with
    | none =>
      rw [hnumber, Option.getD_none] at hparse
      obtain rfl : port = 0 := UInt16.toNat_inj.mp hparse.symm
      refine .noNumber htext hlast hnumber fun portText' hauthority hport => hnot ?_
      rw [hauthority]
      exact .of_v4 hport
    | some n =>
      rw [hnumber, Option.getD_some] at hparse
      obtain ⟨digits, rfl | rfl, hne, hdigits, hvalue, -⟩ := exists_of_parseUnsigned hnumber
      · -- the port is written in digits, and nothing follows it
        have hplain : ∀ c ∈ portText, endsAuthority c = false :=
          fun c hc => endsAuthority_of_isDigit (List.all_eq_true.mp hdigits c hc)
        rw [authority_of_port htext hplain, ← hparse, ← hvalue] at hnot
        exact absurd (.of_v4 (.digits hne hdigits)) hnot
      · exact .signed htext (by rw [hnumber, hparse])
  · have hbare : Denotes 554 (x.display ++ []) (.v4 x) 554 := .of_v4 .absent
    rw [List.append_nil, ← authority_of_upToSlash htext fun _ => endsAuthority_of_mem_v4] at hbare
    exact absurd hbare hnot

/-- An address that is accepted has no user information in front of it. -/
theorem bare_of_accepted (haccepted : Accepted (.v4 x) port (upToSlash rest))
    (h : Denotes 554 (authority rest) (.v4 x) port.toNat) :
    ∃ portText, IsPort 554 portText port.toNat ∧ authority rest = x.display ++ portText := by
  obtain ⟨portText, hport, hbare | ⟨info, -, huser⟩⟩ := h.v4_cases
  · exact ⟨portText, hport, hbare⟩
  · exact absurd haccepted (not_accepted_of_userInfo hport huser)

theorem isDigit_of_signed {max n : ℕ} {digits : Str}
    (h : parseUnsigned max ('+' :: digits) = some n) : ∀ c ∈ digits, c.isDigit = true := by
  obtain ⟨number, hsign | hsign, -, hdigits, -⟩ := exists_of_parseUnsigned h
  · -- a number has no plus sign itself
    rw [← hsign] at hdigits
    cases hdigits
  · obtain ⟨-, rfl⟩ := List.cons.inj hsign
    exact List.all_eq_true.mp hdigits

theorem not_isPort_signed {digits : Str} : ¬ IsPort 554 (':' :: '+' :: digits) port.toNat := by
  intro hport
  rcases isPort_cases hport with ⟨h, -⟩ | ⟨h, -⟩ | ⟨digits', h, -, hdigits, -⟩
  · cases h
  · cases h
  · rw [← (List.cons.inj h).2] at hdigits
    cases hdigits

/-- **Each kind is misread.** -/
theorem Misread.disagrees (h : Misread ip port rest) :
    ¬ (Accepted ip port (upToSlash rest) ↔ Denotes 554 (authority rest) ip port.toNat) := by
  intro hagrees
  cases h with
  | bracketed hdenotes => exact not_accepted_of_denotes_v6 hdenotes (hagrees.mpr hdenotes)
  | userInfo hinfo hport hauthority =>
    refine not_accepted_of_userInfo hport hauthority (hagrees.mpr ?_)
    rw [hauthority]
    exact .user hinfo (.v4 (parseIpAddr_v4_iff.mpr rfl)) hport
  | @queried _ _ _ portText more hport hauthority htext hne hzero =>
    obtain ⟨more', heq, hmore'⟩ := upToSlash_eq rest
    rw [hauthority, htext] at heq
    obtain rfl := List.append_cancel_left heq
    obtain ⟨c, tail, rfl, hc⟩ := hmore'.resolve_left hne
    rw [htext, accepted_queried_iff hport hc, hauthority] at hagrees
    exact hzero (hagrees.mpr (.of_v4 hport))
  | @emptyPort x _ htext =>
    have hdenotes : Denotes 554 (x.display ++ [':']) (.v4 x) 554 := .of_v4 .empty
    rw [← authority_of_port htext (List.forall_mem_nil _)] at hdenotes
    have haccepted := hagrees.mpr hdenotes
    rw [htext, accepted_withPort_iff List.not_mem_nil] at haccepted
    exact absurd haccepted.2 (by decide)
  | @unbracketed x _ _ _ _ htext hlast hhost hport =>
    have haccepted : Accepted (.v6 x) port (upToSlash rest) := by
      rw [htext, accepted_withPort_iff hlast]
      exact ⟨hhost, hport⟩
    exact not_accepted_of_denotes_v6 (hagrees.mp haccepted) haccepted
  | @signed x _ _ digits htext hparse =>
    have hdigits := isDigit_of_signed hparse
    have hlast : ':' ∉ '+' :: digits := by
      rw [List.mem_cons, not_or]
      exact ⟨by decide, fun hmem => absurd (hdigits _ hmem) (by decide)⟩
    have haccepted : Accepted (.v4 x) port (upToSlash rest) := by
      rw [htext]
      exact accepted_v4 hlast (by rw [hparse, Option.getD_some])
    have hauthority : authority rest = x.display ++ ':' :: '+' :: digits :=
      authority_of_port htext <| List.forall_mem_cons.mpr
        ⟨rfl, fun c hc => endsAuthority_of_isDigit (hdigits c hc)⟩
    obtain ⟨portText, hport, hbare⟩ := bare_of_accepted haccepted (hagrees.mp haccepted)
    rw [hauthority] at hbare
    obtain rfl := List.append_cancel_left hbare
    exact not_isPort_signed hport
  | @noNumber x _ portText htext hlast hparse hnot =>
    have haccepted : Accepted (.v4 x) 0 (upToSlash rest) := by
      rw [htext]
      exact accepted_v4 hlast (by rw [hparse]; rfl)
    obtain ⟨portText', hport, hbare⟩ := bare_of_accepted haccepted (hagrees.mp haccepted)
    exact hnot portText' hbare hport

end

/-- **The comparison agrees with the authority**, except for the addresses that are misread. -/
theorem accepted_iff_denotes :
    (Accepted ip port (upToSlash rest) ↔ Denotes 554 (authority rest) ip port.toNat) ↔
      ¬ Misread ip port rest := by
  constructor
  · exact fun hagrees hmisread => hmisread.disagrees hagrees
  · intro hnot
    cases ip with
    | v4 x =>
      constructor
      · exact fun haccepted => by_contra fun h => hnot (misread_of_accepted_v4 haccepted h)
      · exact fun hdenotes => by_contra fun h => hnot (misread_of_denotes_v4 hdenotes h)
    | v6 x =>
      exact iff_of_false (fun haccepted => hnot (misread_of_accepted_v6 haccepted))
        fun hdenotes => hnot (.bracketed hdenotes)

/-! ## Other addresses -/

/-- What is put behind the base does not change its authority. -/
theorem urlAuthority_append (more : Str) :
    urlAuthority (rtspUrl (dialed ip port path user pwd) ++ more) =
      urlAuthority (rtspUrl (dialed ip port path user pwd)) := by
  have hplain : ∀ c ∈ ip.display ++ ':' :: numeral port.toNat, endsAuthority c = false := by
    intro c hc
    rw [List.mem_append, List.mem_cons] at hc
    rcases hc with hc | rfl | hc
    · exact endsAuthority_of_mem _ hc
    · rfl
    · exact endsAuthority_of_isDigit (isDigit_of_mem_numeral hc)
  have hurl : ∀ more, urlAuthority (rtspUrl (dialed ip port path user pwd) ++ more) =
      some (ip.display ++ ':' :: numeral port.toNat) := by
    intro more
    have hparts : rtspUrl (dialed ip port path user pwd) ++ more =
        scheme ++ ((ip.display ++ ':' :: numeral port.toNat) ++ '/' :: (path ++ more)) := by
      unfold rtspUrl dialed scheme
      generalize "rtsp://".toList = start
      simp only [List.append_assoc, List.cons_append, List.nil_append]
    rw [hparts, urlAuthority, stripPrefix_append, Option.map_some, authority,
      List.takeWhile_append_of_pos fun c hc => by rw [hplain c hc]; rfl,
      List.takeWhile_cons_of_neg (by decide), List.append_nil]
  have hbase := hurl []
  rw [List.append_nil] at hbase
  rw [hurl, hbase]

theorem resolved_relative (hne : trim control ≠ []) (hstar : trim control ≠ ['*'])
    (h : ∀ rest, trim control ≠ scheme ++ rest) :
    ∃ url, resolved (dialed ip port path user pwd) control = .ok url ∧
      (url = rtspUrl (dialed ip port path user pwd) ++ trim control ∨
        url = rtspUrl (dialed ip port path user pwd) ++ '/' :: trim control) ∧
      urlAuthority url = urlAuthority (rtspUrl (dialed ip port path user pwd)) := by
  have hstrip : stripPrefix "rtsp://".toList (trim control) = none := by
    rw [Option.eq_none_iff_forall_ne_some]
    exact fun rest hrest => h rest (eq_of_stripPrefix hrest)
  rw [resolved, resolveControlUrl]
  dsimp only
  rw [if_neg (not_or.mpr ⟨hne, hstar⟩), hstrip]
  dsimp only
  split_ifs
  · refine ⟨_, rfl, Or.inl (by rw [List.append_nil]), ?_⟩
    rw [List.append_nil, urlAuthority_append]
  · refine ⟨_, rfl, Or.inr (by rw [List.append_assoc]; rfl), ?_⟩
    rw [List.append_assoc, urlAuthority_append]

/-! ## Resolving as it should be -/

/-- **A control is resolved as it should be** if and only if it is not an absolute address that is
misread. -/
theorem resolveControlUrl_iff (ip : IpAddr) (port : UInt16) (path user pwd control : Str) :
    Resolves (dialed ip port path user pwd) ip control ↔
      ∀ rest, trim control = scheme ++ rest → ¬ Misread ip port rest := by
  constructor
  · intro h rest hrest
    rw [← accepted_iff_denotes]
    constructor
    · intro hsame
      by_contra hdenotes
      have herror := h.refused rest hrest hdenotes
      rw [resolved_of_accepted hrest hsame] at herror
      cases herror
    · intro hdenotes
      by_contra hdiffer
      have hok := h.accepted rest hrest hdenotes
      rw [resolved_of_not_accepted hrest hdiffer] at hok
      cases hok
  · intro h
    refine ⟨fun hbase => ?_, fun rest hrest hdenotes => ?_, fun rest hrest hdenotes => ?_,
      resolved_relative⟩
    · rw [resolved, resolveControlUrl]
      exact if_pos hbase
    · exact resolved_of_accepted hrest ((accepted_iff_denotes.mpr (h rest hrest)).mpr hdenotes)
    · refine resolved_of_not_accepted hrest fun haccepted => ?_
      exact hdenotes ((accepted_iff_denotes.mpr (h rest hrest)).mp haccepted)

/-- A camera with an IPv6 address refuses its own address. -/
theorem not_resolves_ipv6 :
    ¬ ∀ (ip : IpAddr) (port : UInt16) (path user pwd control : Str),
      Resolves (dialed ip port path user pwd) ip control := by
  intro h
  let x : Ipv6Addr := ⟨[0x2001, 0xdb8, 0, 0, 0, 0, 0, 7], rfl⟩
  have hresolves := h (.v6 x) 554 "videoMain".toList "admin".toList "secret".toList
    "rtsp://[2001:db8::7]:554/track1".toList
  have hdenotes : Denotes 554 (authority "[2001:db8::7]:554/track1".toList) (.v6 x) 554 :=
    .bare (.v6 (s := "2001:db8::7".toList) (by decide))
      (.digits (s := "554".toList) (by decide) rfl)
  have haccepted := hresolves.accepted "[2001:db8::7]:554/track1".toList rfl hdenotes
  revert haccepted
  decide

end RtspClient

end Fosipcore
