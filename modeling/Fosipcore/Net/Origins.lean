import Fosipcore.Net

/-!
# Serialised origins

A browser writes the origin of a page as scheme, host and port, and leaves out the port that is the
default of the scheme. The parser reads every such text back, except the origin of an IPv6 address
at a default port: behind a bracket it asks for a port.

## Main definitions

* `Scheme`, `Host`: the parts of an origin
* `serialise`: the text of an origin

## Main results

* `parseAuthority_authority`: the host and port that are read from an authority
* `parse_serialise_iff`: the origins that are read back from their text
-/

namespace Fosipcore

open Text

namespace OriginInfo

/-- The schemes of pages. -/
inductive Scheme where
  | http
  | https
  deriving DecidableEq

namespace Scheme

def text : Scheme → Str
  | http => "http".toList
  | https => "https".toList

/-- The port that is left out. -/
def port : Scheme → UInt16
  | http => 80
  | https => 443

end Scheme

/-- A host: a DNS name or IPv4 address, or an IPv6 address, which stands in brackets. -/
inductive Host where
  | name (text : Str) (nonempty : text ≠ [])
      (plain : ∀ c ∈ text, isWhitespace c = false ∧ c ≠ '/' ∧ c ≠ ':' ∧ c ≠ '[')
  | ipv6 (text : Str) (nonempty : text ≠ [])
      (plain : ∀ c ∈ text, isWhitespace c = false ∧ c ≠ '/' ∧ c ≠ ']')

namespace Host

/-- The host without brackets. -/
def text : Host → Str
  | name text _ _ => text
  | ipv6 text _ _ => text

/-- The host as it is written in an origin. -/
def written : Host → Str
  | name text _ _ => text
  | ipv6 text _ _ => '[' :: text ++ [']']

def isBracketed : Host → Bool
  | name .. => false
  | ipv6 .. => true

theorem text_ne_nil (host : Host) : host.text ≠ [] := by
  cases host <;> assumption

theorem mem_written {host : Host} {c : Char} (h : c ∈ host.written) :
    isWhitespace c = false ∧ c ≠ '/' := by
  cases host with
  | name text _ plain => exact ⟨(plain c h).1, (plain c h).2.1⟩
  | ipv6 text _ plain =>
    simp only [written, List.cons_append, List.mem_cons, List.mem_append, List.not_mem_nil,
      or_false] at h
    rcases h with rfl | h | rfl
    · decide
    · exact ⟨(plain c h).1, (plain c h).2.1⟩
    · decide

end Host

/-- A port behind its colon. -/
def portText (port : Option UInt16) : Str := port.elim [] fun p => ':' :: numeral p.toNat

/-- The host and the port. -/
def authority (host : Host) (port : Option UInt16) : Str := host.written ++ portText port

/-- **The text of an origin**, possibly with a path behind it. -/
def serialise (scheme : Scheme) (host : Host) (port : Option UInt16) (path : Option Str) : Str :=
  scheme.text ++ "://".toList ++ authority host port ++ path.elim [] ('/' :: ·)

variable {scheme : Scheme} {host : Host} {port : Option UInt16} {path : Option Str}

/-! ## The authority -/

theorem isDigit_facts {c : Char} (h : c.isDigit = true) :
    isWhitespace c = false ∧ c ≠ '/' ∧ c ≠ ':' := by
  simp only [Char.isDigit, Bool.and_eq_true, decide_eq_true_eq] at h
  have hlow : 48 ≤ c.toNat := h.1
  have hhigh : c.toNat ≤ 57 := h.2
  refine ⟨?_, ?_, ?_⟩
  · simp only [isWhitespace, Bool.or_eq_false_iff, Bool.and_eq_false_iff, beq_eq_false_iff_ne,
      decide_eq_false_iff_not]
    omega
  · rintro rfl
    exact absurd hlow (by decide)
  · rintro rfl
    exact absurd hhigh (by decide)

theorem mem_authority {c : Char} (h : c ∈ authority host port) :
    isWhitespace c = false ∧ c ≠ '/' := by
  rw [authority, List.mem_append] at h
  rcases h with h | h
  · exact Host.mem_written h
  · cases port with
    | none => cases h
    | some p =>
      rcases List.mem_cons.mp h with rfl | h
      · decide
      · obtain ⟨hspace, hslash, -⟩ := isDigit_facts (isDigit_of_mem_numeral h)
        exact ⟨hspace, hslash⟩

theorem parsePort_numeral (p : UInt16) : parsePort (numeral p.toNat) = some p := by
  have hle : p.toNat ≤ 65535 := Nat.le_of_lt_succ p.toNat_lt
  rw [parsePort, parseUnsigned_numeral hle, Option.map_some, UInt16.ofNat_toNat]

theorem colon_not_mem_numeral (n : ℕ) : ':' ∉ numeral n := fun h =>
  (isDigit_facts (isDigit_of_mem_numeral h)).2.2 rfl

/-- **What is read from an authority**: without a port nothing, for an IPv6 address. -/
theorem parseAuthority_authority (host : Host) (port : Option UInt16) (default : UInt16) :
    parseAuthority (authority host port) default =
      if host.isBracketed = true ∧ port = none then none
      else some (asciiLower host.text, port.getD default) := by
  cases host with
  | ipv6 text _ plain =>
    have hbracket : ']' ∉ text := fun h => (plain _ h).2.2 rfl
    have hauthority : authority (.ipv6 text ‹_› plain) port =
        '[' :: (text ++ ']' :: portText port) := by
      simp [authority, Host.written]
    rw [hauthority, parseAuthority, splitOnce_char _ hbracket]
    cases port with
    | none => rfl
    | some p =>
      have hstrip : stripPrefix [':'] (portText (some p)) = some (numeral p.toNat) := by
        simp [stripPrefix, portText]
      simp [hstrip, parsePort_numeral, Host.text]
  | name text nonempty plain =>
    have hcolon : ':' ∉ text := fun h => (plain _ h).2.2.1 rfl
    -- a name does not begin with a bracket
    have hbranch : ∀ inner, authority (.name text nonempty plain) port ≠ '[' :: inner := by
      intro inner heq
      obtain ⟨c, text, rfl⟩ := List.exists_cons_of_ne_nil nonempty
      exact (plain c List.mem_cons_self).2.2.2 (List.cons.inj heq).1
    rw [parseAuthority]
    · cases port with
      | none =>
        have hauthority : authority (.name text nonempty plain) none = text :=
          List.append_nil text
        rw [hauthority, rsplitOnce_char_none hcolon]
        rfl
      | some p =>
        have hauthority : authority (.name text nonempty plain) (some p) =
            text ++ ':' :: numeral p.toNat := rfl
        rw [hauthority, rsplitOnce_char _ (colon_not_mem_numeral _)]
        simp [parsePort_numeral, Host.isBracketed, Host.text]
    · exact hbranch

/-! ## The origin -/

/-- Trimming takes nothing but the end of the path. -/
theorem trim_serialise (scheme : Scheme) (host : Host) (port : Option UInt16)
    (path : Option Str) :
    ∃ path', trim (serialise scheme host port path) = serialise scheme host port path' := by
  cases path with
  | none =>
    refine ⟨none, trim_eq_self fun c hc => ?_⟩
    rw [serialise, Option.elim_none, List.append_nil, List.mem_append] at hc
    have hscheme : ∀ d ∈ scheme.text ++ "://".toList, isWhitespace d = false := by
      cases scheme <;> exact forall_of_all (by decide)
    exact hc.elim (hscheme c) fun hc => (mem_authority hc).1
  | some path =>
    refine ⟨some (path.rdropWhile isWhitespace), ?_⟩
    have hcons : ∃ rest, scheme.text ++ "://".toList = 'h' :: rest := by
      cases scheme <;> exact ⟨_, rfl⟩
    obtain ⟨rest, hrest⟩ := hcons
    have hshape : ∀ tail, serialise scheme host port (some tail) =
        'h' :: (rest ++ authority host port ++ '/' :: tail) := by
      intro tail
      rw [serialise, hrest]
      rfl
    rw [hshape, hshape, trim_cons_append _ _ (by decide) (by decide)]

theorem splitOnce_serialise (scheme : Scheme) (text : Str) :
    splitOnce "//".toList (scheme.text ++ "://".toList ++ text) =
      some (scheme.text ++ [':'], text) := by
  cases scheme <;> rfl

theorem defaultPort_text (scheme : Scheme) :
    defaultPort (scheme.text ++ [':']) = some scheme.port := by
  cases scheme <;> decide

/-- A path is cut off. -/
theorem takeWhile_authority (host : Host) (port : Option UInt16) (path : Option Str) :
    (authority host port ++ path.elim [] ('/' :: ·)).takeWhile (· ≠ '/') =
      authority host port := by
  rw [List.takeWhile_append_of_pos fun c hc => by simpa using (mem_authority hc).2]
  cases path <;> simp

/-- The origin is that of the authority. -/
theorem parse_serialise (scheme : Scheme) (host : Host) (port : Option UInt16)
    (path : Option Str) :
    parse (serialise scheme host port path) =
      if host.isBracketed = true ∧ port = none then none
      else some ⟨asciiLower host.text, port.getD scheme.port⟩ := by
  obtain ⟨path', htrim⟩ := trim_serialise scheme host port path
  have hvalue : serialise scheme host port path' =
      scheme.text ++ "://".toList ++ (authority host port ++ path'.elim [] ('/' :: ·)) :=
    List.append_assoc ..
  have hnull : ¬ (serialise scheme host port path' = [] ∨
      serialise scheme host port path' = "null".toList) := by
    rw [hvalue]
    cases scheme <;> simp [Scheme.text]
  have hself : trim (authority host port) = authority host port :=
    trim_eq_self fun c hc => (mem_authority hc).1
  have hhost : asciiLower host.text ≠ [] := by simpa [asciiLower] using host.text_ne_nil
  simp only [parse, htrim, if_neg hnull]
  rw [hvalue, splitOnce_serialise]
  simp only [Option.bind_eq_bind, Option.bind_some, takeWhile_authority, hself,
    defaultPort_text, parseAuthority_authority]
  split_ifs
  · rfl
  · simp only [Option.bind_some, if_neg hhost]

/-- **An origin is read back** from its text, host in lower case and without brackets, if and only
if it is not that of an IPv6 address without a port. -/
theorem parse_serialise_iff (scheme : Scheme) (host : Host) (port : Option UInt16)
    (path : Option Str) :
    parse (serialise scheme host port path) =
        some ⟨asciiLower host.text, port.getD scheme.port⟩ ↔
      (host.isBracketed = true → port.isSome = true) := by
  rw [parse_serialise]
  cases port with
  | none => cases host <;> simp [Host.isBracketed]
  | some p => simp

/-- The origin of the loopback address at the default port is refused. -/
theorem bracketed_default_port_refused :
    serialise .http (.ipv6 "::1".toList (by decide) (forall_of_all (by decide))) none none =
        "http://[::1]".toList ∧
      parse "http://[::1]".toList = none ∧
      ¬ ∀ (scheme : Scheme) (host : Host) (port : Option UInt16) (path : Option Str),
        parse (serialise scheme host port path) =
          some ⟨asciiLower host.text, port.getD scheme.port⟩ := by
  have htext :
      serialise .http (.ipv6 "::1".toList (by decide) (forall_of_all (by decide))) none none =
      "http://[::1]".toList := by decide
  have hparse : parse "http://[::1]".toList = none := by decide +kernel
  refine ⟨htext, hparse, fun h => ?_⟩
  have hsome := h .http (.ipv6 "::1".toList (by decide) (forall_of_all (by decide))) none none
  rw [htext, hparse] at hsome
  cases hsome

end OriginInfo

end Fosipcore
