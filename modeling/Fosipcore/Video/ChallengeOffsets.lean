import Fosipcore.Video.ChallengeParams

/-!
# The position of a parameter in a challenge

The client looks for `name=` in the lower case text of a challenge, and cuts the challenge itself at
the position behind it. The lower case of a character need not have as many bytes as the character,
and then the position is that of another place, may lie within a character, or beyond the end.

## Main definitions

* `LowersText`: what the lower case of any text is
* `Found`: the first `name=` of the lower case text ends with a given equals sign
* `CutsAtMatch`: the challenge is cut behind the match of the first `name=`
* `KeepsLength`: what stands in front of the match has as many bytes as its lower case

## Main results

* `exists_found`: the first `name=` of the lower case text has a match in the text
* `extractAuthParam_cut_iff`: when the challenge is cut there, and nothing panics
* `keepsLength_of_ascii`: a challenge in ASCII always is
-/

namespace Fosipcore

namespace RtspClient

open Text

/-- **The lower case of any text**: nothing but an equals sign has one in its lower case. -/
structure LowersText (toLowercase : Str → Str) : Prop extends Lowers toLowercase where
  equals : ∀ s, '=' ∈ toLowercase s → '=' ∈ s

/-- What the client looks for. -/
def searchText (env : Environment) (param : Str) : Str := env.toLowercase (param ++ ['='])

/-- The first `name=` of the lower case text is at the end of that of a text and an equals sign. -/
def Found (env : Environment) (param front : Str) : Prop :=
  ∃ b, splitOnce (searchText env param) (env.toLowercase (front ++ ['='])) = some (b, [])

/-- **The challenge is cut at the match**: the position behind the first `name=` of the lower case
text is that behind an equals sign of the challenge, and up to there the two are the same text. -/
def CutsAtMatch (env : Environment) (auth param : Str) : Prop :=
  ∀ b a, splitOnce (searchText env param) (env.toLowercase auth) = some (b, a) →
    ∃ front rest, auth = front ++ '=' :: rest ∧
      env.toLowercase (front ++ ['=']) = b ++ searchText env param ∧
      dropBytes (byteLength b + byteLength (param ++ ['='])) auth = some rest

/-- What stands in front of the match has as many bytes as its lower case. -/
def KeepsLength (env : Environment) (auth param : Str) : Prop :=
  ∀ front rest, auth = front ++ '=' :: rest → Found env param front →
    byteLength (env.toLowercase front) = byteLength front

/-! ## Equals signs in the lower case text -/

section

variable {env : Environment} (hlower : LowersText env.toLowercase)

include hlower

theorem toLowercase_append_equals (a b : Str) :
    env.toLowercase (a ++ '=' :: b) = env.toLowercase a ++ '=' :: env.toLowercase b :=
  hlower.apart a b '=' (Or.inr rfl)

theorem toLowercase_concat_equals (a : Str) :
    env.toLowercase (a ++ ['=']) = env.toLowercase a ++ ['='] := by
  rw [toLowercase_append_equals hlower, hlower.nil]

/-- **An equals sign of the lower case text** is one of the text, with the same parts around it. -/
theorem exists_of_toLowercase_equals {s u v : Str} (h : env.toLowercase s = u ++ '=' :: v) :
    ∃ a b, s = a ++ '=' :: b ∧ env.toLowercase a = u ∧ env.toLowercase b = v := by
  induction hn : s.length using Nat.strong_induction_on generalizing s u with
  | _ n ih =>
    -- the first equals sign of the text is the first one of its lower case
    have hmem : '=' ∈ s := hlower.equals s (h ▸ List.mem_append_right u List.mem_cons_self)
    obtain ⟨a, b, rfl, ha⟩ := List.eq_append_cons_of_mem hmem
    have ha' : '=' ∉ env.toLowercase a := fun hmem => ha (hlower.equals a hmem)
    rw [toLowercase_append_equals hlower] at h
    rcases append_cons_cases h ha' with ⟨rfl, rfl⟩ | ⟨w, rfl, hb⟩
    · exact ⟨a, b, rfl, rfl, rfl⟩
    · have hlt : b.length < n := by
        rw [← hn, List.length_append, List.length_cons]
        omega
      obtain ⟨a', b', rfl, rfl, hb'⟩ := ih b.length hlt hb rfl
      exact ⟨a ++ '=' :: a', b', by simp, toLowercase_append_equals hlower a a', hb'⟩

/-- Two beginnings of a text with the same lower case are the same. -/
theorem front_unique {a b a' b' : Str} (h : a ++ '=' :: b = a' ++ '=' :: b')
    (hlow : env.toLowercase a = env.toLowercase a') : a = a' := by
  have hnot : ∀ {x y : Str}, env.toLowercase (x ++ '=' :: y) ≠ env.toLowercase x := by
    intro x y heq
    have hlength := congrArg List.length heq
    rw [toLowercase_append_equals hlower, List.length_append, List.length_cons] at hlength
    omega
  rcases List.append_eq_append_iff.mp h with ⟨m, rfl, hm⟩ | ⟨m, rfl, hm⟩
  · cases m with
    | nil => rw [List.append_nil]
    | cons d m =>
      obtain ⟨rfl, -⟩ := List.cons.inj hm
      exact absurd hlow.symm hnot
  · cases m with
    | nil => rw [List.append_nil]
    | cons d m =>
      obtain ⟨rfl, -⟩ := List.cons.inj hm
      exact absurd hlow hnot

/-! ## The match -/

variable {param : Str}

/-- The search text ends with the equals sign. -/
theorem searchText_eq (hparam : ∀ c ∈ param, c.toNat < 128) :
    searchText env param = asciiLower param ++ ['='] := by
  rw [searchText, toLowercase_concat_equals hlower, hlower.ascii param hparam]

theorem searchText_ne_nil : searchText env param ≠ [] := by
  rw [searchText, toLowercase_concat_equals hlower]
  exact List.append_ne_nil_of_right_ne_nil _ (List.cons_ne_nil _ _)

theorem byteLength_searchText (hparam : ∀ c ∈ param, c.toNat < 128) :
    byteLength (searchText env param) = byteLength (param ++ ['=']) := by
  have hlow : ∀ c ∈ asciiLower param, c.toNat < 128 := by
    intro c hc
    obtain ⟨d, hd, rfl⟩ := List.mem_map.mp hc
    exact toLower_lt (hparam d hd)
  rw [searchText_eq hlower hparam, byteLength_append, byteLength_append, byteLength_of_ascii hlow,
    byteLength_of_ascii hparam, asciiLower, List.length_map]

/-- What stands behind an equals sign does not matter for the first match up to it. -/
theorem splitOnce_of_found {front b : Str} (rest : Str)
    (h : splitOnce (searchText env param) (env.toLowercase (front ++ ['='])) = some (b, [])) :
    splitOnce (searchText env param) (env.toLowercase (front ++ '=' :: rest)) =
      some (b, env.toLowercase rest) := by
  have hlow := splitOnce_eq h
  rw [hlow] at h
  have hsplit : env.toLowercase (front ++ '=' :: rest) =
      b ++ (searchText env param ++ env.toLowercase rest) := by
    rw [toLowercase_concat_equals hlower, List.append_nil] at hlow
    rw [toLowercase_append_equals hlower, List.append_cons, hlow, List.append_assoc]
  rw [hsplit]
  exact splitOnce_behind (searchText_ne_nil hlower) h _

/-- **The first `name=` of the lower case text has a match** in the text. -/
theorem exists_found (hparam : ∀ c ∈ param, c.toNat < 128) {auth b a : Str}
    (h : splitOnce (searchText env param) (env.toLowercase auth) = some (b, a)) :
    ∃ front rest, auth = front ++ '=' :: rest ∧
      splitOnce (searchText env param) (env.toLowercase (front ++ ['='])) = some (b, []) := by
  have hlow := splitOnce_eq h
  rw [hlow] at h
  -- the equals sign of the match is one of the text
  have hequals : env.toLowercase auth = (b ++ asciiLower param) ++ '=' :: a := by
    rw [hlow, searchText_eq hlower hparam]
    simp only [List.append_assoc, List.singleton_append]
  obtain ⟨front, rest, rfl, hfront, -⟩ := exists_of_toLowercase_equals hlower hequals
  refine ⟨front, rest, rfl, ?_⟩
  have hmatch : env.toLowercase (front ++ ['=']) = b ++ (searchText env param ++ []) := by
    rw [toLowercase_concat_equals hlower, hfront, searchText_eq hlower hparam, List.append_nil,
      List.append_assoc]
  rw [hmatch]
  exact splitOnce_behind (searchText_ne_nil hlower) h []

/-- Two beginnings that end with the first match are the same. -/
theorem Found.eq {front rest front' rest' : Str} (h : Found env param front)
    (h' : Found env param front') (heq : front ++ '=' :: rest = front' ++ '=' :: rest') :
    front = front' := by
  obtain ⟨b, hb⟩ := h
  obtain ⟨b', hb'⟩ := h'
  have hsplit := splitOnce_of_found hlower rest hb
  rw [heq, splitOnce_of_found hlower rest' hb'] at hsplit
  obtain ⟨rfl, -⟩ := Prod.mk.inj (Option.some.inj hsplit)
  have hlow := (splitOnce_eq hb).trans (splitOnce_eq hb').symm
  rw [toLowercase_concat_equals hlower, toLowercase_concat_equals hlower] at hlow
  exact front_unique hlower heq (List.append_cancel_right hlow)

/-- Only one beginning of a challenge has to be looked at. -/
theorem keepsLength_iff_of_found {front rest : Str} (h : Found env param front) :
    KeepsLength env (front ++ '=' :: rest) param ↔
      byteLength (env.toLowercase front) = byteLength front := by
  constructor
  · exact fun hkeeps => hkeeps front rest rfl h
  · intro hbytes front' rest' heq h'
    obtain rfl := h.eq hlower h' heq
    exact hbytes

/-- In ASCII every text has as many bytes as its lower case. -/
theorem keepsLength_of_ascii {auth : Str} (hascii : ∀ c ∈ auth, c.toNat < 128) :
    KeepsLength env auth param := by
  rintro front rest rfl -
  have hfront : ∀ c ∈ front, c.toNat < 128 := fun c hc => hascii c (List.mem_append_left _ hc)
  have hlow : ∀ c ∈ asciiLower front, c.toNat < 128 := by
    intro c hc
    obtain ⟨d, hd, rfl⟩ := List.mem_map.mp hc
    exact toLower_lt (hfront d hd)
  rw [hlower.ascii front hfront, byteLength_of_ascii hlow, byteLength_of_ascii hfront, asciiLower,
    List.length_map]

/-- A cut that is at the match is behind as many bytes as the lower case has there. -/
theorem CutsAtMatch.keepsLength {auth : Str} (hcuts : CutsAtMatch env auth param)
    (hparam : ∀ c ∈ param, c.toNat < 128) : KeepsLength env auth param := by
  rintro front rest rfl ⟨b, hfound⟩
  obtain ⟨front', rest', hauth, hlow, hdrop⟩ :=
    hcuts b (env.toLowercase rest) (splitOnce_of_found hlower rest hfound)
  have hsame : env.toLowercase (front ++ ['=']) = env.toLowercase (front' ++ ['=']) := by
    rw [hlow, splitOnce_eq hfound, List.append_nil]
  rw [toLowercase_concat_equals hlower, toLowercase_concat_equals hlower] at hsame
  obtain rfl := front_unique hlower hauth (List.append_cancel_right hsame)
  obtain ⟨x, hx, hbytes⟩ := exists_of_dropBytes hdrop
  have hrest : rest = rest' := (List.cons.inj (List.append_cancel_left hauth)).2
  have hfront : x = front ++ ['='] := by
    rw [hrest, List.append_cons] at hx
    exact (List.append_cancel_right hx).symm
  rw [toLowercase_concat_equals hlower] at hlow
  have hcount := congrArg byteLength hlow
  rw [byteLength_append, byteLength_append, byteLength_searchText hlower hparam, ← hbytes,
    hfront, byteLength_append] at hcount
  exact Nat.add_right_cancel hcount

theorem KeepsLength.cutsAtMatch {auth : Str} (hkeeps : KeepsLength env auth param)
    (hparam : ∀ c ∈ param, c.toNat < 128) : CutsAtMatch env auth param := by
  intro b a hsplit
  obtain ⟨front, rest, rfl, hfound⟩ := exists_found hlower hparam hsplit
  have hlow := splitOnce_eq hfound
  rw [List.append_nil] at hlow
  refine ⟨front, rest, rfl, hlow, ?_⟩
  have hcount := congrArg byteLength hlow
  rw [toLowercase_concat_equals hlower, byteLength_append, byteLength_append,
    hkeeps front rest rfl ⟨b, hfound⟩, byteLength_searchText hlower hparam,
    ← byteLength_append] at hcount
  have hsplit' : front ++ '=' :: rest = (front ++ ['=']) ++ rest := List.append_cons ..
  rw [← hcount, hsplit', dropBytes_append]

omit hlower in
/-- A cut at the match is on a character boundary. -/
theorem CutsAtMatch.ne_stopped {auth : Str} (hcuts : CutsAtMatch env auth param) :
    extractAuthParam env auth param ≠ .error .stopped := by
  cases hsplit : splitOnce (searchText env param) (env.toLowercase auth) with
  | none =>
    rw [searchText] at hsplit
    rw [extractAuthParam, hsplit]
    rintro ⟨⟩
  | some found =>
    obtain ⟨b, a⟩ := found
    obtain ⟨front, rest, -, -, hdrop⟩ := hcuts b a hsplit
    rw [extractAuthParam_of_split hsplit, hdrop]
    rintro ⟨⟩

/-- **The challenge is cut at the match** of `name=`, and nothing panics, if and only if what stands
in front of the match has as many bytes as its lower case. -/
theorem extractAuthParam_cut_iff (hparam : ∀ c ∈ param, c.toNat < 128) (auth : Str) :
    (extractAuthParam env auth param ≠ .error .stopped ∧ CutsAtMatch env auth param) ↔
      KeepsLength env auth param := by
  constructor
  · rintro ⟨-, hcuts⟩
    exact CutsAtMatch.keepsLength hlower hcuts hparam
  · intro hkeeps
    have hcuts : CutsAtMatch env auth param := KeepsLength.cutsAtMatch hlower hkeeps hparam
    exact ⟨hcuts.ne_stopped, hcuts⟩

end

/-! ## A letter with a longer lower case -/

/-- The lower case of the letter I with a dot has a character for the dot. -/
def lowerDotted (s : Str) : Str :=
  s.flatMap fun c => if c = '\u0130' then ['i', '\u0307'] else [c.toLower]

theorem lowersText_lowerDotted : LowersText lowerDotted where
  ascii := by
    intro s hs
    induction s with
    | nil => rfl
    | cons c s ih =>
      have hc : c ≠ '\u0130' := by
        rintro rfl
        exact absurd (hs _ List.mem_cons_self) (by decide)
      rw [lowerDotted, List.flatMap_cons, if_neg hc, ← lowerDotted,
        ih fun d hd => hs d (List.mem_cons_of_mem c hd)]
      rfl
  apart := by
    rintro a b c (rfl | rfl) <;> simp [lowerDotted]
  equals := by
    intro s h
    obtain ⟨c, hc, hmem⟩ := List.mem_flatMap.mp h
    split_ifs at hmem
    · exact absurd hmem (by decide)
    · -- no other character has an equals sign for its lower case
      have hlow := List.mem_singleton.mp hmem
      by_cases hupper : c.val ≥ 'A'.val ∧ c.val ≤ 'Z'.val
      · obtain ⟨hlarge, -, hshift⟩ := toLower_toNat hupper
        have hval : 61 = c.val.toNat + 32 := (congrArg (·.val.toNat) hlow).trans hshift
        omega
      · rwa [hlow, toLower_of_not_upper hupper]

def dottedEnvironment : Environment := { sampleEnvironment id with toLowercase := lowerDotted }

/-- The realm is such a letter, and the nonce is not in ASCII. -/
def dottedAuth : Str := "Digest realm=\"\u0130\", nonce=\u00E9".toList

/-- In front of the letter, the challenge is cut where it should be. -/
theorem extractAuthParam_cut_iff_realm :
    extractAuthParam dottedEnvironment dottedAuth "realm".toList ≠ .error .stopped ∧
      CutsAtMatch dottedEnvironment dottedAuth "realm".toList := by
  have hlower : LowersText dottedEnvironment.toLowercase := lowersText_lowerDotted
  have hparam : ∀ c ∈ "realm".toList, c.toNat < 128 := forall_of_all (by decide)
  have hfound : Found dottedEnvironment "realm".toList "Digest realm".toList :=
    ⟨"digest ".toList, by decide⟩
  have hkeeps : KeepsLength dottedEnvironment dottedAuth "realm".toList :=
    (keepsLength_iff_of_found hlower hfound).mpr (by decide)
  exact (extractAuthParam_cut_iff hlower hparam dottedAuth).mpr hkeeps

/-- Behind it, the position is within a character. -/
theorem extractAuthParam_panics :
    ¬ ∀ auth param : Str, (∀ c ∈ param, c.toNat < 128) →
      extractAuthParam dottedEnvironment auth param ≠ .error .stopped ∧
        CutsAtMatch dottedEnvironment auth param := by
  intro h
  have hparam : ∀ c ∈ "nonce".toList, c.toNat < 128 := forall_of_all (by decide)
  exact (h dottedAuth "nonce".toList hparam).1 (by decide)

end RtspClient

end Fosipcore
