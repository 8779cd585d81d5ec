import Fosipcore.Video.DigestResponse

/-!
# The parameters of a challenge

A Digest challenge is a list of parameters with a name and a value, which is quoted or a token. The
client looks for `name=` anywhere in the lower case text, and takes the position of the first one
for a position in the challenge itself. So it reads the value of a parameter, whatever this is, if
and only if the first `name=` stands at the parameter of that name.

In ASCII this means that no name in front of the parameter ends with its name, and no value in front
of it contains `name=`.

## Main definitions

* `AuthParam`, `challengeText`: a parameter, and the text of a challenge
* `Lowers`: what the lower case of a text is
* `Located`: the first `name=` is that of the parameter
* `Absent`: there is no `name=`, or no closing quotation mark behind it

## Main results

* `extractAuthParam_located`: a parameter that is located is read
* `extractAuthParam_iff`: when parameters are extracted by their name
* `located_iff_of_ascii`, `absent_of_ascii`: the conditions on the names and values in ASCII
-/

namespace Fosipcore

namespace RtspClient

open Text

/-! ## Challenges -/

/-- A character of a token: a visible one of ASCII that is no separator. -/
def isTokenChar (c : Char) : Bool :=
  0x21 ≤ c.toNat && c.toNat < 0x7F && c ∉ "\"(),/:;<=>?@[\\]\x7b\x7d".toList

/-- A token is not empty. -/
def IsToken (s : Str) : Prop := s ≠ [] ∧ s.all isTokenChar = true

/-- A name is a token in lower case. -/
def IsName (s : Str) : Prop := IsToken s ∧ asciiLower s = s

instance (s : Str) : Decidable (IsToken s) := inferInstanceAs (Decidable (_ ∧ _))

instance (s : Str) : Decidable (IsName s) := inferInstanceAs (Decidable (_ ∧ _))

/-- A parameter of a challenge. A value that is not quoted is a token. -/
structure AuthParam where
  name : Str
  value : Str
  isQuoted : Bool
  is_name : IsName name
  is_value : if isQuoted then '\"' ∉ value else IsToken value

namespace AuthParam

def valueText (p : AuthParam) : Str := if p.isQuoted then quoted p.value else p.value

def text (p : AuthParam) : Str := p.name ++ '=' :: p.valueText

end AuthParam

/-- The text of a challenge. -/
def challengeText (params : List AuthParam) : Str :=
  "Digest ".toList ++ ", ".toList.intercalate (params.map AuthParam.text)

/-- What stands in front of a parameter. -/
def front (before : List AuthParam) : Str :=
  "Digest ".toList ++ before.flatMap fun p => p.text ++ ", ".toList

/-- What stands behind a parameter. -/
def behind (after : List AuthParam) : Str := after.flatMap fun p => ", ".toList ++ p.text

/-- **The lower case of a text**: that of its ASCII letters, and the text around a blank or an
equals sign is lowered part by part, since neither has a part in the case of a letter next to it. -/
structure Lowers (toLowercase : Str → Str) : Prop where
  ascii : ∀ s : Str, (∀ c ∈ s, c.toNat < 128) → toLowercase s = asciiLower s
  apart : ∀ (a b : Str) (c : Char), c = ' ' ∨ c = '=' →
    toLowercase (a ++ c :: b) = toLowercase a ++ c :: toLowercase b

/-- The first `name=` in the lower case text, up to that of the parameter, has the position of the
parameter in the text itself. -/
def Located (env : Environment) (name : Str) (before : List AuthParam) : Prop :=
  ∃ b a, splitOnce (name ++ ['=']) (env.toLowercase (front before ++ (name ++ ['=']))) =
    some (b, a) ∧ byteLength b = byteLength (front before)

/-- If there is a `name=` in the lower case text at all, behind the first one is a quotation mark that
no other one closes. -/
def Absent (env : Environment) (name auth : Str) : Prop :=
  ∀ b a, splitOnce (name ++ ['=']) (env.toLowercase auth) = some (b, a) →
    ∃ s inner, dropBytes (byteLength b + byteLength (name ++ ['='])) auth = some s ∧
      trim s = '\"' :: inner ∧ '\"' ∉ inner

/-! ## The text of a challenge -/

theorem challengeText_eq (before after : List AuthParam) (p : AuthParam) :
    challengeText (before ++ p :: after) =
      front before ++ ((p.name ++ ['=']) ++ (p.valueText ++ behind after)) := by
  unfold challengeText front behind
  generalize "Digest ".toList = scheme
  generalize ", ".toList = sep
  rw [List.map_append, List.map_cons, intercalate_append_cons, List.flatMap_map, List.flatMap_map,
    AuthParam.text]
  simp only [List.append_assoc, List.cons_append, List.nil_append]

/-- What stands behind a parameter begins with a comma, if there is anything. -/
theorem behind_cases (after : List AuthParam) :
    behind after = [] ∨ ∃ rest, behind after = ',' :: rest := by
  cases after with
  | nil => exact Or.inl rfl
  | cons p after => exact Or.inr ⟨_, rfl⟩

theorem front_snoc (before : List AuthParam) (p : AuthParam) :
    front (before ++ [p]) = front before ++ (p.text ++ ", ".toList) := by
  unfold front
  generalize "Digest ".toList = scheme
  generalize ", ".toList = sep
  rw [List.flatMap_append, List.flatMap_singleton, List.append_assoc]

/-- What stands in front of a parameter ends with a blank. -/
theorem front_eq (before : List AuthParam) : ∃ init, front before = init ++ [' '] := by
  cases before using List.reverseRecOn with
  | nil => exact ⟨"Digest".toList, rfl⟩
  | append_singleton before p =>
    have hsep : ", ".toList = [','] ++ [' '] := rfl
    refine ⟨front before ++ (p.text ++ [',']), ?_⟩
    rw [front_snoc, hsep]
    simp only [List.append_assoc]

/-- A challenge is what stands in front of another parameter, up to the separator. -/
theorem prefix_challengeText (params : List AuthParam) : challengeText params <+: front params := by
  cases params using List.reverseRecOn with
  | nil => exact List.prefix_rfl
  | append_singleton before p =>
    refine ⟨", ".toList, ?_⟩
    rw [front_snoc, challengeText_eq]
    generalize ", ".toList = sep
    simp only [AuthParam.text, behind, List.flatMap_nil, List.append_nil, List.append_assoc,
      List.cons_append, List.nil_append]

/-! ## Tokens -/

theorem isTokenChar_lt {c : Char} (h : isTokenChar c = true) : c.toNat < 128 := by
  simp only [isTokenChar, Bool.and_eq_true, decide_eq_true_eq] at h
  exact h.1.2.trans (by decide)

/-- The characters of a token are no white space, and none that ends a value. -/
theorem isTokenChar_plain {c : Char} (h : isTokenChar c = true) :
    isWhitespace c = false ∧ c ∉ ['\"', '=', ',', ' ', '\r', '\n'] := by
  have hascii : ∀ n < 128, isTokenChar (Char.ofNat n) = true →
      isWhitespace (Char.ofNat n) = false ∧
        Char.ofNat n ∉ ['\"', '=', ',', ' ', '\r', '\n'] := by
    decide +kernel
  have hplain := hascii c.toNat (isTokenChar_lt h)
  rw [Char.ofNat_toNat] at hplain
  exact hplain h

theorem IsToken.isTokenChar {s : Str} (h : IsToken s) {c : Char} (hc : c ∈ s) :
    isTokenChar c = true :=
  List.all_eq_true.mp h.2 c hc

/-! ## The value behind an equals sign -/

/-- The value that is read in a text: up to the closing quotation mark, or a token. -/
def valueBehind (s : Str) : Option Str :=
  match trim s with
  | '\"' :: inner => (splitOnce ['\"'] inner).map Prod.fst
  | s => some (trim (s.takeWhile (· ∉ [',', ' ', '\r', '\n'])))

theorem valueBehind_quote {s inner : Str} (h : trim s = '\"' :: inner) :
    valueBehind s = (splitOnce ['\"'] inner).map Prod.fst := by
  simp only [valueBehind, h]

/-- What is extracted is the value behind the first `name=`. -/
theorem extractAuthParam_of_split {env : Environment} {auth param b a : Str}
    (h : splitOnce (env.toLowercase (param ++ ['='])) (env.toLowercase auth) = some (b, a)) :
    extractAuthParam env auth param =
      match dropBytes (byteLength b + byteLength (param ++ ['='])) auth with
      | none => .error .stopped
      | some s => .ok (valueBehind s) := by
  rw [extractAuthParam, h]
  dsimp only
  cases dropBytes (byteLength b + byteLength (param ++ ['='])) auth with
  | none => rfl
  | some s =>
    dsimp only
    split
    · rename_i inner hquote
      rw [valueBehind_quote hquote]
    · rename_i hnone
      rw [valueBehind]
      split
      · rename_i inner hquote
        exact (hnone inner hquote).elim
      · rfl

theorem valueBehind_of_ne {s t : Str} {c : Char} (h : trim s = c :: t) (hc : c ≠ '\"') :
    valueBehind s = some (trim ((c :: t).takeWhile (· ∉ [',', ' ', '\r', '\n']))) := by
  rw [valueBehind, h]
  split
  · rename_i inner heq
    obtain ⟨rfl, -⟩ := List.cons.inj heq
    exact absurd rfl hc
  · rfl

/-- A quoted value is read up to its closing quotation mark. -/
theorem valueBehind_quoted {value : Str} (h : '\"' ∉ value) (rest : Str) :
    valueBehind (quoted value ++ rest) = some value := by
  have htrim := trim_cons_append value rest (c := '\"') (d := '\"') (by decide) (by decide)
  have hquoted : quoted value ++ rest = '\"' :: (value ++ '\"' :: rest) := by simp [quoted]
  rw [← hquoted] at htrim
  rw [valueBehind_quote htrim, splitOnce_char _ h]
  rfl

/-- A token is read up to the comma behind it. -/
theorem valueBehind_token {value rest : Str} (h : IsToken value)
    (hrest : rest = [] ∨ ∃ s, rest = ',' :: s) : valueBehind (value ++ rest) = some value := by
  have hspace : ∀ c ∈ value, isWhitespace c = false :=
    fun c hc => (isTokenChar_plain (h.isTokenChar hc)).1
  obtain ⟨rest', htrim, hrest'⟩ : ∃ rest', trim (value ++ rest) = value ++ rest' ∧
      (rest' = [] ∨ ∃ s, rest' = ',' :: s) := by
    rcases hrest with rfl | ⟨s, rfl⟩
    · refine ⟨[], ?_, Or.inl rfl⟩
      rw [List.append_nil, trim_eq_self hspace]
    · refine ⟨',' :: s.rdropWhile isWhitespace, ?_, Or.inr ⟨_, rfl⟩⟩
      rw [trim_append_cons value s (by decide), dropWhile_eq_self hspace]
  have htake : (value ++ rest').takeWhile (· ∉ [',', ' ', '\r', '\n']) = value := by
    rw [List.takeWhile_append_of_pos]
    · rcases hrest' with rfl | ⟨s, rfl⟩ <;> simp
    · intro c hc
      have hplain := (isTokenChar_plain (h.isTokenChar hc)).2
      simp only [List.mem_cons, not_or] at hplain
      simp [hplain]
  obtain ⟨c, tail, rfl⟩ := List.exists_cons_of_ne_nil h.1
  have hc : c ≠ '\"' := by
    have hplain := (isTokenChar_plain (h.isTokenChar List.mem_cons_self)).2
    simp only [List.mem_cons, not_or] at hplain
    exact hplain.1
  rw [valueBehind_of_ne htrim hc]
  exact congrArg some ((congrArg trim htake).trans (trim_eq_self hspace))

/-! ## Values at other places -/

/-- A value that is read in front of an equals sign, and has none, ends before it. -/
theorem length_valueBehind_le {w u value : Str} (h : valueBehind (w ++ '=' :: u) = some value)
    (hvalue : '=' ∉ value) : value.length ≤ w.length := by
  have htrim := trim_append_cons w u (c := '=') (by decide)
  have hdrop : (w.dropWhile isWhitespace).length ≤ w.length :=
    (List.dropWhile_suffix _).length_le
  cases hfront : w.dropWhile isWhitespace with
  | nil =>
    rw [hfront, List.nil_append] at htrim
    rw [valueBehind_of_ne htrim (by decide)] at h
    obtain rfl := Option.some.inj h
    refine absurd (mem_trim (by decide) ?_) hvalue
    rw [List.takeWhile_cons_of_pos (by decide)]
    exact List.mem_cons_self
  | cons c front =>
    rw [hfront, List.length_cons] at hdrop
    rw [hfront, List.cons_append] at htrim
    by_cases hc : c = '\"'
    · subst hc
      rw [valueBehind_quote htrim] at h
      obtain ⟨⟨before, after⟩, hsplit, rfl⟩ := Option.map_eq_some_iff.mp h
      have hlength := length_le_of_append_eq (splitOnce_eq hsplit).symm hvalue
      exact hlength.trans (by omega)
    · rw [valueBehind_of_ne htrim hc] at h
      obtain rfl := Option.some.inj h
      -- the token is a part of the text that has no equals sign
      generalize htake : (c :: (front ++ '=' :: u.rdropWhile isWhitespace)).takeWhile
        (· ∉ [',', ' ', '\r', '\n']) = token at hvalue
      have hparts := List.takeWhile_append_dropWhile (p := (· ∉ [',', ' ', '\r', '\n']))
        (l := c :: (front ++ '=' :: u.rdropWhile isWhitespace))
      rw [htake, ← List.cons_append] at hparts
      have hlength := length_le_of_append_eq hparts fun hmem => hvalue (mem_trim (by decide) hmem)
      rw [List.length_cons] at hlength
      exact (length_trim_le token).trans (hlength.trans hdrop)

/-- The letters of which the values are made that tell one place from another. -/
def letters (n : ℕ) : Str := List.replicate n 'x'

theorem isToken_letters {n : ℕ} (hn : 0 < n) : IsToken (letters n) := by
  refine ⟨List.ne_nil_of_length_pos (by rwa [letters, List.length_replicate]), ?_⟩
  rw [List.all_eq_true]
  intro c hc
  obtain rfl := List.eq_of_mem_replicate hc
  decide

theorem not_mem_letters {c : Char} (hc : c ≠ 'x') (n : ℕ) : c ∉ letters n :=
  fun hmem => hc (List.eq_of_mem_replicate hmem)

/-- What is left of letters behind some of their text. -/
theorem eq_letters_append {n : ℕ} {m s rest : Str} (h : letters n ++ rest = m ++ s)
    (hm : m.length ≤ n) : s = letters (n - m.length) ++ rest := by
  have hdrop := congrArg (List.drop m.length) h
  rw [List.drop_left, List.drop_append_of_le_length (by rwa [letters, List.length_replicate]),
    letters, List.drop_replicate] at hdrop
  exact hdrop.symm

/-- A quotation mark behind letters is part of the value. -/
theorem quote_mem_valueBehind {n : ℕ} (hn : 0 < n) {u value : Str}
    (h : valueBehind (letters n ++ '\"' :: u) = some value) : '\"' ∈ value := by
  have hplain : ∀ c ∈ letters n, isWhitespace c = false :=
    fun c hc => (isTokenChar_plain ((isToken_letters hn).isTokenChar hc)).1
  have htrim := trim_append_cons (letters n) u (c := '\"') (by decide)
  rw [dropWhile_eq_self hplain] at htrim
  obtain ⟨n, rfl⟩ : ∃ m, n = m + 1 := ⟨n - 1, by omega⟩
  rw [valueBehind_of_ne htrim (by decide)] at h
  obtain rfl := Option.some.inj h
  refine mem_trim (by decide) ?_
  have htake : (letters (n + 1) ++ '\"' :: u.rdropWhile isWhitespace).takeWhile
      (· ∉ [',', ' ', '\r', '\n']) =
      letters (n + 1) ++ ('\"' :: u.rdropWhile isWhitespace).takeWhile
        (· ∉ [',', ' ', '\r', '\n']) := by
    refine List.takeWhile_append_of_pos fun c hc => ?_
    obtain rfl := List.eq_of_mem_replicate hc
    decide
  have hmem : '\"' ∈ (letters (n + 1) ++ '\"' :: u.rdropWhile isWhitespace).takeWhile
      (· ∉ [',', ' ', '\r', '\n']) := by
    rw [htake, List.takeWhile_cons_of_pos (by decide)]
    exact List.mem_append_right _ List.mem_cons_self
  exact hmem

/-- Inside the value of a parameter another value is read. -/
theorem valueBehind_inside {m s rest : Str} {c : Char} {n : ℕ} {isQuoted : Bool}
    (h : (if isQuoted then quoted (letters n) else letters n) ++ rest = (c :: m) ++ s)
    (hm : m.length + 1 < n) (hrest : rest = [] ∨ ∃ u, rest = ',' :: u) :
    valueBehind s ≠ some (letters n) := by
  intro hvalue
  cases isQuoted with
  | true =>
    rw [if_pos rfl, quoted, List.cons_append, List.cons_append, List.append_assoc] at h
    obtain ⟨-, h⟩ := List.cons.inj h
    rw [eq_letters_append h (by omega)] at hvalue
    exact not_mem_letters (by decide) n (quote_mem_valueBehind (by omega) hvalue)
  | false =>
    rw [if_neg (by decide)] at h
    rw [eq_letters_append h (by rw [List.length_cons]; omega), List.length_cons,
      valueBehind_token (isToken_letters (by omega)) hrest] at hvalue
    have hcount := congrArg List.length (Option.some.inj hvalue)
    simp only [letters, List.length_replicate] at hcount
    omega

/-- **Another place** than that of the parameter has another value, if the value of the parameter is
made of enough letters. -/
theorem valueBehind_misplaced {w rest s : Str} {k n : ℕ} {isQuoted : Bool}
    (hk : k ≠ byteLength (w ++ ['='])) (hn : k + byteLength (w ++ ['=']) < n)
    (hdrop : dropBytes k ((w ++ ['=']) ++
      ((if isQuoted then quoted (letters n) else letters n) ++ rest)) = some s)
    (hrest : rest = [] ∨ ∃ u, rest = ',' :: u) : valueBehind s ≠ some (letters n) := by
  obtain ⟨d, heq, rfl⟩ := exists_of_dropBytes hdrop
  have hlength := length_le_byteLength d
  rcases List.append_eq_append_iff.mp heq with ⟨m, rfl, hm⟩ | ⟨m, hm, rfl⟩
  · -- the place is behind the equals sign of the parameter, but in front of the last letter
    cases m with
    | nil => exact absurd (by rw [List.append_nil]) hk
    | cons c m =>
      rw [List.length_append, List.length_cons] at hlength
      exact valueBehind_inside hm (by omega) hrest
  · -- the place is in front of it, and what is read there ends before it
    rcases List.eq_nil_or_concat m with rfl | ⟨m, c, rfl⟩
    · exact absurd (by rw [hm, List.append_nil]) hk
    · intro hvalue
      rw [List.concat_eq_append, ← List.append_assoc] at hm
      obtain ⟨rfl, hc⟩ := List.append_inj' hm rfl
      obtain rfl := List.singleton_inj.mp hc
      rw [List.concat_eq_append, List.append_assoc, List.singleton_append] at hvalue
      have hle := length_valueBehind_le hvalue (not_mem_letters (by decide) n)
      have hbytes := length_le_byteLength ((d ++ m) ++ ['='])
      simp only [letters, List.length_replicate] at hle
      simp only [List.length_append] at hbytes
      omega

/-! ## The place of a parameter -/

theorem Lowers.nil {toLowercase : Str → Str} (h : Lowers toLowercase) : toLowercase [] = [] :=
  h.ascii [] (by simp)

section

variable {env : Environment} (hlower : Lowers env.toLowercase) {name : Str} (hname : IsName name)

include hlower hname

theorem toLowercase_name : env.toLowercase name = name := by
  rw [hlower.ascii name fun c hc => isTokenChar_lt (hname.1.isTokenChar hc), hname.2]

theorem toLowercase_search : env.toLowercase (name ++ ['=']) = name ++ ['='] := by
  rw [hlower.apart name [] '=' (Or.inr rfl), toLowercase_name hlower hname, hlower.nil]

/-- The name of a parameter stands in the lower case text as it is. -/
theorem toLowercase_front (before : List AuthParam) (rest : Str) :
    env.toLowercase (front before ++ ((name ++ ['=']) ++ rest)) =
      env.toLowercase (front before) ++ ((name ++ ['=']) ++ env.toLowercase rest) := by
  obtain ⟨init, hinit⟩ := front_eq before
  have hblank : ∀ s, env.toLowercase (init ++ ' ' :: s) =
      env.toLowercase init ++ ' ' :: env.toLowercase s :=
    fun s => hlower.apart init s ' ' (Or.inl rfl)
  have hwhole : front before ++ ((name ++ ['=']) ++ rest) =
      (init ++ ' ' :: name) ++ '=' :: rest := by
    simp [hinit]
  rw [hwhole, hlower.apart _ rest '=' (Or.inr rfl), hblank, toLowercase_name hlower hname, hinit,
    hblank, hlower.nil]
  simp

/-- The first `name=` is found at the same place whatever the value and what is behind it. -/
theorem exists_place (before : List AuthParam) :
    ∃ b a, (∀ rest, splitOnce (name ++ ['='])
      (env.toLowercase (front before ++ ((name ++ ['=']) ++ rest))) =
        some (b, a ++ env.toLowercase rest)) ∧
      (Located env name before ↔ byteLength b = byteLength (front before)) := by
  have hne : name ++ ['='] ≠ [] := by simp
  obtain ⟨b, a, hsplit⟩ := splitOnce_append hne (env.toLowercase (front before))
  have hfirst : ∀ rest, splitOnce (name ++ ['='])
      (env.toLowercase (front before ++ ((name ++ ['=']) ++ rest))) =
        some (b, a ++ env.toLowercase rest) :=
    fun rest => by rw [toLowercase_front hlower hname, hsplit]
  have hlast := hfirst []
  rw [List.append_nil] at hlast
  refine ⟨b, a, hfirst, ?_, fun h => ⟨b, _, hlast, h⟩⟩
  rintro ⟨b', a', hfound, hbytes⟩
  rw [hlast] at hfound
  obtain ⟨rfl, -⟩ := Prod.mk.inj (Option.some.inj hfound)
  exact hbytes

end

/-- The value of a parameter is read behind its equals sign. -/
theorem AuthParam.valueBehind_valueText (p : AuthParam) (after : List AuthParam) :
    valueBehind (p.valueText ++ behind after) = some p.value := by
  have hvalue := p.is_value
  rw [AuthParam.valueText]
  split_ifs at hvalue ⊢ with hquoted
  · exact valueBehind_quoted hvalue _
  · exact valueBehind_token hvalue (behind_cases after)

/-- What is extracted from a challenge with a parameter of the name. -/
theorem extractAuthParam_challengeText {env : Environment} (hlower : Lowers env.toLowercase)
    {before : List AuthParam} {p : AuthParam} {b a : Str}
    (h : ∀ rest, splitOnce (p.name ++ ['='])
      (env.toLowercase (front before ++ ((p.name ++ ['=']) ++ rest))) =
        some (b, a ++ env.toLowercase rest)) (after : List AuthParam) :
    extractAuthParam env (challengeText (before ++ p :: after)) p.name =
      match dropBytes (byteLength b + byteLength (p.name ++ ['=']))
        (((front before ++ p.name) ++ ['=']) ++ (p.valueText ++ behind after)) with
      | none => .error .stopped
      | some s => .ok (valueBehind s) := by
  have hsplit : splitOnce (env.toLowercase (p.name ++ ['=']))
      (env.toLowercase (front before ++ ((p.name ++ ['=']) ++ (p.valueText ++ behind after)))) =
        some (b, a ++ env.toLowercase (p.valueText ++ behind after)) := by
    rw [toLowercase_search hlower p.is_name]
    exact h _
  rw [challengeText_eq, extractAuthParam_of_split hsplit]
  simp only [List.append_assoc]

/-- **A parameter that is located is read.** -/
theorem extractAuthParam_located {env : Environment} (hlower : Lowers env.toLowercase)
    {before : List AuthParam} {p : AuthParam} (h : Located env p.name before)
    (after : List AuthParam) :
    extractAuthParam env (challengeText (before ++ p :: after)) p.name = .ok (some p.value) := by
  obtain ⟨b, a, hsplit, hlocated⟩ := exists_place hlower p.is_name before
  rw [extractAuthParam_challengeText hlower hsplit, hlocated.mp h, ← byteLength_append,
    ← List.append_assoc, dropBytes_append]
  exact congrArg Except.ok (p.valueBehind_valueText after)

/-- A parameter with a value of letters. -/
def letterParam {name : Str} (hname : IsName name) (isQuoted : Bool) {n : ℕ} (hn : 0 < n) :
    AuthParam :=
  ⟨name, letters n, isQuoted, hname, by
    cases isQuoted with
    | true => exact not_mem_letters (by decide) n
    | false => exact isToken_letters hn⟩

/-- A parameter of which every value is read is located. -/
theorem located_of_forall {env : Environment} (hlower : Lowers env.toLowercase) {name : Str}
    (hname : IsName name) {before after : List AuthParam} {isQuoted : Bool}
    (h : ∀ p : AuthParam, p.name = name → p.isQuoted = isQuoted →
      extractAuthParam env (challengeText (before ++ p :: after)) name = .ok (some p.value)) :
    Located env name before := by
  obtain ⟨b, a, hsplit, hlocated⟩ := exists_place hlower hname before
  rw [hlocated]
  by_contra hbytes
  -- a value that is longer than everything in front of it
  obtain ⟨n, hn⟩ : ∃ n, byteLength b + byteLength (name ++ ['=']) +
      byteLength ((front before ++ name) ++ ['=']) < n := ⟨_, Nat.lt_succ_self _⟩
  let p := letterParam hname isQuoted (Nat.zero_lt_of_lt hn)
  have hread : extractAuthParam env (challengeText (before ++ p :: after)) name =
      .ok (some (letters n)) := h p rfl rfl
  have hextract := extractAuthParam_challengeText (p := p) hlower hsplit after
  have hmisplaced : byteLength b + byteLength (name ++ ['=']) ≠
      byteLength ((front before ++ name) ++ ['=']) := by
    rw [List.append_assoc, byteLength_append (front before)]
    omega
  cases hdrop : dropBytes (byteLength b + byteLength (p.name ++ ['=']))
      (((front before ++ p.name) ++ ['=']) ++ (p.valueText ++ behind after)) with
  | none =>
    have herror := hextract.symm.trans hread
    rw [hdrop] at herror
    cases herror
  | some s =>
    have hok := hextract.symm.trans hread
    rw [hdrop] at hok
    exact valueBehind_misplaced hmisplaced hn hdrop (behind_cases after) (Except.ok.inj hok)

/-- Nothing is read behind a quotation mark that is not closed, and only there. -/
theorem valueBehind_eq_none {s : Str} :
    valueBehind s = none ↔ ∃ inner, trim s = '\"' :: inner ∧ '\"' ∉ inner := by
  constructor
  · intro h
    cases htrim : trim s with
    | nil =>
      rw [valueBehind, htrim] at h
      cases h
    | cons c inner =>
      by_cases hc : c = '\"'
      · subst hc
        refine ⟨inner, rfl, fun hmem => ?_⟩
        obtain ⟨before, after, rfl, hbefore⟩ := List.eq_append_cons_of_mem hmem
        rw [valueBehind_quote htrim, splitOnce_char _ hbefore] at h
        cases h
      · rw [valueBehind_of_ne htrim hc] at h
        cases h
  · rintro ⟨inner, htrim, hinner⟩
    rw [valueBehind_quote htrim, splitOnce_char_none hinner]
    rfl

/-- What is not there is extracted from no text in which it is not absent. -/
theorem extractAuthParam_none_iff {env : Environment} (hlower : Lowers env.toLowercase)
    {name : Str} (hname : IsName name) (auth : Str) :
    extractAuthParam env auth name = .ok none ↔ Absent env name auth := by
  have hsearch := toLowercase_search hlower hname
  cases hsplit : splitOnce (name ++ ['=']) (env.toLowercase auth) with
  | none =>
    refine iff_of_true ?_ fun b a hfound => ?_
    · rw [extractAuthParam, hsearch, hsplit]
    · rw [hsplit] at hfound
      cases hfound
  | some found =>
    obtain ⟨b, a⟩ := found
    have hplace : splitOnce (env.toLowercase (name ++ ['='])) (env.toLowercase auth) =
        some (b, a) := by rw [hsearch, hsplit]
    have habsent : Absent env name auth ↔ ∃ s,
        dropBytes (byteLength b + byteLength (name ++ ['='])) auth = some s ∧
          valueBehind s = none := by
      simp only [Absent, hsplit, valueBehind_eq_none]
      constructor
      · intro h
        obtain ⟨s, inner, hdrop, hquote⟩ := h b a rfl
        exact ⟨s, hdrop, inner, hquote⟩
      · rintro ⟨s, hdrop, inner, hquote⟩ _ _ ⟨⟩
        exact ⟨s, inner, hdrop, hquote⟩
    rw [habsent, extractAuthParam_of_split hplace]
    cases dropBytes (byteLength b + byteLength (name ++ ['='])) auth with
    | none => simp
    | some s => simp

/-- **Parameters are extracted by their name** in two cases. A parameter that is there is read,
whatever its value, if and only if the first `name=` of the lower case text is its own, at the same
position in both texts. Where none is there, none is extracted if and only if the name is absent. -/
theorem extractAuthParam_iff {env : Environment} (hlower : Lowers env.toLowercase) {name : Str}
    (hname : IsName name) :
    (∀ (before after : List AuthParam) (isQuoted : Bool),
      (∀ p : AuthParam, p.name = name → p.isQuoted = isQuoted →
        extractAuthParam env (challengeText (before ++ p :: after)) name = .ok (some p.value)) ↔
        Located env name before) ∧
      ∀ params : List AuthParam,
        extractAuthParam env (challengeText params) name = .ok none ↔
          Absent env name (challengeText params) := by
  constructor
  · intro before after isQuoted
    refine ⟨located_of_forall hlower hname, ?_⟩
    rintro hlocated p rfl -
    exact extractAuthParam_located hlower hlocated after
  · exact fun params => extractAuthParam_none_iff hlower hname _

/-! ## Challenges in ASCII -/

theorem IsName.not_mem {name : Str} (h : IsName name) {c : Char}
    (hc : c ∈ ['\"', '=', ',', ' ', '\r', '\n']) : c ∉ name :=
  fun hmem => (isTokenChar_plain (h.1.isTokenChar hmem)).2 hc

theorem IsName.not_mem_search {name : Str} (h : IsName name) {c : Char}
    (hc : c ∈ ['\"', ',', ' ']) : c ∉ name ++ ['='] := by
  simp only [List.mem_cons, List.not_mem_nil, or_false] at hc
  rw [List.mem_append, List.mem_singleton, not_or]
  rcases hc with rfl | rfl | rfl <;> exact ⟨h.not_mem (by decide), by decide⟩

/-- In a value `name=` occurs between the quotation marks, if there are any. -/
theorem infix_valueText {name : Str} (hname : IsName name) (p : AuthParam) :
    name ++ ['='] <:+: asciiLower p.valueText ↔ name ++ ['='] <:+: asciiLower p.value := by
  rw [AuthParam.valueText]
  split_ifs
  · have hquoted : asciiLower (quoted p.value) =
        [] ++ '\"' :: (asciiLower p.value ++ '\"' :: []) := by
      simp [quoted, asciiLower]
    rw [hquoted, infix_append_cons (hname.not_mem_search (by decide)),
      infix_append_cons (hname.not_mem_search (by decide))]
    simp
  · rfl

theorem asciiLower_text (p : AuthParam) (rest : Str) :
    asciiLower (p.text ++ ", ".toList ++ rest) =
      p.name ++ '=' :: (asciiLower p.valueText ++ ',' :: ([] ++ ' ' :: asciiLower rest)) := by
  have hsep : asciiLower ", ".toList = [',', ' '] := by decide
  have hsign : asciiLower ('=' :: p.valueText) = '=' :: asciiLower p.valueText := rfl
  rw [asciiLower_append, asciiLower_append, hsep, AuthParam.text, asciiLower_append, hsign,
    p.is_name.2]
  simp only [List.append_assoc, List.cons_append, List.nil_append]

theorem asciiLower_front (before : List AuthParam) :
    asciiLower (front before) =
      "digest".toList ++ ' ' :: asciiLower (before.flatMap fun p => p.text ++ ", ".toList) := by
  have hscheme : asciiLower "Digest ".toList = "digest".toList ++ [' '] := by decide
  refine (asciiLower_append _ _).trans ?_
  rw [hscheme]
  exact List.append_assoc _ _ _

/-- In front of a parameter `name=` occurs at the end of a name, or in a value. -/
theorem infix_front {name : Str} (hname : IsName name) (before : List AuthParam) :
    name ++ ['='] <:+: asciiLower (front before) ↔
      ∃ p ∈ before, name <:+ p.name ∨ name ++ ['='] <:+: asciiLower p.value := by
  have hnot : ∀ s : Str, '=' ∉ s → ¬ name ++ ['='] <:+: s :=
    fun s hs hfound => hs (hfound.subset (List.mem_append_right name List.mem_cons_self))
  rw [asciiLower_front, infix_append_cons (hname.not_mem_search (by decide))]
  refine (or_iff_right (hnot _ (by decide))).trans ?_
  induction before with
  | nil => exact iff_of_false (hnot _ (by decide)) (by simp)
  | cons p before ih =>
    rw [List.flatMap_cons, asciiLower_text,
      infix_concat_append_cons (hname.not_mem (by decide)) (p.is_name.not_mem (by decide)),
      infix_append_cons (hname.not_mem_search (by decide)), infix_valueText hname,
      infix_append_cons (hname.not_mem_search (by decide)), ih]
    simp only [hnot [] (by decide), false_or, List.mem_cons, exists_eq_or_imp, or_assoc]

section

variable {env : Environment} (hlower : Lowers env.toLowercase) {name : Str} (hname : IsName name)

include hname

include hlower

/-- **In ASCII a parameter is located** if and only if no name in front of it ends with its name,
and no value in front of it contains the text `name=`. -/
theorem located_iff_of_ascii {before : List AuthParam}
    (hascii : ∀ c ∈ front before, c.toNat < 128) :
    Located env name before ↔
      ∀ p ∈ before, ¬ name <:+ p.name ∧ ¬ name ++ ['='] <:+: asciiLower p.value := by
  have hplain : Located env name before ↔ ¬ name ++ ['='] <:+: asciiLower (front before) := by
    have hlowered : ∀ c ∈ asciiLower (front before), c.toNat < 128 := by
      intro c hc
      obtain ⟨d, hd, rfl⟩ := List.mem_map.mp hc
      exact toLower_lt (hascii d hd)
    have hbytes : byteLength (front before) = (asciiLower (front before)).length := by
      rw [byteLength_of_ascii hascii, asciiLower, List.length_map]
    have hsearch : ∀ c ∈ name ++ ['='], c.toNat < 128 := by
      intro c hc
      rcases List.mem_append.mp hc with hc | hc
      · exact isTokenChar_lt (hname.1.isTokenChar hc)
      · obtain rfl := List.mem_singleton.mp hc
        decide
    obtain ⟨b, a, hsplit, hlocated⟩ := exists_place hlower hname before
    have hwhole := hsplit []
    rw [toLowercase_front hlower hname, hlower.ascii _ hascii, hlower.nil, List.append_nil,
      List.append_nil] at hwhole
    have hfound : ∀ c ∈ b, c.toNat < 128 := by
      intro c hc
      have hmem : c ∈ asciiLower (front before) ++ (name ++ ['=']) := by
        rw [splitOnce_eq hwhole]
        exact List.mem_append_left _ hc
      exact (List.mem_append.mp hmem).elim (hlowered c) (hsearch c)
    rw [hlocated, hbytes, byteLength_of_ascii hfound]
    exact length_splitOnce_concat (hname.not_mem (by decide)) hwhole
  rw [hplain, infix_front hname]
  simp only [not_exists, not_and, not_or]

/-- In ASCII a name is absent if no other name ends with it, and no value contains `name=`. -/
theorem absent_of_ascii {params : List AuthParam}
    (hascii : ∀ c ∈ challengeText params, c.toNat < 128)
    (h : ∀ p ∈ params, ¬ name <:+ p.name ∧ ¬ name ++ ['='] <:+: asciiLower p.value) :
    Absent env name (challengeText params) := by
  have hnot : ¬ name ++ ['='] <:+: asciiLower (challengeText params) := by
    intro hfound
    obtain ⟨p, hp, hoccurs⟩ := (infix_front hname params).mp
      (hfound.trans ((prefix_challengeText params).map Char.toLower).isInfix)
    exact hoccurs.elim (h p hp).1 (h p hp).2
  intro b a hsplit
  rw [hlower.ascii _ hascii, splitOnce_eq_none hnot] at hsplit
  cases hsplit

end

/-! ## A challenge with a name that ends with another one -/

theorem lowers_asciiLower : Lowers asciiLower := by
  refine ⟨fun _ _ => rfl, ?_⟩
  rintro a b c (rfl | rfl) <;> exact asciiLower_append a _

def realmParam : AuthParam :=
  ⟨"realm".toList, "IPCAM".toList, true, by decide, by decide⟩

def nonceParam : AuthParam :=
  ⟨"nonce".toList, "1f".toList, false, by decide, by decide⟩

def cnonceParam : AuthParam :=
  ⟨"cnonce".toList, "c0ffee".toList, true, by decide, by decide⟩

/-- The nonce behind a realm, and no quality of protection. -/
theorem extractAuthParam_iff_nonce :
    extractAuthParam (sampleEnvironment id) (challengeText [realmParam, nonceParam])
        "nonce".toList = .ok (some "1f".toList) ∧
      extractAuthParam (sampleEnvironment id) (challengeText [realmParam, nonceParam])
        "qop".toList = .ok none := by
  have hlower : Lowers (sampleEnvironment id).toLowercase := lowers_asciiLower
  have hqop : IsName "qop".toList := by decide
  constructor
  · refine ((extractAuthParam_iff hlower nonceParam.is_name).1 [realmParam] [] false).mpr ?_
      nonceParam rfl rfl
    refine (located_iff_of_ascii hlower nonceParam.is_name ?_).mpr (by decide)
    exact forall_of_all (by decide)
  · refine ((extractAuthParam_iff hlower hqop).2 [realmParam, nonceParam]).mpr ?_
    exact absent_of_ascii hlower hqop (forall_of_all (by decide)) (by decide)

/-- The nonce of the client is taken for that of the server. -/
theorem extractAuthParam_cnonce :
    ¬ ∀ params : List AuthParam, (params.map AuthParam.name).Nodup → ∀ p ∈ params,
      extractAuthParam (sampleEnvironment id) (challengeText params) p.name =
        .ok (some p.value) := by
  intro h
  have hread := h [cnonceParam, nonceParam] (by decide) nonceParam (by simp)
  revert hread
  decide

end RtspClient

end Fosipcore
