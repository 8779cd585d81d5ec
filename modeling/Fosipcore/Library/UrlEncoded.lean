import Fosipcore.Library.Authority
import Fosipcore.Library.Utf8

/-!
# Percent-encoding and form parameters

In a URL a percent sign and two hexadecimal digits stand for a byte. A query in the format of forms
is a list of names and values, with an ampersand between two pairs and an equals sign behind a name,
where a plus sign stands for a blank. Names and values that are put into a query as they are, are
read back if they have none of the characters that mean something there.

## Main definitions

* `percentDecode`, `decode`: the bytes and the text that a text stands for
* `query`, `parseForm`: the parameters of a URL
* `joinForm`: names and values as they are
* `Verbatim`: a text that stands for itself

## Main results

* `parseForm_joinForm_iff`: the names and values that are read back
* `percentDecode_append_cons`: texts on either side of a separator are decoded apart
-/

namespace Uri

open Text Ip

/-! ## Percent-encoding -/

/-- The byte of two hexadecimal digits. -/
def hexByte (a b : Char) : UInt8 :=
  .ofNat ((digitVal 16 a).getD 0 * 16 + (digitVal 16 b).getD 0)

/-- **The bytes that a text stands for**: an escape for its byte, and another character for its
encoding. -/
def percentDecode : Str → List UInt8
  | [] => []
  | c :: s =>
    if c = '%' then
      match s with
      | a :: b :: s =>
        if isHexDigit a && isHexDigit b then hexByte a b :: percentDecode s
        else encodeChar c ++ percentDecode (a :: b :: s)
      | s => encodeChar c ++ percentDecode s
    else encodeChar c ++ percentDecode s

/-- The text that a text stands for, if the bytes are those of one. -/
def decode (s : Str) : Option Str := decodeUtf8 (percentDecode s)

/-! ## Forms -/

/-- The query of a URL: what follows the question mark, up to the fragment. -/
def query (url : Str) : Str :=
  ((splitOnce ['?'] (url.takeWhile (· ≠ '#'))).map Prod.snd).getD []

/-- A plus sign stands for a blank. -/
def plusToBlank (c : Char) : Char := if c = '+' then ' ' else c

/-- The text of a name or a value. -/
def decodePart (s : Str) : Str := fromUtf8Lossy (percentDecode (s.map plusToBlank))

/-- The parts around the first equals sign; without one, there is a name only. -/
def parsePair (s : Str) : Str × Str :=
  match splitOnce ['='] s with
  | some (name, value) => (decodePart name, decodePart value)
  | none => (decodePart s, [])

/-- **The parameters of a query**; an empty part is none. -/
def parseForm (s : Str) : List (Str × Str) :=
  ((s.splitOnP (· = '&')).filter (· ≠ [])).map parsePair

/-- Names and values as they are. -/
def joinForm (pairs : List (Str × Str)) : Str :=
  ['&'].intercalate (pairs.map fun p => p.1 ++ '=' :: p.2)

/-- A percent sign and two hexadecimal digits occur. -/
def hasEscape : Str → Bool
  | [] => false
  | c :: s =>
    (match s with
      | a :: b :: _ => c = '%' && isHexDigit a && isHexDigit b
      | _ => false) || hasEscape s

/-- **A text that stands for itself** in a query. -/
def Verbatim (s : Str) : Prop :=
  '&' ∉ s ∧ '#' ∉ s ∧ '+' ∉ s ∧ hasEscape s = false

instance (s : Str) : Decidable (Verbatim s) := inferInstanceAs (Decidable (_ ∧ _))

/-! ## Decoding -/

/-- An escape at the front of a text. -/
def IsEscape (s : Str) : Prop :=
  ∃ a b t, s = '%' :: a :: b :: t ∧ isHexDigit a = true ∧ isHexDigit b = true

theorem percentDecode_escape {a b : Char} (ha : isHexDigit a = true) (hb : isHexDigit b = true)
    (s : Str) : percentDecode ('%' :: a :: b :: s) = hexByte a b :: percentDecode s := by
  rw [percentDecode.eq_def]
  dsimp only
  rw [if_pos rfl, if_pos (by rw [ha, hb]; rfl)]

theorem percentDecode_cons {c : Char} {s : Str} (h : ¬ IsEscape (c :: s)) :
    percentDecode (c :: s) = encodeChar c ++ percentDecode s := by
  rw [percentDecode.eq_def]
  dsimp only
  split_ifs with hc
  · subst hc
    split
    · next a b t =>
      have hnot : ¬ (isHexDigit a && isHexDigit b) = true := by
        intro hhex
        rw [Bool.and_eq_true] at hhex
        exact h ⟨a, b, t, rfl, hhex.1, hhex.2⟩
      exact if_neg hnot
    · rfl
  · rfl

theorem not_isEscape_of_ne {c : Char} (h : c ≠ '%') (s : Str) : ¬ IsEscape (c :: s) := by
  rintro ⟨a, b, t, heq, -⟩
  exact h (List.cons.inj heq).1

theorem hasEscape_cons (c : Char) (s : Str) :
    hasEscape (c :: s) = true ↔ IsEscape (c :: s) ∨ hasEscape s = true := by
  rw [hasEscape.eq_def]
  dsimp only
  rw [Bool.or_eq_true]
  refine or_congr_left ?_
  constructor
  · intro h
    split at h
    · next a b t =>
      simp only [Bool.and_eq_true, decide_eq_true_eq] at h
      exact ⟨a, b, t, by rw [h.1.1], h.1.2, h.2⟩
    · cases h
  · rintro ⟨a, b, t, heq, ha, hb⟩
    obtain ⟨rfl, rfl⟩ := List.cons.inj heq
    simp only [ha, hb, decide_true, Bool.and_true]

/-- **A text without escapes** stands for its own encoding. -/
theorem percentDecode_eq {s : Str} (h : hasEscape s = false) : percentDecode s = encodeUtf8 s := by
  induction s with
  | nil => rfl
  | cons c s ih =>
    rw [← Bool.not_eq_true, hasEscape_cons, not_or, Bool.not_eq_true] at h
    rw [percentDecode_cons h.1, ih h.2]
    rfl

/-- **Texts on either side of a separator** are decoded apart. -/
theorem percentDecode_append_cons {c : Char} (hc : c ≠ '%') (hhex : isHexDigit c = false)
    (a b : Str) :
    percentDecode (a ++ c :: b) = percentDecode a ++ encodeChar c ++ percentDecode b := by
  induction hn : a.length using Nat.strong_induction_on generalizing a with
  | _ n ih =>
    cases a with
    | nil => exact percentDecode_cons (not_isEscape_of_ne hc b)
    | cons d a =>
      rw [List.length_cons] at hn
      by_cases hescape : IsEscape (d :: a)
      · obtain ⟨x, y, t, heq, hx, hy⟩ := hescape
        obtain ⟨rfl, rfl⟩ := List.cons.inj heq
        simp only [List.length_cons] at hn
        simp only [List.cons_append]
        rw [percentDecode_escape hx hy, percentDecode_escape hx hy, ih t.length (by omega) t rfl]
        simp only [List.cons_append]
      · -- the separator is no part of an escape
        have hnot : ¬ IsEscape (d :: (a ++ c :: b)) := by
          rintro ⟨x, y, t, heq, hx, hy⟩
          obtain ⟨rfl, htail⟩ := List.cons.inj heq
          rcases a with _ | ⟨x', _ | ⟨y', a⟩⟩
          · obtain ⟨rfl, -⟩ := List.cons.inj htail
            rw [hhex] at hx
            cases hx
          · obtain ⟨-, hsecond⟩ := List.cons.inj htail
            obtain ⟨rfl, -⟩ := List.cons.inj hsecond
            rw [hhex] at hy
            cases hy
          · obtain ⟨hfirst, hsecond⟩ := List.cons.inj htail
            obtain ⟨hsecond, -⟩ := List.cons.inj hsecond
            exact hescape ⟨x', y', a, rfl, hfirst ▸ hx, hsecond ▸ hy⟩
        rw [List.cons_append, percentDecode_cons hnot, percentDecode_cons hescape,
          ih a.length (by omega) a rfl]
        simp only [List.append_assoc]

/-! ## Names and values -/

theorem isHexDigit_plusToBlank (c : Char) : isHexDigit (plusToBlank c) = isHexDigit c := by
  rw [plusToBlank]
  split_ifs with hc
  · rw [hc]
    decide
  · rfl

theorem plusToBlank_of_ne {c : Char} (h : c ≠ '+') : plusToBlank c = c := if_neg h

theorem isEscape_of_map {s : Str} (h : IsEscape (s.map plusToBlank)) : IsEscape s := by
  obtain ⟨a, b, t, heq, ha, hb⟩ := h
  rcases s with _ | ⟨c, _ | ⟨x, _ | ⟨y, s⟩⟩⟩
  · simp at heq
  · simp at heq
  · simp at heq
  · simp only [List.map_cons, List.cons.injEq] at heq
    obtain ⟨hc, rfl, rfl, -⟩ := heq
    rw [isHexDigit_plusToBlank] at ha hb
    have hplus : c ≠ '+' := by
      rintro rfl
      exact absurd hc (by decide)
    rw [plusToBlank_of_ne hplus] at hc
    exact ⟨x, y, s, by rw [hc], ha, hb⟩

theorem decodePart_plus (s : Str) : decodePart ('+' :: s) = ' ' :: decodePart s := by
  have hnot : ¬ IsEscape (plusToBlank '+' :: s.map plusToBlank) :=
    not_isEscape_of_ne (by decide) _
  rw [decodePart, List.map_cons, percentDecode_cons hnot,
    (encodes_encodeChar _).fromUtf8Lossy_append]
  rfl

theorem decodePart_cons {c : Char} {s : Str} (hc : c ≠ '+') (h : ¬ IsEscape (c :: s)) :
    decodePart (c :: s) = c :: decodePart s := by
  have hnot : ¬ IsEscape (c :: s.map plusToBlank) := by
    rw [← plusToBlank_of_ne hc, ← List.map_cons]
    exact fun hmap => h (isEscape_of_map hmap)
  rw [decodePart, List.map_cons, plusToBlank_of_ne hc, percentDecode_cons hnot,
    (encodes_encodeChar c).fromUtf8Lossy_append]
  rfl

/-- An escape stands for one byte, and so for one character at most. -/
theorem length_decodePart_escape {a b : Char} (ha : isHexDigit a = true)
    (hb : isHexDigit b = true) (s : Str) :
    (decodePart ('%' :: a :: b :: s)).length ≤ (decodePart s).length + 1 := by
  rw [← isHexDigit_plusToBlank] at ha hb
  rw [decodePart, List.map_cons, List.map_cons, List.map_cons, plusToBlank_of_ne (by decide),
    percentDecode_escape ha hb]
  exact length_fromUtf8Lossy_cons _ _

/-- What a text stands for is not longer. -/
theorem length_decodePart_le (s : Str) : (decodePart s).length ≤ s.length := by
  induction hn : s.length using Nat.strong_induction_on generalizing s with
  | _ n ih =>
    cases s with
    | nil => exact Nat.zero_le n
    | cons c s =>
      rw [List.length_cons] at hn
      have hrest := ih s.length (by omega) s rfl
      by_cases hplus : c = '+'
      · rw [hplus, decodePart_plus, List.length_cons]
        omega
      · by_cases hescape : IsEscape (c :: s)
        · obtain ⟨a, b, t, heq, ha, hb⟩ := hescape
          obtain ⟨rfl, rfl⟩ := List.cons.inj heq
          have hle := length_decodePart_escape ha hb t
          simp only [List.length_cons] at hn
          have hrest' := ih t.length (by omega) t rfl
          omega
        · rw [decodePart_cons hplus hescape, List.length_cons]
          omega

/-- **What stands for itself** has no plus sign and no escape. -/
theorem decodePart_eq_iff (s : Str) : decodePart s = s ↔ '+' ∉ s ∧ hasEscape s = false := by
  induction s with
  | nil => exact iff_of_true rfl ⟨List.not_mem_nil, rfl⟩
  | cons c s ih =>
    rw [← Bool.not_eq_true, hasEscape_cons, not_or, List.mem_cons, not_or, Bool.not_eq_true]
    by_cases hplus : '+' = c
    · subst hplus
      refine iff_of_false ?_ fun h => h.1.1 rfl
      rw [decodePart_plus]
      exact fun heq => absurd (List.cons.inj heq).1 (by decide)
    · by_cases hescape : IsEscape (c :: s)
      · refine iff_of_false ?_ fun h => h.2.1 hescape
        obtain ⟨a, b, t, heq, ha, hb⟩ := hescape
        obtain ⟨rfl, rfl⟩ := List.cons.inj heq
        intro hsame
        have hle := length_decodePart_escape ha hb t
        have hrest := length_decodePart_le t
        rw [hsame] at hle
        simp only [List.length_cons] at hle
        omega
      · rw [decodePart_cons (Ne.symm hplus) hescape, List.cons.injEq, and_iff_right rfl, ih]
        simp only [hplus, hescape, not_false_eq_true, true_and]

/-! ## Pairs -/

theorem parsePair_equals {name : Str} (h : '=' ∉ name) (value : Str) :
    parsePair (name ++ '=' :: value) = (decodePart name, decodePart value) := by
  rw [parsePair, splitOnce_char value h]

theorem parsePair_bare {s : Str} (h : '=' ∉ s) : parsePair s = (decodePart s, []) := by
  rw [parsePair, splitOnce_char_none h]

theorem parseForm_ampersand (s : Str) : parseForm ('&' :: s) = parseForm s := by
  rw [parseForm, List.splitOnP_cons_eq_if_modifyHead, if_pos (by decide),
    List.filter_cons_of_neg (by decide),
    parseForm]

theorem splitOnP_ampersand {s : Str} (h : '&' ∉ s) : s.splitOnP (· = '&') = [s] := by
  refine List.splitOnP_eq_singleton fun c hc => decide_eq_false ?_
  rintro rfl
  exact h hc

theorem parseForm_single {s : Str} (hne : s ≠ []) (h : '&' ∉ s) :
    parseForm s = [parsePair s] := by
  rw [parseForm, splitOnP_ampersand h, List.filter_cons_of_pos (by simpa using hne)]
  rfl

theorem parseForm_append {s : Str} (hne : s ≠ []) (h : '&' ∉ s) (rest : Str) :
    parseForm (s ++ '&' :: rest) = parsePair s :: parseForm rest := by
  rw [parseForm, List.splitOnP_append_cons _ rest (by decide), splitOnP_ampersand h,
    List.singleton_append, List.filter_cons_of_pos (by simpa using hne), List.map_cons, parseForm]

/-- The first parameter of a query is that of what stands in front of the first ampersand. -/
theorem parseForm_part {s rest : Str} (hne : s ≠ []) (h : '&' ∉ s)
    (hrest : rest = [] ∨ ∃ more, rest = '&' :: more) :
    parseForm (s ++ rest) = parsePair s :: parseForm rest := by
  rcases hrest with rfl | ⟨more, rfl⟩
  · rw [List.append_nil, parseForm_single hne h]
    rfl
  · rw [parseForm_append hne h, parseForm_ampersand]

/-! ## Names and values as they are -/

/-- What is left of a query in front of a fragment. -/
def upToHash (s : Str) : Str := s.takeWhile (· ≠ '#')

theorem upToHash_append {a : Str} (h : '#' ∉ a) (b : Str) : upToHash (a ++ b) = a ++ upToHash b := by
  refine List.takeWhile_append_of_pos fun c hc => decide_eq_true ?_
  rintro rfl
  exact h hc

theorem upToHash_hash (s : Str) : upToHash ('#' :: s) = [] := rfl

/-- The part of a text in front of the first character that ends a name. -/
theorem exists_special {s : Str} (chars : List Char) (h : ∃ c ∈ s, c ∈ chars) :
    ∃ a c b, s = a ++ c :: b ∧ c ∈ chars ∧ ∀ d ∈ chars, d ∉ a := by
  induction s with
  | nil => obtain ⟨c, hc, -⟩ := h; cases hc
  | cons d s ih =>
    by_cases hd : d ∈ chars
    · exact ⟨[], d, s, rfl, hd, fun _ _ => List.not_mem_nil⟩
    · obtain ⟨c, hc, hmem⟩ := h
      have hcs : c ∈ s := by
        rcases List.mem_cons.mp hc with rfl | hc
        · exact absurd hmem hd
        · exact hc
      obtain ⟨a, e, b, rfl, he, ha⟩ := ih ⟨c, hcs, hmem⟩
      refine ⟨d :: a, e, b, rfl, he, fun x hx => ?_⟩
      rw [List.mem_cons, not_or]
      exact ⟨fun heq => hd (heq ▸ hx), ha x hx⟩

/-- What is left of a query behind a value. -/
def fromAmpersand (s : Str) : Str := s.dropWhile (· ≠ '&')

def upToAmpersand (s : Str) : Str := s.takeWhile (· ≠ '&')

theorem ampersand_not_mem_upTo (s : Str) : '&' ∉ upToAmpersand s :=
  fun h => absurd (List.mem_takeWhile_imp h) (by decide)

theorem upToAmpersand_append {a : Str} (h : '&' ∉ a) (b : Str) :
    upToAmpersand (a ++ b) = a ++ upToAmpersand b := by
  refine List.takeWhile_append_of_pos fun c hc => decide_eq_true ?_
  rintro rfl
  exact h hc

theorem fromAmpersand_append {a : Str} (h : '&' ∉ a) (b : Str) :
    fromAmpersand (a ++ b) = fromAmpersand b := by
  refine List.dropWhile_append_of_pos fun c hc => decide_eq_true ?_
  rintro rfl
  exact h hc

theorem fromAmpersand_cases (s : Str) :
    fromAmpersand s = [] ∨ ∃ more, fromAmpersand s = '&' :: more := by
  induction s with
  | nil => exact Or.inl rfl
  | cons c s ih =>
    by_cases hc : c = '&'
    · exact Or.inr ⟨s, by rw [hc]; rfl⟩
    · rwa [fromAmpersand, List.dropWhile_cons_of_pos (by simpa using hc)]

/-- **The first pair of a query**, with a name up to the equals sign and a value up to the
ampersand. -/
theorem parseForm_pair {name : Str} (hamp : '&' ∉ name) (hequals : '=' ∉ name) (x : Str) :
    parseForm (name ++ '=' :: x) =
      (decodePart name, decodePart (upToAmpersand x)) :: parseForm (fromAmpersand x) := by
  have hsplit : name ++ '=' :: x = (name ++ '=' :: upToAmpersand x) ++ fromAmpersand x := by
    rw [List.append_assoc, List.cons_append, upToAmpersand, fromAmpersand,
      List.takeWhile_append_dropWhile]
  have hfree : '&' ∉ name ++ '=' :: upToAmpersand x := by
    simp only [List.mem_append, List.mem_cons, not_or]
    exact ⟨hamp, by decide, ampersand_not_mem_upTo x⟩
  rw [hsplit, parseForm_part (by simp) hfree (fromAmpersand_cases x), parsePair_equals hequals]

/-- **The first name that is read** is shorter than the one that was put there, if this has a
character that ends it. -/
theorem first_name {s u name value : Str} {pairs : List (Str × Str)}
    (h : parseForm (upToHash (s ++ '=' :: u)) = (name, value) :: pairs) :
    name.length < s.length ∨ ∀ c ∈ ['&', '#', '='], c ∉ s := by
  induction hn : s.length using Nat.strong_induction_on generalizing s with
  | _ n ih =>
    by_cases hspecial : ∃ c ∈ s, c ∈ ['&', '#', '=']
    · obtain ⟨a, c, b, rfl, hc, ha⟩ := exists_special _ hspecial
      have hamp : '&' ∉ a := ha _ (by decide)
      have hequals : '=' ∉ a := ha _ (by decide)
      simp only [List.length_append, List.length_cons] at hn
      -- a name that ends where the first of these characters is
      have hshort : ∀ {value' : Str} {pairs' : List (Str × Str)},
          (decodePart a, value') :: pairs' = (name, value) :: pairs → name.length < n := by
        intro value' pairs' h
        obtain ⟨hfirst, -⟩ := List.cons.inj h
        have hle := length_decodePart_le a
        rw [(Prod.mk.inj hfirst).1] at hle
        omega
      rw [List.append_assoc, List.cons_append, upToHash_append (ha _ (by decide))] at h
      simp only [List.mem_cons, List.not_mem_nil, or_false] at hc
      refine Or.inl ?_
      rcases hc with rfl | rfl | rfl
      · -- the name ends with the ampersand, or begins behind it
        have hbehind : upToHash ('&' :: (b ++ '=' :: u)) = '&' :: upToHash (b ++ '=' :: u) := rfl
        rw [hbehind] at h
        cases a with
        | nil =>
          rw [List.nil_append, parseForm_ampersand] at h
          rw [List.length_nil] at hn
          rcases ih b.length (by omega) h rfl with hlt | hfree
          · omega
          · rw [upToHash_append (hfree _ (by decide))] at h
            have hpair :=
              parseForm_pair (hfree '&' (by decide)) (hfree '=' (by decide)) (upToHash u)
            obtain ⟨hfirst, -⟩ := List.cons.inj (h.symm.trans hpair)
            have hle := length_decodePart_le b
            rw [← (Prod.mk.inj hfirst).1] at hle
            omega
        | cons d a =>
          rw [parseForm_append (List.cons_ne_nil d a) hamp, parsePair_bare hequals] at h
          exact hshort h
      · -- the query ends with the fragment
        rw [upToHash_hash, List.append_nil] at h
        cases a with
        | nil => cases h
        | cons d a =>
          rw [parseForm_single (List.cons_ne_nil d a) hamp, parsePair_bare hequals] at h
          exact hshort h
      · have hbehind : upToHash ('=' :: (b ++ '=' :: u)) = '=' :: upToHash (b ++ '=' :: u) := rfl
        rw [hbehind, parseForm_pair hamp hequals] at h
        exact hshort h
    · exact Or.inr fun c hc hmem => hspecial ⟨c, hmem, hc⟩

/-- **The first value that is read** is shorter than the one that was put there, if this has a
character that ends it. -/
theorem first_value (s : Str) {tail : Str} (htail : tail = [] ∨ ∃ more, tail = '&' :: more) :
    (upToAmpersand (upToHash (s ++ tail))).length < s.length ∨
      ('&' ∉ s ∧ '#' ∉ s ∧ upToAmpersand (upToHash (s ++ tail)) = s) := by
  by_cases hspecial : ∃ c ∈ s, c ∈ ['&', '#']
  · obtain ⟨a, c, b, rfl, hc, ha⟩ := exists_special _ hspecial
    have hvalue : upToAmpersand (upToHash ((a ++ c :: b) ++ tail)) = a := by
      rw [List.append_assoc, List.cons_append, upToHash_append (ha _ (by decide)),
        upToAmpersand_append (ha _ (by decide))]
      simp only [List.mem_cons, List.not_mem_nil, or_false] at hc
      rcases hc with rfl | rfl <;> exact List.append_nil a
    rw [hvalue]
    left
    simp only [List.length_append, List.length_cons]
    omega
  · have hfree : ∀ c ∈ ['&', '#'], c ∉ s := fun c hc hmem => hspecial ⟨c, hmem, hc⟩
    have hamp : '&' ∉ s := hfree _ (by decide)
    have hhash : '#' ∉ s := hfree _ (by decide)
    refine Or.inr ⟨hamp, hhash, ?_⟩
    rw [upToHash_append hhash, upToAmpersand_append hamp]
    rcases htail with rfl | ⟨more, rfl⟩ <;> exact List.append_nil s

/-- What follows the first pair. -/
def joinMore (pairs : List (Str × Str)) : Str := if pairs = [] then [] else '&' :: joinForm pairs

theorem joinForm_cons (p : Str × Str) (pairs : List (Str × Str)) :
    joinForm (p :: pairs) = p.1 ++ '=' :: (p.2 ++ joinMore pairs) := by
  cases pairs with
  | nil => simp [joinForm, joinMore]
  | cons q pairs =>
    rw [joinMore, if_neg (List.cons_ne_nil q pairs), joinForm, List.map_cons, List.map_cons,
      List.intercalate_cons_cons, joinForm, List.map_cons]
    simp only [List.append_assoc, List.cons_append, List.nil_append]

theorem joinMore_cases (pairs : List (Str × Str)) :
    joinMore pairs = [] ∨ ∃ more, joinMore pairs = '&' :: more := by
  unfold joinMore
  split_ifs
  · exact Or.inl rfl
  · exact Or.inr ⟨_, rfl⟩

/-- The names and values that stand for themselves. -/
def VerbatimPair (p : Str × Str) : Prop := Verbatim p.1 ∧ '=' ∉ p.1 ∧ Verbatim p.2

instance (p : Str × Str) : Decidable (VerbatimPair p) := inferInstanceAs (Decidable (_ ∧ _))

/-- A pair in front of others is read, and then these are. -/
theorem parseForm_joinForm_cons {p : Str × Str} (hname : ∀ c ∈ ['&', '#', '='], c ∉ p.1)
    (hvalue : ∀ c ∈ ['&', '#'], c ∉ p.2) (pairs : List (Str × Str)) :
    parseForm (upToHash (joinForm (p :: pairs))) =
      (decodePart p.1, decodePart p.2) :: parseForm (upToHash (joinForm pairs)) := by
  have hamp : '&' ∉ p.2 := hvalue _ (by decide)
  have hrest : parseForm (fromAmpersand (upToHash (joinMore pairs))) =
      parseForm (upToHash (joinForm pairs)) := by
    unfold joinMore
    split_ifs with hnil
    · rw [hnil]
      rfl
    · exact parseForm_ampersand _
  have hmore : upToAmpersand (upToHash (joinMore pairs)) = [] := by
    rcases joinMore_cases pairs with hmore | ⟨more, hmore⟩ <;> rw [hmore] <;> rfl
  have hsign : upToHash ('=' :: (p.2 ++ joinMore pairs)) = '=' :: upToHash (p.2 ++ joinMore pairs) :=
    rfl
  rw [joinForm_cons, upToHash_append (hname _ (by decide)), hsign,
    parseForm_pair (hname _ (by decide)) (hname _ (by decide)),
    upToHash_append (hvalue _ (by decide)), upToAmpersand_append hamp, fromAmpersand_append hamp,
    hrest, hmore, List.append_nil]

theorem VerbatimPair.parseForm_joinForm_cons {p : Str × Str} (h : VerbatimPair p)
    (pairs : List (Str × Str)) :
    parseForm (upToHash (joinForm (p :: pairs))) = p :: parseForm (upToHash (joinForm pairs)) := by
  obtain ⟨⟨hamp, hhash, hplus, hescape⟩, hequals, ⟨hamp', hhash', hplus', hescape'⟩⟩ := h
  have hname : ∀ c ∈ ['&', '#', '='], c ∉ p.1 := by
    simp only [List.forall_mem_cons]
    exact ⟨hamp, hhash, hequals, by simp⟩
  have hvalue : ∀ c ∈ ['&', '#'], c ∉ p.2 := by
    simp only [List.forall_mem_cons]
    exact ⟨hamp', hhash', by simp⟩
  rw [Uri.parseForm_joinForm_cons hname hvalue, (decodePart_eq_iff p.1).mpr ⟨hplus, hescape⟩,
    (decodePart_eq_iff p.2).mpr ⟨hplus', hescape'⟩]

/-- If the first pair is read back, then it stands for itself. -/
theorem verbatim_of_parseForm {p : Str × Str} {pairs rest : List (Str × Str)}
    (h : parseForm (upToHash (joinForm (p :: pairs))) = p :: rest) : VerbatimPair p := by
  rw [joinForm_cons] at h
  have hfree := (first_name h).resolve_left (lt_irrefl _)
  have hhash : '#' ∉ p.1 := hfree _ (by decide)
  have hsign : upToHash ('=' :: (p.2 ++ joinMore pairs)) = '=' :: upToHash (p.2 ++ joinMore pairs) :=
    rfl
  rw [upToHash_append hhash, hsign,
    parseForm_pair (hfree _ (by decide)) (hfree _ (by decide))] at h
  obtain ⟨hfirst, -⟩ := List.cons.inj h
  obtain ⟨hname, hvalue⟩ := Prod.mk.inj hfirst
  have hle := length_decodePart_le (upToAmpersand (upToHash (p.2 ++ joinMore pairs)))
  rw [hvalue] at hle
  obtain ⟨hamp', hhash', hsame⟩ :=
    (first_value p.2 (joinMore_cases pairs)).resolve_left (Nat.not_lt.mpr hle)
  rw [hsame] at hvalue
  obtain ⟨hplus, hescape⟩ := (decodePart_eq_iff p.1).mp hname
  obtain ⟨hplus', hescape'⟩ := (decodePart_eq_iff p.2).mp hvalue
  exact ⟨⟨hfree _ (by decide), hhash, hplus, hescape⟩, hfree _ (by decide), hamp', hhash', hplus',
    hescape'⟩

/-- **The names and values that are read back** are those that stand for themselves. -/
theorem parseForm_joinForm_iff (pairs : List (Str × Str)) :
    parseForm (upToHash (joinForm pairs)) = pairs ↔ ∀ p ∈ pairs, VerbatimPair p := by
  induction pairs with
  | nil => exact iff_of_true rfl (by simp)
  | cons p pairs ih =>
    rw [List.forall_mem_cons, ← ih]
    constructor
    · intro h
      have hp := verbatim_of_parseForm h
      rw [hp.parseForm_joinForm_cons] at h
      exact ⟨hp, (List.cons.inj h).2⟩
    · rintro ⟨hp, hpairs⟩
      rw [hp.parseForm_joinForm_cons, hpairs]

/-- The query of a URL is behind its question mark. -/
theorem query_eq {front : Str} (hquestion : '?' ∉ front) (hhash : '#' ∉ front) (s : Str) :
    query (front ++ '?' :: s) = upToHash s := by
  have hcut : (front ++ '?' :: s).takeWhile (· ≠ '#') = front ++ '?' :: upToHash s :=
    upToHash_append hhash ('?' :: s)
  rw [query, hcut, splitOnce_char _ hquestion]
  rfl

end Uri
