import Mathlib.Data.List.DropRight
import Mathlib.Tactic.SplitIfs

/-!
# Strings as lists of characters

The string functions of a systems language, on lists of Unicode scalar values: trimming and
splitting, prefixes and suffixes, ASCII case, and the parsing of unsigned decimal numbers.

## Main definitions

* `isWhitespace`, `trim`: the Unicode `White_Space` property, and what it surrounds
* `splitOnce`, `rsplitOnce`: the parts around the first or last separator
* `stripPrefix`, `stripSuffix`, `asciiLower`: prefixes, suffixes and ASCII case
* `parseUnsigned`, `numeral`: a decimal number with an upper bound, and the text of one
* `lines`, `splitWhitespace`: the lines and the words of a text
* `byteLength`, `dropBytes`: positions that are counted in bytes
* `decodeUtf8`: the text of a sequence of bytes

## Main results

* `trim_trim`, `asciiLower_asciiLower`, `trim_asciiLower`: how trimming and lowering compose
* `splitOnce_char`, `rsplitOnce_char`: a text is split at the character that joins its parts
* `dropBytes_append`, `exists_of_dropBytes`: what is in front of a position in bytes
* `lines_crlf`, `lines_lf`: the first line of a text
* `parseUnsigned_numeral`: a number is parsed from its numeral
-/

namespace Text

/-- A string. -/
abbrev Str := List Char

/-- The Unicode property `White_Space`. -/
def isWhitespace (c : Char) : Bool :=
  let n := c.toNat
  (9 ≤ n && n ≤ 13) || n == 0x20 || n == 0x85 || n == 0xA0 || n == 0x1680 ||
    (0x2000 ≤ n && n ≤ 0x200A) || n == 0x2028 || n == 0x2029 || n == 0x202F || n == 0x205F ||
    n == 0x3000

/-- Remove the white space on either side. -/
def trim (s : Str) : Str := (s.dropWhile isWhitespace).rdropWhile isWhitespace

/-- The parts before and after the first occurrence of a separator. -/
def splitOnce (sep : Str) : Str → Option (Str × Str)
  | [] => if sep = [] then some ([], []) else none
  | c :: s =>
    if sep.isPrefixOf (c :: s) then some ([], (c :: s).drop sep.length)
    else (splitOnce sep s).map fun (before, after) => (c :: before, after)

/-- The parts before and after the last occurrence of a character. -/
def rsplitOnce (sep : Char) (s : Str) : Option (Str × Str) :=
  (splitOnce [sep] s.reverse).map fun (after, before) => (before.reverse, after.reverse)

/-- What comes behind a prefix. -/
def stripPrefix (pre s : Str) : Option Str :=
  if pre.isPrefixOf s then some (s.drop pre.length) else none

/-- What comes in front of a suffix. -/
def stripSuffix (suf s : Str) : Option Str :=
  if suf.isSuffixOf s then some (s.take (s.length - suf.length)) else none

/-- ASCII letters in lower case, other characters as they are. -/
def asciiLower (s : Str) : Str := s.map Char.toLower

/-- The number of a string of decimal digits. -/
def decimal (s : Str) : ℕ := s.foldl (fun n c => n * 10 + (c.toNat - '0'.toNat)) 0

/-- Parse an unsigned decimal number of at most `max`: digits behind an optional plus sign. -/
def parseUnsigned (max : ℕ) (s : Str) : Option ℕ :=
  let digits := match s with
    | '+' :: digits => digits
    | _ => s
  if digits ≠ [] ∧ digits.all Char.isDigit ∧ decimal digits ≤ max then some (decimal digits)
  else none

/-- The decimal numeral of a number. -/
def numeral (n : ℕ) : Str := Nat.toDigits 10 n

/-- The lines of a text, without their line feed, or carriage return and line feed. -/
def linesLoop : Str → Str → List Str
  | [], [] => []
  | cur, [] => [cur.reverse]
  | cur, '\n' :: s => ((match cur with | '\r' :: cur => cur | _ => cur).reverse) :: linesLoop [] s
  | cur, c :: s => linesLoop (c :: cur) s

def lines (s : Str) : List Str := linesLoop [] s

/-- The words of a text. -/
def splitWhitespace (s : Str) : List Str := (s.splitOnP isWhitespace).filter (· ≠ [])

/-- The length of the UTF-8 encoding of a string. -/
def byteLength (s : Str) : ℕ := s.foldl (fun n c => n + c.utf8Size) 0

/-- What comes behind a number of bytes, if they end between two characters. -/
def dropBytes : ℕ → Str → Option Str
  | 0, s => some s
  | _ + 1, [] => none
  | n + 1, c :: s => if c.utf8Size ≤ n + 1 then dropBytes (n + 1 - c.utf8Size) s else none

/-- A property of every character of a text can be decided, character by character. -/
theorem forall_of_all {P : Char → Prop} [DecidablePred P] {s : Str}
    (h : s.all (fun c => decide (P c)) = true) : ∀ c ∈ s, P c := by
  simpa using h

/-! ## Trimming and lowering -/

theorem trim_trim (s : Str) : trim (trim s) = trim s := by
  have hhead : (trim s).dropWhile isWhitespace = trim s := by
    rw [List.dropWhile_eq_self_iff]
    intro hl
    -- what is left after trimming the end begins where the string does
    have hpre : trim s <+: s.dropWhile isWhitespace := List.rdropWhile_prefix isWhitespace _
    have hne : s.dropWhile isWhitespace ≠ [] := hpre.ne_nil (List.ne_nil_of_length_pos hl)
    have hnot := List.head_dropWhile_not isWhitespace hne
    rw [List.head_eq_getElem] at hnot
    rw [hpre.getElem hl, hnot]
    exact Bool.false_ne_true
  rw [trim, hhead, trim, List.rdropWhile_idempotent]

theorem toLower_of_upper {c : Char} (h : c.val ≥ 'A'.val ∧ c.val ≤ 'Z'.val) :
    c.toLower.val = c.val + ('a'.val - 'A'.val) :=
  congrArg Char.val (dif_pos h)

theorem toLower_of_not_upper {c : Char} (h : ¬ (c.val ≥ 'A'.val ∧ c.val ≤ 'Z'.val)) :
    c.toLower = c :=
  dif_neg h

/-- The code of the lower case of a capital letter. -/
theorem toLower_toNat {c : Char} (h : c.val ≥ 'A'.val ∧ c.val ≤ 'Z'.val) :
    65 ≤ c.val.toNat ∧ c.val.toNat ≤ 90 ∧ c.toLower.val.toNat = c.val.toNat + 32 := by
  have hlow : 65 ≤ c.val.toNat := h.1
  have hhigh : c.val.toNat ≤ 90 := h.2
  have hshift : ('a'.val - 'A'.val).toNat = 32 := rfl
  refine ⟨hlow, hhigh, ?_⟩
  rw [toLower_of_upper h, UInt32.toNat_add, hshift]
  exact Nat.mod_eq_of_lt (by omega)

theorem isWhitespace_toLower (c : Char) : isWhitespace c.toLower = isWhitespace c := by
  by_cases h : c.val ≥ 'A'.val ∧ c.val ≤ 'Z'.val
  · -- neither a capital letter nor its lower case is white space
    obtain ⟨hlow, hhigh, hval⟩ := toLower_toNat h
    simp only [isWhitespace, Char.toNat, hval]
    grind
  · rw [toLower_of_not_upper h]

theorem toLower_toLower (c : Char) : c.toLower.toLower = c.toLower := by
  by_cases h : c.val ≥ 'A'.val ∧ c.val ≤ 'Z'.val
  · obtain ⟨hlow, hhigh, hval⟩ := toLower_toNat h
    apply toLower_of_not_upper
    rintro ⟨-, hle⟩
    have hle' : c.toLower.val.toNat ≤ 90 := hle
    omega
  · rw [toLower_of_not_upper h, toLower_of_not_upper h]

theorem asciiLower_asciiLower (s : Str) : asciiLower (asciiLower s) = asciiLower s := by
  rw [asciiLower, asciiLower, List.map_map]
  exact List.map_congr_left fun c _ => toLower_toLower c

/-- Trimming does not see the case of letters. -/
theorem asciiLower_append (a b : Str) : asciiLower (a ++ b) = asciiLower a ++ asciiLower b :=
  List.map_append

theorem toLower_lt {c : Char} (h : c.toNat < 128) : c.toLower.toNat < 128 := by
  by_cases hupper : c.val ≥ 'A'.val ∧ c.val ≤ 'Z'.val
  · obtain ⟨-, hhigh, hval⟩ := toLower_toNat hupper
    rw [Char.toNat, hval]
    omega
  · rwa [toLower_of_not_upper hupper]

theorem trim_asciiLower (s : Str) : trim (asciiLower s) = asciiLower (trim s) := by
  have hws : isWhitespace ∘ Char.toLower = isWhitespace := funext isWhitespace_toLower
  simp only [trim, asciiLower, List.rdropWhile, List.dropWhile_map, hws, ← List.map_reverse]

/-- Nothing is left of white space alone. -/
theorem trim_eq_nil_iff {s : Str} : trim s = [] ↔ ∀ c ∈ s, isWhitespace c = true := by
  constructor
  · intro h
    rw [trim, List.rdropWhile_eq_nil_iff] at h
    rw [← List.dropWhile_eq_nil_iff]
    by_contra hne
    have hnot := List.head_dropWhile_not isWhitespace hne
    rw [h _ (List.head_mem hne)] at hnot
    cases hnot
  · intro h
    rw [trim, List.dropWhile_eq_nil_iff.mpr h, List.rdropWhile_nil]

theorem dropWhile_eq_self {s : Str} (h : ∀ c ∈ s, isWhitespace c = false) :
    s.dropWhile isWhitespace = s := by
  cases s with
  | nil => rfl
  | cons c s => exact List.dropWhile_cons_of_neg (by simp [h c List.mem_cons_self])

theorem trim_dropWhile (s : Str) : trim (s.dropWhile isWhitespace) = trim s := by
  rw [trim, List.dropWhile_idempotent, trim]

/-- White space is not trimmed in front of a character that is none. -/
theorem rdropWhile_append {s : Str} (h : ∀ c ∈ s, isWhitespace c = false) (t : Str) :
    (s ++ t).rdropWhile isWhitespace = s ++ t.rdropWhile isWhitespace := by
  induction t using List.reverseRecOn with
  | nil =>
    rw [List.append_nil, List.rdropWhile_nil, List.append_nil, List.rdropWhile_eq_self_iff]
    intro hs
    rw [h _ (List.getLast_mem hs)]
    exact Bool.false_ne_true
  | append_singleton t c ih =>
    rw [← List.append_assoc]
    cases hc : isWhitespace c with
    | true => rw [List.rdropWhile_concat_pos _ _ _ hc, ih, List.rdropWhile_concat_pos _ _ _ hc]
    | false =>
      rw [List.rdropWhile_concat_neg _ _ _ (by simp [hc]),
        List.rdropWhile_concat_neg _ _ _ (by simp [hc]), List.append_assoc]

/-- A text without white space stays as it is. -/
theorem trim_eq_self {s : Str} (h : ∀ c ∈ s, isWhitespace c = false) : trim s = s := by
  rw [trim, dropWhile_eq_self h, List.rdropWhile, dropWhile_eq_self (by simpa using h),
    List.reverse_reverse]

/-- Trimming ends at a character that is no white space, from either side. -/
theorem trim_append_cons {c : Char} (a b : Str) (hc : isWhitespace c = false) :
    trim (a ++ c :: b) = a.dropWhile isWhitespace ++ c :: b.rdropWhile isWhitespace := by
  have hfront : (a ++ c :: b).dropWhile isWhitespace = a.dropWhile isWhitespace ++ c :: b := by
    induction a with
    | nil => rw [List.nil_append, List.dropWhile_cons_of_neg (by simp [hc])]; rfl
    | cons d a ih =>
      cases hd : isWhitespace d with
      | true =>
        rw [List.cons_append, List.dropWhile_cons_of_pos hd, List.dropWhile_cons_of_pos hd, ih]
      | false =>
        rw [List.cons_append, List.dropWhile_cons_of_neg (by simp [hd]),
          List.dropWhile_cons_of_neg (by simp [hd]), List.cons_append]
  rw [trim, hfront]
  clear hfront
  generalize a.dropWhile isWhitespace = front
  induction b using List.reverseRecOn with
  | nil => rw [List.rdropWhile_concat_neg _ _ _ (by simp [hc]), List.rdropWhile_nil]
  | append_singleton b e ih =>
    have hsplit : front ++ c :: (b ++ [e]) = front ++ c :: b ++ [e] := by simp
    rw [hsplit]
    cases he : isWhitespace e with
    | true => rw [List.rdropWhile_concat_pos _ _ _ he, ih, List.rdropWhile_concat_pos _ _ _ he]
    | false =>
      rw [List.rdropWhile_concat_neg _ _ _ (by simp [he]),
        List.rdropWhile_concat_neg _ _ _ (by simp [he]), hsplit]

/-- Between two characters that are no white space nothing is trimmed. -/
theorem trim_cons_append {c d : Char} (a b : Str) (hc : isWhitespace c = false)
    (hd : isWhitespace d = false) :
    trim (c :: (a ++ d :: b)) = c :: (a ++ d :: b.rdropWhile isWhitespace) := by
  rw [← List.cons_append, trim_append_cons (c :: a) b hd,
    List.dropWhile_cons_of_neg (by simp [hc]), List.cons_append]

theorem length_trim_le (s : Str) : (trim s).length ≤ s.length :=
  (List.rdropWhile_prefix _ _).length_le.trans (List.dropWhile_suffix _).length_le

/-- A character that is no white space is not trimmed. -/
theorem mem_trim {c : Char} {s : Str} (hc : isWhitespace c = false) (h : c ∈ s) : c ∈ trim s := by
  obtain ⟨a, b, rfl⟩ := List.append_of_mem h
  rw [trim_append_cons a b hc]
  exact List.mem_append_right _ List.mem_cons_self

/-! ## Splitting -/

/-- The parts of a text that is split are joined by the separator. -/
theorem splitOnce_eq {sep s before after : Str} (h : splitOnce sep s = some (before, after)) :
    s = before ++ (sep ++ after) := by
  induction s generalizing before with
  | nil =>
    rw [splitOnce] at h
    split_ifs at h with hsep
    obtain ⟨rfl, rfl⟩ := Prod.mk.inj (Option.some.inj h)
    rw [hsep]
    rfl
  | cons c s ih =>
    rw [splitOnce] at h
    split_ifs at h with hprefix
    · obtain ⟨rfl, rfl⟩ := Prod.mk.inj (Option.some.inj h)
      obtain ⟨rest, hrest⟩ := List.isPrefixOf_iff_prefix.mp hprefix
      rw [← hrest, List.drop_left, List.nil_append]
    · obtain ⟨⟨front, back⟩, hsplit, heq⟩ := Option.map_eq_some_iff.mp h
      obtain ⟨rfl, rfl⟩ := Prod.mk.inj heq
      rw [ih hsplit, List.cons_append]

/-- A text is split at the first of a character. -/
theorem splitOnce_char {c : Char} {before : Str} (after : Str) (h : c ∉ before) :
    splitOnce [c] (before ++ c :: after) = some (before, after) := by
  induction before with
  | nil => simp [splitOnce]
  | cons d before ih =>
    rw [List.mem_cons, not_or] at h
    rw [List.cons_append, splitOnce, if_neg (by simp [h.1]), ih h.2]
    rfl

theorem splitOnce_char_none {c : Char} {s : Str} (h : c ∉ s) : splitOnce [c] s = none := by
  induction s with
  | nil => rfl
  | cons d s ih =>
    rw [List.mem_cons, not_or] at h
    rw [splitOnce, if_neg (by simp [h.1]), ih h.2]
    rfl

/-- A part that lacks a character ends in front of it. -/
theorem length_le_of_append_eq {a x b y : Str} {c : Char} (h : a ++ x = b ++ c :: y)
    (hc : c ∉ a) : a.length ≤ b.length := by
  rcases List.append_eq_append_iff.mp h with ⟨m, rfl, -⟩ | ⟨m, rfl, hm⟩
  · rw [List.length_append]
    exact Nat.le_add_right _ _
  · cases m with
    | nil => rw [List.append_nil]
    | cons d m =>
      obtain ⟨rfl, -⟩ := List.cons.inj hm
      exact absurd (List.mem_append_right b List.mem_cons_self) hc

/-- Of two occurrences of a character, the one with none in front of it is the first. -/
theorem append_cons_cases {c : Char} {a b u v : Str} (h : a ++ c :: b = u ++ c :: v)
    (ha : c ∉ a) : (u = a ∧ v = b) ∨ ∃ w, u = a ++ c :: w ∧ b = w ++ c :: v := by
  rcases List.append_eq_append_iff.mp h with ⟨m, rfl, hm⟩ | ⟨m, rfl, hm⟩
  · cases m with
    | nil => exact Or.inl ⟨List.append_nil a, (List.cons.inj hm).2.symm⟩
    | cons d m =>
      obtain ⟨rfl, rfl⟩ := List.cons.inj hm
      exact Or.inr ⟨m, rfl, rfl⟩
  · cases m with
    | nil => exact Or.inl ⟨(List.append_nil u).symm, (List.cons.inj hm).2⟩
    | cons d m =>
      obtain ⟨rfl, -⟩ := List.cons.inj hm
      exact absurd (List.mem_append_right u List.mem_cons_self) ha

/-- A text with a separator in it is split at the same place whatever stands behind the separator. -/
theorem splitOnce_append {sep : Str} (hsep : sep ≠ []) (s : Str) :
    ∃ before after, ∀ rest, splitOnce sep (s ++ (sep ++ rest)) = some (before, after ++ rest) := by
  induction s with
  | nil =>
    refine ⟨[], [], fun rest => ?_⟩
    obtain ⟨c, tail, rfl⟩ := List.exists_cons_of_ne_nil hsep
    have hprefix : (c :: tail).isPrefixOf (c :: (tail ++ rest)) = true :=
      List.isPrefixOf_iff_prefix.mpr ⟨rest, rfl⟩
    rw [List.nil_append, List.cons_append, splitOnce, if_pos hprefix, ← List.cons_append,
      List.drop_left, List.nil_append]
  | cons c s ih =>
    by_cases h : sep <+: c :: (s ++ sep)
    · refine ⟨[], (c :: (s ++ sep)).drop sep.length, fun rest => ?_⟩
      have hlong : c :: (s ++ (sep ++ rest)) = (c :: (s ++ sep)) ++ rest := by simp
      rw [List.cons_append, hlong, List.cons_append, splitOnce, ← List.cons_append,
        if_pos (List.isPrefixOf_iff_prefix.mpr (h.trans (List.prefix_append _ rest))),
        List.drop_append_of_le_length h.length_le]
    · obtain ⟨before, after, hsplit⟩ := ih
      refine ⟨c :: before, after, fun rest => ?_⟩
      have hnot : ¬ sep.isPrefixOf (c :: (s ++ (sep ++ rest))) = true := by
        rw [List.isPrefixOf_iff_prefix]
        intro hlong
        refine h (List.prefix_of_prefix_length_le hlong ⟨rest, by simp⟩ ?_)
        simp only [List.length_cons, List.length_append]
        omega
      rw [List.cons_append, splitOnce, if_neg hnot, hsplit rest]
      rfl

/-- What stands behind the first separator does not matter for where it is. -/
theorem splitOnce_behind {sep before after : Str} (hsep : sep ≠ [])
    (h : splitOnce sep (before ++ (sep ++ after)) = some (before, after)) (rest : Str) :
    splitOnce sep (before ++ (sep ++ rest)) = some (before, rest) := by
  obtain ⟨b, a, hsplit⟩ := splitOnce_append hsep before
  obtain ⟨rfl, ha⟩ := Prod.mk.inj (Option.some.inj (h.symm.trans (hsplit after)))
  obtain rfl : a = [] := List.append_left_eq_self.mp ha.symm
  exact hsplit rest

/-- A text is split at the first separator. -/
theorem length_splitOnce_le {sep s before after x y : Str}
    (h : splitOnce sep s = some (before, after)) (hs : s = x ++ (sep ++ y)) :
    before.length ≤ x.length := by
  induction s generalizing before x with
  | nil =>
    rw [splitOnce] at h
    split_ifs at h
    obtain ⟨rfl, -⟩ := Prod.mk.inj (Option.some.inj h)
    exact Nat.zero_le _
  | cons c s ih =>
    rw [splitOnce] at h
    split_ifs at h with hprefix
    · obtain ⟨rfl, -⟩ := Prod.mk.inj (Option.some.inj h)
      exact Nat.zero_le _
    · obtain ⟨⟨front, back⟩, hsplit, heq⟩ := Option.map_eq_some_iff.mp h
      obtain ⟨rfl, rfl⟩ := Prod.mk.inj heq
      cases x with
      | nil => exact absurd (List.isPrefixOf_iff_prefix.mpr ⟨y, hs.symm⟩) hprefix
      | cons d x =>
        obtain ⟨rfl, rfl⟩ := List.cons.inj hs
        exact Nat.succ_le_succ (ih hsplit rfl)

/-- A text is not split if the separator does not occur in it. -/
theorem splitOnce_eq_none {sep s : Str} (h : ¬ sep <:+: s) : splitOnce sep s = none := by
  cases hsplit : splitOnce sep s with
  | none => rfl
  | some parts =>
    refine absurd ⟨parts.1, parts.2, ?_⟩ h
    rw [List.append_assoc]
    exact (splitOnce_eq hsplit).symm

/-- A text occurs on one side of a character that it lacks. -/
theorem infix_append_cons {c : Char} {s a b : Str} (h : c ∉ s) :
    s <:+: a ++ c :: b ↔ s <:+: a ∨ s <:+: b := by
  constructor
  · rintro ⟨x, y, heq⟩
    rcases List.append_eq_append_iff.mp heq with ⟨m, rfl, -⟩ | ⟨m, hx, hm⟩
    · exact Or.inl ⟨x, m, rfl⟩
    · cases m with
      | nil =>
        rw [List.append_nil] at hx
        exact Or.inl ⟨x, [], by rw [List.append_nil, hx]⟩
      | cons d m =>
        obtain ⟨rfl, rfl⟩ := List.cons.inj hm
        rcases List.append_eq_append_iff.mp hx with ⟨k, rfl, rfl⟩ | ⟨k, rfl, hk⟩
        · exact absurd (List.mem_append_right k List.mem_cons_self) h
        · cases k with
          | nil =>
            rw [List.nil_append] at hk
            exact absurd (hk ▸ List.mem_cons_self) h
          | cons e k =>
            obtain ⟨rfl, rfl⟩ := List.cons.inj hk
            exact Or.inr ⟨k, y, rfl⟩
  · rintro (⟨x, y, rfl⟩ | ⟨x, y, rfl⟩)
    · exact ⟨x, y ++ c :: b, by simp⟩
    · exact ⟨a ++ c :: x, y, by simp⟩

/-- A text that ends with the only one of a character occurs up to the first of them, or behind it. -/
theorem infix_concat_append_cons {c : Char} {s a b : Str} (hs : c ∉ s) (ha : c ∉ a) :
    s ++ [c] <:+: a ++ c :: b ↔ s <:+ a ∨ s ++ [c] <:+: b := by
  constructor
  · rintro ⟨x, y, heq⟩
    have heq' : a ++ c :: b = (x ++ s) ++ c :: y := by simp [← heq]
    rcases List.append_eq_append_iff.mp heq' with ⟨k, hk, hb⟩ | ⟨k, rfl, hk⟩
    · cases k with
      | nil =>
        rw [List.append_nil] at hk
        exact Or.inl ⟨x, hk⟩
      | cons d k =>
        obtain ⟨rfl, rfl⟩ := List.cons.inj hb
        rcases List.append_eq_append_iff.mp hk with ⟨m, rfl, rfl⟩ | ⟨m, rfl, hm⟩
        · exact absurd (List.mem_append_right m List.mem_cons_self) hs
        · cases m with
          | nil =>
            rw [List.nil_append] at hm
            exact absurd (hm ▸ List.mem_cons_self) hs
          | cons e m =>
            obtain ⟨rfl, rfl⟩ := List.cons.inj hm
            exact Or.inr ⟨m, y, by simp⟩
    · cases k with
      | nil => exact Or.inl ⟨x, (List.append_nil _).symm⟩
      | cons d k =>
        obtain ⟨rfl, -⟩ := List.cons.inj hk
        exact absurd (List.mem_append_right _ List.mem_cons_self) ha
  · rintro (⟨x, rfl⟩ | ⟨x, y, rfl⟩)
    · exact ⟨x, b, by simp⟩
    · exact ⟨a ++ c :: x, y, by simp⟩

/-- A separator that ends with the only one of a character is found where it was put, unless it occurs
in front of that. -/
theorem length_splitOnce_concat {c : Char} {s t before after : Str} (hc : c ∉ s)
    (h : splitOnce (s ++ [c]) (t ++ (s ++ [c])) = some (before, after)) :
    before.length = t.length ↔ ¬ s ++ [c] <:+: t := by
  constructor
  · rintro hlength ⟨x, y, rfl⟩
    have hle := length_splitOnce_le (x := x) (y := y ++ (s ++ [c])) h (by simp)
    simp only [List.length_append, List.length_singleton] at hlength
    omega
  · intro hnot
    have heq : (t ++ s) ++ c :: [] = (before ++ s) ++ c :: after := by
      simpa using splitOnce_eq h
    rcases List.append_eq_append_iff.mp heq with ⟨k, hk, hafter⟩ | ⟨k, hk, hafter⟩
    · have hlength := congrArg List.length hk
      have hrest := congrArg List.length hafter
      simp only [List.length_append, List.length_cons, List.length_nil] at hlength hrest
      omega
    · cases k with
      | nil =>
        rw [List.append_nil] at hk
        rw [List.append_cancel_right hk]
      | cons d k =>
        obtain ⟨rfl, -⟩ := List.cons.inj hafter
        rcases List.append_eq_append_iff.mp hk with ⟨m, -, rfl⟩ | ⟨m, rfl, hm⟩
        · exact absurd (List.mem_append_right m List.mem_cons_self) hc
        · cases m with
          | nil =>
            rw [List.nil_append] at hm
            exact absurd (hm ▸ List.mem_cons_self) hc
          | cons e m =>
            obtain ⟨rfl, -⟩ := List.cons.inj hm
            exact absurd ⟨before, m, by simp⟩ hnot

/-- The last occurrence of a character. -/
theorem exists_last_of_mem {c : Char} {s : Str} (h : c ∈ s) : ∃ a b, s = a ++ c :: b ∧ c ∉ b := by
  obtain ⟨b, a, heq, hb⟩ := List.eq_append_cons_of_mem (List.mem_reverse.mpr h)
  refine ⟨a.reverse, b.reverse, ?_, fun hmem => hb (List.mem_reverse.mp hmem)⟩
  rw [← List.reverse_reverse s, heq]
  simp

/-- What stands in front of a character stands in front of the last one. -/
theorem prefix_of_last {c : Char} {a b u v : Str} (h : a ++ c :: b = u ++ c :: v) (hb : c ∉ b) :
    u <+: a := by
  rcases List.append_eq_append_iff.mp h with ⟨m, rfl, hm⟩ | ⟨m, rfl, -⟩
  · cases m with
    | nil => simp
    | cons d m =>
      obtain ⟨-, rfl⟩ := List.cons.inj hm
      exact absurd (List.mem_append_right m List.mem_cons_self) hb
  · exact List.prefix_append u m

/-- A text is split at the last of a character. -/
theorem rsplitOnce_char {c : Char} (before : Str) {after : Str} (h : c ∉ after) :
    rsplitOnce c (before ++ c :: after) = some (before, after) := by
  have hreverse : (before ++ c :: after).reverse = after.reverse ++ c :: before.reverse := by simp
  rw [rsplitOnce, hreverse, splitOnce_char _ (by simpa using h)]
  simp

theorem rsplitOnce_char_none {c : Char} {s : Str} (h : c ∉ s) : rsplitOnce c s = none := by
  rw [rsplitOnce, splitOnce_char_none (by simpa using h)]
  rfl

/-! ## Joining -/

/-- The parts in front of one of them, and those behind it. -/
theorem intercalate_append_cons (sep y : Str) (xs ys : List Str) :
    sep.intercalate (xs ++ y :: ys) =
      xs.flatMap (· ++ sep) ++ (y ++ ys.flatMap (sep ++ ·)) := by
  induction xs with
  | nil =>
    induction ys generalizing y with
    | nil => simp
    | cons z ys ih =>
      have hz := ih z
      rw [List.nil_append] at hz
      rw [List.nil_append, List.intercalate_cons_cons, hz]
      simp only [List.flatMap_nil, List.nil_append, List.flatMap_cons, List.append_assoc]
  | cons x xs ih =>
    rw [List.cons_append, List.intercalate_cons_of_ne_nil (by simp), ih]
    simp only [List.flatMap_cons, List.append_assoc]

/-! ## Positions in bytes -/

theorem byteLength_cons (c : Char) (s : Str) :
    byteLength (c :: s) = c.utf8Size + byteLength s := by
  have hshift : ∀ (t : Str) (k : ℕ),
      t.foldl (fun n c => n + c.utf8Size) k = k + byteLength t := by
    intro t
    induction t with
    | nil => exact fun _ => rfl
    | cons d t ih =>
      intro k
      rw [byteLength, List.foldl_cons, List.foldl_cons, ih, ih]
      omega
  rw [byteLength, List.foldl_cons, hshift, Nat.zero_add]

theorem byteLength_append (a b : Str) : byteLength (a ++ b) = byteLength a + byteLength b := by
  induction a with
  | nil => exact (Nat.zero_add _).symm
  | cons c a ih => rw [List.cons_append, byteLength_cons, byteLength_cons, ih, Nat.add_assoc]

theorem length_le_byteLength (s : Str) : s.length ≤ byteLength s := by
  induction s with
  | nil => exact Nat.zero_le _
  | cons c s ih =>
    have hpos := c.utf8Size_pos
    rw [List.length_cons, byteLength_cons]
    omega

theorem utf8Size_of_ascii {c : Char} (h : c.toNat < 128) : c.utf8Size = 1 :=
  Char.utf8Size_eq_one_iff.mpr (UInt32.le_iff_toNat_le.mpr (Nat.le_of_lt_succ h))

theorem byteLength_of_ascii {s : Str} (h : ∀ c ∈ s, c.toNat < 128) : byteLength s = s.length := by
  induction s with
  | nil => rfl
  | cons c s ih =>
    have hsize := utf8Size_of_ascii (h c List.mem_cons_self)
    rw [byteLength_cons, hsize, ih fun d hd => h d (List.mem_cons_of_mem c hd), List.length_cons,
      Nat.add_comm]

/-- What is in front is dropped by the number of its bytes. -/
theorem dropBytes_append (a b : Str) : dropBytes (byteLength a) (a ++ b) = some b := by
  induction a with
  | nil =>
    rw [List.nil_append]
    exact dropBytes.eq_1 b
  | cons c a ih =>
    obtain ⟨n, hn⟩ : ∃ n, byteLength (c :: a) = n + 1 :=
      ⟨_, (Nat.succ_pred_eq_of_pos ((length_le_byteLength (c :: a)).trans_lt' (by simp))).symm⟩
    have hsize := byteLength_cons c a
    have hrest : n + 1 - c.utf8Size = byteLength a := by omega
    rw [hn, List.cons_append, dropBytes, if_pos (by omega), hrest, ih]

/-- What is dropped by a number of bytes has that many. -/
theorem exists_of_dropBytes {n : ℕ} {s t : Str} (h : dropBytes n s = some t) :
    ∃ a, s = a ++ t ∧ byteLength a = n := by
  fun_induction dropBytes n s with
  | case1 s =>
    obtain rfl := Option.some.inj h
    exact ⟨[], rfl, rfl⟩
  | case2 => cases h
  | case3 n c s hsize ih =>
    obtain ⟨a, rfl, ha⟩ := ih h
    exact ⟨c :: a, rfl, by rw [byteLength_cons, ha]; omega⟩
  | case4 => cases h

/-! ## Lines -/

theorem linesLoop_char {c : Char} (h : c ≠ '\n') (cur s : Str) :
    linesLoop cur (c :: s) = linesLoop (c :: cur) s := linesLoop.eq_5 _ _ _ h

/-- Characters of a line are gathered. -/
theorem linesLoop_append {content : Str} (h : '\n' ∉ content) (cur s : Str) :
    linesLoop cur (content ++ s) = linesLoop (content.reverse ++ cur) s := by
  induction content generalizing cur with
  | nil => rfl
  | cons c content ih =>
    rw [List.mem_cons, not_or] at h
    rw [List.cons_append, linesLoop_char (Ne.symm h.1), ih h.2, List.reverse_cons,
      List.append_assoc]
    rfl

/-- A line that ends with a carriage return and a line feed. -/
theorem lines_crlf {content : Str} (h : '\n' ∉ content) (rest : Str) :
    lines (content ++ '\r' :: '\n' :: rest) = content :: lines rest := by
  rw [lines, linesLoop_append h, List.append_nil, linesLoop_char (by decide), linesLoop.eq_3,
    List.reverse_reverse]
  rfl

/-- A line that ends with a line feed alone. -/
theorem lines_lf {content : Str} (h : '\n' ∉ content) (hreturn : '\r' ∉ content) (rest : Str) :
    lines (content ++ '\n' :: rest) = content :: lines rest := by
  have hline : ∀ cur, content.reverse = '\r' :: cur → False := fun cur heq =>
    hreturn (List.mem_reverse.mp (heq ▸ List.mem_cons_self))
  rw [lines, linesLoop_append h, List.append_nil, linesLoop.eq_4 _ _ hline, List.reverse_reverse]
  rfl

/-! ## Numerals -/

theorem isDigit_of_mem_numeral {n : ℕ} {c : Char} (h : c ∈ numeral n) : c.isDigit = true :=
  Nat.isDigit_of_mem_toDigits (by decide) (by decide) h

theorem decimal_numeral (n : ℕ) : decimal (numeral n) = n :=
  calc decimal (numeral n) = Nat.ofDigitChars 10 (numeral n) 0 := by
        rw [decimal, Nat.ofDigitChars_eq_foldl]
        simp only [Nat.mul_comm]
    _ = n := Nat.ofDigitChars_ten_toDigits

theorem digitChar_digit {c : Char} (h : c.isDigit = true) :
    c.toNat - '0'.toNat < 10 ∧ Nat.digitChar (c.toNat - '0'.toNat) = c := by
  simp only [Char.isDigit, Bool.and_eq_true, decide_eq_true_eq] at h
  have hlow : 48 ≤ c.toNat := h.1
  have hhigh : c.toNat ≤ 57 := h.2
  have hzero : '0'.toNat = 48 := rfl
  have hlt : c.toNat - '0'.toNat < 10 := by omega
  refine ⟨hlt, Char.toNat_inj.mp ?_⟩
  rw [Nat.toNat_digitChar_of_lt_ten hlt]
  omega

/-- Digits behind the numeral of a number that is not zero. -/
theorem toDigits_append_digits {digits : Str} (h : ∀ c ∈ digits, c.isDigit = true) {n : ℕ}
    (hn : 0 < n) : Nat.toDigits 10 n ++ digits =
      Nat.toDigits 10 (digits.foldl (fun n c => n * 10 + (c.toNat - '0'.toNat)) n) := by
  induction digits generalizing n with
  | nil => rw [List.append_nil, List.foldl_nil]
  | cons c digits ih =>
    obtain ⟨hlt, hchar⟩ := digitChar_digit (h c List.mem_cons_self)
    have hpos : 0 < n * 10 + (c.toNat - '0'.toNat) := by omega
    have hsnoc := Nat.toDigits_append_toDigits (b := 10) (by decide) hn hlt
    rw [Nat.toDigits_of_lt_base hlt, hchar, Nat.mul_comm] at hsnoc
    rw [List.foldl_cons, ← ih (fun d hd => h d (List.mem_cons_of_mem c hd)) hpos, List.append_cons,
      hsnoc]

/-- **Digits are the numeral of their number**, if they do not begin with a zero that they could do
without. -/
theorem numeral_decimal {digits : Str} (hne : digits ≠ []) (h : ∀ c ∈ digits, c.isDigit = true)
    (hzero : digits.head? = some '0' → digits.length = 1) : numeral (decimal digits) = digits := by
  obtain ⟨c, tail, rfl⟩ := List.exists_cons_of_ne_nil hne
  obtain ⟨hlt, hchar⟩ := digitChar_digit (h c List.mem_cons_self)
  have hfirst : Nat.toDigits 10 (c.toNat - '0'.toNat) = [c] := by
    rw [Nat.toDigits_of_lt_base hlt, hchar]
  rw [numeral, decimal, List.foldl_cons, Nat.zero_mul, Nat.zero_add]
  by_cases hc : c = '0'
  · subst hc
    obtain rfl : tail = [] := List.eq_nil_of_length_eq_zero (Nat.succ_injective (hzero rfl))
    exact hfirst
  · have hpos : 0 < c.toNat - '0'.toNat := by
      by_contra hnot
      obtain hz : c.toNat - '0'.toNat = 0 := Nat.eq_zero_of_not_pos hnot
      rw [hz] at hchar
      exact hc hchar.symm
    rw [← toDigits_append_digits (fun d hd => h d (List.mem_cons_of_mem c hd)) hpos, hfirst]
    rfl

/-- What is parsed as a number is digits, or digits behind a plus sign. -/
theorem exists_of_parseUnsigned {max n : ℕ} {s : Str} (h : parseUnsigned max s = some n) :
    ∃ digits, (s = digits ∨ s = '+' :: digits) ∧ digits ≠ [] ∧ digits.all Char.isDigit = true ∧
      decimal digits = n ∧ n ≤ max := by
  have hsign : ∀ s : Str, s = (match s with | '+' :: digits => digits | _ => s) ∨
      s = '+' :: (match s with | '+' :: digits => digits | _ => s) := by
    intro s
    split
    · exact Or.inr rfl
    · exact Or.inl rfl
  unfold parseUnsigned at h
  dsimp only at h
  split_ifs at h with hdigits
  obtain rfl := Option.some.inj h
  exact ⟨_, hsign s, hdigits.1, hdigits.2.1, rfl, hdigits.2.2⟩

/-- No other character can be in a number. -/
theorem parseUnsigned_eq_none {max : ℕ} {s : Str} {c : Char} (hc : c ∈ s)
    (hdigit : c.isDigit = false) (hplus : c ≠ '+') : parseUnsigned max s = none := by
  rw [Option.eq_none_iff_forall_ne_some]
  intro n h
  obtain ⟨digits, hs, -, hdigits, -⟩ := exists_of_parseUnsigned h
  have hmem : c ∈ digits := by
    rcases hs with rfl | rfl
    · exact hc
    · exact (List.mem_cons.mp hc).resolve_left hplus
  exact absurd (List.all_eq_true.mp hdigits c hmem) (by rw [hdigit]; decide)

/-- A string of decimal digits is parsed to its number. -/
theorem parseUnsigned_digits {max : ℕ} {s : Str} (hne : s ≠ []) (hdigits : s.all Char.isDigit)
    (hle : decimal s ≤ max) : parseUnsigned max s = some (decimal s) := by
  have hsign : ∀ s : Str, s.all Char.isDigit →
      (match s with | '+' :: digits => digits | _ => s) = s := by
    intro s hs
    split
    · -- a plus sign is no digit
      exact absurd (List.all_eq_true.mp hs '+' List.mem_cons_self) (by decide)
    · rfl
  simp only [parseUnsigned, hsign s hdigits]
  rw [if_pos ⟨hne, hdigits, hle⟩]

/-- **A number is parsed from its numeral.** -/
theorem parseUnsigned_numeral {max n : ℕ} (h : n ≤ max) :
    parseUnsigned max (numeral n) = some n := by
  have hne : numeral n ≠ [] := Nat.toDigits_ne_nil
  have hdigits : (numeral n).all Char.isDigit = true :=
    List.all_eq_true.mpr fun _ => isDigit_of_mem_numeral
  have hle : decimal (numeral n) ≤ max := (decimal_numeral n).trans_le h
  rw [parseUnsigned_digits hne hdigits hle, decimal_numeral]

/-! ## UTF-8 -/

/-- The six bits of a continuation byte. -/
def continuation (b : UInt8) : Option ℕ :=
  if 0x80 ≤ b.toNat ∧ b.toNat < 0xC0 then some (b.toNat - 0x80) else none

/-- A code point that is a character, and not encoded in more bytes than it needs. -/
def scalar (min n : ℕ) : Option Char :=
  if min ≤ n ∧ n.isValidChar then some (Char.ofNat n) else none

/-- The text of a sequence of bytes, if it is valid UTF-8. -/
def decodeUtf8 : List UInt8 → Option Str
  | [] => some []
  | a :: rest =>
    if a.toNat < 0x80 then (decodeUtf8 rest).map (Char.ofNat a.toNat :: ·)
    else if a.toNat < 0xC0 then none
    else if a.toNat < 0xE0 then
      match rest with
      | b :: rest => do
        let b ← continuation b
        let c ← scalar 0x80 ((a.toNat - 0xC0) * 0x40 + b)
        (decodeUtf8 rest).map (c :: ·)
      | _ => none
    else if a.toNat < 0xF0 then
      match rest with
      | b :: b' :: rest => do
        let b ← continuation b
        let b' ← continuation b'
        let c ← scalar 0x800 (((a.toNat - 0xE0) * 0x40 + b) * 0x40 + b')
        (decodeUtf8 rest).map (c :: ·)
      | _ => none
    else
      match rest with
      | b :: b' :: b'' :: rest => do
        let b ← continuation b
        let b' ← continuation b'
        let b'' ← continuation b''
        let c ← scalar 0x10000 ((((a.toNat - 0xF0) * 0x40 + b) * 0x40 + b') * 0x40 + b'')
        (decodeUtf8 rest).map (c :: ·)
      | _ => none

end Text
