import Fosipcore.Library.Text

/-!
# Texts of one line

A text without a line feed stays on its line; a carriage return alone ends none. The parts of such
a text, and those of the lines of any text, are of this kind. Lines that are written with a carriage
return and a line feed are read back, and so are words with a blank in between.

## Main definitions

* `OneLine`: a text has no line feed

## Main results

* `oneLine_of_mem_lines`: the lines of a text
* `lines_flatMap`: lines are read back
* `splitWhitespace_cons`: so are words
-/

namespace Text

/-- There is no line feed in the text. -/
def OneLine (s : Str) : Prop := '\n' ∉ s

instance (s : Str) : Decidable (OneLine s) := inferInstanceAs (Decidable (¬ _))

variable {s t : Str}

theorem OneLine.of_subset (h : OneLine s) (hsub : t ⊆ s) : OneLine t := fun hmem => h (hsub hmem)

theorem oneLine_append : OneLine (s ++ t) ↔ OneLine s ∧ OneLine t := by
  simp [OneLine]

theorem oneLine_cons {c : Char} : OneLine (c :: s) ↔ c ≠ '\n' ∧ OneLine s := by
  simp [OneLine, eq_comm]

theorem oneLine_nil : OneLine [] := List.not_mem_nil

theorem OneLine.append (hs : OneLine s) (ht : OneLine t) : OneLine (s ++ t) :=
  oneLine_append.mpr ⟨hs, ht⟩

theorem OneLine.cons {c : Char} (hc : c ≠ '\n') (h : OneLine s) : OneLine (c :: s) :=
  oneLine_cons.mpr ⟨hc, h⟩

theorem oneLine_numeral (n : ℕ) : OneLine (numeral n) := by
  intro hmem
  have hdigit := isDigit_of_mem_numeral hmem
  revert hdigit
  decide

/-! ## Parts -/

theorem trim_subset (s : Str) : trim s ⊆ s :=
  List.Subset.trans (List.rdropWhile_prefix _ _).subset (List.dropWhile_suffix _).subset

theorem OneLine.trim (h : OneLine s) : OneLine (trim s) := h.of_subset (trim_subset s)

theorem OneLine.splitOnce {sep before after : Str} (h : OneLine s)
    (hsplit : splitOnce sep s = some (before, after)) : OneLine before ∧ OneLine after := by
  rw [splitOnce_eq hsplit] at h
  obtain ⟨hbefore, hbehind⟩ := oneLine_append.mp h
  exact ⟨hbefore, (oneLine_append.mp hbehind).2⟩

theorem OneLine.stripPrefix {pre : Str} (h : OneLine s) (hstrip : stripPrefix pre s = some t) :
    OneLine t := by
  rw [Text.stripPrefix] at hstrip
  split_ifs at hstrip
  obtain rfl := Option.some.inj hstrip
  exact h.of_subset (List.drop_subset _ _)

theorem OneLine.dropBytes {n : ℕ} (h : OneLine s) (hdrop : dropBytes n s = some t) : OneLine t := by
  obtain ⟨a, rfl, -⟩ := exists_of_dropBytes hdrop
  exact (oneLine_append.mp h).2

/-- A text is not trimmed if it neither begins nor ends with white space. -/
theorem trim_of_ends (hhead : ∀ c, s.head? = some c → isWhitespace c = false)
    (hlast : ∀ c, s.getLast? = some c → isWhitespace c = false) : trim s = s := by
  have hdrop : s.dropWhile isWhitespace = s := by
    cases s with
    | nil => rfl
    | cons c s => exact List.dropWhile_cons_of_neg (Bool.eq_false_iff.mp (hhead c rfl))
  rw [Text.trim, hdrop, List.rdropWhile_eq_self_iff]
  intro hne
  exact Bool.eq_false_iff.mp (hlast _ (List.getLast?_eq_some_getLast hne))

/-- White space in front of a text is trimmed. -/
theorem trim_blank (s : Str) : trim (' ' :: s) = trim s := by
  rw [Text.trim, List.dropWhile_cons_of_pos (by decide), Text.trim]

/-! ## Lines -/

/-- The characters that are gathered for a line have no line feed. -/
theorem oneLine_of_mem_linesLoop {line cur : Str} (hcur : OneLine cur)
    (h : line ∈ linesLoop cur s) : OneLine line := by
  have hreverse : ∀ {cur : Str}, OneLine cur → OneLine cur.reverse :=
    fun hcur hmem => hcur (List.mem_reverse.mp hmem)
  induction cur, s using linesLoop.induct with
  | case1 => cases h
  | case2 cur hne =>
    rw [linesLoop.eq_2 _ hne] at h
    rw [List.mem_singleton.mp h]
    exact hreverse hcur
  | case3 cur s ih =>
    by_cases hreturn : ∃ cur', cur = '\r' :: cur'
    · obtain ⟨cur', rfl⟩ := hreturn
      rw [linesLoop.eq_3] at h
      rcases List.mem_cons.mp h with rfl | h
      · exact hreverse (oneLine_cons.mp hcur).2
      · exact ih oneLine_nil h
    · rw [linesLoop.eq_4 _ _ fun cur' heq => hreturn ⟨cur', heq⟩] at h
      rcases List.mem_cons.mp h with rfl | h
      · exact hreverse hcur
      · exact ih oneLine_nil h
  | case4 cur c s hc ih =>
    rw [linesLoop.eq_5 _ _ _ hc] at h
    exact ih (.cons hc hcur) h

theorem oneLine_of_mem_lines {line : Str} (h : line ∈ lines s) : OneLine line :=
  oneLine_of_mem_linesLoop oneLine_nil h

/-- **Lines are read back.** -/
theorem lines_flatMap {ls : List Str} (h : ∀ line ∈ ls, OneLine line) (rest : Str) :
    lines ((ls.flatMap fun line => line ++ ['\r', '\n']) ++ rest) = ls ++ lines rest := by
  induction ls with
  | nil => rfl
  | cons line ls ih =>
    rw [List.flatMap_cons, List.append_assoc, List.append_assoc, List.cons_append]
    rw [List.cons_append, List.nil_append, lines_crlf (h line List.mem_cons_self),
      ih fun line' hmem => h line' (List.mem_cons_of_mem line hmem), List.cons_append]

/-! ## Words -/

/-- A word in front of a blank is the first one. -/
theorem splitWhitespace_cons {word : Str} (hne : word ≠ [])
    (h : ∀ c ∈ word, isWhitespace c = false) (rest : Str) :
    splitWhitespace (word ++ ' ' :: rest) = word :: splitWhitespace rest := by
  rw [splitWhitespace, List.splitOnP_append_cons word rest (by decide),
    List.splitOnP_eq_singleton h, List.singleton_append]
  exact List.filter_cons_of_pos (decide_eq_true hne)

theorem isWhitespace_of_isDigit {c : Char} (h : c.isDigit = true) : isWhitespace c = false := by
  have hascii : ∀ n < 58, (Char.ofNat n).isDigit = true → isWhitespace (Char.ofNat n) = false := by
    decide +kernel
  simp only [Char.isDigit, Bool.and_eq_true, decide_eq_true_eq] at h
  have hlt : c.toNat < 58 := Nat.lt_succ_of_le h.2
  have hchar := hascii c.toNat hlt
  rw [Char.ofNat_toNat] at hchar
  exact hchar (by simpa only [Char.isDigit, Bool.and_eq_true, decide_eq_true_eq] using h)

/-- A numeral is a word. -/
theorem isWhitespace_of_mem_numeral {n : ℕ} {c : Char} (h : c ∈ numeral n) :
    isWhitespace c = false :=
  isWhitespace_of_isDigit (isDigit_of_mem_numeral h)

theorem splitWhitespace_word {word : Str} (hne : word ≠ [])
    (h : ∀ c ∈ word, isWhitespace c = false) : splitWhitespace word = [word] := by
  rw [splitWhitespace, List.splitOnP_eq_singleton h]
  exact List.filter_cons_of_pos (decide_eq_true hne)

end Text
