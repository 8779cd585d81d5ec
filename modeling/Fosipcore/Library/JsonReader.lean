import Fosipcore.Library.Json
import Mathlib.Algebra.Ring.Int.Defs

/-!
# Reading the text of a JSON value

The text of a value is read from the left, with the length of the text as a bound. It gives the value
back if all its numbers are integers: what a number with a fraction prints as is not looked into. The
reader takes the texts that are printed, and is no judge of others.

## Main definitions

* `Json.read`: the value of a text
* `Json.integral`: the values whose numbers are integers
* `Json.Readable`: the values with integers of 64 bits and bounded nesting

## Main results

* `Json.read_print`: the text of a value gives the value back
-/

open Text

namespace Json

/-! ## The reader -/

/-- Read a string behind its first quotation mark: the string, and what follows it. -/
def readString : ℕ → Str → Option (Str × Str)
  | 0, _ => none
  | n + 1, s =>
    if s.head? = some '\"' then some ([], s.tail)
    else do
      let (c, s) ← unescapeHead s
      let (t, s) ← readString n s
      return (c :: t, s)

/-- Read the digits of a natural number. -/
def readNat (s : Str) : Option (ℕ × Str) :=
  let digits := s.takeWhile Char.isDigit
  if digits = [] then none else some (decimal digits, s.dropWhile Char.isDigit)

def readInt : Str → Option (ℤ × Str)
  | '-' :: s => (readNat s).map fun (k, s) => (-k, s)
  | s => (readNat s).map fun (k, s) => (k, s)

/-- Read a word that stands for a value. -/
def readWord {α : Type} (word : Str) (value : α) (s : Str) : Option (α × Str) :=
  (stripPrefix word s).map fun s => (value, s)

/-- Read what follows the first of some items: the others behind a comma, or the closing
bracket. -/
def readRest {α : Type} (close : Char) (readMore : Str → Option (List α × Str)) (first : α) :
    Str → Option (List α × Str)
  | [] => none
  | c :: s =>
    if c = ',' then (readMore s).map fun (more, s) => (first :: more, s)
    else if c = close then some ([first], s)
    else none

mutual

/-- Read a value. -/
def readValue : ℕ → Str → Option (Json × Str)
  | 0, _ => none
  | _ + 1, [] => none
  | n + 1, c :: s =>
    if c = 'n' then readWord "ull".toList .null s
    else if c = 't' then readWord "rue".toList (.bool true) s
    else if c = 'f' then readWord "alse".toList (.bool false) s
    else if c = '\"' then (readString n s).map fun (t, s) => (.string t, s)
    else if c = '[' then
      (readItems n s <|> readWord [']'] [] s).map fun (items, s) => (.array items, s)
    else if c = '\x7b' then
      (readEntries n s <|> readWord ['\x7d'] [] s).map fun (entries, s) => (.object entries, s)
    else (readInt (c :: s)).map fun (k, s) => (.number (.int k), s)

/-- Read items up to the closing bracket. -/
def readItems : ℕ → Str → Option (List Json × Str)
  | 0, _ => none
  | n + 1, s => do
    let (item, s) ← readValue n s
    readRest ']' (readItems n) item s

/-- Read entries up to the closing brace. -/
def readEntries : ℕ → Str → Option (List (Str × Json) × Str)
  | 0, _ => none
  | n + 1, s => do
    let s ← stripPrefix ['\"'] s
    let (key, s) ← readString n s
    let s ← stripPrefix [':'] s
    let (value, s) ← readValue n s
    readRest '\x7d' (readEntries n) (key, value) s

end

/-- **The value of a text**, if nothing follows it. -/
def read (s : Str) : Option Json :=
  match readValue (s.length + 1) s with
  | some (v, []) => some v
  | _ => none

/-! ## Strings and numbers -/

theorem head?_escapeChar (c : Char) (s : Str) : (escapeChar c ++ s).head? ≠ some '\"' := by
  by_cases hquote : c = '\"'
  · rw [hquote]
    nofun
  · rcases escapeChar_eq c with ⟨e, -, heq⟩ | ⟨-, heq⟩ | ⟨-, heq⟩
    · rw [heq]
      nofun
    · rw [heq]
      nofun
    · rw [heq]
      intro h
      exact hquote (Option.some.inj h)

/-- **A string is read back** up to its quotation mark. -/
theorem readString_escape {s : Str} {n : ℕ} (h : (escape s).length < n) (rest : Str) :
    readString n (escape s ++ '\"' :: rest) = some (s, rest) := by
  induction s generalizing n with
  | nil =>
    cases n with
    | zero => cases h
    | succ n => rfl
  | cons c s ih =>
    cases n with
    | zero => cases h
    | succ n =>
      have hchar : 0 < (escapeChar c).length := by
        rcases escapeChar_eq c with ⟨e, -, heq⟩ | ⟨-, heq⟩ | ⟨-, heq⟩
        all_goals
          rw [heq]
          exact Nat.succ_pos _
      rw [escape_cons, List.length_append] at h
      rw [escape_cons, List.append_assoc, readString, if_neg (head?_escapeChar c _),
        unescapeHead_escapeChar]
      simp only [Option.bind_eq_bind, Option.bind_some, ih (n := n) (by omega)]
      rfl

/-- A text that does not go on with a digit. -/
def NoDigit (s : Str) : Prop := ∀ c, s.head? = some c → c.isDigit = false

theorem noDigit_cons {c : Char} (h : c.isDigit = false) (s : Str) : NoDigit (c :: s) := by
  intro d hd
  obtain rfl := Option.some.inj hd
  exact h

theorem readNat_numeral (n : ℕ) {rest : Str} (hrest : NoDigit rest) :
    readNat (numeral n ++ rest) = some (n, rest) := by
  have hdigits : ∀ c ∈ numeral n, c.isDigit = true := fun c => isDigit_of_mem_numeral
  have hnone : rest.takeWhile Char.isDigit = [] ∧ rest.dropWhile Char.isDigit = rest := by
    cases rest with
    | nil => exact ⟨rfl, rfl⟩
    | cons c rest =>
      have hc : ¬ c.isDigit = true := by
        rw [hrest c rfl]
        nofun
      exact ⟨List.takeWhile_cons_of_neg hc, List.dropWhile_cons_of_neg hc⟩
  have htake : (numeral n ++ rest).takeWhile Char.isDigit = numeral n := by
    rw [List.takeWhile_append_of_pos hdigits, hnone.1, List.append_nil]
  have hdrop : (numeral n ++ rest).dropWhile Char.isDigit = rest := by
    rw [List.dropWhile_append_of_pos hdigits, hnone.2]
  have hne : numeral n ≠ [] := Nat.toDigits_ne_nil
  unfold readNat
  dsimp only
  rw [htake, hdrop, if_neg hne, decimal_numeral]

/-- The first character of a numeral is a digit. -/
theorem numeral_eq_cons (n : ℕ) : ∃ d ds, numeral n = d :: ds ∧ d.isDigit = true := by
  cases h : numeral n with
  | nil => exact absurd h Nat.toDigits_ne_nil
  | cons d ds =>
    have hd : d ∈ numeral n := by
      rw [h]
      exact List.mem_cons_self
    exact ⟨d, ds, rfl, isDigit_of_mem_numeral hd⟩

theorem readInt_of_ne {c : Char} (h : c ≠ '-') (s : Str) :
    readInt (c :: s) = (readNat (c :: s)).map fun (k, s) => ((k : ℤ), s) := by
  rw [readInt]
  rintro t heq
  exact h (List.cons.inj heq).1

/-- **An integer is read back** in front of anything but a digit. -/
theorem readInt_printNumber (k : ℤ) {rest : Str} (hrest : NoDigit rest) :
    readInt (printNumber (.int k) ++ rest) = some (k, rest) := by
  rw [printNumber]
  split_ifs with hk
  · change (readNat (numeral k.natAbs ++ rest)).map _ = _
    rw [readNat_numeral _ hrest, Option.map_some]
    have habs : -(k.natAbs : ℤ) = k := by omega
    simp only [habs]
  · obtain ⟨d, ds, hnumeral, hd⟩ := numeral_eq_cons k.natAbs
    have hne : d ≠ '-' := by
      rintro rfl
      cases hd
    have hcons : readInt (numeral k.natAbs ++ rest) =
        (readNat (numeral k.natAbs ++ rest)).map fun (k, s) => ((k : ℤ), s) := by
      rw [hnumeral]
      exact readInt_of_ne hne _
    rw [hcons, readNat_numeral _ hrest, Option.map_some]
    have habs : (k.natAbs : ℤ) = k := by omega
    simp only [habs]

/-- What begins like a number is read as one. -/
theorem readValue_number {c : Char} (h : c = '-' ∨ c.isDigit = true) (n : ℕ) (s : Str) :
    readValue (n + 1) (c :: s) =
      (readInt (c :: s)).map fun (k, s) => (.number (.int k), s) := by
  have hne : ∀ d ∈ ['n', 't', 'f', '\"', '[', '\x7b'], c ≠ d := by
    rintro d hd rfl
    rcases h with rfl | h
    · revert hd
      decide
    · simp only [List.mem_cons, List.not_mem_nil, or_false] at hd
      rcases hd with rfl | rfl | rfl | rfl | rfl | rfl <;> cases h
  simp only [List.forall_mem_cons] at hne
  obtain ⟨hn, ht, hf, hquote, hbracket, hbrace, -⟩ := hne
  simp only [readValue, hn, ht, hf, hquote, hbracket, hbrace, if_false]

/-! ## Values -/

mutual

/-- All numbers of a value are integers. -/
def integral : Json → Bool
  | .null | .bool _ | .string _ | .number (.int _) => true
  | .number (.float _) => false
  | .array items => integralItems items
  | .object entries => integralEntries entries

def integralItems : List Json → Bool
  | [] => true
  | item :: items => integral item && integralItems items

def integralEntries : List (Str × Json) → Bool
  | [] => true
  | (_, value) :: entries => integral value && integralEntries entries

end

/-- The text of items, up to the closing bracket. -/
theorem intercalate_cons_cons (s t : Str) (l : List Str) :
    [','].intercalate (s :: t :: l) = s ++ ',' :: [','].intercalate (t :: l) := by
  simp [List.intercalate]

theorem intercalate_singleton (s : Str) : [','].intercalate [s] = s := by
  simp [List.intercalate]

/-- A closing bracket begins no items. -/
theorem readItems_bracket (n : ℕ) (rest : Str) : readItems n (']' :: rest) = none := by
  cases n with
  | zero => rfl
  | succ n =>
    cases n with
    | zero => rfl
    | succ n => rfl

/-- A closing brace begins no entries. -/
theorem readEntries_brace (n : ℕ) (rest : Str) : readEntries n ('\x7d' :: rest) = none := by
  cases n with
  | zero => rfl
  | succ n => rfl

/-- What is read of a first entry. -/
theorem readEntries_cons {key : Str} {value : Json} {n : ℕ} {tail : Str}
    (hkey : (escape key).length < n)
    (hvalue : readValue n (print value ++ tail) = some (value, tail)) :
    readEntries (n + 1) (printString key ++ ':' :: (print value ++ tail)) =
      readRest '\x7d' (readEntries n) (key, value) tail := by
  have htext : printString key ++ ':' :: (print value ++ tail) =
      '\"' :: (escape key ++ '\"' :: ':' :: (print value ++ tail)) := by
    simp [printString]
  rw [htext, readEntries]
  have hquote : stripPrefix ['\"'] ('\"' :: (escape key ++ '\"' :: ':' :: (print value ++ tail))) =
      some (escape key ++ '\"' :: ':' :: (print value ++ tail)) := rfl
  have hcolon : stripPrefix [':'] (':' :: (print value ++ tail)) = some (print value ++ tail) := rfl
  simp only [Option.bind_eq_bind, hquote, Option.bind_some, readString_escape hkey, hcolon, hvalue]

theorem printNumber_eq_cons (k : ℤ) :
    ∃ c s, printNumber (.int k) = c :: s ∧ (c = '-' ∨ c.isDigit = true) := by
  rw [printNumber]
  split_ifs
  · exact ⟨_, _, rfl, .inl rfl⟩
  · obtain ⟨d, ds, hnumeral, hd⟩ := numeral_eq_cons k.natAbs
    exact ⟨d, ds, hnumeral, .inr hd⟩

mutual

/-- **A value is read back** in front of anything but a digit. -/
theorem readValue_print : ∀ (v : Json) (n : ℕ) (rest : Str), integral v = true → NoDigit rest →
    (print v).length < n → readValue n (print v ++ rest) = some (v, rest)
  | _, 0, _, _, _, hlength => absurd hlength (Nat.not_lt_zero _)
  | .null, n + 1, rest, _, _, _ => rfl
  | .bool true, n + 1, rest, _, _, _ => rfl
  | .bool false, n + 1, rest, _, _, _ => rfl
  | .number (.float _), n + 1, rest, h, _, _ => nomatch h
  | .number (.int k), n + 1, rest, _, hrest, _ => by
    have hread := readInt_printNumber k hrest
    obtain ⟨c, s, htext, hc⟩ := printNumber_eq_cons k
    rw [print, htext, List.cons_append, readValue_number hc, ← List.cons_append, ← htext, hread,
      Option.map_some]
  | .string s, n + 1, rest, _, _, hlength => by
    have htext : print (.string s) ++ rest = '\"' :: (escape s ++ '\"' :: rest) := by
      simp [print, printString]
    have hescape : (escape s).length < n := by
      simp only [print, printString, List.cons_append, List.length_cons,
        List.length_append] at hlength
      omega
    rw [htext]
    change (readString n (escape s ++ '\"' :: rest)).map _ = _
    rw [readString_escape hescape, Option.map_some]
  | .array items, n + 1, rest, h, _, hlength => by
    have htext : print (.array items) ++ rest =
        '[' :: ([','].intercalate (printItems items) ++ ']' :: rest) := by
      simp [print]
    have hitems : ([','].intercalate (printItems items)).length + 1 < n := by
      simp only [print, List.cons_append, List.length_cons, List.length_append] at hlength
      omega
    rw [htext]
    change (readItems n _ <|> readWord [']'] [] _).map _ = _
    by_cases hne : items = []
    · rw [hne]
      change (readItems n (']' :: rest) <|> readWord [']'] [] (']' :: rest)).map _ = _
      rw [readItems_bracket]
      rfl
    · rw [readItems_print items n rest hne h hitems]
      rfl
  | .object entries, n + 1, rest, h, _, hlength => by
    have htext : print (.object entries) ++ rest =
        '\x7b' :: ([','].intercalate (printEntries entries) ++ '\x7d' :: rest) := by
      simp [print]
    have hentries : ([','].intercalate (printEntries entries)).length + 1 < n := by
      simp only [print, List.cons_append, List.length_cons, List.length_append] at hlength
      omega
    rw [htext]
    change (readEntries n _ <|> readWord ['\x7d'] [] _).map _ = _
    by_cases hne : entries = []
    · rw [hne]
      change (readEntries n ('\x7d' :: rest) <|> readWord ['\x7d'] [] ('\x7d' :: rest)).map _ = _
      rw [readEntries_brace]
      rfl
    · rw [readEntries_print entries n rest hne h hentries]
      rfl

theorem readItems_print : ∀ (items : List Json) (n : ℕ) (rest : Str), items ≠ [] →
    integralItems items = true → ([','].intercalate (printItems items)).length + 1 < n →
    readItems n ([','].intercalate (printItems items) ++ ']' :: rest) = some (items, rest)
  | [], _, _, hne, _, _ => absurd rfl hne
  | _ :: _, 0, _, _, _, hlength => absurd hlength (Nat.not_lt_zero _)
  | [item], n + 1, rest, _, h, hlength => by
    have hitem : integral item = true := (Bool.and_eq_true_iff.mp h).1
    simp only [printItems, intercalate_singleton] at hlength ⊢
    have hread := readValue_print item n (']' :: rest) hitem (noDigit_cons rfl rest) (by omega)
    simp only [readItems, hread]
    rfl
  | item :: next :: items, n + 1, rest, _, h, hlength => by
    obtain ⟨hitem, hitems⟩ := Bool.and_eq_true_iff.mp h
    have htext : [','].intercalate (printItems (item :: next :: items)) =
        print item ++ ',' :: [','].intercalate (printItems (next :: items)) :=
      intercalate_cons_cons _ _ _
    rw [htext, List.length_append, List.length_cons] at hlength
    rw [htext, List.append_assoc, List.cons_append]
    have hread := readValue_print item n
      (',' :: ([','].intercalate (printItems (next :: items)) ++ ']' :: rest)) hitem
      (noDigit_cons rfl _) (by omega)
    have hmore := readItems_print (next :: items) n rest (List.cons_ne_nil _ _) hitems (by omega)
    simp only [readItems, hread]
    change (readItems n _).map _ = _
    rw [hmore, Option.map_some]

theorem readEntries_print : ∀ (entries : List (Str × Json)) (n : ℕ) (rest : Str), entries ≠ [] →
    integralEntries entries = true →
    ([','].intercalate (printEntries entries)).length + 1 < n →
    readEntries n ([','].intercalate (printEntries entries) ++ '\x7d' :: rest) =
      some (entries, rest)
  | [], _, _, hne, _, _ => absurd rfl hne
  | _ :: _, 0, _, _, _, hlength => absurd hlength (Nat.not_lt_zero _)
  | [(key, value)], n + 1, rest, _, h, hlength => by
    have hvalue : integral value = true := (Bool.and_eq_true_iff.mp h).1
    simp only [printEntries, intercalate_singleton, printString, List.cons_append,
      List.append_assoc, List.length_cons, List.length_append] at hlength
    have hread := readValue_print value n ('\x7d' :: rest) hvalue (noDigit_cons rfl rest) (by omega)
    simp only [printEntries, intercalate_singleton, List.append_assoc, List.cons_append]
    rw [readEntries_cons (by omega) hread]
    rfl
  | (key, value) :: next :: entries, n + 1, rest, _, h, hlength => by
    obtain ⟨hvalue, hentries⟩ := Bool.and_eq_true_iff.mp h
    have htext : [','].intercalate (printEntries ((key, value) :: next :: entries)) =
        (printString key ++ ':' :: print value) ++
          ',' :: [','].intercalate (printEntries (next :: entries)) :=
      intercalate_cons_cons _ _ _
    simp only [htext, printString, List.cons_append, List.append_assoc, List.length_cons,
      List.length_append] at hlength
    have hread := readValue_print value n
      (',' :: ([','].intercalate (printEntries (next :: entries)) ++ '\x7d' :: rest)) hvalue
      (noDigit_cons rfl _) (by omega)
    have hmore := readEntries_print (next :: entries) n rest (List.cons_ne_nil _ _) hentries
      (by omega)
    rw [htext]
    simp only [List.append_assoc, List.cons_append]
    rw [readEntries_cons (by omega) hread]
    change (readEntries n _).map _ = _
    rw [hmore, Option.map_some]

end

/-- **The text of a value** whose numbers are integers gives the value back. -/
theorem read_print {v : Json} (h : integral v = true) : read (print v) = some v := by
  have hread := readValue_print v ((print v).length + 1) [] h nofun (Nat.lt_succ_self _)
  rw [List.append_nil] at hread
  rw [read, hread]

theorem integralEntries_iff {entries : List (Str × Json)} :
    integralEntries entries = true ↔ ∀ entry ∈ entries, integral entry.2 = true := by
  induction entries with
  | nil => exact iff_of_true rfl nofun
  | cons entry entries ih =>
    obtain ⟨key, value⟩ := entry
    rw [integralEntries, Bool.and_eq_true, ih, List.forall_mem_cons]

/-! ## The values that any library reads back -/

mutual

/-- The numbers of a value are integers of 64 bits, and its arrays and objects are nested at most so
deep. -/
def Readable (depth : ℕ) : Json → Prop
  | .null | .bool _ | .string _ => True
  | .number (.int n) => -2 ^ 63 ≤ n ∧ n < 2 ^ 64
  | .number (.float _) => False
  | .array items => 0 < depth ∧ ReadableItems (depth - 1) items
  | .object entries => 0 < depth ∧ ReadableEntries (depth - 1) entries

def ReadableItems (depth : ℕ) : List Json → Prop
  | [] => True
  | item :: items => Readable depth item ∧ ReadableItems depth items

def ReadableEntries (depth : ℕ) : List (Str × Json) → Prop
  | [] => True
  | (_, value) :: entries => Readable depth value ∧ ReadableEntries depth entries

end

theorem readableEntries_iff {depth : ℕ} {entries : List (Str × Json)} :
    ReadableEntries depth entries ↔ ∀ entry ∈ entries, Readable depth entry.2 := by
  induction entries with
  | nil => exact iff_of_true trivial nofun
  | cons entry entries ih =>
    obtain ⟨key, value⟩ := entry
    rw [ReadableEntries, ih, List.forall_mem_cons]

mutual

theorem Readable.integral : ∀ {depth : ℕ} {v : Json}, Readable depth v → integral v = true
  | _, .null, _ | _, .bool _, _ | _, .string _, _ | _, .number (.int _), _ => rfl
  | _, .number (.float _), h => h.elim
  | _, .array _, h => ReadableItems.integral h.2
  | _, .object _, h => ReadableEntries.integral h.2

theorem ReadableItems.integral : ∀ {depth : ℕ} {items : List Json},
    ReadableItems depth items → integralItems items = true
  | _, [], _ => rfl
  | _, _ :: _, h => Bool.and_eq_true_iff.mpr ⟨Readable.integral h.1, ReadableItems.integral h.2⟩

theorem ReadableEntries.integral : ∀ {depth : ℕ} {entries : List (Str × Json)},
    ReadableEntries depth entries → integralEntries entries = true
  | _, [], _ => rfl
  | _, (_, _) :: _, h =>
    Bool.and_eq_true_iff.mpr ⟨Readable.integral h.1, ReadableEntries.integral h.2⟩

end

end Json
