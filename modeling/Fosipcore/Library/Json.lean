import Fosipcore.Library.Text

/-!
# JSON values and their text

A value as a parser leaves it: the entries of an object are in the order of the map that holds them.
The text of a value has no white space, and the text of a string escapes quotation marks,
backslashes and control characters. What a number with a fraction or an exponent prints as is part of
the value.

## Main definitions

* `Json`, `Json.lookup`, `Json.insert`: values, and the entries of an object
* `Json.asString`, `Json.asUnsigned`, `Json.optional`: what a value is read as
* `Json.print`, `escape`: the text of a value, and of a string without its quotation marks

## Main results

* `lookup_insert`, `mem_keys_insertAll`: the entries of a map that values are inserted into
* `escape_injective`: escaping loses nothing
* `print_object_split`: the text of an object around the value of one key
-/

open Text

/-- A number: an integer, or the text of a number with a fraction or an exponent. -/
inductive JsonNumber where
  | int (n : ℤ)
  | float (text : Str)
  deriving DecidableEq

inductive Json where
  | null
  | bool (b : Bool)
  | number (n : JsonNumber)
  | string (s : Str)
  | array (items : List Json)
  | object (entries : List (Str × Json))

namespace Json

/-- The value of a key. -/
def lookup (key : Str) (entries : List (Str × Json)) : Option Json := entries.lookup key

/-- Insert a value into a map that is ordered by its keys. -/
def insert (key : Str) (value : Json) : List (Str × Json) → List (Str × Json)
  | [] => [(key, value)]
  | (key', value') :: entries =>
    if key < key' then (key, value) :: (key', value') :: entries
    else if key = key' then (key, value) :: entries
    else (key', value') :: insert key value entries

/-- Insert values one after the other. -/
def insertAll (fields entries : List (Str × Json)) : List (Str × Json) :=
  fields.foldl (fun entries (key, value) => insert key value entries) entries

/-- A natural number as a value. -/
def nat (n : ℕ) : Json := .number (.int n)

/-! ## Maps -/

/-- The keys of a map. -/
def keys (entries : List (Str × Json)) : List Str := entries.map Prod.fst

theorem isSome_lookup {key : Str} {entries : List (Str × Json)} :
    (lookup key entries).isSome = true ↔ key ∈ keys entries := by
  simp [lookup, keys, List.lookup_isSome_iff]

/-- An entry of a map that a value was inserted into is the new one, or it was there. -/
theorem mem_insert {key : Str} {value : Json} {entries : List (Str × Json)}
    {entry : Str × Json} (h : entry ∈ insert key value entries) :
    entry = (key, value) ∨ entry ∈ entries := by
  induction entries with
  | nil => exact .inl (List.mem_singleton.mp h)
  | cons first entries ih =>
    rw [insert] at h
    split_ifs at h
    · exact List.mem_cons.mp h
    · exact (List.mem_cons.mp h).imp_right (List.mem_cons_of_mem _)
    · rcases List.mem_cons.mp h with h | h
      · exact .inr (h ▸ List.mem_cons_self)
      · exact (ih h).imp_right (List.mem_cons_of_mem _)

theorem mem_insertAll {fields entries : List (Str × Json)} {entry : Str × Json}
    (h : entry ∈ insertAll fields entries) : entry ∈ fields ∨ entry ∈ entries := by
  induction fields generalizing entries with
  | nil => exact .inr h
  | cons field fields ih =>
    obtain ⟨key, value⟩ := field
    rcases ih h with h | h
    · exact .inl (List.mem_cons_of_mem _ h)
    · rcases mem_insert h with rfl | h
      · exact .inl List.mem_cons_self
      · exact .inr h

theorem lookup_cons (k key : Str) (value : Json) (entries : List (Str × Json)) :
    lookup k ((key, value) :: entries) = if k = key then some value else lookup k entries := by
  rw [lookup, List.lookup_cons]
  by_cases h : k = key
  · rw [if_pos h, h, beq_self_eq_true]
  · rw [if_neg h, beq_false_of_ne h]
    rfl

/-- **Inserting a value** sets that of its key, and no other. -/
theorem lookup_insert (k key : Str) (value : Json) (entries : List (Str × Json)) :
    lookup k (insert key value entries) = if k = key then some value else lookup k entries := by
  induction entries with
  | nil => exact lookup_cons k key value []
  | cons entry entries ih =>
    obtain ⟨key', value'⟩ := entry
    rw [insert]
    by_cases hlt : key < key'
    · rw [if_pos hlt, lookup_cons]
    · rw [if_neg hlt]
      by_cases heq : key = key'
      · rw [if_pos heq, lookup_cons, lookup_cons, ← heq]
        split_ifs <;> rfl
      · -- the key comes behind the first entry, and is not its key
        rw [if_neg heq, lookup_cons, ih, lookup_cons]
        by_cases hk : k = key
        · rw [if_pos hk, if_pos hk, if_neg (hk ▸ heq)]
        · rw [if_neg hk, if_neg hk]

/-- **The keys of a map** that values were inserted into. -/
theorem mem_keys_insertAll {k : Str} {fields entries : List (Str × Json)} :
    k ∈ keys (insertAll fields entries) ↔ k ∈ keys fields ∨ k ∈ keys entries := by
  induction fields generalizing entries with
  | nil => simp [insertAll, keys]
  | cons field fields ih =>
    obtain ⟨key, value⟩ := field
    have hinsert : k ∈ keys (insert key value entries) ↔ k = key ∨ k ∈ keys entries := by
      rw [← isSome_lookup, ← isSome_lookup, lookup_insert]
      split_ifs with hk
      · simp [hk]
      · simp [hk]
    have hcons : k ∈ keys ((key, value) :: fields) ↔ k = key ∨ k ∈ keys fields := List.mem_cons
    calc k ∈ keys (insertAll ((key, value) :: fields) entries)
        ↔ k ∈ keys fields ∨ k ∈ keys (insert key value entries) := ih
      _ ↔ k ∈ keys ((key, value) :: fields) ∨ k ∈ keys entries := by
        rw [hinsert, hcons, or_left_comm, or_assoc]

/-- A key that no value is inserted for keeps its value. -/
theorem lookup_insertAll_of_notMem {k : Str} {fields entries : List (Str × Json)}
    (h : k ∉ keys fields) : lookup k (insertAll fields entries) = lookup k entries := by
  induction fields generalizing entries with
  | nil => rfl
  | cons field fields ih =>
    obtain ⟨hne, hrest⟩ := not_or.mp (mt List.mem_cons.mpr h)
    exact (ih hrest).trans ((lookup_insert k field.1 field.2 entries).trans (if_neg hne))

/-! ## Reading -/

def asString : Json → Option Str
  | .string s => some s
  | _ => none

/-- An unsigned number of at most `max`. -/
def asUnsigned (max : ℕ) : Json → Option ℕ
  | .number (.int n) => if 0 ≤ n ∧ n.toNat ≤ max then some n.toNat else none
  | _ => none

/-- A field that may be absent, or `null`. -/
def optional {α : Type} (read : Json → Option α) : Option Json → Option (Option α)
  | none => some none
  | some .null => some none
  | some value => (read value).map some

/-! ## Printing -/

/-- A hexadecimal digit, in lower case. -/
def hexDigit (n : ℕ) : Char := Nat.digitChar n

/-- The text of a character of a string. -/
def escapeChar (c : Char) : Str :=
  if c = '\"' then ['\\', '\"']
  else if c = '\\' then ['\\', '\\']
  else if c.toNat = 8 then ['\\', 'b']
  else if c.toNat = 9 then ['\\', 't']
  else if c.toNat = 10 then ['\\', 'n']
  else if c.toNat = 12 then ['\\', 'f']
  else if c.toNat = 13 then ['\\', 'r']
  else if c.toNat < 32 then
    "\\u00".toList ++ [hexDigit (c.toNat / 16), hexDigit (c.toNat % 16)]
  else [c]

/-- The text of a string, without the quotation marks around it. -/
def escape (s : Str) : Str := s.flatMap escapeChar

def printString (s : Str) : Str := '\"' :: escape s ++ ['\"']

def printNumber : JsonNumber → Str
  | .int n => if n < 0 then '-' :: numeral n.natAbs else numeral n.natAbs
  | .float text => text

/-- The value of a hexadecimal digit. -/
def hexValue (c : Char) : ℕ := if c.isDigit then c.toNat - 48 else c.toNat - 87

/-- The first character of the text of a string, and what follows it. -/
def unescapeHead : Str → Option (Char × Str)
  | '\\' :: '\"' :: s => some ('\"', s)
  | '\\' :: '\\' :: s => some ('\\', s)
  | '\\' :: 'b' :: s => some (.ofNat 8, s)
  | '\\' :: 't' :: s => some (.ofNat 9, s)
  | '\\' :: 'n' :: s => some (.ofNat 10, s)
  | '\\' :: 'f' :: s => some (.ofNat 12, s)
  | '\\' :: 'r' :: s => some (.ofNat 13, s)
  | '\\' :: 'u' :: '0' :: '0' :: a :: b :: s => some (.ofNat (hexValue a * 16 + hexValue b), s)
  | c :: s => some (c, s)
  | [] => none

theorem hexValue_hexDigit :
    ∀ n < 32, hexValue (hexDigit (n / 16)) * 16 + hexValue (hexDigit (n % 16)) = n := by
  decide

/-- The escapes of a backslash and one character. -/
def shortEscapes : List (Char × Char) :=
  [('\"', '\"'), ('\\', '\\'), ('b', .ofNat 8), ('t', .ofNat 9), ('n', .ofNat 10),
    ('f', .ofNat 12), ('r', .ofNat 13)]

/-- The three kinds of text of a character. -/
theorem escapeChar_eq (c : Char) :
    (∃ e, (e, c) ∈ shortEscapes ∧ escapeChar c = ['\\', e]) ∨
      (c.toNat < 32 ∧
        escapeChar c = "\\u00".toList ++ [hexDigit (c.toNat / 16), hexDigit (c.toNat % 16)]) ∨
      (c ≠ '\\' ∧ escapeChar c = [c]) := by
  have hcode : ∀ n, c.toNat = n → c = .ofNat n := by
    rintro n rfl
    exact (Char.ofNat_toNat c).symm
  rw [escapeChar]
  by_cases hquote : c = '\"'
  · exact .inl ⟨'\"', by rw [hquote]; decide, if_pos hquote⟩
  rw [if_neg hquote]
  by_cases hslash : c = '\\'
  · exact .inl ⟨'\\', by rw [hslash]; decide, if_pos hslash⟩
  rw [if_neg hslash]
  by_cases h8 : c.toNat = 8
  · exact .inl ⟨'b', by rw [hcode 8 h8]; decide, if_pos h8⟩
  rw [if_neg h8]
  by_cases h9 : c.toNat = 9
  · exact .inl ⟨'t', by rw [hcode 9 h9]; decide, if_pos h9⟩
  rw [if_neg h9]
  by_cases h10 : c.toNat = 10
  · exact .inl ⟨'n', by rw [hcode 10 h10]; decide, if_pos h10⟩
  rw [if_neg h10]
  by_cases h12 : c.toNat = 12
  · exact .inl ⟨'f', by rw [hcode 12 h12]; decide, if_pos h12⟩
  rw [if_neg h12]
  by_cases h13 : c.toNat = 13
  · exact .inl ⟨'r', by rw [hcode 13 h13]; decide, if_pos h13⟩
  rw [if_neg h13]
  by_cases hcontrol : c.toNat < 32
  · exact .inr (.inl ⟨hcontrol, if_pos hcontrol⟩)
  · exact .inr (.inr ⟨hslash, if_neg hcontrol⟩)

theorem unescapeHead_short {e c : Char} (h : (e, c) ∈ shortEscapes) (s : Str) :
    unescapeHead ('\\' :: e :: s) = some (c, s) := by
  have hall : ∀ p ∈ shortEscapes, unescapeHead ('\\' :: p.1 :: s) = some (p.2, s) := by
    simp only [shortEscapes, List.forall_mem_cons]
    exact ⟨rfl, rfl, rfl, rfl, rfl, rfl, rfl, nofun⟩
  exact hall (e, c) h

theorem unescapeHead_of_ne {c : Char} (h : c ≠ '\\') (s : Str) :
    unescapeHead (c :: s) = some (c, s) := by
  unfold unescapeHead
  grind

/-- **The text of a character** can be told from what follows it. -/
theorem unescapeHead_escapeChar (c : Char) (s : Str) :
    unescapeHead (escapeChar c ++ s) = some (c, s) := by
  rcases escapeChar_eq c with ⟨e, hmem, heq⟩ | ⟨hcontrol, heq⟩ | ⟨hne, heq⟩
  · rw [heq]
    exact unescapeHead_short hmem s
  · -- the two hexadecimal digits make up the code of the character
    have hdigits : ∀ a b, unescapeHead ("\\u00".toList ++ [a, b] ++ s) =
        some (.ofNat (hexValue a * 16 + hexValue b), s) := fun a b => rfl
    rw [heq, hdigits, hexValue_hexDigit c.toNat hcontrol, Char.ofNat_toNat]
  · rw [heq]
    exact unescapeHead_of_ne hne s

theorem escape_cons (c : Char) (s : Str) : escape (c :: s) = escapeChar c ++ escape s :=
  List.flatMap_cons

theorem unescapeHead_escape_cons (c : Char) (s : Str) :
    unescapeHead (escape (c :: s)) = some (c, escape s) := by
  rw [escape_cons, unescapeHead_escapeChar]

/-- **Escaping loses nothing.** -/
theorem escape_injective {s t : Str} (h : escape s = escape t) : s = t := by
  induction s generalizing t with
  | nil =>
    cases t with
    | nil => rfl
    | cons d t =>
      have hhead := unescapeHead_escape_cons d t
      rw [← h] at hhead
      cases hhead
  | cons c s ih =>
    have hhead := unescapeHead_escape_cons c s
    cases t with
    | nil =>
      rw [h] at hhead
      cases hhead
    | cons d t =>
      rw [h, unescapeHead_escape_cons] at hhead
      obtain ⟨rfl, hrest⟩ := Prod.mk.inj (Option.some.inj hhead)
      rw [ih hrest.symm]

/-- The characters that escapes are made of. -/
def escapeAlphabet : Str := "\\\"bfnrtu0123456789abcdef".toList

theorem escapeChar_cases (c : Char) : escapeChar c = [c] ∨ escapeChar c ⊆ escapeAlphabet := by
  have hshort : ∀ p ∈ shortEscapes, ['\\', p.1] ⊆ escapeAlphabet := by decide
  have hhex : ∀ n < 16, hexDigit n ∈ escapeAlphabet := by decide
  have hcode : "\\u00".toList ⊆ escapeAlphabet := by decide
  rcases escapeChar_eq c with ⟨e, hmem, heq⟩ | ⟨hcontrol, heq⟩ | ⟨-, heq⟩
  · rw [heq]
    exact .inr (hshort (e, c) hmem)
  · -- the two hexadecimal digits of a control character
    rw [heq]
    refine .inr (List.append_subset.mpr ⟨hcode, ?_⟩)
    rw [List.cons_subset, List.cons_subset]
    exact ⟨hhex _ (by omega), hhex _ (by omega), List.nil_subset _⟩
  · exact .inl heq

/-- A character that escapes are not made of is in the text of a string only if it is in the
string. -/
theorem mem_of_mem_escape {d : Char} (hd : d ∉ escapeAlphabet) {s : Str} (h : d ∈ escape s) :
    d ∈ s := by
  obtain ⟨c, hc, hmem⟩ := List.mem_flatMap.mp h
  rcases escapeChar_cases c with hsingle | hescape
  · rw [hsingle] at hmem
    rwa [List.mem_singleton.mp hmem]
  · exact absurd (hescape hmem) hd

mutual

/-- The text of a value. -/
def print : Json → Str
  | .null => "null".toList
  | .bool b => if b then "true".toList else "false".toList
  | .number n => printNumber n
  | .string s => printString s
  | .array items => '[' :: [','].intercalate (printItems items) ++ [']']
  | .object entries => '\x7b' :: [','].intercalate (printEntries entries) ++ ['\x7d']

def printItems : List Json → List Str
  | [] => []
  | item :: items => print item :: printItems items

def printEntries : List (Str × Json) → List Str
  | [] => []
  | (key, value) :: entries => (printString key ++ ':' :: print value) :: printEntries entries

end

theorem printEntries_append (pre post : List (Str × Json)) :
    printEntries (pre ++ post) = printEntries pre ++ printEntries post := by
  induction pre with
  | nil => rfl
  | cons entry pre ih =>
    obtain ⟨key, value⟩ := entry
    rw [List.cons_append, printEntries, ih]
    rfl

/-- The text around one of the items. -/
theorem intercalate_around (sep : Str) (pre post : List Str) :
    ∃ before after : Str, ∀ item : Str,
      sep.intercalate (pre ++ item :: post) = before ++ (item ++ after) := by
  induction pre with
  | nil =>
    cases post with
    | nil => exact ⟨[], [], fun item => by simp [List.intercalate]⟩
    | cons next post =>
      refine ⟨[], sep ++ sep.intercalate (next :: post), ?_⟩
      intro item
      simp [List.intercalate]
  | cons first pre ih =>
    obtain ⟨before, after, haround⟩ := ih
    refine ⟨first ++ (sep ++ before), after, ?_⟩
    intro item
    -- there is a separator behind the first item, because another one follows
    have hfirst : sep.intercalate (first :: (pre ++ item :: post)) =
        first ++ (sep ++ sep.intercalate (pre ++ item :: post)) := by
      cases pre <;> simp [List.intercalate]
    rw [List.cons_append, hfirst, haround, List.append_assoc, List.append_assoc]

/-- **The text of an object around the string of one key**: it is the same for every string, and the
string is between quotation marks. -/
theorem print_object_split (key : Str) (pre post : List (Str × Json)) :
    ∃ before after : Str, ∀ s : Str, print (.object (pre ++ (key, .string s) :: post)) =
      before ++ '\"' :: (escape s ++ '\"' :: after) := by
  obtain ⟨before, after, haround⟩ := intercalate_around [','] (printEntries pre) (printEntries post)
  refine ⟨'\x7b' :: before ++ printString key ++ [':'], after ++ ['\x7d'], ?_⟩
  intro s
  simp only [print, printEntries_append, printEntries, haround, printString, List.append_assoc,
    List.cons_append, List.nil_append]

end Json
