import Fosipcore.Library.Text
import Mathlib.Data.List.Find
import Mathlib.Logic.Relation

/-!
# Masking credentials

Texts that are logged may contain request URLs, with credentials in the query string. A value that
follows `pwd=`, `usrName=`, `usr=` or `user=` is masked, up to a character that ends it.

The loop over the earliest keys is a scan: at each character it either finds a key or moves on, and
what is found does not depend on anything behind a character that ends a value.

## Main definitions

* `redactCreds`: the masked text
* `matchKey`: the key that begins a text
* `ValueChanged`: texts with different values behind a key

## Main results

* `redactCreds_cons`, `redactCreds_masked`, `redactCreds_bare`: the equations of the scan
* `redactCreds_append`: the parts around a terminator are masked on their own
* `redactCreds_redactCreds`: masking twice is masking once
* `redactCreds_query`: what is written around a value does not depend on it
* `redactCreds_of_not_mem`: nothing is masked where there is no value
* `redactCreds_eq_iff`: the texts that are masked alike
-/

namespace Fosipcore

open Text

/-! ## The loop -/

/-- The keys. On a tie, the one that is listed earlier is found. -/
def credKeys : List Str := ["pwd".toList, "usrName".toList, "usr".toList, "user".toList]

/-- The characters that end a value. -/
def terminators : List Char := ['&', ')', ' ', '\t', '\"', .ofNat 39, '\n', '\r']

/-- What is before an occurrence of a key, the key, and what is after it. -/
abbrev Occurrence := Str × Str × Str

/-- The occurrence of a key, if it is earlier than the earliest one so far. -/
def earlierKey (rest : Str) (earliest : Option Occurrence) (key : Str) : Option Occurrence :=
  match splitOnce key rest with
  | some (before, afterKey) =>
    -- a key that is listed later has to be strictly earlier in the text
    if earliest.all fun (before', _, _) => before.length < before'.length then
      some (before, key, afterKey)
    else earliest
  | none => earliest

/-- The earliest occurrence of a key. -/
def earliestKey (rest : Str) : Option Occurrence := credKeys.foldl (earlierKey rest) none

/-- What is written for the text behind a key, and what is left of it. -/
def maskValue (afterKey : Str) : Str × Str :=
  match stripPrefix ['='] afterKey with
  | some value => ("=***".toList, value.dropWhile (· ∉ terminators))
  -- a key without `=`, such as the beginning of a longer name, is copied
  | none => ([], afterKey)

/-- The loop over the keys that occur. -/
def redactLoop : ℕ → Str → Str
  | 0, _ => []
  | fuel + 1, rest =>
    match earliestKey rest with
    | none => rest
    | some (before, key, afterKey) =>
      before ++ key ++ (maskValue afterKey).1 ++ redactLoop fuel (maskValue afterKey).2

/-- Mask credential values anywhere in a string. Each turn of the loop takes a key. -/
def redactCreds (s : Str) : Str := redactLoop (s.length + 1) s

/-! ## The scan -/

/-- The key that begins a text. -/
def matchKey (s : Str) : Option Str := credKeys.find? (·.isPrefixOf s)

/-- An occurrence in a text with one more character in front. -/
def Occurrence.shift (c : Char) : Occurrence → Occurrence :=
  fun (before, key, afterKey) => (c :: before, key, afterKey)

variable {c : Char} {s : Str} {keys : List Str}

/-- Nothing is earlier than an occurrence at the beginning. -/
theorem foldl_earlierKey_begin (rest key afterKey : Str) :
    keys.foldl (earlierKey rest) (some ([], key, afterKey)) = some ([], key, afterKey) := by
  induction keys with
  | nil => rfl
  | cons key' keys ih =>
    have hstep : earlierKey rest (some ([], key, afterKey)) key' = some ([], key, afterKey) := by
      rw [earlierKey]
      cases splitOnce key' rest with
      | none => rfl
      | some parts => exact if_neg (by simp)
    rw [List.foldl_cons, hstep, ih]

/-- A key at the beginning is earlier than the occurrences behind it. -/
theorem earlierKey_head {earliest : Option Occurrence} {key : Str}
    (h : key.isPrefixOf (c :: s)) :
    earlierKey (c :: s) (earliest.map (.shift c)) key =
      some ([], key, (c :: s).drop key.length) := by
  rw [earlierKey, splitOnce, if_pos h]
  cases earliest with
  | none => rfl
  | some found => exact if_pos (by simp [Occurrence.shift])

theorem earlierKey_tail {earliest : Option Occurrence} {key : Str}
    (h : ¬ key.isPrefixOf (c :: s)) :
    earlierKey (c :: s) (earliest.map (.shift c)) key =
      (earlierKey s earliest key).map (.shift c) := by
  rw [earlierKey, splitOnce, if_neg h, earlierKey]
  cases splitOnce key s with
  | none => rfl
  | some parts =>
    cases earliest with
    | none => rfl
    | some found =>
      by_cases hlt : parts.1.length < found.1.length
      · simp [Occurrence.shift, hlt]
      · simp [Occurrence.shift, hlt]

theorem foldl_earlierKey_cons (earliest : Option Occurrence) :
    keys.foldl (earlierKey (c :: s)) (earliest.map (.shift c)) =
      match keys.find? (·.isPrefixOf (c :: s)) with
      | some key => some ([], key, (c :: s).drop key.length)
      | none => (keys.foldl (earlierKey s) earliest).map (.shift c) := by
  induction keys generalizing earliest with
  | nil => rfl
  | cons key keys ih =>
    rw [List.foldl_cons, List.find?_cons]
    by_cases hkey : key.isPrefixOf (c :: s)
    · rw [earlierKey_head hkey, foldl_earlierKey_begin, hkey]
    · rw [earlierKey_tail hkey, ih, Bool.eq_false_iff.mpr hkey]
      rfl

/-- **The earliest key** begins the text, or it is the earliest one behind the first character. -/
theorem earliestKey_cons (c : Char) (s : Str) :
    earliestKey (c :: s) = match matchKey (c :: s) with
      | some key => some ([], key, (c :: s).drop key.length)
      | none => (earliestKey s).map (.shift c) :=
  foldl_earlierKey_cons none

/-! ## The keys and the terminators -/

/-- A character that is in none of the keys. -/
def Delimiter (d : Char) : Prop := ∀ key ∈ credKeys, d ∉ key

instance (d : Char) : Decidable (Delimiter d) := inferInstanceAs (Decidable (∀ key ∈ _, _))

theorem delimiter_equals : Delimiter '=' := by decide

theorem delimiter_of_terminator {t : Char} (ht : t ∈ terminators) : Delimiter t ∧ t ≠ '=' := by
  have hall : terminators.all fun t => Delimiter t ∧ t ≠ '=' := by decide
  exact of_decide_eq_true (List.all_eq_true.mp hall t ht)

theorem credKeys_ne_nil : ∀ key ∈ credKeys, key ≠ [] := by decide

theorem matchKey_some {key : Str} (h : matchKey s = some key) : key ∈ credKeys ∧ key <+: s := by
  constructor
  · exact List.mem_of_find?_eq_some h
  · have hprefix : key.isPrefixOf s = true :=
      List.find?_some (p := fun key : Str => key.isPrefixOf s) h
    exact List.isPrefixOf_iff_prefix.mp hprefix

/-- A prefix does not reach beyond a character that it does not have. -/
theorem prefix_append_iff {key s rest : Str} {d : Char} (h : d ∉ key) :
    key <+: s ++ d :: rest ↔ key <+: s := by
  constructor
  · intro hprefix
    rcases List.prefix_or_prefix_of_prefix hprefix (List.prefix_append s (d :: rest)) with hk | hs
    · exact hk
    · obtain ⟨more, rfl⟩ := hs
      cases more with
      | nil => simp
      | cons d' more =>
        obtain ⟨rfl, -⟩ := List.cons_prefix_cons.mp ((List.prefix_append_right_inj s).mp hprefix)
        exact absurd (List.mem_append_right s List.mem_cons_self) h
  · intro hprefix
    exact List.IsPrefix.trans hprefix (List.prefix_append s (d :: rest))

/-- Which key begins a text depends on what begins it. -/
theorem matchKey_congr {s t : Str} (h : ∀ key ∈ credKeys, key <+: s ↔ key <+: t) :
    matchKey s = matchKey t := by
  apply List.find?_congr
  intro key hkey
  rw [Bool.eq_iff_iff, List.isPrefixOf_iff_prefix, List.isPrefixOf_iff_prefix]
  exact h key hkey

/-- Which key begins a text does not depend on anything behind a delimiter. -/
theorem matchKey_append {d : Char} (hd : Delimiter d) (s rest : Str) :
    matchKey (s ++ d :: rest) = matchKey s :=
  matchKey_congr fun key hkey => prefix_append_iff (hd key hkey)

/-- Which key is in front of `=` does not depend on the value. -/
theorem matchKey_masked {key value : Str} (h : matchKey (key ++ '=' :: value) = some key)
    (value' : Str) : matchKey (key ++ '=' :: value') = some key := by
  rw [matchKey_append delimiter_equals] at h ⊢
  exact h

theorem maskValue_equals (value : Str) :
    maskValue ('=' :: value) = ("=***".toList, value.dropWhile (· ∉ terminators)) := rfl

theorem maskValue_of_head_ne {afterKey : Str} (h : afterKey.head? ≠ some '=') :
    maskValue afterKey = ([], afterKey) := by
  cases afterKey with
  | nil => rfl
  | cons d afterKey =>
    have hd : d ≠ '=' := fun heq => h (congrArg some heq)
    have hprefix : ¬ ['='].isPrefixOf (d :: afterKey) := by
      rw [List.isPrefixOf_iff_prefix, List.cons_prefix_cons]
      exact fun heq => hd heq.1.symm
    rw [maskValue, stripPrefix, if_neg hprefix]

theorem length_maskValue_le (afterKey : Str) : (maskValue afterKey).2.length ≤ afterKey.length := by
  by_cases h : afterKey.head? = some '='
  · obtain ⟨value, rfl⟩ := List.head?_eq_some_iff.mp h
    have hdrop := (List.dropWhile_sublist (· ∉ terminators) (l := value)).length_le
    exact hdrop.trans (Nat.le_succ _)
  · rw [maskValue_of_head_ne h]

theorem length_drop_key {key : Str} (h : matchKey s = some key) :
    (s.drop key.length).length < s.length := by
  obtain ⟨hkey, hprefix⟩ := matchKey_some h
  have hpos := List.length_pos_of_ne_nil (credKeys_ne_nil key hkey)
  have hle := hprefix.length_le
  rw [List.length_drop]
  omega

theorem length_earliestKey {found : Occurrence} (h : earliestKey s = some found) :
    found.2.2.length < s.length := by
  induction s generalizing found with
  | nil => cases h
  | cons c s ih =>
    rw [earliestKey_cons] at h
    cases hkey : matchKey (c :: s) with
    | some key =>
      rw [hkey] at h
      obtain rfl := Option.some.inj h
      exact length_drop_key hkey
    | none =>
      rw [hkey] at h
      obtain ⟨found', hfound, rfl⟩ := Option.map_eq_some_iff.mp h
      exact (ih hfound).trans (Nat.lt_succ_self _)

/-- The loop ends before its fuel does. -/
theorem redactLoop_congr {n m : ℕ} (hn : s.length < n) (hm : s.length < m) :
    redactLoop n s = redactLoop m s := by
  induction n generalizing m s with
  | zero => cases hn
  | succ n ih =>
    obtain ⟨m, rfl⟩ : ∃ k, m = k + 1 := ⟨m - 1, by omega⟩
    rw [redactLoop, redactLoop]
    cases hfound : earliestKey s with
    | none => rfl
    | some found =>
      obtain ⟨before, key, afterKey⟩ := found
      have hlt : afterKey.length < s.length := length_earliestKey hfound
      have hle := length_maskValue_le afterKey
      dsimp only
      rw [ih (m := m) (by omega) (by omega)]

/-! ## The scan -/

theorem redactCreds_nil : redactCreds [] = [] := rfl

/-- A character that begins no key is copied. -/
theorem redactCreds_cons (h : matchKey (c :: s) = none) :
    redactCreds (c :: s) = c :: redactCreds s := by
  rw [redactCreds, redactLoop, earliestKey_cons, h, redactCreds, redactLoop]
  cases hfound : earliestKey s with
  | none => rfl
  | some found =>
    have hlt := length_earliestKey hfound
    have hle := length_maskValue_le found.2.2
    have hloop := redactLoop_congr (s := (maskValue found.2.2).2) (n := (c :: s).length)
      (m := s.length) (by rw [List.length_cons]; omega) (by omega)
    simp only [Option.map_some, Occurrence.shift, hloop, List.cons_append]

/-- A key is copied, and what follows it is masked if it is a value. -/
theorem redactCreds_key {key afterKey : Str} (h : matchKey (key ++ afterKey) = some key) :
    redactCreds (key ++ afterKey) =
      key ++ (maskValue afterKey).1 ++ redactCreds (maskValue afterKey).2 := by
  obtain ⟨hkey, -⟩ := matchKey_some h
  have hpos := List.length_pos_of_ne_nil (credKeys_ne_nil key hkey)
  have hle := length_maskValue_le afterKey
  have hloop := redactLoop_congr (s := (maskValue afterKey).2) (n := (key ++ afterKey).length)
    (m := (maskValue afterKey).2.length + 1) (by rw [List.length_append]; omega) (by omega)
  have hfound : earliestKey (key ++ afterKey) = some ([], key, afterKey) := by
    cases hs : key ++ afterKey with
    | nil =>
      rw [hs] at h
      cases h
    | cons d rest =>
      rw [earliestKey_cons, ← hs, h]
      simp
  rw [redactCreds, redactLoop, hfound, redactCreds, ← hloop]
  rfl

theorem redactCreds_masked {key value : Str} (h : matchKey (key ++ '=' :: value) = some key) :
    redactCreds (key ++ '=' :: value) =
      key ++ '=' :: ("***".toList ++ redactCreds (value.dropWhile (· ∉ terminators))) := by
  rw [redactCreds_key h, maskValue_equals, List.append_assoc]
  rfl

theorem redactCreds_bare {key afterKey : Str} (h : matchKey (key ++ afterKey) = some key)
    (hhead : afterKey.head? ≠ some '=') :
    redactCreds (key ++ afterKey) = key ++ redactCreds afterKey := by
  rw [redactCreds_key h, maskValue_of_head_ne hhead, List.append_nil]

/-- **Induction along the scan.** -/
theorem redact_induction {motive : Str → Prop} (nil : motive [])
    (plain : ∀ c s, matchKey (c :: s) = none → motive s → motive (c :: s))
    (masked : ∀ key value, matchKey (key ++ '=' :: value) = some key →
      motive (value.dropWhile (· ∉ terminators)) → motive (key ++ '=' :: value))
    (bare : ∀ key afterKey, matchKey (key ++ afterKey) = some key → afterKey.head? ≠ some '=' →
      motive afterKey → motive (key ++ afterKey)) (s : Str) : motive s := by
  induction hn : s.length using Nat.strong_induction_on generalizing s with
  | _ n ih =>
    subst hn
    cases hkey : matchKey s with
    | none =>
      cases s with
      | nil => exact nil
      | cons c s => exact plain c s hkey (ih s.length (Nat.lt_succ_self _) s rfl)
    | some key =>
      obtain ⟨hmem, afterKey, rfl⟩ := matchKey_some hkey
      have hpos := List.length_pos_of_ne_nil (credKeys_ne_nil key hmem)
      by_cases hhead : afterKey.head? = some '='
      · obtain ⟨value, rfl⟩ := List.head?_eq_some_iff.mp hhead
        have hdrop := (List.dropWhile_sublist (· ∉ terminators) (l := value)).length_le
        refine masked key value hkey (ih _ ?_ _ rfl)
        rw [List.length_append, List.length_cons]
        omega
      · refine bare key afterKey hkey hhead (ih _ ?_ _ rfl)
        rw [List.length_append]
        omega

/-! ## What masking keeps -/

/-- **The parts around a terminator are masked on their own.** -/
theorem redactCreds_append {t : Char} (ht : t ∈ terminators) (x y : Str) :
    redactCreds (x ++ t :: y) = redactCreds x ++ t :: redactCreds y := by
  obtain ⟨hdelimiter, hequals⟩ := delimiter_of_terminator ht
  induction x using redact_induction with
  | nil =>
    have hkey : matchKey (t :: y) = none := matchKey_append hdelimiter [] y
    rw [List.nil_append, redactCreds_cons hkey, redactCreds_nil, List.nil_append]
  | plain c s hkey ih =>
    have hkey' : matchKey (c :: (s ++ t :: y)) = none := (matchKey_append hdelimiter _ y).trans hkey
    rw [List.cons_append, redactCreds_cons hkey', ih, redactCreds_cons hkey, List.cons_append]
  | masked key value hkey ih =>
    -- the value ends at the terminator, if not before it
    have hdrop : (value ++ t :: y).dropWhile (· ∉ terminators) =
        value.dropWhile (· ∉ terminators) ++ t :: y := by
      rw [List.dropWhile_append, List.dropWhile_cons_of_neg (by simpa using ht)]
      split_ifs with hempty
      · rw [List.isEmpty_iff.mp hempty, List.nil_append]
      · rfl
    rw [List.append_assoc, List.cons_append, redactCreds_masked (matchKey_masked hkey _), hdrop,
      ih, redactCreds_masked hkey]
    simp only [List.append_assoc, List.cons_append]
  | bare key afterKey hkey hhead ih =>
    have hkey' : matchKey (key ++ (afterKey ++ t :: y)) = some key := by
      rw [← List.append_assoc, matchKey_append hdelimiter, hkey]
    have hhead' : (afterKey ++ t :: y).head? ≠ some '=' := by
      cases afterKey with
      | nil => exact fun heq => hequals (Option.some.inj heq)
      | cons d afterKey => exact hhead
    rw [List.append_assoc, redactCreds_bare hkey' hhead', ih, redactCreds_bare hkey hhead,
      List.append_assoc]

/-- Masking keeps the first character. -/
theorem head?_redactCreds (s : Str) : (redactCreds s).head? = s.head? := by
  have hcopied : ∀ {key x y : Str}, key ∈ credKeys → (key ++ x).head? = (key ++ y).head? := by
    intro key x y hkey
    obtain ⟨d, more, rfl⟩ := List.exists_cons_of_ne_nil (credKeys_ne_nil key hkey)
    rfl
  induction s using redact_induction with
  | nil => rfl
  | plain c s hkey ih =>
    rw [redactCreds_cons hkey]
    rfl
  | masked key value hkey ih =>
    rw [redactCreds_masked hkey]
    exact hcopied (matchKey_some hkey).1
  | bare key afterKey hkey hhead ih =>
    rw [redactCreds_bare hkey hhead]
    exact hcopied (matchKey_some hkey).1

/-- A prefix that reaches beyond a key is one of what is behind the key. -/
theorem prefix_append_of_imp {pre key x y : Str}
    (h : ∀ more, pre = key ++ more → more <+: x → more <+: y) (hpre : pre <+: key ++ x) :
    pre <+: key ++ y := by
  rcases List.prefix_or_prefix_of_prefix hpre (List.prefix_append key x) with hk | ⟨more, rfl⟩
  · exact hk.trans (List.prefix_append key y)
  · have hmore := (List.prefix_append_right_inj key).mp hpre
    exact (List.prefix_append_right_inj key).mpr (h more rfl hmore)

/-- Masking keeps what is in front of the first value. -/
theorem prefix_redactCreds_iff {pre : Str} (hpre : '=' ∉ pre) (s : Str) :
    pre <+: redactCreds s ↔ pre <+: s := by
  induction s using redact_induction generalizing pre with
  | nil => rfl
  | plain c s hkey ih =>
    rw [redactCreds_cons hkey]
    cases pre with
    | nil => exact iff_of_true List.nil_prefix List.nil_prefix
    | cons d pre =>
      rw [List.cons_prefix_cons, List.cons_prefix_cons]
      exact and_congr_right fun _ => ih fun hmem => hpre (List.mem_cons_of_mem d hmem)
  | masked key value hkey ih =>
    rw [redactCreds_masked hkey, prefix_append_iff hpre, prefix_append_iff hpre]
  | bare key afterKey hkey hhead ih =>
    rw [redactCreds_bare hkey hhead]
    have hmore : ∀ more, pre = key ++ more → '=' ∉ more := by
      rintro more rfl hmem
      exact hpre (List.mem_append_right key hmem)
    constructor
    · exact prefix_append_of_imp fun more heq => (ih (hmore more heq)).mp
    · exact prefix_append_of_imp fun more heq => (ih (hmore more heq)).mpr

theorem matchKey_redactCreds (s : Str) : matchKey (redactCreds s) = matchKey s :=
  matchKey_congr fun key hkey => prefix_redactCreds_iff (delimiter_equals key hkey) s

/-- A text without a character that ends a value. -/
def IsValue (value : Str) : Prop := ∀ d ∈ value, d ∉ terminators

/-- The text may follow a value. -/
def EndsValue (rest : Str) : Prop := ∀ d, rest.head? = some d → d ∈ terminators

theorem isValue_takeWhile (s : Str) : IsValue (s.takeWhile (· ∉ terminators)) := by
  intro d hd
  simpa using List.mem_takeWhile_imp hd

theorem endsValue_dropWhile (s : Str) : EndsValue (s.dropWhile (· ∉ terminators)) := by
  intro d hd
  have hnot := List.head?_dropWhile_not (· ∉ terminators) s
  rw [hd] at hnot
  simpa using hnot

theorem isValue_singleton {d : Char} (hd : d ∉ terminators) : IsValue [d] := by
  intro e he
  rwa [List.mem_singleton.mp he]

theorem isValue_mask : IsValue "***".toList := by
  intro d hd
  have hstar : d = '*' := by simpa using hd
  rw [hstar]
  decide

theorem dropWhile_value {value rest : Str} (hvalue : IsValue value) (hrest : EndsValue rest) :
    (value ++ rest).dropWhile (· ∉ terminators) = rest := by
  rw [List.dropWhile_append_of_pos fun d hd => by simpa using hvalue d hd]
  cases rest with
  | nil => rfl
  | cons d rest =>
    rw [List.dropWhile_cons_of_neg]
    simpa using hrest d rfl

/-- **Masking twice is masking once.** -/
theorem redactCreds_redactCreds (s : Str) : redactCreds (redactCreds s) = redactCreds s := by
  induction s using redact_induction with
  | nil => rfl
  | plain c s hkey ih =>
    have hkey' := matchKey_redactCreds (c :: s)
    rw [redactCreds_cons hkey] at hkey' ⊢
    rw [redactCreds_cons (hkey'.trans hkey), ih]
  | masked key value hkey ih =>
    have hkey' := matchKey_redactCreds (key ++ '=' :: value)
    -- what follows the mask still ends a value, so the mask is masked again
    have hrest : EndsValue (redactCreds (value.dropWhile (· ∉ terminators))) := by
      intro d hd
      rw [head?_redactCreds] at hd
      exact endsValue_dropWhile value d hd
    rw [redactCreds_masked hkey] at hkey' ⊢
    rw [redactCreds_masked (hkey'.trans hkey), dropWhile_value isValue_mask hrest, ih]
  | bare key afterKey hkey hhead ih =>
    have hkey' := matchKey_redactCreds (key ++ afterKey)
    have hhead' := head?_redactCreds afterKey
    rw [redactCreds_bare hkey hhead] at hkey' ⊢
    rw [redactCreds_bare (hkey'.trans hkey) (hhead'.trans_ne hhead), ih]

/-- A text without `=` has no value to mask. -/
theorem redactCreds_of_not_mem {s : Str} (h : '=' ∉ s) : redactCreds s = s := by
  induction s using redact_induction with
  | nil => rfl
  | plain c s hkey ih =>
    rw [redactCreds_cons hkey, ih fun hmem => h (List.mem_cons_of_mem c hmem)]
  | masked key value hkey ih => exact absurd (List.mem_append_right key List.mem_cons_self) h
  | bare key afterKey hkey hhead ih =>
    rw [redactCreds_bare hkey hhead, ih fun hmem => h (List.mem_append_right key hmem)]

/-! ## What masking forgets -/

/-- One text is the other with another value behind a key. -/
inductive ValueChanged : Str → Str → Prop
  | intro (before rest : Str) {key value value' : Str} (hkey : key ∈ credKeys)
      (hvalue : IsValue value) (hvalue' : IsValue value') (hrest : EndsValue rest) :
      ValueChanged (before ++ (key ++ '=' :: (value ++ rest)))
        (before ++ (key ++ '=' :: (value' ++ rest)))

instance : Std.Symm ValueChanged where
  symm s t h := by
    cases h with
    | intro before rest hkey hvalue hvalue' hrest =>
      exact .intro before rest hkey hvalue' hvalue hrest

theorem ValueChanged.append {s t : Str} (pre : Str) (h : ValueChanged s t) :
    ValueChanged (pre ++ s) (pre ++ t) := by
  cases h with
  | intro before rest hkey hvalue hvalue' hrest =>
    rw [← List.append_assoc pre, ← List.append_assoc pre]
    exact .intro (pre ++ before) rest hkey hvalue hvalue' hrest

/-- A key does not begin within another one. -/
theorem prefix_of_prefix_append {key key' before : Str} (hkey : key ∈ credKeys)
    (hkey' : key' ∈ credKeys) (hbefore : before ≠ []) (h : key' <+: before ++ key) :
    key' <+: before := by
  have hheads : credKeys.all fun key => credKeys.all fun key' => key'.tail.all fun d =>
      key.head? ≠ some d := by
    decide
  simp only [List.all_eq_true, decide_eq_true_eq] at hheads
  rcases List.prefix_or_prefix_of_prefix h (List.prefix_append before key) with hle | ⟨more, rfl⟩
  · exact hle
  · cases more with
    | nil => simp
    | cons d more =>
      obtain ⟨c, before, rfl⟩ := List.exists_cons_of_ne_nil hbefore
      -- the first character of a key is not within another key
      obtain ⟨behind, rfl⟩ := (List.prefix_append_right_inj (c :: before)).mp h
      have hmem : d ∈ ((c :: before) ++ d :: more).tail :=
        List.mem_append_right before List.mem_cons_self
      exact absurd rfl (hheads _ hkey _ hkey' d hmem)

/-- Which key begins a text does not depend on a key and a value that come later. -/
theorem matchKey_before {key before : Str} (hkey : key ∈ credKeys) (hbefore : before ≠ [])
    (rest : Str) : matchKey (before ++ (key ++ '=' :: rest)) = matchKey before := by
  refine matchKey_congr fun key' hkey' => ?_
  rw [← List.append_assoc, prefix_append_iff (delimiter_equals key' hkey')]
  constructor
  · exact prefix_of_prefix_append hkey hkey' hbefore
  · exact fun h => h.trans (List.prefix_append before key)

/-- A key and a value are a value themselves. -/
theorem IsValue.query {key value : Str} (hkey : key ∈ credKeys) (hvalue : IsValue value) :
    IsValue (key ++ '=' :: value) := by
  have hkeys : credKeys.all fun key => key.all (· ∉ terminators) := by decide
  simp only [List.all_eq_true, decide_eq_true_eq] at hkeys
  have hequals : '=' ∉ terminators := by decide
  intro d hd
  rcases List.mem_append.mp hd with hmem | hmem
  · exact hkeys key hkey d hmem
  · rcases List.mem_cons.mp hmem with rfl | hmem
    · exact hequals
    · exact hvalue d hmem

/-- **A value leaves no trace**: what is written up to its end depends on what is before it alone,
and what is written behind it on what follows its end. -/
theorem redactCreds_query {key : Str} (hkey : key ∈ credKeys) (before : Str) :
    ∃ masked, ∀ value, redactCreds (before ++ (key ++ '=' :: value)) =
      masked ++ redactCreds (value.dropWhile (· ∉ terminators)) := by
  induction before using redact_induction with
  | nil =>
    have hkeys : ∀ key ∈ credKeys, matchKey key = some key := by decide
    have hmatch : ∀ value, matchKey (key ++ '=' :: value) = some key := by
      intro value
      rw [matchKey_append delimiter_equals, hkeys key hkey]
    refine ⟨key ++ '=' :: "***".toList, fun value => ?_⟩
    rw [List.nil_append, redactCreds_masked (hmatch value), List.append_assoc, List.cons_append]
  | plain c s hmatch ih =>
    obtain ⟨masked, hmasked⟩ := ih
    refine ⟨c :: masked, fun value => ?_⟩
    have hmatch' : matchKey (c :: (s ++ (key ++ '=' :: value))) = none :=
      (matchKey_before hkey (List.cons_ne_nil c s) value).trans hmatch
    rw [List.cons_append, redactCreds_cons hmatch', hmasked, List.cons_append]
  | masked key₀ value₀ hmatch ih =>
    obtain ⟨masked, hmasked⟩ := ih
    -- where the value before it is not at its end, the key is a part of it
    have hdrop : ∀ value, (value₀ ++ (key ++ '=' :: value)).dropWhile (· ∉ terminators) =
        if (value₀.dropWhile (· ∉ terminators)).isEmpty then value.dropWhile (· ∉ terminators)
        else value₀.dropWhile (· ∉ terminators) ++ (key ++ '=' :: value) := by
      intro value
      have hquery : IsValue (key ++ '=' :: []) := IsValue.query hkey fun d hd => by cases hd
      rw [List.dropWhile_append, List.append_cons,
        List.dropWhile_append_of_pos fun d hd => by simpa using hquery d hd, ← List.append_cons]
    have hstep : ∀ value, redactCreds (key₀ ++ '=' :: value₀ ++ (key ++ '=' :: value)) =
        key₀ ++ '=' :: ("***".toList ++
          redactCreds ((value₀ ++ (key ++ '=' :: value)).dropWhile (· ∉ terminators))) := by
      intro value
      rw [List.append_assoc, List.cons_append, redactCreds_masked (matchKey_masked hmatch _)]
    by_cases hempty : (value₀.dropWhile (· ∉ terminators)).isEmpty = true
    · refine ⟨key₀ ++ '=' :: "***".toList, fun value => ?_⟩
      rw [hstep, hdrop, if_pos hempty, List.append_assoc, List.cons_append]
    · refine ⟨key₀ ++ '=' :: ("***".toList ++ masked), fun value => ?_⟩
      rw [hstep, hdrop, if_neg hempty, hmasked]
      simp only [List.append_assoc, List.cons_append]
  | bare key₀ afterKey hmatch hhead ih =>
    obtain ⟨masked, hmasked⟩ := ih
    refine ⟨key₀ ++ masked, fun value => ?_⟩
    have hbefore : key₀ ++ afterKey ≠ [] :=
      List.append_ne_nil_of_left_ne_nil (credKeys_ne_nil key₀ (matchKey_some hmatch).1) afterKey
    have hmatch' : matchKey (key₀ ++ (afterKey ++ (key ++ '=' :: value))) = some key₀ := by
      rw [← List.append_assoc, matchKey_before hkey hbefore, hmatch]
    have hhead' : (afterKey ++ (key ++ '=' :: value)).head? ≠ some '=' := by
      cases afterKey with
      | nil =>
        obtain ⟨d, more, rfl⟩ := List.exists_cons_of_ne_nil (credKeys_ne_nil key hkey)
        intro heq
        obtain rfl := Option.some.inj heq
        exact delimiter_equals _ hkey List.mem_cons_self
      | cons d afterKey => exact hhead
    rw [List.append_assoc, redactCreds_bare hmatch' hhead', hmasked, List.append_assoc]

theorem redactCreds_value {key value value' : Str} (hkey : key ∈ credKeys) (hvalue : IsValue value)
    (hvalue' : IsValue value') {rest : Str} (hrest : EndsValue rest) (before : Str) :
    redactCreds (before ++ (key ++ '=' :: (value ++ rest))) =
      redactCreds (before ++ (key ++ '=' :: (value' ++ rest))) := by
  obtain ⟨masked, hmasked⟩ := redactCreds_query hkey before
  rw [hmasked, hmasked, dropWhile_value hvalue hrest, dropWhile_value hvalue' hrest]

theorem ValueChanged.redactCreds_eq {s t : Str} (h : ValueChanged s t) :
    redactCreds s = redactCreds t := by
  cases h with
  | intro before rest hkey hvalue hvalue' hrest =>
    exact redactCreds_value hkey hvalue hvalue' hrest before

/-- Masking changes values, and nothing else. -/
theorem changed_redactCreds (s : Str) : Relation.ReflTransGen ValueChanged s (redactCreds s) := by
  induction s using redact_induction with
  | nil => exact .refl
  | plain c s hkey ih =>
    rw [redactCreds_cons hkey]
    exact ih.lift ([c] ++ ·) fun _ _ h => h.append [c]
  | masked key value hkey ih =>
    have hmask := ValueChanged.intro [] (value.dropWhile (· ∉ terminators)) (matchKey_some hkey).1
      (isValue_takeWhile value) isValue_mask (endsValue_dropWhile value)
    rw [List.takeWhile_append_dropWhile] at hmask
    rw [redactCreds_masked hkey]
    refine .head hmask ?_
    have hrest := ih.lift (key ++ '=' :: "***".toList ++ ·) fun _ _ h => h.append _
    simpa only [List.nil_append, List.append_assoc, List.cons_append] using hrest
  | bare key afterKey hkey hhead ih =>
    rw [redactCreds_bare hkey hhead]
    exact ih.lift (key ++ ·) fun _ _ h => h.append key

/-- **Two texts are masked alike if and only if one becomes the other by changes of values.** -/
theorem redactCreds_eq_iff {s t : Str} :
    redactCreds s = redactCreds t ↔ Relation.ReflTransGen ValueChanged s t := by
  constructor
  · intro h
    have hs := changed_redactCreds s
    rw [h] at hs
    exact hs.trans (Std.Symm.symm _ _ (changed_redactCreds t))
  · intro h
    induction h with
    | refl => rfl
    | tail _ hstep ih => exact ih.trans hstep.redactCreds_eq

end Fosipcore
