import Fosipcore.Proxy.Redact

/-!
# What is masked

The masked text is the text itself with other values: behind each `key=` that is not part of a value
itself, the text up to the next terminator is replaced by the mask, and everything else is copied. So
the masked text has no `key=` with anything but the mask behind it.

## Main definitions

* `NoValue`: a text in which no `key=` occurs
* `Masked`: a text, and the same with its values replaced

## Main results

* `redactCreds_spec`: what the masked text is, and what it is not
-/

namespace Fosipcore

open Text

/-! ## Texts and their values -/

/-- No key with an equals sign occurs. -/
def NoValue (s : Str) : Prop := ∀ key ∈ credKeys, ¬ key ++ ['='] <:+: s

/-- **The text with its values replaced**: behind the first `key=`, what stands up to the next
terminator is a value, and then follows the rest. -/
inductive Masked : Str → Str → Prop
  | unchanged {s : Str} : NoValue s → Masked s s
  | replaced {before key value rest masked : Str} : key ∈ credKeys → NoValue (before ++ key) →
      IsValue value → EndsValue rest → Masked rest masked →
      Masked (before ++ (key ++ '=' :: (value ++ rest)))
        (before ++ (key ++ '=' :: ("***".toList ++ masked)))

/-- The value of every `key=` is the mask. -/
def OnlyMasks (s : Str) : Prop :=
  ∀ key ∈ credKeys, ∀ before rest, s = before ++ (key ++ '=' :: rest) →
    ∃ rest', rest = "***".toList ++ rest' ∧ EndsValue rest'

/-! ## Where a key begins -/

/-- A key does not begin with such a character. -/
def NoHead (c : Char) : Prop := ∀ key ∈ credKeys, key.head? ≠ some c

instance (c : Char) : Decidable (NoHead c) := inferInstanceAs (Decidable (∀ key ∈ _, _))

theorem noHead_tail (key : Str) (hkey : key ∈ credKeys) : ∀ c ∈ key.tail, NoHead c := by
  have htails : ∀ key ∈ credKeys, key.tail.all (fun c => decide (NoHead c)) = true := by decide
  exact forall_of_all (htails key hkey)

theorem noHead_equals : NoHead '=' := by decide

theorem noHead_mask : ∀ c ∈ "***".toList, NoHead c := forall_of_all (by decide)

variable {c : Char} {key s : Str}

theorem not_prefix_of_noHead (hc : NoHead c) (hkey : key ∈ credKeys) (s : Str) :
    ¬ key ++ ['='] <+: c :: s := by
  intro h
  obtain ⟨d, tail, rfl⟩ := List.exists_cons_of_ne_nil (credKeys_ne_nil key hkey)
  obtain ⟨rfl, -⟩ := List.cons_prefix_cons.mp h
  exact hc _ hkey rfl

theorem prefix_of_eq {rest : Str} (h : s = key ++ '=' :: rest) : key ++ ['='] <+: s :=
  ⟨rest, by rw [h, List.append_assoc, List.singleton_append]⟩

/-- The key in front of an equals sign is the one that the scan finds. -/
theorem matchKey_of_startsWith (hkey : key ∈ credKeys) (h : key ++ ['='] <+: s) :
    matchKey s = some key := by
  have hkeys : ∀ key ∈ credKeys, matchKey key = some key := by decide
  obtain ⟨rest, rfl⟩ := h
  rw [List.append_assoc, List.singleton_append, matchKey_append delimiter_equals, hkeys key hkey]

/-- A key without an equals sign behind it begins no value. -/
theorem not_prefix_of_bare {afterKey : Str} (h : matchKey (key ++ afterKey) = some key)
    (hhead : afterKey.head? ≠ some '=') {key' : Str} (hkey' : key' ∈ credKeys) :
    ¬ key' ++ ['='] <+: key ++ afterKey := by
  intro hprefix
  have hsame := matchKey_of_startsWith hkey' hprefix
  rw [h] at hsame
  obtain rfl := Option.some.inj hsame
  obtain ⟨rest, hrest⟩ := (List.prefix_append_right_inj key).mp hprefix
  exact hhead (by rw [← hrest]; rfl)

/-- An occurrence does not begin among characters with which no key begins. -/
theorem exists_behind {front behind before rest : Str} (hfront : ∀ c ∈ front, NoHead c)
    (hkey : key ∈ credKeys) (h : front ++ behind = before ++ (key ++ '=' :: rest)) :
    ∃ before', before = front ++ before' ∧ behind = before' ++ (key ++ '=' :: rest) := by
  induction front generalizing before with
  | nil => exact ⟨before, rfl, h⟩
  | cons c front ih =>
    cases before with
    | nil =>
      exact absurd (prefix_of_eq h) (not_prefix_of_noHead (hfront c List.mem_cons_self) hkey _)
    | cons d before =>
      obtain ⟨rfl, htail⟩ := List.cons.inj h
      obtain ⟨before', rfl, hbehind⟩ :=
        ih (fun e he => hfront e (List.mem_cons_of_mem c he)) htail
      exact ⟨before', rfl, hbehind⟩

/-! ## The values are replaced -/

theorem Masked.cons {masked : Str} (hc : ∀ key ∈ credKeys, ¬ key ++ ['='] <+: c :: s)
    (h : Masked s masked) : Masked (c :: s) (c :: masked) := by
  cases h with
  | unchanged hnone =>
    refine .unchanged fun key hkey hinfix => ?_
    rcases List.infix_cons_iff.mp hinfix with hprefix | hinfix
    · exact hc key hkey hprefix
    · exact hnone key hkey hinfix
  | @replaced before key value rest masked hkey hnone hvalue hrest hmasked =>
    have hnone' : NoValue (c :: before ++ key) := by
      intro key' hkey' hinfix
      rcases List.infix_cons_iff.mp hinfix with hfront | hbehind
      · refine hc key' hkey' (hfront.trans ?_)
        rw [List.cons_prefix_cons, ← List.append_assoc]
        exact ⟨rfl, List.prefix_append _ _⟩
      · exact hnone key' hkey' hbehind
    exact .replaced hkey hnone' hvalue hrest hmasked

theorem Masked.append {front masked : Str} (hfront : ∀ c ∈ front, NoHead c) (h : Masked s masked) :
    Masked (front ++ s) (front ++ masked) := by
  induction front with
  | nil => exact h
  | cons c front ih =>
    exact (ih fun d hd => hfront d (List.mem_cons_of_mem c hd)).cons
      fun key hkey => not_prefix_of_noHead (hfront c List.mem_cons_self) hkey _

/-- **The values are replaced**, and nothing else. -/
theorem masked_redactCreds (s : Str) : Masked s (redactCreds s) := by
  induction s using redact_induction with
  | nil => exact .unchanged fun key _ h => absurd (List.infix_nil.mp h) (by simp)
  | plain c s hkey ih =>
    rw [redactCreds_cons hkey]
    refine ih.cons fun key hmem hprefix => ?_
    rw [matchKey_of_startsWith hmem hprefix] at hkey
    cases hkey
  | masked key value hkey ih =>
    have hmem := (matchKey_some hkey).1
    have hnone : NoValue ([] ++ key) := fun key' _ hwithin =>
      delimiter_equals key hmem (hwithin.subset (List.mem_append_right key' List.mem_cons_self))
    have hmasked := Masked.replaced hmem hnone (isValue_takeWhile value) (endsValue_dropWhile value)
      ih
    rw [List.takeWhile_append_dropWhile] at hmasked
    rw [redactCreds_masked hkey]
    exact hmasked
  | bare key afterKey hkey hhead ih =>
    have hmem := (matchKey_some hkey).1
    have hbare : ∀ key' ∈ credKeys, ¬ key' ++ ['='] <+: key ++ afterKey :=
      fun _ hkey' => not_prefix_of_bare hkey hhead hkey'
    rw [redactCreds_bare hkey hhead]
    obtain ⟨c, tail, rfl⟩ := List.exists_cons_of_ne_nil (credKeys_ne_nil key hmem)
    exact (ih.append (noHead_tail _ hmem)).cons hbare

/-- Where there is no value, nothing is replaced. -/
theorem Masked.eq_of_noValue {masked : Str} (h : Masked s masked) (hnone : NoValue s) :
    masked = s := by
  cases h with
  | unchanged => rfl
  | @replaced before key value rest _ hkey =>
    refine absurd ⟨before, value ++ rest, ?_⟩ (hnone key hkey)
    simp only [List.append_assoc, List.singleton_append]

/-! ## Only masks are left -/

/-- **Every value of the masked text is the mask.** -/
theorem onlyMasks_redactCreds (s : Str) : OnlyMasks (redactCreds s) := by
  induction s using redact_induction with
  | nil =>
    intro key hkey before rest h
    exact absurd h.symm (by simp [redactCreds_nil])
  | plain c s hkey ih =>
    intro key hmem before rest h
    have hkey' := (matchKey_redactCreds (c :: s)).trans hkey
    rw [redactCreds_cons hkey] at h hkey'
    cases before with
    | nil =>
      rw [matchKey_of_startsWith hmem (prefix_of_eq h)] at hkey'
      cases hkey'
    | cons d before => exact ih key hmem before rest (List.cons.inj h).2
  | masked key₀ value hkey ih =>
    intro key hmem before rest h
    have hmem₀ := (matchKey_some hkey).1
    have hkey' := (matchKey_redactCreds (key₀ ++ '=' :: value)).trans hkey
    rw [redactCreds_masked hkey] at h hkey'
    cases before with
    | nil =>
      -- the occurrence is that of the key itself
      rw [matchKey_of_startsWith hmem (prefix_of_eq h)] at hkey'
      obtain rfl := Option.some.inj hkey'
      refine ⟨_, (List.cons.inj (List.append_cancel_left h)).2.symm, fun d hd => ?_⟩
      rw [head?_redactCreds] at hd
      exact endsValue_dropWhile value d hd
    | cons d before =>
      obtain ⟨c, tail, rfl⟩ := List.exists_cons_of_ne_nil (credKeys_ne_nil key₀ hmem₀)
      have hfront : ∀ e ∈ tail ++ '=' :: "***".toList, NoHead e := by
        intro e he
        rcases List.mem_append.mp he with he | he
        · exact noHead_tail _ hmem₀ e he
        · rcases List.mem_cons.mp he with rfl | he
          · exact noHead_equals
          · exact noHead_mask e he
      have hbehind : (tail ++ '=' :: "***".toList) ++
          redactCreds (value.dropWhile (· ∉ terminators)) = before ++ (key ++ '=' :: rest) := by
        rw [List.append_assoc]
        exact (List.cons.inj h).2
      obtain ⟨before', -, hrest⟩ := exists_behind hfront hmem hbehind
      exact ih key hmem before' rest hrest
  | bare key₀ afterKey hkey hhead ih =>
    intro key hmem before rest h
    have hmem₀ := (matchKey_some hkey).1
    have hkey' := (matchKey_redactCreds (key₀ ++ afterKey)).trans hkey
    rw [redactCreds_bare hkey hhead] at h hkey'
    cases before with
    | nil =>
      have hhead' : (redactCreds afterKey).head? ≠ some '=' := by rwa [head?_redactCreds]
      exact absurd (prefix_of_eq h) (not_prefix_of_bare hkey' hhead' hmem)
    | cons d before =>
      obtain ⟨c, tail, rfl⟩ := List.exists_cons_of_ne_nil (credKeys_ne_nil key₀ hmem₀)
      obtain ⟨before', -, hrest⟩ := exists_behind (noHead_tail _ hmem₀) hmem (List.cons.inj h).2
      exact ih key hmem before' rest hrest

/-- **What masking does.** Every `key=` of the masked text is followed by the mask, and then by a
terminator or the end; masking twice is masking once; a text without a `key=` stays as it is; and
of any text only the values are replaced. -/
theorem redactCreds_spec (s : Str) :
    OnlyMasks (redactCreds s) ∧ redactCreds (redactCreds s) = redactCreds s ∧
      (NoValue s → redactCreds s = s) ∧ Masked s (redactCreds s) :=
  ⟨onlyMasks_redactCreds s, redactCreds_redactCreds s, (masked_redactCreds s).eq_of_noValue,
    masked_redactCreds s⟩

end Fosipcore
