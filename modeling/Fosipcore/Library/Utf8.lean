import Fosipcore.Library.Text

/-!
# UTF-8 with replacement characters

The text of any sequence of bytes: what is no valid UTF-8 becomes a replacement character for each
longest beginning of an encoding. A valid sequence is its own text, and a line feed is its own
encoding, so that lines can be told apart before they are decoded.

## Main definitions

* `fromUtf8Lossy`: the text with replacement characters
* `encodeUtf8`: the encoding of a text

## Main results

* `fromUtf8Lossy_eq`: valid bytes are decoded
* `decodeUtf8_encodeUtf8`: so is the encoding of a text
* `length_fromUtf8Lossy_cons`: a byte is the beginning of one character at most
* `decodeUtf8_concat_newline`, `newline_not_mem_of_decodeUtf8`: lines before and after decoding
-/

namespace Text

/-- What stands for bytes that are no encoding. -/
def replacement : Char := '\uFFFD'

/-- A continuation byte. -/
def isContinuation (b : UInt8) : Bool := 0x80 ≤ b.toNat && b.toNat < 0xC0

/-- The second of three bytes: neither an encoding that is too long nor a surrogate. -/
def isSecondOfThree (a b : UInt8) : Bool :=
  if a.toNat = 0xE0 then 0xA0 ≤ b.toNat && b.toNat < 0xC0
  else if a.toNat = 0xED then 0x80 ≤ b.toNat && b.toNat < 0xA0
  else isContinuation b

/-- The second of four bytes: neither an encoding that is too long nor beyond the last character. -/
def isSecondOfFour (a b : UInt8) : Bool :=
  if a.toNat = 0xF0 then 0x90 ≤ b.toNat && b.toNat < 0xC0
  else if a.toNat = 0xF4 then 0x80 ≤ b.toNat && b.toNat < 0x90
  else isContinuation b

/-- **The text of any bytes**, with replacement characters. -/
def fromUtf8Lossy : List UInt8 → Str
  | [] => []
  | a :: rest =>
    if a.toNat < 0x80 then Char.ofNat a.toNat :: fromUtf8Lossy rest
    else if a.toNat < 0xC2 then replacement :: fromUtf8Lossy rest
    else if a.toNat < 0xE0 then
      match rest with
      | [] => [replacement]
      | b :: tail =>
        if isContinuation b then
          Char.ofNat ((a.toNat - 0xC0) * 0x40 + (b.toNat - 0x80)) :: fromUtf8Lossy tail
        else replacement :: fromUtf8Lossy (b :: tail)
    else if a.toNat < 0xF0 then
      match rest with
      | [] => [replacement]
      | b :: tail =>
        if isSecondOfThree a b then
          match tail with
          | [] => [replacement]
          | c :: tail =>
            if isContinuation c then
              Char.ofNat (((a.toNat - 0xE0) * 0x40 + (b.toNat - 0x80)) * 0x40 + (c.toNat - 0x80)) ::
                fromUtf8Lossy tail
            else replacement :: fromUtf8Lossy (c :: tail)
        else replacement :: fromUtf8Lossy (b :: tail)
    else if a.toNat < 0xF5 then
      match rest with
      | [] => [replacement]
      | b :: tail =>
        if isSecondOfFour a b then
          match tail with
          | [] => [replacement]
          | c :: tail =>
            if isContinuation c then
              match tail with
              | [] => [replacement]
              | d :: tail =>
                if isContinuation d then
                  Char.ofNat ((((a.toNat - 0xF0) * 0x40 + (b.toNat - 0x80)) * 0x40 +
                    (c.toNat - 0x80)) * 0x40 + (d.toNat - 0x80)) :: fromUtf8Lossy tail
                else replacement :: fromUtf8Lossy (d :: tail)
            else replacement :: fromUtf8Lossy (c :: tail)
        else replacement :: fromUtf8Lossy (b :: tail)
    else replacement :: fromUtf8Lossy rest
termination_by structural bytes => bytes

/-- The encoding of a character. -/
inductive Encodes : List UInt8 → Char → Prop
  | one {a : UInt8} : a.toNat < 0x80 → Encodes [a] (Char.ofNat a.toNat)
  | two {a b : UInt8} : 0xC2 ≤ a.toNat → a.toNat < 0xE0 → isContinuation b = true →
      Encodes [a, b] (Char.ofNat ((a.toNat - 0xC0) * 0x40 + (b.toNat - 0x80)))
  | three {a b c : UInt8} : 0xE0 ≤ a.toNat → a.toNat < 0xF0 → isSecondOfThree a b = true →
      isContinuation c = true →
      Encodes [a, b, c] (Char.ofNat (((a.toNat - 0xE0) * 0x40 + (b.toNat - 0x80)) * 0x40 +
        (c.toNat - 0x80)))
  | four {a b c d : UInt8} : 0xF0 ≤ a.toNat → a.toNat < 0xF5 → isSecondOfFour a b = true →
      isContinuation c = true → isContinuation d = true →
      Encodes [a, b, c, d] (Char.ofNat ((((a.toNat - 0xF0) * 0x40 + (b.toNat - 0x80)) * 0x40 +
        (c.toNat - 0x80)) * 0x40 + (d.toNat - 0x80)))

/-- The encoding of a character. -/
def encodeChar (c : Char) : List UInt8 :=
  let n := c.toNat
  if n < 0x80 then [.ofNat n]
  else if n < 0x800 then [.ofNat (0xC0 + n / 0x40), .ofNat (0x80 + n % 0x40)]
  else if n < 0x10000 then
    [.ofNat (0xE0 + n / 0x1000), .ofNat (0x80 + n / 0x40 % 0x40), .ofNat (0x80 + n % 0x40)]
  else
    [.ofNat (0xF0 + n / 0x40000), .ofNat (0x80 + n / 0x1000 % 0x40),
      .ofNat (0x80 + n / 0x40 % 0x40), .ofNat (0x80 + n % 0x40)]

/-- The encoding of a text. -/
def encodeUtf8 (s : Str) : List UInt8 := s.flatMap encodeChar

/-! ## Decoding one character -/

theorem isContinuation_iff {b : UInt8} :
    isContinuation b = true ↔ 0x80 ≤ b.toNat ∧ b.toNat < 0xC0 := by
  simp only [isContinuation, Bool.and_eq_true, decide_eq_true_eq]

theorem continuation_eq_some {b : UInt8} {n : ℕ} :
    continuation b = some n ↔ isContinuation b = true ∧ b.toNat - 0x80 = n := by
  simp only [continuation, isContinuation, Bool.and_eq_true, decide_eq_true_eq]
  split_ifs with h
  · simp [h]
  · simp [h]

theorem scalar_eq_some (min : ℕ) {n : ℕ} {c : Char} :
    scalar min n = some c ↔ min ≤ n ∧ n.isValidChar ∧ Char.ofNat n = c := by
  unfold scalar
  split_ifs with h
  · simp [h]
  · simp only [false_iff]
    exact fun h' => h ⟨h'.1, h'.2.1⟩

/-- **Decoding takes the encoding of a character** from the front. -/
theorem exists_encodes_of_decodeUtf8 {bytes : List UInt8} {text : Str} (hne : bytes ≠ [])
    (h : decodeUtf8 bytes = some text) :
    ∃ front tail c text', bytes = front ++ tail ∧ Encodes front c ∧ text = c :: text' ∧
      decodeUtf8 tail = some text' := by
  obtain ⟨a, rest, rfl⟩ := List.exists_cons_of_ne_nil hne
  rw [decodeUtf8.eq_def] at h
  dsimp only at h
  split_ifs at h with hone hlead htwo hthree
  · obtain ⟨text', hrest, rfl⟩ := Option.map_eq_some_iff.mp h
    exact ⟨[a], rest, _, text', rfl, .one hone, rfl, hrest⟩
  · split at h
    · next b tail =>
      simp only [Option.bind_eq_bind, Option.bind_eq_some_iff, continuation_eq_some,
        scalar_eq_some, Option.map_eq_some_iff] at h
      obtain ⟨_, ⟨hb, rfl⟩, _, ⟨hmin, -, rfl⟩, text', htail, rfl⟩ := h
      have hcont := isContinuation_iff.mp hb
      have hencodes := Encodes.two (a := a) (b := b) (by omega) htwo hb
      exact ⟨_, tail, _, text', rfl, hencodes, rfl, htail⟩
    · cases h
  · split at h
    · next b c tail =>
      simp only [Option.bind_eq_bind, Option.bind_eq_some_iff, continuation_eq_some,
        scalar_eq_some, Option.map_eq_some_iff] at h
      obtain ⟨_, ⟨hb, rfl⟩, _, ⟨hc, rfl⟩, _, ⟨hmin, hvalid, rfl⟩, text', htail, rfl⟩ := h
      have hcont := isContinuation_iff.mp hc
      rw [isContinuation_iff] at hb
      -- with `E0`, a low second byte encodes too little, and with `ED`, a high one a surrogate
      have hsecond : isSecondOfThree a b = true := by
        simp only [Nat.isValidChar] at hvalid
        unfold isSecondOfThree isContinuation
        split_ifs <;> simp only [Bool.and_eq_true, decide_eq_true_eq] <;> omega
      have hencodes := Encodes.three (a := a) (b := b) (by omega) hthree hsecond hc
      exact ⟨_, tail, _, text', rfl, hencodes, rfl, htail⟩
    · cases h
  · split at h
    · next b c d tail =>
      simp only [Option.bind_eq_bind, Option.bind_eq_some_iff, continuation_eq_some,
        scalar_eq_some, Option.map_eq_some_iff] at h
      obtain ⟨_, ⟨hb, rfl⟩, _, ⟨hc, rfl⟩, _, ⟨hd, rfl⟩, _, ⟨hmin, hvalid, rfl⟩, text', htail,
        rfl⟩ := h
      have hcont := isContinuation_iff.mp hc
      have hcont' := isContinuation_iff.mp hd
      rw [isContinuation_iff] at hb
      simp only [Nat.isValidChar] at hvalid
      -- with `F0`, a low second byte encodes too little, and with `F4`, a high one too much
      have hsecond : isSecondOfFour a b = true := by
        unfold isSecondOfFour isContinuation
        split_ifs <;> simp only [Bool.and_eq_true, decide_eq_true_eq] <;> omega
      have hencodes := Encodes.four (a := a) (b := b) (by omega) (by omega) hsecond hc hd
      exact ⟨_, tail, _, text', rfl, hencodes, rfl, htail⟩
    · cases h

/-- The second byte of three is a continuation byte, neither low behind `E0` nor high behind
`ED`. -/
theorem isSecondOfThree_bounds {a b : UInt8} (h : isSecondOfThree a b = true) :
    0x80 ≤ b.toNat ∧ b.toNat < 0xC0 ∧ (a.toNat = 0xE0 → 0xA0 ≤ b.toNat) ∧
      (a.toNat = 0xED → b.toNat < 0xA0) := by
  unfold isSecondOfThree isContinuation at h
  split_ifs at h <;> simp only [Bool.and_eq_true, decide_eq_true_eq] at h <;> omega

/-- The second byte of four is a continuation byte, neither low behind `F0` nor high behind
`F4`. -/
theorem isSecondOfFour_bounds {a b : UInt8} (h : isSecondOfFour a b = true) :
    0x80 ≤ b.toNat ∧ b.toNat < 0xC0 ∧ (a.toNat = 0xF0 → 0x90 ≤ b.toNat) ∧
      (a.toNat = 0xF4 → b.toNat < 0x90) := by
  unfold isSecondOfFour isContinuation at h
  split_ifs at h <;> simp only [Bool.and_eq_true, decide_eq_true_eq] at h <;> omega

/-- An encoding is decoded in front of any bytes. -/
theorem Encodes.decodeUtf8_append {front : List UInt8} {c : Char} (h : Encodes front c)
    (tail : List UInt8) : decodeUtf8 (front ++ tail) = (decodeUtf8 tail).map (c :: ·) := by
  cases h with
  | one ha =>
    rw [List.singleton_append, decodeUtf8.eq_def]
    exact if_pos ha
  | @two a b hlow hhigh hb =>
    have hcont := continuation_eq_some.mpr ⟨hb, rfl⟩
    rw [isContinuation_iff] at hb
    have hvalid : ((a.toNat - 0xC0) * 0x40 + (b.toNat - 0x80)).isValidChar := .inl (by omega)
    have hscalar := (scalar_eq_some 0x80).mpr ⟨by omega, hvalid, rfl⟩
    simp only [List.cons_append, List.nil_append]
    rw [decodeUtf8.eq_def]
    dsimp only
    rw [if_neg (by omega), if_neg (by omega), if_pos hhigh]
    simp only [hcont, hscalar, Option.bind_eq_bind, Option.bind_some]
  | @three a b c hlow hhigh hb hc =>
    obtain ⟨hblow, hbhigh, hshort, hsurrogate⟩ := isSecondOfThree_bounds hb
    have hcont := continuation_eq_some.mpr ⟨isContinuation_iff.mpr ⟨hblow, hbhigh⟩, rfl⟩
    have hcont' := continuation_eq_some.mpr ⟨hc, rfl⟩
    rw [isContinuation_iff] at hc
    have hvalid : (((a.toNat - 0xE0) * 0x40 + (b.toNat - 0x80)) * 0x40 +
        (c.toNat - 0x80)).isValidChar := by
      unfold Nat.isValidChar
      omega
    have hscalar := (scalar_eq_some 0x800).mpr ⟨by omega, hvalid, rfl⟩
    simp only [List.cons_append, List.nil_append]
    rw [decodeUtf8.eq_def]
    dsimp only
    rw [if_neg (by omega), if_neg (by omega), if_neg (by omega), if_pos hhigh]
    simp only [hcont, hcont', hscalar, Option.bind_eq_bind, Option.bind_some]
  | @four a b c d hlow hhigh hb hc hd =>
    obtain ⟨hblow, hbhigh, hshort, hlarge⟩ := isSecondOfFour_bounds hb
    have hcont := continuation_eq_some.mpr ⟨isContinuation_iff.mpr ⟨hblow, hbhigh⟩, rfl⟩
    have hcont' := continuation_eq_some.mpr ⟨hc, rfl⟩
    have hcont'' := continuation_eq_some.mpr ⟨hd, rfl⟩
    rw [isContinuation_iff] at hc hd
    have hvalid : ((((a.toNat - 0xF0) * 0x40 + (b.toNat - 0x80)) * 0x40 + (c.toNat - 0x80)) * 0x40 +
        (d.toNat - 0x80)).isValidChar := by
      unfold Nat.isValidChar
      omega
    have hscalar := (scalar_eq_some 0x10000).mpr ⟨by omega, hvalid, rfl⟩
    simp only [List.cons_append, List.nil_append]
    rw [decodeUtf8.eq_def]
    dsimp only
    rw [if_neg (by omega), if_neg (by omega), if_neg (by omega), if_neg (by omega)]
    simp only [hcont, hcont', hcont'', hscalar, Option.bind_eq_bind, Option.bind_some]

/-- The replacing decoder agrees on an encoding. -/
theorem Encodes.fromUtf8Lossy_append {front : List UInt8} {c : Char} (h : Encodes front c)
    (tail : List UInt8) : fromUtf8Lossy (front ++ tail) = c :: fromUtf8Lossy tail := by
  cases h with
  | one ha =>
    rw [List.singleton_append, fromUtf8Lossy.eq_def]
    exact if_pos ha
  | two hlow hhigh hb =>
    simp only [List.cons_append, List.nil_append]
    rw [fromUtf8Lossy.eq_def]
    dsimp only
    rw [if_neg (by omega), if_neg (by omega), if_pos hhigh]
    simp only [hb, if_true]
  | three hlow hhigh hb hc =>
    simp only [List.cons_append, List.nil_append]
    rw [fromUtf8Lossy.eq_def]
    dsimp only
    rw [if_neg (by omega), if_neg (by omega), if_neg (by omega), if_pos hhigh]
    simp only [hb, hc, if_true]
  | four hlow hhigh hb hc hd =>
    simp only [List.cons_append, List.nil_append]
    rw [fromUtf8Lossy.eq_def]
    dsimp only
    rw [if_neg (by omega), if_neg (by omega), if_neg (by omega),
      if_neg (by omega), if_pos hhigh]
    simp only [hb, hc, hd, if_true]

/-- **Valid bytes are decoded**, without replacement characters. -/
theorem fromUtf8Lossy_eq {bytes : List UInt8} {text : Str} (h : decodeUtf8 bytes = some text) :
    fromUtf8Lossy bytes = text := by
  induction text generalizing bytes with
  | nil =>
    by_cases hne : bytes = []
    · rw [hne, fromUtf8Lossy]
    · obtain ⟨_, _, _, _, -, -, hnil, -⟩ := exists_encodes_of_decodeUtf8 hne h
      cases hnil
  | cons c text ih =>
    have hne : bytes ≠ [] := by
      rintro rfl
      cases h
    obtain ⟨front, tail, _, _, rfl, hfront, ⟨⟩, htail⟩ := exists_encodes_of_decodeUtf8 hne h
    rw [hfront.fromUtf8Lossy_append, ih htail]

/-! ## Encoding -/

theorem toNat_ofNat_byte {n : ℕ} (h : n < 256) : (UInt8.ofNat n).toNat = n :=
  UInt8.toNat_ofNat_of_lt' h

theorem isContinuation_ofNat (n : ℕ) : isContinuation (.ofNat (0x80 + n % 0x40)) = true := by
  rw [isContinuation_iff, toNat_ofNat_byte (by omega)]
  omega

/-- **What is encoded is decoded.** -/
theorem encodes_encodeChar (c : Char) : Encodes (encodeChar c) c := by
  have hvalid : c.toNat < 0xD800 ∨ 0xDFFF < c.toNat ∧ c.toNat < 0x110000 := c.valid
  have hchar : ∀ n, n = c.toNat → Char.ofNat n = c := by
    rintro _ rfl
    exact Char.ofNat_toNat c
  unfold encodeChar
  dsimp only
  split_ifs with hone htwo hthree
  · have hbyte := toNat_ofNat_byte (n := c.toNat) (by omega)
    have hencodes := Encodes.one (a := .ofNat c.toNat) (by omega)
    rwa [hbyte, hchar _ rfl] at hencodes
  · have ha := toNat_ofNat_byte (n := 0xC0 + c.toNat / 0x40) (by omega)
    have hb := toNat_ofNat_byte (n := 0x80 + c.toNat % 0x40) (by omega)
    have hencodes := Encodes.two (a := .ofNat (0xC0 + c.toNat / 0x40)) (by omega) (by omega)
      (isContinuation_ofNat c.toNat)
    rwa [ha, hb, hchar _ (by omega)] at hencodes
  · have ha := toNat_ofNat_byte (n := 0xE0 + c.toNat / 0x1000) (by omega)
    have hb := toNat_ofNat_byte (n := 0x80 + c.toNat / 0x40 % 0x40) (by omega)
    have hc := toNat_ofNat_byte (n := 0x80 + c.toNat % 0x40) (by omega)
    have hsecond : isSecondOfThree (.ofNat (0xE0 + c.toNat / 0x1000))
        (.ofNat (0x80 + c.toNat / 0x40 % 0x40)) = true := by
      rw [isSecondOfThree, ha, hb]
      split_ifs
      · simp only [Bool.and_eq_true, decide_eq_true_eq]
        omega
      · simp only [Bool.and_eq_true, decide_eq_true_eq]
        omega
      · exact isContinuation_ofNat _
    have hencodes := Encodes.three (by omega) (by omega) hsecond (isContinuation_ofNat c.toNat)
    rwa [ha, hb, hc, hchar _ (by omega)] at hencodes
  · have ha := toNat_ofNat_byte (n := 0xF0 + c.toNat / 0x40000) (by omega)
    have hb := toNat_ofNat_byte (n := 0x80 + c.toNat / 0x1000 % 0x40) (by omega)
    have hc := toNat_ofNat_byte (n := 0x80 + c.toNat / 0x40 % 0x40) (by omega)
    have hd := toNat_ofNat_byte (n := 0x80 + c.toNat % 0x40) (by omega)
    have hsecond : isSecondOfFour (.ofNat (0xF0 + c.toNat / 0x40000))
        (.ofNat (0x80 + c.toNat / 0x1000 % 0x40)) = true := by
      rw [isSecondOfFour, ha, hb]
      split_ifs
      · simp only [Bool.and_eq_true, decide_eq_true_eq]
        omega
      · simp only [Bool.and_eq_true, decide_eq_true_eq]
        omega
      · exact isContinuation_ofNat _
    have hencodes := Encodes.four (by omega) (by omega) hsecond
      (isContinuation_ofNat (c.toNat / 0x40)) (isContinuation_ofNat c.toNat)
    rwa [ha, hb, hc, hd, hchar _ (by omega)] at hencodes

theorem encodeUtf8_cons (c : Char) (s : Str) : encodeUtf8 (c :: s) = encodeChar c ++ encodeUtf8 s :=
  List.flatMap_cons

theorem encodeUtf8_append (a b : Str) : encodeUtf8 (a ++ b) = encodeUtf8 a ++ encodeUtf8 b :=
  List.flatMap_append

/-- **The encoding of a text** is decoded. -/
theorem decodeUtf8_encodeUtf8 (s : Str) : decodeUtf8 (encodeUtf8 s) = some s := by
  induction s with
  | nil => rfl
  | cons c s ih =>
    rw [encodeUtf8, List.flatMap_cons, (encodes_encodeChar c).decodeUtf8_append]
    exact congrArg (Option.map (c :: ·)) ih

/-! ## Replacement characters -/

theorem fromUtf8Lossy_continuation {b : UInt8} (h : isContinuation b = true)
    (tail : List UInt8) : fromUtf8Lossy (b :: tail) = replacement :: fromUtf8Lossy tail := by
  rw [isContinuation_iff] at h
  rw [fromUtf8Lossy.eq_def]
  dsimp only
  rw [if_neg (by omega), if_pos (by omega)]

/-- **A byte is the beginning of one character** at most. -/
theorem length_fromUtf8Lossy_cons (a : UInt8) (rest : List UInt8) :
    (fromUtf8Lossy (a :: rest)).length ≤ (fromUtf8Lossy rest).length + 1 := by
  have hcont : ∀ {b : UInt8} {tail : List UInt8}, isContinuation b = true →
      (fromUtf8Lossy (b :: tail)).length = (fromUtf8Lossy tail).length + 1 := by
    intro b tail hb
    rw [fromUtf8Lossy_continuation hb, List.length_cons]
  have hthree : ∀ {a b : UInt8}, isSecondOfThree a b = true → isContinuation b = true :=
    fun h => isContinuation_iff.mpr
      ⟨(isSecondOfThree_bounds h).1, (isSecondOfThree_bounds h).2.1⟩
  have hfour : ∀ {a b : UInt8}, isSecondOfFour a b = true → isContinuation b = true :=
    fun h => isContinuation_iff.mpr ⟨(isSecondOfFour_bounds h).1, (isSecondOfFour_bounds h).2.1⟩
  rw [fromUtf8Lossy.eq_def]
  dsimp only
  split_ifs
  · exact le_rfl
  · exact le_rfl
  · -- a character of two bytes
    split
    · exact Nat.le_add_left 1 _
    · split_ifs with hb
      · rw [List.length_cons, hcont hb]
        omega
      · exact le_rfl
  · -- a character of three bytes
    split
    · exact Nat.le_add_left 1 _
    · split_ifs with hb
      · rw [hcont (hthree hb)]
        split
        · exact Nat.le_add_left 1 _
        · split_ifs with hc
          · rw [List.length_cons, hcont hc]
            omega
          · exact Nat.le_succ _
      · exact le_rfl
  · -- a character of four bytes
    split
    · exact Nat.le_add_left 1 _
    · split_ifs with hb
      · rw [hcont (hfour hb)]
        split
        · exact Nat.le_add_left 1 _
        · split_ifs with hc
          · rw [hcont hc]
            split
            · exact Nat.le_add_left 1 _
            · split_ifs with hd
              · rw [List.length_cons, hcont hd]
                omega
              · rw [List.length_cons]
                omega
          · rw [List.length_cons]
            omega
      · exact le_rfl
  · exact le_rfl

/-! ## Lines -/

theorem toNat_ofNat_of_valid {n : ℕ} (h : n.isValidChar) : (Char.ofNat n).toNat = n := by
  rw [Char.ofNat, dif_pos h]
  rfl

theorem ofNat_ne_newline {n : ℕ} (h : 0x80 ≤ n) : Char.ofNat n ≠ '\n' := by
  intro heq
  by_cases hvalid : n.isValidChar
  · have hval : n = 10 := (toNat_ofNat_of_valid hvalid).symm.trans (congrArg Char.toNat heq)
    omega
  · rw [Char.ofNat, dif_neg hvalid] at heq
    exact absurd heq (by decide)

theorem toNat_ne_of_le {b : UInt8} (h : 0x80 ≤ b.toNat) : b ≠ 10 := by
  rintro rfl
  exact absurd h (by decide)

/-- A line feed is in no other encoding than its own. -/
theorem Encodes.eq_of_newline {front : List UInt8} {c : Char} (h : Encodes front c) :
    (10 ∈ front → front = [10] ∧ c = '\n') ∧ (c = '\n' → 10 ∈ front) := by
  cases h with
  | @one a ha =>
    constructor
    · intro hmem
      obtain rfl := List.mem_singleton.mp hmem
      exact ⟨rfl, rfl⟩
    · intro heq
      have hvalid : a.toNat.isValidChar := .inl (by omega)
      have hval : a.toNat = 10 :=
        (toNat_ofNat_of_valid hvalid).symm.trans (congrArg Char.toNat heq)
      exact List.mem_singleton.mpr (UInt8.toNat_inj.mp hval.symm)
  | @two a b hlow hhigh hb =>
    rw [isContinuation_iff] at hb
    constructor
    · simp [(toNat_ne_of_le (b := a) (by omega)).symm, (toNat_ne_of_le (b := b) (by omega)).symm]
    · exact fun heq => absurd heq (ofNat_ne_newline (by omega))
  | @three a b c hlow hhigh hb hc =>
    obtain ⟨hblow, -, hshort, -⟩ := isSecondOfThree_bounds hb
    rw [isContinuation_iff] at hc
    constructor
    · simp [(toNat_ne_of_le (b := a) (by omega)).symm, (toNat_ne_of_le hblow).symm,
        (toNat_ne_of_le hc.1).symm]
    · exact fun heq => absurd heq (ofNat_ne_newline (by omega))
  | @four a b c d hlow hhigh hb hc hd =>
    obtain ⟨hblow, -, hshort, -⟩ := isSecondOfFour_bounds hb
    rw [isContinuation_iff] at hc hd
    constructor
    · simp [(toNat_ne_of_le (b := a) (by omega)).symm, (toNat_ne_of_le hblow).symm,
        (toNat_ne_of_le hc.1).symm, (toNat_ne_of_le hd.1).symm]
    · exact fun heq => absurd heq (ofNat_ne_newline (by omega))

/-- The text of a line ends where its bytes do. -/
theorem decodeUtf8_concat_newline {line : List UInt8} {text : Str}
    (h : decodeUtf8 (line ++ [10]) = some text) :
    ∃ content, text = content ++ ['\n'] ∧ decodeUtf8 line = some content := by
  induction text generalizing line with
  | nil =>
    obtain ⟨_, _, _, _, -, -, hnil, -⟩ :=
      exists_encodes_of_decodeUtf8 (List.append_ne_nil_of_right_ne_nil _ (by simp)) h
    cases hnil
  | cons c text ih =>
    obtain ⟨front, tail, _, _, hsplit, hfront, ⟨⟩, htail⟩ :=
      exists_encodes_of_decodeUtf8 (List.append_ne_nil_of_right_ne_nil _ (by simp)) h
    rcases List.append_eq_append_iff.mp hsplit with ⟨back, rfl, hback⟩ | ⟨line', rfl, rfl⟩
    · rcases back with _ | ⟨b, back⟩
      · -- the line is the first character, and behind it there is the line feed
        rw [List.nil_append] at hback
        rw [List.append_nil] at hfront
        rw [← hback] at htail
        cases htail
        refine ⟨[c], rfl, ?_⟩
        rw [← List.append_nil line, hfront.decodeUtf8_append]
        rfl
      · -- the line feed belongs to the first character, so that it is all of it
        obtain ⟨rfl, hnil⟩ := List.cons.inj hback
        obtain ⟨rfl, rfl⟩ := List.append_eq_nil_iff.mp hnil.symm
        obtain ⟨hline, rfl⟩ := hfront.eq_of_newline.1 (by simp)
        obtain rfl : line = [] := by simpa using hline
        cases htail
        exact ⟨[], rfl, rfl⟩
    · -- the line goes on behind the first character
      obtain ⟨content, rfl, hcontent⟩ := ih htail
      refine ⟨c :: content, rfl, ?_⟩
      rw [hfront.decodeUtf8_append, hcontent]
      rfl

/-- The text of a line contains no line feed if its bytes do not. -/
theorem newline_not_mem_of_decodeUtf8 {line : List UInt8} {content : Str}
    (h : decodeUtf8 line = some content) (hline : 10 ∉ line) : '\n' ∉ content := by
  induction content generalizing line with
  | nil => exact List.not_mem_nil
  | cons c content ih =>
    have hne : line ≠ [] := by
      rintro rfl
      cases h
    obtain ⟨front, tail, _, _, rfl, hfront, ⟨⟩, htail⟩ := exists_encodes_of_decodeUtf8 hne h
    rw [List.mem_append, not_or] at hline
    rw [List.mem_cons, not_or]
    exact ⟨fun heq => hline.1 (hfront.eq_of_newline.2 heq.symm), ih htail hline.2⟩

end Text
