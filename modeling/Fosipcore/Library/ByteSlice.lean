import Fosipcore.Library.Text

/-!
# Slices of a text by bytes

A slice that ends at a number of bytes is a text only if no character lies across its end. In a text
of ASCII characters there is none, so it can be left out in front of a position, and behind it.

## Main definitions

* `takeBytes`: the text up to a number of bytes
* `Straddles`: a character lies across a position
* `IsAscii`: the characters have one byte each

## Main results

* `takeBytes_isSome_iff`: a slice is a text if and only if no character lies across its end
* `straddles_append_left`, `straddles_append_right`: what ASCII characters in front and behind do
-/

namespace Text

/-- The text up to a number of bytes; `none` where they end inside a character or behind the text. -/
def takeBytes : ℕ → Str → Option Str
  | 0, _ => some []
  | _ + 1, [] => none
  | n + 1, c :: s =>
    if c.utf8Size ≤ n + 1 then (takeBytes (n + 1 - c.utf8Size) s).map (c :: ·) else none

/-- A character begins in front of a position and ends behind it. -/
def Straddles (n : ℕ) (s : Str) : Prop :=
  ∃ a c b, s = a ++ c :: b ∧ byteLength a < n ∧ n < byteLength a + c.utf8Size

/-- All characters are ASCII. -/
def IsAscii (s : Str) : Prop := ∀ c ∈ s, c.toNat < 128

/-! ## Characters across a position -/

theorem not_straddles_nil (n : ℕ) : ¬ Straddles n [] := by
  rintro ⟨a, c, b, h, -⟩
  simp at h

theorem not_straddles_zero (s : Str) : ¬ Straddles 0 s := by
  rintro ⟨a, c, b, -, h, -⟩
  exact Nat.not_lt_zero _ h

/-- The first character lies across a position, or one of the others does. -/
theorem straddles_cons (n : ℕ) (c : Char) (s : Str) :
    Straddles n (c :: s) ↔
      (0 < n ∧ n < c.utf8Size) ∨ (c.utf8Size ≤ n ∧ Straddles (n - c.utf8Size) s) := by
  constructor
  · rintro ⟨a, d, b, heq, hfront, hbehind⟩
    cases a with
    | nil =>
      obtain ⟨rfl, rfl⟩ := List.cons.inj heq
      exact .inl ⟨hfront, by simpa [byteLength] using hbehind⟩
    | cons e a =>
      obtain ⟨rfl, rfl⟩ := List.cons.inj heq
      rw [byteLength_cons] at hfront hbehind
      exact .inr ⟨by omega, a, d, b, rfl, by omega, by omega⟩
  · rintro (⟨hpos, hlt⟩ | ⟨hle, a, d, b, rfl, hfront, hbehind⟩)
    · exact ⟨[], c, s, rfl, hpos, by simpa [byteLength] using hlt⟩
    · refine ⟨c :: a, d, b, rfl, ?_, ?_⟩
      · rw [byteLength_cons]
        omega
      · rw [byteLength_cons]
        omega

/-- No character lies across the end of a text, or beyond it. -/
theorem not_straddles_of_le {n : ℕ} {s : Str} (h : byteLength s ≤ n) : ¬ Straddles n s := by
  rintro ⟨a, c, b, rfl, -, hbehind⟩
  rw [byteLength_append, byteLength_cons] at h
  omega

/-- **A slice is a text** if and only if no character lies across its end. -/
theorem takeBytes_isSome_iff {n : ℕ} {s : Str} (h : n ≤ byteLength s) :
    (takeBytes n s).isSome = true ↔ ¬ Straddles n s := by
  induction s generalizing n with
  | nil =>
    obtain rfl := Nat.le_zero.mp h
    exact iff_of_true rfl (not_straddles_zero [])
  | cons c s ih =>
    cases n with
    | zero => exact iff_of_true rfl (not_straddles_zero (c :: s))
    | succ n =>
      rw [takeBytes, straddles_cons]
      by_cases hsize : c.utf8Size ≤ n + 1
      · -- the first character ends in front of the position
        rw [byteLength_cons] at h
        rw [if_pos hsize, Option.isSome_map, ih (by omega)]
        simp [hsize, Nat.not_lt.mpr hsize]
      · rw [if_neg hsize]
        rw [Nat.not_le] at hsize
        simp [hsize]

/-! ## ASCII -/

theorem isAscii_nil : IsAscii [] := fun _ h => absurd h List.not_mem_nil

theorem isAscii_cons {c : Char} {s : Str} : IsAscii (c :: s) ↔ c.toNat < 128 ∧ IsAscii s :=
  List.forall_mem_cons

theorem isAscii_append {s t : Str} : IsAscii (s ++ t) ↔ IsAscii s ∧ IsAscii t :=
  List.forall_mem_append

/-- ASCII characters in front move the position. -/
theorem straddles_append_left {p : Str} (hp : IsAscii p) (n : ℕ) (s : Str) :
    Straddles (p.length + n) (p ++ s) ↔ Straddles n s := by
  induction p with
  | nil => rw [List.length_nil, Nat.zero_add, List.nil_append]
  | cons c p ih =>
    obtain ⟨hc, hp⟩ := isAscii_cons.mp hp
    rw [List.cons_append, straddles_cons, utf8Size_of_ascii hc, List.length_cons,
      show p.length + 1 + n - 1 = p.length + n by omega, ih hp]
    constructor
    · rintro (⟨-, hlt⟩ | ⟨-, h⟩)
      · omega
      · exact h
    · exact fun h => .inr ⟨by omega, h⟩

theorem IsAscii.not_straddles {s : Str} (hs : IsAscii s) (n : ℕ) : ¬ Straddles n s := by
  rintro ⟨a, c, b, rfl, hfront, hbehind⟩
  rw [utf8Size_of_ascii (hs c (by simp))] at hbehind
  omega

/-- ASCII characters behind a text do not lie across a position. -/
theorem straddles_append_right {t : Str} (ht : IsAscii t) (n : ℕ) (s : Str) :
    Straddles n (s ++ t) ↔ Straddles n s := by
  induction s generalizing n with
  | nil => exact iff_of_false (ht.not_straddles n) (not_straddles_nil n)
  | cons c s ih => rw [List.cons_append, straddles_cons, straddles_cons, ih]

end Text
