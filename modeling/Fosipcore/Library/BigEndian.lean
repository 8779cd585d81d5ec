import Mathlib.Tactic.Ring

/-!
# Big-endian fields of a byte string

A big-endian field of width `k` is the list of the `k` low base-256 digits of a natural number,
most significant first. Reading a field splits a byte string into the number and the bytes
after it; reading what was written gives the number back, whatever follows.

## Main definitions

* `ofBytes bs`: the number whose base-256 digits are `bs`
* `toBytes k n`: the `k` low digits of `n`
* `readField k bs`: the field of width `k` in front of `bs`, and the rest

## Main results

* `ofBytes_toBytes`: a field wide enough for its number holds it
* `toBytes_ofBytes`: any bytes are those of the number they hold
* `readField_toBytes`: reading undoes writing
-/

namespace BigEndian

/-- The number whose base-256 digits, most significant first, are `bs`. -/
def ofBytes : List UInt8 → ℕ
  | [] => 0
  | b :: bs => b.toNat * 256 ^ bs.length + ofBytes bs

/-- The `k` low base-256 digits of `n`, most significant first. -/
def toBytes : ℕ → ℕ → List UInt8
  | 0, _ => []
  | k + 1, n => UInt8.ofNat (n / 256 ^ k) :: toBytes k n

@[simp] theorem length_toBytes (k n : ℕ) : (toBytes k n).length = k := by
  induction k with
  | zero => rfl
  | succ k ih => rw [toBytes, List.length_cons, ih]

/-- A field of width `k` keeps its number modulo `256 ^ k`. -/
theorem ofBytes_toBytes_mod (k n : ℕ) : ofBytes (toBytes k n) = n % 256 ^ k := by
  induction k with
  | zero => simp [toBytes, ofBytes, Nat.mod_one]
  | succ k ih =>
    rw [toBytes, ofBytes, ih, length_toBytes, UInt8.toNat_ofNat', Nat.mod_pow_succ (x := n)]
    ring

/-- **A field wide enough for its number holds it.** -/
theorem ofBytes_toBytes {k n : ℕ} (h : n < 256 ^ k) : ofBytes (toBytes k n) = n := by
  rw [ofBytes_toBytes_mod, Nat.mod_eq_of_lt h]

theorem toBytes_mod (k n : ℕ) : toBytes k (n % 256 ^ k) = toBytes k n := by
  have digit : ∀ j < k, n % 256 ^ k / 256 ^ j % 256 = n / 256 ^ j % 256 := by
    intro j hj
    rw [← Nat.add_sub_of_le hj.le, pow_add, Nat.mod_mul_right_div_self,
      Nat.mod_mod_of_dvd _ (dvd_pow_self 256 (by omega))]
  have prefixDigits : ∀ j ≤ k, toBytes j (n % 256 ^ k) = toBytes j n := by
    intro j
    induction j with
    | zero => intro _; rfl
    | succ j ih =>
      intro hj
      rw [toBytes, toBytes, ih (by omega)]
      congr 1
      rw [← UInt8.toNat_inj, UInt8.toNat_ofNat', UInt8.toNat_ofNat']
      exact digit j hj
  exact prefixDigits k le_rfl

theorem ofBytes_lt (bs : List UInt8) : ofBytes bs < 256 ^ bs.length := by
  induction bs with
  | nil => decide
  | cons b bs ih =>
    have hb : b.toNat + 1 ≤ 256 := b.toNat_lt
    calc ofBytes (b :: bs) < b.toNat * 256 ^ bs.length + 256 ^ bs.length := by
          rw [ofBytes]
          omega
      _ = (b.toNat + 1) * 256 ^ bs.length := by ring
      _ ≤ 256 * 256 ^ bs.length := Nat.mul_le_mul_right _ hb
      _ = 256 ^ (b :: bs).length := by rw [List.length_cons, pow_succ, Nat.mul_comm]

/-- **Any bytes are those of the number they hold.** -/
theorem toBytes_ofBytes (bs : List UInt8) : toBytes bs.length (ofBytes bs) = bs := by
  induction bs with
  | nil => rfl
  | cons b bs ih =>
    have hlt := ofBytes_lt bs
    have hhead : ofBytes (b :: bs) / 256 ^ bs.length = b.toNat := by
      rw [ofBytes, Nat.add_comm, Nat.add_mul_div_right _ _ (Nat.pow_pos (by decide)),
        Nat.div_eq_of_lt hlt, Nat.zero_add]
    have htail : ofBytes (b :: bs) % 256 ^ bs.length = ofBytes bs := by
      rw [ofBytes, Nat.add_comm, Nat.add_mul_mod_self_right, Nat.mod_eq_of_lt hlt]
    rw [List.length_cons, toBytes, hhead, ← toBytes_mod, htail, ih, UInt8.ofNat_toNat]

/-- The bytes of a 16-bit word. -/
def u16Bytes (x : UInt16) : List UInt8 := toBytes 2 x.toNat

/-- The bytes of a 32-bit word. -/
def u32Bytes (x : UInt32) : List UInt8 := toBytes 4 x.toNat

@[simp] theorem u16Bytes_ofNat (n : ℕ) : u16Bytes (UInt16.ofNat n) = toBytes 2 n := by
  rw [u16Bytes, UInt16.toNat_ofNat']
  exact toBytes_mod 2 n

@[simp] theorem u32Bytes_ofNat (n : ℕ) : u32Bytes (UInt32.ofNat n) = toBytes 4 n := by
  rw [u32Bytes, UInt32.toNat_ofNat']
  exact toBytes_mod 4 n

@[simp] theorem length_u16Bytes (x : UInt16) : (u16Bytes x).length = 2 := length_toBytes 2 _

@[simp] theorem length_u32Bytes (x : UInt32) : (u32Bytes x).length = 4 := length_toBytes 4 _

/-- Any two bytes are those of a word. -/
theorem exists_u16Bytes (bs : List UInt8) (h : bs.length = 2) : ∃ x, u16Bytes x = bs :=
  ⟨UInt16.ofNat (ofBytes bs), by rw [u16Bytes_ofNat, ← h, toBytes_ofBytes]⟩

/-- Any four bytes are those of a word. -/
theorem exists_u32Bytes (bs : List UInt8) (h : bs.length = 4) : ∃ x, u32Bytes x = bs :=
  ⟨UInt32.ofNat (ofBytes bs), by rw [u32Bytes_ofNat, ← h, toBytes_ofBytes]⟩

/-- The field of width `k` in front of `bs`, with the bytes after it. -/
def readField (k : ℕ) (bs : List UInt8) : Option (ℕ × List UInt8) :=
  if k ≤ bs.length then some (ofBytes (bs.take k), bs.drop k) else none

/-- A field in front of any bytes is read with those bytes left over. -/
theorem readField_append {k : ℕ} {field : List UInt8} (h : field.length = k)
    (rest : List UInt8) : readField k (field ++ rest) = some (ofBytes field, rest) := by
  subst h
  simp [readField]

/-- **Reading undoes writing**, whatever follows the field. -/
theorem readField_toBytes {k n : ℕ} (h : n < 256 ^ k) (rest : List UInt8) :
    readField k (toBytes k n ++ rest) = some (n, rest) := by
  rw [readField_append (length_toBytes k n), ofBytes_toBytes h]

/-- A field that is read fits its width. -/
theorem lt_of_readField {k n : ℕ} {bs rest : List UInt8} (h : readField k bs = some (n, rest)) :
    n < 256 ^ k := by
  unfold readField at h
  split_ifs at h with hk
  obtain ⟨rfl, -⟩ := Prod.mk.inj (Option.some.inj h)
  simpa [hk] using ofBytes_lt (bs.take k)

end BigEndian
