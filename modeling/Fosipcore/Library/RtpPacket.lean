import Fosipcore.Library.BigEndian
import Mathlib.Data.List.Basic

/-!
# RTP packets

A packet of version 2 is a header of twelve bytes, at most fifteen contributing sources, an optional
header extension, the payload, and optional padding whose last byte is its length.

## Main definitions

* `Extension`, `Padding`, `Header`, `Packet`: the parts of a packet, each with its `encode`
* `firstByte`, `secondByte`: the flags in front of the fixed fields

## Main results

* `firstByte_fields`, `secondByte_fields`: what the first two bytes say
* `eq_firstByte`, `eq_secondByte`: every byte with the version says that much
* `Extension.encode_eq`: where an extension says its length
* `exists_csrcs`, `exists_extension`: the bytes that encode sources, and an extension
-/

namespace Rtp

open BigEndian

/-- A header extension: whole words behind the profile and their number. -/
structure Extension where
  profile : UInt16
  words : UInt16
  data : List UInt8
  length_data : data.length = 4 * words.toNat

def Extension.encode (e : Extension) : List UInt8 :=
  u16Bytes e.profile ++ u16Bytes e.words ++ e.data

/-- Padding: arbitrary bytes, and a byte that counts them and itself. -/
structure Padding where
  fill : List UInt8
  length_fill : fill.length < 255

def Padding.encode (p : Padding) : List UInt8 := p.fill ++ [UInt8.ofNat (p.fill.length + 1)]

/-- The header of a packet, apart from the flag for padding. -/
structure Header where
  marker : Bool
  payloadType : UInt8
  payloadType_lt : payloadType < 0x80
  sequenceNumber : UInt16
  timestamp : UInt32
  ssrc : UInt32
  csrcs : List UInt32
  length_csrcs : csrcs.length ≤ 15
  extension : Option Extension

/-- Version 2, the flags for padding and extension, and the number of sources. -/
def firstByte (padded extended : Bool) (count : ℕ) : UInt8 :=
  0x80 + (if padded then 0x20 else 0) + (if extended then 0x10 else 0) + UInt8.ofNat count

/-- The marker and the payload type. -/
def secondByte (marker : Bool) (payloadType : UInt8) : UInt8 :=
  (if marker then 0x80 else 0) + payloadType

namespace Header

/-- The twelve bytes that every packet has. -/
def fixed (h : Header) (padded : Bool) : List UInt8 :=
  firstByte padded h.extension.isSome h.csrcs.length :: secondByte h.marker h.payloadType ::
    (u16Bytes h.sequenceNumber ++ u32Bytes h.timestamp ++ u32Bytes h.ssrc)

def encode (h : Header) (padded : Bool) : List UInt8 :=
  h.fixed padded ++ h.csrcs.flatMap u32Bytes ++ h.extension.elim [] Extension.encode

end Header

/-- A packet. -/
structure Packet extends Header where
  payload : List UInt8
  padding : Option Padding

/-- **The bytes of a packet.** -/
def Packet.encode (p : Packet) : List UInt8 :=
  p.toHeader.encode p.padding.isSome ++ p.payload ++ p.padding.elim [] Padding.encode

/-! ## Lengths -/

theorem Extension.length_encode (e : Extension) : e.encode.length = 4 + 4 * e.words.toNat := by
  simp only [encode, List.length_append, length_u16Bytes, e.length_data]

theorem Padding.length_encode (p : Padding) : p.encode.length = p.fill.length + 1 := by
  simp [encode]

namespace Header

@[simp] theorem length_fixed (h : Header) (padded : Bool) : (h.fixed padded).length = 12 := by
  simp [fixed]

theorem length_csrcs_encode (csrcs : List UInt32) :
    (csrcs.flatMap u32Bytes).length = 4 * csrcs.length := by
  induction csrcs with
  | nil => rfl
  | cons csrc csrcs ih =>
    rw [List.flatMap_cons, List.length_append, length_u32Bytes, ih, List.length_cons]
    omega

theorem length_encode (h : Header) (padded : Bool) :
    (h.encode padded).length =
      12 + 4 * h.csrcs.length + (h.extension.elim [] Extension.encode).length := by
  simp only [encode, List.length_append, length_fixed, length_csrcs_encode]

end Header

/-! ## The first two bytes -/

theorem firstByte_fields (padded extended : Bool) {count : ℕ} (h : count ≤ 15) :
    firstByte padded extended count >>> 6 = 2 ∧
      (firstByte padded extended count &&& 0x0f).toNat = count ∧
      (firstByte padded extended count &&& 0x10 != 0) = extended ∧
      (firstByte padded extended count &&& 0x20 != 0) = padded := by
  have hall : ∀ (padded extended : Bool) (count : Fin 16),
      firstByte padded extended count >>> 6 = 2 ∧
        (firstByte padded extended count &&& 0x0f).toNat = count ∧
        (firstByte padded extended count &&& 0x10 != 0) = extended ∧
        (firstByte padded extended count &&& 0x20 != 0) = padded := by
    decide
  exact hall padded extended ⟨count, Nat.lt_succ_of_le h⟩

theorem secondByte_fields (marker : Bool) {payloadType : UInt8} (h : payloadType < 0x80) :
    secondByte marker payloadType &&& 0x7f = payloadType := by
  have hall : ∀ (marker : Bool) (n : Fin 128),
      secondByte marker (UInt8.ofNat n) &&& 0x7f = UInt8.ofNat n := by
    decide +kernel
  simpa using hall marker ⟨payloadType.toNat, h⟩

/-- A byte with the version is made of its fields. -/
theorem eq_firstByte {b : UInt8} (hversion : b >>> 6 = 2) :
    b = firstByte (b &&& 0x20 != 0) (b &&& 0x10 != 0) (b &&& 0x0f).toNat ∧
      (b &&& 0x0f).toNat ≤ 15 := by
  have hall : ∀ n : Fin 256, UInt8.ofNat n >>> 6 = 2 →
      UInt8.ofNat n = firstByte (UInt8.ofNat n &&& 0x20 != 0) (UInt8.ofNat n &&& 0x10 != 0)
        (UInt8.ofNat n &&& 0x0f).toNat ∧ (UInt8.ofNat n &&& 0x0f).toNat ≤ 15 := by
    decide +kernel
  have hb := hall ⟨b.toNat, b.toNat_lt⟩
  rw [UInt8.ofNat_toNat] at hb
  exact hb hversion

theorem eq_secondByte (b : UInt8) :
    b = secondByte (b &&& 0x80 != 0) (b &&& 0x7f) ∧ b &&& 0x7f < 0x80 := by
  have hall : ∀ n : Fin 256,
      UInt8.ofNat n = secondByte (UInt8.ofNat n &&& 0x80 != 0) (UInt8.ofNat n &&& 0x7f) ∧
        UInt8.ofNat n &&& 0x7f < 0x80 := by
    decide +kernel
  simpa using hall ⟨b.toNat, b.toNat_lt⟩

/-! ## Bytes that encode a part -/

/-- Ten bytes are the fields behind the first two. -/
theorem exists_fields (bs : List UInt8) (h : bs.length = 10) :
    ∃ sequenceNumber timestamp ssrc,
      u16Bytes sequenceNumber ++ u32Bytes timestamp ++ u32Bytes ssrc = bs := by
  obtain ⟨sequenceNumber, hsequence⟩ :=
    exists_u16Bytes (bs.take 2) (by rw [List.length_take]; omega)
  obtain ⟨timestamp, htimestamp⟩ :=
    exists_u32Bytes ((bs.drop 2).take 4) (by rw [List.length_take, List.length_drop]; omega)
  obtain ⟨ssrc, hssrc⟩ :=
    exists_u32Bytes ((bs.drop 2).drop 4) (by rw [List.length_drop, List.length_drop]; omega)
  refine ⟨sequenceNumber, timestamp, ssrc, ?_⟩
  rw [hsequence, htimestamp, hssrc, List.append_assoc, List.take_append_drop,
    List.take_append_drop]

/-- Whole words are sources. -/
theorem exists_csrcs (n : ℕ) (bs : List UInt8) (h : bs.length = 4 * n) :
    ∃ csrcs : List UInt32, csrcs.length = n ∧ csrcs.flatMap u32Bytes = bs := by
  induction n generalizing bs with
  | zero => exact ⟨[], rfl, (List.eq_nil_of_length_eq_zero h).symm⟩
  | succ n ih =>
    obtain ⟨csrc, hcsrc⟩ := exists_u32Bytes (bs.take 4) (by rw [List.length_take]; omega)
    obtain ⟨csrcs, hlength, hcsrcs⟩ := ih (bs.drop 4) (by rw [List.length_drop]; omega)
    refine ⟨csrc :: csrcs, by rw [List.length_cons, hlength], ?_⟩
    rw [List.flatMap_cons, hcsrc, hcsrcs, List.take_append_drop]

theorem ofBytes_pair (a b : UInt8) : ofBytes [a, b] = a.toNat * 256 + b.toNat := by
  simp [ofBytes]

/-- Two bytes of a word. -/
theorem toNat_of_u16Bytes {x : UInt16} {a b : UInt8} (h : u16Bytes x = [a, b]) :
    x.toNat = a.toNat * 256 + b.toNat :=
  calc x.toNat = ofBytes (u16Bytes x) := (ofBytes_toBytes x.toNat_lt).symm
    _ = a.toNat * 256 + b.toNat := by rw [h, ofBytes_pair]

/-- The number of words is in the third and fourth byte of an extension. -/
theorem Extension.encode_eq (e : Extension) :
    ∃ a b c d, e.encode = a :: b :: c :: d :: e.data ∧
      e.data.length = (c.toNat * 256 + d.toNat) * 4 := by
  obtain ⟨a, b, hprofile⟩ := List.length_eq_two.mp (length_u16Bytes e.profile)
  obtain ⟨c, d, hwords⟩ := List.length_eq_two.mp (length_u16Bytes e.words)
  refine ⟨a, b, c, d, ?_, ?_⟩
  · rw [encode, hprofile, hwords]
    rfl
  · rw [e.length_data, toNat_of_u16Bytes hwords, Nat.mul_comm]

/-- Bytes of the length that they say are an extension. -/
theorem exists_extension (a b : UInt8) {c d : UInt8} (data : List UInt8)
    (h : data.length = (c.toNat * 256 + d.toNat) * 4) :
    ∃ e : Extension, e.encode = a :: b :: c :: d :: data := by
  obtain ⟨profile, hprofile⟩ := exists_u16Bytes [a, b] rfl
  obtain ⟨words, hwords⟩ := exists_u16Bytes [c, d] rfl
  refine ⟨⟨profile, words, data, by rw [h, toNat_of_u16Bytes hwords, Nat.mul_comm]⟩, ?_⟩
  rw [Extension.encode, hprofile, hwords]
  rfl

end Rtp
