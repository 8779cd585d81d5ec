import Fosipcore.Audio.PcmuPackets
import Fosipcore.Video.RtpParser

/-!
# Header shapes

The video depacketiser takes everything behind the first twelve bytes of a packet for the payload.
It agrees with the depacketiser of the audio track on where the payload is for the packets that have
neither contributing sources nor a header extension nor padding.

## Main definitions

* `IsH264Payload`: a single unit, an aggregation packet or a fragment
* `Header.bare`: the twelve bytes of a header alone

## Main results

* `parse_fixed`: what is behind twelve bytes decides
* `length_of_parse_active`: a fragment that begins a unit is gathered whole
* `parse_agrees_iff`: the packets of which the payload is found
-/

namespace Rtp

/-- The header without sources and extension. -/
def Header.bare (h : Header) : Header :=
  { h with csrcs := [], length_csrcs := Nat.zero_le _, extension := none }

theorem Header.length_bare_encode (h : Header) (padded : Bool) :
    (h.bare.encode padded).length = 12 := by
  rw [length_encode]
  rfl

end Rtp

namespace Fosipcore

open BigEndian Rtp

/-- An H.264 payload: a single unit, an aggregation packet or a fragment. -/
def IsH264Payload (payload : List UInt8) : Prop :=
  ∃ b bs, payload = b :: bs ∧
    (1 ≤ b &&& 0x1F ∧ b &&& 0x1F ≤ 23 ∨ b &&& 0x1F = nalTypeStapA ∨ b &&& 0x1F = nalTypeFuA)

namespace RtpParser

/-- The depacketiser does not read the first twelve bytes. -/
theorem parse_fixed (p : RtpParser) {hdr hdr' : List UInt8} (h : hdr.length = 12)
    (h' : hdr'.length = 12) (bytes : List UInt8) (ts : UInt32) :
    p.parse (hdr ++ bytes) ts = p.parse (hdr' ++ bytes) ts := by
  cases bytes with
  | nil => simp [parse, h, h']
  | cons b bs => rw [parse_cons h, parse_cons h']

/-- **A fragment that begins a unit is gathered whole**: where no unit is being gathered before a
packet and one is after it, the buffer has a byte for each but one of the payload. -/
theorem length_of_parse_active {p : RtpParser} (hp : p.fuActive = false) {hdr : List UInt8}
    (hhdr : hdr.length = 12) {bytes : List UInt8} {ts : UInt32}
    (h : (p.parse (hdr ++ bytes) ts).2.fuActive = true) :
    (p.parse (hdr ++ bytes) ts).2.fuBuffer.length + 1 = bytes.length := by
  cases bytes with
  | nil => simp [parse, hhdr, hp] at h
  | cons b bs =>
    rw [parse_cons hhdr] at h ⊢
    by_cases hsingle : b &&& 0x1F = nalTypeSlice ∨ b &&& 0x1F = nalTypeIdr ∨
        b &&& 0x1F = nalTypeSps ∨ b &&& 0x1F = nalTypePps
    · rw [if_pos hsingle, hp] at h
      cases h
    by_cases hfu : b &&& 0x1F = nalTypeFuA
    · rw [if_neg hsingle, if_pos hfu] at h ⊢
      rcases bs with _ | ⟨i, _ | ⟨c, cs⟩⟩
      · simp [parseFuA, hp] at h
      · simp [parseFuA, hp] at h
      · by_cases hstart : i &&& 0x80 ≠ 0
        · by_cases hcap : 1 + (c :: cs).length ≤ maxFuBufferBytes
          · rw [parseFuA_start p hstart (List.cons_ne_nil _ _) hcap]
            rfl
          · have happ : ∀ header, fuBufferAppend [header] (c :: cs) = none := fun header =>
              if_pos (by simpa [Nat.add_comm] using not_le.mp hcap)
            simp [parseFuA, hstart, happ] at h
        · -- an end stops the gathering, and a continuation does not begin it
          simp only [parseFuA, if_neg hstart, hp] at h
          split_ifs at h
          · split at h <;> cases h
          · rw [hp] at h
            cases h
          · contradiction
    · rw [if_neg hsingle, if_neg hfu] at h
      split_ifs at h
      · rw [parseStapA, hp] at h
        cases h
      · rw [hp] at h
        cases h

/-- What is behind the fixed header of a packet. -/
theorem encode_eq_fixed (header : Header) (payload : List UInt8) (padding : Option Padding) :
    Packet.encode ⟨header, payload, padding⟩ =
      header.fixed padding.isSome ++ (header.csrcs.flatMap u32Bytes ++
        header.extension.elim [] Extension.encode ++ payload ++
          padding.elim [] Padding.encode) := by
  simp only [Packet.encode, Header.encode, List.append_assoc]

/-- A packet with nothing but its payload behind the fixed header has no other part. -/
theorem bare_of_length {header : Header} {payload : List UInt8} {padding : Option Padding}
    (h : (header.csrcs.flatMap u32Bytes ++ header.extension.elim [] Extension.encode ++ payload ++
      padding.elim [] Padding.encode).length = payload.length) :
    header.csrcs = [] ∧ header.extension = none ∧ padding = none := by
  simp only [List.length_append, Header.length_csrcs_encode] at h
  refine ⟨List.eq_nil_of_length_eq_zero (by omega), ?_, ?_⟩
  · cases hextension : header.extension with
    | none => rfl
    | some e =>
      rw [hextension, Option.elim_some, e.length_encode] at h
      omega
  · cases padding with
    | none => rfl
    | some padding =>
      rw [Option.elim_some, padding.length_encode] at h
      omega

/-- **The payload is found**, in every state and for every payload, if and only if the packet has
no sources, no header extension and no padding. -/
theorem parse_agrees_iff (header : Header) (padding : Option Padding) :
    (∀ (p : RtpParser) (payload : List UInt8), IsH264Payload payload → ∀ ts,
        p.parse (Packet.encode ⟨header, payload, padding⟩) ts =
          p.parse (Packet.encode ⟨header.bare, payload, none⟩) ts) ↔
      header.csrcs = [] ∧ header.extension = none ∧ padding = none := by
  have hbare : ∀ payload, Packet.encode ⟨header.bare, payload, none⟩ =
      header.bare.encode false ++ payload := fun _ => List.append_nil _
  constructor
  · intro h
    -- the first fragment of a unit shows how many bytes were taken for the payload
    have hfirst := h new [0x7C, 0x85, 0xAA] ⟨0x7C, [0x85, 0xAA], rfl, .inr (.inr (by decide))⟩ 0
    rw [hbare, encode_eq_fixed] at hfirst
    have hstate : (new.parse (header.bare.encode false ++ [0x7C, 0x85, 0xAA]) 0).2 =
        ⟨[0x65, 0xAA], true⟩ := by
      rw [parse_fuA (header.length_bare_encode false) _ (by decide)]
      rfl
    have hlength := length_of_parse_active (p := new) rfl (header.length_fixed padding.isSome)
      (by rw [hfirst, hstate])
    rw [hfirst, hstate] at hlength
    exact bare_of_length hlength.symm
  · rintro ⟨hcsrcs, hextension, rfl⟩ p payload _ ts
    rw [hbare, encode_eq_fixed, hcsrcs, hextension]
    simp only [List.flatMap_nil, Option.elim_none, List.nil_append, List.append_nil]
    exact parse_fixed p (header.length_fixed _) (header.length_bare_encode _) payload ts

/-- A header with sequence number, time and source zero. -/
def zeroHeader : Header := ⟨false, 0, by decide, 0, 0, 0, [], by decide, none⟩

/-- A byte of padding becomes part of the unit, and the other depacketiser strips it. -/
theorem padding_gathered :
    parseG711Rtp (Packet.encode ⟨zeroHeader, [0x41, 0x9A], some ⟨[], by decide⟩⟩) =
        some [0x41, 0x9A] ∧
      (new.parse (Packet.encode ⟨zeroHeader, [0x41, 0x9A], some ⟨[], by decide⟩⟩) 0).1 =
        some ⟨[0, 0, 0, 3, 0x41, 0x9A, 1], 1, false, 0⟩ ∧
      ¬ ∀ (header : Header) (padding : Option Padding) (p : RtpParser) (payload : List UInt8),
        IsH264Payload payload → ∀ ts,
          p.parse (Packet.encode ⟨header, payload, padding⟩) ts =
            p.parse (Packet.encode ⟨header.bare, payload, none⟩) ts := by
  refine ⟨by decide, by decide, fun h => ?_⟩
  have heq := h zeroHeader (some ⟨[], by decide⟩) new [0x41, 0x9A]
    ⟨0x41, [0x9A], rfl, .inl (by decide)⟩ 0
  exact absurd heq (by decide)

end RtpParser

end Fosipcore
