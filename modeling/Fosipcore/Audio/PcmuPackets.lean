import Fosipcore.Audio.Transcode
import Fosipcore.Library.RtpPacket
import Mathlib.Data.List.GetD

/-!
# PCMU packets

The depacketiser of the audio track accepts the RTP packets of payload type 0 and nothing else,
whatever sources, header extension and padding they have, and returns their payload.

## Main definitions

* `stripPadding`: what the depacketiser makes of the bytes behind the header
* `parseG711RtpChecked`: the depacketiser with every index, slice and difference checked

## Main results

* `parseG711RtpChecked_eq`: nothing is out of bounds
* `parseG711Rtp_encode`: the depacketiser on a header and any bytes behind it
* `exists_encode_of_parseG711Rtp`: what is accepted begins with a header
* `parseG711Rtp_exact`: the packets that are accepted
-/

namespace Fosipcore

open BigEndian Rtp

/-! ## Bounds -/

/-- The bytes from an index on; `none` is a panic. -/
def sliceFrom (off : ℕ) (bytes : List UInt8) : Option (List UInt8) :=
  if off ≤ bytes.length then some (bytes.drop off) else none

/-- The bytes up to an index; `none` is a panic. -/
def sliceTo (stop : ℕ) (bytes : List UInt8) : Option (List UInt8) :=
  if stop ≤ bytes.length then some (bytes.take stop) else none

/-- A difference of sizes; `none` is an overflow. -/
def checkedSub (a b : ℕ) : Option ℕ := if b ≤ a then some (a - b) else none

/-- `extensionEnd` with checked indices. -/
def extensionEndChecked (rtp : List UInt8) (off : ℕ) (hasExt : Bool) : Option (Option ℕ) :=
  if hasExt then
    if rtp.length < off + 4 then some none
    else do
      let hi ← rtp[off + 2]?
      let lo ← rtp[off + 3]?
      some (some (off + 4 + (hi.toNat * 256 + lo.toNat) * 4))
  else some (some off)

/-- The payload in front of the padding. -/
def stripPadding (padded : Bool) (payload : List UInt8) : Option (List UInt8) :=
  if padded then
    match payload.getLast? with
    | none => none
    | some pad =>
      if pad.toNat = 0 ∨ pad.toNat > payload.length then none
      else nonEmpty (payload.take (payload.length - pad.toNat))
  else nonEmpty payload

/-- `stripPadding` with a checked difference and slice. -/
def stripPaddingChecked (padded : Bool) (payload : List UInt8) : Option (Option (List UInt8)) :=
  if padded then
    match payload.getLast? with
    | none => some none
    | some pad =>
      if pad.toNat = 0 ∨ pad.toNat > payload.length then some none
      else do
        let stop ← checkedSub payload.length pad.toNat
        let payload ← sliceTo stop payload
        some (nonEmpty payload)
  else some (nonEmpty payload)

/-- `parseG711Rtp` with every index, slice and difference checked: `none` is a panic. -/
def parseG711RtpChecked (rtp : List UInt8) : Option (Option (List UInt8)) :=
  if rtp.length < 12 then some none
  else do
    let b0 : UInt8 ← rtp[0]?
    if b0 >>> 6 ≠ 2 then some none
    else do
      let b1 : UInt8 ← rtp[1]?
      if b1 &&& 0x7f ≠ rtpPtPcmu then some none
      else do
        let csrcCount := (b0 &&& 0x0f).toNat
        let hasExt := b0 &&& 0x10 != 0
        let hasPadding := b0 &&& 0x20 != 0
        match ← extensionEndChecked rtp (12 + csrcCount * 4) hasExt with
        | none => some none
        | some off =>
          if off ≥ rtp.length then some none
          else do
            let payload ← sliceFrom off rtp
            stripPaddingChecked hasPadding payload

theorem getElem?_of_lt {bytes : List UInt8} {i : ℕ} (h : i < bytes.length) :
    bytes[i]? = some (bytes.getD i 0) := by
  rw [List.getD_eq_getElem _ _ h, List.getElem?_eq_getElem h]

theorem extensionEndChecked_eq (rtp : List UInt8) (off : ℕ) (hasExt : Bool) :
    extensionEndChecked rtp off hasExt = some (extensionEnd rtp off hasExt) := by
  unfold extensionEndChecked extensionEnd
  split_ifs with hext hlen
  · rfl
  · rw [getElem?_of_lt (by omega), getElem?_of_lt (by omega)]
    rfl
  · rfl

theorem stripPaddingChecked_eq (padded : Bool) (payload : List UInt8) :
    stripPaddingChecked padded payload = some (stripPadding padded payload) := by
  unfold stripPaddingChecked stripPadding
  cases padded with
  | false => rfl
  | true =>
    cases payload.getLast? with
    | none => rfl
    | some pad =>
      simp only [if_true]
      split_ifs with hpad
      · rfl
      · -- the padding is no longer than the payload
        rw [checkedSub, if_pos (by omega), Option.bind_eq_bind, Option.bind_some, sliceTo,
          if_pos (by omega)]
        rfl

/-- **Nothing is out of bounds**, in any packet. -/
theorem parseG711RtpChecked_eq (rtp : List UInt8) :
    parseG711RtpChecked rtp = some (parseG711Rtp rtp) := by
  unfold parseG711RtpChecked parseG711Rtp
  by_cases hlen : rtp.length < 12
  · rw [if_pos hlen, if_pos hlen]
  rw [if_neg hlen, if_neg hlen, getElem?_of_lt (by omega), getElem?_of_lt (by omega)]
  simp only [Option.bind_eq_bind, Option.bind_some, extensionEndChecked_eq]
  by_cases hversion : rtp.getD 0 0 >>> 6 ≠ 2
  · rw [if_pos hversion, if_pos hversion]
  by_cases htype : rtp.getD 1 0 &&& 0x7f ≠ rtpPtPcmu
  · rw [if_neg hversion, if_neg hversion, if_pos htype, if_pos htype]
  rw [if_neg hversion, if_neg hversion, if_neg htype, if_neg htype]
  cases extensionEnd rtp (12 + (rtp.getD 0 0 &&& 0x0f).toNat * 4) (rtp.getD 0 0 &&& 0x10 != 0) with
  | none => rfl
  | some off =>
    dsimp only
    by_cases hoff : off ≥ rtp.length
    · rw [if_pos hoff, if_pos hoff]
    · rw [if_neg hoff, if_neg hoff, sliceFrom, if_pos (by omega), Option.bind_some,
        stripPaddingChecked_eq]
      rfl

/-! ## The header -/

/-- The extension is found behind what comes in front of it. -/
theorem extensionEnd_append (front rest : List UInt8) (hasExt : Bool) :
    extensionEnd (front ++ rest) front.length hasExt =
      (extensionEnd rest 0 hasExt).map (front.length + ·) := by
  have hget : ∀ i, (front ++ rest).getD (front.length + i) 0 = rest.getD i 0 := by
    intro i
    rw [List.getD_append_right _ _ _ _ (by omega), Nat.add_sub_cancel_left]
  unfold extensionEnd
  cases hasExt with
  | false => rfl
  | true =>
    simp only [if_true, hget, List.length_append, Nat.add_lt_add_iff_left, Nat.zero_add]
    split_ifs
    · rfl
    · simp only [Option.map_some, Nat.add_assoc]

theorem extensionEnd_encode (extension : Option Extension) (rest : List UInt8) :
    extensionEnd (extension.elim [] Extension.encode ++ rest) 0 extension.isSome =
      some (extension.elim [] Extension.encode).length := by
  cases extension with
  | none => rfl
  | some e =>
    obtain ⟨a, b, c, d, hencode, hlength⟩ := e.encode_eq
    simp only [Option.elim_some, Option.isSome_some, hencode]
    rw [extensionEnd, if_pos rfl, if_neg (by simp)]
    simp only [List.getD_cons_succ, List.getD_cons_zero, List.length_cons, hlength,
      Option.some.injEq, List.cons_append]
    omega

/-- **The depacketiser on a header** and any bytes behind it. -/
theorem parseG711Rtp_encode (header : Header) (padded : Bool) (rest : List UInt8) :
    parseG711Rtp (header.encode padded ++ rest) =
      if header.payloadType ≠ rtpPtPcmu ∨ rest = [] then none else stripPadding padded rest := by
  obtain ⟨hversion, hcount, hextended, hpadded⟩ :=
    firstByte_fields padded header.extension.isSome header.length_csrcs
  have htype := secondByte_fields header.marker header.payloadType_lt
  have hlen : ¬ (header.encode padded ++ rest).length < 12 := by
    rw [List.length_append, header.length_encode]
    omega
  have h0 : (header.encode padded ++ rest).getD 0 0 =
      firstByte padded header.extension.isSome header.csrcs.length := rfl
  have h1 : (header.encode padded ++ rest).getD 1 0 =
      secondByte header.marker header.payloadType := rfl
  -- the sources end where the extension is looked for
  have hend : extensionEnd (header.encode padded ++ rest) (12 + header.csrcs.length * 4)
      header.extension.isSome = some (header.encode padded).length := by
    have hfront : (header.fixed padded ++ header.csrcs.flatMap u32Bytes).length =
        12 + header.csrcs.length * 4 := by
      rw [List.length_append, header.length_fixed, Header.length_csrcs_encode, Nat.mul_comm]
    rw [← hfront, Header.encode, List.append_assoc, extensionEnd_append, extensionEnd_encode]
    rw [Option.map_some, ← List.length_append]
  unfold parseG711Rtp
  simp only [if_neg hlen, h0, h1, hversion, hcount, hextended, hpadded, htype, hend,
    List.drop_left, not_true_eq_false, if_false, ne_eq]
  by_cases htypeEq : header.payloadType = rtpPtPcmu
  · by_cases hrest : rest = []
    · simp [hrest]
    · have hoff : ¬ (header.encode padded).length ≥ (header.encode padded ++ rest).length := by
        have := List.length_pos_of_ne_nil hrest
        rw [List.length_append]
        omega
      simp only [htypeEq, hrest, if_neg hoff, not_true_eq_false, or_self, if_false]
      rfl
  · simp [htypeEq]

theorem le_of_extensionEnd {bytes : List UInt8} {hasExt : Bool} {start off : ℕ}
    (h : extensionEnd bytes start hasExt = some off) : start ≤ off := by
  unfold extensionEnd at h
  split_ifs at h
  · obtain rfl := Option.some.inj h
    omega
  · exact (Option.some.inj h).le

/-- An extension that ends inside the bytes is one. -/
theorem exists_extension_of_end {bytes : List UInt8} {hasExt : Bool} {off : ℕ}
    (hend : extensionEnd bytes 0 hasExt = some off) (hoff : off ≤ bytes.length) :
    ∃ (extension : Option Extension) (rest : List UInt8), extension.isSome = hasExt ∧
      bytes = extension.elim [] Extension.encode ++ rest := by
  cases hasExt with
  | false => exact ⟨none, bytes, rfl, rfl⟩
  | true =>
    rw [extensionEnd, if_pos rfl] at hend
    split_ifs at hend with hshort
    rcases bytes with _ | ⟨a, _ | ⟨b, _ | ⟨c, _ | ⟨d, rest⟩⟩⟩⟩
    case cons.cons.cons.cons =>
      simp only [List.getD_cons_succ, List.getD_cons_zero, Option.some.injEq, Nat.zero_add] at hend
      simp only [List.length_cons] at hoff
      obtain ⟨e, he⟩ := exists_extension a b (c := c) (d := d)
        (rest.take ((c.toNat * 256 + d.toNat) * 4)) (by rw [List.length_take]; omega)
      refine ⟨some e, rest.drop ((c.toNat * 256 + d.toNat) * 4), rfl, ?_⟩
      simp only [Option.elim_some, he, List.cons_append, List.take_append_drop]
    all_goals simp at hshort

/-- A packet that is accepted has the version, and its extension ends inside it. -/
theorem bounds_of_parseG711Rtp {bytes payload : List UInt8}
    (h : parseG711Rtp bytes = some payload) :
    12 ≤ bytes.length ∧ bytes.getD 0 0 >>> 6 = 2 ∧
      ∃ off, off < bytes.length ∧
        extensionEnd bytes (12 + (bytes.getD 0 0 &&& 0x0f).toNat * 4)
          (bytes.getD 0 0 &&& 0x10 != 0) = some off := by
  unfold parseG711Rtp at h
  by_cases hlen : bytes.length < 12
  · rw [if_pos hlen] at h
    cases h
  by_cases hversion : bytes.getD 0 0 >>> 6 ≠ 2
  · rw [if_neg hlen, if_pos hversion] at h
    cases h
  by_cases htype : bytes.getD 1 0 &&& 0x7f ≠ rtpPtPcmu
  · rw [if_neg hlen, if_neg hversion, if_pos htype] at h
    cases h
  rw [if_neg hlen, if_neg hversion, if_neg htype] at h
  refine ⟨not_lt.mp hlen, not_ne_iff.mp hversion, ?_⟩
  cases hend : extensionEnd bytes (12 + (bytes.getD 0 0 &&& 0x0f).toNat * 4)
      (bytes.getD 0 0 &&& 0x10 != 0) with
  | none =>
    simp only [hend] at h
    cases h
  | some off =>
    simp only [hend] at h
    by_cases hoff : off ≥ bytes.length
    · rw [if_pos hoff] at h
      cases h
    · exact ⟨off, not_le.mp hoff, rfl⟩

/-- **What is accepted begins with a header.** -/
theorem exists_encode_of_parseG711Rtp {bytes payload : List UInt8}
    (h : parseG711Rtp bytes = some payload) :
    ∃ (header : Header) (padded : Bool) (rest : List UInt8),
      bytes = header.encode padded ++ rest := by
  obtain ⟨hlen, hversion, off, hoff, hend⟩ := bounds_of_parseG711Rtp h
  rcases bytes with _ | ⟨b₀, _ | ⟨b₁, tail⟩⟩
  case cons.cons =>
    simp only [List.getD_cons_zero, List.length_cons] at hlen hversion hend hoff
    obtain ⟨hb₀, hcount⟩ := eq_firstByte hversion
    obtain ⟨hb₁, htype⟩ := eq_secondByte b₁
    obtain ⟨sequenceNumber, timestamp, ssrc, hfields⟩ :=
      exists_fields (tail.take 10) (by rw [List.length_take]; omega)
    -- the extension is behind the sources, so that these are there
    generalize hn : (b₀ &&& 0x0f).toNat = n at hb₀ hcount hend
    have hsources : 12 + n * 4 ≤ tail.length + 2 := by
      have hle : 12 + n * 4 ≤ off := le_of_extensionEnd hend
      omega
    obtain ⟨csrcs, hcsrcs, hbytes⟩ :=
      exists_csrcs n ((tail.drop 10).take (4 * n)) (by
        rw [List.length_take, List.length_drop]
        omega)
    have hsplit : b₀ :: b₁ :: tail = (b₀ :: b₁ :: tail.take 10 ++ csrcs.flatMap u32Bytes) ++
        (tail.drop 10).drop (4 * n) := by
      rw [hbytes, List.append_assoc, List.take_append_drop, List.cons_append, List.cons_append,
        List.take_append_drop]
    have hfront : (b₀ :: b₁ :: tail.take 10 ++ csrcs.flatMap u32Bytes).length = 12 + n * 4 := by
      rw [List.length_append, Header.length_csrcs_encode, hcsrcs]
      simp only [List.length_cons, List.length_take]
      omega
    rw [hsplit, ← hfront, extensionEnd_append, Option.map_eq_some_iff] at hend
    obtain ⟨off', hend', rfl⟩ := hend
    obtain ⟨extension, rest, hisSome, hextension⟩ := exists_extension_of_end hend' (by
      rw [List.length_drop, List.length_drop]
      omega)
    have hfirst : b₀ = firstByte (b₀ &&& 0x20 != 0) extension.isSome csrcs.length := by
      rw [hisSome, hcsrcs]
      exact hb₀
    refine ⟨⟨b₁ &&& 0x80 != 0, b₁ &&& 0x7f, htype, sequenceNumber, timestamp, ssrc, csrcs,
      hcsrcs.trans_le hcount, extension⟩, b₀ &&& 0x20 != 0, rest, ?_⟩
    rw [Header.encode, Header.fixed, ← hfirst, ← hb₁, hfields, hsplit, hextension,
      ← List.append_assoc]
  all_goals simp at hlen

/-! ## The payload -/

theorem nonEmpty_eq_some {bytes payload : List UInt8} :
    nonEmpty bytes = some payload ↔ payload ≠ [] ∧ bytes = payload := by
  unfold nonEmpty
  split_ifs with h
  · simp [h, eq_comm]
  · rw [Option.some.injEq]
    constructor
    · rintro rfl
      exact ⟨h, rfl⟩
    · exact And.right

/-- The last byte of the padding is its length. -/
theorem stripPadding_encode (padding : Padding) (payload : List UInt8) :
    stripPadding true (payload ++ padding.encode) = nonEmpty payload := by
  have hpad : (UInt8.ofNat (padding.fill.length + 1)).toNat = padding.fill.length + 1 := by
    have := padding.length_fill
    rw [UInt8.toNat_ofNat']
    omega
  have hlast : (payload ++ padding.encode).getLast? =
      some (UInt8.ofNat (padding.fill.length + 1)) := by
    rw [Padding.encode, ← List.append_assoc, List.getLast?_concat]
  have hlen : (payload ++ padding.encode).length = payload.length + (padding.fill.length + 1) := by
    rw [List.length_append, padding.length_encode]
  simp only [stripPadding, if_true, hlast, hpad, hlen]
  rw [if_neg (by omega), Nat.add_sub_cancel, List.take_left]

/-- **What is left of the bytes behind a header** is what stands in front of padding. -/
theorem stripPadding_eq_some {padded : Bool} {bytes payload : List UInt8} :
    stripPadding padded bytes = some payload ↔ payload ≠ [] ∧
      ∃ padding : Option Padding, padding.isSome = padded ∧
        bytes = payload ++ padding.elim [] Padding.encode := by
  constructor
  · intro h
    cases padded with
    | false =>
      obtain ⟨hne, rfl⟩ := nonEmpty_eq_some.mp h
      exact ⟨hne, none, rfl, (List.append_nil _).symm⟩
    | true =>
      rw [stripPadding, if_pos rfl] at h
      cases hlast : bytes.getLast? with
      | none => simp [hlast] at h
      | some pad =>
        simp only [hlast] at h
        split_ifs at h with hpad
        obtain ⟨hne, hpayload⟩ := nonEmpty_eq_some.mp h
        obtain ⟨front, rfl⟩ := List.getLast?_eq_some_iff.mp hlast
        have hlength : pad.toNat ≤ front.length + 1 ∧ 0 < pad.toNat := by
          simp only [List.length_append, List.length_singleton] at hpad
          omega
        have htake : front.take (front.length + 1 - pad.toNat) = payload := by
          rw [← hpayload, List.length_append, List.length_singleton,
            List.take_append_of_le_length (by omega)]
        have hfill : (front.drop (front.length + 1 - pad.toNat)).length + 1 = pad.toNat := by
          rw [List.length_drop]
          omega
        have hlt := pad.toNat_lt
        refine ⟨hne, some ⟨front.drop (front.length + 1 - pad.toNat), by omega⟩, rfl, ?_⟩
        rw [Option.elim_some, Padding.encode, hfill, UInt8.ofNat_toNat, ← htake,
          ← List.append_assoc, List.take_append_drop]
  · rintro ⟨hne, padding, rfl, rfl⟩
    cases padding with
    | none =>
      rw [Option.elim_none, List.append_nil]
      exact nonEmpty_eq_some.mpr ⟨hne, rfl⟩
    | some padding =>
      rw [Option.elim_some, Option.isSome_some, stripPadding_encode]
      exact nonEmpty_eq_some.mpr ⟨hne, rfl⟩

/-- **Exactly the PCMU packets are accepted**, with their payload, if that is not empty; and the
depacketiser never reads outside of the packet. -/
theorem parseG711Rtp_exact (bytes : List UInt8) :
    parseG711RtpChecked bytes = some (parseG711Rtp bytes) ∧
      ∀ payload, parseG711Rtp bytes = some payload ↔
        payload ≠ [] ∧ ∃ packet : Packet,
          packet.payloadType = 0 ∧ packet.payload = payload ∧ packet.encode = bytes := by
  refine ⟨parseG711RtpChecked_eq bytes, fun payload => ⟨fun h => ?_, ?_⟩⟩
  · obtain ⟨header, padded, rest, rfl⟩ := exists_encode_of_parseG711Rtp h
    rw [parseG711Rtp_encode] at h
    split_ifs at h with hrefused
    obtain ⟨htype, -⟩ := not_or.mp hrefused
    obtain ⟨hne, padding, rfl, rfl⟩ := stripPadding_eq_some.mp h
    refine ⟨hne, ⟨header, payload, padding⟩, not_ne_iff.mp htype, rfl, ?_⟩
    rw [Packet.encode, List.append_assoc]
  · rintro ⟨hne, packet, htype, rfl, rfl⟩
    have hrest : packet.payload ++ packet.padding.elim [] Padding.encode ≠ [] :=
      List.append_ne_nil_of_left_ne_nil hne _
    have hpass : ¬ (packet.payloadType ≠ rtpPtPcmu ∨
        packet.payload ++ packet.padding.elim [] Padding.encode = []) :=
      not_or.mpr ⟨not_not_intro htype, hrest⟩
    rw [Packet.encode, List.append_assoc, parseG711Rtp_encode, if_neg hpass]
    exact stripPadding_eq_some.mpr ⟨hne, packet.padding, rfl, rfl⟩

end Fosipcore
