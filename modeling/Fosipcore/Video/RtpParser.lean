import Fosipcore.Library.BigEndian

/-!
# The RTP depacketiser

`RtpParser.parse` takes one interleaved RTP packet and returns the H.264 NAL unit it completes,
if any, behind a four-byte length. Single NAL units pass through, the last unit of a STAP-A
packet is kept, and FU-A fragments are gathered in a buffer of at most 1 MiB.

## Main definitions

* `NalUnit`, `RtpParser`: a completed NAL unit, and the reassembly state
* `RtpParser.parse`, `RtpParser.parseFuA`, `RtpParser.parseStapA`: the depacketiser

## Main results

* `parse_singleNal`: a packet with one NAL unit of type 1 to 23 returns that unit
* `parseFuA_start`, `parseFuA_continue`, `parseFuA_end`: the three kinds of fragments
* `parse_bounded`: the buffer never outgrows its cap, nor does a returned unit
-/

namespace Fosipcore

open BigEndian

/-- A parsed NAL unit ready for FLV muxing: its bytes behind a four-byte length. -/
structure NalUnit where
  data : List UInt8
  nalType : UInt8
  isKeyframe : Bool
  timestamp : UInt32
  deriving DecidableEq

def nalTypeSlice : UInt8 := 1
def nalTypeIdr : UInt8 := 5
def nalTypeSps : UInt8 := 7
def nalTypePps : UInt8 := 8
def nalTypeStapA : UInt8 := 24
def nalTypeFuA : UInt8 := 28

/-- The reassembly state: the bytes gathered so far, and whether a unit is being gathered. -/
structure RtpParser where
  fuBuffer : List UInt8
  fuActive : Bool
  deriving DecidableEq

/-- Cap on in-flight FU-A reassembly, in bytes. -/
def maxFuBufferBytes : ℕ := 1024 * 1024

/-- Append to the reassembly buffer; `none` when the cap would be exceeded. -/
def fuBufferAppend (buf data : List UInt8) : Option (List UInt8) :=
  if buf.length + data.length > maxFuBufferBytes then none else some (buf ++ data)

/-- Strip a leading Annex-B start code of four or three bytes. -/
def stripStartCode : List UInt8 → List UInt8
  | 0 :: 0 :: 0 :: 1 :: nal => nal
  | 0 :: 0 :: 1 :: nal => nal
  | nal => nal

/-- Replace an Annex-B start code by a four-byte big-endian length. -/
def toAvccFormat (nalData : List UInt8) : List UInt8 :=
  let nal := stripStartCode nalData
  u32Bytes (UInt32.ofNat nal.length) ++ nal

namespace RtpParser

/-- A parser with no active reassembly. -/
def new : RtpParser := ⟨[], false⟩

/-- Parse an FU-A fragment: byte 0 carries F and NRI, byte 1 the start bit, the end bit and the
type of the fragmented unit. -/
def parseFuA (p : RtpParser) (rtpPayload : List UInt8) (timestamp : UInt32) :
    Option NalUnit × RtpParser :=
  match rtpPayload with
  | fuHeader :: fuIndicator :: b :: bs =>
    let isStart := fuIndicator &&& 0x80 ≠ 0
    let isEnd := fuIndicator &&& 0x40 ≠ 0
    let fuType := fuIndicator &&& 0x1F
    let fuData := b :: bs
    if isStart then
      -- a unit that is being gathered is given up
      let reconstructedNalHeader := (fuHeader &&& 0xE0) ||| fuType
      match fuBufferAppend [reconstructedNalHeader] fuData with
      | none => (none, ⟨[], false⟩)
      | some buf => (none, ⟨buf, true⟩)
    else if isEnd then
      -- also without a start fragment, when nothing has been gathered
      match fuBufferAppend p.fuBuffer fuData with
      | none => (none, ⟨[], false⟩)
      | some buf =>
        let nalType := buf.head?.getD 0 &&& 0x1F
        (some ⟨toAvccFormat buf, nalType, nalType == nalTypeIdr, timestamp⟩, ⟨[], false⟩)
    -- a continuation without a start is dropped
    else if !p.fuActive then (none, p)
    else
      match fuBufferAppend p.fuBuffer fuData with
      | none => (none, ⟨[], false⟩)
      | some buf => (none, ⟨buf, p.fuActive⟩)
  | _ => (none, p)

/-- One unit of an aggregation packet. -/
def stapANal (nalData : List UInt8) (timestamp : UInt32) : NalUnit :=
  let nalType := match nalData with
    | [] => 0
    | b :: _ => b &&& 0x1F
  ⟨toAvccFormat nalData, nalType, nalType == nalTypeIdr, timestamp⟩

theorem length_drop_lt (size : ℕ) (hi lo : UInt8) (tail : List UInt8) :
    (tail.drop size).length < (hi :: lo :: tail).length := by
  rw [List.length_drop, List.length_cons, List.length_cons]
  omega

/-- The loop over an aggregation packet: the last complete unit wins. -/
def stapALoop (timestamp : UInt32) (rest : List UInt8) (lastNal : Option NalUnit) :
    Option NalUnit :=
  match rest with
  | hi :: lo :: tail =>
    let size := hi.toNat * 256 + lo.toNat
    if size > tail.length then lastNal
    else stapALoop timestamp (tail.drop size) (some (stapANal (tail.take size) timestamp))
  | _ => lastNal
termination_by rest.length
decreasing_by exact length_drop_lt size hi lo tail

/-- Parse a STAP-A aggregation packet, skipping its header byte. -/
def parseStapA (p : RtpParser) (rtpPayload : List UInt8) (timestamp : UInt32) :
    Option NalUnit × RtpParser :=
  (stapALoop timestamp (rtpPayload.drop 1) none, p)

/-- Parse an RTP packet: skip its 12-byte header and dispatch on the NAL type. -/
def parse (p : RtpParser) (payload : List UInt8) (timestamp : UInt32) :
    Option NalUnit × RtpParser :=
  if payload.length < 13 then (none, p)
  else
    match payload.drop 12 with
    | [] => (none, p)
    | nalHeader :: nalBody =>
      let rtpPayload := nalHeader :: nalBody
      let nalType := nalHeader &&& 0x1F
      if nalType = nalTypeSlice ∨ nalType = nalTypeIdr ∨ nalType = nalTypeSps ∨
          nalType = nalTypePps then
        (some ⟨toAvccFormat rtpPayload, nalType, nalType == nalTypeIdr, timestamp⟩, p)
      else if nalType = nalTypeFuA then p.parseFuA rtpPayload timestamp
      else if nalType = nalTypeStapA then p.parseStapA rtpPayload timestamp
      else (some ⟨toAvccFormat rtpPayload, nalType, false, timestamp⟩, p)

end RtpParser

/-! ## Length-prefixed units -/

theorem length_stripStartCode_le (nal : List UInt8) :
    (stripStartCode nal).length ≤ nal.length := by
  unfold stripStartCode
  split
  · simp only [List.length_cons]; omega
  · simp only [List.length_cons]; omega
  · exact le_rfl

theorem length_toAvccFormat_le (nal : List UInt8) :
    (toAvccFormat nal).length ≤ nal.length + 4 := by
  have := length_stripStartCode_le nal
  simp only [toAvccFormat, u32Bytes_ofNat, List.length_append, length_toBytes]
  omega

/-- A unit whose first byte is not zero has no start code. -/
theorem toAvccFormat_of_ne_zero {b : UInt8} (hb : b ≠ 0) (bs : List UInt8) :
    toAvccFormat (b :: bs) = toBytes 4 (b :: bs).length ++ b :: bs := by
  have hstrip : stripStartCode (b :: bs) = b :: bs := by
    unfold stripStartCode
    split
    · rename_i h; exact absurd (List.cons.inj h).1 hb
    · rename_i h; exact absurd (List.cons.inj h).1 hb
    · rfl
  simp only [toAvccFormat, hstrip, u32Bytes_ofNat]

namespace RtpParser

/-! ## One packet of each kind -/

/-- The bytes of a single-NAL packet behind a 12-byte header reach the dispatch whole. -/
theorem parse_cons {hdr : List UInt8} (hhdr : hdr.length = 12) (p : RtpParser) (b : UInt8)
    (bs : List UInt8) (ts : UInt32) :
    p.parse (hdr ++ b :: bs) ts =
      (if b &&& 0x1F = nalTypeSlice ∨ b &&& 0x1F = nalTypeIdr ∨ b &&& 0x1F = nalTypeSps ∨
          b &&& 0x1F = nalTypePps then
        (some ⟨toAvccFormat (b :: bs), b &&& 0x1F, b &&& 0x1F == nalTypeIdr, ts⟩, p)
      else if b &&& 0x1F = nalTypeFuA then p.parseFuA (b :: bs) ts
      else if b &&& 0x1F = nalTypeStapA then p.parseStapA (b :: bs) ts
      else (some ⟨toAvccFormat (b :: bs), b &&& 0x1F, false, ts⟩, p)) := by
  have hlen : ¬ (hdr ++ b :: bs).length < 13 := by
    simp only [List.length_append, List.length_cons, hhdr]
    omega
  have hdrop : (hdr ++ b :: bs).drop 12 = b :: bs := List.drop_left' hhdr
  simp only [parse, if_neg hlen, hdrop]

/-- **A packet with one NAL unit** of a type other than STAP-A and FU-A returns that unit and
leaves the reassembly alone. -/
theorem parse_singleNal {hdr : List UInt8} (hhdr : hdr.length = 12) (p : RtpParser) {b : UInt8}
    (hfu : b &&& 0x1F ≠ nalTypeFuA) (hstap : b &&& 0x1F ≠ nalTypeStapA) (bs : List UInt8)
    (ts : UInt32) :
    p.parse (hdr ++ b :: bs) ts =
      (some ⟨toAvccFormat (b :: bs), b &&& 0x1F, b &&& 0x1F == nalTypeIdr, ts⟩, p) := by
  rw [parse_cons hhdr, if_neg hfu, if_neg hstap]
  split_ifs with h
  · rfl
  · -- the last branch reports no keyframe, and the unit is none
    have hidr : (b &&& 0x1F == nalTypeIdr) = false := by
      simp only [beq_eq_false_iff_ne]
      exact fun e => h (Or.inr (Or.inl e))
    rw [hidr]

theorem parse_fuA {hdr : List UInt8} (hhdr : hdr.length = 12) (p : RtpParser) {b : UInt8}
    (hfu : b &&& 0x1F = nalTypeFuA) (bs : List UInt8) (ts : UInt32) :
    p.parse (hdr ++ b :: bs) ts = p.parseFuA (b :: bs) ts := by
  rw [parse_cons hhdr, if_neg (by rw [hfu]; decide), if_pos hfu]

/-- A start fragment begins a reassembly, whatever was gathered before. -/
theorem parseFuA_start (p : RtpParser) {h i : UInt8} (hstart : i &&& 0x80 ≠ 0)
    {data : List UInt8} (hne : data ≠ []) (hcap : 1 + data.length ≤ maxFuBufferBytes)
    (ts : UInt32) :
    p.parseFuA (h :: i :: data) ts = (none, ⟨((h &&& 0xE0) ||| (i &&& 0x1F)) :: data, true⟩) := by
  obtain ⟨b, bs, rfl⟩ := List.exists_cons_of_ne_nil hne
  have happ : fuBufferAppend [(h &&& 0xE0) ||| (i &&& 0x1F)] (b :: bs) =
      some (((h &&& 0xE0) ||| (i &&& 0x1F)) :: b :: bs) :=
    if_neg (by simpa using hcap)
  simp only [parseFuA, if_pos hstart, happ]

/-- A continuation fragment extends an active reassembly. -/
theorem parseFuA_continue {buf : List UInt8} {h i : UInt8} (hstart : i &&& 0x80 = 0)
    (hend : i &&& 0x40 = 0) {data : List UInt8} (hne : data ≠ [])
    (hcap : buf.length + data.length ≤ maxFuBufferBytes) (ts : UInt32) :
    parseFuA ⟨buf, true⟩ (h :: i :: data) ts = (none, ⟨buf ++ data, true⟩) := by
  obtain ⟨b, bs, rfl⟩ := List.exists_cons_of_ne_nil hne
  have happ : fuBufferAppend buf (b :: bs) = some (buf ++ b :: bs) := if_neg (by omega)
  simp [parseFuA, hstart, hend, happ]

/-- An end fragment completes the unit and empties the buffer. -/
theorem parseFuA_end {b₀ : UInt8} {buf : List UInt8} {active : Bool} {h i : UInt8}
    (hstart : i &&& 0x80 = 0) (hend : i &&& 0x40 ≠ 0) {data : List UInt8} (hne : data ≠ [])
    (hcap : (b₀ :: buf).length + data.length ≤ maxFuBufferBytes) (ts : UInt32) :
    parseFuA ⟨b₀ :: buf, active⟩ (h :: i :: data) ts =
      (some ⟨toAvccFormat (b₀ :: (buf ++ data)), b₀ &&& 0x1F, b₀ &&& 0x1F == nalTypeIdr, ts⟩,
        new) := by
  obtain ⟨b, bs, rfl⟩ := List.exists_cons_of_ne_nil hne
  have happ : fuBufferAppend (b₀ :: buf) (b :: bs) = some (b₀ :: (buf ++ b :: bs)) :=
    if_neg (by omega)
  simp [parseFuA, hstart, hend, happ, new]

/-! ## The reassembly cap -/

theorem length_of_fuBufferAppend {buf data buf' : List UInt8}
    (h : fuBufferAppend buf data = some buf') : buf'.length ≤ maxFuBufferBytes := by
  unfold fuBufferAppend at h
  split_ifs at h with hcap
  obtain rfl := Option.some.inj h
  simpa using hcap

/-- The unit kept by the loop is no longer than the bytes it was cut from. -/
theorem stapALoop_length_le {n : ℕ} (ts : UInt32) (rest : List UInt8) (last : Option NalUnit)
    (hrest : rest.length ≤ n) (hlast : ∀ nal ∈ last, nal.data.length ≤ n + 4) :
    ∀ nal ∈ stapALoop ts rest last, nal.data.length ≤ n + 4 := by
  fun_induction stapALoop ts rest last with
  | case1 last hi lo tail size hsize => exact hlast
  | case2 last hi lo tail size hsize ih =>
    -- the unit is cut from the rest, and replaces the one kept so far
    simp only [List.length_cons] at hrest
    refine ih (by simp only [List.length_drop]; omega) fun nal hnal => ?_
    obtain rfl := Option.mem_some_iff.mp hnal
    refine (length_toAvccFormat_le _).trans ?_
    simp only [List.length_take]
    omega
  | case3 => exact hlast

/-- **The buffer never outgrows its cap**, and neither does a returned unit with its length. -/
theorem parse_bounded {p : RtpParser} (hp : p.fuBuffer.length ≤ maxFuBufferBytes)
    {payload : List UInt8} (hpayload : payload.length ≤ 65535) (ts : UInt32) :
    (p.parse payload ts).2.fuBuffer.length ≤ maxFuBufferBytes ∧
      ∀ nal ∈ (p.parse payload ts).1, nal.data.length ≤ maxFuBufferBytes + 4 := by
  have hmax : maxFuBufferBytes = 1048576 := rfl
  by_cases hshort : payload.length < 13
  · simp [parse, hshort, hp]
  obtain ⟨hdr, b, bs, rfl, hhdr⟩ : ∃ hdr b bs, payload = hdr ++ b :: bs ∧ hdr.length = 12 := by
    have hne : payload.drop 12 ≠ [] := by
      rw [ne_eq, List.drop_eq_nil_iff]; omega
    obtain ⟨b, bs, hb⟩ := List.exists_cons_of_ne_nil hne
    exact ⟨payload.take 12, b, bs, by rw [← hb, List.take_append_drop],
      by rw [List.length_take]; omega⟩
  simp only [List.length_append, List.length_cons, hhdr] at hpayload
  have hnal : (toAvccFormat (b :: bs)).length ≤ maxFuBufferBytes + 4 :=
    (length_toAvccFormat_le _).trans (by simp only [List.length_cons]; omega)
  rw [parse_cons hhdr]
  split_ifs with h1 h2 h3
  · exact ⟨hp, by simpa using hnal⟩
  · -- a fragment: start, end, one that is dropped, or a continuation
    unfold parseFuA
    split
    · dsimp only
      split_ifs
      · split
        · exact ⟨Nat.zero_le _, by simp⟩
        · rename_i happ; exact ⟨length_of_fuBufferAppend happ, by simp⟩
      · split
        · exact ⟨Nat.zero_le _, by simp⟩
        · rename_i happ
          refine ⟨Nat.zero_le _, fun nal h => ?_⟩
          obtain rfl := Option.mem_some_iff.mp h
          exact (length_toAvccFormat_le _).trans
            (Nat.add_le_add_right (length_of_fuBufferAppend happ) 4)
      · exact ⟨hp, by simp⟩
      · split
        · exact ⟨Nat.zero_le _, by simp⟩
        · rename_i happ; exact ⟨length_of_fuBufferAppend happ, by simp⟩
    · exact ⟨hp, by simp⟩
  · refine ⟨hp, stapALoop_length_le ts _ _ ?_ (by simp)⟩
    simp only [List.drop_one, List.tail_cons]
    omega
  · exact ⟨hp, by simpa using hnal⟩

end RtpParser

end Fosipcore
