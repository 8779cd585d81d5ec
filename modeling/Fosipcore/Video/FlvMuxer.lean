import Fosipcore.Library.FlvContainer
import Mathlib.Tactic.NormNum
import Fosipcore.Video.RtpParser

/-!
# The video FLV muxer

`FlvMuxer.processNal` turns NAL units into FLV tags. It remembers the last SPS and PPS; when it
first has both it emits the script tag and the AVC sequence header, and from then on every
other unit becomes a video tag.

## Main definitions

* `flvHeader`, `buildScriptTag`, `buildTagHeader`: the parts of the byte stream
* `FlvMuxer`, `FlvMuxer.processNal`: the muxer

## Main results

* `buildScriptTag_eq_encode`, `buildVideoFrameTag_eq_encode`: the emitted bytes are those of
  FLV tags
* `processNal_sps`, `processNal_pps`, `processNal_deferred`, `processNal_frame`: what a call does
* `processNal_bounded`: a call on small enough units emits FLV tags, with the fields that are meant
-/

namespace Fosipcore

open BigEndian FlvContainer

def tagTypeVideo : UInt8 := 0x09
def tagTypeScript : UInt8 := 0x12
def codecAvc : UInt8 := 7
def frameKeyframe : UInt8 := 1
def frameInter : UInt8 := 2
def avcSequenceHeader : UInt8 := 0
def avcNalu : UInt8 := 1

/-- A reading of the monotonic clock, in nanoseconds. -/
abbrev Instant := ℕ

/-- The bytes of an ASCII string. -/
def ascii (s : String) : List UInt8 := s.toList.map fun c => UInt8.ofNat c.toNat

/-- The FLV file header, followed by the zero `PreviousTagSize`. -/
def flvHeader : List UInt8 :=
  [0x46, 0x4C, 0x56, 0x01, 0x01, 0x00, 0x00, 0x00, 0x09] ++ [0x00, 0x00, 0x00, 0x00]

/-- An 11-byte FLV tag header. -/
def buildTagHeader (tagType : UInt8) (dataSize timestamp : UInt32) : List UInt8 :=
  [tagType,
    ((dataSize >>> 16) &&& 0xFF).toUInt8, ((dataSize >>> 8) &&& 0xFF).toUInt8,
    (dataSize &&& 0xFF).toUInt8,
    ((timestamp >>> 16) &&& 0xFF).toUInt8, ((timestamp >>> 8) &&& 0xFF).toUInt8,
    (timestamp &&& 0xFF).toUInt8,
    ((timestamp >>> 24) &&& 0xFF).toUInt8,
    0, 0, 0]

/-- The fields of `onMetaData`, with the IEEE 754 bits of their values. -/
def metadataFields : List (List UInt8 × ℕ) :=
  [(ascii "duration", 0),
    (ascii "width", 0x40A4000000000000), -- 2560.0
    (ascii "height", 0x4096800000000000), -- 1440.0
    (ascii "videodatarate", 0),
    (ascii "framerate", 0x402E000000000000), -- 15.0
    (ascii "videocodecid", 0x401C000000000000), -- 7.0, AVC
    (ascii "encoder", 0),
    (ascii "filesize", 0)]

/-- The AMF0 string `onMetaData` and its ECMA array. -/
def buildOnMetadata : List UInt8 :=
  [0x02] ++ u16Bytes (UInt16.ofNat (ascii "onMetaData").length) ++ ascii "onMetaData" ++
    [0x08] ++ u32Bytes (UInt32.ofNat metadataFields.length) ++
    (metadataFields.flatMap fun (name, value) =>
      u16Bytes (UInt16.ofNat name.length) ++ name ++ [0x00] ++ toBytes 8 value) ++
    [0x00, 0x00, 0x09]

/-- The script tag with a given timestamp. -/
def buildScriptTag (timestamp : UInt32) : List UInt8 :=
  let dataSize := UInt32.ofNat buildOnMetadata.length
  buildTagHeader tagTypeScript dataSize timestamp ++ buildOnMetadata ++ u32Bytes (11 + dataSize)

/-- The muxer: parameter sets without their length, whether the initialisation has been
emitted, the two time bases, and the cached sequence header tag. -/
structure FlvMuxer where
  sps : Option (List UInt8)
  pps : Option (List UInt8)
  initialized : Bool
  startTime : Option Instant
  videoBaseMs : Option UInt32
  sequenceHeaderTag : Option (List UInt8)
  deriving DecidableEq

namespace FlvMuxer

/-- A muxer with no accumulated state. -/
def new : FlvMuxer := ⟨none, none, false, none, none, none⟩

/-- Milliseconds since the first SPS, truncated to 32 bits. -/
def elapsedMs (m : FlvMuxer) (now : Instant) : UInt32 :=
  match m.startTime with
  | some t => UInt32.ofNat ((now - t) / 1000000)
  | none => 0

/-- A video tag: frame type and codec, packet type, zero composition time, data. -/
def buildVideoFrameTag (frameType avcPacketType : UInt8) (data : List UInt8)
    (timestamp : UInt32) : List UInt8 :=
  let frameTypeCodec := (frameType <<< 4) ||| codecAvc
  let videoDataLen := 1 + 1 + 3 + data.length
  buildTagHeader tagTypeVideo (UInt32.ofNat videoDataLen) timestamp ++
    [frameTypeCodec, avcPacketType] ++ [0x00, 0x00, 0x00] ++ data ++
    u32Bytes (UInt32.ofNat (11 + videoDataLen))

/-- The AVC decoder configuration record of the accumulated parameter sets. -/
def configRecord (sps pps : List UInt8) : List UInt8 :=
  let (profile, level) :=
    if sps.length ≥ 4 then (sps.getD 1 0, sps.getD 3 0) else (0x42, 0x1E)
  -- four-byte NAL lengths, and one parameter set of each kind
  [1, profile, 0, level, 0xFF, 0xE1] ++ u16Bytes (UInt16.ofNat sps.length) ++ sps ++
    [0x01] ++ u16Bytes (UInt16.ofNat pps.length) ++ pps

/-- The AVC sequence header tag. -/
def buildSequenceHeaderWithTs (m : FlvMuxer) (timestamp : UInt32) : List UInt8 :=
  buildVideoFrameTag frameKeyframe avcSequenceHeader
    (configRecord (m.sps.getD []) (m.pps.getD [])) timestamp

/-- A video tag for one length-prefixed NAL unit. -/
def buildVideoTag (nalData : List UInt8) (isKeyframe : Bool) (timestamp : UInt32) :
    List UInt8 :=
  buildVideoFrameTag (if isKeyframe then frameKeyframe else frameInter) avcNalu nalData timestamp

/-- Emit the initialisation burst: script tag and sequence header. -/
def emitInitialization (m : FlvMuxer) (now : Instant) : List (List UInt8) × FlvMuxer :=
  let ts := m.elapsedMs now
  let seqTag := m.buildSequenceHeaderWithTs ts
  ([buildScriptTag ts, seqTag],
    { m with sequenceHeaderTag := some seqTag, initialized := true })

/-- A parameter set without its four-byte length. -/
def rawParameterSet (data : List UInt8) : List UInt8 :=
  if data.length > 4 then data.drop 4 else data

/-- Process one NAL unit. The call reads the clock at most twice: `now` is the first reading,
`now'` the last. -/
def processNal (m : FlvMuxer) (nal : NalUnit) (now now' : Instant) :
    List (List UInt8) × FlvMuxer :=
  if nal.nalType = nalTypeSps then
    let m := { m with
      startTime := some (m.startTime.getD now), sps := some (rawParameterSet nal.data) }
    -- the set that completes the pair brings the burst, once
    if m.pps.isSome && !m.initialized then m.emitInitialization now' else ([], m)
  else if nal.nalType = nalTypePps then
    let m := { m with pps := some (rawParameterSet nal.data) }
    if m.sps.isSome && !m.initialized then m.emitInitialization now' else ([], m)
  else if m.initialized then
    let m := { m with videoBaseMs := some (m.videoBaseMs.getD (m.elapsedMs now)) }
    -- relative to the first frame
    let ts := m.elapsedMs now' - m.videoBaseMs.getD 0
    ([buildVideoTag nal.data nal.isKeyframe ts], m)
  else ([], m)

/-- The cached sequence header tag, for new client catch-up. -/
def sequenceHeader (m : FlvMuxer) : Option (List UInt8) := m.sequenceHeaderTag

end FlvMuxer

/-! ## The emitted bytes are those of FLV tags -/

theorem byte_of_word (x : UInt32) (k : ℕ) (hk : k < 4) :
    ((x >>> UInt32.ofNat (8 * k)) &&& 0xFF).toUInt8 = UInt8.ofNat (x.toNat / 256 ^ k) := by
  rw [← UInt8.toNat_inj]
  have hmask : ∀ n : ℕ, n &&& 255 = n % 256 := fun n => Nat.and_two_pow_sub_one_eq_mod n 8
  have hshift : x.toNat >>> (8 * k) = x.toNat / 256 ^ k := by
    rw [Nat.shiftRight_eq_div_pow, pow_mul]
    norm_num
  simp only [UInt32.toNat_toUInt8, UInt32.toNat_and, UInt32.toNat_shiftRight, UInt8.toNat_ofNat']
  rw [show (UInt32.ofNat (8 * k)).toNat = 8 * k from
    UInt32.toNat_ofNat_of_lt' (by have : UInt32.size = 4294967296 := rfl; omega),
    Nat.mod_eq_of_lt (show 8 * k < 32 by omega), show (0xFF : UInt32).toNat = 255 from rfl,
    hmask, hshift]
  exact Nat.mod_mod _ 256

/-- **The tag header** is the type, the low 24 bits of the size, the low 24 bits of the
timestamp, its high 8 bits and a zero stream identifier. -/
theorem buildTagHeader_eq (tagType : UInt8) (dataSize timestamp : UInt32) :
    buildTagHeader tagType dataSize timestamp =
      [tagType] ++ toBytes 3 dataSize.toNat ++ toBytes 3 timestamp.toNat ++
        toBytes 1 (timestamp.toNat / 2 ^ 24) ++ toBytes 3 0 := by
  have h0 (x : UInt32) := byte_of_word x 0 (by decide)
  have h1 (x : UInt32) := byte_of_word x 1 (by decide)
  have h2 (x : UInt32) := byte_of_word x 2 (by decide)
  have h3 (x : UInt32) := byte_of_word x 3 (by decide)
  simp only [show UInt32.ofNat (8 * 0) = 0 from rfl, show UInt32.ofNat (8 * 1) = 8 from rfl,
    show UInt32.ofNat (8 * 2) = 16 from rfl, show UInt32.ofNat (8 * 3) = 24 from rfl,
    UInt32.shiftRight_zero] at h0 h1 h2 h3
  -- the high byte is a field of its own
  have high : UInt8.ofNat (timestamp.toNat / 256 ^ 3) =
      UInt8.ofNat (timestamp.toNat / 2 ^ 24 / 256 ^ 0) := by norm_num
  simp only [buildTagHeader, h0 dataSize, h0 timestamp, h1, h2, h3, toBytes, high]
  rfl

/-- A header, a body and a size behind it are read, whatever the sizes say. -/
theorem readFields_buildTagHeader (tagType : UInt8) (dataSize timestamp : UInt32)
    (body : List UInt8) {previous : List UInt8} (hprevious : previous.length = 4) :
    readFields (buildTagHeader tagType dataSize timestamp ++ body ++ previous) =
      some ⟨tagType, timestamp, body⟩ := by
  rw [buildTagHeader_eq]
  exact readFields_append tagType timestamp body (length_toBytes 3 _) hprevious

/-- A header, a body that fits its size field and the size behind it are an FLV tag. -/
theorem buildTagHeader_append_eq_encode (t : Tag) :
    buildTagHeader t.tagType (UInt32.ofNat t.body.length) t.timestamp ++ t.body ++
      u32Bytes (UInt32.ofNat (11 + t.body.length)) = t.encode := by
  have hlt := t.body_lt
  rw [buildTagHeader_eq, u32Bytes_ofNat, UInt32.toNat_ofNat_of_lt' (by
    have : UInt32.size = 4294967296 := rfl; omega)]
  rfl

/-- The script tag, as a tag. -/
def scriptTag (timestamp : UInt32) : Tag :=
  ⟨tagTypeScript, timestamp, buildOnMetadata, by decide +kernel⟩

theorem buildScriptTag_eq_encode (timestamp : UInt32) :
    buildScriptTag timestamp = (scriptTag timestamp).encode := by
  rw [← buildTagHeader_append_eq_encode, UInt32.ofNat_add]
  rfl

theorem readPart_buildScriptTag (timestamp : UInt32) :
    readPart (buildScriptTag timestamp) =
      some (.script (ascii "onMetaData") (buildOnMetadata.drop 13)) := by
  rw [readPart, buildScriptTag_eq_encode, readFields_encode]
  rfl

namespace FlvMuxer

/-- A video tag, as a tag. -/
def videoTag (frameType avcPacketType : UInt8) (timestamp : UInt32) (data : List UInt8)
    (h : 5 + data.length < 2 ^ 24) : Tag :=
  ⟨tagTypeVideo, timestamp,
    [(frameType <<< 4) ||| codecAvc, avcPacketType] ++ [0, 0, 0] ++ data,
    by simp only [List.length_append, List.length_cons, List.length_nil]; omega⟩

theorem buildVideoFrameTag_eq_encode (frameType avcPacketType : UInt8) (timestamp : UInt32)
    {data : List UInt8} (h : 5 + data.length < 2 ^ 24) :
    buildVideoFrameTag frameType avcPacketType data timestamp =
      (videoTag frameType avcPacketType timestamp data h).encode := by
  have hlen : 2 + (3 + data.length) = 5 + data.length := by omega
  rw [← buildTagHeader_append_eq_encode]
  simp only [buildVideoFrameTag, videoTag, List.append_assoc, List.length_append,
    List.length_cons, List.length_nil, Nat.reduceAdd, hlen]

/-- **A video tag by itself**, whatever the length of its data. -/
theorem readFields_buildVideoFrameTag (frameType avcPacketType : UInt8) (data : List UInt8)
    (timestamp : UInt32) :
    readFields (buildVideoFrameTag frameType avcPacketType data timestamp) =
      some ⟨tagTypeVideo, timestamp, [(frameType <<< 4) ||| codecAvc, avcPacketType] ++ [0, 0, 0] ++
        data⟩ := by
  have hread := readFields_buildTagHeader tagTypeVideo
    (UInt32.ofNat (1 + 1 + 3 + data.length)) timestamp
    ([(frameType <<< 4) ||| codecAvc, avcPacketType] ++ [0, 0, 0] ++ data)
    (length_u32Bytes (UInt32.ofNat (11 + (1 + 1 + 3 + data.length))))
  rw [← hread, buildVideoFrameTag]
  simp only [List.append_assoc]

theorem readPart_sequenceHeader (record : List UInt8) (timestamp : UInt32) :
    readPart (buildVideoFrameTag frameKeyframe avcSequenceHeader record timestamp) =
      some (.avcSequenceHeader record) := by
  rw [readPart, readFields_buildVideoFrameTag]
  rfl

theorem readPart_buildVideoTag (nalData : List UInt8) (isKeyframe : Bool) (timestamp : UInt32) :
    readPart (buildVideoTag nalData isKeyframe timestamp) = some (.avcNalu isKeyframe nalData) := by
  rw [readPart, buildVideoTag, readFields_buildVideoFrameTag]
  cases isKeyframe <;> rfl

theorem length_configRecord (sps pps : List UInt8) :
    (configRecord sps pps).length = 11 + sps.length + pps.length := by
  simp only [configRecord, u16Bytes_ofNat, List.length_append, List.length_cons,
    List.length_nil, length_toBytes]
  omega

theorem length_rawParameterSet_le (data : List UInt8) :
    (rawParameterSet data).length ≤ data.length := by
  unfold rawParameterSet
  split_ifs <;> simp

/-! ## What a call does -/

/-- A parameter set is remembered; the initialisation follows it when it completes the pair. -/
theorem processNal_sps (m : FlvMuxer) {nal : NalUnit} (h : nal.nalType = nalTypeSps)
    (now now' : Instant) :
    m.processNal nal now now' =
      let m' := { m with
        startTime := some (m.startTime.getD now), sps := some (rawParameterSet nal.data) }
      if m.pps.isSome && !m.initialized then m'.emitInitialization now' else ([], m') := by
  rw [processNal, if_pos h]

theorem processNal_pps (m : FlvMuxer) {nal : NalUnit} (h : nal.nalType = nalTypePps)
    (now now' : Instant) :
    m.processNal nal now now' =
      let m' := { m with pps := some (rawParameterSet nal.data) }
      if m.sps.isSome && !m.initialized then m'.emitInitialization now' else ([], m') := by
  rw [processNal, if_neg (by rw [h]; decide), if_pos h]

/-- Any other unit is dropped before the initialisation. -/
theorem processNal_deferred {m : FlvMuxer} (hm : m.initialized = false) {nal : NalUnit}
    (hsps : nal.nalType ≠ nalTypeSps) (hpps : nal.nalType ≠ nalTypePps) (now now' : Instant) :
    m.processNal nal now now' = ([], m) := by
  rw [processNal, if_neg hsps, if_neg hpps, hm]
  rfl

/-- Any other unit becomes one video tag after the initialisation. -/
theorem processNal_frame {m : FlvMuxer} (hm : m.initialized = true) {nal : NalUnit}
    (hsps : nal.nalType ≠ nalTypeSps) (hpps : nal.nalType ≠ nalTypePps) (now now' : Instant) :
    m.processNal nal now now' =
      let m' := { m with videoBaseMs := some (m.videoBaseMs.getD (m.elapsedMs now)) }
      ([buildVideoTag nal.data nal.isKeyframe (m'.elapsedMs now' - m'.videoBaseMs.getD 0)],
        m') := by
  rw [processNal, if_neg hsps, if_neg hpps, if_pos hm]

/-- Both parameter sets, if present, have at most `n` bytes. -/
structure Bounded (n : ℕ) (m : FlvMuxer) : Prop where
  sps : (m.sps.getD []).length ≤ n
  pps : (m.pps.getD []).length ≤ n

/-- The fields of the two tags of the burst. -/
def burstFields (m : FlvMuxer) (timestamp : UInt32) : List Fields :=
  [⟨tagTypeScript, timestamp, buildOnMetadata⟩,
    ⟨tagTypeVideo, timestamp, [0x17, 0, 0, 0, 0] ++ configRecord (m.sps.getD []) (m.pps.getD [])⟩]

/-- **The fields of the tags that a call writes**: the burst if it completes the pair, and one tag for
a unit that is no parameter set. -/
def tagFields (m : FlvMuxer) (nal : NalUnit) (now now' : Instant) : List Fields :=
  let m' := (m.processNal nal now now').2
  if nal.nalType = nalTypeSps ∨ nal.nalType = nalTypePps then
    if m'.initialized && !m.initialized then m'.burstFields (m'.elapsedMs now') else []
  else if m.initialized then
    [⟨tagTypeVideo, m'.elapsedMs now' - m'.videoBaseMs.getD 0,
      [if nal.isKeyframe then 0x17 else 0x27, 1, 0, 0, 0] ++ nal.data⟩]
  else []

theorem emitInitialization_tags {n : ℕ} (hn : 16 + 2 * n < 2 ^ 24) {m : FlvMuxer}
    (hm : m.Bounded n) (now : Instant) :
    ∃ tags : List Tag, tags.map Tag.encode = (m.emitInitialization now).1 ∧
      tags.map Tag.fields = m.burstFields (m.elapsedMs now) := by
  have hsps := hm.sps
  have hpps := hm.pps
  have hlen : 5 + (configRecord (m.sps.getD []) (m.pps.getD [])).length < 2 ^ 24 := by
    rw [length_configRecord]
    omega
  refine ⟨[scriptTag (m.elapsedMs now), videoTag frameKeyframe avcSequenceHeader (m.elapsedMs now)
    (configRecord (m.sps.getD []) (m.pps.getD [])) hlen], ?_, rfl⟩
  rw [List.map_cons, List.map_singleton, ← buildScriptTag_eq_encode,
    ← buildVideoFrameTag_eq_encode]
  rfl

/-- A parameter set that is stored brings the burst if the pair is complete with it, once. -/
theorem set_tags {n : ℕ} (hn : 16 + 2 * n < 2 ^ 24) {m m' : FlvMuxer} (hm' : m'.Bounded n)
    (hinit : m'.initialized = m.initialized) (complete : Bool) (now : Instant)
    {out : List (List UInt8) × FlvMuxer}
    (hout : out = if complete && !m.initialized then m'.emitInitialization now else ([], m')) :
    out.2.Bounded n ∧ ∃ tags : List Tag, tags.map Tag.encode = out.1 ∧ tags.map Tag.fields =
      if out.2.initialized && !m.initialized then out.2.burstFields (out.2.elapsedMs now)
      else [] := by
  subst hout
  split_ifs with hburst hafter hafter
  · -- the burst changes neither parameter set
    exact ⟨⟨hm'.sps, hm'.pps⟩, emitInitialization_tags hn hm' now⟩
  · simp only [Bool.and_eq_true] at hburst
    exact absurd (Bool.and_eq_true_iff.mpr ⟨rfl, hburst.2⟩) hafter
  · rw [hinit, Bool.and_not_self] at hafter
    cases hafter
  · exact ⟨hm', [], rfl, rfl⟩

/-- **A call emits FLV tags** with the fields that are meant, when the units and the remembered
parameter sets are small enough for the 24-bit size. -/
theorem processNal_bounded {n : ℕ} (hn : 16 + 2 * n < 2 ^ 24) {m : FlvMuxer}
    (hm : m.Bounded n) {nal : NalUnit} (hnal : nal.data.length ≤ n) (now now' : Instant) :
    (m.processNal nal now now').2.Bounded n ∧
      ∃ tags : List Tag, tags.map Tag.encode = (m.processNal nal now now').1 ∧
        tags.map Tag.fields = m.tagFields nal now now' := by
  have hraw : (rawParameterSet nal.data).length ≤ n := (length_rawParameterSet_le _).trans hnal
  rw [tagFields]
  by_cases hsps : nal.nalType = nalTypeSps
  · rw [if_pos (.inl hsps)]
    have hm' : Bounded n { m with
        startTime := some (m.startTime.getD now), sps := some (rawParameterSet nal.data) } :=
      ⟨hraw, hm.pps⟩
    exact set_tags hn hm' rfl m.pps.isSome now' (processNal_sps m hsps now now')
  by_cases hpps : nal.nalType = nalTypePps
  · rw [if_pos (.inr hpps)]
    have hm' : Bounded n { m with pps := some (rawParameterSet nal.data) } := ⟨hm.sps, hraw⟩
    exact set_tags hn hm' rfl m.sps.isSome now' (processNal_pps m hpps now now')
  rw [if_neg (not_or.mpr ⟨hsps, hpps⟩)]
  cases hi : m.initialized with
  | false =>
    rw [processNal_deferred hi hsps hpps]
    exact ⟨hm, [], rfl, rfl⟩
  | true =>
    rw [processNal_frame hi hsps hpps]
    have hlen : 5 + nal.data.length < 2 ^ 24 := by omega
    refine ⟨⟨hm.sps, hm.pps⟩, [videoTag (if nal.isKeyframe then frameKeyframe else frameInter)
      avcNalu (m.elapsedMs now' - m.videoBaseMs.getD (m.elapsedMs now)) nal.data hlen], ?_, ?_⟩
    · rw [List.map_singleton, ← buildVideoFrameTag_eq_encode]
      rfl
    · cases nal.isKeyframe <;> rfl

end FlvMuxer

end Fosipcore
