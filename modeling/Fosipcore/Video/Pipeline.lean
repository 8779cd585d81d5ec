import Fosipcore.Audio.Transcode
import Fosipcore.Library.Transducer
import Fosipcore.Video.FlvMuxer
import Fosipcore.Video.RtpParser
import Mathlib.Data.List.Forall2

/-!
# The media pipeline

The video arm of the pipeline feeds every interleaved payload to the depacketiser and the unit it
completes to the muxer; the audio arm feeds its payloads to the transcoder. What comes out of
either arm is a sequence of FLV tags, behind the file header that the server sends first.

## Main definitions

* `TimedPacket`: a payload with the clock readings of its processing
* `VideoPipeline`, `VideoPipeline.step`: the video arm
* `Nal`, `Packetised`: a NAL unit, and the ways to send it in RTP packets

## Main results

* `VideoPipeline.run_lossless`: what is sent as RTP is what a player demultiplexes
* `VideoPipeline.run_tags`, `AudioTranscoder.run_tags`: whatever is sent, either arm emits tags
* `flvStreams_wellFormed`: the streams demultiplex into the emitted tags
-/

namespace Fosipcore

open BigEndian FlvContainer Transducer

/-- An interleaved payload, with the first and the last clock reading of its processing. -/
structure TimedPacket where
  payload : List UInt8
  now : Instant
  now' : Instant

/-- The video arm of the pipeline. -/
structure VideoPipeline where
  parser : RtpParser
  muxer : FlvMuxer

namespace VideoPipeline

/-- A fresh depacketiser in front of a fresh muxer. -/
def new : VideoPipeline := ⟨.new, .new⟩

/-- One iteration: parse the payload with the timestamp 0, and mux the unit it completes. -/
def step (p : VideoPipeline) (pkt : TimedPacket) : List (List UInt8) × VideoPipeline :=
  match p.parser.parse pkt.payload 0 with
  | (none, parser) => ([], { p with parser := parser })
  | (some nal, parser) =>
    let (tags, muxer) := p.muxer.processNal nal pkt.now pkt.now'
    (tags, ⟨parser, muxer⟩)

theorem step_none {p : VideoPipeline} {pkt : TimedPacket} {parser : RtpParser}
    (h : p.parser.parse pkt.payload 0 = (none, parser)) :
    step p pkt = ([], ⟨parser, p.muxer⟩) := by
  simp only [step, h]

theorem step_some {p : VideoPipeline} {pkt : TimedPacket} {nal : NalUnit} {parser : RtpParser}
    (h : p.parser.parse pkt.payload 0 = (some nal, parser)) :
    step p pkt = ((p.muxer.processNal nal pkt.now pkt.now').1,
      ⟨parser, (p.muxer.processNal nal pkt.now pkt.now').2⟩) := by
  simp only [step, h]

end VideoPipeline

/-! ## NAL units and their packets -/

/-- An H.264 NAL unit: a header byte of type 1 to 23 and a body, at most 1 MiB together. -/
structure Nal where
  header : UInt8
  body : List UInt8
  type_pos : 1 ≤ (header &&& 0x1F).toNat
  type_le : (header &&& 0x1F).toNat ≤ 23
  length_le : 1 + body.length ≤ maxFuBufferBytes

namespace Nal

def nalType (nal : Nal) : UInt8 := nal.header &&& 0x1F

def bytes (nal : Nal) : List UInt8 := nal.header :: nal.body

/-- The types of the packets that are no single units are above those of units. -/
theorem nalType_ne (nal : Nal) {type : UInt8} (htype : 23 < type.toNat) : nal.nalType ≠ type := by
  rintro rfl
  exact absurd nal.type_le (Nat.not_le_of_lt htype)

theorem header_ne_zero (nal : Nal) : nal.header ≠ 0 := by
  intro h
  have hpos := nal.type_pos
  rw [h] at hpos
  cases hpos

/-- The unit in the form that the depacketiser hands to the muxer. -/
def unit (nal : Nal) : NalUnit :=
  ⟨toBytes 4 nal.bytes.length ++ nal.bytes, nal.nalType, nal.nalType == nalTypeIdr, 0⟩

/-- What a player reads in the tag of the unit. -/
def media (nal : Nal) : Media :=
  .avcNalu (nal.nalType == nalTypeIdr) (toBytes 4 nal.bytes.length ++ nal.bytes)

theorem toAvccFormat_bytes (nal : Nal) :
    toAvccFormat nal.bytes = toBytes 4 nal.bytes.length ++ nal.bytes :=
  toAvccFormat_of_ne_zero nal.header_ne_zero nal.body

end Nal

/-- The FU indicator of a unit: its F and NRI bits, and the type 28. -/
def fuIndicator (header : UInt8) : UInt8 := (header &&& 0xE0) ||| 28

/-- The FU header of a fragment: the start bit, the end bit, and the type of the unit. -/
def fuHeader (isStart isEnd : Bool) (header : UInt8) : UInt8 :=
  (if isStart then 0x80 else 0) ||| (if isEnd then 0x40 else 0) ||| (header &&& 0x1F)

/-- A fragment of a unit: an RTP header without extensions, and some bytes of the body. -/
structure Fragment where
  rtpHeader : List UInt8
  data : List UInt8
  rtpHeader_length : rtpHeader.length = 12
  data_ne_nil : data ≠ []

/-- The RTP packet of a fragment. -/
def Fragment.packet (nal : Nal) (isStart isEnd : Bool) (f : Fragment) : List UInt8 :=
  f.rtpHeader ++ fuIndicator nal.header :: fuHeader isStart isEnd nal.header :: f.data

/-- **The ways to packetise a unit**: whole in a packet of at most 65535 bytes, or as two or
more fragments. -/
inductive Packetised (nal : Nal) : List (List UInt8) → Prop
  | single {rtpHeader : List UInt8} : rtpHeader.length = 12 →
      (rtpHeader ++ nal.bytes).length ≤ 65535 → Packetised nal [rtpHeader ++ nal.bytes]
  | fragments (first last : Fragment) (middle : List Fragment) :
      first.data ++ ((middle.map Fragment.data).flatten ++ last.data) = nal.body →
      Packetised nal (first.packet nal true false ::
        (middle.map (Fragment.packet nal false false) ++ [last.packet nal false true]))

/-! ## The bits of the fragment headers -/

theorem fuIndicator_type (b : UInt8) : fuIndicator b &&& 0x1F = nalTypeFuA := by
  obtain ⟨v⟩ := b
  revert v
  decide +kernel

/-- The header byte of the unit is rebuilt from the headers of its first fragment. -/
theorem fuHeader_rebuild (s e : Bool) (b : UInt8) :
    (fuIndicator b &&& 0xE0) ||| (fuHeader s e b &&& 0x1F) = b := by
  obtain ⟨v⟩ := b
  revert v
  cases s <;> cases e <;> decide +kernel

theorem fuHeader_start (s e : Bool) (b : UInt8) : fuHeader s e b &&& 0x80 = 0 ↔ s = false := by
  obtain ⟨v⟩ := b
  revert v
  cases s <;> cases e <;> decide +kernel

theorem fuHeader_end (s e : Bool) (b : UInt8) : fuHeader s e b &&& 0x40 = 0 ↔ e = false := by
  obtain ⟨v⟩ := b
  revert v
  cases s <;> cases e <;> decide +kernel

namespace VideoPipeline

/-! ## One unit, however it is packetised -/

/-- A single-NAL packet reaches the muxer at once. -/
theorem step_singleNal (p : VideoPipeline) (nal : Nal) {rtpHeader : List UInt8}
    (h : rtpHeader.length = 12) {pkt : TimedPacket} (hpkt : pkt.payload = rtpHeader ++ nal.bytes) :
    step p pkt = ((p.muxer.processNal nal.unit pkt.now pkt.now').1,
      ⟨p.parser, (p.muxer.processNal nal.unit pkt.now pkt.now').2⟩) := by
  refine step_some ?_
  rw [hpkt, Nal.unit, ← nal.toAvccFormat_bytes]
  have hfu : nal.nalType ≠ nalTypeFuA := nal.nalType_ne (by simp [nalTypeFuA])
  have hstap : nal.nalType ≠ nalTypeStapA := nal.nalType_ne (by simp [nalTypeStapA])
  exact RtpParser.parse_singleNal h p.parser hfu hstap nal.body 0

/-- Fragments reach the FU-A branch of the depacketiser. -/
theorem parse_fragment (parser : RtpParser) (nal : Nal) (s e : Bool) (f : Fragment) :
    parser.parse (f.packet nal s e) 0 =
      parser.parseFuA (fuIndicator nal.header :: fuHeader s e nal.header :: f.data) 0 :=
  RtpParser.parse_fuA f.rtpHeader_length parser (fuIndicator_type nal.header) _ 0

/-- The first fragment starts the buffer with the header byte of the unit. -/
theorem step_first (p : VideoPipeline) (nal : Nal) (f : Fragment)
    (hcap : 1 + f.data.length ≤ maxFuBufferBytes) {pkt : TimedPacket}
    (hpkt : pkt.payload = f.packet nal true false) :
    step p pkt = ([], ⟨⟨nal.header :: f.data, true⟩, p.muxer⟩) := by
  have hstart : fuHeader true false nal.header &&& 0x80 ≠ 0 := by
    rw [ne_eq, fuHeader_start]
    decide
  refine step_none ?_
  rw [hpkt, parse_fragment, RtpParser.parseFuA_start p.parser hstart f.data_ne_nil hcap,
    fuHeader_rebuild]

/-- The middle fragments extend the buffer, and nothing reaches the muxer. -/
theorem run_middle (nal : Nal) (m : FlvMuxer) (middle : List Fragment) :
    ∀ (buf : List UInt8) (pkts : List TimedPacket),
      pkts.map TimedPacket.payload = middle.map (Fragment.packet nal false false) →
      1 + buf.length + ((middle.map Fragment.data).flatten).length ≤ maxFuBufferBytes →
      run step ⟨⟨nal.header :: buf, true⟩, m⟩ pkts =
        ([], ⟨⟨nal.header :: (buf ++ (middle.map Fragment.data).flatten), true⟩, m⟩) := by
  induction middle with
  | nil =>
    intro buf pkts hpkts _
    obtain rfl := List.map_eq_nil_iff.mp hpkts
    simp
  | cons f middle ih =>
    intro buf pkts hpkts hcap
    obtain ⟨pkt, pkts, rfl, hpkt, hpkts⟩ := List.map_eq_cons_iff.mp hpkts
    simp only [List.map_cons, List.flatten_cons, List.length_append] at hcap
    have hstep : step ⟨⟨nal.header :: buf, true⟩, m⟩ pkt =
        ([], ⟨⟨nal.header :: (buf ++ f.data), true⟩, m⟩) := by
      refine step_none ?_
      rw [hpkt, parse_fragment]
      refine RtpParser.parseFuA_continue ((fuHeader_start _ _ _).mpr rfl)
        ((fuHeader_end _ _ _).mpr rfl) f.data_ne_nil ?_ 0
      simp only [List.length_cons]
      omega
    rw [run_cons, hstep, ih _ pkts hpkts (by rw [List.length_append]; omega)]
    simp only [List.nil_append, List.map_cons, List.flatten_cons, List.append_assoc]

/-- The last fragment completes the unit. -/
theorem step_last (m : FlvMuxer) (nal : Nal) (f : Fragment) {buf : List UInt8}
    (hbody : buf ++ f.data = nal.body) {pkt : TimedPacket}
    (hpkt : pkt.payload = f.packet nal false true) :
    step ⟨⟨nal.header :: buf, true⟩, m⟩ pkt =
      ((m.processNal nal.unit pkt.now pkt.now').1,
        ⟨.new, (m.processNal nal.unit pkt.now pkt.now').2⟩) := by
  have hend : fuHeader false true nal.header &&& 0x40 ≠ 0 := by
    rw [ne_eq, fuHeader_end]
    decide
  have hcap : (nal.header :: buf).length + f.data.length ≤ maxFuBufferBytes := by
    have hle := nal.length_le
    rw [← hbody, List.length_append] at hle
    simp only [List.length_cons]
    omega
  refine step_some ?_
  rw [hpkt, parse_fragment, RtpParser.parseFuA_end ((fuHeader_start _ _ _).mpr rfl) hend
    f.data_ne_nil hcap, hbody, Nal.unit, ← nal.toAvccFormat_bytes]
  rfl

/-- **One unit, however it is packetised**, reaches the muxer once, whatever state the
depacketiser is in. -/
theorem run_packetised {nal : Nal} {payloads : List (List UInt8)}
    (h : Packetised nal payloads) (p : VideoPipeline) {pkts : List TimedPacket}
    (hpkts : pkts.map TimedPacket.payload = payloads) :
    ∃ now now' parser, run step p pkts = ((p.muxer.processNal nal.unit now now').1,
      ⟨parser, (p.muxer.processNal nal.unit now now').2⟩) := by
  cases h with
  | single hlen _ =>
    obtain ⟨pkt, rfl, hpkt⟩ := List.map_eq_singleton_iff.mp hpkts
    refine ⟨pkt.now, pkt.now', p.parser, ?_⟩
    rw [run_cons, run_nil, List.append_nil, step_singleNal p nal hlen hpkt]
  | fragments first last middle hbody =>
    obtain ⟨pkt, pkts, rfl, hpkt, hpkts⟩ := List.map_eq_cons_iff.mp hpkts
    obtain ⟨mid, tail, rfl, hmid, htail⟩ := List.map_eq_append_iff.mp hpkts
    obtain ⟨pktLast, rfl, hpktLast⟩ := List.map_eq_singleton_iff.mp htail
    have hle := nal.length_le
    rw [← hbody] at hle
    simp only [List.length_append] at hle
    refine ⟨pktLast.now, pktLast.now', .new, ?_⟩
    rw [run_cons, step_first p nal first (by omega) hpkt, run_append,
      run_middle nal p.muxer middle first.data mid hmid (by omega), run_cons, run_nil,
      step_last p.muxer nal last (by rw [List.append_assoc, hbody]) hpktLast]
    simp

end VideoPipeline

/-! ## The muxer on whole units -/

namespace FlvMuxer

/-- The length in front of a parameter set is stripped. -/
theorem rawParameterSet_unit (nal : Nal) : rawParameterSet nal.unit.data = nal.bytes := by
  have hlen : (toBytes 4 nal.bytes.length ++ nal.bytes).length > 4 := by
    simp only [List.length_append, length_toBytes, Nal.bytes, List.length_cons]
    omega
  rw [rawParameterSet, Nal.unit, if_pos hlen]
  exact List.drop_left' (length_toBytes 4 _)

/-- The NALU tag of a unit, as a tag. -/
def nalTag (nal : Nal) (timestamp : UInt32) : Tag :=
  videoTag (if nal.nalType == nalTypeIdr then frameKeyframe else frameInter) avcNalu timestamp
    nal.unit.data (by
      have hle : 1 + nal.body.length ≤ 1048576 := nal.length_le
      simp only [Nal.unit, Nal.bytes, List.length_append, length_toBytes, List.length_cons]
      omega)

theorem nalTag_media (nal : Nal) (timestamp : UInt32) :
    (nalTag nal timestamp).media = some nal.media := by
  have hkey : ∀ key : Bool,
      ((if key then frameKeyframe else frameInter) <<< 4 ||| codecAvc) &&& 0x0F = 7 ∧
        (((if key then frameKeyframe else frameInter) <<< 4 ||| codecAvc) >>> 4 == 1) = key := by
    decide
  obtain ⟨hcodec, hframe⟩ := hkey (nal.nalType == nalTypeIdr)
  simp only [Tag.media, nalTag, videoTag, tagTypeVideo, avcNalu, List.cons_append,
    List.nil_append, hcodec, hframe, if_true, Nal.media, Nal.unit]

/-- After the initialisation a unit that is no parameter set becomes its NALU tag. -/
theorem processNal_unit {m : FlvMuxer} (hm : m.initialized = true) {nal : Nal}
    (hsps : nal.nalType ≠ nalTypeSps) (hpps : nal.nalType ≠ nalTypePps) (now now' : Instant) :
    (m.processNal nal.unit now now').2.initialized = true ∧
      ∃ ts, (m.processNal nal.unit now now').1 = [(nalTag nal ts).encode] := by
  rw [processNal_frame hm hsps hpps]
  refine ⟨hm, m.elapsedMs now' - m.videoBaseMs.getD (m.elapsedMs now), ?_⟩
  rw [nalTag, ← buildVideoFrameTag_eq_encode]
  rfl

/-- The muxer holds both parameter sets. -/
structure Ready (sps pps : Nal) (m : FlvMuxer) : Prop where
  sps : m.sps = some sps.bytes
  pps : m.pps = some pps.bytes

/-- The sequence header tag of a pair of parameter sets, as a tag. -/
def sequenceTag (sps pps : Nal) (timestamp : UInt32) : Tag :=
  videoTag frameKeyframe avcSequenceHeader timestamp (configRecord sps.bytes pps.bytes) (by
    have hsps : 1 + sps.body.length ≤ 1048576 := sps.length_le
    have hpps : 1 + pps.body.length ≤ 1048576 := pps.length_le
    rw [length_configRecord]
    simp only [Nal.bytes, List.length_cons]
    omega)

/-- **A sequence header carries its parameter sets**, when the 16-bit lengths of the record hold their
sizes. -/
theorem configTag_media {sps pps : List UInt8} (hsps : sps.length < 2 ^ 16)
    (hpps : pps.length < 2 ^ 16) (timestamp : UInt32)
    (hlen : 5 + (configRecord sps pps).length < 2 ^ 24) :
    ∃ config, (videoTag frameKeyframe avcSequenceHeader timestamp (configRecord sps pps) hlen).media =
        some (.avcSequenceHeader config) ∧
      config.lengthSize = 4 ∧ config.sps = [sps] ∧ config.pps = [pps] := by
  obtain ⟨profile, level, hrecord⟩ : ∃ profile level, configRecord sps pps =
      [1, profile, 0, level, 0xFF, 0xE1] ++ toBytes 2 sps.length ++ sps ++ [1] ++
        toBytes 2 pps.length ++ pps := by
    refine ⟨(if sps.length ≥ 4 then (sps.getD 1 0, sps.getD 3 0) else (0x42, 0x1E)).1,
      (if sps.length ≥ 4 then (sps.getD 1 0, sps.getD 3 0) else (0x42, 0x1E)).2, ?_⟩
    simp only [configRecord, u16Bytes_ofNat]
  have hpart := readPart_sequenceHeader (configRecord sps pps) timestamp
  rw [buildVideoFrameTag_eq_encode _ _ _ hlen, readPart, readFields_encode,
    Option.bind_some] at hpart
  refine ⟨⟨profile, 0, level, 4, [sps], [pps]⟩, ?_, rfl, rfl, rfl⟩
  rw [media_eq, hpart, Option.bind_some, Part.media, hrecord,
    parseAvcConfig_record profile 0 level hsps hpps, Option.map_some]

theorem sequenceTag_media (sps pps : Nal) (hsps : sps.bytes.length < 2 ^ 16)
    (hpps : pps.bytes.length < 2 ^ 16) (timestamp : UInt32) :
    ∃ config, (sequenceTag sps pps timestamp).media = some (.avcSequenceHeader config) ∧
      config.lengthSize = 4 ∧ config.sps = [sps.bytes] ∧ config.pps = [pps.bytes] :=
  configTag_media hsps hpps timestamp _

/-- The burst of a muxer that holds both parameter sets. -/
theorem emitInitialization_ready {sps pps : Nal} {m : FlvMuxer} (hm : m.Ready sps pps)
    (now : Instant) :
    (m.emitInitialization now).2.initialized = true ∧
      ∃ ts, (m.emitInitialization now).1 =
        [(scriptTag ts).encode, (sequenceTag sps pps ts).encode] := by
  refine ⟨rfl, m.elapsedMs now, ?_⟩
  rw [emitInitialization, buildScriptTag_eq_encode, buildSequenceHeaderWithTs, hm.sps, hm.pps,
    sequenceTag, ← buildVideoFrameTag_eq_encode]
  rfl

end FlvMuxer

theorem scriptTag_media (timestamp : UInt32) :
    (scriptTag timestamp).media =
      some (.script (ascii "onMetaData") (buildOnMetadata.drop 13)) := by
  simp only [Tag.media, scriptTag]
  decide +kernel

namespace VideoPipeline

/-! ## The stream of whole units -/

/-- The parameter sets, each in one packet and in either order, make the burst. -/
theorem run_parameterSets {sps pps : Nal} (hsps : sps.nalType = nalTypeSps)
    (hpps : pps.nalType = nalTypePps) {h₁ h₂ : List UInt8} (hh₁ : h₁.length = 12)
    (hh₂ : h₂.length = 12) {pkts : List TimedPacket}
    (hpkts : pkts.map TimedPacket.payload = [h₁ ++ sps.bytes, h₂ ++ pps.bytes] ∨
      pkts.map TimedPacket.payload = [h₂ ++ pps.bytes, h₁ ++ sps.bytes]) :
    ∃ ts, (run step new pkts).1 = [(scriptTag ts).encode, (FlvMuxer.sequenceTag sps pps ts).encode]
      ∧ (run step new pkts).2.muxer.initialized = true := by
  rcases hpkts with hpkts | hpkts
  · obtain ⟨pkt, pkts, rfl, hpkt, hpkts⟩ := List.map_eq_cons_iff.mp hpkts
    obtain ⟨pkt', rfl, hpkt'⟩ := List.map_eq_singleton_iff.mp hpkts
    have hfirst : step new pkt = ([], ⟨.new, { FlvMuxer.new with
        startTime := some pkt.now, sps := some sps.bytes }⟩) := by
      rw [step_singleNal new sps hh₁ hpkt, FlvMuxer.processNal_sps _ hsps,
        FlvMuxer.rawParameterSet_unit]
      rfl
    have hready : FlvMuxer.Ready sps pps { FlvMuxer.new with
        startTime := some pkt.now, sps := some sps.bytes, pps := some pps.bytes } := ⟨rfl, rfl⟩
    obtain ⟨hinit, ts, hout⟩ := FlvMuxer.emitInitialization_ready hready pkt'.now'
    refine ⟨ts, ?_⟩
    rw [run_cons, run_cons, run_nil, hfirst, step_singleNal _ pps hh₂ hpkt',
      FlvMuxer.processNal_pps _ hpps, FlvMuxer.rawParameterSet_unit]
    exact ⟨by simpa [FlvMuxer.new] using hout, hinit⟩
  · obtain ⟨pkt, pkts, rfl, hpkt, hpkts⟩ := List.map_eq_cons_iff.mp hpkts
    obtain ⟨pkt', rfl, hpkt'⟩ := List.map_eq_singleton_iff.mp hpkts
    have hfirst : step new pkt = ([], ⟨.new, { FlvMuxer.new with pps := some pps.bytes }⟩) := by
      rw [step_singleNal new pps hh₂ hpkt, FlvMuxer.processNal_pps _ hpps,
        FlvMuxer.rawParameterSet_unit]
      rfl
    have hready : FlvMuxer.Ready sps pps { FlvMuxer.new with
        startTime := some pkt'.now, sps := some sps.bytes, pps := some pps.bytes } := ⟨rfl, rfl⟩
    obtain ⟨hinit, ts, hout⟩ := FlvMuxer.emitInitialization_ready hready pkt'.now'
    refine ⟨ts, ?_⟩
    rw [run_cons, run_cons, run_nil, hfirst, step_singleNal _ sps hh₁ hpkt',
      FlvMuxer.processNal_sps _ hsps, FlvMuxer.rawParameterSet_unit]
    exact ⟨by simpa [FlvMuxer.new] using hout, hinit⟩

/-- After the burst every unit becomes one NALU tag, in order. -/
theorem run_units {nals : List Nal} {payloads : List (List (List UInt8))}
    (h : List.Forall₂ Packetised nals payloads)
    (hnals : ∀ nal ∈ nals, nal.nalType ≠ nalTypeSps ∧ nal.nalType ≠ nalTypePps) :
    ∀ (p : VideoPipeline) (pkts : List TimedPacket), p.muxer.initialized = true →
      pkts.map TimedPacket.payload = payloads.flatten →
      ∃ tags : List Tag, (run step p pkts).1 = tags.map Tag.encode ∧
        tags.map Tag.media = nals.map (some ∘ Nal.media) := by
  induction h with
  | nil =>
    intro p pkts _ hpkts
    obtain rfl := List.map_eq_nil_iff.mp hpkts
    exact ⟨[], rfl, rfl⟩
  | @cons nal units nals payloads hnal _ ih =>
    intro p pkts hp hpkts
    obtain ⟨head, tail, rfl, hhead, htail⟩ := List.map_eq_append_iff.mp hpkts
    obtain ⟨hsps, hpps⟩ := hnals nal List.mem_cons_self
    obtain ⟨now, now', parser, hrun⟩ := run_packetised hnal p hhead
    obtain ⟨hinit, ts, hout⟩ := FlvMuxer.processNal_unit hp hsps hpps now now'
    obtain ⟨tags, htags, hmedia⟩ := ih (fun n hn => hnals n (List.mem_cons_of_mem _ hn))
      ⟨parser, _⟩ tail hinit htail
    refine ⟨FlvMuxer.nalTag nal ts :: tags, ?_, ?_⟩
    · rw [run_append, hrun, hout, htags]
      rfl
    · rw [List.map_cons, List.map_cons, FlvMuxer.nalTag_media, hmedia]
      rfl

/-- **The video path is lossless**: whatever the units and however they are packetised, a player
demultiplexes the metadata, one sequence header with the two parameter sets, and then every unit
in order behind its length, a keyframe exactly when its type is 5. -/
theorem run_lossless {sps pps : Nal} (hsps : sps.nalType = nalTypeSps)
    (hpps : pps.nalType = nalTypePps) {h₁ h₂ : List UInt8} (hh₁ : h₁.length = 12)
    (hh₂ : h₂.length = 12) (hlen₁ : (h₁ ++ sps.bytes).length ≤ 65535)
    (hlen₂ : (h₂ ++ pps.bytes).length ≤ 65535) {nals : List Nal}
    {payloads : List (List (List UInt8))} (h : List.Forall₂ Packetised nals payloads)
    (hnals : ∀ nal ∈ nals, nal.nalType ≠ nalTypeSps ∧ nal.nalType ≠ nalTypePps)
    {pkts : List TimedPacket}
    (hpkts : pkts.map TimedPacket.payload =
        [h₁ ++ sps.bytes, h₂ ++ pps.bytes] ++ payloads.flatten ∨
      pkts.map TimedPacket.payload =
        [h₂ ++ pps.bytes, h₁ ++ sps.bytes] ++ payloads.flatten) :
    ∃ (tags : List Tag) (argument : List UInt8) (config : AvcConfig),
      demux (flvHeader ++ (run step new pkts).1.flatten) = some (0x01, tags) ∧
        tags.map Tag.media = some (.script (ascii "onMetaData") argument) ::
          some (.avcSequenceHeader config) :: nals.map (some ∘ Nal.media) ∧
        config.lengthSize = 4 ∧ config.sps = [sps.bytes] ∧ config.pps = [pps.bytes] := by
  -- the first two packets are those of the parameter sets, in either order
  obtain ⟨params, frames, rfl, hparams, hframes⟩ : ∃ params frames, pkts = params ++ frames ∧
      (params.map TimedPacket.payload = [h₁ ++ sps.bytes, h₂ ++ pps.bytes] ∨
        params.map TimedPacket.payload = [h₂ ++ pps.bytes, h₁ ++ sps.bytes]) ∧
      frames.map TimedPacket.payload = payloads.flatten := by
    rcases hpkts with hpkts | hpkts
    · obtain ⟨params, frames, rfl, hparams, hframes⟩ := List.map_eq_append_iff.mp hpkts
      exact ⟨params, frames, rfl, .inl hparams, hframes⟩
    · obtain ⟨params, frames, rfl, hparams, hframes⟩ := List.map_eq_append_iff.mp hpkts
      exact ⟨params, frames, rfl, .inr hparams, hframes⟩
  obtain ⟨ts, hburst, hinit⟩ := run_parameterSets hsps hpps hh₁ hh₂ hparams
  obtain ⟨tags, htags, hmedia⟩ := run_units h hnals _ frames hinit hframes
  simp only [List.length_append] at hlen₁ hlen₂
  obtain ⟨config, hconfig, hsize, hset, hset'⟩ :=
    FlvMuxer.sequenceTag_media sps pps (by omega) (by omega) ts
  refine ⟨scriptTag ts :: FlvMuxer.sequenceTag sps pps ts :: tags, buildOnMetadata.drop 13,
    config, ?_, ?_, hsize, hset, hset'⟩
  · rw [run_append, hburst, htags]
    exact demux_encode 0x01 (scriptTag ts :: FlvMuxer.sequenceTag sps pps ts :: tags)
  · rw [List.map_cons, List.map_cons, scriptTag_media, hconfig, hmedia]

/-- Two parameter sets and a keyframe in three fragments. -/
def sampleSps : Nal := ⟨0x67, [0x42, 0x00, 0x1E], by decide, by decide, by decide⟩
def samplePps : Nal := ⟨0x68, [0xCE], by decide, by decide, by decide⟩
def sampleIdr : Nal := ⟨0x65, [0x88, 0x84, 0x21], by decide, by decide, by decide⟩

/-- An RTP header: version 2, no extension, no contributing sources. -/
def sampleRtpHeader : List UInt8 := [0x80, 96, 0, 1, 0, 0, 0, 0, 0, 0, 0, 1]

def sampleFragments : List (List UInt8) :=
  [sampleRtpHeader ++ [0x7C, 0x85, 0x88], sampleRtpHeader ++ [0x7C, 0x05, 0x84],
    sampleRtpHeader ++ [0x7C, 0x45, 0x21]]

theorem sampleFragments_packetised : Packetised sampleIdr sampleFragments :=
  .fragments ⟨sampleRtpHeader, [0x88], rfl, by decide⟩ ⟨sampleRtpHeader, [0x21], rfl, by decide⟩
    [⟨sampleRtpHeader, [0x84], rfl, by decide⟩] rfl

/-- A parameter set pair and a fragmented keyframe, read at clock zero. -/
theorem run_lossless_keyframe :
    ∃ (tags : List Tag) (argument : List UInt8) (config : AvcConfig),
      demux (flvHeader ++ (run step new
          (([sampleRtpHeader ++ sampleSps.bytes, sampleRtpHeader ++ samplePps.bytes] ++
            [sampleFragments].flatten).map fun payload => ⟨payload, 0, 0⟩)).1.flatten) =
          some (0x01, tags) ∧
        tags.map Tag.media = some (.script (ascii "onMetaData") argument) ::
          some (.avcSequenceHeader config) :: [sampleIdr].map (some ∘ Nal.media) ∧
        config.lengthSize = 4 ∧ config.sps = [sampleSps.bytes] ∧
        config.pps = [samplePps.bytes] :=
  run_lossless (by decide) (by decide) rfl rfl (by decide) (by decide)
    (.cons sampleFragments_packetised .nil) (by decide) (.inl rfl)

/-! ## The stream of arbitrary payloads -/

/-- The buffer and the parameter sets are bounded by the reassembly cap. -/
structure Bounded (p : VideoPipeline) : Prop where
  parser : p.parser.fuBuffer.length ≤ maxFuBufferBytes
  muxer : p.muxer.Bounded (maxFuBufferBytes + 4)

/-- The fields of the tags that a payload brings. -/
def tagFields (p : VideoPipeline) (pkt : TimedPacket) : List Fields :=
  ((p.parser.parse pkt.payload 0).1.map fun nal =>
    p.muxer.tagFields nal pkt.now pkt.now').getD []

theorem step_bounded {p : VideoPipeline} (hp : p.Bounded) {pkt : TimedPacket}
    (hpkt : pkt.payload.length ≤ 65535) :
    (step p pkt).2.Bounded ∧ ∃ tags : List Tag, tags.map Tag.encode = (step p pkt).1 ∧
      tags.map Tag.fields = p.tagFields pkt := by
  obtain ⟨hbuf, hnal⟩ := RtpParser.parse_bounded hp.parser hpkt 0
  rw [tagFields]
  rcases hparse : p.parser.parse pkt.payload 0 with ⟨_ | nal, parser⟩
  · rw [hparse] at hbuf
    rw [step_none hparse]
    exact ⟨⟨hbuf, hp.muxer⟩, [], rfl, rfl⟩
  · rw [hparse] at hbuf hnal
    obtain ⟨hmuxer, htags⟩ := FlvMuxer.processNal_bounded (by decide) hp.muxer (hnal nal rfl)
      pkt.now pkt.now'
    rw [step_some hparse]
    exact ⟨⟨hbuf, hmuxer⟩, htags⟩

/-- **Whatever the payloads**, the arm emits encodings of tags with the fields that are meant. -/
theorem run_tags {pkts : List TimedPacket} (hpkts : ∀ pkt ∈ pkts, pkt.payload.length ≤ 65535) :
    ∃ tags : List Tag, tags.map Tag.encode = (run step new pkts).1 ∧
      tags.map Tag.fields = (run (observed step tagFields) new pkts).1 :=
  run_observed (I := Bounded) (A := fun pkt : TimedPacket => pkt.payload.length ≤ 65535)
    (fun _ _ hp hpkt => step_bounded hp hpkt) ⟨Nat.zero_le _, ⟨Nat.zero_le _, Nat.zero_le _⟩⟩ hpkts

end VideoPipeline

namespace AudioTranscoder

variable {codec : AacCodec}

/-- The cached sequence header is the one of a given configuration. -/
def HeaderOf (asc : List UInt8) (t : AudioTranscoder codec) : Prop :=
  t.muxer.sequenceHeaderTag = aacSequenceHeaderTag asc 0

theorem headerOf_new {t : AudioTranscoder codec} (h : new codec = .ok t) :
    t.HeaderOf (codec.aacLcAsc audioSampleRate audioChannels) := by
  unfold new AacEncoder.new at h
  split at h
  · cases h
  · rename_i encoder henc
    split at henc
    · cases henc
    · split_ifs at henc
      obtain rfl := Except.ok.inj henc
      obtain rfl := Except.ok.inj h
      rfl

/-- The raw tags of access units, as tags. -/
theorem exists_rawTags {units : List AacAccessUnit}
    (h : ∀ u ∈ units, u.data.length < 2 ^ 24 - 2) :
    ∃ tags : List Tag, tags.map Tag.encode =
        units.map (fun u => aacRawTag u.data (ptsToMs u.pts audioSampleRate)) ∧
      tags.map Tag.fields =
        units.map fun u => ⟨0x08, ptsToMs u.pts audioSampleRate, [0xAD, 1] ++ u.data⟩ := by
  induction units with
  | nil => exact ⟨[], rfl, rfl⟩
  | cons u units ih =>
    obtain ⟨hu, hunits⟩ := List.forall_mem_cons.mp h
    obtain ⟨tags, htags, hfields⟩ := ih hunits
    have hsize : 1 + ([0x01] ++ u.data).length < 2 ^ 24 := by
      rw [List.length_append, List.length_singleton]
      omega
    refine ⟨audioTag (ptsToMs u.pts audioSampleRate) ([0x01] ++ u.data) hsize :: tags, ?_, ?_⟩
    · rw [List.map_cons, List.map_cons, htags, aacRawTag, buildAudioTag_eq_encode _ hsize]
    · rw [List.map_cons, List.map_cons, hfields]
      rfl

/-- Access units that are short enough for the 24-bit size make tags. -/
theorem step_tags {asc : List UInt8} (hasc : asc.length = 2)
    (hunit : ∀ raw, codec.IsPayload raw → raw.length < 2 ^ 24 - 2) {t : AudioTranscoder codec}
    (ht : t.HeaderOf asc) (rtp : List UInt8) :
    (t.step rtp).2.HeaderOf asc ∧ ∃ tags : List Tag, tags.map Tag.encode = (t.step rtp).1 ∧
      tags.map Tag.fields = t.tagFields asc rtp := by
  obtain ⟨hmuxer, hcases⟩ := t.step_cases rtp
  refine ⟨by rw [HeaderOf, hmuxer]; exact ht, ?_⟩
  rcases hcases with ⟨hnone, hout, -⟩ | ⟨hne, hout, -⟩
  · rw [hout, tagFields, if_pos hnone]
    exact ⟨[], rfl, rfl⟩
  · rw [hout, tagFields, if_neg hne, ht]
    obtain ⟨tags, htags, hfields⟩ := exists_rawTags fun u hu =>
      hunit u.data (t.isPayload_of_mem_completed rtp u hu)
    -- the sequence header goes out before the first raw tag only
    cases t.seqSent with
    | true => exact ⟨tags, htags, hfields⟩
    | false =>
      have hsize : 1 + ([0x00] ++ asc).length < 2 ^ 24 := by
        simp only [List.length_append, List.length_cons, List.length_nil, hasc]
        omega
      refine ⟨audioTag 0 ([0x00] ++ asc) hsize :: tags, ?_, ?_⟩
      · rw [List.map_cons, htags, aacSequenceHeaderTag, buildAudioTag_eq_encode 0 hsize]
        rfl
      · rw [List.map_cons, hfields]
        rfl

/-- **Whatever the payloads**, the audio arm emits encodings of tags with the fields that are
meant. -/
theorem run_tags {asc : List UInt8} (hasc : asc.length = 2)
    (hunit : ∀ raw, codec.IsPayload raw → raw.length < 2 ^ 24 - 2) {t : AudioTranscoder codec}
    (ht : t.HeaderOf asc) (payloads : List (List UInt8)) :
    ∃ tags : List Tag, tags.map Tag.encode = (run step t payloads).1 ∧
      tags.map Tag.fields = (run (observed step (tagFields asc)) t payloads).1 :=
  run_observed (I := HeaderOf asc) (A := fun _ => True)
    (fun _ rtp ht _ => step_tags hasc hunit ht rtp) ht fun rtp (_ : rtp ∈ payloads) => trivial

end AudioTranscoder

/-- **The container stays well formed**: whatever payloads of at most 65535 bytes reach the video
arm and whatever payloads reach the audio arm, the file header and the emitted tags demultiplex
into exactly those tags, with the types, timestamps and bodies that are meant; and a header, a body
and the size behind them parse back with their type, timestamp and body whatever follows. -/
theorem flvStreams_wellFormed (codec : AacCodec)
    (hasc : (codec.aacLcAsc audioSampleRate audioChannels).length = 2)
    (hunit : ∀ raw, codec.IsPayload raw → raw.length < 2 ^ 24 - 2) :
    (∀ pkts : List TimedPacket, (∀ pkt ∈ pkts, pkt.payload.length ≤ 65535) →
      ∃ tags : List Tag, tags.map Tag.encode = (run VideoPipeline.step .new pkts).1 ∧
        tags.map Tag.fields =
          (run (observed VideoPipeline.step VideoPipeline.tagFields) .new pkts).1 ∧
        demux (flvHeader ++ (run VideoPipeline.step .new pkts).1.flatten) = some (0x01, tags)) ∧
    (∀ t, AudioTranscoder.new codec = .ok t → ∀ payloads : List (List UInt8),
      ∃ tags : List Tag, tags.map Tag.encode = (run AudioTranscoder.step t payloads).1 ∧
        tags.map Tag.fields = (run (observed AudioTranscoder.step
          (AudioTranscoder.tagFields (codec.aacLcAsc audioSampleRate audioChannels))) t
            payloads).1 ∧
        demux (flvAudioHeader ++ (run AudioTranscoder.step t payloads).1.flatten) =
          some (0x04, tags)) ∧
    ∀ (tagType : UInt8) (timestamp : UInt32) (body rest : List UInt8)
      (h : body.length < 2 ^ 24),
      parseTag (buildTagHeader tagType (UInt32.ofNat body.length) timestamp ++ body ++
          u32Bytes (UInt32.ofNat (11 + body.length)) ++ rest) =
        some (⟨tagType, timestamp, body, h⟩, rest) := by
  refine ⟨fun pkts hpkts => ?_, fun t ht payloads => ?_, fun tagType timestamp body rest h => ?_⟩
  · obtain ⟨tags, htags, hfields⟩ := VideoPipeline.run_tags hpkts
    refine ⟨tags, htags, hfields, ?_⟩
    rw [← htags]
    exact demux_encode 0x01 tags
  · obtain ⟨tags, htags, hfields⟩ := AudioTranscoder.run_tags hasc hunit
      (AudioTranscoder.headerOf_new ht) payloads
    refine ⟨tags, htags, hfields, ?_⟩
    rw [← htags]
    exact demux_encode 0x04 tags
  · rw [buildTagHeader_append_eq_encode ⟨tagType, timestamp, body, h⟩]
    exact parseTag_encode _ rest

/-- An encoder that turns every frame into one ADTS frame with a four-byte payload. -/
def sampleCodec : AacCodec where
  State := Unit
  newEncoder _ _ _ := some ()
  encodeFrame _ _ :=
    (some ([0xFF, 0xF1, 0x6C, 0x40, 0x01, 0x7F, 0xFC] ++ [0x01, 0x40, 0x22, 0x80]), ())
  parseAdts adtsFrame := if adtsFrame.length < 7 then none else some 7
  aacLcAsc _ _ := [0x15, 0x88]

theorem sampleCodec_payload {raw : List UInt8} (h : sampleCodec.IsPayload raw) :
    raw.length < 2 ^ 24 - 2 := by
  obtain ⟨_, _, adtsFrame, payloadOffset, hframe, -, rfl⟩ := h
  obtain rfl := Option.some.inj hframe
  simp only [List.length_drop, List.length_append, List.length_cons, List.length_nil]
  omega

def sampleTranscoder : AudioTranscoder sampleCodec :=
  ⟨⟨(), [], 0, [0x15, 0x88], 8000, 1, by decide⟩, .new [0x15, 0x88], false⟩

/-- Two parameter sets with 40 milliseconds in between, and a keyframe. -/
def samplePackets : List TimedPacket :=
  [⟨VideoPipeline.sampleRtpHeader ++ VideoPipeline.sampleSps.bytes, 0, 0⟩,
    ⟨VideoPipeline.sampleRtpHeader ++ VideoPipeline.samplePps.bytes, 40000000, 40000000⟩,
    ⟨VideoPipeline.sampleRtpHeader ++ VideoPipeline.sampleIdr.bytes, 80000000, 80000000⟩]

/-- A PCMU packet with the samples of one frame, behind a truncated one. -/
def sampleAudioPackets : List (List UInt8) :=
  [[0x80, 0], [0x80, 0, 0, 1, 0, 0, 0, 0, 0, 0, 0, 1] ++ List.replicate 1024 0xFF]

/-- A frame of samples is encoded at once, and nothing is pending behind it. -/
theorem pushPcm_frame {pcm : List Int16} (h : pcm.length = 1024) :
    (sampleTranscoder.encoder.pushPcm pcm).1 = .ok [⟨[0x01, 0x40, 0x22, 0x80], 0, 1024⟩] := by
  have hne : pcm ≠ [] := List.ne_nil_of_length_pos (by omega)
  rw [AacEncoder.pushPcm, if_neg hne, AacEncoder.pushLoop, dif_pos]
  · dsimp only [sampleTranscoder, sampleCodec]
    rw [if_neg (by decide)]
    dsimp only
    rw [if_neg (by decide), AacEncoder.pushLoop, dif_neg]
    · rw [List.nil_append, List.nil_append, UInt64.zero_add, UInt64.sub_self]
      rfl
    · change ¬ 1024 ≤ (([] ++ pcm).drop 1024).length
      rw [List.nil_append, List.length_drop, h]
      decide
  · change 1024 ≤ ([] ++ pcm).length
    rw [List.nil_append, h]

theorem sampleAudioPackets_fields :
    (run (observed AudioTranscoder.step (AudioTranscoder.tagFields [0x15, 0x88]))
        sampleTranscoder sampleAudioPackets).1 =
      [⟨8, 0, [0xAD, 0, 0x15, 0x88]⟩, ⟨8, 0, [0xAD, 1, 0x01, 0x40, 0x22, 0x80]⟩] := by
  have hfirst : parseG711Rtp [0x80, 0] = none := by decide
  have hsecond : parseG711Rtp ([0x80, 0, 0, 1, 0, 0, 0, 0, 0, 0, 0, 1] ++ List.replicate 1024 0xFF) =
      some (List.replicate 1024 0xFF) := by decide +kernel
  have hpcm : ((List.replicate 1024 (0xFF : UInt8)).map ulaw2linear).length = 1024 := by
    rw [List.length_map, List.length_replicate]
  have hcompleted : sampleTranscoder.completed
      ([0x80, 0, 0, 1, 0, 0, 0, 0, 0, 0, 0, 1] ++ List.replicate 1024 0xFF) =
        [⟨[0x01, 0x40, 0x22, 0x80], 0, 1024⟩] := by
    rw [AudioTranscoder.completed, hsecond]
    dsimp only
    rw [pushPcm_frame hpcm]
    rfl
  have hnone : sampleTranscoder.step [0x80, 0] = ([], sampleTranscoder) := by
    rw [AudioTranscoder.step, AudioTranscoder.processRtp, hfirst]
  rw [sampleAudioPackets, run_cons, run_cons, run_nil, observed, observed, hnone,
    AudioTranscoder.tagFields, AudioTranscoder.tagFields, hcompleted, AudioTranscoder.completed,
    hfirst]
  rfl

/-- A burst and a keyframe on one arm, the configuration and a frame on the other. -/
theorem flvStreams_wellFormed_sample :
    (∃ tags : List Tag,
      tags.map Tag.fields =
        [⟨18, 40, buildOnMetadata⟩,
          ⟨9, 40, [0x17, 0, 0, 0, 0, 1, 0x42, 0, 0x1E, 0xFF, 0xE1, 0, 4, 0x67, 0x42, 0, 0x1E, 1, 0, 2,
            0x68, 0xCE]⟩,
          ⟨9, 0, [0x17, 1, 0, 0, 0, 0, 0, 0, 4, 0x65, 0x88, 0x84, 0x21]⟩] ∧
      demux (flvHeader ++ (run VideoPipeline.step .new samplePackets).1.flatten) =
        some (0x01, tags)) ∧
    ∃ tags : List Tag,
      tags.map Tag.fields =
        [⟨8, 0, [0xAD, 0, 0x15, 0x88]⟩, ⟨8, 0, [0xAD, 1, 0x01, 0x40, 0x22, 0x80]⟩] ∧
      demux (flvAudioHeader ++
        (run AudioTranscoder.step sampleTranscoder sampleAudioPackets).1.flatten) =
          some (0x04, tags) := by
  obtain ⟨hvideo, haudio, -⟩ :=
    flvStreams_wellFormed sampleCodec rfl fun _ h => sampleCodec_payload h
  obtain ⟨video, -, hvideoFields, hvideoDemux⟩ := hvideo samplePackets (by decide)
  obtain ⟨audio, -, haudioFields, haudioDemux⟩ := haudio sampleTranscoder rfl sampleAudioPackets
  refine ⟨⟨video, hvideoFields.trans (by decide +kernel), hvideoDemux⟩,
    audio, haudioFields.trans sampleAudioPackets_fields, haudioDemux⟩

end Fosipcore
