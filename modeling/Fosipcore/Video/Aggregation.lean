import Fosipcore.Video.Pipeline
import Fosipcore.Video.StapA

/-!
# Aggregated units

A STAP-A packet carries several units, of which the depacketiser returns the last. What the muxer
keeps and emits for it is what it keeps and emits for that unit alone; the units in front of it
are lost, and with them their tags.

## Main definitions

* `stapA`: the aggregation packet of a list of units
* `eraseTimestamp`: a tag without its timestamp
* `FlvMuxer.SameSets`: two muxers with the same parameter sets, initialised or not

## Main results

* `RtpParser.parse_stapA`: the depacketiser returns the last unit
* `VideoPipeline.aggregation_last`: an aggregation packet stands for its last unit
* `VideoPipeline.aggregated_slices`: the slices in front of it emit nothing
-/

namespace Fosipcore

open BigEndian Transducer

/-- The aggregation packet of a list of units: its own header byte, and every unit behind its
size. -/
def stapA (indicator : UInt8) (nals : List Nal) : List UInt8 :=
  indicator :: nals.flatMap fun nal => toBytes 2 nal.bytes.length ++ nal.bytes

/-- A tag without its timestamp. -/
def eraseTimestamp (tag : List UInt8) : List UInt8 := tag.take 4 ++ tag.drop 8

namespace RtpParser

theorem stapA_eq (indicator : UInt8) (nals : List Nal) :
    stapA indicator nals = indicator :: (entries (nals.map Nal.bytes) ++ []) := by
  rw [stapA, entries, List.flatMap_map, List.append_nil]

theorem avccUnit_bytes (nal : Nal) : avccUnit 0 nal.bytes = nal.unit := rfl

/-- **The depacketiser returns the last unit** of an aggregation packet. -/
theorem parse_stapA {hdr : List UInt8} (hhdr : hdr.length = 12) (p : RtpParser) {indicator : UInt8}
    (htype : indicator &&& 0x1F = nalTypeStapA) (nals : List Nal) (last : Nal)
    (hlt : ∀ nal ∈ nals ++ [last], nal.bytes.length < 2 ^ 16) :
    p.parse (hdr ++ stapA indicator (nals ++ [last])) 0 = (some last.unit, p) := by
  have hunits : ∀ unit ∈ (nals ++ [last]).map Nal.bytes,
      unit.length < 2 ^ 16 ∧ unit.head? ≠ some 0 := by
    intro unit hunit
    obtain ⟨nal, hnal, rfl⟩ := List.mem_map.mp hunit
    exact ⟨hlt nal hnal, fun hzero => nal.header_ne_zero (Option.some.inj hzero)⟩
  have htail : NoEntry [] := .inl Nat.two_pos
  rw [stapA_eq, parse_entriesOf hhdr p htype hunits htail, List.map_append, List.map_singleton,
    List.getLast?_concat, Option.map_some, avccUnit_bytes]

end RtpParser

/-! ## Muxers up to their clocks -/

theorem eraseTimestamp_header (tagType : UInt8) (dataSize ts ts' : UInt32) (rest : List UInt8) :
    eraseTimestamp (buildTagHeader tagType dataSize ts ++ rest) =
      eraseTimestamp (buildTagHeader tagType dataSize ts' ++ rest) := rfl

theorem eraseTimestamp_scriptTag (ts ts' : UInt32) :
    eraseTimestamp (buildScriptTag ts) = eraseTimestamp (buildScriptTag ts') := by
  simp only [buildScriptTag, List.append_assoc]
  exact eraseTimestamp_header ..

namespace FlvMuxer

theorem eraseTimestamp_videoTag (frameType avcPacketType : UInt8) (data : List UInt8)
    (ts ts' : UInt32) :
    eraseTimestamp (buildVideoFrameTag frameType avcPacketType data ts) =
      eraseTimestamp (buildVideoFrameTag frameType avcPacketType data ts') := by
  simp only [buildVideoFrameTag, List.append_assoc]
  exact eraseTimestamp_header ..

/-- The muxers hold the same parameter sets, and both are initialised or none is. -/
structure SameSets (m m' : FlvMuxer) : Prop where
  sps : m.sps = m'.sps
  pps : m.pps = m'.pps
  initialized : m.initialized = m'.initialized

variable {m m' : FlvMuxer}

theorem SameSets.refl (m : FlvMuxer) : m.SameSets m := ⟨rfl, rfl, rfl⟩

theorem SameSets.trans {m'' : FlvMuxer} (h : m.SameSets m') (h' : m'.SameSets m'') :
    m.SameSets m'' :=
  ⟨h.sps.trans h'.sps, h.pps.trans h'.pps, h.initialized.trans h'.initialized⟩

theorem SameSets.emitInitialization (h : m.SameSets m') (now now' : Instant) :
    (m.emitInitialization now).2.SameSets (m'.emitInitialization now').2 ∧
      (m.emitInitialization now).1.map eraseTimestamp =
        (m'.emitInitialization now').1.map eraseTimestamp := by
  refine ⟨⟨h.sps, h.pps, rfl⟩, ?_⟩
  simp only [FlvMuxer.emitInitialization, buildSequenceHeaderWithTs, List.map_cons, List.map_nil,
    h.sps, h.pps]
  rw [eraseTimestamp_scriptTag _ (m'.elapsedMs now'),
    eraseTimestamp_videoTag _ _ _ _ (m'.elapsedMs now')]

/-- **The clock does not matter**: muxers with the same parameter sets do the same with a unit, up
to timestamps. -/
theorem SameSets.processNal (h : m.SameSets m') (nal : NalUnit) (now₁ now₂ now₁' now₂' : Instant) :
    (m.processNal nal now₁ now₂).2.SameSets (m'.processNal nal now₁' now₂').2 ∧
      (m.processNal nal now₁ now₂).1.map eraseTimestamp =
        (m'.processNal nal now₁' now₂').1.map eraseTimestamp := by
  -- the branch depends on the unit, the sets and the flag, so both muxers take the same one
  by_cases hsps : nal.nalType = nalTypeSps
  · have hset : SameSets
        { m with startTime := some (m.startTime.getD now₁), sps := some (rawParameterSet nal.data) }
        { m' with
          startTime := some (m'.startTime.getD now₁'), sps := some (rawParameterSet nal.data) } :=
      ⟨rfl, h.pps, h.initialized⟩
    rw [processNal_sps m hsps, processNal_sps m' hsps]
    simp only [show (m.pps.isSome && !m.initialized) = (m'.pps.isSome && !m'.initialized) by
      rw [h.pps, h.initialized]]
    split_ifs
    · exact hset.emitInitialization now₂ now₂'
    · exact ⟨hset, rfl⟩
  by_cases hpps : nal.nalType = nalTypePps
  · have hset : SameSets { m with pps := some (rawParameterSet nal.data) }
        { m' with pps := some (rawParameterSet nal.data) } := ⟨h.sps, rfl, h.initialized⟩
    rw [processNal_pps m hpps, processNal_pps m' hpps]
    simp only [show (m.sps.isSome && !m.initialized) = (m'.sps.isSome && !m'.initialized) by
      rw [h.sps, h.initialized]]
    split_ifs
    · exact hset.emitInitialization now₂ now₂'
    · exact ⟨hset, rfl⟩
  cases hm : m.initialized with
  | false =>
    rw [processNal_deferred hm hsps hpps, processNal_deferred (h.initialized ▸ hm) hsps hpps]
    exact ⟨h, rfl⟩
  | true =>
    rw [processNal_frame hm hsps hpps, processNal_frame (h.initialized ▸ hm) hsps hpps]
    refine ⟨⟨h.sps, h.pps, h.initialized⟩, ?_⟩
    simp only [List.map_cons, List.map_nil, buildVideoTag]
    rw [eraseTimestamp_videoTag]

/-- A unit that is no parameter set leaves them alone. -/
theorem sameSets_processNal (m : FlvMuxer) {nal : NalUnit} (hsps : nal.nalType ≠ nalTypeSps)
    (hpps : nal.nalType ≠ nalTypePps) (now now' : Instant) :
    m.SameSets (m.processNal nal now now').2 := by
  cases hm : m.initialized with
  | false =>
    rw [processNal_deferred hm hsps hpps]
    exact .refl m
  | true =>
    rw [processNal_frame hm hsps hpps]
    exact ⟨rfl, rfl, rfl⟩

end FlvMuxer

namespace VideoPipeline

/-! ## An aggregation packet and its units -/

/-- A packet with one unit behind a 12-byte header. -/
def CarriesNal (nal : Nal) (pkt : TimedPacket) : Prop :=
  ∃ rtpHeader : List UInt8, rtpHeader.length = 12 ∧ pkt.payload = rtpHeader ++ nal.bytes

/-- Units that are no parameter sets leave the depacketiser and the parameter sets alone. -/
theorem run_frames {nals : List Nal} {pkts : List TimedPacket}
    (h : List.Forall₂ CarriesNal nals pkts)
    (hnals : ∀ nal ∈ nals, nal.nalType ≠ nalTypeSps ∧ nal.nalType ≠ nalTypePps)
    (p : VideoPipeline) :
    (run step p pkts).2.parser = p.parser ∧ p.muxer.SameSets (run step p pkts).2.muxer := by
  induction h generalizing p with
  | nil => exact ⟨rfl, .refl _⟩
  | @cons nal pkt nals pkts hpkt _ ih =>
    obtain ⟨hdr, hhdr, hpayload⟩ := hpkt
    obtain ⟨hsps, hpps⟩ := hnals nal List.mem_cons_self
    obtain ⟨hparser, hmuxer⟩ := ih (fun n hn => hnals n (List.mem_cons_of_mem nal hn))
      (step p pkt).2
    have hstep := step_singleNal p nal hhdr hpayload
    have hfirst : p.muxer.SameSets (step p pkt).2.muxer := by
      rw [hstep]
      exact FlvMuxer.sameSets_processNal _ hsps hpps _ _
    rw [run_cons]
    exact ⟨by rw [hparser, hstep], hfirst.trans hmuxer⟩

/-- **An aggregation packet stands for its last unit.** If no unit in front of the last is a
parameter set, it leaves the depacketiser and the parameter sets as the same units do in packets
of their own, and emits what the last of these packets emits, up to timestamps. -/
theorem aggregation_last (p : VideoPipeline) {nals : List Nal} {last : Nal}
    (hnals : ∀ nal ∈ nals, nal.nalType ≠ nalTypeSps ∧ nal.nalType ≠ nalTypePps)
    {rtpHeader : List UInt8} (hheader : rtpHeader.length = 12) {indicator : UInt8}
    (htype : indicator &&& 0x1F = nalTypeStapA) {pkt : TimedPacket}
    (hpkt : pkt.payload = rtpHeader ++ stapA indicator (nals ++ [last]))
    (hlen : pkt.payload.length ≤ 65535) {pkts : List TimedPacket} {pktLast : TimedPacket}
    (hpkts : List.Forall₂ CarriesNal nals pkts) (hlast : CarriesNal last pktLast) :
    (step p pkt).2.parser = (run step p (pkts ++ [pktLast])).2.parser ∧
      (step p pkt).2.muxer.SameSets (run step p (pkts ++ [pktLast])).2.muxer ∧
      (step p pkt).1.map eraseTimestamp =
        (step (run step p pkts).2 pktLast).1.map eraseTimestamp := by
  have hfit : ∀ nal ∈ nals ++ [last], nal.bytes.length < 2 ^ 16 := by
    intro nal hnal
    have hsub := (List.sublist_flatten_of_mem (List.mem_map_of_mem (f := fun nal : Nal =>
      toBytes 2 nal.bytes.length ++ nal.bytes) hnal)).length_le
    rw [hpkt, stapA, List.length_append, List.length_cons, List.flatMap_def] at hlen
    rw [List.length_append, length_toBytes] at hsub
    omega
  have hparse : p.parser.parse pkt.payload 0 = (some last.unit, p.parser) := by
    rw [hpkt]
    exact RtpParser.parse_stapA hheader p.parser htype nals last hfit
  obtain ⟨hdr, hhdr, hpayload⟩ := hlast
  -- the units in front of the last leave the arm as it is, up to its clock
  obtain ⟨hparser, hmuxer⟩ := run_frames hpkts hnals p
  obtain ⟨hsets, htags⟩ := hmuxer.processNal last.unit pkt.now pkt.now' pktLast.now pktLast.now'
  rw [step_some hparse, run_append, run_cons, run_nil,
    step_singleNal (run step p pkts).2 last hhdr hpayload]
  exact ⟨hparser.symm, hsets, htags⟩

/-- A packet with the given bytes behind a fixed header, read at clock zero. -/
def samplePacket (payload : List UInt8) : TimedPacket := ⟨sampleRtpHeader ++ payload, 0, 0⟩

/-- The arm behind two parameter sets. -/
def sampleInitialized : VideoPipeline :=
  (run step new [samplePacket sampleSps.bytes, samplePacket samplePps.bytes]).2

/-- A supplementary unit in front of a keyframe. -/
def sampleSei : Nal := ⟨0x06, [0x05, 0x80], by decide, by decide, by decide⟩

theorem aggregation_last_keyframe :
    (step sampleInitialized (samplePacket (stapA 0x78 [sampleSei, sampleIdr]))).1.map
        eraseTimestamp =
      (step (run step sampleInitialized [samplePacket sampleSei.bytes]).2
        (samplePacket sampleIdr.bytes)).1.map eraseTimestamp := by
  have hnals : ∀ nal ∈ [sampleSei], nal.nalType ≠ nalTypeSps ∧ nal.nalType ≠ nalTypePps := by
    decide
  have htype : (0x78 : UInt8) &&& 0x1F = nalTypeStapA := rfl
  have hpkt : (samplePacket (stapA 0x78 [sampleSei, sampleIdr])).payload =
      sampleRtpHeader ++ stapA 0x78 ([sampleSei] ++ [sampleIdr]) := rfl
  have hlen : (samplePacket (stapA 0x78 [sampleSei, sampleIdr])).payload.length ≤ 65535 := by
    decide
  have hpkts : List.Forall₂ CarriesNal [sampleSei] [samplePacket sampleSei.bytes] :=
    .cons ⟨sampleRtpHeader, rfl, rfl⟩ .nil
  have hlast : CarriesNal sampleIdr (samplePacket sampleIdr.bytes) := ⟨sampleRtpHeader, rfl, rfl⟩
  exact (aggregation_last sampleInitialized hnals rfl htype hpkt hlen hpkts hlast).2.2

/-- **The slices in front of the last emit nothing**: two slices in packets of their own are two
tags, and one tag in an aggregation packet. -/
theorem aggregated_slices :
    (step sampleInitialized (samplePacket (stapA 0x78 [sampleIdr, sampleIdr]))).1.map
        eraseTimestamp ≠
      (run step sampleInitialized
        [samplePacket sampleIdr.bytes, samplePacket sampleIdr.bytes]).1.map eraseTimestamp := by
  intro h
  have hlength := congrArg List.length h
  revert hlength
  decide +kernel

end VideoPipeline

end Fosipcore
