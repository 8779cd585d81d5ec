import Fosipcore.Audio.Transcode
import Fosipcore.Library.Blocks

/-!
# The audio stream does not depend on its packets

The camera cuts its samples into packets as it likes, and a frame may begin and end anywhere in
them. The encoder is a block machine over the samples: what the transcoder has emitted after some
packets is what the whole recording gives, cut into frames at once.

## Main definitions

* `AacCodec.Works`: the encoder library does not fail
* `AacCodec.accessUnit`: the block machine of the encoder
* `AudioTranscoder.fed`, `AudioTranscoder.tagsOf`: the transcoder behind a recording, and its tags

## Main results

* `AacEncoder.pushLoop_eq`: the loop of the encoder runs over the complete frames
* `AudioTranscoder.step_fed`: a packet moves the transcoder on by its samples
* `AudioTranscoder.run_packets`: the tags are those of the recording
* `AudioTranscoder.exists_tags_tagsOf`: a player demultiplexes the tags of a recording
* `AudioTranscoder.packetisation_irrelevant`: the same bytes in other packets give the same tags
-/

namespace Fosipcore

open Blocks FlvContainer Transducer

/-! ## The encoder library -/

/-- A frame is encoded, and there is a payload behind its ADTS header. -/
def AacCodec.Works (codec : AacCodec) : Prop :=
  ∀ (encoder : codec.State) (frame : List Int16), frame.length = frameLen →
    ∃ adtsFrame payloadOffset, (codec.encodeFrame encoder frame).1 = some adtsFrame ∧
      codec.parseAdts adtsFrame = some payloadOffset ∧ payloadOffset < adtsFrame.length

/-- The payload of one frame, and the state of the encoder behind it. -/
def AacCodec.accessUnit (codec : AacCodec) (encoder : codec.State) (frame : List Int16) :
    List UInt8 × codec.State :=
  let (adtsFrame, encoder) := codec.encodeFrame encoder frame
  let adtsFrame := adtsFrame.getD []
  (adtsFrame.drop ((codec.parseAdts adtsFrame).getD 0), encoder)

/-- What the library does with a complete frame. -/
theorem AacCodec.Works.accessUnit {codec : AacCodec} (h : codec.Works) (encoder : codec.State)
    {frame : List Int16} (hframe : frame.length = frameLen) :
    ∃ adtsFrame payloadOffset,
      codec.encodeFrame encoder frame = (some adtsFrame, (codec.accessUnit encoder frame).2) ∧
      codec.parseAdts adtsFrame = some payloadOffset ∧
      (codec.accessUnit encoder frame).1 = adtsFrame.drop payloadOffset ∧
      adtsFrame.drop payloadOffset ≠ [] := by
  obtain ⟨adtsFrame, payloadOffset, hencode, hparse, hlt⟩ := h encoder frame hframe
  refine ⟨adtsFrame, payloadOffset, Prod.ext hencode rfl, hparse, ?_, ?_⟩
  · simp only [AacCodec.accessUnit, hencode, Option.getD_some, hparse]
  · exact List.ne_nil_of_length_pos (by rw [List.length_drop]; omega)

namespace AacEncoder

variable {codec : AacCodec}

/-- The access units of payloads, from the frame `k` on. -/
def unitsFrom (k : ℕ) (raws : List (List UInt8)) : List AacAccessUnit :=
  raws.mapIdx fun i raw =>
    ⟨raw, UInt64.ofNat (frameLen * (k + i)), UInt64.ofNat frameLen⟩

theorem unitsFrom_cons (k : ℕ) (raw : List UInt8) (raws : List (List UInt8)) :
    unitsFrom k (raw :: raws) =
      ⟨raw, UInt64.ofNat (frameLen * k), UInt64.ofNat frameLen⟩ :: unitsFrom (k + 1) raws := by
  simp only [unitsFrom, List.mapIdx_cons, Nat.add_zero, Nat.add_assoc, Nat.add_comm 1]

theorem unitsFrom_eq_nil {k : ℕ} {raws : List (List UInt8)} :
    unitsFrom k raws = [] ↔ raws = [] := List.mapIdx_eq_nil_iff

theorem length_frame (e : AacEncoder codec) (hsize : e.frameSamples = frameLen)
    (hle : e.frameSamples ≤ e.pending.length) :
    (e.pending.take e.frameSamples).length = frameLen := by
  rw [List.length_take, Nat.min_eq_left hle, hsize]

/-- **The loop of a mono encoder runs over the complete frames**, and the access unit of the frame
`k` starts at its first sample. -/
theorem pushLoop_eq (hcodec : codec.Works) (e : AacEncoder codec) (units : List AacAccessUnit)
    (k : ℕ) (hmono : e.channels = 1)
    (htotal : e.samplesTotal = UInt64.ofNat (frameLen * k + e.pending.length)) :
    e.pushLoop units =
      (.ok (units ++ unitsFrom k (blocks codec.accessUnit frameLen e.encoder e.pending).1),
        { e with
          encoder := (blocks codec.accessUnit frameLen e.encoder e.pending).2
          pending := remainder frameLen e.pending }) := by
  have hsize : e.frameSamples = frameLen := by
    rw [frameSamples, hmono]
    rfl
  fun_induction pushLoop e units generalizing k with
  | case1 e units hle frame rest encoder hencode =>
    obtain ⟨adtsFrame, -, hencode', -⟩ := hcodec.accessUnit e.encoder (e.length_frame hsize hle)
    cases hencode.symm.trans hencode'
  | case2 e units hle frame rest adtsFrame encoder hencode hparse =>
    obtain ⟨_, payloadOffset, hencode', hparse', -⟩ :=
      hcodec.accessUnit e.encoder (e.length_frame hsize hle)
    obtain ⟨⟨⟩, -⟩ := Prod.mk.inj (hencode.symm.trans hencode')
    cases hparse.symm.trans hparse'
  | case3 e units hle frame rest adtsFrame encoder hencode payloadOffset hparse raw hraw =>
    obtain ⟨_, _, hencode', hparse', -, hne⟩ :=
      hcodec.accessUnit e.encoder (e.length_frame hsize hle)
    obtain ⟨⟨⟩, -⟩ := Prod.mk.inj (hencode.symm.trans hencode')
    obtain ⟨⟩ := hparse.symm.trans hparse'
    exact absurd hraw hne
  | case4 e units hle unitPts frame rest adtsFrame encoder hencode payloadOffset hparse raw hraw
      ih =>
    obtain ⟨_, _, hencode', hparse', hunit, -⟩ :=
      hcodec.accessUnit e.encoder (e.length_frame hsize hle)
    obtain ⟨⟨⟩, hencoder⟩ := Prod.mk.inj (hencode.symm.trans hencode')
    obtain ⟨⟩ := hparse.symm.trans hparse'
    -- the count of all samples without the pending ones is that of the frames before this one
    have hpts : unitPts = UInt64.ofNat (frameLen * k) := by
      simp only [unitPts, htotal, hmono]
      rw [show (1 : UInt8).toUInt64 = 1 from rfl, UInt64.div_one, UInt64.ofNat_add,
        UInt64.add_sub_cancel]
    have htotal' : e.samplesTotal = UInt64.ofNat (frameLen * (k + 1) + rest.length) := by
      rw [htotal, List.length_drop, Nat.mul_succ, hsize, Nat.add_assoc,
        Nat.add_sub_cancel' (hsize ▸ hle)]
    rw [ih (k + 1) hmono htotal' hsize]
    rw [hsize] at hle hunit hencoder
    rw [blocks_of_le _ _ (by decide) hle, remainder_of_le _ (by decide) hle, unitsFrom_cons, hunit,
      ← hencoder]
    simp only [rest, raw, hpts, hsize, List.append_assoc, List.singleton_append]
  | case5 e units hlt =>
    rw [hsize, Nat.not_le] at hlt
    rw [blocks_of_lt _ _ hlt, remainder_of_lt _ hlt]
    simp [unitsFrom]

/-- The encoder behind a recording. -/
def fed (e : AacEncoder codec) (samples : List Int16) : AacEncoder codec :=
  { e with
    encoder := (blocks codec.accessUnit frameLen e.encoder samples).2
    pending := remainder frameLen samples
    samplesTotal := UInt64.ofNat samples.length }

theorem frameLen_pos : 0 < frameLen := by decide

/-- More samples complete the frames of the whole recording. -/
theorem pushPcm_fed (hcodec : codec.Works) (e : AacEncoder codec) (hmono : e.channels = 1)
    (samples pcm : List Int16) :
    (e.fed samples).pushPcm pcm =
      (.ok (unitsFrom (samples.length / frameLen)
          (blocks codec.accessUnit frameLen (e.fed samples).encoder
            (remainder frameLen samples ++ pcm)).1),
        e.fed (samples ++ pcm)) := by
  have hlt : (remainder frameLen samples).length < frameLen := by
    rw [length_remainder]
    exact Nat.mod_lt _ frameLen_pos
  unfold pushPcm
  split_ifs with hempty
  · rw [hempty, List.append_nil, List.append_nil, blocks_of_lt _ _ hlt]
    rfl
  · have hcount : (e.fed samples).samplesTotal +
        UInt64.ofNat pcm.length / (e.fed samples).channels.toUInt64 =
          UInt64.ofNat (samples ++ pcm).length := by
      simp only [fed, hmono]
      rw [show (1 : UInt8).toUInt64 = 1 from rfl, UInt64.div_one, List.length_append,
        UInt64.ofNat_add]
    have htotal : UInt64.ofNat (samples ++ pcm).length =
        UInt64.ofNat (frameLen * (samples.length / frameLen) +
          (remainder frameLen samples ++ pcm).length) := by
      rw [List.length_append, List.length_append, length_remainder, ← Nat.add_assoc,
        Nat.div_add_mod]
    have hloop := pushLoop_eq hcodec
      { e.fed samples with
        pending := remainder frameLen samples ++ pcm
        samplesTotal := UInt64.ofNat (samples ++ pcm).length }
      [] (samples.length / frameLen) hmono htotal
    rw [hcount]
    refine hloop.trans ?_
    simp only [fed, List.nil_append, blocks_append _ _ _ samples pcm frameLen_pos,
      remainder_append _ samples pcm frameLen_pos]

end AacEncoder

/-! ## The transcoder -/

/-- The time of the frame `k` in milliseconds. -/
def frameMs (k : ℕ) : UInt32 := UInt32.ofNat (min (128 * k) (2 ^ 32 - 1))

theorem ptsToMs_frame {k : ℕ} (h : frameLen * k < 2 ^ 54) :
    ptsToMs (UInt64.ofNat (frameLen * k)) audioSampleRate = frameMs k := by
  have hms : (UInt64.ofNat (frameLen * k) * 1000 / audioSampleRate.toUInt64).toNat = 128 * k := by
    have hnat : (UInt64.ofNat (frameLen * k)).toNat = frameLen * k :=
      UInt64.toNat_ofNat_of_lt' (h.trans (by decide))
    -- the product of the conversion does not wrap around
    have hmul : frameLen * k * 1000 < 2 ^ 64 := by omega
    have hsplit : frameLen * k * 1000 = 8000 * (128 * k) := by
      rw [frameLen]
      omega
    rw [UInt64.toNat_div, UInt64.toNat_mul, hnat, show (1000 : UInt64).toNat = 1000 from rfl,
      show audioSampleRate.toUInt64.toNat = 8000 from rfl, Nat.mod_eq_of_lt hmul, hsplit,
      Nat.mul_div_cancel_left _ (by decide)]
  rw [ptsToMs, hms, saturateU32, frameMs]
  split_ifs with hlt
  · rw [Nat.min_eq_left (by omega)]
  · rw [Nat.min_eq_right (by omega)]
    rfl

namespace AudioTranscoder

variable {codec : AacCodec}

/-- The samples of a packet; a packet that is not accepted brings none. -/
def samplesOf (rtp : List UInt8) : List Int16 := ((parseG711Rtp rtp).getD []).map ulaw2linear

/-- The payloads of the frames of a recording. -/
def rawsOf (t : AudioTranscoder codec) (samples : List Int16) : List (List UInt8) :=
  (blocks codec.accessUnit frameLen t.encoder.encoder samples).1

theorem length_rawsOf (t : AudioTranscoder codec) (samples : List Int16) :
    (t.rawsOf samples).length = samples.length / frameLen := length_runBlocks ..

/-- The transcoder behind a recording. -/
def fed (t : AudioTranscoder codec) (samples : List Int16) : AudioTranscoder codec :=
  ⟨t.encoder.fed samples, t.muxer, !(t.rawsOf samples).isEmpty⟩

/-- The tags of a recording: the sequence header and a raw tag for each frame, if there is one. -/
def tagsOf (t : AudioTranscoder codec) (samples : List Int16) : List (List UInt8) :=
  if t.rawsOf samples = [] then []
  else
    t.muxer.sequenceHeaderTag ::
      (t.rawsOf samples).mapIdx fun k raw => aacRawTag raw (frameMs k)

/-- **A packet moves the transcoder on by its samples**, and emits the tags that the recording
gains. -/
theorem step_fed (hcodec : codec.Works) (t : AudioTranscoder codec)
    (hmono : t.encoder.channels = 1) (samples : List Int16) (rtp : List UInt8)
    (hlt : (samples ++ samplesOf rtp).length < 2 ^ 54) :
    ((t.fed samples).step rtp).2 = t.fed (samples ++ samplesOf rtp) ∧
      t.tagsOf samples ++ ((t.fed samples).step rtp).1 = t.tagsOf (samples ++ samplesOf rtp) := by
  cases hpayload : parseG711Rtp rtp with
  | none =>
    simp [step, processRtp, samplesOf, hpayload]
  | some payload =>
    have hpcm : samplesOf rtp = payload.map ulaw2linear := by
      rw [samplesOf, hpayload, Option.getD_some]
    have hdecode := decodeMulaw_replicate payload
    have hpush := AacEncoder.pushPcm_fed hcodec t.encoder hmono samples (payload.map ulaw2linear)
    have hraws : t.rawsOf (samples ++ payload.map ulaw2linear) = t.rawsOf samples ++
        (blocks codec.accessUnit frameLen (t.encoder.fed samples).encoder
          (remainder frameLen samples ++ payload.map ulaw2linear)).1 := by
      rw [rawsOf, blocks_append _ _ _ _ _ AacEncoder.frameLen_pos]
      rfl
    generalize (blocks codec.accessUnit frameLen (t.encoder.fed samples).encoder
      (remainder frameLen samples ++ payload.map ulaw2linear)).1 = raws at hpush hraws
    rw [hpcm] at hlt ⊢
    have htags : (AacEncoder.unitsFrom (samples.length / frameLen) raws).map
        (fun unit => aacRawTag unit.data (ptsToMs unit.pts audioSampleRate)) =
          raws.mapIdx fun i raw => aacRawTag raw (frameMs (i + (t.rawsOf samples).length)) := by
      refine List.ext_getElem (by simp [AacEncoder.unitsFrom]) fun i _ hi => ?_
      rw [List.length_mapIdx] at hi
      have hcount := congrArg List.length hraws
      rw [List.length_append, length_rawsOf, length_rawsOf] at hcount
      have hframes := Nat.mul_div_le (samples ++ payload.map ulaw2linear).length frameLen
      have hle : samples.length / frameLen + i ≤
          (samples ++ payload.map ulaw2linear).length / frameLen := by
        omega
      have hframe := (Nat.mul_le_mul_left frameLen hle).trans_lt (hframes.trans_lt hlt)
      simp only [AacEncoder.unitsFrom, List.getElem_map, List.getElem_mapIdx, length_rawsOf,
        Nat.add_comm i, ptsToMs_frame hframe]
    have hstep : (t.fed samples).step rtp =
        (if raws = [] then []
          else (if t.rawsOf samples = [] then [t.muxer.sequenceHeaderTag] else []) ++
            raws.mapIdx fun i raw => aacRawTag raw (frameMs (i + (t.rawsOf samples).length)),
          t.fed (samples ++ payload.map ulaw2linear)) := by
      simp only [step, processRtp, hpayload, hdecode, fed, hpush, AacEncoder.unitsFrom_eq_nil,
        htags, hraws]
      by_cases hnew : raws = []
      · simp [hnew]
      · by_cases hold : t.rawsOf samples = []
        · simp [hnew, hold]
        · simp [hnew, hold]
    rw [hstep]
    refine ⟨rfl, ?_⟩
    simp only [tagsOf, hraws]
    by_cases hnew : raws = []
    · simp [hnew]
    · by_cases hold : t.rawsOf samples = []
      · simp [hnew, hold]
      · simp [hnew, hold, List.mapIdx_append]

/-- The samples of a packet sequence. -/
def recording (rtps : List (List UInt8)) : List Int16 := (rtps.map samplesOf).flatten

/-- A run moves the transcoder on by the samples of its packets. -/
theorem run_fed (hcodec : codec.Works) (t : AudioTranscoder codec)
    (hmono : t.encoder.channels = 1) (rtps : List (List UInt8)) (samples : List Int16)
    (hlt : (samples ++ recording rtps).length < 2 ^ 54) :
    t.tagsOf samples ++ (run step (t.fed samples) rtps).1 = t.tagsOf (samples ++ recording rtps) := by
  induction rtps generalizing samples with
  | nil => simp [recording]
  | cons rtp rtps ih =>
    have hrecording : samples ++ recording (rtp :: rtps) =
        samples ++ samplesOf rtp ++ recording rtps := by
      simp [recording]
    rw [hrecording] at hlt ⊢
    have hlt' : (samples ++ samplesOf rtp).length < 2 ^ 54 := by
      rw [List.length_append] at hlt
      omega
    obtain ⟨hstate, htags⟩ := step_fed hcodec t hmono samples rtp hlt'
    rw [run_cons, hstate, ← List.append_assoc, htags, ih _ hlt]

/-- The μ-law bytes that a packet sequence brings. -/
def mulawBytes (rtps : List (List UInt8)) : List UInt8 := (rtps.filterMap parseG711Rtp).flatten

theorem recording_eq (rtps : List (List UInt8)) :
    recording rtps = (mulawBytes rtps).map ulaw2linear := by
  induction rtps with
  | nil => rfl
  | cons rtp rtps ih =>
    rw [recording, List.map_cons, List.flatten_cons, ← recording, ih, samplesOf, mulawBytes,
      mulawBytes]
    cases hpayload : parseG711Rtp rtp with
    | none => simp [hpayload]
    | some payload => simp [hpayload]

/-- A fresh transcoder is one behind the empty recording. -/
theorem fed_nil {t : AudioTranscoder codec} (h : AudioTranscoder.new codec = .ok t) :
    t.encoder.channels = 1 ∧ t.fed [] = t ∧
      t.muxer.sequenceHeaderTag = aacSequenceHeaderTag (codec.aacLcAsc 8000 1) 0 := by
  unfold AudioTranscoder.new at h
  split at h
  · cases h
  · rename_i encoder hnew
    obtain ⟨state, hpos, rfl⟩ := AacEncoder.new_eq_ok hnew
    obtain rfl := Except.ok.inj h
    exact ⟨rfl, rfl, rfl⟩

/-- **The tags of a run are those of its recording**: none without a complete frame; otherwise the
sequence header, and a raw tag for every frame of 1024 samples, 128 milliseconds apart up to the
largest time. -/
theorem run_packets (hcodec : codec.Works) {t : AudioTranscoder codec}
    (ht : AudioTranscoder.new codec = .ok t) {rtps : List (List UInt8)}
    (hlt : (mulawBytes rtps).length < 2 ^ 54) :
    (run step t rtps).1 = t.tagsOf ((mulawBytes rtps).map ulaw2linear) := by
  obtain ⟨hmono, hnil, -⟩ := fed_nil ht
  have hlt' : ([] ++ recording rtps).length < 2 ^ 54 := by
    rwa [List.nil_append, recording_eq, List.length_map]
  have hrun := run_fed hcodec t hmono rtps [] hlt'
  rwa [hnil, recording_eq] at hrun

/-! ## What a player reads -/

/-- Each tag of a recording by itself, whatever the length of its payload. -/
theorem readFields_tagsOf {t : AudioTranscoder codec} (ht : AudioTranscoder.new codec = .ok t)
    {samples : List Int16} (hne : t.rawsOf samples ≠ []) :
    (t.tagsOf samples).map readFields =
      some ⟨0x08, 0, [0xAD, 0] ++ codec.aacLcAsc 8000 1⟩ ::
        (t.rawsOf samples).mapIdx fun k raw => some ⟨0x08, frameMs k, [0xAD, 1] ++ raw⟩ := by
  rw [tagsOf, if_neg hne, (fed_nil ht).2.2, List.map_cons, readFields_aacSequenceHeaderTag]
  refine congrArg _ (List.ext_getElem (by simp) fun k _ _ => ?_)
  rw [List.getElem_map, List.getElem_mapIdx, List.getElem_mapIdx, readFields_aacRawTag]

/-- Raw tags, with their payloads and their times. -/
theorem exists_tags_raws {raws : List (List UInt8)} (h : ∀ raw ∈ raws, raw.length < 2 ^ 24 - 2)
    (time : ℕ → UInt32) :
    ∃ tags : List Tag, raws.mapIdx (fun k raw => aacRawTag raw (time k)) = tags.map Tag.encode ∧
      tags.map Tag.media = raws.map (some ∘ Media.aacRaw) ∧
      tags.map Tag.timestamp = raws.mapIdx fun k _ => time k := by
  induction raws generalizing time with
  | nil => exact ⟨[], rfl, rfl, rfl⟩
  | cons raw raws ih =>
    obtain ⟨hraw, hraws⟩ := List.forall_mem_cons.mp h
    obtain ⟨tags, htags, hmedia, htimes⟩ := ih hraws fun k => time (k + 1)
    have hsize : 1 + ([0x01] ++ raw).length < 2 ^ 24 := by
      rw [List.length_append, List.length_singleton]
      omega
    refine ⟨audioTag (time 0) ([0x01] ++ raw) hsize :: tags, ?_, ?_, ?_⟩
    · rw [List.mapIdx_cons, List.map_cons, htags, aacRawTag, buildAudioTag_eq_encode _ hsize]
    · rw [List.map_cons, List.map_cons, hmedia]
      rfl
    · rw [List.mapIdx_cons, List.map_cons, htimes]
      rfl

/-- **The tags of a recording**: the configuration of the encoder, and its payloads with their
times. -/
theorem exists_tags_tagsOf {t : AudioTranscoder codec} (ht : AudioTranscoder.new codec = .ok t)
    (hasc : (codec.aacLcAsc 8000 1).length < 2 ^ 24 - 2) {samples : List Int16}
    (hraws : ∀ raw ∈ t.rawsOf samples, raw.length < 2 ^ 24 - 2) (hne : t.rawsOf samples ≠ []) :
    ∃ tags : List Tag, t.tagsOf samples = tags.map Tag.encode ∧
      tags.map Tag.media = some (.aacSequenceHeader (codec.aacLcAsc 8000 1)) ::
        (t.rawsOf samples).map (some ∘ Media.aacRaw) ∧
      tags.map Tag.timestamp = 0 :: (t.rawsOf samples).mapIdx fun k _ => frameMs k := by
  obtain ⟨tags, htags, hmedia, htimes⟩ := exists_tags_raws hraws frameMs
  have hsize : 1 + ([0x00] ++ codec.aacLcAsc 8000 1).length < 2 ^ 24 := by
    rw [List.length_append, List.length_singleton]
    omega
  refine ⟨audioTag 0 ([0x00] ++ codec.aacLcAsc 8000 1) hsize :: tags, ?_, ?_, ?_⟩
  · rw [tagsOf, if_neg hne, (fed_nil ht).2.2, htags, List.map_cons, aacSequenceHeaderTag,
      buildAudioTag_eq_encode _ hsize]
  · rw [List.map_cons, hmedia]
    rfl
  · rw [List.map_cons, htimes]
    rfl

/-- **The stream does not depend on its packets.** Two sequences that bring the same bytes give
fresh transcoders the same tags: none without a complete frame of 1024 samples, otherwise the
sequence header and a raw tag for every complete frame, 128 milliseconds apart. A player demultiplexes
them, unless one is too long for the 24-bit size of a tag. -/
theorem packetisation_irrelevant (hcodec : codec.Works) {t : AudioTranscoder codec}
    (ht : AudioTranscoder.new codec = .ok t) {rtps rtps' : List (List UInt8)}
    (hbytes : mulawBytes rtps = mulawBytes rtps') (hlt : (mulawBytes rtps).length < 2 ^ 54) :
    (run step t rtps).1 = (run step t rtps').1 ∧
      ∃ raws : List (List UInt8), raws.length = (mulawBytes rtps).length / 1024 ∧
        raws = t.rawsOf ((mulawBytes rtps).map ulaw2linear) ∧
        ((mulawBytes rtps).length / 1024 = 0 → (run step t rtps).1 = []) ∧
        ((mulawBytes rtps).length / 1024 ≠ 0 →
          (run step t rtps).1.map readFields =
              some ⟨0x08, 0, [0xAD, 0] ++ codec.aacLcAsc 8000 1⟩ :: raws.mapIdx (fun k raw =>
                some ⟨0x08, UInt32.ofNat (min (128 * k) (2 ^ 32 - 1)), [0xAD, 1] ++ raw⟩) ∧
            ((codec.aacLcAsc 8000 1).length < 2 ^ 24 - 2 →
              (∀ raw ∈ raws, raw.length < 2 ^ 24 - 2) →
              ∃ tags : List Tag,
                demux (flvAudioHeader ++ (run step t rtps).1.flatten) = some (0x04, tags) ∧
                tags.map Tag.media = some (.aacSequenceHeader (codec.aacLcAsc 8000 1)) ::
                  raws.map (some ∘ Media.aacRaw) ∧
                tags.map Tag.timestamp =
                  0 :: raws.mapIdx fun k _ => UInt32.ofNat (min (128 * k) (2 ^ 32 - 1)))) := by
  have hrun := run_packets hcodec ht hlt
  have hrun' := run_packets hcodec ht (hbytes ▸ hlt)
  have hlength := t.length_rawsOf ((mulawBytes rtps).map ulaw2linear)
  rw [List.length_map] at hlength
  have hempty : t.rawsOf ((mulawBytes rtps).map ulaw2linear) = [] ↔
      (mulawBytes rtps).length / 1024 = 0 := by
    rw [← List.length_eq_zero_iff, hlength, frameLen]
  refine ⟨by rw [hrun, hrun', hbytes], _, hlength, rfl, fun hzero => ?_, fun hframes => ?_⟩
  · rw [hrun, tagsOf, if_pos (hempty.mpr hzero)]
  · have hne := hempty.not.mpr hframes
    rw [hrun]
    refine ⟨readFields_tagsOf ht hne, fun hasc hraws => ?_⟩
    obtain ⟨tags, htags, hmedia, htimes⟩ := exists_tags_tagsOf ht hasc hraws hne
    refine ⟨tags, ?_, hmedia, htimes⟩
    rw [htags]
    exact demux_encode 0x04 tags

/-- The fixed header of a PCMU packet without sources, extension and padding. -/
def plainHeader : List UInt8 := [0x80, 0, 0, 1, 0, 0, 0, 160, 0, 0, 0, 1]

theorem parseG711Rtp_plain {payload : List UInt8} (h : payload ≠ []) :
    parseG711Rtp (plainHeader ++ payload) = some payload := by
  have hlength := List.length_pos_of_ne_nil h
  have hpos : ¬ 12 ≥ (plainHeader ++ payload).length := by
    simp [plainHeader]
    omega
  have hshort : ¬ (plainHeader ++ payload).length < 12 := by omega
  have hb0 : (plainHeader ++ payload).getD 0 0 = 0x80 := rfl
  have hb1 : (plainHeader ++ payload).getD 1 0 = 0 := rfl
  have hdrop : (plainHeader ++ payload).drop 12 = payload := rfl
  have hend : extensionEnd (plainHeader ++ payload) (12 + ((0x80 : UInt8) &&& 0x0f).toNat * 4)
      ((0x80 : UInt8) &&& 0x10 != 0) = some 12 := rfl
  rw [parseG711Rtp, if_neg hshort]
  simp only [hb0, hb1, hend, if_neg hpos, hdrop]
  rw [if_neg (by decide), if_neg (by decide), if_neg (by decide), nonEmpty, if_neg h]

theorem mulawBytes_plain {pieces : List (List UInt8)} (h : ∀ piece ∈ pieces, piece ≠ []) :
    mulawBytes (pieces.map (plainHeader ++ ·)) = pieces.flatten := by
  induction pieces with
  | nil => rfl
  | cons piece pieces ih =>
    have hpiece := parseG711Rtp_plain (h piece List.mem_cons_self)
    have hrest := ih fun piece hpiece => h piece (List.mem_cons_of_mem _ hpiece)
    rw [mulawBytes] at hrest ⊢
    rw [List.map_cons, List.filterMap_cons_some hpiece, List.flatten_cons, hrest,
      List.flatten_cons]

/-- An encoder that numbers its frames. -/
def numbering : AacCodec where
  State := UInt8
  newEncoder _ _ _ := some 0
  encodeFrame n _ := (some [0xFF, 0xF1, 0x6C, 0x40, 0x01, 0x1F, 0xFC, n], n + 1)
  parseAdts adtsFrame := if adtsFrame.length < 7 then none else some 7
  aacLcAsc _ _ := [0x15, 0x88]

theorem numbering_works : numbering.Works :=
  fun encoder _ _ =>
    ⟨[0xFF, 0xF1, 0x6C, 0x40, 0x01, 0x1F, 0xFC, encoder], 7, rfl, rfl, Nat.lt_succ_self 7⟩

/-- Packets of 20 milliseconds, and one packet with the same samples. -/
theorem packetisation_irrelevant_sample :
    ∃ t, AudioTranscoder.new numbering = .ok t ∧
      (run step t ((List.replicate 13 (List.replicate 160 0xFF)).map (plainHeader ++ ·))).1 =
        (run step t [plainHeader ++ List.replicate 2080 0xFF]).1 ∧
      (run step t [plainHeader ++ List.replicate 2080 0xFF]).1.map readFields =
        [some ⟨0x08, 0, [0xAD, 0, 0x15, 0x88]⟩, some ⟨0x08, 0, [0xAD, 1, 0]⟩,
          some ⟨0x08, 128, [0xAD, 1, 1]⟩] ∧
      ∃ tags : List Tag,
        demux (flvAudioHeader ++ (run step t [plainHeader ++ List.replicate 2080 0xFF]).1.flatten) =
          some (0x04, tags) ∧
        tags.map Tag.media =
          [some (.aacSequenceHeader [0x15, 0x88]), some (.aacRaw [0]), some (.aacRaw [1])] ∧
        tags.map Tag.timestamp = [0, 0, 128] := by
  have hsmall : mulawBytes ((List.replicate 13 (List.replicate 160 0xFF)).map (plainHeader ++ ·)) =
      List.replicate 2080 0xFF := by
    rw [mulawBytes_plain (by simp), List.flatten_replicate_replicate]
  have hlarge : mulawBytes [plainHeader ++ List.replicate 2080 0xFF] =
      List.replicate 2080 0xFF := by
    have hne : List.replicate 2080 (0xFF : UInt8) ≠ [] :=
      List.ne_nil_of_length_pos (by rw [List.length_replicate]; decide)
    rw [mulawBytes, List.filterMap_cons_some (parseG711Rtp_plain hne), List.filterMap_nil,
      List.flatten_singleton]
  have ht : AudioTranscoder.new numbering =
      .ok ⟨⟨(0 : UInt8), [], 0, [0x15, 0x88], 8000, 1, by decide⟩, .new [0x15, 0x88], false⟩ := rfl
  have hlt : (mulawBytes [plainHeader ++ List.replicate 2080 0xFF]).length < 2 ^ 54 := by
    rw [hlarge, List.length_replicate]
    decide
  obtain ⟨hsame, raws, -, hraws, -, htags⟩ :=
    packetisation_irrelevant numbering_works ht (hlarge.trans hsmall.symm) hlt
  rw [hlarge, rawsOf, blocks, List.length_map, List.length_replicate] at hraws
  obtain rfl : raws = [[0], [1]] := hraws
  obtain ⟨hfields, hplayer⟩ := htags (by rw [hlarge, List.length_replicate]; decide)
  exact ⟨_, ht, hsame.symm, hfields, hplayer (by decide) (by decide)⟩

end AudioTranscoder

end Fosipcore
