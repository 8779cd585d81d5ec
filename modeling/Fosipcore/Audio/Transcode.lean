import Fosipcore.Audio.Aac
import Fosipcore.Library.Transducer
import Fosipcore.Video.FlvMuxer

/-!
# The audio transcoder

`AudioTranscoder.processRtp` takes one RTP packet of the camera's G.711 track, decodes and
encodes its samples, and returns the FLV audio tags they complete. The AAC sequence header tag
precedes the first raw tag.

## Main definitions

* `flvAudioHeader`, `aacSequenceHeaderTag`, `aacRawTag`: the audio byte stream
* `parseG711Rtp`: the payload of a PCMU packet
* `AudioTranscoder`, `AudioTranscoder.processRtp`: the transcoder
* `AudioTranscoder.tagFields`: the fields of the tags that a packet brings

## Main results

* `buildAudioTag_eq_encode`: the emitted bytes are those of FLV tags
* `AudioTranscoder.step_cases`: what a call does with the header flag, and what it emits
* `readFields_buildAudioTag`: an audio tag by itself
-/

namespace Fosipcore

open BigEndian FlvContainer

/-! ## FLV audio tags -/

/-- The FLV file header of an audio-only stream, followed by the zero `PreviousTagSize`. -/
def flvAudioHeader : List UInt8 :=
  [0x46, 0x4C, 0x56, 1, 0x04, 0, 0, 0, 9, 0, 0, 0, 0]

/-- SoundFormat 10 (AAC), SamplingRate 3, SoundSize 0, SoundType 1. -/
def audioTagHeaderAacMono : UInt8 := ((10 : UInt8) <<< 4) ||| ((3 : UInt8) <<< 2) ||| 1

/-- `u32::try_from` on a size or a time, saturating. -/
def saturateU32 (n : ℕ) : UInt32 := if n < 2 ^ 32 then UInt32.ofNat n else 0xFFFFFFFF

/-- The audio muxer's own 11-byte tag header. -/
def buildAudioTagHeader (tagType : UInt8) (dataSize timestamp : UInt32) : List UInt8 :=
  [tagType,
    ((dataSize >>> 16) &&& 0xFF).toUInt8, ((dataSize >>> 8) &&& 0xFF).toUInt8,
    (dataSize &&& 0xFF).toUInt8,
    ((timestamp >>> 16) &&& 0xFF).toUInt8, ((timestamp >>> 8) &&& 0xFF).toUInt8,
    (timestamp &&& 0xFF).toUInt8, ((timestamp >>> 24) &&& 0xFF).toUInt8] ++ List.replicate 3 0

/-- Both muxers write the same header. -/
theorem buildAudioTagHeader_eq : buildAudioTagHeader = buildTagHeader := rfl

/-- A complete FLV audio tag. -/
def buildAudioTag (payload : List UInt8) (timestampMs : UInt32) : List UInt8 :=
  let dataSize := saturateU32 (1 + payload.length)
  buildAudioTagHeader 0x08 dataSize timestampMs ++ [audioTagHeaderAacMono] ++ payload ++
    u32Bytes (11 + dataSize)

/-- The AAC sequence header tag (config type 0). -/
def aacSequenceHeaderTag (asc : List UInt8) (timestampMs : UInt32) : List UInt8 :=
  buildAudioTag ([0x00] ++ asc) timestampMs

/-- An AAC raw tag (config type 1). -/
def aacRawTag (aacData : List UInt8) (timestampMs : UInt32) : List UInt8 :=
  buildAudioTag ([0x01] ++ aacData) timestampMs

/-- The sample-domain time of an access unit in milliseconds. -/
def ptsToMs (ptsSamples : UInt64) (sampleRate : UInt32) : UInt32 :=
  saturateU32 (ptsSamples * 1000 / sampleRate.toUInt64).toNat

/-- An audio tag, as a tag. -/
def audioTag (timestampMs : UInt32) (payload : List UInt8) (h : 1 + payload.length < 2 ^ 24) :
    Tag :=
  ⟨0x08, timestampMs, audioTagHeaderAacMono :: payload, by
    simpa [Nat.add_comm] using h⟩

theorem buildAudioTag_eq_encode (timestampMs : UInt32) {payload : List UInt8}
    (h : 1 + payload.length < 2 ^ 24) :
    buildAudioTag payload timestampMs = (audioTag timestampMs payload h).encode := by
  have hsize : saturateU32 (1 + payload.length) = UInt32.ofNat (payload.length + 1) := by
    rw [saturateU32, if_pos (by omega), Nat.add_comm]
  rw [← buildTagHeader_append_eq_encode]
  simp only [buildAudioTag, buildAudioTagHeader_eq, audioTag, hsize, List.length_cons,
    UInt32.ofNat_add 11, List.append_assoc, List.singleton_append]
  rfl

/-! ## The payload of a PCMU packet -/

def rtpPtPcmu : UInt8 := 0

/-- The bytes behind the header extension when the extension bit is set: `none` when the packet
ends inside the extension header. -/
def extensionEnd (rtp : List UInt8) (off : ℕ) (hasExt : Bool) : Option ℕ :=
  if hasExt then
    if rtp.length < off + 4 then none
    else
      let extLen := ((rtp.getD (off + 2) 0).toNat * 256 + (rtp.getD (off + 3) 0).toNat) * 4
      some (off + 4 + extLen)
  else some off

/-- An empty payload is no payload. -/
def nonEmpty (payload : List UInt8) : Option (List UInt8) :=
  if payload = [] then none else some payload

/-- The μ-law payload of an RTP packet, padding stripped; `none` if it is no PCMU packet. -/
def parseG711Rtp (rtp : List UInt8) : Option (List UInt8) :=
  if rtp.length < 12 then none
  else
    let b0 := rtp.getD 0 0
    if b0 >>> 6 ≠ 2 then none
    else
      let pt := rtp.getD 1 0 &&& 0x7f
      if pt ≠ rtpPtPcmu then none
      else
        let csrcCount := (b0 &&& 0x0f).toNat
        let hasExt := b0 &&& 0x10 != 0
        let hasPadding := b0 &&& 0x20 != 0
        -- the fixed header, and the contributing sources
        match extensionEnd rtp (12 + csrcCount * 4) hasExt with
        | none => none
        | some off =>
          if off ≥ rtp.length then none
          else
            let payload := rtp.drop off
            if hasPadding then
              match payload.getLast? with
              | none => none
              | some pad =>
                -- the last byte counts the padding, itself included
                if pad.toNat = 0 ∨ pad.toNat > payload.length then none
                else nonEmpty (payload.take (payload.length - pad.toNat))
            else nonEmpty payload

/-! ## The transcoder -/

/-- The audio muxer: the cached sequence header tag and the RTP time base. -/
structure AudioFlvMuxer where
  sequenceHeaderTag : List UInt8
  rtpBase : Option UInt64

def AudioFlvMuxer.new (asc : List UInt8) : AudioFlvMuxer := ⟨aacSequenceHeaderTag asc 0, none⟩

/-- The transcoder: encoder, muxer, and whether the sequence header has been emitted. -/
structure AudioTranscoder (codec : AacCodec) where
  encoder : AacEncoder codec
  muxer : AudioFlvMuxer
  seqSent : Bool

namespace AudioTranscoder

variable {codec : AacCodec}

/-- A transcoder for the camera's 8 kHz mono stream. -/
def new (codec : AacCodec) : Except AacError (AudioTranscoder codec) :=
  match AacEncoder.new codec audioSampleRate audioChannels audioBitrateBps with
  | .error e => .error e
  | .ok encoder => .ok ⟨encoder, .new encoder.asc, false⟩

/-- Process one RTP packet and return the tags it completes. -/
def processRtp (t : AudioTranscoder codec) (rtp : List UInt8) :
    Except AacError (List (List UInt8)) × AudioTranscoder codec :=
  match parseG711Rtp rtp with
  | none => (.ok [], t)
  | some payload =>
    match decodeMulaw payload (List.replicate payload.length 0) with
    | none => (.ok [], t)
    | some pcm =>
      match t.encoder.pushPcm pcm with
      | (.error e, encoder) => (.error e, { t with encoder := encoder })
      | (.ok units, encoder) =>
        let t := { t with encoder := encoder }
        if units = [] then (.ok [], t)
        else
          -- the first units bring the sequence header with them
          let header := if t.seqSent then [] else [t.muxer.sequenceHeaderTag]
          (.ok (header ++ units.map fun unit =>
            aacRawTag unit.data (ptsToMs unit.pts audioSampleRate)), { t with seqSent := true })

/-- The audio arm of the pipeline: the tags of one packet, none when the encoder fails. -/
def step (t : AudioTranscoder codec) (rtp : List UInt8) :
    List (List UInt8) × AudioTranscoder codec :=
  match t.processRtp rtp with
  | (.ok tags, t) => (tags, t)
  | (.error _, t) => ([], t)

/-- The access units that a packet completes, none when the encoder fails. -/
def completed (t : AudioTranscoder codec) (rtp : List UInt8) : List AacAccessUnit :=
  match parseG711Rtp rtp with
  | none => []
  | some payload => (t.encoder.pushPcm (payload.map ulaw2linear)).1.toOption.getD []

/-- **The fields of the tags that a packet brings**: the configuration before the first unit, at the
time zero, and one tag for every unit that is completed, at its own time. -/
def tagFields (asc : List UInt8) (t : AudioTranscoder codec) (rtp : List UInt8) : List Fields :=
  if t.completed rtp = [] then []
  else (if t.seqSent then [] else [⟨0x08, 0, [0xAD, 0] ++ asc⟩]) ++
    (t.completed rtp).map fun unit =>
      ⟨0x08, ptsToMs unit.pts audioSampleRate, [0xAD, 1] ++ unit.data⟩

/-- The units that a packet completes are payloads. -/
theorem isPayload_of_mem_completed (t : AudioTranscoder codec) (rtp : List UInt8) :
    ∀ u ∈ t.completed rtp, codec.IsPayload u.data := by
  intro u hu
  rw [completed] at hu
  split at hu
  · cases hu
  · rename_i payload _
    cases hout : (t.encoder.pushPcm (payload.map ulaw2linear)).1.toOption with
    | none =>
      rw [hout] at hu
      cases hu
    | some out =>
      rw [hout] at hu
      exact t.encoder.pushPcm_units _ out hout u hu

/-- **What one packet does**: it emits nothing and leaves the header flag alone, or it emits the raw
tags of the units that it completes, behind the sequence header unless that was emitted before. -/
theorem step_cases (t : AudioTranscoder codec) (rtp : List UInt8) :
    (t.step rtp).2.muxer = t.muxer ∧
      (t.completed rtp = [] ∧ (t.step rtp).1 = [] ∧ (t.step rtp).2.seqSent = t.seqSent ∨
        t.completed rtp ≠ [] ∧
          (t.step rtp).1 = (if t.seqSent then [] else [t.muxer.sequenceHeaderTag]) ++
            (t.completed rtp).map (fun u => aacRawTag u.data (ptsToMs u.pts audioSampleRate)) ∧
          (t.step rtp).2.seqSent = true) := by
  cases hpayload : parseG711Rtp rtp with
  | none => simp [step, processRtp, completed, hpayload]
  | some payload =>
    have hpcm := decodeMulaw_replicate payload
    rcases hpush : t.encoder.pushPcm (payload.map ulaw2linear) with ⟨e | units, encoder⟩
    · have hcompleted : t.completed rtp = [] := by simp [completed, hpayload, hpush, Except.toOption]
      rw [hcompleted]
      simp [step, processRtp, hpayload, hpcm, hpush]
    · have hcompleted : t.completed rtp = units := by
        simp [completed, hpayload, hpush, Except.toOption]
      rw [hcompleted]
      by_cases hempty : units = []
      · simp [step, processRtp, hpayload, hpcm, hpush, hempty]
      · -- some units are complete, and the header is sent from now on
        have hstep : t.step rtp = ((if t.seqSent then [] else [t.muxer.sequenceHeaderTag]) ++
            units.map (fun u => aacRawTag u.data (ptsToMs u.pts audioSampleRate)),
            { t with encoder := encoder, seqSent := true }) := by
          simp only [step, processRtp, hpayload, hpcm, hpush, if_neg hempty]
        rw [hstep]
        exact ⟨rfl, .inr ⟨hempty, rfl, rfl⟩⟩

end AudioTranscoder

/-! ## The tags by themselves -/

/-- An audio tag is read, whatever the length of its payload. -/
theorem readFields_buildAudioTag (payload : List UInt8) (timestampMs : UInt32) :
    readFields (buildAudioTag payload timestampMs) =
      some ⟨0x08, timestampMs, audioTagHeaderAacMono :: payload⟩ := by
  have hread := readFields_buildTagHeader 0x08 (saturateU32 (1 + payload.length)) timestampMs
    (audioTagHeaderAacMono :: payload)
    (length_u32Bytes (11 + saturateU32 (1 + payload.length)))
  rw [← hread, buildAudioTag, buildAudioTagHeader_eq]
  simp only [List.append_assoc, List.cons_append, List.nil_append]

theorem readFields_aacSequenceHeaderTag (asc : List UInt8) (timestampMs : UInt32) :
    readFields (aacSequenceHeaderTag asc timestampMs) =
      some ⟨0x08, timestampMs, [0xAD, 0] ++ asc⟩ :=
  readFields_buildAudioTag _ _

theorem readFields_aacRawTag (aacData : List UInt8) (timestampMs : UInt32) :
    readFields (aacRawTag aacData timestampMs) =
      some ⟨0x08, timestampMs, [0xAD, 1] ++ aacData⟩ :=
  readFields_buildAudioTag _ _

end Fosipcore
