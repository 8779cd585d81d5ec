import Mathlib.Data.List.Basic

/-!
# G.711 decoding and AAC encoding

The camera's μ-law bytes are expanded to 16-bit samples and buffered until a frame of 1024
samples per channel is complete; each frame becomes one AAC access unit. The AAC encoder and
the ADTS parser belong to a library and are parameters (`AacCodec`).

## Main definitions

* `ulaw2linear`, `decodeMulaw`: the μ-law decoder
* `AacCodec`: the functions of the encoder library
* `AacEncoder`, `AacEncoder.pushPcm`: the buffering encoder

## Main results

* `pushPcm_units`: every returned access unit is the payload of an encoded frame
-/

namespace Fosipcore

/-! ## G.711 -/

/-- Expand a μ-law byte to a 16-bit linear sample. -/
def ulaw2linear (uVal : UInt8) : Int16 :=
  -- a μ-law byte is stored with all bits inverted
  let uVal := ~~~uVal
  -- the mantissa with its bias, shifted by the exponent
  let t := ((uVal &&& 0x0F).toNat <<< 3) + 0x84
  let t : Int := t <<< ((uVal &&& 0x70).toNat >>> 4)
  if uVal &&& 0x80 ≠ 0 then Int16.ofInt (0x84 - t) else Int16.ofInt (t - 0x84)

/-- Decode a slice of μ-law bytes into an output slice at least as long. -/
def decodeMulaw (input : List UInt8) (output : List Int16) : Option (List Int16) :=
  if output.length < input.length then none
  else some (input.map ulaw2linear ++ output.drop input.length)

/-- An output slice of the input's length is overwritten whole. -/
theorem decodeMulaw_replicate (input : List UInt8) :
    decodeMulaw input (List.replicate input.length 0) = some (input.map ulaw2linear) := by
  simp [decodeMulaw]

/-! ## AAC -/

def audioSampleRate : UInt32 := 8000
def audioBitrateBps : UInt32 := 32000
def audioChannels : UInt8 := 1

/-- Samples per channel in one AAC frame. -/
def frameLen : ℕ := 1024

/-- The encoder library: its state, its constructor, the encoder of one frame (`none` for an
error), the ADTS parser's payload offset, and the stream configuration. -/
structure AacCodec where
  State : Type
  newEncoder : UInt32 → UInt8 → UInt32 → Option State
  encodeFrame : State → List Int16 → Option (List UInt8) × State
  parseAdts : List UInt8 → Option ℕ
  aacLcAsc : UInt32 → UInt8 → List UInt8

/-- One emitted access unit: raw bytes, first sample, duration. -/
structure AacAccessUnit where
  data : List UInt8
  pts : UInt64
  duration : UInt64
  deriving DecidableEq

inductive AacError where
  | initFailed
  | encodeFrameFailed
  | malformedAdtsFrame
  | emptyAccessUnit
  deriving DecidableEq

/-- The buffering encoder, for at least one channel. -/
structure AacEncoder (codec : AacCodec) where
  encoder : codec.State
  pending : List Int16
  samplesTotal : UInt64
  asc : List UInt8
  sampleRate : UInt32
  channels : UInt8
  channels_pos : 0 < channels.toNat

namespace AacEncoder

variable {codec : AacCodec}

/-- Create an encoder; the library rejects unsupported parameters, no channel among them. -/
def new (codec : AacCodec) (sampleRate : UInt32) (channels : UInt8) (bitrateBps : UInt32) :
    Except AacError (AacEncoder codec) :=
  match codec.newEncoder sampleRate channels bitrateBps with
  | none => .error .initFailed
  | some encoder =>
    if h : 0 < channels.toNat then
      .ok ⟨encoder, [], 0, codec.aacLcAsc sampleRate channels, sampleRate, channels, h⟩
    else .error .initFailed

/-- A fresh encoder has the channels it was asked for, and nothing pending. -/
theorem new_eq_ok {codec : AacCodec} {sampleRate bitrateBps : UInt32} {channels : UInt8}
    {e : AacEncoder codec} (h : new codec sampleRate channels bitrateBps = .ok e) :
    ∃ encoder hpos,
      e = ⟨encoder, [], 0, codec.aacLcAsc sampleRate channels, sampleRate, channels, hpos⟩ := by
  unfold new at h
  split at h
  · cases h
  · rename_i encoder _
    split_ifs at h with hpos
    exact ⟨encoder, hpos, (Except.ok.inj h).symm⟩

/-- Interleaved samples in one frame. -/
def frameSamples (e : AacEncoder codec) : ℕ := frameLen * e.channels.toNat

theorem frameSamples_pos (e : AacEncoder codec) : 0 < e.frameSamples :=
  Nat.mul_pos (by decide) e.channels_pos

/-- The loop of `pushPcm`: encode whole frames while there are any. -/
def pushLoop (e : AacEncoder codec) (units : List AacAccessUnit) :
    Except AacError (List AacAccessUnit) × AacEncoder codec :=
  if _h : e.frameSamples ≤ e.pending.length then
    let unitPts := e.samplesTotal - UInt64.ofNat e.pending.length / e.channels.toUInt64
    let frame := e.pending.take e.frameSamples
    let rest := e.pending.drop e.frameSamples
    match codec.encodeFrame e.encoder frame with
    -- an error leaves the samples of this frame consumed, and drops the units before it
    | (none, encoder) =>
      (.error .encodeFrameFailed, { e with encoder := encoder, pending := rest })
    | (some adtsFrame, encoder) =>
      match codec.parseAdts adtsFrame with
      | none => (.error .malformedAdtsFrame, { e with encoder := encoder, pending := rest })
      | some payloadOffset =>
        let raw := adtsFrame.drop payloadOffset
        if raw = [] then
          (.error .emptyAccessUnit, { e with encoder := encoder, pending := rest })
        else
          pushLoop { e with encoder := encoder, pending := rest }
            (units ++ [⟨raw, unitPts, UInt64.ofNat e.frameSamples⟩])
  else (.ok units, e)
termination_by e.pending.length
decreasing_by
  have := e.frameSamples_pos
  simp only [List.length_drop]
  omega

/-- Buffer interleaved samples and emit the access units they complete. -/
def pushPcm (e : AacEncoder codec) (pcm : List Int16) :
    Except AacError (List AacAccessUnit) × AacEncoder codec :=
  if pcm = [] then (.ok [], e)
  else
    pushLoop { e with
      pending := e.pending ++ pcm
      samplesTotal := e.samplesTotal + UInt64.ofNat pcm.length / e.channels.toUInt64 } []

end AacEncoder

/-- A payload of an encoded frame: what is left of it behind its ADTS header. -/
def AacCodec.IsPayload (codec : AacCodec) (raw : List UInt8) : Prop :=
  ∃ encoder frame adtsFrame payloadOffset,
    (codec.encodeFrame encoder frame).1 = some adtsFrame ∧
      codec.parseAdts adtsFrame = some payloadOffset ∧ raw = adtsFrame.drop payloadOffset

namespace AacEncoder

variable {codec : AacCodec}

theorem pushLoop_units (e : AacEncoder codec) (units : List AacAccessUnit)
    (hunits : ∀ u ∈ units, codec.IsPayload u.data) :
    ∀ out ∈ (e.pushLoop units).1.toOption, ∀ u ∈ out, codec.IsPayload u.data := by
  fun_induction pushLoop e units with
  | case1 | case2 | case3 =>
    intro out hout
    cases hout
  | case4 e units hle unitPts frame rest adtsFrame encoder henc payloadOffset hadts raw hraw ih =>
    refine ih fun u hu => ?_
    rcases List.mem_append.mp hu with h | h
    · exact hunits u h
    · obtain rfl := List.mem_singleton.mp h
      exact ⟨e.encoder, frame, adtsFrame, payloadOffset, by rw [henc], hadts, rfl⟩
  | case5 =>
    rintro out ⟨⟩
    exact hunits

/-- **Every returned access unit is the payload of an encoded frame.** -/
theorem pushPcm_units (e : AacEncoder codec) (pcm : List Int16) :
    ∀ out ∈ (e.pushPcm pcm).1.toOption, ∀ u ∈ out, codec.IsPayload u.data := by
  unfold pushPcm
  split_ifs
  · rintro out ⟨⟩
    simp
  · exact pushLoop_units _ [] (by simp)

end AacEncoder

end Fosipcore
