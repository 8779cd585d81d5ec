import Mathlib.Algebra.Group.Nat.Defs
import Mathlib.Data.List.Pairwise
import Mathlib.Data.List.Perm.Subperm
import Mathlib.Data.List.Sort
import Fosipcore.Audio.Aac
import Fosipcore.Library.Transducer

/-!
# Audio timestamps across encoder errors

A call of the encoder that fails has consumed the frame it failed on, and returns nothing of the
frames before it in the same call. The frames behind it stay in the buffer for the calls to come,
and their access units still carry the index of their first sample.

## Main definitions

* `frameAt`, `AacCodec.stateAt`, `AacCodec.unitAt`: the frame `k` of a stream, the state of the
  library in front of it, and the access unit made of it
* `AacEncoder.returned`: a call as a step, which returns no units when it fails
* `AacEncoder.Aligned`: the encoder stands behind the frame `k` of a stream

## Main results

* `AacEncoder.pushLoop_aligned`: the loop stays aligned, whether it ends well or in an error
* `AacEncoder.run_returned_works`: the number of units, for any number of channels
* `AacEncoder.units_aligned`: every unit that is returned is that of a frame of the stream
* `AacEncoder.not_increasing_of_wrap`: the times begin again where the counter wraps around
-/

namespace Fosipcore

open Transducer

/-! ## The frames of a stream -/

/-- The frame `k` of a stream of samples. -/
def frameAt (samples : List Int16) (k : ℕ) : List Int16 :=
  (samples.drop (frameLen * k)).take frameLen

theorem frameAt_append {samples : List Int16} {k : ℕ} (h : frameLen * (k + 1) ≤ samples.length)
    (more : List Int16) : frameAt (samples ++ more) k = frameAt samples k := by
  rw [Nat.mul_succ] at h
  rw [frameAt, frameAt, List.drop_append_of_le_length (by omega),
    List.take_append_of_le_length (by rw [List.length_drop]; omega)]

namespace AacCodec

variable (codec : AacCodec)

/-- The payload of an encoded frame: `none` when the frame is not encoded, when its encoding has no
ADTS header, or when there is nothing behind the header. -/
def payload (encoder : codec.State) (frame : List Int16) : Option (List UInt8) :=
  match (codec.encodeFrame encoder frame).1 with
  | none => none
  | some adtsFrame =>
    match codec.parseAdts adtsFrame with
    | none => none
    | some payloadOffset =>
      let raw := adtsFrame.drop payloadOffset
      if raw = [] then none else some raw

/-- The library behind the first `k` frames of a stream, failed ones among them. -/
def stateAt (encoder : codec.State) (samples : List Int16) : ℕ → codec.State
  | 0 => encoder
  | k + 1 => (codec.encodeFrame (stateAt encoder samples k) (frameAt samples k)).2

/-- The access unit of the frame `k`, stamped with the index of its first sample. -/
def unitAt (encoder : codec.State) (samples : List Int16) (k : ℕ) : Option AacAccessUnit :=
  (codec.payload (codec.stateAt encoder samples k) (frameAt samples k)).map fun raw =>
    ⟨raw, UInt64.ofNat (frameLen * k), UInt64.ofNat frameLen⟩

/-- Frames of the given number of interleaved samples are encoded, with a payload. -/
def WorksOn (size : ℕ) : Prop :=
  ∀ (encoder : codec.State) (frame : List Int16), frame.length = size →
    codec.payload encoder frame ≠ none

/-- Frames that are complete do not change when more samples come. -/
theorem stateAt_append (encoder : codec.State) {samples : List Int16} {k : ℕ}
    (h : frameLen * k ≤ samples.length) (more : List Int16) :
    codec.stateAt encoder (samples ++ more) k = codec.stateAt encoder samples k := by
  induction k with
  | zero => rfl
  | succ k ih =>
    rw [stateAt, stateAt, frameAt_append h, ih (by rw [Nat.mul_succ] at h; omega)]

theorem unitAt_append (encoder : codec.State) {samples : List Int16} {k : ℕ}
    (h : frameLen * (k + 1) ≤ samples.length) (more : List Int16) :
    codec.unitAt encoder (samples ++ more) k = codec.unitAt encoder samples k := by
  rw [unitAt, unitAt, frameAt_append h,
    codec.stateAt_append encoder (by rw [Nat.mul_succ] at h; omega)]

end AacCodec

namespace AacEncoder

variable {codec : AacCodec}

/-! ## One turn of the loop -/

/-- The encoder that has buffered some samples. -/
def accept (e : AacEncoder codec) (pcm : List Int16) : AacEncoder codec :=
  { e with
    pending := e.pending ++ pcm
    samplesTotal := e.samplesTotal + UInt64.ofNat pcm.length / e.channels.toUInt64 }

/-- The time of the first pending sample. -/
def unitPts (e : AacEncoder codec) : UInt64 :=
  e.samplesTotal - UInt64.ofNat e.pending.length / e.channels.toUInt64

/-- The encoder that has consumed a frame, with whatever result. -/
def turn (e : AacEncoder codec) : AacEncoder codec :=
  { e with
    encoder := (codec.encodeFrame e.encoder (e.pending.take e.frameSamples)).2
    pending := e.pending.drop e.frameSamples }

theorem pushPcm_of_ne_nil (e : AacEncoder codec) {pcm : List Int16} (h : pcm ≠ []) :
    e.pushPcm pcm = (e.accept pcm).pushLoop [] := if_neg h

/-- Less than a frame ends the loop. -/
theorem pushLoop_of_lt {e : AacEncoder codec} (h : e.pending.length < e.frameSamples)
    (units : List AacAccessUnit) : e.pushLoop units = (.ok units, e) := by
  rw [pushLoop, dif_neg (Nat.not_le.mpr h)]

/-- A frame that gives no payload ends the loop in an error, and is consumed. -/
theorem pushLoop_of_error {e : AacEncoder codec} (h : e.frameSamples ≤ e.pending.length)
    (hpayload : codec.payload e.encoder (e.pending.take e.frameSamples) = none)
    (units : List AacAccessUnit) : ∃ err, e.pushLoop units = (.error err, e.turn) := by
  rw [pushLoop, dif_pos h]
  rcases hencode : codec.encodeFrame e.encoder (e.pending.take e.frameSamples) with
    ⟨_ | adtsFrame, encoder⟩
  · exact ⟨.encodeFrameFailed, by simp only [turn, hencode]⟩
  · cases hparse : codec.parseAdts adtsFrame with
    | none => exact ⟨.malformedAdtsFrame, by simp only [turn, hencode, hparse]⟩
    | some payloadOffset =>
      have hraw : adtsFrame.drop payloadOffset = [] := by
        simpa [AacCodec.payload, hencode, hparse] using hpayload
      exact ⟨.emptyAccessUnit, by simp only [turn, hencode, hparse, if_pos hraw]⟩

/-- A frame with a payload makes a unit. -/
theorem pushLoop_of_payload {e : AacEncoder codec} (h : e.frameSamples ≤ e.pending.length)
    {raw : List UInt8}
    (hpayload : codec.payload e.encoder (e.pending.take e.frameSamples) = some raw)
    (units : List AacAccessUnit) :
    e.pushLoop units =
      e.turn.pushLoop (units ++ [⟨raw, e.unitPts, UInt64.ofNat e.frameSamples⟩]) := by
  rw [pushLoop, dif_pos h]
  rcases hencode : codec.encodeFrame e.encoder (e.pending.take e.frameSamples) with
    ⟨_ | adtsFrame, encoder⟩
  · simp [AacCodec.payload, hencode] at hpayload
  · cases hparse : codec.parseAdts adtsFrame with
    | none => simp [AacCodec.payload, hencode, hparse] at hpayload
    | some payloadOffset =>
      obtain ⟨hraw, rfl⟩ : adtsFrame.drop payloadOffset ≠ [] ∧
          adtsFrame.drop payloadOffset = raw := by
        simpa [AacCodec.payload, hencode, hparse] using hpayload
      simp only [turn, unitPts, hencode, hparse, if_neg hraw]

theorem length_pending_turn {e : AacEncoder codec} (h : e.frameSamples ≤ e.pending.length) :
    e.turn.pending.length < e.pending.length := by
  have hpos := e.frameSamples_pos
  simp only [turn, List.length_drop]
  omega

/-! ## A mono stream -/

/-- A call of the encoder, which returns no units when it fails. -/
def returned (e : AacEncoder codec) (pcm : List Int16) :
    List AacAccessUnit × AacEncoder codec :=
  match e.pushPcm pcm with
  | (.ok units, e) => (units, e)
  | (.error _, e) => ([], e)

/-- **The encoder stands behind the frame `k`** of a mono stream: what is pending is the rest of the
stream, and the library has seen all frames before. -/
structure Aligned (encoder : codec.State) (samples : List Int16) (k : ℕ) (e : AacEncoder codec) :
    Prop where
  mono : e.channels = 1
  total : e.samplesTotal = UInt64.ofNat samples.length
  complete : frameLen * k ≤ samples.length
  pending : e.pending = samples.drop (frameLen * k)
  state : e.encoder = codec.stateAt encoder samples k

namespace Aligned

variable {encoder : codec.State} {samples : List Int16} {k : ℕ} {e : AacEncoder codec}

theorem frameSamples_eq (h : Aligned encoder samples k e) : e.frameSamples = frameLen := by
  rw [frameSamples, h.mono]
  rfl

theorem le_iff (h : Aligned encoder samples k e) :
    e.frameSamples ≤ e.pending.length ↔ frameLen * (k + 1) ≤ samples.length := by
  have hcomplete := h.complete
  rw [h.frameSamples_eq, h.pending, List.length_drop, Nat.mul_succ]
  omega

/-- All samples without the pending ones are those of the frames before. -/
theorem unitPts_eq (h : Aligned encoder samples k e) :
    e.unitPts = UInt64.ofNat (frameLen * k) := by
  have hsplit : samples.length = frameLen * k + e.pending.length := by
    rw [h.pending, List.length_drop, Nat.add_sub_cancel' h.complete]
  rw [unitPts, h.mono, h.total, hsplit, show (1 : UInt8).toUInt64 = 1 from rfl, UInt64.div_one,
    UInt64.ofNat_add, UInt64.add_sub_cancel]

theorem frame_eq (h : Aligned encoder samples k e) :
    e.pending.take e.frameSamples = frameAt samples k := by
  rw [h.frameSamples_eq, h.pending]
  rfl

/-- A turn of the loop consumes the frame. -/
theorem turn (h : Aligned encoder samples k e) (hle : e.frameSamples ≤ e.pending.length) :
    Aligned encoder samples (k + 1) e.turn where
  mono := h.mono
  total := h.total
  complete := h.le_iff.mp hle
  pending := by
    rw [AacEncoder.turn, h.frameSamples_eq, h.pending, List.drop_drop, Nat.mul_succ]
  state := by
    rw [AacEncoder.turn, h.frame_eq, h.state]
    rfl

/-- More samples leave the frames before in their place. -/
theorem accept (h : Aligned encoder samples k e) (pcm : List Int16) :
    Aligned encoder (samples ++ pcm) k (e.accept pcm) where
  mono := h.mono
  total := by
    simp only [AacEncoder.accept, h.total, h.mono]
    rw [show (1 : UInt8).toUInt64 = 1 from rfl, UInt64.div_one, List.length_append,
      UInt64.ofNat_add]
  complete := by
    rw [List.length_append]
    exact Nat.le_add_right_of_le h.complete
  pending := by
    rw [AacEncoder.accept, h.pending, List.drop_append_of_le_length h.complete]
  state := h.state.trans (codec.stateAt_append encoder h.complete pcm).symm

end Aligned

/-- A fresh mono encoder stands in front of the stream. -/
theorem aligned_new {sampleRate bitrateBps : UInt32} {e : AacEncoder codec}
    (h : AacEncoder.new codec sampleRate 1 bitrateBps = .ok e) : Aligned e.encoder [] 0 e := by
  obtain ⟨encoder, hpos, rfl⟩ := new_eq_ok h
  exact ⟨rfl, rfl, Nat.zero_le _, rfl, rfl⟩

/-- **The loop stays aligned**, whether it ends well or in an error. When it ends well, less than a
frame is pending, and the units are those of the frames that it went through. -/
theorem pushLoop_aligned {encoder : codec.State} {samples : List Int16} {k : ℕ}
    {e : AacEncoder codec} (h : Aligned encoder samples k e) (units : List AacAccessUnit) :
    ∃ n, Aligned encoder samples (k + n) (e.pushLoop units).2 ∧
      ∀ out, (e.pushLoop units).1 = .ok out →
        (e.pushLoop units).2.pending.length < frameLen ∧
          out.map some = units.map some ++ (List.range' k n).map (codec.unitAt encoder samples) := by
  induction hlength : e.pending.length using Nat.strongRecOn generalizing k e units with
  | ind length ih =>
    rcases Nat.lt_or_ge e.pending.length e.frameSamples with hlt | hle
    · -- less than a frame is pending
      rw [pushLoop_of_lt hlt]
      refine ⟨0, h, ?_⟩
      rintro out ⟨⟩
      exact ⟨h.frameSamples_eq ▸ hlt, by simp⟩
    cases hpayload : codec.payload e.encoder (e.pending.take e.frameSamples) with
    | none =>
      obtain ⟨err, herr⟩ := pushLoop_of_error hle hpayload units
      rw [herr]
      refine ⟨1, h.turn hle, ?_⟩
      rintro out ⟨⟩
    | some raw =>
      rw [pushLoop_of_payload hle hpayload]
      have hunit : codec.unitAt encoder samples k =
          some ⟨raw, e.unitPts, UInt64.ofNat e.frameSamples⟩ := by
        rw [h.frame_eq, h.state] at hpayload
        rw [AacCodec.unitAt, hpayload, Option.map_some, h.unitPts_eq, h.frameSamples_eq]
      obtain ⟨n, haligned, hok⟩ :=
        ih _ (hlength ▸ length_pending_turn hle) (h.turn hle)
          (units ++ [⟨raw, e.unitPts, UInt64.ofNat e.frameSamples⟩]) rfl
      refine ⟨n + 1, by rwa [Nat.add_comm n 1, ← Nat.add_assoc], fun out hout => ?_⟩
      obtain ⟨hpending, hmap⟩ := hok out hout
      refine ⟨hpending, ?_⟩
      rw [hmap, List.range'_succ, List.map_cons, hunit, List.map_append, List.append_assoc]
      rfl

/-- **One call** stays aligned, and returns the units of some of the frames it went through. -/
theorem returned_aligned {encoder : codec.State} {samples : List Int16} {k : ℕ}
    {e : AacEncoder codec} (h : Aligned encoder samples k e) (pcm : List Int16) :
    ∃ (k' : ℕ) (frames : List ℕ), Aligned encoder (samples ++ pcm) k' (e.returned pcm).2 ∧
      frames.Pairwise (· < ·) ∧ (∀ j ∈ frames, k ≤ j ∧ j < k') ∧ k ≤ k' ∧
      frames.map (codec.unitAt encoder (samples ++ pcm)) = (e.returned pcm).1.map some := by
  by_cases hempty : pcm = []
  · refine ⟨k, [], ?_, .nil, by simp, Nat.le_refl k, ?_⟩
    · simpa [returned, pushPcm, hempty] using h
    · simp [returned, pushPcm, hempty]
  obtain ⟨n, haligned, hok⟩ := pushLoop_aligned (h.accept pcm) []
  have hpush := e.pushPcm_of_ne_nil hempty
  rcases hloop : (e.accept pcm).pushLoop [] with ⟨_ | out, e'⟩
  · -- a failed call returns nothing
    rw [hloop] at hpush haligned
    refine ⟨k + n, [], ?_, .nil, by simp, Nat.le_add_right _ _, ?_⟩
    · rw [returned, hpush]
      exact haligned
    · rw [returned, hpush]
      rfl
  · rw [hloop] at hpush haligned hok
    refine ⟨k + n, List.range' k n, ?_, List.pairwise_lt_range', ?_, Nat.le_add_right _ _, ?_⟩
    · rw [returned, hpush]
      exact haligned
    · exact fun j hj => List.mem_range'_1.mp hj
    · rw [returned, hpush]
      exact ((hok out rfl).2).symm

/-- **A run** stays aligned: what it returns are units of frames, in their order. -/
theorem run_aligned {encoder : codec.State} (chunks : List (List Int16)) {samples : List Int16}
    {k : ℕ} {e : AacEncoder codec} (h : Aligned encoder samples k e) :
    ∃ (k' : ℕ) (frames : List ℕ),
      Aligned encoder (samples ++ chunks.flatten) k' (run returned e chunks).2 ∧
      frames.Pairwise (· < ·) ∧ (∀ j ∈ frames, k ≤ j ∧ j < k') ∧ k ≤ k' ∧
      frames.map (codec.unitAt encoder (samples ++ chunks.flatten)) =
        (run returned e chunks).1.map some := by
  induction chunks generalizing samples k e with
  | nil => exact ⟨k, [], by simpa using h, .nil, by simp, Nat.le_refl k, rfl⟩
  | cons pcm chunks ih =>
    obtain ⟨k₁, first, h₁, hsorted₁, hmem₁, hle₁, hmap₁⟩ := returned_aligned h pcm
    obtain ⟨k₂, rest, h₂, hsorted₂, hmem₂, hle₂, hmap₂⟩ := ih h₁
    rw [List.append_assoc, ← List.flatten_cons] at h₂ hmap₂
    refine ⟨k₂, first ++ rest, by rwa [run_cons], ?_, ?_, Nat.le_trans hle₁ hle₂, ?_⟩
    · -- the frames of the first call come before those of the others
      refine List.pairwise_append.mpr ⟨hsorted₁, hsorted₂, fun i hi j hj => ?_⟩
      exact Nat.lt_of_lt_of_le (hmem₁ i hi).2 (hmem₂ j hj).1
    · intro j hj
      rcases List.mem_append.mp hj with hj | hj
      · exact ⟨(hmem₁ j hj).1, Nat.lt_of_lt_of_le (hmem₁ j hj).2 hle₂⟩
      · exact ⟨Nat.le_trans hle₁ (hmem₂ j hj).1, (hmem₂ j hj).2⟩
    · -- the frames of the first call are complete without the other calls
      have hfirst : first.map (codec.unitAt encoder (samples ++ (pcm :: chunks).flatten)) =
          first.map (codec.unitAt encoder (samples ++ pcm)) := by
        refine List.map_congr_left fun j hj => ?_
        rw [List.flatten_cons, ← List.append_assoc]
        refine codec.unitAt_append encoder ?_ _
        exact Nat.le_trans (Nat.mul_le_mul_left _ (hmem₁ j hj).2) h₁.complete
      rw [run_cons, List.map_append, hfirst, hmap₁, hmap₂, List.map_append]

/-- The times of units that come from frames. -/
theorem map_pts {encoder : codec.State} {samples : List Int16} {frames : List ℕ}
    {units : List AacAccessUnit}
    (h : frames.map (codec.unitAt encoder samples) = units.map some) :
    units.map AacAccessUnit.pts = frames.map fun k => UInt64.ofNat (frameLen * k) := by
  induction frames generalizing units with
  | nil =>
    obtain rfl := List.map_eq_nil_iff.mp h.symm
    rfl
  | cons k frames ih =>
    obtain ⟨unit, units, rfl, hunit, hrest⟩ := List.map_eq_cons_iff.mp h.symm
    obtain ⟨raw, -, rfl⟩ := Option.map_eq_some_iff.mp hunit.symm
    rw [List.map_cons, List.map_cons, ih hrest.symm]

/-! ## A library that works -/

/-- With a library that works, the loop ends well: it makes a unit of every complete frame, each of
which is said to last as long as it has interleaved samples. -/
theorem pushLoop_works {size : ℕ} (hcodec : codec.WorksOn size) {e : AacEncoder codec}
    (hsize : e.frameSamples = size) (units : List AacAccessUnit) :
    ∃ new e', e.pushLoop units = (.ok (units ++ new), e') ∧
      e'.channels = e.channels ∧ e'.pending.length = e.pending.length % size ∧
      new.length = e.pending.length / size ∧ ∀ u ∈ new, u.duration = UInt64.ofNat size := by
  induction hlength : e.pending.length using Nat.strongRecOn generalizing e units with
  | ind length ih =>
    rcases Nat.lt_or_ge e.pending.length e.frameSamples with hlt | hle
    · rw [hsize, hlength] at hlt
      refine ⟨[], e, by rw [pushLoop_of_lt (by omega), List.append_nil], rfl, ?_, ?_, by simp⟩
      · rw [hlength, Nat.mod_eq_of_lt hlt]
      · rw [Nat.div_eq_of_lt hlt, List.length_nil]
    have hframe : (e.pending.take e.frameSamples).length = size := by
      rw [List.length_take, Nat.min_eq_left hle, hsize]
    obtain ⟨raw, hpayload⟩ := Option.ne_none_iff_exists'.mp (hcodec e.encoder _ hframe)
    have hturn : e.turn.pending.length = length - size := by
      rw [turn, List.length_drop, hlength, hsize]
    have hpos : 0 < size := hsize ▸ e.frameSamples_pos
    rw [hsize, hlength] at hle
    obtain ⟨new, e', hloop, hchannels, hpending, hnew, hduration⟩ :=
      ih (length - size) (by omega) (e := e.turn) hsize
        (units ++ [⟨raw, e.unitPts, UInt64.ofNat e.frameSamples⟩]) hturn
    refine ⟨⟨raw, e.unitPts, UInt64.ofNat e.frameSamples⟩ :: new, e', ?_, hchannels, ?_, ?_, ?_⟩
    · rw [pushLoop_of_payload (by omega) hpayload, hloop, List.append_assoc,
        List.singleton_append]
    · rw [hpending, Nat.mod_eq_sub_mod hle]
    · rw [List.length_cons, hnew, Nat.div_eq_sub_div hpos hle]
    · rintro u (- | ⟨-, hu⟩)
      · exact congrArg UInt64.ofNat hsize
      · exact hduration u hu

/-- One call: the complete frames are those of what was pending and what is new. -/
theorem returned_works {size : ℕ} (hcodec : codec.WorksOn size) {e : AacEncoder codec}
    (hsize : e.frameSamples = size) (hlt : e.pending.length < size) (pcm : List Int16) :
    (e.returned pcm).2.channels = e.channels ∧
      (e.returned pcm).2.pending.length = (e.pending.length + pcm.length) % size ∧
      (e.returned pcm).1.length = (e.pending.length + pcm.length) / size ∧
      ∀ u ∈ (e.returned pcm).1, u.duration = UInt64.ofNat size := by
  by_cases hempty : pcm = []
  · simp [returned, pushPcm, hempty, Nat.mod_eq_of_lt hlt, Nat.div_eq_of_lt hlt]
  obtain ⟨new, e', hloop, hchannels, hpending, hnew, hduration⟩ :=
    pushLoop_works hcodec (e := e.accept pcm) hsize []
  have hlength : (e.accept pcm).pending.length = e.pending.length + pcm.length :=
    List.length_append
  rw [hlength] at hpending hnew
  rw [returned, e.pushPcm_of_ne_nil hempty, hloop]
  exact ⟨hchannels, hpending, hnew, hduration⟩

/-- **The number of units** is that of the complete frames of the stream, for any number of channels
and wherever the stream is cut. -/
theorem run_returned_works {size : ℕ} (hcodec : codec.WorksOn size) (chunks : List (List Int16))
    {e : AacEncoder codec} (hsize : e.frameSamples = size) (hlt : e.pending.length < size) :
    (run returned e chunks).1.length = (e.pending.length + chunks.flatten.length) / size ∧
      ∀ u ∈ (run returned e chunks).1, u.duration = UInt64.ofNat size := by
  induction chunks generalizing e with
  | nil => simp [Nat.div_eq_of_lt hlt]
  | cons pcm chunks ih =>
    obtain ⟨hchannels, hpending, hlength, hduration⟩ := returned_works hcodec hsize hlt pcm
    have hpos : 0 < size := hsize ▸ e.frameSamples_pos
    obtain ⟨hlength', hduration'⟩ := ih (e := (e.returned pcm).2)
      (by rw [frameSamples, hchannels]; exact hsize) (hpending ▸ Nat.mod_lt _ hpos)
    rw [hpending] at hlength'
    constructor
    · -- the frames of the first call, and those of its remainder with the others
      have hsplit : e.pending.length + (pcm :: chunks).flatten.length =
          (e.pending.length + pcm.length) % size + chunks.flatten.length +
            size * ((e.pending.length + pcm.length) / size) := by
        have hdivmod := Nat.mod_add_div (e.pending.length + pcm.length) size
        rw [List.flatten_cons, List.length_append]
        omega
      rw [run_cons, List.length_append, hlength, hlength', hsplit,
        Nat.add_mul_div_left _ _ hpos, Nat.add_comm]
    · rintro u hu
      rcases List.mem_append.mp hu with hu | hu
      · exact hduration u hu
      · exact hduration' u hu

/-- Strictly increasing numbers below `n`, as many as there are. -/
theorem eq_range {frames : List ℕ} {n : ℕ} (hsorted : frames.Pairwise (· < ·))
    (hlt : ∀ k ∈ frames, k < n) (hlength : frames.length = n) : frames = List.range n := by
  have hsub : frames ⊆ List.range n := fun k hk => List.mem_range.mpr (hlt k hk)
  have hnodup : frames.Nodup := hsorted.imp Nat.ne_of_lt
  have hperm := (List.Nodup.subperm hnodup hsub).perm_of_length_le
    (by rw [List.length_range, hlength])
  exact hperm.eq_of_pairwise' hsorted List.pairwise_lt_range

/-- The units of a mono stream, with a library that works. -/
theorem units_mono (hcodec : codec.WorksOn frameLen) {e : AacEncoder codec} {encoder : codec.State}
    (h : Aligned encoder [] 0 e) (chunks : List (List Int16)) :
    (List.range (chunks.flatten.length / frameLen)).map (codec.unitAt encoder chunks.flatten) =
      (run returned e chunks).1.map some := by
  obtain ⟨k', frames, haligned, hsorted, hmem, -, hmap⟩ := run_aligned chunks h
  rw [List.nil_append] at haligned hmap
  have hpending : e.pending.length = 0 := by
    rw [h.pending, List.drop_nil, List.length_nil]
  have hpos : 0 < frameLen := h.frameSamples_eq ▸ e.frameSamples_pos
  have hcount := (run_returned_works hcodec chunks h.frameSamples_eq (hpending ▸ hpos)).1
  rw [hpending, Nat.zero_add, ← List.length_map (f := some), ← hmap, List.length_map] at hcount
  -- all frames that the run went through are complete, so they are all there are
  have hframes := eq_range hsorted (fun k hk => ?_) hcount
  · rw [← hframes, hmap]
  · have hcomplete := Nat.le_trans (Nat.mul_le_mul_left frameLen (hmem k hk).2) haligned.complete
    exact (Nat.le_div_iff_mul_le hpos).mpr (by rwa [Nat.mul_comm])

/-! ## Timestamps -/

/-- **Timestamps stay aligned across errors.** Whatever calls a mono encoder gets, and wherever the
library fails, the units that are returned are those of complete frames of the stream, in their
order, each stamped with the index of its first sample; and a call on some samples that ends well
leaves less than a frame pending. Times are strictly increasing as long as the counter of samples
does not wrap around. -/
theorem units_aligned {sampleRate bitrateBps : UInt32} {e : AacEncoder codec}
    (hnew : AacEncoder.new codec sampleRate 1 bitrateBps = .ok e) (chunks : List (List Int16)) :
    (∃ frames : List ℕ, frames.Pairwise (· < ·) ∧
      (∀ k ∈ frames, frameLen * (k + 1) ≤ chunks.flatten.length) ∧
      frames.map (codec.unitAt e.encoder chunks.flatten) = (run returned e chunks).1.map some) ∧
      (∀ u ∈ (run returned e chunks).1, 1024 ∣ u.pts.toNat) ∧
      (chunks.flatten.length < 2 ^ 64 →
        (run returned e chunks).1.Pairwise fun u v => u.pts < v.pts) ∧
      ∀ pcm, pcm ≠ [] → ∀ out e',
        (run returned e chunks).2.pushPcm pcm = (.ok out, e') → e'.pending.length < 1024 := by
  obtain ⟨k', frames, haligned, hsorted, hmem, -, hmap⟩ := run_aligned chunks (aligned_new hnew)
  rw [List.nil_append] at haligned hmap
  have hpts := map_pts hmap
  have hcomplete : ∀ k ∈ frames, frameLen * (k + 1) ≤ chunks.flatten.length := fun k hk =>
    Nat.le_trans (Nat.mul_le_mul_left _ (hmem k hk).2) haligned.complete
  refine ⟨⟨frames, hsorted, hcomplete, hmap⟩, fun u hu => ?_, fun hcount => ?_, ?_⟩
  · obtain ⟨k, -, hk⟩ := List.mem_map.mp (hpts ▸ List.mem_map_of_mem hu)
    rw [← hk, UInt64.toNat_ofNat']
    exact (Nat.dvd_mod_iff (by decide)).mpr (Nat.dvd_mul_right 1024 k)
  · -- the time of a complete frame is in the range of the counter
    have hrange : ∀ k ∈ frames, (UInt64.ofNat (frameLen * k)).toNat = frameLen * k := by
      intro k hk
      have hend := hcomplete k hk
      rw [frameLen] at hend ⊢
      exact UInt64.toNat_ofNat_of_lt' (Nat.lt_of_le_of_lt (by omega) hcount)
    rw [← List.pairwise_map (f := AacAccessUnit.pts) (R := (· < ·)), hpts, List.pairwise_map]
    refine hsorted.imp_of_mem fun {i j} hi hj hlt => ?_
    rw [UInt64.lt_iff_toNat_lt, hrange i hi, hrange j hj]
    exact Nat.mul_lt_mul_of_pos_left hlt (by decide)
  · intro pcm hpcm out e' hpush
    rw [pushPcm_of_ne_nil _ hpcm] at hpush
    obtain ⟨n, -, hok⟩ := pushLoop_aligned (haligned.accept pcm) []
    rw [hpush] at hok
    exact (hok out rfl).1

/-- A library that fails on its first frame, and numbers the others. -/
def flaky : AacCodec where
  State := UInt8
  newEncoder _ _ _ := some 0
  encodeFrame n _ :=
    (if n = 0 then none else some [0xFF, 0xF1, 0x6C, 0x40, 0x01, 0x1F, 0xFC, n], n + 1)
  parseAdts adtsFrame := if adtsFrame.length < 7 then none else some 7
  aacLcAsc _ _ := [0x15, 0x88]

/-- Behind a failed call the next frame is stamped with its own first sample. -/
theorem units_aligned_flaky :
    ∃ e, AacEncoder.new flaky 8000 1 32000 = .ok e ∧
      ∀ u ∈ (run returned e [List.replicate 1500 1, List.replicate 548 1]).1,
        u = ⟨[1], 1024, 1024⟩ := by
  have hfirst : ∀ samples, flaky.unitAt (0 : UInt8) samples 0 = none := fun _ => rfl
  have hsecond : ∀ samples, flaky.unitAt (0 : UInt8) samples 1 = some ⟨[1], 1024, 1024⟩ :=
    fun _ => rfl
  have hnew : AacEncoder.new flaky 8000 1 32000 =
      .ok ⟨(0 : UInt8), [], 0, [0x15, 0x88], 8000, 1, Nat.one_pos⟩ := rfl
  refine ⟨_, hnew, fun u hu => ?_⟩
  obtain ⟨⟨frames, -, hcomplete, hmap⟩, -⟩ :=
    units_aligned hnew [List.replicate 1500 1, List.replicate 548 1]
  obtain ⟨k, hk, hunit⟩ := List.mem_map.mp (hmap ▸ List.mem_map_of_mem hu)
  have hlt := hcomplete k hk
  simp only [List.flatten_cons, List.flatten_nil, List.length_append, List.length_replicate,
    List.length_nil, frameLen] at hlt
  obtain rfl | rfl : k = 0 ∨ k = 1 := by omega
  · rw [hfirst] at hunit
    cases hunit
  · rw [hsecond] at hunit
    exact (Option.some.inj hunit).symm

/-- A library that never fails. -/
def steady : AacCodec where
  State := Unit
  newEncoder _ _ _ := some ()
  encodeFrame _ _ := (some [0xFF, 0xF1, 0x6C, 0x40, 0x01, 0x1F, 0xFC, 0x21], ())
  parseAdts adtsFrame := if adtsFrame.length < 7 then none else some 7
  aacLcAsc _ _ := [0x15, 0x88]

theorem steady_worksOn (size : ℕ) : steady.WorksOn size :=
  fun _ _ _ h => Option.some_ne_none [0x21] h

/-- Behind `2 ^ 64` samples the counter begins again at zero, and so do the times. -/
theorem not_increasing_of_wrap (hcodec : codec.WorksOn frameLen) {e : AacEncoder codec}
    {encoder : codec.State} (h : Aligned encoder [] 0 e) {chunks : List (List Int16)}
    (hlong : frameLen * (2 ^ 54 + 1) ≤ chunks.flatten.length) :
    ¬ (run returned e chunks).1.Pairwise fun u v => u.pts < v.pts := by
  intro hsorted
  rw [← List.pairwise_map (f := AacAccessUnit.pts) (R := (· < ·)),
    map_pts (units_mono hcodec h chunks), List.pairwise_map, List.pairwise_iff_getElem] at hsorted
  have hframe : 2 ^ 54 < (List.range (chunks.flatten.length / frameLen)).length := by
    rw [List.length_range]
    exact (Nat.le_div_iff_mul_le (Nat.succ_pos 1023)).mpr (Nat.mul_comm _ _ ▸ hlong)
  have hlt := hsorted 0 (2 ^ 54) (Nat.lt_trans (Nat.two_pow_pos 54) hframe) hframe
    (Nat.two_pow_pos 54)
  rw [List.getElem_range, List.getElem_range] at hlt
  exact absurd hlt (by decide)

/-- **The times of a long stream** are not strictly increasing: 1025 calls of `2 ^ 54` samples. -/
theorem units_wrap :
    ∃ e, AacEncoder.new steady 8000 1 32000 = .ok e ∧
      ¬ (run returned e (List.replicate 1025 (List.replicate (2 ^ 54) 0))).1.Pairwise
        fun u v => u.pts < v.pts := by
  have hnew : AacEncoder.new steady 8000 1 32000 =
      .ok ⟨(), [], 0, [0x15, 0x88], 8000, 1, Nat.one_pos⟩ := rfl
  refine ⟨_, hnew, not_increasing_of_wrap (steady_worksOn frameLen) (aligned_new hnew) ?_⟩
  rw [List.flatten_replicate_replicate, List.length_replicate, frameLen]
  omega

end AacEncoder

end Fosipcore
