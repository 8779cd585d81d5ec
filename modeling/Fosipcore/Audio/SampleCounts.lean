import Fosipcore.Audio.EncoderErrors

/-!
# Sample counts of interleaved streams

The encoder counts samples in two ways: every call adds its samples divided by the channels, and
the pending ones are divided as a whole. For one channel the two agree, until the counter wraps
around. For more, a call may end inside a sample of all channels, and then the count of all samples
may be less than that of the pending ones. What a unit is said to last is the number of interleaved
samples in it.

## Main definitions

* `AacEncoder.loopTurns`, `AacEncoder.turns`: the encoder at each turn of the loop
* `AacEncoder.Underflows`: the subtraction of a turn underflows
* `AacEncoder.Bookkeeping`: times, durations and the number of units as they are meant

## Main results

* `AacEncoder.exists_underflows`: a mono stream underflows as its counter wraps around
* `AacEncoder.bookkeeping_iff`: the streams with the intended times and durations
-/

namespace Fosipcore

open Transducer

namespace AacEncoder

variable {codec : AacCodec}

/-! ## The turns of the loop -/

/-- The encoder at every turn of the loop, where `unitPts` is computed. -/
def loopTurns (e : AacEncoder codec) : List (AacEncoder codec) :=
  if _h : e.frameSamples ≤ e.pending.length then
    e :: match codec.payload e.encoder (e.pending.take e.frameSamples) with
      | none => []
      | some _ => loopTurns e.turn
  else []
termination_by e.pending.length
decreasing_by exact length_pending_turn _h

/-- The turns of a call. -/
def turns (e : AacEncoder codec) (pcm : List Int16) :
    List (AacEncoder codec) × AacEncoder codec :=
  (if pcm = [] then [] else (e.accept pcm).loopTurns, (e.pushPcm pcm).2)

/-- The subtraction of a turn underflows: fewer samples were counted than are pending. -/
def Underflows (e : AacEncoder codec) : Prop :=
  e.samplesTotal.toNat < e.pending.length / e.channels.toNat

/-- **The bookkeeping of a run**, as it is meant: no subtraction underflows, the unit `k` begins
after `1024 * k` samples and lasts 1024, and there is a unit for every complete frame. -/
structure Bookkeeping (e : AacEncoder codec) (chunks : List (List Int16)) : Prop where
  no_underflow : ∀ s ∈ (run turns e chunks).1, ¬ s.Underflows
  pts : ∀ k u, (run returned e chunks).1[k]? = some u →
    u.pts.toNat = 1024 * k ∧ u.duration.toNat = 1024
  count : (run returned e chunks).1.length =
    chunks.flatten.length / (1024 * e.channels.toNat)

/-- The turns end in the state of the call. -/
theorem turns_snd (e : AacEncoder codec) (pcm : List Int16) :
    (e.turns pcm).2 = (e.returned pcm).2 := by
  rw [turns, returned]
  rcases e.pushPcm pcm with ⟨_ | _, _⟩
  · rfl
  · rfl

theorem loopTurns_of_lt {e : AacEncoder codec} (h : e.pending.length < e.frameSamples) :
    e.loopTurns = [] := by
  rw [loopTurns, dif_neg (Nat.not_le.mpr h)]

theorem mem_loopTurns_self {e : AacEncoder codec} (h : e.frameSamples ≤ e.pending.length) :
    e ∈ e.loopTurns := by
  rw [loopTurns, dif_pos h]
  exact List.mem_cons_self

/-- Less than a frame makes no turn. -/
theorem run_turns_of_lt (chunks : List (List Int16)) {e : AacEncoder codec}
    (h : e.pending.length + chunks.flatten.length < e.frameSamples) :
    (run turns e chunks).1 = [] := by
  induction chunks generalizing e with
  | nil => rfl
  | cons pcm chunks ih =>
    rw [List.flatten_cons, List.length_append] at h
    have hlength : (e.accept pcm).pending.length = e.pending.length + pcm.length :=
      List.length_append
    have hlt : (e.accept pcm).pending.length < (e.accept pcm).frameSamples := by
      rw [hlength]
      exact Nat.lt_of_le_of_lt (by omega) h
    by_cases hempty : pcm = []
    · rw [hempty, List.length_nil, Nat.zero_add] at h
      rw [run_cons, turns, if_pos hempty, hempty]
      exact ih h
    · rw [run_cons, turns, if_neg hempty, loopTurns_of_lt hlt, e.pushPcm_of_ne_nil hempty,
        pushLoop_of_lt hlt]
      refine ih (Nat.lt_of_le_of_lt ?_ h)
      rw [hlength]
      omega

/-! ## Mono streams -/

/-- The turns of a loop are those of the frames of the stream. -/
theorem mem_loopTurns {encoder : codec.State} {samples : List Int16} {k : ℕ}
    {e : AacEncoder codec} (h : Aligned encoder samples k e) :
    ∀ s ∈ e.loopTurns, ∃ j, Aligned encoder samples j s := by
  fun_induction loopTurns e generalizing k with
  | case1 e hle ih =>
    rintro s hs
    rcases List.mem_cons.mp hs with rfl | hs
    · exact ⟨k, h⟩
    · split at hs
      · cases hs
      · exact ih (h.turn hle) s hs
  | case2 e hlt => simp

/-- As long as the counter does not wrap around, it counts what is pending. -/
theorem Aligned.not_underflows {encoder : codec.State} {samples : List Int16} {k : ℕ}
    {e : AacEncoder codec} (h : Aligned encoder samples k e) (hlt : samples.length < 2 ^ 64) :
    ¬ e.Underflows := by
  rw [Underflows, h.mono, h.total, h.pending, UInt64.toNat_ofNat_of_lt' hlt, List.length_drop,
    show (1 : UInt8).toNat = 1 from rfl, Nat.div_one]
  omega

/-- As the counter wraps around, it falls behind what is pending. -/
theorem Aligned.underflows {encoder : codec.State} {samples : List Int16} {k : ℕ}
    {e : AacEncoder codec} (h : Aligned encoder samples k e) (hle : 2 ^ 64 ≤ samples.length)
    (hlt : frameLen * k < 2 ^ 64) : e.Underflows := by
  rw [Underflows, h.mono, h.total, h.pending, UInt64.toNat_ofNat', List.length_drop,
    show (1 : UInt8).toNat = 1 from rfl, Nat.div_one, Nat.mod_eq_sub_mod hle]
  have hmod := Nat.mod_le (samples.length - 2 ^ 64) (2 ^ 64)
  omega

/-- **No turn of a mono stream underflows** before the counter wraps around. -/
theorem not_underflows_of_lt {encoder : codec.State} (chunks : List (List Int16))
    {samples : List Int16} {k : ℕ} {e : AacEncoder codec} (h : Aligned encoder samples k e)
    (hlt : (samples ++ chunks.flatten).length < 2 ^ 64) :
    ∀ s ∈ (run turns e chunks).1, ¬ s.Underflows := by
  induction chunks generalizing samples k e with
  | nil => simp
  | cons pcm chunks ih =>
    obtain ⟨k', -, haligned, -⟩ := returned_aligned h pcm
    rw [List.flatten_cons, ← List.append_assoc] at hlt
    have hfirst : (samples ++ pcm).length < 2 ^ 64 := by
      rw [List.length_append] at hlt
      omega
    rintro s hs
    rw [run_cons, turns_snd] at hs
    rcases List.mem_append.mp hs with hs | hs
    · rw [turns] at hs
      dsimp only at hs
      split_ifs at hs
      · cases hs
      · obtain ⟨j, hs⟩ := mem_loopTurns (h.accept pcm) s hs
        exact hs.not_underflows hfirst
    · exact ih haligned hlt s hs

/-- **A mono stream underflows** in the call in which the counter wraps around. -/
theorem exists_underflows {encoder : codec.State} (chunks : List (List Int16))
    {samples : List Int16} {k : ℕ} {e : AacEncoder codec} (h : Aligned encoder samples k e)
    (hlt : samples.length < 2 ^ 64) (hle : 2 ^ 64 ≤ (samples ++ chunks.flatten).length) :
    ∃ s ∈ (run turns e chunks).1, s.Underflows := by
  induction chunks generalizing samples k e with
  | nil =>
    rw [List.flatten_nil, List.append_nil] at hle
    omega
  | cons pcm chunks ih =>
    rw [run_cons, turns_snd]
    rcases Nat.lt_or_ge (samples ++ pcm).length (2 ^ 64) with hfirst | hwrap
    · obtain ⟨k', -, haligned, -⟩ := returned_aligned h pcm
      rw [List.flatten_cons, ← List.append_assoc] at hle
      obtain ⟨s, hs, hunder⟩ := ih haligned hfirst hle
      exact ⟨s, List.mem_append_right _ hs, hunder⟩
    · -- this call wraps the counter around, and its samples complete a frame
      have hempty : pcm ≠ [] := by
        rintro rfl
        rw [List.append_nil] at hwrap
        omega
      have hcomplete := h.complete
      have haccept := h.accept pcm
      refine ⟨e.accept pcm, List.mem_append_left _ ?_,
        haccept.underflows hwrap (Nat.lt_of_le_of_lt hcomplete hlt)⟩
      rw [turns, if_neg hempty]
      refine mem_loopTurns_self (haccept.le_iff.mpr ?_)
      rw [frameLen] at hcomplete ⊢
      omega

/-- A stream of less than a frame: there are no units, and nothing is subtracted. -/
theorem bookkeeping_short {e : AacEncoder codec} {chunks : List (List Int16)}
    (hcount : (run returned e chunks).1.length = chunks.flatten.length / e.frameSamples)
    (hpending : e.pending.length = 0) (hlt : chunks.flatten.length < e.frameSamples) :
    Bookkeeping e chunks := by
  have hnone : (run returned e chunks).1 = [] := by
    rw [← List.length_eq_zero_iff, hcount, Nat.div_eq_of_lt hlt]
  refine ⟨?_, ?_, hcount⟩
  · rw [run_turns_of_lt chunks (by rwa [hpending, Nat.zero_add])]
    simp
  · rw [hnone]
    rintro k u ⟨⟩

/-- A mono stream, as long as the counter does not wrap around. -/
theorem bookkeeping_mono (hcodec : codec.WorksOn frameLen) {e : AacEncoder codec}
    {encoder : codec.State} (h : Aligned encoder [] 0 e) {chunks : List (List Int16)}
    (hcount : (run returned e chunks).1.length = chunks.flatten.length / e.frameSamples)
    (hlt : chunks.flatten.length < 2 ^ 64) : Bookkeeping e chunks := by
  refine ⟨not_underflows_of_lt chunks h (by rwa [List.nil_append]), ?_, hcount⟩
  intro k u hu
  have hmap := congrArg (·[k]?) (units_mono hcodec h chunks)
  simp only [List.getElem?_map, hu, Option.map_some] at hmap
  obtain ⟨j, hj, hunit⟩ := Option.map_eq_some_iff.mp hmap
  obtain ⟨hk, rfl⟩ := List.getElem?_eq_some_iff.mp hj
  rw [List.length_range] at hk
  rw [List.getElem_range] at hunit
  obtain ⟨raw, -, rfl⟩ := Option.map_eq_some_iff.mp hunit
  -- the time of a complete frame is in the range of the counter
  have hend := Nat.mul_div_le chunks.flatten.length frameLen
  rw [frameLen] at hk hend ⊢
  exact ⟨UInt64.toNat_ofNat_of_lt' (Nat.lt_of_le_of_lt (by omega) hlt), rfl⟩

/-- The frame of one channel is the only one that lasts as long as it should. -/
theorem channels_eq_one {e : AacEncoder codec}
    (h : (UInt64.ofNat e.frameSamples).toNat = frameLen) : e.channels = 1 := by
  have hsize : e.frameSamples = frameLen * e.channels.toNat := rfl
  have hrange : frameLen * e.channels.toNat < 2 ^ 64 := by
    have hlt := e.channels.toNat_lt
    rw [frameLen]
    omega
  rw [hsize, UInt64.toNat_ofNat_of_lt' hrange, frameLen] at h
  exact UInt8.toNat_inj.mp (Nat.eq_of_mul_eq_mul_left (Nat.succ_pos 1023) h)

/-- **The streams whose bookkeeping is as it is meant**: those of less than a frame, and those of
one channel until the counter wraps around. Any unit of more channels is said to last too long. -/
theorem bookkeeping_iff {sampleRate bitrateBps : UInt32} {channels : UInt8} {e : AacEncoder codec}
    (hnew : AacEncoder.new codec sampleRate channels bitrateBps = .ok e)
    (hcodec : codec.WorksOn (1024 * channels.toNat)) (chunks : List (List Int16)) :
    Bookkeeping e chunks ↔
      chunks.flatten.length < 1024 * channels.toNat ∨
        channels = 1 ∧ chunks.flatten.length < 2 ^ 64 := by
  obtain ⟨rfl, hpending⟩ : channels = e.channels ∧ e.pending = [] := by
    obtain ⟨encoder, hpos, rfl⟩ := new_eq_ok hnew
    exact ⟨rfl, rfl⟩
  have hsize : e.frameSamples = 1024 * e.channels.toNat := rfl
  have hpos := e.frameSamples_pos
  rw [← hsize] at hcodec ⊢
  have hlength : e.pending.length = 0 := by rw [hpending, List.length_nil]
  obtain ⟨hcount, hduration⟩ := run_returned_works hcodec chunks rfl (hlength ▸ hpos)
  rw [hlength, Nat.zero_add] at hcount
  constructor
  · intro h
    by_contra hfails
    obtain ⟨hframe, hwrap⟩ := not_or.mp hfails
    rw [Nat.not_lt] at hframe
    have hunit : 0 < (run returned e chunks).1.length := by
      rw [hcount]
      exact Nat.div_pos hframe hpos
    have hlasts := (h.pts 0 _ (List.getElem?_eq_getElem hunit)).2
    rw [hduration _ (List.getElem_mem hunit)] at hlasts
    have hmono := channels_eq_one hlasts
    rw [hmono] at hnew
    obtain ⟨s, hs, hunder⟩ := exists_underflows chunks (aligned_new hnew) (Nat.zero_lt_succ _)
      (by rw [List.nil_append]; exact Nat.not_lt.mp fun hlt => hwrap ⟨hmono, hlt⟩)
    exact h.no_underflow s hs hunder
  · rintro (hlt | ⟨hmono, hlt⟩)
    · exact bookkeeping_short hcount hlength hlt
    · rw [hmono] at hnew
      have haligned := aligned_new hnew
      rw [haligned.frameSamples_eq] at hcodec
      exact bookkeeping_mono hcodec haligned hcount hlt

/-- Two frames of a mono stream. -/
theorem bookkeeping_iff_mono :
    ∃ e, AacEncoder.new steady 8000 1 32000 = .ok e ∧
      Bookkeeping e [List.replicate 1500 0, List.replicate 548 0] := by
  have hnew : AacEncoder.new steady 8000 1 32000 =
      .ok ⟨(), [], 0, [0x15, 0x88], 8000, 1, Nat.one_pos⟩ := rfl
  refine ⟨_, hnew, (bookkeeping_iff hnew (steady_worksOn _) _).mpr (Or.inr ⟨rfl, ?_⟩)⟩
  rw [List.flatten_cons, List.flatten_singleton, List.length_append, List.length_replicate,
    List.length_replicate]
  omega

/-- A stereo stream that is cut between the channels: one sample and 2047 more count as 0 and 1023,
and 1024 are pending. -/
theorem underflows_of_cut {e : AacEncoder codec} (hchannels : e.channels = 2)
    (hpending : e.pending = []) (htotal : e.samplesTotal = 0) :
    ∃ s ∈ (run turns e [[0], List.replicate 2047 0]).1, s.Underflows := by
  have hsize : e.frameSamples = 2048 := by
    rw [frameSamples, hchannels]
    rfl
  have hne : List.replicate 2047 (0 : Int16) ≠ [] :=
    List.ne_nil_of_length_pos (by rw [List.length_replicate]; decide)
  have hfirst : (e.turns [0]).2 = e.accept [0] := by
    have hlt : (e.accept [0]).pending.length < (e.accept [0]).frameSamples := by
      refine Nat.lt_of_le_of_lt ?_ (hsize ▸ (by decide : 1 < 2048))
      rw [accept, hpending, List.nil_append, List.length_singleton]
    rw [turns, e.pushPcm_of_ne_nil (List.cons_ne_nil _ _), pushLoop_of_lt hlt]
  have hlength : ((e.accept [0]).accept (List.replicate 2047 0)).pending.length = 2048 := by
    simp only [accept, hpending, List.nil_append, List.length_append, List.length_singleton,
      List.length_replicate]
  have hcount : ((e.accept [0]).accept (List.replicate 2047 0)).samplesTotal = 1023 := by
    simp only [accept, htotal, hchannels, List.length_singleton, List.length_replicate]
    decide
  refine ⟨(e.accept [0]).accept (List.replicate 2047 0), ?_, ?_⟩
  · rw [run_cons, hfirst, run_cons]
    refine List.mem_append_right _ (List.mem_append_left _ ?_)
    rw [turns, if_neg hne]
    refine mem_loopTurns_self ?_
    rw [hlength]
    exact hsize.le
  · rw [Underflows, hlength, hcount]
    change 1023 < 2048 / e.channels.toNat
    rw [hchannels]
    decide

/-- **The bookkeeping of a stereo stream fails**: a subtraction underflows. -/
theorem bookkeeping_stereo_cut :
    ∃ e, AacEncoder.new steady 8000 2 32000 = .ok e ∧
      (∃ s ∈ (run turns e [[0], List.replicate 2047 0]).1, s.Underflows) ∧
      ¬ Bookkeeping e [[0], List.replicate 2047 0] := by
  have hnew : AacEncoder.new steady 8000 2 32000 =
      .ok ⟨(), [], 0, [0x15, 0x88], 8000, 2, Nat.two_pos⟩ := rfl
  have hunder := @underflows_of_cut steady
    ⟨(), [], 0, [0x15, 0x88], 8000, 2, Nat.two_pos⟩ rfl rfl rfl
  refine ⟨_, hnew, hunder, fun h => ?_⟩
  obtain ⟨s, hs, hlt⟩ := hunder
  exact h.no_underflow s hs hlt

end AacEncoder

end Fosipcore
