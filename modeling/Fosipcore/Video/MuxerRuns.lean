import Fosipcore.Library.Trace
import Fosipcore.Library.Transducer
import Fosipcore.Video.FlvMuxer
import Mathlib.Data.List.Induction

/-!
# Runs of the video muxer

A fresh muxer emits nothing until it has received both parameter sets, in either order. The unit
that completes the pair brings the script tag and the sequence header, and from then on every
unit that is no parameter set brings its own tag.

The clock runs from the first SPS for the first two tags and from the first frame for the frames.

## Main definitions

* `TimedNal`, `FlvMuxer.muxNal`: a unit with the clock readings of its call
* `HasSets`: both parameter sets have been received
* `lastSet`: the last parameter set of a type
* `tagTimestamp`: the timestamp in the bytes of a tag

## Main results

* `FlvMuxer.run_order`: what a run emits, unit by unit
* `FlvMuxer.run_timestamps`: the timestamps that a run emits
-/

namespace Fosipcore

open BigEndian FlvContainer Trace Transducer

/-- A unit, with the first and the last clock reading of the call that processes it. -/
structure TimedNal where
  nal : NalUnit
  now : Instant
  now' : Instant

/-- The unit is no parameter set. -/
def TimedNal.isFrame (n : TimedNal) : Bool :=
  n.nal.nalType ≠ nalTypeSps && n.nal.nalType ≠ nalTypePps

/-- The last parameter set of a type, without its length. -/
def lastSet (type : UInt8) (nals : List TimedNal) : Option (List UInt8) :=
  (nals.filter fun n => n.nal.nalType = type).getLast?.map fun n =>
    FlvMuxer.rawParameterSet n.nal.data

/-- **Both parameter sets have been received.** -/
def HasSets (nals : List TimedNal) : Prop :=
  (∃ n ∈ nals, n.nal.nalType = nalTypeSps) ∧ ∃ n ∈ nals, n.nal.nalType = nalTypePps

instance (nals : List TimedNal) : Decidable (HasSets nals) := inferInstanceAs (Decidable (_ ∧ _))

theorem lastSet_snoc (type : UInt8) (nals : List TimedNal) (n : TimedNal) :
    lastSet type (nals ++ [n]) =
      if n.nal.nalType = type then some (FlvMuxer.rawParameterSet n.nal.data)
      else lastSet type nals := by
  by_cases h : n.nal.nalType = type
  · simp [lastSet, List.filter_append, h]
  · simp [lastSet, List.filter_append, h]

theorem isSome_lastSet (type : UInt8) (nals : List TimedNal) :
    (lastSet type nals).isSome = true ↔ ∃ n ∈ nals, n.nal.nalType = type := by
  simp [lastSet]

theorem HasSets.append {nals : List TimedNal} (h : HasSets nals) (more : List TimedNal) :
    HasSets (nals ++ more) :=
  ⟨h.1.imp fun _ hn => ⟨List.mem_append_left more hn.1, hn.2⟩,
    h.2.imp fun _ hn => ⟨List.mem_append_left more hn.1, hn.2⟩⟩

theorem hasSets_iff (nals : List TimedNal) :
    HasSets nals ↔
      (lastSet nalTypeSps nals).isSome = true ∧ (lastSet nalTypePps nals).isSome = true := by
  rw [isSome_lastSet, isSome_lastSet, HasSets]

/-- The pair is completed by one unit of the sequence. -/
theorem HasSets.exists_moment {nals : List TimedNal} (h : HasSets nals) :
    ∃ before n after, nals = before ++ n :: after ∧ ¬ HasSets before ∧
      HasSets (before ++ [n]) := by
  induction nals using List.reverseRecOn with
  | nil =>
    obtain ⟨⟨n, hn, -⟩, -⟩ := h
    cases hn
  | append_singleton nals n ih =>
    by_cases hnals : HasSets nals
    · obtain ⟨before, m, after, rfl, hbefore, hm⟩ := ih hnals
      exact ⟨before, m, after ++ [n], by simp, hbefore, hm⟩
    · exact ⟨nals, n, [], rfl, hnals, h⟩

namespace FlvMuxer

def muxNal (m : FlvMuxer) (n : TimedNal) : List (List UInt8) × FlvMuxer :=
  m.processNal n.nal n.now n.now'

/-- The muxer after a run of a fresh one. -/
def muxed (nals : List TimedNal) : FlvMuxer := (run muxNal new nals).2

theorem run_snoc (nals : List TimedNal) (n : TimedNal) :
    (run muxNal new (nals ++ [n])).1 =
      (run muxNal new nals).1 ++ ((muxed nals).muxNal n).1 := by
  rw [run_append, run_cons, run_nil, List.append_nil]
  rfl

theorem muxed_snoc (nals : List TimedNal) (n : TimedNal) :
    muxed (nals ++ [n]) = ((muxed nals).muxNal n).2 := by
  rw [muxed, run_append]
  rfl

/-- The sequence header tag of the parameter sets received so far. -/
def sequenceHeaderOf (nals : List TimedNal) (timestamp : UInt32) : List UInt8 :=
  buildVideoFrameTag frameKeyframe avcSequenceHeader
    (configRecord ((lastSet nalTypeSps nals).getD []) ((lastSet nalTypePps nals).getD []))
    timestamp

/-- What the muxer remembers of the units so far. -/
structure Follows (nals : List TimedNal) (m : FlvMuxer) : Prop where
  sps : m.sps = lastSet nalTypeSps nals
  pps : m.pps = lastSet nalTypePps nals
  initialized : m.initialized = true ↔ HasSets nals
  header : m.sequenceHeaderTag.isSome = true ↔ HasSets nals

/-- What the call on a unit emits and caches, by what was received before it. -/
structure Emits (nals : List TimedNal) (n : TimedNal) (m : FlvMuxer) : Prop where
  before : ¬ HasSets (nals ++ [n]) → (m.muxNal n).1 = []
  moment : ¬ HasSets nals → HasSets (nals ++ [n]) →
    (m.muxNal n).1 = [buildScriptTag ((m.muxNal n).2.elapsedMs n.now'),
        sequenceHeaderOf (nals ++ [n]) ((m.muxNal n).2.elapsedMs n.now')] ∧
      (m.muxNal n).2.sequenceHeader =
        some (sequenceHeaderOf (nals ++ [n]) ((m.muxNal n).2.elapsedMs n.now'))
  set : HasSets nals → n.isFrame = false → (m.muxNal n).1 = []
  frame : HasSets nals → n.isFrame = true →
    (m.muxNal n).1 = [buildVideoTag n.nal.data n.nal.isKeyframe
      ((m.muxNal n).2.elapsedMs n.now' - (m.muxNal n).2.videoBaseMs.getD 0)]
  keep : HasSets nals → (m.muxNal n).2.sequenceHeader = m.sequenceHeader

theorem follows_new : Follows [] new := by
  have hnone : ¬ HasSets [] := by
    rintro ⟨⟨n, hn, -⟩, -⟩
    cases hn
  exact ⟨rfl, rfl, iff_of_false (by decide) hnone, iff_of_false (by decide) hnone⟩

/-! ## One call -/

/-- The muxer has stored a parameter set, which may complete the pair. -/
theorem Follows.step_set {nals : List TimedNal} {m : FlvMuxer} {n : TimedNal}
    (h : Follows nals m) (m' : FlvMuxer) (hset : n.isFrame = false)
    (hsps : m'.sps = lastSet nalTypeSps (nals ++ [n]))
    (hpps : m'.pps = lastSet nalTypePps (nals ++ [n])) (hinit : m'.initialized = m.initialized)
    (hheader : m'.sequenceHeaderTag = m.sequenceHeaderTag)
    (hmux : m.muxNal n = if HasSets (nals ++ [n]) ∧ ¬ HasSets nals then
      m'.emitInitialization n.now' else ([], m')) :
    Follows (nals ++ [n]) (m.muxNal n).2 ∧ Emits nals n m := by
  have hframe : n.isFrame ≠ true := by simp [hset]
  by_cases hold : HasSets nals
  · have hnew : HasSets (nals ++ [n]) := hold.append [n]
    rw [if_neg fun hc => hc.2 hold] at hmux
    refine ⟨?_, ⟨fun hno => absurd hnew hno, fun hno => absurd hold hno, fun _ _ => ?_,
      fun _ hf => absurd hf hframe, fun _ => ?_⟩⟩
    · rw [hmux]
      exact ⟨hsps, hpps, iff_of_true (hinit.trans (h.initialized.mpr hold)) hnew,
        iff_of_true (by rw [hheader]; exact h.header.mpr hold) hnew⟩
    · rw [hmux]
    · rw [hmux]
      exact hheader
  by_cases hnew : HasSets (nals ++ [n])
  · -- the burst
    rw [if_pos ⟨hnew, hold⟩] at hmux
    refine ⟨?_, ⟨fun hno => absurd hnew hno, fun _ _ => ?_, fun hyes => absurd hyes hold,
      fun hyes => absurd hyes hold, fun hyes => absurd hyes hold⟩⟩
    · rw [hmux]
      exact ⟨hsps, hpps, iff_of_true rfl hnew, iff_of_true rfl hnew⟩
    · rw [hmux, sequenceHeaderOf, ← hsps, ← hpps]
      exact ⟨rfl, rfl⟩
  · rw [if_neg fun hc => hnew hc.1] at hmux
    refine ⟨?_, ⟨fun _ => ?_, fun _ hyes => absurd hyes hnew, fun hyes => absurd hyes hold,
      fun hyes => absurd hyes hold, fun hyes => absurd hyes hold⟩⟩
    · rw [hmux]
      exact ⟨hsps, hpps, iff_of_false (fun hi => hold (h.initialized.mp (hinit.symm.trans hi))) hnew,
        iff_of_false (fun hs => hold (h.header.mp (hheader ▸ hs))) hnew⟩
    · rw [hmux]

/-- A frame completes nothing, and leaves the parameter sets as they are. -/
theorem Follows.step_frame {nals : List TimedNal} {m : FlvMuxer} {n : TimedNal}
    (h : Follows nals m) (hsps : n.nal.nalType ≠ nalTypeSps) (hpps : n.nal.nalType ≠ nalTypePps) :
    Follows (nals ++ [n]) (m.muxNal n).2 ∧ Emits nals n m := by
  have hframe : n.isFrame = true := by simp [TimedNal.isFrame, hsps, hpps]
  have hsame : HasSets (nals ++ [n]) ↔ HasSets nals := by
    rw [hasSets_iff, lastSet_snoc, lastSet_snoc, if_neg hsps, if_neg hpps, ← hasSets_iff]
  -- a muxer with the same sets, whose initialization is told by the units before
  have hfollows : ∀ m' : FlvMuxer, m'.sps = m.sps → m'.pps = m.pps →
      m'.initialized = m.initialized → m'.sequenceHeaderTag = m.sequenceHeaderTag →
      Follows (nals ++ [n]) m' := by
    intro m' hs hp hi ht
    refine ⟨?_, ?_, ?_, ?_⟩
    · rw [lastSet_snoc, if_neg hsps, hs, h.sps]
    · rw [lastSet_snoc, if_neg hpps, hp, h.pps]
    · rw [hi]
      exact h.initialized.trans hsame.symm
    · rw [ht]
      exact h.header.trans hsame.symm
  cases hi : m.initialized with
  | false =>
    have hno : ¬ HasSets nals := fun hyes => by
      rw [h.initialized.mpr hyes] at hi
      cases hi
    have hmux : m.muxNal n = ([], m) := processNal_deferred hi hsps hpps n.now n.now'
    refine ⟨?_, ⟨fun _ => ?_, fun _ hyes => absurd (hsame.mp hyes) hno,
      fun hyes => absurd hyes hno, fun hyes => absurd hyes hno, fun hyes => absurd hyes hno⟩⟩
    · rw [hmux]
      exact hfollows m rfl rfl rfl rfl
    · rw [hmux]
  | true =>
    have hyes : HasSets nals := h.initialized.mp hi
    have hmux := processNal_frame hi hsps hpps n.now n.now'
    rw [← muxNal] at hmux
    refine ⟨?_, ⟨fun hno => absurd (hsame.mpr hyes) hno, fun hno => absurd hyes hno,
      fun _ hf => absurd (hf.symm.trans hframe) (by decide), fun _ _ => ?_, fun _ => ?_⟩⟩
    · rw [hmux]
      exact hfollows _ rfl rfl rfl rfl
    · rw [hmux]
    · rw [hmux]
      rfl

/-- **One unit**: what the muxer remembers and emits is told by the units received so far. -/
theorem Follows.step {nals : List TimedNal} {m : FlvMuxer} (h : Follows nals m) (n : TimedNal) :
    Follows (nals ++ [n]) (m.muxNal n).2 ∧ Emits nals n m := by
  have hsets := hasSets_iff (nals ++ [n])
  rw [lastSet_snoc, lastSet_snoc] at hsets
  have hold : m.initialized = false ↔ ¬ HasSets nals := by
    rw [← h.initialized, Bool.not_eq_true]
  by_cases hsps : n.nal.nalType = nalTypeSps
  · have hne : n.nal.nalType ≠ nalTypePps := by rw [hsps]; decide
    rw [if_pos hsps, if_neg hne, ← h.pps] at hsets
    refine h.step_set { m with
        startTime := some (m.startTime.getD n.now), sps := some (rawParameterSet n.nal.data) }
      (by simp [TimedNal.isFrame, hsps])
      (by rw [lastSet_snoc, if_pos hsps]) (by rw [lastSet_snoc, if_neg hne, ← h.pps]) rfl rfl
      ((processNal_sps m hsps n.now n.now').trans ?_)
    simp only [hsets, ← hold, Option.isSome_some, true_and, Bool.and_eq_true, Bool.not_eq_true']
  by_cases hpps : n.nal.nalType = nalTypePps
  · rw [if_neg hsps, if_pos hpps, ← h.sps] at hsets
    refine h.step_set { m with pps := some (rawParameterSet n.nal.data) }
      (by simp [TimedNal.isFrame, hpps])
      (by rw [lastSet_snoc, if_neg hsps, ← h.sps]) (by rw [lastSet_snoc, if_pos hpps]) rfl rfl
      ((processNal_pps m hpps n.now n.now').trans ?_)
    simp only [hsets, ← hold, Option.isSome_some, and_true, Bool.and_eq_true, Bool.not_eq_true']
  · exact h.step_frame hsps hpps

theorem follows_muxed (nals : List TimedNal) : Follows nals (muxed nals) := by
  induction nals using List.reverseRecOn with
  | nil => exact follows_new
  | append_singleton nals n ih =>
    rw [muxed_snoc]
    exact (ih.step n).1

/-! ## What a run emits, unit by unit -/

/-- The units of a run, each with the tags it brings. -/
def emitted (nals : List TimedNal) : List (TimedNal × List (List UInt8)) :=
  (run (traced muxNal) new nals).1

theorem emitted_snoc (nals : List TimedNal) (n : TimedNal) :
    emitted (nals ++ [n]) = emitted nals ++ [(n, ((muxed nals).muxNal n).1)] := by
  rw [emitted, run_traced_snoc, run_traced_state]
  rfl

/-- A unit after the first moment: a frame brings one tag, which carries its data, and a parameter
set brings nothing. -/
def Later (e : TimedNal × List (List UInt8)) : Prop :=
  if e.1.isFrame then
    ∃ tag, e.2 = [tag] ∧ readPart tag = some (.avcNalu e.1.nal.isKeyframe e.1.nal.data)
  else e.2 = []

/-- The unit that completes the pair brings a script tag, and a sequence header with the record of the
sets received so far. -/
def IsBurst (nals : List TimedNal) (script header : List UInt8) : Prop :=
  (∃ argument, readPart script = some (.script (ascii "onMetaData") argument)) ∧
    readPart header = some (.avcSequenceHeader (configRecord
      ((lastSet nalTypeSps nals).getD []) ((lastSet nalTypePps nals).getD [])))

/-- Nothing is emitted before both sets have been received. -/
theorem emitted_before {nals : List TimedNal} (h : ¬ HasSets nals) :
    emitted nals = nals.map fun n => (n, []) := by
  induction nals using List.reverseRecOn with
  | nil => rfl
  | append_singleton nals n ih =>
    have hnals : ¬ HasSets nals := fun hyes => h (hyes.append [n])
    rw [emitted_snoc, ih hnals, ((follows_muxed nals).step n).2.before h]
    simp

/-- After both sets have been received the frames bring their tags, and the cached sequence header
stays. -/
theorem emitted_after {nals : List TimedNal} (h : HasSets nals) (after : List TimedNal) :
    ∃ rest, emitted (nals ++ after) = emitted nals ++ rest ∧ rest.map Prod.fst = after ∧
      (∀ e ∈ rest, Later e) ∧
      (muxed (nals ++ after)).sequenceHeader = (muxed nals).sequenceHeader := by
  induction after using List.reverseRecOn with
  | nil =>
    refine ⟨[], by rw [List.append_nil, List.append_nil], rfl, by simp, by rw [List.append_nil]⟩
  | append_singleton after n ih =>
    obtain ⟨rest, hemitted, hfst, hlater, hheader⟩ := ih
    have hemits := ((follows_muxed (nals ++ after)).step n).2
    have hsets : HasSets (nals ++ after) := h.append after
    rw [← List.append_assoc, emitted_snoc, muxed_snoc, hemitted, hemits.keep hsets, hheader]
    refine ⟨rest ++ [(n, ((muxed (nals ++ after)).muxNal n).1)], by rw [List.append_assoc],
      by rw [List.map_append, hfst, List.map_singleton], ?_, rfl⟩
    intro e he
    rcases List.mem_append.mp he with he | he
    · exact hlater e he
    · obtain rfl := List.mem_singleton.mp he
      unfold Later
      split_ifs with hframe
      · exact ⟨_, hemits.frame hsets hframe, readPart_buildVideoTag _ _ _⟩
      · exact hemits.set hsets (by simpa using hframe)

theorem isBurst (nals : List TimedNal) (ts : UInt32) :
    IsBurst nals (buildScriptTag ts) (sequenceHeaderOf nals ts) :=
  ⟨⟨_, readPart_buildScriptTag ts⟩, readPart_sequenceHeader _ ts⟩

/-- Units of less than 8 MiB make a stream that is demultiplexed, and its tags are the emitted
ones. -/
theorem exists_demux_run {nals : List TimedNal}
    (h : ∀ n ∈ nals, n.nal.data.length < 2 ^ 23 - 8) :
    ∃ tags : List Tag, demux (flvHeader ++ (run muxNal new nals).1.flatten) = some (0x01, tags) ∧
      tags.map (fun t => t.fields.part) = (run muxNal new nals).1.map readPart := by
  have hstep : ∀ m n, m.Bounded (2 ^ 23 - 9) → n.nal.data.length < 2 ^ 23 - 8 →
      (muxNal m n).2.Bounded (2 ^ 23 - 9) ∧ ∃ tags : List Tag,
        tags.map Tag.encode = (muxNal m n).1 ∧ tags.map Tag.fields =
          m.tagFields n.nal n.now n.now' :=
    fun m n hm hn => processNal_bounded (by decide) hm (by omega) n.now n.now'
  have hnew : new.Bounded (2 ^ 23 - 9) := ⟨Nat.zero_le _, Nat.zero_le _⟩
  obtain ⟨tags, htags, -⟩ := run_observed hstep hnew h
  refine ⟨tags, ?_, ?_⟩
  · rw [← htags]
    exact demux_encode 0x01 tags
  · rw [← htags, List.map_map]
    refine List.map_congr_left fun t _ => ?_
    rw [Function.comp_apply, readPart, readFields_encode, Option.bind_some]

/-- **The order of the tags**: a run emits nothing as long as a parameter set is missing. The unit
that completes the pair brings a script tag and a sequence header, which is cached from then on; of
the units after it every frame brings one tag, which carries its data. A player demultiplexes these
tags, if the units are small enough for the 24-bit size. -/
theorem run_order (nals : List TimedNal) :
    (run muxNal new nals).1 = ((emitted nals).map Prod.snd).flatten ∧
      (¬ HasSets nals ∧ emitted nals = nals.map (fun n => (n, [])) ∧
          (muxed nals).sequenceHeader = none ∨
        ∃ before n after script header rest, nals = before ++ n :: after ∧ ¬ HasSets before ∧
          HasSets (before ++ [n]) ∧
          emitted nals = before.map (fun b => (b, [])) ++ (n, [script, header]) :: rest ∧
          IsBurst (before ++ [n]) script header ∧
          rest.map Prod.fst = after ∧ (∀ e ∈ rest, Later e) ∧
          (muxed nals).sequenceHeader = some header) ∧
      ((∀ n ∈ nals, n.nal.data.length < 2 ^ 23 - 8) → ∃ tags : List Tag,
        demux (flvHeader ++ (run muxNal new nals).1.flatten) = some (0x01, tags) ∧
          tags.map (fun t => t.fields.part) = (run muxNal new nals).1.map readPart) := by
  refine ⟨run_eq_flatten_traced new nals, ?_, exists_demux_run⟩
  by_cases hsets : HasSets nals
  · right
    obtain ⟨before, n, after, rfl, hbefore, hmoment⟩ := hsets.exists_moment
    obtain ⟨hout, hheader⟩ := ((follows_muxed before).step n).2.moment hbefore hmoment
    obtain ⟨rest, hemitted, hfst, hlater, hkeep⟩ := emitted_after hmoment after
    rw [← List.append_cons] at hemitted hkeep
    rw [muxed_snoc, hheader] at hkeep
    rw [emitted_snoc, emitted_before hbefore, hout, ← List.append_cons] at hemitted
    exact ⟨before, n, after, _, _, rest, rfl, hbefore, hmoment, hemitted, isBurst _ _, hfst,
      hlater, hkeep⟩
  · left
    refine ⟨hsets, emitted_before hsets, ?_⟩
    have hheader := (follows_muxed nals).header
    rw [← Option.not_isSome_iff_eq_none, sequenceHeader, hheader]
    exact hsets

/-! ## The clock -/

/-- The timestamp in the bytes of a tag: 24 bits, and their eight higher bits behind them. -/
def tagTimestamp (tag : List UInt8) : ℕ :=
  ofBytes ((tag.drop 4).take 3) + 2 ^ 24 * ofBytes ((tag.drop 7).take 1)

/-- The milliseconds between two clock readings. -/
def millis (t₀ t : Instant) : ℕ := (t - t₀) / 1000000

/-- The reading at the first SPS, from which the muxer counts. -/
def firstSps (nals : List TimedNal) : Option Instant :=
  (nals.find? fun n => n.nal.nalType = nalTypeSps).map TimedNal.now

/-- The clock readings of the calls never go back. -/
def ClockOrdered (nals : List TimedNal) : Prop :=
  (∀ n ∈ nals, n.now ≤ n.now') ∧ nals.Pairwise fun a b => a.now' ≤ b.now

/-- The call on a frame subtracts a base above the milliseconds elapsed. -/
def Underflows (m : FlvMuxer) (n : TimedNal) : Prop :=
  n.isFrame = true ∧ m.initialized = true ∧
    (m.muxNal n).2.elapsedMs n.now' < (m.muxNal n).2.videoBaseMs.getD 0

theorem millis_mono (t₀ : Instant) {t t' : Instant} (h : t ≤ t') : millis t₀ t ≤ millis t₀ t' :=
  Nat.div_le_div_right (Nat.sub_le_sub_right h t₀)

theorem tagTimestamp_header (tagType : UInt8) (dataSize timestamp : UInt32) (rest : List UInt8) :
    tagTimestamp (buildTagHeader tagType dataSize timestamp ++ rest) = timestamp.toNat := by
  have hts := timestamp.toNat_lt
  -- the low field holds the timestamp modulo its width
  have hlow : ((buildTagHeader tagType dataSize timestamp ++ rest).drop 4).take 3 =
      toBytes 3 timestamp.toNat := by
    rw [buildTagHeader_eq]
    rfl
  have hhigh : ((buildTagHeader tagType dataSize timestamp ++ rest).drop 7).take 1 =
      toBytes 1 (timestamp.toNat / 2 ^ 24) := by
    rw [buildTagHeader_eq]
    rfl
  rw [tagTimestamp, hlow, hhigh, ofBytes_toBytes_mod,
    ofBytes_toBytes (show timestamp.toNat / 2 ^ 24 < 256 ^ 1 by omega)]
  omega

theorem tagTimestamp_scriptTag (ts : UInt32) : tagTimestamp (buildScriptTag ts) = ts.toNat := by
  simp only [buildScriptTag, List.append_assoc]
  exact tagTimestamp_header ..

theorem tagTimestamp_videoFrameTag (frameType avcPacketType : UInt8) (data : List UInt8)
    (ts : UInt32) :
    tagTimestamp (buildVideoFrameTag frameType avcPacketType data ts) = ts.toNat := by
  simp only [buildVideoFrameTag, List.append_assoc]
  exact tagTimestamp_header ..

theorem elapsedMs_of_start {m : FlvMuxer} {t₀ : Instant} (h : m.startTime = some t₀)
    (now : Instant) : m.elapsedMs now = UInt32.ofNat (millis t₀ now) := by
  rw [elapsedMs, h]
  rfl

theorem toNat_millis {t₀ t : Instant} (h : millis t₀ t < 2 ^ 32) :
    (UInt32.ofNat (millis t₀ t)).toNat = millis t₀ t :=
  UInt32.toNat_ofNat_of_lt' h

theorem muxNal_startTime (m : FlvMuxer) (n : TimedNal) :
    (m.muxNal n).2.startTime =
      if n.nal.nalType = nalTypeSps then some (m.startTime.getD n.now) else m.startTime := by
  simp only [muxNal, processNal, emitInitialization]
  split_ifs <;> rfl

theorem muxNal_videoBaseMs (m : FlvMuxer) (n : TimedNal) :
    (m.muxNal n).2.videoBaseMs =
      if n.isFrame = true ∧ m.initialized = true then
        some (m.videoBaseMs.getD (m.elapsedMs n.now)) else m.videoBaseMs := by
  have hframe : n.isFrame = true ↔ n.nal.nalType ≠ nalTypeSps ∧ n.nal.nalType ≠ nalTypePps := by
    simp [TimedNal.isFrame]
  simp only [hframe, muxNal, processNal, emitInitialization]
  split_ifs <;> simp_all

theorem startTime_muxed (nals : List TimedNal) : (muxed nals).startTime = firstSps nals := by
  induction nals using List.reverseRecOn with
  | nil => rfl
  | append_singleton nals n ih =>
    rw [muxed_snoc, muxNal_startTime, ih]
    by_cases hsps : n.nal.nalType = nalTypeSps
    · cases hfind : nals.find? fun n => n.nal.nalType = nalTypeSps <;>
        simp [firstSps, List.find?_append, hfind, hsps]
    · simp [firstSps, List.find?_append, hsps]

/-- The frames have no base before the first of them. -/
theorem videoBaseMs_before {nals : List TimedNal} (h : ¬ HasSets nals) :
    (muxed nals).videoBaseMs = none := by
  induction nals using List.reverseRecOn with
  | nil => rfl
  | append_singleton nals n ih =>
    have hnals : ¬ HasSets nals := fun hyes => h (hyes.append [n])
    have hinit : (muxed nals).initialized ≠ true :=
      fun hi => hnals ((follows_muxed nals).initialized.mp hi)
    rw [muxed_snoc, muxNal_videoBaseMs, if_neg fun hc => hinit hc.2, ih hnals]

/-- The milliseconds of the first frame, which the others count from. -/
def baseMillis (t₀ : Instant) (frames : List TimedNal) : ℕ :=
  (frames.head?.map fun f => millis t₀ f.now).getD 0

section AfterMoment

variable {nals : List TimedNal} {t₀ : Instant}

theorem firstSps_append (h : firstSps nals = some t₀) (after : List TimedNal) :
    firstSps (nals ++ after) = some t₀ := by
  obtain ⟨n, hfind, hn⟩ := Option.map_eq_some_iff.mp h
  simp [firstSps, List.find?_append, hfind, hn]

/-- The base is the reading at the first frame since the moment. -/
theorem videoBaseMs_after (hsets : HasSets nals) (hbase : (muxed nals).videoBaseMs = none)
    (hstart : firstSps nals = some t₀) (after : List TimedNal) :
    (muxed (nals ++ after)).videoBaseMs =
      (after.filter TimedNal.isFrame).head?.map fun f => UInt32.ofNat (millis t₀ f.now) := by
  induction after using List.reverseRecOn with
  | nil => rwa [List.append_nil]
  | append_singleton after n ih =>
    have hinit : (muxed (nals ++ after)).initialized = true :=
      (follows_muxed _).initialized.mpr (hsets.append after)
    have hstart' : (muxed (nals ++ after)).startTime = some t₀ :=
      (startTime_muxed _).trans (firstSps_append hstart after)
    rw [← List.append_assoc, muxed_snoc, muxNal_videoBaseMs, ih, elapsedMs_of_start hstart']
    cases hframe : n.isFrame with
    | false => simp [List.filter_append, hframe]
    | true =>
      cases hframes : after.filter TimedNal.isFrame with
      | nil => simp [List.filter_append, hframe, hframes, hinit]
      | cons f fs => simp [List.filter_append, hframe, hframes, hinit]

/-- The first frame is not read after any of the frames. -/
theorem baseMillis_le {frames : List TimedNal} (hclock : ClockOrdered frames) {f : TimedNal}
    (hf : f ∈ frames) : baseMillis t₀ frames ≤ millis t₀ f.now' := by
  obtain ⟨hcall, horder⟩ := hclock
  cases frames with
  | nil => cases hf
  | cons g frames =>
    refine millis_mono t₀ ?_
    rcases List.mem_cons.mp hf with rfl | hf'
    · exact hcall f List.mem_cons_self
    · calc g.now ≤ g.now' := hcall g List.mem_cons_self
        _ ≤ f.now := List.rel_of_pairwise_cons horder hf'
        _ ≤ f.now' := hcall f hf

theorem ClockOrdered.sublist {nals' : List TimedNal} (h : ClockOrdered nals)
    (hsub : nals'.Sublist nals) : ClockOrdered nals' :=
  ⟨fun n hn => h.1 n (hsub.subset hn), h.2.sublist hsub⟩

/-- **One frame** counts the milliseconds from the first one, and its subtraction does not
underflow. -/
theorem frame_timestamp (hsets : HasSets nals) (hbase : (muxed nals).videoBaseMs = none)
    (hstart : firstSps nals = some t₀) {after : List TimedNal} {n : TimedNal}
    (hframe : n.isFrame = true) (hclock : ClockOrdered (after ++ [n]))
    (hspan : millis t₀ n.now' < 2 ^ 32) :
    ¬ Underflows (muxed (nals ++ after)) n ∧
      ((muxed (nals ++ after)).muxNal n).1.map tagTimestamp =
        [millis t₀ n.now' - baseMillis t₀ ((after ++ [n]).filter TimedNal.isFrame)] := by
  have hbase' := videoBaseMs_after hsets hbase hstart (after ++ [n])
  have hstart' := (startTime_muxed _).trans (firstSps_append hstart (after ++ [n]))
  rw [← List.append_assoc, muxed_snoc] at hbase' hstart'
  have hn : n ∈ (after ++ [n]).filter TimedNal.isFrame := by simp [hframe]
  have hle : baseMillis t₀ ((after ++ [n]).filter TimedNal.isFrame) ≤ millis t₀ n.now' :=
    baseMillis_le (hclock.sublist List.filter_sublist) hn
  -- the base, as the muxer keeps it
  have hkept : (((muxed (nals ++ after)).muxNal n).2.videoBaseMs.getD 0).toNat =
      baseMillis t₀ ((after ++ [n]).filter TimedNal.isFrame) := by
    rw [hbase']
    rw [baseMillis] at hle ⊢
    cases hhead : ((after ++ [n]).filter TimedNal.isFrame).head? with
    | none => rfl
    | some f =>
      rw [hhead] at hle
      exact toNat_millis (lt_of_le_of_lt hle hspan)
  have helapsed := elapsedMs_of_start hstart' n.now'
  have hnat : (((muxed (nals ++ after)).muxNal n).2.elapsedMs n.now').toNat =
      millis t₀ n.now' := by rw [helapsed, toNat_millis hspan]
  have hno : ((muxed (nals ++ after)).muxNal n).2.videoBaseMs.getD 0 ≤
      ((muxed (nals ++ after)).muxNal n).2.elapsedMs n.now' := by
    rw [UInt32.le_iff_toNat_le, hkept, hnat]
    exact hle
  refine ⟨fun hunder => absurd hunder.2.2 (UInt32.not_lt.mpr hno), ?_⟩
  rw [((follows_muxed _).step n).2.frame (hsets.append after) hframe, List.map_singleton,
    buildVideoTag, tagTimestamp_videoFrameTag, UInt32.toNat_sub_of_le _ _ hno, hkept, hnat]

/-- The frames after the moment count from the first of them. -/
theorem timestamps_after (hsets : HasSets nals) (hbase : (muxed nals).videoBaseMs = none)
    (hstart : firstSps nals = some t₀) {after : List TimedNal} (hclock : ClockOrdered after)
    (hspan : ∀ n ∈ after, millis t₀ n.now' < 2 ^ 32) :
    (run muxNal new (nals ++ after)).1.map tagTimestamp =
      (run muxNal new nals).1.map tagTimestamp ++ (after.filter TimedNal.isFrame).map fun f =>
        millis t₀ f.now' - baseMillis t₀ (after.filter TimedNal.isFrame) := by
  induction after using List.reverseRecOn with
  | nil => rw [List.append_nil, List.filter_nil, List.map_nil, List.append_nil]
  | append_singleton after n ih =>
    have hrun := ih (hclock.sublist (List.sublist_append_left after [n]))
      fun m hm => hspan m (List.mem_append_left [n] hm)
    rw [← List.append_assoc, run_snoc, List.map_append, hrun, List.append_assoc]
    congr 1
    cases hframe : n.isFrame with
    | false =>
      have hset := ((follows_muxed _).step n).2.set (hsets.append after) hframe
      rw [hset, List.filter_append, List.filter_cons_of_neg (by simp [hframe]), List.filter_nil,
        List.append_nil, List.map_nil, List.append_nil]
    | true =>
      have hts := (frame_timestamp hsets hbase hstart hframe hclock
        (hspan n List.mem_concat_self)).2
      have hfilter : (after ++ [n]).filter TimedNal.isFrame =
          after.filter TimedNal.isFrame ++ [n] := by simp [List.filter_append, hframe]
      rw [hts, hfilter, List.map_append, List.map_singleton]
      cases after.filter TimedNal.isFrame with
      | nil => rfl
      -- the base is that of the first frame, which is not the new one
      | cons f fs => rfl

end AfterMoment

/-! ## The timestamps of a run -/

/-- The moment at which the pair is complete has a first SPS, and no frames before it. -/
theorem moment_start {before : List TimedNal} {n : TimedNal} (hbefore : ¬ HasSets before)
    (hmoment : HasSets (before ++ [n])) :
    (∃ t₀, firstSps (before ++ [n]) = some t₀) ∧ (muxed (before ++ [n])).videoBaseMs = none := by
  constructor
  · obtain ⟨m, hm, htype⟩ := hmoment.1
    have hfind : ((before ++ [n]).find? fun n => n.nal.nalType = nalTypeSps).isSome := by
      rw [List.find?_isSome]
      exact ⟨m, hm, by simpa using htype⟩
    exact Option.isSome_iff_exists.mp (by rw [firstSps, Option.isSome_map]; exact hfind)
  · have hinit : (muxed before).initialized ≠ true :=
      fun hi => hbefore ((follows_muxed before).initialized.mp hi)
    rw [muxed_snoc, muxNal_videoBaseMs, if_neg fun hc => hinit hc.2, videoBaseMs_before hbefore]

theorem run_before {nals : List TimedNal} (h : ¬ HasSets nals) : (run muxNal new nals).1 = [] := by
  rw [run_eq_flatten_traced, ← emitted, emitted_before h]
  simp

/-- The tags of a run with both sets: the burst of the moment, and one tag for every frame after
it. -/
theorem run_burst {before : List TimedNal} {n : TimedNal} (hbefore : ¬ HasSets before)
    (hmoment : HasSets (before ++ [n])) (after : List TimedNal) :
    ∃ script header frames, (run muxNal new (before ++ n :: after)).1 = script :: header :: frames ∧
      IsBurst (before ++ [n]) script header ∧
      frames.map readPart = (after.filter TimedNal.isFrame).map fun f =>
        some (.avcNalu f.nal.isKeyframe f.nal.data) := by
  obtain ⟨rest, hemitted, rfl, hlater, -⟩ := emitted_after hmoment after
  have hout := (((follows_muxed before).step n).2.moment hbefore hmoment).1
  refine ⟨_, _, (rest.map Prod.snd).flatten, ?_,
    isBurst (before ++ [n]) (((muxed before).muxNal n).2.elapsedMs n.now'), ?_⟩
  · rw [run_eq_flatten_traced, ← emitted, List.append_cons, hemitted, emitted_snoc,
      emitted_before hbefore, hout]
    simp
  · clear hemitted
    induction rest with
    | nil => rfl
    | cons e rest ih =>
      obtain ⟨he, hrest⟩ := List.forall_mem_cons.mp hlater
      rw [List.map_cons, List.flatten_cons, List.map_append, ih hrest, List.map_cons]
      rw [Later] at he
      cases hframe : e.1.isFrame with
      | true =>
        rw [if_pos hframe] at he
        obtain ⟨tag, htag, hpart⟩ := he
        rw [htag, List.filter_cons_of_pos hframe, List.map_singleton, hpart, List.map_cons]
        rfl
      | false =>
        rw [if_neg (by rw [hframe]; decide)] at he
        rw [he, List.filter_cons_of_neg (by rw [hframe]; decide), List.map_nil, List.nil_append]

/-- The two tags of the moment have the milliseconds since the first SPS. -/
theorem timestamps_moment {before : List TimedNal} {n : TimedNal} {t₀ : Instant}
    (hbefore : ¬ HasSets before) (hmoment : HasSets (before ++ [n]))
    (hstart : firstSps (before ++ [n]) = some t₀) (hspan : millis t₀ n.now' < 2 ^ 32) :
    (run muxNal new (before ++ [n])).1.map tagTimestamp =
      [millis t₀ n.now', millis t₀ n.now'] := by
  have hstart' := (startTime_muxed _).trans hstart
  rw [muxed_snoc] at hstart'
  rw [run_snoc, run_before hbefore, List.nil_append,
    (((follows_muxed before).step n).2.moment hbefore hmoment).1, elapsedMs_of_start hstart']
  simp only [List.map_cons, List.map_nil, tagTimestamp_scriptTag, sequenceHeaderOf,
    tagTimestamp_videoFrameTag, toNat_millis hspan]

theorem sorted_frames {frames : List TimedNal} (hclock : ClockOrdered frames) (t₀ : Instant)
    (base : ℕ) :
    (frames.map fun f => millis t₀ f.now' - base).Pairwise (· ≤ ·) := by
  rw [List.pairwise_map]
  refine hclock.2.imp_of_mem fun {a b} _ hb hab => ?_
  have hle : a.now' ≤ b.now' := hab.trans (hclock.1 b hb)
  exact Nat.sub_le_sub_right (millis_mono t₀ hle) base

/-- **The timestamps of a run** whose clock never goes back and stays within `2 ^ 32` milliseconds
of the first SPS. The unit that completes the pair brings the script tag and the sequence header,
which have the milliseconds since the first SPS; the frames behind it have those since the first
frame, which never go back; the subtraction does not underflow. -/
theorem run_timestamps {nals : List TimedNal} (hclock : ClockOrdered nals)
    (hspan : ∀ t₀ ∈ firstSps nals, ∀ n ∈ nals, millis t₀ n.now' < 2 ^ 32) :
    Checked (fun before n => ¬ Underflows (muxed before) n) nals ∧
      (¬ HasSets nals ∧ (run muxNal new nals).1 = [] ∨
        ∃ before n after script header frames t₀ base, nals = before ++ n :: after ∧
          ¬ HasSets before ∧ HasSets (before ++ [n]) ∧ firstSps nals = some t₀ ∧
          (run muxNal new nals).1 = script :: header :: frames ∧
          IsBurst (before ++ [n]) script header ∧
          tagTimestamp script = millis t₀ n.now' ∧ tagTimestamp header = millis t₀ n.now' ∧
          frames.map readPart = (after.filter TimedNal.isFrame).map (fun f =>
            some (.avcNalu f.nal.isKeyframe f.nal.data)) ∧
          frames.map tagTimestamp =
            (after.filter TimedNal.isFrame).map (fun f => millis t₀ f.now' - base) ∧
          (∀ f ∈ (after.filter TimedNal.isFrame).head?, base = millis t₀ f.now) ∧
          (frames.map tagTimestamp).Pairwise (· ≤ ·)) := by
  constructor
  · rintro before n rest rfl hunder
    have hsets : HasSets before := (follows_muxed before).initialized.mp hunder.2.1
    obtain ⟨start, m, after, rfl, hstart, hmoment⟩ := hsets.exists_moment
    obtain ⟨⟨t₀, ht₀⟩, hbase⟩ := moment_start hstart hmoment
    rw [List.append_cons] at hunder
    refine (frame_timestamp hmoment hbase ht₀ hunder.1 (hclock.sublist ?_) ?_).1 hunder
    · simp
    · apply hspan t₀ _ n (by simp)
      have happ := firstSps_append ht₀ (after ++ n :: rest)
      simpa using happ
  · by_cases hsets : HasSets nals
    · right
      obtain ⟨before, n, after, rfl, hbefore, hmoment⟩ := hsets.exists_moment
      obtain ⟨⟨t₀, ht₀⟩, hbase⟩ := moment_start hbefore hmoment
      have hfirst : firstSps (before ++ n :: after) = some t₀ := by
        rw [List.append_cons]
        exact firstSps_append ht₀ after
      have hafter : ClockOrdered after := hclock.sublist (by simp)
      have hts := timestamps_after hmoment hbase ht₀ hafter
        fun m hm => hspan t₀ hfirst m (by simp [hm])
      rw [timestamps_moment hbefore hmoment ht₀ (hspan t₀ hfirst n (by simp)),
        ← List.append_cons] at hts
      obtain ⟨script, header, frames, hout, hburst, hframes⟩ := run_burst hbefore hmoment after
      rw [hout] at hts
      obtain ⟨hscript, hts⟩ := List.cons.inj hts
      obtain ⟨hheader, hts⟩ := List.cons.inj hts
      refine ⟨before, n, after, script, header, frames, t₀,
        baseMillis t₀ (after.filter TimedNal.isFrame), rfl, hbefore, hmoment, hfirst, hout, hburst,
        hscript, hheader, hframes, hts, fun f hf => ?_, ?_⟩
      · rw [baseMillis, Option.mem_def.mp hf]
        rfl
      · have hframes : ClockOrdered (after.filter TimedNal.isFrame) :=
          hafter.sublist List.filter_sublist
        rw [hts]
        exact sorted_frames hframes t₀ (baseMillis t₀ (after.filter TimedNal.isFrame))
    · exact .inl ⟨hsets, run_before hsets⟩

/-- An SPS at the first reading, a PPS whose call takes a millisecond, and an IDR picture. -/
def idrRun : List TimedNal :=
  [⟨⟨[0, 0, 0, 1, 0x67], nalTypeSps, false, 0⟩, 0, 0⟩,
    ⟨⟨[0, 0, 0, 1, 0x68], nalTypePps, false, 0⟩, 0, 1000000⟩,
    ⟨⟨[0, 0, 0, 1, 0x65], nalTypeIdr, true, 0⟩, 2000000, 3000000⟩]

theorem run_timestamps_idr :
    Checked (fun before n => ¬ Underflows (muxed before) n) idrRun ∧
      ∃ script header frame, (run muxNal new idrRun).1 = [script, header, frame] ∧
        readPart header = some (.avcSequenceHeader
          [1, 0x42, 0, 0x1E, 0xFF, 0xE1, 0, 1, 0x67, 1, 0, 1, 0x68]) ∧
        readPart frame = some (.avcNalu true [0, 0, 0, 1, 0x65]) ∧
        tagTimestamp script = 1 ∧ tagTimestamp header = 1 ∧ tagTimestamp frame = 1 := by
  obtain ⟨hchecked, ⟨hno, -⟩ | ⟨before, n, after, script, header, frames, t₀, base, hnals, hbefore,
    hmoment, hfirst, hout, hburst, hscript, hheader, hframes, hts, hbase, -⟩⟩ :=
    @run_timestamps idrRun ⟨by simp [idrRun], by simp [idrRun]⟩ (by
      intro t₀ ht₀ n hn
      obtain rfl : 0 = t₀ := Option.some.inj ht₀
      simp only [idrRun, List.mem_cons, List.not_mem_nil, or_false] at hn
      rcases hn with rfl | rfl | rfl <;> decide)
  · exact absurd (by decide) hno
  refine ⟨hchecked, script, header, ?_⟩
  -- the PPS completes the pair
  obtain _ | ⟨b, _ | ⟨c, before⟩⟩ := before
  · obtain ⟨rfl, rfl⟩ := List.cons.inj hnals
    exact absurd hmoment (by decide)
  · obtain ⟨rfl, htail⟩ := List.cons.inj hnals
    obtain ⟨rfl, rfl⟩ := List.cons.inj htail
    obtain rfl : 0 = t₀ := Option.some.inj hfirst
    obtain rfl := hbase _ rfl
    obtain ⟨frame, rfl, hpart⟩ := List.map_eq_singleton_iff.mp hframes
    exact ⟨frame, hout, hburst.2, hpart, hscript, hheader, List.head_eq_of_cons_eq hts⟩
  · obtain ⟨rfl, htail⟩ := List.cons.inj hnals
    obtain ⟨rfl, -⟩ := List.cons.inj htail
    have hpair : HasSets (idrRun.take 2) := by decide
    exact absurd (hpair.append before) hbefore

/-- The first frame is stamped before the tags in front of it, when the sets came apart; and once
the count of milliseconds has passed 32 bits, the base is above it. -/
theorem timestamps_go_back :
    ¬ ((run muxNal new
        [⟨⟨[0, 0, 0, 1, 0x67], nalTypeSps, false, 0⟩, 0, 0⟩,
          ⟨⟨[0, 0, 0, 1, 0x68], nalTypePps, false, 0⟩, 100000000, 100000000⟩,
          ⟨⟨[0, 0, 0, 1, 0x65], nalTypeIdr, true, 0⟩, 100000000, 100000000⟩]).1.map
      tagTimestamp).Pairwise (· ≤ ·) ∧
    Underflows
      (muxed [⟨⟨[0, 0, 0, 1, 0x67], nalTypeSps, false, 0⟩, 0, 0⟩,
        ⟨⟨[0, 0, 0, 1, 0x68], nalTypePps, false, 0⟩, 0, 0⟩,
        ⟨⟨[0, 0, 0, 1, 0x65], nalTypeIdr, true, 0⟩, 1000000, 1000000⟩])
      ⟨⟨[0, 0, 0, 1, 0x65], nalTypeIdr, true, 0⟩, 4294967296000000, 4294967296000000⟩ := by
  constructor
  · have hts : (run muxNal new
        [⟨⟨[0, 0, 0, 1, 0x67], nalTypeSps, false, 0⟩, 0, 0⟩,
          ⟨⟨[0, 0, 0, 1, 0x68], nalTypePps, false, 0⟩, 100000000, 100000000⟩,
          ⟨⟨[0, 0, 0, 1, 0x65], nalTypeIdr, true, 0⟩, 100000000, 100000000⟩]).1.map
        tagTimestamp = [100, 100, 0] := by decide +kernel
    rw [hts]
    simp
  · exact ⟨by decide, by decide +kernel, by decide +kernel⟩

end FlvMuxer

end Fosipcore
