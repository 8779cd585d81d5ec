import Fosipcore.Video.MuxerRuns
import Fosipcore.Video.UnitTypes

/-!
# The cached sequence header

The muxer caches the sequence header that it emits, and never builds another one: the record in it
is that of the parameter sets in force when the pair was completed, whatever sets come later.

The lengths in the record are truncated to 16 bits, while the depacketiser delivers parameter sets
of up to 1 MiB. A player reads back the two sets if and only if both are shorter than `2 ^ 16`
bytes.

## Main definitions

* `FlvMuxer.ParsesTo`: a tag parses as a sequence header with the given parameter sets
* `Delivered`: the depacketiser can return the unit

## Main results

* `FlvMuxer.sequenceHeader_first`: the cached tag parses to the sets of the moment of the burst
* `FlvMuxer.burst_parses_iff`: a player reads back the parameter sets, unless one is too long
-/

namespace Fosipcore

open BigEndian FlvContainer

/-- The depacketiser returns the unit, for some packets of at most 65535 bytes. -/
def Delivered (unit : NalUnit) : Prop :=
  ∃ before pkt, (∀ p ∈ before ++ [pkt], p.payload.length ≤ 65535) ∧
    ((RtpParser.received before).parsePacket pkt).1 = some unit

namespace FlvMuxer

/-! ## The record is read back -/

/-- The bytes of a tag parse as a sequence header with the given parameter sets, one of each kind,
and NAL lengths of four bytes. -/
def ParsesTo (tag sps pps : List UInt8) : Prop :=
  ∃ t config, parseTag tag = some (t, []) ∧ t.media = some (.avcSequenceHeader config) ∧
    config.lengthSize = 4 ∧ config.sps = [sps] ∧ config.pps = [pps]

/-- A tag parses to one pair of sets only. -/
theorem ParsesTo.unique {tag sps pps sps' pps' : List UInt8} (h : ParsesTo tag sps pps)
    (h' : ParsesTo tag sps' pps') : sps = sps' ∧ pps = pps' := by
  obtain ⟨t, config, hparse, hmedia, -, hsps, hpps⟩ := h
  obtain ⟨t', config', hparse', hmedia', -, hsps', hpps'⟩ := h'
  obtain ⟨rfl, -⟩ := Prod.mk.inj (Option.some.inj (hparse.symm.trans hparse'))
  obtain rfl := Media.avcSequenceHeader.inj (Option.some.inj (hmedia.symm.trans hmedia'))
  exact ⟨List.head_eq_of_cons_eq (hsps.symm.trans hsps'),
    List.head_eq_of_cons_eq (hpps.symm.trans hpps')⟩

/-- Nothing parses to a set that is too long for the 16 bits of its length. -/
theorem ParsesTo.length_lt {tag sps pps : List UInt8} (h : ParsesTo tag sps pps) :
    sps.length < 2 ^ 16 ∧ pps.length < 2 ^ 16 := by
  obtain ⟨t, config, -, hmedia, -, hsps, hpps⟩ := h
  obtain ⟨hsets, hsets'⟩ := length_of_media hmedia
  rw [hsps] at hsets
  rw [hpps] at hsets'
  exact ⟨hsets sps List.mem_cons_self, hsets' pps List.mem_cons_self⟩

/-- **A sequence header parses to its parameter sets** if and only if their lengths fit the 16 bits
of the record. -/
theorem configTag_parses_iff (sps pps : List UInt8) (ts : UInt32) :
    ParsesTo (buildVideoFrameTag frameKeyframe avcSequenceHeader (configRecord sps pps) ts) sps pps ↔
      sps.length < 2 ^ 16 ∧ pps.length < 2 ^ 16 := by
  refine ⟨ParsesTo.length_lt, fun ⟨hsps, hpps⟩ => ?_⟩
  have hlen : 5 + (configRecord sps pps).length < 2 ^ 24 := by
    rw [length_configRecord]
    omega
  obtain ⟨config, hmedia, hsize, hset, hset'⟩ := configTag_media hsps hpps ts hlen
  refine ⟨_, config, ?_, hmedia, hsize, hset, hset'⟩
  rw [buildVideoFrameTag_eq_encode _ _ _ hlen]
  exact (congrArg parseTag (List.append_nil _)).symm.trans (parseTag_encode _ [])

/-! ## The record stays -/

/-- The header that the burst caches stays, whatever comes later. -/
theorem sequenceHeader_stays {before : List TimedNal} {n : TimedNal} (hbefore : ¬ HasSets before)
    (hmoment : HasSets (before ++ [n])) :
    ∃ sps pps tag, lastSet nalTypeSps (before ++ [n]) = some sps ∧
      lastSet nalTypePps (before ++ [n]) = some pps ∧
      (ParsesTo tag sps pps ↔ sps.length < 2 ^ 16 ∧ pps.length < 2 ^ 16) ∧
      ∀ later, (muxed (before ++ n :: later)).sequenceHeader = some tag := by
  obtain ⟨hsome, hsome'⟩ := (hasSets_iff _).mp hmoment
  obtain ⟨sps, hsps⟩ := Option.isSome_iff_exists.mp hsome
  obtain ⟨pps, hpps⟩ := Option.isSome_iff_exists.mp hsome'
  obtain ⟨-, hheader⟩ := ((follows_muxed before).step n).2.moment hbefore hmoment
  rw [← muxed_snoc, sequenceHeaderOf, hsps, hpps] at hheader
  refine ⟨sps, pps, _, hsps, hpps,
    configTag_parses_iff sps pps ((muxed (before ++ [n])).elapsedMs n.now'), fun later => ?_⟩
  obtain ⟨-, -, -, -, hkeep⟩ := emitted_after hmoment later
  rw [List.append_cons, hkeep, hheader]
  rfl

/-- **The cached sequence header** is absent as long as a parameter set is missing. The unit that
completes the pair settles it for good, as a tag that parses to the sets received last so far, if and
only if both are shorter than `2 ^ 16` bytes. -/
theorem sequenceHeader_first (nals : List TimedNal) :
    (¬ HasSets nals ∧ (muxed nals).sequenceHeader = none) ∨
      ∃ before n after sps pps tag, nals = before ++ n :: after ∧ ¬ HasSets before ∧
        HasSets (before ++ [n]) ∧ lastSet nalTypeSps (before ++ [n]) = some sps ∧
        lastSet nalTypePps (before ++ [n]) = some pps ∧
        (ParsesTo tag sps pps ↔ sps.length < 2 ^ 16 ∧ pps.length < 2 ^ 16) ∧
        ∀ later, (muxed (before ++ n :: later)).sequenceHeader = some tag := by
  by_cases hsets : HasSets nals
  · right
    obtain ⟨before, n, after, rfl, hbefore, hmoment⟩ := hsets.exists_moment
    obtain ⟨sps, pps, tag, hsps, hpps, hparses, hlater⟩ := sequenceHeader_stays hbefore hmoment
    exact ⟨before, n, after, sps, pps, tag, rfl, hbefore, hmoment, hsps, hpps, hparses, hlater⟩
  · left
    have hnone : ¬ (muxed nals).sequenceHeaderTag.isSome = true :=
      fun hsome => hsets ((follows_muxed nals).header.mp hsome)
    exact ⟨hsets, Option.not_isSome_iff_eq_none.mp hnone⟩

/-- A pair of parameter sets, and an SPS of another profile behind it. -/
def changedRun : List TimedNal :=
  [⟨VideoPipeline.sampleSps.unit, 0, 0⟩, ⟨VideoPipeline.samplePps.unit, 0, 0⟩,
    ⟨⟨[0, 0, 0, 4, 0x67, 0x64, 0, 0x28], nalTypeSps, false, 0⟩, 0, 0⟩]

/-- The camera changes its SPS after the burst, and the cached tag keeps the first one. -/
theorem sequenceHeader_keeps_first :
    ¬ ∀ nals sps pps tag, lastSet nalTypeSps nals = some sps → lastSet nalTypePps nals = some pps →
      sps.length < 2 ^ 16 → pps.length < 2 ^ 16 → (muxed nals).sequenceHeader = some tag →
      ParsesTo tag sps pps := by
  intro h
  have hbefore : ¬ HasSets [⟨VideoPipeline.sampleSps.unit, 0, 0⟩] := by decide
  have hmoment : HasSets ([⟨VideoPipeline.sampleSps.unit, 0, 0⟩] ++
      [⟨VideoPipeline.samplePps.unit, 0, 0⟩]) := by decide
  obtain ⟨sps, pps, tag, hsps, hpps, hparses, hlater⟩ := sequenceHeader_stays hbefore hmoment
  obtain rfl : VideoPipeline.sampleSps.bytes = sps := Option.some.inj hsps
  obtain rfl : VideoPipeline.samplePps.bytes = pps := Option.some.inj hpps
  have hlast := h changedRun [0x67, 0x64, 0, 0x28] VideoPipeline.samplePps.bytes tag (by decide)
    (by decide) (by decide) (by decide) (hlater _)
  -- the tag parses to the first SPS, and to nothing else
  exact absurd ((hparses.mpr (by decide)).unique hlast).1 (by decide)

end FlvMuxer

/-! ## The parameter sets that are delivered -/

/-- A unit of a type up to 23 is delivered as the bytes of a NAL unit behind their length. -/
theorem Delivered.exists_nal {unit : NalUnit} (h : Delivered unit)
    (hpos : 1 ≤ unit.nalType.toNat) (hle : unit.nalType.toNat ≤ 23) :
    ∃ nal : Nal, nal.nalType = unit.nalType ∧ unit.data = nal.unit.data := by
  obtain ⟨before, pkt, hlen, hunit⟩ := h
  rw [RtpParser.parsePacket_completed] at hunit
  obtain ⟨bytes, hbytes, rfl⟩ := Option.map_eq_some_iff.mp hunit
  have hcap := RtpParser.length_completed_le _ (hlen pkt (by simp)) hbytes
  cases bytes with
  | nil => cases hpos
  | cons header body =>
    let nal : Nal := ⟨header, body, hpos, hle, by rwa [List.length_cons, Nat.add_comm] at hcap⟩
    refine ⟨nal, rfl, ?_⟩
    rw [RtpParser.unitOf_of_ne_zero nal.header_ne_zero]
    rfl

/-- A fragment of one byte. -/
def byteFragment (b : UInt8) : Fragment × UInt32 :=
  (⟨VideoPipeline.sampleRtpHeader, [b], rfl, by simp⟩, 0)

theorem length_byteFragment (header : UInt8) (s e : Bool) (b : UInt8) :
    (fragmentPacket header s e (byteFragment b)).payload.length ≤ 65535 := by
  change 15 ≤ 65535
  decide

/-- Fragments of one byte gather in the buffer. -/
theorem received_byteFragments (header b : UInt8) (middle : List UInt8)
    (hcap : 2 + middle.length ≤ maxFuBufferBytes) :
    RtpParser.received (fragmentPacket header true false (byteFragment b) ::
        middle.map fun c => fragmentPacket header false false (byteFragment c)) =
      ⟨header :: b :: middle, true⟩ := by
  induction middle using List.reverseRecOn with
  | nil =>
    have hfirst := RtpParser.parsePacket_first .new header (byteFragment b) (by
      change 1 + 1 ≤ 1048576
      decide)
    exact congrArg Prod.snd hfirst
  | append_singleton middle c ih =>
    rw [List.length_append, List.length_singleton] at hcap
    rw [List.map_append, List.map_singleton, ← List.cons_append, RtpParser.received_snoc,
      ih (by omega), RtpParser.parsePacket_middle]
    · rfl
    · simp only [byteFragment, List.length_cons, List.length_nil]
      omega

/-- A unit that is sent in fragments of one byte is delivered. -/
theorem delivered_byteFragments (header b last : UInt8) (middle : List UInt8)
    (hcap : 3 + middle.length ≤ maxFuBufferBytes) :
    Delivered (unitOf 0 (header :: b :: (middle ++ [last]))) := by
  refine ⟨fragmentPacket header true false (byteFragment b) ::
      middle.map fun c => fragmentPacket header false false (byteFragment c),
    fragmentPacket header false true (byteFragment last), fun p hp => ?_, ?_⟩
  · simp only [List.mem_append, List.mem_cons, List.mem_map, List.not_mem_nil, or_false] at hp
    rcases hp with (rfl | ⟨c, -, rfl⟩) | rfl <;> exact length_byteFragment _ _ _ _
  · rw [received_byteFragments header b middle (by omega), RtpParser.parsePacket_last]
    · rfl
    · simp only [byteFragment, List.length_cons, List.length_nil]
      omega

/-- **Every NAL unit can be delivered**, whatever its size up to 1 MiB. -/
theorem Nal.delivered (nal : Nal) : Delivered nal.unit := by
  have hunit : unitOf 0 nal.bytes = nal.unit := by
    rw [Nal.bytes, RtpParser.unitOf_of_ne_zero nal.header_ne_zero]
    rfl
  have hle := nal.length_le
  have hfu : nal.nalType ≠ nalTypeFuA := nal.nalType_ne (by simp [nalTypeFuA])
  have hstap : nal.nalType ≠ nalTypeStapA := nal.nalType_ne (by simp [nalTypeStapA])
  by_cases hshort : nal.body.length < 2
  · -- there are no two fragments, and the unit is a packet of its own
    refine ⟨[], ⟨VideoPipeline.sampleRtpHeader ++ nal.bytes, 0⟩, fun p hp => ?_, ?_⟩
    · obtain rfl := List.mem_singleton.mp hp
      simp only [Nal.bytes, List.length_append, List.length_cons, VideoPipeline.sampleRtpHeader,
        List.length_nil]
      omega
    · have hheader : VideoPipeline.sampleRtpHeader.length = 12 := rfl
      have hparse := RtpParser.parse_singleNal hheader .new hfu hstap nal.body 0
      rw [← hunit]
      exact congrArg Prod.fst hparse
  · obtain ⟨b, rest, hbody⟩ : ∃ b rest, nal.body = b :: rest :=
      List.exists_cons_of_length_pos (by omega)
    obtain ⟨middle, last, rfl⟩ : ∃ middle last, rest = middle ++ [last] := by
      refine ⟨rest.dropLast, rest.getLast ?_, (List.dropLast_append_getLast _).symm⟩
      rintro rfl
      rw [hbody, List.length_singleton] at hshort
      exact hshort (by decide)
    rw [hbody, List.length_cons, List.length_append, List.length_singleton] at hle
    rw [← hunit, Nal.bytes, hbody]
    exact delivered_byteFragments nal.header b last middle (by omega)

/-- The last set of a type comes from one of the units. -/
theorem exists_of_lastSet {type : UInt8} {nals : List TimedNal} {set : List UInt8}
    (h : lastSet type nals = some set) :
    ∃ n ∈ nals, n.nal.nalType = type ∧ FlvMuxer.rawParameterSet n.nal.data = set := by
  obtain ⟨n, hn, hset⟩ := Option.map_eq_some_iff.mp h
  obtain ⟨hmem, htype⟩ := List.mem_filter.mp (List.mem_of_getLast? hn)
  exact ⟨n, hmem, by simpa using htype, hset⟩

/-- The last set of a delivered type is that of a NAL unit. -/
theorem lastSet_delivered {type : UInt8} {nals : List TimedNal}
    (hdelivered : ∀ n ∈ nals, Delivered n.nal) (hpos : 1 ≤ type.toNat) (hle : type.toNat ≤ 23)
    (h : (lastSet type nals).isSome = true) :
    ∃ nal : Nal, nal.nalType = type ∧ lastSet type nals = some nal.bytes := by
  obtain ⟨set, hset⟩ := Option.isSome_iff_exists.mp h
  obtain ⟨n, hn, rfl, rfl⟩ := exists_of_lastSet hset
  obtain ⟨nal, htype, hdata⟩ := (hdelivered n hn).exists_nal hpos hle
  refine ⟨nal, htype, ?_⟩
  rw [hset, hdata, FlvMuxer.rawParameterSet_unit]

/-! ## The burst of delivered units -/

namespace FlvMuxer

/-- The burst of a run of delivered units carries the last parameter sets of the run. -/
theorem burst_delivered {before : List TimedNal} {n : TimedNal}
    (hdelivered : ∀ m ∈ before ++ [n], Delivered m.nal) (hbefore : ¬ HasSets before)
    (hmoment : HasSets (before ++ [n])) :
    ∃ (sps pps : Nal) (ts : UInt32),
      lastSet nalTypeSps (before ++ [n]) = some sps.bytes ∧
        lastSet nalTypePps (before ++ [n]) = some pps.bytes ∧
        ((muxed before).muxNal n).1 = [buildScriptTag ts, buildVideoFrameTag frameKeyframe
          avcSequenceHeader (configRecord sps.bytes pps.bytes) ts] := by
  obtain ⟨hsome, hsome'⟩ := (hasSets_iff _).mp hmoment
  obtain ⟨sps, -, hsps⟩ := lastSet_delivered hdelivered (by decide) (by decide) hsome
  obtain ⟨pps, -, hpps⟩ := lastSet_delivered hdelivered (by decide) (by decide) hsome'
  obtain ⟨hout, -⟩ := ((follows_muxed before).step n).2.moment hbefore hmoment
  refine ⟨sps, pps, ((muxed before).muxNal n).2.elapsedMs n.now', hsps, hpps, ?_⟩
  rw [hout, sequenceHeaderOf, hsps, hpps]
  rfl

/-- An SPS and a PPS, as they are delivered. -/
theorem pair_delivered (sps : Nal) :
    ∀ m ∈ [(⟨sps.unit, 0, 0⟩ : TimedNal)] ++ [⟨VideoPipeline.samplePps.unit, 0, 0⟩],
      Delivered m.nal := by
  intro m hm
  simp only [List.cons_append, List.nil_append, List.mem_cons, List.not_mem_nil, or_false] at hm
  rcases hm with rfl | rfl
  · exact sps.delivered
  · exact VideoPipeline.samplePps.delivered

/-- **The sequence header is read back** as the two parameter sets in force, whatever the units
that the depacketiser delivers, if and only if both sets are shorter than `2 ^ 16` bytes. -/
theorem burst_parses_iff {before : List TimedNal} {n : TimedNal}
    (hdelivered : ∀ m ∈ before ++ [n], Delivered m.nal) (hbefore : ¬ HasSets before)
    (hmoment : HasSets (before ++ [n])) :
    ∃ sps pps script tag, lastSet nalTypeSps (before ++ [n]) = some sps ∧
      lastSet nalTypePps (before ++ [n]) = some pps ∧
      ((muxed before).muxNal n).1 = [script, tag] ∧
      (ParsesTo tag sps pps ↔ sps.length < 2 ^ 16 ∧ pps.length < 2 ^ 16) := by
  obtain ⟨sps, pps, ts, hsps, hpps, hout⟩ := burst_delivered hdelivered hbefore hmoment
  exact ⟨_, _, _, _, hsps, hpps, hout, configTag_parses_iff sps.bytes pps.bytes ts⟩

theorem burst_parses_iff_sample :
    ∃ sps pps script tag,
      lastSet nalTypeSps ([⟨VideoPipeline.sampleSps.unit, 0, 0⟩] ++
        [⟨VideoPipeline.samplePps.unit, 0, 0⟩]) = some sps ∧
      lastSet nalTypePps ([⟨VideoPipeline.sampleSps.unit, 0, 0⟩] ++
        [⟨VideoPipeline.samplePps.unit, 0, 0⟩]) = some pps ∧
      ((muxed [⟨VideoPipeline.sampleSps.unit, 0, 0⟩]).muxNal
        ⟨VideoPipeline.samplePps.unit, 0, 0⟩).1 = [script, tag] ∧
      (ParsesTo tag sps pps ↔ sps.length < 2 ^ 16 ∧ pps.length < 2 ^ 16) :=
  burst_parses_iff (pair_delivered VideoPipeline.sampleSps) (by decide) (by decide)

theorem length_longBody : 1 + (List.replicate 65535 (0 : UInt8)).length ≤ maxFuBufferBytes := by
  rw [List.length_replicate]
  decide

/-- An SPS of `2 ^ 16` bytes. -/
def longSps : Nal :=
  ⟨0x67, List.replicate 65535 0, VideoPipeline.sampleSps.type_pos, VideoPipeline.sampleSps.type_le,
    length_longBody⟩

/-- An SPS of `2 ^ 16` bytes is delivered, and the burst does not carry it. -/
theorem burst_truncates :
    Delivered longSps.unit ∧ Delivered VideoPipeline.samplePps.unit ∧
      ∃ script tag, ((muxed [⟨longSps.unit, 0, 0⟩]).muxNal
          ⟨VideoPipeline.samplePps.unit, 0, 0⟩).1 = [script, tag] ∧
        ¬ ParsesTo tag longSps.bytes VideoPipeline.samplePps.bytes := by
  obtain ⟨_, _, ts, -, -, hout⟩ :=
    burst_delivered (pair_delivered longSps) (by decide) (by decide)
  refine ⟨longSps.delivered, VideoPipeline.samplePps.delivered, _, _, hout, fun hparses => ?_⟩
  have hlt := hparses.length_lt.1
  have hbody : longSps.body = List.replicate 65535 0 := rfl
  rw [Nal.bytes, List.length_cons, hbody, List.length_replicate] at hlt
  exact absurd hlt (by decide)

end FlvMuxer

end Fosipcore
