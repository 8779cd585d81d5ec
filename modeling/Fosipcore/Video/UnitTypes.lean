import Fosipcore.Video.Reassembly

/-!
# The type of an emitted unit

Every unit that the depacketiser returns has its length in front of its bytes. Its type and its
keyframe flag are read in the bytes that the packet carried, before a start code in front of them
is stripped, so a unit that came with a start code is reported with the type of its first zero
byte.

## Main definitions

* `RtpParser.completed`: the bytes of the unit that a packet completes
* `SelfConsistent`: length, type and keyframe flag agree with the bytes of the unit
* `HidesType`: a start code stands in front of a unit of non-zero type

## Main results

* `parsePacket_completed`: the five ways to return a unit are one
* `selfConsistent_iff`: the units of a run are self-consistent, unless a start code hides a type
-/

namespace Fosipcore

open BigEndian Transducer Trace

/-- **A self-consistent unit**: its first four bytes are the length of the others, the type is
that of the first of them, and the keyframe flag stands for the type 5. -/
structure SelfConsistent (nal : NalUnit) : Prop where
  length_le : 4 ≤ nal.data.length
  length_eq : ofBytes (nal.data.take 4) = (nal.data.drop 4).length
  nalType : ∀ b bs, nal.data.drop 4 = b :: bs → nal.nalType = b &&& 0x1F
  isKeyframe : nal.data.drop 4 ≠ [] → (nal.isKeyframe = true ↔ nal.nalType = nalTypeIdr)

/-- An Annex-B start code stands in front of a unit whose type is not zero. -/
def HidesType (bytes : List UInt8) : Prop :=
  ∃ b bs, (bytes = 0 :: 0 :: 0 :: 1 :: b :: bs ∨ bytes = 0 :: 0 :: 1 :: b :: bs) ∧
    b &&& 0x1F ≠ 0

/-! ## Units from their bytes -/

theorem drop_toAvccFormat (bytes : List UInt8) :
    (toAvccFormat bytes).drop 4 = stripStartCode bytes := by
  rw [toAvccFormat, u32Bytes_ofNat]
  exact List.drop_left' (length_toBytes 4 _)

theorem take_toAvccFormat (bytes : List UInt8) :
    (toAvccFormat bytes).take 4 = toBytes 4 (stripStartCode bytes).length := by
  rw [toAvccFormat, u32Bytes_ofNat]
  exact List.take_left' (length_toBytes 4 _)

theorem length_toAvccFormat (bytes : List UInt8) :
    (toAvccFormat bytes).length = 4 + (stripStartCode bytes).length := by
  rw [toAvccFormat, u32Bytes_ofNat, List.length_append, length_toBytes]

theorem nalType_unitOf_zero (ts : UInt32) (bs : List UInt8) :
    (unitOf ts (0 :: bs)).nalType = 0 := by
  rw [unitOf, List.head?_cons, Option.getD_some, UInt8.zero_and]

/-- The type is that of the first byte behind the start code, unless the start code hides it. -/
theorem nalType_unitOf_iff (ts : UInt32) (bytes : List UInt8) :
    (∀ b bs, stripStartCode bytes = b :: bs → (unitOf ts bytes).nalType = b &&& 0x1F) ↔
      ¬ HidesType bytes := by
  constructor
  · rintro h ⟨b, bs, rfl | rfl, hb⟩
    · exact hb ((h b bs rfl).symm.trans (nalType_unitOf_zero ts _))
    · exact hb ((h b bs rfl).symm.trans (nalType_unitOf_zero ts _))
  · intro h b bs hstrip
    unfold stripStartCode at hstrip
    split at hstrip
    · subst hstrip
      by_contra hne
      exact h ⟨b, bs, Or.inl rfl, fun h0 => hne ((nalType_unitOf_zero ts _).trans h0.symm)⟩
    · subst hstrip
      by_contra hne
      exact h ⟨b, bs, Or.inr rfl, fun h0 => hne ((nalType_unitOf_zero ts _).trans h0.symm)⟩
    · rw [hstrip]
      rfl

/-- **Self-consistency of a unit** hangs on the type alone. -/
theorem selfConsistent_unitOf_iff {bytes : List UInt8} (hlen : bytes.length < 2 ^ 32)
    (ts : UInt32) : SelfConsistent (unitOf ts bytes) ↔ ¬ HidesType bytes := by
  rw [← nalType_unitOf_iff ts, ← drop_toAvccFormat]
  refine ⟨fun h => h.nalType, fun h => ⟨?_, ?_, h, fun _ => beq_iff_eq⟩⟩
  · rw [unitOf, length_toAvccFormat]
    exact Nat.le_add_right 4 _
  · rw [unitOf, take_toAvccFormat, drop_toAvccFormat]
    exact ofBytes_toBytes ((length_stripStartCode_le bytes).trans_lt hlen)

namespace RtpParser

/-! ## The bytes of the unit that a packet completes -/

/-- The last complete unit of an aggregation packet. -/
def stapALast (rest : List UInt8) (last : Option (List UInt8)) : Option (List UInt8) :=
  match rest with
  | hi :: lo :: tail =>
    let size := hi.toNat * 256 + lo.toNat
    if size > tail.length then last
    else stapALast (tail.drop size) (some (tail.take size))
  | _ => last
termination_by rest.length
decreasing_by exact length_drop_lt size hi lo tail

/-- The bytes of the unit that a packet completes, as they arrived: those of the packet, those
of its last aggregated unit, or those gathered with its end fragment. -/
def completed (p : RtpParser) (pkt : StampedPacket) : Option (List UInt8) :=
  match pkt.payload.drop 12 with
  | [] => none
  | b :: bs =>
    if b &&& 0x1F = nalTypeFuA then
      pkt.fragment.bind fun f =>
        if f.isEnd ∧ p.fuBuffer.length + f.fuData.length ≤ maxFuBufferBytes then
          some (p.fuBuffer ++ f.fuData)
        else none
    else if b &&& 0x1F = nalTypeStapA then stapALast bs none
    else some (b :: bs)

theorem stapALoop_eq (ts : UInt32) (rest : List UInt8) (last : Option (List UInt8)) :
    stapALoop ts rest (last.map (unitOf ts)) = (stapALast rest last).map (unitOf ts) := by
  fun_induction stapALast rest last with
  | case1 last hi lo tail size hsize => rw [stapALoop, if_pos hsize]
  | case2 last hi lo tail size hsize ih =>
    have hunit : stapANal (tail.take size) ts = unitOf ts (tail.take size) := by
      cases tail.take size <;> rfl
    rw [stapALoop, if_neg hsize]
    rw [← ih, Option.map_some]
    exact congrArg (fun nal => stapALoop ts (tail.drop size) (some nal)) hunit
  | case3 last rest hrest => rw [stapALoop]; exact hrest

/-- **The five ways to return a unit** are one: the unit is made of the bytes that the packet
completes. -/
theorem parsePacket_completed (p : RtpParser) (pkt : StampedPacket) :
    (p.parsePacket pkt).1 = (p.completed pkt).map (unitOf pkt.timestamp) := by
  rcases payload_cases pkt.payload with ⟨hshort, hdrop⟩ | ⟨hdr, b, bs, hp, hhdr, hdrop⟩
  · simp [parsePacket, parse, hshort, completed, hdrop]
  by_cases hfu : b &&& 0x1F = nalTypeFuA
  · have hisFuA : pkt.isFuA = true := by simp [StampedPacket.isFuA, hdrop, hfu]
    ext nal
    rw [parsePacket_eq_some_iff p hisFuA]
    simp only [completed, hdrop, hfu, if_true, Option.map_bind, Option.bind_eq_some_iff]
    refine exists_congr fun f => and_congr_right fun _ => ?_
    simp only [Function.comp_apply]
    split_ifs with h
    · simp [h]
    · simp only [Option.map_none, reduceCtorEq, iff_false]
      rintro ⟨hend, hcap, -⟩
      exact h ⟨hend, hcap⟩
  by_cases hstap : b &&& 0x1F = nalTypeStapA
  · have hparse : p.parsePacket pkt = p.parseStapA (b :: bs) pkt.timestamp := by
      rw [parsePacket, hp, parse_cons hhdr, if_neg (by rw [hstap]; decide), if_neg hfu,
        if_pos hstap]
    rw [hparse, completed, hdrop]
    simp only [if_neg hfu, if_pos hstap]
    exact stapALoop_eq pkt.timestamp bs none
  · rw [parsePacket, hp, parse_singleNal hhdr p hfu hstap, completed, hdrop]
    simp only [if_neg hfu, if_neg hstap]
    rfl

theorem length_stapALast_le {n : ℕ} (rest : List UInt8) (last : Option (List UInt8))
    (hrest : rest.length ≤ n) (hlast : ∀ bytes ∈ last, bytes.length ≤ n) :
    ∀ bytes ∈ stapALast rest last, bytes.length ≤ n := by
  fun_induction stapALast rest last with
  | case1 last hi lo tail size hsize => exact hlast
  | case2 last hi lo tail size hsize ih =>
    simp only [List.length_cons] at hrest
    refine ih (by simp only [List.length_drop]; omega) fun bytes hbytes => ?_
    obtain rfl := Option.mem_some_iff.mp hbytes
    simp only [List.length_take]
    omega
  | case3 => exact hlast

/-- A unit is within the reassembly cap. -/
theorem length_completed_le (p : RtpParser) {pkt : StampedPacket}
    (hlen : pkt.payload.length ≤ 65535) {bytes : List UInt8} (h : p.completed pkt = some bytes) :
    bytes.length ≤ maxFuBufferBytes := by
  have hmax : maxFuBufferBytes = 1048576 := rfl
  unfold completed at h
  split at h
  · cases h
  · rename_i b bs hdrop
    have hbs : bs.length < 65535 := by
      have hle := List.length_drop (i := 12) (l := pkt.payload)
      rw [hdrop, List.length_cons] at hle
      omega
    split_ifs at h
    · obtain ⟨f, -, hf⟩ := Option.bind_eq_some_iff.mp h
      split_ifs at hf with hcap
      obtain rfl := Option.some.inj hf
      rw [List.length_append]
      exact hcap.2
    · have hle := length_stapALast_le bs none hbs.le (by simp) bytes h
      omega
    · obtain rfl := Option.some.inj h
      rw [List.length_cons]
      omega

theorem length_completed_lt (p : RtpParser) {pkt : StampedPacket}
    (hlen : pkt.payload.length ≤ 65535) {bytes : List UInt8} (h : p.completed pkt = some bytes) :
    bytes.length < 2 ^ 32 :=
  (length_completed_le p hlen h).trans_lt (by decide)

/-! ## The units of a run -/

/-- Whatever a packet returns is self-consistent. -/
def EmitsConsistent (before : List StampedPacket) (pkt : StampedPacket) : Prop :=
  ∀ nal, ((received before).parsePacket pkt).1 = some nal → SelfConsistent nal

/-- No start code hides the type of the unit that a packet completes. -/
def ShowsType (before : List StampedPacket) (pkt : StampedPacket) : Prop :=
  ∀ bytes, (received before).completed pkt = some bytes → ¬ HidesType bytes

theorem emitsConsistent_iff (before : List StampedPacket) {pkt : StampedPacket}
    (hlen : pkt.payload.length ≤ 65535) : EmitsConsistent before pkt ↔ ShowsType before pkt := by
  rw [EmitsConsistent, parsePacket_completed]
  constructor
  · intro h bytes hbytes
    rw [← selfConsistent_unitOf_iff (length_completed_lt _ hlen hbytes) pkt.timestamp]
    exact h _ (by rw [hbytes, Option.map_some])
  · intro h nal hnal
    obtain ⟨bytes, hbytes, rfl⟩ := Option.map_eq_some_iff.mp hnal
    exact (selfConsistent_unitOf_iff (length_completed_lt _ hlen hbytes) _).mpr (h bytes hbytes)

/-- **Emitted units are self-consistent** in a run, if and only if no start code hides the type of
a completed unit. -/
theorem selfConsistent_iff {pkts : List StampedPacket}
    (hlen : ∀ pkt ∈ pkts, pkt.payload.length ≤ 65535) :
    Checked EmitsConsistent pkts ↔ Checked ShowsType pkts := by
  refine forall_congr' fun before => forall_congr' fun pkt => forall_congr' fun rest =>
    imp_congr_right fun h => emitsConsistent_iff before (hlen pkt ?_)
  rw [h]
  exact List.mem_append_right before List.mem_cons_self

theorem selfConsistent_idr :
    Checked EmitsConsistent [⟨List.replicate 12 0 ++ [0x65, 1], 0⟩] := by
  refine (selfConsistent_iff (by decide)).mpr ?_
  rw [← List.nil_append [_], checked_snoc]
  refine ⟨.nil, fun bytes hbytes => ?_⟩
  obtain rfl : [0x65, 1] = bytes := Option.some.inj hbytes
  rintro ⟨b, bs, h | h, -⟩
  · cases h
  · cases h

/-- A keyframe behind a start code is reported with the type 0. -/
theorem not_selfConsistent_startCode :
    ¬ Checked EmitsConsistent [⟨List.replicate 12 0 ++ [0, 0, 0, 1, 0x65, 0xAA], 0⟩] := by
  intro h
  have hshows := (emitsConsistent_iff _ (by decide)).mp (h [] _ [] rfl)
  exact hshows [0, 0, 0, 1, 0x65, 0xAA] rfl ⟨0x65, [0xAA], Or.inl rfl, by decide⟩

end RtpParser

end Fosipcore
