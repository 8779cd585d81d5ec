import Fosipcore.Library.Trace
import Fosipcore.Video.Pipeline

/-!
# Reassembly of fragmented units

FU-A fragments are gathered from a start fragment to an end fragment. Sent in order, the
fragments of a unit give that unit back, whatever the depacketiser was doing before and whatever
other packets come in between. Read the other way, a unit that comes out was gathered from a
start fragment on, as long as no end fragment comes in while nothing is being gathered: the
branch of the end fragment does not ask for that.

## Main definitions

* `StampedPacket`, `RtpParser.received`: a packet, and the parser after the packets received so far
* `FuFragment`, `StampedPacket.fragment`: what the parser reads in an FU-A packet
* `Gathered`, `CompletesUnit`: the bytes that a history of fragments leaves pending, and the unit
  that an end fragment completes

## Main results

* `RtpParser.run_fragments`: reassembly undoes fragmentation
* `RtpParser.emits_complete_iff`: only complete reassemblies are emitted, unless an end fragment
  comes in with nothing gathered
-/

namespace Fosipcore

open BigEndian Transducer Trace

/-- An RTP packet as the depacketiser takes it. -/
structure StampedPacket where
  payload : List UInt8
  timestamp : UInt32
  deriving DecidableEq

/-- What the depacketiser reads in an FU-A packet of at least three bytes. Its names for the first
two bytes are those that the sender gives them, exchanged. -/
structure FuFragment where
  fuHeader : UInt8
  fuIndicator : UInt8
  fuData : List UInt8
  deriving DecidableEq

namespace FuFragment

def isStart (f : FuFragment) : Prop := f.fuIndicator &&& 0x80 ≠ 0

/-- The end bit is looked at behind the start bit. -/
def isEnd (f : FuFragment) : Prop := f.fuIndicator &&& 0x80 = 0 ∧ f.fuIndicator &&& 0x40 ≠ 0

instance (f : FuFragment) : Decidable f.isStart := inferInstanceAs (Decidable (_ ≠ _))
instance (f : FuFragment) : Decidable f.isEnd := inferInstanceAs (Decidable (_ ∧ _))

/-- The header byte of the fragmented unit. -/
def nalHeader (f : FuFragment) : UInt8 := (f.fuHeader &&& 0xE0) ||| (f.fuIndicator &&& 0x1F)

theorem isEnd.not_isStart {f : FuFragment} (h : f.isEnd) : ¬ f.isStart := fun hs => hs h.1

end FuFragment

namespace StampedPacket

/-- The packet carries a NAL header of type 28. -/
def isFuA (pkt : StampedPacket) : Bool :=
  match pkt.payload.drop 12 with
  | [] => false
  | b :: _ => b &&& 0x1F == nalTypeFuA

/-- The fragment in an FU-A packet, unless it is too short to carry any data. -/
def fragment (pkt : StampedPacket) : Option FuFragment :=
  match pkt.payload.drop 12 with
  | h :: i :: b :: bs => if h &&& 0x1F = nalTypeFuA then some ⟨h, i, b :: bs⟩ else none
  | _ => none

end StampedPacket

/-- A unit with the given bytes, as the depacketiser returns it. -/
def unitOf (timestamp : UInt32) (bytes : List UInt8) : NalUnit :=
  let nalType := bytes.head?.getD 0 &&& 0x1F
  ⟨toAvccFormat bytes, nalType, nalType == nalTypeIdr, timestamp⟩

/-- The packet of a fragment, sent with a timestamp. -/
def fragmentPacket (header : UInt8) (isStart isEnd : Bool) (f : Fragment × UInt32) :
    StampedPacket :=
  ⟨f.1.rtpHeader ++ fuIndicator header :: fuHeader isStart isEnd header :: f.1.data, f.2⟩

namespace RtpParser

def parsePacket (p : RtpParser) (pkt : StampedPacket) : Option NalUnit × RtpParser :=
  p.parse pkt.payload pkt.timestamp

/-- The parser after the packets that a fresh one has received. -/
def received (pkts : List StampedPacket) : RtpParser :=
  pkts.foldl (fun p pkt => (p.parsePacket pkt).2) .new

theorem received_snoc (pkts : List StampedPacket) (pkt : StampedPacket) :
    received (pkts ++ [pkt]) = ((received pkts).parsePacket pkt).2 := by
  simp [received]

/-! ## What a packet does -/

/-- A payload is too short, or has a NAL header behind its twelve bytes. -/
theorem payload_cases (payload : List UInt8) :
    payload.length < 13 ∧ payload.drop 12 = [] ∨
      ∃ hdr b bs, payload = hdr ++ b :: bs ∧ hdr.length = 12 ∧ payload.drop 12 = b :: bs := by
  cases hdrop : payload.drop 12 with
  | nil =>
    have hlen := List.drop_eq_nil_iff.mp hdrop
    exact Or.inl ⟨by omega, rfl⟩
  | cons b bs =>
    have hlen : (payload.drop 12).length = bs.length + 1 := by rw [hdrop, List.length_cons]
    rw [List.length_drop] at hlen
    exact Or.inr ⟨payload.take 12, b, bs, by rw [← hdrop, List.take_append_drop],
      by rw [List.length_take]; omega, rfl⟩

/-- **A packet that is no FU-A packet** leaves the reassembly alone. -/
theorem parsePacket_of_not_fuA (p : RtpParser) {pkt : StampedPacket} (h : pkt.isFuA = false) :
    (p.parsePacket pkt).2 = p := by
  rcases payload_cases pkt.payload with ⟨hshort, -⟩ | ⟨hdr, b, bs, hp, hhdr, hdrop⟩
  · simp [parsePacket, parse, hshort]
  · have htype : b &&& 0x1F ≠ nalTypeFuA := by
      simpa [StampedPacket.isFuA, hdrop] using h
    rw [parsePacket, hp, parse_cons hhdr, if_neg htype]
    split_ifs
    · rfl
    · rfl
    · rfl

/-- An FU-A packet without a fragment is dropped. -/
theorem parsePacket_of_short (p : RtpParser) {pkt : StampedPacket} (hfu : pkt.isFuA = true)
    (h : pkt.fragment = none) : p.parsePacket pkt = (none, p) := by
  rcases payload_cases pkt.payload with ⟨-, hdrop⟩ | ⟨hdr, b, bs, hp, hhdr, hdrop⟩
  · simp [StampedPacket.isFuA, hdrop] at hfu
  · have htype : b &&& 0x1F = nalTypeFuA := by
      simpa [StampedPacket.isFuA, hdrop] using hfu
    rw [parsePacket, hp, parse_fuA hhdr p htype]
    -- with two more bytes it would be a fragment
    match bs with
    | [] => rfl
    | [_] => rfl
    | i :: c :: cs => simp [StampedPacket.fragment, hdrop, htype] at h

/-- A packet without a fragment leaves the reassembly alone. -/
theorem parsePacket_of_no_fragment (p : RtpParser) {pkt : StampedPacket}
    (h : pkt.fragment = none) : (p.parsePacket pkt).2 = p := by
  cases hfu : pkt.isFuA with
  | false => exact parsePacket_of_not_fuA p hfu
  | true => rw [parsePacket_of_short p hfu h]

theorem isFuA_of_fragment {pkt : StampedPacket} {f : FuFragment} (h : pkt.fragment = some f) :
    pkt.isFuA = true := by
  unfold StampedPacket.fragment at h
  split at h
  · rename_i hdrop
    split_ifs at h with htype
    simp [StampedPacket.isFuA, hdrop, htype]
  · cases h

/-- A fragment reaches the FU-A branch, with some data. -/
theorem parsePacket_fragment (p : RtpParser) {pkt : StampedPacket} {f : FuFragment}
    (h : pkt.fragment = some f) :
    f.fuData ≠ [] ∧
      p.parsePacket pkt = p.parseFuA (f.fuHeader :: f.fuIndicator :: f.fuData) pkt.timestamp := by
  rcases payload_cases pkt.payload with ⟨-, hdrop⟩ | ⟨hdr, b, bs, hp, hhdr, hdrop⟩
  · simp [StampedPacket.fragment, hdrop] at h
  · unfold StampedPacket.fragment at h
    rw [hdrop] at h
    split at h
    · rename_i heq
      obtain ⟨rfl, rfl⟩ := List.cons.inj heq
      split_ifs at h with htype
      obtain rfl := Option.some.inj h
      refine ⟨by simp, ?_⟩
      rw [parsePacket, hp, parse_fuA hhdr p htype]
    · cases h

/-- A start fragment begins a reassembly, whatever was gathered before. -/
theorem parsePacket_start (p : RtpParser) {pkt : StampedPacket} {f : FuFragment}
    (h : pkt.fragment = some f) (hstart : f.isStart) :
    p.parsePacket pkt =
      (none, if 1 + f.fuData.length ≤ maxFuBufferBytes then ⟨f.nalHeader :: f.fuData, true⟩
        else new) := by
  obtain ⟨hne, hparse⟩ := parsePacket_fragment p h
  rw [hparse]
  split_ifs with hcap
  · exact parseFuA_start p hstart hne hcap _
  · obtain ⟨b, bs, hdata⟩ := List.exists_cons_of_ne_nil hne
    have happ : fuBufferAppend [f.nalHeader] (b :: bs) = none :=
      if_pos (by rw [← hdata]; simpa using hcap)
    have hs : f.fuIndicator &&& 0x80 ≠ 0 := hstart
    rw [FuFragment.nalHeader] at happ
    simp only [hdata, parseFuA, if_pos hs, happ, new]

/-- An end fragment completes whatever is in the buffer. -/
theorem parsePacket_end (p : RtpParser) {pkt : StampedPacket} {f : FuFragment}
    (h : pkt.fragment = some f) (hend : f.isEnd) :
    p.parsePacket pkt =
      (if p.fuBuffer.length + f.fuData.length ≤ maxFuBufferBytes then
        some (unitOf pkt.timestamp (p.fuBuffer ++ f.fuData)) else none, new) := by
  obtain ⟨hne, hparse⟩ := parsePacket_fragment p h
  obtain ⟨b, bs, hdata⟩ := List.exists_cons_of_ne_nil hne
  rw [hparse, hdata]
  split_ifs with hcap
  · have happ : fuBufferAppend p.fuBuffer (b :: bs) = some (p.fuBuffer ++ b :: bs) :=
      if_neg (by omega)
    simp [parseFuA, hend.1, hend.2, happ, unitOf, new]
  · have happ : fuBufferAppend p.fuBuffer (b :: bs) = none := if_pos (by omega)
    simp [parseFuA, hend.1, hend.2, happ, new]

/-- A continuation extends an active reassembly, or gives it up at the cap. -/
theorem parsePacket_continue (p : RtpParser) {pkt : StampedPacket} {f : FuFragment}
    (h : pkt.fragment = some f) (hstart : ¬ f.isStart) (hend : ¬ f.isEnd) :
    p.parsePacket pkt =
      (none, if p.fuActive then
        if p.fuBuffer.length + f.fuData.length ≤ maxFuBufferBytes then
          ⟨p.fuBuffer ++ f.fuData, true⟩ else new
        else p) := by
  obtain ⟨hne, hparse⟩ := parsePacket_fragment p h
  obtain ⟨b, bs, hdata⟩ := List.exists_cons_of_ne_nil hne
  have hs : f.fuIndicator &&& 0x80 = 0 := not_not.mp hstart
  have he : f.fuIndicator &&& 0x40 = 0 := by
    by_contra he
    exact hend ⟨hs, he⟩
  rw [hparse, hdata]
  cases hactive : p.fuActive with
  | false => simp [parseFuA, hs, he, hactive]
  | true =>
    by_cases hcap : p.fuBuffer.length + (b :: bs).length ≤ maxFuBufferBytes
    · have happ : fuBufferAppend p.fuBuffer (b :: bs) = some (p.fuBuffer ++ b :: bs) :=
        if_neg (by omega)
      simp only [parseFuA, hs, he, hactive, happ, hcap, ne_eq, not_true_eq_false, if_false,
        Bool.not_true, Bool.false_eq_true, if_true]
    · have happ : fuBufferAppend p.fuBuffer (b :: bs) = none := if_pos (by omega)
      simp only [parseFuA, hs, he, hactive, happ, hcap, ne_eq, not_true_eq_false, if_false,
        Bool.not_true, Bool.false_eq_true, if_true, new]

/-! ## Reassembly undoes fragmentation -/

theorem fragment_fragmentPacket (header : UInt8) (s e : Bool) (f : Fragment × UInt32) :
    (fragmentPacket header s e f).fragment =
      some ⟨fuIndicator header, Fosipcore.fuHeader s e header, f.1.data⟩ := by
  obtain ⟨b, bs, hdata⟩ := List.exists_cons_of_ne_nil f.1.data_ne_nil
  have hdrop : (fragmentPacket header s e f).payload.drop 12 =
      fuIndicator header :: Fosipcore.fuHeader s e header :: f.1.data :=
    List.drop_left' f.1.rtpHeader_length
  simp only [StampedPacket.fragment, hdrop, hdata, fuIndicator_type, if_true]

theorem unitOf_of_ne_zero {header : UInt8} (h : header ≠ 0) (body : List UInt8) (ts : UInt32) :
    unitOf ts (header :: body) =
      ⟨toBytes 4 (header :: body).length ++ header :: body, header &&& 0x1F,
        header &&& 0x1F == nalTypeIdr, ts⟩ := by
  rw [unitOf, toAvccFormat_of_ne_zero h]
  rfl

/-- The first fragment starts the buffer with the header byte of the unit. -/
theorem parsePacket_first (p : RtpParser) (header : UInt8) (f : Fragment × UInt32)
    (hcap : 1 + f.1.data.length ≤ maxFuBufferBytes) :
    p.parsePacket (fragmentPacket header true false f) =
      (none, ⟨header :: f.1.data, true⟩) := by
  have hstart : FuFragment.isStart
      ⟨fuIndicator header, Fosipcore.fuHeader true false header, f.1.data⟩ := by
    rw [FuFragment.isStart, ne_eq, fuHeader_start]
    decide
  rw [parsePacket_start p (fragment_fragmentPacket header true false f) hstart, if_pos hcap,
    FuFragment.nalHeader, fuHeader_rebuild]

/-- A middle fragment extends the buffer. -/
theorem parsePacket_middle (header : UInt8) (f : Fragment × UInt32) {buf : List UInt8}
    (hcap : buf.length + f.1.data.length ≤ maxFuBufferBytes) :
    parsePacket ⟨buf, true⟩ (fragmentPacket header false false f) =
      (none, ⟨buf ++ f.1.data, true⟩) := by
  have hstart : ¬ FuFragment.isStart
      ⟨fuIndicator header, Fosipcore.fuHeader false false header, f.1.data⟩ := by
    rw [FuFragment.isStart, not_not, fuHeader_start]
  have hend : ¬ FuFragment.isEnd
      ⟨fuIndicator header, Fosipcore.fuHeader false false header, f.1.data⟩ := by
    rintro ⟨-, hend⟩
    exact hend ((fuHeader_end _ _ _).mpr rfl)
  rw [parsePacket_continue _ (fragment_fragmentPacket header false false f) hstart hend,
    if_pos rfl, if_pos hcap]

/-- The last fragment completes the unit. -/
theorem parsePacket_last (header : UInt8) (f : Fragment × UInt32) {buf : List UInt8}
    (hcap : buf.length + f.1.data.length ≤ maxFuBufferBytes) :
    parsePacket ⟨buf, true⟩ (fragmentPacket header false true f) =
      (some (unitOf f.2 (buf ++ f.1.data)), new) := by
  have hend : FuFragment.isEnd
      ⟨fuIndicator header, Fosipcore.fuHeader false true header, f.1.data⟩ := by
    refine ⟨(fuHeader_start _ _ _).mpr rfl, ?_⟩
    rw [ne_eq, fuHeader_end]
    decide
  rw [parsePacket_end _ (fragment_fragmentPacket header false true f) hend, if_pos hcap]
  rfl

/-- The middle fragments extend the buffer, and nothing is returned. -/
theorem run_middle (header : UInt8) (middle : List (Fragment × UInt32)) :
    ∀ buf : List UInt8,
      buf.length + ((middle.map fun f => f.1.data).flatten).length ≤ maxFuBufferBytes →
      run (traced parsePacket) ⟨buf, true⟩ (middle.map (fragmentPacket header false false)) =
        (middle.map fun f => (fragmentPacket header false false f, none),
          ⟨buf ++ (middle.map fun f => f.1.data).flatten, true⟩) := by
  induction middle with
  | nil =>
    intro buf _
    simp
  | cons f middle ih =>
    intro buf hcap
    simp only [List.map_cons, List.flatten_cons, List.length_append] at hcap
    rw [List.map_cons, run_traced_cons, parsePacket_middle header f (by omega),
      ih _ (by rw [List.length_append]; omega)]
    simp only [List.map_cons, List.flatten_cons, List.append_assoc]

/-- **Reassembly undoes fragmentation**: from any state, and with any packets of other types in
between, the fragments of a unit return nothing but the last one, which returns the unit. -/
theorem run_fragments (p : RtpParser) {header : UInt8} (hheader : header ≠ 0) {body : List UInt8}
    (hcap : (header :: body).length ≤ maxFuBufferBytes) {first last : Fragment × UInt32}
    {middle : List (Fragment × UInt32)}
    (hbody : first.1.data ++ ((middle.map fun f => f.1.data).flatten ++ last.1.data) = body)
    {pkts : List StampedPacket}
    (hpkts : pkts.filter StampedPacket.isFuA = fragmentPacket header true false first ::
      (middle.map (fragmentPacket header false false) ++
        [fragmentPacket header false true last])) :
    (run (traced parsePacket) p pkts).1.filter (fun r => r.1.isFuA) =
        (fragmentPacket header true false first, none) ::
          ((middle.map fun f => (fragmentPacket header false false f, none)) ++
            [(fragmentPacket header false true last,
              some ⟨toBytes 4 (header :: body).length ++ header :: body, header &&& 0x1F,
                header &&& 0x1F == nalTypeIdr, last.2⟩)]) ∧
      (run (traced parsePacket) p pkts).2 = new := by
  have hfilter := run_traced_filter (A := StampedPacket.isFuA) (f := parsePacket)
    (fun s _ hi => parsePacket_of_not_fuA s hi) p pkts
  have hle := hcap
  rw [List.length_cons, ← hbody] at hle
  simp only [List.length_append] at hle
  have hrun : run (traced parsePacket) p (pkts.filter StampedPacket.isFuA) =
      ((fragmentPacket header true false first, none) ::
          ((middle.map fun f => (fragmentPacket header false false f, none)) ++
            [(fragmentPacket header false true last, some (unitOf last.2 (header :: body)))]),
        new) := by
    rw [hpkts, run_traced_cons, parsePacket_first p header first (by omega), run_append,
      run_middle header middle _ (by rw [List.length_cons]; omega), run_traced_cons, run_nil,
      parsePacket_last header last
        (by simp only [List.length_append, List.length_cons]; omega)]
    simp only [List.cons_append, List.append_assoc, hbody]
  rw [hfilter, unitOf_of_ne_zero hheader] at hrun
  exact ⟨congrArg Prod.fst hrun, congrArg Prod.snd hrun⟩

/-- A unit of three bytes in two fragments, with a single unit in between. -/
theorem run_fragments_two :
    (run (traced parsePacket) ⟨[1, 2], true⟩
      [⟨List.replicate 12 0 ++ [0x7C, 0x85, 1], 3⟩, ⟨List.replicate 12 0 ++ [0x41, 9], 3⟩,
        ⟨List.replicate 12 0 ++ [0x7C, 0x45, 2], 4⟩]).2 = new := by
  have hbody : [1] ++ ((([] : List (Fragment × UInt32)).map fun f => f.1.data).flatten ++ [2]) =
      ([1, 2] : List UInt8) := rfl
  exact (@run_fragments ⟨[1, 2], true⟩ 0x65 (by decide) [1, 2] (by decide)
    (⟨List.replicate 12 0, [1], rfl, by simp⟩, 3) (⟨List.replicate 12 0, [2], rfl, by simp⟩, 4) []
    hbody _ (by decide)).2

end RtpParser

/-! ## What a history of fragments leaves pending -/

/-- The fragments in the packets. -/
def fragments (pkts : List StampedPacket) : List FuFragment := pkts.filterMap StampedPacket.fragment

/-- **A reassembly is active** after the fragments, with the given bytes: the header byte and the
data of the most recent start fragment, followed by the data of the fragments since, none of
which ended the unit or overflowed the cap. -/
def Gathered (fs : List FuFragment) (bytes : List UInt8) : Prop :=
  ∃ before start middle, fs = before ++ start :: middle ∧ start.isStart ∧
    (∀ f ∈ middle, ¬ f.isStart ∧ ¬ f.isEnd) ∧
    bytes = start.nalHeader :: start.fuData ++ middle.flatMap FuFragment.fuData ∧
    bytes.length ≤ maxFuBufferBytes

/-- The packet is an end fragment of an active reassembly, and the unit has the bytes gathered
for it, within the cap; in front of them stands their length. -/
def CompletesUnit (fs : List FuFragment) (pkt : StampedPacket) (nal : NalUnit) : Prop :=
  ∃ f bytes, pkt.fragment = some f ∧ f.isEnd ∧ Gathered fs bytes ∧
    (bytes ++ f.fuData).length ≤ maxFuBufferBytes ∧
    nal.data = toAvccFormat (bytes ++ f.fuData) ∧
    (bytes.head? ≠ some 0 →
      nal.data = toBytes 4 (bytes ++ f.fuData).length ++ (bytes ++ f.fuData))

theorem fragments_snoc_some (pkts : List StampedPacket) {pkt : StampedPacket} {f : FuFragment}
    (h : pkt.fragment = some f) : fragments (pkts ++ [pkt]) = fragments pkts ++ [f] := by
  simp [fragments, List.filterMap_append, h]

theorem fragments_snoc_none (pkts : List StampedPacket) {pkt : StampedPacket}
    (h : pkt.fragment = none) : fragments (pkts ++ [pkt]) = fragments pkts := by
  simp [fragments, List.filterMap_append, h]

theorem not_gathered_nil (bytes : List UInt8) : ¬ Gathered [] bytes := by
  rintro ⟨before, start, middle, h, -⟩
  simp at h

/-- A start fragment is the most recent one, whatever came before. -/
theorem gathered_snoc_start (fs : List FuFragment) {f : FuFragment} (hf : f.isStart)
    (bytes : List UInt8) :
    Gathered (fs ++ [f]) bytes ↔
      bytes = f.nalHeader :: f.fuData ∧ bytes.length ≤ maxFuBufferBytes := by
  constructor
  · rintro ⟨before, start, middle, hfs, -, hmiddle, hbytes, hcap⟩
    rcases List.eq_nil_or_concat middle with rfl | ⟨middle, g, rfl⟩
    · obtain ⟨-, rfl⟩ := List.append_singleton_inj.mp hfs
      refine ⟨?_, hcap⟩
      simpa using hbytes
    · -- the fragments since the start would hold another start
      rw [List.concat_eq_append] at *
      rw [← List.cons_append, ← List.append_assoc] at hfs
      obtain ⟨-, rfl⟩ := List.append_singleton_inj.mp hfs
      exact absurd hf (hmiddle f (by simp)).1
  · rintro ⟨rfl, hcap⟩
    exact ⟨fs, f, [], rfl, hf, by simp, by simp, hcap⟩

/-- After an end fragment nothing is pending. -/
theorem not_gathered_snoc_end (fs : List FuFragment) {f : FuFragment} (hf : f.isEnd)
    (bytes : List UInt8) : ¬ Gathered (fs ++ [f]) bytes := by
  rintro ⟨before, start, middle, hfs, hstart, hmiddle, -⟩
  rcases List.eq_nil_or_concat middle with rfl | ⟨middle, g, rfl⟩
  · obtain ⟨-, rfl⟩ := List.append_singleton_inj.mp hfs
    exact hf.not_isStart hstart
  · rw [List.concat_eq_append] at *
    rw [← List.cons_append, ← List.append_assoc] at hfs
    obtain ⟨-, rfl⟩ := List.append_singleton_inj.mp hfs
    exact (hmiddle f (by simp)).2 hf

/-- A continuation extends what is pending. -/
theorem gathered_snoc_continue (fs : List FuFragment) {f : FuFragment} (hstart : ¬ f.isStart)
    (hend : ¬ f.isEnd) (bytes : List UInt8) :
    Gathered (fs ++ [f]) bytes ↔
      ∃ pending, Gathered fs pending ∧ bytes = pending ++ f.fuData ∧
        bytes.length ≤ maxFuBufferBytes := by
  constructor
  · rintro ⟨before, start, middle, hfs, hs, hmiddle, rfl, hcap⟩
    rcases List.eq_nil_or_concat middle with rfl | ⟨middle, g, rfl⟩
    · obtain ⟨-, rfl⟩ := List.append_singleton_inj.mp hfs
      exact absurd hs hstart
    · rw [List.concat_eq_append] at *
      rw [← List.cons_append, ← List.append_assoc] at hfs
      obtain ⟨rfl, rfl⟩ := List.append_singleton_inj.mp hfs
      have hbytes : start.nalHeader :: start.fuData ++
          (middle ++ [f]).flatMap FuFragment.fuData =
          (start.nalHeader :: start.fuData ++ middle.flatMap FuFragment.fuData) ++ f.fuData := by
        simp [List.flatMap_append]
      rw [hbytes] at hcap ⊢
      refine ⟨_, ⟨before, start, middle, rfl, hs, ?_, rfl, ?_⟩, rfl, hcap⟩
      · intro g hg
        exact hmiddle g (List.mem_append_left _ hg)
      · rw [List.length_append] at hcap
        omega
  · rintro ⟨_, ⟨before, start, middle, rfl, hs, hmiddle, rfl, -⟩, rfl, hcap⟩
    refine ⟨before, start, middle ++ [f], by simp, hs, ?_, by simp [List.flatMap_append], hcap⟩
    intro g hg
    rcases List.mem_append.mp hg with hg | hg
    · exact hmiddle g hg
    · obtain rfl := List.mem_singleton.mp hg
      exact ⟨hstart, hend⟩

namespace RtpParser

/-! ## Only complete reassemblies are emitted -/

/-- The parser holds the bytes that the fragments so far leave pending, and none when they leave
nothing pending. -/
structure Tracks (fs : List FuFragment) (p : RtpParser) : Prop where
  gathered : ∀ bytes, Gathered fs bytes ↔ p.fuActive = true ∧ p.fuBuffer = bytes
  idle : p.fuActive = false → p.fuBuffer = []

theorem tracks_new {fs : List FuFragment} (h : ∀ bytes, ¬ Gathered fs bytes) : Tracks fs new :=
  ⟨fun bytes => iff_of_false (h bytes) (by simp [new]), fun _ => rfl⟩

/-- **One packet** keeps the parser in step with its history. -/
theorem Tracks.step {pkts : List StampedPacket} {p : RtpParser} (h : Tracks (fragments pkts) p)
    (pkt : StampedPacket) : Tracks (fragments (pkts ++ [pkt])) (p.parsePacket pkt).2 := by
  cases hf : pkt.fragment with
  | none =>
    rwa [fragments_snoc_none pkts hf, parsePacket_of_no_fragment p hf]
  | some f =>
    rw [fragments_snoc_some pkts hf]
    by_cases hstart : f.isStart
    · have hsnoc := gathered_snoc_start (fragments pkts) hstart
      rw [parsePacket_start p hf hstart]
      split_ifs with hcap
      · refine ⟨fun bytes => (hsnoc bytes).trans ?_, by simp⟩
        constructor
        · rintro ⟨rfl, -⟩
          exact ⟨rfl, rfl⟩
        · rintro ⟨-, rfl⟩
          exact ⟨rfl, by simpa [Nat.add_comm] using hcap⟩
      · refine tracks_new fun bytes hb => hcap ?_
        obtain ⟨rfl, hle⟩ := (hsnoc bytes).mp hb
        simpa [Nat.add_comm] using hle
    by_cases hend : f.isEnd
    · rw [parsePacket_end p hf hend]
      exact tracks_new (not_gathered_snoc_end (fragments pkts) hend)
    · have hsnoc := gathered_snoc_continue (fragments pkts) hstart hend
      rw [parsePacket_continue p hf hstart hend]
      split_ifs with hactive hcap
      · refine ⟨fun bytes => (hsnoc bytes).trans ?_, by simp⟩
        constructor
        · rintro ⟨pending, hpending, rfl, -⟩
          exact ⟨rfl, by rw [((h.gathered pending).mp hpending).2]⟩
        · rintro ⟨-, rfl⟩
          exact ⟨_, (h.gathered _).mpr ⟨hactive, rfl⟩, rfl, by simpa using hcap⟩
      · -- what was gathered would overflow the cap
        refine tracks_new fun bytes hb => hcap ?_
        obtain ⟨pending, hpending, rfl, hle⟩ := (hsnoc bytes).mp hb
        rw [((h.gathered pending).mp hpending).2]
        simpa using hle
      · -- a continuation without a start adds nothing
        refine ⟨fun bytes => iff_of_false ?_ (by simp [hactive]), h.idle⟩
        rintro hb
        obtain ⟨pending, hpending, -⟩ := (hsnoc bytes).mp hb
        exact hactive ((h.gathered pending).mp hpending).1

theorem tracks_received (pkts : List StampedPacket) : Tracks (fragments pkts) (received pkts) := by
  induction pkts using List.reverseRecOn with
  | nil => exact tracks_new not_gathered_nil
  | append_singleton pkts pkt ih =>
    rw [received_snoc]
    exact ih.step pkt

/-- An FU-A packet returns a unit just when it is an end fragment that fits the buffer. -/
theorem parsePacket_eq_some_iff (p : RtpParser) {pkt : StampedPacket} (hfu : pkt.isFuA = true)
    (nal : NalUnit) :
    (p.parsePacket pkt).1 = some nal ↔
      ∃ f, pkt.fragment = some f ∧ f.isEnd ∧
        p.fuBuffer.length + f.fuData.length ≤ maxFuBufferBytes ∧
        unitOf pkt.timestamp (p.fuBuffer ++ f.fuData) = nal := by
  cases hf : pkt.fragment with
  | none => simp [parsePacket_of_short p hfu hf]
  | some f =>
    by_cases hstart : f.isStart
    · have hend : ¬ f.isEnd := fun hend => hend.not_isStart hstart
      simp [parsePacket_start p hf hstart, hend]
    by_cases hend : f.isEnd
    · rw [parsePacket_end p hf hend]
      simp [hend]
    · simp [parsePacket_continue p hf hstart hend, hend]

/-- Whatever an FU-A packet returns is the unit that it completes. -/
def EmitsComplete (before : List StampedPacket) (pkt : StampedPacket) : Prop :=
  ∀ nal, pkt.isFuA = true → ((received before).parsePacket pkt).1 = some nal →
    CompletesUnit (fragments before) pkt nal

/-- An end fragment finds a reassembly under way, unless it is too long for the buffer. -/
def EndsActive (before : List StampedPacket) (pkt : StampedPacket) : Prop :=
  ∀ f, pkt.fragment = some f → f.isEnd → f.fuData.length ≤ maxFuBufferBytes →
    (received before).fuActive = true

theorem emitsComplete_iff (before : List StampedPacket) (pkt : StampedPacket) :
    EmitsComplete before pkt ↔ EndsActive before pkt := by
  have htracks := tracks_received before
  constructor
  · intro h f hf hend hcap
    by_contra hidle
    have hbuf := htracks.idle (by simpa using hidle)
    have hfu := isFuA_of_fragment hf
    have hemit : ((received before).parsePacket pkt).1 =
        some (unitOf pkt.timestamp ((received before).fuBuffer ++ f.fuData)) :=
      (parsePacket_eq_some_iff _ hfu _).mpr ⟨f, hf, hend, by simpa [hbuf] using hcap, rfl⟩
    obtain ⟨-, bytes, -, -, hgathered, -⟩ := h _ hfu hemit
    exact hidle ((htracks.gathered bytes).mp hgathered).1
  · rintro h nal hfu hemit
    obtain ⟨f, hf, hend, hcap, rfl⟩ := (parsePacket_eq_some_iff _ hfu nal).mp hemit
    have hactive := h f hf hend (by omega)
    refine ⟨f, (received before).fuBuffer, hf, hend, (htracks.gathered _).mpr ⟨hactive, rfl⟩,
      by simpa using hcap, rfl, fun hne => ?_⟩
    obtain ⟨-, start, middle, -, -, -, hbytes, -⟩ := (htracks.gathered _).mpr ⟨hactive, rfl⟩
    have hheader : start.nalHeader ≠ 0 := by
      rintro h0
      rw [hbytes, h0] at hne
      exact hne rfl
    rw [hbytes]
    exact toAvccFormat_of_ne_zero hheader _

/-- **Nothing but complete reassemblies is emitted** in a run, if and only if no end fragment
comes in while nothing is being gathered. -/
theorem emits_complete_iff (pkts : List StampedPacket) :
    Checked EmitsComplete pkts ↔ Checked EndsActive pkts :=
  forall_congr' fun before => forall_congr' fun pkt => forall_congr' fun _ =>
    imp_congr_right fun _ => emitsComplete_iff before pkt

/-- A lone end fragment is emitted as a unit. -/
theorem emits_lone_end :
    ¬ Checked EmitsComplete [⟨List.replicate 12 0 ++ [0x7C, 0x45, 0xAA], 0⟩] := by
  intro h
  have hactive := (emitsComplete_iff _ _).mp (h [] _ [] rfl)
  exact absurd (hactive ⟨0x7C, 0x45, [0xAA]⟩ rfl (by decide) (by decide)) (by decide)

end RtpParser

end Fosipcore
