import Fosipcore.Video.RtpParser

/-!
# Aggregation packets

A STAP-A packet is a header byte and entries: a unit each, behind the two bytes of its size. The
depacketiser walks over the entries as long as there is a complete one, and returns the last unit.
Whatever follows the last complete entry is dropped.

The loop of the depacketiser reads at an offset. Here its accesses are checked, and none of them is
out of range.

## Main definitions

* `entries`, `NoEntry`: the entries of units, and a tail that begins with no complete entry
* `avccUnit`: a unit behind its length
* `RtpParser.stapAScan`: the loop with its offset, and with checked accesses

## Main results

* `RtpParser.stapAScan_eq`: no access is out of range
* `RtpParser.stapALoop_entries`: the loop returns the last unit
* `RtpParser.parse_entries`: what becomes of an aggregation packet
-/

namespace Fosipcore

open BigEndian

/-! ## Entries -/

/-- Every unit behind its size. -/
def entries (units : List (List UInt8)) : List UInt8 :=
  units.flatMap fun unit => toBytes 2 unit.length ++ unit

/-- There is no complete entry at the front: there is no size, or not as much as it says. -/
def NoEntry (tail : List UInt8) : Prop :=
  tail.length < 2 ∨
    ∃ hi lo rest, tail = hi :: lo :: rest ∧ rest.length < hi.toNat * 256 + lo.toNat

/-- A unit in AVCC form: its bytes behind their length, with the type of its first byte. -/
def avccUnit (timestamp : UInt32) (bytes : List UInt8) : NalUnit :=
  let nalType := bytes.head?.getD 0 &&& 0x1F
  ⟨toBytes 4 bytes.length ++ bytes, nalType, nalType == nalTypeIdr, timestamp⟩

namespace RtpParser

/-! ## Checked accesses -/

/-- A slice of a buffer; `none` where it is out of range. -/
def slice (data : List UInt8) (start stop : ℕ) : Option (List UInt8) :=
  if start ≤ stop ∧ stop ≤ data.length then some ((data.drop start).take (stop - start)) else none

/-- The loop over an aggregation packet, as it reads at its offset: `none` where an access is out of
range. -/
def stapAScan (timestamp : UInt32) (rest : List UInt8) (offset : ℕ) (lastNal : Option NalUnit) :
    Option (Option NalUnit) :=
  if _h : offset + 2 ≤ rest.length then do
    let hi ← rest[offset]?
    let lo ← rest[offset + 1]?
    let size := hi.toNat * 256 + lo.toNat
    if offset + 2 + size > rest.length then some lastNal
    else
      let nalData ← slice rest (offset + 2) (offset + 2 + size)
      stapAScan timestamp rest (offset + 2 + size) (some (stapANal nalData timestamp))
  else some lastNal
termination_by rest.length - offset
decreasing_by omega

/-- Parse a STAP-A aggregation packet, with checked accesses. -/
def scanStapA (rtpPayload : List UInt8) (timestamp : UInt32) : Option (Option NalUnit) := do
  let rest ← slice rtpPayload 1 rtpPayload.length
  stapAScan timestamp rest 0 none

theorem stapALoop_short (ts : UInt32) {tail : List UInt8} (h : tail.length < 2)
    (last : Option NalUnit) : stapALoop ts tail last = last := by
  rw [stapALoop]
  rintro hi lo rest rfl
  simp only [List.length_cons] at h
  omega

theorem slice_eq {data : List UInt8} {start stop : ℕ} (h : start ≤ stop)
    (hstop : stop ≤ data.length) :
    slice data start stop = some ((data.drop start).take (stop - start)) := if_pos ⟨h, hstop⟩

/-- **No access is out of range**, and the loop at an offset is the loop over what is left. -/
theorem stapAScan_eq (ts : UInt32) (rest : List UInt8) (offset : ℕ) (last : Option NalUnit) :
    stapAScan ts rest offset last = some (stapALoop ts (rest.drop offset) last) := by
  induction hn : rest.length - offset using Nat.strong_induction_on generalizing offset last with
  | _ n ih =>
    rw [stapAScan]
    split_ifs with hsize
    · have hlo : offset + 1 < rest.length := by omega
      have hhi : offset < rest.length := by omega
      have hdrop : rest.drop offset = rest[offset] :: rest[offset + 1] :: rest.drop (offset + 2) := by
        rw [List.drop_eq_getElem_cons hhi, List.drop_eq_getElem_cons hlo]
      rw [List.getElem?_eq_getElem hhi, List.getElem?_eq_getElem hlo, hdrop, stapALoop]
      simp only [Option.bind_eq_bind, Option.bind_some]
      generalize hdeclared : rest[offset].toNat * 256 + rest[offset + 1].toNat = size
      have hleft : size > (rest.drop (offset + 2)).length ↔ offset + 2 + size > rest.length := by
        rw [List.length_drop]
        omega
      by_cases htruncated : offset + 2 + size > rest.length
      · rw [if_pos htruncated, if_pos (hleft.mpr htruncated)]
      · -- the unit is complete, and the loop goes on behind it
        rw [if_neg htruncated, if_neg (mt hleft.mp htruncated),
          slice_eq (Nat.le_add_right _ _) (Nat.le_of_not_lt htruncated), Option.bind_some,
          ih _ (by omega) _ _ rfl, Nat.add_sub_cancel_left, List.drop_drop]
    · -- there are no two bytes left
      have hshort : (rest.drop offset).length < 2 := by
        rw [List.length_drop]
        omega
      rw [stapALoop_short ts hshort]

/-! ## The last unit -/

theorem stapALoop_noEntry (ts : UInt32) {tail : List UInt8} (h : NoEntry tail)
    (last : Option NalUnit) : stapALoop ts tail last = last := by
  rcases h with hshort | ⟨hi, lo, rest, rfl, hlt⟩
  · exact stapALoop_short ts hshort last
  · rw [stapALoop]
    exact if_pos hlt

/-- A complete unit replaces the one kept so far. -/
theorem stapALoop_entry (ts : UInt32) {unit : List UInt8} (hlt : unit.length < 2 ^ 16)
    (rest : List UInt8) (last : Option NalUnit) :
    stapALoop ts (toBytes 2 unit.length ++ unit ++ rest) last =
      stapALoop ts rest (some (stapANal unit ts)) := by
  -- the two bytes of the size hold the length, which has 16 bits
  have hsize : (UInt8.ofNat (unit.length / 256)).toNat * 256 +
      (UInt8.ofNat unit.length).toNat = unit.length := by
    rw [UInt8.toNat_ofNat', UInt8.toNat_ofNat']
    omega
  have hbytes : toBytes 2 unit.length =
      [UInt8.ofNat (unit.length / 256), UInt8.ofNat unit.length] := by
    simp [toBytes]
  rw [hbytes]
  simp only [List.cons_append, List.nil_append]
  rw [stapALoop]
  simp only [hsize]
  rw [if_neg (by simp), List.drop_left, List.take_left]

/-- **The loop returns the last unit** in front of a tail that begins with no complete entry. -/
theorem stapALoop_entries (ts : UInt32) {units : List (List UInt8)}
    (hunits : ∀ unit ∈ units, unit.length < 2 ^ 16) {tail : List UInt8} (htail : NoEntry tail)
    (last : Option NalUnit) :
    stapALoop ts (entries units ++ tail) last =
      (units.getLast?.map fun unit => stapANal unit ts).or last := by
  induction units generalizing last with
  | nil => exact stapALoop_noEntry ts htail last
  | cons unit units ih =>
    have hentries : entries (unit :: units) ++ tail =
        toBytes 2 unit.length ++ unit ++ (entries units ++ tail) := by
      rw [entries, List.flatMap_cons, ← entries, List.append_assoc]
    rw [hentries, stapALoop_entry ts (hunits unit List.mem_cons_self),
      ih fun u hu => hunits u (List.mem_cons_of_mem unit hu)]
    cases units with
    | nil => rfl
    | cons next units =>
      rw [List.getLast?_cons_cons]
      cases hlast : (next :: units).getLast? with
      | none => cases List.getLast?_eq_none_iff.mp hlast
      | some final => rfl

/-- A unit that does not begin with zero is returned behind its length. -/
theorem stapANal_eq_avccUnit (ts : UInt32) {unit : List UInt8} (h : unit.head? ≠ some 0) :
    stapANal unit ts = avccUnit ts unit := by
  cases unit with
  | nil => rfl
  | cons b bs =>
    have hb : b ≠ 0 := fun hzero => h (congrArg some hzero)
    rw [stapANal, avccUnit, toAvccFormat_of_ne_zero hb]
    rfl

theorem parse_aggregation {hdr : List UInt8} (hhdr : hdr.length = 12) (p : RtpParser)
    {b : UInt8} (htype : b &&& 0x1F = nalTypeStapA) (bs : List UInt8) (ts : UInt32) :
    p.parse (hdr ++ b :: bs) ts = p.parseStapA (b :: bs) ts := by
  rw [parse_cons hhdr, htype, if_neg (by decide), if_neg (by decide), if_pos rfl]

theorem parse_entriesOf {hdr : List UInt8} (hhdr : hdr.length = 12) (p : RtpParser)
    {indicator : UInt8} (htype : indicator &&& 0x1F = nalTypeStapA) {units : List (List UInt8)}
    (hunits : ∀ unit ∈ units, unit.length < 2 ^ 16 ∧ unit.head? ≠ some 0) {tail : List UInt8}
    (htail : NoEntry tail) (ts : UInt32) :
    p.parse (hdr ++ indicator :: (entries units ++ tail)) ts =
      (units.getLast?.map (avccUnit ts), p) := by
  have hlast : (units.getLast?.map fun unit => stapANal unit ts) =
      units.getLast?.map (avccUnit ts) :=
    Option.map_congr fun unit hunit =>
      stapANal_eq_avccUnit ts (hunits unit (List.mem_of_getLast? hunit)).2
  rw [parse_aggregation hhdr p htype, parseStapA, List.drop_one, List.tail_cons,
    stapALoop_entries ts (fun unit hunit => (hunits unit hunit).1) htail, Option.or_none, hlast]

/-- The walk with its checked accesses gives what the depacketiser returns. -/
theorem scanStapA_eq (p : RtpParser) (indicator : UInt8) (rest : List UInt8) (ts : UInt32) :
    scanStapA (indicator :: rest) ts = some (p.parseStapA (indicator :: rest) ts).1 := by
  have hpos : 1 ≤ (indicator :: rest).length := Nat.le_add_left 1 _
  have hrest : slice (indicator :: rest) 1 (indicator :: rest).length = some rest := by
    rw [slice_eq hpos le_rfl, List.length_cons, Nat.add_sub_cancel, List.drop_one,
      List.tail_cons, List.take_length]
  rw [scanStapA, hrest]
  exact stapAScan_eq ts rest 0 none

/-- **An aggregation packet** with any entries, and with a tail that begins with no complete one:
the last unit is returned, the reassembly is left alone, and no access is out of range. -/
theorem parse_entries {hdr : List UInt8} (hhdr : hdr.length = 12) (p : RtpParser)
    {indicator : UInt8} (htype : indicator &&& 0x1F = nalTypeStapA) {units : List (List UInt8)}
    (hunits : ∀ unit ∈ units, unit.length ≤ 65535 ∧ unit.head? ≠ some 0) {tail : List UInt8}
    (htail : NoEntry tail) (ts : UInt32) :
    p.parse (hdr ++ indicator :: (entries units ++ tail)) ts =
        (units.getLast?.map (avccUnit ts), p) ∧
      scanStapA (indicator :: (entries units ++ tail)) ts =
        some (units.getLast?.map (avccUnit ts)) := by
  have hparse := parse_entriesOf hhdr p htype
    (fun unit hunit => (hunits unit hunit).imp_left Nat.lt_succ_of_le) htail ts
  have hscan := scanStapA_eq p indicator (entries units ++ tail) ts
  rw [← parse_aggregation hhdr p htype, hparse] at hscan
  exact ⟨hparse, hscan⟩

/-- An SEI, a keyframe and half of a size. -/
theorem parse_entries_keyframe :
    new.parse (List.replicate 12 0 ++
        0x78 :: (entries [[0x06, 0x05], [], [0x65, 0xAA]] ++ [0x01])) 9 =
      (some ⟨[0, 0, 0, 2, 0x65, 0xAA], 5, true, 9⟩, new) := by
  have hunits : ∀ unit ∈ ([[0x06, 0x05], [], [0x65, 0xAA]] : List (List UInt8)),
      unit.length ≤ 65535 ∧ unit.head? ≠ some 0 := by
    decide
  have htail : NoEntry [0x01] := .inl (Nat.lt_succ_self 1)
  exact (parse_entries List.length_replicate new rfl hunits htail 9).1

end RtpParser

end Fosipcore
