import Fosipcore.Video.Interleaved

/-!
# Resynchronisation

Bytes that are not `$` are skipped in front of a frame. The client reads a stream of frames with
such gaps between them exactly: the packets of the frames in their order, and then an error, however
many bytes of the payloads look like the beginning of a frame.

## Main definitions

* `Gap`, `encodeGaps`: bytes that are skipped, and a stream of frames with gaps
* `Calls`: what repeated calls of `readRtpPacket` return

## Main results

* `readRtpPacketLoop_fuel`: the loop has enough turns for the bytes there are
* `readRtpPacketLoop_gap`: a gap is skipped
* `calls_encodeGaps`: the packets of a stream with gaps are returned, and then an error
-/

namespace Fosipcore

open Text ByteStream BigEndian

/-- Bytes that do not contain the beginning of a frame. -/
structure Gap where
  bytes : List UInt8
  no_magic : 0x24 ∉ bytes

/-- A stream of frames, each behind a gap, that ends with a gap. -/
def encodeGaps : List (Gap × Frame) → Gap → List UInt8
  | [], last => last.bytes
  | (gap, f) :: items, last => gap.bytes ++ (f.encode ++ encodeGaps items last)

/-- Repeated calls return the packets one after another, and then an error. -/
inductive Calls : BufReader → List RtpPacket → Prop
  | error (r : BufReader) : readRtpPacket r = none → Calls r []
  | packet (r r' : BufReader) (packet : RtpPacket) (packets : List RtpPacket) :
      readRtpPacket r = some (packet, r') → Calls r' packets → Calls r (packet :: packets)

/-! ## The turns of the loop -/

/-- A turn that reads a frame leaves fewer bytes. -/
theorem length_lt_of_reads {s s₁ s₂ s₃ s₄ : Socket} {n : ℕ} {magic channel len payload : List UInt8}
    (hmagic : s.readExact 1 = some (magic, s₁)) (hchannel : s₁.readExact 1 = some (channel, s₂))
    (hlen : s₂.readExact 2 = some (len, s₃)) (hpayload : s₃.readExact n = some (payload, s₄)) :
    s₄.bytes.length < s.bytes.length := by
  obtain ⟨h₁, -, hs₁⟩ := readExact_cases hmagic
  obtain ⟨-, -, hs₂⟩ := readExact_cases hchannel
  obtain ⟨-, -, hs₃⟩ := readExact_cases hlen
  obtain ⟨-, -, hs₄⟩ := readExact_cases hpayload
  simp only [hs₁, hs₂, hs₃, hs₄, List.length_drop]
  omega

/-- **More turns than bytes change nothing**: the loop returns or fails before it runs out of
turns. -/
theorem readRtpPacketLoop_fuel {fuel fuel' : ℕ} {s : Socket} (h : s.bytes.length < fuel)
    (h' : s.bytes.length < fuel') : readRtpPacketLoop fuel s = readRtpPacketLoop fuel' s := by
  induction fuel generalizing fuel' s with
  | zero => cases h
  | succ fuel ih =>
    obtain ⟨fuel', rfl⟩ : ∃ n, fuel' = n + 1 := ⟨fuel' - 1, by omega⟩
    rw [readRtpPacketLoop, readRtpPacketLoop]
    cases hmagic : s.readExact 1 with
    | none => rfl
    | some read =>
      obtain ⟨magic, s₁⟩ := read
      simp only [Option.bind_eq_bind, Option.bind_some]
      by_cases hresync : magic ≠ [0x24]
      · -- a byte is skipped
        obtain ⟨hpos, -, hs₁⟩ := readExact_cases hmagic
        have hlt : s₁.bytes.length + 1 = s.bytes.length := by
          rw [hs₁, List.length_drop]
          omega
        have hturns : readRtpPacketLoop fuel s₁ = readRtpPacketLoop fuel' s₁ :=
          ih (by omega) (by omega)
        rw [if_pos hresync, if_pos hresync, hturns]
      · rw [if_neg hresync, if_neg hresync]
        refine Option.bind_congr fun read hchannel => ?_
        obtain ⟨channel, s₂⟩ := read
        refine Option.bind_congr fun read hlen => ?_
        obtain ⟨len, s₃⟩ := read
        refine Option.bind_congr fun read hpayload => ?_
        obtain ⟨payload, s₄⟩ := read
        have hlt := length_lt_of_reads hmagic hchannel hlen hpayload
        have hturns : readRtpPacketLoop fuel s₄ = readRtpPacketLoop fuel' s₄ :=
          ih (by omega) (by omega)
        dsimp only
        rw [hturns]

/-- **A gap is skipped**, a byte each turn. -/
theorem readRtpPacketLoop_gap {bytes : List UInt8} (h : 0x24 ∉ bytes) (rest : List UInt8)
    (cuts : List ℕ) (fuel : ℕ) :
    ∃ cuts', readRtpPacketLoop (fuel + bytes.length) ⟨bytes ++ rest, cuts⟩ =
      readRtpPacketLoop fuel ⟨rest, cuts'⟩ := by
  induction bytes generalizing cuts with
  | nil => exact ⟨cuts, rfl⟩
  | cons b bytes ih =>
    rw [List.mem_cons, not_or] at h
    obtain ⟨cuts₁, hmagic⟩ := readExact_append [b] (bytes ++ rest) cuts
    obtain ⟨cuts₂, hskip⟩ := ih h.2 cuts₁
    refine ⟨cuts₂, ?_⟩
    have hresync : [b] ≠ [0x24] := by
      rintro ⟨⟩
      exact h.1 rfl
    rw [← hskip, List.length_cons, ← Nat.add_assoc, readRtpPacketLoop]
    rw [List.length_singleton] at hmagic
    have hbytes : b :: bytes ++ rest = [b] ++ (bytes ++ rest) := rfl
    rw [hbytes, hmagic]
    simp only [Option.bind_eq_bind, Option.bind_some]
    rw [if_pos hresync]

/-! ## The packets of a stream -/

theorem length_encode_pos (f : Frame) : 0 < f.encode.length := by
  rw [Frame.encode, List.length_append, List.length_singleton]
  omega

/-- The next packet of a stream, or an error if there is none. -/
theorem readRtpPacketLoop_encodeGaps (items : List (Gap × Frame)) (last : Gap) {fuel : ℕ}
    (cuts : List ℕ) (hfuel : (encodeGaps items last).length < fuel) :
    (packets (items.map Prod.snd) = [] ∧
      readRtpPacketLoop fuel ⟨encodeGaps items last, cuts⟩ = none) ∨
    ∃ packet rest cuts', rest.length < items.length ∧
      packets (items.map Prod.snd) = packet :: packets (rest.map Prod.snd) ∧
      readRtpPacketLoop fuel ⟨encodeGaps items last, cuts⟩ =
        some (packet, ⟨encodeGaps rest last, cuts'⟩) := by
  induction items generalizing fuel cuts with
  | nil =>
    rw [encodeGaps] at hfuel ⊢
    obtain ⟨fuel, rfl⟩ : ∃ n, fuel = n + last.bytes.length := ⟨fuel - last.bytes.length, by omega⟩
    obtain ⟨cuts', hskip⟩ := readRtpPacketLoop_gap last.no_magic [] cuts fuel
    rw [List.append_nil] at hskip
    exact .inl ⟨rfl, hskip.trans (readRtpPacketLoop_short (Nat.succ_pos 3))⟩
  | cons item items ih =>
    obtain ⟨gap, f⟩ := item
    rw [encodeGaps] at hfuel ⊢
    rw [List.length_append, List.length_append] at hfuel
    have hpos := length_encode_pos f
    obtain ⟨fuel, rfl⟩ : ∃ n, fuel = n + 1 + gap.bytes.length :=
      ⟨fuel - (1 + gap.bytes.length), by omega⟩
    obtain ⟨cuts₁, hskip⟩ := readRtpPacketLoop_gap gap.no_magic
      (f.encode ++ encodeGaps items last) cuts (fuel + 1)
    obtain ⟨cuts₂, hframe⟩ := readRtpPacketLoop_frame f (encodeGaps items last) cuts₁ fuel
    rw [hskip, hframe, List.map_cons, List.length_cons]
    cases hpacket : f.packet with
    | some packet =>
      have hpackets : packets (f :: items.map Prod.snd) = packet :: packets (items.map Prod.snd) :=
        List.filterMap_cons_some hpacket
      exact .inr ⟨packet, items, cuts₂, Nat.lt_succ_self _, hpackets, rfl⟩
    | none =>
      -- the frame is consumed whole, and the loop goes on with the next gap
      have hpackets : packets (f :: items.map Prod.snd) = packets (items.map Prod.snd) :=
        List.filterMap_cons_none hpacket
      rw [hpackets]
      have hleft : (encodeGaps items last).length < fuel := by omega
      rcases ih cuts₂ hleft with
        hnone | ⟨packet, rest, cuts', hrest, hsome⟩
      · exact .inl hnone
      · exact .inr ⟨packet, rest, cuts', hrest.trans (Nat.lt_succ_self _), hsome⟩

/-- **Frames with gaps are read exactly**: repeated calls return the packets of the frames on the
channels 0 and 2, and then an error; and no call runs out of turns. -/
theorem calls_encodeGaps (items : List (Gap × Frame)) (last : Gap) (capacity : ℕ)
    (buf : List UInt8) (cuts : List ℕ) :
    Calls ⟨capacity, buf, ⟨encodeGaps items last, cuts⟩⟩ (packets (items.map Prod.snd)) ∧
      ∀ (s : Socket) (fuel : ℕ), s.bytes.length < fuel →
        readRtpPacketLoop fuel s = readRtpPacketLoop (s.bytes.length + 1) s := by
  refine ⟨?_, fun s fuel h => readRtpPacketLoop_fuel h (Nat.lt_succ_self _)⟩
  induction hn : items.length using Nat.strong_induction_on generalizing items cuts with
  | _ n ih =>
    rcases readRtpPacketLoop_encodeGaps items last cuts (Nat.lt_succ_self _) with
      ⟨hpackets, hnone⟩ | ⟨packet, rest, cuts', hrest, hpackets, hsome⟩
    · rw [hpackets]
      apply Calls.error
      rw [readRtpPacket]
      exact congrArg (Option.map _) hnone
    · rw [hpackets]
      apply Calls.packet
      · rw [readRtpPacket]
        exact congrArg (Option.map _) hsome
      · exact ih rest.length (hn ▸ hrest) rest cuts' rfl

end Fosipcore
