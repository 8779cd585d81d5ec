import Fosipcore.Video.Reassembly

/-!
# The reassembly buffer

A camera may send fragments of any length in any order, and end no unit at all. Every exit of the
fragment parser still leaves the buffer within its cap, and the flag in step with the buffer.

## Main definitions

* `RtpParser.BufferInvariant`: the cap on the buffer, and the meaning of the flag

## Main results

* `RtpParser.BufferInvariant.step`: a packet keeps the invariant
* `RtpParser.buffer_capped`: the invariant after every packet, the length of what is returned, and
  the start of a reassembly
-/

namespace Fosipcore

open Transducer

namespace RtpParser

/-- The buffer is within its cap, and a unit is being gathered just when there is something in the
buffer. -/
structure BufferInvariant (p : RtpParser) : Prop where
  length_le : p.fuBuffer.length ≤ maxFuBufferBytes
  active_iff : p.fuActive = true ↔ p.fuBuffer ≠ []

theorem bufferInvariant_new : BufferInvariant new := ⟨Nat.zero_le _, by simp [new]⟩

theorem bufferInvariant_active {buf : List UInt8} (hne : buf ≠ [])
    (hcap : buf.length ≤ maxFuBufferBytes) : BufferInvariant ⟨buf, true⟩ :=
  ⟨hcap, iff_of_true rfl hne⟩

/-- **A packet keeps the invariant**, whatever is in it. -/
theorem BufferInvariant.step {p : RtpParser} (h : BufferInvariant p) (pkt : StampedPacket) :
    BufferInvariant (p.parsePacket pkt).2 := by
  cases hf : pkt.fragment with
  | none => rwa [parsePacket_of_no_fragment p hf]
  | some f =>
    by_cases hstart : f.isStart
    · rw [parsePacket_start p hf hstart]
      split_ifs with hcap
      · exact bufferInvariant_active (List.cons_ne_nil _ _)
          (by rw [List.length_cons, Nat.add_comm]; exact hcap)
      · exact bufferInvariant_new
    by_cases hend : f.isEnd
    · rw [parsePacket_end p hf hend]
      exact bufferInvariant_new
    · rw [parsePacket_continue p hf hstart hend]
      split_ifs with hactive hcap
      · -- the buffer of an active reassembly is not empty, and does not become so
        refine bufferInvariant_active ?_ (by rw [List.length_append]; exact hcap)
        exact List.append_ne_nil_of_left_ne_nil (h.active_iff.mp hactive) _
      · exact bufferInvariant_new
      · exact h

theorem bufferInvariant_received (pkts : List StampedPacket) :
    BufferInvariant (received pkts) := by
  induction pkts using List.reverseRecOn with
  | nil => exact bufferInvariant_new
  | append_singleton pkts pkt ih =>
    rw [received_snoc]
    exact ih.step pkt

/-- The data of a fragment stand behind the RTP header and two more bytes. -/
theorem length_fuData {pkt : StampedPacket} {f : FuFragment} (h : pkt.fragment = some f) :
    f.fuData.length + 14 = pkt.payload.length := by
  rcases payload_cases pkt.payload with ⟨-, hdrop⟩ | ⟨hdr, b, bs, hp, hhdr, hdrop⟩
  · simp [StampedPacket.fragment, hdrop] at h
  · -- the indicator, the header, and one byte of data at least
    rcases bs with _ | ⟨i, _ | ⟨c, cs⟩⟩
    · simp [StampedPacket.fragment, hdrop] at h
    · simp [StampedPacket.fragment, hdrop] at h
    · simp only [StampedPacket.fragment, hdrop] at h
      split_ifs at h
      obtain rfl := Option.some.inj h
      simp only [hp, List.length_append, List.length_cons, hhdr]
      omega

/-- A start fragment of an interleaved packet fits the buffer, and is all there is in it. -/
theorem parsePacket_start_of_le (p : RtpParser) {pkt : StampedPacket} {f : FuFragment}
    (h : pkt.fragment = some f) (hstart : f.isStart) (hsize : pkt.payload.length ≤ 65535) :
    p.parsePacket pkt = (none, ⟨f.nalHeader :: f.fuData, true⟩) := by
  have hlen := length_fuData h
  have hmax : maxFuBufferBytes = 1048576 := rfl
  rw [parsePacket_start p h hstart, if_pos (by omega)]

/-- **The reassembly buffer is bounded.** After every packet the buffer is within its cap and the
flag says whether there is something in it; what is returned is no longer than the cap and its
length prefix; and a start fragment begins afresh, so that from there on the parser is one that has
seen nothing before it. -/
theorem buffer_capped (pkts : List StampedPacket) (pkt : StampedPacket)
    (hsize : ∀ q ∈ pkts ++ [pkt], q.payload.length ≤ 65535) :
    (received (pkts ++ [pkt])).fuBuffer.length ≤ maxFuBufferBytes ∧
      ((received (pkts ++ [pkt])).fuActive = true ↔ (received (pkts ++ [pkt])).fuBuffer ≠ []) ∧
      (∀ nal ∈ ((received pkts).parsePacket pkt).1,
        nal.data.length ≤ maxFuBufferBytes + 4) ∧
      ∀ f, pkt.fragment = some f → f.isStart →
        (received pkts).parsePacket pkt = (none, ⟨f.nalHeader :: f.fuData, true⟩) ∧
          ∀ more, run (traced parsePacket) (received pkts) (pkt :: more) =
            run (traced parsePacket) new (pkt :: more) := by
  have hpkt := hsize pkt (List.mem_append_right _ List.mem_cons_self)
  have hafter := bufferInvariant_received (pkts ++ [pkt])
  have hbounded := parse_bounded (bufferInvariant_received pkts).length_le hpkt pkt.timestamp
  refine ⟨hafter.length_le, hafter.active_iff, hbounded.2, fun f hf hstart => ?_⟩
  have hbegin := fun p => parsePacket_start_of_le p hf hstart hpkt
  refine ⟨hbegin _, fun more => ?_⟩
  rw [run_traced_cons, run_traced_cons, hbegin, hbegin]

/-- A start fragment behind an unfinished reassembly. -/
theorem buffer_capped_restart :
    received [⟨List.replicate 12 0 ++ [0x7C, 0x85, 1], 3⟩,
      ⟨List.replicate 12 0 ++ [0x7C, 0x81, 2], 4⟩] = ⟨[0x61, 2], true⟩ := by
  have hsize : ∀ q ∈ [(⟨List.replicate 12 0 ++ [0x7C, 0x85, 1], 3⟩ : StampedPacket)] ++
      [⟨List.replicate 12 0 ++ [0x7C, 0x81, 2], 4⟩], q.payload.length ≤ 65535 := by
    simp
  have hstart : FuFragment.isStart ⟨0x7C, 0x81, [2]⟩ := by decide
  have hbegin := ((buffer_capped _ _ hsize).2.2.2 ⟨0x7C, 0x81, [2]⟩ rfl hstart).1
  exact congrArg Prod.snd hbegin

end RtpParser

end Fosipcore
