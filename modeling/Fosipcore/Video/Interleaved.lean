import Fosipcore.Video.RtspClient

/-!
# Interleaved frames

After the response to PLAY, the camera sends the packets of all tracks as frames on the same
connection. The client reads the response through a buffer and the frames past it, so the bytes
that the last read of the response brought with it are lost.

## Main definitions

* `Frame`, `Frame.encode`, `packets`: frames, their bytes, and the packets that they carry
* `received`: what the client receives of a byte stream that the network cuts somewhere

## Main results

* `received_iff`: the frames are received iff no read of the response goes past its end
* `coalesced_lost`: frames that come in one chunk with the response are lost
* `demultiplexed_iff`: the tracks whose packets are returned as what they are
* `audioFirst_swapped`: the packets of an audio track that is described first are video packets
-/

namespace Fosipcore

open Text ByteStream BigEndian BufReader

/-- An interleaved frame: `$`, the channel, the length in two bytes, and the payload. -/
structure Frame where
  channel : UInt8
  payload : List UInt8
  length_payload : payload.length < 65536

namespace Frame

def encode (f : Frame) : List UInt8 :=
  [0x24] ++ ([f.channel] ++ (toBytes 2 f.payload.length ++ f.payload))

/-- The packet that a frame carries: video on channel 0, and audio on channel 2. -/
def packet (f : Frame) : Option RtpPacket :=
  if f.channel = 0 then some (.video f.payload)
  else if f.channel = 2 then some (.audio f.payload)
  else none

end Frame

def encodeFrames (frames : List Frame) : List UInt8 := frames.flatMap Frame.encode

/-- The payloads of the frames on channels 0 and 2, in sending order. -/
def packets (frames : List Frame) : List RtpPacket := frames.filterMap Frame.packet

/-- What the client receives after PLAY of a byte stream with cuts. -/
def received (capacity : ℕ) (cuts : List ℕ) (bytes : List UInt8) : Option (List RtpPacket) :=
  (play ⟨capacity, [], ⟨bytes, cuts⟩⟩).map fun r => receive (r.inner.bytes.length + 1) r

/-! ## Reading frames -/

theorem readExact_append (bytes rest : List UInt8) (cuts : List ℕ) :
    ∃ cuts', (Socket.mk (bytes ++ rest) cuts).readExact bytes.length =
      some (bytes, ⟨rest, cuts'⟩) := by
  have hlen : bytes.length ≤ (Socket.mk (bytes ++ rest) cuts).bytes.length := by
    rw [List.length_append]
    exact Nat.le_add_right _ _
  obtain ⟨cuts', hread⟩ := Socket.readExact_eq hlen
  dsimp only at hread
  rw [List.take_left, List.drop_left] at hread
  exact ⟨cuts', hread⟩

/-- **One turn of the loop reads one frame.** -/
theorem readRtpPacketLoop_frame (f : Frame) (rest : List UInt8) (cuts : List ℕ) (fuel : ℕ) :
    ∃ cuts', readRtpPacketLoop (fuel + 1) ⟨f.encode ++ rest, cuts⟩ =
      match f.packet with
      | some packet => some (packet, ⟨rest, cuts'⟩)
      | none => readRtpPacketLoop fuel ⟨rest, cuts'⟩ := by
  obtain ⟨cuts₁, hmagic⟩ := readExact_append [0x24]
    ([f.channel] ++ (toBytes 2 f.payload.length ++ (f.payload ++ rest))) cuts
  obtain ⟨cuts₂, hchannel⟩ := readExact_append [f.channel]
    (toBytes 2 f.payload.length ++ (f.payload ++ rest)) cuts₁
  obtain ⟨cuts₃, hlen⟩ := readExact_append (toBytes 2 f.payload.length) (f.payload ++ rest) cuts₂
  obtain ⟨cuts₄, hpayload⟩ := readExact_append f.payload rest cuts₃
  refine ⟨cuts₄, ?_⟩
  have hsize : ofBytes (toBytes 2 f.payload.length) = f.payload.length :=
    ofBytes_toBytes f.length_payload
  rw [length_toBytes] at hlen
  rw [List.length_singleton] at hmagic hchannel
  rw [readRtpPacketLoop, Frame.encode, List.append_assoc, List.append_assoc, List.append_assoc]
  simp only [Option.bind_eq_bind, hmagic, hchannel, hlen, hsize, hpayload, Option.bind_some]
  rw [if_neg (by simp), Frame.packet]
  simp only [List.cons.injEq, and_true]
  split_ifs <;> rfl

theorem encodeFrames_cons (f : Frame) (frames : List Frame) :
    encodeFrames (f :: frames) = f.encode ++ encodeFrames frames := rfl

/-- Reading the next packet of some frames, or none if there is none. -/
theorem readRtpPacketLoop_frames {frames : List Frame} {fuel : ℕ} (cuts : List ℕ)
    (hfuel : frames.length < fuel) :
    (packets frames = [] ∧ readRtpPacketLoop fuel ⟨encodeFrames frames, cuts⟩ = none) ∨
    ∃ packet rest cuts', rest.length < frames.length ∧ packets frames = packet :: packets rest ∧
      readRtpPacketLoop fuel ⟨encodeFrames frames, cuts⟩ =
        some (packet, ⟨encodeFrames rest, cuts'⟩) := by
  induction frames generalizing fuel cuts with
  | nil => exact .inl ⟨rfl, readRtpPacketLoop_short (Nat.succ_pos 3)⟩
  | cons f frames ih =>
    obtain ⟨fuel, rfl⟩ : ∃ n, fuel = n + 1 := ⟨fuel - 1, by omega⟩
    rw [List.length_cons] at hfuel ⊢
    obtain ⟨cuts', hframe⟩ := readRtpPacketLoop_frame f (encodeFrames frames) cuts fuel
    rw [encodeFrames_cons, hframe]
    cases hpacket : f.packet with
    | some packet =>
      have hpackets : packets (f :: frames) = packet :: packets frames :=
        List.filterMap_cons_some hpacket
      exact .inr ⟨packet, frames, cuts', Nat.lt_succ_self _, hpackets, rfl⟩
    | none =>
      have hpackets : packets (f :: frames) = packets frames := List.filterMap_cons_none hpacket
      rw [hpackets]
      rcases ih cuts' (Nat.lt_of_succ_lt_succ hfuel) with hnone | ⟨packet, rest, cuts, hrest, hsome⟩
      · exact .inl hnone
      · exact .inr ⟨packet, rest, cuts, hrest.trans (Nat.lt_succ_self _), hsome⟩

theorem length_le_encodeFrames (frames : List Frame) :
    frames.length ≤ (encodeFrames frames).length := by
  induction frames with
  | nil => exact le_rfl
  | cons f frames ih =>
    rw [encodeFrames_cons, List.length_append, List.length_cons, Frame.encode, List.length_append,
      List.length_singleton]
    omega

/-- **Frames behind an empty buffer are received.** -/
theorem receive_frames {frames : List Frame} {fuel : ℕ} {r : BufReader}
    (hfuel : frames.length < fuel) (hbytes : r.inner.bytes = encodeFrames frames) :
    receive fuel r = packets frames := by
  induction fuel generalizing frames r with
  | zero => cases hfuel
  | succ fuel ih =>
    obtain ⟨capacity, buf, bytes, cuts⟩ := r
    obtain rfl : bytes = encodeFrames frames := hbytes
    have hloop : frames.length < (encodeFrames frames).length + 1 :=
      Nat.lt_succ_of_le (length_le_encodeFrames frames)
    rw [receive, readRtpPacket]
    dsimp only
    rcases readRtpPacketLoop_frames cuts hloop with
      ⟨hpackets, hnone⟩ | ⟨packet, rest, cuts', hrest, hpackets, hsome⟩
    · -- only frames without packets are left, and the read fails at their end
      rw [hnone, hpackets]
      rfl
    · rw [hsome, hpackets, Option.map_some]
      dsimp only
      have hrec : receive fuel ⟨capacity, buf, encodeFrames rest, cuts'⟩ = packets rest :=
        ih (by omega) rfl
      rw [hrec]

/-! ## The whole stream -/

/-- What is received is what the loop finds behind the buffer that reading the response leaves. -/
theorem received_eq {capacity : ℕ} (hcapacity : 0 < capacity) (response : OkResponse)
    (cuts : List ℕ) (frames : List Frame) :
    ∃ r : BufReader, r.bytes = encodeFrames frames ∧
      (frames ≠ [] → (r.buf = [] ↔
        EndsRead capacity response.body.length cuts response.bytes.length)) ∧
      received capacity cuts (response.bytes ++ encodeFrames frames) =
        some (receive (r.inner.bytes.length + 1) r) := by
  have hroom : ∀ t, 0 < t → 0 < headBodyRoom capacity response.body.length t := by
    intro t _
    unfold headBodyRoom exactRoom
    split_ifs <;> omega
  have hplay := response.play_eq
    (r := ⟨capacity, [], ⟨response.bytes ++ encodeFrames frames, cuts⟩⟩) hcapacity rfl
  refine ⟨consume (headBodyRoom capacity response.body.length) response.bytes.length
    ⟨capacity, [], ⟨response.bytes ++ encodeFrames frames, cuts⟩⟩, ?_, ?_, ?_⟩
  · rw [bytes_consume hroom]
    exact List.drop_left
  · intro hne
    apply buf_consume_iff hcapacity
    have hpos := length_le_encodeFrames frames
    have hframes := List.length_pos_iff.mpr hne
    rw [List.length_append]
    omega
  · rw [received, hplay]
    rfl

theorem size_of_packet {f : Frame} {packet : RtpPacket} (h : f.packet = some packet) :
    packet.size = f.encode.length := by
  have hlen : f.encode.length = 4 + f.payload.length := by
    simp only [Frame.encode, List.length_append, List.length_singleton, length_toBytes]
    omega
  unfold Frame.packet at h
  split_ifs at h <;> obtain rfl := Option.some.inj h <;> exact hlen.symm

/-- Where every frame carries a packet, the packets take all bytes. -/
theorem packets_size {frames : List Frame} (h : ∀ f ∈ frames, f.packet.isSome) :
    ((packets frames).map RtpPacket.size).sum = (encodeFrames frames).length := by
  induction frames with
  | nil => rfl
  | cons f frames ih =>
    obtain ⟨packet, hpacket⟩ := Option.isSome_iff_exists.mp (h f List.mem_cons_self)
    have hpackets : packets (f :: frames) = packet :: packets frames :=
      List.filterMap_cons_some hpacket
    rw [hpackets, List.map_cons, List.sum_cons, size_of_packet hpacket,
      ih fun f hf => h f (List.mem_cons_of_mem _ hf), encodeFrames_cons, List.length_append]

/-- If the reads of the response end with it, then all frames are received. -/
theorem received_of_endsRead {capacity : ℕ} (hcapacity : 0 < capacity) {response : OkResponse}
    {cuts : List ℕ}
    (hends : EndsRead capacity response.body.length cuts response.bytes.length)
    (frames : List Frame) :
    received capacity cuts (response.bytes ++ encodeFrames frames) = some (packets frames) := by
  obtain ⟨r, hbytes, hbuf, hreceived⟩ := received_eq hcapacity response cuts frames
  have hempty : r.buf = [] := by
    by_cases hframes : frames = []
    · -- nothing comes behind the response that a read could bring
      rw [hframes] at hbytes
      exact (List.append_eq_nil_iff.mp hbytes).1
    · exact (hbuf hframes).mpr hends
  rw [BufReader.bytes, hempty, List.nil_append] at hbytes
  rw [hreceived, receive_frames _ hbytes]
  rw [hbytes]
  exact Nat.lt_succ_of_le (length_le_encodeFrames frames)

/-- If a read of the response brings bytes of frames that all carry packets, then they are not all
received: the bytes that are left are too few. -/
theorem endsRead_of_received {capacity : ℕ} (hcapacity : 0 < capacity) {response : OkResponse}
    {cuts : List ℕ} {frames : List Frame} (hne : frames ≠ [])
    (hframes : ∀ f ∈ frames, f.packet.isSome)
    (h : received capacity cuts (response.bytes ++ encodeFrames frames) = some (packets frames)) :
    EndsRead capacity response.body.length cuts response.bytes.length := by
  obtain ⟨r, hbytes, hbuf, hreceived⟩ := received_eq hcapacity response cuts frames
  apply (hbuf hne).mp
  have hlen : r.buf.length + r.inner.bytes.length = (encodeFrames frames).length := by
    rw [← List.length_append]
    exact congrArg List.length hbytes
  -- what is received takes its frames from the socket, and the frames take all bytes
  have hsize := receive_size (r.inner.bytes.length + 1) r
  rw [← Option.some.inj (h.symm.trans hreceived), packets_size hframes] at hsize
  apply List.eq_nil_of_length_eq_zero
  omega

/-- **Receiving depends on the cuts**: all frames are received, whatever they are, iff the reads of
the response end with it. Where every frame carries a packet, this is so for these frames alone. -/
theorem received_iff {capacity : ℕ} (hcapacity : 0 < capacity) (response : OkResponse)
    (cuts : List ℕ) :
    ((∀ frames, received capacity cuts (response.bytes ++ encodeFrames frames) =
      some (packets frames)) ↔
        EndsRead capacity response.body.length cuts response.bytes.length) ∧
    ∀ frames, frames ≠ [] → (∀ f ∈ frames, f.packet.isSome) →
      (received capacity cuts (response.bytes ++ encodeFrames frames) = some (packets frames) ↔
        EndsRead capacity response.body.length cuts response.bytes.length) := by
  refine ⟨⟨fun h => ?_, received_of_endsRead hcapacity⟩, fun frames hne hframes => ?_⟩
  · -- a video frame without a payload is enough
    apply endsRead_of_received hcapacity (List.cons_ne_nil ⟨0, [], by simp⟩ []) _ (h _)
    intro f hf
    obtain rfl := List.mem_singleton.mp hf
    rfl
  · constructor
    · intro h
      exact endsRead_of_received hcapacity hne hframes h
    · intro hends
      exact received_of_endsRead hcapacity hends frames

/-! ## Tracks -/

/-- The packet of a track. -/
def MediaKind.packet : MediaKind → List UInt8 → RtpPacket
  | .video => .video
  | .audio => .audio

/-- Whatever comes behind it, the frame is returned as a packet of the kind of its track. -/
def Returned (kind : MediaKind) (f : Frame) : Prop :=
  ∀ (r : BufReader) (rest : List UInt8), r.inner.bytes = f.encode ++ rest →
    ∃ r', readRtpPacket r = some (kind.packet f.payload, r')

theorem returned_iff_packet (kind : MediaKind) (f : Frame) :
    Returned kind f ↔ f.packet = some (kind.packet f.payload) := by
  constructor
  · intro h
    obtain ⟨r', hread⟩ := h ⟨1, [], ⟨f.encode ++ [], []⟩⟩ [] rfl
    obtain ⟨⟨packet, s⟩, hloop, heq⟩ := Option.map_eq_some_iff.mp hread
    obtain ⟨cuts, hframe⟩ := readRtpPacketLoop_frame f [] [] (f.encode ++ []).length
    rw [hframe] at hloop
    cases hpacket : f.packet with
    | none =>
      rw [hpacket] at hloop
      have hnone : readRtpPacketLoop (f.encode ++ []).length ⟨[], cuts⟩ = none :=
        readRtpPacketLoop_short (Nat.succ_pos 3)
      rw [hnone] at hloop
      cases hloop
    | some packet' =>
      rw [hpacket] at hloop
      obtain ⟨rfl, -⟩ := Prod.mk.inj (Option.some.inj hloop)
      exact congrArg some (Prod.mk.inj heq).1
  · rintro hpacket ⟨capacity, buf, bytes, cuts⟩ rest rfl
    obtain ⟨cuts', hframe⟩ := readRtpPacketLoop_frame f rest cuts (f.encode ++ rest).length
    rw [hpacket] at hframe
    exact ⟨_, congrArg (Option.map _) hframe⟩

theorem packet_eq_iff (kind : MediaKind) (f : Frame) :
    f.packet = some (kind.packet f.payload) ↔
      (f.channel = 0 ∧ kind = .video) ∨ (f.channel = 2 ∧ kind = .audio) := by
  unfold Frame.packet
  by_cases hvideo : f.channel = 0
  · cases kind <;> simp [hvideo, MediaKind.packet]
  · by_cases haudio : f.channel = 2
    · cases kind <;> simp [haudio, MediaKind.packet]
    · -- a frame on another channel is no packet
      simp [hvideo, haudio]

/-- The sections that are set up are a beginning of the sections, with their channels. -/
theorem setupAllTracks_channel {accepted : ℕ → Bool} {media : List SdpMedia} {i : ℕ}
    {m : SdpMedia} {channel : UInt8} (h : (setupAllTracks accepted media)[i]? = some (m, channel)) :
    media[i]? = some m ∧ channel = interleavedBase i := by
  rw [setupAllTracks, List.getElem?_map] at h
  obtain ⟨⟨m', j⟩, hj, heq⟩ := Option.map_eq_some_iff.mp h
  obtain ⟨rfl, rfl⟩ := Prod.mk.inj heq
  -- the place of a section in the beginning is its place in the whole
  obtain ⟨hi, hget⟩ := List.getElem?_eq_some_iff.mp hj
  have hzip : media.zipIdx[i]? = some (m', j) := by
    rw [← hget]
    exact List.prefix_iff_getElem?.mp (List.takeWhile_prefix _) i hi
  rw [List.getElem?_zipIdx] at hzip
  obtain ⟨m'', hm, hpair⟩ := Option.map_eq_some_iff.mp hzip
  obtain ⟨rfl, rfl⟩ := Prod.mk.inj hpair
  rw [Nat.zero_add]
  exact ⟨hm, rfl⟩

/-- The channels of the sections are those of their places, up to the last channel. -/
theorem interleavedBase_eq_iff {i n : ℕ} (hn : n ≤ 127) :
    interleavedBase i = UInt8.ofNat (n * 2) ↔ i = n := by
  have htoNat : ∀ k, k ≤ 255 → (UInt8.ofNat k).toNat = k := fun k hk => by
    rw [UInt8.toNat_ofNat']
    exact Nat.mod_eq_of_lt (Nat.lt_succ_of_le hk)
  rw [← UInt8.toNat_inj, htoNat _ (by omega), interleavedBase]
  split_ifs with hi
  · rw [htoNat _ hi]
    omega
  · -- the channel 255 is odd
    have hlast : (255 : UInt8).toNat = 255 := rfl
    rw [hlast]
    omega

/-- **The tracks whose packets are returned as what they are**: a video section that comes first,
and an audio section that comes second. -/
theorem demultiplexed_iff {sdp : Str} {media : List SdpMedia}
    (_hsdp : parseSdpMedia sdp = some media) {accepted : ℕ → Bool} {i : ℕ} {m : SdpMedia}
    {channel : UInt8} (hsetup : (setupAllTracks accepted media)[i]? = some (m, channel)) (f : Frame)
    (hf : f.channel = channel) :
    Returned m.kind f ↔ (i = 0 ∧ m.kind = .video) ∨ (i = 1 ∧ m.kind = .audio) := by
  obtain ⟨-, rfl⟩ := setupAllTracks_channel hsetup
  have hzero : interleavedBase i = 0 ↔ i = 0 := interleavedBase_eq_iff (n := 0) (by simp)
  have hone : interleavedBase i = 2 ↔ i = 1 := interleavedBase_eq_iff (n := 1) (by simp)
  rw [returned_iff_packet, packet_eq_iff, hf, hzero, hone]

/-! ## Samples -/

def asciiBytes (s : String) : List UInt8 := s.toList.map fun c => UInt8.ofNat c.toNat

theorem isLine_ok : IsLine (asciiBytes "RTSP/1.0 200 OK\r\n") "RTSP/1.0 200 OK\r\n".toList :=
  ⟨⟨asciiBytes "RTSP/1.0 200 OK\r", by decide +kernel, by decide +kernel⟩, by decide +kernel⟩

theorem isLine_session :
    IsLine (asciiBytes "Session: 12345678\r\n") "Session: 12345678\r\n".toList :=
  ⟨⟨asciiBytes "Session: 12345678\r", by decide +kernel, by decide +kernel⟩, by decide +kernel⟩

theorem isLine_blank : IsLine (asciiBytes "\r\n") "\r\n".toList :=
  ⟨⟨asciiBytes "\r", by decide +kernel, by decide +kernel⟩, by decide +kernel⟩

/-- The response of a camera to PLAY. -/
def sampleResponse : OkResponse where
  statusLine := asciiBytes "RTSP/1.0 200 OK\r\n"
  statusText := "RTSP/1.0 200 OK\r\n".toList
  headerBlock := asciiBytes "Session: 12345678\r\n" ++ asciiBytes "\r\n"
  headers := "Session: 12345678\r\n".toList ++ []
  body := []
  status_line := isLine_ok
  status_ok := by decide +kernel
  header_block := .header _ _ _ _ isLine_session (by decide +kernel)
    (.blank _ _ isLine_blank (by decide +kernel))
  content_length := by decide +kernel

/-- A small frame on a channel. -/
def sampleFrame (channel : UInt8) : Frame := ⟨channel, [4, 5], by simp⟩

/-- A video frame, a control frame and an audio frame. -/
def sampleFrames : List Frame := [sampleFrame 0, sampleFrame 1, sampleFrame 2]

/-- A cut behind the response. -/
theorem received_iff_cut :
    received 8192 [sampleResponse.bytes.length - 1]
      (sampleResponse.bytes ++ encodeFrames sampleFrames) =
        some [.video [4, 5], .audio [4, 5]] := by
  have hends : EndsRead 8192 sampleResponse.body.length [sampleResponse.bytes.length - 1]
      sampleResponse.bytes.length := by decide +kernel
  exact (received_iff (by simp) sampleResponse _).1.mpr hends sampleFrames

/-- **Frames that come in one chunk with the response are lost.** -/
theorem coalesced_lost :
    received 8192 [] (sampleResponse.bytes ++ encodeFrames sampleFrames) = some [] ∧
    packets sampleFrames = [.video [4, 5], .audio [4, 5]] ∧
    ¬ ∀ (response : OkResponse) cuts frames,
      received 8192 cuts (response.bytes ++ encodeFrames frames) = some (packets frames) := by
  have hlost : received 8192 [] (sampleResponse.bytes ++ encodeFrames sampleFrames) = some [] := by
    decide +kernel
  refine ⟨hlost, rfl, fun h => ?_⟩
  rw [h] at hlost
  cases hlost

/-- The description of a camera: a video and an audio section. -/
def videoFirst : Str :=
  ("v=0\r\na=control:*\r\nm=video 0 RTP/AVP 96\r\na=control:track1\r\n" ++
    "m=audio 0 RTP/AVP 0\r\na=control:track2\r\n").toList

/-- The sections in the other order. -/
def audioFirst : Str :=
  ("v=0\r\na=control:*\r\nm=audio 0 RTP/AVP 0\r\na=control:track2\r\n" ++
    "m=video 0 RTP/AVP 96\r\na=control:track1\r\n").toList

def videoSection : SdpMedia := ⟨.video, 96, some "track1".toList⟩
def audioSection : SdpMedia := ⟨.audio, 0, some "track2".toList⟩

/-- The audio packets of a camera that describes its video first. -/
theorem demultiplexed_iff_videoFirst : Returned .audio (sampleFrame 2) := by
  have hsdp : parseSdpMedia videoFirst = some [videoSection, audioSection] := by decide +kernel
  have hsetup : (setupAllTracks (fun _ => true) [videoSection, audioSection])[1]? =
      some (audioSection, 2) := rfl
  exact (demultiplexed_iff hsdp hsetup (sampleFrame 2) rfl).mpr (.inr ⟨rfl, rfl⟩)

/-- **The packets of an audio section that comes first are video packets.** -/
theorem audioFirst_swapped :
    parseSdpMedia audioFirst = some [audioSection, videoSection] ∧
    setupAllTracks (fun _ => true) [audioSection, videoSection] =
      [(audioSection, 0), (videoSection, 2)] ∧
    Returned .video (sampleFrame 0) ∧
    ¬ ∀ sdp media (accepted : ℕ → Bool) (i : ℕ) (m : SdpMedia) channel,
      parseSdpMedia sdp = some media →
        (setupAllTracks accepted media)[i]? = some (m, channel) →
          ∀ f : Frame, f.channel = channel → Returned m.kind f := by
  have hsdp : parseSdpMedia audioFirst = some [audioSection, videoSection] := by decide +kernel
  have hsetup : setupAllTracks (fun _ => true) [audioSection, videoSection] =
      [(audioSection, 0), (videoSection, 2)] := rfl
  refine ⟨hsdp, hsetup, (returned_iff_packet _ _).mpr rfl, fun h => ?_⟩
  have hreturned : Returned .audio (sampleFrame 0) :=
    h _ _ (fun _ => true) 0 audioSection 0 hsdp rfl (sampleFrame 0) rfl
  rw [returned_iff_packet] at hreturned
  cases hreturned

end Fosipcore
