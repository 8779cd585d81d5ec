import Fosipcore.Library.BigEndian
import Fosipcore.Library.BufReader
import Fosipcore.Library.Text

/-!
# The RTSP client

The client reads the responses of the camera through a buffered reader, and after PLAY it reads the
interleaved packets from the socket behind the buffer. The tracks are those that the session
description lists; the client sets them up on pairs of interleaved channels, in their order.

Of the bytes that the client sends, only the channels that it asks for are part of this model; the
camera's answers are the bytes that come. The requests are those of `Video.Handshake`.

## Main definitions

* `parseStatusCode`, `extractHeader`, `readResponse`: responses
* `play`, `readRtpPacket`, `receive`: the end of the handshake, and the packets
* `parseSdpMedia`, `setupAllTracks`: the tracks and their channels

## Main results

* `HeaderBlock.readHeaders_eq`: reading a header block consumes it, and nothing behind it
* `readResponse_eq`: reading a response consumes it, and nothing behind it
* `readRtpPacketLoop_size`: a packet takes the bytes of its frame
-/

namespace Fosipcore

open Text ByteStream BigEndian

/-! ## Responses -/

/-- A parsed RTSP response. The body is not decoded. -/
structure RtspResponse where
  statusCode : UInt16
  headers : Str
  body : List UInt8

/-- Parse the status code from an RTSP status line. -/
def parseStatusCode (line : Str) : Option UInt16 :=
  match splitWhitespace line with
  | _ :: code :: _ => (parseUnsigned 65535 code).map UInt16.ofNat
  | _ => none

/-- Extract a header value from RTSP response headers. No name that is asked for contains a letter
that is the lower case of a character outside ASCII. -/
def extractHeader (headers name : Str) : Option Str :=
  (lines headers).findSome? fun line => do
    let (key, value) ← splitOnce [':'] line
    if asciiLower (trim key) = asciiLower name then some (trim value) else none

/-- The length of the body: `0` where there is no `Content-Length`, or none that is a `usize`. -/
def contentLength (headers : Str) : ℕ :=
  ((extractHeader headers "Content-Length".toList).bind (parseUnsigned (2 ^ 64 - 1))).getD 0

/-- `read_line`: the bytes up to a line feed, which have to be valid UTF-8. -/
def readLine (r : BufReader) : Option (Str × BufReader) :=
  let (bytes, r) := r.readUntil 10 (r.bytes.length + 1)
  (decodeUtf8 bytes).map fun line => (line, r)

/-- The loop over the header lines, which ends with a blank line or the end of the stream. -/
def readHeaders : ℕ → Str → BufReader → Option (Str × BufReader)
  | 0, _, _ => none
  | fuel + 1, headers, r => do
    let (line, r) ← readLine r
    -- a blank line, or an empty one at the end of the stream
    if trim line = [] then some (headers, r) else readHeaders fuel (headers ++ line) r

def readResponse (r : BufReader) : Option (RtspResponse × BufReader) := do
  let (statusLine, r) ← readLine r
  let statusCode ← parseStatusCode statusLine
  let (headers, r) ← readHeaders (r.bytes.length + 1) [] r
  -- through the buffer, because the lines above may have buffered bytes of the body
  let (body, r) ← if 0 < contentLength headers then r.readExact (contentLength headers)
    else some ([], r)
  some (⟨statusCode, headers, body⟩, r)

/-! ## Packets -/

/-- A packet read from the RTSP interleaved channels. -/
inductive RtpPacket where
  | video (payload : List UInt8)
  | audio (payload : List UInt8)
  deriving DecidableEq

/-- The bytes of the frame of a packet. -/
def RtpPacket.size : RtpPacket → ℕ
  | .video payload => 4 + payload.length
  | .audio payload => 4 + payload.length

theorem RtpPacket.four_le_size (packet : RtpPacket) : 4 ≤ packet.size := by
  cases packet <;> exact Nat.le_add_right _ _

/-- `PLAY`: whatever the status of the response, the packets follow. -/
def play (r : BufReader) : Option BufReader := (readResponse r).map Prod.snd

/-- The loop over the interleaved frames, on the socket behind the buffer. -/
def readRtpPacketLoop : ℕ → Socket → Option (RtpPacket × Socket)
  | 0, _ => none
  | fuel + 1, s => do
    let (magic, s) ← s.readExact 1
    if magic ≠ [0x24] then
      -- not a `$`: try the next byte
      readRtpPacketLoop fuel s
    else
      let (channel, s) ← s.readExact 1
      let (len, s) ← s.readExact 2
      let (payload, s) ← s.readExact (ofBytes len)
      if channel = [0x00] then some (.video payload, s)
      else if channel = [0x02] then some (.audio payload, s)
      -- RTCP of the first two tracks, or an unexpected channel
      else readRtpPacketLoop fuel s

/-- Read the next interleaved RTP packet. Each turn of the loop takes a byte. -/
def readRtpPacket (r : BufReader) : Option (RtpPacket × BufReader) :=
  (readRtpPacketLoop (r.inner.bytes.length + 1) r.inner).map fun (packet, s) =>
    (packet, { r with inner := s })

/-- The reader task: packets are read until one fails. -/
def receive : ℕ → BufReader → List RtpPacket
  | 0, _ => []
  | fuel + 1, r =>
    match readRtpPacket r with
    | none => []
    | some (packet, r) => packet :: receive fuel r

/-! ## Tracks -/

/-- The kind of an SDP media section (`m=` line). -/
inductive MediaKind where
  | video
  | audio
  deriving DecidableEq

/-- One media section from the SDP body. -/
structure SdpMedia where
  kind : MediaKind
  payloadType : UInt8
  control : Option Str
  deriving DecidableEq

/-- The media section of an `m=` line, for the two kinds that are known. -/
def parseMediaLine (m : Str) : Option SdpMedia :=
  let fields := splitWhitespace m
  let payloadType := ((fields[3]?.bind (parseUnsigned 255)).map UInt8.ofNat).getD 0
  if fields.head? = some "video".toList then some ⟨.video, payloadType, none⟩
  else if fields.head? = some "audio".toList then some ⟨.audio, payloadType, none⟩
  else none

/-- One line of a session description: a section begins, or the last section gets its control
attribute. -/
def sdpLine (media : List SdpMedia) (line : Str) : List SdpMedia :=
  match stripPrefix "m=".toList (trim line) with
  | some m => media ++ (parseMediaLine m).toList
  | none =>
    match stripPrefix "a=control:".toList (trim line) with
    | some value =>
      let c := trim value
      -- before the first section, there is none to change
      if c = [] ∨ c = ['*'] then media
      else media.modifyLast fun last => { last with control := some c }
    | none => media

/-- Parse the media sections out of an SDP body; there has to be one. -/
def parseSdpMedia (sdp : Str) : Option (List SdpMedia) :=
  match (lines sdp).foldl sdpLine [] with
  | [] => none
  | media => some media

/-- The first of the two interleaved channels for a section. -/
def interleavedBase (i : ℕ) : UInt8 := if i * 2 ≤ 255 then UInt8.ofNat (i * 2) else 255

/-- SETUP each track in turn, up to the first that fails (`accepted i`: the SETUP of the section `i`
was sent, and answered with 200): the sections that were set up, with their RTP channels. -/
def setupAllTracks (accepted : ℕ → Bool) (media : List SdpMedia) : List (SdpMedia × UInt8) :=
  (media.zipIdx.takeWhile fun (_, i) => accepted i).map fun (m, i) => (m, interleavedBase i)

/-! ## Reading a response -/

/-- The bytes of a line: valid UTF-8 that ends with a line feed and contains no other. -/
structure IsLine (bytes : List UInt8) (text : Str) : Prop where
  ends : ∃ line, bytes = line ++ [10] ∧ 10 ∉ line
  decoded : decodeUtf8 bytes = some text

/-- The bytes of a header block: lines that are not blank, and a blank line. -/
inductive HeaderBlock : List UInt8 → Str → Prop
  | blank (bytes : List UInt8) (text : Str) : IsLine bytes text → trim text = [] →
      HeaderBlock bytes []
  | header (bytes rest : List UInt8) (text headers : Str) : IsLine bytes text → trim text ≠ [] →
      HeaderBlock rest headers → HeaderBlock (bytes ++ rest) (text ++ headers)

variable {r : BufReader}

/-- **Reading a line** consumes it, and nothing behind it. -/
theorem IsLine.readLine_eq {bytes rest : List UInt8} {text : Str} (h : IsLine bytes text)
    (hcapacity : 0 < r.capacity) (hbytes : r.bytes = bytes ++ rest) :
    readLine r = some (text, r.consume (fun _ => r.capacity) bytes.length) := by
  obtain ⟨line, rfl, hline⟩ := h.ends
  rw [List.append_assoc, List.singleton_append] at hbytes
  have hfuel : line.length < r.bytes.length + 1 := by
    rw [hbytes, List.length_append]
    omega
  rw [readLine, BufReader.readUntil_eq hcapacity hfuel hbytes hline]
  dsimp only
  rw [h.decoded, List.length_append]
  rfl

theorem IsLine.length_pos {bytes : List UInt8} {text : Str} (h : IsLine bytes text) :
    0 < bytes.length := by
  obtain ⟨line, rfl, -⟩ := h.ends
  rw [List.length_append]
  exact Nat.succ_pos _

/-- **Reading a header block** consumes it, and nothing behind it. -/
theorem HeaderBlock.readHeaders_eq {block rest : List UInt8} {headers before : Str} {fuel : ℕ}
    (h : HeaderBlock block headers) (hcapacity : 0 < r.capacity)
    (hbytes : r.bytes = block ++ rest) (hfuel : block.length < fuel) :
    readHeaders fuel before r =
      some (before ++ headers, r.consume (fun _ => r.capacity) block.length) := by
  induction h generalizing r before fuel with
  | blank bytes text hline hblank =>
    obtain ⟨fuel, rfl⟩ : ∃ n, fuel = n + 1 := ⟨fuel - 1, by omega⟩
    rw [readHeaders, hline.readLine_eq hcapacity hbytes]
    simp only [Option.bind_eq_bind, Option.bind_some, if_pos hblank, List.append_nil]
  | header bytes block text headers hline hblank _ ih =>
    obtain ⟨fuel, rfl⟩ : ∃ n, fuel = n + 1 := ⟨fuel - 1, by omega⟩
    rw [List.append_assoc] at hbytes
    rw [List.length_append] at hfuel
    have hpos := hline.length_pos
    have hroom : ∀ t, 0 < t → 0 < (fun _ : ℕ => r.capacity) t := fun _ _ => hcapacity
    have hrest : (r.consume (fun _ => r.capacity) bytes.length).bytes = block ++ rest := by
      rw [BufReader.bytes_consume hroom, hbytes, List.drop_left]
    have hcap := BufReader.capacity_consume (fun _ => r.capacity) bytes.length r
    rw [readHeaders, hline.readLine_eq hcapacity hbytes]
    simp only [Option.bind_eq_bind, Option.bind_some, if_neg hblank]
    rw [ih (by rwa [hcap]) hrest (by omega), hcap, List.append_assoc, List.length_append,
      BufReader.consume_add]

/-- **Reading a response** consumes its status line, its header block and its body, and nothing
behind them. -/
theorem readResponse_eq {statusLine block body rest : List UInt8} {statusText headers : Str}
    {code : UInt16} (hstatus : IsLine statusLine statusText)
    (hcode : parseStatusCode statusText = some code) (hblock : HeaderBlock block headers)
    (hlength : body.length = contentLength headers) (hcapacity : 0 < r.capacity)
    (hbytes : r.bytes = statusLine ++ (block ++ (body ++ rest))) :
    readResponse r = some (⟨code, headers, body⟩,
      r.consume (BufReader.headBodyRoom r.capacity body.length)
        (statusLine ++ block ++ body).length) := by
  have hroom : ∀ t, 0 < t → 0 < (fun _ : ℕ => r.capacity) t := fun _ _ => hcapacity
  have hcap := BufReader.capacity_consume (fun _ => r.capacity)
  have hheaders : (r.consume (fun _ => r.capacity) statusLine.length).bytes =
      block ++ (body ++ rest) := by
    rw [BufReader.bytes_consume hroom, hbytes, List.drop_left]
  have hbody : (r.consume (fun _ => r.capacity) (statusLine ++ block).length).bytes =
      body ++ rest := by
    rw [BufReader.bytes_consume hroom, hbytes, ← List.append_assoc, List.drop_left]
  have hhead : (r.consume (fun _ => r.capacity) statusLine.length).consume
      (fun _ => r.capacity) block.length =
        r.consume (fun _ => r.capacity) (statusLine ++ block).length := by
    rw [List.length_append, BufReader.consume_add]
  have hread : readHeaders ((r.consume (fun _ => r.capacity) statusLine.length).bytes.length + 1) []
      (r.consume (fun _ => r.capacity) statusLine.length) =
        some (headers, r.consume (fun _ => r.capacity) (statusLine ++ block).length) := by
    rw [hblock.readHeaders_eq (by rwa [hcap]) hheaders
      (by rw [hheaders, List.length_append]; omega), hcap, hhead, List.nil_append]
  have hlen : body.length ≤
      (r.consume (fun _ => r.capacity) (statusLine ++ block).length).bytes.length := by
    rw [hbody, List.length_append]
    omega
  have hexact := BufReader.readExact_eq (by rwa [hcap]) hlen
  rw [hcap, BufReader.consume_headBody, hbody, List.take_left] at hexact
  simp only [readResponse, hstatus.readLine_eq hcapacity hbytes, Option.bind_eq_bind,
    Option.bind_some, hcode, hread, ← hlength]
  have htotal : (statusLine ++ block ++ body).length = (statusLine ++ block).length + body.length :=
    List.length_append
  rw [htotal]
  by_cases hpos : 0 < body.length
  · rw [if_pos hpos, hexact]
    rfl
  · obtain rfl : body = [] := List.eq_nil_of_length_eq_zero (Nat.eq_zero_of_not_pos hpos)
    rw [if_neg hpos, ← BufReader.consume_headBody]
    rfl

/-- A well-formed response with status 200: a status line, a header block, and a body of the length
that the headers say. -/
structure OkResponse where
  statusLine : List UInt8
  statusText : Str
  headerBlock : List UInt8
  headers : Str
  body : List UInt8
  status_line : IsLine statusLine statusText
  status_ok : parseStatusCode statusText = some 200
  header_block : HeaderBlock headerBlock headers
  content_length : body.length = contentLength headers

namespace OkResponse

/-- The status line and the header block. -/
def head (response : OkResponse) : List UInt8 := response.statusLine ++ response.headerBlock

def bytes (response : OkResponse) : List UInt8 := response.head ++ response.body

/-- The response to PLAY is consumed, head and body. -/
theorem play_eq (response : OkResponse) {rest : List UInt8} (hcapacity : 0 < r.capacity)
    (hbytes : r.bytes = response.bytes ++ rest) :
    play r = some (r.consume (BufReader.headBodyRoom r.capacity response.body.length)
      response.bytes.length) := by
  rw [bytes, head, List.append_assoc, List.append_assoc] at hbytes
  rw [play, readResponse_eq response.status_line response.status_ok response.header_block
    response.content_length hcapacity hbytes]
  rfl

end OkResponse

/-! ## Direct reads -/

/-- What a direct read returns. -/
theorem readExact_cases {n : ℕ} {s s' : Socket} {bytes : List UInt8}
    (h : s.readExact n = some (bytes, s')) :
    n ≤ s.bytes.length ∧ bytes = s.bytes.take n ∧ s'.bytes = s.bytes.drop n := by
  by_cases hn : n ≤ s.bytes.length
  · obtain ⟨cuts, hread⟩ := Socket.readExact_eq hn
    rw [h] at hread
    obtain ⟨rfl, rfl⟩ := Prod.mk.inj (Option.some.inj hread)
    exact ⟨hn, rfl, rfl⟩
  · rw [Socket.readExact_eq_none (Nat.lt_of_not_le hn)] at h
    cases h

/-- **A packet takes its frame**: the payload, and four bytes before it. -/
theorem readRtpPacketLoop_size {fuel : ℕ} {s s' : Socket} {packet : RtpPacket}
    (h : readRtpPacketLoop fuel s = some (packet, s')) :
    packet.size + s'.bytes.length ≤ s.bytes.length := by
  induction fuel generalizing s with
  | zero => cases h
  | succ fuel ih =>
    rw [readRtpPacketLoop] at h
    obtain ⟨⟨magic, s₁⟩, hmagic, h⟩ := Option.bind_eq_some_iff.mp h
    obtain ⟨h₁, -, hs₁⟩ := readExact_cases hmagic
    have hlen₁ : s₁.bytes.length = s.bytes.length - 1 := by rw [hs₁, List.length_drop]
    dsimp only at h
    by_cases hresync : magic ≠ [0x24]
    · -- a byte is skipped
      rw [if_pos hresync] at h
      have := ih h
      omega
    · rw [if_neg hresync] at h
      obtain ⟨⟨channel, s₂⟩, hchannel, h⟩ := Option.bind_eq_some_iff.mp h
      obtain ⟨⟨len, s₃⟩, hread, h⟩ := Option.bind_eq_some_iff.mp h
      obtain ⟨⟨payload, s₄⟩, hpayload, h⟩ := Option.bind_eq_some_iff.mp h
      dsimp only at hread hpayload h
      -- each of the four reads takes its bytes from what the one before has left
      obtain ⟨h₂, -, hs₂⟩ := readExact_cases hchannel
      obtain ⟨h₃, -, hs₃⟩ := readExact_cases hread
      obtain ⟨h₄, hbytes, hs₄⟩ := readExact_cases hpayload
      have hlen₂ : s₂.bytes.length = s₁.bytes.length - 1 := by rw [hs₂, List.length_drop]
      have hlen₃ : s₃.bytes.length = s₂.bytes.length - 2 := by rw [hs₃, List.length_drop]
      have hlen₄ : payload.length + s₄.bytes.length = s₃.bytes.length := by
        rw [hbytes, hs₄, ← List.length_append, List.take_append_drop]
      split_ifs at h
      · obtain ⟨rfl, rfl⟩ := Prod.mk.inj (Option.some.inj h)
        rw [RtpPacket.size]
        omega
      · obtain ⟨rfl, rfl⟩ := Prod.mk.inj (Option.some.inj h)
        rw [RtpPacket.size]
        omega
      · -- the frame is consumed, and the loop goes on
        have := ih h
        omega

/-- There is no packet in fewer than four bytes. -/
theorem readRtpPacketLoop_short {fuel : ℕ} {s : Socket} (h : s.bytes.length < 4) :
    readRtpPacketLoop fuel s = none := by
  cases hread : readRtpPacketLoop fuel s with
  | none => rfl
  | some read =>
    have hsize := readRtpPacketLoop_size hread
    have hfour := read.1.four_le_size
    omega

/-- The packets that are received take their frames. -/
theorem receive_size (fuel : ℕ) (r : BufReader) :
    ((receive fuel r).map RtpPacket.size).sum ≤ r.inner.bytes.length := by
  induction fuel generalizing r with
  | zero => exact Nat.zero_le _
  | succ fuel ih =>
    rw [receive]
    cases hread : readRtpPacket r with
    | none => exact Nat.zero_le _
    | some read =>
      obtain ⟨packet, r'⟩ := read
      obtain ⟨⟨packet', s⟩, hloop, heq⟩ := Option.map_eq_some_iff.mp hread
      obtain ⟨rfl, rfl⟩ := Prod.mk.inj heq
      have hsize := readRtpPacketLoop_size hloop
      have hrest := ih { r with inner := s }
      dsimp only at hrest ⊢
      rw [List.map_cons, List.sum_cons]
      omega

end Fosipcore
