import Fosipcore.Library.Machine
import Fosipcore.Video.Pipeline

/-!
# Clients of the live streams

A running pipeline broadcasts its video tags and its audio tags. A client that requests
`stream1.flv` or `stream2.flv` is subscribed to one of the two channels; its writer task prepends
the FLV file header to the first tag it receives and forwards the others as they are. The muxers
cache their sequence headers, but the handlers do not read that cache.

## Main definitions

* `FlvClient`, `FlvClient.forward`: a subscribed client and its writer task
* `LiveServer`, `LiveServer.step`: the two arms of a pipeline and their clients
* `FlvClient.Initialised`: the sequence header precedes the media in what a client was sent

## Main results

* `LiveServer.run_initialised`: clients that subscribe before the sequence header of their stream
  is broadcast are initialised
* `LiveServer.late_client`: a client that subscribes after it is not
-/

namespace Fosipcore

open BigEndian Machine

/-! ## Tags as byte strings -/

/-- The AVC packet type in the bytes of a video tag: the second byte of its body. -/
def avcPacketTypeOf (tag : List UInt8) : Option UInt8 :=
  if tag[0]? = some tagTypeVideo then tag[12]? else none

/-- The AAC packet type in the bytes of an audio tag. -/
def aacPacketTypeOf (tag : List UInt8) : Option UInt8 :=
  if tag[0]? = some 0x08 then tag[12]? else none

/-- No tag with packet type 1 precedes the first tag with packet type 0. -/
def headerFirst (packetTypeOf : List UInt8 → Option UInt8) : List (List UInt8) → Bool
  | [] => true
  | tag :: tags =>
    if packetTypeOf tag = some 0 then true
    else packetTypeOf tag ≠ some 1 && headerFirst packetTypeOf tags

/-- Some tag has packet type 0. -/
def hasHeader (packetTypeOf : List UInt8 → Option UInt8) (tags : List (List UInt8)) : Bool :=
  tags.any fun tag => packetTypeOf tag = some 0

/-! ## Clients -/

/-- A client and its writer task: whether nothing was sent yet, the file header until it is sent,
the tags waiting in the broadcast receiver, and the chunks sent. -/
structure FlvClient where
  first : Bool
  header : Option (List UInt8)
  queue : List (List UInt8)
  delivered : List (List UInt8)
  deriving DecidableEq

namespace FlvClient

/-- A client that has just subscribed. -/
def subscribe (header : List UInt8) : FlvClient := ⟨true, some header, [], []⟩

/-- The channel hands a tag to every receiver. -/
def send (tags : List (List UInt8)) (c : FlvClient) : FlvClient :=
  { c with queue := c.queue ++ tags }

/-- One iteration of the writer task: the file header goes in front of the first tag. -/
def forward (c : FlvClient) : Option FlvClient :=
  match c.queue with
  | [] => none
  | data :: queue =>
    -- the file header is taken when the first tag comes
    if c.first then
      some ⟨false, none, queue, c.delivered ++ [c.header.getD [] ++ data]⟩
    else some { c with queue := queue, delivered := c.delivered ++ [data] }

/-- **What a client needs**: whatever it was sent is the file header and then tags, the sequence
header before any media. -/
def Initialised (packetTypeOf : List UInt8 → Option UInt8) (header : List UInt8)
    (c : FlvClient) : Prop :=
  c.delivered = [] ∨ ∃ tag tags, c.delivered = (header ++ tag) :: tags ∧
    headerFirst packetTypeOf (tag :: tags) = true

end FlvClient

/-! ## The server -/

/-- The two arms of a running pipeline, and the clients of either stream. -/
structure LiveServer (codec : AacCodec) where
  video : VideoPipeline
  audio : AudioTranscoder codec
  videoClients : List FlvClient
  audioClients : List FlvClient

/-- What can happen next: a packet, a request for a stream, or progress of a writer task. -/
inductive LiveEvent where
  | videoPacket (pkt : TimedPacket)
  | audioPacket (rtp : List UInt8)
  | joinVideo
  | joinAudio
  | forwardVideo (n : ℕ)
  | forwardAudio (n : ℕ)

/-- Progress of the `n`-th writer task. -/
def forwardNth (clients : List FlvClient) (n : ℕ) : Option (List FlvClient) :=
  match clients[n]? with
  | none => none
  | some c => c.forward.map (clients.set n)

namespace LiveServer

variable {codec : AacCodec}

/-- A pipeline that has just started. -/
def new (audio : AudioTranscoder codec) : LiveServer codec := ⟨.new, audio, [], []⟩

/-- The successor of a state: broadcasts reach the clients subscribed at that moment. -/
def step (s : LiveServer codec) : LiveEvent → Option (LiveServer codec)
  | .videoPacket pkt =>
    let (tags, video) := s.video.step pkt
    some { s with video := video, videoClients := s.videoClients.map (.send tags) }
  | .audioPacket rtp =>
    let (tags, audio) := s.audio.step rtp
    some { s with audio := audio, audioClients := s.audioClients.map (.send tags) }
  | .joinVideo => some { s with videoClients := s.videoClients ++ [.subscribe flvHeader] }
  | .joinAudio => some { s with audioClients := s.audioClients ++ [.subscribe flvAudioHeader] }
  | .forwardVideo n => (forwardNth s.videoClients n).map fun cs => { s with videoClients := cs }
  | .forwardAudio n => (forwardNth s.audioClients n).map fun cs => { s with audioClients := cs }

theorem step_videoPacket (s : LiveServer codec) (pkt : TimedPacket) :
    s.step (.videoPacket pkt) = some { s with
      video := (s.video.step pkt).2
      videoClients := s.videoClients.map (.send (s.video.step pkt).1) } := rfl

theorem step_audioPacket (s : LiveServer codec) (rtp : List UInt8) :
    s.step (.audioPacket rtp) = some { s with
      audio := (s.audio.step rtp).2
      audioClients := s.audioClients.map (.send (s.audio.step rtp).1) } := rfl

theorem step_joinVideo (s : LiveServer codec) :
    s.step .joinVideo = some { s with
      videoClients := s.videoClients ++ [.subscribe flvHeader] } := rfl

/-- Every client of either stream is initialised. -/
def Initialised (s : LiveServer codec) : Prop :=
  (∀ c ∈ s.videoClients, c.Initialised avcPacketTypeOf flvHeader) ∧
    ∀ c ∈ s.audioClients, c.Initialised aacPacketTypeOf flvAudioHeader

/-- Nobody requests a stream whose sequence header has been broadcast. -/
def joinsInTime (s : LiveServer codec) : LiveEvent → Prop
  | .joinVideo => s.video.muxer.initialized = false
  | .joinAudio => s.audio.seqSent = false
  | _ => True

instance (s : LiveServer codec) : (e : LiveEvent) → Decidable (joinsInTime s e)
  | .joinVideo | .joinAudio => inferInstanceAs (Decidable (_ = _))
  | .videoPacket _ | .audioPacket _ | .forwardVideo _ | .forwardAudio _ => .isTrue trivial

end LiveServer

/-! ## What the two arms emit -/

theorem headerFirst_append {packetTypeOf : List UInt8 → Option UInt8} {tags : List (List UInt8)}
    (hfirst : headerFirst packetTypeOf tags = true) (hhas : hasHeader packetTypeOf tags = true)
    (more : List (List UInt8)) : headerFirst packetTypeOf (tags ++ more) = true := by
  induction tags with
  | nil => cases hhas
  | cons tag tags ih =>
    rw [List.cons_append, headerFirst]
    rw [headerFirst] at hfirst
    -- in front of the header nothing is media, and the header is among the first tags
    split_ifs at hfirst ⊢ with h0
    · rfl
    · obtain ⟨h1, hfirst⟩ := Bool.and_eq_true_iff.mp hfirst
      have hhas : hasHeader packetTypeOf tags = true := by simpa [hasHeader, h0] using hhas
      rw [h1, ih hfirst hhas]
      rfl

theorem headerFirst_of_append {packetTypeOf : List UInt8 → Option UInt8}
    {tags more : List (List UInt8)} (h : headerFirst packetTypeOf (tags ++ more) = true) :
    headerFirst packetTypeOf tags = true := by
  induction tags with
  | nil => rfl
  | cons tag tags ih =>
    rw [List.cons_append, headerFirst] at h
    rw [headerFirst]
    split_ifs at h ⊢ with h0
    · rfl
    · obtain ⟨h1, h⟩ := Bool.and_eq_true_iff.mp h
      rw [h1, ih h]
      rfl

/-- One call of a muxer, by whether its sequence header is still to be emitted before and after:
it emits nothing, the header before any media, or media once the header is out. -/
inductive Emission (packetTypeOf : List UInt8 → Option UInt8) :
    Bool → List (List UInt8) → Bool → Prop
  | silent (fresh : Bool) : Emission packetTypeOf fresh [] fresh
  | burst {tags : List (List UInt8)} : headerFirst packetTypeOf tags = true →
      hasHeader packetTypeOf tags = true → Emission packetTypeOf true tags false
  | media {tags : List (List UInt8)} : (∀ tag ∈ tags, packetTypeOf tag = some 1) →
      Emission packetTypeOf false tags false

theorem Emission.stays {packetTypeOf : List UInt8 → Option UInt8} {tags : List (List UInt8)}
    {fresh : Bool} (h : Emission packetTypeOf false tags fresh) : fresh = false := by
  cases h <;> rfl

theorem avcPacketTypeOf_videoFrameTag (frameType packetType : UInt8) (data : List UInt8)
    (timestamp : UInt32) :
    avcPacketTypeOf (FlvMuxer.buildVideoFrameTag frameType packetType data timestamp) =
      some packetType := rfl

theorem aacPacketTypeOf_audioTag (packetType : UInt8) (data : List UInt8) (timestamp : UInt32) :
    aacPacketTypeOf (buildAudioTag ([packetType] ++ data) timestamp) = some packetType := rfl

/-- The initialisation burst is the script tag and the sequence header. -/
theorem FlvMuxer.emitInitialization_emission (m : FlvMuxer) (now : Instant) :
    Emission avcPacketTypeOf true (m.emitInitialization now).1
      (!(m.emitInitialization now).2.initialized) := by
  have hscript : avcPacketTypeOf (buildScriptTag (m.elapsedMs now)) = none := rfl
  have hheader : avcPacketTypeOf (m.buildSequenceHeaderWithTs (m.elapsedMs now)) = some 0 := rfl
  refine .burst ?_ ?_
  · simp [emitInitialization, headerFirst, hscript, hheader]
  · simp [emitInitialization, hasHeader, hheader]

/-- A parameter set makes the burst, or nothing once the burst has left or while its partner is
missing. -/
theorem FlvMuxer.emission_of_partner (m : FlvMuxer) (partner : Bool) (now : Instant) :
    let emitted := if partner && !m.initialized then m.emitInitialization now else ([], m)
    Emission avcPacketTypeOf (!m.initialized) emitted.1 (!emitted.2.initialized) := by
  dsimp only
  cases hm : m.initialized with
  | true =>
    simp only [Bool.not_true, Bool.and_false, Bool.false_eq_true, if_false, hm]
    exact .silent false
  | false =>
    simp only [Bool.not_false, Bool.and_true]
    split_ifs
    · exact emitInitialization_emission m now
    · rw [hm]
      exact .silent true

theorem FlvMuxer.processNal_emission (m : FlvMuxer) (nal : NalUnit) (now now' : Instant) :
    Emission avcPacketTypeOf (!m.initialized) (m.processNal nal now now').1
      (!(m.processNal nal now now').2.initialized) := by
  by_cases hsps : nal.nalType = nalTypeSps
  · rw [processNal_sps m hsps]
    exact emission_of_partner
      { m with startTime := some (m.startTime.getD now), sps := some (rawParameterSet nal.data) }
      m.pps.isSome now'
  by_cases hpps : nal.nalType = nalTypePps
  · rw [processNal_pps m hpps]
    exact emission_of_partner { m with pps := some (rawParameterSet nal.data) } m.sps.isSome now'
  cases hm : m.initialized with
  | false =>
    rw [processNal_deferred hm hsps hpps, hm]
    exact .silent true
  | true =>
    rw [processNal_frame hm hsps hpps]
    dsimp only
    rw [hm]
    refine .media fun tag htag => ?_
    obtain rfl := List.mem_singleton.mp htag
    exact avcPacketTypeOf_videoFrameTag _ avcNalu _ _

theorem VideoPipeline.step_emission (p : VideoPipeline) (pkt : TimedPacket) :
    Emission avcPacketTypeOf (!p.muxer.initialized) (p.step pkt).1
      (!(p.step pkt).2.muxer.initialized) := by
  rcases hparse : p.parser.parse pkt.payload 0 with ⟨_ | nal, parser⟩
  · rw [step_none hparse]
    exact .silent _
  · rw [step_some hparse]
    exact p.muxer.processNal_emission nal pkt.now pkt.now'

theorem AudioTranscoder.step_emission {codec : AacCodec} {asc : List UInt8}
    {t : AudioTranscoder codec} (ht : t.HeaderOf asc) (rtp : List UInt8) :
    Emission aacPacketTypeOf (!t.seqSent) (t.step rtp).1 (!(t.step rtp).2.seqSent) := by
  obtain ⟨-, ⟨-, hout, hsent⟩ | ⟨-, hout, hsent⟩⟩ := t.step_cases rtp
  · rw [hout, hsent]
    exact .silent _
  · rw [hout, hsent]
    cases t.seqSent with
    | true =>
      refine .media fun tag htag => ?_
      obtain ⟨unit, -, rfl⟩ := List.mem_map.mp htag
      exact aacPacketTypeOf_audioTag 1 unit.data _
    | false =>
      have hheader : aacPacketTypeOf t.muxer.sequenceHeaderTag = some 0 := by
        rw [show t.muxer.sequenceHeaderTag = aacSequenceHeaderTag asc 0 from ht]
        exact aacPacketTypeOf_audioTag 0 asc 0
      refine .burst ?_ ?_
      · simp [headerFirst, hheader]
      · simp [hasHeader, hheader]

/-! ## What a client was sent -/

namespace FlvClient

/-- A client that was subscribed when `history` began: all of it waits, or a first part of it was
sent behind the file header. -/
inductive Saw (header : List UInt8) (history : List (List UInt8)) : FlvClient → Prop
  | waiting : Saw header history ⟨true, some header, history, []⟩
  | sent {tag : List UInt8} {tags queue : List (List UInt8)} :
      history = tag :: (tags ++ queue) →
      Saw header history ⟨false, none, queue, (header ++ tag) :: tags⟩

theorem Saw.send {header : List UInt8} {history : List (List UInt8)} {c : FlvClient}
    (h : c.Saw header history) (tags : List (List UInt8)) :
    (c.send tags).Saw header (history ++ tags) := by
  cases h with
  | waiting => exact .waiting
  | sent h =>
    refine .sent ?_
    rw [h, List.cons_append, List.append_assoc]

theorem Saw.forward {header : List UInt8} {history : List (List UInt8)} {c c' : FlvClient}
    (h : c.Saw header history) (hc : c.forward = some c') : c'.Saw header history := by
  cases h with
  | waiting =>
    cases history with
    | nil => cases hc
    | cons tag queue =>
      obtain rfl := Option.some.inj hc
      exact .sent rfl
  | @sent tag tags queue h =>
    cases queue with
    | nil => cases hc
    | cons data queue =>
      obtain rfl := Option.some.inj hc
      have hmove : history = tag :: ((tags ++ [data]) ++ queue) := by
        rw [h, List.append_assoc]
        rfl
      exact .sent hmove

theorem Saw.initialised {packetTypeOf : List UInt8 → Option UInt8} {header : List UInt8}
    {history : List (List UInt8)} {c : FlvClient} (h : c.Saw header history)
    (hfirst : headerFirst packetTypeOf history = true) : c.Initialised packetTypeOf header := by
  cases h with
  | waiting => exact .inl rfl
  | sent h =>
    rw [h, ← List.cons_append] at hfirst
    exact .inr ⟨_, _, rfl, headerFirst_of_append hfirst⟩

end FlvClient

/-- The tags broadcast so far: none while the sequence header is to come, afterwards tags with
the header before any media; and every client saw them from the beginning. -/
def Served (packetTypeOf : List UInt8 → Option UInt8) (header : List UInt8) (fresh : Bool)
    (clients : List FlvClient) : Prop :=
  ∃ history, (fresh = true → history = []) ∧
    (fresh = false → headerFirst packetTypeOf history = true ∧
      hasHeader packetTypeOf history = true) ∧
    ∀ c ∈ clients, c.Saw header history

namespace Served

variable {packetTypeOf : List UInt8 → Option UInt8} {header : List UInt8} {fresh : Bool}
  {clients : List FlvClient}

theorem send (h : Served packetTypeOf header fresh clients) {tags : List (List UInt8)}
    {fresh' : Bool} (he : Emission packetTypeOf fresh tags fresh') :
    Served packetTypeOf header fresh' (clients.map (.send tags)) := by
  obtain ⟨history, hfresh, hout, hclients⟩ := h
  refine ⟨history ++ tags, ?_, ?_, ?_⟩
  · intro hfresh'
    cases he with
    | silent =>
      rw [hfresh hfresh']
      rfl
    | burst | media => cases hfresh'
  · intro hfresh'
    cases he with
    | silent =>
      rw [List.append_nil]
      exact hout hfresh'
    | burst hfirst hhas =>
      rw [hfresh rfl, List.nil_append]
      exact ⟨hfirst, hhas⟩
    | media =>
      -- media come behind a header that was broadcast before
      obtain ⟨hfirst, hhas⟩ := hout rfl
      refine ⟨headerFirst_append hfirst hhas tags, ?_⟩
      rw [hasHeader, List.any_append]
      exact Bool.or_eq_true_iff.mpr (.inl hhas)
  · intro c hc
    obtain ⟨c, hmem, rfl⟩ := List.mem_map.mp hc
    exact (hclients c hmem).send tags

/-- A client that subscribes in time saw the whole broadcast: nothing. -/
theorem subscribe (h : Served packetTypeOf header true clients) :
    Served packetTypeOf header true (clients ++ [.subscribe header]) := by
  obtain ⟨history, hfresh, hout, hclients⟩ := h
  obtain rfl := hfresh rfl
  refine ⟨[], hfresh, hout, fun c hc => ?_⟩
  rcases List.mem_append.mp hc with hc | hc
  · exact hclients c hc
  · obtain rfl := List.mem_singleton.mp hc
    exact .waiting

theorem forwardNth (h : Served packetTypeOf header fresh clients) {n : ℕ}
    {clients' : List FlvClient} (hn : forwardNth clients n = some clients') :
    Served packetTypeOf header fresh clients' := by
  obtain ⟨history, hfresh, hout, hclients⟩ := h
  refine ⟨history, hfresh, hout, ?_⟩
  unfold Fosipcore.forwardNth at hn
  cases hc : clients[n]? with
  | none =>
    rw [hc] at hn
    cases hn
  | some c =>
    rw [hc] at hn
    obtain ⟨c', hforward, rfl⟩ := Option.map_eq_some_iff.mp hn
    intro d hd
    rcases List.mem_or_eq_of_mem_set hd with hd | rfl
    · exact hclients d hd
    · exact (hclients c (List.mem_of_getElem? hc)).forward hforward

theorem initialised (h : Served packetTypeOf header fresh clients) :
    ∀ c ∈ clients, c.Initialised packetTypeOf header := by
  obtain ⟨history, hfresh, hout, hclients⟩ := h
  have hfirst : headerFirst packetTypeOf history = true := by
    cases fresh with
    | true =>
      rw [hfresh rfl]
      rfl
    | false => exact (hout rfl).1
  exact fun c hc => (hclients c hc).initialised hfirst

end Served

namespace LiveServer

variable {codec : AacCodec}

/-- Both streams are served from the beginning, and the cached audio header is a header. -/
structure Inv (asc : List UInt8) (s : LiveServer codec) : Prop where
  header : s.audio.HeaderOf asc
  video : Served avcPacketTypeOf flvHeader (!s.video.muxer.initialized) s.videoClients
  audio : Served aacPacketTypeOf flvAudioHeader (!s.audio.seqSent) s.audioClients

theorem step_inv {asc : List UInt8} (s : LiveServer codec) (e : LiveEvent)
    (s' : LiveServer codec) (hs : s.Inv asc) (hjoin : joinsInTime s e) (h : s.step e = some s') :
    s'.Inv asc := by
  obtain ⟨hheader, hvideo, haudio⟩ := hs
  cases e with
  | videoPacket pkt =>
    rw [step_videoPacket] at h
    obtain rfl := Option.some.inj h
    exact ⟨hheader, hvideo.send (s.video.step_emission pkt), haudio⟩
  | audioPacket rtp =>
    rw [step_audioPacket] at h
    obtain rfl := Option.some.inj h
    refine ⟨?_, hvideo, haudio.send (AudioTranscoder.step_emission hheader rtp)⟩
    have hmuxer : (s.audio.step rtp).2.muxer = s.audio.muxer := (s.audio.step_cases rtp).1
    rw [AudioTranscoder.HeaderOf, hmuxer]
    exact hheader
  | joinVideo =>
    obtain rfl := Option.some.inj h
    have hfresh : s.video.muxer.initialized = false := hjoin
    refine ⟨hheader, ?_, haudio⟩
    rw [hfresh] at hvideo ⊢
    exact hvideo.subscribe
  | joinAudio =>
    obtain rfl := Option.some.inj h
    have hfresh : s.audio.seqSent = false := hjoin
    refine ⟨hheader, hvideo, ?_⟩
    rw [hfresh] at haudio ⊢
    exact haudio.subscribe
  | forwardVideo n =>
    obtain ⟨clients, hforward, rfl⟩ := Option.map_eq_some_iff.mp h
    exact ⟨hheader, hvideo.forwardNth hforward, haudio⟩
  | forwardAudio n =>
    obtain ⟨clients, hforward, rfl⟩ := Option.map_eq_some_iff.mp h
    exact ⟨hheader, hvideo, haudio.forwardNth hforward⟩

theorem inv_new {t : AudioTranscoder codec} (ht : AudioTranscoder.new codec = .ok t) :
    (new t).Inv (codec.aacLcAsc audioSampleRate audioChannels) := by
  have hsent : t.seqSent = false := by
    unfold AudioTranscoder.new at ht
    split at ht
    · cases ht
    · obtain rfl := Except.ok.inj ht
      rfl
  refine ⟨AudioTranscoder.headerOf_new ht, ⟨[], fun _ => rfl, ?_, ?_⟩,
    ⟨[], fun _ => rfl, ?_, ?_⟩⟩
  · rintro ⟨⟩
  · rintro c ⟨⟩
  · intro h
    rw [show (new t).audio.seqSent = false from hsent] at h
    cases h
  · rintro c ⟨⟩

/-- **Clients that subscribe in time are initialised**: in every run in which no client requests
a stream after its sequence header was broadcast, whatever a client was sent has the sequence
header before any media. -/
theorem run_initialised {t : AudioTranscoder codec} (ht : AudioTranscoder.new codec = .ok t)
    {es : List LiveEvent} {s : LiveServer codec} (h : Run step joinsInTime (new t) es s) :
    s.Initialised := by
  obtain ⟨-, hvideo, haudio⟩ := h.invariant step_inv (inv_new ht)
  exact ⟨hvideo.initialised, haudio.initialised⟩

/-- A viewer that is there from the beginning of a stream of two parameter sets and a keyframe. -/
def earlyJoin : List LiveEvent :=
  [.joinVideo, .videoPacket ⟨VideoPipeline.sampleRtpHeader ++ VideoPipeline.sampleSps.bytes, 0, 0⟩,
    .videoPacket ⟨VideoPipeline.sampleRtpHeader ++ VideoPipeline.samplePps.bytes, 0, 0⟩,
    .videoPacket ⟨VideoPipeline.sampleRtpHeader ++ VideoPipeline.sampleIdr.bytes, 0, 0⟩,
    .forwardVideo 0, .forwardVideo 0, .forwardVideo 0]

theorem run_initialised_earlyJoin :
    ∃ s, Run step joinsInTime (new sampleTranscoder) earlyJoin s ∧ s.Initialised ∧
      s.videoClients.map (fun c => c.delivered.length) = [3] := by
  have hexec : (exec step joinsInTime (new sampleTranscoder) earlyJoin).map
      (fun s => s.videoClients.map fun c => c.delivered.length) = some [3] := by
    decide +kernel
  obtain ⟨s, hrun, hlen⟩ := Run.of_exec_map hexec
  exact ⟨s, hrun, run_initialised rfl hrun, hlen⟩

/-- The same stream with a viewer that comes when both parameter sets have gone by. -/
def lateJoin : List LiveEvent :=
  [.videoPacket ⟨VideoPipeline.sampleRtpHeader ++ VideoPipeline.sampleSps.bytes, 0, 0⟩,
    .videoPacket ⟨VideoPipeline.sampleRtpHeader ++ VideoPipeline.samplePps.bytes, 0, 0⟩,
    .joinVideo,
    .videoPacket ⟨VideoPipeline.sampleRtpHeader ++ VideoPipeline.sampleIdr.bytes, 0, 0⟩,
    .forwardVideo 0]

theorem lateJoin_not_initialised :
    ∃ s, Run step free (new sampleTranscoder) lateJoin s ∧ ¬ s.Initialised := by
  have hexec : (exec step free (new sampleTranscoder) lateJoin).map
      (fun s => s.videoClients.map FlvClient.delivered) =
        some [[flvHeader ++ FlvMuxer.buildVideoTag (toBytes 4 4 ++ VideoPipeline.sampleIdr.bytes)
          true 0]] := by
    decide +kernel
  obtain ⟨s, hrun, hdelivered⟩ := Run.of_exec_map hexec
  refine ⟨s, hrun, fun hall => ?_⟩
  obtain ⟨c, hclients, hc⟩ := List.map_eq_singleton_iff.mp hdelivered
  have hmem : c ∈ s.videoClients := by
    rw [hclients]
    exact List.mem_singleton_self c
  rcases hall.1 c hmem with h | ⟨tag, tags, h, hfirst⟩
  · rw [hc] at h
    cases h
  · rw [hc] at h
    obtain ⟨htag, rfl⟩ := List.cons.inj h
    obtain rfl := List.append_cancel_left htag
    revert hfirst
    decide +kernel

/-- A late client is not initialised by the tags that come after the header: the first one it is
sent is media. -/
theorem late_emission {packetTypeOf : List UInt8 → Option UInt8} {tags : List (List UInt8)}
    {header : List UInt8} (he : Emission packetTypeOf false tags false) {c c' : FlvClient}
    (hc : (FlvClient.subscribe header).send tags = c) (hforward : c.forward = some c') :
    ¬ c'.Initialised packetTypeOf header := by
  subst hc
  cases tags with
  | nil => cases hforward
  | cons tag tags =>
    obtain rfl := Option.some.inj hforward
    have hmedia : packetTypeOf tag = some 1 := by
      cases he with
      | media h => exact h tag List.mem_cons_self
    rintro (h | ⟨tag', tags', h, hfirst⟩)
    · cases h
    · obtain ⟨htag, rfl⟩ := List.cons.inj h
      obtain rfl : tag = tag' := List.append_cancel_left htag
      simp [headerFirst, hmedia] at hfirst

/-- **A client that subscribes after the burst is not initialised** by the next packet that
broadcasts anything: its first tag is a NAL unit. -/
theorem late_client {s s' : LiveServer codec} (hinit : s.video.muxer.initialized = true)
    {pkt : TimedPacket}
    (h : Run step free s [.joinVideo, .videoPacket pkt, .forwardVideo s.videoClients.length] s') :
    ¬ s'.Initialised := by
  have hemission := s.video.step_emission pkt
  rw [hinit] at hemission
  have hdone := hemission.stays
  rw [hdone] at hemission
  obtain _ | ⟨-, hjoin, _ | ⟨-, hpacket, _ | ⟨-, hforward, ⟨⟩⟩⟩⟩ := h
  rw [step_joinVideo] at hjoin
  obtain rfl := Option.some.inj hjoin
  rw [step_videoPacket] at hpacket
  obtain rfl := Option.some.inj hpacket
  obtain ⟨clients, hnth, rfl⟩ := Option.map_eq_some_iff.mp hforward
  have hlast : ((s.videoClients ++ [FlvClient.subscribe flvHeader]).map
      (FlvClient.send (s.video.step pkt).1))[s.videoClients.length]? =
        some ((FlvClient.subscribe flvHeader).send (s.video.step pkt).1) := by
    simp
  dsimp only at hnth
  rw [forwardNth, hlast] at hnth
  obtain ⟨c', hc', rfl⟩ := Option.map_eq_some_iff.mp hnth
  intro hall
  refine late_emission hemission rfl hc' (hall.1 c' ?_)
  exact List.mem_set (by simp) c'

end LiveServer

end Fosipcore
