import Fosipcore.Library.Machine
import Fosipcore.Video.Interleaved
import Fosipcore.Video.StreamClients
import Mathlib.Logic.Function.Basic

/-!
# The tasks of a running pipeline

A reader task takes packets from the connection with the camera and sends them into a queue of 128.
The pipeline task receives them there, and broadcasts the tags that they make, on one of two
streams. Each client has a task of its own. The tasks run on their own, and wait for one another
only where a queue is full or empty; the pipeline waits for no client.

The connection is read until it fails. Behind the last packet the reader gets an error if the camera
closes the connection, and waits without a timeout if it does not. The pipeline ends when the reader
has ended and the queue is empty, or it is aborted when the video server is stopped.

## Main definitions

* `PipelineTasks`, `PipelineTasks.step`: the tasks, their queues and the broadcasts
* `PipelineTasks.Awaits`: the reader waits for a camera that sends nothing
* `source`: the packets of a connection
* `Processed`, `emitted`: packets with the clock readings of their processing, and what they emit
* `PipelineTasks.Inv`: where the packets of the connection are

## Main results

* `PipelineTasks.step_cases`: what a step does
* `PipelineTasks.Inv.run`: in every run no packet is lost between the connection and the pipeline,
  or overtakes another one, and every client is served
* `PipelineTasks.run_clients`: what a client has of the stream, in every state
-/

namespace Fosipcore

open ByteStream FlvContainer Machine Transducer

/-- The packets that wait for the pipeline. -/
abbrev packetCapacity : ℕ := 128

/-- The task that reads the connection: it reads, or it waits with a packet. -/
inductive ReaderTask where
  | reading (r : BufReader)
  | sending (packet : RtpPacket) (r : BufReader)
  | ended

/-- The task of the pipeline: it runs, its loop has ended, or it was aborted. -/
inductive PipelineTask (codec : AacCodec) where
  | running (video : VideoPipeline) (audio : AudioTranscoder codec)
  | completed
  | aborted

/-- Process a packet: the stream of its tags, the tags, and the task behind it. -/
def processPacket {codec : AacCodec} (video : VideoPipeline) (audio : AudioTranscoder codec)
    (packet : RtpPacket) (now now' : Instant) :
    MediaKind × List (List UInt8) × PipelineTask codec :=
  match packet with
  | .video payload =>
    let (tags, video) := video.step ⟨payload, now, now'⟩
    (.video, tags, .running video audio)
  | .audio payload =>
    let (tags, audio) := audio.step payload
    (.audio, tags, .running video audio)

/-- A live stream: its broadcast, and its clients. -/
structure LiveStream where
  tags : Broadcast (List UInt8) broadcastCapacity
  clients : List StreamClient

namespace LiveStream

def new : LiveStream := ⟨.new, []⟩

def broadcast (tags : List (List UInt8)) (s : LiveStream) : LiveStream :=
  { s with tags := s.tags.sendAll tags }

def join (header : List UInt8) (s : LiveStream) : LiveStream :=
  { s with clients := s.clients ++ [.subscribe header s.tags] }

/-- A step of a client. -/
def clientStep (closed : Bool) (i : ℕ) (e : StreamClient.Event) (s : LiveStream) :
    Option LiveStream :=
  s.clients[i]?.bind fun c =>
    (c.step s.tags closed e).map fun c => { s with clients := s.clients.set i c }

end LiveStream

/-- The file header of a stream. -/
def MediaKind.header : MediaKind → List UInt8
  | .video => flvHeader
  | .audio => flvAudioHeader

/-- The tasks of a pipeline, with the queue between them, whether the video server still knows the
broadcasts, and the two streams. What the camera sends is given by the reader, and whether it closes
the connection behind that by `closes`. -/
structure PipelineTasks (codec : AacCodec) where
  closes : Bool
  reader : ReaderTask
  packets : BoundedQueue RtpPacket packetCapacity
  pipeline : PipelineTask codec
  registered : Bool
  stream : MediaKind → LiveStream

namespace PipelineTasks

variable {codec : AacCodec}

/-- The tasks behind a handshake that has succeeded. -/
def new (audio : AudioTranscoder codec) (r : BufReader) (closes : Bool) : PipelineTasks codec :=
  ⟨closes, .reading r, .empty, .running .new audio, true, fun _ => .new⟩

/-- What can happen: a task takes a step, the video server is stopped in two steps, or a client
subscribes to a stream. -/
inductive Event where
  | read
  | send
  | process (now now' : Instant)
  | deregister
  | abort
  | join (kind : MediaKind)
  | client (kind : MediaKind) (i : ℕ) (e : StreamClient.Event)

/-- The pipeline runs. -/
def isRunning : PipelineTask codec → Bool
  | .running _ _ => true
  | .completed | .aborted => false

/-- All senders of the broadcasts are gone. -/
def closed (s : PipelineTasks codec) : Bool := !s.registered && !isRunning s.pipeline

def setStream (s : PipelineTasks codec) (kind : MediaKind) (stream : LiveStream) :
    PipelineTasks codec :=
  { s with stream := Function.update s.stream kind stream }

/-- The tags of a packet are broadcast on the stream of its track. -/
def afterPacket (s : PipelineTasks codec) (packets : BoundedQueue RtpPacket packetCapacity)
    (result : MediaKind × List (List UInt8) × PipelineTask codec) : PipelineTasks codec :=
  { s with packets := packets, pipeline := result.2.2 }.setStream result.1
    ((s.stream result.1).broadcast result.2.1)

def step (s : PipelineTasks codec) : Event → Option (PipelineTasks codec)
  | .read =>
    match s.reader with
    | .reading r =>
      match readRtpPacket r with
      | some (packet, r) => some { s with reader := .sending packet r }
      -- the end of the bytes: `read_exact` fails, or it goes on waiting
      | none => if s.closes then some { s with reader := .ended } else none
    | .sending _ _ | .ended => none
  | .send =>
    match s.reader with
    | .sending packet r =>
      -- the queue ends with the pipeline
      if isRunning s.pipeline then
        (s.packets.send packet).map fun packets =>
          { s with reader := .reading r, packets := packets }
      else some { s with reader := .ended }
    | .reading _ | .ended => none
  | .process now now' =>
    match s.pipeline with
    | .running video audio =>
      match s.packets.recv with
      | some (packet, packets) =>
        some (s.afterPacket packets (processPacket video audio packet now now'))
      | none =>
        match s.reader with
        | .ended => some { s with pipeline := .completed }
        | .reading _ | .sending _ _ => none
    | .completed | .aborted => none
  | .deregister => some { s with registered := false }
  | .abort =>
    if s.registered then none
    else
      match s.pipeline with
      | .running _ _ => some { s with pipeline := .aborted, packets := .empty }
      | .completed | .aborted => none
  | .join kind =>
    if s.registered then some (s.setStream kind ((s.stream kind).join kind.header)) else none
  | .client kind i e =>
    ((s.stream kind).clientStep s.closed i e).map (s.setStream kind)

/-- What a step does. -/
inductive StepTo (s : PipelineTasks codec) : Event → PipelineTasks codec → Prop
  | read (r : BufReader) (packet : RtpPacket) (r' : BufReader) (hreader : s.reader = .reading r)
      (hread : readRtpPacket r = some (packet, r')) :
      StepTo s .read { s with reader := .sending packet r' }
  | readError (r : BufReader) (hreader : s.reader = .reading r) (hread : readRtpPacket r = none)
      (hcloses : s.closes = true) : StepTo s .read { s with reader := .ended }
  | send (packet : RtpPacket) (r : BufReader) (packets : BoundedQueue RtpPacket packetCapacity)
      (hreader : s.reader = .sending packet r) (hrunning : isRunning s.pipeline = true)
      (hsend : s.packets.send packet = some packets) :
      StepTo s .send { s with reader := .reading r, packets := packets }
  | sendError (packet : RtpPacket) (r : BufReader) (hreader : s.reader = .sending packet r)
      (hgone : isRunning s.pipeline = false) : StepTo s .send { s with reader := .ended }
  | process (now now' : Instant) (video : VideoPipeline) (audio : AudioTranscoder codec)
      (packet : RtpPacket) (packets : BoundedQueue RtpPacket packetCapacity)
      (hpipeline : s.pipeline = .running video audio)
      (hrecv : s.packets.recv = some (packet, packets)) :
      StepTo s (.process now now') (s.afterPacket packets (processPacket video audio packet now now'))
  | complete (now now' : Instant) (video : VideoPipeline) (audio : AudioTranscoder codec)
      (hpipeline : s.pipeline = .running video audio) (hrecv : s.packets.recv = none)
      (hreader : s.reader = .ended) :
      StepTo s (.process now now') { s with pipeline := .completed }
  | deregister : StepTo s .deregister { s with registered := false }
  | abort (video : VideoPipeline) (audio : AudioTranscoder codec)
      (hregistered : s.registered = false) (hpipeline : s.pipeline = .running video audio) :
      StepTo s .abort { s with pipeline := .aborted, packets := .empty }
  | join (kind : MediaKind) (hregistered : s.registered = true) :
      StepTo s (.join kind) (s.setStream kind ((s.stream kind).join kind.header))
  | client (kind : MediaKind) (i : ℕ) (e : StreamClient.Event) (c c' : StreamClient)
      (hi : (s.stream kind).clients[i]? = some c)
      (hstep : c.step (s.stream kind).tags s.closed e = some c') :
      StepTo s (.client kind i e) (s.setStream kind
        { s.stream kind with clients := (s.stream kind).clients.set i c' })

theorem step_cases {s s' : PipelineTasks codec} {e : Event} (h : s.step e = some s') :
    StepTo s e s' := by
  cases e with
  | read =>
    rw [step] at h
    split at h
    · rename_i r hreader
      split at h
      · rename_i packet r' hread
        obtain rfl := Option.some.inj h
        exact .read r packet r' hreader hread
      · rename_i hread
        split_ifs at h with hcloses
        obtain rfl := Option.some.inj h
        exact .readError r hreader hread hcloses
    · cases h
    · cases h
  | send =>
    rw [step] at h
    split at h
    · rename_i packet r hreader
      split_ifs at h with hrunning
      · obtain ⟨packets, hsend, rfl⟩ := Option.map_eq_some_iff.mp h
        exact .send packet r packets hreader hrunning hsend
      · obtain rfl := Option.some.inj h
        exact .sendError packet r hreader (by simpa using hrunning)
    · cases h
    · cases h
  | process now now' =>
    rw [step] at h
    split at h
    · rename_i video audio hpipeline
      split at h
      · rename_i packet packets hrecv
        obtain rfl := Option.some.inj h
        exact .process now now' video audio packet packets hpipeline hrecv
      · rename_i hrecv
        split at h
        · rename_i hreader
          obtain rfl := Option.some.inj h
          exact .complete now now' video audio hpipeline hrecv hreader
        · cases h
        · cases h
    · cases h
    · cases h
  | deregister =>
    obtain rfl := Option.some.inj h
    exact .deregister
  | abort =>
    rw [step] at h
    split_ifs at h with hregistered
    split at h
    · rename_i video audio hpipeline
      obtain rfl := Option.some.inj h
      exact .abort video audio (by simpa using hregistered) hpipeline
    · cases h
    · cases h
  | join kind =>
    rw [step] at h
    split_ifs at h with hregistered
    obtain rfl := Option.some.inj h
    exact .join kind hregistered
  | client kind i e =>
    obtain ⟨stream, hstream, rfl⟩ := Option.map_eq_some_iff.mp h
    obtain ⟨c, hi, hclient⟩ := Option.bind_eq_some_iff.mp hstream
    obtain ⟨c', hstep, rfl⟩ := Option.map_eq_some_iff.mp hclient
    exact .client kind i e c c' hi hstep

/-- **The reader waits**: the camera has sent no further packet, and keeps the connection open. -/
def Awaits (s : PipelineTasks codec) : Prop :=
  s.closes = false ∧ ∃ r, s.reader = .reading r ∧ readRtpPacket r = none

/-- No step changes what the camera does. -/
theorem closes_step {s s' : PipelineTasks codec} {e : Event} (h : s.step e = some s') :
    s'.closes = s.closes := by
  cases step_cases h <;> rfl

theorem closes_run {guard : PipelineTasks codec → Event → Prop} {s s' : PipelineTasks codec}
    {es : List Event} (h : Machine.Run step guard s es s') : s'.closes = s.closes :=
  h.invariant (I := fun t => t.closes = s.closes)
    (fun _ _ _ ht _ hstep => (closes_step hstep).trans ht) rfl

end PipelineTasks

/-! ## The packets of a connection -/

/-- The packets that the reader takes from a connection, up to the first error. -/
def source (r : BufReader) : List RtpPacket := receive (r.inner.bytes.length + 1) r

theorem length_readRtpPacket {r r' : BufReader} {packet : RtpPacket}
    (h : readRtpPacket r = some (packet, r')) : r'.inner.bytes.length < r.inner.bytes.length := by
  obtain ⟨⟨packet', s⟩, hloop, heq⟩ := Option.map_eq_some_iff.mp h
  obtain ⟨rfl, rfl⟩ := Prod.mk.inj heq
  have hsize := readRtpPacketLoop_size hloop
  have hfour := packet'.four_le_size
  dsimp only
  omega

/-- The reader takes no more packets than there are bytes. -/
theorem receive_fuel {fuel fuel' : ℕ} {r : BufReader} (h : r.inner.bytes.length < fuel)
    (h' : r.inner.bytes.length < fuel') : receive fuel r = receive fuel' r := by
  induction fuel generalizing fuel' r with
  | zero => cases h
  | succ fuel ih =>
    obtain ⟨fuel', rfl⟩ : ∃ n, fuel' = n + 1 := ⟨fuel' - 1, by omega⟩
    rw [receive, receive]
    cases hread : readRtpPacket r with
    | none => rfl
    | some read =>
      obtain ⟨packet, r'⟩ := read
      have hlength := length_readRtpPacket hread
      have hrest : receive fuel r' = receive fuel' r' := ih (by omega) (by omega)
      dsimp only
      rw [hrest]

theorem source_of_packet {r r' : BufReader} {packet : RtpPacket}
    (h : readRtpPacket r = some (packet, r')) : source r = packet :: source r' := by
  have hlength := length_readRtpPacket h
  have hrest : receive r.inner.bytes.length r' = source r' :=
    receive_fuel hlength (Nat.lt_succ_self _)
  rw [source, receive, h]
  dsimp only
  rw [hrest]

theorem source_of_error {r : BufReader} (h : readRtpPacket r = none) : source r = [] := by
  rw [source, receive, h]

/-- The payload of a packet. -/
def RtpPacket.payload : RtpPacket → List UInt8
  | .video payload => payload
  | .audio payload => payload

/-- The length of a payload is read in two bytes. -/
theorem length_payload_readRtpPacketLoop {fuel : ℕ} {s s' : Socket} {packet : RtpPacket}
    (h : readRtpPacketLoop fuel s = some (packet, s')) : packet.payload.length < 65536 := by
  induction fuel generalizing s with
  | zero => cases h
  | succ fuel ih =>
    rw [readRtpPacketLoop] at h
    obtain ⟨⟨magic, s₁⟩, -, h⟩ := Option.bind_eq_some_iff.mp h
    dsimp only at h
    split_ifs at h
    · exact ih h
    · obtain ⟨⟨channel, s₂⟩, -, h⟩ := Option.bind_eq_some_iff.mp h
      obtain ⟨⟨len, s₃⟩, hlen, h⟩ := Option.bind_eq_some_iff.mp h
      obtain ⟨⟨payload, s₄⟩, hpayload, h⟩ := Option.bind_eq_some_iff.mp h
      obtain ⟨h₂, hbytes, -⟩ := readExact_cases hlen
      obtain ⟨h₃, hread, -⟩ := readExact_cases hpayload
      have htwo : len.length = 2 := by
        rw [hbytes, List.length_take]
        omega
      have hlt : payload.length < 65536 := by
        have hbound := BigEndian.ofBytes_lt len
        rw [htwo] at hbound
        rw [hread, List.length_take]
        exact (Nat.min_le_left _ _).trans_lt hbound
      dsimp only at h
      split_ifs at h
      · obtain ⟨rfl, -⟩ := Prod.mk.inj (Option.some.inj h)
        exact hlt
      · obtain ⟨rfl, -⟩ := Prod.mk.inj (Option.some.inj h)
        exact hlt
      · exact ih h

theorem length_payload_receive {fuel : ℕ} {r : BufReader} {packet : RtpPacket}
    (h : packet ∈ receive fuel r) : packet.payload.length < 65536 := by
  induction fuel generalizing r with
  | zero => cases h
  | succ fuel ih =>
    rw [receive] at h
    cases hread : readRtpPacket r with
    | none =>
      rw [hread] at h
      cases h
    | some read =>
      obtain ⟨packet', r'⟩ := read
      rw [hread] at h
      rcases List.mem_cons.mp h with rfl | h
      · obtain ⟨⟨packet', s⟩, hloop, heq⟩ := Option.map_eq_some_iff.mp hread
        obtain ⟨rfl, rfl⟩ := Prod.mk.inj heq
        exact length_payload_readRtpPacketLoop hloop
      · exact ih h

/-- The packets that are still to come from a reader. -/
def ReaderTask.rest : ReaderTask → List RtpPacket
  | .reading r => source r
  | .sending packet r => packet :: source r
  | .ended => []

/-! ## What a pipeline emits -/

/-- A packet, with the clock readings of its processing. -/
structure Processed where
  packet : RtpPacket
  now : Instant
  now' : Instant

/-- The track of a packet. -/
def RtpPacket.kind : RtpPacket → MediaKind
  | .video _ => .video
  | .audio _ => .audio

/-- The packets of the video track. -/
def videoPackets (processed : List Processed) : List TimedPacket :=
  processed.filterMap fun p =>
    match p.packet with
    | .video payload => some ⟨payload, p.now, p.now'⟩
    | .audio _ => none

/-- The payloads of the audio track. -/
def audioPayloads (processed : List Processed) : List (List UInt8) :=
  processed.filterMap fun p =>
    match p.packet with
    | .video _ => none
    | .audio payload => some payload

section Emitted

variable {codec : AacCodec} (audio : AudioTranscoder codec)

/-- The tags of a stream that the packets make. -/
def emitted (kind : MediaKind) (processed : List Processed) : List (List UInt8) :=
  match kind with
  | .video => (run VideoPipeline.step .new (videoPackets processed)).1
  | .audio => (run AudioTranscoder.step audio (audioPayloads processed)).1

/-- The pipeline behind the packets. -/
def pipelineAfter (processed : List Processed) : PipelineTask codec :=
  .running (run VideoPipeline.step .new (videoPackets processed)).2
    (run AudioTranscoder.step audio (audioPayloads processed)).2

/-- **Processing one more packet** makes the tags that it adds to the stream of its track, and
none on the other one. -/
theorem processPacket_concat {processed : List Processed} {video : VideoPipeline}
    {audio' : AudioTranscoder codec} (hpipeline : pipelineAfter audio processed =
      .running video audio') (packet : RtpPacket) (now now' : Instant) :
    (processPacket video audio' packet now now').2.2 =
      pipelineAfter audio (processed ++ [⟨packet, now, now'⟩]) ∧
    ∀ kind, emitted audio kind (processed ++ [⟨packet, now, now'⟩]) =
      if kind = (processPacket video audio' packet now now').1 then
        emitted audio kind processed ++ (processPacket video audio' packet now now').2.1
      else emitted audio kind processed := by
  obtain ⟨rfl, rfl⟩ := PipelineTask.running.inj hpipeline
  cases packet with
  | video payload =>
    have hvideo : videoPackets (processed ++ [⟨.video payload, now, now'⟩]) =
        videoPackets processed ++ [⟨payload, now, now'⟩] := List.filterMap_append
    have haudio : audioPayloads (processed ++ [⟨.video payload, now, now'⟩]) =
        audioPayloads processed := by simp [audioPayloads]
    refine ⟨?_, fun kind => ?_⟩
    · rw [pipelineAfter, hvideo, haudio, run_append]
      rfl
    · cases kind with
      | video =>
        rw [emitted, hvideo, run_append, run_cons, run_nil, List.append_nil]
        rfl
      | audio =>
        rw [emitted, haudio]
        rfl
  | audio payload =>
    have hvideo : videoPackets (processed ++ [⟨.audio payload, now, now'⟩]) =
        videoPackets processed := by simp [videoPackets]
    have haudio : audioPayloads (processed ++ [⟨.audio payload, now, now'⟩]) =
        audioPayloads processed ++ [payload] := List.filterMap_append
    refine ⟨?_, fun kind => ?_⟩
    · rw [pipelineAfter, hvideo, haudio, run_append]
      rfl
    · cases kind with
      | video =>
        rw [emitted, hvideo]
        rfl
      | audio =>
        rw [emitted, haudio, run_append, run_cons, run_nil, List.append_nil]
        rfl

end Emitted

/-! ## Every run -/

namespace PipelineTasks

variable {codec : AacCodec}

/-- **Where the packets of the connection are**: those that were processed come first, and while the
pipeline runs those in the queue come next, and then those that the reader has or is to read. The
broadcasts were sent what the processed packets make, and the clients are served. -/
structure Inv (audio : AudioTranscoder codec) (all : List RtpPacket) (processed : List Processed)
    (s : PipelineTasks codec) : Prop where
  prefix_all : processed.map Processed.packet <+: all
  running : isRunning s.pipeline = true → s.pipeline = pipelineAfter audio processed ∧
    processed.map Processed.packet ++ (s.packets.values ++ s.reader.rest) = all
  completed : s.pipeline = .completed → processed.map Processed.packet = all
  tags : ∀ kind, (s.stream kind).tags.Holds (emitted audio kind processed)
  clients : ∀ kind, ∀ c ∈ (s.stream kind).clients,
    ∃ kept, c.Served kind.header (emitted audio kind processed) s.closed kept

variable {audio : AudioTranscoder codec} {all : List RtpPacket} {processed : List Processed}
  {s s' : PipelineTasks codec} {e : Event}

theorem inv_new (audio : AudioTranscoder codec) (r : BufReader) (closes : Bool) :
    (new audio r closes).Inv audio (source r) [] where
  prefix_all := List.nil_prefix
  running := fun _ => ⟨rfl, rfl⟩
  completed := by
    rintro ⟨⟩
  tags := by
    intro kind
    cases kind <;> exact Broadcast.holds_new
  clients := by
    intro kind c hc
    cases hc

theorem not_closed_of_running (h : isRunning s.pipeline = true) : s.closed = false := by
  rw [closed, h, Bool.not_true, Bool.and_false]

@[simp] theorem setStream_same (s : PipelineTasks codec) (kind : MediaKind) (stream : LiveStream) :
    (s.setStream kind stream).stream kind = stream := Function.update_self ..

theorem setStream_other (s : PipelineTasks codec) {kind kind' : MediaKind} (h : kind' ≠ kind)
    (stream : LiveStream) : (s.setStream kind stream).stream kind' = s.stream kind' :=
  Function.update_of_ne h ..

/-- Replacing one stream, whose broadcast holds what is emitted and whose clients are served. -/
theorem Inv.setStream (h : s.Inv audio all processed) {kind : MediaKind} {stream : LiveStream}
    (htags : stream.tags.Holds (emitted audio kind processed))
    (hclients : ∀ c ∈ stream.clients,
      ∃ kept, c.Served kind.header (emitted audio kind processed) s.closed kept) :
    (s.setStream kind stream).Inv audio all processed where
  prefix_all := h.prefix_all
  running := h.running
  completed := h.completed
  tags := by
    intro kind'
    by_cases hkind : kind' = kind
    · rw [hkind, setStream_same]
      exact htags
    · rw [setStream_other s hkind]
      exact h.tags kind'
  clients := by
    intro kind'
    by_cases hkind : kind' = kind
    · rw [hkind, setStream_same]
      exact hclients
    · rw [setStream_other s hkind]
      exact h.clients kind'

theorem stream_afterPacket (s : PipelineTasks codec)
    (packets : BoundedQueue RtpPacket packetCapacity)
    (result : MediaKind × List (List UInt8) × PipelineTask codec) (kind : MediaKind) :
    (s.afterPacket packets result).stream kind =
      if kind = result.1 then (s.stream kind).broadcast result.2.1 else s.stream kind := by
  split_ifs with hkind
  · rw [hkind]
    exact setStream_same ..
  · exact setStream_other _ hkind _

/-- **Processing a packet** moves it from the queue to those that were processed. -/
theorem Inv.process (h : s.Inv audio all processed) {video : VideoPipeline}
    {audio' : AudioTranscoder codec} (hpipeline : s.pipeline = .running video audio')
    {packet : RtpPacket} {packets : BoundedQueue RtpPacket packetCapacity}
    (hrecv : s.packets.recv = some (packet, packets)) (now now' : Instant) :
    (s.afterPacket packets (processPacket video audio' packet now now')).Inv audio all
      (processed ++ [⟨packet, now, now'⟩]) := by
  have hrunning : isRunning s.pipeline = true := by
    rw [hpipeline]
    rfl
  have hclosed := not_closed_of_running hrunning
  obtain ⟨hafter, hall⟩ := h.running hrunning
  rw [hpipeline] at hafter
  obtain ⟨hnext, hemitted⟩ := processPacket_concat audio hafter.symm packet now now'
  rw [BoundedQueue.values_recv hrecv, List.cons_append, List.append_cons] at hall
  have hpackets : List.map Processed.packet (processed ++ [⟨packet, now, now'⟩]) =
      processed.map Processed.packet ++ [packet] := List.map_append
  generalize processPacket video audio' packet now now' = result at hnext hemitted ⊢
  obtain ⟨kind, tags, pipeline⟩ := result
  dsimp only at hnext hemitted ⊢
  subst hnext
  have hstill : (s.afterPacket packets (kind, tags, pipelineAfter audio
      (processed ++ [⟨packet, now, now'⟩]))).closed = false := not_closed_of_running rfl
  constructor
  · rw [hpackets, ← hall]
    exact List.prefix_append _ _
  · intro _
    refine ⟨rfl, ?_⟩
    rw [hpackets]
    exact hall
  · rintro ⟨⟩
  · intro kind'
    rw [hemitted kind', stream_afterPacket]
    split_ifs
    · exact (h.tags kind').sendAll tags
    · exact h.tags kind'
  · intro kind' c hc
    have hmem : c ∈ (s.stream kind').clients := by
      rw [stream_afterPacket] at hc
      split_ifs at hc <;> exact hc
    obtain ⟨kept, hkept⟩ := h.clients kind' c hmem
    rw [hclosed] at hkept
    rw [hstill, hemitted kind']
    split_ifs
    · exact ⟨kept, hkept.extend tags⟩
    · exact ⟨kept, hkept⟩

/-- A pipeline that has ended stays served: the broadcasts can only be closed by it. -/
theorem Inv.served_of_closed (h : s.Inv audio all processed) (hstream : s'.stream = s.stream)
    (hclosed : s.closed = true → s'.closed = true) :
    ∀ kind, ∀ c ∈ (s'.stream kind).clients,
      ∃ kept, c.Served kind.header (emitted audio kind processed) s'.closed kept := by
  intro kind c hc
  rw [hstream] at hc
  obtain ⟨kept, hkept⟩ := h.clients kind c hc
  exact ⟨kept, hkept.close hclosed⟩

/-- **Every step** keeps the packets in order: they are processed as they come, or the step
processes none. -/
theorem Inv.step (h : s.Inv audio all processed) (hstep : s.step e = some s') :
    ∃ processed', s'.Inv audio all processed' := by
  cases step_cases hstep with
  | read r packet r' hreader hread =>
    refine ⟨processed, { h with running := fun hrunning => ?_ }⟩
    obtain ⟨hafter, hall⟩ := h.running hrunning
    rw [hreader, ReaderTask.rest, source_of_packet hread] at hall
    exact ⟨hafter, hall⟩
  | readError r hreader hread hcloses =>
    refine ⟨processed, { h with running := fun hrunning => ?_ }⟩
    obtain ⟨hafter, hall⟩ := h.running hrunning
    rw [hreader, ReaderTask.rest, source_of_error hread] at hall
    exact ⟨hafter, hall⟩
  | send packet r packets hreader hrunning hsend =>
    refine ⟨processed, { h with running := fun hrunning => ?_ }⟩
    obtain ⟨hafter, hall⟩ := h.running hrunning
    rw [hreader, ReaderTask.rest, List.append_cons] at hall
    refine ⟨hafter, ?_⟩
    rw [BoundedQueue.values_send hsend]
    exact hall
  | sendError packet r hreader hgone =>
    refine ⟨processed, { h with running := fun hrunning => ?_ }⟩
    rw [hgone] at hrunning
    cases hrunning
  | process now now' video audio' packet packets hpipeline hrecv =>
    exact ⟨_, h.process hpipeline hrecv now now'⟩
  | complete now now' video audio' hpipeline hrecv hreader =>
    have hrunning : isRunning s.pipeline = true := by
      rw [hpipeline]
      rfl
    obtain ⟨-, hall⟩ := h.running hrunning
    rw [BoundedQueue.recv_eq_none.mp hrecv, hreader, ReaderTask.rest, List.append_nil,
      List.append_nil] at hall
    refine ⟨processed, h.prefix_all, ?_, fun _ => hall, h.tags, h.served_of_closed rfl ?_⟩
    · rintro ⟨⟩
    · intro hclosed
      rw [not_closed_of_running hrunning] at hclosed
      cases hclosed
  | deregister =>
    refine ⟨processed, { h with clients := h.served_of_closed rfl ?_ }⟩
    intro hclosed
    exact (Bool.and_eq_true_iff.mp hclosed).2
  | abort video audio' hregistered hpipeline =>
    refine ⟨processed, h.prefix_all, ?_, ?_, h.tags, h.served_of_closed rfl ?_⟩
    · rintro ⟨⟩
    · rintro ⟨⟩
    · intro _
      rw [closed, hregistered]
      rfl
  | join kind hregistered =>
    refine ⟨processed, h.setStream (h.tags kind) fun c hc => ?_⟩
    rcases List.mem_append.mp hc with hc | hc
    · exact h.clients kind c hc
    · obtain rfl := List.mem_singleton.mp hc
      exact ⟨[], StreamClient.served_subscribe (h.tags kind) kind.header⟩
  | client kind i e c c' hi hclient =>
    refine ⟨processed, h.setStream (h.tags kind) fun d hd => ?_⟩
    rcases List.mem_or_eq_of_mem_set hd with hd | rfl
    · exact h.clients kind d hd
    · obtain ⟨kept, hkept⟩ := h.clients kind c (List.mem_of_getElem? hi)
      exact hkept.step (h.tags kind) hclient

/-- **Every run** keeps the packets in order. -/
theorem Inv.run {guard : PipelineTasks codec → Event → Prop} {es : List Event} {r : BufReader}
    {closes : Bool} (hrun : Machine.Run PipelineTasks.step guard (new audio r closes) es s) :
    ∃ processed, s.Inv audio (source r) processed := by
  refine hrun.invariant (I := fun s => ∃ processed, s.Inv audio (source r) processed) ?_
    ⟨[], inv_new audio r closes⟩
  rintro s e s' ⟨processed, h⟩ - hstep
  exact h.step hstep

/-! ## The clients of a run -/

/-- The type flags of the file header of a stream. -/
def flags : MediaKind → UInt8
  | .video => 0x01
  | .audio => 0x04

theorem header_eq (kind : MediaKind) : kind.header = fileHeader (flags kind) := by
  cases kind <;> rfl

/-- Packets of a connection have payloads whose length was read in two bytes. -/
theorem length_videoPackets {r : BufReader} (h : processed.map Processed.packet <+: source r) :
    ∀ pkt ∈ videoPackets processed, pkt.payload.length ≤ 65535 := by
  intro pkt hpkt
  obtain ⟨p, hp, hpkt⟩ := List.mem_filterMap.mp hpkt
  have hmem : p.packet ∈ source r := h.subset (List.mem_map_of_mem hp)
  have hlength := length_payload_receive hmem
  obtain ⟨packet, now, now'⟩ := p
  cases packet with
  | audio payload => cases hpkt
  | video payload =>
    obtain rfl := Option.some.inj hpkt
    exact Nat.le_of_lt_succ hlength

/-- Whatever comes from the connection, what either stream is sent are tags. -/
theorem emitted_tags (hasc : (codec.aacLcAsc audioSampleRate audioChannels).length = 2)
    (hunit : ∀ raw, codec.IsPayload raw → raw.length < 2 ^ 24 - 2)
    (haudio : AudioTranscoder.new codec = .ok audio) {r : BufReader}
    (h : processed.map Processed.packet <+: source r) (kind : MediaKind) :
    ∃ tags : List Tag, emitted audio kind processed = tags.map Tag.encode := by
  cases kind with
  | video =>
    obtain ⟨tags, htags, -⟩ := VideoPipeline.run_tags (length_videoPackets h)
    exact ⟨tags, htags.symm⟩
  | audio =>
    obtain ⟨tags, htags, -⟩ := AudioTranscoder.run_tags hasc hunit
      (AudioTranscoder.headerOf_new haudio) (audioPayloads processed)
    exact ⟨tags, htags.symm⟩

/-- **What the clients have of a connection**: the pipeline has processed a first part of its
packets, in order. The response of a client is empty, or the file header and whole tags of those
that these packets made since the client subscribed, in order and none twice. For a client that is
still there the tags written, those that wait in its queue and in its task, and those that it was
told it lost are all tags between its subscription and its position. -/
def StreamsServed (audio : AudioTranscoder codec) (r : BufReader) (s : PipelineTasks codec) : Prop :=
  ∃ processed, processed.map Processed.packet <+: source r ∧
    ∀ kind, ∃ tags : List Tag, emitted audio kind processed = tags.map Tag.encode ∧
      ∀ c ∈ (s.stream kind).clients,
        (∃ sub : List Tag, sub.Sublist (tags.drop c.start) ∧
          c.body.flatten =
            (if sub = [] then [] else kind.header ++ (sub.map Tag.encode).flatten) ∧
          (sub ≠ [] → demux c.body.flatten = some (flags kind, sub))) ∧
        c.next ≤ tags.length ∧
        (c.connected = true → c.next = c.start +
          (c.body.length + c.chunks.values.length + c.task.inHand.length) + c.lost)

/-- **The clients are served in every run**, whatever the camera sends and however the tasks and the
clients interleave. -/
theorem run_clients (hasc : (codec.aacLcAsc audioSampleRate audioChannels).length = 2)
    (hunit : ∀ raw, codec.IsPayload raw → raw.length < 2 ^ 24 - 2)
    (haudio : AudioTranscoder.new codec = .ok audio) (r : BufReader) {closes : Bool}
    {es : List Event} (hrun : Machine.Run PipelineTasks.step free (new audio r closes) es s) :
    StreamsServed audio r s := by
  obtain ⟨processed, h⟩ := Inv.run hrun
  refine ⟨processed, h.prefix_all, fun kind => ?_⟩
  obtain ⟨tags, htags⟩ := emitted_tags hasc hunit haudio h.prefix_all kind
  refine ⟨tags, htags, fun c hc => ?_⟩
  obtain ⟨kept, hkept⟩ := h.clients kind c hc
  obtain ⟨sub, hsub, -, hbody, hdemux⟩ := hkept.demux (header_eq kind) htags
  refine ⟨⟨sub, hsub, hbody, hdemux⟩, ?_, fun hconnected => ?_⟩
  · have hlength := hkept.view.le_length
    rwa [htags, List.length_map] at hlength
  · have hproduced := congrArg List.length (hkept.produced hconnected)
    rw [StreamClient.length_chunks, List.length_append, List.length_append] at hproduced
    have hnext := hkept.view.next_eq
    omega

/-- The parameter sets of a camera, each in a video frame. -/
def sampleSpsFrame : Frame where
  channel := 0
  payload := VideoPipeline.sampleRtpHeader ++ VideoPipeline.sampleSps.bytes
  length_payload := by decide

def samplePpsFrame : Frame where
  channel := 0
  payload := VideoPipeline.sampleRtpHeader ++ VideoPipeline.samplePps.bytes
  length_payload := by decide

def sampleConnection : BufReader :=
  ⟨8192, [], ⟨encodeFrames [sampleSpsFrame, samplePpsFrame], []⟩⟩

/-- A client subscribes, the two packets are processed, and the client is given the first tag. -/
theorem run_clients_burst :
    ∃ s : PipelineTasks sampleCodec, StreamsServed sampleTranscoder sampleConnection s ∧
      (s.stream .video).clients.map (fun c => c.body.length) = [1] := by
  have hexec : (exec PipelineTasks.step free (new sampleTranscoder sampleConnection false)
      [.join .video, .read, .send, .process 0 0, .read, .send, .process 0 0,
        .client .video 0 .receive, .client .video 0 .send, .client .video 0 .write]).map
      (fun s => (s.stream .video).clients.map fun c => c.body.length) = some [1] := by
    decide +kernel
  obtain ⟨s, hrun, hbody⟩ := Run.of_exec_map hexec
  exact ⟨s, run_clients rfl (fun _ h => sampleCodec_payload h) rfl sampleConnection hrun, hbody⟩

end PipelineTasks

end Fosipcore
