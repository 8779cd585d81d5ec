import Fosipcore.Audio.Packetisation
import Fosipcore.Video.PipelineTasks
import Fosipcore.Video.Resync

/-!
# From the camera to the player

The tasks of a pipeline process every packet of a connection, and no client can hold them up; they
come to an end behind a connection that the camera closes. What a client was given by then depends on
the connection alone, if the client has lost nothing: the frames of the camera, with gaps between them
and the two tracks mixed, are a video stream of its units and an audio stream of its samples. A client
that is never more than 64 tags behind loses nothing.

## Main definitions

* `PipelineTasks.IsTransport`, `PipelineTasks.weight`: the steps of the reader and the pipeline, and
  a bound on their number
* `PipelineTasks.Prompt`: no client is more than 64 tags behind
* `PipelineTasks.Played`: a client that has been given everything

## Main results

* `PipelineTasks.run_completes`: the tasks process all packets, whatever the clients do
* `PipelineTasks.run_prompt`: a client that keeps up loses nothing
* `PipelineTasks.video_endToEnd`: what a player gets of the units of a camera
* `PipelineTasks.audio_endToEnd`: what a player gets of the samples of a camera
-/

namespace Fosipcore

open Text ByteStream FlvContainer Machine Transducer

namespace PipelineTasks

variable {codec : AacCodec} {audio : AudioTranscoder codec} {s s' : PipelineTasks codec} {e : Event}

/-! ## Progress -/

/-- A step of the reader or the pipeline. -/
def IsTransport : Event → Prop
  | .read | .send | .process _ _ => True
  | .deregister | .abort | .join _ | .client _ _ _ => False

/-- The steps that a reader can still take: three for each byte are more than enough. -/
def readerWeight : ReaderTask → ℕ
  | .reading r => 3 * r.inner.bytes.length + 1
  | .sending _ r => 3 * r.inner.bytes.length + 3
  | .ended => 0

/-- The steps that the reader and the pipeline can still take. -/
def weight (s : PipelineTasks codec) : ℕ :=
  readerWeight s.reader + s.packets.values.length + if isRunning s.pipeline then 1 else 0

theorem isRunning_processPacket (video : VideoPipeline) (audio : AudioTranscoder codec)
    (packet : RtpPacket) (now now' : Instant) :
    isRunning (processPacket video audio packet now now').2.2 = true := by
  cases packet <;> rfl

/-- **A step of the reader or the pipeline** takes one of those that are left. -/
theorem weight_lt (he : IsTransport e) (hstep : s.step e = some s') : s'.weight < s.weight := by
  cases step_cases hstep with
  | read r packet r' hreader hread =>
    have hlength := length_readRtpPacket hread
    simp only [weight, hreader, readerWeight]
    omega
  | readError r hreader hread hcloses =>
    simp only [weight, hreader, readerWeight]
    omega
  | send packet r packets hreader hrunning hsend =>
    have hvalues := congrArg List.length (BoundedQueue.values_send hsend)
    rw [List.length_append, List.length_singleton] at hvalues
    simp only [weight, hreader, readerWeight]
    omega
  | sendError packet r hreader hgone =>
    simp only [weight, hreader, readerWeight]
    omega
  | process now now' video audio packet packets hpipeline hrecv =>
    have hvalues := congrArg List.length (BoundedQueue.values_recv hrecv)
    rw [List.length_cons] at hvalues
    have hafter : (s.afterPacket packets (processPacket video audio packet now now')).weight =
        readerWeight s.reader + packets.values.length + 1 := by
      simp only [weight, afterPacket, setStream, isRunning_processPacket, if_true]
    rw [hafter]
    simp only [weight, hpipeline, isRunning, if_true]
    omega
  | complete now now' video audio hpipeline hrecv hreader =>
    simp only [weight, hpipeline, isRunning, if_true]
    simp
  | deregister => cases he
  | abort => cases he
  | join => cases he
  | client => cases he

/-- Every packet has come through: the pipeline has completed, or it runs with an empty queue and the
reader waits. -/
def Drained (s : PipelineTasks codec) : Prop :=
  s.pipeline = .completed ∨
    isRunning s.pipeline = true ∧ s.packets.values = [] ∧ s.Awaits

/-- **A running pipeline is never stuck** before every packet has come through: it processes a packet
or completes, or the reader takes a step that it waits for. The clients have no part in it. -/
theorem exists_step (hrunning : isRunning s.pipeline = true) :
    s.Drained ∨ ∃ e s', IsTransport e ∧ s.step e = some s' ∧
      (isRunning s'.pipeline = true ∨ s'.pipeline = .completed) ∧
      ∀ kind, (s'.stream kind).clients = (s.stream kind).clients := by
  cases hpipeline : s.pipeline with
  | completed =>
    rw [hpipeline] at hrunning
    cases hrunning
  | aborted =>
    rw [hpipeline] at hrunning
    cases hrunning
  | running video audio =>
    cases hrecv : s.packets.recv with
    | some received =>
      obtain ⟨packet, packets⟩ := received
      refine .inr ⟨.process 0 0, s.afterPacket packets (processPacket video audio packet 0 0),
        trivial, ?_, .inl (isRunning_processPacket video audio packet 0 0), fun kind => ?_⟩
      · simp only [step, hpipeline, hrecv]
      · rw [stream_afterPacket]
        split_ifs <;> rfl
    | none =>
      have hempty := BoundedQueue.recv_eq_none.mp hrecv
      cases hreader : s.reader with
      | ended =>
        refine .inr ⟨.process 0 0, { s with pipeline := .completed }, trivial, ?_, .inr rfl,
          fun _ => rfl⟩
        simp only [step, hpipeline, hrecv, hreader]
      | reading r =>
        cases hread : readRtpPacket r with
        | none =>
          cases hcloses : s.closes with
          | false => exact .inl (.inr ⟨hrunning, hempty, hcloses, r, hreader, hread⟩)
          | true =>
            refine .inr ⟨.read, { s with reader := .ended }, trivial, ?_, .inl hrunning,
              fun _ => rfl⟩
            simp only [step, hreader, hread, hcloses, if_true]
        | some read =>
          obtain ⟨packet, r'⟩ := read
          refine .inr ⟨.read, { s with reader := .sending packet r' }, trivial, ?_, .inl hrunning,
            fun _ => rfl⟩
          simp only [step, hreader, hread]
      | sending packet r =>
        -- the queue is empty, so there is room
        have hroom : s.packets.values.length < packetCapacity := by
          rw [hempty]
          decide
        obtain ⟨packets, hsend⟩ := BoundedQueue.exists_send hroom packet
        refine .inr ⟨.send, { s with reader := .reading r, packets := packets }, trivial, ?_,
          .inl hrunning, fun _ => rfl⟩
        simp only [step, hreader, hrunning, if_true, hsend, Option.map_some]

/-- The steps of the reader and the pipeline bring every packet through. -/
theorem exists_run (hrunning : isRunning s.pipeline = true) :
    ∃ es s', (∀ e ∈ es, IsTransport e) ∧ es.length ≤ s.weight ∧
      Machine.Run PipelineTasks.step free s es s' ∧ s'.Drained ∧
      ∀ kind, (s'.stream kind).clients = (s.stream kind).clients := by
  have hprogress : ∀ t : PipelineTasks codec,
      (isRunning t.pipeline = true ∨ t.pipeline = .completed) ∧
        (∀ kind, (t.stream kind).clients = (s.stream kind).clients) →
      t.Drained ∨ ∃ e t', IsTransport e ∧ free t e ∧ t.step e = some t' ∧
        ((isRunning t'.pipeline = true ∨ t'.pipeline = .completed) ∧
          ∀ kind, (t'.stream kind).clients = (s.stream kind).clients) ∧ t'.weight < t.weight := by
    rintro t ⟨hrunning | hcompleted, hclients⟩
    · rcases exists_step hrunning with hdrained | ⟨e, t', he, hstep, hnext, hsame⟩
      · exact .inl hdrained
      · exact .inr ⟨e, t', he, trivial, hstep,
          ⟨hnext, fun kind => (hsame kind).trans (hclients kind)⟩, weight_lt he hstep⟩
    · exact .inl (.inl hcompleted)
  obtain ⟨es, s', hes, hlength, hrun, ⟨-, hclients⟩, hdrained⟩ :=
    Run.exists_of_weight weight hprogress ⟨.inl hrunning, fun _ => rfl⟩
  exact ⟨es, s', hes, hlength, hrun, hdrained, hclients⟩

/-- When every packet has come through, all packets of the connection were processed. -/
theorem Inv.processed_of_drained {all : List RtpPacket} {processed : List Processed}
    (h : s.Inv audio all processed) (hdrained : s.Drained) :
    processed.map Processed.packet = all := by
  rcases hdrained with hcompleted | ⟨hrunning, hempty, -, r, hreader, hread⟩
  · exact h.completed hcompleted
  · obtain ⟨-, hall⟩ := h.running hrunning
    rwa [hempty, hreader, ReaderTask.rest, source_of_error hread, List.append_nil,
      List.append_nil] at hall

/-- **The pipeline processes every packet of a connection**: from every state in which it runs, steps
of the reader and the pipeline alone bring all of them through, and there are at most as many as the
weight of the state. If the camera closes the connection, the pipeline has completed; otherwise the
reader waits. -/
theorem run_completes (r : BufReader) {closes : Bool} {es : List Event}
    (hrun : Machine.Run PipelineTasks.step free (new audio r closes) es s)
    (hrunning : isRunning s.pipeline = true) :
    ∃ es' s' processed, (∀ e ∈ es', IsTransport e) ∧ es'.length ≤ s.weight ∧
      Machine.Run PipelineTasks.step free s es' s' ∧ s'.Drained ∧
      (closes = true → s'.pipeline = .completed) ∧
      processed.map Processed.packet = source r ∧
      ∀ kind, (s'.stream kind).clients = (s.stream kind).clients ∧
        (s'.stream kind).tags.Holds (emitted audio kind processed) := by
  obtain ⟨es', s', hes, hlength, hrun', hdrained, hclients⟩ := exists_run hrunning
  obtain ⟨processed, h⟩ := Inv.run (hrun.append hrun')
  refine ⟨es', s', processed, hes, hlength, hrun', hdrained, fun hcloses => ?_,
    h.processed_of_drained hdrained, fun kind => ⟨hclients kind, h.tags kind⟩⟩
  rcases hdrained with hcompleted | ⟨-, -, hopen, -⟩
  · exact hcompleted
  · have hsame : s'.closes = closes := closes_run (hrun.append hrun')
    cases hopen.symm.trans (hsame.trans hcloses)

/-- The pipeline behind the sample connection is completed from its start, if the camera closes it. -/
theorem run_completes_sample :
    ∃ es' s' processed, (∀ e ∈ es', IsTransport e) ∧
      es'.length ≤ (new sampleTranscoder sampleConnection true).weight ∧
      Machine.Run PipelineTasks.step free (new sampleTranscoder sampleConnection true) es' s' ∧
      s'.Drained ∧ s'.pipeline = .completed ∧
      processed.map Processed.packet = source sampleConnection ∧
      ∀ kind, (s'.stream kind).clients =
          ((new sampleTranscoder sampleConnection true).stream kind).clients ∧
        (s'.stream kind).tags.Holds (emitted sampleTranscoder kind processed) := by
  obtain ⟨es', s', processed, hes, hlength, hrun, hdrained, hcompleted, hrest⟩ :=
    run_completes (s := new sampleTranscoder sampleConnection true) sampleConnection (.nil _) rfl
  exact ⟨es', s', processed, hes, hlength, hrun, hdrained, hcompleted rfl, hrest⟩

/-! ## Clients that keep up -/

/-- No client is more than 64 tags behind. -/
def Prompt (s : PipelineTasks codec) : Prop :=
  ∀ kind ∈ [MediaKind.video, .audio], ∀ c ∈ (s.stream kind).clients,
    (s.stream kind).tags.sent ≤ c.next + broadcastCapacity

instance (s : PipelineTasks codec) : Decidable s.Prompt := by
  unfold Prompt
  infer_instance

/-- No client was told that it lost tags. -/
def Lossless (s : PipelineTasks codec) : Prop := ∀ kind, ∀ c ∈ (s.stream kind).clients, c.lost = 0

theorem Lossless.setStream (h : s.Lossless) {kind : MediaKind} {stream : LiveStream}
    (hstream : ∀ c ∈ stream.clients, c.lost = 0) : (s.setStream kind stream).Lossless := by
  intro kind' c hc
  by_cases hkind : kind' = kind
  · rw [hkind, setStream_same] at hc
    exact hstream c hc
  · rw [setStream_other s hkind] at hc
    exact h kind' c hc

/-- A client whose next tag is retained loses nothing in a step. -/
theorem lost_of_keepsUp {tags : Broadcast (List UInt8) broadcastCapacity} {closed : Bool}
    {c c' : StreamClient} {e : StreamClient.Event} (h : tags.sent ≤ c.next + broadcastCapacity)
    (hstep : c.step tags closed e = some c') : c'.lost = c.lost := by
  cases StreamClient.step_cases hstep with
  | lagged n next htask hrecv => exact absurd hrecv (Broadcast.recv_of_keepsUp h)
  | value | closed | send | gone | write | hangUp => rfl

theorem Lossless.step (h : s.Lossless) (hprompt : s.Prompt) (hstep : s.step e = some s') :
    s'.Lossless := by
  cases step_cases hstep with
  | read | readError | send | sendError | complete | deregister | abort => exact h
  | process now now' video audio packet packets hpipeline hrecv =>
    exact Lossless.setStream (s := { s with packets := packets, pipeline := _ }) h (h _)
  | join kind hregistered =>
    refine h.setStream fun c hc => ?_
    rcases List.mem_append.mp hc with hc | hc
    · exact h kind c hc
    · obtain rfl := List.mem_singleton.mp hc
      rfl
  | client kind i e c c' hi hclient =>
    refine h.setStream fun d hd => ?_
    rcases List.mem_or_eq_of_mem_set hd with hd | rfl
    · exact h kind d hd
    · have hmem := List.mem_of_getElem? hi
      have hkind : kind ∈ [MediaKind.video, .audio] := by cases kind <;> simp
      rw [lost_of_keepsUp (hprompt kind hkind c hmem) hclient]
      exact h kind c hmem

/-- A client that has been given everything: it is still there, its task has ended, and its queue
is empty. -/
structure Played (c : StreamClient) : Prop where
  connected : c.connected = true
  ended : c.task = .ended
  drained : c.chunks.values = []

instance (c : StreamClient) : Decidable (Played c) :=
  decidable_of_iff (c.connected = true ∧ c.task = .ended ∧ c.chunks.values = [])
    ⟨fun ⟨h₁, h₂, h₃⟩ => ⟨h₁, h₂, h₃⟩, fun ⟨h₁, h₂, h₃⟩ => ⟨h₁, h₂, h₃⟩⟩

/-- The pipeline has completed. -/
def isCompleted : PipelineTask codec → Bool
  | .completed => true
  | .running _ _ | .aborted => false

instance (task : PipelineTask codec) : Decidable (task = .completed) :=
  decidable_of_iff (isCompleted task = true) (by cases task <;> simp [isCompleted])

/-- What a client was given that has lost nothing: everything since it subscribed. -/
theorem Played.body {header : List UInt8} {history kept : List (List UInt8)} {closed : Bool}
    {c : StreamClient} (hplayed : Played c) (h : c.Served header history closed kept)
    (hlost : c.lost = 0) : c.body = chunks true (some header) (history.drop c.start) := by
  obtain ⟨-, hnext⟩ := h.ended hplayed.ended hplayed.connected
  have hproduced := h.produced hplayed.connected
  rw [hplayed.drained, hplayed.ended, WriterTask.inHand, List.append_nil, List.append_nil]
    at hproduced
  have hview := h.view
  rw [hlost] at hview
  rw [hproduced, hview.eq_of_lossless, hnext, List.take_length]

/-- **A client that keeps up loses nothing**: in every run in which no client is ever more than 64
tags behind, a client that has been given everything has the file header and all tags that were
made since it subscribed. -/
theorem run_prompt (r : BufReader) {closes : Bool} {es : List Event}
    (hrun : Machine.Run PipelineTasks.step (fun s _ => s.Prompt) (new audio r closes) es s) :
    ∃ processed, processed.map Processed.packet <+: source r ∧
      (s.pipeline = .completed → processed.map Processed.packet = source r) ∧
      ∀ kind, ∀ c ∈ (s.stream kind).clients, c.lost = 0 ∧ (Played c →
        c.body = chunks true (some kind.header) ((emitted audio kind processed).drop c.start)) := by
  have hlossless : s.Lossless := by
    refine hrun.invariant (I := Lossless) (fun s e s' h hprompt hstep => h.step hprompt hstep) ?_
    intro kind c hc
    cases hc
  obtain ⟨processed, h⟩ := Inv.run hrun
  refine ⟨processed, h.prefix_all, h.completed, fun kind c hc => ⟨hlossless kind c hc, ?_⟩⟩
  intro hplayed
  obtain ⟨kept, hkept⟩ := h.clients kind c hc
  exact hplayed.body hkept (hlossless kind c hc)

/-- A client subscribes to a stream, `n` packets are processed and the connection ends, the video
server is stopped, and the client is given `m` tags and the end of the stream. -/
def sampleEvents (kind : MediaKind) (n m : ℕ) : List Event :=
  [.join kind] ++ (List.replicate n [.read, .send, .process 0 0]).flatten ++
    [.read, .process 0 0, .deregister] ++
    (List.replicate m
      [.client kind 0 .receive, .client kind 0 .send, .client kind 0 .write]).flatten ++
    [.client kind 0 .receive]

/-- A client of the sample connection is given the metadata and the sequence header. -/
theorem run_prompt_sample :
    ∃ s : PipelineTasks sampleCodec, (∃ c ∈ (s.stream .video).clients, Played c) ∧
      ∃ processed, processed.map Processed.packet <+: source sampleConnection ∧
        (s.pipeline = .completed → processed.map Processed.packet = source sampleConnection) ∧
        ∀ kind, ∀ c ∈ (s.stream kind).clients, c.lost = 0 ∧ (Played c → c.body =
          chunks true (some kind.header)
            ((emitted sampleTranscoder kind processed).drop c.start)) := by
  have hexec : (exec PipelineTasks.step (fun s _ => s.Prompt)
      (new sampleTranscoder sampleConnection true) (sampleEvents .video 2 2)).map
      (fun s => decide (∃ c ∈ (s.stream .video).clients, Played c)) = some true := by
    decide +kernel
  obtain ⟨s, hrun, hplayed⟩ := Run.of_exec_map hexec
  exact ⟨s, of_decide_eq_true hplayed, run_prompt sampleConnection hrun⟩

/-! ## From the camera to the player -/

/-- The payloads of the packets of a track. -/
def payloadsOf (kind : MediaKind) (packets : List RtpPacket) : List (List UInt8) :=
  (packets.filter fun packet => packet.kind = kind).map RtpPacket.payload

theorem payloads_videoPackets (processed : List Processed) :
    (videoPackets processed).map TimedPacket.payload =
      payloadsOf .video (processed.map Processed.packet) := by
  induction processed with
  | nil => rfl
  | cons p processed ih =>
    obtain ⟨packet, now, now'⟩ := p
    cases packet with
    | video payload => exact congrArg (payload :: ·) ih
    | audio payload => exact ih

theorem audioPayloads_eq (processed : List Processed) :
    audioPayloads processed = payloadsOf .audio (processed.map Processed.packet) := by
  induction processed with
  | nil => rfl
  | cons p processed ih =>
    obtain ⟨packet, now, now'⟩ := p
    cases packet with
    | video payload => exact ih
    | audio payload => exact congrArg (payload :: ·) ih

/-- The reader takes the packets of the frames from a connection, whatever is between them. -/
theorem source_encodeGaps (items : List (Gap × Frame)) (last : Gap) (capacity : ℕ)
    (buf : List UInt8) (cuts : List ℕ) :
    source ⟨capacity, buf, ⟨encodeGaps items last, cuts⟩⟩ =
      Fosipcore.packets (items.map Prod.snd) := by
  induction hn : items.length using Nat.strong_induction_on generalizing items cuts with
  | _ n ih =>
    rcases readRtpPacketLoop_encodeGaps items last cuts (Nat.lt_succ_self _) with
      ⟨hpackets, hnone⟩ | ⟨packet, rest, cuts', hrest, hpackets, hsome⟩
    · rw [hpackets]
      apply source_of_error
      rw [readRtpPacket]
      exact congrArg (Option.map _) hnone
    · rw [hpackets, ← ih rest.length (hn ▸ hrest) rest cuts' rfl]
      apply source_of_packet
      rw [readRtpPacket]
      exact congrArg (Option.map _) hsome

/-- What a completed pipeline has given a client that lost nothing. -/
theorem body_of_completed {items : List (Gap × Frame)} {last : Gap} {capacity : ℕ}
    {buf : List UInt8} {cuts : List ℕ} {guard : PipelineTasks codec → Event → Prop}
    {closes : Bool} {es : List Event}
    (hrun : Machine.Run PipelineTasks.step guard
      (new audio ⟨capacity, buf, ⟨encodeGaps items last, cuts⟩⟩ closes) es s)
    (hcompleted : s.pipeline = .completed) :
    ∃ processed, processed.map Processed.packet = Fosipcore.packets (items.map Prod.snd) ∧
      ∀ kind, ∀ c ∈ (s.stream kind).clients, Played c → c.lost = 0 →
        c.body = chunks true (some kind.header) ((emitted audio kind processed).drop c.start) := by
  obtain ⟨processed, h⟩ := Inv.run hrun
  refine ⟨processed, (h.completed hcompleted).trans (source_encodeGaps ..), ?_⟩
  intro kind c hc hplayed hlost
  obtain ⟨kept, hkept⟩ := h.clients kind c hc
  exact hplayed.body hkept hlost

/-- The chunks of tags demultiplex, if there is one. -/
theorem demux_chunks (kind : MediaKind) {tags : List Tag} (h : tags ≠ []) :
    demux (chunks true (some kind.header) (tags.map Tag.encode)).flatten =
      some (flags kind, tags) := by
  have hne : ¬ tags.map Tag.encode = [] := by rwa [List.map_eq_nil_iff]
  rw [flatten_chunks, if_neg hne, header_eq]
  exact demux_encode (flags kind) tags

end PipelineTasks

/-- The tags of whole units: the metadata, the sequence header, and a tag for each unit. -/
theorem VideoPipeline.exists_tags_units {sps pps : Nal} (hsps : sps.nalType = nalTypeSps)
    (hpps : pps.nalType = nalTypePps) {h₁ h₂ : List UInt8} (hh₁ : h₁.length = 12)
    (hh₂ : h₂.length = 12) {nals : List Nal} {units : List (List (List UInt8))}
    (h : List.Forall₂ Packetised nals units)
    (hnals : ∀ nal ∈ nals, nal.nalType ≠ nalTypeSps ∧ nal.nalType ≠ nalTypePps)
    {pkts : List TimedPacket} (hpkts : pkts.map TimedPacket.payload =
      [h₁ ++ sps.bytes, h₂ ++ pps.bytes] ++ units.flatten) :
    ∃ ts, ∃ tags : List Tag, (run step new pkts).1 =
        (scriptTag ts :: FlvMuxer.sequenceTag sps pps ts :: tags).map Tag.encode ∧
      tags.map Tag.media = nals.map (some ∘ Nal.media) := by
  obtain ⟨params, frames, rfl, hparams, hframes⟩ := List.map_eq_append_iff.mp hpkts
  obtain ⟨ts, hburst, hinit⟩ := run_parameterSets hsps hpps hh₁ hh₂ (.inl hparams)
  obtain ⟨tags, htags, hmedia⟩ := run_units h hnals _ frames hinit hframes
  refine ⟨ts, tags, ?_, hmedia⟩
  rw [run_append, hburst, htags]
  rfl

namespace PipelineTasks

variable {codec : AacCodec} {audio : AudioTranscoder codec} {s : PipelineTasks codec}

/-- **From the camera to the player**: the camera sends frames with gaps between them, on whatever
channels, and those of the video channel carry two parameter sets and packetised units. A client
that subscribed in time and lost nothing demultiplexes the metadata, the parameter sets and the
units in order, however the tasks and the other clients interleaved. -/
theorem video_endToEnd {items : List (Gap × Frame)} {last : Gap} {capacity : ℕ}
    {buf : List UInt8} {cuts : List ℕ} {guard : PipelineTasks codec → Event → Prop}
    {closes : Bool} {es : List Event}
    (hrun : Machine.Run PipelineTasks.step guard
      (new audio ⟨capacity, buf, ⟨encodeGaps items last, cuts⟩⟩ closes) es s)
    (hcompleted : s.pipeline = .completed) {sps pps : Nal} (hsps : sps.nalType = nalTypeSps)
    (hpps : pps.nalType = nalTypePps) {h₁ h₂ : List UInt8} (hh₁ : h₁.length = 12)
    (hh₂ : h₂.length = 12) {nals : List Nal} {units : List (List (List UInt8))}
    (hunits : List.Forall₂ Packetised nals units)
    (hnals : ∀ nal ∈ nals, nal.nalType ≠ nalTypeSps ∧ nal.nalType ≠ nalTypePps)
    (hcamera : payloadsOf .video (Fosipcore.packets (items.map Prod.snd)) =
      [h₁ ++ sps.bytes, h₂ ++ pps.bytes] ++ units.flatten) :
    ∀ c ∈ (s.stream .video).clients, Played c → c.lost = 0 → c.start = 0 →
      ∃ (tags : List Tag) (argument : List UInt8) (config : AvcConfig),
        demux c.body.flatten = some (0x01, tags) ∧
          tags.map Tag.media = some (.script (ascii "onMetaData") argument) ::
            some (.avcSequenceHeader config) :: nals.map (some ∘ Nal.media) ∧
          config.lengthSize = 4 ∧ config.sps = [sps.bytes] ∧ config.pps = [pps.bytes] := by
  intro c hc hplayed hlost hstart
  obtain ⟨processed, hprocessed, hbody⟩ := body_of_completed hrun hcompleted
  have hpkts : (videoPackets processed).map TimedPacket.payload =
      [h₁ ++ sps.bytes, h₂ ++ pps.bytes] ++ units.flatten := by
    rw [payloads_videoPackets, hprocessed, hcamera]
  obtain ⟨ts, tags, htags, hmedia⟩ :=
    VideoPipeline.exists_tags_units hsps hpps hh₁ hh₂ hunits hnals hpkts
  -- the lengths of the parameter sets were read in two bytes
  have hlength : ∀ payload ∈ [h₁ ++ sps.bytes, h₂ ++ pps.bytes], payload.length < 65536 := by
    intro payload hpayload
    have hmem : payload ∈ (videoPackets processed).map TimedPacket.payload := by
      rw [hpkts]
      exact List.mem_append_left _ hpayload
    obtain ⟨pkt, hpkt, rfl⟩ := List.mem_map.mp hmem
    have hsource : processed.map Processed.packet <+:
        source ⟨capacity, buf, ⟨encodeGaps items last, cuts⟩⟩ := by
      rw [source_encodeGaps, hprocessed]
    exact Nat.lt_succ_of_le (length_videoPackets hsource pkt hpkt)
  have hlen₁ := hlength _ List.mem_cons_self
  have hlen₂ := hlength _ (List.mem_cons_of_mem _ List.mem_cons_self)
  rw [List.length_append] at hlen₁ hlen₂
  obtain ⟨config, hconfig, hsize, hset, hset'⟩ :=
    FlvMuxer.sequenceTag_media sps pps (by omega) (by omega) ts
  refine ⟨scriptTag ts :: FlvMuxer.sequenceTag sps pps ts :: tags, buildOnMetadata.drop 13,
    config, ?_, ?_, hsize, hset, hset'⟩
  · rw [hbody .video c hc hplayed hlost, hstart, List.drop_zero, emitted, htags]
    exact demux_chunks .video (List.cons_ne_nil _ _)
  · rw [List.map_cons, List.map_cons, scriptTag_media, hconfig, hmedia]

/-- A line end, as a gap. -/
def lineEnd : Gap where
  bytes := [0x0D, 0x0A]
  no_magic := by simp

def noGap : Gap where
  bytes := []
  no_magic := List.not_mem_nil

/-- A camera sends its parameter sets and a keyframe in three fragments, with line ends and a
frame of the control channel between them. -/
def sampleItems : List (Gap × Frame) :=
  [(lineEnd, sampleSpsFrame), (noGap, ⟨1, [0x24, 0x00], by decide⟩), (noGap, samplePpsFrame),
    (lineEnd, ⟨0, VideoPipeline.sampleRtpHeader ++ [0x7C, 0x85, 0x88], by decide⟩),
    (noGap, ⟨0, VideoPipeline.sampleRtpHeader ++ [0x7C, 0x05, 0x84], by decide⟩),
    (noGap, ⟨0, VideoPipeline.sampleRtpHeader ++ [0x7C, 0x45, 0x21], by decide⟩)]

/-- A client of this camera. -/
theorem video_endToEnd_keyframe :
    ∃ s : PipelineTasks sampleCodec, ∃ c ∈ (s.stream .video).clients,
      ∃ (tags : List Tag) (argument : List UInt8) (config : AvcConfig),
        demux c.body.flatten = some (0x01, tags) ∧
          tags.map Tag.media = some (.script (ascii "onMetaData") argument) ::
            some (.avcSequenceHeader config) ::
              [VideoPipeline.sampleIdr].map (some ∘ Nal.media) ∧
          config.lengthSize = 4 ∧ config.sps = [VideoPipeline.sampleSps.bytes] ∧
          config.pps = [VideoPipeline.samplePps.bytes] := by
  have hexec : (exec PipelineTasks.step free (new sampleTranscoder
      ⟨8192, [], ⟨encodeGaps sampleItems noGap, []⟩⟩ true) (sampleEvents .video 5 3)).map
      (fun s => decide (s.pipeline = .completed ∧
        ∃ c ∈ (s.stream .video).clients, Played c ∧ c.lost = 0 ∧ c.start = 0)) = some true := by
    decide +kernel
  obtain ⟨s, hrun, hs⟩ := Run.of_exec_map hexec
  obtain ⟨hcompleted, c, hc, hplayed, hlost, hstart⟩ := of_decide_eq_true hs
  have hcamera : payloadsOf .video (Fosipcore.packets (sampleItems.map Prod.snd)) =
      [VideoPipeline.sampleRtpHeader ++ VideoPipeline.sampleSps.bytes,
        VideoPipeline.sampleRtpHeader ++ VideoPipeline.samplePps.bytes] ++
        [VideoPipeline.sampleFragments].flatten := by
    decide
  exact ⟨s, c, hc, video_endToEnd hrun hcompleted (by decide) (by decide) rfl rfl
    (.cons VideoPipeline.sampleFragments_packetised .nil) (by decide) hcamera c hc hplayed hlost
    hstart⟩

end PipelineTasks

namespace AudioTranscoder

variable {codec : AacCodec}

/-- What the encoder makes of a complete frame is a payload of it. -/
theorem isPayload_of_mem_rawsOf (hcodec : codec.Works) {t : AudioTranscoder codec}
    {samples : List Int16} {raw : List UInt8} (h : raw ∈ t.rawsOf samples) :
    codec.IsPayload raw := by
  obtain ⟨encoder, frame, hframe, rfl⟩ := Blocks.exists_of_mem_blocks _ _ h
  obtain ⟨adtsFrame, payloadOffset, hencode, hparse, hraw, -⟩ := hcodec.accessUnit encoder hframe
  exact ⟨encoder, frame, adtsFrame, payloadOffset, congrArg Prod.fst hencode, hparse, hraw⟩

end AudioTranscoder

namespace PipelineTasks

variable {codec : AacCodec} {audio : AudioTranscoder codec} {s : PipelineTasks codec}

/-- **From the microphone to the player**: the frames of the audio channel bring samples. A client
that subscribed in time and lost nothing is given nothing if they are fewer than a frame of the
encoder. Otherwise it demultiplexes the configuration of the encoder and a payload for every frame
of 1024 samples, 128 milliseconds apart. -/
theorem audio_endToEnd (hcodec : codec.Works)
    (hasc : (codec.aacLcAsc audioSampleRate audioChannels).length = 2)
    (hunit : ∀ raw, codec.IsPayload raw → raw.length < 2 ^ 24 - 2)
    (haudio : AudioTranscoder.new codec = .ok audio) {items : List (Gap × Frame)} {last : Gap}
    {capacity : ℕ} {buf : List UInt8} {cuts : List ℕ}
    {guard : PipelineTasks codec → Event → Prop} {closes : Bool} {es : List Event}
    (hrun : Machine.Run PipelineTasks.step guard
      (new audio ⟨capacity, buf, ⟨encodeGaps items last, cuts⟩⟩ closes) es s)
    (hcompleted : s.pipeline = .completed) {mulaw : List UInt8}
    (hcamera : AudioTranscoder.mulawBytes
      (payloadsOf .audio (Fosipcore.packets (items.map Prod.snd))) = mulaw)
    (hlength : mulaw.length < 2 ^ 54) :
    ∀ c ∈ (s.stream .audio).clients, Played c → c.lost = 0 → c.start = 0 →
      (mulaw.length < 1024 → c.body = []) ∧
      (1024 ≤ mulaw.length → ∃ (tags : List Tag) (raws : List (List UInt8)),
        raws = audio.rawsOf (mulaw.map ulaw2linear) ∧ raws.length = mulaw.length / 1024 ∧
          demux c.body.flatten = some (0x04, tags) ∧
          tags.map Tag.media =
            some (.aacSequenceHeader (codec.aacLcAsc audioSampleRate audioChannels)) ::
              raws.map (some ∘ Media.aacRaw) ∧
          tags.map Tag.timestamp =
            0 :: raws.mapIdx fun k _ => UInt32.ofNat (min (128 * k) (2 ^ 32 - 1))) := by
  intro c hc hplayed hlost hstart
  obtain ⟨processed, hprocessed, hbody⟩ := body_of_completed hrun hcompleted
  subst hcamera
  have hpayloads : audioPayloads processed =
      payloadsOf .audio (Fosipcore.packets (items.map Prod.snd)) := by
    rw [audioPayloads_eq, hprocessed]
  have hemitted := AudioTranscoder.run_packets hcodec haudio hlength
  rw [← hpayloads] at hemitted hlength ⊢
  have hraws := audio.length_rawsOf
    ((AudioTranscoder.mulawBytes (audioPayloads processed)).map ulaw2linear)
  rw [List.length_map] at hraws
  have hgiven := hbody .audio c hc hplayed hlost
  rw [hstart, List.drop_zero, emitted, hemitted] at hgiven
  constructor
  · intro hshort
    rw [frameLen, Nat.div_eq_of_lt hshort, List.length_eq_zero_iff] at hraws
    rw [hgiven, AudioTranscoder.tagsOf, if_pos hraws]
    rfl
  · intro hlong
    have hne : audio.rawsOf ((AudioTranscoder.mulawBytes (audioPayloads processed)).map
        ulaw2linear) ≠ [] := by
      apply List.ne_nil_of_length_pos
      rw [hraws]
      exact Nat.div_pos hlong AacEncoder.frameLen_pos
    have hsizes : ∀ raw ∈ audio.rawsOf ((AudioTranscoder.mulawBytes
        (audioPayloads processed)).map ulaw2linear), raw.length < 2 ^ 24 - 2 :=
      fun raw hraw => hunit raw (AudioTranscoder.isPayload_of_mem_rawsOf hcodec hraw)
    obtain ⟨tags, htags, hmedia, htimes⟩ :=
      AudioTranscoder.exists_tags_tagsOf haudio (hasc.trans_lt (by decide)) hsizes hne
    refine ⟨tags, _, rfl, hraws, ?_, hmedia, htimes⟩
    have htags_ne : tags ≠ [] := by
      rintro rfl
      cases hmedia
    rw [hgiven, htags]
    exact demux_chunks .audio htags_ne

/-- A transcoder with the encoder that numbers its frames. -/
def numberingTranscoder : AudioTranscoder AudioTranscoder.numbering :=
  ⟨⟨UInt8.ofNat 0, [], 0, [0x15, 0x88], 8000, 1, Nat.one_pos⟩, .new [0x15, 0x88], false⟩

theorem numbering_payload {raw : List UInt8} (h : AudioTranscoder.numbering.IsPayload raw) :
    raw.length < 2 ^ 24 - 2 := by
  obtain ⟨_, _, adtsFrame, payloadOffset, hframe, -, rfl⟩ := h
  have hlength : adtsFrame.length = 8 := by
    rw [← Option.some.inj hframe]
    rfl
  rw [List.length_drop]
  omega

/-- A frame of silence, in one packet on the channel of the audio track. -/
def sampleSilence : List (Gap × Frame) :=
  [(noGap, ⟨2, AudioTranscoder.plainHeader ++ List.replicate 1024 0xFF, by
    rw [List.length_append, List.length_replicate]
    decide⟩)]

/-- A client of this camera is given the configuration and one payload. -/
theorem audio_endToEnd_silence :
    ∃ s : PipelineTasks AudioTranscoder.numbering, ∃ c ∈ (s.stream .audio).clients,
      ((List.replicate 1024 (0xFF : UInt8)).length < 1024 → c.body = []) ∧
      (1024 ≤ (List.replicate 1024 (0xFF : UInt8)).length →
        ∃ (tags : List Tag) (raws : List (List UInt8)),
          raws = numberingTranscoder.rawsOf ((List.replicate 1024 0xFF).map ulaw2linear) ∧
          raws.length = (List.replicate 1024 (0xFF : UInt8)).length / 1024 ∧
          demux c.body.flatten = some (0x04, tags) ∧
          tags.map Tag.media = some (.aacSequenceHeader [0x15, 0x88]) ::
            raws.map (some ∘ Media.aacRaw) ∧
          tags.map Tag.timestamp =
            0 :: raws.mapIdx fun k _ => UInt32.ofNat (min (128 * k) (2 ^ 32 - 1))) := by
  have hexec : (exec PipelineTasks.step free (new numberingTranscoder
      ⟨8192, [], ⟨encodeGaps sampleSilence noGap, []⟩⟩ true) (sampleEvents .audio 1 2)).map
      (fun s => decide (s.pipeline = .completed ∧
        ∃ c ∈ (s.stream .audio).clients, Played c ∧ c.lost = 0 ∧ c.start = 0)) = some true := by
    decide +kernel
  obtain ⟨s, hrun, hs⟩ := Run.of_exec_map hexec
  obtain ⟨hcompleted, c, hc, hplayed, hlost, hstart⟩ := of_decide_eq_true hs
  have hcamera : AudioTranscoder.mulawBytes (payloadsOf .audio
      (Fosipcore.packets (sampleSilence.map Prod.snd))) = List.replicate 1024 0xFF := by
    have hne : List.replicate 1024 (0xFF : UInt8) ≠ [] := by
      rw [List.replicate_succ]
      exact List.cons_ne_nil _ _
    exact (AudioTranscoder.mulawBytes_plain (List.forall_mem_singleton.mpr hne)).trans
      (List.append_nil _)
  exact ⟨s, c, hc, audio_endToEnd AudioTranscoder.numbering_works rfl
    (fun _ h => numbering_payload h) rfl hrun hcompleted hcamera
    (by rw [List.length_replicate]; decide) c hc hplayed hlost hstart⟩

end PipelineTasks

end Fosipcore
