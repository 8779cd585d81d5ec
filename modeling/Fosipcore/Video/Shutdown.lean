import Fosipcore.Video.EndToEnd

/-!
# The end of a stream

A video server is stopped in two steps: it forgets the broadcasts, and aborts the pipeline. From then
on no tag is sent and nobody subscribes, but the tasks of the clients go on by themselves. Each of
them can finish its response with what is left of the broadcast, and none waits for another one. The
reader ends with the next packet that it sends, or with the connection; while the camera keeps that
open and sends nothing, it waits.

## Main definitions

* `StreamClient.weight`: a bound on the steps that a client can still take
* `PipelineTasks.stopEvents`: the two steps of a stop
* `PipelineTasks.EndsCleanly`: what the tasks can do behind a stop
* `PipelineTasks.remaining`: the steps that the tasks can still take
* `PipelineTasks.WoundDown`: the end of all streams

## Main results

* `StreamClient.exists_run`: a client of a closed broadcast finishes its response
* `PipelineTasks.run_stops`: a stop ends every stream, without cutting it off
* `PipelineTasks.run_windsDown`: every schedule comes to this end
-/

namespace Fosipcore

open ByteStream Machine

namespace StreamClient

variable {tags : Broadcast (List UInt8) broadcastCapacity} {closed : Bool} {c c' : StreamClient}
  {e : Event}

/-! ## A client of a closed broadcast -/

/-- A tag that is received is the next one. -/
theorem recv_value {next next' : ℕ} {data : List UInt8}
    (h : tags.recv next = some (.value data, next')) : next' = next + 1 ∧ next < tags.sent := by
  unfold Broadcast.recv at h
  split_ifs at h with hlagged
  · cases (Prod.mk.inj (Option.some.inj h)).1
  obtain ⟨v, hv, hpair⟩ := Option.map_eq_some_iff.mp h
  obtain ⟨hlt, -⟩ := List.getElem?_eq_some_iff.mp hv
  have hlength := tags.length_eq
  rw [Broadcast.oldest] at hlagged hlt
  exact ⟨(Prod.mk.inj hpair).2.symm, by omega⟩

/-- Lost tags are skipped. -/
theorem recv_lagged {next next' n : ℕ} (h : tags.recv next = some (.lagged n, next')) :
    next < next' ∧ next' ≤ tags.sent := by
  unfold Broadcast.recv at h
  split_ifs at h with hlagged
  · obtain rfl := (Prod.mk.inj (Option.some.inj h)).2
    exact ⟨hlagged, Nat.sub_le _ _⟩
  · obtain ⟨v, -, hpair⟩ := Option.map_eq_some_iff.mp h
    cases (Prod.mk.inj hpair).1

def taskWeight : WriterTask → ℕ
  | .receiving => 1
  | .sending _ => 3
  | .ended => 0

/-- The steps that a client can still take without new tags: three for each tag are enough. -/
def weight (tags : Broadcast (List UInt8) broadcastCapacity) (c : StreamClient) : ℕ :=
  3 * (tags.sent - c.next) + c.chunks.values.length + taskWeight c.task

/-- Steps that a task takes, for a client that stays or has gone. -/
def Event.ofTask : Event → Bool
  | .receive | .send | .write => true
  | .hangUp => false

/-- **Every step of a task takes away from the weight.** -/
theorem weight_step (h : c.step tags closed e = some c') :
    c'.weight tags + (if e.ofTask then 1 else 0) ≤ c.weight tags := by
  cases step_cases h with
  | value data next htask hrecv =>
    obtain ⟨rfl, hlt⟩ := recv_value hrecv
    simp only [weight, htask, taskWeight, Event.ofTask, if_true]
    omega
  | lagged n next htask hrecv =>
    obtain ⟨hlt, hle⟩ := recv_lagged hrecv
    simp only [weight, Event.ofTask, if_true]
    omega
  | closed htask hrecv hclosed =>
    simp only [weight, htask, taskWeight, Event.ofTask, if_true]
    omega
  | send chunk chunks htask hconnected hsend =>
    have hvalues := congrArg List.length (BoundedQueue.values_send hsend)
    rw [List.length_append, List.length_singleton] at hvalues
    simp only [weight, htask, taskWeight, Event.ofTask, if_true]
    omega
  | gone chunk htask hconnected =>
    simp only [weight, htask, taskWeight, Event.ofTask, if_true]
    omega
  | write chunk chunks hconnected hrecv =>
    have hvalues := congrArg List.length (BoundedQueue.values_recv hrecv)
    rw [List.length_cons] at hvalues
    simp only [weight, Event.ofTask, if_true]
    omega
  | hangUp =>
    have hempty : (BoundedQueue.empty : BoundedQueue (List UInt8) chunkCapacity).values = [] := rfl
    simp only [weight, hempty, List.length_nil, Event.ofTask, Bool.false_eq_true, if_false]
    omega

theorem connected_step (h : c.step tags closed e = some c') (he : e.ofTask = true) :
    c'.connected = c.connected := by
  cases step_cases h with
  | hangUp => cases he
  | value | lagged | closed | send | gone | write => rfl

theorem exists_write (hconnected : c.connected = true) (hne : c.chunks.values ≠ []) :
    ∃ c', c.step tags closed .write = some c' := by
  obtain ⟨⟨chunk, chunks⟩, hrecv⟩ :=
    Option.ne_none_iff_exists'.mp fun hnone => hne (BoundedQueue.recv_eq_none.mp hnone)
  refine ⟨{ c with chunks := chunks, body := c.body ++ [chunk] }, ?_⟩
  simp only [step, hconnected, if_true, hrecv, Option.map_some]

/-- **A client is never stuck** behind the end of a broadcast: its task has ended and a response that
is still written has all chunks, or else there is a step. -/
theorem exists_step (tags : Broadcast (List UInt8) broadcastCapacity) (c : StreamClient) :
    (c.task = .ended ∧ (c.connected = true → c.chunks.values = [])) ∨
      ∃ e c', e.ofTask = true ∧ c.step tags true e = some c' := by
  by_cases hwrite : c.connected = true ∧ c.chunks.values ≠ []
  · obtain ⟨c', hstep⟩ := exists_write hwrite.1 hwrite.2
    exact .inr ⟨.write, c', rfl, hstep⟩
  have hdrained : c.connected = true → c.chunks.values = [] :=
    fun hconnected => not_not.mp fun hne => hwrite ⟨hconnected, hne⟩
  cases htask : c.task with
  | ended => exact .inl ⟨rfl, hdrained⟩
  | sending chunk =>
    cases hconnected : c.connected with
    | false =>
      refine .inr ⟨.send, { c with task := .ended }, rfl, ?_⟩
      simp only [step, htask, hconnected, Bool.false_eq_true, if_false]
    | true =>
      -- the queue is empty, so there is room
      have hroom : c.chunks.values.length < chunkCapacity := by
        rw [hdrained hconnected]
        exact Nat.zero_lt_succ _
      obtain ⟨chunks, hsend⟩ := BoundedQueue.exists_send hroom chunk
      refine .inr ⟨.send, { c with task := .receiving, chunks := chunks }, rfl, ?_⟩
      simp only [step, htask, hconnected, if_true, hsend, Option.map_some]
  | receiving =>
    rcases hreceived : tags.recv c.next with _ | ⟨data | n, next⟩
    · refine .inr ⟨.receive, { c with task := .ended }, rfl, ?_⟩
      simp only [step, htask, hreceived, if_true]
    · refine .inr ⟨.receive, { c with
        task := .sending (chunk c.first c.header data)
        first := false
        header := if c.first then none else c.header
        next := next }, rfl, ?_⟩
      simp only [step, htask, hreceived]
    · refine .inr ⟨.receive, { c with next := next, lost := c.lost + n }, rfl, ?_⟩
      simp only [step, htask, hreceived]

/-- **A client of a closed broadcast finishes its response**, in at most as many steps of its own as
its weight. -/
theorem exists_run (tags : Broadcast (List UInt8) broadcastCapacity) (h : c.connected = true) :
    ∃ es c', es.length ≤ c.weight tags ∧ Run (step tags true) free c es c' ∧
      PipelineTasks.Played c' := by
  have hprogress : ∀ c : StreamClient, c.connected = true → PipelineTasks.Played c ∨
      ∃ e c', e.ofTask = true ∧ free c e ∧ step tags true c e = some c' ∧ c'.connected = true ∧
        c'.weight tags < c.weight tags := by
    intro c h
    rcases exists_step tags c with ⟨hended, hdrained⟩ | ⟨e, c', he, hstep⟩
    · exact .inl ⟨h, hended, hdrained h⟩
    · have hweight := weight_step hstep
      rw [he, if_pos rfl] at hweight
      exact .inr ⟨e, c', he, trivial, hstep, (connected_step hstep he).trans h, hweight⟩
  obtain ⟨es, c', -, hlength, hrun, -, hplayed⟩ :=
    Run.exists_of_weight (weight tags) hprogress h
  exact ⟨es, c', hlength, hrun, hplayed⟩

/-- A client of a broadcast that gets no more tags is given what is retained of it. -/
theorem lost_of_run {es : List Event} (h : Run (step tags true) free c es c')
    (hkeeps : tags.sent ≤ c.next + broadcastCapacity) :
    c'.lost = c.lost ∧ tags.sent ≤ c'.next + broadcastCapacity := by
  refine h.invariant (I := fun c' => c'.lost = c.lost ∧ tags.sent ≤ c'.next + broadcastCapacity)
    ?_ ⟨rfl, hkeeps⟩
  rintro c₁ e c₂ ⟨hlost, hkeeps⟩ - hstep
  have hlost' := PipelineTasks.lost_of_keepsUp hkeeps hstep
  refine ⟨hlost'.trans hlost, ?_⟩
  cases step_cases hstep with
  | value data next htask hrecv =>
    obtain ⟨rfl, -⟩ := recv_value hrecv
    exact hkeeps.trans (Nat.add_le_add_right (Nat.le_succ _) _)
  | lagged n next htask hrecv => exact absurd hrecv (Broadcast.recv_of_keepsUp hkeeps)
  | closed | send | gone | write | hangUp => exact hkeeps

end StreamClient

namespace PipelineTasks

variable {codec : AacCodec} {audio : AudioTranscoder codec} {s s' : PipelineTasks codec} {e : Event}
  {kind : MediaKind} {i : ℕ} {c c' : StreamClient}

/-! ## Clients that go on by themselves -/

def setClient (s : PipelineTasks codec) (kind : MediaKind) (i : ℕ) (c : StreamClient) :
    PipelineTasks codec :=
  s.setStream kind { s.stream kind with clients := (s.stream kind).clients.set i c }

theorem setClient_setClient (s : PipelineTasks codec) (kind : MediaKind) (i : ℕ)
    (c c' : StreamClient) : (s.setClient kind i c).setClient kind i c' = s.setClient kind i c' := by
  simp only [setClient, setStream, Function.update_self, Function.update_idem, List.set_set]

theorem setClient_self (hi : (s.stream kind).clients[i]? = some c) : s.setClient kind i c = s := by
  obtain ⟨hlt, rfl⟩ := List.getElem?_eq_some_iff.mp hi
  simp only [setClient, setStream, List.set_getElem_self, Function.update_eq_self]

theorem clients_setClient (hi : (s.stream kind).clients[i]? = some c) :
    ((s.setClient kind i c').stream kind).clients[i]? = some c' := by
  rw [setClient, setStream_same]
  exact List.getElem?_set_self (List.getElem?_eq_some_iff.mp hi).1

theorem client_step {e : StreamClient.Event} (hi : (s.stream kind).clients[i]? = some c)
    (h : c.step (s.stream kind).tags s.closed e = some c') :
    s.step (.client kind i e) = some (s.setClient kind i c') := by
  rw [step, LiveStream.clientStep, hi, Option.bind_some, h]
  rfl

/-- **The steps of a client** are steps of the whole, and change nothing else. -/
theorem run_client {es : List StreamClient.Event} (hi : (s.stream kind).clients[i]? = some c)
    (h : Run (StreamClient.step (s.stream kind).tags s.closed) free c es c') :
    Run PipelineTasks.step free s (es.map (.client kind i)) (s.setClient kind i c') := by
  generalize htags : (s.stream kind).tags = tags at h
  generalize hclosed : s.closed = closed at h
  induction h generalizing s with
  | nil =>
    rw [setClient_self hi]
    exact .nil s
  | @cons c c₁ c' e es _ hstep _ ih =>
    have hnext : s.step (.client kind i e) = some (s.setClient kind i c₁) := by
      subst htags hclosed
      exact client_step hi hstep
    have htags' : ((s.setClient kind i c₁).stream kind).tags = tags := by
      rw [setClient, setStream_same]
      exact htags
    have hrest := ih (clients_setClient hi) htags' hclosed
    rw [setClient_setClient] at hrest
    exact .cons trivial hnext hrest

/-! ## Behind a stop -/

/-- A stop: the broadcasts are forgotten, and the pipeline is aborted if it still runs. -/
def stopEvents (s : PipelineTasks codec) : List Event :=
  if isRunning s.pipeline then [.deregister, .abort] else [.deregister]

/-- **Every pipeline can be stopped**, whatever it does. -/
theorem run_stopEvents (s : PipelineTasks codec) :
    ∃ s', Run PipelineTasks.step free s s.stopEvents s' ∧ s'.closed = true ∧
      s'.stream = s.stream := by
  rw [stopEvents]
  cases hpipeline : s.pipeline with
  | running video audio =>
    refine ⟨{ s with registered := false, pipeline := .aborted, packets := .empty }, ?_, rfl, rfl⟩
    have habort : PipelineTasks.step { s with registered := false } .abort =
        some { s with registered := false, pipeline := .aborted, packets := .empty } := by
      simp only [step, hpipeline]
      rfl
    exact .cons trivial rfl (.cons trivial habort (.nil _))
  | completed =>
    refine ⟨{ s with registered := false }, .cons trivial rfl (.nil _), ?_, rfl⟩
    rw [closed, hpipeline]
    rfl
  | aborted =>
    refine ⟨{ s with registered := false }, .cons trivial rfl (.nil _), ?_, rfl⟩
    rw [closed, hpipeline]
    rfl

theorem closed_iff : s.closed = true ↔ s.registered = false ∧ isRunning s.pipeline = false := by
  rw [closed, Bool.and_eq_true, Bool.not_eq_true', Bool.not_eq_true']

/-- **Nothing is sent behind a stop**, and it stays so. -/
theorem closed_step (hclosed : s.closed = true) (hstep : s.step e = some s') :
    s'.closed = true ∧ ∀ kind, (s'.stream kind).tags = (s.stream kind).tags := by
  obtain ⟨hregistered, hpipeline⟩ := closed_iff.mp hclosed
  cases step_cases hstep with
  | read | readError | sendError => exact ⟨hclosed, fun _ => rfl⟩
  | send packet r packets hreader hrunning => cases hpipeline.symm.trans hrunning
  | process now now' video audio packet packets hrunning =>
    rw [hrunning] at hpipeline
    cases hpipeline
  | complete now now' video audio hrunning =>
    rw [hrunning] at hpipeline
    cases hpipeline
  | deregister => exact ⟨closed_iff.mpr ⟨rfl, hpipeline⟩, fun _ => rfl⟩
  | abort video audio _ hrunning =>
    rw [hrunning] at hpipeline
    cases hpipeline
  | join kind hjoin => cases hregistered.symm.trans hjoin
  | client kind i e c c' hi hclient =>
    refine ⟨hclosed, fun kind' => ?_⟩
    by_cases hkind : kind' = kind
    · rw [hkind, setStream_same]
    · rw [setStream_other s hkind]

/-- **The reader ends with its next packet** or with the connection, or it waits for them. -/
theorem exists_readerEnd (hgone : isRunning s.pipeline = false) :
    s.Awaits ∨ ∃ es s', (∀ e ∈ es, e = .read ∨ e = .send) ∧ es.length ≤ 2 ∧
      Run PipelineTasks.step free s es s' ∧ s'.reader = .ended := by
  have hsend : ∀ {t : PipelineTasks codec} {packet : RtpPacket} {r : BufReader},
      t.reader = .sending packet r → isRunning t.pipeline = false →
        t.step .send = some { t with reader := .ended } := by
    intro t packet r hreader hgone
    simp only [step, hreader, hgone, Bool.false_eq_true, if_false]
  cases hreader : s.reader with
  | ended => exact .inr ⟨[], s, List.forall_mem_nil _, Nat.zero_le 2, .nil s, hreader⟩
  | sending packet r =>
    refine .inr ⟨[.send], { s with reader := .ended }, ?_, Nat.le_succ 1,
      .cons trivial (hsend hreader hgone) (.nil _), rfl⟩
    exact List.forall_mem_singleton.mpr (.inr rfl)
  | reading r =>
    cases hread : readRtpPacket r with
    | none =>
      cases hcloses : s.closes with
      | false => exact .inl ⟨hcloses, r, hreader, hread⟩
      | true =>
        have hstep : s.step .read = some { s with reader := .ended } := by
          simp only [step, hreader, hread, hcloses, if_true]
        refine .inr ⟨[.read], { s with reader := .ended }, ?_, Nat.le_succ 1,
          .cons trivial hstep (.nil _), rfl⟩
        exact List.forall_mem_singleton.mpr (.inl rfl)
    | some read =>
      obtain ⟨packet, r'⟩ := read
      have hstep : s.step .read = some { s with reader := .sending packet r' } := by
        simp only [step, hreader, hread]
      have hnext : PipelineTasks.step { s with reader := .sending packet r' } .send =
          some { s with reader := .ended } := hsend rfl hgone
      refine .inr ⟨[.read, .send], { s with reader := .ended }, ?_, le_rfl,
        .cons trivial hstep (.cons trivial hnext (.nil _)), rfl⟩
      exact List.forall_mem_cons.mpr ⟨.inl rfl, List.forall_mem_singleton.mpr (.inr rfl)⟩

/-- **What the tasks can do behind a stop**: the reader ends with its next packet or with the
connection, unless the camera keeps that open and sends nothing. Every client that is still there
finishes its response by steps of its own, which change nothing else. It has then written or lost
every tag since it subscribed, and it loses none if it is at most 64 tags behind. -/
structure EndsCleanly (s : PipelineTasks codec) : Prop where
  reader : s.Awaits ∨ ∃ es s', (∀ e ∈ es, e = .read ∨ e = .send) ∧ es.length ≤ 2 ∧
    Run PipelineTasks.step free s es s' ∧ s'.reader = .ended
  client : ∀ (kind : MediaKind) (i : ℕ) (c : StreamClient),
    (s.stream kind).clients[i]? = some c → c.connected = true →
      ∃ (es : List StreamClient.Event) (c' : StreamClient),
        es.length ≤ c.weight (s.stream kind).tags ∧
          Run PipelineTasks.step free s (es.map (.client kind i)) (s.setClient kind i c') ∧
          Played c' ∧ c'.start = c.start ∧
          c'.start + c'.body.length + c'.lost = (s.stream kind).tags.sent ∧
          ((s.stream kind).tags.sent ≤ c.next + broadcastCapacity → c'.lost = c.lost)

theorem start_step {tags : Broadcast (List UInt8) broadcastCapacity} {closed : Bool}
    {e : StreamClient.Event} (h : c.step tags closed e = some c') : c'.start = c.start := by
  cases StreamClient.step_cases h <;> rfl

/-- Every tag since it subscribed was written by a client that was given everything, or lost. -/
theorem Played.accounts {header : List UInt8} {history kept : List (List UInt8)} {closed : Bool}
    (hplayed : Played c) (h : c.Served header history closed kept) :
    c.start + c.body.length + c.lost = history.length := by
  obtain ⟨-, hnext⟩ := h.ended hplayed.ended hplayed.connected
  have hproduced := congrArg List.length (h.produced hplayed.connected)
  rw [hplayed.drained, hplayed.ended, WriterTask.inHand, List.append_nil, List.append_nil,
    StreamClient.length_chunks] at hproduced
  have hview := h.view.next_eq
  omega

/-- In a closed state the tasks can come to their ends. -/
theorem Inv.endsCleanly {all : List RtpPacket} {processed : List Processed}
    (h : s.Inv audio all processed) (hclosed : s.closed = true) : s.EndsCleanly where
  reader := exists_readerEnd (closed_iff.mp hclosed).2
  client := by
    intro kind i c hi hconnected
    obtain ⟨kept, hkept⟩ := h.clients kind c (List.mem_of_getElem? hi)
    have htags := h.tags kind
    obtain ⟨es, c', hlength, hrun, hplayed⟩ := StreamClient.exists_run (s.stream kind).tags hconnected
    have hserved : (∃ kept, c'.Served kind.header (emitted audio kind processed) true kept) ∧
        c'.start = c.start := by
      refine hrun.invariant (I := fun d => (∃ kept, d.Served kind.header
        (emitted audio kind processed) true kept) ∧ d.start = c.start) ?_
        ⟨⟨kept, hkept.close fun _ => rfl⟩, rfl⟩
      rintro d e d' ⟨⟨kept, hd⟩, hstart⟩ - hstep
      exact ⟨hd.step htags hstep, (start_step hstep).trans hstart⟩
    obtain ⟨⟨kept', hkept'⟩, hstart⟩ := hserved
    refine ⟨es, c', hlength, run_client hi ?_, hplayed, hstart, ?_, fun hkeeps => ?_⟩
    · rw [hclosed]
      exact hrun
    · rw [htags.sent]
      exact hplayed.accounts hkept'
    · exact (StreamClient.lost_of_run hrun hkeeps).1

/-- Steps that the tasks take, and not the server or a browser. -/
def Event.ofTask : Event → Bool
  | .read | .send | .process _ _ => true
  | .client _ _ e => e.ofTask
  | .deregister | .abort | .join _ => false

def readerSteps : ReaderTask → ℕ
  | .reading _ => 2
  | .sending _ _ => 1
  | .ended => 0

def clientSteps (stream : LiveStream) : ℕ :=
  (stream.clients.map (StreamClient.weight stream.tags)).sum

/-- The steps that the reader and the clients can still take behind a stop. -/
def remaining (s : PipelineTasks codec) : ℕ :=
  readerSteps s.reader + clientSteps (s.stream .video) + clientSteps (s.stream .audio)

theorem clientSteps_set {stream : LiveStream} (hi : stream.clients[i]? = some c)
    (c' : StreamClient) :
    clientSteps { stream with clients := stream.clients.set i c' } + c.weight stream.tags =
      clientSteps stream + c'.weight stream.tags := by
  obtain ⟨hlt, rfl⟩ := List.getElem?_eq_some_iff.mp hi
  obtain ⟨before, after, heq, -, hset⟩ := @List.exists_of_set _ i c' _ hlt
  rw [clientSteps, clientSteps, hset]
  have hclients := congrArg (fun l => (l.map (StreamClient.weight stream.tags)).sum) heq
  simp only [List.map_append, List.map_cons, List.sum_append, List.sum_cons] at hclients ⊢
  omega

theorem remaining_setStream (s : PipelineTasks codec) (kind : MediaKind) (stream : LiveStream) :
    (s.setStream kind stream).remaining + clientSteps (s.stream kind) =
      s.remaining + clientSteps stream := by
  have hreader : (s.setStream kind stream).reader = s.reader := rfl
  cases kind with
  | video =>
    rw [remaining, remaining, hreader, setStream_same, setStream_other s MediaKind.noConfusion]
    omega
  | audio =>
    rw [remaining, remaining, hreader, setStream_same, setStream_other s MediaKind.noConfusion]
    omega

theorem remaining_setClient (hi : (s.stream kind).clients[i]? = some c) (c' : StreamClient) :
    (s.setClient kind i c').remaining + c.weight (s.stream kind).tags =
      s.remaining + c'.weight (s.stream kind).tags := by
  have hset := clientSteps_set hi c'
  have hstream : (s.setClient kind i c').remaining + clientSteps (s.stream kind) =
      s.remaining + clientSteps ⟨(s.stream kind).tags, (s.stream kind).clients.set i c'⟩ :=
    remaining_setStream s kind _
  omega

/-- **Every step of a task behind a stop takes away from what remains.** -/
theorem remaining_step (hclosed : s.closed = true) (hstep : s.step e = some s') :
    s'.remaining + (if e.ofTask then 1 else 0) ≤ s.remaining := by
  obtain ⟨hregistered, hpipeline⟩ := closed_iff.mp hclosed
  cases step_cases hstep with
  | read r packet r' hreader hread =>
    simp only [remaining, hreader, readerSteps, Event.ofTask, if_true]
    omega
  | readError r hreader hread hcloses =>
    simp only [remaining, hreader, readerSteps, Event.ofTask, if_true]
    omega
  | send packet r packets hreader hrunning => cases hpipeline.symm.trans hrunning
  | sendError packet r hreader hgone =>
    simp only [remaining, hreader, readerSteps, Event.ofTask, if_true]
    omega
  | process now now' video audio packet packets hrunning =>
    rw [hrunning] at hpipeline
    cases hpipeline
  | complete now now' video audio hrunning =>
    rw [hrunning] at hpipeline
    cases hpipeline
  | deregister => exact le_rfl
  | abort video audio _ hrunning =>
    rw [hrunning] at hpipeline
    cases hpipeline
  | join kind hjoin => cases hregistered.symm.trans hjoin
  | client kind i e c c' hi hclient =>
    have hweight := StreamClient.weight_step hclient
    have hremaining : (s.setStream kind
        { s.stream kind with clients := (s.stream kind).clients.set i c' }).remaining +
          c.weight (s.stream kind).tags = s.remaining + c'.weight (s.stream kind).tags :=
      remaining_setClient hi c'
    rw [Event.ofTask]
    omega

/-- **All streams have ended**: the tasks have, but for a reader that waits on an open connection, and
every response that was not given up has, or its client was told it lost, every tag since it
subscribed. -/
structure WoundDown (s : PipelineTasks codec) : Prop where
  reader : s.reader = .ended ∨ s.Awaits
  client : ∀ kind, ∀ c ∈ (s.stream kind).clients, c.task = .ended ∧ (c.connected = true →
    Played c ∧ c.start + c.body.length + c.lost = (s.stream kind).tags.sent)

/-- A stopped pipeline whose tasks cannot go on is wound down. -/
theorem Inv.woundDown {all : List RtpPacket} {processed : List Processed}
    (h : s.Inv audio all processed) (hclosed : s.closed = true)
    (hstuck : ∀ e, Event.ofTask e = true → s.step e = none) : s.WoundDown where
  reader := by
    rcases exists_readerEnd (closed_iff.mp hclosed).2 with hawaits | ⟨es, s', hes, -, hrun, hended⟩
    · exact .inr hawaits
    cases hrun with
    | nil => exact .inl hended
    | @cons _ t _ e _ _ hstep _ =>
      have he : Event.ofTask e = true := by
        rcases hes e (List.mem_cons_self ..) with rfl | rfl
        · rfl
        · rfl
      cases (hstuck e he).symm.trans hstep
  client := by
    intro kind c hc
    obtain ⟨kept, hkept⟩ := h.clients kind c hc
    obtain ⟨i, hi⟩ := List.mem_iff_getElem?.mp hc
    rcases StreamClient.exists_step (s.stream kind).tags c with ⟨hended, hdrained⟩ | hnext
    · refine ⟨hended, fun hconnected => ?_⟩
      have hplayed : Played c := ⟨hconnected, hended, hdrained hconnected⟩
      rw [(h.tags kind).sent]
      exact ⟨hplayed, hplayed.accounts hkept⟩
    · obtain ⟨e, c', he, hstep⟩ := hnext
      rw [← hclosed] at hstep
      cases (hstuck (.client kind i e) he).symm.trans (client_step hi hstep)

/-- **Every schedule winds a stopped pipeline down**, however the stop was interleaved with the tasks:
they take at most as many steps as remained, and when none of them can go on, all streams have
ended. -/
theorem run_windsDown (r : BufReader) {closes : Bool} {es : List Event}
    (hrun : Run PipelineTasks.step free (new audio r closes) es s) (hclosed : s.closed = true) :
    ∀ es' s', Run PipelineTasks.step free s es' s' →
      es'.countP Event.ofTask + s'.remaining ≤ s.remaining ∧
        ((∀ e, Event.ofTask e = true → s'.step e = none) → s'.WoundDown) := by
  intro es' s' hrun'
  constructor
  · have hpays : ∀ (t : PipelineTasks codec) (e : Event) (t' : PipelineTasks codec),
        t.closed = true → free t e → t.step e = some t' →
          t'.closed = true ∧ t'.remaining + (if e.ofTask then 1 else 0) ≤ t.remaining :=
      fun _ _ _ ht _ hstep => ⟨(closed_step ht hstep).1, remaining_step ht hstep⟩
    exact hrun'.countP_le_weight hpays hclosed
  · intro hstuck
    obtain ⟨processed, h⟩ := Inv.run (hrun.append hrun')
    have hclosed' : s'.closed = true :=
      hrun'.invariant (fun _ _ _ ht _ hstep => (closed_step ht hstep).1) hclosed
    exact h.woundDown hclosed' hstuck

/-- Three steps remain of a pipeline that was stopped while a client waited for its first tag. -/
theorem run_windsDown_waiting :
    ∃ s : PipelineTasks sampleCodec, s.closed = true ∧ s.remaining = 3 ∧
      ∀ es' s', Run PipelineTasks.step free s es' s' →
        es'.countP Event.ofTask + s'.remaining ≤ s.remaining ∧
          ((∀ e, Event.ofTask e = true → s'.step e = none) → s'.WoundDown) := by
  have hexec : (exec PipelineTasks.step free (new sampleTranscoder sampleConnection false)
      [.join .video, .deregister, .abort]).map (fun s => (s.closed, s.remaining)) =
        some (true, 3) := by
    decide +kernel
  obtain ⟨s, hrun, heq⟩ := Run.of_exec_map hexec
  obtain ⟨hclosed, hremaining⟩ := Prod.mk.inj heq
  exact ⟨s, hclosed, hremaining, run_windsDown sampleConnection hrun hclosed⟩

end PipelineTasks

end Fosipcore
