import Fosipcore.Library.Channels
import Fosipcore.Video.LaggingClients

/-!
# The task of a client

A client of a live stream has a writer task: it receives tags from the broadcast, puts the file
header in front of the first one, and sends the chunks into a queue of 64, from which the response
is written. The task waits when the queue is full, and the broadcast goes on without it; what it
missed by then it is told when it receives again.

## Main definitions

* `StreamClient`, `StreamClient.step`: a client with its task, its queue and its response
* `StreamClient.Served`: what a client was given of a history

## Main results

* `StreamClient.step_cases`: what a step does
* `StreamClient.Served.step`: every step serves the client
* `StreamClient.Served.demux`: what a client was given demultiplexes, whenever one looks
-/

namespace Fosipcore

open FlvContainer

/-- The tags of a live stream that are retained, and the chunks that wait for a client. -/
abbrev broadcastCapacity : ℕ := 64

abbrev chunkCapacity : ℕ := 64

/-- The task of a client: it receives, or it waits with a chunk. -/
inductive WriterTask where
  | receiving
  | sending (chunk : List UInt8)
  | ended
  deriving DecidableEq

/-- The chunk that a task waits with. -/
def WriterTask.inHand : WriterTask → List (List UInt8)
  | .sending chunk => [chunk]
  | .receiving | .ended => []

/-- A client of a live stream. -/
structure StreamClient where
  task : WriterTask
  first : Bool
  header : Option (List UInt8)
  /-- The position in the broadcast. -/
  next : ℕ
  chunks : BoundedQueue (List UInt8) chunkCapacity
  /-- Whether the response is still written. -/
  connected : Bool
  /-- The chunks that were written to the response. -/
  body : List (List UInt8)
  /-- Where the client subscribed, and how many tags it was told it lost: no step reads these. -/
  start : ℕ
  lost : ℕ

namespace StreamClient

/-- A client that has just subscribed to a broadcast. -/
def subscribe (header : List UInt8) (tags : Broadcast (List UInt8) broadcastCapacity) :
    StreamClient :=
  ⟨.receiving, true, some header, tags.sent, .empty, true, [], tags.sent, 0⟩

/-- What can happen to a client: its task receives, or sends its chunk, the response takes a chunk,
or the client goes. -/
inductive Event where
  | receive
  | send
  | write
  | hangUp

/-- The successor of a client, given the broadcast and whether it is closed. -/
def step (tags : Broadcast (List UInt8) broadcastCapacity) (closed : Bool) (c : StreamClient) :
    Event → Option StreamClient
  | .receive =>
    match c.task with
    | .receiving =>
      match tags.recv c.next with
      | some (.value data, next) =>
        some { c with
          task := .sending (chunk c.first c.header data)
          first := false
          header := if c.first then none else c.header
          next := next }
      | some (.lagged n, next) => some { c with next := next, lost := c.lost + n }
      | none => if closed then some { c with task := .ended } else none
    | .sending _ | .ended => none
  | .send =>
    match c.task with
    | .sending chunk =>
      -- the queue ends with the response
      if c.connected then
        (c.chunks.send chunk).map fun chunks => { c with task := .receiving, chunks := chunks }
      else some { c with task := .ended }
    | .receiving | .ended => none
  | .write =>
    if c.connected then
      c.chunks.recv.map fun (chunk, chunks) =>
        { c with chunks := chunks, body := c.body ++ [chunk] }
    else none
  | .hangUp => some { c with connected := false, chunks := .empty }

variable {tags : Broadcast (List UInt8) broadcastCapacity} {closed : Bool} {c c' : StreamClient}
  {e : Event}

/-- What a step does. -/
inductive StepTo (tags : Broadcast (List UInt8) broadcastCapacity) (closed : Bool)
    (c : StreamClient) : Event → StreamClient → Prop
  | value (data : List UInt8) (next : ℕ) (htask : c.task = .receiving)
      (hrecv : tags.recv c.next = some (.value data, next)) :
      StepTo tags closed c .receive { c with
        task := .sending (chunk c.first c.header data)
        first := false
        header := if c.first then none else c.header
        next := next }
  | lagged (n next : ℕ) (htask : c.task = .receiving)
      (hrecv : tags.recv c.next = some (.lagged n, next)) :
      StepTo tags closed c .receive { c with next := next, lost := c.lost + n }
  | closed (htask : c.task = .receiving) (hrecv : tags.recv c.next = none)
      (hclosed : closed = true) : StepTo tags closed c .receive { c with task := .ended }
  | send (chunk : List UInt8) (chunks : BoundedQueue (List UInt8) chunkCapacity)
      (htask : c.task = .sending chunk) (hconnected : c.connected = true)
      (hsend : c.chunks.send chunk = some chunks) :
      StepTo tags closed c .send { c with task := .receiving, chunks := chunks }
  | gone (chunk : List UInt8) (htask : c.task = .sending chunk) (hconnected : c.connected = false) :
      StepTo tags closed c .send { c with task := .ended }
  | write (chunk : List UInt8) (chunks : BoundedQueue (List UInt8) chunkCapacity)
      (hconnected : c.connected = true) (hrecv : c.chunks.recv = some (chunk, chunks)) :
      StepTo tags closed c .write { c with chunks := chunks, body := c.body ++ [chunk] }
  | hangUp : StepTo tags closed c .hangUp { c with connected := false, chunks := .empty }

theorem step_cases (h : c.step tags closed e = some c') : StepTo tags closed c e c' := by
  cases e with
  | receive =>
    rw [step] at h
    cases htask : c.task with
    | receiving =>
      rw [htask] at h
      dsimp only at h
      rcases hrecv : tags.recv c.next with _ | ⟨data | n, next⟩
      · rw [hrecv] at h
        dsimp only at h
        split_ifs at h with hclosed
        obtain rfl := Option.some.inj h
        exact .closed htask hrecv hclosed
      · rw [hrecv] at h
        obtain rfl := Option.some.inj h
        exact .value data next htask hrecv
      · rw [hrecv] at h
        obtain rfl := Option.some.inj h
        rw [← htask]
        exact .lagged n next htask hrecv
    | sending chunk =>
      rw [htask] at h
      cases h
    | ended =>
      rw [htask] at h
      cases h
  | send =>
    rw [step] at h
    cases htask : c.task with
    | sending chunk =>
      rw [htask] at h
      dsimp only at h
      split_ifs at h with hconnected
      · obtain ⟨chunks, hsend, rfl⟩ := Option.map_eq_some_iff.mp h
        exact .send chunk chunks htask hconnected hsend
      · obtain rfl := Option.some.inj h
        exact .gone chunk htask (by simpa using hconnected)
    | receiving =>
      rw [htask] at h
      cases h
    | ended =>
      rw [htask] at h
      cases h
  | write =>
    rw [step] at h
    split_ifs at h with hconnected
    obtain ⟨⟨chunk, chunks⟩, hrecv, rfl⟩ := Option.map_eq_some_iff.mp h
    exact .write chunk chunks hconnected hrecv
  | hangUp =>
    obtain rfl := Option.some.inj h
    exact .hangUp

/-! ## What a client is given -/

/-- **What a client was given** of the history of a broadcast: chunks of the tags that reached it,
the file header in front of the first one. A response that is not written any more has the first of
these chunks. A task that has ended before its client went has seen the end of the history. -/
structure Served (header : List UInt8) (history : List (List UInt8)) (closed : Bool)
    (c : StreamClient) (kept : List (List UInt8)) : Prop where
  view : Broadcast.View history c.start c.next kept c.lost
  body : c.body <+: Fosipcore.chunks true (some header) kept
  produced : c.connected = true →
    c.body ++ (c.chunks.values ++ c.task.inHand) = Fosipcore.chunks true (some header) kept
  fresh : kept = [] → c.first = true ∧ c.header = some header
  later : kept ≠ [] → c.first = false
  ended : c.task = .ended → c.connected = true → closed = true ∧ c.next = history.length

/-- The chunks of one more tag. -/
theorem chunks_concat {header data : List UInt8} {kept : List (List UInt8)} {c : StreamClient}
    (hfresh : kept = [] → c.first = true ∧ c.header = some header)
    (hlater : kept ≠ [] → c.first = false) :
    Fosipcore.chunks true (some header) (kept ++ [data]) =
      Fosipcore.chunks true (some header) kept ++ [chunk c.first c.header data] := by
  cases kept with
  | nil =>
    obtain ⟨hfirst, hheader⟩ := hfresh rfl
    rw [hfirst, hheader]
    rfl
  | cons tag kept =>
    rw [hlater (List.cons_ne_nil tag kept)]
    rfl

variable {header : List UInt8} {history kept : List (List UInt8)}

theorem served_subscribe (htags : tags.Holds history) (header : List UInt8) :
    (subscribe header tags).Served header history closed [] where
  view := by
    rw [subscribe, htags.sent]
    exact .subscribe history
  body := List.prefix_rfl
  produced := fun _ => rfl
  fresh := fun _ => ⟨rfl, rfl⟩
  later := fun h => absurd rfl h
  ended := by
    rintro ⟨⟩

/-- What is sent later does not change what a client was given. -/
theorem Served.extend (h : c.Served header history false kept) (more : List (List UInt8)) :
    c.Served header (history ++ more) false kept :=
  { h with
    view := h.view.extend more
    ended := fun htask hconnected => absurd (h.ended htask hconnected).1 Bool.false_ne_true }

/-- A broadcast that is closed stays as it is. -/
theorem Served.close (h : c.Served header history closed kept) {closed' : Bool}
    (hclosed : closed = true → closed' = true) : c.Served header history closed' kept :=
  { h with
    ended := fun htask hconnected =>
      ⟨hclosed (h.ended htask hconnected).1, (h.ended htask hconnected).2⟩ }

/-- **Every step serves the client.** -/
theorem Served.step (h : c.Served header history closed kept) (htags : tags.Holds history)
    (hstep : c.step tags closed e = some c') : ∃ kept', c'.Served header history closed kept' := by
  cases step_cases hstep with
  | value data next htask hrecv =>
    have hchunks : Fosipcore.chunks true (some header) (kept ++ [data]) =
        Fosipcore.chunks true (some header) kept ++ [chunk c.first c.header data] :=
      chunks_concat h.fresh h.later
    refine ⟨kept ++ [data], h.view.value htags hrecv, ?_, ?_, ?_, fun _ => rfl, ?_⟩
    · rw [hchunks]
      exact h.body.trans (List.prefix_append _ _)
    · intro hconnected
      have hproduced := h.produced hconnected
      rw [htask, WriterTask.inHand, List.append_nil] at hproduced
      rw [hchunks, ← hproduced, List.append_assoc]
      rfl
    · intro hnil
      exact absurd hnil (List.concat_ne_nil data kept)
    · rintro ⟨⟩
  | lagged n next htask hrecv =>
    refine ⟨kept, { h with view := (h.view.lagged htags hrecv).2, ended := ?_ }⟩
    intro hended
    rw [htask] at hended
    cases hended
  | closed htask hrecv hclosed =>
    refine ⟨kept, { h with produced := ?_, ended := ?_ }⟩
    · intro hconnected
      have hproduced := h.produced hconnected
      rwa [htask] at hproduced
    · exact fun _ _ => ⟨hclosed, h.view.next_eq_length htags hrecv⟩
  | send chunk chunks htask hconnected hsend =>
    refine ⟨kept, { h with produced := ?_, ended := ?_ }⟩
    · intro _
      have hproduced := h.produced hconnected
      rw [htask] at hproduced
      rw [BoundedQueue.values_send hsend, ← hproduced]
      simp [WriterTask.inHand]
    · rintro ⟨⟩
  | gone chunk htask hconnected =>
    refine ⟨kept, { h with produced := ?_, ended := ?_ }⟩
    · intro hstill
      rw [hconnected] at hstill
      cases hstill
    · intro _ hstill
      rw [hconnected] at hstill
      cases hstill
  | write chunk chunks hconnected hrecv =>
    have hproduced := h.produced hconnected
    rw [BoundedQueue.values_recv hrecv, List.cons_append] at hproduced
    refine ⟨kept, { h with body := ?_, produced := ?_ }⟩
    · rw [← hproduced]
      exact ⟨chunks.values ++ c.task.inHand, by simp⟩
    · intro _
      rw [← hproduced]
      simp
  | hangUp =>
    refine ⟨kept, { h with produced := ?_, ended := ?_ }⟩
    · rintro ⟨⟩
    · rintro - ⟨⟩

theorem length_chunks (header : List UInt8) (kept : List (List UInt8)) :
    (Fosipcore.chunks true (some header) kept).length = kept.length := by
  cases kept <;> rfl

/-- Chunks of the first tags. -/
theorem prefix_chunks {body kept : List (List UInt8)}
    (h : body <+: Fosipcore.chunks true (some header) kept) :
    ∃ sent, sent <+: kept ∧ body = Fosipcore.chunks true (some header) sent := by
  cases kept with
  | nil => exact ⟨[], List.prefix_rfl, List.prefix_nil.mp h⟩
  | cons tag kept =>
    cases body with
    | nil => exact ⟨[], List.nil_prefix, rfl⟩
    | cons first body =>
      obtain ⟨rfl, hbody⟩ := List.cons_prefix_cons.mp h
      exact ⟨tag :: body, List.cons_prefix_cons.mpr ⟨rfl, hbody⟩, rfl⟩

/-- **What a client was given demultiplexes**, whenever one looks: it is nothing, or the file header
and whole tags. -/
theorem Served.demux (h : c.Served header history closed kept) {flags : UInt8}
    (hheader : header = fileHeader flags) {all : List Tag} (hall : history = all.map Tag.encode) :
    ∃ sub : List Tag, sub.Sublist (all.drop c.start) ∧ sub.map Tag.encode <+: kept ∧
      c.body.flatten = (if sub = [] then [] else header ++ (sub.map Tag.encode).flatten) ∧
      (sub ≠ [] → FlvContainer.demux c.body.flatten = some (flags, sub)) := by
  obtain ⟨sent, hsent, hbody⟩ := prefix_chunks h.body
  have hkept : kept.Sublist ((all.drop c.start).map Tag.encode) := by
    rw [List.map_drop, ← hall]
    exact h.view.sublist.trans ((List.take_sublist _ _).drop _)
  obtain ⟨sub, hsub, rfl⟩ := List.sublist_map_iff.mp (hsent.sublist.trans hkept)
  have hflatten : c.body.flatten =
      if sub = [] then [] else header ++ (sub.map Tag.encode).flatten := by
    rw [hbody, flatten_chunks]
    simp only [List.map_eq_nil_iff]
  refine ⟨sub, hsub, hsent, hflatten, fun hne => ?_⟩
  rw [hflatten, if_neg hne, hheader]
  exact demux_encode flags sub

end StreamClient

end Fosipcore
