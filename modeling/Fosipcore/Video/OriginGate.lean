import Fosipcore.Video.Sequential

/-!
# The gate of the stream endpoints

A request for a stream asks the gate first and subscribes later, behind another lock. Calls come
one after the other, but a request can fall between any two of their steps, and a lock that a
writer holds cannot be read: the gate then counts as not armed, and there is nothing to subscribe
to. The gate is open as long as nothing is armed, so its answer can be too old when it is used.

## Main definitions

* `FlvGate`, `FlvGate.step`: the calls lock by lock, and the requests
* `FlvGate.Exact`: no page gets a stream of a camera with another origin
* `FlvGate.keepsOrigins`: no sender is written between the two steps of a foreign request

## Main results

* `FlvGate.run_exact`: the gate is exact as long as no sender is written between the two steps of
  a foreign request
* `FlvGate.write_exposes`: otherwise a foreign request gets the stream with the next step
* `FlvGate.stale_answer`: a request that is checked before a start gets the stream of that start
-/

namespace Fosipcore

open Machine Text

/-! ## Locks -/

/-- The fields of the video server, each behind its own lock. -/
inductive ServerField where
  | videoTx
  | audioTx
  | videoTask
  | armedOrigin
  deriving DecidableEq

/-- The field that a step of a call writes; the spawn of the pipeline writes none. -/
def VideoOp.field : VideoOp → Option ServerField
  | .clearVideoTx | .setVideoTx => some .videoTx
  | .clearAudioTx | .setAudioTx => some .audioTx
  | .clearArmedOrigin | .setArmedOrigin _ => some .armedOrigin
  | .takeVideoTask | .storeVideoTask => some .videoTask
  | .spawnPipeline => none

/-! ## Requests -/

inductive Stream where
  | video
  | audio
  deriving DecidableEq

/-- What has become of a request: the gate has answered, or the response was sent, with the
broadcast that it subscribed to. -/
inductive RequestState where
  | checked (originOk : Bool)
  | responded (subscription : Option ℕ)
  deriving DecidableEq

/-- A request for a live stream. -/
structure StreamRequest where
  stream : Stream
  originHeader : Option Str
  state : RequestState
  deriving DecidableEq

/-- The origins that the header of the request does not contradict. -/
def StreamRequest.Admits (r : StreamRequest) (origin : OriginInfo) : Prop :=
  ∀ raw ∈ r.originHeader, ∀ o ∈ OriginInfo.parse raw, o = origin

instance (r : StreamRequest) (origin : OriginInfo) : Decidable (r.Admits origin) :=
  inferInstanceAs (Decidable (∀ raw ∈ _, ∀ o ∈ OriginInfo.parse raw, _))

/-- The calls on a video server with the origins that were passed to them, the lock that is held by
the call in progress, and the requests. -/
structure FlvGate where
  calls : VideoCalls
  origins : List (Option OriginInfo)
  held : Option ServerField
  requests : List StreamRequest
  deriving DecidableEq

namespace FlvGate

def new : FlvGate := ⟨.new, [], none, []⟩

/-- What can happen: a call begins, takes a lock or makes its write, a pipeline ends, a request
asks the gate, or it subscribes. -/
inductive Event where
  | start (claimedHost : Str) (httpPort : UInt16)
  | stop
  | lock (i : ℕ)
  | write (i : ℕ)
  | finish (t : ℕ)
  | request (stream : Stream) (originHeader : Option Str)
  | respond (r : ℕ)

/-- `try_read`: a field that is being written reads as nothing. -/
def tryRead {α : Type*} (s : FlvGate) (field : ServerField) (value : Option α) : Option α :=
  if s.held = some field then none else value

/-- The answer of the gate. -/
def originAllowed (s : FlvGate) (originHeader : Option Str) : Bool :=
  -- a gate that is being written reads as one that is not armed, and accepts every page
  VideoServer.originAllowed
    { s.calls.server with armedOrigin := s.tryRead .armedOrigin s.calls.server.armedOrigin }
    originHeader

def subscribe (s : FlvGate) : Stream → Option ℕ
  | .video => s.tryRead .videoTx s.calls.server.subscribeVideo
  | .audio => s.tryRead .audioTx s.calls.server.subscribeAudio

/-- A request that the gate refused is answered with 403. -/
def respond (s : FlvGate) (r : StreamRequest) : StreamRequest :=
  match r.state with
  | .checked true => { r with state := .responded (s.subscribe r.stream) }
  | .checked false => { r with state := .responded none }
  | .responded _ => r

/-- A call begins, behind all others. -/
def invoke (s : FlvGate) (ops : List VideoOp) (origin : Option OriginInfo) : FlvGate :=
  { s with calls := s.calls.invoke ops, origins := s.origins ++ [origin] }

def step (s : FlvGate) : Event → Option FlvGate
  | .start claimedHost httpPort =>
    let origin := OriginInfo.ofCamera claimedHost httpPort
    if s.calls.Returned then some (s.invoke (startOps origin) (some origin)) else none
  | .stop => if s.calls.Returned then some (s.invoke stopOps none) else none
  | .lock i =>
    -- the calls run one after the other, so one lock is held at most
    match s.held, (s.calls.next i).bind VideoOp.field with
    | none, some field => some { s with held := some field }
    | _, _ => none
  | .write i =>
    -- an operation on no field is made while no lock is held
    if (s.calls.next i).bind VideoOp.field = s.held then
      (s.calls.advance i).map fun calls => { s with calls := calls, held := none }
    else none
  | .finish t => (s.calls.step (.finish t)).map fun calls => { s with calls := calls }
  | .request stream originHeader =>
    some { s with
      requests := s.requests ++
        [⟨stream, originHeader, .checked (s.originAllowed originHeader)⟩] }
  | .respond r => s.requests[r]?.map fun request =>
      { s with requests := s.requests.set r (s.respond request) }

/-- **The gate is exact**: a request whose origin differs from the one that was passed to a start
has no subscription to a broadcast of that start. -/
def Exact (s : FlvGate) : Prop :=
  ∀ r ∈ s.requests, ∀ k origin, s.origins[k]? = some (some origin) →
    ∀ raw o, r.originHeader = some raw → OriginInfo.parse raw = some o → o ≠ origin →
      r.state ≠ .responded (some k)

/-- A request for the stream that has passed the gate and has not subscribed. -/
def Pending (stream : Stream) (r : StreamRequest) : Prop :=
  r.stream = stream ∧ r.state = .checked true

instance (stream : Stream) (r : StreamRequest) : Decidable (Pending stream r) :=
  inferInstanceAs (Decidable (_ ∧ _))

/-- No start writes a sender between the two steps of a request for that stream from a page with
another origin. -/
def keepsOrigins (s : FlvGate) : Event → Prop
  | .write i =>
    ∀ origin ∈ (s.origins[i]?).join, ∀ r ∈ s.requests,
      (s.calls.next i = some .setVideoTx ∧ Pending .video r ∨
        s.calls.next i = some .setAudioTx ∧ Pending .audio r) → r.Admits origin
  | _ => True

instance (s : FlvGate) : (e : Event) → Decidable (s.keepsOrigins e)
  | .write _ => inferInstanceAs (Decidable (∀ origin ∈ _, ∀ r ∈ _, _ → StreamRequest.Admits r origin))
  | .start _ _ | .stop | .lock _ | .finish _ | .request _ _ | .respond _ => .isTrue trivial

/-! ## What a request holds -/

/-- What the order of the locks secures: a sender is written behind the origin of its own start,
and the lock of the gate is taken only while there is no sender. -/
structure Inv (s : FlvGate) : Prop where
  seq : s.calls.SeqInv
  length : s.origins.length = s.calls.calls.length
  ofCamera : ∀ (k : ℕ) (origin : OriginInfo), s.origins[k]? = some (some origin) →
    OriginInfo.ofCamera origin.host origin.port = origin
  starting : ∀ (j : ℕ) (ops : List VideoOp) (origin : OriginInfo), s.calls.calls[j]? = some ops →
    .setArmedOrigin origin ∈ ops → s.origins[j]? = some (some origin)
  arming : ∀ j, s.calls.next j = some .setVideoTx ∨ s.calls.next j = some .setAudioTx →
    ∃ origin, s.origins[j]? = some (some origin) ∧ s.calls.server.armedOrigin = some origin
  live : ∀ k, s.calls.server.videoTx = some k ∨ s.calls.server.audioTx = some k →
    ∃ origin, s.origins[k]? = some (some origin) ∧ s.calls.server.armedOrigin = some origin
  held : ∀ field, s.held = some field → ∃ i op, s.calls.next i = some op ∧ op.field = some field
  pending : ∀ r ∈ s.requests, ∀ origin, s.calls.server.armedOrigin = some origin →
    Pending .video r ∧ s.calls.server.videoTx.isSome ∨
      Pending .audio r ∧ s.calls.server.audioTx.isSome → r.Admits origin
  responded : ∀ r ∈ s.requests, ∀ k, r.state = .responded (some k) →
    ∃ origin, s.origins[k]? = some (some origin) ∧ r.Admits origin

theorem inv_new : new.Inv := by
  have hidle : ∀ j, new.calls.next j = none := fun _ => rfl
  refine ⟨VideoCalls.seqInv_new, rfl, nofun, nofun, ?_, ?_, nofun, nofun, nofun⟩
  · rintro j (hj | hj)
    · cases (hidle j).symm.trans hj
    · cases (hidle j).symm.trans hj
  · rintro k (hk | hk)
    · cases hk
    · cases hk

/-- Where there is a sender, the gate is armed with the origin of a start. -/
theorem Inv.armed {s : FlvGate} (h : s.Inv)
    (hlive : s.calls.server.videoTx.isSome ∨ s.calls.server.audioTx.isSome) :
    ∃ (k : ℕ) (origin : OriginInfo), s.origins[k]? = some (some origin) ∧
      s.calls.server.armedOrigin = some origin := by
  rcases hlive with hlive | hlive
  · obtain ⟨k, hk⟩ := Option.isSome_iff_exists.mp hlive
    exact ⟨k, h.live k (.inl hk)⟩
  · obtain ⟨k, hk⟩ := Option.isSome_iff_exists.mp hlive
    exact ⟨k, h.live k (.inr hk)⟩

/-- In a state in which there is a sender the gate can be read. -/
theorem Inv.tryRead_armedOrigin {s : FlvGate} (h : s.Inv)
    (hlive : s.calls.server.videoTx.isSome ∨ s.calls.server.audioTx.isSome) :
    s.tryRead .armedOrigin s.calls.server.armedOrigin = s.calls.server.armedOrigin := by
  unfold tryRead
  split_ifs with hheld
  · -- whoever holds the lock has cleared the senders
    obtain ⟨i, op, hnext, hfield⟩ := h.held _ hheld
    have hbehind : op.BehindSenders := by
      cases op with
      | clearArmedOrigin | setArmedOrigin => trivial
      | _ => cases hfield
    obtain ⟨hvideo, haudio⟩ := h.seq.cleared i op hnext hbehind
    rw [hvideo, haudio] at hlive
    rcases hlive with hlive | hlive
    · cases hlive
    · cases hlive
  · rfl

/-- A request that passes an armed gate is not from another page. -/
theorem admits_of_originAllowed {v : VideoServer} {origin : OriginInfo}
    (harmed : v.armedOrigin = some origin)
    (hcamera : OriginInfo.ofCamera origin.host origin.port = origin) {r : StreamRequest}
    (h : v.originAllowed r.originHeader = true) : r.Admits origin := by
  intro raw hraw o ho
  rw [Option.mem_def] at hraw ho
  simp only [VideoServer.originAllowed, harmed, hraw, ho, Option.any_some] at h
  rw [OriginInfo.matches_iff.mp h, hcamera]

theorem Inv.request {s : FlvGate} (h : s.Inv) (stream : Stream) (originHeader : Option Str) :
    Inv { s with
      requests := s.requests ++
        [⟨stream, originHeader, .checked (s.originAllowed originHeader)⟩] } := by
  refine ⟨h.seq, h.length, h.ofCamera, h.starting, h.arming, h.live, h.held, ?_, ?_⟩
  · intro r hr origin harmed hpending
    rcases List.mem_append.mp hr with hr | hr
    · exact h.pending r hr origin harmed hpending
    · -- the gate has just answered, and there is a sender
      obtain rfl := List.mem_singleton.mp hr
      have hlive : s.calls.server.videoTx.isSome ∨ s.calls.server.audioTx.isSome :=
        hpending.imp And.right And.right
      have hpassed : s.originAllowed originHeader = true := by
        rcases hpending with ⟨⟨-, hstate⟩, -⟩ | ⟨⟨-, hstate⟩, -⟩
        · exact RequestState.checked.inj hstate
        · exact RequestState.checked.inj hstate
      obtain ⟨k, origin', hk, harmed'⟩ := h.armed hlive
      obtain rfl := Option.some.inj (harmed.symm.trans harmed')
      have hcamera := h.ofCamera k origin hk
      exact admits_of_originAllowed ((h.tryRead_armedOrigin hlive).trans harmed) hcamera hpassed
  · intro r hr k hstate
    rcases List.mem_append.mp hr with hr | hr
    · exact h.responded r hr k hstate
    · obtain rfl := List.mem_singleton.mp hr
      cases hstate

/-- A subscription is to a broadcast that was made behind the answer of the gate, or whose origin
the request admits. -/
theorem Inv.subscribe {s : FlvGate} (h : s.Inv) {r : StreamRequest} (hr : r ∈ s.requests)
    (hstate : r.state = .checked true) {k : ℕ} (hk : s.subscribe r.stream = some k) :
    ∃ origin, s.origins[k]? = some (some origin) ∧ r.Admits origin := by
  cases hstream : r.stream with
  | video =>
    rw [hstream] at hk
    simp only [FlvGate.subscribe, tryRead, VideoServer.subscribeVideo] at hk
    split_ifs at hk
    obtain ⟨origin, horigin, harmed⟩ := h.live k (.inl hk)
    refine ⟨origin, horigin, h.pending r hr origin harmed (.inl ⟨⟨hstream, hstate⟩, ?_⟩)⟩
    rw [hk]
    rfl
  | audio =>
    rw [hstream] at hk
    simp only [FlvGate.subscribe, tryRead, VideoServer.subscribeAudio] at hk
    split_ifs at hk
    obtain ⟨origin, horigin, harmed⟩ := h.live k (.inr hk)
    refine ⟨origin, horigin, h.pending r hr origin harmed (.inr ⟨⟨hstream, hstate⟩, ?_⟩)⟩
    rw [hk]
    rfl

theorem Inv.respond {s : FlvGate} (h : s.Inv) {i : ℕ} {request : StreamRequest}
    (hrequest : s.requests[i]? = some request) :
    Inv { s with requests := s.requests.set i (s.respond request) } := by
  have hmem := List.mem_of_getElem? hrequest
  refine ⟨h.seq, h.length, h.ofCamera, h.starting, h.arming, h.live, h.held, ?_, ?_⟩
  · intro r hr origin harmed hpending
    rcases List.mem_or_eq_of_mem_set hr with hr | rfl
    · exact h.pending r hr origin harmed hpending
    · -- a response is not pending
      have hstate : (s.respond request).state = .checked true := hpending.elim (·.1.2) (·.1.2)
      unfold FlvGate.respond at hstate
      split at hstate
      · cases hstate
      · cases hstate
      · rename_i hrequest
        cases hrequest.symm.trans hstate
  · intro r hr k hstate
    rcases List.mem_or_eq_of_mem_set hr with hr | rfl
    · exact h.responded r hr k hstate
    · unfold FlvGate.respond at hstate ⊢
      split at hstate
      · rename_i hchecked
        exact h.subscribe hmem hchecked (RequestState.responded.inj hstate)
      · cases hstate
      · exact h.responded request hmem k hstate

/-- A call begins when nothing is locked. -/
theorem Inv.invoke {s : FlvGate} (h : s.Inv) (hreturned : s.calls.Returned) {ops : List VideoOp}
    {origin : Option OriginInfo} (hops : IsCall ops) (hhead : ops.head? = some .clearVideoTx)
    (hstarting : ∀ o, .setArmedOrigin o ∈ ops → origin = some o)
    (hcamera : ∀ o, origin = some o → OriginInfo.ofCamera o.host o.port = o) :
    (s.invoke ops origin).Inv := by
  have hold : ∀ {k : ℕ} {o : OriginInfo}, s.origins[k]? = some (some o) →
      (s.origins ++ [origin])[k]? = some (some o) := by
    intro k o hk
    rw [List.getElem?_append_left (List.getElem?_eq_some_iff.mp hk).1, hk]
  refine ⟨h.seq.invoke hreturned hops hhead, ?_, ?_, ?_, ?_, ?_, ?_, h.pending, ?_⟩
  · simp [FlvGate.invoke, VideoCalls.invoke, h.length]
  · intro k o hk
    change (s.origins ++ [origin])[k]? = some (some o) at hk
    rw [List.getElem?_append] at hk
    split_ifs at hk
    · exact h.ofCamera k o hk
    · exact hcamera o (List.mem_singleton.mp (List.mem_of_getElem? hk)).symm
  · intro j ops' o hj ho
    change (s.calls.calls ++ [ops])[j]? = some ops' at hj
    change (s.origins ++ [origin])[j]? = some (some o)
    rw [List.getElem?_append] at hj ⊢
    rw [h.length]
    split_ifs at hj ⊢ with hlt
    · exact h.starting j ops' o hj ho
    · rw [List.getElem?_singleton] at hj ⊢
      split_ifs at hj ⊢
      obtain rfl := Option.some.inj hj
      rw [hstarting o ho]
  -- the new call begins by clearing, and all others have returned
  · rintro j (hj | hj)
    · cases hhead.symm.trans (VideoCalls.next_invoke_returned hreturned hj).2
    · cases hhead.symm.trans (VideoCalls.next_invoke_returned hreturned hj).2
  · intro k hk
    obtain ⟨o, ho, harmed⟩ := h.live k hk
    exact ⟨o, hold ho, harmed⟩
  · intro field hheld
    obtain ⟨i, op, hnext, -⟩ := h.held field hheld
    cases (hreturned.next_eq_none i).symm.trans hnext
  · intro r hr k hstate
    obtain ⟨o, ho, hadmits⟩ := h.responded r hr k hstate
    exact ⟨o, hold ho, hadmits⟩

section Write

variable {s : FlvGate} {i : ℕ} {op : VideoOp} {ops : List VideoOp}

/-- What is left of a call arms the gate with the origin it was invoked with. -/
theorem Inv.starting_write (h : s.Inv) (hcall : s.calls.calls[i]? = some (op :: ops)) {j : ℕ}
    {ops' : List VideoOp} {origin : OriginInfo} (hj : (s.calls.calls.set i ops)[j]? = some ops')
    (horigin : .setArmedOrigin origin ∈ ops') : s.origins[j]? = some (some origin) := by
  rcases eq_or_ne i j with rfl | hij
  · rw [List.getElem?_set_self (List.getElem?_eq_some_iff.mp hcall).1] at hj
    obtain rfl := Option.some.inj hj
    exact h.starting i _ origin hcall (List.mem_cons_of_mem op horigin)
  · rw [List.getElem?_set_ne hij] at hj
    exact h.starting j ops' origin hj horigin

/-- A call comes to write a sender behind the origin, or behind the other sender. -/
theorem Inv.arming_write (h : s.Inv) (hcall : s.calls.calls[i]? = some (op :: ops)) {j : ℕ}
    (hj : j = i ∧ (ops.head? = some .setVideoTx ∨ ops.head? = some .setAudioTx)) :
    ∃ origin, s.origins[j]? = some (some origin) ∧
      (s.calls.server.apply i op).armedOrigin = some origin := by
  obtain ⟨rfl, hnext⟩ := hj
  have hfollows := (h.seq.wellFormed _ (List.mem_of_getElem? hcall)).next
  cases op with
  | setArmedOrigin origin =>
    exact ⟨origin, h.starting j _ origin hcall List.mem_cons_self, rfl⟩
  | setVideoTx => exact h.arming j (.inl (VideoCalls.next_of_getElem? hcall))
  | takeVideoTask =>
    rcases hfollows with rfl | ⟨origin, hset⟩
    · simp at hnext
    · simp [hset] at hnext
  | spawnPipeline | storeVideoTask =>
    obtain rfl := hfollows
    simp at hnext
  | clearVideoTx | clearAudioTx | clearArmedOrigin | setAudioTx =>
    simp [show ops.head? = _ from hfollows] at hnext

/-- The gate of a sender is that of its start. -/
theorem Inv.live_write (h : s.Inv) (hcall : s.calls.calls[i]? = some (op :: ops)) {k : ℕ}
    (hk : (s.calls.server.apply i op).videoTx = some k ∨
      (s.calls.server.apply i op).audioTx = some k) :
    ∃ origin, s.origins[k]? = some (some origin) ∧
      (s.calls.server.apply i op).armedOrigin = some origin := by
  have hi : s.calls.next i = some op := VideoCalls.next_of_getElem? hcall
  cases op with
  | clearVideoTx => exact h.live k (.inr (hk.resolve_left nofun))
  | clearAudioTx => exact h.live k (.inl (hk.resolve_right nofun))
  -- the gate is written while there is no sender
  | clearArmedOrigin | setArmedOrigin =>
    obtain ⟨hvideo, haudio⟩ := h.seq.cleared i _ hi trivial
    rcases hk with hk | hk
    · cases hvideo.symm.trans hk
    · cases haudio.symm.trans hk
  | setVideoTx =>
    rcases hk with hk | hk
    · obtain rfl := Option.some.inj hk
      exact h.arming i (.inl hi)
    · exact h.live k (.inr hk)
  | setAudioTx =>
    rcases hk with hk | hk
    · exact h.live k (.inl hk)
    · obtain rfl := Option.some.inj hk
      exact h.arming i (.inr hi)
  | takeVideoTask | spawnPipeline | storeVideoTask => exact h.live k hk

/-- The requests that are to be answered have passed the gate that is armed. -/
theorem Inv.pending_write (h : s.Inv) (hcall : s.calls.calls[i]? = some (op :: ops))
    (hguard : s.keepsOrigins (.write i)) {r : StreamRequest} (hr : r ∈ s.requests)
    {origin : OriginInfo} (harmed : (s.calls.server.apply i op).armedOrigin = some origin)
    (hpending : Pending .video r ∧ (s.calls.server.apply i op).videoTx.isSome ∨
      Pending .audio r ∧ (s.calls.server.apply i op).audioTx.isSome) : r.Admits origin := by
  have hi : s.calls.next i = some op := VideoCalls.next_of_getElem? hcall
  cases op with
  | clearVideoTx =>
    exact h.pending r hr origin harmed (.inr (hpending.resolve_left fun hoff => nomatch hoff.2))
  | clearAudioTx =>
    exact h.pending r hr origin harmed (.inl (hpending.resolve_right fun hoff => nomatch hoff.2))
  | clearArmedOrigin => cases harmed
  | setArmedOrigin =>
    obtain ⟨hvideo, haudio⟩ := h.seq.cleared i _ hi trivial
    change Pending .video r ∧ s.calls.server.videoTx.isSome ∨
      Pending .audio r ∧ s.calls.server.audioTx.isSome at hpending
    simp [hvideo, haudio] at hpending
  | setVideoTx =>
    rcases hpending with hpending | hpending
    · -- the guard speaks about the requests that have passed an older gate
      obtain ⟨origin', horigin, harmed'⟩ := h.arming i (.inl hi)
      obtain rfl := Option.some.inj (harmed.symm.trans harmed')
      exact hguard origin (by simp [horigin]) r hr (.inl ⟨hi, hpending.1⟩)
    · exact h.pending r hr origin harmed (.inr hpending)
  | setAudioTx =>
    rcases hpending with hpending | hpending
    · exact h.pending r hr origin harmed (.inl hpending)
    · obtain ⟨origin', horigin, harmed'⟩ := h.arming i (.inr hi)
      obtain rfl := Option.some.inj (harmed.symm.trans harmed')
      exact hguard origin (by simp [horigin]) r hr (.inr ⟨hi, hpending.1⟩)
  | takeVideoTask | spawnPipeline | storeVideoTask => exact h.pending r hr origin harmed hpending

/-- A step of a call, if it keeps the origins of the requests. -/
theorem Inv.write (h : s.Inv) (hguard : s.keepsOrigins (.write i)) {calls : VideoCalls}
    (hstep : s.calls.advance i = some calls) : Inv { s with calls := calls, held := none } := by
  have hseq := h.seq.advance hstep
  obtain ⟨op, ops, hcall, rfl⟩ := VideoCalls.advance_cases hstep
  refine ⟨hseq, by simp [h.length], h.ofCamera, fun _ _ _ => h.starting_write hcall, ?_,
    fun _ => h.live_write hcall, nofun, fun _ hr _ => h.pending_write hcall hguard hr, h.responded⟩
  intro j hj
  apply h.arming_write hcall
  rcases hj with hj | hj
  · exact (h.seq.next_set hcall hj).imp id .inl
  · exact (h.seq.next_set hcall hj).imp id .inr

end Write

theorem Inv.step {s s' : FlvGate} {e : Event} (h : s.Inv) (hguard : s.keepsOrigins e)
    (hstep : s.step e = some s') : s'.Inv := by
  cases e with
  | start claimedHost httpPort =>
    rw [FlvGate.step] at hstep
    split_ifs at hstep with hreturned
    obtain rfl := Option.some.inj hstep
    refine h.invoke hreturned (.inr ⟨_, List.suffix_rfl⟩) rfl ?_ ?_
    · intro o ho
      simp only [startOps, stopOps, List.cons_append, List.nil_append, List.mem_cons,
        VideoOp.setArmedOrigin.injEq, reduceCtorEq, false_or, or_false, List.not_mem_nil] at ho
      rw [ho]
    · intro o ho
      rw [← Option.some.inj ho]
      exact OriginInfo.ofCamera_ofCamera claimedHost httpPort
  | stop =>
    rw [FlvGate.step] at hstep
    split_ifs at hstep with hreturned
    obtain rfl := Option.some.inj hstep
    refine h.invoke hreturned (.inl List.suffix_rfl) rfl (by simp [stopOps]) ?_
    intro o ho
    cases ho
  | lock i =>
    rw [FlvGate.step] at hstep
    split at hstep
    · rename_i field _ hfield
      obtain rfl := Option.some.inj hstep
      obtain ⟨op, hnext, hop⟩ := Option.bind_eq_some_iff.mp hfield
      refine ⟨h.seq, h.length, h.ofCamera, h.starting, h.arming, h.live, ?_, h.pending,
        h.responded⟩
      intro field' hheld
      obtain rfl := Option.some.inj hheld
      exact ⟨i, op, hnext, hop⟩
    · cases hstep
  | write i =>
    rw [FlvGate.step] at hstep
    split_ifs at hstep
    obtain ⟨calls, hcalls, rfl⟩ := Option.map_eq_some_iff.mp hstep
    exact h.write hguard hcalls
  | finish t =>
    obtain ⟨calls, hcalls, rfl⟩ := Option.map_eq_some_iff.mp hstep
    have hseq := h.seq.step (e := .finish t) trivial hcalls
    rw [VideoCalls.step] at hcalls
    split_ifs at hcalls
    obtain rfl := Option.some.inj hcalls
    exact ⟨hseq, h.length, h.ofCamera, h.starting, h.arming, h.live, h.held, h.pending,
      h.responded⟩
  | request stream originHeader =>
    obtain rfl := Option.some.inj hstep
    exact h.request stream originHeader
  | respond r =>
    obtain ⟨request, hrequest, rfl⟩ := Option.map_eq_some_iff.mp hstep
    exact h.respond hrequest

theorem Inv.exact {s : FlvGate} (h : s.Inv) : s.Exact := by
  intro r hr k origin horigin raw o hraw ho hne hstate
  obtain ⟨origin', horigin', hadmits⟩ := h.responded r hr k hstate
  obtain rfl := Option.some.inj (Option.some.inj (horigin.symm.trans horigin'))
  exact hne (hadmits raw hraw o ho)

/-- **The gate is exact** in every run in which no sender is written between the two steps of a
request for that stream from a page with another origin. -/
theorem run_exact {es : List Event} {s : FlvGate} (h : Run step keepsOrigins new es s) :
    s.Exact :=
  Inv.exact (h.invariant (fun _ _ _ hs => hs.step) inv_new)

/-- **The condition is tight**: a start that writes a sender between the two steps of a foreign
request serves it with the next step. -/
theorem write_exposes {s s' : FlvGate} {i : ℕ} (hguard : ¬ s.keepsOrigins (.write i))
    (hstep : s.step (.write i) = some s') :
    ∃ r s'', s'.step (.respond r) = some s'' ∧ ¬ s''.Exact := by
  rw [FlvGate.step] at hstep
  split_ifs at hstep
  obtain ⟨calls, hcalls, rfl⟩ := Option.map_eq_some_iff.mp hstep
  obtain ⟨op, ops, hcall, rfl⟩ := VideoCalls.advance_cases hcalls
  have hi : s.calls.next i = some op := VideoCalls.next_of_getElem? hcall
  simp only [keepsOrigins, StreamRequest.Admits, not_forall] at hguard
  obtain ⟨origin, horigin, r, hr, hpending, raw, hraw, o, ho, hne⟩ := hguard
  obtain ⟨n, hn⟩ := List.getElem?_of_mem hr
  have hlt : n < s.requests.length := (List.getElem?_eq_some_iff.mp hn).1
  refine ⟨n, _, Option.map_eq_some_iff.mpr ⟨r, hn, rfl⟩, fun hexact => ?_⟩
  -- the lock is free again, so the request finds the sender
  refine hexact _ (List.mem_of_getElem? (List.getElem?_set_self hlt)) i origin
    (Option.join_eq_some_iff.mp horigin) raw o ?_ ho hne ?_
  · rcases hpending with ⟨-, -, hstate⟩ | ⟨-, -, hstate⟩
    · simpa [FlvGate.respond, hstate] using hraw
    · simpa [FlvGate.respond, hstate] using hraw
  · rcases hpending with ⟨hop, hstream, hstate⟩ | ⟨hop, hstream, hstate⟩
    · obtain rfl := Option.some.inj (hi.symm.trans hop)
      simp [FlvGate.respond, hstate, hstream, FlvGate.subscribe, tryRead,
        VideoServer.subscribeVideo, VideoServer.apply]
    · obtain rfl := Option.some.inj (hi.symm.trans hop)
      simp [FlvGate.respond, hstate, hstream, FlvGate.subscribe, tryRead,
        VideoServer.subscribeAudio, VideoServer.apply]

/-- The lock and the write of each of the next `n` fields of the call `i`. -/
def writes (i n : ℕ) : List Event := (List.replicate n [.lock i, .write i]).flatten

/-- A start with the page of its camera, which asks the gate before the start and gets the stream
after it, and a foreign page, which asks the gate when it is armed. -/
def ownPage : List Event :=
  [.request .video (some "http://camera.lan:88".toList), .start "Camera.lan ".toList 88] ++
    writes 0 5 ++ [.request .video (some "http://foreign.example".toList)] ++ writes 0 2 ++
      [.write 0] ++ writes 0 1 ++ [.respond 0, .respond 1]

theorem run_exact_ownPage :
    ∃ s, (Run step keepsOrigins new ownPage s ∧
      s.requests.map StreamRequest.state = [.responded (some 0), .responded none]) ∧ s.Exact := by
  obtain ⟨s, hrun, hstates⟩ : ∃ s, Run step keepsOrigins new ownPage s ∧
      s.requests.map StreamRequest.state = [.responded (some 0), .responded none] :=
    Run.of_exec_map (f := fun s : FlvGate => s.requests.map StreamRequest.state) rfl
  exact ⟨s, ⟨hrun, hstates⟩, run_exact hrun⟩

/-- A foreign page asks the gate when nothing is armed, and subscribes when a start has
returned. -/
def checkedBeforeStart : List Event :=
  [.request .video (some "http://foreign.example".toList), .start "camera.lan".toList 88] ++
    writes 0 7 ++ [.write 0] ++ writes 0 1 ++ [.respond 0]

/-- **The answer of the gate can be stale**: the foreign page is served. -/
theorem stale_answer : ∃ s, Run step free new checkedBeforeStart s ∧ ¬ s.Exact := by
  obtain ⟨s, hrun, hdata⟩ : ∃ s, Run step free new checkedBeforeStart s ∧
      (s.requests, s.origins) =
        ([⟨.video, some "http://foreign.example".toList, .responded (some 0)⟩],
          [some VideoCalls.sampleOrigin]) :=
    Run.of_exec_map (f := fun s : FlvGate => (s.requests, s.origins)) rfl
  obtain ⟨hrequests, horigins⟩ := Prod.mk.inj hdata
  refine ⟨s, hrun, fun hexact => ?_⟩
  refine hexact _ (by rw [hrequests]; exact List.mem_singleton_self _) 0 VideoCalls.sampleOrigin ?_
    _ ⟨"foreign.example".toList, 80⟩ rfl rfl (by decide) rfl
  rw [horigins]
  rfl

end FlvGate

end Fosipcore
