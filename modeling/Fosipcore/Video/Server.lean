import Fosipcore.Library.Machine
import Fosipcore.Net

/-!
# The per-session video server

`VideoServer::start` and `VideoServer::stop` write four fields behind four locks, one after the
other. A call is the list of the lock acquisitions it has yet to make; several calls advance in
any order. `start` begins with a whole `stop`, and ends by storing the handle of the pipeline
task it spawned.

## Main definitions

* `VideoServer`, `VideoServer.originAllowed`: the fields, and the gate of the stream endpoints
* `VideoOp`, `stopOps`, `startOps`: the atomic steps of the two calls
* `VideoCalls`, `VideoCalls.step`: the server with any number of calls in progress
* `VideoServer.Gated`: whenever a stream is live the gate is armed

## Main results

* `IsCall.next`: the step that follows a given step of a call
* `VideoCalls.run_gated`: the gate is armed as long as no call writes a sender or clears the gate
  in the middle of another call's opposite writes
* `VideoCalls.overlap_ungated`: a stop that overlaps a start leaves a live stream ungated
-/

namespace Fosipcore

open Machine Text

/-- The shared state of a session's video plane. A sender and a handle are named by the call that
made them. -/
structure VideoServer where
  videoTx : Option ℕ
  audioTx : Option ℕ
  videoTask : Option ℕ
  armedOrigin : Option OriginInfo
  deriving DecidableEq

namespace VideoServer

/-- A video server with no active pipeline. -/
def new : VideoServer := ⟨none, none, none, none⟩

/-- Decide whether a request may consume the live streams: everything is allowed while no
pipeline is armed, and so is a request without an `Origin` header. -/
def originAllowed (v : VideoServer) (originHeader : Option Str) : Bool :=
  match v.armedOrigin with
  | none => true
  | some armed =>
    match originHeader with
    | none => true
    | some raw => (OriginInfo.parse raw).any fun o => o.matches armed.host armed.port

/-- **A live stream is gated**: a camera origin is armed, and requests from other origins are
rejected. -/
def Gated (v : VideoServer) : Prop :=
  v.videoTx.isSome ∨ v.audioTx.isSome →
    ∃ armed, v.armedOrigin = some armed ∧
      ∀ raw, (∀ o, OriginInfo.parse raw = some o → o.matches armed.host armed.port = false) →
        v.originAllowed (some raw) = false

/-- An armed server rejects the origins that do not match. -/
theorem gated_of_armed {v : VideoServer}
    (h : v.videoTx.isSome ∨ v.audioTx.isSome → v.armedOrigin.isSome) : v.Gated := by
  intro hlive
  obtain ⟨armed, harmed⟩ := Option.isSome_iff_exists.mp (h hlive)
  refine ⟨armed, harmed, fun raw hforeign => ?_⟩
  simp only [originAllowed, harmed]
  cases hparse : OriginInfo.parse raw with
  | none => rfl
  | some o => exact hforeign o hparse

end VideoServer

/-! ## The steps of a call -/

/-- One lock acquisition with its write, or the spawn of the pipeline task. -/
inductive VideoOp where
  | clearVideoTx
  | clearAudioTx
  | clearArmedOrigin
  | takeVideoTask
  | setArmedOrigin (origin : OriginInfo)
  | setVideoTx
  | setAudioTx
  | spawnPipeline
  | storeVideoTask
  deriving DecidableEq

/-- The steps of `stop`. -/
def stopOps : List VideoOp := [.clearVideoTx, .clearAudioTx, .clearArmedOrigin, .takeVideoTask]

/-- The steps of `start`: a `stop`, the camera origin, the two senders, and the pipeline. -/
def startOps (origin : OriginInfo) : List VideoOp :=
  stopOps ++ [.setArmedOrigin origin, .setVideoTx, .setAudioTx, .spawnPipeline, .storeVideoTask]

/-- What is left of a call in progress. -/
def IsCall (ops : List VideoOp) : Prop := ops <:+ stopOps ∨ ∃ origin, ops <:+ startOps origin

/-- The steps that may follow a step in a call. -/
def VideoOp.Follows : VideoOp → List VideoOp → Prop
  | .clearVideoTx, rest => rest.head? = some .clearAudioTx
  | .clearAudioTx, rest => rest.head? = some .clearArmedOrigin
  | .clearArmedOrigin, rest => rest.head? = some .takeVideoTask
  | .takeVideoTask, rest => rest = [] ∨ ∃ origin, rest.head? = some (.setArmedOrigin origin)
  | .setArmedOrigin _, rest => rest.head? = some .setVideoTx
  | .setVideoTx, rest => rest.head? = some .setAudioTx
  | .setAudioTx, rest => rest.head? = some .spawnPipeline
  | .spawnPipeline, rest => rest = [.storeVideoTask]
  | .storeVideoTask, rest => rest = []

/-- **What follows a step of a call.** -/
theorem IsCall.next {op : VideoOp} {rest : List VideoOp} (h : IsCall (op :: rest)) :
    op.Follows rest := by
  rcases h with h | ⟨origin, h⟩
  · simp only [stopOps, List.suffix_cons_iff, List.cons.injEq, List.suffix_nil] at h
    rcases h with ⟨rfl, rfl⟩ | ⟨rfl, rfl⟩ | ⟨rfl, rfl⟩ | ⟨rfl, rfl⟩ | h
    · rfl
    · rfl
    · rfl
    · exact .inl rfl
    · cases h
  · simp only [startOps, stopOps, List.cons_append, List.nil_append, List.suffix_cons_iff,
      List.cons.injEq, List.suffix_nil] at h
    rcases h with ⟨rfl, rfl⟩ | ⟨rfl, rfl⟩ | ⟨rfl, rfl⟩ | ⟨rfl, rfl⟩ | ⟨rfl, rfl⟩ | ⟨rfl, rfl⟩ |
      ⟨rfl, rfl⟩ | ⟨rfl, rfl⟩ | ⟨rfl, rfl⟩ | h
    · rfl
    · rfl
    · rfl
    · exact .inr ⟨origin, rfl⟩
    · rfl
    · rfl
    · rfl
    · rfl
    · rfl
    · cases h

theorem IsCall.tail {op : VideoOp} {rest : List VideoOp} (h : IsCall (op :: rest)) :
    IsCall rest := by
  rcases h with h | ⟨origin, h⟩
  · exact .inl ((List.suffix_cons op rest).trans h)
  · exact .inr ⟨origin, (List.suffix_cons op rest).trans h⟩

/-- The write of one step of the call `i`. -/
def VideoServer.apply (i : ℕ) (v : VideoServer) : VideoOp → VideoServer
  | .clearVideoTx => { v with videoTx := none }
  | .clearAudioTx => { v with audioTx := none }
  | .clearArmedOrigin => { v with armedOrigin := none }
  | .takeVideoTask => { v with videoTask := none }
  | .setArmedOrigin origin => { v with armedOrigin := some origin }
  | .setVideoTx => { v with videoTx := some i }
  | .setAudioTx => { v with audioTx := some i }
  | .spawnPipeline => v
  | .storeVideoTask => { v with videoTask := some i }

/-- The pipeline tasks that run after one step of the call `i`: a spawned task is added, and the
task whose handle is taken is aborted. -/
def applyRunning (i : ℕ) (v : VideoServer) (running : List ℕ) : VideoOp → List ℕ
  | .takeVideoTask => running.filter fun t => some t ≠ v.videoTask
  | .spawnPipeline => i :: running
  | _ => running

/-! ## Calls in progress -/

/-- A video server, its running pipeline tasks, and what is left of every call made so far. -/
structure VideoCalls where
  server : VideoServer
  running : List ℕ
  calls : List (List VideoOp)
  deriving DecidableEq

namespace VideoCalls

def new : VideoCalls := ⟨.new, [], []⟩

/-- A call begins. -/
def invoke (s : VideoCalls) (ops : List VideoOp) : VideoCalls :=
  { s with calls := s.calls ++ [ops] }

/-- The call `i` makes its next step. -/
def advance (s : VideoCalls) (i : ℕ) : Option VideoCalls :=
  match s.calls[i]? with
  | some (op :: ops) =>
    some ⟨s.server.apply i op, applyRunning i s.server s.running op, s.calls.set i ops⟩
  | _ => none

/-- The next step of the call `i`. -/
def next (s : VideoCalls) (i : ℕ) : Option VideoOp := s.calls[i]?.bind List.head?

/-- What can happen: a call begins or advances, or a pipeline task ends by itself. -/
inductive Event where
  | start (origin : OriginInfo)
  | stop
  | advance (i : ℕ)
  | finish (t : ℕ)

def step (s : VideoCalls) : Event → Option VideoCalls
  | .start origin => some (s.invoke (startOps origin))
  | .stop => some (s.invoke stopOps)
  | .advance i => s.advance i
  | .finish t => if t ∈ s.running then some { s with running := s.running.erase t } else none

/-- The call `i` makes a step `op` that leaves it with `ops`. -/
theorem advance_cases {s s' : VideoCalls} {i : ℕ} (h : s.advance i = some s') :
    ∃ op ops, s.calls[i]? = some (op :: ops) ∧
      s' = ⟨s.server.apply i op, applyRunning i s.server s.running op, s.calls.set i ops⟩ := by
  unfold advance at h
  split at h
  · rename_i op ops hcall
    exact ⟨op, ops, hcall, (Option.some.inj h).symm⟩
  · cases h

theorem next_of_getElem? {s : VideoCalls} {i : ℕ} {op : VideoOp} {ops : List VideoOp}
    (h : s.calls[i]? = some (op :: ops)) : s.next i = some op := by
  rw [next, h]
  rfl

/-- Every call is a suffix of a `start` or a `stop`. -/
def WellFormed (s : VideoCalls) : Prop := ∀ ops ∈ s.calls, IsCall ops

theorem WellFormed.invoke {s : VideoCalls} (h : s.WellFormed) {ops : List VideoOp}
    (hops : IsCall ops) : (s.invoke ops).WellFormed := by
  intro ops' hmem
  rcases List.mem_append.mp hmem with hmem | hmem
  · exact h ops' hmem
  · obtain rfl := List.mem_singleton.mp hmem
    exact hops

theorem WellFormed.set {s : VideoCalls} (h : s.WellFormed) {i : ℕ} {op : VideoOp}
    {ops : List VideoOp} (hcall : s.calls[i]? = some (op :: ops)) :
    ∀ ops' ∈ s.calls.set i ops, IsCall ops' := by
  intro ops' hmem
  rcases List.mem_or_eq_of_mem_set hmem with hmem | rfl
  · exact h ops' hmem
  · exact (h _ (List.mem_of_getElem? hcall)).tail

/-- The next steps of the calls after the call `i` advanced: its own is the head of what is left,
and the others are where they were. -/
theorem next_set {s : VideoCalls} {i : ℕ} {op : VideoOp} {ops : List VideoOp}
    (hcall : s.calls[i]? = some (op :: ops)) (v : VideoServer) (running : List ℕ) (j : ℕ) :
    next ⟨v, running, s.calls.set i ops⟩ j = if j = i then ops.head? else s.next j := by
  have hlt : i < s.calls.length := (List.getElem?_eq_some_iff.mp hcall).1
  unfold next
  dsimp only
  split_ifs with hj
  · rw [hj, List.getElem?_set_self hlt]
    rfl
  · rw [List.getElem?_set_ne (Ne.symm hj)]

/-- A step that a call is about to make, and that is not the one behind the step just made, is one
that it was about to make before. -/
theorem next_of_set_ne {s : VideoCalls} {i j : ℕ} {op op' : VideoOp} {ops : List VideoOp}
    {v : VideoServer} {running : List ℕ} (hcall : s.calls[i]? = some (op :: ops))
    (hne : ops.head? ≠ some op') (h : next ⟨v, running, s.calls.set i ops⟩ j = some op') :
    s.next j = some op' := by
  rw [next_set hcall] at h
  split_ifs at h
  · exact absurd h hne
  · exact h

theorem next_of_set {s : VideoCalls} {i : ℕ} {op first : VideoOp} {ops : List VideoOp}
    (hcall : s.calls[i]? = some (op :: ops)) (hhead : ops.head? = some first)
    ⦃v : VideoServer⦄ ⦃running : List ℕ⦄ ⦃j : ℕ⦄ ⦃op' : VideoOp⦄ (hne : first ≠ op')
    (h : next ⟨v, running, s.calls.set i ops⟩ j = some op') : s.next j = some op' := by
  apply next_of_set_ne hcall _ h
  rw [hhead]
  exact fun heq => hne (Option.some.inj heq)

theorem next_invoke {s : VideoCalls} {ops : List VideoOp} {j : ℕ} {op : VideoOp}
    (h : (s.invoke ops).next j = some op) : s.next j = some op ∨ ops.head? = some op := by
  unfold next VideoCalls.invoke at h
  dsimp only at h
  rw [List.getElem?_append] at h
  split_ifs at h with hj
  · exact .inl h
  · refine .inr ?_
    cases hcall : [ops][j - s.calls.length]? with
    | none =>
      rw [hcall] at h
      cases h
    | some ops' =>
      rw [hcall] at h
      obtain rfl := List.mem_singleton.mp (List.mem_of_getElem? hcall)
      exact h

/-! ## The gate -/

/-- No start writes a sender while another call is on its way to clear the gate, and no call
clears the gate while a start has armed it and is still to write a sender. -/
def keepsGate (s : VideoCalls) : Event → Prop
  | .advance i =>
    (s.next i = some .setVideoTx →
      ∀ j < s.calls.length, s.next j ≠ some .clearAudioTx ∧ s.next j ≠ some .clearArmedOrigin) ∧
    (s.next i = some .setAudioTx →
      ∀ j < s.calls.length, s.next j ≠ some .clearArmedOrigin) ∧
    (s.next i = some .clearArmedOrigin →
      ∀ j < s.calls.length, s.next j ≠ some .setVideoTx ∧ s.next j ≠ some .setAudioTx)
  | _ => True

instance (s : VideoCalls) : (e : Event) → Decidable (s.keepsGate e)
  | .advance _ => inferInstanceAs (Decidable (_ ∧ _))
  | .start _ | .stop | .finish _ => .isTrue trivial

/-- What the order of the writes secures: a sender is written behind an armed gate, and the gate
is cleared behind cleared senders. -/
structure GateInv (s : VideoCalls) : Prop where
  wellFormed : s.WellFormed
  live : s.server.videoTx.isSome ∨ s.server.audioTx.isSome → s.server.armedOrigin.isSome
  arming : ∀ j, s.next j = some .setVideoTx ∨ s.next j = some .setAudioTx →
    s.server.armedOrigin.isSome
  clearing : ∀ j, s.next j = some .clearAudioTx → s.server.videoTx = none
  cleared : ∀ j, s.next j = some .clearArmedOrigin →
    s.server.videoTx = none ∧ s.server.audioTx = none

theorem length_of_next {s : VideoCalls} {j : ℕ} {op : VideoOp} (h : s.next j = some op) :
    j < s.calls.length := by
  by_contra hj
  rw [next, List.getElem?_eq_none (Nat.le_of_not_lt hj)] at h
  cases h

/-- A change that leaves the senders and the gate alone, and brings no call to a step that writes
or clears them behind another, keeps the invariant. -/
theorem GateInv.of_quiet {s s' : VideoCalls} (h : s.GateInv) (hwf : s'.WellFormed)
    (hvideo : s'.server.videoTx = s.server.videoTx) (haudio : s'.server.audioTx = s.server.audioTx)
    (horigin : s'.server.armedOrigin = s.server.armedOrigin)
    (hnext : ∀ j op, op = .clearAudioTx ∨ op = .clearArmedOrigin ∨ op = .setVideoTx ∨
      op = .setAudioTx → s'.next j = some op → s.next j = some op) : s'.GateInv := by
  refine ⟨hwf, ?_, ?_, ?_, ?_⟩
  · rw [hvideo, haudio, horigin]
    exact h.live
  · rintro j (hj | hj)
    · rw [horigin]
      exact h.arming j (.inl (hnext j _ (by simp) hj))
    · rw [horigin]
      exact h.arming j (.inr (hnext j _ (by simp) hj))
  · intro j hj
    rw [hvideo]
    exact h.clearing j (hnext j _ (by simp) hj)
  · intro j hj
    rw [hvideo, haudio]
    exact h.cleared j (hnext j _ (by simp) hj)

/-- A call that begins is far from any of the critical writes. -/
theorem GateInv.invoke {s : VideoCalls} (h : s.GateInv) {ops : List VideoOp} (hops : IsCall ops)
    (hhead : ops.head? = some .clearVideoTx) : (s.invoke ops).GateInv := by
  refine h.of_quiet (h.wellFormed.invoke hops) rfl rfl rfl fun j op hop hj => ?_
  rcases next_invoke hj with hj | hj
  · exact hj
  · obtain rfl := Option.some.inj (hhead.symm.trans hj)
    simp at hop

/-- One step of a call keeps the invariant, if it meets the guard. -/
theorem GateInv.advance {s s' : VideoCalls} (h : s.GateInv) {i : ℕ}
    (hguard : s.keepsGate (.advance i)) (hstep : s.advance i = some s') : s'.GateInv := by
  obtain ⟨op, ops, hcall, rfl⟩ := advance_cases hstep
  have hi : s.next i = some op := next_of_getElem? hcall
  have hfollows := (h.wellFormed _ (List.mem_of_getElem? hcall)).next
  have hwf := h.wellFormed.set hcall
  obtain ⟨hvideo, haudio, hclear⟩ := hguard
  -- in every case, a critical step of the new state that is not the one behind `op` was there
  -- before, so that the old invariant or the guard speaks about it
  cases op with
  | clearVideoTx =>
    have hold := next_of_set hcall (hfollows : ops.head? = some .clearAudioTx)
    refine ⟨hwf, ?_, ?_, fun _ _ => rfl, ?_⟩
    · intro hlive
      exact h.live (.inr (hlive.resolve_left nofun))
    · intro j hj
      exact h.arming j (hj.imp (hold (by simp)) (hold (by simp)))
    · intro j hj
      exact ⟨rfl, (h.cleared j (hold (by simp) hj)).2⟩
  | clearAudioTx =>
    have hold := next_of_set hcall (hfollows : ops.head? = some .clearArmedOrigin)
    have hoff := h.clearing i hi
    refine ⟨hwf, ?_, ?_, fun _ _ => hoff, fun _ _ => ⟨hoff, rfl⟩⟩
    · intro hlive
      exact h.live (.inl (hlive.resolve_right nofun))
    · intro j hj
      exact h.arming j (hj.imp (hold (by simp)) (hold (by simp)))
  | clearArmedOrigin =>
    have hold := next_of_set hcall (hfollows : ops.head? = some .takeVideoTask)
    obtain ⟨hoff, hoff'⟩ := h.cleared i hi
    refine ⟨hwf, ?_, ?_, fun _ _ => hoff, fun _ _ => ⟨hoff, hoff'⟩⟩
    · rintro (hlive | hlive)
      · rw [show (s.server.apply i .clearArmedOrigin).videoTx = none from hoff] at hlive
        cases hlive
      · rw [show (s.server.apply i .clearArmedOrigin).audioTx = none from hoff'] at hlive
        cases hlive
    · -- the guard: no start relies on the gate at this moment
      rintro j (hj | hj)
      · have hj := hold (by simp) hj
        exact absurd hj (hclear hi j (length_of_next hj)).1
      · have hj := hold (by simp) hj
        exact absurd hj (hclear hi j (length_of_next hj)).2
  | setArmedOrigin origin =>
    have hold := next_of_set hcall (hfollows : ops.head? = some .setVideoTx)
    refine ⟨hwf, fun _ => rfl, fun _ _ => rfl, ?_, ?_⟩
    · intro j hj
      exact h.clearing j (hold (by simp) hj)
    · intro j hj
      exact h.cleared j (hold (by simp) hj)
  | setVideoTx =>
    have hold := next_of_set hcall (hfollows : ops.head? = some .setAudioTx)
    have harmed := h.arming i (.inl hi)
    -- the guard: no call is on its way to clear the gate
    refine ⟨hwf, fun _ => harmed, fun _ _ => harmed, ?_, ?_⟩
    · intro j hj
      have hj := hold (by simp) hj
      exact absurd hj (hvideo hi j (length_of_next hj)).1
    · intro j hj
      have hj := hold (by simp) hj
      exact absurd hj (hvideo hi j (length_of_next hj)).2
  | setAudioTx =>
    have hold := next_of_set hcall (hfollows : ops.head? = some .spawnPipeline)
    have harmed := h.arming i (.inr hi)
    refine ⟨hwf, fun _ => harmed, fun _ _ => harmed, ?_, ?_⟩
    · intro j hj
      exact h.clearing j (hold (by simp) hj)
    · intro j hj
      have hj := hold (by simp) hj
      exact absurd hj (haudio hi j (length_of_next hj))
  | takeVideoTask =>
    refine h.of_quiet hwf rfl rfl rfl fun j op' hop hj => ?_
    -- behind a `stop` comes nothing, or the gate of a start
    apply next_of_set_ne hcall _ hj
    rcases hfollows with rfl | ⟨origin, hhead⟩
    · exact nofun
    · rw [hhead]
      rintro ⟨⟩
      simp at hop
  | spawnPipeline =>
    obtain rfl := hfollows
    refine h.of_quiet hwf rfl rfl rfl fun j op' hop hj => ?_
    apply next_of_set_ne hcall _ hj
    rintro ⟨⟩
    simp at hop
  | storeVideoTask =>
    obtain rfl := hfollows
    exact h.of_quiet hwf rfl rfl rfl fun j op' _ hj => next_of_set_ne hcall nofun hj

theorem GateInv.step {s : VideoCalls} {e : Event} {s' : VideoCalls} (h : s.GateInv)
    (hguard : s.keepsGate e) (hstep : s.step e = some s') : s'.GateInv := by
  cases e with
  | start origin =>
    obtain rfl := Option.some.inj hstep
    exact h.invoke (.inr ⟨origin, List.suffix_rfl⟩) rfl
  | stop =>
    obtain rfl := Option.some.inj hstep
    exact h.invoke (.inl List.suffix_rfl) rfl
  | advance i => exact h.advance hguard hstep
  | finish t =>
    rw [VideoCalls.step] at hstep
    split_ifs at hstep
    obtain rfl := Option.some.inj hstep
    exact h.of_quiet h.wellFormed rfl rfl rfl fun _ _ _ hj => hj

theorem gateInv_new : new.GateInv := by
  have hidle : ∀ j, new.next j = none := fun _ => rfl
  refine ⟨nofun, nofun, ?_, ?_, ?_⟩
  · rintro j (hj | hj) <;> rw [hidle] at hj <;> cases hj
  · intro j hj
    rw [hidle] at hj
    cases hj
  · intro j hj
    rw [hidle] at hj
    cases hj

/-- **A live stream is gated in every state** that calls reach whose critical writes do not
overlap, whatever their number and however their other steps interleave. -/
theorem run_gated {es : List Event} {s : VideoCalls} (h : Run step keepsGate new es s) :
    s.server.Gated := by
  have hinv : s.GateInv := h.invariant (fun _ _ _ hs => hs.step) gateInv_new
  exact VideoServer.gated_of_armed hinv.live

/-- The origin of a camera's own page. -/
def sampleOrigin : OriginInfo := ⟨"camera.lan".toList, 88⟩

/-- One start, from its first to its last step. -/
theorem run_gated_start :
    ∃ s, Run step keepsGate new (.start sampleOrigin :: List.replicate 9 (.advance 0)) s ∧
      s.server = ⟨some 0, some 0, some 0, some sampleOrigin⟩ ∧ s.server.Gated := by
  have hrun : Run step keepsGate new (.start sampleOrigin :: List.replicate 9 (.advance 0))
      ⟨⟨some 0, some 0, some 0, some sampleOrigin⟩, [0], [[]]⟩ := .of_exec rfl
  exact ⟨_, hrun, rfl, run_gated hrun⟩

/-- A start has stopped the previous pipeline when a stop begins; the stop clears the senders, the
start arms the gate and writes its first sender, and the stop clears the gate. -/
def overlap : List Event :=
  [.start sampleOrigin, .advance 0, .advance 0, .advance 0, .advance 0, .stop, .advance 1,
    .advance 1, .advance 0, .advance 0, .advance 1]

/-- **A stop that overlaps a start leaves a live stream ungated**: a foreign page is served. -/
theorem overlap_ungated :
    ∃ s, Run step free new overlap s ∧ s.server.videoTx.isSome ∧ ¬ s.server.Gated ∧
      s.server.originAllowed (some "http://foreign.example".toList) = true := by
  have hrun : Run step free new overlap
      ⟨⟨some 0, none, none, none⟩, [],
        [[.setAudioTx, .spawnPipeline, .storeVideoTask], [.takeVideoTask]]⟩ := .of_exec rfl
  refine ⟨_, hrun, rfl, fun hgated => ?_, rfl⟩
  obtain ⟨armed, harmed, -⟩ := hgated (.inl rfl)
  cases harmed

end VideoCalls

end Fosipcore
