import Fosipcore.Video.Server

/-!
# Calls one after the other

The tests run `start` and `stop` strictly one after the other. In such runs the order of the
writes determines the senders: a call that is past its own `stop` starts from cleared senders.
Even then a pipeline task can end by itself at any point, on a connect failure, a read error or
the end of the camera's stream, and nothing clears the senders behind it.

## Main definitions

* `VideoCalls.sequential`: a call begins when all others have returned
* `VideoCalls.Follows`: without a running pipeline there is no broadcast
* `VideoCalls.endsInStop`: pipelines end by themselves only while a call is about to abort them

## Main results

* `VideoCalls.SeqInv.advance`: the senders in every phase of a call
* `VideoCalls.run_follows`: the broadcasts follow the pipelines that end in a stop
* `VideoCalls.ended_pipeline_stays_live`: a pipeline that ends otherwise stays live
-/

namespace Fosipcore

open Machine

namespace VideoServer

/-- Check if a video pipeline is active without subscribing. -/
def hasVideo (v : VideoServer) : Bool := v.videoTx.isSome

/-- Subscribe to the video broadcast: the call whose sender it is. -/
def subscribeVideo (v : VideoServer) : Option ℕ := v.videoTx

/-- Subscribe to the audio broadcast. -/
def subscribeAudio (v : VideoServer) : Option ℕ := v.audioTx

end VideoServer

/-- The step comes in a call after it has cleared the senders, and before a sender is written. -/
def VideoOp.BehindSenders : VideoOp → Prop
  | .clearArmedOrigin | .takeVideoTask | .setArmedOrigin _ | .setVideoTx => True
  | _ => False

/-- A call that is about to write the video sender is still to spawn its pipeline. -/
theorem IsCall.spawns {ops : List VideoOp} (h : IsCall (.setVideoTx :: ops)) :
    .spawnPipeline ∈ ops := by
  have hfollows : ops.head? = some .setAudioTx := h.next
  cases ops with
  | nil => cases hfollows
  | cons op rest =>
    obtain rfl := Option.some.inj hfollows
    have hspawn : rest.head? = some .spawnPipeline := h.tail.next
    exact List.mem_cons_of_mem _ (List.mem_of_mem_head? hspawn)

namespace VideoCalls

/-! ## One call at a time -/

/-- All calls have returned. -/
def Returned (s : VideoCalls) : Prop := ∀ ops ∈ s.calls, ops = []

instance (s : VideoCalls) : Decidable s.Returned :=
  inferInstanceAs (Decidable (∀ ops ∈ _, _))

/-- A call begins when all others have returned. -/
def sequential (s : VideoCalls) : Event → Prop
  | .start _ | .stop => s.Returned
  | .advance _ | .finish _ => True

instance (s : VideoCalls) : (e : Event) → Decidable (s.sequential e)
  | .start _ | .stop => inferInstanceAs (Decidable s.Returned)
  | .advance _ | .finish _ => .isTrue trivial

theorem Returned.next_eq_none {s : VideoCalls} (h : s.Returned) (j : ℕ) : s.next j = none := by
  unfold next
  cases hcall : s.calls[j]? with
  | none => rfl
  | some ops =>
    rw [h ops (List.mem_of_getElem? hcall)]
    rfl

/-- What the order of the writes secures when the calls come one after the other. -/
structure SeqInv (s : VideoCalls) : Prop where
  wellFormed : s.WellFormed
  single : ∀ i j op op', s.next i = some op → s.next j = some op' → i = j
  clearing : ∀ j, s.next j = some .clearAudioTx → s.server.videoTx = none
  cleared : ∀ j op, s.next j = some op → VideoOp.BehindSenders op →
    s.server.videoTx = none ∧ s.server.audioTx = none

theorem seqInv_new : new.SeqInv := by
  have hidle : ∀ j, new.next j = none := fun _ => rfl
  exact ⟨nofun, fun i j op op' hi => absurd hi (by simp [hidle]),
    fun j hj => absurd hj (by simp [hidle]), fun j op hj => absurd hj (by simp [hidle])⟩

/-- A call that begins is the only one. -/
theorem next_invoke_returned {s : VideoCalls} (h : s.Returned) {ops : List VideoOp} {j : ℕ}
    {op : VideoOp} (hj : (s.invoke ops).next j = some op) :
    j = s.calls.length ∧ ops.head? = some op := by
  have hlt : j < s.calls.length + 1 := by simpa [VideoCalls.invoke] using length_of_next hj
  rcases Nat.lt_succ_iff_lt_or_eq.mp hlt with hlt | rfl
  · -- an old call has returned
    have hold : (s.invoke ops).next j = s.next j := by
      unfold next VideoCalls.invoke
      dsimp only
      rw [List.getElem?_append_left hlt]
    rw [hold, h.next_eq_none] at hj
    cases hj
  · refine ⟨rfl, ?_⟩
    simpa [next, VideoCalls.invoke] using hj

theorem SeqInv.invoke {s : VideoCalls} (h : s.SeqInv) (hreturned : s.Returned)
    {ops : List VideoOp} (hops : IsCall ops) (hhead : ops.head? = some .clearVideoTx) :
    (s.invoke ops).SeqInv := by
  have hfirst : ∀ {j op}, (s.invoke ops).next j = some op →
      j = s.calls.length ∧ op = .clearVideoTx := by
    intro j op hj
    obtain ⟨hjlen, hop⟩ := next_invoke_returned hreturned hj
    exact ⟨hjlen, Option.some.inj (hop.symm.trans hhead)⟩
  refine ⟨h.wellFormed.invoke hops, ?_, ?_, ?_⟩
  · intro i j op op' hi hj
    rw [(hfirst hi).1, (hfirst hj).1]
  · intro j hj
    cases (hfirst hj).2
  · intro j op hj hop
    obtain ⟨-, rfl⟩ := hfirst hj
    cases hop

/-- After a step of the only call in progress, the only next step is the one behind it. -/
theorem SeqInv.next_set {s : VideoCalls} (h : s.SeqInv) {i : ℕ} {op : VideoOp}
    {ops : List VideoOp} (hcall : s.calls[i]? = some (op :: ops)) {v : VideoServer}
    {running : List ℕ} {j : ℕ} {op' : VideoOp}
    (hj : next ⟨v, running, s.calls.set i ops⟩ j = some op') : j = i ∧ ops.head? = some op' := by
  rw [VideoCalls.next_set hcall] at hj
  split_ifs at hj with hji
  · exact ⟨hji, hj⟩
  · exact absurd (h.single j i op' op hj (next_of_getElem? hcall)) hji

/-- **The senders in every phase of a call.** -/
theorem SeqInv.advance {s s' : VideoCalls} (h : s.SeqInv) {i : ℕ}
    (hstep : s.advance i = some s') : s'.SeqInv := by
  obtain ⟨op, ops, hcall, rfl⟩ := advance_cases hstep
  have hi : s.next i = some op := next_of_getElem? hcall
  have hfollows := (h.wellFormed _ (List.mem_of_getElem? hcall)).next
  have hhead : ∀ {j op'}, next ⟨s.server.apply i op, applyRunning i s.server s.running op,
      s.calls.set i ops⟩ j = some op' → ops.head? = some op' := fun hj => (h.next_set hcall hj).2
  refine ⟨h.wellFormed.set hcall, ?_, ?_, ?_⟩
  · intro j k op₁ op₂ hj hk
    rw [(h.next_set hcall hj).1, (h.next_set hcall hk).1]
  · -- only the clearing of the video sender comes before that of the audio sender
    intro j hj
    have hnext := hhead hj
    cases op with
    | clearVideoTx => rfl
    | takeVideoTask =>
      rcases hfollows with rfl | ⟨origin, hset⟩
      · cases hnext
      · cases hnext.symm.trans hset
    | spawnPipeline | storeVideoTask =>
      obtain rfl := hfollows
      cases hnext
    | clearAudioTx | clearArmedOrigin | setArmedOrigin | setVideoTx | setAudioTx =>
      cases hnext.symm.trans hfollows
  · intro j op' hj hbehind
    have hnext := hhead hj
    cases op with
    | clearVideoTx | setVideoTx | setAudioTx =>
      obtain rfl := Option.some.inj (hnext.symm.trans hfollows)
      cases hbehind
    | clearAudioTx => exact ⟨h.clearing i hi, rfl⟩
    | clearArmedOrigin | takeVideoTask | setArmedOrigin => exact h.cleared i _ hi trivial
    | spawnPipeline =>
      obtain rfl := hfollows
      obtain rfl := Option.some.inj hnext
      cases hbehind
    | storeVideoTask =>
      obtain rfl := hfollows
      cases hnext

theorem SeqInv.step {s s' : VideoCalls} {e : Event} (h : s.SeqInv) (hseq : s.sequential e)
    (hstep : s.step e = some s') : s'.SeqInv := by
  cases e with
  | start origin =>
    obtain rfl := Option.some.inj hstep
    exact h.invoke hseq (.inr ⟨origin, List.suffix_rfl⟩) rfl
  | stop =>
    obtain rfl := Option.some.inj hstep
    exact h.invoke hseq (.inl List.suffix_rfl) rfl
  | advance i => exact h.advance hstep
  | finish t =>
    rw [VideoCalls.step] at hstep
    split_ifs at hstep
    obtain rfl := Option.some.inj hstep
    exact ⟨h.wellFormed, h.single, h.clearing, h.cleared⟩

/-! ## Broadcasts and pipelines -/

/-- **The broadcasts follow the pipeline**: when no call is in progress and no pipeline runs, there
is no sender. -/
def Follows (s : VideoCalls) : Prop :=
  s.Returned → s.running = [] →
    s.server.videoTx = none ∧ s.server.audioTx = none ∧ s.server.hasVideo = false ∧
      s.server.subscribeVideo = none ∧ s.server.subscribeAudio = none

/-- Some call is still to abort the pipeline whose handle is stored. -/
def Stopping (s : VideoCalls) : Prop := ∃ ops ∈ s.calls, .takeVideoTask ∈ ops

instance (s : VideoCalls) : Decidable s.Stopping :=
  inferInstanceAs (Decidable (∃ ops ∈ _, _))

/-- The calls come one after the other, and a pipeline ends by itself only while a call is still to
abort it. -/
def endsInStop (s : VideoCalls) : Event → Prop
  | .finish _ => s.Stopping
  | .start _ | .stop => s.Returned
  | .advance _ => True

instance (s : VideoCalls) : (e : Event) → Decidable (s.endsInStop e)
  | .finish _ => inferInstanceAs (Decidable s.Stopping)
  | .start _ | .stop => inferInstanceAs (Decidable s.Returned)
  | .advance _ => .isTrue trivial

theorem sequential_of_endsInStop {s : VideoCalls} {e : Event} (h : s.endsInStop e) :
    s.sequential e := by
  cases e with
  | start | stop => exact h
  | advance | finish => trivial

/-- A sender belongs to a pipeline that runs, that a call is still to abort, or that its own call is
still to spawn. -/
structure LiveInv (s : VideoCalls) : Prop where
  seq : s.SeqInv
  live : ∀ k, s.server.videoTx = some k ∨ s.server.audioTx = some k →
    k ∈ s.running ∨ s.Stopping ∨ ∃ ops, s.calls[k]? = some ops ∧ .spawnPipeline ∈ ops

theorem liveInv_new : new.LiveInv := by
  refine ⟨seqInv_new, ?_⟩
  rintro k (hk | hk)
  · cases hk
  · cases hk

theorem LiveInv.invoke {s : VideoCalls} {ops : List VideoOp}
    (hseq : (s.invoke ops).SeqInv) (hops : .takeVideoTask ∈ ops) : (s.invoke ops).LiveInv :=
  -- the call begins with a whole `stop`
  ⟨hseq, fun _ _ => .inr (.inl ⟨ops, List.mem_append_right _ (List.mem_singleton_self ops), hops⟩)⟩

section

variable {s : VideoCalls} {i : ℕ} {op : VideoOp} {ops : List VideoOp}
  (hcall : s.calls[i]? = some (op :: ops))

include hcall

/-- What a call has ahead is still ahead when a step of another kind is done. -/
theorem ahead_of_set {k : ℕ} {ops' : List VideoOp} {op' : VideoOp} (hk : s.calls[k]? = some ops')
    (hop : op' ∈ ops') (hne : op ≠ op') :
    ∃ rest, (s.calls.set i ops)[k]? = some rest ∧ op' ∈ rest := by
  have hlt : i < s.calls.length := (List.getElem?_eq_some_iff.mp hcall).1
  rcases eq_or_ne i k with rfl | hik
  · obtain rfl := Option.some.inj (hcall.symm.trans hk)
    exact ⟨ops, List.getElem?_set_self hlt, (List.mem_cons.mp hop).resolve_left hne.symm⟩
  · exact ⟨ops', by rw [List.getElem?_set_ne hik, hk], hop⟩

/-- A call that is to stop the pipeline still is. -/
theorem stopping_of_set (hne : op ≠ .takeVideoTask) (h : s.Stopping) :
    ∃ ops' ∈ s.calls.set i ops, .takeVideoTask ∈ ops' := by
  obtain ⟨ops', hmem, hop⟩ := h
  obtain ⟨k, hk⟩ := List.getElem?_of_mem hmem
  obtain ⟨rest, hrest, hop⟩ := ahead_of_set hcall hk hop hne
  exact ⟨rest, List.mem_of_getElem? hrest, hop⟩

end

theorem LiveInv.advance {s s' : VideoCalls} (h : s.LiveInv) {i : ℕ}
    (hstep : s.advance i = some s') : s'.LiveInv := by
  have hseq := h.seq.advance hstep
  obtain ⟨op, ops, hcall, rfl⟩ := advance_cases hstep
  have hi : s.next i = some op := next_of_getElem? hcall
  have hlt : i < s.calls.length := (List.getElem?_eq_some_iff.mp hcall).1
  have hfollows := (h.seq.wellFormed _ (List.mem_of_getElem? hcall)).next
  refine ⟨hseq, fun k hk => ?_⟩
  have hold : op ≠ .takeVideoTask → op ≠ .spawnPipeline → applyRunning i s.server s.running op =
      s.running → s.server.videoTx = some k ∨ s.server.audioTx = some k →
      k ∈ applyRunning i s.server s.running op ∨
        (∃ ops' ∈ s.calls.set i ops, VideoOp.takeVideoTask ∈ ops') ∨
        ∃ ops', (s.calls.set i ops)[k]? = some ops' ∧ VideoOp.spawnPipeline ∈ ops' := by
    intro htake hspawn hrunning hk
    rcases h.live k hk with hk | hk | ⟨ops', hk, hop⟩
    · refine .inl ?_
      rw [hrunning]
      exact hk
    · exact .inr (.inl (stopping_of_set hcall htake hk))
    · exact .inr (.inr (ahead_of_set hcall hk hop hspawn))
  cases op with
  | clearVideoTx => exact hold nofun nofun rfl (.inr (hk.resolve_left nofun))
  | clearAudioTx => exact hold nofun nofun rfl (.inl (hk.resolve_right nofun))
  | clearArmedOrigin | setArmedOrigin | storeVideoTask => exact hold nofun nofun rfl hk
  | takeVideoTask =>
    -- the senders are cleared before the pipeline is aborted
    obtain ⟨hvideo, haudio⟩ := h.seq.cleared i _ hi trivial
    rcases hk with hk | hk
    · cases hvideo.symm.trans hk
    · cases haudio.symm.trans hk
  | setVideoTx =>
    rcases hk with hk | hk
    · -- the call is on its way to spawn the pipeline
      obtain rfl := Option.some.inj hk
      have hcalls := h.seq.wellFormed _ (List.mem_of_getElem? hcall)
      exact .inr (.inr ⟨ops, List.getElem?_set_self hlt, hcalls.spawns⟩)
    · exact hold nofun nofun rfl (.inr hk)
  | setAudioTx =>
    rcases hk with hk | hk
    · exact hold nofun nofun rfl (.inl hk)
    · obtain rfl := Option.some.inj hk
      refine .inr (.inr ⟨ops, List.getElem?_set_self hlt, ?_⟩)
      exact List.mem_of_mem_head? hfollows
  | spawnPipeline =>
    rcases eq_or_ne k i with rfl | hki
    · exact .inl List.mem_cons_self
    · rcases h.live k hk with hk | hk | ⟨ops', hk, hop⟩
      · exact .inl (List.mem_cons_of_mem i hk)
      · exact .inr (.inl (stopping_of_set hcall nofun hk))
      · -- the other call is not touched
        exact .inr (.inr ⟨ops', by rw [List.getElem?_set_ne hki.symm, hk], hop⟩)

theorem LiveInv.step {s s' : VideoCalls} {e : Event} (h : s.LiveInv) (hguard : s.endsInStop e)
    (hstep : s.step e = some s') : s'.LiveInv := by
  have hseq := h.seq.step (sequential_of_endsInStop hguard) hstep
  cases e with
  | start origin =>
    obtain rfl := Option.some.inj hstep
    exact .invoke hseq (by simp [startOps, stopOps])
  | stop =>
    obtain rfl := Option.some.inj hstep
    exact .invoke hseq (by simp [stopOps])
  | advance i => exact h.advance hstep
  | finish t =>
    rw [VideoCalls.step] at hstep
    split_ifs at hstep
    obtain rfl := Option.some.inj hstep
    exact ⟨hseq, fun _ _ => .inr (.inl hguard)⟩

/-- When all calls have returned, a sender belongs to a running pipeline. -/
theorem LiveInv.follows {s : VideoCalls} (h : s.LiveInv) : s.Follows := by
  intro hreturned hrunning
  have hoff : ∀ k, ¬ (s.server.videoTx = some k ∨ s.server.audioTx = some k) := by
    intro k hk
    rcases h.live k hk with hk | ⟨ops, hmem, hop⟩ | ⟨ops, hk, hop⟩
    · rw [hrunning] at hk
      cases hk
    · rw [hreturned ops hmem] at hop
      cases hop
    · rw [hreturned ops (List.mem_of_getElem? hk)] at hop
      cases hop
  have hvideo : s.server.videoTx = none :=
    Option.eq_none_iff_forall_ne_some.mpr fun k hk => hoff k (.inl hk)
  have haudio : s.server.audioTx = none :=
    Option.eq_none_iff_forall_ne_some.mpr fun k hk => hoff k (.inr hk)
  refine ⟨hvideo, haudio, ?_, hvideo, haudio⟩
  rw [VideoServer.hasVideo, hvideo]
  rfl

/-- **The broadcasts follow the pipelines** in every run of calls that come one after the other and
whose pipelines end by themselves only while a call is still to abort them. -/
theorem run_follows {es : List Event} {s : VideoCalls} (h : Run step endsInStop new es s) :
    s.Follows := (h.invariant (fun _ _ _ hs => hs.step) liveInv_new).follows

/-- A pipeline that ends by itself when a stop has cleared the video sender. -/
def endsInTime : List Event :=
  .start sampleOrigin :: (List.replicate 9 (.advance 0) ++
    [.stop, .advance 1, .finish 0, .advance 1, .advance 1, .advance 1])

theorem run_follows_endsInTime :
    ∃ s, Run step endsInStop new endsInTime s ∧ s.Returned ∧ s.running = [] ∧ s.Follows := by
  have hrun : Run step endsInStop new endsInTime ⟨.new, [], [[], []]⟩ := .of_exec rfl
  exact ⟨_, hrun, by decide, rfl, run_follows hrun⟩

/-- The camera closes the connection of a pipeline, and no call is in progress. -/
def endsByItself : List Event :=
  .start sampleOrigin :: (List.replicate 9 (.advance 0) ++ [.finish 0])

/-- **A pipeline that ends by itself stays live**: all calls have returned and nothing runs, but new
clients subscribe to a stream that will bring nothing. -/
theorem ended_pipeline_stays_live :
    ∃ s, Run step sequential new endsByItself s ∧ s.Returned ∧ s.running = [] ∧
      s.server.hasVideo = true ∧ ¬ s.Follows := by
  have hrun : Run step sequential new endsByItself
      ⟨⟨some 0, some 0, some 0, some sampleOrigin⟩, [], [[]]⟩ := .of_exec rfl
  refine ⟨_, hrun, by decide, rfl, rfl, fun h => ?_⟩
  cases (h (by decide) rfl).1

end VideoCalls

end Fosipcore
