import Fosipcore.Video.Server
import Mathlib.Data.List.Perm.Subperm

/-!
# Pipelines of a session

A connection handles its messages one at a time. `openVideo` spawns a `start` and does not wait
for it; `closeVideo` waits for a `stop`, and so do logout and disconnect, which first take the
video server away from the session. A pipeline task that is running should be the one whose
handle is stored, or about to be stored: no other task can be aborted.

## Main definitions

* `VideoSession`, `VideoSession.step`: the connection, its video server and the calls in progress
* `VideoSession.NoOrphans`: every running task can still be aborted, and none is left after
  teardown
* `VideoSession.keepsHandles`: no handle of a running task is overwritten, and teardown waits for
  the starts

## Main results

* `VideoSession.run_noOrphans`: no orphans in the runs that keep the handles
* `VideoSession.orphan_pipelines`: orphans in two runs that do not
-/

namespace Fosipcore

open Machine

/-- The video plane of a connection: the calls on its video server, the `stop` that the connection
waits for, and whether the session still has its video server. -/
structure VideoSession where
  plane : VideoCalls
  awaiting : Option ℕ
  video : Bool
  deriving DecidableEq

namespace VideoSession

/-- A session that has just logged in. -/
def new : VideoSession := ⟨.new, none, true⟩

/-- What can happen: a message, the end of the connection, a step of a call, or the end of a
pipeline task. -/
inductive Event where
  | openVideo (origin : OriginInfo)
  | closeVideo
  | logout
  | disconnect
  | advance (i : ℕ)
  | finish (t : ℕ)

/-- `teardown_video`: the session gives up its video server and waits for its `stop`. -/
def teardown (s : VideoSession) : VideoSession :=
  if s.video then ⟨s.plane.invoke stopOps, some s.plane.calls.length, false⟩ else s

def step (s : VideoSession) : Event → Option VideoSession
  | .openVideo origin =>
    if s.awaiting.isSome then none
    else if s.video then some { s with plane := s.plane.invoke (startOps origin) }
    else some s
  | .closeVideo =>
    if s.awaiting.isSome then none
    else if s.video then
      some { s with plane := s.plane.invoke stopOps, awaiting := some s.plane.calls.length }
    else some s
  | .logout => if s.awaiting.isSome then none else some s.teardown
  | .disconnect => if s.awaiting.isSome then none else some s.teardown
  | .advance i =>
    (s.plane.advance i).map fun plane =>
      { s with
        plane := plane
        awaiting :=
          if s.awaiting = some i ∧ plane.calls[i]? = some [] then none else s.awaiting }
  | .finish t => (s.plane.step (.finish t)).map fun plane => { s with plane := plane }

/-- What an event does: nothing, the beginning of a call, a teardown, a step of a call, or the end
of a task. -/
inductive StepTo (s : VideoSession) : Event → VideoSession → Prop
  | idle (e : Event) (hoff : e = .logout ∨ e = .disconnect → s.video = false) : StepTo s e s
  | start (origin : OriginInfo) (hvideo : s.video = true) :
    StepTo s (.openVideo origin) { s with plane := s.plane.invoke (startOps origin) }
  | stop (hvideo : s.video = true) :
    StepTo s .closeVideo
      { s with plane := s.plane.invoke stopOps, awaiting := some s.plane.calls.length }
  | teardown (e : Event) (he : e = .logout ∨ e = .disconnect) (hvideo : s.video = true) :
    StepTo s e ⟨s.plane.invoke stopOps, some s.plane.calls.length, false⟩
  | advance (i : ℕ) (plane : VideoCalls) (hplane : s.plane.advance i = some plane) :
    StepTo s (.advance i)
      { s with
        plane := plane
        awaiting :=
          if s.awaiting = some i ∧ plane.calls[i]? = some [] then none else s.awaiting }
  | finish (t : ℕ) (plane : VideoCalls) (hplane : s.plane.step (.finish t) = some plane) :
    StepTo s (.finish t) { s with plane := plane }

/-- **What a step can do.** -/
theorem step_cases {s s' : VideoSession} {e : Event} (h : s.step e = some s') :
    StepTo s e s' := by
  cases e with
  | openVideo origin =>
    rw [step] at h
    split_ifs at h with hawait hvideo <;> obtain rfl := Option.some.inj h
    · exact .start origin hvideo
    · exact .idle _ (by simp)
  | closeVideo =>
    rw [step] at h
    split_ifs at h with hawait hvideo <;> obtain rfl := Option.some.inj h
    · exact .stop hvideo
    · exact .idle _ (by simp)
  | logout | disconnect =>
    rw [step] at h
    split_ifs at h with hawait
    obtain rfl := Option.some.inj h
    unfold teardown
    split_ifs with hvideo
    · exact .teardown _ (by simp) hvideo
    · exact .idle _ fun _ => Bool.eq_false_iff.mpr hvideo
  | advance i =>
    obtain ⟨plane, hplane, rfl⟩ := Option.map_eq_some_iff.mp h
    exact .advance i plane hplane
  | finish t =>
    obtain ⟨plane, hplane, rfl⟩ := Option.map_eq_some_iff.mp h
    exact .finish t plane hplane

/-- **No orphan pipelines**: a running task is the one whose handle is stored or about to be
stored, at most one survives when all calls have returned, and none survives a teardown. -/
structure NoOrphans (s : VideoSession) : Prop where
  owned : ∀ t ∈ s.plane.running,
    s.plane.server.videoTask = some t ∨ s.plane.calls[t]? = some [.storeVideoTask]
  single : (∀ ops ∈ s.plane.calls, ops = []) → s.plane.running.length ≤ 1
  tornDown : s.video = false → (∀ ops ∈ s.plane.calls, ops = []) → s.plane.running = []

/-- No start stores its handle over that of a running task, and the `stop` of a teardown takes the
handle only when every start has returned. -/
def keepsHandles (s : VideoSession) : Event → Prop
  | .advance i =>
    (s.plane.next i = some .storeVideoTask →
      ∀ t ∈ s.plane.running, s.plane.server.videoTask ≠ some t) ∧
    (s.video = false ∧ s.awaiting = some i ∧ s.plane.next i = some .takeVideoTask →
      ∀ j < s.plane.calls.length, j ≠ i → s.plane.calls[j]? = some [])
  | _ => True

instance (s : VideoSession) : (e : Event) → Decidable (s.keepsHandles e)
  | .advance _ => inferInstanceAs (Decidable (_ ∧ _))
  | .openVideo _ | .closeVideo | .logout | .disconnect | .finish _ => .isTrue trivial

end VideoSession

namespace VideoCalls

/-- Running tasks are stored or about to be stored, without repetition, and the start that stored
a handle has returned. -/
structure Owned (s : VideoCalls) : Prop where
  wellFormed : s.WellFormed
  owned : ∀ t ∈ s.running, s.server.videoTask = some t ∨ s.calls[t]? = some [.storeVideoTask]
  stored : ∀ t, s.server.videoTask = some t → s.calls[t]? = some []
  nodup : s.running.Nodup

theorem Owned.invoke {s : VideoCalls} (h : s.Owned) {ops : List VideoOp} (hops : IsCall ops) :
    (s.invoke ops).Owned := by
  have hold : ∀ {t : ℕ} {ops' : List VideoOp}, s.calls[t]? = some ops' →
      (s.calls ++ [ops])[t]? = some ops' := by
    intro t ops' ht
    rw [List.getElem?_append_left (List.getElem?_eq_some_iff.mp ht).1, ht]
  exact ⟨h.wellFormed.invoke hops, fun t ht => (h.owned t ht).imp_right hold,
    fun t ht => hold (h.stored t ht), h.nodup⟩

theorem Owned.finish {s s' : VideoCalls} (h : s.Owned) {t : ℕ}
    (hstep : s.step (.finish t) = some s') : s'.Owned := by
  rw [VideoCalls.step] at hstep
  split_ifs at hstep
  obtain rfl := Option.some.inj hstep
  exact ⟨h.wellFormed, fun u hu => h.owned u (List.mem_of_mem_erase hu), h.stored,
    h.nodup.erase t⟩

/-- **One step of a call keeps the handles**, unless it overwrites that of a running task. -/
theorem Owned.advance {s s' : VideoCalls} (h : s.Owned) {i : ℕ}
    (hguard : s.next i = some .storeVideoTask → ∀ t ∈ s.running, s.server.videoTask ≠ some t)
    (hstep : s.advance i = some s') : s'.Owned := by
  obtain ⟨op, ops, hcall, rfl⟩ := advance_cases hstep
  have hlt : i < s.calls.length := (List.getElem?_eq_some_iff.mp hcall).1
  have hfollows := (h.wellFormed _ (List.mem_of_getElem? hcall)).next
  have hwf := h.wellFormed.set hcall
  -- what the other calls have left is what they had left
  have hold : ∀ {t : ℕ} {ops' : List VideoOp}, s.calls[t]? = some ops' → ops' ≠ op :: ops →
      (s.calls.set i ops)[t]? = some ops' := by
    intro t ops' ht hne
    rcases eq_or_ne i t with rfl | hit
    · rw [hcall] at ht
      exact absurd (Option.some.inj ht).symm hne
    · rw [List.getElem?_set_ne hit, ht]
  have hstored : ∀ t, s.server.videoTask = some t → (s.calls.set i ops)[t]? = some [] :=
    fun t ht => hold (h.stored t ht) nofun
  have hpending : op ≠ .storeVideoTask → ∀ t : ℕ, s.calls[t]? = some [VideoOp.storeVideoTask] →
      (s.calls.set i ops)[t]? = some [VideoOp.storeVideoTask] := by
    intro hop t ht
    refine hold ht fun e => hop ?_
    exact (List.cons.inj e).1.symm
  cases op with
  | clearVideoTx | clearAudioTx | clearArmedOrigin | setArmedOrigin | setVideoTx | setAudioTx =>
    exact ⟨hwf, fun t ht => (h.owned t ht).imp_right (hpending nofun t), hstored, h.nodup⟩
  | takeVideoTask =>
    refine ⟨hwf, fun t ht => .inr ?_, nofun, h.nodup.filter _⟩
    obtain ⟨ht, htask⟩ := List.mem_filter.mp ht
    rcases h.owned t ht with htask' | hcall'
    · exact absurd htask'.symm (of_decide_eq_true htask)
    · exact hpending nofun t hcall'
  | spawnPipeline =>
    obtain rfl := hfollows
    have hi : i ∉ s.running := by
      intro hi
      rcases h.owned i hi with htask | hcall'
      · rw [h.stored i htask] at hcall
        cases hcall
      · rw [hcall'] at hcall
        cases hcall
    refine ⟨hwf, fun t ht => ?_, hstored, List.nodup_cons.mpr ⟨hi, h.nodup⟩⟩
    rcases List.mem_cons.mp ht with rfl | ht
    · exact .inr (List.getElem?_set_self hlt)
    · exact (h.owned t ht).imp_right (hpending nofun t)
  | storeVideoTask =>
    obtain rfl := hfollows
    have hfree := hguard (next_of_getElem? hcall)
    refine ⟨hwf, fun t ht => ?_, ?_, h.nodup⟩
    · rcases eq_or_ne i t with rfl | hit
      · exact .inl rfl
      · rcases h.owned t ht with htask | hcall'
        · exact absurd htask (hfree t ht)
        · refine .inr ?_
          rw [List.getElem?_set_ne hit, hcall']
    · rintro t ⟨⟩
      exact List.getElem?_set_self hlt

theorem owned_new : new.Owned := ⟨nofun, nofun, nofun, List.nodup_nil⟩

/-- When all calls have returned, only the stored task can be running. -/
theorem Owned.length_le_one {s : VideoCalls} (h : s.Owned) (hdone : ∀ ops ∈ s.calls, ops = []) :
    s.running.length ≤ 1 := by
  have hsub : s.running ⊆ s.server.videoTask.toList := by
    intro t ht
    rcases h.owned t ht with htask | hcall
    · rw [htask]
      exact List.mem_singleton_self t
    · cases hdone _ (List.mem_of_getElem? hcall)
  refine (List.subperm_of_subset h.nodup hsub).length_le.trans ?_
  cases s.server.videoTask with
  | none => exact Nat.zero_le 1
  | some => exact le_rfl

end VideoCalls

namespace VideoSession

/-- Besides the ownership of the tasks: after a teardown, its `stop` is still to take the handle,
or nothing is left. -/
structure Inv (s : VideoSession) : Prop where
  owned : s.plane.Owned
  torn : s.video = false →
    (∃ k ops, s.awaiting = some k ∧ s.plane.calls[k]? = some ops ∧ ops ≠ [] ∧ ops <:+ stopOps) ∨
    (s.plane.running = [] ∧ ∀ ops ∈ s.plane.calls, ops = [])

/-- The last step of a teardown's `stop` leaves nothing running, if every start has returned. -/
theorem Inv.advance {s : VideoSession} (h : s.Inv) {i : ℕ} {plane : VideoCalls}
    (hguard : s.keepsHandles (.advance i)) (hplane : s.plane.advance i = some plane) :
    Inv ⟨plane, if s.awaiting = some i ∧ plane.calls[i]? = some [] then none else s.awaiting,
      s.video⟩ := by
  obtain ⟨hstore, htake⟩ := hguard
  have howned := h.owned.advance hstore hplane
  refine ⟨howned, fun hvideo => ?_⟩
  obtain ⟨op, ops, hcall, rfl⟩ := VideoCalls.advance_cases hplane
  have hlt : i < s.plane.calls.length := (List.getElem?_eq_some_iff.mp hcall).1
  rcases h.torn hvideo with ⟨k, kops, hk, hkcall, hkne, hksuffix⟩ | ⟨-, hdone⟩
  · rcases eq_or_ne i k with rfl | hik
    · obtain rfl := Option.some.inj (hkcall.symm.trans hcall)
      have hrest : ops <:+ stopOps := (List.suffix_cons op ops).trans hksuffix
      cases ops with
      | cons op' ops =>
        refine .inl ⟨i, op' :: ops, ?_, List.getElem?_set_self hlt, nofun, hrest⟩
        rw [if_neg, hk]
        rintro ⟨-, hnil⟩
        rw [List.getElem?_set_self hlt] at hnil
        cases hnil
      | nil =>
        -- the only step without a successor is the last one of `stop`
        obtain rfl : op = .takeVideoTask := by
          simpa [stopOps, List.suffix_cons_iff] using hksuffix
        have hothers := htake ⟨hvideo, hk, VideoCalls.next_of_getElem? hcall⟩
        have hdone : ∀ ops ∈ s.plane.calls.set i [], ops = [] := by
          intro ops hmem
          obtain ⟨j, hj⟩ := List.getElem?_of_mem hmem
          rcases eq_or_ne i j with rfl | hij
          · rw [List.getElem?_set_self hlt] at hj
            exact (Option.some.inj hj).symm
          · rw [List.getElem?_set_ne hij] at hj
            have hlen := (List.getElem?_eq_some_iff.mp hj).1
            exact (Option.some.inj ((hothers j hlen hij.symm).symm.trans hj)).symm
        refine .inr ⟨List.eq_nil_iff_forall_not_mem.mpr fun t ht => ?_, hdone⟩
        rcases howned.owned t ht with htask | hcall'
        · cases htask
        · cases hdone _ (List.mem_of_getElem? hcall')
    · refine .inl ⟨k, kops, ?_, ?_, hkne, hksuffix⟩
      · rw [if_neg, hk]
        rintro ⟨hi, -⟩
        exact hik (Option.some.inj (hi.symm.trans hk))
      · rw [List.getElem?_set_ne hik, hkcall]
  · cases hdone _ (List.mem_of_getElem? hcall)

theorem Inv.step {s : VideoSession} {e : Event} {s' : VideoSession} (h : s.Inv)
    (hguard : s.keepsHandles e) (hstep : s.step e = some s') : s'.Inv := by
  cases step_cases hstep with
  | idle => exact h
  | start origin hvideo =>
    refine ⟨h.owned.invoke (.inr ⟨origin, List.suffix_rfl⟩), fun hoff => ?_⟩
    cases hvideo.symm.trans hoff
  | stop hvideo =>
    refine ⟨h.owned.invoke (.inl List.suffix_rfl), fun hoff => ?_⟩
    cases hvideo.symm.trans hoff
  | teardown e he hvideo =>
    refine ⟨h.owned.invoke (.inl List.suffix_rfl), fun _ => .inl ?_⟩
    exact ⟨_, stopOps, rfl, List.getElem?_concat_length, by simp [stopOps], List.suffix_rfl⟩
  | advance i plane hplane => exact h.advance hguard hplane
  | finish t plane hplane =>
    refine ⟨h.owned.finish hplane, fun hvideo => ?_⟩
    rw [VideoCalls.step] at hplane
    split_ifs at hplane with hmem
    obtain rfl := Option.some.inj hplane
    refine (h.torn hvideo).imp_right ?_
    -- where nothing is left running, no task can end
    rintro ⟨hrunning, hdone⟩
    rw [hrunning] at hmem
    cases hmem

theorem Inv.noOrphans {s : VideoSession} (h : s.Inv) : s.NoOrphans := by
  refine ⟨h.owned.owned, h.owned.length_le_one, fun hvideo hdone => ?_⟩
  rcases h.torn hvideo with ⟨k, ops, -, hcall, hne, -⟩ | ⟨hrunning, -⟩
  · exact absurd (hdone ops (List.mem_of_getElem? hcall)) hne
  · exact hrunning

/-! ## Torn down sessions -/

/-- A session has its video server, or waits for the `stop` of one. -/
def Active (s : VideoSession) : Prop := s.video = true ∨ s.awaiting.isSome

/-- A session that is not active has no running pipeline. -/
theorem Inv.active_of_running {s : VideoSession} (h : s.Inv) {t : ℕ}
    (ht : t ∈ s.plane.running) : s.Active := by
  by_cases hvideo : s.video = true
  · exact .inl hvideo
  · rcases h.torn (Bool.eq_false_iff.mpr hvideo) with ⟨k, ops, hk, -⟩ | ⟨hrunning, -⟩
    · exact .inr (Option.isSome_of_eq_some hk)
    · rw [hrunning] at ht
      cases ht

/-- No event gives a session its video server back. -/
theorem step_video {s s' : VideoSession} {e : Event} (h : s.step e = some s')
    (hvideo : s'.video = true) : s.video = true := by
  cases step_cases h with
  | idle | advance | finish => exact hvideo
  | start _ hvideo' | stop hvideo' => exact hvideo'
  | teardown _ _ hvideo' => exact hvideo'

theorem step_logout {s s' : VideoSession} (h : s.step .logout = some s') : s'.video = false := by
  cases step_cases h with
  | idle _ hoff => exact hoff (.inl rfl)
  | teardown => rfl

/-- Only a teardown takes the video server away. -/
theorem step_video_eq {s s' : VideoSession} {e : Event} (h : s.step e = some s')
    (hlogout : e ≠ .logout) (hdisconnect : e ≠ .disconnect) : s'.video = s.video := by
  cases step_cases h with
  | idle | start | stop | advance | finish => rfl
  | teardown _ he => exact absurd he (not_or.mpr ⟨hlogout, hdisconnect⟩)

/-- An event that leaves a session waiting for a `stop` found it waiting, or with its video
server. -/
theorem step_awaiting {s s' : VideoSession} {e : Event} (h : s.step e = some s')
    (hawait : s'.awaiting.isSome) : s.Active := by
  cases step_cases h with
  | idle | finish => exact .inr hawait
  | start _ hvideo | stop hvideo => exact .inl hvideo
  | teardown _ _ hvideo => exact .inl hvideo
  | advance i plane =>
    -- the wait goes on, or it ends with the last step of the `stop`
    dsimp only at hawait
    split_ifs at hawait
    · cases hawait
    · exact .inr hawait

/-- No event makes a session active. -/
theorem step_active {s s' : VideoSession} {e : Event} (h : s.step e = some s')
    (hactive : s'.Active) : s.Active := by
  rcases hactive with hvideo | hawait
  · exact .inl (step_video h hvideo)
  · exact step_awaiting h hawait

/-! ## Runs -/

theorem inv_new : new.Inv := ⟨VideoCalls.owned_new, nofun⟩

/-- **No orphan pipelines** in the runs that overwrite no handle of a running task and whose
teardown takes the handle when every start has returned. -/
theorem run_noOrphans {es : List Event} {s : VideoSession} (h : Run step keepsHandles new es s) :
    s.NoOrphans := by
  exact (h.invariant (fun _ _ _ hs => hs.step) inv_new).noOrphans

/-- A start that runs to its end, and then a logout. -/
theorem run_noOrphans_logout :
    ∃ s, Run step keepsHandles new (.openVideo VideoCalls.sampleOrigin ::
        (List.replicate 9 (.advance 0) ++ .logout :: List.replicate 4 (.advance 1))) s ∧
      s.video = false ∧ s.NoOrphans := by
  have hrun : Run step keepsHandles new (.openVideo VideoCalls.sampleOrigin ::
        (List.replicate 9 (.advance 0) ++ .logout :: List.replicate 4 (.advance 1)))
      ⟨⟨.new, [], [[], []]⟩, none, false⟩ := .of_exec rfl
  exact ⟨_, hrun, rfl, run_noOrphans hrun⟩

/-- Two starts that have both stopped the previous pipeline before either spawns its own. -/
def twoStarts : List Event :=
  .openVideo VideoCalls.sampleOrigin :: .openVideo VideoCalls.sampleOrigin ::
    (List.replicate 4 (.advance 0) ++ List.replicate 4 (.advance 1) ++
      List.replicate 5 (.advance 0) ++ List.replicate 5 (.advance 1))

/-- A start that makes its first step when the session has been torn down. -/
def lateStart : List Event :=
  .openVideo VideoCalls.sampleOrigin :: .logout ::
    (List.replicate 4 (.advance 1) ++ List.replicate 9 (.advance 0))

/-- **Overlapping starts leave an orphan, and so does a start that teardown does not wait for**:
all calls have returned, and a pipeline runs that nothing can abort. -/
theorem orphan_pipelines :
    (∃ s, Run step free new twoStarts s ∧ (∀ ops ∈ s.plane.calls, ops = []) ∧
      s.plane.running = [1, 0] ∧ ¬ s.NoOrphans) ∧
    ∃ s, Run step free new lateStart s ∧ (∀ ops ∈ s.plane.calls, ops = []) ∧ s.video = false ∧
      s.plane.running = [0] ∧ ¬ s.NoOrphans := by
  have htwo : Run step free new twoStarts
      ⟨⟨⟨some 1, some 1, some 1, some VideoCalls.sampleOrigin⟩, [1, 0], [[], []]⟩, none, true⟩ :=
    .of_exec rfl
  have hlate : Run step free new lateStart
      ⟨⟨⟨some 0, some 0, some 0, some VideoCalls.sampleOrigin⟩, [0], [[], []]⟩, none, false⟩ :=
    .of_exec rfl
  refine ⟨⟨_, htwo, by decide, rfl, fun h => ?_⟩, ⟨_, hlate, by decide, rfl, rfl, fun h => ?_⟩⟩
  · exact absurd (h.single (by decide)) (by decide)
  · cases h.tornDown rfl (by decide)

end VideoSession

end Fosipcore
