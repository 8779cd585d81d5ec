import Fosipcore.Core.Connection

/-!
# The login gate and the stream gate

A login passes only if the origin of the page matches the claimed camera, and `openVideo` arms the
stream gate with an origin that is built again from the claim that the session holds. Whatever the
case and the whitespace of the claims, both are the origin of the page: the camera of the session
was admitted, so its own origin is that of the page, and every start carries this origin.

## Main definitions

* `VideoCalls.Arms o`: the gate of a server is armed with `o`, if it is, now and by every call
* `Connection.PageOnly o`: the camera of the session and all its planes belong to the page `o`
* `Connection.onlyCall p k`: no call on the plane `p` advances but `k`

## Main results

* `Connection.PageOnly.step`: a connection stays with the origin of its page
* `Connection.onlyCall_arms`: a start that runs to its end leaves the gate armed
* `Connection.gates_agree`: both gates accept the same origin
-/

namespace Fosipcore

open Machine Text

/-! ## What arms a server -/

namespace VideoCalls

/-- The gate is armed with the origin `o`, if it is, and a call in progress arms it only with that
of a camera's page, which is `o`. -/
structure Arms (o : OriginInfo) (s : VideoCalls) : Prop where
  armed : ∀ armed, s.server.armedOrigin = some armed → armed = o
  calls : ∀ ops ∈ s.calls, ∀ origin, .setArmedOrigin origin ∈ ops →
    origin = o ∧ ∃ host port, o = OriginInfo.ofCamera host port

variable {o : OriginInfo} {s s' : VideoCalls}

theorem arms_new : new.Arms o := ⟨nofun, nofun⟩

theorem Arms.invoke (h : s.Arms o) {ops : List VideoOp}
    (hops : ∀ origin, .setArmedOrigin origin ∈ ops →
      origin = o ∧ ∃ host port, o = OriginInfo.ofCamera host port) : (s.invoke ops).Arms o := by
  refine ⟨h.armed, fun ops' hmem => ?_⟩
  rcases List.mem_append.mp hmem with hmem | hmem
  · exact h.calls ops' hmem
  · obtain rfl := List.mem_singleton.mp hmem
    exact hops

theorem Arms.advance (h : s.Arms o) {i : ℕ} (hstep : s.advance i = some s') : s'.Arms o := by
  obtain ⟨op, ops, hcall, rfl⟩ := advance_cases hstep
  have hmem := List.mem_of_getElem? hcall
  refine ⟨?_, fun ops' hops' origin horigin => ?_⟩
  · intro armed harmed
    cases op with
    | clearArmedOrigin => cases harmed
    | setArmedOrigin origin =>
      obtain rfl := Option.some.inj harmed
      exact (h.calls _ hmem origin List.mem_cons_self).1
    | _ => exact h.armed armed harmed
  · rcases List.mem_or_eq_of_mem_set hops' with hops' | rfl
    · exact h.calls ops' hops' origin horigin
    · exact h.calls _ hmem origin (List.mem_cons_of_mem op horigin)

theorem Arms.finish (h : s.Arms o) {t : ℕ} (hstep : s.step (.finish t) = some s') : s'.Arms o := by
  rw [VideoCalls.step] at hstep
  split_ifs at hstep
  obtain rfl := Option.some.inj hstep
  exact ⟨h.armed, h.calls⟩

/-- The origin of the start `k` is armed, or it is still to be. -/
def Starting (k : ℕ) (origin : OriginInfo) (s : VideoCalls) : Prop :=
  (∃ ops, s.calls[k]? =
    some (ops ++ .setArmedOrigin origin ::
      [.setVideoTx, .setAudioTx, .spawnPipeline, .storeVideoTask])) ∨
  (s.server.armedOrigin.isSome ∧
    ∃ ops, s.calls[k]? = some ops ∧
      ops <:+ [.setVideoTx, .setAudioTx, .spawnPipeline, .storeVideoTask])

variable {k : ℕ} {origin : OriginInfo}

theorem Starting.invoke (h : s.Starting k origin) (ops : List VideoOp) :
    (s.invoke ops).Starting k origin := by
  have hold : ∀ {ops' : List VideoOp}, s.calls[k]? = some ops' →
      (s.calls ++ [ops])[k]? = some ops' := by
    intro ops' hk
    rw [List.getElem?_append_left (List.getElem?_eq_some_iff.mp hk).1, hk]
  rcases h with ⟨ops', hk⟩ | ⟨harmed, ops', hk, hsuffix⟩
  · exact .inl ⟨ops', hold hk⟩
  · exact .inr ⟨harmed, ops', hold hk, hsuffix⟩

/-- A step of the start itself. -/
theorem Starting.advance (h : s.Starting k origin) (hstep : s.advance k = some s') :
    s'.Starting k origin := by
  obtain ⟨op, ops, hcall, rfl⟩ := advance_cases hstep
  have hself : (s.calls.set k ops)[k]? = some ops :=
    List.getElem?_set_self (List.getElem?_eq_some_iff.mp hcall).1
  rcases h with ⟨before, hk⟩ | ⟨harmed, rest, hk, hsuffix⟩
  · have hops := Option.some.inj (hcall.symm.trans hk)
    cases before with
    | nil =>
      obtain ⟨rfl, rfl⟩ := List.cons.inj hops
      exact .inr ⟨rfl, _, hself, List.suffix_rfl⟩
    | cons op' before =>
      obtain ⟨-, rfl⟩ := List.cons.inj hops
      exact .inl ⟨before, hself⟩
  -- a start that has armed the gate does not clear it again
  · obtain rfl := Option.some.inj (hcall.symm.trans hk)
    refine .inr ⟨?_, ops, hself, (List.suffix_cons op ops).trans hsuffix⟩
    have hop := hsuffix.subset List.mem_cons_self
    cases op with
    | clearArmedOrigin => simp at hop
    | setArmedOrigin => rfl
    | _ => exact harmed

theorem Starting.finish (h : s.Starting k origin) {t : ℕ} (hstep : s.step (.finish t) = some s') :
    s'.Starting k origin := by
  rw [VideoCalls.step] at hstep
  split_ifs at hstep
  obtain rfl := Option.some.inj hstep
  exact h

/-- A start that has returned has armed the gate. -/
theorem Starting.armed (h : s.Starting k origin) (hdone : s.calls[k]? = some []) :
    s.server.armedOrigin.isSome := by
  rcases h with ⟨ops, hk⟩ | ⟨harmed, -⟩
  · have hnil := Option.some.inj (hdone.symm.trans hk)
    simp at hnil
  · exact harmed

end VideoCalls

/-! ## The gates of a connection -/

/-- A camera that a login sets is one whose own page logged in. -/
theorem newCamera_admitted {page : Option OriginInfo} {session : SessionState} {msg : Message}
    {answers : Answers} {c : CameraInfo}
    (h : (dispatchMessage page session msg answers).2.newCamera = some c) :
    page = some (OriginInfo.ofCamera c.ip c.httpPort) := by
  have hlogin : ∀ isRelogin cmd,
      (handleLogin isRelogin page session cmd answers).2.newCamera = some c →
      page = some (OriginInfo.ofCamera c.ip c.httpPort) := by
    intro isRelogin cmd h
    unfold handleLogin at h
    dsimp only at h
    split at h
    · cases h
    · by_cases horigin : page.all fun o => !o.matches (cmd.ip.getD []) (cmd.webPort.getD 88)
      · rw [if_pos horigin] at h
        cases h
      · rw [if_neg horigin] at h
        split at h
        · obtain rfl := Option.some.inj h
          cases page with
          | none => exact absurd rfl horigin
          | some o => exact congrArg some (OriginInfo.matches_iff.mp (by simpa using horigin))
        · cases h
  cases msg with
  | requestLogin cmd | requestLoginAgain cmd =>
    cases cmd with
    | none => cases h
    | some cmd => exact hlogin _ cmd h
  | requestCgi cmd => cases cmd <;> cases h
  | requestLogout | requestSnap | requestOpenVideo | requestCloseVideo | other => cases h

namespace Connection

/-- How an event changes a plane: not at all, by an event of the plane, or by a start for the camera
of the session. -/
inductive PlaneStep (s : Connection) (e : Event) (i : ℕ) (p : Plane) : Plane → Prop
  | same : PlaneStep s e i p p
  | event (e' : VideoSession.Event) (p' : Plane) :
      p.step e' = some p' → (∀ origin, e' ≠ .openVideo origin) →
      (∀ k, e' = .advance k → e = .advance i k) → PlaneStep s e i p p'
  | openVideo (camera : CameraInfo) (p' : Plane) :
      s.session.camera = some camera → p.openVideo camera = some p' → PlaneStep s e i p p'

variable {page : Option OriginInfo} {s s' : Connection} {e : Event}

/-- A change of one plane. -/
theorem planeStep_of_onPlane {i j : ℕ} {f : Plane → Option Plane} {q : Plane}
    (h : s.onPlane i f = some s') (hq : s'.planes[j]? = some q)
    (hf : ∀ p p', f p = some p' → PlaneStep s e i p p') :
    ∃ p, s.planes[j]? = some p ∧ PlaneStep s e j p q := by
  obtain ⟨p, p', hp, hp', rfl⟩ := onPlane_cases h
  rcases getElem?_set_cases hq with ⟨rfl, rfl⟩ | ⟨-, hq⟩
  · exact ⟨p, hp, hf p p' hp'⟩
  · exact ⟨q, hq, .same⟩

theorem settle_planes (s : Connection) : s.settle.planes = s.planes := by
  rcases s.settle_cases with heq | ⟨-, -, heq⟩
  · rw [heq]
  · rw [heq]

theorem settle_session (s : Connection) : s.settle.session = s.session := by
  rcases s.settle_cases with heq | ⟨-, -, heq⟩
  · rw [heq]
  · rw [heq]

/-- A teardown stops at most one plane. -/
theorem planeStep_of_teardownVideo {t t' : Connection} {j : ℕ} {q : Plane}
    (h : t.teardownVideo = some t') (ht : t.planes = s.planes) (hq : t'.planes[j]? = some q) :
    ∃ p, s.planes[j]? = some p ∧ PlaneStep s e j p q := by
  obtain ⟨planes, rfl, ⟨rfl, -⟩ | ⟨i, p, p', -, hp, hp', rfl⟩⟩ := teardownVideo_cases h
  · rw [ht] at hq
    exact ⟨q, hq, .same⟩
  · rw [ht] at hp hq
    rcases getElem?_set_cases hq with ⟨rfl, rfl⟩ | ⟨-, hq⟩
    · exact ⟨p, hp, .event .logout _ hp' nofun nofun⟩
    · exact ⟨q, hq, .same⟩

/-- **What an event does to the planes**: a new one is added, or each changes by a step. -/
theorem plane_cases (h : s.step page e = some s') {j : ℕ} {q : Plane}
    (hq : s'.planes[j]? = some q) :
    (s.planes[j]? = none ∧ q = .new) ∨ ∃ p, s.planes[j]? = some p ∧ PlaneStep s e j p q := by
  cases step_cases h with
  | message msg answers s' _ hhandle =>
    cases hhandle with
    | login cmd events action _ hlogin =>
      cases hlogin with
      | rejected _ _ | dialed _ _ _ _ _ _ _ =>
        rw [applyAction_default] at hq
        exact .inr ⟨q, hq, .same⟩
      | armed o host port camera result newVideo dials _ _ _ _ _ _ _ =>
        obtain ⟨planes, hplanes, hnew, -, -⟩ :=
          applyAction_armed
            { s with trace := s.trace ++ loginEvents host port camera.addr dials result }
            camera (cmd.usr, cmd.pwd) newVideo
        rw [hplanes, List.getElem?_append] at hq
        split_ifs at hq with hlt
        · exact .inr ⟨q, hq, .same⟩
        · exact .inl ⟨List.getElem?_eq_none (Nat.le_of_not_lt hlt),
            hnew q (List.mem_of_getElem? hq)⟩
    | proxy events _ => exact .inr ⟨q, hq, .same⟩
    | openVideo i camera s' hcamera _ hplane =>
      exact .inr (planeStep_of_onPlane hplane hq fun p p' => .openVideo camera p' hcamera)
    | closeVideo i s' _ hplane =>
      exact .inr (planeStep_of_onPlane hplane hq fun p p' hp => .event .closeVideo p' hp nofun nofun)
    | logout s' hdown =>
      rw [settle_planes] at hq
      exact .inr (planeStep_of_teardownVideo hdown rfl hq)
  | disconnect s' hdown => exact .inr (planeStep_of_teardownVideo hdown rfl hq)
  | advance i k s' hplane =>
    rw [settle_planes] at hq
    refine .inr (planeStep_of_onPlane hplane hq fun p p' hp => ?_)
    refine .event (.advance k) p' hp nofun ?_
    rintro _ ⟨⟩
    rfl
  | finish i t s' hplane =>
    exact .inr (planeStep_of_onPlane hplane hq fun p p' hp => .event (.finish t) p' hp nofun nofun)
  | dial i t p addr _ _ _ => exact .inr ⟨q, hq, .same⟩

theorem onPlane_session {i : ℕ} {f : Plane → Option Plane} (h : s.onPlane i f = some s') :
    s'.session = s.session := by
  obtain ⟨p, p', -, -, rfl⟩ := onPlane_cases h
  rfl

theorem teardownVideo_camera (h : s.teardownVideo = some s') :
    s'.session.camera = s.session.camera := by
  obtain ⟨planes, rfl, -⟩ := teardownVideo_cases h
  rfl

theorem applyAction_camera (s : Connection) (action : DispatchAction) :
    (s.applyAction action).session.camera = s.session.camera.or action.newCamera := by
  obtain ⟨newCamera, newAuth, newVideo⟩ := action
  cases newAuth <;> cases newVideo <;> rfl

/-- The camera of the session is the one it had, or one that a login was admitted for. -/
theorem camera_cases (h : s.step page e = some s') {c : CameraInfo}
    (hc : s'.session.camera = some c) :
    s.session.camera = some c ∨ page = some (OriginInfo.ofCamera c.ip c.httpPort) := by
  cases e with
  | message msg answers =>
    rw [step] at h
    split_ifs at h
    cases msg with
    | requestOpenVideo | requestCloseVideo =>
      unfold Connection.handle at h
      dsimp only at h
      split at h
      · rw [onPlane_session h] at hc
        exact .inl hc
      · obtain rfl := Option.some.inj h
        exact .inl hc
    | requestLogout =>
      obtain ⟨s'', hs'', rfl⟩ := Option.map_eq_some_iff.mp h
      rw [settle_session, teardownVideo_camera hs''] at hc
      cases hc
    | requestLogin _ | requestLoginAgain _ | requestCgi _ =>
      obtain rfl := Option.some.inj h
      rw [applyAction_camera] at hc
      -- a camera that is set stays, so a second login does not change it
      rcases Option.or_eq_some_iff.mp hc with hc | ⟨-, hc⟩
      · exact .inl hc
      · exact .inr (newCamera_admitted hc)
    | requestSnap | other _ =>
      obtain rfl := Option.some.inj h
      rw [applyAction_camera] at hc
      rcases Option.or_eq_some_iff.mp hc with hc | ⟨-, hc⟩
      · exact .inl hc
      · cases hc
  | disconnect =>
    rw [step] at h
    split_ifs at h
    rw [teardownVideo_camera h] at hc
    exact .inl hc
  | advance i k =>
    obtain ⟨s'', hs'', rfl⟩ := Option.map_eq_some_iff.mp h
    rw [settle_session, onPlane_session hs''] at hc
    exact .inl hc
  | finish i t =>
    rw [onPlane_session h] at hc
    exact .inl hc
  | dial i t =>
    obtain ⟨p, -, h⟩ := Option.bind_eq_some_iff.mp h
    obtain ⟨addr, -, h⟩ := Option.bind_eq_some_iff.mp h
    obtain rfl := Option.some.inj h
    exact .inl hc

/-! ## The origin of the page -/

/-- The camera of the session and the origins of all planes are those of the page. -/
structure PageOnly (o : OriginInfo) (s : Connection) : Prop where
  camera : ∀ c, s.session.camera = some c → OriginInfo.ofCamera c.ip c.httpPort = o
  planes : ∀ (i : ℕ) (p : Plane), s.planes[i]? = some p → p.session.plane.Arms o

variable {o : OriginInfo}

theorem pageOnly_new (o : OriginInfo) : new.PageOnly o := ⟨nofun, nofun⟩

/-- An event of a plane that begins no start. -/
theorem arms_of_event {p p' : VideoSession} {e : VideoSession.Event} (h : p.plane.Arms o)
    (hstep : p.step e = some p')
    (he : ∀ origin, e = .openVideo origin →
      origin = o ∧ ∃ host port, o = OriginInfo.ofCamera host port) : p'.plane.Arms o := by
  have hstop : (p.plane.invoke stopOps).Arms o := h.invoke (by simp [stopOps])
  cases VideoSession.step_cases hstep with
  | idle => exact h
  | start origin =>
    refine h.invoke fun origin' hmem => ?_
    simp only [startOps, stopOps, List.cons_append, List.nil_append, List.mem_cons,
      VideoOp.setArmedOrigin.injEq, reduceCtorEq, false_or, or_false, List.not_mem_nil] at hmem
    rw [hmem]
    exact he origin rfl
  | stop => exact hstop
  | teardown => exact hstop
  | advance i plane hplane => exact h.advance hplane
  | finish t plane hplane => exact h.finish hplane

/-- **A connection stays with the origin of its page**, whatever the browser sends. -/
theorem PageOnly.step (h : s.PageOnly o) (hstep : s.step (some o) e = some s') :
    s'.PageOnly o := by
  refine ⟨fun c hc => ?_, fun i q hq => ?_⟩
  · rcases camera_cases hstep hc with hc | hpage
    · exact h.camera c hc
    · exact (Option.some.inj hpage).symm
  · rcases plane_cases hstep hq with ⟨-, rfl⟩ | ⟨p, hp, hplane⟩
    · exact VideoCalls.arms_new
    · have harms := h.planes i p hp
      cases hplane with
      | same => exact harms
      | event e' q hstep' hopen _ =>
        obtain ⟨session, hsession, rfl⟩ := Option.map_eq_some_iff.mp hstep'
        exact arms_of_event harms hsession fun origin he => absurd he (hopen origin)
      | openVideo camera q hcamera hopen =>
        obtain ⟨session, hsession, rfl⟩ := Option.map_eq_some_iff.mp hopen
        refine arms_of_event harms hsession fun origin he => ?_
        have ho := h.camera camera hcamera
        rw [← VideoSession.Event.openVideo.inj he]
        exact ⟨ho, _, _, ho.symm⟩

/-! ## The last pipeline step -/

/-- On the plane `i`, only the call `k` advances. -/
def onlyCall (i k : ℕ) (_ : Connection) : Event → Prop
  | .advance i' k' => i' = i → k' = k
  | _ => True

instance (i k : ℕ) (s : Connection) : (e : Event) → Decidable (onlyCall i k s e)
  | .advance _ _ => inferInstanceAs (Decidable (_ → _))
  | .message _ _ | .disconnect | .finish _ _ | .dial _ _ => .isTrue trivial

/-- The start `k` of the plane `i` carries that origin, as far as it has come. -/
def StartsOn (i k : ℕ) (origin : OriginInfo) (s : Connection) : Prop :=
  ∃ p, s.planes[i]? = some p ∧ p.session.plane.Starting k origin

theorem length_planes_le (h : s.step page e = some s') : s.planes.length ≤ s'.planes.length := by
  have honPlane : ∀ {t t' : Connection} {i : ℕ} {f : Plane → Option Plane},
      t.onPlane i f = some t' → t'.planes.length = t.planes.length := by
    intro t t' i f h
    obtain ⟨p, p', -, -, rfl⟩ := onPlane_cases h
    exact List.length_set
  have hteardown : ∀ {t t' : Connection}, t.teardownVideo = some t' →
      t'.planes.length = t.planes.length := by
    intro t t' h
    obtain ⟨planes, rfl, ⟨rfl, -⟩ | ⟨i, p, p', -, -, -, rfl⟩⟩ := teardownVideo_cases h
    · rfl
    · exact List.length_set
  cases step_cases h with
  | message msg answers s' _ hhandle =>
    cases hhandle with
    | login cmd events action _ hlogin =>
      cases hlogin with
      | rejected _ _ | dialed _ _ _ _ _ _ _ =>
        rw [applyAction_default]
      | armed o host port camera result newVideo dials _ _ _ _ _ _ _ =>
        obtain ⟨planes, hplanes, -⟩ := applyAction_armed
          { s with trace := s.trace ++ loginEvents host port camera.addr dials result }
          camera (cmd.usr, cmd.pwd) newVideo
        rw [hplanes, List.length_append]
        exact Nat.le_add_right _ _
    | proxy events _ => exact le_rfl
    | openVideo i camera s' _ _ hplane => exact (honPlane hplane).ge
    | closeVideo i s' _ hplane => exact (honPlane hplane).ge
    | logout s' hdown =>
      rw [settle_planes]
      exact (hteardown hdown).ge
  | disconnect s' hdown => exact (hteardown hdown).ge
  | advance i k s' hplane =>
    rw [settle_planes]
    exact (honPlane hplane).ge
  | finish i t s' hplane => exact (honPlane hplane).ge
  | dial i t p addr _ _ _ => exact le_rfl

theorem starting_of_event {k : ℕ} {origin : OriginInfo} {p p' : VideoSession}
    {e : VideoSession.Event} (h : p.plane.Starting k origin) (hstep : p.step e = some p')
    (he : ∀ k', e = .advance k' → k' = k) : p'.plane.Starting k origin := by
  cases VideoSession.step_cases hstep with
  | idle => exact h
  | start => exact h.invoke _
  | stop => exact h.invoke _
  | teardown => exact h.invoke _
  | advance k' plane hplane =>
    obtain rfl := he k' rfl
    exact h.advance hplane
  | finish t plane hplane => exact h.finish hplane

theorem StartsOn.step {i k : ℕ} {origin : OriginInfo} (h : s.StartsOn i k origin)
    (hguard : s.onlyCall i k e) (hstep : s.step page e = some s') : s'.StartsOn i k origin := by
  obtain ⟨p, hp, hstarting⟩ := h
  have hlt : i < s'.planes.length :=
    (List.getElem?_eq_some_iff.mp hp).1.trans_le (length_planes_le hstep)
  refine ⟨s'.planes[i], List.getElem?_eq_getElem hlt, ?_⟩
  rcases plane_cases hstep (List.getElem?_eq_getElem hlt) with ⟨hnone, -⟩ | ⟨p', hp', hplane⟩
  · cases hnone.symm.trans hp
  · obtain rfl := Option.some.inj (hp.symm.trans hp')
    generalize s'.planes[i] = q at hplane
    cases hplane with
    | same => exact hstarting
    | event e' q hstep' _ hadvance =>
      obtain ⟨session, hsession, rfl⟩ := Option.map_eq_some_iff.mp hstep'
      refine starting_of_event hstarting hsession fun k' hk' => ?_
      have he := hadvance k' hk'
      rw [he] at hguard
      exact hguard rfl
    | openVideo camera q _ hopen =>
      obtain ⟨session, hsession, rfl⟩ := Option.map_eq_some_iff.mp hopen
      exact starting_of_event hstarting hsession nofun

/-- An armed gate accepts its own origin only. -/
theorem originAllowed_iff {v : VideoServer} (harmed : v.armedOrigin = some o)
    (hcamera : OriginInfo.ofCamera o.host o.port = o) (raw : Str) :
    v.originAllowed (some raw) = true ↔ OriginInfo.parse raw = some o := by
  simp only [VideoServer.originAllowed, harmed]
  cases hparse : OriginInfo.parse raw with
  | none => simp
  | some o' => simp [OriginInfo.matches_iff, hcamera]

/-- **Both gates accept the same origin.** A page with origin `o` opens a connection and the browser
sends what it likes; then the plane `i` begins a start, which an `openVideo` has spawned, and no
other call advances on the plane until the start has returned. The stream gate of the plane then
accepts a header iff it parses to `o`. -/
theorem gates_agree {header : Str} {before last : List Event} {i k : ℕ} {origin : OriginInfo}
    {p p' : Plane} (ho : OriginInfo.parse header = some o)
    (hbefore : Run (step (OriginInfo.parse header)) free new before s)
    (hp : s.planes[i]? = some p) (hcall : p.session.plane.calls[k]? = some (startOps origin))
    (hlast : Run (step (OriginInfo.parse header)) (onlyCall i k) s last s')
    (hp' : s'.planes[i]? = some p') (hdone : p'.session.plane.calls[k]? = some []) (v : Str) :
    p'.session.plane.server.originAllowed (some v) = true ↔ OriginInfo.parse v = some o := by
  rw [ho] at hbefore hlast
  have hpage : s.PageOnly o :=
    hbefore.invariant (fun _ _ _ hs _ => hs.step) (pageOnly_new o)
  obtain ⟨-, host, port, hcamera⟩ := (hpage.planes i p hp).calls _ (List.mem_of_getElem? hcall)
    origin (by simp [startOps])
  have hstarts : s.StartsOn i k origin := ⟨p, hp, .inl ⟨stopOps, hcall⟩⟩
  have hboth : s'.PageOnly o ∧ s'.StartsOn i k origin :=
    hlast.invariant (I := fun t => t.PageOnly o ∧ t.StartsOn i k origin)
      (fun _ _ _ ht hguard hstep => ⟨ht.1.step hstep, ht.2.step hguard hstep⟩) ⟨hpage, hstarts⟩
  obtain ⟨hpage', q, hq, hstarting⟩ := hboth
  obtain rfl := Option.some.inj (hp'.symm.trans hq)
  obtain ⟨armed, harmed⟩ := Option.isSome_iff_exists.mp (hstarting.armed hdone)
  obtain rfl := (hpage'.planes i p' hp').armed armed harmed
  refine originAllowed_iff harmed ?_ v
  rw [hcamera]
  exact OriginInfo.ofCamera_ofCamera host port

/-- The page of the camera, and a login that claims the same camera in other letters. -/
def sampleHeader : Str := "http://Camera.lan:88".toList

def loginAs (host : Str) : Message :=
  .requestLogin (some ⟨some host, "admin".toList, "secret".toList, some 88, none⟩)

/-- The resolver and the camera answer, and there is a live port. -/
def accepting : Answers :=
  ⟨some [⟨.v4 ⟨192, 168, 1, 50⟩, 88⟩], some 0, some 20000⟩

/-- Two logins of the page, and an `openVideo`. -/
def twoLogins : List Event :=
  [.message (loginAs " CAMERA.lan".toList) accepting,
    .message (loginAs "camera.LAN\t".toList) accepting, .message .requestOpenVideo accepting]

theorem gates_agree_twoLogins :
    ∃ s s' p', Run (step (OriginInfo.parse sampleHeader)) free new twoLogins s ∧
      Run (step (OriginInfo.parse sampleHeader)) (onlyCall 0 0) s
        (List.replicate 9 (.advance 0 0)) s' ∧
      s'.planes[0]? = some p' ∧
      ∀ v, p'.session.plane.server.originAllowed (some v) = true ↔
        OriginInfo.parse v = some ⟨"camera.lan".toList, 88⟩ := by
  have hexec : ((exec (step (OriginInfo.parse sampleHeader)) free new twoLogins).bind fun s =>
      (exec (step (OriginInfo.parse sampleHeader)) (onlyCall 0 0) s
        (List.replicate 9 (.advance 0 0))).map fun s' =>
          (s.planes.map fun p => p.session.plane.calls,
            s'.planes.map fun p => p.session.plane.calls)) =
      some ([[startOps ⟨"camera.lan".toList, 88⟩]], [[[]]]) := by
    decide +kernel
  obtain ⟨s, hs, hexec⟩ := Option.bind_eq_some_iff.mp hexec
  obtain ⟨s', hs', hdata⟩ := Option.map_eq_some_iff.mp hexec
  obtain ⟨hcalls, hcalls'⟩ := Prod.mk.inj hdata
  obtain ⟨p, hplanes, hp⟩ := List.map_eq_singleton_iff.mp hcalls
  obtain ⟨p', hplanes', hp'⟩ := List.map_eq_singleton_iff.mp hcalls'
  have hget : s.planes[0]? = some p := by
    rw [hplanes]
    rfl
  have hget' : s'.planes[0]? = some p' := by
    rw [hplanes']
    rfl
  have hcall : p.session.plane.calls[0]? = some (startOps ⟨"camera.lan".toList, 88⟩) := by
    rw [hp]
    rfl
  have hdone : p'.session.plane.calls[0]? = some [] := by
    rw [hp']
    rfl
  have hparse : OriginInfo.parse sampleHeader = some ⟨"camera.lan".toList, 88⟩ := rfl
  have hrun : Run (step (OriginInfo.parse sampleHeader)) free new twoLogins s := .of_exec hs
  have hrun' : Run (step (OriginInfo.parse sampleHeader)) (onlyCall 0 0) s
      (List.replicate 9 (.advance 0 0)) s' := .of_exec hs'
  exact ⟨s, s', p', hrun, hrun', hget', gates_agree hparse hrun hget hcall hrun' hget' hdone⟩

end Connection

end Fosipcore
