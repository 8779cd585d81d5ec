import Fosipcore.Core.Connection

/-!
# Whom a connection dials

A connection dials the address of a claim that was resolved, validated and matched against the
origin of the page, whatever the messages, the resolver and the camera do. That CGI, snapshot and
RTSP dials come only after a login that the camera accepted is true of the runs in which no
refused login arms the session and no start is late.

## Main definitions

* `Connection.Validated`, `Connection.Authenticated`: what the past of a dial must hold
* `Connection.pinned`: the address of the first accepted login since the last logout
* `Connection.armsAccepted`: the condition on logins and on the steps of the planes

## Main results

* `Connection.run_validated`: every dial of every run goes to a claimed address
* `Connection.run_dials`: dials are validated and authenticated in the runs that meet the condition
* `Connection.unauthenticated_dials`: dials of a refused login, and dials after a logout
-/

namespace Fosipcore

open Machine Text Ip Trace

namespace Connection

/-- The address was resolved before, for a claim that matches the origin of the page. -/
def Claimed (origin : Option OriginInfo) (past : List NetEvent) (ip : IpAddr) : Prop :=
  ∃ o host port addr, origin = some o ∧ .resolved host port addr ∈ past ∧
    o.matches host port = true ∧ addr.ip = ip

/-- A dial goes to a claimed address. -/
def Validated (origin : Option OriginInfo) (past : List NetEvent) : NetEvent → Prop
  | .dial _ addr => Claimed origin past addr.ip
  | _ => True

/-- A login that the camera accepted pins its address until the next logout. -/
def acceptedLogin : NetEvent → Signal SocketAddr
  | .loggedIn addr result => if result = 0 then .offer addr else .keep
  | .loggedOut => .clear
  | _ => .keep

/-- The address of the first accepted login since the last logout. -/
def pinned (past : List NetEvent) : Option SocketAddr := latch acceptedLogin past

/-- CGI, snapshot and RTSP dials are made while a login is pinned. -/
def Authenticated (past : List NetEvent) : NetEvent → Prop
  | .dial .login _ => True
  | .dial .initInfo _ => True
  | .dial _ _ => (pinned past).isSome
  | _ => True

/-! ## Validated dials -/

theorem Claimed.mono {origin : Option OriginInfo} {past : List NetEvent} {ip : IpAddr}
    (h : Claimed origin past ip) (es : List NetEvent) : Claimed origin (past ++ es) ip := by
  obtain ⟨o, host, port, addr, ho, hmem, hmatch, hip⟩ := h
  exact ⟨o, host, port, addr, ho, List.mem_append_left es hmem, hmatch, hip⟩

/-- What the connection keeps for later dials is claimed: the camera of the session and the
targets of the pipelines. -/
structure Tied (origin : Option OriginInfo) (s : Connection) : Prop where
  checked : Checked (Validated origin) s.trace
  camera : ∀ c, s.session.camera = some c → Claimed origin s.trace c.addr.ip
  targets : ∀ p ∈ s.planes, ∀ x ∈ p.targets, Claimed origin s.trace x.2.ip

variable {origin : Option OriginInfo} {s s' : Connection}

theorem tied_new : new.Tied origin := ⟨.nil, nofun, nofun⟩

/-- More events, which are validated themselves. -/
theorem Tied.extend (h : s.Tied origin) {es : List NetEvent}
    (hes : Checked (fun past => Validated origin (s.trace ++ past)) es) :
    { s with trace := s.trace ++ es }.Tied origin := by
  constructor
  · exact checked_append.mpr ⟨h.checked, hes⟩
  · intro c hc
    exact (h.camera c hc).mono es
  · intro p hp x hx
    exact (h.targets p hp x hx).mono es

/-- A change of a plane that adds no target but claimed ones. -/
theorem Tied.onPlane (h : s.Tied origin) {i : ℕ} {f : Plane → Option Plane}
    (hf : ∀ p p', f p = some p' → ∀ x ∈ p'.targets,
      x ∈ p.targets ∨ Claimed origin s.trace x.2.ip)
    (hstep : s.onPlane i f = some s') : s'.Tied origin := by
  obtain ⟨p, p', -, -, rfl⟩ := onPlane_cases hstep
  refine ⟨h.checked, h.camera, fun q hq x hx => ?_⟩
  rcases mem_planes_onPlane hstep hq with hq | ⟨p, hp, hpq⟩
  · exact h.targets q hq x hx
  · rcases hf p q hpq x hx with hx | hx
    · exact h.targets p hp x hx
    · exact hx

theorem Tied.planeStep (h : s.Tied origin) {i : ℕ} {e : VideoSession.Event}
    (hstep : s.onPlane i (Plane.step · e) = some s') : s'.Tied origin := by
  apply h.onPlane _ hstep
  intro p p' hp' x hx
  rw [Plane.step_targets hp'] at hx
  exact .inl hx

theorem Tied.settle (h : s.Tied origin) : s.settle.Tied origin := by
  rcases s.settle_cases with heq | ⟨-, -, heq⟩
  · rwa [heq]
  · have hlogout : Checked (fun past => Validated origin (s.trace ++ past)) [.loggedOut] :=
      checked_cons.mpr ⟨trivial, .nil⟩
    have hout := h.extend hlogout
    rw [heq]
    exact ⟨hout.checked, hout.camera, hout.targets⟩

/-- A teardown touches neither the camera nor the targets. -/
theorem Tied.teardownVideo (h : s.Tied origin) (hstep : s.teardownVideo = some s') :
    s'.Tied origin := by
  obtain ⟨planes, rfl, -⟩ := teardownVideo_cases hstep
  refine ⟨h.checked, h.camera, fun q hq x hx => ?_⟩
  rcases mem_planes_teardownVideo hstep hq with hq | ⟨p, hp, hpq⟩
  · exact h.targets q hq x hx
  · rw [Plane.step_targets hpq] at hx
    exact h.targets p hp x hx

/-- Behind its resolve, a login dials one address. -/
theorem forall_loginDials {P : NetEvent → Prop} {addr : SocketAddr} {dials : List NetEvent}
    {result : ℤ} (hdials : ∀ e ∈ dials, e = .dial .initInfo addr)
    (hlogin : P (.dial .login addr)) (hinfo : P (.dial .initInfo addr))
    (hlogged : P (.loggedIn addr result)) :
    ∀ e ∈ .dial .login addr :: (dials ++ [.loggedIn addr result]), P e := by
  intro e he
  rcases List.mem_cons.mp he with rfl | he
  · exact hlogin
  · rcases List.mem_append.mp he with he | he
    · rw [hdials e he]
      exact hinfo
    · rw [List.mem_singleton.mp he]
      exact hlogged

/-- **A login dials the address that it has resolved**, and keeps it for later dials. -/
theorem Tied.login (h : s.Tied origin) {cmd : LoginCmd} {answers : Answers}
    {events : List NetEvent} {action : DispatchAction}
    (hlogin : LoginStep origin s.session cmd answers events action) :
    ({ s with trace := s.trace ++ events }.applyAction action).Tied origin := by
  cases hlogin with
  | rejected events hevents =>
    rw [applyAction_default]
    apply h.extend
    apply Checked.of_forall
    intro past e he
    obtain ⟨host, port, addr, rfl⟩ := hevents e he
    trivial
  | dialed o host port addr ho hmatch _ =>
    rw [applyAction_default]
    apply h.extend
    refine checked_cons.mpr ⟨trivial, checked_cons.mpr ⟨?_, .nil⟩⟩
    exact ⟨o, host, port, addr, ho, List.mem_append_right _ List.mem_cons_self, hmatch, rfl⟩
  | armed o host port camera result newVideo dials ho hmatch _ _ _ _ hdials =>
    -- whatever follows the resolve, its address is claimed
    have hclaimed : ∀ past, Claimed origin
        (s.trace ++ .resolved host port camera.addr :: past) camera.addr.ip := fun past =>
      ⟨o, host, port, camera.addr, ho, List.mem_append_right _ List.mem_cons_self, hmatch, rfl⟩
    have hdialed : { s with
        trace := s.trace ++ loginEvents host port camera.addr dials result }.Tied origin := by
      apply h.extend
      refine checked_cons.mpr ⟨trivial, Checked.of_forall fun past => ?_⟩
      exact forall_loginDials hdials (hclaimed past) (hclaimed past) trivial
    obtain ⟨planes, hplanes, hnew, htrace, hcamera⟩ := applyAction_armed
      { s with trace := s.trace ++ loginEvents host port camera.addr dials result }
      camera (cmd.usr, cmd.pwd) newVideo
    constructor
    · rw [htrace]
      exact hdialed.checked
    · intro c hc
      rw [hcamera, Option.or_eq_some_iff] at hc
      rw [htrace]
      rcases hc with hc | ⟨-, hc⟩
      · exact hdialed.camera c hc
      · obtain rfl := Option.some.inj hc
        exact hclaimed _
    · intro p hp x hx
      rw [htrace]
      rw [hplanes] at hp
      rcases List.mem_append.mp hp with hp | hp
      · exact hdialed.targets p hp x hx
      · obtain rfl := hnew p hp
        cases hx

theorem Tied.handle {msg : Message} {answers : Answers} (h : s.Tied origin)
    (hstep : HandleStep origin s msg answers s') : s'.Tied origin := by
  cases hstep with
  | login cmd events action _ hlogin => exact h.login hlogin
  | proxy events hevents =>
    apply h.extend
    apply Checked.of_forall
    intro past e he
    obtain ⟨kind, camera, hcamera, rfl⟩ := hevents e he
    exact (h.camera camera hcamera).mono past
  | openVideo i camera s' hcamera _ hplane =>
    apply h.onPlane _ hplane
    intro p p' hp' x hx
    obtain ⟨session, -, rfl⟩ := Option.map_eq_some_iff.mp hp'
    rcases List.mem_cons.mp hx with rfl | hx
    · exact .inr (h.camera camera hcamera)
    · exact .inl hx
  | closeVideo i s' _ hplane => exact h.planeStep hplane
  | logout s' hdown =>
    have hlogout : s.logout.Tied origin := ⟨h.checked, nofun, h.targets⟩
    exact (hlogout.teardownVideo hdown).settle

theorem Tied.step {e : Event} (h : s.Tied origin) (hstep : s.step origin e = some s') :
    s'.Tied origin := by
  cases step_cases hstep with
  | message msg answers s' _ hhandle => exact h.handle hhandle
  | disconnect s' hdown =>
    have hclose : s.close.Tied origin := ⟨h.checked, h.camera, h.targets⟩
    exact hclose.teardownVideo hdown
  | advance i k s' hplane => exact (h.planeStep hplane).settle
  | finish i t s' hplane => exact h.planeStep hplane
  | dial i t p addr hp _ htarget =>
    have hclaimed := h.targets p (List.mem_of_getElem? hp) _ htarget
    exact h.extend (checked_cons.mpr ⟨hclaimed.mono [], .nil⟩)

/-- **Every dial of every run goes to a claimed address.** -/
theorem run_validated {guard : Connection → Event → Prop} {es : List Event}
    (h : Run (step origin) guard new es s) : Checked (Validated origin) s.trace := by
  have htied : s.Tied origin :=
    h.invariant (I := Tied origin) (fun _ _ _ hs _ hstep => hs.step hstep) tied_new
  exact htied.checked

/-- A connection without a usable origin never dials. -/
theorem no_dial_of_no_origin {trace : List NetEvent} (h : Checked (Validated none) trace)
    (kind : DialKind) (addr : SocketAddr) : .dial kind addr ∉ trace := by
  intro hmem
  obtain ⟨past, rest, htrace⟩ := List.append_of_mem hmem
  obtain ⟨o, -, -, -, ho, -⟩ := h past (.dial kind addr) rest htrace
  cases ho

/-! ## Authenticated dials -/

/-- The planes keep their handles, and a login that arms a session without a camera was accepted
by the camera. -/
def armsAccepted (origin : Option OriginInfo) (s : Connection) (e : Event) : Prop :=
  s.keepsHandles e ∧
    match e with
    | .message msg answers =>
      ∀ cmd ∈ msg.loginCmd, s.session.camera = none →
        admitted origin cmd answers.lookupHost ≠ none →
        s.session.livePort.isSome ∨ answers.alloc.isSome →
        ∀ result ∈ answers.login, result = 0
    | _ => True

instance : (e : Event) → Decidable (armsAccepted origin s e)
  | .message _ _ => inferInstanceAs (Decidable (_ ∧ ∀ cmd ∈ _, _ → _ → _ → _))
  | .disconnect | .advance _ _ | .finish _ _ | .dial _ _ => inferInstanceAs (Decidable (_ ∧ True))

/-- A session that has a camera, or whose video server is on its way down, has logged in. -/
structure Armed (s : Connection) : Prop where
  checked : Checked Authenticated s.trace
  camera : s.session.camera.isSome → (pinned s.trace).isSome
  torn : ∀ p ∈ s.planes, p.session.video = false → p.session.awaiting.isSome →
    (pinned s.trace).isSome

theorem armed_new : new.Armed := ⟨.nil, nofun, nofun⟩

/-- More events, which leave the pinned address alone and are authenticated themselves. -/
theorem Armed.extend (h : s.Armed) {es : List NetEvent}
    (hkeep : ∀ e ∈ es, acceptedLogin e = .keep)
    (hes : Checked (fun past => Authenticated (s.trace ++ past)) es) :
    { s with trace := s.trace ++ es }.Armed := by
  have hpinned : pinned (s.trace ++ es) = pinned s.trace := latch_append_of_keep _ hkeep
  constructor
  · exact checked_append.mpr ⟨h.checked, hes⟩
  · rw [hpinned]
    exact h.camera
  · rw [hpinned]
    exact h.torn

/-- Dials of a pinned session. -/
theorem Armed.dials (h : s.Armed) {es : List NetEvent} (hes : ∀ e ∈ es, ∃ kind addr,
    e = .dial kind addr ∧ (pinned s.trace).isSome) : { s with trace := s.trace ++ es }.Armed := by
  have hkeep : ∀ e ∈ es, acceptedLogin e = .keep := by
    intro e he
    obtain ⟨kind, addr, rfl, -⟩ := hes e he
    rfl
  apply h.extend hkeep
  intro past e rest heq
  obtain ⟨kind, addr, rfl, hpinned⟩ := hes e (by rw [heq]; exact List.mem_append_cons_self)
  -- the dials before this one leave the pinned address alone
  have hpast : pinned (s.trace ++ past) = pinned s.trace := by
    apply latch_append_of_keep
    intro e he
    apply hkeep
    rw [heq]
    exact List.mem_append_left _ he
  rw [← hpast] at hpinned
  cases kind with
  | login | initInfo => trivial
  | cgi | cgiFullPath | snapshot | rtsp => exact hpinned

/-- A change of a plane that does not begin a teardown. -/
theorem Armed.onPlane (h : s.Armed) {i : ℕ} {f : Plane → Option Plane}
    (hf : ∀ p p', f p = some p' → p'.session.video = false → p'.session.awaiting.isSome →
      p.session.video = false ∧ p.session.awaiting.isSome)
    (hstep : s.onPlane i f = some s') : s'.Armed := by
  obtain ⟨p, p', -, -, rfl⟩ := onPlane_cases hstep
  refine ⟨h.checked, h.camera, fun q hq hvideo hawait => ?_⟩
  rcases mem_planes_onPlane hstep hq with hq | ⟨p, hp, hpq⟩
  · exact h.torn q hq hvideo hawait
  · obtain ⟨hvideo, hawait⟩ := hf p q hpq hvideo hawait
    exact h.torn p hp hvideo hawait

/-- A step of a session other than a teardown does not begin one. -/
theorem torn_of_step {v v' : VideoSession} {e : VideoSession.Event} (hstep : v.step e = some v')
    (hlogout : e ≠ .logout) (hdisconnect : e ≠ .disconnect) (hvideo : v'.video = false)
    (hawait : v'.awaiting.isSome) : v.video = false ∧ v.awaiting.isSome := by
  rw [VideoSession.step_video_eq hstep hlogout hdisconnect] at hvideo
  constructor
  · exact hvideo
  · apply (VideoSession.step_awaiting hstep hawait).resolve_left
    rw [hvideo]
    exact nofun

theorem Armed.planeStep (h : s.Armed) {i : ℕ} {e : VideoSession.Event} (hlogout : e ≠ .logout)
    (hdisconnect : e ≠ .disconnect) (hstep : s.onPlane i (Plane.step · e) = some s') :
    s'.Armed := by
  apply h.onPlane _ hstep
  intro p p' hp'
  obtain ⟨session, hsession, rfl⟩ := Option.map_eq_some_iff.mp hp'
  exact torn_of_step hsession hlogout hdisconnect

/-- A logout that ends leaves no plane waiting, and no camera. -/
theorem Armed.settle (h : s.Armed) (hlogout : s.loggingOut = true → s.session.camera = none) :
    s.settle.Armed := by
  rcases s.settle_cases with heq | ⟨hout, hidle, heq⟩
  · rwa [heq]
  · rw [heq]
    constructor
    · exact checked_snoc.mpr ⟨h.checked, trivial⟩
    · intro hcamera
      rw [show s.session.camera = none from hlogout hout] at hcamera
      cases hcamera
    · intro p hp _ hawait
      rw [hidle p hp] at hawait
      cases hawait

/-- The teardown of a pinned session. -/
theorem Armed.teardownVideo (h : s.Armed) (hvideo : s.session.video.isSome →
    (pinned s.trace).isSome) (hstep : s.teardownVideo = some s') : s'.Armed := by
  obtain ⟨planes, rfl, hcases⟩ := teardownVideo_cases hstep
  refine ⟨h.checked, h.camera, ?_⟩
  rcases hcases with ⟨rfl, -⟩ | ⟨i, p, p', hi, -, -, rfl⟩
  · exact h.torn
  · intro q hq hqvideo hawait
    exact hvideo (Option.isSome_of_eq_some hi)

/-- What a login that arms the session does to a latch that only looks at its end. -/
theorem latch_loginEvents {β : Type*} {sig : NetEvent → Signal β} (past : List NetEvent)
    (hresolved : ∀ host port addr, sig (.resolved host port addr) = .keep)
    (hdial : ∀ kind addr, sig (.dial kind addr) = .keep) (host : Str) (port : UInt16)
    (addr : SocketAddr) {dials : List NetEvent} (result : ℤ)
    (hdials : ∀ e ∈ dials, e = .dial .initInfo addr) :
    latch sig (past ++ loginEvents host port addr dials result) =
      (sig (.loggedIn addr result)).apply (latch sig past) := by
  rw [loginEvents, ← List.cons_append, ← List.cons_append, ← List.append_assoc, latch_snoc]
  congr 1
  apply latch_append_of_keep
  intro e he
  rcases List.mem_cons.mp he with rfl | he
  · exact hresolved host port addr
  · rcases List.mem_cons.mp he with rfl | he
    · exact hdial .login addr
    · rw [hdials e he]
      exact hdial .initInfo addr

/-- An accepted login pins its address, unless one is pinned already. -/
theorem pinned_loginEvents (past : List NetEvent) (host : Str) (port : UInt16) (addr : SocketAddr)
    (result : ℤ) {dials : List NetEvent} (hdials : ∀ e ∈ dials, e = .dial .initInfo addr) :
    pinned (past ++ loginEvents host port addr dials result) =
      if result = 0 then (pinned past).or (some addr) else pinned past := by
  have hlatch : pinned (past ++ loginEvents host port addr dials result) =
      (acceptedLogin (.loggedIn addr result)).apply (pinned past) :=
    latch_loginEvents _ (fun _ _ _ => rfl) (fun _ _ => rfl) host port addr result hdials
  rw [hlatch, acceptedLogin]
  split_ifs
  · rfl
  · rfl

/-- **A login arms the session only if the camera accepts it**, or if it has a camera already. -/
theorem Armed.login (h : s.Armed) {cmd : LoginCmd} {answers : Answers} {events : List NetEvent}
    {action : DispatchAction} (hguard : s.session.camera = none →
      admitted origin cmd answers.lookupHost ≠ none →
      s.session.livePort.isSome ∨ answers.alloc.isSome → ∀ result ∈ answers.login, result = 0)
    (hlogin : LoginStep origin s.session cmd answers events action) :
    ({ s with trace := s.trace ++ events }.applyAction action).Armed := by
  cases hlogin with
  | rejected events hevents =>
    rw [applyAction_default]
    apply h.extend
    · intro e he
      obtain ⟨host, port, addr, rfl⟩ := hevents e he
      rfl
    · apply Checked.of_forall
      intro past e he
      obtain ⟨host, port, addr, rfl⟩ := hevents e he
      trivial
  | dialed o host port addr _ _ _ =>
    rw [applyAction_default]
    apply h.extend
    · simp [acceptedLogin]
    · exact checked_cons.mpr ⟨trivial, checked_cons.mpr ⟨trivial, .nil⟩⟩
  | armed o host port camera result newVideo dials _ _ hadmitted hresult halloc _ hdials =>
    have hlogin := pinned_loginEvents s.trace host port camera.addr result hdials
    have hpinned : (pinned (s.trace ++ loginEvents host port camera.addr dials result)).isSome := by
      rw [hlogin]
      cases hcamera : s.session.camera with
      | some c =>
        have hheld := h.camera (Option.isSome_of_eq_some hcamera)
        rwa [Option.or_of_isSome hheld, ite_self]
      | none =>
        have hzero : result = 0 := by
          apply hguard hcamera _ halloc result hresult
          rw [hadmitted]
          exact nofun
        rw [if_pos hzero, Option.isSome_or]
        exact Bool.or_true _
    obtain ⟨planes, hplanes, hnew, htrace, -⟩ := applyAction_armed
      { s with trace := s.trace ++ loginEvents host port camera.addr dials result }
      camera (cmd.usr, cmd.pwd) newVideo
    constructor
    · rw [htrace]
      refine checked_append.mpr ⟨h.checked, checked_cons.mpr ⟨trivial, ?_⟩⟩
      exact Checked.of_forall fun _ => forall_loginDials hdials trivial trivial trivial
    · rw [htrace]
      exact fun _ => hpinned
    · rw [htrace]
      exact fun _ _ _ _ => hpinned

theorem Armed.handle {msg : Message} {answers : Answers} (h : s.Armed) (hsound : s.Sound)
    (hguard : armsAccepted origin s (.message msg answers))
    (hstep : HandleStep origin s msg answers s') : s'.Armed := by
  cases hstep with
  | login cmd events action hcmd hlogin => exact h.login (hguard.2 cmd hcmd) hlogin
  | proxy events hevents =>
    apply h.dials
    intro e he
    obtain ⟨kind, camera, hcamera, rfl⟩ := hevents e he
    exact ⟨kind, camera.addr, rfl, h.camera (Option.isSome_of_eq_some hcamera)⟩
  | openVideo i camera s' _ _ hplane =>
    apply h.onPlane _ hplane
    intro p p' hp'
    obtain ⟨session, hsession, rfl⟩ := Option.map_eq_some_iff.mp hp'
    exact torn_of_step hsession (by simp) (by simp)
  | closeVideo i s' _ hplane => exact h.planeStep (e := .closeVideo) (by simp) (by simp) hplane
  | logout s' hdown =>
    have hlogout : s.logout.Armed := ⟨h.checked, nofun, h.torn⟩
    have hcamera : s'.session.camera = none := by
      obtain ⟨planes, rfl, -⟩ := teardownVideo_cases hdown
      rfl
    apply (hlogout.teardownVideo _ hdown).settle
    · exact fun _ => hcamera
    · intro hvideo
      exact h.camera (hsound.camera hvideo)

theorem Armed.step {e : Event} (h : s.Armed) (hsound : s.Sound)
    (hguard : armsAccepted origin s e) (hstep : s.step origin e = some s') : s'.Armed := by
  cases step_cases hstep with
  | message msg answers s' _ hhandle => exact h.handle hsound hguard hhandle
  | disconnect s' hdown =>
    have hclose : s.close.Armed := ⟨h.checked, h.camera, h.torn⟩
    apply hclose.teardownVideo _ hdown
    intro hvideo
    exact h.camera (hsound.camera hvideo)
  | advance i k s' hplane =>
    apply (h.planeStep (e := .advance k) (by simp) (by simp) hplane).settle
    obtain ⟨p, p', -, -, rfl⟩ := onPlane_cases hplane
    exact hsound.loggingOut
  | finish i t s' hplane => exact h.planeStep (e := .finish t) (by simp) (by simp) hplane
  | dial i t p addr hp hrunning _ =>
    -- a plane with a running pipeline has its video server, or is on its way down
    have hactive := (hsound.planes p (List.mem_of_getElem? hp)).active_of_running hrunning
    have hpinned : (pinned s.trace).isSome := by
      by_cases hvideo : p.session.video = true
      · apply h.camera
        apply hsound.camera
        exact Option.isSome_of_eq_some (hsound.live i p hp hvideo)
      · apply h.torn p (List.mem_of_getElem? hp) (Bool.eq_false_iff.mpr hvideo)
        exact hactive.resolve_left hvideo
    apply h.dials
    intro e he
    obtain rfl := List.mem_singleton.mp he
    exact ⟨.rtsp, addr, rfl, hpinned⟩

/-- **Every dial goes to a claimed address, and CGI, snapshot and RTSP dials need a login**, in
every run in which only accepted logins arm a session without a camera and no start is late. A
connection without a usable origin never dials. -/
theorem run_dials {es : List Event} (h : Run (step origin) (armsAccepted origin) new es s) :
    Checked (Validated origin) s.trace ∧ Checked Authenticated s.trace ∧
      (origin = none → ∀ kind addr, .dial kind addr ∉ s.trace) := by
  have hinv : s.Sound ∧ s.Armed := by
    apply h.invariant (I := fun s => s.Sound ∧ s.Armed) _ ⟨sound_new, armed_new⟩
    intro s e s' hs hguard hstep
    exact ⟨hs.1.step hguard.1 hstep, hs.2.step hs.1 hguard hstep⟩
  refine ⟨run_validated h, hinv.2.checked, ?_⟩
  rintro rfl
  exact no_dial_of_no_origin (run_validated h)

/-! ## Samples -/

/-- The page of a camera. -/
def samplePage : Option OriginInfo := some ⟨"camera.lan".toList, 88⟩

/-- The login that the page of the camera sends. -/
def sampleLogin : Message := .requestLogin (some
  ⟨some "camera.lan".toList, "admin".toList, "secret".toList, some 88, some 554⟩)

/-- An address on the local network. -/
def sampleAddr (host : UInt8) (port : UInt16) : SocketAddr := ⟨.v4 ⟨192, 168, 1, host⟩, port⟩

/-- The answers to a login: the address of the name, and the `result` of the camera. -/
def sampleAnswers (host : UInt8) (result : ℤ) : Answers :=
  ⟨some [sampleAddr host 88], some result, some 20000⟩

/-- What a login of the page does on the network. -/
def sampleEvents (host : UInt8) (result : ℤ) : List NetEvent :=
  loginEvents "camera.lan".toList 88 (sampleAddr host 88) (gatherInitInfo (sampleAddr host 88))
    result

/-- A CGI request. -/
def sampleCgi : Message := .requestCgi (some ⟨"getDevState".toList, "getDevState".toList⟩)

/-- A login, the video, a CGI request, and a logout. -/
def wholeVisit : List Event :=
  .message sampleLogin (sampleAnswers 50 0) :: .message .requestOpenVideo (sampleAnswers 50 0) ::
    (List.replicate 9 (.advance 0 0) ++ [.dial 0 0, .message sampleCgi (sampleAnswers 50 0),
      .message .requestLogout (sampleAnswers 50 0)] ++ List.replicate 4 (.advance 0 1))

theorem run_dials_wholeVisit :
    ∃ s, Run (step samplePage) (armsAccepted samplePage) new wholeVisit s ∧
      s.trace = sampleEvents 50 0 ++
        [.dial .rtsp (sampleAddr 50 554), .dial .cgi (sampleAddr 50 88), .loggedOut] ∧
      Checked (Validated samplePage) s.trace ∧ Checked Authenticated s.trace := by
  have hexec : (exec (step samplePage) (armsAccepted samplePage) new wholeVisit).map
      Connection.trace = some (sampleEvents 50 0 ++
        [.dial .rtsp (sampleAddr 50 554), .dial .cgi (sampleAddr 50 88), .loggedOut]) := by
    decide +kernel
  obtain ⟨s, hrun, htrace⟩ := Run.of_exec_map hexec
  have hdials := run_dials hrun
  exact ⟨s, hrun, htrace, hdials.1, hdials.2.1⟩

/-- The camera refuses the login, and the page sends a CGI request. -/
def refusedLogin : List Event :=
  [.message sampleLogin (sampleAnswers 50 (-1)), .message sampleCgi (sampleAnswers 50 0)]

/-- The video is opened, and its start makes its first step when the logout is over. -/
def lateStart : List Event :=
  .message sampleLogin (sampleAnswers 50 0) :: .message .requestOpenVideo (sampleAnswers 50 0) ::
    .message .requestLogout (sampleAnswers 50 0) ::
    (List.replicate 4 (.advance 0 1) ++ List.replicate 9 (.advance 0 0) ++ [.dial 0 0])

/-- **Dials without a login**: a CGI dial when no login was accepted, and an RTSP dial after a
logout. -/
theorem unauthenticated_dials :
    (∃ s, Run (step samplePage) free new refusedLogin s ∧
      s.trace = sampleEvents 50 (-1) ++ [.dial .cgi (sampleAddr 50 88)] ∧
      ¬ Checked Authenticated s.trace) ∧
    ∃ s, Run (step samplePage) free new lateStart s ∧
      s.trace = sampleEvents 50 0 ++ [.loggedOut, .dial .rtsp (sampleAddr 50 554)] ∧
      ¬ Checked Authenticated s.trace := by
  have hrefused : (exec (step samplePage) free new refusedLogin).map Connection.trace =
      some (sampleEvents 50 (-1) ++ [.dial .cgi (sampleAddr 50 88)]) := by
    decide +kernel
  have hlate : (exec (step samplePage) free new lateStart).map Connection.trace =
      some (sampleEvents 50 0 ++ [.loggedOut, .dial .rtsp (sampleAddr 50 554)]) := by
    decide +kernel
  obtain ⟨s, hrun, htrace⟩ := Run.of_exec_map hrefused
  obtain ⟨t, hrun', htrace'⟩ := Run.of_exec_map hlate
  refine ⟨⟨s, hrun, htrace, fun h => ?_⟩, ⟨t, hrun', htrace', fun h => ?_⟩⟩
  · have hpinned : (pinned (sampleEvents 50 (-1))).isSome :=
      h _ (.dial .cgi (sampleAddr 50 88)) [] htrace
    cases hpinned
  · have hpinned : (pinned (sampleEvents 50 0 ++ [.loggedOut])).isSome := by
      apply h _ (.dial .rtsp (sampleAddr 50 554)) []
      rw [htrace', List.append_assoc]
      rfl
    cases hpinned

end Connection

end Fosipcore
